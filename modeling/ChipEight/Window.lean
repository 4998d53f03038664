import ChipEight.FrameBudget
import ChipEight.Inspector
import ChipEight.Screen.Render
import ChipEight.Window.Keys

/-!
# The window

A window shows the machine frame by frame. In each frame the events that came in are dealt with,
then the machine takes the steps that the frame is allotted, or, during a pause, only its timers
tick; then the screen is shown. A frame in which the window is told to close is still finished.

During a pause keys going up reach the keypad and keys going down do not: those are commands to
step, to go on or to close. So a key that was down before the pause cannot stay down by itself.
-/

namespace ChipEight

open Number

/-- What the host tells a window. -/
inductive HostEvent
  | keyDown (code : Int)
  | keyUp (code : Int)
  | quit
  | other
  deriving DecidableEq, Repr

/-- How a window was set up. -/
structure WindowOptions where
  scale : Int
  fps : Int
  keyMap : KeyMap
  startPaused : Bool := false
  limit : Option Int := none

/-- How time passes: the clock's answer at a step and beside one, and what a frame does to it. -/
structure WindowTime (σ : Type) where
  ask : Clock σ
  look : Clock σ
  passFrame : σ → σ

/-- A window at work. -/
structure WindowState (σ : Type) where
  bench : Bench σ
  inspector : Inspector := {}
  budget : FrameBudget
  paused : Bool
  running : Bool := true

/-- What a frame showed, and how many frames in a second it was one of. -/
structure FrameShown where
  fps : Int
  caption : String
  rectangles : List Rectangle
  panel : Option (List PanelLine)
  steps : Nat
  pc : Int
  registers : List UInt8
  delay : UInt8
  sound : UInt8
  keys : List Key

variable {σ : Type}

namespace WindowState

/-- The height of a line of the panel. -/
abbrev lineHeight : Nat := 14

/-- Changes the keypad. -/
def onKeypad (w : WindowState σ) (change : Keypad → Keypad) : WindowState σ :=
  let machine := w.bench.machine
  let board := { machine.board with keypad := change machine.board.keypad }
  { w with bench := { w.bench with machine := { machine with board } } }

/-- A key of the host that may stand for one of the keypad goes down or up. -/
def hostKey (map : KeyMap) (code : Int) (change : Keypad → Key → Keypad) (w : WindowState σ) :
    WindowState σ :=
  match map.key? code with
  | some key => w.onKeypad fun keypad => change keypad key
  | none => w

/-- Brings the inspector up to date under a new first line. -/
def inspect (w : WindowState σ) (status : String) : WindowState σ :=
  { w with inspector := (w.inspector.setStatus status).capture w.bench.machine }

/-- Starts or ends a pause. -/
def togglePause (w : WindowState σ) : WindowState σ :=
  let paused := !w.paused
  { w with paused }.inspect (if paused then "Debug paused" else "")

/-- Lets the machine take steps within the limit. -/
def runSteps (time : WindowTime σ) (o : WindowOptions) (steps : Int) (w : WindowState σ) :
    WindowState σ × Option Trouble :=
  let (inspector, bench, trouble) := w.inspector.runFrame time.ask steps o.limit w.bench
  ({ w with inspector, bench }, trouble)

/-- A key goes down during a pause. -/
def pausedKey (time : WindowTime σ) (o : WindowOptions) (code : Int) (w : WindowState σ) :
    WindowState σ × Option Trouble :=
  if code = quitCode then ({ w with running := false }, none)
  else if code = spaceCode then
    ({ w with paused := false, inspector := w.inspector.setStatus "Resumed" }, none)
  else if code = stepCode then
    match w.runSteps time o 1 with
    | (w, none) => (w.inspect "Stepped", none)
    | (w, some trouble) => (w, some trouble)
  else (w, none)

/-- Deals with one event. -/
def handle (time : WindowTime σ) (o : WindowOptions) (w : WindowState σ) :
    HostEvent → WindowState σ × Option Trouble
  | .quit => ({ w with running := false }, none)
  | .keyDown code =>
    if code = escapeCode then (w.togglePause, none)
    else if w.paused then w.pausedKey time o code
    else (w.hostKey o.keyMap code Keypad.press, none)
  | .keyUp code => (w.hostKey o.keyMap code Keypad.release, none)
  | .other => (w, none)

/-- Deals with events in order. -/
def handleAll (time : WindowTime σ) (o : WindowOptions) (w : WindowState σ) :
    List HostEvent → WindowState σ × Option Trouble
  | [] => (w, none)
  | event :: rest =>
    match w.handle time o event with
    | (w, some trouble) => (w, some trouble)
    | (w, none) => w.handleAll time o rest

/-- What the machine does in a frame after the events. -/
def advance (time : WindowTime σ) (o : WindowOptions) (w : WindowState σ) :
    WindowState σ × Option Trouble :=
  if w.paused then
    let (now, clock) := time.look w.bench.clock
    let machine := w.bench.machine.tickTimers now
    ({ w with bench := { w.bench with machine, clock } }, none)
  else
    match w.budget.next with
    | .error trouble => (w, some trouble)
    | .ok (steps, budget) => { w with budget }.runSteps time o steps

/-- The squares of the screen at the window's scale. -/
def squares (o : WindowOptions) (w : WindowState σ) : List Rectangle :=
  match w.bench.machine.board.screen.surface o.scale (.ok Palette.standard) with
  | .ok surface => surface.rectangles
  | .error _ => []

/-- Shows a frame; during a pause the inspector is brought up to date first. -/
def render (o : WindowOptions) (w : WindowState σ) : WindowState σ × FrameShown :=
  let machine := w.bench.machine
  let w := if w.paused then { w with inspector := w.inspector.capture machine } else w
  let board := machine.board
  (w,
    { fps := o.fps
      caption := machine.caption w.paused
      rectangles := w.squares o
      panel := if w.paused then some (w.inspector.panel lineHeight) else none
      steps := machine.steps
      pc := board.processor.pc
      registers := board.processor.registers.toList
      delay := board.delay.value
      sound := board.sound.value
      keys := board.keypad.pressedKeys })

/-- One frame with the events that came in. -/
def frame (time : WindowTime σ) (o : WindowOptions) (events : List HostEvent) (w : WindowState σ) :
    WindowState σ × Except Trouble FrameShown :=
  let w := { w with bench := { w.bench with clock := time.passFrame w.bench.clock } }
  match w.handleAll time o events with
  | (w, some trouble) => (w, .error trouble)
  | (w, none) =>
    match w.advance time o with
    | (w, some trouble) => (w, .error trouble)
    | (w, none) =>
      let (w, shown) := w.render o
      (w, .ok shown)

/-- Frames until the window is told to close, for the events of each frame; after the last of them
it is told to close. -/
def loop (time : WindowTime σ) (o : WindowOptions) (w : WindowState σ) :
    List (List HostEvent) → WindowState σ × List FrameShown × Option Trouble
  | [] =>
    match w.frame time o [.quit] with
    | (w, .error trouble) => (w, [], some trouble)
    | (w, .ok shown) => (w, [shown], none)
  | events :: rest =>
    match w.frame time o events with
    | (w, .error trouble) => (w, [], some trouble)
    | (w, .ok shown) =>
      if w.running then
        let (w, more, trouble) := w.loop time o rest
        (w, shown :: more, trouble)
      else (w, [shown], none)

/-- A window on a machine at work. -/
def opening (o : WindowOptions) (bench : Bench σ) : WindowState σ :=
  let w : WindowState σ :=
    { bench
      budget := { rate := bench.machine.rate, fps := .whole o.fps }
      paused := o.startPaused }
  if o.startPaused then w.inspect "Debug paused" else w

end WindowState

end ChipEight
