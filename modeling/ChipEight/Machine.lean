import ChipEight.Board
import ChipEight.Buzzer
import ChipEight.Journal

/-!
# The machine

A machine is a board with what surrounds it: a buzzer, the program to reload on a reset, whoever
listens to the screen, a step count, and the fault that stopped it. One step asks for a tone while
the sound timer runs, steps the processor, ticks both timers, stops with the processor at the end
of the program, and hands the screen to the listeners if there is news.

A step that faults ends with the processor's part of it: nothing is counted, ticked or shown.
-/

namespace ChipEight

open Number

/-- A machine. The frames that listeners were handed are kept, the last one first. -/
structure Machine where
  board : Board
  buzzer : Buzzer := {}
  program : List UInt8 := []
  title : Option String := none
  listeners : List Int := []
  delivered : List (Int × PixelGrid) := []
  steps : Nat := 0
  fault : Option Fault := none
  halted : Bool := false
  rate : Quantity

/-- What a step of the machine came to. -/
structure Attempt where
  machine : Machine
  fault : Option Fault
  notes : List Note

namespace Machine

/-- The instructions in a second unless another rate is asked for. -/
def standardRate : Quantity := .whole 500

/-- A machine without a program at a moment. -/
def new (random : RandomSource) (now : Seconds) : Machine where
  board := { delay := Timer.start timerPeriod now, sound := Timer.start timerPeriod now, random }
  rate := standardRate

/-- The machine at another rate of instructions, which must be positive. -/
def withRate (m : Machine) (rate : Quantity) : Except Misuse Machine :=
  if rate.isNonPositive then .error .instructionRateNotPositive else .ok { m with rate }

/-- Changes the rate of instructions. -/
def setRate (m : Machine) (rate : Quantity) : Except Misuse Machine :=
  if rate.isNonPositive then .error .frequencyNotPositive else .ok { m with rate }

/-- Places a program and remembers it. -/
def load (m : Machine) (program : List UInt8) : Except Fault Machine :=
  match m.board.memory.load program with
  | .error fault => .error fault
  | .ok memory => .ok { m with board := { m.board with memory }, program }

/-- Memory as it is when a program has just been placed. -/
def freshMemory (program : List UInt8) : Memory :=
  (Memory.blank.load program).toOption.getD Memory.blank

/-- Everything as it was when the machine was switched on and its program loaded, apart from the
tones asked for, the listeners, the rate and the place in the source of random numbers. -/
def reset (m : Machine) (now : Seconds) : Machine :=
  { m with
    board := { m.board with
      processor := {}
      memory := freshMemory m.program
      screen := m.board.screen.clear
      keypad := m.board.keypad.clear
      delay := m.board.delay.reset now
      sound := m.board.sound.reset now }
    steps := 0
    fault := none
    halted := false }

/-- Adds a listener. -/
def listen (m : Machine) (listener : Int) : Machine :=
  { m with listeners := m.listeners ++ [listener] }

/-- Removes a listener, once. -/
def unlisten (m : Machine) (listener : Int) : Except Misuse Machine :=
  if m.listeners.contains listener then .ok { m with listeners := m.listeners.erase listener }
  else .error .listenerAbsent

/-- Hands the screen to the listeners if there is news. -/
def publish (m : Machine) : Machine :=
  let (news, screen) := m.board.screen.takeDirty
  let m := { m with board := { m.board with screen } }
  if news then
    let frames := m.listeners.map fun listener => (listener, screen.grid)
    { m with delivered := frames.reverse ++ m.delivered }
  else m

/-- What is written down when the machine stops at the end of its program. -/
def haltNotes (m : Machine) : List Note :=
  if m.board.processor.halted && !m.halted then [.machineHalted m.steps] else []

/-- Stops with the processor. -/
def haltWithProcessor (m : Machine) : Machine :=
  { m with halted := m.halted || m.board.processor.halted }

/-- What is written down about a fetched instruction. -/
def fetchNotes : Option Fetched → List Note
  | none => []
  | some f =>
    if f.instruction = .endProgram then [.executing f, .programEnded f.number] else [.executing f]

/-- One step at a moment. A halted machine does nothing.

The moment serves for the whole step. An instruction that sets a timer sets it at the moment at
which both timers are ticked afterwards, where it could as well look at the clock for itself, a
little earlier. -/
def step (m : Machine) (now : Seconds) : Attempt :=
  if m.halted then ⟨m, none, []⟩
  else
    let (buzzer, failure) := if 0 < m.board.sound.value then m.buzzer.emit else (m.buzzer, none)
    let stepped := m.board.step now
    let notes := failure.toList.map Note.audioDisabled ++ fetchNotes stepped.fetched
    match stepped.fault with
    | some fault => ⟨{ m with buzzer, board := stepped.board }, some fault, notes⟩
    | none =>
      let m := { m with buzzer, board := stepped.board.tickTimers now, steps := m.steps + 1 }
      ⟨m.haltWithProcessor.publish, none, notes ++ m.haltNotes⟩

/-- Ticks both timers without a step. -/
def tickTimers (m : Machine) (now : Seconds) : Machine :=
  { m with board := m.board.tickTimers now }

/-- Keeps the fault that stops the machine. -/
def recordFault (m : Machine) (fault : Fault) : Machine := { m with fault := some fault }

/-- The words above the window. -/
def caption (m : Machine) (paused : Bool) : String :=
  let title := match m.title with
    | some title => s!" | {title}"
    | none => ""
  let condition := match m.fault with
    | some fault => s!" | FAULT: {fault.message}"
    | none => if m.halted then " | halted" else if paused then " | paused" else ""
  "CHIP-8 Emulator" ++ title ++ condition

end Machine

end ChipEight
