import ChipEight.Command
import ChipEight.Listing
import ChipEight.Window

/-!
# The command with a window

It lists a program, or opens a window and runs it there until the window is closed. Its exit
status is 4 if the machine faulted. The scale, the frames in a second and the steps in a second
must be positive; they are looked at in this order, before the program is.
-/

namespace ChipEight

open Number

/-- The name of the command. -/
def windowName : String := "chip8emu"

/-- A setting that an option makes. -/
inductive WindowSetting
  | listing
  | paused
  | cycles (count : Given Int)
  | scale (scale : Given Int)
  | fps (fps : Given Int)
  | rate (rate : Given Float)
  | keyMap (map : Given KeyMap)
  | seed (seed : Given Int)
  | audio
  | level (level : Given Level)

/-- The options of the command. -/
def windowRules : List (OptionRule WindowSetting) := [
  ⟨["-h", "--help"], .help⟩,
  ⟨["--dis"], .flag .listing⟩,
  ⟨["--debug"], .flag .paused⟩,
  ⟨["--cycles"], OptionRule.integer .cycles⟩,
  ⟨["--scale"], OptionRule.integer .scale⟩,
  ⟨["--fps"], OptionRule.integer .fps⟩,
  ⟨["--rate"], OptionRule.real .rate⟩,
  ⟨["--keymap"], OptionRule.choice KeyMap.choices .keyMap⟩,
  ⟨["--seed"], OptionRule.integer .seed⟩,
  ⟨["--audio"], .flag .audio⟩,
  ⟨["--log-level"], OptionRule.choice Level.choices .level⟩]

/-- The settings of a command line. -/
structure WindowCommandOptions where
  rom : Option String := none
  listing : Bool := false
  paused : Bool := false
  cycles : Given Int := .value 0
  scale : Given Int := .value 10
  fps : Given Int := .value 60
  rate : Given Quantity := .value Machine.standardRate
  keyMap : Given KeyMap := .value KeyMap.vip
  seed : Option (Given Int) := none
  audio : Bool := false
  level : Option Level := none

namespace WindowCommandOptions

/-- Makes a setting; a later one of a kind replaces the earlier. A level that was left out asks for
none. -/
def make (o : WindowCommandOptions) : WindowSetting → WindowCommandOptions
  | .listing => { o with listing := true }
  | .paused => { o with paused := true }
  | .cycles cycles => { o with cycles }
  | .scale scale => { o with scale }
  | .fps fps => { o with fps }
  | .rate rate => { o with rate := rate.map .real }
  | .keyMap keyMap => { o with keyMap }
  | .seed seed => { o with seed := some seed }
  | .audio => { o with audio := true }
  | .level level => { o with level := level.toOption }

/-- Reads the words of the command. -/
def read (words : List String) : Except UsageFault WindowCommandOptions := do
  let (settings, rom) ← Options.read windowRules words
  .ok (settings.foldl make { rom })

end WindowCommandOptions

/-- How large and how fast a window is to be. -/
structure WindowPace where
  scale : Int
  fps : Int
  rate : Quantity

/-- A value that must be positive, which its name is for. -/
def positive {α : Type} (s : Surroundings) (journal : Journal) (name : String)
    (isPositive : α → Bool) (given : Given α) : Except Outcome α := do
  let value ← (given.need .isAtMostZero).mapError (s.breakOff journal)
  if isPositive value then .ok value
  else .error { journal, files := s.files, exit := .message s!"{name} must be positive" }

/-- The scale, then the frames in a second, then the steps in a second. -/
def WindowCommandOptions.pace (s : Surroundings) (journal : Journal) (o : WindowCommandOptions) :
    Except Outcome WindowPace := do
  let scale ← positive s journal "scale" (0 < ·) o.scale
  let fps ← positive s journal "fps" (0 < ·) o.fps
  let rate ← positive s journal "rate" (!·.isNonPositive) o.rate
  .ok { scale, fps, rate }

/-- What surrounds a window: the moment the machine is switched on, how time passes, the events of
each frame, why no window can be opened if so, and the mixer. -/
structure WindowWorld (σ : Type) where
  start : Seconds
  clock : σ
  time : WindowTime σ
  events : List (List HostEvent)
  refusal : Option String := none
  mixer : Mixer := {}

/-- What the command with a window comes to. -/
structure WindowOutcome where
  outcome : Outcome
  size : Option (Int × Int) := none
  firstCaption : Option String := none
  frames : List FrameShown := []
  calls : List MixerCall := []
  closed : Bool := false

variable {σ : Type}

/-- Ends the command when the window is closed or its machine breaks down. -/
def windowReport (s : Surroundings) (o : WindowOptions) (firstCaption : String)
    (w : WindowState σ) (frames : List FrameShown) (trouble : Option Trouble) : WindowOutcome :=
  let machine := w.bench.machine
  let buzzer := if trouble.isNone then machine.buzzer.stop else machine.buzzer
  let exit := match trouble with
    | some trouble => .breakdown (.trouble trouble)
    | none => .status (if machine.fault.isSome then 4 else 0)
  { outcome := { journal := w.bench.journal, files := s.files, exit }
    size := some (screenWidth * o.scale, screenHeight * o.scale)
    firstCaption := some firstCaption
    frames
    calls := buzzer.mixer.calls.reverse
    closed := trouble.isNone }

/-- A command line that was read and its program loaded, with what the window is to show. -/
structure WindowStart (σ : Type) where
  options : WindowOptions
  bench : Bench σ

/-- Makes ready to open the window on a program. -/
def windowBench (s : Surroundings) (world : WindowWorld σ) (o : WindowCommandOptions)
    (pace : WindowPace) (rom : Rom) (journal : Journal) : Except Outcome (WindowStart σ) := do
  let random ← (s.randomFor o.seed).mapError (s.breakOff journal)
  let machine := (Machine.new random world.start).withRom rom
  let buzzer : Buzzer := { enabled := o.audio, mixer := world.mixer }
  let machine := { machine with rate := pace.rate, buzzer }
  let journal := journal.add (.programLoaded rom.bytes.length)
  let keyMap ← (o.keyMap.need .lookUp).mapError (s.breakOff journal)
  let limit ← (budgetOf o.cycles).mapError (s.breakOff journal)
  .ok
    { options := { scale := pace.scale, fps := pace.fps, keyMap, startPaused := o.paused, limit }
      bench := { machine, clock := world.clock, journal } }

/-- What listing a program comes to. -/
def windowListing (s : Surroundings) (rom : Rom) (journal : Journal) : Outcome :=
  let lines := (disassemble programStart rom.bytes).map (· ++ "\n")
  { printed := [.text (String.join lines)], journal, files := s.files, exit := .status 0 }

/-- The command until the window is opened, or what it comes to if it ends before. -/
def windowStart (s : Surroundings) (world : WindowWorld σ) (words : List String) :
    Except Outcome (WindowStart σ) := do
  let o ← (WindowCommandOptions.read words).mapError (s.refuse windowName)
  let journal : Journal := { threshold := some (s.threshold o.level) }
  match romPath? o.rom s.romVariable with
  | none => .error (s.refuse windowName Surroundings.romMissing)
  | some path =>
    let pace ← o.pace s journal
    let rom ← (loadRom s.files path).mapError (s.romRefused journal)
    let journal := journal.add (.romRead rom.bytes.length rom.path.text)
    if o.listing then .error (windowListing s rom journal)
    else windowBench s world o pace rom journal

/-- Opens the window and runs it until it is closed. -/
def windowRun (s : Surroundings) (world : WindowWorld σ) (start : WindowStart σ) : WindowOutcome :=
  match world.refusal with
  | some why =>
    { outcome := { journal := start.bench.journal, files := s.files, exit := .message why } }
  | none =>
    let w := WindowState.opening start.options start.bench
    let (w, frames, trouble) := w.loop world.time start.options world.events
    let firstCaption := start.bench.machine.caption start.options.startPaused
    windowReport s start.options firstCaption w frames trouble

/-- The command with a window. -/
def windowCommand (s : Surroundings) (world : WindowWorld σ) (words : List String) :
    WindowOutcome :=
  match windowStart s world words with
  | .error outcome => { outcome }
  | .ok start => windowRun s world start

end ChipEight
