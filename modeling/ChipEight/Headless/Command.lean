import ChipEight.Command
import ChipEight.Dump
import ChipEight.Headless
import ChipEight.Listing
import ChipEight.Options.Values
import ChipEight.Screen.Render

/-!
# The command without a window

It lists a program or runs it, and then shows the screen and memory if asked to. Its exit status
says how the run ended: 4 for a fault, 0 if the machine halted, stopped at a breakpoint or was
told to quit, 3 if the time was over and 2 if the budget was used up. A machine that halts with
its last step of the budget or at the last moment has halted.
-/

namespace ChipEight

open Number

/-- The name of the command. -/
def headlessName : String := "chip8-debug-runner"

/-- A setting that an option makes. -/
inductive HeadlessSetting
  | listing
  | cycles (count : Given Int)
  | breakpoint (text : Given String)
  | stepping
  | seconds (length : Given Float)
  | seed (seed : Given Int)
  | keys (text : Given String)
  | showScreen
  | dumpPath (text : Given String)
  | dumpWindow (text : Given String)
  | dumpFormat (binary : Given Bool)
  | level (level : Given Level)

/-- The options of the command. -/
def headlessRules : List (OptionRule HeadlessSetting) := [
  ⟨["-h", "--help"], .help⟩,
  ⟨["--dis"], .flag .listing⟩,
  ⟨["--cycles"], OptionRule.integer .cycles⟩,
  ⟨["--break-pc"], OptionRule.text .breakpoint⟩,
  ⟨["--step"], .flag .stepping⟩,
  ⟨["--seconds"], OptionRule.real .seconds⟩,
  ⟨["--seed"], OptionRule.integer .seed⟩,
  ⟨["--keys"], OptionRule.text .keys⟩,
  ⟨["--show-screen"], .flag .showScreen⟩,
  ⟨["--dump"], OptionRule.text .dumpPath⟩,
  ⟨["--dump-range"], OptionRule.text .dumpWindow⟩,
  ⟨["--dump-format"], OptionRule.choice [("hex", false), ("bin", true)] .dumpFormat⟩,
  ⟨["--log-level"], OptionRule.choice Level.choices .level⟩]

/-- The settings of a command line. -/
structure HeadlessOptions where
  rom : Option String := none
  listing : Bool := false
  cycles : Given Int := .value 1000000
  breakpoints : List (Given String) := []
  stepping : Bool := false
  seconds : Option (Given Float) := none
  seed : Option (Given Int) := none
  keys : Given String := .value ""
  showScreen : Bool := false
  dumpPath : Option (Given String) := none
  dumpWindows : List (Given String) := []
  binary : Bool := false
  level : Option (Given Level) := none

namespace HeadlessOptions

/-- Makes a setting; a later one of a kind replaces the earlier, but breakpoints and windows are
collected. A format that was left out is not the binary one. -/
def make (o : HeadlessOptions) : HeadlessSetting → HeadlessOptions
  | .listing => { o with listing := true }
  | .cycles cycles => { o with cycles }
  | .breakpoint text => { o with breakpoints := o.breakpoints ++ [text] }
  | .stepping => { o with stepping := true }
  | .seconds length => { o with seconds := some length }
  | .seed seed => { o with seed := some seed }
  | .keys keys => { o with keys }
  | .showScreen => { o with showScreen := true }
  | .dumpPath text => { o with dumpPath := some text }
  | .dumpWindow text => { o with dumpWindows := o.dumpWindows ++ [text] }
  | .dumpFormat binary => { o with binary := binary.toOption.getD false }
  | .level level => { o with level := some level }

/-- Reads the words of the command. -/
def read (words : List String) : Except UsageFault HeadlessOptions := do
  let (settings, rom) ← Options.read headlessRules words
  .ok (settings.foldl make { rom })

end HeadlessOptions

/-- The typed values of a command line after they were read. -/
structure HeadlessValues where
  breakpoints : List Int
  windows : List MemoryWindow
  keys : List Key

/-- Reads a typed value, which is needed for something. -/
def readTyped {α : Type} (s : Surroundings) (journal : Journal) (use : ValueUse)
    (read : String → Except ValueRefusal α) (given : Given String) : Except Outcome α := do
  let text ← (given.need use).mapError (s.breakOff journal)
  (read text).mapError fun refusal => s.refuse headlessName (.other refusal.message)

/-- Reads the typed values, breakpoints first, then windows, then keys. -/
def HeadlessOptions.values (s : Surroundings) (journal : Journal) (o : HeadlessOptions) :
    Except Outcome HeadlessValues := do
  let breakpoints ← o.breakpoints.mapM (readTyped s journal .trim readAddress)
  let windows ← o.dumpWindows.mapM (readTyped s journal .split readWindow)
  let keys ← readTyped s journal .split readKeys o.keys
  .ok ⟨breakpoints, windows, keys⟩

/-- What surrounds a run: the moment the machine is switched on, how its clock and the wall clock
answer, the answers at the prompt, and how many turns to be patient for. -/
structure HeadlessRun (σ ω : Type) where
  start : Seconds
  clock : σ
  ask : Clock σ
  wall : ω
  askWall : Clock ω
  answers : List String
  patience : Nat

variable {σ ω : Type}

/-- The deadline for a run of a length from now; a negative length sets none. -/
def deadlineFor (askWall : Clock ω) (wall : ω) :
    Option (Given Float) → Except Breakdown (Option Seconds × ω)
  | none => .ok (none, wall)
  | some .nothing => .error (.blank .isNegative)
  | some (.value length) =>
    if length < 0 then .ok (none, wall)
    else
      let (now, wall) := askWall wall
      .ok (some (now + length), wall)

/-- The exit status of a run. -/
def Finish.status (halted : Bool) : Option Finish → Nat
  | some (.fault _) => 4
  | some .halted | some .breakpoint | some .quit => 0
  | some .timeout => if halted then 0 else 3
  | some .budget => if halted then 0 else 2
  | none => if halted then 0 else 2

/-- The lines that say how a run ended, where it did not end well. -/
def finishLines (machine : Machine) : Option Finish → List String
  | some (.fault fault) =>
    [s!"Execution stopped: {fault.message}", machine.board.processor.describe]
  | some .timeout => if machine.halted then [] else ["Execution stopped: time limit reached"]
  | some .budget => if machine.halted then [] else ["Execution stopped: cycle limit reached"]
  | _ => []

/-- What a dump comes to: bytes or a table. -/
def dumpOf (memory : Memory) (windows : List MemoryWindow) (binary : Bool) :
    Except Fault Printed :=
  let windows := MemoryWindow.coalesce windows
  if binary then (memory.windowBytes windows).map Printed.bytes
  else (memory.hexTable windows).map fun table => .text (table ++ "\n")

/-- The bytes that are written to a file. -/
def Printed.toBytes : Printed → List UInt8
  | .text s => s.toUTF8.toList
  | .bytes b => b

/-- Prints a dump or writes it to a file. -/
def deliverDump (files : FileTree) (path : Option (Given String)) (dump : Printed) :
    Except Breakdown (FileTree × List Printed) :=
  match path with
  | none => .ok (files, [dump])
  | some .nothing => .error (.blank .path)
  | some (.value text) =>
    let path := Path.ofText text
    match files.write path dump.toBytes with
    | .ok files => .ok (files, [])
    | .error why => .error (.file path why)

/-- Dumps memory as asked. -/
def dumpMemory (files : FileTree) (o : HeadlessOptions) (windows : List MemoryWindow)
    (memory : Memory) : Except Breakdown (FileTree × List Printed) :=
  if o.dumpPath.isNone && windows.isEmpty then .ok (files, [])
  else match dumpOf memory windows o.binary with
    | .ok dump => deliverDump files o.dumpPath dump
    | .error fault => .error (.fault fault)

/-- Ends the command after a run. -/
def headlessReport (s : Surroundings) (o : HeadlessOptions) (values : HeadlessValues)
    (session : Session σ ω) (finish : Option Finish) : Outcome :=
  let machine := session.bench.machine
  let printed := session.printed.map fun line => Printed.text (line ++ "\n")
  let printed := if o.showScreen then .text (machine.board.screen.text ++ "\n") :: printed
    else printed
  let journal := session.bench.journal
  match dumpMemory s.files o values.windows machine.board.memory with
  | .error why => { printed, journal, files := s.files, exit := .breakdown why }
  | .ok (files, dumped) =>
    { printed := dumped ++ printed
      journal := (finishLines machine finish).foldl Journal.print journal
      files
      exit := .status (Finish.status machine.halted finish) }

/-- A command line that was read and its program loaded, with the session that is to be run. -/
structure HeadlessStart (σ ω : Type) where
  options : HeadlessOptions
  values : HeadlessValues
  conditions : StopConditions
  session : Session σ ω

/-- Makes ready to run a program. -/
def headlessSession (s : Surroundings) (world : HeadlessRun σ ω) (o : HeadlessOptions)
    (values : HeadlessValues) (rom : Rom) (journal : Journal) :
    Except Outcome (HeadlessStart σ ω) := do
  let random ← (s.randomFor o.seed).mapError (s.breakOff journal)
  let machine := (Machine.new random world.start).withRom rom
  let keypad := machine.board.keypad.setKeys (values.keys.map fun key => (key.val : Int))
  let machine := { machine with board := { machine.board with keypad } }
  let journal := journal.add (.programLoaded rom.bytes.length)
  let budget ← (budgetOf o.cycles).mapError (s.breakOff journal)
  let (deadline, wall) ←
    (deadlineFor world.askWall world.wall o.seconds).mapError (s.breakOff journal)
  .ok
    { options := o
      values
      conditions := { budget, breakpoints := values.breakpoints, deadline, stepping := o.stepping }
      session :=
        { bench := { machine, clock := world.clock, journal }, wall, answers := world.answers } }

/-- What listing a program comes to. -/
def headlessListing (s : Surroundings) (rom : Rom) (journal : Journal) : Outcome :=
  let lines := disassemble programStart rom.bytes
  { printed := [.text ("\n".intercalate lines ++ "\n")], journal, files := s.files
    exit := .status 0 }

/-- The command up to the first step, or what it comes to if it ends before. -/
def headlessStart (s : Surroundings) (world : HeadlessRun σ ω) (words : List String) :
    Except Outcome (HeadlessStart σ ω) := do
  let o ← (HeadlessOptions.read words).mapError (s.refuse headlessName)
  let level ← (o.level.mapM (Given.need .upperCase)).mapError (s.breakOff {})
  let journal : Journal := { threshold := some (s.threshold level) }
  match romPath? o.rom s.romVariable with
  | none => .error (s.refuse headlessName Surroundings.romMissing)
  | some path =>
    let values ← o.values s journal
    let rom ← (loadRom s.files path).mapError (s.romRefused journal)
    let journal := journal.add (.romRead rom.bytes.length rom.path.text)
    if o.listing then .error (headlessListing s rom journal)
    else headlessSession s world o values rom journal

/-- The command without a window. -/
def headlessCommand (s : Surroundings) (world : HeadlessRun σ ω) (words : List String) : Outcome :=
  match headlessStart s world words with
  | .error outcome => outcome
  | .ok start =>
    let (session, finish) :=
      Session.loop world.ask world.askWall start.conditions world.patience start.session
    headlessReport s start.options start.values session finish

end ChipEight
