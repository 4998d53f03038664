import ChipEight.Headless.Command
import ChipEight.Window.Command

/-!
# The program

The two commands on real files, clocks and terminals. The first word may be `window`; the words
after it are then those of the command with a window, which lists programs but finds no place to
open a window. All other words are those of the command without one.

Everything that decides something is in the modules that are imported here. This one reads the
program's file into a tree, shows clocks, asks the user, prints, and writes the dump.
-/

namespace ChipEight

namespace Program

/-- The clock that shows one moment whenever it is asked; the moment is set from outside. -/
def stillClock : Clock Seconds := fun now => (now, now)

/-- The moment on the system's clock that never goes back. -/
def currentMoment : IO Seconds := do
  let nanoseconds ← IO.monoNanosNow
  return nanoseconds.toFloat / 1000000000

/-- What the system says of a file that it does not open. -/
def systemError? : IO.Error → Option SystemError
  | .noFileOrDirectory _ code reason | .permissionDenied _ code reason
  | .inappropriateType _ code reason | .invalidArgument _ code reason
  | .resourceExhausted _ code reason | .resourceBusy code reason
  | .noSuchThing _ code reason | .hardwareFault code reason
  | .otherError code reason => some ⟨code.toNat, reason⟩
  | _ => none

/-- Adds a file to a tree, or what the system says if it cannot be read. -/
def addFrom (files : FileTree) (path : Path) : IO FileTree := do
  try
    let bytes ← IO.FS.readBinFile path.text
    return files.addFile path bytes.toList
  catch failure =>
    return match systemError? failure with
      | some error => files.refuse path .read error
      | none => files

/-- The environment of a command that may read one file and write another. -/
def surroundings (rom dump : Option String) : IO Surroundings := do
  let romVariable ← IO.getEnv "CHIP8EMU_ROM"
  let traceVariable ← IO.getEnv "CHIP8EMU_TRACE"
  let seed ← IO.rand 0 0xFFFFFFFF
  let files ← match romPath? rom romVariable with
    | some path => addFrom {} path
    | none => pure {}
  let files := match dump with
    | some text =>
      let path := Path.ofText text
      files.makeDirectory { path with names := path.names.dropLast }
    | none => files
  return { files, romVariable, traceVariable, random := RandomSource.ofSeed seed }

/-- Prints the lines of a journal and empties it. -/
def flushJournal (j : Journal) : IO Journal := do
  for line in j.lines.reverse do
    IO.eprintln line
  return { j with lines := [] }

/-- Shows the processor and takes the user's answer; none at the end of the input. -/
def askUser (s : Session Seconds Seconds) : IO (List String) := do
  IO.println s.bench.machine.board.processor.describe
  IO.print "step> "
  (← IO.getStdout).flush
  let answer ← (← IO.getStdin).getLine
  return if answer.isEmpty then [] else [answer]

/-- Runs a session in real time until it ends. -/
partial def runSession (c : StopConditions) (s : Session Seconds Seconds) :
    IO (Session Seconds Seconds × Option Finish) := do
  let now ← currentMoment
  let (s, finish) := { s with bench := { s.bench with clock := now } }.attempt stillClock c
  let journal ← flushJournal s.bench.journal
  let s := { s with bench := { s.bench with journal } }
  if finish.isSome then return (s, finish)
  let answers ← if c.stepping then askUser s else pure []
  let wall ← currentMoment
  match { s with answers, wall }.finishAfter stillClock c with
  | (s, some finish) => return ({ s with printed := [] }, some finish)
  | (s, none) => runSession c { s with printed := [] }

/-- Prints what a command leaves behind; the result is its exit status. -/
def conclude (o : Outcome) : IO UInt32 := do
  let out ← IO.getStdout
  out.write ⟨o.bytes.toArray⟩
  out.flush
  IO.eprint o.remarks
  match o.exit with
  | .status code =>
    if o.usage.isSome then IO.eprintln ""
    return UInt32.ofNat code
  | .message text =>
    IO.eprintln text
    return 1
  | .breakdown why =>
    IO.eprintln why.message
    return 1

/-- Writes the dump where it was asked for. -/
def writeDump (o : HeadlessOptions) (outcome : Outcome) : IO Unit := do
  match (o.dumpPath.bind Given.toOption).map Path.ofText, outcome.exit with
  | some path, .status _ =>
    match outcome.files.read path with
    | .ok bytes => IO.FS.writeBinFile path.text ⟨bytes.toArray⟩
    | .error _ => return
  | _, _ => return

/-- The command without a window. -/
def runHeadless (words : List String) : IO UInt32 := do
  let now ← currentMoment
  let asked := (HeadlessOptions.read words).toOption.getD {}
  let s ← surroundings asked.rom (asked.dumpPath.bind Given.toOption)
  let world : HeadlessRun Seconds Seconds :=
    { start := now, clock := now, ask := stillClock, wall := now, askWall := stillClock
      answers := [], patience := 0 }
  match headlessStart s world words with
  | .error outcome => conclude outcome
  | .ok start =>
    let (session, finish) ← runSession start.conditions start.session
    let outcome := headlessReport s start.options start.values session finish
    writeDump start.options outcome
    conclude outcome

/-- The command with a window, for which there is no place. -/
def runWindow (words : List String) : IO UInt32 := do
  let now ← currentMoment
  let asked := (WindowCommandOptions.read words).toOption.getD {}
  let s ← surroundings asked.rom none
  let world : WindowWorld Seconds :=
    { start := now, clock := now, events := []
      time := { ask := stillClock, look := stillClock, passFrame := id }
      refusal := some "no window can be opened here" }
  conclude (windowCommand s world words).outcome

end Program

end ChipEight

/-- Runs the command that the words ask for. -/
def main (words : List String) : IO UInt32 :=
  match words with
  | "window" :: rest => ChipEight.Program.runWindow rest
  | _ => ChipEight.Program.runHeadless words
