import ChipEight.File.Rom
import ChipEight.Machine
import ChipEight.Options

/-!
# What a command does

A command reads its words, runs, and leaves behind what it printed and how it ended. It ends with
an exit status, with a last message and status 1, or by breaking off for a reason that it does not
handle: a calculation without a result, a fault outside of the run, a file that cannot be reached,
or a value that is needed and was left out.

A value that was left out is missed only where the command comes to use it, so a command that does
not get that far does not break off. Both commands find their program and set up their journal in
the same way.
-/

namespace ChipEight

open Number

/-- Something printed: text or bytes. -/
inductive Printed
  | text (text : String)
  | bytes (bytes : List UInt8)
  deriving DecidableEq, Repr

/-- What a value is needed for: to compare it with zero, to seed the random numbers, to name a
file, to look something up, or to take a text apart. -/
inductive ValueUse
  | isPositive
  | isNegative
  | isAtMostZero
  | seed
  | path
  | lookUp
  | trim
  | split
  | upperCase
  deriving DecidableEq, Repr

namespace ValueUse

/-- The value is needed as a text. -/
def wantsText : ValueUse → Bool
  | trim | split | upperCase => true
  | _ => false

/-- The wording of a complaint that there is nothing to use. -/
def message : ValueUse → String
  | isPositive => "'>' not supported between instances of 'list' and 'int'"
  | isNegative => "'<' not supported between instances of 'list' and 'int'"
  | isAtMostZero => "'<=' not supported between instances of 'list' and 'int'"
  | seed => "The only supported seed types are: None,\nint, float, str, bytes, and bytearray."
  | path => "expected str, bytes or os.PathLike object, not list"
  | lookUp => "unhashable type: 'list'"
  | trim => "'list' object has no attribute 'strip'"
  | split => "'list' object has no attribute 'split'"
  | upperCase => "'list' object has no attribute 'upper'"

end ValueUse

/-- Why a command breaks off. -/
inductive Breakdown
  | trouble (why : Trouble)
  | fault (why : Fault)
  | file (path : Path) (why : FileTrouble)
  | blank (use : ValueUse)
  deriving DecidableEq, Repr

/-- The wording of a breakdown. -/
def Breakdown.message : Breakdown → String
  | .trouble why => why.message
  | .fault why => why.message
  | .blank use => use.message
  | .file path why => why.message path

/-- How a command ends. -/
inductive Exit
  | status (code : Nat)
  | message (text : String)
  | breakdown (why : Breakdown)
  deriving DecidableEq, Repr

/-- What a command prints, the last part first, what it writes to its journal, the files after it,
and how it ends. -/
structure Outcome where
  printed : List Printed := []
  journal : Journal := {}
  usage : Option String := none
  files : FileTree
  exit : Exit

namespace Outcome

/-- The bytes of everything that was printed. -/
def bytes (o : Outcome) : List UInt8 :=
  o.printed.reverse.flatMap fun
    | .text text => text.toUTF8.toList
    | .bytes bytes => bytes

/-- What was written for the user beside the output: the journal and a refusal of the words. -/
def remarks (o : Outcome) : String := o.journal.text ++ o.usage.getD ""

end Outcome

/-- What surrounds a command: files, two variables of the environment, and the random numbers of a
machine without a seed. -/
structure Surroundings where
  files : FileTree := {}
  romVariable : Option String := none
  traceVariable : Option String := none
  random : RandomSource := RandomSource.cycle #[]

namespace Surroundings

/-- The level of the journal: the one asked for, or else everything if the environment asks for a
trace and what matters otherwise. -/
def threshold (s : Surroundings) (asked : Option Level) : Level :=
  match asked with
  | some level => level
  | none => if (s.traceVariable.getD "").isEmpty then .warning else .debug

/-- Refuses the words of a command. -/
def refuse (s : Surroundings) (command : String) (fault : UsageFault) : Outcome :=
  if fault = .helpWanted then { files := s.files, exit := .status 0 }
  else
    { files := s.files, exit := .status 2, usage := some s!"{command}: error: {fault.message}" }

/-- Ends a command that breaks off before it has printed anything. -/
def breakOff (s : Surroundings) (journal : Journal) (why : Breakdown) : Outcome :=
  { files := s.files, journal, exit := .breakdown why }

/-- The refusal of a command without a program. -/
def romMissing : UsageFault := .other "a ROM path is required (argument or $CHIP8EMU_ROM)"

/-- Ends a command that cannot load its program. -/
def romRefused (s : Surroundings) (journal : Journal) : RomTrouble → Outcome
  | .unreadable path .embeddedNull => s.breakOff journal (.file path .embeddedNull)
  | trouble =>
    { files := s.files, exit := .status 1
      journal := journal.print s!"Failed to load program: {trouble.message}" }

/-- The random numbers of a machine, seeded or not. -/
def randomFor (s : Surroundings) : Option (Given Int) → Except Breakdown RandomSource
  | none => .ok s.random
  | some (.value seed) => .ok (RandomSource.ofSeed seed)
  | some .nothing => .error (.blank .seed)

end Surroundings

/-- The value, which is needed for something. -/
def Given.need {α : Type} (use : ValueUse) : Given α → Except Breakdown α
  | .value a => .ok a
  | .nothing => .error (.blank use)

/-- The budget of steps; none if it is zero or less. -/
def budgetOf (cycles : Given Int) : Except Breakdown (Option Int) := do
  let count ← cycles.need .isPositive
  .ok (if 0 < count then some count else none)

/-- The choices of a level, by name. -/
def Level.choices : List (String × Level) := Level.all.map fun level => (level.name, level)

/-- A machine with a program in it. The program is one that was loaded from a file, so it fits. -/
def Machine.withRom (m : Machine) (rom : Rom) : Machine :=
  { (m.load rom.bytes).toOption.getD m with title := some rom.title }

/-- Loads a program from a file into a machine. -/
def Machine.loadFrom (m : Machine) (files : FileTree) (path : Path) :
    Except RomTrouble (Rom × Machine) :=
  (loadRom files path).map fun rom => (rom, m.withRom rom)

end ChipEight
