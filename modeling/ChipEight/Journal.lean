import ChipEight.Board

/-!
# The journal

What happens to a machine is written down in lines, each with a level and the name of the part
that wrote it. A journal keeps the lines from a level on, the last one first.
-/

namespace ChipEight

/-- How much a line matters. -/
inductive Level
  | debug | info | warning | error
  deriving DecidableEq, Repr

namespace Level

/-- The place of a level among the others. -/
def rank : Level → Nat
  | debug => 0
  | info => 1
  | warning => 2
  | error => 3

/-- The name of a level. -/
def name : Level → String
  | debug => "DEBUG"
  | info => "INFO"
  | warning => "WARNING"
  | error => "ERROR"

/-- All levels. -/
def all : List Level := [debug, info, warning, error]

end Level

/-- What is written down. -/
inductive Note
  | romRead (size : Nat) (path : String)
  | programLoaded (size : Nat)
  | executing (instruction : Fetched)
  | programEnded (instructions : Nat)
  | machineHalted (steps : Nat)
  | machineFaulted (steps : Nat) (fault : Fault)
  | audioDisabled (why : String)

namespace Note

/-- How much a note matters. -/
def level : Note → Level
  | romRead .. | executing .. | programEnded .. => .debug
  | programLoaded .. | machineHalted .. => .info
  | audioDisabled .. => .warning
  | machineFaulted .. => .error

/-- The part that writes a note. -/
def writer : Note → String
  | romRead .. => "chip8emu.emulator.file.program"
  | programLoaded .. => "chip8emu.chip8.computer"
  | executing .. | programEnded .. => "chip8emu.cpu.cpu"
  | machineHalted .. | machineFaulted .. => "chip8emu.system.computer"
  | audioDisabled .. => "chip8emu.chip8.sound"

/-- The wording of a note. -/
def message : Note → String
  | romRead size path => s!"read {size} bytes from {path}"
  | programLoaded size => s!"loaded {size} byte program at 0x{Text.hex 3 programStart}"
  | executing f =>
    s!"{Text.decimal 10 f.number} 0x{Text.hex 3 f.pc} {Text.hex 4 f.word.toNat} "
      ++ f.instruction.mnemonic
  | programEnded instructions => s!"end of program reached after {instructions} instructions"
  | machineHalted steps => s!"machine halted after {steps} steps"
  | machineFaulted steps fault => s!"machine fault after {steps} steps: {fault.message}"
  | audioDisabled why => s!"audio disabled: {why}"

/-- The line of a note. -/
def line (n : Note) : String := s!"{n.level.name} {n.writer}: {n.message}"

end Note

/-- The least level that is kept, if any is, and the lines, the last one first. -/
structure Journal where
  threshold : Option Level := none
  lines : List String := []

namespace Journal

/-- The journal keeps a note. -/
def keeps (j : Journal) (n : Note) : Bool :=
  match j.threshold with
  | some level => level.rank ≤ n.level.rank
  | none => false

/-- Writes a note down. -/
def add (j : Journal) (n : Note) : Journal :=
  if j.keeps n then { j with lines := n.line :: j.lines } else j

/-- Writes notes down in order. -/
def addAll (j : Journal) (notes : List Note) : Journal := notes.foldl add j

/-- Writes a line down that is always kept. -/
def print (j : Journal) (line : String) : Journal := { j with lines := line :: j.lines }

/-- The lines in order, each with its end. -/
def text (j : Journal) : String := String.join (j.lines.reverse.map (· ++ "\n"))

end Journal

end ChipEight
