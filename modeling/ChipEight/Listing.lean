import ChipEight.Instruction
import ChipEight.Memory

/-!
# Listings

A program is listed without being run: its words in order, each with its address and mnemonic.
A last single byte is read as a word whose second byte is zero, and a word whose first byte is
the end mark is listed as the end mark followed by zero, which is how the machine fetches it. So
a line of a listing names the instruction that the machine would execute there.
-/

namespace ChipEight

open Text

/-- One word of a listing. -/
structure ListedWord where
  address : Int
  word : UInt16
  deriving DecidableEq, Repr

/-- The instruction of a listed word. -/
def ListedWord.instruction (w : ListedWord) : Instruction := Instruction.decode w.word

/-- The line of a listed word. -/
def ListedWord.line (w : ListedWord) : String :=
  s!"0x{hex 3 w.address}  {hex 4 w.word.toNat}  {w.instruction.mnemonic}"

/-- The word that two bytes of a program are listed as. -/
def listedWord (high low : UInt8) : UInt16 :=
  if high = endMark then Memory.wordOf endMark 0 else Memory.wordOf high low

/-- The words of a program whose first byte is at an address. -/
def listing (base : Int) : List UInt8 → List ListedWord
  | [] => []
  | [high] => [⟨base, listedWord high 0⟩]
  | high :: low :: rest => ⟨base, listedWord high low⟩ :: listing (base + 2) rest

/-- The lines of a program whose first byte is at an address. -/
def disassemble (base : Int) (program : List UInt8) : List String :=
  (listing base program).map ListedWord.line

end ChipEight
