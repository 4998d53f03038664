import ChipEight.Text.Padded

/-!
# Faults

What can stop a machine: a memory access outside the 4096 bytes, a font glyph for a value that
has none, a program that does not fit, a call or a return that the call stack does not allow, and
a word that is no instruction. Nothing else goes wrong while a program is loaded or runs.

`Misuse` holds the requests that the machine's parts turn down because the caller asked for
something that does not exist. They do not stop a machine.
-/

namespace ChipEight

open Text

/-- Why a machine cannot go on. -/
inductive Fault
  | outOfBounds (address length : Int)
  | invalidDigit (digit : Int)
  | programTooLarge (length : Nat)
  | stackOverflow (pc : Int)
  | stackUnderflow (pc : Int)
  | unknownInstruction (word : UInt16) (pc : Int)
  deriving DecidableEq, Repr

/-- The wording of a fault. -/
def Fault.message : Fault → String
  | .outOfBounds address length =>
    if length = 1 then s!"address 0x{hex 4 address} is out of bounds"
    else s!"block 0x{hex 4 address}+{length} is out of bounds"
  | .invalidDigit digit => s!"no font glyph for value 0x{hex 2 digit}"
  | .programTooLarge length => s!"program of {length} bytes exceeds the 3584 byte limit"
  | .stackOverflow pc => s!"subroutine nesting limit reached at PC=0x{hex 3 pc}"
  | .stackUnderflow pc => s!"return with empty call stack at PC=0x{hex 3 pc}"
  | .unknownInstruction word pc => s!"invalid instruction 0x{hex 4 word.toNat} at PC=0x{hex 3 pc}"

/-- Why a part of the machine turns a request down. -/
inductive Misuse
  | keyOutOfRange
  | pixelOutOfRange
  | rowAbsent
  | shownRowAbsent
  | scaleNotPositive
  | paletteTooShort (size : Nat)
  | paletteTooLong
  | instructionRateNotPositive
  | frequencyNotPositive
  | listenerAbsent
  deriving DecidableEq, Repr

/-- The wording of a misuse. -/
def Misuse.message : Misuse → String
  | .keyOutOfRange => "key must be in range 0x0-0xF"
  | .pixelOutOfRange => "pixel coordinate out of range"
  | .rowAbsent => "list index out of range"
  | .shownRowAbsent => "tuple index out of range"
  | .scaleNotPositive => "scaling factor must be positive"
  | .paletteTooShort size => s!"not enough values to unpack (expected 2, got {size})"
  | .paletteTooLong => "too many values to unpack (expected 2)"
  | .instructionRateNotPositive => "instruction rate must be positive"
  | .frequencyNotPositive => "frequency must be positive"
  | .listenerAbsent => "list.remove(x): x not in list"

end ChipEight
