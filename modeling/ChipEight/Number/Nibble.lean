/-!
# Numbers of four bits

A nibble names a register or a key, and it is what one hexadecimal digit stands for.
-/

namespace ChipEight

/-- A number of four bits. -/
abbrev Nibble := Fin 16

/-- There is a number of four bits. -/
theorem nibbleCount_ne_zero : 16 ≠ 0 := by decide

/-- So numerals name nibbles. -/
instance nibbleNeZero : @NeZero Nat Zero.ofOfNat0 16 := ⟨nibbleCount_ne_zero⟩

end ChipEight
