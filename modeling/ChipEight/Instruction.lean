import ChipEight.Number.Nibble
import ChipEight.Text.Padded

/-!
# Instructions

An instruction is one word of sixteen bits. Its first four bits choose the family; the rest are
operands: a register number is four bits, a byte eight, an address twelve. Every word decodes to
an instruction, a word without a meaning to `unknown`, and the mnemonic of an instruction shows
each of its operands.
-/

namespace ChipEight

open Text

/-- The number of a register. -/
abbrev Register := Nibble

/-- An address as an instruction holds it. -/
abbrev Target := Fin 4096

/-- What makes an instruction skip the next one. -/
inductive Condition
  | byteEqual (x : Register) (value : UInt8)
  | byteDifferent (x : Register) (value : UInt8)
  | equal (x y : Register)
  | different (x y : Register)
  | keyDown (x : Register)
  | keyUp (x : Register)
  deriving DecidableEq, Repr

/-- How two registers make a new value for the first. -/
inductive Combination
  | copy | or | and | xor | add | subtract | shiftRight | subtractReverse | shiftLeft
  deriving DecidableEq, Repr

/-- The instructions of the machine. -/
inductive Instruction
  | endProgram
  | clearScreen
  | ret
  | jump (target : Target)
  | call (target : Target)
  | jumpOffset (base : Target)
  | skipIf (condition : Condition)
  | loadByte (x : Register) (value : UInt8)
  | addByte (x : Register) (value : UInt8)
  | combine (how : Combination) (x y : Register)
  | random (x : Register) (mask : UInt8)
  | setIndex (target : Target)
  | draw (x y : Register) (height : Nibble)
  | readDelay (x : Register)
  | awaitKey (x : Register)
  | setDelay (x : Register)
  | setSound (x : Register)
  | addIndex (x : Register)
  | loadGlyph (x : Register)
  | storeDigits (x : Register)
  | storeRegisters (x : Register)
  | loadRegisters (x : Register)
  | unknown (word : UInt16)
  deriving DecidableEq, Repr

/-- The second register number, the four bits after it, and other parts of a word. -/
structure Operands where
  x : Register
  y : Register
  n : Nibble
  nn : UInt8
  nnn : Target

/-- The operands that a word may hold. -/
def Operands.ofWord (word : UInt16) : Operands where
  x := ⟨word.toNat / 256 % 16, Nat.mod_lt _ (by decide)⟩
  y := ⟨word.toNat / 16 % 16, Nat.mod_lt _ (by decide)⟩
  n := ⟨word.toNat % 16, Nat.mod_lt _ (by decide)⟩
  nn := UInt8.ofNat (word.toNat % 256)
  nnn := ⟨word.toNat % 4096, Nat.mod_lt _ (by decide)⟩

/-- The combination that the last four bits of a register instruction choose. -/
def Combination.ofCode? : Nat → Option Combination
  | 0x0 => some .copy
  | 0x1 => some .or
  | 0x2 => some .and
  | 0x3 => some .xor
  | 0x4 => some .add
  | 0x5 => some .subtract
  | 0x6 => some .shiftRight
  | 0x7 => some .subtractReverse
  | 0xE => some .shiftLeft
  | _ => none

namespace Instruction

/-- The instruction of family 0 that a word holds. -/
def ofSystemWord (word : UInt16) : Instruction :=
  if word.toNat / 256 = 0x0A then .endProgram
  else if word.toNat = 0x00E0 then .clearScreen
  else if word.toNat = 0x00EE then .ret
  else .unknown word

/-- The instruction of family E that a word holds. -/
def ofKeyWord (word : UInt16) (x : Register) : Instruction :=
  match word.toNat % 256 with
  | 0x9E => .skipIf (.keyDown x)
  | 0xA1 => .skipIf (.keyUp x)
  | _ => .unknown word

/-- The instruction of family F that a word holds. -/
def ofMiscWord (word : UInt16) (x : Register) : Instruction :=
  match word.toNat % 256 with
  | 0x07 => .readDelay x
  | 0x0A => .awaitKey x
  | 0x15 => .setDelay x
  | 0x18 => .setSound x
  | 0x1E => .addIndex x
  | 0x29 => .loadGlyph x
  | 0x33 => .storeDigits x
  | 0x55 => .storeRegisters x
  | 0x65 => .loadRegisters x
  | _ => .unknown word

/-- The instruction that a word holds. -/
def decode (word : UInt16) : Instruction :=
  let o := Operands.ofWord word
  match word.toNat / 4096 with
  | 0x0 => ofSystemWord word
  | 0x1 => .jump o.nnn
  | 0x2 => .call o.nnn
  | 0x3 => .skipIf (.byteEqual o.x o.nn)
  | 0x4 => .skipIf (.byteDifferent o.x o.nn)
  | 0x5 => if o.n = 0 then .skipIf (.equal o.x o.y) else .unknown word
  | 0x6 => .loadByte o.x o.nn
  | 0x7 => .addByte o.x o.nn
  | 0x8 =>
    match Combination.ofCode? o.n.val with
    | some how => .combine how o.x o.y
    | none => .unknown word
  | 0x9 => if o.n = 0 then .skipIf (.different o.x o.y) else .unknown word
  | 0xA => .setIndex o.nnn
  | 0xB => .jumpOffset o.nnn
  | 0xC => .random o.x o.nn
  | 0xD => .draw o.x o.y o.n
  | 0xE => ofKeyWord word o.x
  | _ => ofMiscWord word o.x

/-- The instruction that the low sixteen bits of a number hold. -/
def decodeInt (word : Int) : Instruction := decode (UInt16.ofNat (word % 0x10000).toNat)

end Instruction

/-- A register's name. -/
def registerName (x : Register) : String := s!"V{hex 0 x.val}"

/-- A byte operand as a mnemonic shows it. -/
def byteText (value : UInt8) : String := s!"0x{hex 2 value.toNat}"

/-- An address operand as a mnemonic shows it. -/
def targetText (target : Target) : String := s!"0x{hex 3 target.val}"

/-- The mnemonic of a skip. -/
def Condition.mnemonic : Condition → String
  | .byteEqual x value => s!"SE {registerName x}, {byteText value}"
  | .byteDifferent x value => s!"SNE {registerName x}, {byteText value}"
  | .equal x y => s!"SE {registerName x}, {registerName y}"
  | .different x y => s!"SNE {registerName x}, {registerName y}"
  | .keyDown x => s!"SKP {registerName x}"
  | .keyUp x => s!"SKNP {registerName x}"

/-- The word a mnemonic begins with. -/
def Combination.mnemonic : Combination → String
  | .copy => "LD"
  | .or => "OR"
  | .and => "AND"
  | .xor => "XOR"
  | .add => "ADD"
  | .subtract => "SUB"
  | .shiftRight => "SHR"
  | .subtractReverse => "SUBN"
  | .shiftLeft => "SHL"

/-- The mnemonic of an instruction. -/
def Instruction.mnemonic : Instruction → String
  | .endProgram => "EOF"
  | .clearScreen => "CLS"
  | .ret => "RET"
  | .jump target => s!"JP {targetText target}"
  | .call target => s!"CALL {targetText target}"
  | .jumpOffset base => s!"JP V0, {targetText base}"
  | .skipIf condition => condition.mnemonic
  | .loadByte x value => s!"LD {registerName x}, {byteText value}"
  | .addByte x value => s!"ADD {registerName x}, {byteText value}"
  | .combine how x y => s!"{how.mnemonic} {registerName x}, {registerName y}"
  | .random x mask => s!"RND {registerName x}, {byteText mask}"
  | .setIndex target => s!"LD I, {targetText target}"
  | .draw x y height => s!"DRW {registerName x}, {registerName y}, {height.val}"
  | .readDelay x => s!"LD {registerName x}, DT"
  | .awaitKey x => s!"LD {registerName x}, K"
  | .setDelay x => s!"LD DT, {registerName x}"
  | .setSound x => s!"LD ST, {registerName x}"
  | .addIndex x => s!"ADD I, {registerName x}"
  | .loadGlyph x => s!"LD F, {registerName x}"
  | .storeDigits x => s!"LD B, {registerName x}"
  | .storeRegisters x => s!"LD [I], {registerName x}"
  | .loadRegisters x => s!"LD {registerName x}, [I]"
  | .unknown word => s!"??? 0x{hex 4 word.toNat}"

end ChipEight
