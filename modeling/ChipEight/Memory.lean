import ChipEight.Fault

/-!
# Memory

The 4096 bytes that a program sees: the font of the sixteen hexadecimal digits from 0x050 on and
the program from 0x200 on. An access names an address and a number of bytes, and either all of
them lie in memory or the access fails and changes nothing. There is no wrapping at the end.

Byte values are stored modulo 256.
-/

namespace ChipEight

/-- The number of bytes. -/
abbrev memorySize : Nat := 0x1000

/-- Where a program is placed and starts. -/
abbrev programStart : Nat := 0x200

/-- The most bytes that a program may have. -/
abbrev programLimit : Nat := memorySize - programStart

/-- Where the font is placed. -/
abbrev fontStart : Nat := 0x050

/-- The number of bytes of one glyph. -/
abbrev glyphHeight : Nat := 5

/-- The byte that ends a program when it is fetched as the first of an instruction. -/
abbrev endMark : UInt8 := 0x0A

/-- The glyphs of the digits 0 to F, each a column of five rows. -/
def fontGlyphs : List UInt8 := [
  0xF0, 0x90, 0x90, 0x90, 0xF0,
  0x20, 0x60, 0x20, 0x20, 0x70,
  0xF0, 0x10, 0xF0, 0x80, 0xF0,
  0xF0, 0x10, 0xF0, 0x10, 0xF0,
  0x90, 0x90, 0xF0, 0x10, 0x10,
  0xF0, 0x80, 0xF0, 0x10, 0xF0,
  0xF0, 0x80, 0xF0, 0x90, 0xF0,
  0xF0, 0x10, 0x20, 0x40, 0x40,
  0xF0, 0x90, 0xF0, 0x90, 0xF0,
  0xF0, 0x90, 0xF0, 0x10, 0xF0,
  0xF0, 0x90, 0xF0, 0x90, 0x90,
  0xE0, 0x90, 0xE0, 0x90, 0xE0,
  0xF0, 0x80, 0x80, 0x80, 0xF0,
  0xE0, 0x90, 0x90, 0x90, 0xE0,
  0xF0, 0x80, 0xF0, 0x80, 0xF0,
  0xF0, 0x80, 0xF0, 0x80, 0x80]

/-- The whole number modulo 256. -/
def byteOf (value : Int) : UInt8 := UInt8.ofNat (value % 256).toNat

/-- The bytes and the length of the program that was placed in them last. -/
structure Memory where
  bytes : Vector UInt8 memorySize
  programLength : Nat := 0

namespace Memory

/-- Puts bytes in place one after the other, as far as there is room. -/
def place (bytes : Vector UInt8 memorySize) (address : Nat) : List UInt8 → Vector UInt8 memorySize
  | [] => bytes
  | b :: rest => place (bytes.setIfInBounds address b) (address + 1) rest

/-- Memory with the font and nothing else. -/
def blank : Memory := ⟨place (Vector.replicate memorySize 0) fontStart fontGlyphs, 0⟩

/-- The byte at an address, zero outside. -/
def byteAt (m : Memory) (address : Nat) : UInt8 := m.bytes[address]?.getD 0

/-- A number of bytes from an address on lies in memory. -/
def Holds (address length : Int) : Prop :=
  0 ≤ address ∧ 0 ≤ length ∧ address + length ≤ memorySize

instance (address length : Int) : Decidable (Holds address length) :=
  inferInstanceAs (Decidable (_ ∧ _ ∧ _))

/-- Reads one byte. -/
def read (m : Memory) (address : Int) : Except Fault UInt8 :=
  if Holds address 1 then .ok (m.byteAt address.toNat) else .error (.outOfBounds address 1)

/-- Reads a number of bytes. -/
def readBlock (m : Memory) (address length : Int) : Except Fault (List UInt8) :=
  if Holds address length then
    .ok ((List.range length.toNat).map fun k => m.byteAt (address.toNat + k))
  else .error (.outOfBounds address length)

/-- Writes bytes. -/
def writeBlock (m : Memory) (address : Int) (values : List Int) : Except Fault Memory :=
  if Holds address values.length then
    .ok { m with bytes := place m.bytes address.toNat (values.map byteOf) }
  else .error (.outOfBounds address values.length)

/-- Writes one byte. -/
def write (m : Memory) (address value : Int) : Except Fault Memory :=
  if Holds address 1 then
    .ok { m with bytes := m.bytes.setIfInBounds address.toNat (byteOf value) }
  else .error (.outOfBounds address 1)

/-- The word of two bytes, the first the more significant. -/
def wordOf (high low : UInt8) : UInt16 := UInt16.ofNat (high.toNat * 256 + low.toNat)

/-- Fetches the instruction word at an address. The end mark alone makes a word, so that a
program may end on the last byte of memory. -/
def fetch (m : Memory) (pc : Int) : Except Fault UInt16 := do
  let high ← m.read pc
  if high = endMark then .ok (wordOf endMark 0)
  else
    let low ← m.read (pc + 1)
    .ok (wordOf high low)

/-- Where the glyph of a digit is. -/
def glyph (digit : Int) : Except Fault Int :=
  if 0 ≤ digit ∧ digit ≤ 0xF then .ok (fontStart + digit * glyphHeight)
  else .error (.invalidDigit digit)

/-- Places a program. -/
def load (m : Memory) (program : List UInt8) : Except Fault Memory :=
  if program.length ≤ programLimit then
    .ok ⟨place m.bytes programStart program, program.length⟩
  else .error (.programTooLarge program.length)

end Memory

end ChipEight
