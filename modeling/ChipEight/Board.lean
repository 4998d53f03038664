import ChipEight.Instruction
import ChipEight.Keypad
import ChipEight.Memory
import ChipEight.Random
import ChipEight.Screen
import ChipEight.Timer

/-!
# The board

The processor and the parts it works on: memory, screen, keypad, the two timers and the source of
random numbers. A step fetches the word at the program counter, moves the counter past it and
carries the instruction out.

An instruction that cannot be carried out leaves everything else as it was: each one looks for
what can go wrong before it changes anything. So after a fault the board differs from before in
the program counter and the instruction count at most, and if even the fetch failed in nothing.
-/

namespace ChipEight

/-- The size of an instruction in bytes. -/
abbrev wordSize : Int := 2

/-- The most return addresses that the call stack holds. -/
abbrev stackLimit : Nat := 16

/-- The register that takes carries and collisions. -/
abbrev flagRegister : Register := 15

/-- The registers, the call stack with the last return address first, and the processor's
condition. -/
structure Processor where
  registers : Vector UInt8 16 := Vector.replicate 16 0
  index : Int := 0
  pc : Int := programStart
  stack : List Int := []
  halted : Bool := false
  waiting : Bool := false
  count : Nat := 0
  deriving DecidableEq, Repr

/-- The processor and the parts it works on. -/
structure Board where
  processor : Processor := {}
  memory : Memory := Memory.blank
  screen : Screen := {}
  keypad : Keypad := {}
  delay : Timer Seconds
  sound : Timer Seconds
  random : RandomSource

/-- An instruction that was fetched: its place among all that were, its address and its word. -/
structure Fetched where
  number : Nat
  pc : Int
  word : UInt16
  deriving DecidableEq, Repr

/-- The instruction of a fetched word. -/
def Fetched.instruction (f : Fetched) : Instruction := Instruction.decode f.word

namespace Processor

/-- The value of a register. -/
def register (p : Processor) (x : Register) : UInt8 := p.registers[x]

/-- Gives a register a value. -/
def setRegister (p : Processor) (x : Register) (value : UInt8) : Processor :=
  { p with registers := p.registers.set x value }

/-- Gives a register a value and then the flag register the flag, which so survives when the two
registers are one. -/
def setFlagged (p : Processor) (x : Register) (value : UInt8) (flag : Bool) : Processor :=
  (p.setRegister x value).setRegister flagRegister (if flag then 1 else 0)

/-- The first registers, up to and with one of them. -/
def registersThrough (p : Processor) (x : Register) : List UInt8 :=
  p.registers.toList.take (x.val + 1)

/-- Gives the first registers values. -/
def setRegisters (p : Processor) (values : List UInt8) : Processor :=
  { p with registers := fill p.registers 0 values }
where
  /-- Puts values in place one after the other, as far as there are registers. -/
  fill (registers : Vector UInt8 16) (k : Nat) : List UInt8 → Vector UInt8 16
    | [] => registers
    | value :: rest => fill (registers.setIfInBounds k value) (k + 1) rest

/-- Moves past the next instruction if the condition holds. -/
def skipWhen (p : Processor) (condition : Bool) : Processor :=
  if condition then { p with pc := p.pc + wordSize } else p

/-- Combines two registers in the first, with the flag where the combination has one. -/
def combine (p : Processor) (how : Combination) (x y : Register) : Processor :=
  let vx := p.register x
  let vy := p.register y
  match how with
  | .copy => p.setRegister x vy
  | .or => p.setRegister x (vx ||| vy)
  | .and => p.setRegister x (vx &&& vy)
  | .xor => p.setRegister x (vx ^^^ vy)
  | .add => p.setFlagged x (vx + vy) (255 < vx.toNat + vy.toNat)
  | .subtract => p.setFlagged x (vx - vy) (vy ≤ vx)
  | .subtractReverse => p.setFlagged x (vy - vx) (vx ≤ vy)
  | .shiftRight => p.setFlagged x (vx >>> 1) (vx &&& 1 != 0)
  | .shiftLeft => p.setFlagged x (vx <<< 1) (vx &&& 128 != 0)

/-- Adds a register to the index; the flag tells that the sum lies beyond memory. -/
def addIndex (p : Processor) (x : Register) : Processor :=
  let total := p.index + (p.register x).toNat
  { p with index := total % 0x10000 }.setRegister flagRegister (if 0xFFF < total then 1 else 0)

/-- The decimal digits of a register, hundreds first. -/
def digits (p : Processor) (x : Register) : List Int :=
  let value := (p.register x).toNat
  [(value / 100 : Nat), (value / 10 % 10 : Nat), (value % 10 : Nat)]

end Processor

namespace Board

/-- The condition of a skip holds. -/
def holds (b : Board) : Condition → Bool
  | .byteEqual x value => b.processor.register x == value
  | .byteDifferent x value => b.processor.register x != value
  | .equal x y => b.processor.register x == b.processor.register y
  | .different x y => b.processor.register x != b.processor.register y
  | .keyDown x => b.keypad.isDown (Fin.ofNat 16 (b.processor.register x).toNat)
  | .keyUp x => !b.keypad.isDown (Fin.ofNat 16 (b.processor.register x).toNat)

/-- Waits for a key. Only presses after the wait began count, so the first step forgets the ones
that are queued. Until a press comes the instruction is carried out again and again. -/
def awaitKey (b : Board) (x : Register) : Board :=
  let keypad := if b.processor.waiting then b.keypad else b.keypad.discardPresses
  match keypad.nextPress with
  | (none, keypad) =>
    { b with
      keypad
      processor := { b.processor with waiting := true, pc := b.processor.pc - wordSize } }
  | (some key, keypad) =>
    { b with
      keypad
      processor := { b.processor with waiting := false }.setRegister x (UInt8.ofNat key.val) }

/-- Draws a sprite from memory; the flag tells of a collision. -/
def draw (b : Board) (x y : Register) (height : Nibble) : Board × Option Fault :=
  match b.memory.readBlock b.processor.index height.val with
  | .error fault => (b, some fault)
  | .ok rows =>
    let left : Int := (b.processor.register x).toNat
    let top : Int := (b.processor.register y).toNat
    let (screen, hit) := b.screen.draw left top (rows.map fun row => (row.toNat : Int))
    ({ b with
      screen
      processor := b.processor.setRegister flagRegister (if hit then 1 else 0) }, none)

/-- Writes values to memory from the index on. -/
def store (b : Board) (values : List Int) : Board × Option Fault :=
  match b.memory.writeBlock b.processor.index values with
  | .error fault => (b, some fault)
  | .ok memory => ({ b with memory }, none)

/-- Reads registers from memory from the index on. -/
def restore (b : Board) (x : Register) : Board × Option Fault :=
  match b.memory.readBlock b.processor.index (x.val + 1) with
  | .error fault => (b, some fault)
  | .ok values => ({ b with processor := b.processor.setRegisters values }, none)

/-- Carries an instruction out that was fetched at an address. The program counter has already
been moved past it. -/
def execute (b : Board) (now : Seconds) (pc : Int) : Instruction → Board × Option Fault
  | .endProgram => ({ b with processor := { b.processor with halted := true } }, none)
  | .clearScreen => ({ b with screen := b.screen.clear }, none)
  | .ret =>
    match b.processor.stack with
    | [] => (b, some (.stackUnderflow pc))
    | address :: stack =>
      ({ b with processor := { b.processor with pc := address, stack } }, none)
  | .jump target => ({ b with processor := { b.processor with pc := target.val } }, none)
  | .call target =>
    if stackLimit ≤ b.processor.stack.length then (b, some (.stackOverflow pc))
    else
      let stack := b.processor.pc :: b.processor.stack
      ({ b with processor := { b.processor with pc := target.val, stack } }, none)
  | .jumpOffset base =>
    let pc : Int := ((b.processor.register 0).toNat + base.val : Nat)
    ({ b with processor := { b.processor with pc } }, none)
  | .skipIf condition =>
    ({ b with processor := b.processor.skipWhen (b.holds condition) }, none)
  | .loadByte x value => ({ b with processor := b.processor.setRegister x value }, none)
  | .addByte x value =>
    let sum := b.processor.register x + value
    ({ b with processor := b.processor.setRegister x sum }, none)
  | .combine how x y => ({ b with processor := b.processor.combine how x y }, none)
  | .random x mask =>
    let (value, random) := b.random.next
    ({ b with random, processor := b.processor.setRegister x (byteOf value &&& mask) }, none)
  | .setIndex target => ({ b with processor := { b.processor with index := target.val } }, none)
  | .draw x y height => b.draw x y height
  | .readDelay x => ({ b with processor := b.processor.setRegister x b.delay.value }, none)
  | .awaitKey x => (b.awaitKey x, none)
  | .setDelay x => ({ b with delay := b.delay.set (b.processor.register x).toNat now }, none)
  | .setSound x => ({ b with sound := b.sound.set (b.processor.register x).toNat now }, none)
  | .addIndex x => ({ b with processor := b.processor.addIndex x }, none)
  | .loadGlyph x =>
    match Memory.glyph (b.processor.register x).toNat with
    | .error fault => (b, some fault)
    | .ok index => ({ b with processor := { b.processor with index } }, none)
  | .storeDigits x => b.store (b.processor.digits x)
  | .storeRegisters x =>
    b.store ((b.processor.registersThrough x).map fun value => (value.toNat : Int))
  | .loadRegisters x => b.restore x
  | .unknown word => (b, some (.unknownInstruction word pc))

/-- What a step of the processor came to: the board after it, the instruction if one was fetched,
and the fault if there was one. -/
structure Stepped where
  board : Board
  fetched : Option Fetched
  fault : Option Fault

/-- One step of the processor at a moment. A halted processor does nothing. -/
def step (b : Board) (now : Seconds) : Stepped :=
  if b.processor.halted then ⟨b, none, none⟩
  else
    let pc := b.processor.pc
    match b.memory.fetch pc with
    | .error fault => ⟨b, none, some fault⟩
    | .ok word =>
      let number := b.processor.count + 1
      let b := { b with processor := { b.processor with pc := pc + wordSize, count := number } }
      let (b, fault) := b.execute now pc (Instruction.decode word)
      ⟨b, some ⟨number, pc, word⟩, fault⟩

/-- Ticks both timers at one moment. -/
def tickTimers (b : Board) (now : Seconds) : Board :=
  { b with delay := (b.delay.tick now).2, sound := (b.sound.tick now).2 }

end Board

/-- The line that shows the processor. -/
def Processor.describe (p : Processor) : String :=
  let values := p.registers.toList.zipIdx.map fun (value, k) =>
    s!"V{Text.hex 0 k}={Text.hex 2 value.toNat}"
  let registers := " ".intercalate values
  s!"{Text.decimal 4 p.count} PC=0x{Text.hex 4 p.pc} I=0x{Text.hex 3 p.index} "
    ++ s!"SP={p.stack.length} {registers}"

end ChipEight
