import ChipEight.Board
import ChipEight.Proofs.Memory

/-!
# What an instruction does to a board

`Board.execute` is one case for each instruction. This module reads it by the parts of the board
instead, once for all: which fault it ends with (`refusal`), that a fault leaves everything as it
was, and what becomes of the index, the program counter, the call stack, the keypad and the screen.
Everything that is said later about steps and runs goes through these statements, and none of them
looks at an instruction's case again.
-/

namespace ChipEight

namespace Board

/-! ## Faults -/

/-- The fault of an access to a number of bytes from the index on, if they do not all lie in
memory. -/
def blockFault (b : Board) (length : Int) : Option Fault :=
  if Memory.Holds b.processor.index length then none
  else some (.outOfBounds b.processor.index length)

/-- The fault that an instruction fetched at an address ends with, if any. -/
def refusal (b : Board) (pc : Int) : Instruction → Option Fault
  | .ret => if b.processor.stack = [] then some (.stackUnderflow pc) else none
  | .call _ => if stackLimit ≤ b.processor.stack.length then some (.stackOverflow pc) else none
  | .draw _ _ height => b.blockFault height.val
  | .loadGlyph x =>
    if 15 < (b.processor.register x).toNat then some (.invalidDigit (b.processor.register x).toNat)
    else none
  | .storeDigits _ => b.blockFault 3
  | .storeRegisters x | .loadRegisters x => b.blockFault (x.val + 1)
  | .unknown word => some (.unknownInstruction word pc)
  | _ => none

/-! ### The three instructions on blocks

Drawing, storing and restoring each ask memory for a block before they change anything. -/

theorem draw_fault (b : Board) (x y : Register) (height : Nibble) :
    (b.draw x y height).2 = b.blockFault height.val := by
  unfold draw blockFault
  rcases b.memory.readBlock_cases b.processor.index height.val with ⟨h, bytes, hr⟩ | ⟨h, hr⟩
  · rw [hr, if_pos h]
  · rw [hr, if_neg h]

theorem store_fault (b : Board) (values : List Int) :
    (b.store values).2 = b.blockFault values.length := by
  unfold store blockFault
  rcases b.memory.writeBlock_cases b.processor.index values with ⟨h, memory, hw⟩ | ⟨h, hw⟩
  · rw [hw, if_pos h]
  · rw [hw, if_neg h]

theorem restore_fault (b : Board) (x : Register) :
    (b.restore x).2 = b.blockFault (x.val + 1) := by
  unfold restore blockFault
  rcases b.memory.readBlock_cases b.processor.index (x.val + 1) with ⟨h, bytes, hr⟩ | ⟨h, hr⟩
  · rw [hr, if_pos h]
  · rw [hr, if_neg h]

theorem registersThrough_length (p : Processor) (x : Register) :
    (p.registersThrough x).length = x.val + 1 := by
  simp only [Processor.registersThrough, List.length_take, Vector.length_toList]
  omega

/-- A font glyph exists for the sixteen digits. -/
theorem glyph_byte (value : UInt8) :
    Memory.glyph value.toNat =
      if 15 < value.toNat then .error (.invalidDigit value.toNat)
      else .ok (fontStart + value.toNat * glyphHeight) := by
  unfold Memory.glyph
  by_cases h : 15 < value.toNat
  · rw [if_neg (by omega), if_pos h]
  · rw [if_pos (by omega), if_neg h]

/-- **The fault of an instruction depends on what it needs and on nothing else.** -/
theorem execute_fault (b : Board) (now : Seconds) (pc : Int) (i : Instruction) :
    (b.execute now pc i).2 = b.refusal pc i := by
  cases i with
  | ret => simp only [execute, refusal]; split <;> simp_all
  | call target => simp only [execute, refusal]; split <;> rfl
  | draw x y height => exact draw_fault b x y height
  | loadGlyph x =>
      simp only [execute, refusal, glyph_byte]
      by_cases h : 15 < (b.processor.register x).toNat
      · simp only [if_pos h]
      · simp only [if_neg h]
  | storeDigits x => exact store_fault b _
  | storeRegisters x =>
      rw [execute, store_fault, List.length_map, registersThrough_length]
      rfl
  | loadRegisters x => exact restore_fault b x
  | _ => rfl

/-- **An instruction that faults has changed nothing.** Each looks for what can go wrong first. -/
theorem execute_unchanged {b : Board} {now : Seconds} {pc : Int} {i : Instruction} {fault : Fault}
    (h : (b.execute now pc i).2 = some fault) : (b.execute now pc i).1 = b := by
  cases i with
  | ret => simp only [execute] at h ⊢; split <;> simp_all
  | call target => simp only [execute] at h ⊢; split <;> simp_all
  | draw x y height => simp only [execute, draw] at h ⊢; split <;> simp_all
  | loadGlyph x => simp only [execute] at h ⊢; split <;> simp_all
  | storeDigits x => simp only [execute, store] at h ⊢; split <;> simp_all
  | storeRegisters x => simp only [execute, store] at h ⊢; split <;> simp_all
  | loadRegisters x => simp only [execute, restore] at h ⊢; split <;> simp_all
  | unknown word => rfl
  | _ => exact absurd h (by simp [execute])

/-! ## What becomes of each part -/

/-- The rows of a sprite from the index on, if they lie in memory. -/
def spriteRows (b : Board) (height : Nibble) : Option (List Int) :=
  (b.memory.readBlock b.processor.index height.val).toOption.map
    (List.map fun row => (row.toNat : Int))

/-- The screen with a sprite drawn at the place that two registers hold, and whether lit pixels were
darkened. -/
def drawn (b : Board) (x y : Register) (rows : List Int) : Screen × Bool :=
  b.screen.draw (b.processor.register x).toNat (b.processor.register y).toNat rows

/-- Memory with values written from the index on, if there is room. -/
def written (b : Board) (values : List Int) : Memory :=
  (b.memory.writeBlock b.processor.index values).toOption.getD b.memory

/-- The keypad as a wait for a key finds it: the first step of a wait forgets what is queued. -/
def awaited (b : Board) : Keypad :=
  if b.processor.waiting then b.keypad else b.keypad.discardPresses

/-- The registers after an instruction. -/
def registersAfter (b : Board) : Instruction → Vector UInt8 16
  | .loadByte x value => (b.processor.setRegister x value).registers
  | .addByte x value => (b.processor.setRegister x (b.processor.register x + value)).registers
  | .combine how x y => (b.processor.combine how x y).registers
  | .random x mask =>
    (b.processor.setRegister x (byteOf b.random.next.1 &&& mask)).registers
  | .draw x y height =>
    match b.spriteRows height with
    | some rows =>
      (b.processor.setRegister flagRegister (if (b.drawn x y rows).2 then 1 else 0)).registers
    | none => b.processor.registers
  | .readDelay x => (b.processor.setRegister x b.delay.value).registers
  | .awaitKey x =>
    match b.awaited.presses with
    | key :: _ => (b.processor.setRegister x (UInt8.ofNat key.val)).registers
    | [] => b.processor.registers
  | .addIndex x => (b.processor.addIndex x).registers
  | .loadRegisters x =>
    match b.memory.readBlock b.processor.index (x.val + 1) with
    | .ok values => (b.processor.setRegisters values).registers
    | .error _ => b.processor.registers
  | _ => b.processor.registers

/-- The index after an instruction. -/
def indexAfter (b : Board) : Instruction → Int
  | .setIndex target => target.val
  | .addIndex x => (b.processor.index + (b.processor.register x).toNat) % 0x10000
  | .loadGlyph x =>
    if 15 < (b.processor.register x).toNat then b.processor.index
    else fontStart + (b.processor.register x).toNat * glyphHeight
  | _ => b.processor.index

/-- The program counter after an instruction, which finds it past the instruction's own word. -/
def pcAfter (b : Board) : Instruction → Int
  | .ret => b.processor.stack.headD b.processor.pc
  | .jump target => target.val
  | .call target =>
    if stackLimit ≤ b.processor.stack.length then b.processor.pc else target.val
  | .jumpOffset base => ((b.processor.register 0).toNat + base.val : Nat)
  | .skipIf condition =>
    if b.holds condition then b.processor.pc + wordSize else b.processor.pc
  | .awaitKey _ =>
    if b.awaited.presses = [] then b.processor.pc - wordSize else b.processor.pc
  | _ => b.processor.pc

/-- The call stack after an instruction. -/
def stackAfter (b : Board) : Instruction → List Int
  | .ret => b.processor.stack.tail
  | .call _ =>
    if stackLimit ≤ b.processor.stack.length then b.processor.stack
    else b.processor.pc :: b.processor.stack
  | _ => b.processor.stack

/-- Whether the processor is halted after an instruction. -/
def haltedAfter (b : Board) : Instruction → Bool
  | .endProgram => true
  | _ => b.processor.halted

/-- Whether the processor waits for a key after an instruction. -/
def waitingAfter (b : Board) : Instruction → Bool
  | .awaitKey _ => b.awaited.presses.isEmpty
  | _ => b.processor.waiting

/-- Memory after an instruction. -/
def memoryAfter (b : Board) : Instruction → Memory
  | .storeDigits x => b.written (b.processor.digits x)
  | .storeRegisters x =>
    b.written ((b.processor.registersThrough x).map fun value => (value.toNat : Int))
  | _ => b.memory

/-- The screen after an instruction. -/
def screenAfter (b : Board) : Instruction → Screen
  | .clearScreen => b.screen.clear
  | .draw x y height =>
    match b.spriteRows height with
    | some rows => (b.drawn x y rows).1
    | none => b.screen
  | _ => b.screen

/-- The keypad after an instruction. -/
def keypadAfter (b : Board) : Instruction → Keypad
  | .awaitKey _ => b.awaited.nextPress.2
  | _ => b.keypad

/-- The delay timer after an instruction. -/
def delayAfter (b : Board) (now : Seconds) : Instruction → Timer Seconds
  | .setDelay x => b.delay.set (b.processor.register x).toNat now
  | _ => b.delay

/-- The sound timer after an instruction. -/
def soundAfter (b : Board) (now : Seconds) : Instruction → Timer Seconds
  | .setSound x => b.sound.set (b.processor.register x).toNat now
  | _ => b.sound

/-- The source of random numbers after an instruction. -/
def randomAfter (b : Board) : Instruction → RandomSource
  | .random _ _ => b.random.next.2
  | _ => b.random

/-- The board after an instruction, part by part. -/
def outcome (b : Board) (now : Seconds) (i : Instruction) : Board where
  processor :=
    { registers := b.registersAfter i
      index := b.indexAfter i
      pc := b.pcAfter i
      stack := b.stackAfter i
      halted := b.haltedAfter i
      waiting := b.waitingAfter i
      count := b.processor.count }
  memory := b.memoryAfter i
  screen := b.screenAfter i
  keypad := b.keypadAfter i
  delay := b.delayAfter now i
  sound := b.soundAfter now i
  random := b.randomAfter i

theorem draw_outcome (b : Board) (now : Seconds) (x y : Register) (height : Nibble) :
    (b.draw x y height).1 = b.outcome now (.draw x y height) := by
  simp only [draw, outcome, registersAfter, screenAfter, spriteRows]
  cases b.memory.readBlock b.processor.index height.val <;> rfl

theorem store_outcome (b : Board) (values : List Int) :
    (b.store values).1 = { b with memory := b.written values } := by
  unfold store written
  cases b.memory.writeBlock b.processor.index values <;> rfl

theorem restore_outcome (b : Board) (now : Seconds) (x : Register) :
    (b.restore x).1 = b.outcome now (.loadRegisters x) := by
  simp only [restore, outcome, registersAfter]
  cases b.memory.readBlock b.processor.index (x.val + 1) <;> rfl

theorem awaitKey_outcome (b : Board) (now : Seconds) (x : Register) :
    b.awaitKey x = b.outcome now (.awaitKey x) := by
  have hawaited : (if b.processor.waiting then b.keypad else b.keypad.discardPresses) =
      b.awaited := rfl
  simp only [awaitKey, outcome, registersAfter, pcAfter, waitingAfter, keypadAfter, hawaited]
  unfold Keypad.nextPress
  cases hk : b.awaited.presses <;> rfl

/-- **The instruction set read by parts**: what an instruction leaves behind, and its fault. -/
theorem execute_eq (b : Board) (now : Seconds) (pc : Int) (i : Instruction) :
    b.execute now pc i = (b.outcome now i, b.refusal pc i) := by
  refine Prod.ext ?_ (b.execute_fault now pc i)
  cases i with
  | ret =>
      simp only [execute, outcome, pcAfter, stackAfter]
      cases hs : b.processor.stack with
      | nil =>
          -- the program counter stays where it is, past the return
          dsimp only [List.headD_nil, List.tail_nil]
          rw [← hs]
          rfl
      | cons address stack => rfl
  | call target =>
      simp only [execute, outcome, pcAfter, stackAfter]
      split <;> rfl
  | skipIf condition =>
      simp only [execute, outcome, pcAfter, Processor.skipWhen]
      split <;> rfl
  | combine how x y => cases how <;> rfl
  | draw x y height => exact draw_outcome b now x y height
  | awaitKey x => exact awaitKey_outcome b now x
  | loadGlyph x =>
      simp only [execute, outcome, indexAfter, glyph_byte]
      by_cases h : 15 < (b.processor.register x).toNat
      · simp only [if_pos h]; rfl
      · simp only [if_neg h]; rfl
  | storeDigits x | storeRegisters x => rw [execute, store_outcome]; rfl
  | loadRegisters x => exact restore_outcome b now x
  | _ => rfl

/-- Keys stay as they are held, whatever the instruction. -/
theorem keypadAfter_down (b : Board) (i : Instruction) :
    (b.keypadAfter i).down = b.keypad.down := by
  cases i with
  | awaitKey x =>
      simp only [keypadAfter, awaited, Keypad.nextPress, Keypad.discardPresses]
      split <;> split <;> rfl
  | _ => rfl

/-- **An instruction that is refused changes nothing.** -/
theorem outcome_of_refusal {b : Board} {now : Seconds} {pc : Int} {i : Instruction} {fault : Fault}
    (h : b.refusal pc i = some fault) : b.outcome now i = b := by
  have hfault : (b.execute now pc i).2 = some fault := by rw [execute_eq]; exact h
  have hunchanged := execute_unchanged hfault
  rwa [execute_eq] at hunchanged

end Board

end ChipEight
