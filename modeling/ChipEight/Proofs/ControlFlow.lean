import ChipEight.Proofs.Effects
import ChipEight.Proofs.Subroutine

/-!
# Where a program goes on

A step moves the program counter past its word before it carries the instruction out, and the
instruction may then move it further, put it somewhere else or take it back. `Board.Flow` says of
every word where that leads, measured from the address of the word itself: a skip goes two bytes
further than the others, a jump and a call go where they say, a return goes where the last call came
from, and a wait for a key stays until there is a press. Whatever is not in this list goes on to the
next word, and nothing but calls and returns moves an address on or off the stack.

The words are told apart by their digits, and the conditions are about the registers and keys that a
step finds.
-/

namespace ChipEight

namespace Board

/-! ## What is to be shown -/

/-- The words, as numbers, that may lead elsewhere than to the next word. -/
inductive Steers : Nat → Prop
  | ret : Steers 0x00EE
  | jump (target : Target) : Steers (0x1000 + target.val)
  | call (target : Target) : Steers (0x2000 + target.val)
  | byteEqual (x : Register) (value : UInt8) : Steers (0x3000 + 0x100 * x.val + value.toNat)
  | byteDifferent (x : Register) (value : UInt8) : Steers (0x4000 + 0x100 * x.val + value.toNat)
  | equal (x y : Register) : Steers (0x5000 + 0x100 * x.val + 0x10 * y.val)
  | different (x y : Register) : Steers (0x9000 + 0x100 * x.val + 0x10 * y.val)
  | jumpOffset (base : Target) : Steers (0xB000 + base.val)
  | keyDown (x : Register) : Steers (0xE000 + 0x100 * x.val + 0x9E)
  | keyUp (x : Register) : Steers (0xE000 + 0x100 * x.val + 0xA1)
  | awaitKey (x : Register) : Steers (0xF000 + 0x100 * x.val + 0x0A)

/-- The next word is skipped exactly if a condition holds. -/
def SkipsIf (b : Board) (after : Processor) (condition : Prop) : Prop :=
  (condition → after.pc = b.processor.pc + 4) ∧ (¬ condition → after.pc = b.processor.pc + 2)

/-- Where a board goes on: the program counter and the call stack by the word that is fetched. -/
structure Flow (b : Board) (after : Processor) : Prop where
  /-- A word is fetched, to which one of the others applies. -/
  fetched : ∃ word, b.memory.fetch b.processor.pc = .ok word
  /-- 3XNN and 4XNN compare a register with a byte. -/
  byteEqual : ∀ x value, b.Fetches (0x3000 + 0x100 * x.val + value.toNat) →
    b.SkipsIf after (b.processor.register x = value)
  byteDifferent : ∀ x value, b.Fetches (0x4000 + 0x100 * x.val + value.toNat) →
    b.SkipsIf after (b.processor.register x ≠ value)
  /-- 5XY0 and 9XY0 compare two registers. -/
  equal : ∀ x y, b.Fetches (0x5000 + 0x100 * x.val + 0x10 * y.val) →
    b.SkipsIf after (b.processor.register x = b.processor.register y)
  different : ∀ x y, b.Fetches (0x9000 + 0x100 * x.val + 0x10 * y.val) →
    b.SkipsIf after (b.processor.register x ≠ b.processor.register y)
  /-- EX9E and EXA1 look at the key that the low digit of a register names. -/
  keyDown : ∀ x, ∀ key : Key, key.val = (b.processor.register x).toNat % 16 →
    b.Fetches (0xE000 + 0x100 * x.val + 0x9E) → b.SkipsIf after (b.keypad.isDown key = true)
  keyUp : ∀ x, ∀ key : Key, key.val = (b.processor.register x).toNat % 16 →
    b.Fetches (0xE000 + 0x100 * x.val + 0xA1) → b.SkipsIf after (b.keypad.isDown key = false)
  /-- 1NNN leads to its target. -/
  jump : ∀ target : Target, b.Fetches (0x1000 + target.val) → after.pc = target.val
  /-- 2NNN does so too, and leaves the address after it. -/
  call : ∀ target : Target, b.Fetches (0x2000 + target.val) →
    after.pc = target.val ∧ after.stack = (b.processor.pc + 2) :: b.processor.stack
  /-- BNNN adds a register, and the sum may lie past memory. -/
  jumpOffset : ∀ base : Target, b.Fetches (0xB000 + base.val) →
    after.pc = ((b.processor.register 0).toNat + base.val : Nat)
  /-- 00EE takes the last address off the stack and leads there. -/
  ret : b.Fetches 0x00EE → b.processor.stack = after.pc :: after.stack
  /-- FX0A stays at its place unless a press waits that came after the wait began. -/
  awaitKey : ∀ x : Register, b.Fetches (0xF000 + 0x100 * x.val + 0x0A) →
    if b.processor.waiting = true ∧ b.keypad.presses ≠ [] then after.pc = b.processor.pc + 2
    else after.pc = b.processor.pc
  /-- Every other word goes on to the next. -/
  onward : ∀ word, b.memory.fetch b.processor.pc = .ok word → ¬ Steers word.toNat →
    after.pc = b.processor.pc + 2
  /-- Only a call and a return touch the stack. -/
  stack : (∀ target : Target, ¬ b.Fetches (0x2000 + target.val)) → ¬ b.Fetches 0x00EE →
    after.stack = b.processor.stack

/-! ## Instruction by instruction -/

variable {b : Board} {now : Seconds}

theorem fetched_of_success (hrun : b.processor.halted = false) (hok : (b.step now).fault = none) :
    ∃ word, b.memory.fetch b.processor.pc = .ok word := by
  cases hfetch : b.memory.fetch b.processor.pc with
  | error fault =>
      rw [step_fault_of_fetch_error hrun hfetch] at hok
      exact absurd hok (by simp)
  | ok word => exact ⟨word, rfl⟩

/-- A skip takes the program counter past one word more if its condition holds. -/
theorem step_skip (hrun : b.processor.halted = false) (condition : Condition)
    (hf : b.Fetches condition.code) {holds : Prop} (hiff : b.holds condition = true ↔ holds) :
    b.SkipsIf (b.step now).board.processor holds := by
  obtain ⟨hboard, _⟩ := step_of_fetches (i := .skipIf condition) hrun (by simp) hf now
  have hsame : b.advanced.holds condition = b.holds condition := by cases condition <;> rfl
  have hpc : (b.step now).board.processor.pc =
      if b.holds condition then b.processor.pc + wordSize + wordSize
      else b.processor.pc + wordSize := by
    rw [hboard, ← hsame]
    rfl
  rw [← hiff]
  constructor
  · intro h
    rw [hpc, if_pos h, Int.add_assoc]
    rfl
  · intro h
    rw [hpc, if_neg h]

/-- The key that the low digit of a register names is the one that a skip looks at. -/
theorem key_eq (x : Register) {key : Key} (h : key.val = (b.processor.register x).toNat % 16) :
    Fin.ofNat 16 (b.processor.register x).toNat = key := Fin.ext h.symm

/-- A return that succeeds found an address. -/
theorem step_ret (hrun : b.processor.halted = false) (hf : b.Fetches 0x00EE)
    (hok : (b.step now).fault = none) :
    b.processor.stack = (b.step now).board.processor.pc :: (b.step now).board.processor.stack := by
  obtain ⟨hboard, hfault⟩ := step_of_fetches (i := .ret) hrun (by simp) hf now
  rw [hboard]
  cases hstack : b.processor.stack with
  | nil =>
      have hrefused : b.refusal b.processor.pc .ret = some (.stackUnderflow b.processor.pc) :=
        if_pos hstack
      rw [hok, hrefused] at hfault
      exact absurd hfault (by simp)
  | cons address rest =>
      change address :: rest =
        b.processor.stack.headD (b.processor.pc + wordSize) :: b.processor.stack.tail
      rw [hstack, List.headD_cons, List.tail_cons]

/-- A call that succeeds found room. -/
theorem stack_room (hrun : b.processor.halted = false) {target : Target}
    (hf : b.Fetches (0x2000 + target.val)) (hok : (b.step now).fault = none) :
    b.processor.stack.length < stackLimit := by
  obtain ⟨_, hfault⟩ := step_of_fetches (i := .call target) hrun (by simp) hf now
  rw [hok] at hfault
  refine Nat.lt_of_not_le fun hfull => ?_
  have hrefused : b.refusal b.processor.pc (.call target) =
      some (.stackOverflow b.processor.pc) := if_pos hfull
  rw [hrefused] at hfault
  exact absurd hfault (by simp)

/-- Whether a wait goes on is up to the presses that wait, once it began. -/
theorem step_wait (hrun : b.processor.halted = false) {x : Register}
    (hf : b.Fetches (0xF000 + 0x100 * x.val + 0x0A)) :
    if b.processor.waiting = true ∧ b.keypad.presses ≠ [] then
      (b.step now).board.processor.pc = b.processor.pc + 2
    else (b.step now).board.processor.pc = b.processor.pc := by
  obtain ⟨hboard, _⟩ := step_of_fetches (i := .awaitKey x) hrun (by simp) hf now
  have hpc : (b.step now).board.processor.pc =
      if b.awaited.presses = [] then b.processor.pc + wordSize - wordSize
      else b.processor.pc + wordSize := by
    rw [hboard]
    rfl
  have hnone : b.awaited.presses = [] ↔
      ¬ (b.processor.waiting = true ∧ b.keypad.presses ≠ []) := by
    cases hwaiting : b.processor.waiting with
    | true => simp [awaited, hwaiting]
    | false => simp [awaited, hwaiting, Keypad.discardPresses]
  by_cases hpress : b.processor.waiting = true ∧ b.keypad.presses ≠ []
  · rw [if_pos hpress, hpc, if_neg (fun h => hnone.mp h hpress)]
  · rw [if_neg hpress, hpc, if_pos (hnone.mpr hpress), Int.add_sub_cancel]

/-- An instruction that leads elsewhere than to the next word has one of the words for that. -/
theorem steers_of_pc {word : UInt16} (hf : b.memory.fetch b.processor.pc = .ok word)
    (hrun : b.processor.halted = false)
    (hpc : (b.step now).board.processor.pc ≠ b.processor.pc + wordSize) : Steers word.toNat := by
  rw [(step_of_fetch hrun hf now).1] at hpc
  have hcode : ∀ {i}, i ≠ .endProgram → Instruction.decode word = i → word.toNat = i.code :=
    Instruction.toNat_of_decode
  rcases (b.outcome_confined now (Instruction.decode word)).pc hpc with h | ⟨target, h⟩ |
      ⟨target, h⟩ | ⟨base, h⟩ | ⟨condition, h⟩ | ⟨x, h⟩
  · rw [hcode (by simp) h]
    exact .ret
  · rw [hcode (by simp) h]
    exact .jump target
  · rw [hcode (by simp) h]
    exact .call target
  · rw [hcode (by simp) h]
    exact .jumpOffset base
  · rw [hcode (by simp) h]
    cases condition with
    | byteEqual x value => exact .byteEqual x value
    | byteDifferent x value => exact .byteDifferent x value
    | equal x y => exact .equal x y
    | different x y => exact .different x y
    | keyDown x => exact .keyDown x
    | keyUp x => exact .keyUp x
  · rw [hcode (by simp) h]
    exact .awaitKey x

/-! ## The main statement -/

/--
**Every step that succeeds goes on where its word says.**

Nothing is asked of the board but that its processor is not halted: registers and keys may hold
anything, and the program counter may lead past memory, where the next step fails.
-/
theorem step_flow (hrun : b.processor.halted = false) (hok : (b.step now).fault = none) :
    b.Flow (b.step now).board.processor where
  fetched := fetched_of_success hrun hok
  byteEqual := fun x value hf =>
    step_skip hrun (.byteEqual x value) hf beq_iff_eq
  byteDifferent := fun x value hf =>
    step_skip hrun (.byteDifferent x value) hf bne_iff_ne
  equal := fun x y hf => step_skip hrun (.equal x y) hf beq_iff_eq
  different := fun x y hf => step_skip hrun (.different x y) hf bne_iff_ne
  keyDown := by
    intro x key hkey hf
    refine step_skip hrun (.keyDown x) hf ?_
    rw [holds, key_eq x hkey]
  keyUp := by
    intro x key hkey hf
    refine step_skip hrun (.keyUp x) hf ?_
    rw [holds, key_eq x hkey, Bool.not_eq_true']
  jump := by
    intro target hf
    rw [(step_of_fetches (i := .jump target) hrun (by simp) hf now).1]
    rfl
  call := by
    intro target hf
    obtain ⟨hstack, hpc⟩ := step_call hrun hf (stack_room hrun hf hok) now
    exact ⟨hpc, hstack⟩
  jumpOffset := by
    intro base hf
    rw [(step_of_fetches (i := .jumpOffset base) hrun (by simp) hf now).1]
    rfl
  ret := fun hf => step_ret hrun hf hok
  awaitKey := fun x hf => step_wait hrun hf
  onward := by
    intro word hf hsteers
    refine Classical.byContradiction fun hpc => hsteers ?_
    exact steers_of_pc hf hrun hpc
  stack := by
    intro hcall hret
    rcases b.step_stack now with hsame | ⟨target, hf, _⟩ | ⟨hf, _⟩
    · exact hsame
    · exact absurd hf (hcall target)
    · exact absurd hf hret

/-- A jump by the largest offset from the largest base leads past memory, and leaves the stack as it
is. -/
theorem step_flow_past_memory :
    let m := (Machine.new (.ofSeed 7) 0.25).perform (.load [0xBF, 0xFF])
    let b : Board := { m.board with
      processor := { registers := Vector.replicate 16 0xFF, stack := [0x20A] } }
    (b.step 0.5).fault = none ∧ (b.step 0.5).board.processor.pc = 0x10FE ∧
      (b.step 0.5).board.processor.stack = [0x20A] := by
  intro m b
  obtain ⟨memory, hload, hm⟩ := (Machine.new (.ofSeed 7) 0.25).perform_load [0xBF, 0xFF] (by decide)
  have hmemory : b.memory = memory := by simp only [b, m, hm]
  have hfetch : b.memory.fetch b.processor.pc = .ok 0xBFFF := by
    rw [hmemory]
    exact Memory.fetch_word hload (k := 0) rfl rfl (by decide) rfl
  have hok : (b.step 0.5).fault = none := (step_of_fetch rfl hfetch 0.5).2
  have hflow := step_flow rfl hok
  have hword : b.Fetches (0xB000 + (0xFFF : Target).val) := ⟨0xBFFF, hfetch, rfl⟩
  have hother : ∀ {number}, b.Fetches number → number = 0xBFFF := by
    rintro number ⟨word, hf, rfl⟩
    rw [hfetch] at hf
    rw [← Except.ok.inj hf]
    rfl
  refine ⟨hok, hflow.jumpOffset 0xFFF hword, hflow.stack (fun target hf => ?_) fun hf => ?_⟩
  · have := hother hf
    omega
  · exact absurd (hother hf) (by decide)

end Board

end ChipEight
