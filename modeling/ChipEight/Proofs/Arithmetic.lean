import ChipEight.Proofs.Effects
import ChipEight.Proofs.Faults
import Mathlib.Data.Nat.Bitwise

/-!
# Arithmetic on registers

Registers are bytes, and what an instruction calculates with them is cut to eight bits. Here the
same is said in numbers: `Combination.result` is what is calculated before anything is cut, and
`Combination.flag?` is what is reported of it in the flag register. Both are about the two operands
as the instruction finds them, so it makes no difference whether they are one register.

The flag register is one of the sixteen. It may be an operand, and then it is read before anything
is written; and it may be where the result goes, and then the flag is what is left there, because it
is written last.
-/

namespace ChipEight

/-! ## What is calculated and what is reported -/

/-- The number that a combination makes of the numbers in its two registers. -/
def Combination.result : Combination → Nat → Nat → Int
  | .copy, _, vy => vy
  | .or, vx, vy => (vx ||| vy : Nat)
  | .and, vx, vy => (vx &&& vy : Nat)
  | .xor, vx, vy => (vx ^^^ vy : Nat)
  | .add, vx, vy => vx + vy
  | .subtract, vx, vy => vx - vy
  | .subtractReverse, vx, vy => vy - vx
  | .shiftRight, vx, _ => (vx / 2 : Nat)
  | .shiftLeft, vx, _ => 2 * vx

/-- What a combination reports: a carry, that nothing was borrowed, or the bit shifted out. The
others report nothing. -/
def Combination.flag? : Combination → Nat → Nat → Option Bool
  | .add, vx, vy => some (255 < vx + vy)
  | .subtract, vx, vy => some (vy ≤ vx)
  | .subtractReverse, vx, vy => some (vx ≤ vy)
  | .shiftRight, vx, _ => some (vx.testBit 0)
  | .shiftLeft, vx, _ => some (vx.testBit 7)
  | .copy, _, _ | .or, _, _ | .and, _, _ | .xor, _, _ => none

namespace Processor

/-- What an instruction left in the registers that puts a number in one of them and may report a
flag. -/
structure Wrote (before after : Processor) (x : Register) (number : Int) (flag : Option Bool) :
    Prop where
  /-- The flag is in the flag register, also if the number was to go there. -/
  report : ∀ set, flag = some set → (after.register flagRegister).toNat = set.toNat
  /-- Otherwise the number is in its register, modulo 256. -/
  result : (x = flagRegister → flag = none) → ((after.register x).toNat : Int) = number % 256
  /-- No other register has changed, and the flag register has not where there is no flag. -/
  others : ∀ k, k ≠ x → (k = flagRegister → flag = none) → after.register k = before.register k

/-- Only the registers matter. -/
theorem Wrote.of_registers {before before' after after' : Processor} {x : Register} {number : Int}
    {flag : Option Bool} (h : before'.Wrote after' x number flag)
    (hbefore : before.registers = before'.registers) (hafter : after.registers = after'.registers) :
    before.Wrote after x number flag := by
  have hbefore' : before.register = before'.register := by
    funext k
    rw [register, register, hbefore]
  have hafter' : after.register = after'.register := by
    funext k
    rw [register, register, hafter]
  refine ⟨?_, ?_, ?_⟩
  · rw [hafter']
    exact h.report
  · rw [hafter']
    exact h.result
  · rw [hbefore', hafter']
    exact h.others

theorem setRegister_self (p : Processor) (x : Register) (value : UInt8) :
    (p.setRegister x value).register x = value := Vector.getElem_set_self _

theorem setRegister_wrote (p : Processor) (x : Register) {value : UInt8} {number : Int}
    (h : (value.toNat : Int) = number % 256) : p.Wrote (p.setRegister x value) x number none where
  report := fun set hset => absurd hset (by simp)
  result := fun _ => by rw [setRegister_self, h]
  others := fun k hk _ => p.setRegister_of_ne value hk

/-- **The flag is written last.** -/
theorem setFlagged_wrote (p : Processor) (x : Register) {value : UInt8} {number : Int}
    {flag set : Bool} (h : (value.toNat : Int) = number % 256) (hflag : flag = set) :
    p.Wrote (p.setFlagged x value flag) x number (some set) where
  report := by
    rintro _ ⟨⟩
    rw [setFlagged, setRegister_self, hflag]
    cases set <;> rfl
  result := by
    intro hx
    have hne : x ≠ flagRegister := fun heq => absurd (hx heq) (by simp)
    rw [setFlagged, setRegister_of_ne _ _ hne, setRegister_self, h]
  others := by
    intro k hk hnone
    have hne : k ≠ flagRegister := fun heq => absurd (hnone heq) (by simp)
    exact p.setFlagged_of_ne value flag hk hne

/-! ## Bytes as numbers -/

section Bytes

variable (vx vy : UInt8)

theorem add_number : ((vx + vy).toNat : Int) = (vx.toNat + vy.toNat : Int) % 256 := by
  rw [UInt8.toNat_add]
  omega

theorem sub_number : ((vx - vy).toNat : Int) = (vx.toNat - vy.toNat : Int) % 256 := by
  have hx := vx.toNat_lt
  have hy := vy.toNat_lt
  rw [UInt8.toNat_sub]
  omega

theorem shiftRight_number : ((vx >>> 1).toNat : Int) = ((vx.toNat / 2 : Nat) : Int) % 256 := by
  have hx := vx.toNat_lt
  have hhalf : (vx >>> 1).toNat = vx.toNat / 2 := by
    rw [UInt8.toNat_shiftRight]
    exact Nat.shiftRight_eq_div_pow _ _
  rw [hhalf]
  omega

theorem shiftLeft_number : ((vx <<< 1).toNat : Int) = (2 * vx.toNat : Int) % 256 := by
  have hdouble : (vx <<< 1).toNat = vx.toNat * 2 % 256 := by
    rw [UInt8.toNat_shiftLeft]
    exact congrArg (· % 256) (Nat.shiftLeft_eq _ _)
  rw [hdouble]
  omega

/-- A byte as it is needs no reduction. -/
theorem number_self : (vx.toNat : Int) = (vx.toNat : Int) % 256 := by
  have hx := vx.toNat_lt
  omega

/-- Masking by one bit tells whether it is set. -/
theorem mask_ne_zero {mask : UInt8} {k : Nat} (hmask : mask.toNat = 2 ^ k) :
    (vx &&& mask != 0) = vx.toNat.testBit k := by
  have hzero : vx &&& mask = 0 ↔ (vx.toNat.testBit k).toNat * 2 ^ k = 0 := by
    rw [← UInt8.toNat_inj, UInt8.toNat_and, hmask, Nat.and_two_pow]
    rfl
  have hpow : 2 ^ k ≠ 0 := Nat.ne_of_gt (Nat.two_pow_pos k)
  cases hbit : vx.toNat.testBit k with
  | true =>
      rw [hbit] at hzero
      exact bne_iff_ne.mpr fun heq => hpow (by simpa using hzero.mp heq)
  | false =>
      rw [hbit] at hzero
      exact bne_eq_false_iff_eq.mpr (hzero.mpr (Nat.zero_mul _))

end Bytes

/-- **A combination leaves its result and its flag.** -/
theorem combine_wrote (p : Processor) (how : Combination) (x y : Register) :
    p.Wrote (p.combine how x y) x
      (how.result (p.register x).toNat (p.register y).toNat)
      (how.flag? (p.register x).toNat (p.register y).toNat) := by
  cases how with
  | copy => exact p.setRegister_wrote x (number_self _)
  | or =>
      refine p.setRegister_wrote x ((number_self _).trans ?_)
      rw [UInt8.toNat_or]
      rfl
  | and =>
      refine p.setRegister_wrote x ((number_self _).trans ?_)
      rw [UInt8.toNat_and]
      rfl
  | xor =>
      refine p.setRegister_wrote x ((number_self _).trans ?_)
      rw [UInt8.toNat_xor]
      rfl
  | add => exact p.setFlagged_wrote x (add_number _ _) rfl
  | subtract => exact p.setFlagged_wrote x (sub_number _ _) rfl
  | subtractReverse => exact p.setFlagged_wrote x (sub_number _ _) rfl
  | shiftRight => exact p.setFlagged_wrote x (shiftRight_number _) (mask_ne_zero _ (k := 0) rfl)
  | shiftLeft => exact p.setFlagged_wrote x (shiftLeft_number _) (mask_ne_zero _ (k := 7) rfl)

/-- Adding to the index reports a sum beyond memory, whatever the operand. -/
theorem addIndex_wrote (p : Processor) (x : Register) :
    p.Wrote (p.addIndex x) flagRegister
      (if 0xFFF < p.index + (p.register x).toNat then 1 else 0) none := by
  have hflag : ((if 0xFFF < p.index + (p.register x).toNat then (1 : UInt8) else 0).toNat : Int) =
      (if 0xFFF < p.index + (p.register x).toNat then 1 else 0) % 256 := by
    split <;> rfl
  -- the index is not one of the registers
  exact (p.setRegister_wrote flagRegister hflag).of_registers rfl rfl

end Processor

/-! ## The main statement -/

namespace Board

variable {b : Board}

/--
**Arithmetic is that of its numbers, cut to eight bits, and the flag is written last.**

The words from 8XY0 to 8XY7 and 8XYE combine two registers, 7XNN adds a byte and reports nothing,
and FX1E adds to the index, which is cut to sixteen bits and reports whether the sum lies beyond
memory. None of them fails, and the first two kinds leave the index as it is.
-/
theorem step_arithmetic (hrun : b.processor.halted = false) (now : Seconds) :
    let value (k : Register) := (b.processor.register k).toNat
    let after := (b.step now).board.processor
    (∀ (how : Combination) (x y : Register),
      b.Fetches (0x8000 + 0x100 * x.val + 0x10 * y.val + how.code) →
      (b.step now).fault = none ∧ after.index = b.processor.index ∧
        b.processor.Wrote after x (how.result (value x) (value y))
          (how.flag? (value x) (value y))) ∧
    (∀ (x : Register) (nn : UInt8), b.Fetches (0x7000 + 0x100 * x.val + nn.toNat) →
      (b.step now).fault = none ∧ after.index = b.processor.index ∧
        b.processor.Wrote after x (value x + nn.toNat) none) ∧
    ∀ x : Register, b.Fetches (0xF000 + 0x100 * x.val + 0x1E) →
      (b.step now).fault = none ∧ after.index = (b.processor.index + value x) % 0x10000 ∧
        b.processor.Wrote after flagRegister
          (if 0xFFF < b.processor.index + value x then 1 else 0) none := by
  intro value after
  refine ⟨fun how x y hf => ?_, fun x nn hf => ?_, fun x hf => ?_⟩
  · obtain ⟨hboard, hfault⟩ := step_of_fetches (i := .combine how x y) hrun (by simp) hf now
    refine ⟨hfault, congrArg (·.processor.index) hboard, ?_⟩
    have hwrote := b.advanced.processor.combine_wrote how x y
    exact hwrote.of_registers rfl (congrArg (·.processor.registers) hboard)
  · obtain ⟨hboard, hfault⟩ := step_of_fetches (i := .addByte x nn) hrun (by simp) hf now
    refine ⟨hfault, congrArg (·.processor.index) hboard, ?_⟩
    have hwrote := b.advanced.processor.setRegister_wrote x
      (Processor.add_number (b.processor.register x) nn)
    exact hwrote.of_registers rfl (congrArg (·.processor.registers) hboard)
  · obtain ⟨hboard, hfault⟩ := step_of_fetches (i := .addIndex x) hrun (by simp) hf now
    refine ⟨hfault, congrArg (·.processor.index) hboard, ?_⟩
    have hwrote := b.advanced.processor.addIndex_wrote x
    exact hwrote.of_registers rfl (congrArg (·.processor.registers) hboard)

/-- The flag register less another one that holds more: what is left there is not the difference but
that something was borrowed. -/
theorem step_arithmetic_borrow :
    let m := (Machine.new (.ofSeed 7) 0.25).perform (.load [0x8F, 0xE5])
    let b : Board := { m.board with
      processor := { registers := ((Vector.replicate 16 9).set 14 5).set 15 3, index := 0xFFFF } }
    let after := (b.step 0.5).board.processor
    (b.step 0.5).fault = none ∧ after.register 15 = 0 ∧ after.register 14 = 5 ∧
      after.register 0 = 9 ∧ after.index = 0xFFFF := by
  intro m b after
  obtain ⟨memory, hload, hm⟩ := (Machine.new (.ofSeed 7) 0.25).perform_load [0x8F, 0xE5] (by decide)
  have hmemory : b.memory = memory := by simp only [b, m, hm]
  have hfetch : b.memory.fetch b.processor.pc = .ok 0x8FE5 := by
    rw [hmemory]
    exact Memory.fetch_word hload (k := 0) rfl rfl (by decide) rfl
  have hf : b.Fetches (0x8000 + 0x100 * (15 : Register).val + 0x10 * (14 : Register).val +
      Combination.subtract.code) := ⟨0x8FE5, hfetch, rfl⟩
  obtain ⟨hcombine, _, _⟩ := step_arithmetic (b := b) rfl 0.5
  obtain ⟨hfault, hindex, hwrote⟩ := hcombine .subtract 15 14 hf
  refine ⟨hfault, ?_, ?_, ?_, hindex⟩
  · exact UInt8.toNat_inj.mp (hwrote.report false rfl)
  · exact hwrote.others 14 (by decide) (by decide)
  · exact hwrote.others 0 (by decide) (by decide)

end Board

end ChipEight
