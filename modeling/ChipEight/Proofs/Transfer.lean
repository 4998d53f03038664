import ChipEight.Proofs.Effects
import ChipEight.Proofs.Faults

/-!
# Registers in memory

Three instructions pass values between the registers and the block of memory that the index points
at. FX55 saves the registers up to X there and FX65 takes them back; FX33 leaves the three decimal
digits of one register. Saving and restoring are stated apart and meet in what memory holds: a save
leaves each register at its place in the block, and a restore takes from the block whatever is
there. So between the two anything may happen to the registers, the screen or the rest of memory, as
long as the index and the block are the same.

A step has fetched its word before it writes, and what it writes comes from registers. That the
block may lie over the font, the program or the word itself is therefore no condition anywhere
below.
-/

namespace ChipEight

/-! ## Values put into registers -/

namespace Processor

/-- Values that are put in place from one register on are found there. -/
theorem fill_placed (registers : Vector UInt8 16) (start : Nat) (values : List UInt8)
    {k : Nat} (hk : k < 16) (hlow : start ≤ k) (hhigh : k < start + values.length) :
    (setRegisters.fill registers start values)[k] = values[k - start] := by
  induction values generalizing registers start with
  | nil => exact absurd hhigh (by rw [List.length_nil]; omega)
  | cons value rest ih =>
      rw [List.length_cons] at hhigh
      rw [setRegisters.fill]
      by_cases hhere : start = k
      · -- the later values go to the registers behind this one
        subst hhere
        rw [fill_getElem _ _ _ hk (Or.inl (Nat.lt_succ_self start)),
          Vector.getElem_setIfInBounds_self hk]
        simp only [Nat.sub_self, List.getElem_cons_zero]
      · rw [ih _ _ (by omega) (by omega)]
        simp only [show k - start = (k - (start + 1)) + 1 by omega, List.getElem_cons_succ]

/-- The first registers take the values in order, and the others keep theirs. -/
theorem setRegisters_register (p : Processor) (values : List UInt8) (k : Register) :
    (p.setRegisters values).register k = values[k.val]?.getD (p.register k) := by
  by_cases hk : k.val < values.length
  · rw [List.getElem?_eq_getElem hk, Option.getD_some]
    exact fill_placed p.registers 0 values k.isLt (Nat.zero_le _) (by omega)
  · rw [List.getElem?_eq_none (by omega), Option.getD_none]
    exact p.setRegisters_of_le (by omega)

/-- The registers up to one of them, each at its place. -/
theorem registersThrough_getElem? (p : Processor) {x k : Register} (h : k ≤ x) :
    (p.registersThrough x)[k.val]? = some (p.register k) := by
  have hlt : k.val < x.val + 1 := Nat.lt_succ_of_le h
  rw [registersThrough, List.getElem?_take_of_lt hlt, Vector.getElem?_toList]
  exact Vector.getElem?_eq_getElem k.isLt

end Processor

namespace Board

variable {b : Board}

/-! ## What is to be shown -/

/-- A step wrote a number of bytes from the index on and did nothing else. -/
structure Stores (b after : Board) (length : Nat) : Prop where
  /-- No byte outside the block has changed. -/
  others : ∀ k : Nat, k < b.processor.index ∨ b.processor.index + length ≤ k →
    after.memory.byteAt k = b.memory.byteAt k
  index : after.processor.index = b.processor.index
  /-- Nothing but bytes of memory has, apart from the two counters that every step moves. -/
  rest : ∃ bytes, after = { b.advanced with memory := { b.memory with bytes } }

/-- A step gave the registers up to one of them values and did nothing else. -/
structure Restores (b after : Board) (x : Register) (saved : Register → UInt8) : Prop where
  restored : ∀ k ≤ x, after.processor.register k = saved k
  /-- The registers past it keep their values. -/
  others : ∀ k, x < k → after.processor.register k = b.processor.register k
  index : after.processor.index = b.processor.index
  /-- Nothing but registers has changed, apart from the two counters. -/
  rest : ∃ registers, after =
    { b.advanced with processor := { b.advanced.processor with registers } }

/-! ## Storing -/

section Written

variable {values : List Int} (hroom : Memory.Holds b.processor.index values.length)
include hroom

/-- Where there is room, the memory that is written is the one with the block in it. -/
theorem writeBlock_written :
    b.memory.writeBlock b.processor.index values = .ok (b.written values) ∧
      ∃ bytes, b.written values = { b.memory with bytes } := by
  have hwrite : b.memory.writeBlock b.processor.index values = .ok _ := if_pos hroom
  rw [written, hwrite]
  exact ⟨rfl, _, rfl⟩

theorem written_held {k : Nat} (hk : k < values.length) :
    (b.written values).byteAt (b.processor.index.toNat + k) = byteOf values[k] := by
  have hlow := hroom.1
  rw [Memory.byteAt_writeBlock (writeBlock_written hroom).1, if_pos (by omega),
    Nat.add_sub_cancel_left, List.getElem?_map, List.getElem?_eq_getElem hk]
  rfl

theorem written_others {k : Nat}
    (hk : k < b.processor.index ∨ b.processor.index + values.length ≤ k) :
    (b.written values).byteAt k = b.memory.byteAt k := by
  rw [Memory.byteAt_writeBlock (writeBlock_written hroom).1, if_neg (by omega)]

end Written

/-- **A step that stores values leaves them in the block and changes nothing else.** -/
theorem step_stores {i : Instruction} {values : List Int} (hrun : b.processor.halted = false)
    (hknown : ∀ w, i ≠ .unknown w) (hf : b.Fetches i.code)
    (hroom : Memory.Holds b.processor.index values.length) (now : Seconds)
    (hrefusal : b.refusal b.processor.pc i = b.blockFault values.length)
    (houtcome : b.advanced.outcome now i = { b.advanced with memory := b.written values }) :
    (b.step now).fault = none ∧ b.Stores (b.step now).board values.length ∧
      ∀ k (hk : k < values.length),
        (b.step now).board.memory.byteAt (b.processor.index.toNat + k) = byteOf values[k] := by
  obtain ⟨hboard, hfault⟩ := step_of_fetches hrun hknown hf now
  obtain ⟨_, bytes, hbytes⟩ := writeBlock_written hroom
  rw [hboard, hfault, hrefusal, houtcome]
  exact ⟨if_pos hroom, ⟨fun k hk => written_others hroom hk, rfl, bytes, by rw [hbytes]⟩,
    fun k hk => written_held hroom hk⟩

/-- FX55 leaves each register up to X at its place. -/
theorem step_save (hrun : b.processor.halted = false) {x : Register}
    (hf : b.Fetches (0xF000 + 0x100 * x.val + 0x55)) (hindex : 0 ≤ b.processor.index)
    (hroom : b.processor.index + x.val + 1 ≤ 4096) (now : Seconds) :
    (b.step now).fault = none ∧ b.Stores (b.step now).board (x.val + 1) ∧
      ∀ k ≤ x, (b.step now).board.memory.byteAt (b.processor.index.toNat + k.val) =
        b.processor.register k := by
  let values := (b.processor.registersThrough x).map fun value => (value.toNat : Int)
  have hlength : values.length = x.val + 1 := by
    rw [List.length_map, registersThrough_length]
  have hholds : Memory.Holds b.processor.index values.length := by
    rw [hlength]
    exact ⟨hindex, by omega, by simp only [memorySize]; omega⟩
  have hrefusal : b.refusal b.processor.pc (.storeRegisters x) = b.blockFault values.length := by
    rw [hlength]
    rfl
  obtain ⟨hfault, hstores, hheld⟩ :=
    step_stores (i := .storeRegisters x) hrun (by simp) hf hholds now hrefusal rfl
  rw [hlength] at hstores
  refine ⟨hfault, hstores, fun k hk => ?_⟩
  have hin : k.val < values.length := by
    rw [hlength]
    exact Nat.lt_succ_of_le hk
  obtain ⟨_, hvalue⟩ :=
    List.getElem?_eq_some_iff.mp (b.processor.registersThrough_getElem? hk)
  rw [hheld k.val hin, List.getElem_map, byteOf_byte, hvalue]

/-- FX33 leaves the decimal digits of a register, which are those of a byte. -/
theorem step_digits (hrun : b.processor.halted = false) {x : Register}
    (hf : b.Fetches (0xF000 + 0x100 * x.val + 0x33)) (hindex : 0 ≤ b.processor.index)
    (hroom : b.processor.index + 3 ≤ 4096) (now : Seconds) :
    (b.step now).fault = none ∧ b.Stores (b.step now).board 3 ∧
      ∃ hundreds tens ones : UInt8, hundreds ≤ 9 ∧ tens ≤ 9 ∧ ones ≤ 9 ∧
        100 * hundreds.toNat + 10 * tens.toNat + ones.toNat = (b.processor.register x).toNat ∧
        (b.step now).board.memory.byteAt b.processor.index.toNat = hundreds ∧
        (b.step now).board.memory.byteAt (b.processor.index.toNat + 1) = tens ∧
        (b.step now).board.memory.byteAt (b.processor.index.toNat + 2) = ones := by
  have hholds : Memory.Holds b.processor.index (b.processor.digits x).length :=
    ⟨hindex, by simp [Processor.digits], by simp only [Processor.digits, memorySize]; exact hroom⟩
  obtain ⟨hfault, hstores, hheld⟩ :=
    step_stores (i := .storeDigits x) hrun (by simp) hf hholds now rfl rfl
  let value := (b.processor.register x).toNat
  have hvalue : value < 256 := (b.processor.register x).toNat_lt
  have hdigit : ∀ n : Nat, n ≤ 9 → (byteOf n).toNat = n := by
    intro n hn
    have hnumber := byteOf_toNat n
    omega
  have hhundreds := hdigit (value / 100) (by omega)
  have htens := hdigit (value / 10 % 10) (by omega)
  have hones := hdigit (value % 10) (by omega)
  have hle : ∀ {digit : UInt8} {n : Nat}, digit.toNat = n → n ≤ 9 → digit ≤ 9 := by
    intro digit n hn hnine
    exact UInt8.le_iff_toNat_le.mpr (hn ▸ hnine)
  refine ⟨hfault, hstores, _, _, _, hle hhundreds (by omega), hle htens (by omega),
    hle hones (by omega), ?_, hheld 0 (show 0 < 3 by decide), hheld 1 (show 1 < 3 by decide),
    hheld 2 (show 2 < 3 by decide)⟩
  rw [hhundreds, htens, hones]
  change 100 * (value / 100) + 10 * (value / 10 % 10) + value % 10 = value
  omega

/-! ## Restoring -/

/-- FX65 gives each register up to X the byte at its place. -/
theorem step_restore (hrun : b.processor.halted = false) {x : Register}
    (hf : b.Fetches (0xF000 + 0x100 * x.val + 0x65)) (hindex : 0 ≤ b.processor.index)
    (hroom : b.processor.index + x.val + 1 ≤ 4096) (now : Seconds) :
    (b.step now).fault = none ∧ b.Restores (b.step now).board x
      fun k => b.memory.byteAt (b.processor.index.toNat + k.val) := by
  have hholds : Memory.Holds b.processor.index (x.val + 1) :=
    ⟨hindex, by omega, by simp only [memorySize]; omega⟩
  obtain ⟨hboard, hfault⟩ := step_of_fetches (i := .loadRegisters x) hrun (by simp) hf now
  have hread := Memory.readBlock_of_holds (m := b.memory) hholds
  let block := (List.range (x.val + 1)).map fun k => b.memory.byteAt (b.processor.index.toNat + k)
  -- the counters have moved on by then, and the block does not depend on them
  have hregisters : (b.step now).board.processor.registers =
      (b.processor.setRegisters block).registers := by
    have hblock : b.advanced.memory.readBlock b.advanced.processor.index (x.val + 1) = .ok block :=
      hread
    rw [hboard]
    change b.advanced.registersAfter (.loadRegisters x) = _
    rw [registersAfter, hblock]
    rfl
  have hregister : ∀ k, (b.step now).board.processor.register k =
      block[k.val]?.getD (b.processor.register k) := by
    intro k
    rw [Processor.register, hregisters]
    exact b.processor.setRegisters_register block k
  refine ⟨hfault.trans (if_pos hholds), fun k hk => ?_, fun k hk => ?_, ?_, ?_⟩
  · have hlt : k.val < x.val + 1 := Nat.lt_succ_of_le hk
    rw [hregister, List.getElem?_map, List.getElem?_range hlt]
    rfl
  · have hle : x.val + 1 ≤ k.val := hk
    rw [hregister, List.getElem?_eq_none (by simpa [block] using hle)]
    rfl
  · rw [hboard]
    rfl
  · rw [hboard]
    exact ⟨_, rfl⟩

/-! ## The main statement -/

/--
**What is saved is what is restored, and digits are those of their number.**

A step on FX55 puts the registers up to X into the block that the index points at; a step on FX33
puts three digits there, hundreds first. Whatever they overwrite, they succeed where the block lies
in memory, and change nothing outside it. If a board has the same index and the same bytes in the
block, a step on FX65 gives it back the registers that were saved and leaves it the others; what
else the board holds, how it came to it and when makes no difference.
-/
theorem step_save_restore (hrun : b.processor.halted = false) (hindex : 0 ≤ b.processor.index)
    (now : Seconds) (x : Register) :
    let base := b.processor.index.toNat
    let after := (b.step now).board
    (b.Fetches (0xF000 + 0x100 * x.val + 0x55) → b.processor.index + x.val + 1 ≤ 4096 →
      (b.step now).fault = none ∧ b.Stores after (x.val + 1) ∧
      (∀ k ≤ x, after.memory.byteAt (base + k.val) = b.processor.register k) ∧
      ∀ (c : Board) (later : Seconds), c.processor.halted = false →
        c.processor.index = b.processor.index →
        (∀ k ≤ x, c.memory.byteAt (base + k.val) = after.memory.byteAt (base + k.val)) →
        c.Fetches (0xF000 + 0x100 * x.val + 0x65) →
          (c.step later).fault = none ∧
            c.Restores (c.step later).board x b.processor.register) ∧
    (b.Fetches (0xF000 + 0x100 * x.val + 0x33) → b.processor.index + 3 ≤ 4096 →
      (b.step now).fault = none ∧ b.Stores after 3 ∧
      ∃ hundreds tens ones : UInt8, hundreds ≤ 9 ∧ tens ≤ 9 ∧ ones ≤ 9 ∧
        100 * hundreds.toNat + 10 * tens.toNat + ones.toNat = (b.processor.register x).toNat ∧
        after.memory.byteAt base = hundreds ∧ after.memory.byteAt (base + 1) = tens ∧
        after.memory.byteAt (base + 2) = ones) := by
  intro base after
  refine ⟨fun hf hroom => ?_, fun hf hroom => step_digits hrun hf hindex hroom now⟩
  obtain ⟨hfault, hstores, hheld⟩ := step_save hrun hf hindex hroom now
  refine ⟨hfault, hstores, hheld, fun c later hawake hsame hblock hrestore => ?_⟩
  rw [← hsame] at hindex hroom
  obtain ⟨hnone, hrestores⟩ := step_restore hawake hrestore hindex hroom later
  refine ⟨hnone, { hrestores with restored := fun k hk => ?_ }⟩
  -- the byte at its place is the one that was saved
  rw [hrestores.restored k hk, hsame, hblock k hk, hheld k hk]

/-- Two registers are saved over the word that saves them, which so becomes the word that restores
them: a board with other registers that goes on there gets both back. The digits of 254 written over
the word that writes them are not disturbed either. -/
theorem step_save_restore_over_itself :
    let m := (Machine.new (.ofSeed 7) 0.25).perform (.load [0xF1, 0x55])
    let b : Board := { m.board with
      processor :=
        { registers := ((Vector.replicate 16 9).set 0 0xF1).set 1 0x65, index := 0x200 } }
    let after := (b.step 0.5).board
    let c : Board := { after with processor := { index := 0x200 } }
    let m' := (Machine.new (.ofSeed 7) 0.25).perform (.load [0xF1, 0x33])
    let d : Board := { m'.board with
      processor := { registers := (Vector.replicate 16 0).set 1 254, index := 0x200 } }
    (b.step 0.5).fault = none ∧ after.memory.byteAt 0x201 = 0x65 ∧
      (c.step 0.75).fault = none ∧ (c.step 0.75).board.processor.register 0 = 0xF1 ∧
      (c.step 0.75).board.processor.register 1 = 0x65 ∧
      (c.step 0.75).board.processor.register 2 = 0 ∧
      (d.step 0.5).fault = none ∧
      ∃ hundreds tens ones : UInt8, hundreds ≤ 9 ∧ tens ≤ 9 ∧ ones ≤ 9 ∧
        100 * hundreds.toNat + 10 * tens.toNat + ones.toNat = 254 ∧
        (d.step 0.5).board.memory.byteAt 0x200 = hundreds := by
  intro m b after c m' d
  have hfetches : ∀ (low : UInt8) (processor : Processor), processor.pc = 0x200 →
      ({ ((Machine.new (.ofSeed 7) 0.25).perform (.load [0xF1, low])).board with
        processor } : Board).Fetches (0xF000 + 0x100 * (1 : Register).val + low.toNat) := by
    intro low processor hpc
    obtain ⟨memory, hload, hm⟩ :=
      (Machine.new (.ofSeed 7) 0.25).perform_load [0xF1, low] (show 2 ≤ 3584 by decide)
    refine ⟨Memory.wordOf 0xF1 low, ?_, ?_⟩
    · simp only [hm]
      exact Memory.fetch_word hload (k := 0) rfl rfl (by decide) hpc
    · have hlow := low.toNat_lt
      change (0xF1 * 256 + low.toNat) % 65536 = 0xF000 + 0x100 * 1 + low.toNat
      omega
  obtain ⟨hsaved, _, hheld, hback⟩ :=
    (step_save_restore (b := b) rfl (by decide) 0.5 1).1 (hfetches 0x55 b.processor rfl) (by decide)
  -- what comes next is about the memory that was left, not about the step
  have hafter : (b.step 0.5).board = after := rfl
  rw [hafter] at hheld hback
  clear_value after
  have hmemory : c.memory = after.memory := rfl
  have hhigh : c.memory.byteAt 0x200 = 0xF1 := by
    rw [hmemory]
    exact (hheld 0 (by decide)).trans (by decide)
  have hlow : c.memory.byteAt 0x201 = 0x65 := by
    rw [hmemory]
    exact (hheld 1 (by decide)).trans (by decide)
  have hf : c.Fetches 0xF165 := by
    have hpc : c.processor.pc = 0x200 := rfl
    have hmark : ¬ c.memory.byteAt (Int.toNat 0x200) = endMark := by
      rw [show Int.toNat 0x200 = 0x200 from rfl, hhigh]
      decide
    refine ⟨0xF165, ?_, rfl⟩
    rw [hpc, Memory.fetch_eq, if_pos (by decide), if_neg hmark, if_neg (by decide)]
    rw [show Int.toNat 0x200 = 0x200 from rfl, show Int.toNat (0x200 + 1) = 0x201 from rfl, hhigh,
      hlow]
    rfl
  obtain ⟨hnone, hrestores⟩ := hback c 0.75 rfl rfl (fun k hk => rfl) hf
  obtain ⟨hwritten, _, h, t, o, hh, ht, ho, hsum, hplace, _⟩ :=
    (step_save_restore (b := d) rfl (by decide) 0.5 1).2 (hfetches 0x33 d.processor rfl) (by decide)
  exact ⟨hsaved, hlow, hnone, hrestores.restored 0 (by decide), hrestores.restored 1 (by decide),
    hrestores.others 2 (by decide), hwritten, h, t, o, hh, ht, ho, hsum, hplace⟩

end Board

end ChipEight
