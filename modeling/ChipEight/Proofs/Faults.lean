import ChipEight.Proofs.Decode
import ChipEight.Proofs.Operation
import ChipEight.Proofs.Step

/-!
# When a step faults, and what is left then

The two questions about faults are answered here. *When*: `Board.Obstructed` lists the conditions,
each on the program counter, on the word fetched there and on what its instruction needs, and
`step_fault_iff` says that a step faults under exactly these, with exactly the fault named. *What is
left*: everything, but for the program counter and the count of a word that was fetched, and for
the one tone that a step asks for before it turns to the processor.
-/

namespace ChipEight

namespace Board

/-! ## When a step faults -/

/-- The states that the conditions speak of. Registers, memory and the screen are in range by their
types. -/
structure WithinRanges (b : Board) : Prop where
  /-- The index is a number of sixteen bits. -/
  index : 0 ≤ b.processor.index ∧ b.processor.index ≤ 0xFFFF
  /-- The program counter is an address, in memory or past it. -/
  pc : 0 ≤ b.processor.pc
  /-- At most sixteen calls are open. -/
  depth : b.processor.stack.length ≤ 16

/-- The word with a number is fetched at the program counter. -/
def Fetches (b : Board) (number : Nat) : Prop :=
  ∃ word, b.memory.fetch b.processor.pc = .ok word ∧ word.toNat = number

/-- What keeps a board from its next step, and the fault that it ends with. -/
inductive Obstructed (b : Board) : Fault → Prop
  /-- The program counter is past memory. -/
  | beyond : 0xFFF < b.processor.pc → b.Obstructed (.outOfBounds b.processor.pc 1)
  /-- The last byte begins a word whose second byte is missing. -/
  | cutOff : b.processor.pc = 0xFFF → b.memory.byteAt 0xFFF ≠ 0x0A →
      b.Obstructed (.outOfBounds 0x1000 1)
  /-- 00EE returns from nowhere. -/
  | underflow : b.Fetches 0x00EE → b.processor.stack = [] →
      b.Obstructed (.stackUnderflow b.processor.pc)
  /-- 2NNN calls once too often. -/
  | overflow (target : Target) : b.Fetches (0x2000 + target.val) →
      b.processor.stack.length = 16 → b.Obstructed (.stackOverflow b.processor.pc)
  /-- The word has no meaning. -/
  | meaningless (word : UInt16) : b.memory.fetch b.processor.pc = .ok word →
      Instruction.decode word = .unknown word →
      b.Obstructed (.unknownInstruction word b.processor.pc)
  /-- FX29 asks for the glyph of no digit. -/
  | noGlyph (x : Register) : b.Fetches (0xF000 + 0x100 * x.val + 0x29) →
      15 < (b.processor.register x).toNat →
      b.Obstructed (.invalidDigit (b.processor.register x).toNat)
  /-- DXYN draws a sprite that reaches past memory. -/
  | sprite (x y : Register) (n : Nibble) :
      b.Fetches (0xD000 + 0x100 * x.val + 0x10 * y.val + n.val) →
      4096 < b.processor.index + n.val → b.Obstructed (.outOfBounds b.processor.index n.val)
  /-- FX33 writes its three digits past memory. -/
  | digits (x : Register) : b.Fetches (0xF000 + 0x100 * x.val + 0x33) →
      4096 < b.processor.index + 3 → b.Obstructed (.outOfBounds b.processor.index 3)
  /-- FX55 saves registers past memory. -/
  | save (x : Register) : b.Fetches (0xF000 + 0x100 * x.val + 0x55) →
      4096 < b.processor.index + x.val + 1 →
      b.Obstructed (.outOfBounds b.processor.index (x.val + 1))
  /-- FX65 restores registers from past memory. -/
  | restore (x : Register) : b.Fetches (0xF000 + 0x100 * x.val + 0x65) →
      4096 < b.processor.index + x.val + 1 →
      b.Obstructed (.outOfBounds b.processor.index (x.val + 1))

variable {b : Board}

/-- A block from an index in range on is missing bytes exactly if it reaches past memory. -/
theorem blockFault_eq_some (h : 0 ≤ b.processor.index) {length : Int} (hlength : 0 ≤ length)
    {fault : Fault} : b.blockFault length = some fault ↔
      4096 < b.processor.index + length ∧ fault = .outOfBounds b.processor.index length := by
  unfold blockFault
  by_cases hin : b.processor.index + length ≤ 4096
  · rw [if_pos (show Memory.Holds _ _ from ⟨h, hlength, by simp only [memorySize]; omega⟩)]
    constructor
    · intro hc; exact absurd hc (by simp)
    · intro hc; omega
  · rw [if_neg (fun hc : Memory.Holds _ _ => by
      have := hc.2.2; simp only [memorySize] at this; omega)]
    constructor
    · intro hc; exact ⟨by omega, (Option.some.inj hc).symm⟩
    · intro hc; rw [hc.2]

/-- A fetch fails past memory, and on its last byte unless that is the end mark. -/
theorem obstructed_of_fetch (h : 0 ≤ b.processor.pc) {fault : Fault}
    (hf : b.memory.fetch b.processor.pc = .error fault) : b.Obstructed fault := by
  rw [Memory.fetch_eq] at hf
  by_cases hin : 0 ≤ b.processor.pc ∧ b.processor.pc ≤ 0xFFF
  · rw [if_pos hin] at hf
    split at hf
    · exact absurd hf (by simp)
    · rename_i hend
      split at hf
      · rename_i hlast
        rw [← Except.error.inj hf]
        rw [hlast] at hend
        exact .cutOff hlast hend
      · exact absurd hf (by simp)
  · rw [if_neg hin] at hf
    rw [← Except.error.inj hf]
    exact .beyond (by omega)

/-- What a fetched word decodes to is fetched as its own word. -/
theorem fetches_of_decode {word : UInt16} {i : Instruction} (hend : i ≠ .endProgram)
    (hf : b.memory.fetch b.processor.pc = .ok word) (hd : Instruction.decode word = i) :
    b.Fetches i.code :=
  ⟨word, hf, Instruction.toNat_of_decode hend hd⟩

/-- An instruction that was fetched and is refused is obstructed. -/
theorem obstructed_of_refusal (h : b.WithinRanges) {word : UInt16} {fault : Fault}
    (hf : b.memory.fetch b.processor.pc = .ok word)
    (hr : b.refusal b.processor.pc (Instruction.decode word) = some fault) :
    b.Obstructed fault := by
  have hindex := h.index.1
  obtain ⟨i, hd⟩ : ∃ i, Instruction.decode word = i := ⟨_, rfl⟩
  rw [hd] at hr
  cases i with
  | ret =>
      obtain ⟨hs, ⟨⟩⟩ := Option.ite_none_right_eq_some.mp hr
      exact .underflow (fetches_of_decode (by simp) hf hd) hs
  | call target =>
      obtain ⟨hs, ⟨⟩⟩ := Option.ite_none_right_eq_some.mp hr
      exact .overflow target (fetches_of_decode (by simp) hf hd) (Nat.le_antisymm h.depth hs)
  | loadGlyph x =>
      obtain ⟨hx, ⟨⟩⟩ := Option.ite_none_right_eq_some.mp hr
      exact .noGlyph x (fetches_of_decode (by simp) hf hd) hx
  | draw x y n =>
      obtain ⟨hpast, rfl⟩ := (blockFault_eq_some hindex (by omega)).mp hr
      exact .sprite x y n (fetches_of_decode (by simp) hf hd) hpast
  | storeDigits x =>
      obtain ⟨hpast, rfl⟩ := (blockFault_eq_some hindex (by omega)).mp hr
      exact .digits x (fetches_of_decode (by simp) hf hd) hpast
  | storeRegisters x =>
      obtain ⟨hpast, rfl⟩ := (blockFault_eq_some hindex (by omega)).mp hr
      exact .save x (fetches_of_decode (by simp) hf hd) (by omega)
  | loadRegisters x =>
      obtain ⟨hpast, rfl⟩ := (blockFault_eq_some hindex (by omega)).mp hr
      exact .restore x (fetches_of_decode (by simp) hf hd) (by omega)
  | unknown w =>
      obtain rfl := Instruction.eq_of_decode_unknown hd
      cases hr
      exact .meaningless w hf hd
  | _ => exact absurd hr (by simp [refusal])

/-- A step on an instruction's own word carries the instruction out. -/
theorem step_of_fetches {i : Instruction} (hrun : b.processor.halted = false)
    (hknown : ∀ w, i ≠ .unknown w) (hf : b.Fetches i.code) (now : Seconds) :
    (b.step now).board = b.advanced.outcome now i ∧
      (b.step now).fault = b.refusal b.processor.pc i := by
  obtain ⟨word, hfetch, hw⟩ := hf
  obtain ⟨hboard, hfault⟩ := step_of_fetch hrun hfetch now
  rw [hboard, hfault, Instruction.decode_code hknown hw]
  exact ⟨rfl, rfl⟩

/-- The fault of a step on an instruction's own word is the instruction's refusal. -/
theorem step_fault_of_fetches {now : Seconds} {i : Instruction} (hrun : b.processor.halted = false)
    (hknown : ∀ w, i ≠ .unknown w) (hf : b.Fetches i.code) :
    (b.step now).fault = b.refusal b.processor.pc i :=
  (step_of_fetches hrun hknown hf now).2

theorem fault_of_obstructed (h : b.WithinRanges) (hrun : b.processor.halted = false)
    (now : Seconds) {fault : Fault} (ho : b.Obstructed fault) :
    (b.step now).fault = some fault := by
  have hindex := h.index.1
  cases ho with
  | beyond hpc =>
      refine step_fault_of_fetch_error hrun ?_
      rw [Memory.fetch_eq, if_neg (by omega)]
  | cutOff hpc hend =>
      -- it does not end the program, so its second byte is asked for
      refine step_fault_of_fetch_error hrun ?_
      have hlast : b.memory.byteAt (Int.toNat 0xFFF) ≠ endMark := hend
      rw [hpc, Memory.fetch_eq, if_pos (by omega), if_neg hlast, if_pos rfl]
  | underflow hf hs =>
      rw [step_fault_of_fetches (i := .ret) hrun (by simp) hf]
      exact if_pos hs
  | overflow target hf hs =>
      rw [step_fault_of_fetches (i := .call target) hrun (by simp) hf]
      exact if_pos (Nat.le_of_eq hs.symm)
  | meaningless word hf hd =>
      rw [(step_of_fetch hrun hf now).2, hd]
      rfl
  | noGlyph x hf hx =>
      rw [step_fault_of_fetches (i := .loadGlyph x) hrun (by simp) hf]
      exact if_pos hx
  | sprite x y n hf hpast =>
      rw [step_fault_of_fetches (i := .draw x y n) hrun (by simp) hf]
      exact (blockFault_eq_some hindex (by omega)).mpr ⟨hpast, rfl⟩
  | digits x hf hpast =>
      rw [step_fault_of_fetches (i := .storeDigits x) hrun (by simp) hf]
      exact (blockFault_eq_some hindex (by omega)).mpr ⟨hpast, rfl⟩
  | save x hf hpast =>
      rw [step_fault_of_fetches (i := .storeRegisters x) hrun (by simp) hf]
      exact (blockFault_eq_some hindex (by omega)).mpr ⟨by omega, rfl⟩
  | restore x hf hpast =>
      rw [step_fault_of_fetches (i := .loadRegisters x) hrun (by simp) hf]
      exact (blockFault_eq_some hindex (by omega)).mpr ⟨by omega, rfl⟩

/--
**A step faults under exactly these conditions, and with exactly the fault named.**

So at most one of them holds, and where none does the step succeeds.
-/
theorem step_fault_iff (h : b.WithinRanges) (hrun : b.processor.halted = false) (now : Seconds) :
    (∀ fault, (b.step now).fault = some fault ↔ b.Obstructed fault) ∧
      ((b.step now).fault = none ↔ ∀ fault, ¬ b.Obstructed fault) := by
  have hiff : ∀ fault, (b.step now).fault = some fault ↔ b.Obstructed fault := by
    intro fault
    refine ⟨fun hfault => ?_, fault_of_obstructed h hrun now⟩
    rcases b.step_cases now with ⟨hh, _⟩ | ⟨_, fault', hf, hs⟩ | ⟨_, word, hf, hs⟩
    · rw [hrun] at hh; exact absurd hh (by simp)
    · rw [hs] at hfault
      obtain rfl := Option.some.inj hfault
      exact obstructed_of_fetch h.pc hf
    · rw [hs] at hfault
      exact obstructed_of_refusal h hf hfault
  refine ⟨hiff, ?_⟩
  rw [Option.eq_none_iff_forall_ne_some]
  exact forall_congr' fun fault => not_congr (hiff fault)

/-- Memory full of 0xDD, where a sprite of thirteen rows is drawn from the last byte on. -/
theorem step_fault_iff_last_sprite :
    let b : Board :=
      { (Machine.new (.ofSeed 7) 0.25).board with
        processor := { index := 0xFFF }
        memory := ⟨Vector.replicate memorySize 0xDD, 0⟩ }
    b.WithinRanges ∧ b.processor.halted = false ∧
      (b.step 0.5).fault = some (.outOfBounds 0xFFF 13) := by
  intro b
  have h : b.WithinRanges := ⟨by decide, by decide, by decide⟩
  have hbyte : ∀ k, k < memorySize → b.memory.byteAt k = 0xDD := by
    intro k hk
    simp [b, Memory.byteAt, hk]
  have hf : b.Fetches 0xDDDD := by
    refine ⟨0xDDDD, ?_, rfl⟩
    rw [Memory.fetch_eq, if_pos (by decide), hbyte _ (by decide), hbyte _ (by decide)]
    rfl
  exact ⟨h, rfl, ((step_fault_iff h rfl 0.5).1 _).mpr (.sprite 13 13 13 hf (by decide))⟩

end Board

/-! ## What is left after a fault -/

namespace Buzzer

theorem sound_requests (b : Buzzer) (tone : Tone) : (b.sound tone).requests = b.requests := by
  unfold sound
  split <;> rfl

/-- Asking for a tone is one request, whether or not it can be played. -/
theorem emit_requests (b : Buzzer) : b.emit.1.requests = b.requests + 1 := by
  simp only [emit]
  split
  · rfl
  split
  · exact sound_requests _ _
  split
  · rfl
  · exact sound_requests _ _

end Buzzer

namespace Machine

/--
**A step of the machine that faults has changed nothing but what is named here.**

If the word could not be fetched, the board is as it was. If its instruction could not be carried
out, the program counter is past it and it is counted. In both cases the step asked for its tone,
which it does before anything else, and counted, ticked and showed nothing.
-/
theorem step_fault_atomic {m : Machine} {now : Seconds} {fault : Fault}
    (h : (m.step now).fault = some fault) :
    ((m.board.memory.fetch m.board.processor.pc = .error fault ∧
        (m.step now).machine = { m with buzzer := m.toned }) ∨
      ∃ word, m.board.memory.fetch m.board.processor.pc = .ok word ∧
        (m.step now).machine = { m with
          buzzer := m.toned
          board := { m.board with
            processor := { m.board.processor with
              pc := m.board.processor.pc + 2
              count := m.board.processor.count + 1 } } }) ∧
    if 0 < m.board.sound.value then
      m.toned = m.buzzer.emit.1 ∧ m.toned.requests = m.buzzer.requests + 1
    else m.toned = m.buzzer := by
  refine ⟨?_, ?_⟩
  · rcases m.step_cases now with ⟨_, hs⟩ | ⟨_, fault', hb, hs, hm⟩ | ⟨_, _, hs, _⟩
    · rw [hs] at h; exact absurd h (by simp)
    · rw [hs] at h
      obtain rfl := Option.some.inj h
      rw [hm]
      rcases Board.step_of_fault hb with ⟨hf, hboard⟩ | ⟨word, hf, hboard⟩
      · exact Or.inl ⟨hf, by rw [hboard]⟩
      · exact Or.inr ⟨word, hf, by rw [hboard]; rfl⟩
    · rw [hs] at h; exact absurd h (by simp)
  · by_cases htone : 0 < m.board.sound.value
    · rw [if_pos htone, show m.toned = m.buzzer.emit.1 from if_pos htone]
      exact ⟨rfl, m.buzzer.emit_requests⟩
    · rw [if_neg htone]
      exact if_neg htone

/-- A program that returns from nowhere, stepped while the sound timer runs. -/
theorem step_fault_atomic_lost_return :
    let m := (Machine.new (.ofSeed 7) 0.25).performAll [.load [0x00, 0xEE], .sound 0.25 (.set 30)]
    (m.step 0.5).fault = some (.stackUnderflow 0x200) ∧
      (m.step 0.5).machine.board.processor.pc = 0x202 ∧
      (m.step 0.5).machine.buzzer.requests = 1 := by
  intro m
  obtain ⟨memory, hload, hm⟩ :=
    (Machine.new (.ofSeed 7) 0.25).perform_load [0x00, 0xEE] (by decide)
  have hboard : m.board.memory = memory ∧ m.board.processor = {} ∧ m.halted = false ∧
      m.board.sound.value = 30 ∧ m.buzzer = {} := by
    simp only [m, performAll, List.foldl_cons, List.foldl_nil, hm]
    exact ⟨rfl, rfl, rfl, rfl, rfl⟩
  obtain ⟨hmemory, hprocessor, hhalted, hsound, hbuzzer⟩ := hboard
  have hfetch : m.board.memory.fetch m.board.processor.pc = .ok 0x00EE := by
    have h := Memory.fetch_load hload (k := 0) (by decide) (by decide)
    rw [hmemory, hprocessor]
    exact h
  have hfault : (m.step 0.5).fault = some (.stackUnderflow 0x200) := by
    rw [step_fault hhalted, (Board.step_of_fetch (by rw [hprocessor]) hfetch 0.5).2, hprocessor]
    rfl
  obtain ⟨hleft, htone⟩ := step_fault_atomic hfault
  refine ⟨hfault, ?_, ?_⟩
  · rcases hleft with ⟨herror, _⟩ | ⟨word, _, hs⟩
    · rw [hfetch] at herror; exact absurd herror (by simp)
    · rw [hs, hprocessor]; rfl
  · have hone : m.toned.requests = 1 := by
      rw [if_pos (by rw [hsound]; decide)] at htone
      rw [htone.2, hbuzzer]
    rcases hleft with ⟨_, hs⟩ | ⟨_, _, hs⟩
    · rw [hs]; exact hone
    · rw [hs]; exact hone

end Machine

end ChipEight
