import ChipEight.Machine
import ChipEight.Proofs.Execute

/-!
# What a step can come to

A step of the processor has three ends: it was halted and did nothing, the fetch failed and it did
nothing, or a word was fetched and its instruction carried out on the board with the program
counter moved on. A step of the machine has three ends too: the machine was halted, the processor
faulted, or everything that belongs to a step took place. `Board.step_cases` and
`Machine.step_cases` say so with every condition and every effect, so that a property of steps is
proved one end at a time.
-/

namespace ChipEight

namespace Board

/-- The board once a word was fetched: the program counter is past it and the word is counted. -/
def advanced (b : Board) : Board :=
  { b with
    processor := { b.processor with
      pc := b.processor.pc + wordSize
      count := b.processor.count + 1 } }

/-- What an instruction needs does not depend on the counters. -/
theorem advanced_refusal (b : Board) (pc : Int) (i : Instruction) :
    b.advanced.refusal pc i = b.refusal pc i := by
  cases i <;> rfl

/-- **The three ends of a step of the processor.** -/
theorem step_cases (b : Board) (now : Seconds) :
    (b.processor.halted = true ∧ b.step now = ⟨b, none, none⟩) ∨
    (b.processor.halted = false ∧ ∃ fault, b.memory.fetch b.processor.pc = .error fault ∧
      b.step now = ⟨b, none, some fault⟩) ∨
    (b.processor.halted = false ∧ ∃ word, b.memory.fetch b.processor.pc = .ok word ∧
      b.step now =
        ⟨b.advanced.outcome now (Instruction.decode word),
          some ⟨b.processor.count + 1, b.processor.pc, word⟩,
          b.refusal b.processor.pc (Instruction.decode word)⟩) := by
  unfold step
  cases hh : b.processor.halted with
  | true => exact Or.inl ⟨rfl, rfl⟩
  | false =>
      dsimp only
      cases hf : b.memory.fetch b.processor.pc with
      | error fault => exact Or.inr (Or.inl ⟨rfl, fault, rfl, rfl⟩)
      | ok word =>
          refine Or.inr (Or.inr ⟨rfl, word, rfl, ?_⟩)
          rw [if_neg Bool.false_ne_true]
          -- the instruction finds the counters moved, which it does not need
          rw [← advanced_refusal]
          simp only [execute_eq, advanced, hh]

/-- The three ends in one equation. -/
theorem step_eq (b : Board) (now : Seconds) :
    b.step now =
      if b.processor.halted then ⟨b, none, none⟩
      else match b.memory.fetch b.processor.pc with
        | .error fault => ⟨b, none, some fault⟩
        | .ok word =>
          ⟨b.advanced.outcome now (Instruction.decode word),
            some ⟨b.processor.count + 1, b.processor.pc, word⟩,
            b.refusal b.processor.pc (Instruction.decode word)⟩ := by
  rcases b.step_cases now with ⟨hhalted, hs⟩ | ⟨hhalted, fault, hfetch, hs⟩ |
      ⟨hhalted, word, hfetch, hs⟩
  · rw [hs, if_pos hhalted]
  · rw [hs, hhalted, hfetch]
    rfl
  · rw [hs, hhalted, hfetch]
    rfl

/-- A step whose word was fetched carries its instruction out. -/
theorem step_of_fetch {b : Board} {word : UInt16} (hrun : b.processor.halted = false)
    (hf : b.memory.fetch b.processor.pc = .ok word) (now : Seconds) :
    (b.step now).board = b.advanced.outcome now (Instruction.decode word) ∧
      (b.step now).fault = b.refusal b.processor.pc (Instruction.decode word) := by
  rcases b.step_cases now with ⟨hh, _⟩ | ⟨_, fault, hf', _⟩ | ⟨_, word', hf', hs⟩
  · rw [hrun] at hh; exact absurd hh (by simp)
  · rw [hf] at hf'; exact absurd hf' (by simp)
  · rw [hf] at hf'
    rw [hs, Except.ok.inj hf']
    exact ⟨rfl, rfl⟩

/-- The fault of a step whose fetch failed is the fetch's. -/
theorem step_fault_of_fetch_error {b : Board} {now : Seconds} {fault : Fault}
    (hrun : b.processor.halted = false) (hf : b.memory.fetch b.processor.pc = .error fault) :
    (b.step now).fault = some fault := by
  rcases b.step_cases now with ⟨hh, _⟩ | ⟨_, fault', hf', hs⟩ | ⟨_, word, hf', _⟩
  · rw [hrun] at hh; exact absurd hh (by simp)
  · rw [hf] at hf'
    rw [hs, Except.error.inj hf']
  · rw [hf] at hf'; exact absurd hf' (by simp)

/-- **A step that faults leaves the board as it is, but for the program counter and the count of a
word that was fetched.** -/
theorem step_of_fault {b : Board} {now : Seconds} {fault : Fault}
    (h : (b.step now).fault = some fault) :
    (b.memory.fetch b.processor.pc = .error fault ∧ (b.step now).board = b) ∨
    ∃ word, b.memory.fetch b.processor.pc = .ok word ∧ (b.step now).board = b.advanced := by
  rcases b.step_cases now with ⟨_, hs⟩ | ⟨_, fault', hf, hs⟩ | ⟨_, word, hf, hs⟩
  · rw [hs] at h; exact absurd h (by simp)
  · rw [hs] at h ⊢
    exact Or.inl ⟨hf.trans (congrArg _ (Option.some.inj h)), rfl⟩
  · rw [hs] at h ⊢
    exact Or.inr ⟨word, hf, outcome_of_refusal (b.advanced_refusal _ _ ▸ h)⟩

end Board

namespace Machine

/-- The buzzer as a step leaves it: a tone is asked for while the sound timer runs. -/
def toned (m : Machine) : Buzzer :=
  if 0 < m.board.sound.value then m.buzzer.emit.1 else m.buzzer

/-- The frames that listeners are handed if there is news. -/
def frames (m : Machine) : List (Int × PixelGrid) :=
  if m.board.screen.dirty then m.listeners.map fun listener => (listener, m.board.screen.grid)
  else []

theorem publish_eq (m : Machine) :
    m.publish =
      { m with
        board := { m.board with screen := { m.board.screen with dirty := false } }
        delivered := m.frames.reverse ++ m.delivered } := by
  unfold publish frames Screen.takeDirty
  cases m.board.screen.dirty <;> rfl

/-- **The three ends of a step of the machine.** -/
theorem step_cases (m : Machine) (now : Seconds) :
    (m.halted = true ∧ m.step now = ⟨m, none, []⟩) ∨
    (m.halted = false ∧ ∃ fault, (m.board.step now).fault = some fault ∧
      (m.step now).fault = some fault ∧
      (m.step now).machine = { m with buzzer := m.toned, board := (m.board.step now).board }) ∨
    (m.halted = false ∧ (m.board.step now).fault = none ∧ (m.step now).fault = none ∧
      (m.step now).machine =
        ({ m with
          buzzer := m.toned
          board := (m.board.step now).board.tickTimers now
          steps := m.steps + 1 } : Machine).haltWithProcessor.publish) := by
  have htone : (if 0 < m.board.sound.value then m.buzzer.emit else (m.buzzer, none)).1 = m.toned := by
    unfold toned; split <;> rfl
  unfold step
  cases hh : m.halted with
  | true => exact Or.inl ⟨rfl, rfl⟩
  | false =>
      simp only [Bool.false_eq_true, if_false]
      rw [htone]
      cases hf : (m.board.step now).fault with
      | some fault => exact Or.inr (Or.inl ⟨trivial, fault, rfl, rfl, rfl⟩)
      | none => exact Or.inr (Or.inr ⟨trivial, rfl, rfl, rfl⟩)

/-- The three ends in one equation each for the machine and the fault. -/
theorem step_eq (m : Machine) (now : Seconds) :
    (m.step now).machine =
      (if m.halted then m
      else match (m.board.step now).fault with
        | some _ => { m with buzzer := m.toned, board := (m.board.step now).board }
        | none =>
          ({ m with
            buzzer := m.toned
            board := (m.board.step now).board.tickTimers now
            steps := m.steps + 1 } : Machine).haltWithProcessor.publish) ∧
    (m.step now).fault = if m.halted then none else (m.board.step now).fault := by
  rcases m.step_cases now with ⟨hhalted, hs⟩ | ⟨hhalted, fault, hboard, hf, hm⟩ |
      ⟨hhalted, hboard, hf, hm⟩
  · rw [hs, if_pos hhalted, if_pos hhalted]
    exact ⟨rfl, rfl⟩
  · rw [hf, hm, hhalted, hboard]
    exact ⟨rfl, rfl⟩
  · rw [hf, hm, hhalted, hboard]
    exact ⟨rfl, rfl⟩

/-- **What a step without a fault leaves of the board**: both timers are ticked and the screen is no
news any more. -/
theorem step_of_success {m : Machine} {now : Seconds} (hrun : m.halted = false)
    (hok : (m.board.step now).fault = none) :
    (m.step now).machine.board =
        { (m.board.step now).board.tickTimers now with
          screen := { (m.board.step now).board.screen with dirty := false } } ∧
      (m.step now).machine.halted = (m.board.step now).board.processor.halted := by
  rcases m.step_cases now with ⟨hh, _⟩ | ⟨_, fault, hb, _, _⟩ | ⟨_, _, _, hs⟩
  · rw [hrun] at hh; exact absurd hh (by simp)
  · rw [hok] at hb; exact absurd hb (by simp)
  · rw [hs, publish_eq]
    refine ⟨rfl, ?_⟩
    change (m.halted || _) = _
    rw [hrun, Bool.false_or]
    rfl

/-- A machine that is not halted faults as its processor does. -/
theorem step_fault {m : Machine} (hrun : m.halted = false) (now : Seconds) :
    (m.step now).fault = (m.board.step now).fault := by
  rcases m.step_cases now with ⟨hh, _⟩ | ⟨_, fault, hb, hs, _⟩ | ⟨_, hb, hs, _⟩
  · rw [hrun] at hh; exact absurd hh (by simp)
  · rw [hs, hb]
  · rw [hs, hb]

/-- A step leaves alone the fault that was kept, the rate, the program and the listeners. -/
theorem step_untouched (m : Machine) (now : Seconds) :
    (m.step now).machine.fault = m.fault ∧ (m.step now).machine.rate = m.rate ∧
      (m.step now).machine.program = m.program ∧
      (m.step now).machine.listeners = m.listeners := by
  rcases m.step_cases now with ⟨_, hs⟩ | ⟨_, _, _, _, hs⟩ | ⟨_, _, _, hs⟩
  · rw [hs]; exact ⟨rfl, rfl, rfl, rfl⟩
  · rw [hs]; exact ⟨rfl, rfl, rfl, rfl⟩
  · rw [hs, publish_eq]; exact ⟨rfl, rfl, rfl, rfl⟩

/-- The machine runs, and its next instruction is at an address of a memory. -/
structure AtWork (m : Machine) (memory : Memory) (pc : Int) : Prop where
  running : m.halted = false
  fault : m.fault = none
  awake : m.board.processor.halted = false
  memory : m.board.memory = memory
  pc : m.board.processor.pc = pc

section AtWork

variable {m : Machine} {memory : Memory} {pc : Int} {word : UInt16}

theorem AtWork.fetch (h : m.AtWork memory pc) (hf : memory.fetch pc = .ok word) :
    m.board.memory.fetch m.board.processor.pc = .ok word := by
  rw [h.memory, h.pc]
  exact hf

/-- At a jump a machine goes on at its target. -/
theorem AtWork.jump {target : Target} (h : m.AtWork memory pc) (hf : memory.fetch pc = .ok word)
    (hd : Instruction.decode word = .jump target) (now : Seconds) :
    (m.step now).fault = none ∧ (m.step now).machine.AtWork memory target.val := by
  obtain ⟨hboard, hnone⟩ := Board.step_of_fetch h.awake (h.fetch hf) now
  rw [hd] at hboard hnone
  have hnone : (m.board.step now).fault = none := hnone
  obtain ⟨hafter, hhalted⟩ := step_of_success h.running hnone
  have hawake : (m.board.step now).board.processor.halted = false := by
    rw [hboard]
    exact h.awake
  refine ⟨(step_fault h.running now).trans hnone, hhalted.trans hawake, ?_, ?_, ?_, ?_⟩
  · exact (m.step_untouched now).1.trans h.fault
  · rw [hafter]; exact hawake
  · rw [hafter]
    change (m.board.step now).board.memory = memory
    rw [hboard]
    exact h.memory
  · rw [hafter]
    change (m.board.step now).board.processor.pc = target.val
    rw [hboard]
    rfl

/-- At a word that is no instruction a machine faults. -/
theorem AtWork.unknown (h : m.AtWork memory pc) (hf : memory.fetch pc = .ok word)
    (hd : Instruction.decode word = .unknown word) (now : Seconds) :
    (m.step now).fault = some (.unknownInstruction word pc) := by
  have hfault := (Board.step_of_fetch h.awake (h.fetch hf) now).2
  rw [hd, h.pc] at hfault
  exact (step_fault h.running now).trans hfault

end AtWork

end Machine

end ChipEight
