import ChipEight.Proofs.Presses
import ChipEight.Proofs.Step

/-!
# The ranges of a machine's parts

Bytes, keys and pixels are bytes, keys and pixels by their types. What the types leave open is how
far the index, the program counter and the return addresses get, how deep the call stack and how
long the queue of presses become, and whether the screen keeps all its rows in use.

The program counter is never cut to twelve bits. It leaves the 4096 addresses by an offset jump,
which reaches 0xFF + 0xFFF, and by going on or skipping at the end of memory, which stays below.
A call is fetched with both its bytes in memory, so its return address is at most 0x1000; only the
end mark is fetched from the last byte alone.
-/

namespace ChipEight

/-! ## What the types say -/

/-- The pixels of a screen as rows of zeros and ones. -/
def Screen.pixels (s : Screen) : List (List Nat) :=
  s.grid.toList.map fun row =>
    (List.range screenWidth).map fun column => if PixelRow.lit row column then 1 else 0

/-- The numbers and sizes that the types of a board's parts fix. -/
structure Board.Sized (b : Board) : Prop where
  /-- There are sixteen registers, each a byte. -/
  registers : b.processor.registers.toList.length = 16 ∧
    ∀ value ∈ b.processor.registers.toList, value.toNat ≤ 255
  /-- There are 4096 bytes of memory. -/
  memory : b.memory.bytes.toList.length = 4096 ∧ ∀ value ∈ b.memory.bytes.toList, value.toNat ≤ 255
  /-- There are thirty-two rows of sixty-four pixels, each zero or one. -/
  pixels : b.screen.pixels.length = 32 ∧
    ∀ row ∈ b.screen.pixels, row.length = 64 ∧ ∀ pixel ∈ row, pixel = 0 ∨ pixel = 1
  /-- Both timers show a byte. -/
  timers : b.delay.value.toNat ≤ 255 ∧ b.sound.value.toNat ≤ 255
  /-- The presses that wait are keys. -/
  presses : ∀ key ∈ b.keypad.presses, key.val ≤ 15

theorem byte_le (value : UInt8) : value.toNat ≤ 255 := Nat.le_of_lt_succ value.toNat_lt

/-- A screen has its rows and columns, and a pixel is zero or one. -/
theorem Screen.pixels_sized (s : Screen) : s.pixels.length = 32 ∧
    ∀ row ∈ s.pixels, row.length = 64 ∧ ∀ pixel ∈ row, pixel = 0 ∨ pixel = 1 := by
  refine ⟨by simp [pixels], fun row hrow => ?_⟩
  obtain ⟨bits, _, rfl⟩ := List.mem_map.mp hrow
  refine ⟨by simp, fun pixel hpixel => ?_⟩
  obtain ⟨column, _, rfl⟩ := List.mem_map.mp hpixel
  split
  · exact Or.inr rfl
  · exact Or.inl rfl

theorem Board.sized (b : Board) : b.Sized where
  registers := ⟨Vector.length_toList, fun value _ => byte_le value⟩
  memory := ⟨Vector.length_toList, fun value _ => byte_le value⟩
  pixels := b.screen.pixels_sized
  timers := ⟨byte_le _, byte_le _⟩
  presses := fun key _ => Nat.le_of_lt_succ key.isLt

/-! ## What every operation keeps -/

/-- How far a processor's index, program counter and call stack get. -/
structure Processor.InRange (p : Processor) : Prop where
  /-- The index is a number of sixteen bits. -/
  index : 0 ≤ p.index ∧ p.index ≤ 0xFFFF
  /-- No jump leads further than an offset jump. -/
  pc : 0 ≤ p.pc ∧ p.pc ≤ 0x10FE
  /-- At most sixteen calls are open. -/
  depth : p.stack.length ≤ stackLimit
  /-- A return address follows a call that lies in memory. -/
  returns : ∀ address ∈ p.stack, 2 ≤ address ∧ address ≤ 0x1000

/-- How far the parts of a board get. -/
structure Board.InRange (b : Board) : Prop where
  /-- The processor is in range. -/
  processor : b.processor.InRange
  /-- At most sixteen presses wait. -/
  queue : b.keypad.presses.length ≤ pressLimit
  /-- All rows of the screen are in use. -/
  height : b.screen.height = screenHeight

theorem Processor.inRange_new : ({} : Processor).InRange where
  index := by decide
  pc := by decide
  depth := by decide
  returns := by intro address h; exact absurd h (by simp)

namespace Keypad

/-! ### The queue of presses -/

theorem nextPress_queue (k : Keypad) : k.nextPress.2.presses.length ≤ k.presses.length := by
  unfold nextPress
  split
  · exact Nat.le_refl _
  · rename_i hk; rw [hk]; exact Nat.le_succ _

end Keypad

namespace Board

/-! ### Instructions -/

theorem awaited_queue {b : Board} (h : b.keypad.presses.length ≤ pressLimit) :
    b.awaited.presses.length ≤ pressLimit := by
  unfold awaited
  split
  · exact h
  · exact Nat.zero_le _

theorem indexAfter_range {b : Board} (h : 0 ≤ b.processor.index ∧ b.processor.index ≤ 0xFFFF)
    (i : Instruction) : 0 ≤ b.indexAfter i ∧ b.indexAfter i ≤ 0xFFFF := by
  cases i with
  | setIndex target => have := target.isLt; simp only [indexAfter]; omega
  | addIndex x => simp only [indexAfter]; omega
  | loadGlyph x =>
      have := byte_le (b.processor.register x)
      simp only [indexAfter, fontStart, glyphHeight]
      split
      · exact h
      · omega
  | _ => exact h

/-- Where an instruction leads, if it was fetched from an address in memory. -/
theorem pcAfter_range {b : Board} (hpc : 2 ≤ b.processor.pc ∧ b.processor.pc ≤ 0x1001)
    (hreturns : ∀ address ∈ b.processor.stack, 2 ≤ address ∧ address ≤ 0x1000)
    (i : Instruction) : 0 ≤ b.pcAfter i ∧ b.pcAfter i ≤ 0x10FE := by
  cases i with
  | ret =>
      simp only [pcAfter]
      cases hs : b.processor.stack with
      | nil => rw [List.headD_nil]; omega
      | cons address rest =>
          have := hreturns address (by rw [hs]; exact List.mem_cons_self)
          rw [List.headD_cons]; omega
  | jump target => have := target.isLt; simp only [pcAfter]; omega
  | call target => have := target.isLt; simp only [pcAfter]; split <;> omega
  | jumpOffset base =>
      have := base.isLt
      have := byte_le (b.processor.register 0)
      simp only [pcAfter]; omega
  | skipIf condition => simp only [pcAfter, wordSize]; split <;> omega
  | awaitKey x => simp only [pcAfter, wordSize]; split <;> omega
  | _ => simp only [pcAfter]; omega

theorem stackAfter_depth {b : Board} (h : b.processor.stack.length ≤ stackLimit)
    (i : Instruction) : (b.stackAfter i).length ≤ stackLimit := by
  cases i with
  | ret => simp only [stackAfter, List.length_tail]; omega
  | call target =>
      simp only [stackAfter]
      split
      · exact h
      · rw [List.length_cons]; omega
  | _ => exact h

/-- A call pushes the address after it, and every other instruction pushes nothing. -/
theorem stackAfter_returns {b : Board} {i : Instruction}
    (hpc : (∃ target, i = .call target) → 2 ≤ b.processor.pc ∧ b.processor.pc ≤ 0x1000)
    (h : ∀ address ∈ b.processor.stack, 2 ≤ address ∧ address ≤ 0x1000) :
    ∀ address ∈ b.stackAfter i, 2 ≤ address ∧ address ≤ 0x1000 := by
  cases i with
  | ret => exact fun address ha => h address (List.mem_of_mem_tail ha)
  | call target =>
      simp only [stackAfter]
      split
      · exact h
      · intro address ha
        rcases List.mem_cons.mp ha with rfl | ha
        · exact hpc ⟨target, rfl⟩
        · exact h address ha
  | _ => exact h

theorem keypadAfter_queue {b : Board} (h : b.keypad.presses.length ≤ pressLimit)
    (i : Instruction) : (b.keypadAfter i).presses.length ≤ pressLimit := by
  cases i with
  | awaitKey x => exact Nat.le_trans (Keypad.nextPress_queue _) (awaited_queue h)
  | _ => exact h

theorem screenAfter_height (b : Board) (i : Instruction) :
    (b.screenAfter i).height = b.screen.height := by
  cases i with
  | draw x y height => simp only [screenAfter]; split <;> rfl
  | _ => rfl

/-! ### Steps -/

/-- Only the end mark is fetched from the last byte, and it calls nothing. -/
theorem call_fetched {m : Memory} {pc : Int} {word : UInt16} {target : Target}
    (hf : m.fetch pc = .ok word) (hd : Instruction.decode word = .call target) : pc ≤ 0xFFE := by
  obtain ⟨_, hle, hlast⟩ := Memory.fetch_ok_bounds hf
  by_cases hlt : pc ≤ 0xFFE
  · exact hlt
  · -- the word would be the end mark's
    rw [hlast (by omega)] at hd
    exact absurd hd (by simp [Memory.wordOf, endMark, Instruction.decode, Instruction.ofSystemWord])

/-- **A step of the processor keeps the ranges**, also when it faults. -/
theorem step_inRange {b : Board} (h : b.InRange) (now : Seconds) : (b.step now).board.InRange := by
  rcases b.step_cases now with ⟨_, hs⟩ | ⟨_, fault, _, hs⟩ | ⟨_, word, hf, hs⟩
  · rw [hs]; exact h
  · rw [hs]; exact h
  · rw [hs]
    -- the word lies in memory, so the counter past it is at most 0x1001
    obtain ⟨hlow, hhigh, _⟩ := Memory.fetch_ok_bounds hf
    have hpc : 2 ≤ b.advanced.processor.pc ∧ b.advanced.processor.pc ≤ 0x1001 := by
      simp only [advanced, wordSize]; omega
    refine ⟨⟨?_, ?_, ?_, ?_⟩, ?_, ?_⟩
    · exact indexAfter_range (b := b.advanced) h.processor.index _
    · exact pcAfter_range hpc h.processor.returns _
    · exact stackAfter_depth (b := b.advanced) h.processor.depth _
    · -- a call is not fetched from the last byte, so what it pushes is one less at most
      refine stackAfter_returns ?_ h.processor.returns
      rintro ⟨target, hcall⟩
      have := call_fetched hf hcall
      simp only [advanced, wordSize]; omega
    · exact keypadAfter_queue (b := b.advanced) h.queue _
    · exact (screenAfter_height b.advanced _).trans h.height

end Board

namespace Machine

/-- **A step of the machine keeps the ranges.** -/
theorem step_inRange {m : Machine} (h : m.board.InRange) (now : Seconds) :
    (m.step now).machine.board.InRange := by
  have hb := Board.step_inRange h now
  rcases m.step_cases now with ⟨_, hs⟩ | ⟨_, fault, _, _, hs⟩ | ⟨_, _, _, hs⟩
  · rw [hs]; exact h
  · rw [hs]; exact hb
  · rw [hs, publish_eq]
    exact ⟨hb.processor, hb.queue, hb.height⟩

theorem inRange_new (random : RandomSource) (now : Seconds) :
    (Machine.new random now).board.InRange :=
  ⟨Processor.inRange_new, Nat.zero_le _, rfl⟩

/-- **Every operation keeps the ranges.** -/
theorem perform_inRange {m : Machine} (h : m.board.InRange) (operation : Operation) :
    (m.perform operation).board.InRange := by
  cases operation with
  | step now => exact step_inRange h now
  | stepProcessor now => exact Board.step_inRange h now
  | run options readings schedule turns =>
      exact Bench.run_keeps (P := fun m => m.board.InRange) (fun _ now h => step_inRange h now)
        (fun _ _ h => h) _ _ _ h
  | key event => exact ⟨h.processor, Keypad.handle_queue h.queue event, h.height⟩
  | clearKeypad => exact ⟨h.processor, Nat.zero_le _, h.height⟩
  | delay now event => exact ⟨h.processor, h.queue, h.height⟩
  | sound now event => exact ⟨h.processor, h.queue, h.height⟩
  | tickTimers now => exact ⟨h.processor, h.queue, h.height⟩
  | load program =>
      rcases m.perform_load_cases program with ⟨_, memory, _, hm⟩ | ⟨_, _, hm⟩
      · rw [hm]; exact ⟨h.processor, h.queue, h.height⟩
      · rw [hm]; exact h
  | resetProcessor => exact ⟨Processor.inRange_new, h.queue, h.height⟩
  | reset now => exact ⟨Processor.inRange_new, Nat.zero_le _, h.height⟩
  | listen listener => exact h
  | unlisten listener =>
      obtain ⟨listeners, hm⟩ := m.perform_unlisten listener
      rw [hm]
      exact h

end Machine

/-- The ranges hold of whatever operations lead to. -/
theorem Reachable.inRange {Allowed : Operation → Prop} {m : Machine} (h : Reachable Allowed m) :
    m.board.InRange := by
  induction h with
  | new random now buzzer rate => exact Machine.inRange_new random now
  | after _ _ ih => exact Machine.perform_inRange ih _

/-! ## What a step can fail with -/

/-- The faults that a step can end with; a program that is too large is met while loading only. -/
def Fault.OfStep : Fault → Prop
  | .outOfBounds .. | .stackUnderflow _ | .stackOverflow _ | .unknownInstruction .. => True
  | .invalidDigit _ => True
  | .programTooLarge _ => False

/-- Nothing that a step asks of the screen and of the keypad is turned down. -/
structure Board.Granted (b : Board) : Prop where
  /-- A sprite never reaches a row that is not there. -/
  drawing : ∀ x y rows, (b.screen.tryDraw x y rows).2 = .ok (b.screen.draw x y rows).2
  /-- The key that the low four bits of a register name exists. -/
  keys : ∀ x, Key.ofInt ((b.processor.register x).toNat % 16) =
    .ok (Fin.ofNat 16 (b.processor.register x).toNat)

namespace Board

theorem InRange.granted {b : Board} (h : b.InRange) : b.Granted where
  drawing := by
    intro x y rows
    have hrows : ¬ max (screenHeight : Int) y < min b.screen.height (y + rows.length) := by
      rw [h.height]; omega
    simp only [Screen.tryDraw, if_neg hrows]
  keys := by
    intro x
    rw [Key.ofInt, dif_pos (by omega)]
    rfl

theorem fetch_fault {m : Memory} {pc : Int} {fault : Fault} (h : m.fetch pc = .error fault) :
    fault.OfStep := by
  rw [Memory.fetch_eq] at h
  split at h
  · split at h
    · exact absurd h (by simp)
    · split at h
      · rw [← Except.error.inj h]; trivial
      · exact absurd h (by simp)
  · rw [← Except.error.inj h]; trivial

theorem blockFault_ofStep {b : Board} {length : Int} {fault : Fault}
    (h : b.blockFault length = some fault) : fault.OfStep := by
  unfold blockFault at h
  split at h
  · exact absurd h (by simp)
  · rw [← Option.some.inj h]; trivial

theorem refusal_ofStep {b : Board} {pc : Int} {i : Instruction} {fault : Fault}
    (h : b.refusal pc i = some fault) : fault.OfStep := by
  cases i with
  | ret | call target | loadGlyph x =>
      simp only [refusal] at h
      split at h
      · rw [← Option.some.inj h]; trivial
      · exact absurd h (by simp)
  | draw x y height => exact blockFault_ofStep h
  | storeDigits x => exact blockFault_ofStep h
  | storeRegisters x => exact blockFault_ofStep h
  | loadRegisters x => exact blockFault_ofStep h
  | unknown word => rw [← Option.some.inj h]; trivial
  | _ => exact absurd h (by simp [refusal])

/-- **A step of the processor never ends with a fault of loading.** -/
theorem step_ofStep {b : Board} {now : Seconds} {fault : Fault}
    (h : (b.step now).fault = some fault) : fault.OfStep := by
  rcases b.step_cases now with ⟨_, hs⟩ | ⟨_, fault', hf, hs⟩ | ⟨_, word, _, hs⟩
  · rw [hs] at h; exact absurd h (by simp)
  · rw [hs] at h
    exact Option.some.inj h ▸ fetch_fault hf
  · rw [hs] at h; exact refusal_ofStep h

end Board

theorem Machine.step_ofStep {m : Machine} {now : Seconds} {fault : Fault}
    (h : (m.step now).fault = some fault) : fault.OfStep := by
  rcases m.step_cases now with ⟨_, hs⟩ | ⟨_, fault', hf, hs, _⟩ | ⟨_, _, hs, _⟩
  · rw [hs] at h; exact absurd h (by simp)
  · rw [hs] at h
    exact Board.step_ofStep (hf.trans h)
  · rw [hs] at h; exact absurd h (by simp)

/--
**Whatever is done to a machine, its parts stay in range.**

Operations may come in any order and go on after steps that failed. And from every state they lead
to, a step fails with one of the five faults of execution, if it fails at all.
-/
theorem reachable_inRange {m : Machine} (h : Reachable Anything m) :
    m.board.Sized ∧ m.board.InRange ∧ m.board.Granted ∧
      ∀ now fault, (m.board.step now).fault = some fault ∨ (m.step now).fault = some fault →
        fault.OfStep := by
  refine ⟨m.board.sized, h.inRange, h.inRange.granted, ?_⟩
  intro now fault hfault
  rcases hfault with hfault | hfault
  · exact Board.step_ofStep hfault
  · exact Machine.step_ofStep hfault

/-- A program that returns from nowhere, stepped again after its fault, then poked and reset. -/
theorem reachable_inRange_lost_return :
    let m := (Machine.new (.ofSeed 7) 0.25).performAll
      [.load [0x00, 0xEE], .step 0.5, .step 0.75, .key (.setKeys [3, 99]), .sound 0.75 (.set 300),
        .stepProcessor 1.0, .reset 1.0]
    Reachable Anything m ∧ m.board.InRange := by
  intro m
  have h : Reachable Anything m :=
    Reachable.performAll _ (fun _ _ => trivial) (.new _ _ {} Machine.standardRate)
  exact ⟨h, (reachable_inRange h).2.1⟩

end ChipEight
