import ChipEight.Proofs.Faults

/-!
# Calls and returns nest

2NNN puts the address after it on the call stack and 00EE takes the last address off again. Nothing
else touches the stack: not the other instructions, not an instruction that faults, and not what
happens to keys, timers and memory between two steps. So while a subroutine runs, whatever it calls
in turn, the addresses that its caller left lie below everything it does, and the only way out of it
is the return that takes its own return address.

The proof needs no more than that. As long as the stack is deeper than it was before the call, the
frame of the call, which is its return address and all below it, stays at the bottom.
-/

namespace ChipEight

namespace Board

/-! ## What a step does to the call stack -/

/-- **A step pushes one address, takes one off or leaves the call stack alone.** -/
theorem step_stack (b : Board) (now : Seconds) :
    (b.step now).board.processor.stack = b.processor.stack ∨
    (∃ target : Target, b.Fetches (0x2000 + target.val) ∧
      (b.step now).board.processor.stack = (b.processor.pc + 2) :: b.processor.stack) ∨
    (b.Fetches 0x00EE ∧
      b.processor.stack =
        (b.step now).board.processor.pc :: (b.step now).board.processor.stack) := by
  rcases b.step_cases now with ⟨_, hs⟩ | ⟨_, fault, _, hs⟩ | ⟨_, word, hf, hs⟩
  · rw [hs]; exact Or.inl rfl
  · rw [hs]; exact Or.inl rfl
  · rw [hs]
    obtain ⟨i, hd⟩ : ∃ i, Instruction.decode word = i := ⟨_, rfl⟩
    rw [hd]
    cases i with
    | call target =>
        by_cases hfull : stackLimit ≤ b.processor.stack.length
        · -- one call too many, which changes nothing
          exact Or.inl (if_pos hfull)
        · have hcall : b.Fetches (0x2000 + target.val) := fetches_of_decode (by simp) hf hd
          exact Or.inr (Or.inl ⟨target, hcall, if_neg hfull⟩)
    | ret =>
        cases hstack : b.processor.stack with
        | nil =>
            -- there is nowhere to return to
            refine Or.inl ?_
            change b.processor.stack.tail = []
            rw [hstack, List.tail_nil]
        | cons address rest =>
            have hret : b.Fetches 0x00EE := fetches_of_decode (by simp) hf hd
            refine Or.inr (Or.inr ⟨hret, ?_⟩)
            change address :: rest =
              b.processor.stack.headD (b.processor.pc + wordSize) :: b.processor.stack.tail
            rw [hstack, List.headD_cons, List.tail_cons]
    | _ => exact Or.inl rfl

/-- A call that finds room leads to its target and leaves the address after it. -/
theorem step_call {b : Board} {target : Target} (hrun : b.processor.halted = false)
    (hf : b.Fetches (0x2000 + target.val)) (hroom : b.processor.stack.length < 16)
    (now : Seconds) :
    (b.step now).board.processor.stack = (b.processor.pc + 2) :: b.processor.stack ∧
      (b.step now).board.processor.pc = target.val := by
  obtain ⟨word, hfetch, hword⟩ := hf
  have hcall : Instruction.decode word = .call target := Instruction.decode_code (by simp) hword
  have hnotfull : ¬ stackLimit ≤ b.advanced.processor.stack.length := Nat.not_le.mpr hroom
  rw [(step_of_fetch hrun hfetch now).1, hcall]
  exact ⟨if_neg hnotfull, if_neg hnotfull⟩

end Board

/-! ## What happens inside a subroutine -/

/-- What a subroutine's run is made of: steps, and whatever happens to keys, timers, memory and
listeners in between. Resets are not, and a run is many steps. -/
def Operation.InCall : Operation → Prop
  | .run .. | .resetProcessor | .reset _ => False
  | _ => True

namespace Machine

/-- An operation carries the next instruction out: it is a step, of the machine or of its processor
alone, and nothing is halted. -/
def Executes (m : Machine) : Operation → Prop
  | .step _ => m.halted = false ∧ m.board.processor.halted = false
  | .stepProcessor _ => m.board.processor.halted = false
  | _ => False

/-- The return addresses of the calls that are open, the last one first. -/
def calls (m : Machine) : List Int := m.board.processor.stack

/-- At every moment of a history more calls are open than a number of them. -/
def StaysDeeper (m : Machine) (depth : Nat) (operations : List Operation) : Prop :=
  ∀ before, before <+: operations → depth < (m.performAll before).calls.length

theorem staysDeeper_nil {m : Machine} {depth : Nat} :
    m.StaysDeeper depth [] ↔ depth < m.calls.length := by
  refine ⟨fun h => h [] List.prefix_rfl, fun h before hbefore => ?_⟩
  rw [List.prefix_nil.mp hbefore]
  exact h

theorem staysDeeper_cons {m : Machine} {depth : Nat} {operation : Operation}
    {rest : List Operation} : m.StaysDeeper depth (operation :: rest) ↔
      depth < m.calls.length ∧ (m.perform operation).StaysDeeper depth rest := by
  constructor
  · intro h
    refine ⟨h [] List.nil_prefix, fun before hbefore => ?_⟩
    exact h (operation :: before) (List.cons_prefix_cons.mpr ⟨rfl, hbefore⟩)
  · rintro ⟨hnow, hlater⟩ before hbefore
    cases before with
    | nil => exact hnow
    | cons first before =>
        obtain ⟨rfl, hbefore'⟩ := List.cons_prefix_cons.mp hbefore
        exact hlater before hbefore'

/-- A step of the machine does to the processor what the processor's own step does. -/
theorem step_processor {m : Machine} (hrun : m.halted = false) (now : Seconds) :
    (m.step now).machine.board.processor = (m.board.step now).board.processor := by
  rcases m.step_cases now with ⟨hh, _⟩ | ⟨_, fault, _, _, hs⟩ | ⟨_, _, _, hs⟩
  · rw [hrun] at hh; exact absurd hh (by simp)
  · rw [hs]
  · rw [hs, publish_eq]; rfl

/-- What carries an instruction out does a step of the processor. -/
theorem Executes.perform {m : Machine} {operation : Operation} (h : m.Executes operation) :
    m.board.processor.halted = false ∧
      ∃ now, (m.perform operation).board.processor = (m.board.step now).board.processor := by
  cases operation with
  | step now => exact ⟨h.2, now, step_processor h.1 now⟩
  | stepProcessor now => exact ⟨h, now, rfl⟩
  | _ => exact absurd h (by simp [Executes])

/-- What carries no instruction out leaves the processor alone. -/
theorem perform_processor {m : Machine} {operation : Operation} (hcall : operation.InCall)
    (hidle : ¬ m.Executes operation) :
    (m.perform operation).board.processor = m.board.processor := by
  -- a halted processor does nothing, whoever asks it for a step
  have hhalted : ∀ now, m.board.processor.halted = true →
      (m.board.step now).board.processor = m.board.processor := by
    intro now hh
    rw [m.board.step_eq, if_pos hh]
  cases operation with
  | step now =>
      cases hm : m.halted with
      | true => rw [perform, (m.step_eq now).1, if_pos hm]
      | false =>
          have hh : m.board.processor.halted = true := by
            cases hp : m.board.processor.halted with
            | true => rfl
            | false => exact absurd ⟨hm, hp⟩ hidle
          rw [perform, step_processor hm, hhalted now hh]
  | stepProcessor now =>
      have hh : m.board.processor.halted = true := by
        cases hp : m.board.processor.halted with
        | true => rfl
        | false => exact absurd hp hidle
      exact hhalted now hh
  | load program =>
      rcases m.perform_load_cases program with ⟨_, memory, _, hm⟩ | ⟨_, _, hm⟩
      · rw [hm]
      · rw [hm]
  | unlisten listener =>
      obtain ⟨listeners, hm⟩ := m.perform_unlisten listener
      rw [hm]
  | run options readings schedule turns => exact hcall.elim
  | resetProcessor => exact hcall.elim
  | reset now => exact hcall.elim
  | _ => rfl

/-- **What happens inside a subroutine pushes one address, takes one off or leaves the stack
alone**, and only a return takes one off, which is where it leads. -/
theorem perform_calls {m : Machine} {operation : Operation} (hcall : operation.InCall) :
    (m.perform operation).calls = m.calls ∨
    (∃ address, (m.perform operation).calls = address :: m.calls) ∨
    (m.Executes operation ∧ m.board.Fetches 0x00EE ∧
      m.calls = (m.perform operation).board.processor.pc :: (m.perform operation).calls) := by
  by_cases hexec : m.Executes operation
  · obtain ⟨_, now, hprocessor⟩ := hexec.perform
    unfold calls
    rw [hprocessor]
    rcases m.board.step_stack now with hsame | ⟨target, _, hpush⟩ | ⟨hret, hpop⟩
    · exact Or.inl hsame
    · exact Or.inr (Or.inl ⟨_, hpush⟩)
    · exact Or.inr (Or.inr ⟨hexec, hret, hpop⟩)
  · have hsame := perform_processor hcall hexec
    exact Or.inl (congrArg Processor.stack hsame)

variable {m : Machine} {frame : List Int}

/-- **A frame stays at the bottom as long as the stack does not become smaller than it.** -/
theorem frame_perform {operation : Operation} (hcall : operation.InCall)
    (hdeep : frame.length ≤ (m.perform operation).calls.length) (h : frame <:+ m.calls) :
    frame <:+ (m.perform operation).calls := by
  rcases perform_calls (m := m) hcall with hsame | ⟨address, hpush⟩ | ⟨_, _, hpop⟩
  · rw [hsame]; exact h
  · rw [hpush]; exact h.trans (List.suffix_cons _ _)
  · rw [hpop] at h
    rcases List.suffix_cons_iff.mp h with hall | hrest
    · -- the frame would be the whole stack, of which an address was taken off
      have hlength := congrArg List.length hall
      rw [List.length_cons] at hlength
      omega
    · exact hrest

/-- The same over a whole history. -/
theorem frame_performAll {depth : Nat} (hframe : frame.length = depth + 1)
    (operations : List Operation) (hall : ∀ operation ∈ operations, operation.InCall)
    (hdeep : m.StaysDeeper depth operations) (h : frame <:+ m.calls) :
    frame <:+ (m.performAll operations).calls := by
  induction operations generalizing m with
  | nil => exact h
  | cons operation rest ih =>
      have hrest : ∀ o ∈ rest, o.InCall := fun o ho => hall o (List.mem_cons_of_mem _ ho)
      obtain ⟨_, hdeep'⟩ := staysDeeper_cons.mp hdeep
      have hlength : frame.length ≤ (m.perform operation).calls.length := by
        have hafter : depth < (m.perform operation).calls.length :=
          hdeep' [] List.nil_prefix
        omega
      have hframe' := frame_perform (hall operation List.mem_cons_self) hlength h
      exact ih hrest hdeep' hframe'

/--
**A subroutine is left by its own return and finds the stack of its caller.**

The call leaves the address after it on top of what was there, and this frame stays at the bottom
while more calls are open than before it. Whatever ends that is a step that carries 00EE out, and it
leads back behind the call with the call stack as the call found it. Steps that fault may be among
the others.
-/
theorem call_returns {target : Target} {call : Operation} (hexec : m.Executes call)
    (hf : m.board.Fetches (0x2000 + target.val)) (hroom : m.calls.length < 16) :
    let p := m.board.processor.pc
    let called := m.perform call
    called.calls = (p + 2) :: m.calls ∧ called.board.processor.pc = target.val ∧
      ∀ operations, (∀ operation ∈ operations, operation.InCall) →
        called.StaysDeeper m.calls.length operations →
        let here := called.performAll operations
        ((p + 2) :: m.calls) <:+ here.calls ∧
          ∀ last, last.InCall → (here.perform last).calls.length = m.calls.length →
            here.Executes last ∧ here.board.Fetches 0x00EE ∧
              (here.perform last).board.processor.pc = p + 2 ∧
              (here.perform last).calls = m.calls := by
  intro p called
  obtain ⟨hrun, now, hprocessor⟩ := hexec.perform
  obtain ⟨hstack, hpc⟩ := Board.step_call hrun hf hroom now
  have hcalled : called.calls = (p + 2) :: m.calls :=
    (congrArg Processor.stack hprocessor).trans hstack
  refine ⟨hcalled, (congrArg Processor.pc hprocessor).trans hpc, ?_⟩
  intro operations hall hdeep here
  have hframe : ((p + 2) :: m.calls) <:+ here.calls :=
    frame_performAll List.length_cons operations hall hdeep (hcalled ▸ List.suffix_rfl)
  refine ⟨hframe, fun last hlast hdepth => ?_⟩
  have hhere : m.calls.length < here.calls.length := hdeep operations List.prefix_rfl
  rcases perform_calls (m := here) hlast with hsame | ⟨address, hpush⟩ | ⟨hexec', hret, hpop⟩
  · rw [hsame] at hdepth; omega
  · rw [hpush, List.length_cons] at hdepth; omega
  · -- one address was taken off, and what is left is as long as the caller's stack
    rw [hpop] at hframe
    have hlength : ((p + 2) :: m.calls).length =
        ((here.perform last).board.processor.pc :: (here.perform last).calls).length := by
      rw [List.length_cons, List.length_cons, hdepth]
    obtain ⟨haddress, hrest⟩ := List.cons.inj (hframe.eq_of_length hlength)
    exact ⟨hexec', hret, haddress.symm, hrest.symm⟩

/-- What a step of the processor leads to, if memory, the processor and the instruction are known
and the instruction only goes somewhere. -/
theorem carried {memory : Memory} {p : Processor}
    (h : m.board.memory = memory ∧ m.board.processor = p) (hrun : p.halted = false)
    {word : UInt16} (hf : memory.fetch p.pc = .ok word) (i : Instruction)
    (hd : Instruction.decode word = i) (now : Seconds) (after : Processor)
    (hi : ∀ b : Board, b.processor = p → (b.advanced.outcome now i).memory = b.memory ∧
      (b.advanced.outcome now i).processor = after) :
    (m.perform (.stepProcessor now)).board.memory = memory ∧
      (m.perform (.stepProcessor now)).board.processor = after := by
  obtain ⟨rfl, rfl⟩ := h
  obtain ⟨hmemory, hprocessor⟩ := hi m.board rfl
  rw [perform, (Board.step_of_fetch hrun hf now).1, hd]
  exact ⟨hmemory, hprocessor⟩

/-- A subroutine that calls another one in turn, with a key pressed in between. -/
theorem call_returns_nested :
    let m := (Machine.new (.ofSeed 7) 0.25).perform
      (.load [0x22, 0x04, 0x00, 0x00, 0x22, 0x08, 0x00, 0xEE, 0x00, 0xEE])
    let operations : List Operation := [.stepProcessor 0.5, .key (.press 3), .stepProcessor 0.5]
    let here := (m.perform (.stepProcessor 0.25)).performAll operations
    here.calls = [0x202] ∧ here.board.Fetches 0x00EE ∧
      (here.perform (.stepProcessor 0.75)).board.processor.pc = 0x202 ∧
      (here.perform (.stepProcessor 0.75)).calls = m.calls := by
  intro m operations here
  obtain ⟨memory, hload, hm⟩ := (Machine.new (.ofSeed 7) 0.25).perform_load
    [0x22, 0x04, 0x00, 0x00, 0x22, 0x08, 0x00, 0xEE, 0x00, 0xEE] (by decide)
  have hstart : m.board.memory = memory ∧ m.board.processor = {} := by
    simp only [m, hm]
    exact ⟨trivial, rfl⟩
  have houter : memory.fetch 0x200 = .ok 0x2204 :=
    Memory.fetch_word hload (k := 0) rfl rfl (by decide) rfl
  have hinner : memory.fetch 0x204 = .ok 0x2208 :=
    Memory.fetch_word hload (k := 4) rfl rfl (by decide) rfl
  have hback : memory.fetch 0x208 = .ok 0x00EE :=
    Memory.fetch_word hload (k := 8) rfl rfl (by decide) rfl
  have hout : memory.fetch 0x206 = .ok 0x00EE :=
    Memory.fetch_word hload (k := 6) rfl rfl (by decide) rfl
  clear_value m
  -- inside the subroutine, inside the one it calls, and back from there
  let called := m.perform (.stepProcessor 0.25)
  let nested := called.perform (.stepProcessor 0.5)
  let pressed := nested.perform (.key (.press 3))
  have hcalled : called.board.memory = memory ∧
      called.board.processor = { pc := 0x204, stack := [0x202], count := 1 } :=
    carried hstart rfl houter (.call 0x204) rfl 0.25 _ fun b hb => by
      simp only [Board.outcome, Board.advanced, hb]; exact ⟨rfl, rfl⟩
  have hnested : nested.board.memory = memory ∧
      nested.board.processor = { pc := 0x208, stack := [0x206, 0x202], count := 2 } :=
    carried hcalled rfl hinner (.call 0x208) rfl 0.5 _ fun b hb => by
      simp only [Board.outcome, Board.advanced, hb]; exact ⟨rfl, rfl⟩
  have hkey : ∀ (m' : Machine) (memory : Memory) (p : Processor),
      m'.board.memory = memory ∧ m'.board.processor = p →
        (m'.perform (.key (.press 3))).board.memory = memory ∧
          (m'.perform (.key (.press 3))).board.processor = p := fun _ _ _ h => h
  have hpressed := hkey nested _ _ hnested
  have hhere : here.board.memory = memory ∧
      here.board.processor = { pc := 0x206, stack := [0x202], count := 3 } :=
    carried (m := pressed) hpressed rfl hback .ret rfl 0.5 _ fun b hb => by
      simp only [Board.outcome, Board.advanced, hb]; exact ⟨rfl, rfl⟩
  have hlast := carried hhere rfl hout .ret rfl 0.75
    { pc := 0x202, stack := [], count := 4 } fun b hb => by
      simp only [Board.outcome, Board.advanced, hb]; exact ⟨rfl, rfl⟩
  have hdeep : called.StaysDeeper 0 operations := by
    have hdepth : ∀ {m' : Machine} {p : Processor}, m'.board.processor = p →
        0 < p.stack.length → 0 < m'.calls.length := by
      rintro m' p rfl h
      exact h
    refine staysDeeper_cons.mpr ⟨hdepth hcalled.2 (by decide), ?_⟩
    refine staysDeeper_cons.mpr ⟨hdepth hnested.2 (by decide), ?_⟩
    refine staysDeeper_cons.mpr ⟨hdepth hpressed.2 (by decide), ?_⟩
    exact staysDeeper_nil.mpr (hdepth hhere.2 (by decide))
  have hopen : m.calls = [] := by rw [calls, hstart.2]
  have hfetches : m.board.Fetches (0x2000 + (0x204 : Target).val) :=
    ⟨0x2204, by rw [hstart.1, hstart.2]; exact houter, rfl⟩
  have hexec : m.Executes (.stepProcessor 0.25) := by rw [Executes, hstart.2]
  obtain ⟨_, _, hinside⟩ := call_returns hexec hfetches (by rw [hopen]; decide)
  obtain ⟨_, hleave⟩ := hinside operations (by simp [operations, Operation.InCall])
    (by rw [hopen]; exact hdeep)
  have hdepth : (here.perform (.stepProcessor 0.75)).calls.length = m.calls.length := by
    rw [hopen, calls, hlast.2]
  obtain ⟨_, hret, hpc, hcalls⟩ := hleave (.stepProcessor 0.75) trivial hdepth
  rw [hstart.2] at hpc
  have hopened : here.calls = [0x202] := by rw [calls, hhere.2]
  exact ⟨hopened, hret, hpc, hcalls⟩

end Machine

end ChipEight
