import ChipEight.Proofs.Faults
import ChipEight.Proofs.Presses

/-!
# Waiting for a key

FX0A keeps a program at one place until a key is pressed. The step that begins the wait forgets what
was queued before it and steps back, and every later step finds the instruction again. What ends the
wait is a press that counts and came later. So the queue is empty when the wait begins, holds the
newest presses since then at every later moment, and a press made before or a key that is merely
held down is never an answer.

`Machine.Awaiting` is what holds all through a wait, whatever the player does in between.
-/

namespace ChipEight

namespace Board

/-! ## The steps of a wait -/

/-- What no step of a wait changes. -/
structure Alike (b c : Board) : Prop where
  /-- The index is the same. -/
  index : c.processor.index = b.processor.index
  /-- The call stack is the same. -/
  stack : c.processor.stack = b.processor.stack
  /-- Memory is the same. -/
  memory : c.memory = b.memory
  /-- The pixels are the same. -/
  pixels : c.screen.grid = b.screen.grid

/-- The wait that is found on one board goes on on another. -/
structure Waits (b c : Board) : Prop extends Alike b c where
  /-- No register has changed. -/
  registers : c.processor.registers = b.processor.registers
  /-- The instruction will be found again. -/
  pc : c.processor.pc = b.processor.pc
  /-- The processor waits. -/
  waiting : c.processor.waiting = true

/-- The wait that is found on one board was ended by the oldest of the presses that are left of a
log. -/
structure Answered (b : Board) (x : Register) (log : List Key) (c : Board) : Prop
    extends Alike b c where
  /-- The answer is in the register, no other register has changed, and the presses after it wait. -/
  answer : ∃ key rest, newest log = key :: rest ∧
    c.processor.registers = b.processor.registers.set x (UInt8.ofNat key.val) ∧
    c.keypad.presses = rest
  /-- The program goes on. -/
  pc : c.processor.pc = b.processor.pc + 2
  /-- The processor waits no longer. -/
  waiting : c.processor.waiting = false

theorem Alike.trans {b c d : Board} (h : b.Alike c) (h' : c.Alike d) : b.Alike d where
  index := h'.index.trans h.index
  stack := h'.stack.trans h.stack
  memory := h'.memory.trans h.memory
  pixels := h'.pixels.trans h.pixels

theorem Waits.trans {b c d : Board} (h : b.Waits c) (h' : c.Waits d) : b.Waits d where
  toAlike := h.toAlike.trans h'.toAlike
  registers := h'.registers.trans h.registers
  pc := h'.pc.trans h.pc
  waiting := h'.waiting

/-- A wait that goes on and is then ended is ended. -/
theorem Answered.after_waits {b c d : Board} {x : Register} {log : List Key} (h : b.Waits c)
    (h' : c.Answered x log d) : b.Answered x log d where
  toAlike := h.toAlike.trans h'.toAlike
  answer := by rw [← h.registers]; exact h'.answer
  pc := by rw [← h.pc]; exact h'.pc
  waiting := h'.waiting

/-- The instruction of a wait is found again as long as the wait goes on. -/
theorem Waits.fetches {b c : Board} (h : b.Waits c) {number : Nat} (hf : b.Fetches number) :
    c.Fetches number := by
  obtain ⟨word, hfetch, hnumber⟩ := hf
  exact ⟨word, by rw [h.memory, h.pc]; exact hfetch, hnumber⟩

/-- The step that begins a wait finds no press. -/
theorem awaited_of_idle {b : Board} (h : b.processor.waiting = false) : b.awaited.presses = [] := by
  rw [awaited, h]
  rfl

/-- Waiting is carried out and never refused. -/
theorem step_awaitKey {b : Board} {x : Register} (hrun : b.processor.halted = false)
    (hf : b.Fetches (Instruction.awaitKey x).code) (now : Seconds) :
    (b.step now).board = b.advanced.outcome now (.awaitKey x) ∧ (b.step now).fault = none := by
  obtain ⟨word, hfetch, hw⟩ := hf
  obtain ⟨hboard, hfault⟩ := step_of_fetch hrun hfetch now
  rw [Instruction.decode_code (by simp) hw] at hboard hfault
  exact ⟨hboard, hfault⟩

theorem step_down (b : Board) (now : Seconds) : (b.step now).board.keypad.down = b.keypad.down := by
  rcases b.step_cases now with ⟨_, hs⟩ | ⟨_, _, _, hs⟩ | ⟨_, _, _, hs⟩
  · rw [hs]
  · rw [hs]
  · rw [hs]
    exact b.advanced.keypadAfter_down _

end Board

namespace Machine

/-- Neither the machine nor its processor has come to the end of the program. -/
def Running (m : Machine) : Prop := m.halted = false ∧ m.board.processor.halted = false

/-- Keys stay as they are held through a step. -/
theorem step_down (m : Machine) (now : Seconds) :
    (m.step now).machine.board.keypad.down = m.board.keypad.down := by
  have hb := m.board.step_down now
  rcases m.step_cases now with ⟨_, hs⟩ | ⟨_, _, _, _, hs⟩ | ⟨_, _, _, hs⟩
  · rw [hs]
  · rw [hs]; exact hb
  · rw [hs, publish_eq]; exact hb

/-- A step on FX0A that finds no press: the wait goes on. -/
theorem step_unanswered {m : Machine} {x : Register} (hrun : m.Running)
    (hf : m.board.Fetches (Instruction.awaitKey x).code) (hnone : m.board.awaited.presses = [])
    (now : Seconds) :
    (m.step now).fault = none ∧ (m.step now).machine.Running ∧
      m.board.Waits (m.step now).machine.board ∧
      (m.step now).machine.board.keypad.presses = [] := by
  obtain ⟨hb, hfault⟩ := Board.step_awaitKey hrun.2 hf now
  obtain ⟨hboard, hhalted⟩ := step_of_success hrun.1 hfault
  have hnone' : m.board.advanced.awaited.presses = [] := hnone
  rw [hb] at hboard hhalted
  refine ⟨(step_fault hrun.1 now).trans hfault, ⟨hhalted.trans hrun.2, ?_⟩, ?_, ?_⟩
  · rw [hboard]; exact hrun.2
  · rw [hboard]
    refine ⟨⟨rfl, rfl, rfl, rfl⟩, ?_, ?_, ?_⟩
    · simp only [Board.tickTimers, Board.outcome, Board.registersAfter, hnone']
      rfl
    · simp only [Board.tickTimers, Board.outcome, Board.pcAfter, hnone', if_true]
      simp only [Board.advanced]
      omega
    · simp only [Board.tickTimers, Board.outcome, Board.waitingAfter, hnone']
      rfl
  · rw [hboard]
    simp only [Board.tickTimers, Board.outcome, Board.keypadAfter, Keypad.nextPress, hnone']

/-- A step on FX0A that finds presses: the oldest is the answer and the others still wait. -/
theorem step_answered {m : Machine} {x : Register} {log : List Key} (hrun : m.Running)
    (hf : m.board.Fetches (Instruction.awaitKey x).code)
    (hqueue : m.board.awaited.presses = newest log) (hsome : log ≠ []) (now : Seconds) :
    (m.step now).fault = none ∧ m.board.Answered x log (m.step now).machine.board := by
  obtain ⟨hb, hfault⟩ := Board.step_awaitKey hrun.2 hf now
  obtain ⟨hboard, _⟩ := step_of_success hrun.1 hfault
  obtain ⟨key, rest, hnewest⟩ := List.exists_cons_of_ne_nil (mt newest_eq_nil.mp hsome)
  have hpresses : m.board.advanced.awaited.presses = key :: rest := hqueue.trans hnewest
  refine ⟨(step_fault hrun.1 now).trans hfault, ?_⟩
  rw [hboard, hb]
  refine ⟨⟨rfl, rfl, rfl, rfl⟩, ⟨key, rest, hnewest, ?_, ?_⟩, ?_, ?_⟩
  · simp only [Board.tickTimers, Board.outcome, Board.registersAfter, hpresses]
    rfl
  · simp only [Board.tickTimers, Board.outcome, Board.keypadAfter, Keypad.nextPress, hpresses]
  · simp only [Board.tickTimers, Board.outcome, Board.pcAfter, hpresses]
    rfl
  · simp only [Board.tickTimers, Board.outcome, Board.waitingAfter, hpresses]
    rfl

end Machine

/-! ## All through a wait -/

/-- The operations that a wait is made of: steps and the player's moves. -/
def Operation.InWait : Operation → Prop
  | .step _ | .key _ => True
  | _ => False

namespace Machine

/-- The presses that count over operations in order, read from the keys before and after each. -/
def struck (m : Machine) : List Operation → List Key
  | [] => []
  | operation :: rest =>
    m.board.keypad.struck (m.perform operation).board.keypad ++ (m.perform operation).struck rest

/-- No press counts before any of the steps. -/
def Unanswered (m : Machine) (operations : List Operation) : Prop :=
  ∀ before now after, operations = before ++ .step now :: after → m.struck before = []

/-- Nothing goes down by a step. -/
theorem struck_step (m : Machine) (now : Seconds) (rest : List Operation) :
    m.struck (.step now :: rest) = (m.step now).machine.struck rest := by
  have hsame : m.board.keypad.struck (m.step now).machine.board.keypad = [] := by
    rw [Keypad.struck_congr rfl (m.step_down now), Keypad.struck_self]
  rw [struck, perform, hsame, List.nil_append]

theorem struck_append (m : Machine) (operations later : List Operation) :
    m.struck (operations ++ later) =
      m.struck operations ++ (m.performAll operations).struck later := by
  induction operations generalizing m with
  | nil => rfl
  | cons operation rest ih =>
      rw [List.cons_append, struck, struck, ih, List.append_assoc]
      rfl

/-- A machine in a wait that was found on a board and has seen a log of presses since. -/
structure Awaiting (b : Board) (log : List Key) (m : Machine) : Prop where
  /-- Nothing has ended. -/
  running : m.Running
  /-- The wait goes on. -/
  waits : b.Waits m.board
  /-- The newest presses of the log are queued. -/
  queue : m.board.keypad.presses = newest log

variable {b : Board} {log : List Key} {m : Machine}

theorem Awaiting.awaited (h : Awaiting b log m) : m.board.awaited.presses = newest log := by
  rw [Board.awaited, if_pos h.waits.waiting, h.queue]

/-- A step before any press leaves the wait as it is. -/
theorem Awaiting.step {x : Register} (h : Awaiting b [] m)
    (hf : b.Fetches (Instruction.awaitKey x).code) (now : Seconds) :
    Awaiting b [] (m.step now).machine := by
  obtain ⟨_, hrun, hwaits, hqueue⟩ := step_unanswered h.running (h.waits.fetches hf) h.awaited now
  exact ⟨hrun, h.waits.trans hwaits, hqueue⟩

/-- A player's move puts the presses that count into the log. -/
theorem Awaiting.key (h : Awaiting b log m) (event : KeyEvent) :
    Awaiting b (log ++ m.board.keypad.struck (m.board.keypad.handle event))
      (m.perform (.key event)) := by
  refine ⟨h.running, ⟨⟨h.waits.index, h.waits.stack, h.waits.memory, h.waits.pixels⟩,
    h.waits.registers, h.waits.pc, h.waits.waiting⟩, ?_⟩
  have hroom : m.board.keypad.presses.length ≤ pressLimit := by
    rw [h.queue, newest_length]
    exact Nat.min_le_right _ _
  change (m.board.keypad.handle event).presses = _
  rw [Keypad.handle_presses hroom, h.queue, newest_append]

/-- **All through a wait the queue holds the newest presses since it began.** -/
theorem Awaiting.performAll {x : Register} (hf : b.Fetches (Instruction.awaitKey x).code)
    (operations : List Operation) (hall : ∀ operation ∈ operations, operation.InWait)
    (h : Awaiting b log m)
    (hquiet : ∀ before now after, operations = before ++ .step now :: after →
      log ++ m.struck before = []) :
    Awaiting b (log ++ m.struck operations) (m.performAll operations) := by
  induction operations generalizing log m with
  | nil => rw [struck, List.append_nil]; exact h
  | cons operation rest ih =>
      have hrest := fun o ho => hall o (List.mem_cons_of_mem _ ho)
      cases operation with
      | step now =>
          -- no press came before this step, so the log is still empty
          obtain ⟨rfl, _⟩ := List.append_eq_nil_iff.mp (hquiet [] now rest rfl)
          rw [struck_step]
          refine ih hrest (h.step hf now) fun before now' after hsplit => ?_
          rw [← m.struck_step now before]
          exact hquiet (.step now :: before) now' after (by rw [hsplit]; rfl)
      | key event =>
          rw [struck, ← List.append_assoc]
          refine ih hrest (h.key event) fun before now after hsplit => ?_
          rw [List.append_assoc]
          exact hquiet (.key event :: before) now after (by rw [hsplit]; rfl)
      | _ => exact absurd (hall _ List.mem_cons_self) (by simp [Operation.InWait])

/-- The player's moves change the keypad and nothing else. -/
theorem performAll_keys (moves : List KeyEvent) (m : Machine) :
    ∃ keypad, m.performAll (moves.map .key) = m.withKeypad keypad := by
  induction moves generalizing m with
  | nil => exact ⟨m.board.keypad, rfl⟩
  | cons event rest ih =>
      obtain ⟨keypad, hrest⟩ := ih (m.perform (.key event))
      exact ⟨keypad, hrest⟩

/--
**A wait is ended by the first press that counts after it began, and by nothing else.**

The player may move before the first step as well; it forgets what was queued till then. Later steps
leave everything as it is until one comes after a press that counts. That step takes the oldest
press of the newest sixteen. A key that is held down and reported again adds nothing to the log.
-/
theorem awaitKey_protocol {m : Machine} {x : Register} (hrun : m.Running)
    (hidle : m.board.processor.waiting = false)
    (hf : m.board.Fetches (0xF000 + 0x100 * x.val + 0x0A)) (moves : List KeyEvent)
    (now : Seconds) :
    let first := (m.performAll (moves.map .key)).step now
    first.fault = none ∧ m.board.Waits first.machine.board ∧
      first.machine.board.keypad.presses = [] ∧
      ∀ operations, (∀ operation ∈ operations, operation.InWait) →
        first.machine.Unanswered operations →
        let log := first.machine.struck operations
        let here := first.machine.performAll operations
        (∀ key : Key, here.board.keypad.isDown key = true →
          first.machine.struck (operations ++ [.key (.press key.val)]) = log) ∧
        ∀ now', (here.step now').fault = none ∧
          (log = [] → m.board.Waits (here.step now').machine.board ∧
            (here.step now').machine.board.keypad.presses = []) ∧
          (log ≠ [] → m.board.Answered x log (here.step now').machine.board) := by
  intro first
  -- whatever the player did, the first step finds no press
  obtain ⟨keypad, hmoved⟩ := performAll_keys moves m
  have hfirst : first = (m.withKeypad keypad).step now := by rw [← hmoved]
  have hnone : (m.withKeypad keypad).board.awaited.presses = [] := Board.awaited_of_idle hidle
  obtain ⟨hfault, hrun', hgoes, hqueue⟩ :=
    step_unanswered (m := m.withKeypad keypad) (x := x) hrun hf hnone now
  rw [← hfirst] at hfault hrun' hgoes hqueue
  have hwaits : m.board.Waits first.machine.board :=
    ⟨⟨hgoes.index, hgoes.stack, hgoes.memory, hgoes.pixels⟩, hgoes.registers, hgoes.pc,
      hgoes.waiting⟩
  refine ⟨hfault, hwaits, hqueue, ?_⟩
  intro operations hall hquiet log here
  -- from here on the queue keeps up with the log
  have hbegun : Awaiting m.board [] first.machine := ⟨hrun', hwaits, hqueue⟩
  have hawait : Awaiting m.board log here := hbegun.performAll hf operations hall hquiet
  refine ⟨fun key hdown => ?_, fun now' => ?_⟩
  · rw [struck_append]
    change log ++ (here.board.keypad.struck (here.board.keypad.handle (.press key.val)) ++ []) = log
    rw [List.append_nil, Keypad.handle_key, Keypad.struck_press, if_pos hdown, List.append_nil]
  · by_cases hlog : log = []
    · rw [hlog] at hawait ⊢
      obtain ⟨hfault', _, hgoes', hqueue'⟩ :=
        step_unanswered hawait.running (hawait.waits.fetches hf) hawait.awaited now'
      exact ⟨hfault', fun _ => ⟨hawait.waits.trans hgoes', hqueue'⟩, fun hne => absurd rfl hne⟩
    · obtain ⟨hfault', hanswered⟩ :=
        step_answered hawait.running (hawait.waits.fetches hf) hawait.awaited hlog now'
      exact ⟨hfault', fun hnil => absurd hnil hlog, fun _ => .after_waits hawait.waits hanswered⟩

/-- Key 5 is pressed before the wait and held through it; then 2 and 7 go down at once. -/
theorem awaitKey_protocol_held_key :
    let m := (Machine.new (.ofSeed 7) 0.25).perform (.load [0xF3, 0x0A])
    let first := ((m.performAll [.key (.press 5)]).step 0.5).machine
    let operations : List Operation :=
      [.key (.press 5), .step 0.75, .key (.release 5), .key (.setKeys [7, 2])]
    first.struck operations = [2, 7] ∧
      m.board.Answered 3 [2, 7] ((first.performAll operations).step 1.0).machine.board := by
  intro m first operations
  obtain ⟨memory, hload, hm⟩ :=
    (Machine.new (.ofSeed 7) 0.25).perform_load [0xF3, 0x0A] (by decide)
  have hboard : m.board.memory = memory ∧ m.board.processor = {} ∧ m.board.keypad = {} ∧
      m.Running := by
    unfold Running
    simp only [m, hm]
    exact ⟨trivial, rfl, rfl, rfl, rfl⟩
  obtain ⟨hmemory, hprocessor, hkeypad, hrun⟩ := hboard
  have hf : m.board.Fetches 0xF30A := by
    have h := Memory.fetch_load hload (k := 0) (by decide) (by decide)
    refine ⟨0xF30A, ?_, rfl⟩
    rw [hmemory, hprocessor]
    exact h
  clear_value m
  have hdown : first.board.keypad.down = (Keypad.press {} 5).down := by
    rw [← hkeypad]
    exact step_down _ _
  have hheld : first.struck [.key (.press 5)] = [] := by
    change first.board.keypad.struck (first.board.keypad.handle (.press (5 : Key).val)) ++ [] = []
    rw [Keypad.handle_key, Keypad.struck_press, Keypad.isDown, hdown]
    rfl
  have hlog : first.struck operations = [2, 7] := by
    have hkeys : ∀ k : Keypad, k.down = (Keypad.press {} 5).down →
        k.struck (k.release 5) ++ ((k.release 5).struck ((k.release 5).setKeys [7, 2]) ++ []) =
          [2, 7] := by
      intro k hk
      have hup : ∀ key, (k.release 5).isDown key = false := by
        intro key
        rw [Keypad.isDown_release, Keypad.isDown, hk]
        revert key
        decide
      rw [Keypad.struck_release, Keypad.struck_setKeys]
      simp only [hup]
      decide
    have hsplit := first.struck_append [.key (.press 5)] (operations.drop 1)
    rw [hheld, List.nil_append] at hsplit
    refine hsplit.trans ((struck_step _ _ _).trans (hkeys _ ?_))
    rw [step_down]
    change (first.board.keypad.handle (.press (5 : Key).val)).down = _
    rw [Keypad.handle_key, Keypad.press, hdown]
    rfl
  have hquiet : first.Unanswered operations := by
    intro before now after hsplit
    rcases before with _ | ⟨move, _ | ⟨second, rest⟩⟩
    · rfl
    · rw [← (List.cons.inj hsplit).1]; exact hheld
    · have hmem : Operation.step now ∈ operations.drop 2 := by
        rw [hsplit]
        simp
      simp [operations] at hmem
  obtain ⟨_, _, _, hlater⟩ := awaitKey_protocol (x := 3) hrun (by rw [hprocessor]) hf [.press 5] 0.5
  obtain ⟨_, hstep⟩ :=
    hlater operations (by simp [operations, Operation.InWait]) hquiet
  obtain ⟨_, _, hanswered⟩ := hstep 1.0
  change first.struck operations ≠ [] → m.board.Answered 3 (first.struck operations) _ at hanswered
  rw [hlog] at hanswered
  exact ⟨hlog, hanswered (by simp)⟩

end Machine

end ChipEight
