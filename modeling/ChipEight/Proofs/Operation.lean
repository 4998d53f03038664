import ChipEight.Run

/-!
# What can be done to a machine

Whoever holds a machine can step it, run it, press its keys, set its timers, load another program
or reset a part of it, in any order and as often as wanted. `Operation` lists these, and
`Machine.perform` says what each does. A request that the machine turns down, such as a program
that is too large or a key that does not exist, leaves it as it is; so does nothing here fail.

Every operation that looks at the clock carries what the clock shows. So time may pass in any way
between two operations, and a run carries the readings of all its steps.
-/

namespace ChipEight

open Number

/-- What a player does to a keypad. -/
inductive KeyEvent
  | press (key : Int)
  | release (key : Int)
  | setKeys (held : List Int)
  deriving DecidableEq, Repr

/-- The keypad after a player's move; a key that does not exist is turned down. -/
def Keypad.handle (k : Keypad) : KeyEvent → Keypad
  | .press key =>
    match Key.ofInt key with
    | .ok key => k.press key
    | .error _ => k
  | .release key =>
    match Key.ofInt key with
    | .ok key => k.release key
    | .error _ => k
  | .setKeys held => k.setKeys held

/-- What is done to one timer. -/
inductive TimerEvent
  | set (value : Int)
  | tick
  | reset
  deriving DecidableEq, Repr

/-- The timer after an event at a moment. -/
def Timer.handle (t : Timer Seconds) (now : Seconds) : TimerEvent → Timer Seconds
  | .set value => t.set value now
  | .tick => (t.tick now).2
  | .reset => t.reset now

/-- The clock that shows a sequence of readings. -/
def clockOf (readings : Nat → Seconds) : Clock Nat := fun k => (readings k, k + 1)

/-- What is done to a machine. -/
inductive Operation
  | step (now : Seconds)
  | stepProcessor (now : Seconds)
  | run (options : RunOptions) (readings : Nat → Seconds) (schedule : Schedule) (turns : Nat)
  | key (event : KeyEvent)
  | clearKeypad
  | delay (now : Seconds) (event : TimerEvent)
  | sound (now : Seconds) (event : TimerEvent)
  | tickTimers (now : Seconds)
  | load (program : List UInt8)
  | resetProcessor
  | reset (now : Seconds)
  | listen (listener : Int)
  | unlisten (listener : Int)

namespace Machine

/-- The machine with another keypad. -/
def withKeypad (m : Machine) (keypad : Keypad) : Machine :=
  { m with board := { m.board with keypad } }

/-- The machine after an operation. -/
def perform (m : Machine) : Operation → Machine
  | .step now => (m.step now).machine
  | .stepProcessor now => { m with board := (m.board.step now).board }
  | .run options readings schedule turns =>
    (Bench.run (clockOf readings) options turns
      { machine := m, clock := 0, schedule }).1.bench.machine
  | .key event => m.withKeypad (m.board.keypad.handle event)
  | .clearKeypad => m.withKeypad m.board.keypad.clear
  | .delay now event => { m with board := { m.board with delay := m.board.delay.handle now event } }
  | .sound now event => { m with board := { m.board with sound := m.board.sound.handle now event } }
  | .tickTimers now => m.tickTimers now
  | .load program =>
    match m.load program with
    | .ok loaded => loaded
    | .error _ => m
  | .resetProcessor => { m with board := { m.board with processor := {} } }
  | .reset now => m.reset now
  | .listen listener => m.listen listener
  | .unlisten listener =>
    match m.unlisten listener with
    | .ok changed => changed
    | .error _ => m

/-- The machine after operations in order. -/
def performAll (m : Machine) (operations : List Operation) : Machine :=
  operations.foldl perform m

/-- A program that is not too large is placed and remembered. -/
theorem perform_load (m : Machine) (program : List UInt8) (h : program.length ≤ programLimit) :
    ∃ memory, m.board.memory.load program = .ok memory ∧
      m.perform (.load program) = { m with board := { m.board with memory }, program } := by
  have hload : m.board.memory.load program = .ok _ := if_pos h
  exact ⟨_, hload, by simp only [perform, load, hload]⟩

/-- A load is made in full or not at all. -/
theorem perform_load_cases (m : Machine) (program : List UInt8) :
    (program.length ≤ programLimit ∧ ∃ memory, m.board.memory.load program = .ok memory ∧
      m.perform (.load program) = { m with board := { m.board with memory }, program }) ∨
    (¬ program.length ≤ programLimit ∧
      m.board.memory.load program = .error (.programTooLarge program.length) ∧
      m.perform (.load program) = m) := by
  by_cases h : program.length ≤ programLimit
  · exact Or.inl ⟨h, m.perform_load program h⟩
  · have hload : m.board.memory.load program = .error (.programTooLarge program.length) := if_neg h
    exact Or.inr ⟨h, hload, by simp only [perform, load, hload]⟩

/-- Removing a listener changes the listeners at most. -/
theorem perform_unlisten (m : Machine) (listener : Int) :
    ∃ listeners, m.perform (.unlisten listener) = { m with listeners } := by
  simp only [perform, unlisten]
  split
  · rename_i changed hchanged
    split at hchanged
    · exact ⟨_, (Except.ok.inj hchanged).symm⟩
    · exact absurd hchanged (by simp)
  · exact ⟨m.listeners, rfl⟩

end Machine

/-- The machines that allowed operations lead to from a new one, whatever its buzzer, its rate and
its source of random numbers. -/
inductive Reachable (Allowed : Operation → Prop) : Machine → Prop
  | new (random : RandomSource) (now : Seconds) (buzzer : Buzzer) (rate : Quantity) :
      Reachable Allowed { Machine.new random now with buzzer, rate }
  | after {m : Machine} {operation : Operation} :
      Reachable Allowed m → Allowed operation → Reachable Allowed (m.perform operation)

/-- Every operation is allowed. -/
def Anything (_ : Operation) : Prop := True

/-- What can be reached can be reached further, any number of operations on. -/
theorem Reachable.performAll {Allowed : Operation → Prop} (operations : List Operation)
    (hall : ∀ operation ∈ operations, Allowed operation) {m : Machine}
    (h : Reachable Allowed m) : Reachable Allowed (m.performAll operations) := by
  induction operations generalizing m with
  | nil => exact h
  | cons operation rest ih =>
      rw [Machine.performAll, List.foldl_cons]
      refine ih (fun o ho => hall o (List.mem_cons_of_mem _ ho)) ?_
      exact .after h (hall operation List.mem_cons_self)

/-! ## What steps keep, runs keep -/

variable {σ : Type}

/-- **A run keeps whatever a step at any moment keeps**, if a recorded fault does not matter. -/
theorem Run.loop_keeps {P : Machine → Prop}
    (hstep : ∀ m now, P m → P (m.step now).machine)
    (hfault : ∀ m fault, P m → P (m.recordFault fault))
    (ask : Clock σ) (o : RunOptions) :
    ∀ (turns : Nat) (r : Run σ), P r.bench.machine →
      P (Run.loop ask o turns r).1.bench.machine := by
  have hturn : ∀ r : Run σ, P r.bench.machine → P (r.turn ask o).1.bench.machine := by
    intro r h
    have hs := hstep r.bench.machine (ask r.bench.clock).1 h
    unfold Run.turn
    -- halted, faulted, stopped or out of budget: the machine is not touched
    split
    · exact h
    split
    · exact h
    split
    · exact h
    split
    · exact h
    split
    · rename_i bench fault heq
      have hb : bench.machine = (r.bench.machine.step (ask r.bench.clock).1).machine := by
        rw [show bench = (r.bench.step ask).1 by rw [heq]]; rfl
      exact hfault _ _ (hb ▸ hs)
    · rename_i bench heq
      have hb : bench.machine = (r.bench.machine.step (ask r.bench.clock).1).machine := by
        rw [show bench = (r.bench.step ask).1 by rw [heq]]; rfl
      -- pacing touches the schedule alone
      unfold Run.pace
      split
      · split <;> exact hb ▸ hs
      · exact hb ▸ hs
  intro turns
  induction turns with
  | zero => intro r h; exact h
  | succ n ih =>
    intro r h
    rw [Run.loop]
    have ht := hturn r h
    split
    · rename_i heq; rw [heq] at ht; exact ht
    · rename_i heq; rw [heq] at ht; exact ih _ ht

/-- The same for a run from its beginning, which first anchors the schedule. -/
theorem Bench.run_keeps {P : Machine → Prop}
    (hstep : ∀ m now, P m → P (m.step now).machine)
    (hfault : ∀ m fault, P m → P (m.recordFault fault))
    (ask : Clock σ) (o : RunOptions) (turns : Nat) {b : Bench σ} (h : P b.machine) :
    P (b.run ask o turns).1.bench.machine := by
  unfold Bench.run
  split
  · exact h
  · exact Run.loop_keeps hstep hfault ask o turns _ h

end ChipEight
