import ChipEight.Headless
import ChipEight.Inspector
import ChipEight.Proofs.Ending
import Mathlib.Algebra.GroupWithZero.Nat

/-!
# The drivers agree

There are four ways to have a machine take n steps: one run by a budget of n, several runs by
budgets that add up to n, a frame of a window, and a session without a window. Each has a loop of its
own, and they look at the halt, the fault and the budget in different places and orders. `drive` is
what they all come to: n steps, fewer if the machine halts or a step faults, and the fault kept.

The runs are read off their first reason to end, which `Bench.Ends` says of the machine alone. A
frame is n runs by a budget of one each, so it is a case of several runs; that is where `drive_add`
is needed, and with it that a machine which came to its end stays there. A session is gone through
turn by turn.

Every run begins with a calculation by the rate, and a session does not. At a rate that is no number
the calculation fails. The request for a positive rate does not turn such a rate down, so there the
four ways part.
-/

namespace ChipEight

open Number

variable {σ ω : Type} {ask : Clock σ}

/-- What driving a machine comes to: the machine, the clock as far as it was read, and how many
steps succeeded. -/
structure Driven (σ : Type) where
  machine : Machine
  clock : σ
  steps : Nat

namespace Driven

/-- A machine at work was left where the driving came to. -/
def Left (d : Driven σ) (b : Bench σ) : Prop := b.machine = d.machine ∧ b.clock = d.clock

/-- One successful step before the rest. -/
def afterStep (d : Driven σ) : Driven σ := { d with steps := d.steps + 1 }

end Driven

/-! ## Steps until the machine comes to an end -/

/-- The machine came to its end: it is halted or keeps a fault. -/
def Machine.over (m : Machine) : Bool := m.halted || m.fault.isSome

theorem Machine.over_eq_false {m : Machine} :
    m.over = false ↔ m.halted = false ∧ m.fault = none := by
  rw [Machine.over, Bool.or_eq_false_iff, Option.isSome_eq_false_iff, Option.isNone_iff_eq_none]

theorem Machine.over_of_fault {m : Machine} (h : m.fault.isSome = true) : m.over = true := by
  rw [Machine.over, h, Bool.or_true]

theorem Machine.AtWork.over {m : Machine} {memory : Memory} {pc : Int} (h : m.AtWork memory pc) :
    m.over = false := over_eq_false.mpr ⟨h.running, h.fault⟩

/-- A number of steps, fewer if the machine comes to its end. -/
def drive (ask : Clock σ) : Nat → Machine → σ → Driven σ
  | 0, m, clock => ⟨m, clock, 0⟩
  | n + 1, m, clock =>
    if m.over then ⟨m, clock, 0⟩
    else
      let (now, clock) := ask clock
      let attempt := m.step now
      match attempt.fault with
      | some fault => ⟨attempt.machine.recordFault fault, clock, 0⟩
      | none => (drive ask n attempt.machine clock).afterStep

section Drive

variable {m : Machine} {clock : σ} {fault : Fault}

theorem drive_over (h : m.over = true) (n : Nat) : drive ask n m clock = ⟨m, clock, 0⟩ := by
  cases n with
  | zero => rfl
  | succ n => rw [drive, if_pos h]

theorem drive_fault (hrun : m.over = false) (h : (m.step (ask clock).1).fault = some fault)
    (n : Nat) :
    drive ask (n + 1) m clock =
      ⟨(m.step (ask clock).1).machine.recordFault fault, (ask clock).2, 0⟩ := by
  simp only [drive, hrun, h, Bool.false_eq_true, if_false]

theorem drive_step (hrun : m.over = false) (h : (m.step (ask clock).1).fault = none) (n : Nat) :
    drive ask (n + 1) m clock =
      (drive ask n (m.step (ask clock).1).machine (ask clock).2).afterStep := by
  simp only [drive, hrun, h, Bool.false_eq_true, if_false]

/-- **Driving for two numbers of steps in turn is driving for their sum.** -/
theorem drive_add (j n : Nat) (m : Machine) (clock : σ) :
    let d := drive ask j m clock
    drive ask (j + n) m clock =
      { drive ask n d.machine d.clock with
        steps := d.steps + (drive ask n d.machine d.clock).steps } := by
  induction j generalizing m clock with
  | zero =>
      simp only [drive, Nat.zero_add]
  | succ j ih =>
      rw [Nat.add_right_comm]
      cases hover : m.over with
      | true =>
          simp only [drive_over hover, Nat.zero_add]
      | false =>
          cases hfault : (m.step (ask clock).1).fault with
          | some fault =>
              -- what faulted stays where it is
              have hstays : ((m.step (ask clock).1).machine.recordFault fault).over = true :=
                Machine.over_of_fault rfl
              simp only [drive_fault hover hfault, drive_over hstays, Nat.zero_add]
          | none =>
              simp only [drive_step hover hfault, ih, Driven.afterStep]
              rw [Nat.add_right_comm]

/-- The machine counts the steps that succeed. -/
theorem Machine.step_steps (hrun : m.halted = false) (now : Seconds) :
    (m.step now).machine.steps = if (m.step now).fault = none then m.steps + 1 else m.steps := by
  rcases m.step_cases now with ⟨hhalted, _⟩ | ⟨_, fault, _, hs, hm⟩ | ⟨_, _, hs, hm⟩
  · rw [hrun] at hhalted; exact absurd hhalted (by simp)
  · rw [hm, hs, if_neg (by simp)]
  · rw [hm, hs, if_pos rfl, Machine.publish_eq]
    rfl

/-- What driving keeps: the rate; and it moves the machine's own count by its steps. -/
theorem drive_keeps (ask : Clock σ) (n : Nat) (m : Machine) (clock : σ) :
    let d := drive ask n m clock
    d.machine.rate = m.rate ∧ d.machine.steps = m.steps + d.steps := by
  induction n generalizing m clock with
  | zero => exact ⟨rfl, rfl⟩
  | succ n ih =>
      intro d
      cases hover : m.over with
      | true => rw [show d = ⟨m, clock, 0⟩ from drive_over hover _]; exact ⟨rfl, rfl⟩
      | false =>
          have hrun : m.halted = false := (Machine.over_eq_false.mp hover).1
          have hrate := (m.step_untouched (ask clock).1).2.1
          have hsteps := Machine.step_steps hrun (ask clock).1
          cases hfault : (m.step (ask clock).1).fault with
          | some fault =>
              rw [hfault, if_neg (by simp)] at hsteps
              rw [show d = _ from drive_fault hover hfault n]
              exact ⟨hrate, hsteps⟩
          | none =>
              rw [hfault, if_pos rfl] at hsteps
              obtain ⟨hrate', hsteps'⟩ := ih (m.step (ask clock).1).machine (ask clock).2
              rw [show d = _ from drive_step hover hfault n]
              refine ⟨hrate'.trans hrate, ?_⟩
              change (drive ask n _ _).machine.steps = _
              rw [hsteps', hsteps, Nat.add_assoc, Nat.add_comm 1]
              rfl

/-- Wherever driving comes to, runs still begin. -/
theorem Driven.Left.isNumber {n : Nat} {b : Bench σ} (h : (drive ask n m clock).Left b)
    (hnumber : m.rate.IsNumber) : b.machine.rate.IsNumber := by
  rw [h.1, (drive_keeps ask n m clock).1]
  exact hnumber

end Drive

/-! ## Runs -/

namespace RunOptions

/-- The budget is n steps more than k, and nobody asks to stop. -/
structure Allows (o : RunOptions) (k n : Nat) : Prop where
  budget : o.budget = some ((k + n : Nat) : Int)
  stop : o.stop = none

variable {o : RunOptions} {k n : Nat}

theorem Allows.stops (h : o.Allows k n) (j : Nat) : o.stops j = false := by
  rw [RunOptions.stops, h.stop]

theorem Allows.spent (h : o.Allows k n) : o.spent k = decide (n = 0) := by
  rw [RunOptions.spent, h.budget]
  dsimp only
  congr 1
  rw [Int.ofNat_le]
  exact propext (by omega)

theorem Allows.next (h : o.Allows k (n + 1)) : o.Allows (k + 1) n where
  budget := by rw [h.budget, Nat.add_assoc, Nat.add_comm 1]
  stop := h.stop

end RunOptions

namespace Bench

variable {b : Bench σ} {o : RunOptions} {k : Nat}

/-- With a reason to end driving comes to what the last turn leaves. -/
theorem drive_due {n : Nat} (hallows : o.Allows k n) (hfault : b.machine.fault = none)
    (hdue : b.Due ask o k) :
    (drive ask n b.machine b.clock).Left (b.closed ask o k) ∧
      (drive ask n b.machine b.clock).steps = 0 := by
  have hover : b.machine.over = b.machine.halted := by
    rw [Machine.over, hfault]
    exact Bool.or_false _
  rcases closed_cases hdue with ⟨hreason, _, hclosed⟩ |
      ⟨hhalted, hspent, _, fault, hstep, hclosed⟩
  · -- nothing was attempted: the machine is halted or the budget used up
    have hstays : drive ask n b.machine b.clock = ⟨b.machine, b.clock, 0⟩ := by
      rcases hreason with hhalted | hstop | hspent
      · exact drive_over (hover.trans hhalted) n
      · rw [hallows.stops] at hstop; exact absurd hstop (by simp)
      · rw [hallows.spent] at hspent
        rw [of_decide_eq_true hspent]
        rfl
    rw [hstays, hclosed]
    exact ⟨⟨rfl, rfl⟩, rfl⟩
  · -- a step was attempted, so one more was allowed
    rw [hallows.spent] at hspent
    obtain ⟨n, rfl⟩ := Nat.exists_eq_add_one_of_ne_zero (of_decide_eq_false hspent)
    rw [drive_fault (hover.trans hhalted) hstep, hclosed]
    exact ⟨⟨rfl, rfl⟩, rfl⟩

/-- **A machine that may take n steps more has a first reason to end by then**, and driving comes to
what the last turn of a run leaves there. -/
theorem ends_drive (ask : Clock σ) (n : Nat) {b : Bench σ} {k : Nat} (hallows : o.Allows k n)
    (hfault : b.machine.fault = none) :
    ∃ j last, j ≤ n ∧ b.Ends ask o k j last ∧
      (drive ask n b.machine b.clock).Left (last.closed ask o (k + j)) ∧
      (drive ask n b.machine b.clock).steps = j := by
  induction n generalizing b k with
  | zero =>
      have hdue : b.Due ask o k := Or.inr (Or.inr (Or.inl (by rw [hallows.spent]; rfl)))
      exact ⟨0, b, Nat.le_refl 0, .now hdue, drive_due hallows hfault hdue⟩
  | succ n ih =>
      by_cases hdue : b.Due ask o k
      · exact ⟨0, b, Nat.zero_le _, .now hdue, drive_due hallows hfault hdue⟩
      · have hstep : (b.step ask).2 = none := not_due_step hdue
        have hfault' : (b.step ask).1.machine.fault = none := b.step_machine_fault.trans hfault
        obtain ⟨j, last, hj, hends, hleft, hsteps⟩ := ih hallows.next hfault'
        have hover : b.machine.over = false := by
          rw [Bench.Due, not_or, Bool.not_eq_true] at hdue
          exact Machine.over_eq_false.mpr ⟨hdue.1, hfault⟩
        refine ⟨j + 1, last, Nat.succ_le_succ hj, hends.later hdue, ?_⟩
        rw [drive_step hover hstep, Nat.add_comm j, ← Nat.add_assoc]
        exact ⟨hleft, by rw [Nat.add_comm 1]; exact congrArg (· + 1) hsteps⟩

/-- **A run by a budget comes to what driving comes to**, unless it is paced and pacing fails. -/
theorem run_drive (ask : Clock σ) (throttle : Bool) (n : Nat) {turns : Nat} (hturns : n < turns)
    (b : Bench σ) (hnumber : b.machine.rate.IsNumber) :
    (∃ r ending, b.run ask { budget := some n, throttle } turns = (r, some ending) ∧
      ending.Returns ∧ (drive ask n b.machine b.clock).Left r.bench ∧
      r.steps = (drive ask n b.machine b.clock).steps) ∨
    (throttle = true ∧ ∃ r trouble,
      b.run ask { budget := some n, throttle } turns = (r, some (.failed trouble))) := by
  have hreset := b.schedule.reset_zero hnumber
  rw [run_eq_loop hreset]
  cases hover : b.machine.over with
  | true =>
      obtain ⟨turns, rfl⟩ := Nat.exists_eq_succ_of_ne_zero (Nat.ne_of_gt (Nat.zero_lt_of_lt hturns))
      refine Or.inl ⟨_, _, loop_of_idle (Bool.or_eq_true_iff.mp hover), ?_, ?_⟩
      · split <;> trivial
      · rw [drive_over hover]
        exact ⟨⟨rfl, rfl⟩, rfl⟩
  | false =>
      have hfault : b.machine.fault = none := (Machine.over_eq_false.mp hover).2
      have hallows : RunOptions.Allows { budget := some n, throttle } 0 n :=
        ⟨by rw [Nat.zero_add], rfl⟩
      obtain ⟨j, last, hj, hends, hleft, hsteps⟩ := ends_drive ask n hallows hfault
      rcases Run.loop_of_ends turns hfault
          { b.schedule with pacer := Pacer.anchor b.schedule.now 0 } hends
          (Nat.lt_of_le_of_lt hj hturns) with ⟨schedule, hloop⟩ | hfailed
      · refine Or.inl ⟨_, _, hloop, verdict_returns _ _ _, hleft, ?_⟩
        rw [hsteps]
        exact Nat.zero_add j
      · exact Or.inr hfailed

/-- No run begins at a rate that is no number. -/
theorem run_undefined (o : RunOptions) (turns : Nat) {b : Bench σ}
    (h : ¬ b.machine.rate.IsNumber) :
    b.run ask o turns = ({ bench := b }, some (.failed .undefinedToWhole)) := by
  rw [run, b.schedule.reset_undefined h]

/-- Runs by budgets in turn, as long as pacing does not fail, and how many steps they took. -/
def runAll (ask : Clock σ) (throttle : Bool) : List Nat → Bench σ → Except Trouble (Bench σ × Nat)
  | [], b => .ok (b, 0)
  | budget :: rest, b =>
    match b.run ask { budget := some budget, throttle } (budget + 1) with
    | (_, some (.failed trouble)) => .error trouble
    | (r, _) => (runAll ask throttle rest r.bench).map fun (b, steps) => (b, r.steps + steps)

/-- A run that returned is followed by the others. -/
theorem runAll_cons {throttle : Bool} {budget : Nat} {b : Bench σ} {r : Run σ} {ending : Ending}
    (h : b.run ask { budget := some budget, throttle } (budget + 1) = (r, some ending))
    (hreturns : ending.Returns) (rest : List Nat) :
    b.runAll ask throttle (budget :: rest) =
      (r.bench.runAll ask throttle rest).map fun (b, steps) => (b, r.steps + steps) := by
  rw [runAll, h]
  cases ending with
  | failed trouble => exact hreturns.elim
  | halted => rfl
  | stopped => rfl
  | exhausted => rfl
  | faulted => rfl

/-- **Runs by budgets come to what driving comes to for the sum of the budgets**, unless they are
paced and pacing fails. -/
theorem runAll_drive (ask : Clock σ) (throttle : Bool) (budgets : List Nat) (b : Bench σ)
    (hnumber : b.machine.rate.IsNumber) :
    (∃ b', b.runAll ask throttle budgets =
        .ok (b', (drive ask budgets.sum b.machine b.clock).steps) ∧
      (drive ask budgets.sum b.machine b.clock).Left b') ∨
    (throttle = true ∧ ∃ trouble, b.runAll ask throttle budgets = .error trouble) := by
  induction budgets generalizing b with
  | nil => exact Or.inl ⟨b, rfl, rfl, rfl⟩
  | cons budget rest ih =>
      rcases run_drive ask throttle budget (Nat.lt_succ_self budget) b hnumber with
        ⟨r, ending, hrun, hreturns, hleft, hsteps⟩ | ⟨hthrottle, r, trouble, hrun⟩
      · rw [runAll_cons hrun hreturns, List.sum_cons, drive_add, ← hleft.1, ← hleft.2, ← hsteps]
        rcases ih r.bench (hleft.isNumber hnumber) with
          ⟨b', hrest, hleft'⟩ | ⟨hthrottle, trouble, hrest⟩
        · rw [hrest]
          exact Or.inl ⟨b', rfl, hleft'⟩
        · rw [hrest]
          exact Or.inr ⟨hthrottle, trouble, rfl⟩
      · refine Or.inr ⟨hthrottle, trouble, ?_⟩
        rw [runAll, hrun]

end Bench

/-! ## Frames of a window -/

namespace Inspector

/-- A machine that came to its end stays as it is, and nothing is noted down. -/
theorem runSteps_over {b : Bench σ} (hover : b.machine.over = true) (n : Nat) (i : Inspector) :
    runSteps ask n i b = (i, b, none) := by
  cases n with
  | zero => rfl
  | succ n =>
      rw [runSteps]
      exact if_pos hover

/-- A turn of a frame that is left to a run notes its address down and goes on after it, unless the
run leaves a fault. -/
theorem runSteps_of_run {b : Bench σ} {r : Run σ} {ending : Ending} (hover : b.machine.over = false)
    (h : b.run ask { budget := some 1, throttle := false } 2 = (r, some ending))
    (hreturns : ending.Returns) (n : Nat) (i : Inspector) :
    runSteps ask (n + 1) i b =
      if r.bench.machine.fault.isSome then
        (i.record b.machine.board.processor.pc, r.bench, none)
      else runSteps ask n (i.record b.machine.board.processor.pc) r.bench := by
  rw [Machine.over] at hover
  rw [runSteps, hover, h]
  cases ending with
  | failed trouble => exact hreturns.elim
  | halted => rfl
  | stopped => rfl
  | exhausted => rfl
  | faulted => rfl

/-- **A frame comes to what driving comes to.** -/
theorem runSteps_drive (ask : Clock σ) (n : Nat) (i : Inspector) (b : Bench σ)
    (hnumber : b.machine.rate.IsNumber) :
    ∃ i' b', runSteps ask n i b = (i', b', none) ∧ (drive ask n b.machine b.clock).Left b' := by
  induction n generalizing i b with
  | zero => exact ⟨i, b, rfl, rfl, rfl⟩
  | succ n ih =>
      cases hover : b.machine.over with
      | true =>
          refine ⟨i, b, runSteps_over hover (n + 1) i, ?_⟩
          rw [drive_over hover]
          exact ⟨rfl, rfl⟩
      | false =>
          rcases Bench.run_drive ask false 1 (Nat.lt_succ_self 1) b hnumber with
            ⟨r, ending, hrun, hreturns, hleft, _⟩ | ⟨hthrottle, _⟩
          · rw [runSteps_of_run hover hrun hreturns, Nat.add_comm n, drive_add, ← hleft.1,
              ← hleft.2]
            cases hfault : r.bench.machine.fault.isSome with
            | true =>
                rw [drive_over (Machine.over_of_fault hfault)]
                exact ⟨_, r.bench, rfl, rfl, rfl⟩
            | false =>
                obtain ⟨i', b', hrest, hleft'⟩ :=
                  ih (i.record b.machine.board.processor.pc) r.bench (hleft.isNumber hnumber)
                exact ⟨i', b', hrest, hleft'⟩
          · exact absurd hthrottle (by simp)

/-- A frame without a limit on all steps takes as many as are wanted. -/
theorem runFrame_drive (ask : Clock σ) (n : Nat) (i : Inspector) (b : Bench σ)
    (hnumber : b.machine.rate.IsNumber) :
    ∃ i' b', runFrame ask n none i b = (i', b', none) ∧
      (drive ask n b.machine b.clock).Left b' :=
  runSteps_drive ask n i b hnumber

end Inspector

/-! ## Sessions without a window -/

/-- The fault that a session ended by. -/
def Finish.fault? : Finish → Option Fault
  | .fault cause => some cause
  | _ => none

theorem Finish.eq_of_fault? {finish : Finish} {fault : Fault} (h : finish.fault? = some fault) :
    finish = .fault fault := by
  cases finish with
  | fault cause => exact congrArg _ (Option.some.inj h)
  | _ => exact absurd h (by simp [Finish.fault?])

namespace Session

variable {askWall : Clock ω} {s : Session σ ω} {n : Nat}

/-- The conditions of a session that only a budget of n steps more can end, besides the machine
itself. -/
def budgetOf (s : Session σ ω) (n : Nat) : StopConditions :=
  { budget := some ((s.steps + n : Nat) : Int) }

/-- The budget after a step is what is left of it. -/
theorem budgetOf_next (s : Session σ ω) (n : Nat) (bench : Bench σ) :
    ({ s with bench, steps := s.steps + 1 } : Session σ ω).budgetOf n = s.budgetOf (n + 1) := by
  rw [budgetOf, budgetOf, Nat.add_right_comm]
  rfl

theorem finishBefore_budgetOf (s : Session σ ω) (n : Nat) :
    s.finishBefore (s.budgetOf n) =
      if s.bench.machine.halted then some .halted else if n = 0 then some .budget else none := by
  have hspent : (s.budgetOf n).spent s.steps = decide (n = 0) := by
    change decide (((s.steps + n : Nat) : Int) ≤ (s.steps : Int)) = _
    congr 1
    exact propext (by omega)
  rw [finishBefore, hspent]
  simp [budgetOf]

/-- A session that ends before a step leaves everything as it is. -/
theorem turn_finished {c : StopConditions} {finish : Finish} (h : s.finishBefore c = some finish) :
    s.turn ask askWall c = (s, some finish) := by
  rw [turn, attempt, h]

/-- With budget left a turn is a step. Nobody is asked at a prompt and no time is over. -/
theorem turn_step (ask : Clock σ) (askWall : Clock ω) (hrun : s.bench.machine.halted = false)
    (n : Nat) :
    s.turn ask askWall (s.budgetOf (n + 1)) =
      match s.bench.step ask with
      | (bench, some fault) =>
        ({ s with bench := { bench with machine := bench.machine.recordFault fault } },
          some (.fault fault))
      | (bench, none) => ({ s with bench, steps := s.steps + 1 }, none) := by
  have hbefore : s.finishBefore (s.budgetOf (n + 1)) = none := by
    rw [finishBefore_budgetOf, hrun]
    rfl
  rw [turn, attempt, hbefore]
  rcases s.bench.step ask with ⟨bench, _ | fault⟩
  · rfl
  · rfl

/-- **A session that only a budget can end comes to what driving comes to**, and it ends by a fault
exactly if the machine keeps one. -/
theorem loop_drive (ask : Clock σ) (askWall : Clock ω) (n : Nat) {turns : Nat}
    (hturns : n < turns) (s : Session σ ω) (hfault : s.bench.machine.fault = none) :
    ∃ s' finish,
      loop ask askWall (s.budgetOf n) turns s = (s', some finish) ∧
      (drive ask n s.bench.machine s.bench.clock).Left s'.bench ∧
      s'.steps = s.steps + (drive ask n s.bench.machine s.bench.clock).steps ∧
      finish.fault? = (drive ask n s.bench.machine s.bench.clock).machine.fault := by
  induction n generalizing s turns with
  | zero =>
      obtain ⟨turns, rfl⟩ := Nat.exists_eq_succ_of_ne_zero (Nat.ne_of_gt hturns)
      obtain ⟨finish, hbefore, hnone⟩ :
          ∃ finish, s.finishBefore (s.budgetOf 0) = some finish ∧ finish.fault? = none := by
        rw [finishBefore_budgetOf]
        cases s.bench.machine.halted with
        | true => exact ⟨.halted, rfl, rfl⟩
        | false => exact ⟨.budget, rfl, rfl⟩
      refine ⟨s, finish, ?_, ⟨rfl, rfl⟩, rfl, hnone.trans hfault.symm⟩
      rw [loop, turn_finished hbefore]
  | succ n ih =>
      obtain ⟨turns, rfl⟩ := Nat.exists_eq_succ_of_ne_zero (Nat.ne_of_gt (Nat.zero_lt_of_lt hturns))
      cases hhalted : s.bench.machine.halted with
      | true =>
          have hbefore : s.finishBefore (s.budgetOf (n + 1)) = some .halted := by
            rw [finishBefore_budgetOf, hhalted]
            rfl
          have hover : s.bench.machine.over = true := by
            rw [Machine.over, hhalted]
            rfl
          rw [drive_over hover]
          refine ⟨s, .halted, ?_, ⟨rfl, rfl⟩, rfl, hfault.symm⟩
          rw [loop, turn_finished hbefore]
      | false =>
          have hover : s.bench.machine.over = false :=
            Machine.over_eq_false.mpr ⟨hhalted, hfault⟩
          have hturn := turn_step ask askWall hhalted n
          rcases hattempt : s.bench.step ask with ⟨bench, _ | fault⟩
          · have hstep : (s.bench.machine.step (ask s.bench.clock).1).fault = none :=
              congrArg Prod.snd hattempt
            have hbench : (s.bench.step ask).1 = bench := congrArg Prod.fst hattempt
            have hfault' : bench.machine.fault = none := by
              rw [← hbench]
              exact s.bench.step_machine_fault.trans hfault
            obtain ⟨s', finish, hloop, hleft, hsteps, hfinish⟩ :=
              ih (Nat.lt_of_succ_lt_succ hturns) { s with bench, steps := s.steps + 1 } hfault'
            rw [budgetOf_next] at hloop
            rw [hattempt] at hturn
            rw [drive_step hover hstep]
            rw [← hbench] at hleft hsteps hfinish
            refine ⟨s', finish, ?_, hleft, ?_, hfinish⟩
            · rw [loop, hturn]
              exact hloop
            · exact hsteps.trans (Nat.add_right_comm s.steps 1 _)
          · have hstep : (s.bench.machine.step (ask s.bench.clock).1).fault = some fault :=
              congrArg Prod.snd hattempt
            have hbench : (s.bench.step ask).1 = bench := congrArg Prod.fst hattempt
            rw [hattempt, ← hbench] at hturn
            rw [drive_fault hover hstep]
            have hloop : loop ask askWall (s.budgetOf (n + 1)) (turns + 1) s =
                ({ s with
                  bench := { (s.bench.step ask).1 with
                    machine := (s.bench.step ask).1.machine.recordFault fault } },
                  some (.fault fault)) := by
              rw [loop, hturn]
            exact ⟨_, _, hloop, ⟨rfl, rfl⟩, rfl, rfl⟩

end Session

/-! ## The main statement -/

/--
**The drivers agree.**

A run by a budget, runs by budgets with the same sum, a frame and a session all leave the machine
and the clock where driving comes to. All count the same steps, which are those that the machine
counts, and all keep the same fault; a session answers with it too. Paced runs may also end because
pacing fails. None of this asks whether the machine is halted or comes to its end on the last step
or on the border between two runs.

At a rate that is no number no run begins, so a frame and runs leave the machine as it is where a
session steps it.
-/
theorem drivers_agree (ask : Clock σ) (n : Nat) (b : Bench σ) (hfault : b.machine.fault = none) :
    let d := drive ask n b.machine b.clock
    d.machine.steps = b.machine.steps + d.steps ∧
    (∀ (ω : Type) (askWall : Clock ω) (wall : ω) (turns : Nat), n < turns →
      ∃ s finish, Session.loop ask askWall { budget := some n } turns { bench := b, wall } =
          (s, some finish) ∧
        d.Left s.bench ∧ s.steps = d.steps ∧ finish.fault? = d.machine.fault) ∧
    (b.machine.rate.IsNumber →
      (∀ turns, n < turns →
        ∃ r ending, b.run ask { budget := some n, throttle := false } turns = (r, some ending) ∧
          ending.Returns ∧ d.Left r.bench ∧ r.steps = d.steps) ∧
      (∀ throttle budgets, budgets.sum = n →
        (∃ b', b.runAll ask throttle budgets = .ok (b', d.steps) ∧ d.Left b') ∨
        (throttle = true ∧ ∃ trouble, b.runAll ask throttle budgets = .error trouble)) ∧
      (∀ i, ∃ i' b', Inspector.runFrame ask n none i b = (i', b', none) ∧ d.Left b')) ∧
    (¬ b.machine.rate.IsNumber →
      ∀ o turns, b.run ask o turns = ({ bench := b }, some (.failed .undefinedToWhole))) := by
  intro d
  refine ⟨(drive_keeps ask n b.machine b.clock).2, ?_, ?_, ?_⟩
  · intro ω askWall wall turns hturns
    obtain ⟨s, finish, hloop, hleft, hsteps, hfinish⟩ :=
      Session.loop_drive ask askWall n hturns { bench := b, wall } hfault
    rw [Session.budgetOf, Nat.zero_add] at hloop
    exact ⟨s, finish, hloop, hleft, hsteps.trans (Nat.zero_add _), hfinish⟩
  · intro hnumber
    refine ⟨?_, ?_, ?_⟩
    · intro turns hturns
      rcases Bench.run_drive ask false n hturns b hnumber with hrun | ⟨hthrottle, _⟩
      · exact hrun
      · exact absurd hthrottle (by simp)
    · rintro throttle budgets rfl
      exact Bench.runAll_drive ask throttle budgets b hnumber
    · intro i
      exact Inspector.runFrame_drive ask n i b hnumber
  · intro hundefined o turns
    exact Bench.run_undefined o turns hundefined

/-- A jump and then a word that is no instruction: the fault comes on the border between two runs by
a budget of one. At a rate that is no number the session comes to it all the same and the run does
not begin. -/
theorem drivers_agree_fault_between_runs :
    let m := (Machine.new (.ofSeed 7) 0.25).perform (.load [0x12, 0x02, 0xFF, 0xFF])
    let ask := clockOf fun _ => 0.5
    let b (rate : Quantity) : Bench Nat := { machine := { m with rate }, clock := 0 }
    let fault := Fault.unknownInstruction 0xFFFF 0x202
    (∃ b' i' b'', (b (.whole 500)).runAll ask false [1, 1] = .ok (b', 1) ∧
      Inspector.runFrame ask 2 none {} (b (.whole 500)) = (i', b'', none) ∧
      b'.machine = b''.machine ∧ b'.machine.fault = some fault) ∧
    (∃ s, Session.loop ask ask { budget := some 2 } 3 { bench := b (.real undefined), wall := 0 } =
      (s, some (.fault fault)) ∧ s.steps = 1) ∧
    (b (.real undefined)).run ask { budget := some 2, throttle := false } 3 =
      ({ bench := b (.real undefined) }, some (.failed .undefinedToWhole)) := by
  intro m ask b fault
  obtain ⟨memory, hload, hwork, _⟩ :=
    Machine.loaded_atWork (.ofSeed 7) 0.25 [0x12, 0x02, 0xFF, 0xFF] (by decide)
  have hjump : memory.fetch 0x200 = .ok 0x1202 :=
    Memory.fetch_word hload (k := 0) rfl rfl (by decide) rfl
  have hword : memory.fetch 0x202 = .ok 0xFFFF :=
    Memory.fetch_word hload (k := 2) rfl rfl (by decide) rfl
  change m.AtWork memory 0x200 at hwork
  clear_value m
  have hdrive : ∀ rate, (drive ask 2 (b rate).machine 0).steps = 1 ∧
      (drive ask 2 (b rate).machine 0).machine.fault = some fault := by
    intro rate
    have hbefore : (b rate).machine.AtWork memory 0x200 :=
      ⟨hwork.running, hwork.fault, hwork.awake, hwork.memory, hwork.pc⟩
    have hdecode : Instruction.decode 0x1202 = .jump 0x202 := rfl
    obtain ⟨hstep, hafter⟩ := hbefore.jump hjump hdecode (ask 0).1
    have hfault := hafter.unknown hword rfl (ask (ask 0).2).1
    rw [drive_step hbefore.over hstep 1, drive_fault hafter.over hfault 0]
    exact ⟨rfl, rfl⟩
  have hnofault : ∀ rate, (b rate).machine.fault = none := fun _ => hwork.fault
  refine ⟨?_, ?_, ?_⟩
  · obtain ⟨_, _, hagree, _⟩ := drivers_agree ask 2 (b (.whole 500)) (hnofault _)
    obtain ⟨_, hruns, hframe⟩ := hagree trivial
    rcases hruns false [1, 1] rfl with ⟨b', hall, hleft⟩ | ⟨hthrottle, _⟩
    · obtain ⟨i', b'', hframe', hleft'⟩ := hframe {}
      obtain ⟨hsteps, hrecorded⟩ := hdrive (.whole 500)
      refine ⟨b', i', b'', ?_, hframe', hleft.1.trans hleft'.1.symm, ?_⟩
      · exact hall.trans (by rw [hsteps])
      · rw [hleft.1]
        exact hrecorded
    · exact absurd hthrottle (by simp)
  · obtain ⟨_, hsession, _, _⟩ := drivers_agree ask 2 (b (.real undefined)) (hnofault _)
    obtain ⟨s, finish, hloop, _, hsteps, hfinish⟩ := hsession Nat ask 0 3 (by decide)
    obtain ⟨hsteps', hrecorded⟩ := hdrive (.real undefined)
    obtain rfl := Finish.eq_of_fault? (hfinish.trans hrecorded)
    exact ⟨s, hloop, hsteps.trans hsteps'⟩
  · obtain ⟨_, _, _, hundefined⟩ := drivers_agree ask 2 (b (.real undefined)) (hnofault _)
    exact hundefined undefined_not_number _ 3

end ChipEight
