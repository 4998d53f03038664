import ChipEight.Proofs.Operation
import ChipEight.Proofs.Pacing
import ChipEight.Proofs.Step

/-!
# When and why a run ends

A run steps its machine until there is a reason to end: the machine is halted, the request to stop
is read as true, the budget is used up, or the next step faults. `Bench.Due` is that there is a
reason after a number of steps, said of the machine that these steps lead to and not of the run.
A run that returns ends at the first number of steps for which that holds, and of several reasons it
gives the one that it finds out first, in the order above. Pacing changes the schedule and nothing
else, so it has no part in this, except that a calculation of its own may fail.
-/

namespace ChipEight

open Number

variable {σ : Type} {ask : Clock σ} {o : RunOptions}

/-! ## Reasons to end -/

namespace Bench

/-- There is a reason to end a run after a number of steps. -/
def Due (ask : Clock σ) (o : RunOptions) (k : Nat) (b : Bench σ) : Prop :=
  b.machine.halted = true ∨ o.stops k = true ∨ o.spent k = true ∨ (b.step ask).2 ≠ none

/-- The reason that a run gives: the one that is found out first. -/
def verdict (o : RunOptions) (k : Nat) (b : Bench σ) : Ending :=
  if b.machine.halted then .halted
  else if o.stops k then .stopped
  else if o.spent k then .exhausted
  else .faulted

/-- What the last turn of a run leaves: if it ended by a fault, the step was attempted and the fault
recorded. -/
def closed (ask : Clock σ) (o : RunOptions) (k : Nat) (b : Bench σ) : Bench σ :=
  if b.verdict o k = .faulted then
    match b.step ask with
    | (b, some fault) => b.recordFault fault
    | (b, none) => b
  else b

/-- **The reasons in the order in which they are found out.** -/
theorem verdict_cases {b : Bench σ} {k : Nat} (hdue : b.Due ask o k) :
    (b.machine.halted = true ∧ b.verdict o k = .halted) ∨
    (b.machine.halted = false ∧ o.stops k = true ∧ b.verdict o k = .stopped) ∨
    (b.machine.halted = false ∧ o.stops k = false ∧ o.spent k = true ∧
      b.verdict o k = .exhausted) ∨
    (b.machine.halted = false ∧ o.stops k = false ∧ o.spent k = false ∧
      (∃ fault, (b.step ask).2 = some fault) ∧ b.verdict o k = .faulted) := by
  unfold verdict
  cases hhalted : b.machine.halted with
  | true => exact Or.inl ⟨rfl, rfl⟩
  | false =>
      cases hstop : o.stops k with
      | true => exact Or.inr (Or.inl ⟨rfl, rfl, rfl⟩)
      | false =>
          cases hspent : o.spent k with
          | true => exact Or.inr (Or.inr (Or.inl ⟨rfl, rfl, rfl, rfl⟩))
          | false =>
              have hfault : (b.step ask).2 ≠ none := by
                rcases hdue with h | h | h | h
                · rw [hhalted] at h; exact absurd h (by simp)
                · rw [hstop] at h; exact absurd h (by simp)
                · rw [hspent] at h; exact absurd h (by simp)
                · exact h
              have hsome := Option.ne_none_iff_exists'.mp hfault
              exact Or.inr (Or.inr (Or.inr ⟨rfl, rfl, rfl, hsome, rfl⟩))

/-- The same machine at work by another schedule. -/
def withSchedule (b : Bench σ) (schedule : Schedule) : Bench σ := { b with schedule }

/-- A step neither reads the schedule nor changes it. -/
theorem step_withSchedule (b : Bench σ) (schedule : Schedule) :
    (b.withSchedule schedule).step ask = ((b.step ask).1.withSchedule schedule, (b.step ask).2) :=
  rfl

theorem closed_withSchedule (b : Bench σ) (k : Nat) (schedule : Schedule) :
    (b.withSchedule schedule).closed ask o k = (b.closed ask o k).withSchedule schedule := by
  have hverdict : (b.withSchedule schedule).verdict o k = b.verdict o k := rfl
  unfold closed
  rw [hverdict, step_withSchedule]
  obtain ⟨b', fault⟩ := b.step ask
  split
  · cases fault <;> rfl
  · rfl

/-- A step at work faults as the machine's does at the next reading of the clock. -/
theorem step_snd (b : Bench σ) : (b.step ask).2 = (b.machine.step (ask b.clock).1).fault := rfl

theorem step_machine (b : Bench σ) :
    (b.step ask).1.machine = (b.machine.step (ask b.clock).1).machine := rfl

/-- A step records no fault. -/
theorem step_machine_fault (b : Bench σ) :
    (b.step ask).1.machine.fault = b.machine.fault :=
  (b.machine.step_untouched (ask b.clock).1).1

end Bench

/-! ## One turn -/

namespace Run

/-- **A turn with a reason to end is the last.** -/
theorem turn_of_due {r : Run σ} (hfault : r.bench.machine.fault = none)
    (hread : r.readings = r.steps) (hdue : r.bench.Due ask o r.steps) :
    r.turn ask o =
      (⟨r.bench.closed ask o r.steps, r.steps,
        if r.bench.machine.halted then r.steps else r.steps + 1⟩,
        some (r.bench.verdict o r.steps)) := by
  obtain ⟨b, k, readings⟩ := r
  obtain rfl : readings = k := hread
  have hnofault : b.machine.fault.isSome = false := by rw [hfault]; rfl
  dsimp only at hfault hdue ⊢
  rcases Bench.verdict_cases hdue with ⟨hhalted, hv⟩ | ⟨hhalted, hstop, hv⟩ |
      ⟨hhalted, hstop, hspent, hv⟩ | ⟨hhalted, hstop, hspent, ⟨fault, hstep⟩, hv⟩
  · simp [turn, Bench.closed, hv, hhalted]
  · simp [turn, Bench.closed, hv, hhalted, hnofault, hstop]
  · simp [turn, Bench.closed, hv, hhalted, hnofault, hstop, hspent]
  · rcases hattempt : b.step ask with ⟨b', _ | fault'⟩
    · rw [hattempt] at hstep; exact absurd hstep (by simp)
    · simp [turn, Bench.closed, hv, hhalted, hnofault, hstop, hspent, hattempt]

/-- **A turn without one takes a step and waits until it is due.** -/
theorem turn_of_not_due {r : Run σ} (hfault : r.bench.machine.fault = none)
    (hread : r.readings = r.steps) (hdue : ¬ r.bench.Due ask o r.steps) :
    r.turn ask o = pace o ⟨(r.bench.step ask).1, r.steps + 1, r.steps + 1⟩ := by
  obtain ⟨b, k, readings⟩ := r
  obtain rfl : readings = k := hread
  have hnofault : b.machine.fault.isSome = false := by rw [hfault]; rfl
  simp only [Bench.Due, not_or, Bool.not_eq_true, ne_eq, Decidable.not_not] at hdue
  obtain ⟨hhalted, hstop, hspent, hstep⟩ := hdue
  rcases hattempt : b.step ask with ⟨b', _ | fault⟩
  · simp only [turn, hhalted, hnofault, hstop, hspent, hattempt, Bool.false_eq_true, if_false]
  · rw [hattempt] at hstep; exact absurd hstep (by simp)

/-- Pacing changes the schedule, unless it fails; and it does so only if it is asked for. -/
theorem pace_cases (o : RunOptions) (r : Run σ) :
    (∃ schedule, pace o r = ({ r with bench := r.bench.withSchedule schedule }, none)) ∨
      (o.throttle = true ∧ ∃ trouble, pace o r = (r, some (.failed trouble))) := by
  unfold pace
  cases o.throttle with
  | false => exact Or.inl ⟨r.bench.schedule, rfl⟩
  | true =>
      cases r.bench.schedule.waitUntil r.steps r.bench.machine.rate with
      | ok schedule => exact Or.inl ⟨schedule, rfl⟩
      | error trouble => exact Or.inr ⟨rfl, trouble, rfl⟩

end Run

/-! ## A whole run -/

namespace Bench

/-- From the k-th step of a run on, the first reason to end comes after n more. -/
structure Ends (ask : Clock σ) (o : RunOptions) (k : Nat) (b : Bench σ) (n : Nat)
    (last : Bench σ) : Prop where
  /-- The steps lead there and none of them faults. -/
  reached : b.stepTimes ask n = (last, none)
  /-- There is a reason to end after them. -/
  due : last.Due ask o (k + n)
  /-- There is none after fewer. -/
  first : ∀ j < n, ∃ earlier, b.stepTimes ask j = (earlier, none) ∧ ¬ earlier.Due ask o (k + j)

variable {b last : Bench σ} {k n : Nat}

theorem stepTimes_succ (hstep : (b.step ask).2 = none) (n : Nat) :
    b.stepTimes ask (n + 1) = (b.step ask).1.stepTimes ask n := by
  rw [stepTimes]
  rcases hattempt : b.step ask with ⟨b', _ | fault⟩
  · rfl
  · rw [hattempt] at hstep; exact absurd hstep (by simp)

theorem not_due_step (h : ¬ b.Due ask o k) : (b.step ask).2 = none := by
  simp only [Due, not_or, ne_eq, Decidable.not_not] at h
  exact h.2.2.2

theorem Ends.now (h : b.Due ask o k) : b.Ends ask o k 0 b :=
  ⟨rfl, h, fun j hj => absurd hj (Nat.not_lt_zero j)⟩

/-- What comes after n more steps than the next comes after n + 1. -/
theorem Ends.later (hnow : ¬ b.Due ask o k) (h : (b.step ask).1.Ends ask o (k + 1) n last) :
    b.Ends ask o k (n + 1) last := by
  have hstep := not_due_step hnow
  refine ⟨?_, ?_, fun j hj => ?_⟩
  · rw [stepTimes_succ hstep]; exact h.reached
  · rw [show k + (n + 1) = k + 1 + n by omega]; exact h.due
  · cases j with
    | zero => exact ⟨b, rfl, hnow⟩
    | succ j =>
        obtain ⟨earlier, hreached, hdue⟩ := h.first j (Nat.lt_of_succ_lt_succ hj)
        refine ⟨earlier, ?_, ?_⟩
        · rw [stepTimes_succ hstep]; exact hreached
        · rw [show k + (j + 1) = k + 1 + j by omega]; exact hdue

theorem Ends.eq_of_zero (h : b.Ends ask o k 0 last) : last = b ∧ b.Due ask o k := by
  obtain rfl : b = last := congrArg Prod.fst h.reached
  exact ⟨rfl, h.due⟩

theorem Ends.of_succ (h : b.Ends ask o k (n + 1) last) :
    ¬ b.Due ask o k ∧ (b.step ask).1.Ends ask o (k + 1) n last := by
  obtain ⟨here, hhere, hnow⟩ := h.first 0 (Nat.succ_pos n)
  obtain rfl : b = here := congrArg Prod.fst hhere
  have hstep := not_due_step hnow
  refine ⟨hnow, ?_, ?_, fun j hj => ?_⟩
  · rw [← stepTimes_succ hstep]; exact h.reached
  · rw [show k + 1 + n = k + (n + 1) by omega]; exact h.due
  · obtain ⟨earlier, hreached, hdue⟩ := h.first (j + 1) (Nat.succ_lt_succ hj)
    refine ⟨earlier, ?_, ?_⟩
    · rw [← stepTimes_succ hstep]; exact hreached
    · rw [show k + 1 + j = k + (j + 1) by omega]; exact hdue

end Bench

/-- The run returned: pacing did not fail. -/
def Ending.Returns : Ending → Prop
  | .failed _ => False
  | _ => True

/-- A reason to end is one to return. -/
theorem Bench.verdict_returns (o : RunOptions) (k : Nat) (b : Bench σ) :
    (b.verdict o k).Returns := by
  unfold verdict
  repeat' split
  all_goals trivial

namespace Run

/-- What a run leaves that returns after a number of steps. -/
def ended (ask : Clock σ) (o : RunOptions) (k : Nat) (last : Bench σ) (schedule : Schedule) :
    Run σ :=
  ⟨(last.closed ask o k).withSchedule schedule, k, if last.machine.halted then k else k + 1⟩

theorem loop_of_due {b : Bench σ} {k : Nat} (hfault : b.machine.fault = none)
    (hdue : b.Due ask o k) (schedule : Schedule) (turns : Nat) :
    loop ask o (turns + 1) ⟨b.withSchedule schedule, k, k⟩ =
      (ended ask o k b schedule, some (b.verdict o k)) := by
  have hturn := turn_of_due (r := ⟨b.withSchedule schedule, k, k⟩) hfault rfl hdue
  rw [loop, hturn]
  rw [Bench.closed_withSchedule]
  rfl

/-- **A run that returns ends at the first reason to end.** -/
theorem loop_ends (turns : Nat) {b : Bench σ} (hfault : b.machine.fault = none) (k : Nat)
    (schedule : Schedule) {r : Run σ} {ending : Ending} (hreturns : ending.Returns)
    (h : loop ask o turns ⟨b.withSchedule schedule, k, k⟩ = (r, some ending)) :
    ∃ n last, n < turns ∧ b.Ends ask o k n last ∧ ending = last.verdict o (k + n) ∧
      ∃ schedule, r = ended ask o (k + n) last schedule := by
  induction turns generalizing b k schedule with
  | zero => exact absurd h (by simp [loop])
  | succ turns ih =>
      by_cases hdue : b.Due ask o k
      · rw [loop_of_due hfault hdue] at h
        obtain ⟨rfl, hending⟩ := Prod.mk.inj h
        exact ⟨0, b, Nat.succ_pos _, .now hdue, (Option.some.inj hending).symm, schedule, rfl⟩
      · have hturn := turn_of_not_due (r := ⟨b.withSchedule schedule, k, k⟩) hfault rfl hdue
        rw [loop, hturn] at h
        rcases pace_cases o ⟨((b.withSchedule schedule).step ask).1, k + 1, k + 1⟩ with
          ⟨schedule', hpace⟩ | ⟨_, trouble, hpace⟩
        · rw [hpace] at h
          have hfault' : (b.step ask).1.machine.fault = none := b.step_machine_fault.trans hfault
          obtain ⟨n, last, hn, hends, hverdict, schedule'', hr⟩ := ih hfault' (k + 1) schedule' h
          refine ⟨n + 1, last, Nat.succ_lt_succ hn, hends.later hdue, ?_, schedule'', ?_⟩
          · rw [show k + (n + 1) = k + 1 + n by omega]; exact hverdict
          · rw [show k + (n + 1) = k + 1 + n by omega]; exact hr
        · -- pacing failed, so the run did not return
          rw [hpace] at h
          obtain rfl := Option.some.inj (Prod.mk.inj h).2
          exact hreturns.elim

/-- **With turns enough a run returns there**, unless pacing was asked for and fails. -/
theorem loop_of_ends (turns : Nat) {b last : Bench σ} (hfault : b.machine.fault = none) {k n : Nat}
    (schedule : Schedule) (hends : b.Ends ask o k n last) (hn : n < turns) :
    (∃ schedule', loop ask o turns ⟨b.withSchedule schedule, k, k⟩ =
      (ended ask o (k + n) last schedule', some (last.verdict o (k + n)))) ∨
    (o.throttle = true ∧ ∃ r trouble,
      loop ask o turns ⟨b.withSchedule schedule, k, k⟩ = (r, some (.failed trouble))) := by
  induction turns generalizing b k n schedule with
  | zero => exact absurd hn (Nat.not_lt_zero n)
  | succ turns ih =>
      cases n with
      | zero =>
          obtain ⟨rfl, hdue⟩ := hends.eq_of_zero
          exact Or.inl ⟨schedule, loop_of_due hfault hdue schedule turns⟩
      | succ n =>
          obtain ⟨hdue, hends'⟩ := hends.of_succ
          have hturn := turn_of_not_due (r := ⟨b.withSchedule schedule, k, k⟩) hfault rfl hdue
          rw [loop, hturn]
          rcases pace_cases o ⟨((b.withSchedule schedule).step ask).1, k + 1, k + 1⟩ with
            ⟨schedule', hpace⟩ | ⟨hthrottle, trouble, hpace⟩
          · rw [hpace]
            have hfault' : (b.step ask).1.machine.fault = none :=
              b.step_machine_fault.trans hfault
            rw [show k + (n + 1) = k + 1 + n by omega]
            exact ih hfault' schedule' hends' (Nat.lt_of_succ_lt_succ hn)
          · rw [hpace]
            exact Or.inr ⟨hthrottle, _, trouble, rfl⟩

end Run

/-! ## What a run answers -/

/-- The answer of a run: the steps it took, and what it ended with. -/
structure RunAnswer where
  steps : Nat
  halted : Bool
  stopped : Bool
  exhausted : Bool
  fault : Option Fault

namespace Run

/-- A run answers with what the machine shows after it, and whether it was told to stop. If it was
none of these, its budget was used up. -/
def answer (r : Run σ) (ending : Ending) : RunAnswer :=
  let halted := r.bench.machine.halted
  let stopped := decide (ending = .stopped)
  let fault := r.bench.machine.fault
  { steps := r.steps, halted, stopped, exhausted := !(halted || stopped || fault.isSome), fault }

end Run

namespace Machine

/-- A new machine with a program is about to carry out its first word. -/
theorem loaded_atWork (random : RandomSource) (now : Seconds) (program : List UInt8)
    (h : program.length ≤ programLimit) :
    ∃ memory, (Machine.new random now).board.memory.load program = .ok memory ∧
      ((Machine.new random now).perform (.load program)).AtWork memory 0x200 ∧
      ((Machine.new random now).perform (.load program)).rate = standardRate := by
  obtain ⟨memory, hload, hm⟩ := (Machine.new random now).perform_load program h
  refine ⟨memory, hload, ?_, ?_⟩
  · rw [hm]
    exact ⟨rfl, rfl, rfl, rfl, rfl⟩
  · rw [hm]
    rfl

/-- **A step that faults asks for its tone and moves past the word that it fetched, if any.** It
does nothing else. -/
theorem step_of_fault {m : Machine} {now : Seconds} {fault : Fault}
    (h : (m.step now).fault = some fault) :
    ∃ board, (board = m.board ∨ board = m.board.advanced) ∧
      (m.step now).machine = { m with buzzer := m.toned, board } := by
  rcases m.step_cases now with ⟨_, hs⟩ | ⟨_, fault', hboard, _, hm⟩ | ⟨_, _, hs, _⟩
  · rw [hs] at h; exact absurd h (by simp)
  · refine ⟨(m.board.step now).board, ?_, hm⟩
    rcases Board.step_of_fault hboard with ⟨_, hsame⟩ | ⟨_, _, hadvanced⟩
    · exact Or.inl hsame
    · exact Or.inr hadvanced
  · rw [hs] at h; exact absurd h (by simp)

end Machine

namespace Bench

variable {b last : Bench σ} {k : Nat}

theorem stepTimes_fault (b : Bench σ) (n : Nat) :
    (b.stepTimes ask n).1.machine.fault = b.machine.fault := by
  induction n generalizing b with
  | zero => rfl
  | succ n ih =>
      have hstep : (b.step ask).1.machine.fault = b.machine.fault := b.step_machine_fault
      rw [stepTimes]
      rcases hattempt : b.step ask with ⟨b', _ | fault⟩
      · rw [hattempt] at hstep
        exact (ih b').trans hstep
      · rw [hattempt] at hstep
        exact hstep

/-- **What the last turn leaves**: everything as it is, or a step that faulted with its fault
recorded. -/
theorem closed_cases (hdue : last.Due ask o k) :
    ((last.machine.halted = true ∨ o.stops k = true ∨ o.spent k = true) ∧
      last.verdict o k ≠ .faulted ∧ last.closed ask o k = last) ∨
    (last.machine.halted = false ∧ o.spent k = false ∧ last.verdict o k = .faulted ∧
      ∃ fault, (last.step ask).2 = some fault ∧
        last.closed ask o k = (last.step ask).1.recordFault fault) := by
  have hleft : ∀ {ending}, last.verdict o k = ending → ending ≠ .faulted →
      last.verdict o k ≠ .faulted ∧ last.closed ask o k = last := by
    rintro _ rfl hv
    exact ⟨hv, if_neg hv⟩
  rcases verdict_cases hdue with ⟨hhalted, hv⟩ | ⟨_, hstop, hv⟩ | ⟨_, _, hspent, hv⟩ |
      ⟨hhalted, _, hspent, ⟨fault, hfault⟩, hv⟩
  · exact Or.inl ⟨Or.inl hhalted, hleft hv (by simp)⟩
  · exact Or.inl ⟨Or.inr (Or.inl hstop), hleft hv (by simp)⟩
  · exact Or.inl ⟨Or.inr (Or.inr hspent), hleft hv (by simp)⟩
  · refine Or.inr ⟨hhalted, hspent, hv, fault, hfault, ?_⟩
    rw [closed, if_pos hv]
    rcases hattempt : last.step ask with ⟨b', _ | fault'⟩
    · rw [hattempt] at hfault; exact absurd hfault (by simp)
    · rw [hattempt] at hfault
      obtain rfl : fault' = fault := Option.some.inj hfault
      rfl

/-- A machine that stops by a fault is left with what its step did before, and with the fault. -/
theorem recordFault_machine {fault : Fault} (h : (last.step ask).2 = some fault) :
    ∃ board, (board = last.machine.board ∨ board = last.machine.board.advanced) ∧
      ((last.step ask).1.recordFault fault).machine =
        { last.machine with buzzer := last.machine.toned, board, fault := some fault } := by
  have hstep : (last.machine.step (ask last.clock).1).fault = some fault := h
  obtain ⟨board, hboard, hmachine⟩ := Machine.step_of_fault hstep
  refine ⟨board, hboard, ?_⟩
  change ((last.machine.step (ask last.clock).1).machine.recordFault fault) = _
  rw [hmachine]
  rfl

end Bench

namespace Run

variable {last : Bench σ} {k : Nat}

/-- A run leaves a halted machine halted and no other, and a fault exactly if it ends by one. -/
theorem ended_machine (hfault : last.machine.fault = none) (hdue : last.Due ask o k)
    (schedule : Schedule) :
    (ended ask o k last schedule).bench.machine.halted = last.machine.halted ∧
      (ended ask o k last schedule).bench.machine.fault =
        if last.verdict o k = .faulted then (last.step ask).2 else none := by
  change (last.closed ask o k).machine.halted = _ ∧ (last.closed ask o k).machine.fault = _
  rcases Bench.closed_cases hdue with ⟨_, hv, hclosed⟩ | ⟨_, _, hv, fault, hstep, hclosed⟩
  · rw [hclosed, if_neg hv]
    exact ⟨rfl, hfault⟩
  · obtain ⟨board, _, hmachine⟩ := Bench.recordFault_machine hstep
    rw [hclosed, hmachine, if_pos hv, hstep]
    exact ⟨rfl, rfl⟩

/-- **Of the four things that a run may answer exactly one is true**, the first that applies. -/
theorem answer_ended (hfault : last.machine.fault = none) (hdue : last.Due ask o k)
    (schedule : Schedule) :
    let a := (ended ask o k last schedule).answer (last.verdict o k)
    a.halted = last.machine.halted ∧
      a.stopped = (!last.machine.halted && o.stops k) ∧
      a.exhausted = (!last.machine.halted && !o.stops k && o.spent k) ∧
      a.fault = (if last.machine.halted || o.stops k || o.spent k then none
        else (last.step ask).2) ∧
      [a.halted, a.stopped, a.exhausted, a.fault.isSome].count true = 1 := by
  intro a
  obtain ⟨hsame, hrecorded⟩ := ended_machine hfault hdue schedule
  rcases Bench.verdict_cases hdue with ⟨hhalted, hv⟩ | ⟨hhalted, hstop, hv⟩ |
      ⟨hhalted, hstop, hspent, hv⟩ | ⟨hhalted, hstop, hspent, ⟨fault, hstep⟩, hv⟩
  · simp [a, answer, hsame, hrecorded, hv, hhalted]
  · simp [a, answer, hsame, hrecorded, hv, hhalted, hstop]
  · simp [a, answer, hsame, hrecorded, hv, hhalted, hstop, hspent]
  · simp [a, answer, hsame, hrecorded, hv, hhalted, hstop, hspent, hstep]

end Run

/-! ## The main statement -/

/-- What a run that returned did and what it answers. The machine that its steps led to is the last
one before its last turn. -/
structure Bench.Ran (ask : Clock σ) (o : RunOptions) (b : Bench σ) (r : Run σ) (a : RunAnswer)
    (last : Bench σ) : Prop where
  /-- The steps lead to the last machine, and none of them faulted. -/
  reached : b.stepTimes ask a.steps = (last, none)
  /-- There is a reason to end after them. -/
  due : last.Due ask o a.steps
  /-- There is none after fewer. -/
  first : ∀ j < a.steps, ∃ earlier, b.stepTimes ask j = (earlier, none) ∧ ¬ earlier.Due ask o j
  /-- The request to stop is read once in each turn, but not after a halt. -/
  readings : r.readings = if last.machine.halted then a.steps else a.steps + 1
  /-- Exactly one of four things is true. -/
  one : [a.halted, a.stopped, a.exhausted, a.fault.isSome].count true = 1
  /-- First comes whether the machine is halted. -/
  halted : a.halted = last.machine.halted
  /-- Then comes the request to stop. -/
  stopped : a.stopped = (!last.machine.halted && o.stops a.steps)
  /-- Then comes the budget. -/
  exhausted : a.exhausted = (!last.machine.halted && !o.stops a.steps && o.spent a.steps)
  /-- The fault is that of the step that was attempted if nothing came before it. -/
  fault : a.fault = (if last.machine.halted || o.stops a.steps || o.spent a.steps then none
    else (last.step ask).2)
  /-- Without a fault everything is left as the steps left it, but for the schedule. -/
  kept : a.fault = none → r.bench = last.withSchedule r.bench.schedule
  /-- With a fault the machine has asked for its tone, moved past the word that it fetched, if any,
  and keeps the fault. -/
  recorded : ∀ fault, a.fault = some fault →
    ∃ board, (board = last.machine.board ∨ board = last.machine.board.advanced) ∧
      r.bench.machine =
        { last.machine with buzzer := last.machine.toned, board, fault := some fault }

theorem Run.ran_ended {b last : Bench σ} {k : Nat} (hfault : b.machine.fault = none)
    (hends : b.Ends ask o 0 k last) (schedule : Schedule) :
    b.Ran ask o (ended ask o k last schedule)
      ((ended ask o k last schedule).answer (last.verdict o k)) last := by
  have hdue : last.Due ask o k := by have h := hends.due; rwa [Nat.zero_add] at h
  have hlast : last.machine.fault = none := by
    have h : (b.stepTimes ask k).1.machine.fault = b.machine.fault := b.stepTimes_fault k
    rw [hends.reached] at h
    exact h.trans hfault
  obtain ⟨hhalted, hstopped, hexhausted, hfault', hone⟩ := answer_ended hlast hdue schedule
  obtain ⟨_, hrecorded⟩ := ended_machine hlast hdue schedule
  refine ⟨hends.reached, hdue, fun j hj => ?_, rfl, hone, hhalted, hstopped, hexhausted,
    hfault', fun hnone => ?_, fun fault hsome => ?_⟩
  · have h := hends.first j hj
    rwa [Nat.zero_add] at h
  · have hnone' := hrecorded.symm.trans hnone
    rcases Bench.closed_cases hdue with ⟨_, _, hclosed⟩ | ⟨_, _, hv, fault, hstep, _⟩
    · rw [ended, hclosed]; rfl
    · rw [if_pos hv, hstep] at hnone'; exact absurd hnone' (by simp)
  · have hsome' := hrecorded.symm.trans hsome
    rcases Bench.closed_cases hdue with ⟨_, hv, _⟩ | ⟨_, _, hv, fault', hstep, hclosed⟩
    · rw [if_neg hv] at hsome'; exact absurd hsome' (by simp)
    · rw [if_pos hv, hstep] at hsome'
      obtain rfl := Option.some.inj hsome'
      rw [ended, hclosed]
      exact Bench.recordFault_machine hstep

namespace Bench

/-- A run that returned anchored the schedule first. -/
theorem run_returned {turns : Nat} {b : Bench σ} {r : Run σ} {ending : Ending}
    (h : b.run ask o turns = (r, some ending)) (hreturns : ending.Returns) :
    ∃ schedule, b.schedule.reset 0 b.machine.rate = .ok schedule ∧
      Run.loop ask o turns ⟨b.withSchedule schedule, 0, 0⟩ = (r, some ending) := by
  unfold run at h
  split at h
  · obtain rfl := Option.some.inj (Prod.mk.inj h).2
    exact hreturns.elim
  · rename_i schedule hreset
    exact ⟨schedule, hreset, h⟩

/-- A run is its turns once the schedule is anchored. -/
theorem run_eq_loop {b : Bench σ} {schedule : Schedule}
    (h : b.schedule.reset 0 b.machine.rate = .ok schedule) (o : RunOptions) (turns : Nat) :
    b.run ask o turns = Run.loop ask o turns ⟨b.withSchedule schedule, 0, 0⟩ := by
  rw [run, h]
  rfl

/-- A machine that is halted or has a fault takes no step. -/
theorem loop_of_idle {turns : Nat} {b : Bench σ} (hidle : b.machine.halted = true ∨
    b.machine.fault.isSome = true) :
    Run.loop ask o (turns + 1) ⟨b, 0, 0⟩ =
      (⟨b, 0, 0⟩, some (if b.machine.halted then .halted else .faulted)) := by
  have hturn : Run.turn ask o ⟨b, 0, 0⟩ =
      (⟨b, 0, 0⟩, some (if b.machine.halted then .halted else .faulted)) := by
    unfold Run.turn
    dsimp only
    cases hhalted : b.machine.halted with
    | true => rfl
    | false =>
        have hfault : b.machine.fault.isSome = true := by
          rcases hidle with h | h
          · rw [hhalted] at h; exact absurd h (by simp)
          · exact h
        rw [hfault]
        rfl
  rw [Run.loop, hturn]

/--
**A run that returns took the least number of steps after which there was a reason to end.**

Its answer names the first of the reasons, and it leaves the machine where these steps led to. With
the other setting of the throttle it would have done the same by another schedule, unless pacing
fails. A machine that is halted or has a fault takes no step, and only the base of its schedule is
moved.
-/
theorem run_first_reason (ask : Clock σ) (o : RunOptions) (turns : Nat) (b : Bench σ) {r : Run σ}
    {ending : Ending} (h : b.run ask o turns = (r, some ending)) (hreturns : ending.Returns) :
    (b.machine.halted = false → b.machine.fault = none →
      ∃ last, b.Ran ask o r (r.answer ending) last) ∧
    (∀ throttle,
      (∃ schedule, b.run ask { o with throttle } turns =
        ({ r with bench := r.bench.withSchedule schedule }, some ending)) ∨
      (throttle = true ∧ ∃ r' trouble,
        b.run ask { o with throttle } turns = (r', some (.failed trouble)))) ∧
    (b.machine.halted = true ∨ b.machine.fault.isSome = true →
      r.steps = 0 ∧ ∃ pacer, r.bench = b.withSchedule { b.schedule with pacer }) := by
  obtain ⟨schedule, hreset, hloop⟩ := run_returned h hreturns
  obtain ⟨pacer, hpacer⟩ := Schedule.reset_pacer hreset
  by_cases hidle : b.machine.halted = true ∨ b.machine.fault.isSome = true
  · cases turns with
    | zero => exact absurd hloop (by simp [Run.loop])
    | succ turns =>
        have hturns (o : RunOptions) :
            Run.loop ask o (turns + 1) ⟨b.withSchedule schedule, 0, 0⟩ =
              (⟨b.withSchedule schedule, 0, 0⟩,
                some (if b.machine.halted then .halted else .faulted)) :=
          loop_of_idle hidle
        rw [hturns] at hloop
        obtain ⟨rfl, hending⟩ := Prod.mk.inj hloop
        refine ⟨fun hhalted hfault => ?_, fun throttle => Or.inl ⟨schedule, ?_⟩, fun _ => ?_⟩
        · rw [hhalted, hfault] at hidle
          exact absurd hidle (by simp)
        · rw [run_eq_loop hreset, hturns, hending]
          rfl
        · exact ⟨rfl, pacer, by rw [hpacer]⟩
  · rw [not_or, Bool.not_eq_true, Bool.not_eq_true, Option.isSome_eq_false_iff,
      Option.isNone_iff_eq_none] at hidle
    obtain ⟨hhalted, hfault⟩ := hidle
    obtain ⟨n, last, hn, hends, rfl, schedule', rfl⟩ :=
      Run.loop_ends turns hfault 0 schedule hreturns hloop
    refine ⟨fun _ _ => ⟨last, ?_⟩, fun throttle => ?_, fun h => ?_⟩
    · rw [Nat.zero_add]
      exact Run.ran_ended hfault hends schedule'
    · -- the reasons to end do not ask whether the run is paced
      have hends' : b.Ends ask { o with throttle } 0 n last :=
        ⟨hends.reached, hends.due, hends.first⟩
      rw [run_eq_loop hreset]
      rcases Run.loop_of_ends turns hfault schedule hends' hn with
        ⟨schedule'', hsame⟩ | ⟨hthrottle, r', trouble, hfailed⟩
      · exact Or.inl ⟨schedule'', hsame⟩
      · exact Or.inr ⟨hthrottle, r', trouble, hfailed⟩
    · rw [hhalted, hfault] at h
      exact absurd h (by simp)

/-- A jump to itself, told to stop when its budget is used up as well. -/
theorem run_first_reason_stop_in_time :
    let m := (Machine.new (.ofSeed 7) 0.25).perform (.load [0x12, 0x00])
    let b : Bench Nat := { machine := m, clock := 0 }
    let o : RunOptions :=
      { budget := some 1, stop := some fun k => decide (1 ≤ k), throttle := false }
    ∃ r, b.run (clockOf fun _ => 0.5) o 2 = (r, some .stopped) ∧ r.steps = 1 ∧
      (r.answer .stopped).stopped = true ∧ (r.answer .stopped).exhausted = false := by
  intro m b o
  obtain ⟨memory, hload, hwork, hrate⟩ :=
    Machine.loaded_atWork (.ofSeed 7) 0.25 [0x12, 0x00] (by decide)
  have hword : memory.fetch 0x200 = .ok 0x1200 :=
    Memory.fetch_word hload (k := 0) rfl rfl (by decide) rfl
  change m.AtWork memory 0x200 at hwork
  change m.rate = .whole 500 at hrate
  clear_value m
  obtain ⟨hstep, hwork'⟩ := hwork.jump hword rfl ((clockOf fun _ => 0.5) b.clock).1
  obtain ⟨last, hlast⟩ : ∃ last, (b.step (clockOf fun _ => 0.5)).1 = last := ⟨_, rfl⟩
  have hrunning : last.machine.halted = false := by
    rw [← hlast, b.step_machine]
    exact hwork'.running
  have hearly : ¬ b.Due (clockOf fun _ => 0.5) o 0 := by
    rintro (h | h | h | h)
    · rw [hwork.running] at h; exact absurd h (by simp)
    · exact absurd h (by decide)
    · exact absurd h (by decide)
    · rw [b.step_snd] at h
      exact h hstep
  have hends : b.Ends (clockOf fun _ => 0.5) o 0 1 last := by
    refine .later hearly ?_
    rw [hlast]
    exact .now (Or.inr (Or.inl rfl))
  have hverdict : last.verdict o 1 = .stopped := by
    rw [verdict, hrunning]
    rfl
  have hreset := b.schedule.reset_zero (show m.rate.IsNumber by rw [hrate]; trivial)
  rcases Run.loop_of_ends 2 hwork.fault { b.schedule with pacer := Pacer.anchor b.schedule.now 0 }
    hends (by decide) with ⟨schedule, hloop⟩ | ⟨hthrottle, _⟩
  · rw [← run_eq_loop hreset, Nat.zero_add, hverdict] at hloop
    obtain ⟨hran, _, _⟩ := run_first_reason _ o 2 b hloop trivial
    obtain ⟨last', h⟩ := hran hwork.running hwork.fault
    obtain rfl : last = last' := congrArg Prod.fst (hends.reached.symm.trans h.reached)
    refine ⟨_, hloop, rfl, ?_, ?_⟩
    · rw [h.stopped, hrunning]; rfl
    · rw [h.exhausted, hrunning]; rfl
  · exact absurd hthrottle (by decide)

end Bench

end ChipEight
