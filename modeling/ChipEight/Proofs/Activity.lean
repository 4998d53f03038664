import ChipEight.Headless
import ChipEight.Inspector
import ChipEight.Proofs.Operation

/-!
# What is done with a whole machine

`Operation` lists what can be done to a machine and to its parts. Beyond that a machine is given
another rate or title, its mixer finishes a tone, a window has it take the steps of a frame, and a
session without a window steps it until there is a reason to finish. `Activity` is all of these, and
`Employed` are the machines that can come of them as long as nobody takes the processor out of the
machine's hands, by stepping or resetting it alone.

A frame and a session do nothing to a machine but step it and record a fault. So what these two keep
is kept by every frame and every session, as it is by every run.
-/

namespace ChipEight

open Number

/-- What is done with a machine. A frame and a session carry the readings of their clocks. -/
inductive Activity
  | operation (operation : Operation)
  | changeRate (rate : Quantity)
  | entitle (title : Option String)
  | changeBuzzer (change : Buzzer → Buzzer)
  | frame (wanted : Int) (limit : Option Int) (inspector : Inspector) (readings : Nat → Seconds)
      (schedule : Schedule)
  | session (conditions : StopConditions) (answers : List String)
      (readings wallReadings : Nat → Seconds) (turns : Nat)

/-- Nobody steps or resets the processor without the machine. -/
def Operation.LeavesProcessor : Operation → Prop
  | .stepProcessor _ | .resetProcessor => False
  | _ => True

/-- Nobody steps or resets the processor without the machine. -/
def Activity.LeavesProcessor : Activity → Prop
  | .operation o => o.LeavesProcessor
  | _ => True

namespace Machine

/-- The machine after an activity. -/
def engage (m : Machine) : Activity → Machine
  | .operation operation => m.perform operation
  | .changeRate rate =>
    match m.setRate rate with
    | .ok changed => changed
    | .error _ => m
  | .entitle title => { m with title }
  | .changeBuzzer change => { m with buzzer := change m.buzzer }
  | .frame wanted limit inspector readings schedule =>
    (Inspector.runFrame (clockOf readings) wanted limit inspector
      { machine := m, clock := 0, schedule }).2.1.machine
  | .session conditions answers readings wallReadings turns =>
    (Session.loop (clockOf readings) (clockOf wallReadings) conditions turns
      { bench := { machine := m, clock := 0 }, wall := 0, answers }).1.bench.machine

/-- The machine after activities in order. -/
def engageAll (m : Machine) (activities : List Activity) : Machine :=
  activities.foldl engage m

/-- Another rate is taken or turned down, and nothing else is changed. -/
theorem engage_changeRate (m : Machine) (rate : Quantity) :
    ∃ rate', m.engage (.changeRate rate) = { m with rate := rate' } := by
  simp only [engage, setRate]
  cases rate.isNonPositive with
  | true => exact ⟨m.rate, rfl⟩
  | false => exact ⟨rate, rfl⟩

end Machine

/-- The machines that activities lead to from a new one, whatever its buzzer, its rate and its
source of random numbers. -/
inductive Employed : Machine → Prop
  | new (random : RandomSource) (now : Seconds) (buzzer : Buzzer) (rate : Quantity) :
      Employed { Machine.new random now with buzzer, rate }
  | after {m : Machine} {activity : Activity} :
      Employed m → activity.LeavesProcessor → Employed (m.engage activity)

/-- Employment goes on. -/
theorem Employed.engageAll (activities : List Activity)
    (hall : ∀ activity ∈ activities, activity.LeavesProcessor) {m : Machine} (h : Employed m) :
    Employed (m.engageAll activities) := by
  induction activities generalizing m with
  | nil => exact h
  | cons activity rest ih =>
      have hfirst : Employed (m.engage activity) :=
        .after h (hall activity List.mem_cons_self)
      exact ih (fun a ha => hall a (List.mem_cons_of_mem _ ha)) hfirst

/-! ## What steps keep, frames and sessions keep -/

variable {σ ω : Type}

/-- After a step a session looks at the prompt and at the wall clock, never at the machine. -/
theorem Session.finishAfter_bench (askWall : Clock ω) (c : StopConditions) (s : Session σ ω) :
    (s.finishAfter askWall c).1.bench = s.bench := by
  have hwall : ∀ s' : Session σ ω, (s'.lookAtWall askWall c).1.bench = s'.bench := by
    intro s'
    unfold lookAtWall
    split <;> rfl
  have hprompt : s.prompt.1.bench = s.bench := by
    unfold prompt
    dsimp only
    split <;> rfl
  unfold finishAfter
  split
  · split
    · rename_i heq
      rw [← hprompt, heq]
    · rename_i heq
      rw [hwall, ← hprompt, heq]
  · exact hwall s

section Keeps

variable {P : Machine → Prop}
variable (hstep : ∀ m now, P m → P (m.step now).machine)
variable (hfault : ∀ m fault, P m → P (m.recordFault fault))
include hstep hfault

/-- **A frame keeps whatever a step at any moment keeps**, if a recorded fault does not matter. -/
theorem Inspector.runSteps_keeps (ask : Clock σ) (steps : Nat) (i : Inspector) {b : Bench σ}
    (h : P b.machine) : P (runSteps ask steps i b).2.1.machine := by
  induction steps generalizing i b with
  | zero => exact h
  | succ steps ih =>
      rw [runSteps]
      by_cases hover : (b.machine.halted || b.machine.fault.isSome) = true
      · rw [if_pos hover]
        exact h
      · rw [if_neg hover]
        -- each step is left to a run
        have hrun := Bench.run_keeps hstep hfault ask { budget := some 1, throttle := false } 2 h
        dsimp only
        split
        · rename_i heq
          rw [heq] at hrun
          exact hrun
        · rename_i heq
          rw [heq] at hrun
          split
          · exact hrun
          · exact ih _ hrun

/-- A turn of a session keeps it. -/
theorem Session.turn_keeps (ask : Clock σ) (askWall : Clock ω) (c : StopConditions)
    {s : Session σ ω} (h : P s.bench.machine) :
    P (s.turn ask askWall c).1.bench.machine := by
  have hattempt : P (s.attempt ask c).1.bench.machine := by
    have hs : P (s.bench.step ask).1.machine := hstep _ _ h
    unfold Session.attempt
    split
    · exact h
    · split
      · rename_i heq
        rw [heq] at hs
        exact hfault _ _ hs
      · rename_i heq
        rw [heq] at hs
        exact hs
  unfold Session.turn
  split
  · rename_i heq
    rw [heq] at hattempt
    exact hattempt
  · rename_i heq
    rw [heq] at hattempt
    rw [Session.finishAfter_bench]
    exact hattempt

/-- **A session keeps it.** -/
theorem Session.loop_keeps (ask : Clock σ) (askWall : Clock ω) (c : StopConditions) (turns : Nat)
    {s : Session σ ω} (h : P s.bench.machine) :
    P (Session.loop ask askWall c turns s).1.bench.machine := by
  induction turns generalizing s with
  | zero => exact h
  | succ turns ih =>
      have hturn := Session.turn_keeps hstep hfault ask askWall c h
      rw [Session.loop]
      split
      · rename_i heq
        rw [heq] at hturn
        exact hturn
      · rename_i heq
        rw [heq] at hturn
        exact ih hturn

end Keeps

end ChipEight
