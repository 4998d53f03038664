import ChipEight.Proofs.Faults
import ChipEight.Proofs.Halting

/-!
# What a machine counts

A machine keeps three counts: the processor's instructions, its own steps, and the tones asked for.
They are counted in different places. The processor counts a word as soon as it is fetched, the machine
counts a step that came to its end, and a tone is asked for before either. So they differ over steps
that fail, and by how much can be told from the log of all steps that were entered.

A run enters steps of its own. `Run.entries` lists them turn by turn, and `Run.loop_leads` says that
they are what the run did: they lead from the machine before the run to the one after it. What a step
adds to a count is then added up along any log, and the other operations add nothing.
-/

namespace ChipEight

variable {σ : Type}

/-- A step as it was entered: the machine, and what its clock shows. -/
structure StepEntry where
  machine : Machine
  now : Seconds

namespace StepEntry

/-- The machine after the step, with the fault kept if it failed. -/
def after (e : StepEntry) : Machine :=
  match (e.machine.step e.now).fault with
  | some fault => (e.machine.step e.now).machine.recordFault fault
  | none => (e.machine.step e.now).machine

/-- The step fails although its word was fetched. -/
def failsFetched (e : StepEntry) : Bool :=
  (e.machine.step e.now).fault.isSome &&
    (e.machine.board.memory.fetch e.machine.board.processor.pc).isOk

/-- The machine is not halted and its sound timer runs. -/
def sounding (e : StepEntry) : Bool := !e.machine.halted && 0 < e.machine.board.sound.value

end StepEntry

/-! ## The log of steps -/

namespace Run

/-- There is no reason to end a run before its next step. -/
def entersStep (o : RunOptions) (r : Run σ) : Bool :=
  !r.bench.machine.halted && r.bench.machine.fault.isNone && !o.stops r.readings &&
    !o.spent r.steps

/-- The step that a turn enters, if it enters one. -/
def entered (ask : Clock σ) (o : RunOptions) (r : Run σ) : List StepEntry :=
  if r.entersStep o then [⟨r.bench.machine, (ask r.bench.clock).1⟩] else []

/-- The steps that a number of turns enter, fewer if the run ends. -/
def entries (ask : Clock σ) (o : RunOptions) : Nat → Run σ → List StepEntry
  | 0, _ => []
  | turns + 1, r =>
    match r.turn ask o with
    | (_, some _) => r.entered ask o
    | (next, none) => r.entered ask o ++ entries ask o turns next

end Run

/-- The steps that a run enters. -/
def Bench.entries (ask : Clock σ) (o : RunOptions) (turns : Nat) (b : Bench σ) : List StepEntry :=
  match b.schedule.reset 0 b.machine.rate with
  | .error _ => []
  | .ok schedule => Run.entries ask o turns { bench := { b with schedule } }

namespace Machine

/-- The steps that an operation enters. -/
def entries (m : Machine) : Operation → List StepEntry
  | .step now => [⟨m, now⟩]
  | .run options readings schedule turns =>
    Bench.entries (clockOf readings) options turns { machine := m, clock := 0, schedule }
  | _ => []

/-- The steps that operations enter, in order. -/
def log (m : Machine) : List Operation → List StepEntry
  | [] => []
  | operation :: rest => m.entries operation ++ (m.perform operation).log rest

/-- Steps lead from a machine to another: each is entered by the machine that the one before it
left. -/
def Leads (m : Machine) : List StepEntry → Machine → Prop
  | [], after => m = after
  | e :: rest, after => e.machine = m ∧ e.after.Leads rest after

theorem Leads.append {m between after : Machine} {first second : List StepEntry}
    (h : m.Leads first between) (hnext : between.Leads second after) :
    m.Leads (first ++ second) after := by
  induction first generalizing m with
  | nil =>
      obtain rfl : m = between := h
      exact hnext
  | cons e rest ih => exact ⟨h.1, ih h.2⟩

end Machine

namespace Run

variable {ask : Clock σ} {o : RunOptions}

/-- Without a reason to end, a turn takes its step; waiting does not touch the machine. -/
theorem turn_of_entersStep {r : Run σ} (h : r.entersStep o = true) :
    (r.turn ask o).1.bench.machine =
      (⟨r.bench.machine, (ask r.bench.clock).1⟩ : StepEntry).after := by
  simp only [entersStep, Bool.and_eq_true, Bool.not_eq_true', Option.isNone_iff_eq_none] at h
  obtain ⟨⟨⟨hhalted, hfault⟩, hstops⟩, hspent⟩ := h
  have hnofault : r.bench.machine.fault.isSome = false := by rw [hfault]; rfl
  unfold turn StepEntry.after
  rw [hhalted, hnofault, hstops, hspent]
  dsimp only
  rw [← Bench.step_snd, ← Bench.step_machine]
  simp only [Bool.false_eq_true, if_false]
  rcases r.bench.step ask with ⟨bench, _ | fault⟩
  · change (pace o ⟨bench, r.steps + 1, r.readings + 1⟩).1.bench.machine = bench.machine
    rcases pace_cases o ⟨bench, r.steps + 1, r.readings + 1⟩ with ⟨schedule, hpace⟩ |
        ⟨_, trouble, hpace⟩
    · rw [hpace]; rfl
    · rw [hpace]
  · rfl

/-- With a reason to end, a turn leaves the machine. -/
theorem turn_of_not_entersStep {r : Run σ} (h : r.entersStep o = false) :
    (r.turn ask o).1.bench.machine = r.bench.machine := by
  unfold turn
  split
  · rfl
  · split
    · rfl
    · split
      · rfl
      · split
        · rfl
        · rename_i hhalted hfault hstops hspent
          rw [← Bool.not_eq_true, entersStep] at h
          simp_all

/-- A turn did what its entry says. -/
theorem turn_leads (r : Run σ) :
    r.bench.machine.Leads (r.entered ask o) (r.turn ask o).1.bench.machine := by
  unfold entered
  cases h : r.entersStep o with
  | true => exact ⟨rfl, (turn_of_entersStep h).symm⟩
  | false => exact (turn_of_not_entersStep h).symm

/-- **The entries of a run lead from the machine before it to the machine after it.** -/
theorem loop_leads (turns : Nat) (r : Run σ) :
    r.bench.machine.Leads (r.entries ask o turns) (loop ask o turns r).1.bench.machine := by
  induction turns generalizing r with
  | zero => rfl
  | succ turns ih =>
      have hturn : r.bench.machine.Leads (r.entered ask o) (r.turn ask o).1.bench.machine :=
        r.turn_leads
      rw [loop, entries]
      rcases hend : r.turn ask o with ⟨next, _ | ending⟩
      · rw [hend] at hturn
        exact hturn.append (ih next)
      · rw [hend] at hturn
        exact hturn

end Run

theorem Bench.run_leads (ask : Clock σ) (o : RunOptions) (turns : Nat) (b : Bench σ) :
    b.machine.Leads (b.entries ask o turns) (b.run ask o turns).1.bench.machine := by
  unfold entries run
  cases b.schedule.reset 0 b.machine.rate with
  | error trouble => rfl
  | ok schedule => exact Run.loop_leads turns { bench := { b with schedule } }

namespace Machine

/-! ## What a step adds to the counts -/

/-- **A step asks for a tone if it is entered while the sound timer runs**, whatever becomes of it. -/
theorem step_requests (m : Machine) (now : Seconds) :
    (m.step now).machine.buzzer.requests =
      m.buzzer.requests + [(⟨m, now⟩ : StepEntry)].countP StepEntry.sounding := by
  have htoned : m.toned.requests =
      m.buzzer.requests + if 0 < m.board.sound.value then 1 else 0 := by
    unfold toned
    split
    · exact m.buzzer.emit_requests
    · rfl
  rw [List.countP_singleton, StepEntry.sounding]
  rcases m.step_cases now with ⟨hhalted, hs⟩ | ⟨hrun, fault, _, _, hs⟩ | ⟨hrun, _, _, hs⟩
  · rw [hs, hhalted]
    rfl
  · rw [hs, hrun, htoned]
    simp
  · rw [hs, hrun, publish_eq]
    change m.toned.requests = _
    rw [htoned]
    simp

/-- The processor's count is ahead of the machine's by the steps that failed although their word was
fetched. -/
structure Ahead (m : Machine) (lost : Nat) : Prop where
  follows : m.FollowsProcessor
  count : m.board.processor.count = m.steps + lost

/-- **A step moves the two counts together**, unless it fails after its fetch. -/
theorem Ahead.step {m : Machine} {lost : Nat} (h : m.Ahead lost) (now : Seconds) :
    (m.step now).machine.Ahead (lost + [(⟨m, now⟩ : StepEntry)].countP StepEntry.failsFetched) := by
  refine ⟨h.follows.step now, ?_⟩
  have hcount := h.count
  rw [List.countP_singleton, StepEntry.failsFetched]
  rcases m.step_cases now with ⟨_, hs⟩ | ⟨_, fault, hfault, hf, hs⟩ | ⟨hrun, hok, hf, hs⟩
  · rw [hs]
    exact hcount
  · rw [hf, hs]
    rcases Board.step_of_fault hfault with ⟨hfetch, hboard⟩ | ⟨word, hfetch, hboard⟩
    · rw [hfetch, hboard]
      exact hcount
    · rw [hfetch, hboard]
      change m.board.processor.count + 1 = m.steps + (lost + 1)
      omega
  · -- the processor is not halted either, so a word was fetched and carried out
    have hawake : m.board.processor.halted = false := h.follows.symm.trans hrun
    rw [hf, hs, publish_eq]
    change (m.board.step now).board.processor.count = m.steps + 1 + lost
    rcases m.board.step_cases now with ⟨hhalted, _⟩ | ⟨_, fault, _, hb⟩ | ⟨_, word, _, hb⟩
    · rw [hawake] at hhalted; exact absurd hhalted (by simp)
    · rw [hb] at hok; exact absurd hok (by simp)
    · rw [hb]
      change m.board.processor.count + 1 = _
      omega

/-! ## What any operation adds -/

/-- What a step adds to a count is added up over steps that lead from one machine to another. -/
theorem Leads.adds {P : Machine → Nat → Prop} {counted : StepEntry → Bool}
    (hstep : ∀ m k now, P m k → P (m.step now).machine (k + [⟨m, now⟩].countP counted))
    (hfault : ∀ m k fault, P m k → P (m.recordFault fault) k)
    {entries : List StepEntry} {m after : Machine} {k : Nat} (hleads : m.Leads entries after)
    (h : P m k) : P after (k + entries.countP counted) := by
  induction entries generalizing m k with
  | nil =>
      obtain rfl : m = after := hleads
      exact h
  | cons e rest ih =>
      obtain ⟨m', now⟩ := e
      obtain ⟨rfl, hrest⟩ := hleads
      have hone := hstep m' k now h
      have hafter : P (⟨m', now⟩ : StepEntry).after (k + [⟨m', now⟩].countP counted) := by
        unfold StepEntry.after
        cases (m'.step now).fault with
        | some fault => exact hfault _ _ fault hone
        | none => exact hone
      rw [List.countP_cons, ← List.countP_singleton, Nat.add_comm (rest.countP _), ← Nat.add_assoc]
      exact ih hrest hafter

theorem perform_requests (m : Machine) (operation : Operation) :
    (m.perform operation).buzzer.requests =
      m.buzzer.requests + (m.entries operation).countP StepEntry.sounding := by
  cases operation with
  | step now => exact m.step_requests now
  | run options readings schedule turns =>
      refine Leads.adds (P := fun m k => m.buzzer.requests = k) ?_ (fun _ _ _ h => h)
        (Bench.run_leads (clockOf readings) options turns { machine := m, clock := 0, schedule }) rfl
      rintro m' k now rfl
      exact m'.step_requests now
  | load program =>
      rcases m.perform_load_cases program with ⟨_, memory, _, hm⟩ | ⟨_, _, hm⟩
      · rw [hm]; rfl
      · rw [hm]; rfl
  | unlisten listener =>
      obtain ⟨listeners, hm⟩ := m.perform_unlisten listener
      rw [hm]
      rfl
  | _ => rfl

end Machine

/-- The operation resets the machine. -/
def Operation.Resets : Operation → Prop
  | .reset _ => True
  | _ => False

namespace Machine

theorem Ahead.perform {m : Machine} {lost : Nat} (h : m.Ahead lost) {operation : Operation}
    (hleaves : operation.LeavesProcessor) (hkept : ¬ operation.Resets) :
    (m.perform operation).Ahead
      (lost + (m.entries operation).countP StepEntry.failsFetched) := by
  cases operation with
  | step now => exact h.step now
  | stepProcessor now => exact hleaves.elim
  | resetProcessor => exact hleaves.elim
  | reset now => exact absurd trivial hkept
  | run options readings schedule turns =>
      exact Leads.adds (P := Ahead) (fun _ _ now h => h.step now) (fun _ _ _ h => ⟨h.follows, h.count⟩)
        (Bench.run_leads (clockOf readings) options turns { machine := m, clock := 0, schedule }) h
  | load program =>
      rcases m.perform_load_cases program with ⟨_, memory, _, hm⟩ | ⟨_, _, hm⟩
      · rw [hm]; exact ⟨h.follows, h.count⟩
      · rw [hm]; exact h
  | unlisten listener =>
      obtain ⟨listeners, hm⟩ := m.perform_unlisten listener
      rw [hm]
      exact ⟨h.follows, h.count⟩
  | _ => exact ⟨h.follows, h.count⟩

/-! ## The main statement -/

/-- The machine was just switched on or reset. -/
inductive JustOn : Machine → Prop
  | new (random : RandomSource) (now : Seconds) (buzzer : Buzzer) (rate : Number.Quantity) :
      JustOn { Machine.new random now with buzzer, rate }
  | reset (m : Machine) (now : Seconds) : JustOn (m.reset now)

theorem JustOn.ahead {m : Machine} (h : m.JustOn) : m.Ahead 0 := by
  cases h with
  | new random now buzzer rate => exact ⟨rfl, rfl⟩
  | reset m now => exact ⟨rfl, rfl⟩

theorem performAll_ahead (operations : List Operation)
    (hall : ∀ operation ∈ operations, operation.LeavesProcessor ∧ ¬ operation.Resets) {m : Machine}
    {lost : Nat} (h : m.Ahead lost) :
    (m.performAll operations).Ahead (lost + (m.log operations).countP StepEntry.failsFetched) := by
  induction operations generalizing m lost with
  | nil => exact h
  | cons operation rest ih =>
      obtain ⟨hleaves, hkept⟩ := hall operation List.mem_cons_self
      rw [log, List.countP_append, ← Nat.add_assoc]
      exact ih (fun o ho => hall o (List.mem_cons_of_mem _ ho)) (h.perform hleaves hkept)

theorem performAll_requests (operations : List Operation) (m : Machine) :
    (m.performAll operations).buzzer.requests =
      m.buzzer.requests + (m.log operations).countP StepEntry.sounding := by
  induction operations generalizing m with
  | nil => rfl
  | cons operation rest ih =>
      rw [log, List.countP_append, ← Nat.add_assoc, ← perform_requests]
      exact ih (m.perform operation)

/--
**The counts of a machine agree with the log of its steps.**

Since it was switched on or reset, the processor has counted the machine's steps and those that failed
after their fetch. And over its whole life, resets included, a tone was asked for by each step that was
entered while the machine was not halted and the sound timer ran, also by those that failed. What the
log holds of a run is what the run did.
-/
theorem counts_agree (operations : List Operation) (start : Machine) :
    (start.JustOn →
      (∀ operation ∈ operations, operation.LeavesProcessor ∧ ¬ operation.Resets) →
      (start.performAll operations).board.processor.count =
        (start.performAll operations).steps +
          (start.log operations).countP StepEntry.failsFetched) ∧
    (start.performAll operations).buzzer.requests =
      start.buzzer.requests + (start.log operations).countP StepEntry.sounding ∧
    ∀ options readings schedule turns,
      start.Leads (start.entries (.run options readings schedule turns))
        (start.perform (.run options readings schedule turns)) := by
  refine ⟨fun hon hall => ?_, start.performAll_requests operations, ?_⟩
  · have hahead := performAll_ahead operations hall hon.ahead
    rw [Nat.zero_add] at hahead
    exact hahead.count
  · intro options readings schedule turns
    exact Bench.run_leads (clockOf readings) options turns { machine := start, clock := 0, schedule }

/-- A word that is no instruction, stepped on while the sound timer runs: the processor counts it and
a tone is asked for, but it is no step of the machine. -/
theorem counts_agree_unknown_word :
    let start := Machine.new (.ofSeed 7) 0.25
    let operations : List Operation := [.load [0xFF, 0xFF], .sound 0.25 (.set 30), .step 0.5]
    (start.performAll operations).board.processor.count = 1 ∧
      (start.performAll operations).steps = 0 ∧
      (start.performAll operations).buzzer.requests = 1 := by
  intro start operations
  obtain ⟨memory, hload, hm⟩ := start.perform_load [0xFF, 0xFF] (by decide)
  let m : Machine := (start.perform (.load [0xFF, 0xFF])).perform (.sound 0.25 (.set 30))
  have hwork : m.AtWork memory 0x200 ∧ m.steps = 0 := by
    simp only [m, hm]
    exact ⟨⟨rfl, rfl, rfl, rfl, rfl⟩, rfl⟩
  have hfetch : memory.fetch 0x200 = .ok 0xFFFF :=
    Memory.fetch_word hload (k := 0) rfl rfl (by decide) rfl
  have hfault : (m.step 0.5).fault = some (.unknownInstruction 0xFFFF 0x200) :=
    hwork.1.unknown hfetch rfl 0.5
  have hsteps : (start.performAll operations).steps = 0 := by
    have hend : start.performAll operations = (m.step 0.5).machine := rfl
    rw [hend, step_steps hwork.1.running, hfault]
    exact hwork.2
  have hlog : start.log operations = [⟨m, 0.5⟩] := rfl
  have hfails : (start.log operations).countP StepEntry.failsFetched = 1 := by
    rw [hlog, List.countP_singleton, StepEntry.failsFetched, hfault, hwork.1.fetch hfetch]
    rfl
  have hsounding : (start.log operations).countP StepEntry.sounding = 1 := by
    rw [hlog, List.countP_singleton, StepEntry.sounding, hwork.1.running]
    rfl
  obtain ⟨hcount, hrequests, _⟩ := counts_agree operations start
  have hon : start.JustOn := .new (.ofSeed 7) 0.25 start.buzzer start.rate
  refine ⟨?_, hsteps, ?_⟩
  · rw [hcount hon (by simp [operations, Operation.LeavesProcessor, Operation.Resets]), hfails]
    exact congrArg (· + 1) hsteps
  · rw [hrequests, hsounding]
    rfl

end Machine

end ChipEight
