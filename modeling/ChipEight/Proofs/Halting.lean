import ChipEight.Proofs.Activity
import ChipEight.Proofs.Decode
import ChipEight.Proofs.Drivers

/-!
# Halting

A machine halts in one way: its step finds the end mark at the program counter. Nothing is asked of
the byte after the mark, nor whether there is one, and the counter may be odd, so a byte that was
meant as data ends the program too when a jump leads to it.

Two flags tell of a halt. The processor sets its own when it carries the mark out, and the machine
follows it at the end of the step; every way of driving a machine looks at the machine's flag alone.
They agree as long as nobody steps or resets the processor by itself, because a step that does not
come to its end has not halted the processor either.

From then on nothing but a reset gets the machine to go on. No loop comes as far as its first step,
so the machine that comes out is the one that went in; only its keys still move.
-/

namespace ChipEight

open Number

namespace Board

variable {b : Board}

/-- The byte at the program counter is the end mark. -/
def AtEndMark (b : Board) : Prop :=
  0 ≤ b.processor.pc ∧ b.processor.pc ≤ 0xFFF ∧ b.memory.byteAt b.processor.pc.toNat = 0x0A

/-- The first byte of a word is its upper half. -/
theorem wordOf_high (high low : UInt8) :
    (Memory.wordOf high low).toNat / 256 = high.toNat := by
  have hhigh := high.toNat_lt
  have hlow := low.toNat_lt
  simp only [Memory.wordOf, UInt16.toNat_ofNat']
  omega

/-- At the end mark the fetch never fails, not even on the last byte. -/
theorem AtEndMark.fetch (h : b.AtEndMark) : b.memory.fetch b.processor.pc = .ok 0x0A00 := by
  obtain ⟨hlow, hhigh, hmark⟩ := h
  rw [Memory.fetch_eq, if_pos ⟨hlow, hhigh⟩, if_pos hmark]
  rfl

/-- **A fetched word ends the program exactly at the end mark.** -/
theorem decode_fetched {word : UInt16} (hf : b.memory.fetch b.processor.pc = .ok word) :
    Instruction.decode word = .endProgram ↔ b.AtEndMark := by
  constructor
  · intro hd
    rw [Instruction.decode_eq_endProgram] at hd
    obtain ⟨hlow, hhigh, _⟩ := Memory.fetch_ok_bounds hf
    refine ⟨hlow, hhigh, ?_⟩
    rw [Memory.fetch_eq, if_pos ⟨hlow, hhigh⟩] at hf
    by_cases hmark : b.memory.byteAt b.processor.pc.toNat = endMark
    · exact hmark
    · -- two bytes were fetched, and the first of them is the mark all the same
      rw [if_neg hmark] at hf
      by_cases hlast : b.processor.pc = 0xFFF
      · rw [if_pos hlast] at hf
        exact absurd hf (by simp)
      · rw [if_neg hlast] at hf
        rw [← Except.ok.inj hf, wordOf_high] at hd
        exact UInt8.toNat_inj.mp hd
  · intro hmark
    rw [hmark.fetch] at hf
    rw [← Except.ok.inj hf]
    rfl

/-- A step that faults halts nothing, and neither does one on a halted processor. -/
theorem step_halted_of_fault {now : Seconds} (h : (b.step now).fault ≠ none) :
    (b.step now).board.processor.halted = b.processor.halted := by
  obtain ⟨fault, hfault⟩ := Option.ne_none_iff_exists'.mp h
  rcases step_of_fault hfault with ⟨_, hboard⟩ | ⟨_, _, hboard⟩
  · rw [hboard]
  · rw [hboard]
    rfl

/-- **A step without a fault halts the processor exactly at the end mark.** -/
theorem step_halted_iff {now : Seconds} (hrun : b.processor.halted = false)
    (hok : (b.step now).fault = none) :
    (b.step now).board.processor.halted = true ↔ b.AtEndMark := by
  cases hfetch : b.memory.fetch b.processor.pc with
  | error fault =>
      rw [step_fault_of_fetch_error hrun hfetch] at hok
      exact absurd hok (by simp)
  | ok word =>
      rw [(step_of_fetch hrun hfetch now).1, ← decode_fetched hfetch]
      change b.advanced.haltedAfter (Instruction.decode word) = true ↔ _
      constructor
      · intro hhalted
        by_cases hend : Instruction.decode word = .endProgram
        · exact hend
        · -- no other instruction touches the flag
          have hsame : b.advanced.haltedAfter (Instruction.decode word) = false := by
            cases hd : Instruction.decode word with
            | endProgram => exact absurd hd hend
            | _ => exact hrun
          rw [hsame] at hhalted
          exact absurd hhalted (by simp)
      · intro hend
        rw [hend]
        rfl

/-- At the end mark a step succeeds and leaves the counter past the mark and one byte more. -/
theorem AtEndMark.step (h : b.AtEndMark) (hrun : b.processor.halted = false) (now : Seconds) :
    (b.step now).fault = none ∧ (b.step now).board.processor.pc = b.processor.pc + 2 := by
  obtain ⟨hboard, hfault⟩ := step_of_fetch hrun h.fetch now
  have hdecode : Instruction.decode 0x0A00 = .endProgram := rfl
  rw [hdecode] at hboard hfault
  rw [hboard]
  exact ⟨hfault, rfl⟩

end Board

namespace Machine

variable {m : Machine}

/-! ## The machine follows its processor -/

/-- The machine is halted exactly if its processor is. -/
def FollowsProcessor (m : Machine) : Prop := m.halted = m.board.processor.halted

theorem FollowsProcessor.step (h : m.FollowsProcessor) (now : Seconds) :
    (m.step now).machine.FollowsProcessor := by
  rcases m.step_cases now with ⟨_, hs⟩ | ⟨_, fault, hfault, _, hs⟩ | ⟨hrun, hok, _, _⟩
  · rw [hs]; exact h
  · rw [hs]
    have hne : (m.board.step now).fault ≠ none := by rw [hfault]; simp
    exact h.trans (Board.step_halted_of_fault hne).symm
  · obtain ⟨hboard, hhalted⟩ := step_of_success hrun hok
    rw [FollowsProcessor, hhalted, hboard]
    rfl

theorem FollowsProcessor.perform (h : m.FollowsProcessor) {operation : Operation}
    (hleaves : operation.LeavesProcessor) : (m.perform operation).FollowsProcessor := by
  cases operation with
  | step now => exact h.step now
  | stepProcessor now => exact hleaves.elim
  | run options readings schedule turns =>
      exact Bench.run_keeps (P := FollowsProcessor) (fun _ now h => h.step now)
        (fun _ _ h => h) _ _ _ h
  | load program =>
      rcases m.perform_load_cases program with ⟨_, memory, _, hm⟩ | ⟨_, _, hm⟩
      · rw [hm]; exact h
      · rw [hm]; exact h
  | resetProcessor => exact hleaves.elim
  | reset now => rfl
  | unlisten listener =>
      obtain ⟨listeners, hm⟩ := m.perform_unlisten listener
      rw [hm]
      exact h
  | _ => exact h

theorem FollowsProcessor.engage (h : m.FollowsProcessor) {activity : Activity}
    (hleaves : activity.LeavesProcessor) : (m.engage activity).FollowsProcessor := by
  cases activity with
  | operation o => exact h.perform hleaves
  | changeRate rate =>
      obtain ⟨rate', hm⟩ := m.engage_changeRate rate
      rw [hm]
      exact h
  | entitle title => exact h
  | changeBuzzer change => exact h
  | frame wanted limit inspector readings schedule =>
      exact Inspector.runSteps_keeps (P := FollowsProcessor) (fun _ now h => h.step now)
        (fun _ _ h => h) _ _ _ h
  | session conditions answers readings wallReadings turns =>
      exact Session.loop_keeps (P := FollowsProcessor) (fun _ now h => h.step now)
        (fun _ _ h => h) _ _ _ _ h

end Machine

theorem Employed.followsProcessor {m : Machine} (h : Employed m) : m.FollowsProcessor := by
  induction h with
  | new random now buzzer rate => rfl
  | after _ hleaves ih => exact ih.engage hleaves

namespace Machine

variable {m : Machine}

/-- **A step of a running machine halts it exactly at the end mark.** -/
theorem FollowsProcessor.step_halts (h : m.FollowsProcessor) (hrun : m.halted = false)
    (now : Seconds) : (m.step now).machine.halted = true ↔ m.board.AtEndMark := by
  have hawake : m.board.processor.halted = false := h.symm.trans hrun
  rcases m.step_cases now with ⟨hhalted, _⟩ | ⟨_, fault, hfault, _, hs⟩ | ⟨_, hok, _, _⟩
  · rw [hrun] at hhalted; exact absurd hhalted (by simp)
  · rw [hs]
    constructor
    · intro hhalted
      exact absurd (hrun.symm.trans hhalted) (by simp)
    · intro hmark
      rw [(hmark.step hawake now).1] at hfault
      exact absurd hfault (by simp)
  · rw [(step_of_success hrun hok).2]
    exact Board.step_halted_iff hawake hok

/-! ## A halted machine is at rest -/

/-- However the machine is driven, no step is taken and the same machine comes out. -/
structure AtRest (m : Machine) : Prop where
  /-- A step does nothing, not even ask for a tone. -/
  step : ∀ now, m.step now = ⟨m, none, []⟩
  /-- A run takes no step and reads no clock. It answers that the machine is halted, at every rate
  at which runs begin. -/
  run : ∀ {σ : Type} (ask : Clock σ) (o : RunOptions) (turns : Nat) (b : Bench σ), b.machine = m →
    (b.run ask o turns).1.steps = 0 ∧ (b.run ask o turns).1.bench.machine = m ∧
      (b.run ask o turns).1.bench.clock = b.clock ∧
      (0 < turns → m.rate.IsNumber → (b.run ask o turns).2 = some .halted)
  /-- A frame notes no address down. -/
  frame : ∀ {σ : Type} (ask : Clock σ) (wanted : Int) (limit : Option Int) (i : Inspector)
    (b : Bench σ), b.machine = m → Inspector.runFrame ask wanted limit i b = (i, b, none)
  /-- A session is over before its first step, and nobody is asked at a prompt. -/
  session : ∀ {σ ω : Type} (ask : Clock σ) (askWall : Clock ω) (c : StopConditions) (turns : Nat)
    (s : Session σ ω), s.bench.machine = m →
      Session.loop ask askWall c (turns + 1) s = (s, some .halted)

theorem atRest_of_halted (h : m.halted = true) : m.AtRest where
  step := by
    intro now
    rw [Machine.step, if_pos h]
  run := by
    rintro σ ask o turns b rfl
    by_cases hnumber : b.machine.rate.IsNumber
    · have hreset := b.schedule.reset_zero hnumber
      rw [Bench.run_eq_loop hreset]
      cases turns with
      | zero => exact ⟨rfl, rfl, rfl, fun hturns => absurd hturns (Nat.lt_irrefl 0)⟩
      | succ turns =>
          have hidle (schedule : Schedule) :
              Run.loop ask o (turns + 1) ⟨b.withSchedule schedule, 0, 0⟩ =
                (⟨b.withSchedule schedule, 0, 0⟩,
                  some (if b.machine.halted then .halted else .faulted)) :=
            Bench.loop_of_idle (Or.inl h)
          rw [hidle]
          exact ⟨rfl, rfl, rfl, fun _ _ => congrArg some (if_pos h)⟩
    · rw [Bench.run_undefined o turns hnumber]
      exact ⟨rfl, rfl, rfl, fun _ hn => absurd hn hnumber⟩
  frame := by
    rintro σ ask wanted limit i b rfl
    have hover : b.machine.over = true := by
      rw [Machine.over, h]
      rfl
    exact Inspector.runSteps_over hover _ i
  session := by
    rintro σ ω ask askWall c turns s rfl
    have hbefore : s.finishBefore c = some .halted := by
      rw [Session.finishBefore, if_pos h]
    rw [Session.loop, Session.turn_finished hbefore]

end Machine

/-! ## Only a reset ends a halt -/

/-- The machine is reset. -/
def Activity.Resets : Activity → Prop
  | .operation (.reset _) => True
  | _ => False

/-- The machine is driven or its keys are moved. -/
def Activity.DrivesOrKeys : Activity → Prop
  | .operation (.step _) | .operation (.run ..) | .frame .. | .session .. => True
  | .operation (.key _) | .operation .clearKeypad => True
  | _ => False

/-- The keypad after an activity that takes no step. -/
def Activity.moveKeys (keypad : Keypad) : Activity → Keypad
  | .operation (.key event) => keypad.handle event
  | .operation .clearKeypad => keypad.clear
  | _ => keypad

namespace Machine

variable {m : Machine}

/-- **Whatever is done with a halted machine leaves it halted**, unless it is reset. -/
theorem engage_halted (h : m.halted = true) {activity : Activity} (hkept : ¬ activity.Resets) :
    (m.engage activity).halted = true := by
  have hstep : ∀ (m : Machine) (now : Seconds), m.halted = true →
      (m.step now).machine.halted = true := by
    intro m now h
    rw [(atRest_of_halted h).step]
    exact h
  cases activity with
  | changeRate rate =>
      obtain ⟨rate', hm⟩ := m.engage_changeRate rate
      rw [hm]
      exact h
  | entitle title => exact h
  | changeBuzzer change => exact h
  | frame wanted limit inspector readings schedule =>
      exact Inspector.runSteps_keeps (P := fun m => m.halted = true) hstep
        (fun _ _ h => h) _ _ _ h
  | session conditions answers readings wallReadings turns =>
      exact Session.loop_keeps (P := fun m => m.halted = true) hstep (fun _ _ h => h) _ _ _ _ h
  | operation o =>
      cases o with
      | step now => exact hstep m now h
      | run options readings schedule turns =>
          exact Bench.run_keeps (P := fun m => m.halted = true) hstep (fun _ _ h => h) _ _ _ h
      | load program =>
          change (m.perform (.load program)).halted = true
          rcases m.perform_load_cases program with ⟨_, memory, _, hm⟩ | ⟨_, _, hm⟩
          · rw [hm]; exact h
          · rw [hm]; exact h
      | reset now => exact absurd trivial hkept
      | unlisten listener =>
          change (m.perform (.unlisten listener)).halted = true
          obtain ⟨listeners, hm⟩ := m.perform_unlisten listener
          rw [hm]
          exact h
      | _ => exact h

theorem engageAll_halted (activities : List Activity)
    (hkept : ∀ activity ∈ activities, ¬ activity.Resets) (h : m.halted = true) :
    (m.engageAll activities).halted = true := by
  induction activities generalizing m with
  | nil => exact h
  | cons activity rest ih =>
      have hfirst := engage_halted h (hkept activity List.mem_cons_self)
      exact ih (fun a ha => hkept a (List.mem_cons_of_mem _ ha)) hfirst

/-- **Driving a halted machine changes nothing, and moving its keys changes its keypad.** -/
theorem engage_frozen (h : m.halted = true) {activity : Activity}
    (hplays : activity.DrivesOrKeys) :
    m.engage activity = m.withKeypad (activity.moveKeys m.board.keypad) := by
  have hrest := atRest_of_halted h
  cases activity with
  | changeRate rate => exact hplays.elim
  | entitle title => exact hplays.elim
  | changeBuzzer change => exact hplays.elim
  | frame wanted limit inspector readings schedule =>
      change (Inspector.runFrame (clockOf readings) wanted limit inspector
        { machine := m, clock := 0, schedule }).2.1.machine = m
      rw [hrest.frame _ _ _ _ _ rfl]
  | session conditions answers readings wallReadings turns =>
      cases turns with
      | zero => rfl
      | succ turns =>
          change (Session.loop (clockOf readings) (clockOf wallReadings) conditions (turns + 1)
            { bench := { machine := m, clock := 0 }, wall := 0, answers }).1.bench.machine = m
          rw [hrest.session _ _ _ _ _ rfl]
  | operation o =>
      cases o with
      | step now =>
          change (m.step now).machine = m
          rw [hrest.step]
      | run options readings schedule turns =>
          exact (hrest.run (clockOf readings) options turns
            { machine := m, clock := 0, schedule } rfl).2.1
      | key event => rfl
      | clearKeypad => rfl
      | _ => exact hplays.elim

theorem engageAll_frozen (activities : List Activity)
    (hplays : ∀ activity ∈ activities, activity.DrivesOrKeys) (h : m.halted = true) :
    m.engageAll activities =
      m.withKeypad (activities.foldl Activity.moveKeys m.board.keypad) := by
  induction activities generalizing m with
  | nil => rfl
  | cons activity rest ih =>
      have hfirst := engage_frozen h (hplays activity List.mem_cons_self)
      rw [engageAll, List.foldl_cons, List.foldl_cons, hfirst]
      -- another keypad does not get the machine to go on
      exact ih (fun a ha => hplays a (List.mem_cons_of_mem _ ha)) h

/-! ## The main statement -/

/-- How a machine halts and stays halted. -/
structure HaltsExactly (m : Machine) : Prop where
  /-- The machine and its processor are halted together. -/
  together : m.halted = true ↔ m.board.processor.halted = true
  /-- A step of a running machine halts it if it finds the end mark, and not otherwise. -/
  mark : m.halted = false → ∀ now,
    (m.step now).machine.halted = true ↔ m.board.AtEndMark
  /-- That step succeeds, and the program counter goes on by one word. -/
  counter : m.halted = false → m.board.AtEndMark → ∀ now,
    (m.step now).fault = none ∧
      (m.step now).machine.board.processor.pc = m.board.processor.pc + 2
  /-- Without a reset it stays halted, whatever else is done with it. -/
  oneWay : m.halted = true → ∀ activities : List Activity,
    (∀ activity ∈ activities, ¬ activity.Resets) → (m.engageAll activities).halted = true
  /-- Steps, runs, frames, sessions and keys in any order leave all of it as it is but for the
  keys, and none of them takes a step. -/
  frozen : m.halted = true → ∀ activities : List Activity,
    (∀ activity ∈ activities, activity.DrivesOrKeys) →
      m.engageAll activities =
          m.withKeypad (activities.foldl Activity.moveKeys m.board.keypad) ∧
        (m.engageAll activities).AtRest
  /-- A reset ends the halt. -/
  reset : ∀ now, (m.reset now).halted = false

end Machine

/--
**Halting is exact, one-way and frozen.**

The machine may have been employed in any way that leaves its processor to it: loads and resets,
failed steps, frames and sessions that ended by a fault are no exception.
-/
theorem halting_exact {m : Machine} (h : Employed m) : m.HaltsExactly where
  together := by
    rw [← h.followsProcessor]
  mark := fun hrun now => h.followsProcessor.step_halts hrun now
  counter := by
    intro hrun hmark now
    have hawake : m.board.processor.halted = false := h.followsProcessor.symm.trans hrun
    obtain ⟨hok, hpc⟩ := hmark.step hawake now
    refine ⟨(Machine.step_fault hrun now).trans hok, ?_⟩
    rw [(Machine.step_of_success hrun hok).1]
    exact hpc
  oneWay := fun hhalted activities hkept => Machine.engageAll_halted activities hkept hhalted
  frozen := by
    intro hhalted activities hplays
    have hfrozen := Machine.engageAll_frozen activities hplays hhalted
    refine ⟨hfrozen, ?_⟩
    rw [hfrozen]
    exact Machine.atRest_of_halted hhalted
  reset := fun _ => rfl

/-- A jump to the fourth byte of a program, which is the end mark at an odd address with 0x55 behind
it. Then a key goes down, and the machine is driven in all four ways. -/
theorem halting_exact_odd_address :
    let m := (Machine.new (.ofSeed 7) 0.25).engageAll
      [.operation (.load [0x12, 0x03, 0xFF, 0x0A, 0x55]), .operation (.step 0.5)]
    let ended := (m.step 0.75).machine
    Employed m ∧ m.halted = false ∧ m.board.processor.pc = 0x203 ∧
      ended.halted = true ∧ ended.board.processor.pc = 0x205 ∧
      ended.engageAll [.operation (.key (.press 3)), .operation (.step 1.0),
          .operation (.run {} (fun _ => 1.25) {} 2), .frame 8 none {} (fun _ => 1.5) {},
          .session { budget := some 2 } [] (fun _ => 1.75) (fun _ => 1.75) 3] =
        ended.withKeypad (ended.board.keypad.handle (.press 3)) := by
  intro m ended
  have hm : Employed m := by
    refine Employed.engageAll _ ?_ (.new _ _ {} Machine.standardRate)
    simp [Activity.LeavesProcessor, Operation.LeavesProcessor]
  obtain ⟨memory, hload, hwork, _⟩ :=
    Machine.loaded_atWork (.ofSeed 7) 0.25 [0x12, 0x03, 0xFF, 0x0A, 0x55] (by decide)
  have hjump : memory.fetch 0x200 = .ok 0x1203 :=
    Memory.fetch_word hload (k := 0) rfl rfl (by decide) rfl
  have hthere : m.AtWork memory 0x203 := (hwork.jump hjump rfl 0.5).2
  clear_value m
  have hmark : m.board.AtEndMark := by
    refine ⟨?_, ?_, ?_⟩
    · rw [hthere.pc]; decide
    · rw [hthere.pc]; decide
    · rw [hthere.pc, hthere.memory]
      exact Memory.byteAt_load hload 0x203
  have hexact := halting_exact hm
  have hhalted : ended.halted = true := (hexact.mark hthere.running 0.75).mpr hmark
  have hended : Employed (m.engage (.operation (.step 0.75))) := .after hm trivial
  refine ⟨hm, hthere.running, hthere.pc, hhalted, ?_, ?_⟩
  · rw [(hexact.counter hthere.running hmark 0.75).2, hthere.pc]
    decide
  · refine ((halting_exact hended).frozen hhalted _ ?_).1
    simp [Activity.DrivesOrKeys]

end ChipEight
