import ChipEight.Window
import ChipEight.Proofs.Allotment
import ChipEight.Proofs.Drivers
import Mathlib.Data.List.Forall2

/-!
# How many steps a window's machine has taken

A window lets its machine step in two ways: each iteration that is not paused takes the steps that
its budget allots, and during a pause the step key takes one. A limit on all steps cuts either of
them short. So the machine's count can be told from the events alone, without looking at the
machine: with U iterations that were not paused, M single steps, and a limit L, it is
min(L, ⌊U * rate / fps⌋ + M) as long as the machine can go on, and it stays where it is when it
cannot.

`Tally` hears the events and counts U and M. A limit may be applied to each part of a sum or to the
sum, so one lemma serves iterations and single steps alike (`Inspector.runFrame_counted`), and the
budget makes the floors of the allotments telescope. `WindowState.Accounts` ties a window to its
tally; it is kept by every event, then by every iteration, then through the loop.
-/

namespace ChipEight

open Number

variable {σ : Type}

/-! ## What the events ask for -/

/-- What can be told from the events: whether the window is paused, whether it was told to close,
the iterations whose events left it unpaused, and the single steps during pauses. -/
structure Tally where
  paused : Bool
  closing : Bool := false
  unpaused : Nat := 0
  singles : Nat := 0
  deriving DecidableEq, Repr

namespace Tally

/-- A key went down during a pause. -/
def hearPaused (t : Tally) (code : Int) : Tally :=
  if code = quitCode then { t with closing := true }
  else if code = spaceCode then { t with paused := false }
  else if code = stepCode then { t with singles := t.singles + 1 }
  else t

/-- An event was dealt with. -/
def hear (t : Tally) : HostEvent → Tally
  | .quit => { t with closing := true }
  | .keyDown code =>
    if code = escapeCode then { t with paused := !t.paused }
    else if t.paused then t.hearPaused code
    else t
  | .keyUp _ | .other => t

/-- The events of an iteration came to their end. -/
def close (t : Tally) : Tally :=
  if t.paused then t else { t with unpaused := t.unpaused + 1 }

/-- An iteration went by. -/
def pass (t : Tally) (events : List HostEvent) : Tally := (events.foldl hear t).close

/-- The tally after each iteration of a window. It is told to close at the end of the script, if it
was not before. -/
def course (t : Tally) : List (List HostEvent) → List Tally
  | [] => [t.pass [.quit]]
  | events :: rest =>
    let after := t.pass events
    if after.closing then [after] else after :: after.course rest

/-- The steps that were asked for by now. -/
def wanted (t : Tally) (rate fps : Int) : Int := t.unpaused * rate / fps + t.singles

end Tally

/-! ## Counting up to a limit -/

/-- A number of steps as far as a limit allows, if there is one. -/
def within (limit : Option Int) (n : Int) : Int :=
  match limit with
  | none => n
  | some limit => min limit n

/-- The machine has taken the steps that were wanted as far as the limit allows, or fewer if it came
to its end. -/
structure Machine.Counted (m : Machine) (limit : Option Int) (wanted : Int) : Prop where
  atMost : (m.steps : Int) ≤ within limit wanted
  exact : m.halted = false → m.fault = none → (m.steps : Int) = within limit wanted

/-- **A limit on a sum is a limit on its parts.** -/
theorem within_add (limit : Option Int) {wanted more : Int} (hmore : 0 ≤ more) {steps : Nat}
    (h : (steps : Int) = within limit wanted) :
    ((steps + (Inspector.allowedSteps more limit steps).toNat : Nat) : Int) =
      within limit (wanted + more) := by
  -- once the limit is reached it leaves nothing, and before that the whole of what is taken counts
  cases limit with
  | none =>
      simp only [within, Inspector.allowedSteps] at h ⊢
      omega
  | some limit =>
      simp only [within, Inspector.allowedSteps] at h ⊢
      omega

theorem within_add_le (limit : Option Int) {wanted more : Int} (hmore : 0 ≤ more) {steps k : Nat}
    (h : (steps : Int) ≤ within limit wanted)
    (hk : k ≤ (Inspector.allowedSteps more limit steps).toNat) :
    ((steps + k : Nat) : Int) ≤ within limit (wanted + more) := by
  cases limit with
  | none =>
      simp only [within, Inspector.allowedSteps] at h hk ⊢
      omega
  | some limit =>
      simp only [within, Inspector.allowedSteps] at h hk ⊢
      omega

/-- Driving takes the steps it is given, unless the machine comes to its end. -/
theorem drive_steps (ask : Clock σ) (n : Nat) (m : Machine) (clock : σ) :
    (drive ask n m clock).steps ≤ n ∧
      ((drive ask n m clock).machine.over = false → (drive ask n m clock).steps = n) := by
  induction n generalizing m clock with
  | zero => exact ⟨Nat.le_refl 0, fun _ => rfl⟩
  | succ n ih =>
      cases hover : m.over with
      | true =>
          rw [drive_over hover]
          refine ⟨Nat.zero_le _, fun h => ?_⟩
          rw [hover] at h
          exact absurd h (by simp)
      | false =>
          cases hfault : (m.step (ask clock).1).fault with
          | some fault =>
              rw [drive_fault hover hfault]
              refine ⟨Nat.zero_le _, fun h => ?_⟩
              -- it keeps the fault, so it did come to its end
              simp [Machine.over, Machine.recordFault] at h
          | none =>
              rw [drive_step hover hfault]
              obtain ⟨hle, heq⟩ := ih (m.step (ask clock).1).machine (ask clock).2
              exact ⟨Nat.succ_le_succ hle, fun h => congrArg (· + 1) (heq h)⟩

/-- What can still go on after driving could go on before. -/
theorem over_eq_false_of_drive {ask : Clock σ} {n : Nat} {m : Machine} {clock : σ}
    (h : (drive ask n m clock).machine.over = false) : m.over = false := by
  cases hover : m.over with
  | false => rfl
  | true =>
      rw [drive_over hover] at h
      exact hover.symm.trans h

namespace Inspector

/-- **A frame by a number of steps adds that number to what was wanted.** -/
theorem runFrame_counted (ask : Clock σ) {limit : Option Int} {wanted more : Int}
    (hmore : 0 ≤ more) (i : Inspector) {b : Bench σ} (hnumber : b.machine.rate.IsNumber)
    (h : b.machine.Counted limit wanted) :
    ∃ i' b', runFrame ask more limit i b = (i', b', none) ∧
      b'.machine.Counted limit (wanted + more) ∧ b'.machine.rate = b.machine.rate := by
  let n := (allowedSteps more limit b.machine.steps).toNat
  obtain ⟨i', b', hrun, hleft⟩ := runSteps_drive ask n i b hnumber
  obtain ⟨hrate, hsteps⟩ := drive_keeps ask n b.machine b.clock
  obtain ⟨hle, heq⟩ := drive_steps ask n b.machine b.clock
  rw [← hleft.1] at hrate hsteps heq
  refine ⟨i', b', hrun, ⟨?_, ?_⟩, hrate⟩
  · rw [hsteps]
    exact within_add_le limit hmore h.atMost hle
  · -- what can go on was driven all the way, and could go on before
    intro hhalted hfault
    have hover : b'.machine.over = false := Machine.over_eq_false.mpr ⟨hhalted, hfault⟩
    have hbefore : b.machine.over = false := over_eq_false_of_drive (hleft.1 ▸ hover)
    obtain ⟨hhalted', hfault'⟩ := Machine.over_eq_false.mp hbefore
    rw [hsteps, heq hover]
    exact within_add limit hmore (h.exact hhalted' hfault')

end Inspector

/-! ## A window keeps to the tally -/

namespace WindowState

/-- A window is where the tally of the events so far has it. -/
structure Accounts (o : WindowOptions) (rate : Int) (t : Tally) (w : WindowState σ) : Prop where
  /-- It is paused if the events say so. -/
  paused : w.paused = t.paused
  /-- It goes on unless it was told to close. -/
  running : w.running = !t.closing
  /-- The rate is the one that the window was opened at. -/
  atRate : w.bench.machine.rate = .whole rate
  /-- Every iteration that was not paused has had its allotment, and no other. -/
  budget : w.budget =
    { rate := .whole rate, fps := .whole o.fps, frames := t.unpaused
      issued := t.unpaused * rate / o.fps }
  /-- The machine took the steps that were asked for. -/
  counted : w.bench.machine.Counted o.limit (t.wanted rate o.fps)

variable {time : WindowTime σ} {o : WindowOptions} {rate : Int} {t : Tally} {w : WindowState σ}

/-- A window at whole rates can always let its machine take steps, and they count. -/
theorem runSteps_counted (time : WindowTime σ) {wanted more : Int} (hmore : 0 ≤ more)
    (hrate : w.bench.machine.rate = .whole rate) (h : w.bench.machine.Counted o.limit wanted) :
    ∃ inspector bench, w.runSteps time o more = ({ w with inspector, bench }, none) ∧
      bench.machine.rate = .whole rate ∧ bench.machine.Counted o.limit (wanted + more) := by
  have hnumber : w.bench.machine.rate.IsNumber := by rw [hrate]; trivial
  obtain ⟨inspector, bench, hrun, hcounted, hkept⟩ :=
    Inspector.runFrame_counted time.ask hmore w.inspector hnumber h
  refine ⟨inspector, bench, ?_, hkept.trans hrate, hcounted⟩
  rw [runSteps, hrun]

/-! ### Events -/

theorem Accounts.togglePause (h : w.Accounts o rate t) :
    w.togglePause.Accounts o rate { t with paused := !t.paused } where
  paused := congrArg not h.paused
  running := h.running
  atRate := h.atRate
  budget := h.budget
  counted := h.counted

theorem Accounts.onKeypad (h : w.Accounts o rate t) (change : Keypad → Keypad) :
    (w.onKeypad change).Accounts o rate t where
  paused := h.paused
  running := h.running
  atRate := h.atRate
  budget := h.budget
  counted := ⟨h.counted.atMost, h.counted.exact⟩

theorem Accounts.hostKey (h : w.Accounts o rate t) (map : KeyMap) (code : Int)
    (change : Keypad → Key → Keypad) : (w.hostKey map code change).Accounts o rate t := by
  unfold WindowState.hostKey
  cases map.key? code with
  | none => exact h
  | some key => exact h.onKeypad _

theorem Accounts.close (h : w.Accounts o rate t) :
    ({ w with running := false } : WindowState σ).Accounts o rate { t with closing := true } where
  paused := h.paused
  running := rfl
  atRate := h.atRate
  budget := h.budget
  counted := h.counted

/-- The step key asks for one more step. -/
theorem Accounts.single (h : w.Accounts o rate t) (time : WindowTime σ) :
    ∃ w', w.runSteps time o 1 = (w', none) ∧
      w'.Accounts o rate { t with singles := t.singles + 1 } := by
  obtain ⟨inspector, bench, hrun, hrate, hcounted⟩ :=
    runSteps_counted time (show (0 : Int) ≤ 1 by decide) h.atRate h.counted
  refine ⟨_, hrun, h.paused, h.running, hrate, h.budget, ?_⟩
  rw [Tally.wanted, Int.natCast_add, ← Int.add_assoc]
  exact hcounted

theorem Accounts.pausedKey (h : w.Accounts o rate t) (time : WindowTime σ) (code : Int) :
    ∃ w', w.pausedKey time o code = (w', none) ∧ w'.Accounts o rate (t.hearPaused code) := by
  unfold WindowState.pausedKey Tally.hearPaused
  by_cases hquit : code = quitCode
  · rw [if_pos hquit, if_pos hquit]
    exact ⟨_, rfl, h.close⟩
  rw [if_neg hquit, if_neg hquit]
  by_cases hspace : code = spaceCode
  · rw [if_pos hspace, if_pos hspace]
    exact ⟨_, rfl, rfl, h.running, h.atRate, h.budget, h.counted⟩
  rw [if_neg hspace, if_neg hspace]
  by_cases hstep : code = stepCode
  · rw [if_pos hstep, if_pos hstep]
    obtain ⟨w', hrun, h'⟩ := h.single time
    rw [hrun]
    exact ⟨_, rfl, h'.paused, h'.running, h'.atRate, h'.budget, h'.counted⟩
  · rw [if_neg hstep, if_neg hstep]
    exact ⟨w, rfl, h⟩

/-- **An event is heard.** -/
theorem Accounts.handle (h : w.Accounts o rate t) (time : WindowTime σ) (event : HostEvent) :
    ∃ w', w.handle time o event = (w', none) ∧ w'.Accounts o rate (t.hear event) := by
  cases event with
  | quit => exact ⟨_, rfl, h.close⟩
  | keyUp code => exact ⟨_, rfl, h.hostKey o.keyMap code Keypad.release⟩
  | other => exact ⟨w, rfl, h⟩
  | keyDown code =>
      -- the window and the tally look at the code in the same order
      rw [WindowState.handle, Tally.hear]
      by_cases hescape : code = escapeCode
      · rw [if_pos hescape, if_pos hescape]
        exact ⟨_, rfl, h.togglePause⟩
      rw [if_neg hescape, if_neg hescape, ← h.paused]
      cases w.paused with
      | true => exact h.pausedKey time code
      | false => exact ⟨_, rfl, h.hostKey o.keyMap code Keypad.press⟩

theorem Accounts.handleAll (time : WindowTime σ) (events : List HostEvent)
    (h : w.Accounts o rate t) :
    ∃ w', w.handleAll time o events = (w', none) ∧
      w'.Accounts o rate (events.foldl Tally.hear t) := by
  induction events generalizing w t with
  | nil => exact ⟨w, rfl, h⟩
  | cons event rest ih =>
      obtain ⟨w', hevent, h'⟩ := h.handle time event
      rw [WindowState.handleAll, hevent]
      exact ih h'

/-! ### Iterations -/

/-- **After the events a window takes its allotment, unless it is paused.** -/
theorem Accounts.advance (h : w.Accounts o rate t) (hrate : 0 < rate) (hfps : 0 < o.fps)
    (time : WindowTime σ) :
    ∃ w', w.advance time o = (w', none) ∧ w'.Accounts o rate t.close := by
  cases hpaused : w.paused with
  | true =>
      have htally : t.paused = true := h.paused.symm.trans hpaused
      rw [WindowState.advance, if_pos hpaused, Tally.close, if_pos htally]
      exact ⟨_, rfl, h.paused, h.running, h.atRate, h.budget, h.counted.atMost, h.counted.exact⟩
  | false =>
      have htally : t.paused = false := h.paused.symm.trans hpaused
      have hmore := Int.sub_nonneg_of_le (FrameBudget.due_mono hrate hfps t.unpaused)
      let budget : FrameBudget :=
        { rate := .whole rate, fps := .whole o.fps, frames := t.unpaused + 1
          issued := (t.unpaused + 1) * rate / o.fps }
      obtain ⟨inspector, bench, hrun, hkept, hcounted⟩ :=
        runSteps_counted (w := { w with budget }) time hmore h.atRate h.counted
      rw [WindowState.advance, if_neg (Bool.eq_false_iff.mp hpaused), h.budget,
        FrameBudget.next_whole hfps, Tally.close, if_neg (Bool.eq_false_iff.mp htally)]
      refine ⟨_, hrun, h.paused, h.running, hkept, rfl, ?_⟩
      -- what is due by now is what was due before and the allotment
      have htelescope : ({ t with unpaused := t.unpaused + 1 } : Tally).wanted rate o.fps =
          t.wanted rate o.fps + ((t.unpaused + 1) * rate / o.fps - t.unpaused * rate / o.fps) := by
        simp only [Tally.wanted, Int.natCast_add, Int.natCast_one]
        omega
      rw [htelescope]
      exact hcounted

/-- **An iteration goes by, and what it shows is the machine's count.** -/
theorem Accounts.frame (h : w.Accounts o rate t) (hrate : 0 < rate) (hfps : 0 < o.fps)
    (time : WindowTime σ) (events : List HostEvent) :
    ∃ w' shown, w.frame time o events = (w', .ok shown) ∧ w'.Accounts o rate (t.pass events) ∧
      shown.steps = w'.bench.machine.steps := by
  -- the clock moves on first, and nothing that is counted depends on it
  have hpassed : ({ w with bench := { w.bench with clock := time.passFrame w.bench.clock } } :
      WindowState σ).Accounts o rate t := ⟨h.paused, h.running, h.atRate, h.budget, h.counted⟩
  obtain ⟨heard, hevents, hheard⟩ := hpassed.handleAll time events
  obtain ⟨after, hadvance, hafter⟩ := hheard.advance hrate hfps time
  -- to show a frame changes the inspector at most
  have hshown : (after.render o).1.Accounts o rate (t.pass events) ∧
      (after.render o).2.steps = (after.render o).1.bench.machine.steps := by
    rw [WindowState.render]
    split
    · exact ⟨⟨hafter.paused, hafter.running, hafter.atRate, hafter.budget, hafter.counted⟩, rfl⟩
    · exact ⟨hafter, rfl⟩
  refine ⟨_, _, ?_, hshown.1, hshown.2⟩
  simp only [WindowState.frame, hevents, hadvance]

/-! ### The loop -/

/-- The window after each iteration of its loop. -/
def course (time : WindowTime σ) (o : WindowOptions) (w : WindowState σ) :
    List (List HostEvent) → List (WindowState σ)
  | [] => [(w.frame time o [.quit]).1]
  | events :: rest =>
    let after := (w.frame time o events).1
    if after.running then after :: after.course time o rest else [after]

/-- **The loop goes through its course without trouble, and at every iteration the window is where
the tally has it.** -/
theorem Accounts.loop (hrate : 0 < rate) (hfps : 0 < o.fps) (time : WindowTime σ)
    (script : List (List HostEvent)) (h : w.Accounts o rate t) :
    ∃ last shown, w.loop time o script = (last, shown, none) ∧
      (w.course time o script).getLast? = some last ∧
      shown.map (·.steps) = (w.course time o script).map (·.bench.machine.steps) ∧
      List.Forall₂ (Accounts o rate) (t.course script) (w.course time o script) := by
  -- by the script, for any window and tally: both go on from where the first iteration left them
  induction script generalizing w t with
  | nil =>
      obtain ⟨w', shown, hframe, h', hsteps⟩ := h.frame hrate hfps time [.quit]
      simp only [WindowState.loop, course, Tally.course, hframe]
      exact ⟨w', [shown], rfl, rfl, congrArg (fun n => [n]) hsteps, .cons h' .nil⟩
  | cons events rest ih =>
      obtain ⟨w', shown, hframe, h', hsteps⟩ := h.frame hrate hfps time events
      simp only [WindowState.loop, course, Tally.course, hframe]
      have hrunning := h'.running
      cases hclosing : (t.pass events).closing with
      | true =>
          rw [hclosing] at hrunning
          simp only [hrunning, Bool.not_true, Bool.false_eq_true, if_false, if_true]
          exact ⟨w', [shown], rfl, rfl, congrArg (fun n => [n]) hsteps, .cons h' .nil⟩
      | false =>
          rw [hclosing] at hrunning
          obtain ⟨last, more, hloop, hlast, hshown, hcourse⟩ := ih h'
          simp only [hrunning, Bool.not_false, Bool.false_eq_true, if_false, if_true, hloop]
          refine ⟨last, shown :: more, rfl, ?_, ?_, .cons h' hcourse⟩
          · rw [List.getLast?_cons, hlast]
            rfl
          · rw [List.map_cons, List.map_cons, hsteps, hshown]

theorem opening_accounts (o : WindowOptions) {b : Bench σ} (hrate : b.machine.rate = .whole rate)
    (hsteps : b.machine.steps = 0) (hlimit : ∀ limit, o.limit = some limit → 0 < limit) :
    (opening o b).Accounts o rate { paused := o.startPaused } := by
  have hnone : (b.machine.steps : Int) = within o.limit 0 := by
    rw [hsteps]
    unfold within
    cases hlimited : o.limit with
    | none => rfl
    | some limit =>
        have hpositive := hlimit limit hlimited
        simp only
        omega
  have hcounted : b.machine.Counted o.limit
      (({ paused := o.startPaused } : Tally).wanted rate o.fps) := by
    rw [show ({ paused := o.startPaused } : Tally).wanted rate o.fps = 0 by simp [Tally.wanted]]
    exact ⟨Int.le_of_eq hnone, fun _ _ => hnone⟩
  have hbudget : ({ rate := b.machine.rate, fps := .whole o.fps } : FrameBudget) =
      { rate := .whole rate, fps := .whole o.fps, frames := ((0 : Nat) : Int)
        issued := ((0 : Nat) : Int) * rate / o.fps } := by
    rw [hrate]
    simp
  unfold opening
  cases o.startPaused with
  | true => exact ⟨rfl, rfl, hrate, hbudget, hcounted⟩
  | false => exact ⟨rfl, rfl, hrate, hbudget, hcounted⟩

/-! ## The main statement -/

/--
**A window takes the steps that its events ask for.**

For every script of events a window at a whole positive rate and number of iterations in a second
goes through its loop without trouble, and what it shows is the count of its machine. At each
iteration, the one in which it is told to close included, that count is at most ⌊U * rate / fps⌋ + M
as far as the limit allows, where U iterations so far were not paused after their events and M step
keys went down in pauses; and it is exactly that as long as the machine can go on. The window is
paused and closes when the tally says so.
-/
theorem loop_steps (time : WindowTime σ) (o : WindowOptions) (b : Bench σ) (rate : Int)
    (script : List (List HostEvent)) (hrate : b.machine.rate = .whole rate) (hpositive : 0 < rate)
    (hfps : 0 < o.fps) (hlimit : ∀ limit, o.limit = some limit → 0 < limit)
    (hsteps : b.machine.steps = 0) :
    let windows := (opening o b).course time o script
    ∃ last shown,
      (opening o b).loop time o script = (last, shown, none) ∧
      windows.getLast? = some last ∧
      shown.map (·.steps) = windows.map (·.bench.machine.steps) ∧
      List.Forall₂
        (fun t w => w.paused = t.paused ∧ w.running = !t.closing ∧
          w.bench.machine.Counted o.limit (t.unpaused * rate / o.fps + t.singles))
        (Tally.course { paused := o.startPaused } script) windows := by
  intro windows
  obtain ⟨last, shown, hloop, hlast, hshown, hcourse⟩ :=
    Accounts.loop hpositive hfps time script (opening_accounts o hrate hsteps hlimit)
  refine ⟨last, shown, hloop, hlast, hshown, hcourse.imp ?_⟩
  intro t w h
  exact ⟨h.paused, h.running, h.counted⟩

/-- Seven steps in two iterations, and no more than five in all. The window is opened paused: a step
key, then the end of the pause, an iteration without events, and one that pauses again, asks for a
step that the limit does not allow any more, and closes. -/
theorem loop_steps_within_limit :
    let m := (Machine.new (.ofSeed 7) 0.25).perform (.load [0x12, 0x00])
    let ask := clockOf fun _ => 0.5
    let time : WindowTime Nat := { ask, look := ask, passFrame := id }
    let o : WindowOptions :=
      { scale := 1, fps := 2, keyMap := [], startPaused := true, limit := some 5 }
    let b : Bench Nat := { machine := { m with rate := .whole 7 }, clock := 0 }
    let script : List (List HostEvent) :=
      [[.keyDown stepCode, .keyUp stepCode], [.keyDown spaceCode], [],
        [.keyDown escapeCode, .keyDown stepCode, .keyDown quitCode, .other]]
    Tally.course { paused := true } script =
        [⟨true, false, 0, 1⟩, ⟨false, false, 1, 1⟩, ⟨false, false, 2, 1⟩, ⟨true, true, 2, 2⟩] ∧
      ∃ last shown, (opening o b).loop time o script = (last, shown, none) ∧
        shown.map (·.steps) = [1, 4, 5, 5] ∧
        List.Forall₂
          (fun t w => w.paused = t.paused ∧ w.running = !t.closing ∧
            w.bench.machine.Counted (some 5) (t.unpaused * 7 / 2 + t.singles))
          (Tally.course { paused := true } script) ((opening o b).course time o script) := by
  intro m ask time o b script
  obtain ⟨last, shown, hloop, _, _, hcourse⟩ :=
    loop_steps time o b 7 script rfl (by decide) (by decide)
      (fun limit h => Option.some.inj h ▸ (by decide)) rfl
  have hcounts : ((opening o b).loop time o script).2.1.map (·.steps) = [1, 4, 5, 5] := by
    decide +kernel
  rw [hloop] at hcounts
  exact ⟨by decide, last, shown, hloop, hcounts, hcourse⟩

end WindowState

end ChipEight
