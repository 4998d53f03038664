import ChipEight.Proofs.Amounts
import ChipEight.Proofs.ExitStatus
import ChipEight.Proofs.HeldKeys
import ChipEight.Proofs.Pause
import ChipEight.Window.Command

/-!
# Which rates give a working budget

The command with a window refuses a rate that is zero or below. What it lets through is therefore
not a positive number but whatever does not compare as at most zero: a positive number, infinity,
and the double that is no number. At the first, what is due by the end of a frame is a floor, and
floors of growing fractions do not shrink, so every frame has its steps. At the other two the
floored quotient is no number, and there is no whole number of steps to take from it: the first
frame that needs its steps breaks the window off.

What a frame needs is one product, one floored quotient and one cut to a whole number. `exactDue`
takes them with nothing rounded, and a budget that calculates in doubles follows it as far as the
product and the quotient come out exact (`ExactAt`); the cut and the test of the command always do.
-/

namespace ChipEight

open Number

/-! ## Calls in turn -/

/-- How many steps have been issued after a number of calls, none of which failed. -/
inductive Issued (due : ℤ → Except Trouble ℤ) : ℕ → ℤ → Prop
  | start : Issued due 0 0
  | call {calls : ℕ} {issued steps : ℤ} : Issued due calls issued →
      due (calls + 1) = .ok steps → Issued due (calls + 1) steps

theorem Issued.congr {due due' : ℤ → Except Trouble ℤ} {calls : ℕ} {issued : ℤ}
    (h : Issued due calls issued) (heq : ∀ k : ℕ, 0 < k → k ≤ calls → due k = due' k) :
    Issued due' calls issued := by
  induction h with
  | start => exact .start
  | @call calls _ steps _ hdue ih =>
      refine .call (ih fun k hpos hk => heq k hpos (Nat.le_succ_of_le hk)) ?_
      have hlast := heq (calls + 1) (Nat.succ_pos calls) (le_refl _)
      push_cast at hlast
      exact hlast ▸ hdue

/-! ## What is due when nothing is rounded -/

/-- How many steps are due by the end of a number of frames, in exact arithmetic. -/
def exactDue (rate : Amount) (fps frames : ℤ) : Except Trouble ℤ := do
  let perFrame ← (rate.times frames).floorBy fps
  perFrame.toInt

section Exact

variable {rate : Amount} {value : ℚ} {fps : ℤ}

theorem exactDue_number (hfps : 0 < fps) (value : ℚ) (frames : ℤ) :
    exactDue (.number value) fps frames = .ok ⌊frames * value / fps⌋ := by
  have hwhole : wholePart (⌊frames * value / fps⌋ : ℤ) = ⌊frames * value / fps⌋ := by
    simp [wholePart]
  rw [exactDue, Amount.times, Amount.floorBy_number hfps.ne']
  exact congrArg Except.ok hwhole

/-- At a rate that is not finite it cannot be said how many steps are due. -/
theorem exactDue_notFinite (hfps : 0 < fps) (h : rate.isFinite = false) (frames : ℤ) :
    exactDue rate fps frames = .error .undefinedToWhole := by
  rw [exactDue, Amount.floorBy_notFinite hfps.ne' (Amount.times_notFinite h frames)]
  rfl

/-- What has been issued is what was due. -/
theorem Issued.eq_floor (hfps : 0 < fps) {calls : ℕ} {issued : ℤ}
    (h : Issued (exactDue (.number value) fps) calls issued) : issued = ⌊calls * value / fps⌋ := by
  cases h with
  | start => simp
  | @call calls _ _ _ hdue =>
      rw [exactDue_number hfps] at hdue
      have hsteps := Except.ok.inj hdue
      push_cast at hsteps ⊢
      exact hsteps.symm

/-- **What is due never shrinks**, so no call takes steps back. -/
theorem floor_due_mono (hvalue : 0 < value) (hfps : 0 < fps) (frames : ℕ) :
    ⌊frames * value / fps⌋ ≤ ⌊(frames + 1) * value / fps⌋ := by
  have hfps' : (0 : ℚ) < fps := Int.cast_pos.mpr hfps
  refine Int.floor_le_floor ?_
  gcongr
  linarith

end Exact

/-! ## Budgets that calculate in doubles -/

/-- The product and the floored quotient of a frame come out as if nothing were rounded. -/
def ExactAt (rate : Quantity) (fps frames : ℤ) : Prop :=
  ∃ product quotient,
    Quantity.mul (.whole frames) rate = .ok product ∧
    product.amount = rate.amount.times frames ∧
    product.floorDiv (.whole fps) = .ok quotient ∧
    product.amount.floorBy fps = .ok quotient.amount

/-- Whole numbers are never rounded. -/
theorem exactAt_whole {fps : ℤ} (hfps : 0 < fps) (rate frames : ℤ) :
    ExactAt (.whole rate) fps frames := by
  have hne : (fps == 0) = false := beq_eq_false_iff_ne.mpr hfps.ne'
  refine ⟨.whole (frames * rate), .whole ((frames * rate).fdiv fps), rfl, ?_, ?_, ?_⟩
  · simp [Quantity.amount, Amount.times]
  · simp [Quantity.floorDiv, hne]
  · have hfloor : ⌊((frames * rate : ℤ) : ℚ) / fps⌋ = (frames * rate).fdiv fps := by
      obtain ⟨n, rfl⟩ := Int.eq_ofNat_of_zero_le hfps.le
      rw [Int.fdiv_eq_ediv_of_nonneg _ hfps.le]
      exact Rat.floor_intCast_div_natCast _ n
    rw [Quantity.amount, Amount.floorBy_number hfps.ne', hfloor]
    rfl

namespace FrameBudget

variable {b : FrameBudget} {fps frames : ℤ}

/-- **Where nothing is rounded as much is due as would be exactly.** -/
theorem due_exact (hfps : b.fps = .whole fps) (h : ExactAt b.rate fps frames) :
    b.due frames = exactDue b.rate.amount fps frames := by
  obtain ⟨product, quotient, hmul, hproduct, hdiv, hquotient⟩ := h
  rw [due, exactDue, hmul, ← hproduct, hquotient, hfps]
  simp only [bind, Except.bind]
  rw [hdiv]
  exact quotient.toInt_eq

/-- **Nothing is due at a rate that is not finite**, whatever the doubles do. -/
theorem due_notFinite (h : b.rate.amount.isFinite = false) (frames steps : ℤ) :
    b.due frames ≠ .ok steps := by
  intro hdue
  obtain ⟨product, hmul, hrest⟩ := bind_eq_ok.mp hdue
  obtain ⟨quotient, hdiv, hcut⟩ := bind_eq_ok.mp hrest
  have hproduct := Quantity.mul_notFinite h hmul
  rw [quotient.toInt_eq, Quantity.floorDiv_notFinite hproduct hdiv] at hcut
  exact absurd hcut (by simp [Amount.toInt])

theorem next_notFinite (h : b.rate.amount.isFinite = false) :
    ∃ trouble, b.next = .error trouble := by
  cases hnext : b.next with
  | error trouble => exact ⟨trouble, rfl⟩
  | ok allotted =>
      obtain ⟨steps, hdue, _⟩ := bind_eq_ok.mp hnext
      exact absurd hdue (due_notFinite h _ steps)

end FrameBudget

/-! ## The calls of a window -/

namespace WindowState

variable {σ : Type} {time : WindowTime σ} {o : WindowOptions} {first w : WindowState σ}
variable {seen : List HostEvent}

/-- **A window's budget has come from call to call**, wherever the window is. -/
theorem Moment.issued {rate fps : Quantity} (hfirst : first.budget = { rate, fps })
    (h : Moment time o first seen w) :
    ∃ calls issued, Issued (FrameBudget.due { rate, fps }) calls issued ∧
      w.budget = { rate, fps, frames := calls, issued } := by
  induction h with
  | opened => exact ⟨0, 0, .start, hfirst⟩
  | begun _ ih => exact ih
  | @heard _ w event _ ih =>
      rw [w.handle_budget time o event]
      exact ih
  | @shown _ w _ ih =>
      rw [(w.render_untouched o).2.1]
      exact ih
  | @advanced _ w _ ih =>
      obtain ⟨calls, issued, hcalls, hbudget⟩ := ih
      cases hpaused : w.paused with
      | true =>
          rw [advance_paused hpaused]
          exact ⟨calls, issued, hcalls, hbudget⟩
      | false =>
          rw [advance_unpaused hpaused]
          cases hnext : w.budget.next with
          | error trouble => exact ⟨calls, issued, hcalls, hbudget⟩
          | ok allotted =>
              -- the machine's steps leave the budget as the call made it
              obtain ⟨steps, hdue, hallotted⟩ := bind_eq_ok.mp hnext
              obtain rfl := Except.ok.inj hallotted
              rw [hbudget] at hdue ⊢
              exact ⟨calls + 1, steps, hcalls.call hdue, rfl⟩

end WindowState

/-! ## Windows at a pace that is let through -/

section Pace

variable {σ : Type} {s : Surroundings} {journal : Journal} {o : WindowCommandOptions}
variable {pace : WindowPace}

theorem positive_eq_ok {α : Type} {name : String} {isPositive : α → Bool} {given : Given α}
    {a : α} : positive s journal name isPositive given = .ok a ↔
      given = .value a ∧ isPositive a = true := by
  simp only [positive, bind_eq_ok, mapError_eq_ok, need_eq_ok]
  constructor
  · intro h
    obtain ⟨value, hgiven, hvalue⟩ := h
    split at hvalue
    · next hpositive =>
      obtain rfl := Except.ok.inj hvalue
      exact ⟨hgiven, hpositive⟩
    · exact absurd hvalue (by simp)
  · intro h
    exact ⟨a, h.1, if_pos h.2⟩

/-- What the checks of the pace make sure of. -/
theorem pace_checked (h : o.pace s journal = .ok pace) :
    0 < pace.fps ∧ pace.rate.isNonPositive = false := by
  obtain ⟨scale, _, h⟩ := bind_eq_ok.mp h
  obtain ⟨fps, hfps, h⟩ := bind_eq_ok.mp h
  obtain ⟨rate, hrate, h⟩ := bind_eq_ok.mp h
  obtain rfl := Except.ok.inj h
  obtain ⟨_, hfps⟩ := positive_eq_ok.mp hfps
  obtain ⟨_, hrate⟩ := positive_eq_ok.mp hrate
  exact ⟨of_decide_eq_true hfps, by simpa using hrate⟩

/-- A window is opened with a budget at the pace. -/
theorem windowBench_budget {world : WindowWorld σ} {rom : Rom} {start : WindowStart σ}
    (h : windowBench s world o pace rom journal = .ok start) :
    (WindowState.opening start.options start.bench).budget =
      { rate := pace.rate, fps := .whole pace.fps } := by
  obtain ⟨random, _, h⟩ := bind_eq_ok.mp h
  obtain ⟨keyMap, _, h⟩ := bind_eq_ok.mp h
  obtain ⟨limit, _, h⟩ := bind_eq_ok.mp h
  obtain rfl := Except.ok.inj h
  unfold WindowState.opening
  split <;> rfl

/-- The windows that the command opens at a pace, and every point that they come to. -/
def WindowAt (s : Surroundings) (o : WindowCommandOptions) (pace : WindowPace)
    (time : WindowTime σ) (options : WindowOptions) (w : WindowState σ) : Prop :=
  ∃ (world : WindowWorld σ) (rom : Rom) (journal : Journal) (start : WindowStart σ)
    (seen : List HostEvent),
    windowBench s world o pace rom journal = .ok start ∧ world.time = time ∧
      start.options = options ∧
      WindowState.Moment time options (WindowState.opening options start.bench) seen w

theorem WindowAt.issued {time : WindowTime σ} {options : WindowOptions} {w : WindowState σ}
    (h : WindowAt s o pace time options w) :
    ∃ calls issued,
      Issued (FrameBudget.due { rate := pace.rate, fps := .whole pace.fps }) calls issued ∧
      w.budget = { rate := pace.rate, fps := .whole pace.fps, frames := calls, issued } := by
  obtain ⟨_, _, _, start, _, hbench, _, rfl, hmoment⟩ := h
  exact hmoment.issued (windowBench_budget hbench)

end Pace

/-! ## The main statement -/

/-- Every call at this pace returns a number of steps, and none of them is negative. -/
structure RateWorks (s : Surroundings) (o : WindowCommandOptions) (pace : WindowPace) : Prop where
  /-- With nothing rounded, every call does, however many there were before. -/
  exact : ∀ calls issued, Issued (exactDue pace.rate.amount pace.fps) calls issued →
    ∃ steps, exactDue pace.rate.amount pace.fps (calls + 1) = .ok steps ∧ 0 ≤ steps - issued
  /-- In a window the next call does if the doubles of the frames so far come out exact. -/
  window : ∀ {σ : Type} {time : WindowTime σ} {options : WindowOptions} {w : WindowState σ},
    WindowAt s o pace time options w →
    (∀ frame : ℕ, 0 < frame → frame ≤ w.budget.frames + 1 → ExactAt pace.rate pace.fps frame) →
    ∃ steps budget, w.budget.next = .ok (steps, budget) ∧ 0 ≤ steps
  /-- At a whole rate, such as the one that is not asked for, it always does. -/
  whole : ∀ {σ : Type} {time : WindowTime σ} {options : WindowOptions} {w : WindowState σ} {n : ℤ},
    pace.rate = .whole n → WindowAt s o pace time options w →
    ∃ steps budget, w.budget.next = .ok (steps, budget) ∧ 0 ≤ steps

/-- Every call at this pace fails. -/
structure RateFails (s : Surroundings) (o : WindowCommandOptions) (pace : WindowPace) : Prop where
  /-- With nothing rounded there is no number that a whole number of steps could be taken from. -/
  exact : ∀ frames, exactDue pace.rate.amount pace.fps frames = .error .undefinedToWhole
  /-- A window breaks off at the first frame that it is not paused in. -/
  window : ∀ {σ : Type} {time : WindowTime σ} {options : WindowOptions} {w : WindowState σ},
    WindowAt s o pace time options w → ∃ trouble, w.budget.next = .error trouble ∧
      (w.paused = false → w.advance time options = (w, some trouble))

section Result

variable {s : Surroundings} {journal : Journal} {o : WindowCommandOptions} {pace : WindowPace}

/-- **At a positive number the next call of a window works** if nothing was rounded so far: it
returns the difference of two floors. -/
theorem WindowAt.next_ok {σ : Type} {time : WindowTime σ} {options : WindowOptions}
    {w : WindowState σ} (h : WindowAt s o pace time options w) (hfps : 0 < pace.fps) {value : ℚ}
    (hvalue : 0 < value) (hrate : pace.rate.amount = .number value)
    (hexact : ∀ frame : ℕ, 0 < frame → frame ≤ w.budget.frames + 1 →
      ExactAt pace.rate pace.fps frame) :
    ∃ steps budget, w.budget.next = .ok (steps, budget) ∧ 0 ≤ steps := by
  obtain ⟨calls, issued, hissued, hbudget⟩ := h.issued
  have hframes : w.budget.frames = calls := by rw [hbudget]
  have hdue (frame : ℕ) (hpos : 0 < frame) (hframe : frame ≤ calls + 1) :
      FrameBudget.due { rate := pace.rate, fps := .whole pace.fps } frame =
        exactDue (.number value) pace.fps frame := by
    rw [hframes] at hexact
    exact hrate ▸ FrameBudget.due_exact rfl (hexact frame hpos (by exact_mod_cast hframe))
  have hsofar := hissued.congr fun k hpos hk => hdue k hpos (Nat.le_succ_of_le hk)
  have hlast := hdue (calls + 1) (Nat.succ_pos calls) (le_refl _)
  rw [exactDue_number hfps] at hlast
  push_cast at hlast
  rw [hbudget]
  refine ⟨_, _, bind_eq_ok.mpr ⟨_, hlast, rfl⟩, ?_⟩
  rw [hsofar.eq_floor hfps]
  exact Int.sub_nonneg_of_le (floor_due_mono hvalue hfps calls)

theorem works_of_number (hfps : 0 < pace.fps) {value : ℚ} (hvalue : 0 < value)
    (hrate : pace.rate.amount = .number value) : RateWorks s o pace where
  exact calls issued h := by
    rw [hrate] at h ⊢
    refine ⟨_, exactDue_number hfps value _, ?_⟩
    rw [h.eq_floor hfps]
    have hmono := floor_due_mono hvalue hfps calls
    push_cast
    exact Int.sub_nonneg_of_le hmono
  window h hexact := h.next_ok hfps hvalue hrate hexact
  whole hwhole h := by
    refine h.next_ok hfps hvalue hrate fun frame _ _ => ?_
    rw [hwhole]
    exact exactAt_whole hfps _ frame

theorem fails_of_notFinite (hfps : 0 < pace.fps) (hrate : pace.rate.amount.isFinite = false) :
    RateFails s o pace where
  exact := exactDue_notFinite hfps hrate
  window {σ time options w} h := by
    obtain ⟨calls, issued, _, hbudget⟩ := h.issued
    obtain ⟨trouble, hnext⟩ : ∃ trouble, w.budget.next = .error trouble := by
      rw [hbudget]
      exact FrameBudget.next_notFinite hrate
    refine ⟨trouble, hnext, fun hpaused => ?_⟩
    rw [WindowState.advance_unpaused hpaused, hnext]

/--
**Not every rate that the command lets through gives a working budget.**

A rate that is let through is a positive number, infinity, or the double that is no number. At a
positive number every call returns a number of steps that is not negative: with nothing rounded
always, and in a window of the command as long as the doubles come out exact. At the other two every
call fails, whatever the frame, and a window breaks off at the first frame that it is not paused in.
-/
theorem accepted_rates (h : o.pace s journal = .ok pace) :
    0 < pace.fps ∧
      ((∃ value, 0 < value ∧ pace.rate.amount = .number value ∧ RateWorks s o pace) ∨
        ((pace.rate.amount = .infinite false ∨ pace.rate.amount = .undefined) ∧
          RateFails s o pace)) := by
  obtain ⟨hfps, hpositive⟩ := pace_checked h
  rw [pace.rate.isNonPositive_eq] at hpositive
  refine ⟨hfps, ?_⟩
  rcases Amount.kinds_of_positive hpositive with ⟨value, hvalue, hrate⟩ | hrate | hrate
  · exact Or.inl ⟨value, hvalue, hrate, works_of_number hfps hvalue hrate⟩
  · exact Or.inr ⟨Or.inl hrate, fails_of_notFinite hfps (by rw [hrate]; rfl)⟩
  · exact Or.inr ⟨Or.inr hrate, fails_of_notFinite hfps (by rw [hrate]; rfl)⟩

end Result

theorem amount_two_and_a_half : (Quantity.real 2.5).amount = .number (5 / 2) := by
  have hread : read 2.5 = .finite false (5 * 2 ^ 50) (-51) := by rfl
  rw [Quantity.amount, hread, Reading.amount]
  norm_num [signedUnits]

/-- Two and a half steps for two frames: one and a quarter by the end of the first, so one whole
step. -/
theorem exactAt_two_and_a_half : ExactAt (.real 2.5) 2 1 := by
  have hrate := amount_two_and_a_half
  have hquotient : (Quantity.real 1.0).amount = .number 1 := by
    have hread : read 1.0 = .finite false (2 ^ 52) (-52) := by rfl
    rw [Quantity.amount, hread, Reading.amount]
    norm_num [signedUnits]
  have hfloor : ⌊(5 / 2 : ℚ) / (2 : ℤ)⌋ = 1 := by norm_num [Int.floor_eq_iff]
  refine ⟨.real 2.5, .real 1.0, by rfl, ?_, by rfl, ?_⟩
  · rw [hrate]
    simp [Amount.times]
  · rw [hrate, hquotient, Amount.floorBy_number (by decide), hfloor]
    rfl

/-- Two and a half steps in a second are let through, and the first frame of a window has its steps.
Infinity is let through as well, and the first frame asks for a whole number that is none. -/
theorem accepted_rates_infinity :
    let s : Surroundings := {}
    let o : WindowCommandOptions := { fps := .value 2, rate := .value (.real 2.5) }
    let pace : WindowPace := ⟨10, 2, .real 2.5⟩
    let ask := clockOf fun _ => 0.5
    let world : WindowWorld Nat :=
      { start := 0.25, clock := 0, time := { ask, look := ask, passFrame := id }, events := [] }
    let rom : Rom := ⟨[0x12, 0x00], "P", Path.ofText "p"⟩
    let o' : WindowCommandOptions := { rate := .value (.real infinity) }
    let pace' : WindowPace := ⟨10, 60, .real infinity⟩
    (o.pace s {} = .ok pace ∧
      ∃ start steps budget, windowBench s world o pace rom {} = .ok start ∧
        (WindowState.opening start.options start.bench).budget.next = .ok (steps, budget) ∧
        0 ≤ steps) ∧
    (o'.pace s {} = .ok pace' ∧ RateFails s o' pace' ∧
      FrameBudget.next { rate := .real infinity, fps := .whole 60 } =
        .error .undefinedToWhole) := by
  intro s o pace ask world rom o' pace'
  have hpace : o.pace s {} = .ok pace := by rfl
  have hpace' : o'.pace s {} = .ok pace' := by rfl
  have hrate' : pace'.rate.amount = .infinite false := by rfl
  have hdue : FrameBudget.due { rate := .real infinity, fps := .whole 60 } (0 + 1) =
      .error .undefinedToWhole := by rfl
  constructor
  · refine ⟨hpace, ?_⟩
    obtain ⟨_, hnumber | ⟨hkind, _⟩⟩ := accepted_rates hpace
    · obtain ⟨_, _, _, hworks⟩ := hnumber
      obtain ⟨start, hbench⟩ : ∃ start, windowBench s world o pace rom {} = .ok start := ⟨_, rfl⟩
      have hopened : WindowAt s o pace world.time start.options
          (WindowState.opening start.options start.bench) :=
        ⟨world, rom, {}, start, [], hbench, rfl, rfl, .opened⟩
      obtain ⟨steps, budget, hnext, hsteps⟩ := hworks.window hopened fun frame hpos hframe => by
        rw [windowBench_budget hbench] at hframe
        change (frame : ℤ) ≤ 0 + 1 at hframe
        obtain rfl : frame = 1 := by omega
        exact exactAt_two_and_a_half
      exact ⟨start, steps, budget, hbench, hnext, hsteps⟩
    · have hrate : pace.rate.amount = .number (5 / 2) := amount_two_and_a_half
      rcases hkind with hkind | hkind
      · exact absurd (hrate.symm.trans hkind) (by simp)
      · exact absurd (hrate.symm.trans hkind) (by simp)
  · obtain ⟨_, hnumber | ⟨_, hfails⟩⟩ := accepted_rates hpace'
    · obtain ⟨value, _, hvalue, _⟩ := hnumber
      exact absurd (hrate'.symm.trans hvalue) (by simp)
    · refine ⟨hpace', hfails, ?_⟩
      rw [FrameBudget.next, hdue]
      rfl

end ChipEight
