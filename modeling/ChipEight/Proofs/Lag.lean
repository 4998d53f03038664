import ChipEight.Proofs.Pacing
import Mathlib.Data.List.Forall2
import Mathlib.Data.Rat.Floor
import Mathlib.Order.Monotone.Basic
import Mathlib.Tactic.IntervalCases
import Mathlib.Tactic.Linarith
import Mathlib.Tactic.Positivity

/-!
# A paced run is never early and makes up for a limited lag

The k-th step of a run is due at a fixed offset from the base. Whoever waits for it is never early
afterwards, and never later than the limit: what is lost beyond the limit is given up by moving the
base. The base only ever moves forward, so the run as a whole is never early either, and a wait is
never longer than from one step to the next.

All of this is decided by `Pacer.wait`, which compares and subtracts whole nanoseconds. What is left
to assume is that the offsets are calculated without rounding and that a sleep takes as long as it
was asked to. `ExactSchedule` is a schedule of that kind, and a `Schedule` whose doubles come to the
same numbers follows it call by call.
-/

namespace ChipEight

open Number

theorem lagLimit_nonneg : 0 ≤ lagLimit := by decide

/-! ## Exact schedules -/

/-- The whole number between zero and the fraction that lies next to it. -/
def wholePart (x : ℚ) : ℤ := x.num.tdiv x.den

theorem wholePart_eq_floor {x : ℚ} (hx : 0 ≤ x) : wholePart x = ⌊x⌋ := by
  unfold wholePart
  rw [Int.tdiv_eq_ediv_of_nonneg (Rat.num_nonneg.mpr hx), ← Rat.floor_def]
  rfl

theorem wholePart_neg (x : ℚ) : wholePart (-x) = -wholePart x := by
  unfold wholePart
  rw [Rat.neg_num, Rat.neg_den, Int.neg_tdiv]

/-- When a number of steps are due, in nanoseconds after the base. -/
def exactOffset (steps : ℤ) (rate : ℚ) : ℤ := wholePart (steps / rate * 1000000000)

/-- A pacer, the nanosecond clock it looks at, and for how many nanoseconds it slept, the last sleep
first. -/
structure ExactSchedule where
  pacer : Pacer := ⟨0⟩
  now : Int := 0
  sleeps : List Int := []

namespace ExactSchedule

/-- Moves the clock. -/
def advance (s : ExactSchedule) (nanoseconds : Int) : ExactSchedule :=
  { s with now := s.now + nanoseconds }

/-- Counts so that what is due at the offset is due now. -/
def anchorAt (s : ExactSchedule) (offset : Int) : ExactSchedule :=
  { s with pacer := Pacer.anchor s.now offset }

/-- Waits for what is due at the offset. -/
def waitFor (s : ExactSchedule) (offset : Int) : ExactSchedule :=
  match s.pacer.wait s.now offset with
  | (pacer, some nanoseconds) =>
    { pacer, now := s.now + nanoseconds, sleeps := nanoseconds :: s.sleeps }
  | (pacer, none) => { s with pacer }

/-- Counts so that a number of steps at a rate are due now. -/
def reset (s : ExactSchedule) (steps : ℤ) (rate : ℚ) : ExactSchedule :=
  if rate ≤ 0 then s.anchorAt 0 else s.anchorAt (exactOffset steps rate)

/-- Waits until a number of steps at a rate are due. -/
def waitUntil (s : ExactSchedule) (steps : ℤ) (rate : ℚ) : ExactSchedule :=
  if rate ≤ 0 then s else s.waitFor (exactOffset steps rate)

/-- Anchors the schedule and waits for one step after the other, with time passing before each. -/
def follow (s : ExactSchedule) (rate : ℚ) (stalls : ℕ → ℕ) : ℕ → ExactSchedule
  | 0 => s.reset 0 rate
  | k + 1 => ((s.follow rate stalls k).advance (stalls k)).waitUntil (k + 1) rate

variable {s : ExactSchedule} {began earlier offset : ℤ}

/-- **The three ends of a wait**: early, on time or late but not too late, and too late. -/
theorem waitFor_cases (s : ExactSchedule) (offset : ℤ) :
    (s.now < s.pacer.base + offset ∧
      s.waitFor offset =
        { s with
          now := s.pacer.base + offset
          sleeps := (s.pacer.base + offset - s.now) :: s.sleeps }) ∨
    (s.pacer.base + offset ≤ s.now ∧ s.now - (s.pacer.base + offset) ≤ lagLimit ∧
      s.waitFor offset = s) ∨
    (lagLimit < s.now - (s.pacer.base + offset) ∧
      s.waitFor offset = { s with pacer := ⟨s.now - offset⟩ }) := by
  unfold waitFor Pacer.wait
  dsimp only
  by_cases hearly : s.now < s.pacer.base + offset
  · refine Or.inl ⟨hearly, ?_⟩
    have hwoken : s.now + (s.pacer.base + offset - s.now) = s.pacer.base + offset := by omega
    rw [if_pos hearly]
    dsimp only
    rw [hwoken]
  · rw [if_neg hearly]
    by_cases hlate : lagLimit < s.now - (s.pacer.base + offset)
    · rw [if_pos hlate]
      exact Or.inr (Or.inr ⟨hlate, rfl⟩)
    · rw [if_neg hlate]
      exact Or.inr (Or.inl ⟨by omega, by omega, rfl⟩)

/-- The step that is due at the offset is due already, by no more than the limit, and the base has
not moved back since the beginning. -/
structure OnPace (began offset : ℤ) (s : ExactSchedule) : Prop where
  begun : began ≤ s.pacer.base
  due : s.pacer.base + offset ≤ s.now
  late : s.now - (s.pacer.base + offset) ≤ lagLimit

/-- At the moment of anchoring everything is on time. -/
theorem anchorAt_onPace (s : ExactSchedule) (offset : ℤ) :
    OnPace (s.now - offset) offset (s.anchorAt offset) where
  begun := le_refl _
  due := by
    change s.now - offset + offset ≤ s.now
    omega
  late := by
    have hlimit := lagLimit_nonneg
    change s.now - (s.now - offset + offset) ≤ lagLimit
    omega

/-- A wait never moves the base back, and moves it only after a lag beyond the limit. -/
theorem waitFor_base (s : ExactSchedule) (offset : ℤ) :
    s.pacer.base ≤ (s.waitFor offset).pacer.base ∧
      ((s.waitFor offset).pacer.base ≠ s.pacer.base →
        lagLimit < s.now - (s.pacer.base + offset)) := by
  rcases s.waitFor_cases offset with ⟨_, hs⟩ | ⟨_, _, hs⟩ | ⟨hlate, hs⟩
  · rw [hs]
    exact ⟨le_refl _, fun hmoved => absurd rfl hmoved⟩
  · rw [hs]
    exact ⟨le_refl _, fun hmoved => absurd rfl hmoved⟩
  · rw [hs]
    refine ⟨?_, fun _ => hlate⟩
    have hlimit := lagLimit_nonneg
    change s.pacer.base ≤ s.now - offset
    omega

/-- **A wait puts the next step on pace**, however late it comes. -/
theorem OnPace.waitFor (h : OnPace began earlier s) (stall : ℕ) (offset : ℤ) :
    OnPace began offset ((s.advance stall).waitFor offset) := by
  have hbegun := h.begun.trans ((s.advance stall).waitFor_base offset).1
  have hlimit := lagLimit_nonneg
  rcases (s.advance stall).waitFor_cases offset with ⟨_, hs⟩ | ⟨hdue, hlate, hs⟩ | ⟨_, hs⟩
  · -- a sleep ends at the moment at which the step is due
    rw [hs] at hbegun ⊢
    refine ⟨hbegun, le_refl _, ?_⟩
    dsimp only
    omega
  · rw [hs] at hbegun ⊢
    exact ⟨hbegun, hdue, hlate⟩
  · -- another base makes the step due at this moment
    rw [hs] at hbegun ⊢
    refine ⟨hbegun, ?_, ?_⟩
    · dsimp only
      omega
    · dsimp only
      omega

/-- **A wait sleeps once or not at all**, and no longer than from the step before to this one. -/
theorem OnPace.waitFor_sleeps (h : OnPace began earlier s) (stall : ℕ) (offset : ℤ) :
    ((s.advance stall).waitFor offset).sleeps = s.sleeps ∨
      ∃ nanoseconds, 0 < nanoseconds ∧ nanoseconds ≤ offset - earlier ∧
        ((s.advance stall).waitFor offset).sleeps = nanoseconds :: s.sleeps := by
  rcases (s.advance stall).waitFor_cases offset with ⟨hearly, hs⟩ | ⟨_, _, hs⟩ | ⟨_, hs⟩
  · have hdue := h.due
    have hbase : (s.advance stall).pacer.base = s.pacer.base := rfl
    have hnow : (s.advance stall).now = s.now + stall := rfl
    -- the step before was due already, so what is left is part of the distance to this one
    refine Or.inr ⟨(s.advance stall).pacer.base + offset - (s.advance stall).now, ?_, ?_, ?_⟩
    · omega
    · omega
    · rw [hs]
      rfl
  · rw [hs]
    exact Or.inl rfl
  · rw [hs]
    exact Or.inl rfl

/-! ## Whole runs -/

section Follow

variable {rate : ℚ} {stalls : ℕ → ℕ}

theorem exactOffset_zero (rate : ℚ) : exactOffset 0 rate = 0 := by
  simp [exactOffset, wholePart]

theorem follow_zero (hrate : 0 < rate) : s.follow rate stalls 0 = s.anchorAt 0 := by
  rw [follow, reset, if_neg (not_le.mpr hrate), exactOffset_zero]

theorem follow_succ (hrate : 0 < rate) (k : ℕ) :
    s.follow rate stalls (k + 1) =
      ((s.follow rate stalls k).advance (stalls k)).waitFor (exactOffset (k + 1 : ℕ) rate) := by
  rw [follow, waitUntil, if_neg (not_le.mpr hrate)]
  rfl

/-- **After every call the run is on pace.** -/
theorem follow_onPace (s : ExactSchedule) (hrate : 0 < rate) (stalls : ℕ → ℕ) (k : ℕ) :
    OnPace s.now (exactOffset k rate) (s.follow rate stalls k) := by
  induction k with
  | zero =>
      have hanchored := s.anchorAt_onPace 0
      rw [Int.sub_zero] at hanchored
      rw [follow_zero hrate, Nat.cast_zero, exactOffset_zero]
      exact hanchored
  | succ k ih =>
      rw [follow_succ hrate]
      exact ih.waitFor _ _

/-- The offset of a step is the moment at which it is due, without the fraction of a nanosecond. -/
theorem exactOffset_eq_floor (hrate : 0 < rate) (k : ℕ) :
    exactOffset k rate = ⌊k / rate * 1000000000⌋ := by
  have hnonneg : 0 ≤ ((k : ℤ) : ℚ) / rate * 1000000000 := by positivity
  exact wholePart_eq_floor hnonneg

/-- Counted from the beginning no step is early, because the base is never before it. -/
theorem follow_due (s : ExactSchedule) (hrate : 0 < rate) (stalls : ℕ → ℕ) (k : ℕ) :
    s.now + exactOffset k rate ≤ (s.follow rate stalls k).now := by
  obtain ⟨hbegun, hdue, _⟩ := follow_onPace s hrate stalls k
  omega

/-- The sleeps of a call stay on the list. -/
theorem mem_follow_succ (hrate : 0 < rate) (k : ℕ) {nanoseconds : ℤ}
    (h : nanoseconds ∈ (s.follow rate stalls k).sleeps) :
    nanoseconds ∈ (s.follow rate stalls (k + 1)).sleeps := by
  rw [follow_succ hrate]
  rcases (follow_onPace s hrate stalls k).waitFor_sleeps (stalls k) (exactOffset (k + 1 : ℕ) rate) with
    hsame | ⟨_, _, _, hslept⟩
  · rw [hsame]
    exact h
  · rw [hslept]
    exact List.mem_cons_of_mem _ h

end Follow

end ExactSchedule

/-! ## Schedules that calculate in doubles -/

namespace Schedule

/-- Anchors the schedule and waits for one step after the other, with time passing before each. -/
def follow (s : Schedule) (rate : Quantity) (stalls : ℕ → ℕ) : ℕ → Except Trouble Schedule
  | 0 => s.reset 0 rate
  | k + 1 => do
    let s ← s.follow rate stalls k
    (s.advance (stalls k)).waitUntil (k + 1) rate

/-- The clock takes the seconds for exactly as many nanoseconds as were meant. -/
def SleepsFor (seconds : Seconds) (nanoseconds : Int) : Prop :=
  Quantity.div (.whole nanoseconds) (.whole 1000000000) = .ok seconds ∧
    truncate (seconds * 1000000000 + 0.5).floor = .ok nanoseconds

/-- The schedule has come to the same as an exact one. -/
structure Shows (s : Schedule) (e : ExactSchedule) : Prop where
  pacer : s.pacer = e.pacer
  now : s.now = e.now
  sleeps : List.Forall₂ SleepsFor s.sleeps e.sleeps

variable {s : Schedule} {e : ExactSchedule} {rate : Quantity}

theorem Shows.advance (h : s.Shows e) (nanoseconds : Int) :
    (s.advance nanoseconds).Shows (e.advance nanoseconds) where
  pacer := h.pacer
  now := congrArg (· + nanoseconds) h.now
  sleeps := h.sleeps

/-- **A call whose doubles come out exact does what the exact call does.** -/
theorem Shows.waitUntil (h : s.Shows e) {steps offset : ℤ} (hpositive : rate.isNonPositive = false)
    (hoffset : dueOffset steps rate = .ok offset)
    (hsleeps : ∀ nanoseconds ∈ (e.waitFor offset).sleeps, ∃ seconds, SleepsFor seconds nanoseconds) :
    ∃ s', s.waitUntil steps rate = .ok s' ∧ s'.Shows (e.waitFor offset) := by
  obtain ⟨hpacer, hnow, hslept⟩ := h
  cases hwait : e.pacer.wait e.now offset with
  | mk pacer sleep =>
      cases sleep with
      | none =>
          have hexact : e.waitFor offset = { e with pacer } := by
            simp only [ExactSchedule.waitFor, hwait]
          have hcall : s.waitUntil steps rate = .ok { s with pacer } := by
            simp only [Schedule.waitUntil, hpositive, hoffset, hpacer, hnow, hwait, bind,
              Except.bind, Bool.false_eq_true, if_false]
          rw [hexact]
          exact ⟨_, hcall, rfl, hnow, hslept⟩
      | some nanoseconds =>
          have hexact : e.waitFor offset =
              ⟨pacer, e.now + nanoseconds, nanoseconds :: e.sleeps⟩ := by
            simp only [ExactSchedule.waitFor, hwait]
          rw [hexact] at hsleeps ⊢
          obtain ⟨seconds, hdiv, htruncate⟩ := hsleeps nanoseconds List.mem_cons_self
          have hcall : s.waitUntil steps rate =
              .ok ⟨pacer, e.now + nanoseconds, seconds :: s.sleeps⟩ := by
            simp only [Schedule.waitUntil, Schedule.sleep, hpositive, hoffset, hpacer, hnow, hwait,
              hdiv, htruncate, bind, Except.bind, Bool.false_eq_true, if_false]
          exact ⟨_, hcall, rfl, rfl, .cons ⟨hdiv, htruncate⟩ hslept⟩

/-- **As long as the doubles come out exact, the whole run does what the exact run does.** -/
theorem Shows.follow (h : s.Shows e) {frequency : ℚ} (hfrequency : 0 < frequency)
    (hpositive : rate.isNonPositive = false) (stalls : ℕ → ℕ) {n : ℕ}
    (hoffset : ∀ k : ℕ, k ≤ n → dueOffset k rate = .ok (exactOffset k frequency))
    (hsleeps : ∀ nanoseconds ∈ (e.follow frequency stalls n).sleeps,
      ∃ seconds, SleepsFor seconds nanoseconds) :
    ∃ s', s.follow rate stalls n = .ok s' ∧ s'.Shows (e.follow frequency stalls n) := by
  induction n with
  | zero =>
      have hzero := hoffset 0 (le_refl 0)
      rw [Nat.cast_zero, ExactSchedule.exactOffset_zero] at hzero
      rw [ExactSchedule.follow_zero hfrequency]
      refine ⟨{ s with pacer := Pacer.anchor s.now 0 }, ?_, ?_, h.now, h.sleeps⟩
      · unfold Schedule.follow Schedule.reset
        rw [hpositive, hzero]
        rfl
      · rw [h.now]
        rfl
  | succ k ih =>
      -- what was slept before this call is still on the list, so the run so far was exact too
      obtain ⟨s', hs', hshows⟩ := ih (fun j hj => hoffset j (Nat.le_succ_of_le hj))
        fun x hx => hsleeps x (ExactSchedule.mem_follow_succ hfrequency k hx)
      rw [ExactSchedule.follow_succ hfrequency] at hsleeps ⊢
      have hnext := (hshows.advance (stalls k)).waitUntil hpositive (hoffset (k + 1) (le_refl _))
        hsleeps
      unfold Schedule.follow
      rw [hs']
      exact hnext

end Schedule

/-! ## Result -/

namespace ExactSchedule

/-- How far the clock is past what was due. -/
def lag (s : ExactSchedule) (offset : ℤ) : ℤ := s.now - (s.pacer.base + offset)

/-- What holds of a run that anchors a schedule and then waits for one step after the other. -/
structure KeepsPace (s : ExactSchedule) (rate : ℚ) (stalls : ℕ → ℕ) : Prop where
  /-- After each call its step is due, and by no more than the limit. -/
  lag_bounds : ∀ k : ℕ, 0 ≤ (s.follow rate stalls k).lag (exactOffset k rate) ∧
    (s.follow rate stalls k).lag (exactOffset k rate) ≤ lagLimit
  /-- The base never goes back. -/
  base_mono : ∀ j k : ℕ, j ≤ k →
    (s.follow rate stalls j).pacer.base ≤ (s.follow rate stalls k).pacer.base
  /-- A call that moves the base came too late for its step by more than the limit. -/
  base_moved : ∀ k : ℕ,
    (s.follow rate stalls (k + 1)).pacer.base ≠ (s.follow rate stalls k).pacer.base →
    lagLimit < ((s.follow rate stalls k).advance (stalls k)).lag (exactOffset (k + 1 : ℕ) rate)
  /-- No step is taken before it is due, counted from the beginning. -/
  never_early : ∀ k : ℕ, s.now + exactOffset k rate ≤ (s.follow rate stalls k).now
  /-- So a number of steps take as long as the rate says, to the nanosecond. -/
  never_ahead : ∀ k : ℕ,
    (s.now : ℚ) + k / rate * 1000000000 < (s.follow rate stalls k).now + 1
  /-- A call sleeps once or not at all, for some time but no longer than from one step to the
  next. -/
  sleeps_once : ∀ k : ℕ,
    (s.follow rate stalls (k + 1)).sleeps = (s.follow rate stalls k).sleeps ∨
    ∃ nanoseconds, 0 < nanoseconds ∧
      nanoseconds ≤ exactOffset (k + 1 : ℕ) rate - exactOffset k rate ∧
      (s.follow rate stalls (k + 1)).sleeps = nanoseconds :: (s.follow rate stalls k).sleeps
  /-- A schedule that calculates in doubles does the same, call by call, while these are exact. -/
  doubles : ∀ (schedule : Schedule) (quantity : Quantity) (n : ℕ), schedule.Shows s →
    quantity.isNonPositive = false →
    (∀ k : ℕ, k ≤ n → dueOffset k quantity = .ok (exactOffset k rate)) →
    (∀ nanoseconds ∈ (s.follow rate stalls n).sleeps,
      ∃ seconds, Schedule.SleepsFor seconds nanoseconds) →
    ∃ schedule', schedule.follow quantity stalls n = .ok schedule' ∧
      schedule'.Shows (s.follow rate stalls n)

/--
**A paced run is never ahead of its rate and never makes up for a long lag in a burst.**

Whatever passes between two calls, a step is never taken before it is due and never later than the
limit as the pacer counts. What a stall costs beyond the limit is lost: the base moves forward, and
from there the steps come one by one again.
-/
theorem follow_keepsPace {rate : ℚ} (hrate : 0 < rate) (s : ExactSchedule) (stalls : ℕ → ℕ) :
    s.KeepsPace rate stalls where
  lag_bounds := by
    intro k
    obtain ⟨_, hdue, hlate⟩ := follow_onPace s hrate stalls k
    exact ⟨by unfold lag; omega, hlate⟩
  base_mono := by
    intro j k hjk
    have hmono : Monotone fun k => (s.follow rate stalls k).pacer.base := by
      refine monotone_nat_of_le_succ fun k => ?_
      rw [follow_succ hrate]
      exact (((s.follow rate stalls k).advance (stalls k)).waitFor_base _).1
    exact hmono hjk
  base_moved := by
    intro k hmoved
    rw [follow_succ hrate] at hmoved
    exact (((s.follow rate stalls k).advance (stalls k)).waitFor_base _).2 hmoved
  never_early := by
    intro k
    exact follow_due s hrate stalls k
  never_ahead := by
    intro k
    have hdue := follow_due s hrate stalls k
    have hcut := Int.lt_floor_add_one ((k : ℚ) / rate * 1000000000)
    rw [exactOffset_eq_floor hrate] at hdue
    have hdue : (s.now : ℚ) + ⌊(k : ℚ) / rate * 1000000000⌋ ≤ (s.follow rate stalls k).now := by
      exact_mod_cast hdue
    linarith
  sleeps_once := by
    intro k
    rw [follow_succ hrate]
    exact (follow_onPace s hrate stalls k).waitFor_sleeps _ _
  doubles := fun _ _ _ hshows hpositive hoffset hsleeps =>
    hshows.follow hrate hpositive stalls hoffset hsleeps

/-- At four steps a second three calls come 300 milliseconds after the one before. The third finds a
lag of 150 milliseconds and moves the base, in doubles too; the fourth, which comes at once, sleeps
for a quarter of a second and catches up with nothing. -/
theorem follow_keepsPace_stalled :
    let s : ExactSchedule := { now := 1000 }
    let stalls : ℕ → ℕ := fun k => if k < 3 then 300000000 else 0
    (0 : ℚ) < 4 ∧
      (s.follow 4 stalls 2).pacer.base = 1000 ∧ (s.follow 4 stalls 3).pacer.base = 150001000 ∧
      lagLimit < ((s.follow 4 stalls 2).advance 300000000).lag (exactOffset 3 4) ∧
      (∃ schedule', Schedule.follow { now := 1000 } (.whole 4) stalls 3 = .ok schedule' ∧
        schedule'.Shows (s.follow 4 stalls 3)) ∧
      (s.follow 4 stalls 4).sleeps = [250000000] ∧
      (250000000 : ℤ) ≤ exactOffset 4 4 - exactOffset 3 4 := by
  intro s stalls
  have hrate : (0 : ℚ) < 4 := by norm_num
  have hbefore : (s.follow 4 stalls 2).pacer.base = 1000 := by decide +kernel
  have hafter : (s.follow 4 stalls 3).pacer.base = 150001000 := by decide +kernel
  have hawake : (s.follow 4 stalls 3).sleeps = [] := by decide +kernel
  have hslept : (s.follow 4 stalls 4).sleeps = [250000000] := by decide +kernel
  obtain ⟨_, _, hmoved, _, _, hsleeps, hdoubles⟩ := follow_keepsPace hrate s stalls
  have hlate := hmoved 2 (by rw [hbefore, hafter]; decide)
  have hexact : ∀ k : ℕ, k ≤ 3 → dueOffset k (.whole 4) = .ok (exactOffset k 4) := by
    intro k hk
    have hoffset : ∀ k : ℕ, k ≤ 3 → exactOffset k 4 = 250000000 * k := by decide +kernel
    rw [hoffset k hk]
    interval_cases k
    · exact dueOffset_zero rfl trivial
    · rfl
    · rfl
    · rfl
  have hshows := hdoubles { now := 1000 } (.whole 4) 3 ⟨rfl, rfl, .nil⟩ rfl hexact
    (by rw [hawake]; simp)
  refine ⟨hrate, hbefore, hafter, hlate, hshows, hslept, ?_⟩
  rcases hsleeps 3 with hsame | ⟨nanoseconds, _, hshort, hlist⟩
  · rw [hawake, hslept] at hsame
    exact absurd hsame (by simp)
  · rw [hawake, hslept] at hlist
    rw [(List.cons.inj hlist).1]
    exact hshort

end ExactSchedule

end ChipEight
