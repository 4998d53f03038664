import ChipEight.Proofs.Ending
import ChipEight.Proofs.Effects
import ChipEight.Proofs.Reset
import Mathlib.Data.Rat.Floor
import Mathlib.Tactic.Linarith
import Mathlib.Tactic.Ring

/-!
# A timer counts time, not ticks

A timer is brought down by ticks, and nobody promises how often it is ticked. What it shows is owed
to the time that has passed all the same, and two statements make that precise. Both are about
exact fractions.

* Ticks that are never more than a period apart bring a timer down on the grid of its period, which
  is counted from the moment at which it was set. So the value can be read off the time that has
  passed, and two schedules of ticks agree wherever they have a tick in common.
* Ticks that stay out for longer lose time and never make up for it: a timer has dropped at most
  once for each period since it was set, and no two drops are owed at one moment.

The count of a timer and its stamp are tied by one invariant, `Counting`: each drop has moved the
stamp on by at least a period. `OnGrid` says that it was exactly a period.
-/

namespace ChipEight

namespace Timer

/-! ## Histories -/

section Histories

variable {τ : Type} [Add τ] [Sub τ] [LT τ] [LE τ] [DecidableLT τ] [DecidableLE τ]

/-- What an event at a moment makes of a timer; the truth value tells whether it was a tick that
brought the count down. -/
def respond (t : Timer τ) (now : τ) : TimerEvent → Bool × Timer τ
  | .set value => (false, t.set value now)
  | .tick => t.tick now
  | .reset => (false, t.reset now)

/-- The timer after events in order. -/
def after (t : Timer τ) : List (τ × TimerEvent) → Timer τ
  | [] => t
  | (now, event) :: rest => (t.respond now event).2.after rest

/-- How many of the events told that they brought the count down. -/
def drops (t : Timer τ) : List (τ × TimerEvent) → Nat
  | [] => 0
  | (now, event) :: rest => (t.respond now event).1.toNat + (t.respond now event).2.drops rest

/-- A tick at each of the moments. -/
def ticks (moments : List τ) : List (τ × TimerEvent) := moments.map fun now => (now, .tick)

theorem after_append (t : Timer τ) (earlier later : List (τ × TimerEvent)) :
    t.after (earlier ++ later) = (t.after earlier).after later := by
  induction earlier generalizing t with
  | nil => rfl
  | cons first rest ih => exact ih _

theorem after_period (t : Timer τ) (history : List (τ × TimerEvent)) :
    (t.after history).period = t.period := by
  induction history generalizing t with
  | nil => rfl
  | cons first rest ih =>
      obtain ⟨now, event⟩ := first
      rw [after, ih]
      cases event with
      | set value => rfl
      | tick => exact t.tick_period now
      | reset => rfl

end Histories

/-! ## One tick -/

/-- **The four ways a tick can go.** The count is at zero, a period has not passed, one has passed,
or so much more that the rest is dropped. -/
theorem tick_cases (t : Timer ℚ) (now : ℚ) :
    (t.value = 0 ∧ t.tick now = (false, { t with last := now })) ∨
    (t.value ≠ 0 ∧ now < t.last + t.period ∧ t.tick now = (false, t)) ∨
    (t.value ≠ 0 ∧ t.last + t.period ≤ now ∧ now < t.last + t.period + t.period ∧
      t.tick now = (true, { t with value := t.value - 1, last := t.last + t.period })) ∨
    (t.value ≠ 0 ∧ t.last + t.period + t.period ≤ now ∧
      t.tick now = (true, { t with value := t.value - 1, last := now })) := by
  unfold tick
  by_cases hzero : t.value = 0
  · exact Or.inl ⟨hzero, if_pos hzero⟩
  · rw [if_neg hzero]
    by_cases hearly : now - t.last < t.period
    · rw [if_pos hearly]
      exact Or.inr (Or.inl ⟨hzero, by linarith, rfl⟩)
    · rw [if_neg hearly]
      by_cases hlate : t.period ≤ now - (t.last + t.period)
      · refine Or.inr (Or.inr (Or.inr ⟨hzero, by linarith, ?_⟩))
        simp only [if_pos hlate]
      · refine Or.inr (Or.inr (Or.inl ⟨hzero, by linarith, by linarith, ?_⟩))
        simp only [if_neg hlate]

/-- A byte other than zero goes down by one. -/
theorem toNat_pred {value : UInt8} (h : value ≠ 0) : (value - 1).toNat + 1 = value.toNat := by
  have hpositive : value.toNat ≠ 0 := fun hzero => h (UInt8.toNat_inj.mp hzero)
  have hbyte := value.toNat_lt
  rw [UInt8.toNat_sub]
  change (2 ^ 8 - 1 + value.toNat) % 2 ^ 8 + 1 = value.toNat
  omega

/-- **A tick tells of a drop exactly when it made one**, and it makes one at most. -/
theorem tick_value (t : Timer ℚ) (now : ℚ) :
    (t.tick now).2.value.toNat + (t.tick now).1.toNat = t.value.toNat := by
  rcases t.tick_cases now with ⟨_, ht⟩ | ⟨_, _, ht⟩ | ⟨hvalue, _, _, ht⟩ | ⟨hvalue, _, ht⟩
  · rw [ht]; rfl
  · rw [ht]; rfl
  · rw [ht]; exact toNat_pred hvalue
  · rw [ht]; exact toNat_pred hvalue

/-- **The stamp a tick leaves is less than a period old**, and not in the future. -/
theorem tick_stamp {t : Timer ℚ} {now : ℚ} (hperiod : 0 < t.period) (hlast : t.last ≤ now) :
    (t.tick now).2.last ≤ now ∧ now < (t.tick now).2.last + t.period := by
  rcases t.tick_cases now with ⟨_, ht⟩ | ⟨_, hearly, ht⟩ | ⟨_, hdue, hsoon, ht⟩ | ⟨_, _, ht⟩
  · rw [ht]
    exact ⟨le_refl now, by linarith⟩
  · rw [ht]
    exact ⟨hlast, hearly⟩
  · rw [ht]
    exact ⟨hdue, hsoon⟩
  · rw [ht]
    exact ⟨le_refl now, by linarith⟩

/-- A second tick at the same moment comes too early. -/
theorem tick_again {t : Timer ℚ} {now : ℚ} (hperiod : 0 < t.period) (hlast : t.last ≤ now) :
    ((t.tick now).2.tick now).1 = false := by
  obtain ⟨_, hfresh⟩ := tick_stamp hperiod hlast
  rw [← t.tick_period now] at hfresh hperiod
  rcases (t.tick now).2.tick_cases now with ⟨_, ht⟩ | ⟨_, _, ht⟩ | ⟨_, hdue, _, _⟩ | ⟨_, hlate, _⟩
  · rw [ht]
  · rw [ht]
  · linarith
  · linarith

/-- What ticks tell of is what they took from the count. -/
theorem after_drops (t : Timer ℚ) (moments : List ℚ) :
    (t.after (ticks moments)).value.toNat + t.drops (ticks moments) = t.value.toNat := by
  induction moments generalizing t with
  | nil => rfl
  | cons now rest ih =>
      have hrest := ih (t.tick now).2
      have hfirst := t.tick_value now
      change ((t.tick now).2.after (ticks rest)).value.toNat +
        ((t.tick now).1.toNat + (t.tick now).2.drops (ticks rest)) = t.value.toNat
      omega

/-! ## Moments in order -/

/-- The events come in the order of time, none of them before the beginning. -/
def Chronological (began : ℚ) (history : List (ℚ × TimerEvent)) : Prop :=
  (began :: history.map Prod.fst).Pairwise (· ≤ ·)

/-- Each moment comes at most a period after the one before, and the first after the start. -/
def Steady (period start : ℚ) (moments : List ℚ) : Prop :=
  (start :: moments).IsChain fun earlier later => earlier ≤ later ∧ later - earlier ≤ period

theorem chronological_cons {began now : ℚ} {event : TimerEvent} {rest : List (ℚ × TimerEvent)} :
    Chronological began ((now, event) :: rest) ↔ began ≤ now ∧ Chronological now rest := by
  unfold Chronological
  rw [List.map_cons, List.pairwise_cons]
  constructor
  · rintro ⟨hfirst, hrest⟩
    exact ⟨hfirst now List.mem_cons_self, hrest⟩
  · rintro ⟨hfirst, hrest⟩
    refine ⟨fun moment hmoment => ?_, hrest⟩
    rcases List.mem_cons.mp hmoment with rfl | hlater
    · exact hfirst
    · exact hfirst.trans (List.rel_of_pairwise_cons hrest hlater)

/-- What comes before an event in the order of time, and what comes after it. -/
theorem Chronological.split {began now : ℚ} {event : TimerEvent}
    {earlier later : List (ℚ × TimerEvent)}
    (h : Chronological began (earlier ++ (now, event) :: later)) :
    Chronological began earlier ∧ began ≤ now ∧ (∀ entry ∈ earlier, entry.1 ≤ now) ∧
      Chronological now later := by
  induction earlier generalizing began with
  | nil =>
      obtain ⟨hnow, hlater⟩ := chronological_cons.mp h
      exact ⟨List.pairwise_singleton _ _, hnow, by simp, hlater⟩
  | cons first rest ih =>
      obtain ⟨hfirst, hrest⟩ := chronological_cons.mp h
      obtain ⟨hbefore, hnow, hall, hlater⟩ := ih hrest
      refine ⟨chronological_cons.mpr ⟨hfirst, hbefore⟩, hfirst.trans hnow, ?_, hlater⟩
      intro entry hentry
      rcases List.mem_cons.mp hentry with rfl | hin
      · exact hnow
      · exact hall entry hin

theorem steady_cons {period start now : ℚ} {rest : List ℚ} :
    Steady period start (now :: rest) ↔
      (start ≤ now ∧ now - start ≤ period) ∧ Steady period now rest :=
  List.isChain_cons_cons

/-- The stamp of a timer is never ahead of the events. -/
theorem after_last {t : Timer ℚ} {began : ℚ} {history : List (ℚ × TimerEvent)} {present : ℚ}
    (hperiod : 0 < t.period) (hlast : t.last ≤ began) (h : Chronological began history)
    (hbegan : began ≤ present) (hpresent : ∀ entry ∈ history, entry.1 ≤ present) :
    (t.after history).last ≤ present := by
  -- each event begins the rest of the history at its own moment
  induction history generalizing t began with
  | nil => exact hlast.trans hbegan
  | cons first rest ih =>
      obtain ⟨now, event⟩ := first
      obtain ⟨hnow, hrest⟩ := chronological_cons.mp h
      have hreach : now ≤ present := hpresent (now, event) List.mem_cons_self
      have hlater : ∀ entry ∈ rest, entry.1 ≤ present :=
        fun entry hentry => hpresent entry (List.mem_cons_of_mem _ hentry)
      cases event with
      | set value => exact ih hperiod (le_refl now) hrest hreach hlater
      | tick =>
          have hstamp := (tick_stamp hperiod (hlast.trans hnow)).1
          have hkept : 0 < (t.tick now).2.period := by
            rw [t.tick_period now]
            exact hperiod
          exact ih hkept hstamp hrest hreach hlater
      | reset => exact ih hperiod (le_refl now) hrest hreach hlater

/-- So the stamp of a new timer is in the past when an event comes. -/
theorem after_start_last {period began now : ℚ} {event : TimerEvent}
    {earlier later : List (ℚ × TimerEvent)} (hperiod : 0 < period)
    (h : Chronological began (earlier ++ (now, event) :: later)) :
    ((start period began).after earlier).last ≤ now := by
  obtain ⟨hearlier, hbegan, hpast, _⟩ := h.split
  have hnew : (start period began).last ≤ began := le_refl began
  exact after_last hperiod hnew hearlier hbegan hpast

/-! ## What ticks keep -/

/-- A timer that was set at the start is down from `full`, and its stamp has moved on by a period
for each drop at least. -/
structure Counting (period start : ℚ) (full : Nat) (seen : ℚ) (t : Timer ℚ) : Prop where
  samePeriod : t.period = period
  within : t.value.toNat ≤ full
  paid : start + ((full : ℚ) - t.value.toNat) * period ≤ t.last
  past : t.last ≤ seen

/-- The stamp has moved on by a period for each drop exactly, as long as there is something left to
count, and it is less than a period old. -/
structure OnGrid (period start : ℚ) (full : Nat) (seen : ℚ) (t : Timer ℚ) : Prop
    extends Counting period start full seen t where
  onTime : t.value ≠ 0 → t.last = start + ((full : ℚ) - t.value.toNat) * period
  fresh : t.value ≠ 0 → seen < t.last + period

section Counting

variable {t : Timer ℚ} {period start seen now : ℚ} {full : Nat}

theorem counting_set (hperiod : 0 < t.period) (value : Int) (start : ℚ) :
    OnGrid t.period start (byteOf value).toNat start (t.set value start) where
  samePeriod := rfl
  within := le_refl _
  paid := by simp [set]
  past := le_refl _
  onTime := by simp [set]
  fresh := by
    intro _
    exact lt_add_of_pos_right start hperiod

/-- A drop leaves one less and one period more to account for. -/
theorem spent_pred (h : t.value ≠ 0) :
    ((full : ℚ) - (t.value - 1).toNat) * period = (full - t.value.toNat) * period + period := by
  have hpred : ((t.value - 1).toNat : ℚ) + 1 = t.value.toNat := by
    exact_mod_cast toNat_pred h
  rw [← hpred]
  ring

/-- **A tick keeps the account**, however late it comes. -/
theorem Counting.tick (h : Counting period start full seen t) (hperiod : 0 < period)
    (hnow : seen ≤ now) : Counting period start full now (t.tick now).2 := by
  obtain ⟨rfl, hwithin, hpaid, hpast⟩ := h
  have hlast : t.last ≤ now := hpast.trans hnow
  have hvalue := t.tick_value now
  refine ⟨t.tick_period now, by omega, ?_, (tick_stamp hperiod hlast).1⟩
  rcases t.tick_cases now with ⟨_, ht⟩ | ⟨_, _, ht⟩ | ⟨hcount, hdue, _, ht⟩ | ⟨hcount, hlate, ht⟩
  · rw [ht]
    exact hpaid.trans hlast
  · rw [ht]
    exact hpaid
  · rw [ht]
    dsimp only
    rw [spent_pred hcount]
    linarith
  · -- the stamp jumps to the present, which is even further
    rw [ht]
    dsimp only
    rw [spent_pred hcount]
    linarith

/-- **A tick that comes within a period stays on the grid**: the stamp is less than a period old
before the tick, so it is less than two periods old at the tick and nothing is dropped. -/
theorem OnGrid.tick (h : OnGrid period start full seen t) (hperiod : 0 < period)
    (hnow : seen ≤ now) (hgap : now - seen ≤ period) :
    OnGrid period start full now (t.tick now).2 := by
  have hcounting := h.toCounting.tick hperiod hnow
  obtain ⟨⟨rfl, _, _, hpast⟩, hexact, hfresh⟩ := h
  refine ⟨hcounting, ?_, ?_⟩
  · rcases t.tick_cases now with ⟨hzero, ht⟩ | ⟨hcount, _, ht⟩ | ⟨hcount, _, _, ht⟩ |
        ⟨hcount, hlate, _⟩
    · rw [ht]
      exact fun hcount => absurd hzero hcount
    · rw [ht]
      exact hexact
    · rw [ht]
      intro _
      dsimp only
      rw [spent_pred hcount, hexact hcount]
      ring
    · -- two periods cannot have passed
      have hsoon := hfresh hcount
      linarith
  · intro _
    exact (tick_stamp hperiod (hpast.trans hnow)).2

/-- **Ticks in the order of time keep the account**, whatever the gaps between them. -/
theorem Counting.ticks {moments : List ℚ} {present : ℚ} (h : Counting period start full seen t)
    (hperiod : 0 < period) (hc : Chronological seen (ticks moments)) (hseen : seen ≤ present)
    (hpresent : ∀ moment ∈ moments, moment ≤ present) :
    Counting period start full present (t.after (Timer.ticks moments)) := by
  induction moments generalizing t seen with
  | nil => exact { h with past := h.past.trans hseen }
  | cons now rest ih =>
      obtain ⟨hnow, hrest⟩ := chronological_cons.mp hc
      exact ih (h.tick hperiod hnow) hrest (hpresent now List.mem_cons_self)
        fun moment hmoment => hpresent moment (List.mem_cons_of_mem _ hmoment)

/-- **Ticks that are never more than a period apart stay on the grid.** -/
theorem OnGrid.ticks {earlier : List ℚ} (h : OnGrid period start full seen t)
    (hperiod : 0 < period) (hs : Steady period seen (earlier ++ [now])) :
    OnGrid period start full now (t.after (Timer.ticks (earlier ++ [now]))) := by
  induction earlier generalizing t seen with
  | nil =>
      obtain ⟨⟨hnow, hgap⟩, _⟩ := steady_cons.mp hs
      exact h.tick hperiod hnow hgap
  | cons moment rest ih =>
      obtain ⟨⟨hmoment, hgap⟩, hrest⟩ := steady_cons.mp hs
      exact ih (h.tick hperiod hmoment hgap) hrest

/-- The drops have taken their periods out of the time that has passed. -/
theorem Counting.spent_le (h : Counting period start full seen t) (hperiod : 0 < period) :
    (full : ℤ) - t.value.toNat ≤ ⌊(seen - start) / period⌋ := by
  have hpaid := h.paid.trans h.past
  rw [Int.le_floor, le_div_iff₀ hperiod]
  push_cast
  linarith

/-- On the grid the value is what is left of the count, and never less than zero. -/
theorem OnGrid.value_eq (h : OnGrid period start full seen t) (hperiod : 0 < period) :
    (t.value.toNat : ℤ) = max 0 ((full : ℤ) - ⌊(seen - start) / period⌋) := by
  have hspent := h.toCounting.spent_le hperiod
  by_cases hzero : t.value = 0
  · -- as many periods have passed as there were to count, maybe more
    have hvalue : t.value.toNat = 0 := by rw [hzero]; rfl
    omega
  · have hfresh := h.fresh hzero
    rw [h.onTime hzero] at hfresh
    -- one period more would have made the stamp a period old
    have hnext : ⌊(seen - start) / period⌋ < (full : ℤ) - t.value.toNat + 1 := by
      rw [Int.floor_lt, div_lt_iff₀ hperiod]
      push_cast
      linarith
    omega

end Counting

end Timer

/-! ## The timers of a machine -/

/-- One of the two timers. -/
inductive TimerName
  | delay
  | sound
  deriving DecidableEq, Repr

/-- The timer of that name. -/
def Board.timer (b : Board) : TimerName → Timer Seconds
  | .delay => b.delay
  | .sound => b.sound

/-- The instruction that sets a timer. -/
def TimerName.IsSetBy : TimerName → Instruction → Prop
  | .delay, i => ∃ x, i = .setDelay x
  | .sound, i => ∃ x, i = .setSound x

/-- From one machine to another by steps without a fault, by ticks without a step and by changes of
the rate, the timers being ticked at the moments in order and no instruction setting the one. -/
inductive Machine.Elapses (name : TimerName) : Machine → List Seconds → Machine → Prop
  | done (m : Machine) : Machine.Elapses name m [] m
  | step {m m' : Machine} {moments : List Seconds} (now : Seconds) (hrun : m.halted = false)
      (hok : (m.board.step now).fault = none)
      (hset : ∀ word, m.board.memory.fetch m.board.processor.pc = .ok word →
        ¬ name.IsSetBy (Instruction.decode word))
      (rest : Machine.Elapses name (m.step now).machine moments m') :
      Machine.Elapses name m (now :: moments) m'
  | paused {m m' : Machine} {moments : List Seconds} (now : Seconds)
      (rest : Machine.Elapses name (m.tickTimers now) moments m') :
      Machine.Elapses name m (now :: moments) m'
  | changeRate {m m' : Machine} {moments : List Seconds} (rate : Number.Quantity)
      (rest : Machine.Elapses name { m with rate } moments m') :
      Machine.Elapses name m moments m'

section Machine

variable {name : TimerName} {m m' : Machine} {moments : List Seconds}

/-- An instruction that does not set a timer leaves it as it is. -/
theorem Board.step_timer {b : Board} {now : Seconds}
    (hset : ∀ word, b.memory.fetch b.processor.pc = .ok word →
      ¬ name.IsSetBy (Instruction.decode word)) :
    (b.step now).board.timer name = b.timer name := by
  rcases b.step_cases now with ⟨_, hs⟩ | ⟨_, _, _, hs⟩ | ⟨_, word, hfetch, hs⟩
  · rw [hs]
  · rw [hs]
  · rw [hs]
    refine Classical.byContradiction fun hchanged => hset word hfetch ?_
    cases name with
    | delay => exact Board.delayAfter_ne (b := b.advanced) hchanged
    | sound => exact Board.soundAfter_ne (b := b.advanced) hchanged

theorem Board.tickTimers_timer (b : Board) (now : Seconds) :
    (b.tickTimers now).timer name = ((b.timer name).tick now).2 := by
  cases name <;> rfl

/-- **A step of the machine ticks a timer as a tick without a step does.** -/
theorem Machine.step_timer {now : Seconds} (hrun : m.halted = false)
    (hok : (m.board.step now).fault = none)
    (hset : ∀ word, m.board.memory.fetch m.board.processor.pc = .ok word →
      ¬ name.IsSetBy (Instruction.decode word)) :
    (m.step now).machine.board.timer name = ((m.board.timer name).tick now).2 := by
  have hticked : (m.step now).machine.board.timer name =
      ((m.board.step now).board.tickTimers now).timer name := by
    rw [(Machine.step_of_success hrun hok).1]
    cases name <;> rfl
  rw [hticked, Board.tickTimers_timer, Board.step_timer hset]

/-- **However a machine gets from one moment to the next**, its timers know the moments alone. -/
theorem Machine.Elapses.timer (h : Machine.Elapses name m moments m') :
    m'.board.timer name = (m.board.timer name).after (Timer.ticks moments) := by
  induction h with
  | done m => rfl
  | step now hrun hok hset _ ih =>
      rw [ih, Machine.step_timer hrun hok hset]
      rfl
  | paused now _ ih =>
      rw [ih]
      change (Timer.after ((Board.tickTimers _ now).timer name) _) = _
      rw [Board.tickTimers_timer]
      rfl
  | changeRate rate _ ih => exact ih

end Machine

/-! ## Results -/

namespace Timer

/-- What timers of a period show that were set to a value at the start. -/
structure DecaysByElapsedTime (period start : ℚ) (value : Int) : Prop where
  /-- After a tick, what was set without the whole periods that have passed since then, as long as
  no two ticks were more than a period apart. -/
  shown : ∀ t : Timer ℚ, t.period = period → ∀ earlier now,
    Steady period start (earlier ++ [now]) →
    (((t.set value start).after (ticks (earlier ++ [now]))).value.toNat : ℤ) =
      max 0 (value % 256 - ⌊(now - start) / period⌋)
  /-- Two schedules of such ticks agree wherever they have a tick in common. -/
  agree : ∀ t other : Timer ℚ, t.period = period → other.period = period →
    ∀ earlier others now, Steady period start (earlier ++ [now]) →
    Steady period start (others ++ [now]) →
    ((t.set value start).after (ticks (earlier ++ [now]))).value =
      ((other.set value start).after (ticks (others ++ [now]))).value
  /-- A machine ticks its timers in this way, whether it is stepped at whatever rate or paused. -/
  machine : ∀ name m moments m', Machine.Elapses name m moments m' →
    m'.board.timer name = (m.board.timer name).after (ticks moments)

theorem shown_of_steady {t : Timer ℚ} {start now : ℚ} {earlier : List ℚ} (value : Int)
    (hperiod : 0 < t.period) (hs : Steady t.period start (earlier ++ [now])) :
    (((t.set value start).after (ticks (earlier ++ [now]))).value.toNat : ℤ) =
      max 0 (value % 256 - ⌊(now - start) / t.period⌋) := by
  have hgrid := (counting_set hperiod value start).ticks hperiod hs
  rw [hgrid.value_eq hperiod, byteOf_toNat]

/--
**A timer decays with the time that has passed, however often it is ticked.**

Set to any value at any moment, it shows after each tick the value without the whole periods that
have passed since, and it stays at zero. The ticks may come at any moments, as long as the first is
at most a period after the set and no two in a row are further apart. So nothing that decides when
ticks come, such as the rate of the instructions or a pause, can be told from what it shows.
-/
theorem decays_by_elapsed_time {period : ℚ} (hperiod : 0 < period) (start : ℚ) (value : Int) :
    DecaysByElapsedTime period start value where
  shown := by
    rintro t rfl earlier now hs
    exact shown_of_steady value hperiod hs
  agree := by
    rintro t other rfl hother earlier others now hs hs'
    have hshown := shown_of_steady value hperiod hs
    rw [← hother] at hs' hperiod
    have hshown' := shown_of_steady value hperiod hs'
    -- both show the same number, and a byte is given by its number
    rw [hother, ← hshown] at hshown'
    exact UInt8.toNat_inj.mp (by omega)
  machine := fun name m moments m' h => h.timer

/-- A timer of a sixtieth is set to 300 and ticked three times in the first thirty milliseconds, or
twice at other moments: it has gone from 44 to 43. The timer of a machine that jumps in place is
ticked by a step and then by a pause. -/
theorem decays_by_elapsed_time_sixtieth :
    (0 : ℚ) < 1 / 60 ∧
      Steady (1 / 60) (1 / 2) ([51 / 100, 52 / 100] ++ [53 / 100]) ∧
      Steady (1 / 60) (1 / 2) ([31 / 60] ++ [53 / 100]) ∧
      (((start (1 / 60 : ℚ) 0).set 300 (1 / 2)).after
        (ticks ([51 / 100, 52 / 100] ++ [53 / 100]))).value.toNat = 43 ∧
      (((start (1 / 60 : ℚ) 0).set 300 (1 / 2)).after
        (ticks ([51 / 100, 52 / 100] ++ [53 / 100]))).value =
        (((start (1 / 60 : ℚ) 0).set 300 (1 / 2)).after (ticks ([31 / 60] ++ [53 / 100]))).value ∧
      let m := (Machine.new (.ofSeed 7) 0.25).perform (.load [0x12, 0x00])
      ((m.step 0.5).machine.tickTimers 0.75).board.delay = m.board.delay.after (ticks [0.5, 0.75]) := by
  have hperiod : (0 : ℚ) < 1 / 60 := by norm_num
  have hmany : Steady (1 / 60) (1 / 2) ([51 / 100, 52 / 100] ++ [53 / 100]) := by
    norm_num [Steady]
  have hfew : Steady (1 / 60) (1 / 2) ([31 / 60] ++ [53 / 100]) := by
    norm_num [Steady]
  obtain ⟨hshown, hagree, hmachine⟩ := decays_by_elapsed_time hperiod (1 / 2) 300
  refine ⟨hperiod, hmany, hfew, ?_, hagree _ _ rfl rfl _ _ _ hmany hfew, ?_⟩
  · have hvalue := hshown (start (1 / 60) 0) rfl _ _ hmany
    have hfloor : ⌊((53 / 100 : ℚ) - 1 / 2) / (1 / 60)⌋ = 1 := by norm_num
    rw [hfloor] at hvalue
    omega
  · intro m
    obtain ⟨memory, hload, hwork, _⟩ :=
      Machine.loaded_atWork (.ofSeed 7) 0.25 [0x12, 0x00] (by decide)
    change m.AtWork memory 0x200 at hwork
    clear_value m
    have hword : memory.fetch 0x200 = .ok 0x1200 :=
      Memory.fetch_word hload (k := 0) rfl rfl (by decide) rfl
    have hok : (m.board.step 0.5).fault = none :=
      (Machine.step_fault hwork.running 0.5).symm.trans (hwork.jump hword rfl 0.5).1
    have hset : ∀ word, m.board.memory.fetch m.board.processor.pc = .ok word →
        ¬ TimerName.delay.IsSetBy (Instruction.decode word) := by
      rintro word hfetch ⟨x, hdecode⟩
      rw [hwork.fetch hword] at hfetch
      rw [← Except.ok.inj hfetch] at hdecode
      cases hdecode
    have hdelay :=
      hmachine .delay _ _ _ (.step 0.5 hwork.running hok hset (.paused 0.75 (.done _)))
    rw [Board.timer, Board.timer] at hdelay
    exact hdelay

/-- What a timer has come to that was made at a moment and has gone through a history. -/
structure KeepsNoBacklog (period began : ℚ) (history : List (ℚ × TimerEvent)) : Prop where
  byte : ((start period began).after history).value.toNat ≤ 255
  /-- After a tick the stamp is not ahead of it and less than a period behind. -/
  stamp : ∀ earlier now, history = earlier ++ [(now, .tick)] →
    0 ≤ now - ((start period began).after history).last ∧
      now - ((start period began).after history).last < period
  /-- Another tick at the same moment does nothing. -/
  again : ∀ earlier now, history = earlier ++ [(now, .tick)] →
    (((start period began).after history).tick now).1 = false
  /-- A tick that follows tells of a drop exactly when it lowers the value by one. -/
  told : ∀ now, (((start period began).after history).tick now).1 = true ↔
    (((start period began).after history).tick now).2.value.toNat + 1 =
      ((start period began).after history).value.toNat
  /-- Otherwise it leaves the value as it is. -/
  kept : ∀ now, (((start period began).after history).tick now).1 = false →
    (((start period began).after history).tick now).2.value =
      ((start period began).after history).value
  /-- The drops since the latest set are what is missing from it, and there was at most one of them
  for each period that has passed. -/
  since : ∀ earlier moment value moments,
    history = earlier ++ (moment, .set value) :: ticks moments →
    ∀ present, moment ≤ present → (∀ tick ∈ moments, tick ≤ present) →
    (((start period began).after (earlier ++ [(moment, .set value)])).drops (ticks moments) : ℤ) =
        value % 256 - ((start period began).after history).value.toNat ∧
      (((start period began).after (earlier ++ [(moment, .set value)])).drops (ticks moments) : ℤ) ≤
        ⌊(present - moment) / period⌋

/--
**A timer never decays faster than time passes, and keeps no backlog.**

The history may be anything that comes in the order of time: sets to any whole number, resets and
ticks, with gaps as long as one likes between them. A tick after a long gap takes one from the value
and forgets the rest of the gap, so the next drop is at least a period away again.
-/
theorem keeps_no_backlog {period began : ℚ} (hperiod : 0 < period)
    {history : List (ℚ × TimerEvent)} (h : Chronological began history) :
    KeepsNoBacklog period began history where
  byte := Nat.le_of_lt_succ (UInt8.toNat_lt _)
  stamp := by
    rintro earlier now rfl
    have hkept : ((start period began).after earlier).period = period := after_period _ _
    have hlast := after_start_last hperiod h
    rw [← hkept] at hperiod
    obtain ⟨hpast, hfresh⟩ := tick_stamp hperiod hlast
    rw [hkept] at hfresh
    rw [after_append]
    change 0 ≤ now - (((start period began).after earlier).tick now).2.last ∧
      now - (((start period began).after earlier).tick now).2.last < period
    exact ⟨by linarith, by linarith⟩
  again := by
    rintro earlier now rfl
    have hkept : ((start period began).after earlier).period = period := after_period _ _
    have hlast := after_start_last hperiod h
    rw [← hkept] at hperiod
    rw [after_append]
    exact tick_again hperiod hlast
  told := by
    intro now
    have hvalue := ((start period began).after history).tick_value now
    cases hdrop : (((start period began).after history).tick now).1 with
    | true =>
        rw [hdrop] at hvalue
        exact ⟨fun _ => hvalue, fun _ => rfl⟩
    | false =>
        rw [hdrop, Bool.toNat_false] at hvalue
        exact ⟨fun hfalse => absurd hfalse (by simp), fun hlower => by omega⟩
  kept := by
    intro now hfalse
    have hvalue := ((start period began).after history).tick_value now
    rw [hfalse] at hvalue
    exact UInt8.toNat_inj.mp hvalue
  since := by
    rintro earlier moment value moments rfl present hmoment hpresent
    obtain ⟨_, _, _, hlater⟩ := h.split
    have hset : (start period began).after (earlier ++ [(moment, .set value)]) =
        ((start period began).after earlier).set value moment := after_append _ _ _
    have hall : (start period began).after (earlier ++ (moment, .set value) :: ticks moments) =
        (((start period began).after earlier).set value moment).after (ticks moments) :=
      after_append _ _ _
    have hkept : ((start period began).after earlier).period = period := after_period _ _
    rw [hset, hall]
    rw [← hkept] at hperiod
    have hcounting := (counting_set hperiod value moment).toCounting.ticks hperiod hlater hmoment
      hpresent
    have hspent := hcounting.spent_le hperiod
    have hdrops := after_drops (((start period began).after earlier).set value moment) moments
    have hfull := byteOf_toNat value
    have hstart : (((start period began).after earlier).set value moment).value = byteOf value := rfl
    rw [hkept] at hspent
    rw [hstart] at hdrops
    exact ⟨by omega, by omega⟩

/-- A timer of a sixtieth is set to 300 and not ticked for a second and a half. The tick that comes
at last takes one from it, the next at the same moment takes none, and 43 are left although ninety
periods have passed. -/
theorem keeps_no_backlog_stall :
    let history : List (ℚ × TimerEvent) := [(1 / 2, .set 300), (2, .tick), (2, .tick)]
    (0 : ℚ) < 1 / 60 ∧ Chronological 0 history ∧
      ((start (1 / 60) 0).after history).value.toNat = 43 ∧
      2 - ((start (1 / 60) 0).after history).last < 1 / 60 ∧
      (((start (1 / 60) 0).after history).tick 2).1 = false ∧
      ((start (1 / 60 : ℚ) 0).after [(1 / 2, .set 300)]).drops (ticks [2, 2]) = 1 ∧
      (1 : ℤ) ≤ ⌊((2 : ℚ) - 1 / 2) / (1 / 60)⌋ := by
  intro history
  have hperiod : (0 : ℚ) < 1 / 60 := by norm_num
  have hchrono : Chronological 0 history := by
    norm_num [Chronological, history]
  obtain ⟨_, hstamp, hagain, _, _, hsince⟩ := keeps_no_backlog hperiod hchrono
  have hlast := hstamp [(1 / 2, .set 300), (2, .tick)] 2 rfl
  have htwice := hagain [(1 / 2, .set 300), (2, .tick)] 2 rfl
  obtain ⟨hdrops, hfloor⟩ := hsince [] (1 / 2) 300 [2, 2] rfl 2 (by norm_num) (by simp)
  have hvalue : ((start (1 / 60 : ℚ) 0).after history).value.toNat = 43 := by
    decide +kernel
  have hone : ((start (1 / 60 : ℚ) 0).after [(1 / 2, .set 300)]).drops (ticks [2, 2]) = 1 := by
    rw [List.nil_append, hvalue] at hdrops
    omega
  rw [List.nil_append, hone] at hfloor
  exact ⟨hperiod, hchrono, hvalue, hlast.2, htwice, hone, hfloor⟩

end Timer

end ChipEight
