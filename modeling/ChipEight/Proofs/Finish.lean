import ChipEight.Proofs.Drivers
import Mathlib.Data.List.TakeWhile

/-!
# How a session without a window comes to its end

A session has six reasons to end, and the loop looks for them in two places: for a halt, a breakpoint,
the budget and a fault before a step and in it, for the answer at the prompt and the time after one.
`Session.Due` says them all of the same point, the one after n steps, and `Finish.rank` puts them in
one order, so that the two places are one. A session ends after the least number of steps after
which there is a reason, and of several reasons there it gives the one with the least rank.

The reasons are said of the steps of the machine and not of the turns of the loop: the k-th answer and
the k-th reading of the wall clock belong to the k-th step, because every step before the last has
used up one of each.
-/

namespace ChipEight

open Number

variable {σ ω : Type} {ask : Clock σ} {askWall : Clock ω} {c : StopConditions}

/-! ## The words to quit -/

namespace Text

theorem trimChars_between {blank : Char → Bool} {before word after : List Char}
    (hbefore : ∀ a ∈ before, blank a = true) (hafter : ∀ a ∈ after, blank a = true)
    (hword : ∀ a ∈ word, blank a = false) :
    trimChars blank (before ++ word ++ after) = word := by
  have hreverse : ∀ a ∈ after.reverse, blank a = true := by
    intro a ha
    exact hafter a (List.mem_reverse.mp ha)
  rw [trimChars, List.append_assoc, List.dropWhile_append_of_pos hbefore]
  cases word with
  | nil =>
      -- nothing is left, so the blanks behind are trimmed from the front
      have hnone : after.dropWhile blank = [] := List.dropWhile_eq_nil_iff.mpr hafter
      rw [List.nil_append, hnone]
      rfl
  | cons a rest =>
      have hfirst : blank a ≠ true := by
        rw [hword a List.mem_cons_self]
        exact Bool.false_ne_true
      rw [List.cons_append, List.dropWhile_cons_of_neg hfirst, ← List.cons_append, dropTrailing,
        List.reverse_append, List.dropWhile_append_of_pos hreverse]
      -- the last character of the word stops the trimming from behind
      have hkept : (a :: rest).reverse.dropWhile blank = (a :: rest).reverse := by
        rw [List.dropWhile_eq_self_iff]
        intro hlen
        rw [hword _ (List.mem_reverse.mp (List.getElem_mem hlen))]
        exact Bool.false_ne_true
      rw [hkept, List.reverse_reverse]

/-- What trimming takes away is blank. -/
theorem trimChars_parts (blank : Char → Bool) (cs : List Char) :
    ∃ before after, cs = before ++ trimChars blank cs ++ after ∧
      (∀ a ∈ before, blank a = true) ∧ (∀ a ∈ after, blank a = true) := by
  let rest := (cs.dropWhile blank).reverse
  refine ⟨cs.takeWhile blank, (rest.takeWhile blank).reverse, ?_, ?_, ?_⟩
  · have hrest : trimChars blank cs ++ (rest.takeWhile blank).reverse = cs.dropWhile blank := by
      rw [trimChars, dropTrailing, ← List.reverse_append, List.takeWhile_append_dropWhile,
        List.reverse_reverse]
    rw [List.append_assoc, hrest, List.takeWhile_append_dropWhile]
  · intro a ha
    exact List.mem_takeWhile_imp ha
  · intro a ha
    exact List.mem_takeWhile_imp (List.mem_reverse.mp ha)

/-- A blank has no small form. -/
theorem toLower_of_isBlank {a : Char} (h : isBlank a = true) : a.toLower = a := by
  -- no blank is a capital letter
  have hsmall : ¬ (a.val ≥ 'A'.val ∧ a.val ≤ 'Z'.val) := by
    intro hupper
    have hlow : 65 ≤ a.toNat ∧ a.toNat ≤ 90 := hupper
    simp only [isBlank, Bool.or_eq_true, Bool.and_eq_true, decide_eq_true_eq, beq_iff_eq] at h
    omega
  exact dif_neg hsmall

end Text

/-- The words to quit, in small letters. -/
def quitWords : List (List Char) := [['q'], ['q', 'u', 'i', 't']]

/-- The answer is a word to quit in letters of either case, with nothing but blanks around it. -/
def QuitWord (answer : String) : Prop :=
  ∃ before word after, answer.toList = before ++ word ++ after ∧
    (∀ a ∈ before, Text.isBlank a = true) ∧ (∀ a ∈ after, Text.isBlank a = true) ∧
    word.map Char.toLower ∈ quitWords

theorem quitWords_plain : ∀ word ∈ quitWords, ∀ a ∈ word, Text.isBlank a = false := by
  simp [quitWords, Text.isBlank]

theorem wantsToQuit_eq (answer : String) :
    wantsToQuit answer =
      decide ((Text.trimChars Text.isBlank answer.toList).map Char.toLower ∈ quitWords) := by
  rw [Bool.eq_iff_iff, decide_eq_true_iff]
  simp [wantsToQuit, Text.trim, quitWords, ← String.toList_inj]

/-- **The session takes an answer for one to quit exactly if it is such a word.** -/
theorem wantsToQuit_iff {answer : String} : wantsToQuit answer = true ↔ QuitWord answer := by
  rw [wantsToQuit_eq, decide_eq_true_iff]
  constructor
  · intro h
    obtain ⟨before, after, hparts, hbefore, hafter⟩ :=
      Text.trimChars_parts Text.isBlank answer.toList
    exact ⟨before, _, after, hparts, hbefore, hafter, h⟩
  · rintro ⟨before, word, after, hparts, hbefore, hafter, hword⟩
    have hletters : ∀ a ∈ word, Text.isBlank a = false := by
      intro a ha
      cases hblank : Text.isBlank a with
      | false => rfl
      | true =>
          -- it would stand in the word in small letters too
          have hmem : a ∈ word.map Char.toLower :=
            List.mem_map.mpr ⟨a, ha, Text.toLower_of_isBlank hblank⟩
          rw [← hblank]
          exact quitWords_plain _ hword a hmem
    rw [hparts, Text.trimChars_between hbefore hafter hletters]
    exact hword

/-! ## Reasons to end -/

/-- The k-th reading of a clock, counted from 0. -/
def reading (ask : Clock σ) : Nat → σ → Seconds
  | 0, clock => (ask clock).1
  | k + 1, clock => reading ask k (ask clock).2

namespace StopConditions

/-- The user at the prompt wants to quit after a number of steps, or there is no answer left. Nobody
is asked before the first step. -/
def QuitsAfter (c : StopConditions) (answers : List String) : Nat → Prop
  | 0 => False
  | k + 1 => c.stepping = true ∧
      (answers[k]? = none ∨ ∃ answer, answers[k]? = some answer ∧ QuitWord answer)

/-- The time is over after a number of steps. Nobody looks at the clock before the first step. -/
def LateAfter (c : StopConditions) (askWall : Clock ω) (wall : ω) : Nat → Prop
  | 0 => False
  | k + 1 => ∃ deadline, c.deadline = some deadline ∧ deadline ≤ reading askWall k wall

theorem spent_eq_true {steps : Nat} :
    c.spent steps = true ↔ ∃ budget, c.budget = some budget ∧ budget ≤ (steps : Int) := by
  rw [spent]
  cases c.budget with
  | none => simp
  | some budget => simp

theorem not_quitsAfter (h : c.stepping = false) (answers : List String) (k : Nat) :
    ¬ c.QuitsAfter answers k := by
  cases k with
  | zero => exact id
  | succ k =>
      rintro ⟨hasked, _⟩
      rw [h] at hasked
      exact absurd hasked (by simp)

theorem not_lateAfter (h : c.deadline = none) (wall : ω) (k : Nat) :
    ¬ c.LateAfter askWall wall k := by
  cases k with
  | zero => exact id
  | succ k =>
      rintro ⟨deadline, hsome, _⟩
      rw [h] at hsome
      exact absurd hsome (by simp)

/-- If the first answer is not one to quit, the answers without it are those of one step later. -/
theorem quitsAfter_tail {answers : List String} (h : ¬ c.QuitsAfter answers 1) (k : Nat) :
    c.QuitsAfter answers.tail k ↔ c.QuitsAfter answers (k + 1) := by
  cases k with
  | zero => exact iff_of_false id h
  | succ k => rw [QuitsAfter, QuitsAfter, List.getElem?_tail]

/-- If it is not late at the first reading, the readings after it are those of one step later. -/
theorem lateAfter_next {wall : ω} (h : ¬ c.LateAfter askWall wall 1) (k : Nat) :
    c.LateAfter askWall (askWall wall).2 k ↔ c.LateAfter askWall wall (k + 1) := by
  cases k with
  | zero => exact iff_of_false id h
  | succ k => exact Iff.rfl

end StopConditions

/-- The order in which a session finds its reasons out. -/
def Finish.rank : Finish → Nat
  | .quit => 0
  | .timeout => 1
  | .halted => 2
  | .breakpoint => 3
  | .budget => 4
  | .fault _ => 5

/-- Two reasons at one place in the order are the same, or both are faults. -/
theorem Finish.eq_or_faults_of_rank {finish other : Finish} (h : finish.rank = other.rank) :
    finish = other ∨ ∃ cause cause', finish = .fault cause ∧ other = .fault cause' := by
  cases finish <;> cases other <;> simp [rank] at h ⊢

namespace Session

/-- There is this reason to end a session after a number of its steps, which led to the bench. -/
def Due (ask : Clock σ) (askWall : Clock ω) (c : StopConditions) (s : Session σ ω) (k : Nat)
    (b : Bench σ) : Finish → Prop
  | .quit => c.QuitsAfter s.answers k
  | .timeout => c.LateAfter askWall s.wall k
  | .halted => b.machine.halted = true
  | .breakpoint => b.machine.board.processor.pc ∈ c.breakpoints
  | .budget => ∃ budget, c.budget = some budget ∧ budget ≤ ((s.steps + k : Nat) : Int)
  | .fault fault => (b.step ask).2 = some fault

/-- This reason is there and it comes before all others that are there. -/
def Decides (ask : Clock σ) (askWall : Clock ω) (c : StopConditions) (s : Session σ ω) (k : Nat)
    (b : Bench σ) (finish : Finish) : Prop :=
  s.Due ask askWall c k b finish ∧
    ∀ other, s.Due ask askWall c k b other → finish.rank ≤ other.rank

variable {s : Session σ ω} {b last : Bench σ} {k n : Nat} {finish other : Finish}

/-- **Only one reason decides.** -/
theorem Decides.unique (h : s.Decides ask askWall c k b finish)
    (h' : s.Decides ask askWall c k b other) : finish = other := by
  have hrank : finish.rank = other.rank := Nat.le_antisymm (h.2 _ h'.1) (h'.2 _ h.1)
  rcases Finish.eq_or_faults_of_rank hrank with hsame | ⟨cause, cause', rfl, rfl⟩
  · exact hsame
  · have hcause : (b.step ask).2 = some cause := h.1
    exact congrArg _ (Option.some.inj (hcause.symm.trans h'.1))

theorem Decides.iff (h : s.Decides ask askWall c k b finish) :
    s.Decides ask askWall c k b other ↔ finish = other := by
  constructor
  · intro h'
    exact h.unique h'
  · rintro rfl
    exact h

theorem Decides.not_due (h : s.Decides ask askWall c k b finish) (other : Finish)
    (hrank : other.rank < finish.rank) : ¬ s.Due ask askWall c k b other := by
  intro hdue
  have hle := h.2 other hdue
  omega

/-! ## One turn -/

/-- What the last turn leaves at the bench: a step that faulted with its fault recorded, or everything
as it is. -/
def left (ask : Clock σ) (last : Bench σ) : Finish → Bench σ
  | .fault fault =>
    { (last.step ask).1 with machine := (last.step ask).1.machine.recordFault fault }
  | _ => last

/-- The session is where the other one is after a step that did not end it, with the answer and the
reading that belong to this step used up. -/
structure Ahead (askWall : Clock ω) (c : StopConditions) (s s' : Session σ ω) : Prop where
  steps : s'.steps = s.steps + 1
  quits : ∀ k, c.QuitsAfter s'.answers k ↔ c.QuitsAfter s.answers (k + 1)
  late : ∀ k, c.LateAfter askWall s'.wall k ↔ c.LateAfter askWall s.wall (k + 1)

/-- Its reasons are those of one step later. -/
theorem Ahead.due {s' : Session σ ω} (h : s.Ahead askWall c s') :
    s'.Due ask askWall c k b finish ↔ s.Due ask askWall c (k + 1) b finish := by
  cases finish with
  | quit => exact h.quits k
  | timeout => exact h.late k
  | budget =>
      have hsum : s'.steps + k = s.steps + (k + 1) := by rw [h.steps]; omega
      rw [Due, Due, hsum]
  | halted => exact Iff.rfl
  | breakpoint => exact Iff.rfl
  | fault cause => exact Iff.rfl

theorem Ahead.decides {s' : Session σ ω} (h : s.Ahead askWall c s') :
    s'.Decides ask askWall c k b finish ↔ s.Decides ask askWall c (k + 1) b finish := by
  simp only [Decides, h.due]

/-- Looking at the wall clock finds out whether the time is over, and uses up a reading if not. -/
theorem lookAtWall_cases (askWall : Clock ω) (c : StopConditions) (s : Session σ ω) :
    ∃ wall,
      (c.LateAfter askWall s.wall 1 ∧
        s.lookAtWall askWall c = ({ s with wall }, some .timeout)) ∨
      ((∀ k, c.LateAfter askWall wall k ↔ c.LateAfter askWall s.wall (k + 1)) ∧
        s.lookAtWall askWall c = ({ s with wall }, none)) := by
  unfold lookAtWall
  cases hdeadline : c.deadline with
  | none =>
      refine ⟨s.wall, Or.inr ⟨fun k => ?_, rfl⟩⟩
      have hnever : ∀ k, ¬ c.LateAfter askWall s.wall k :=
        StopConditions.not_lateAfter hdeadline s.wall
      exact iff_of_false (hnever k) (hnever (k + 1))
  | some deadline =>
      refine ⟨(askWall s.wall).2, ?_⟩
      by_cases hlate : deadline ≤ (askWall s.wall).1
      · refine Or.inl ⟨⟨deadline, hdeadline, hlate⟩, ?_⟩
        simp only [if_pos hlate]
      · refine Or.inr ⟨StopConditions.lateAfter_next ?_, ?_⟩
        · rintro ⟨deadline', hsome, hlate'⟩
          rw [hdeadline] at hsome
          obtain rfl := Option.some.inj hsome
          exact hlate hlate'
        · simp only [if_neg hlate]

/-- Asking at the prompt finds out whether the user wants to quit, and uses up an answer if not. -/
theorem prompt_cases (hstepping : c.stepping = true) (s : Session σ ω) :
    ∃ answers printed,
      (c.QuitsAfter s.answers 1 ∧ s.prompt = ({ s with answers, printed }, true)) ∨
      (¬ c.QuitsAfter s.answers 1 ∧
        (∀ k, c.QuitsAfter answers k ↔ c.QuitsAfter s.answers (k + 1)) ∧
        s.prompt = ({ s with answers, printed }, false)) := by
  obtain ⟨bench, wall, steps, answers, printed⟩ := s
  refine ⟨answers.tail, bench.machine.board.processor.describe :: printed, ?_⟩
  cases answers with
  | nil => exact Or.inl ⟨⟨hstepping, Or.inl rfl⟩, rfl⟩
  | cons answer rest =>
      cases hquit : wantsToQuit answer with
      | true =>
          refine Or.inl ⟨⟨hstepping, Or.inr ⟨answer, rfl, wantsToQuit_iff.mp hquit⟩⟩, ?_⟩
          simp [prompt, hquit]
      | false =>
          have hstays : ¬ c.QuitsAfter (answer :: rest) 1 := by
            rintro ⟨_, hnone | ⟨answer', hsome, hword⟩⟩
            · exact absurd hnone (by simp)
            · obtain rfl : answer = answer' := Option.some.inj hsome
              rw [wantsToQuit_iff.mpr hword] at hquit
              exact absurd hquit (by simp)
          refine Or.inr ⟨hstays, StopConditions.quitsAfter_tail hstays, ?_⟩
          simp [prompt, hquit]

/-- **What comes after a step**: the prompt first, then the wall clock. -/
theorem finishAfter_cases (askWall : Clock ω) (c : StopConditions) (s : Session σ ω) :
    ∃ answers wall printed, let s' : Session σ ω := { s with answers, wall, printed }
      (c.QuitsAfter s.answers 1 ∧ s.finishAfter askWall c = (s', some .quit)) ∨
      (¬ c.QuitsAfter s.answers 1 ∧ c.LateAfter askWall s.wall 1 ∧
        s.finishAfter askWall c = (s', some .timeout)) ∨
      ((∀ k, c.QuitsAfter answers k ↔ c.QuitsAfter s.answers (k + 1)) ∧
        (∀ k, c.LateAfter askWall wall k ↔ c.LateAfter askWall s.wall (k + 1)) ∧
        s.finishAfter askWall c = (s', none)) := by
  cases hstepping : c.stepping with
  | false =>
      have hwall : s.finishAfter askWall c = s.lookAtWall askWall c := by
        simp [finishAfter, hstepping]
      have hnever := c.not_quitsAfter hstepping s.answers
      obtain ⟨wall, hlook⟩ := lookAtWall_cases askWall c s
      refine ⟨s.answers, wall, s.printed, ?_⟩
      rw [hwall]
      rcases hlook with ⟨hlate, hlook⟩ | ⟨hnext, hlook⟩
      · exact Or.inr (Or.inl ⟨hnever 1, hlate, hlook⟩)
      · exact Or.inr (Or.inr ⟨fun k => iff_of_false (hnever k) (hnever (k + 1)), hnext, hlook⟩)
  | true =>
      obtain ⟨answers, printed, ⟨hquit, hprompt⟩ | ⟨hquit, hanswers, hprompt⟩⟩ :=
        prompt_cases hstepping s
      · refine ⟨answers, s.wall, printed, Or.inl ⟨hquit, ?_⟩⟩
        simp [finishAfter, hstepping, hprompt]
      · have hwall : s.finishAfter askWall c =
            ({ s with answers, printed } : Session σ ω).lookAtWall askWall c := by
          simp [finishAfter, hstepping, hprompt]
        obtain ⟨wall, hlook⟩ := lookAtWall_cases askWall c { s with answers, printed }
        refine ⟨answers, wall, printed, ?_⟩
        rw [hwall]
        rcases hlook with ⟨hlate, hlook⟩ | ⟨hnext, hlook⟩
        · exact Or.inr (Or.inl ⟨hquit, hlate, hlook⟩)
        · exact Or.inr (Or.inr ⟨hanswers, hnext, hlook⟩)

/-- Before its first step a session has only the reasons that it looks for before a step, so a reason
decides if those of them that come before it are not there. -/
theorem decides_at_start (hdue : s.Due ask askWall c 0 b finish)
    (hhalted : Finish.halted.rank < finish.rank → b.machine.halted = false)
    (hbreak : Finish.breakpoint.rank < finish.rank →
      b.machine.board.processor.pc ∉ c.breakpoints)
    (hbudget : Finish.budget.rank < finish.rank → c.spent s.steps = false) :
    s.Decides ask askWall c 0 b finish := by
  refine ⟨hdue, fun other hother => Nat.le_of_not_lt fun hrank => ?_⟩
  cases other with
  | quit => exact hother
  | timeout => exact hother
  | halted =>
      have hstill : b.machine.halted = true := hother
      rw [hhalted hrank] at hstill
      exact absurd hstill (by simp)
  | breakpoint => exact hbreak hrank hother
  | budget =>
      have hspent : c.spent s.steps = true := StopConditions.spent_eq_true.mpr hother
      rw [hbudget hrank] at hspent
      exact absurd hspent (by simp)
  | fault cause =>
      cases finish <;> simp [Finish.rank] at hrank

theorem not_due_at_start (hhalted : b.machine.halted = false)
    (hbreak : b.machine.board.processor.pc ∉ c.breakpoints) (hbudget : c.spent s.steps = false)
    (hstep : (b.step ask).2 = none) (finish : Finish) : ¬ s.Due ask askWall c 0 b finish := by
  intro hdue
  cases finish with
  | quit => exact hdue
  | timeout => exact hdue
  | halted => exact absurd (hhalted.symm.trans hdue) (by simp)
  | breakpoint => exact hbreak hdue
  | budget =>
      have hspent : c.spent s.steps = true := StopConditions.spent_eq_true.mpr hdue
      exact absurd (hbudget.symm.trans hspent) (by simp)
  | fault cause => exact absurd (hstep.symm.trans hdue) (by simp)

/-- **What comes before a step or with it**: the end of the session, or the step. -/
theorem attempt_cases (ask : Clock σ) (askWall : Clock ω) (c : StopConditions) (s : Session σ ω) :
    (∃ finish, s.Decides ask askWall c 0 s.bench finish ∧
      s.attempt ask c = ({ s with bench := left ask s.bench finish }, some finish)) ∨
    ((∀ finish, ¬ s.Due ask askWall c 0 s.bench finish) ∧
      s.attempt ask c = ({ s with bench := (s.bench.step ask).1, steps := s.steps + 1 }, none)) := by
  unfold attempt finishBefore
  cases hhalted : s.bench.machine.halted with
  | true =>
      refine Or.inl ⟨.halted, decides_at_start hhalted ?_ ?_ ?_, rfl⟩
      · exact fun h => absurd h (by decide)
      · exact fun h => absurd h (by decide)
      · exact fun h => absurd h (by decide)
  | false =>
    by_cases hbreak : s.bench.machine.board.processor.pc ∈ c.breakpoints
    · refine Or.inl ⟨.breakpoint, decides_at_start hbreak (fun _ => hhalted) ?_ ?_, ?_⟩
      · exact fun h => absurd h (by decide)
      · exact fun h => absurd h (by decide)
      · simp [hbreak, left]
    · cases hspent : c.spent s.steps with
      | true =>
          refine Or.inl ⟨.budget, decides_at_start (StopConditions.spent_eq_true.mp hspent)
            (fun _ => hhalted) (fun _ => hbreak) ?_, ?_⟩
          · exact fun h => absurd h (by decide)
          · simp [hbreak, left]
      | false =>
          rcases hattempt : s.bench.step ask with ⟨bench, _ | fault⟩
          · have hstep : (s.bench.step ask).2 = none := congrArg Prod.snd hattempt
            exact Or.inr ⟨not_due_at_start hhalted hbreak hspent hstep, by simp [hbreak]⟩
          · refine Or.inl ⟨.fault fault, decides_at_start ?_ (fun _ => hhalted) (fun _ => hbreak)
              (fun _ => hspent), ?_⟩
            · exact congrArg Prod.snd hattempt
            · simp [hbreak, left, hattempt]

/-- **One turn**: the session ends where it is, or it takes a step and ends after it, or it goes on. -/
theorem turn_cases (ask : Clock σ) (askWall : Clock ω) (c : StopConditions) (s : Session σ ω) :
    (∃ finish, s.Decides ask askWall c 0 s.bench finish ∧
      s.turn ask askWall c = ({ s with bench := left ask s.bench finish }, some finish)) ∨
    ((∀ finish, ¬ s.Due ask askWall c 0 s.bench finish) ∧
      ∃ s', s'.bench = (s.bench.step ask).1 ∧
        ((∃ finish, s.Decides ask askWall c 1 s'.bench finish ∧ s'.steps = s.steps + 1 ∧
          left ask s'.bench finish = s'.bench ∧ s.turn ask askWall c = (s', some finish)) ∨
        (s.Ahead askWall c s' ∧ s.turn ask askWall c = (s', none)))) := by
  rcases attempt_cases ask askWall c s with ⟨finish, hdecides, hattempt⟩ | ⟨hnone, hattempt⟩
  · refine Or.inl ⟨finish, hdecides, ?_⟩
    rw [turn, hattempt]
  · refine Or.inr ⟨hnone, ?_⟩
    have hturn : s.turn ask askWall c =
        ({ s with bench := (s.bench.step ask).1, steps := s.steps + 1 } :
          Session σ ω).finishAfter askWall c := by
      rw [turn, hattempt]
    rw [hturn]
    obtain ⟨answers, wall, printed, hafter⟩ := finishAfter_cases askWall c
      ({ s with bench := (s.bench.step ask).1, steps := s.steps + 1 } : Session σ ω)
    refine ⟨{ s with
      bench := (s.bench.step ask).1, steps := s.steps + 1, answers, wall, printed }, rfl, ?_⟩
    rcases hafter with ⟨hquit, hend⟩ | ⟨hquit, hlate, hend⟩ | ⟨hquits, hlate, hend⟩
    · refine Or.inl ⟨.quit, ⟨hquit, fun other _ => Nat.zero_le _⟩, rfl, rfl, hend⟩
    · -- only the answer comes before the time
      refine Or.inl ⟨.timeout, ⟨hlate, fun other hother => ?_⟩, rfl, rfl, hend⟩
      cases other with
      | quit => exact absurd hother hquit
      | _ => simp [Finish.rank]
    · exact Or.inr ⟨⟨rfl, hquits, hlate⟩, hend⟩

/-! ## A whole session -/

/-- The steps lead on and there is no reason to end after them. -/
def Passes (ask : Clock σ) (askWall : Clock ω) (c : StopConditions) (s : Session σ ω) (k : Nat) :
    Prop :=
  ∃ b, s.bench.stepTimes ask k = (b, none) ∧ ∀ finish, ¬ s.Due ask askWall c k b finish

/-- The first reason to end a session comes after n steps. -/
structure Ends (ask : Clock σ) (askWall : Clock ω) (c : StopConditions) (s : Session σ ω) (n : Nat)
    (last : Bench σ) (finish : Finish) : Prop where
  reached : s.bench.stepTimes ask n = (last, none)
  decides : s.Decides ask askWall c n last finish
  first : ∀ j < n, s.Passes ask askWall c j

/-- Without a reason to end the next step succeeds. -/
theorem step_of_not_due (hnone : ∀ finish, ¬ s.Due ask askWall c 0 s.bench finish) :
    (s.bench.step ask).2 = none := by
  cases hstep : (s.bench.step ask).2 with
  | none => rfl
  | some cause => exact absurd hstep (hnone (.fault cause))

theorem passes_zero (hnone : ∀ finish, ¬ s.Due ask askWall c 0 s.bench finish) :
    s.Passes ask askWall c 0 := ⟨s.bench, rfl, hnone⟩

section Next

variable {s' : Session σ ω}

theorem passes_succ (hnone : ∀ finish, ¬ s.Due ask askWall c 0 s.bench finish)
    (hbench : s'.bench = (s.bench.step ask).1) (hahead : s.Ahead askWall c s')
    (h : s'.Passes ask askWall c k) : s.Passes ask askWall c (k + 1) := by
  obtain ⟨b, hreached, hpass⟩ := h
  refine ⟨b, ?_, fun finish hdue => hpass finish (hahead.due.mpr hdue)⟩
  rw [Bench.stepTimes_succ (step_of_not_due hnone), ← hbench]
  exact hreached

/-- What comes after n more steps than the next comes after n + 1. -/
theorem Ends.later (hnone : ∀ finish, ¬ s.Due ask askWall c 0 s.bench finish)
    (hbench : s'.bench = (s.bench.step ask).1) (hahead : s.Ahead askWall c s')
    (h : s'.Ends ask askWall c n last finish) : s.Ends ask askWall c (n + 1) last finish := by
  refine ⟨?_, hahead.decides.mp h.decides, fun j hj => ?_⟩
  · rw [Bench.stepTimes_succ (step_of_not_due hnone), ← hbench]
    exact h.reached
  · cases j with
    | zero => exact passes_zero hnone
    | succ j =>
        exact passes_succ hnone hbench hahead (h.first j (Nat.lt_of_succ_lt_succ hj))

end Next

/-- **A session ends at its first reason, or there was none as long as it was waited for.** -/
theorem loop_cases (ask : Clock σ) (askWall : Clock ω) (c : StopConditions) (turns : Nat)
    (s : Session σ ω) :
    (∃ n last finish s', n ≤ turns ∧ s.Ends ask askWall c n last finish ∧
      s'.bench = left ask last finish ∧ s'.steps = s.steps + n ∧
      loop ask askWall c turns s = (s', some finish)) ∨
    ((∀ k < turns, s.Passes ask askWall c k) ∧ ∃ s', loop ask askWall c turns s = (s', none)) := by
  induction turns generalizing s with
  | zero =>
      refine Or.inr ⟨?_, s, rfl⟩
      intro k hk
      exact absurd hk (Nat.not_lt_zero k)
  | succ turns ih =>
      -- the induction is on the turns, and the rest of the session is a session of its own: its
      -- answers and readings are the ones that this turn has left
      rw [loop]
      rcases turn_cases ask askWall c s with ⟨finish, hdecides, hturn⟩ |
          ⟨hnone, s', hbench, ⟨finish, hdecides, hsteps, hleft, hturn⟩ | ⟨hahead, hturn⟩⟩
      · have hends : s.Ends ask askWall c 0 s.bench finish := by
          refine ⟨rfl, hdecides, fun j hj => ?_⟩
          exact absurd hj (Nat.not_lt_zero j)
        refine Or.inl ⟨0, s.bench, finish, _, Nat.zero_le _, hends, ?_, ?_, by rw [hturn]⟩
        · rfl
        · rfl
      · -- the step was taken and the prompt or the wall clock ended the session
        have hends : s.Ends ask askWall c 1 s'.bench finish := by
          refine ⟨?_, hdecides, fun j hj => ?_⟩
          · rw [Bench.stepTimes_succ (step_of_not_due hnone), hbench]
            rfl
          · obtain rfl : j = 0 := by omega
            exact passes_zero hnone
        exact Or.inl ⟨1, s'.bench, finish, s', Nat.succ_le_succ (Nat.zero_le _), hends, hleft.symm,
          hsteps, by rw [hturn]⟩
      · rw [hturn]
        rcases ih s' with ⟨n, last, finish, s'', hn, hends, hlast, hsteps, hloop⟩ | ⟨hpass, hloop⟩
        · refine Or.inl ⟨n + 1, last, finish, s'', Nat.succ_le_succ hn,
            hends.later hnone hbench hahead, hlast, ?_, hloop⟩
          rw [hsteps, hahead.steps]
          omega
        · refine Or.inr ⟨fun k hk => ?_, hloop⟩
          cases k with
          | zero => exact passes_zero hnone
          | succ k =>
              exact passes_succ hnone hbench hahead (hpass k (Nat.lt_of_succ_lt_succ hk))

end Session

/-! ## What a session reports -/

/-- The report of a session: the steps it took, whether the machine is halted, and what ended it. -/
structure SessionReport where
  steps : Nat
  halted : Bool
  breakpoint : Bool
  timeout : Bool
  budget : Bool
  quit : Bool
  fault : Option Fault

/-- Whether each of the things happened that end a session while the machine could go on or as it
faults. -/
def SessionReport.flags (r : SessionReport) : List Bool :=
  [r.breakpoint, r.timeout, r.budget, r.quit, r.fault.isSome]

namespace Session

variable {s s' : Session σ ω} {b last : Bench σ} {n : Nat} {finish : Finish}

/-- The report of a session that ended. -/
def report (s : Session σ ω) (finish : Finish) : SessionReport where
  steps := s.steps
  halted := s.bench.machine.halted
  breakpoint := decide (finish = .breakpoint)
  timeout := decide (finish = .timeout)
  budget := decide (finish = .budget)
  quit := decide (finish = .quit)
  fault := finish.fault?

/-- At most one thing is reported to have ended the session, and none if the machine did. -/
theorem report_flags (s : Session σ ω) (finish : Finish) :
    (s.report finish).flags.count true = if finish = .halted then 0 else 1 := by
  cases finish <;> simp [report, SessionReport.flags, Finish.fault?]

/-- What a session that ended did and what it reports. The bench is the last one before the turn that
ended it. -/
structure Finished (ask : Clock σ) (askWall : Clock ω) (c : StopConditions) (s s' : Session σ ω)
    (r : SessionReport) (last : Bench σ) : Prop where
  /-- The steps lead to the last bench, and none of them faulted. -/
  reached : s.bench.stepTimes ask r.steps = (last, none)
  /-- There is a reason to end after them. -/
  due : ∃ finish, s.Due ask askWall c r.steps last finish
  /-- There is none after fewer. -/
  first : ∀ j < r.steps, s.Passes ask askWall c j
  quit : r.quit = true ↔ s.Decides ask askWall c r.steps last .quit
  timeout : r.timeout = true ↔ s.Decides ask askWall c r.steps last .timeout
  breakpoint : r.breakpoint = true ↔ s.Decides ask askWall c r.steps last .breakpoint
  budget : r.budget = true ↔ s.Decides ask askWall c r.steps last .budget
  fault : ∀ cause, r.fault = some cause ↔ s.Decides ask askWall c r.steps last (.fault cause)
  /-- At most one thing is reported to have ended the session. -/
  one : r.flags.count true ≤ 1
  /-- Nothing is if the machine was found halted. -/
  rest : r.flags.count true = 0 ↔ s.Decides ask askWall c r.steps last .halted
  halted : r.halted = s'.bench.machine.halted ∧ r.halted = last.machine.halted
  /-- The machine counts the same steps. -/
  counted : s'.bench.machine.steps = s.bench.machine.steps + r.steps
  /-- The instruction at a breakpoint is not carried out, and not even attempted. -/
  spared : ∀ j b, s.bench.stepTimes ask j = (b, none) →
    b.machine.board.processor.pc ∈ c.breakpoints → r.steps ≤ j ∧ (j = r.steps → r.fault = none)
  within : ∀ budget, c.budget = some budget → 0 ≤ budget → (r.steps : Int) ≤ budget
  /-- The machine keeps the fault that is reported. -/
  keeps : s'.bench.machine.fault = r.fault
  /-- Without a fault everything at the bench is left as the steps left it. -/
  kept : r.fault = none → s'.bench = last
  /-- With a fault the machine has asked for its tone and moved past the word that it fetched, if
  any. -/
  recorded : ∀ cause, r.fault = some cause →
    ∃ board, (board = last.machine.board ∨ board = last.machine.board.advanced) ∧
      s'.bench.machine =
        { last.machine with buzzer := last.machine.toned, board, fault := some cause }

/-- There is no reason to end at a bench that the session passes. -/
theorem Passes.not_due {k : Nat} (h : s.Passes ask askWall c k)
    (hreached : s.bench.stepTimes ask k = (b, none)) (finish : Finish) :
    ¬ s.Due ask askWall c k b finish := by
  obtain ⟨b', hreached', hpass⟩ := h
  obtain rfl : b' = b := congrArg Prod.fst (hreached'.symm.trans hreached)
  exact hpass finish

theorem left_cases (ask : Clock σ) (last : Bench σ) (finish : Finish) :
    (finish.fault? = none ∧ left ask last finish = last) ∨ ∃ cause, finish = .fault cause := by
  cases finish with
  | fault cause => exact Or.inr ⟨cause, rfl⟩
  | _ => exact Or.inl ⟨rfl, rfl⟩

end Session

theorem Bench.step_of_stepTimes {b last : Bench σ} {n : Nat}
    (h : b.stepTimes ask (n + 1) = (last, none)) : (b.step ask).2 = none := by
  cases hstep : (b.step ask).2 with
  | none => rfl
  | some cause =>
      have hattempt : b.step ask = ((b.step ask).1, some cause) := by rw [← hstep]
      rw [stepTimes, hattempt] at h
      exact absurd (congrArg Prod.snd h) (by simp)

/-- As long as the machine is not halted it counts the steps that succeed. -/
theorem Bench.stepTimes_steps {b last : Bench σ} {n : Nat}
    (hreached : b.stepTimes ask n = (last, none))
    (hrun : ∀ j < n, ∀ b', b.stepTimes ask j = (b', none) → b'.machine.halted = false) :
    last.machine.steps = b.machine.steps + n := by
  induction n generalizing b with
  | zero =>
      obtain rfl : b = last := congrArg Prod.fst hreached
      rfl
  | succ n ih =>
      have hstep := step_of_stepTimes hreached
      have hcount : (b.step ask).1.machine.steps = b.machine.steps + 1 := by
        have h := Machine.step_steps (hrun 0 (Nat.succ_pos n) b rfl) (ask b.clock).1
        have hstep' : (b.machine.step (ask b.clock).1).fault = none := hstep
        rwa [if_pos hstep'] at h
      rw [stepTimes_succ hstep] at hreached
      have hrest := ih hreached fun j hj b' hb' =>
        hrun (j + 1) (Nat.succ_lt_succ hj) b' (by rw [stepTimes_succ hstep]; exact hb')
      rw [hrest, hcount]
      omega

namespace Session

variable {s s' : Session σ ω} {b last : Bench σ} {n : Nat} {finish : Finish}

theorem Ends.machine_steps (h : s.Ends ask askWall c n last finish) :
    last.machine.steps = s.bench.machine.steps + n := by
  refine Bench.stepTimes_steps h.reached fun j hj b hb => ?_
  have hrunning := (h.first j hj).not_due hb .halted
  exact Bool.eq_false_iff.mpr hrunning

/-- The session does not go past a bench where the program counter is at a breakpoint. -/
theorem Ends.spares (h : s.Ends ask askWall c n last finish) {j : Nat}
    (hreached : s.bench.stepTimes ask j = (b, none))
    (hbreak : b.machine.board.processor.pc ∈ c.breakpoints) :
    n ≤ j ∧ (j = n → finish.fault? = none) := by
  constructor
  · refine Nat.le_of_not_lt fun hj => ?_
    exact (h.first j hj).not_due hreached .breakpoint hbreak
  · rintro rfl
    obtain rfl : last = b := congrArg Prod.fst (h.reached.symm.trans hreached)
    cases hfault : finish.fault? with
    | none => rfl
    | some cause =>
        obtain rfl := Finish.eq_of_fault? hfault
        have hrank := h.decides.2 .breakpoint hbreak
        exact absurd hrank (by simp [Finish.rank])

/-- The session stays within a budget that is not negative. -/
theorem Ends.within (h : s.Ends ask askWall c n last finish) (hstart : s.steps = 0) {budget : Int}
    (hbudget : c.budget = some budget) (hsign : 0 ≤ budget) : (n : Int) ≤ budget := by
  refine Int.not_lt.mp fun hover => ?_
  -- the session would have passed the point where the budget is used up
  obtain ⟨j, rfl⟩ := Int.eq_ofNat_of_zero_le hsign
  obtain ⟨b, hreached, hpass⟩ := h.first j (Int.ofNat_lt.mp hover)
  exact hpass .budget ⟨j, hbudget, by omega⟩

/-- **A session that ended at its first reason did what it reports.** -/
theorem finished_of_ends (h : s.Ends ask askWall c n last finish) (hstart : s.steps = 0)
    (hfault : s.bench.machine.fault = none) (hsteps : s'.steps = n)
    (hbench : s'.bench = left ask last finish) :
    s.Finished ask askWall c s' (s'.report finish) last := by
  subst hsteps
  have hlast : last.machine.fault = none := by
    have hkept : (s.bench.stepTimes ask s'.steps).1.machine.fault = s.bench.machine.fault :=
      s.bench.stepTimes_fault s'.steps
    rw [h.reached] at hkept
    exact hkept.trans hfault
  have hleft : ∀ cause, finish = .fault cause →
      ∃ board, (board = last.machine.board ∨ board = last.machine.board.advanced) ∧
        s'.bench.machine =
          { last.machine with buzzer := last.machine.toned, board, fault := some cause } := by
    rintro cause rfl
    rw [hbench]
    exact Bench.recordFault_machine h.decides.1
  -- a fault aside the machine is the last one, and a fault changes none of what is reported
  have hmachine : s'.bench.machine.halted = last.machine.halted ∧
      s'.bench.machine.steps = last.machine.steps ∧
      s'.bench.machine.fault = finish.fault? := by
    rcases left_cases ask last finish with ⟨hnone, hsame⟩ | ⟨cause, rfl⟩
    · rw [hbench, hsame, hnone]
      exact ⟨rfl, rfl, hlast⟩
    · obtain ⟨board, _, hm⟩ := hleft cause rfl
      rw [hm]
      exact ⟨rfl, rfl, rfl⟩
  obtain ⟨hhalted, hcount, hkeeps⟩ := hmachine
  have hflags := s'.report_flags finish
  refine
    { reached := h.reached
      due := ⟨finish, h.decides.1⟩
      first := h.first
      quit := decide_eq_true_iff.trans h.decides.iff.symm
      timeout := decide_eq_true_iff.trans h.decides.iff.symm
      breakpoint := decide_eq_true_iff.trans h.decides.iff.symm
      budget := decide_eq_true_iff.trans h.decides.iff.symm
      fault := ?_
      one := ?_
      rest := ?_
      halted := ⟨rfl, hhalted⟩
      counted := hcount.trans h.machine_steps
      spared := fun j b hreached hbreak => h.spares hreached hbreak
      within := fun budget hbudget hsign => h.within hstart hbudget hsign
      keeps := hkeeps
      kept := ?_
      recorded := ?_ }
  · intro cause
    refine Iff.trans ?_ h.decides.iff.symm
    constructor
    · exact Finish.eq_of_fault?
    · rintro rfl
      rfl
  · rw [hflags]
    split <;> omega
  · refine Iff.trans ?_ h.decides.iff.symm
    rw [hflags]
    split <;> simp [*]
  · intro hnone
    rcases left_cases ask last finish with ⟨_, hsame⟩ | ⟨cause, rfl⟩
    · exact hbench.trans hsame
    · exact absurd hnone (by simp [report, Finish.fault?])
  · intro cause hcause
    exact hleft cause (Finish.eq_of_fault? hcause)

/-- A session with no reason to end before its first step takes it. -/
theorem Finished.steps_pos {r : SessionReport} (h : s.Finished ask askWall c s' r last)
    (hnone : ∀ finish, ¬ s.Due ask askWall c 0 s.bench finish) : 0 < r.steps := by
  rcases Nat.eq_zero_or_pos r.steps with hzero | hpos
  · obtain ⟨finish, hdue⟩ := h.due
    have hreached := h.reached
    rw [hzero] at hreached hdue
    obtain rfl : s.bench = last := congrArg Prod.fst hreached
    exact absurd hdue (hnone finish)
  · exact hpos

/-- A session that returned ended at its first reason. -/
theorem loop_finished {turns : Nat} (hstart : s.steps = 0) (hfault : s.bench.machine.fault = none)
    (h : loop ask askWall c turns s = (s', some finish)) :
    ∃ last, s.Finished ask askWall c s' (s'.report finish) last := by
  rcases loop_cases ask askWall c turns s with
    ⟨n, last, finish', s'', _, hends, hbench, hsteps, hloop⟩ | ⟨_, s'', hloop⟩
  · obtain ⟨rfl, hfinish⟩ := Prod.mk.inj (h.symm.trans hloop)
    obtain rfl := Option.some.inj hfinish
    rw [hstart, Nat.zero_add] at hsteps
    exact ⟨last, finished_of_ends hends hstart hfault hsteps hbench⟩
  · exact absurd (congrArg Prod.snd (h.symm.trans hloop)) (by simp)

/-- A session that comes to a reason before the patience is over returns. -/
theorem loop_returns {turns k : Nat} (hk : k < turns)
    (hreached : s.bench.stepTimes ask k = (b, none)) (hdue : s.Due ask askWall c k b finish) :
    ∃ s' finish', loop ask askWall c turns s = (s', some finish') := by
  rcases loop_cases ask askWall c turns s with
    ⟨_, _, finish', s', _, _, _, _, hloop⟩ | ⟨hpass, _⟩
  · exact ⟨s', finish', hloop⟩
  · exact absurd hdue ((hpass k hk).not_due hreached finish)

/-- A session with a budget returns. -/
theorem loop_returns_of_budget {turns : Nat} {budget : Int} (hbudget : c.budget = some budget)
    (hsign : 0 ≤ budget) (hturns : budget < turns) (s : Session σ ω) :
    ∃ s' finish, loop ask askWall c turns s = (s', some finish) := by
  rcases loop_cases ask askWall c turns s with
    ⟨_, _, finish, s', _, _, _, _, hloop⟩ | ⟨hpass, _⟩
  · exact ⟨s', finish, hloop⟩
  · obtain ⟨b, _, hnone⟩ := hpass (turns - 1) (by omega)
    refine absurd ?_ (hnone .budget)
    exact ⟨budget, hbudget, by omega⟩

/--
**A session ends after the least number of steps after which there is a reason, and reports the first
of the reasons there.**

It returns if there is one, as long as it is waited for, and with a budget it is enough to wait for
one turn more than the budget.
-/
theorem loop_first_reason (ask : Clock σ) (askWall : Clock ω) (c : StopConditions) (turns : Nat)
    (b : Bench σ) (wall : ω) (answers : List String) (hfault : b.machine.fault = none) :
    let s : Session σ ω := { bench := b, wall, answers }
    (∀ s' finish, loop ask askWall c turns s = (s', some finish) →
      ∃ last, s.Finished ask askWall c s' (s'.report finish) last) ∧
    (∀ k b' finish, k < turns → b.stepTimes ask k = (b', none) →
      s.Due ask askWall c k b' finish →
      ∃ s' finish', loop ask askWall c turns s = (s', some finish')) ∧
    (∀ budget, c.budget = some budget → 0 ≤ budget → budget < turns →
      ∃ s' finish, loop ask askWall c turns s = (s', some finish)) := by
  intro s
  refine ⟨?_, ?_, ?_⟩
  · intro s' finish hloop
    exact loop_finished rfl hfault hloop
  · intro k b' finish hk hreached hdue
    exact loop_returns hk hreached hdue
  · intro budget hbudget hsign hturns
    exact loop_returns_of_budget hbudget hsign hturns s

/-- A jump to a breakpoint uses up the budget, and the answer after it is one to quit. -/
theorem loop_first_reason_quit_at_breakpoint :
    let ask := clockOf fun _ => 0.5
    let m := (Machine.new (.ofSeed 7) 0.25).perform (.load [0x12, 0x02])
    let c : StopConditions := { budget := some 1, breakpoints := [0x202], stepping := true }
    let s : Session Nat Nat :=
      { bench := { machine := m, clock := 0 }, wall := 0, answers := ["\tQuit\n"] }
    ∃ s' finish, loop ask ask c 2 s = (s', some finish) ∧
      let r := s'.report finish
      r.steps = 1 ∧ r.quit = true ∧ r.breakpoint = false ∧ r.budget = false := by
  intro ask m c s
  obtain ⟨memory, hload, hwork, _⟩ :=
    Machine.loaded_atWork (.ofSeed 7) 0.25 [0x12, 0x02] (by decide)
  have hword : memory.fetch 0x200 = .ok 0x1202 :=
    Memory.fetch_word hload (k := 0) rfl rfl (by decide) rfl
  change m.AtWork memory 0x200 at hwork
  clear_value m
  have hdecode : Instruction.decode 0x1202 = .jump 0x202 := rfl
  have hstep : (s.bench.step ask).2 = none := (hwork.jump hword hdecode (ask 0).1).1
  have hanswer : QuitWord "\tQuit\n" :=
    ⟨['\t'], ['Q', 'u', 'i', 't'], ['\n'], by decide, by simp [Text.isBlank],
      by simp [Text.isBlank], by decide⟩
  have hquit : s.Decides ask ask c 1 (s.bench.step ask).1 .quit :=
    ⟨⟨rfl, Or.inr ⟨_, rfl, hanswer⟩⟩, fun _ _ => Nat.zero_le _⟩
  have hreached : s.bench.stepTimes ask 1 = ((s.bench.step ask).1, none) :=
    Bench.stepTimes_succ hstep 0
  obtain ⟨hfinished, _, hreturns⟩ :=
    loop_first_reason ask ask c 2 s.bench 0 s.answers hwork.fault
  obtain ⟨s', finish, hloop⟩ := hreturns 1 rfl (by decide) (by decide)
  refine ⟨s', finish, hloop, ?_⟩
  intro r
  obtain ⟨last, h⟩ := hfinished s' finish hloop
  change s.Finished ask ask c s' r last at h
  clear_value r
  have hone : r.steps = 1 := by
    have hle : (r.steps : Int) ≤ 1 := h.within 1 rfl (by decide)
    have hpos : 0 < r.steps := by
      refine h.steps_pos (not_due_at_start hwork.running ?_ rfl hstep)
      have haway : (0x200 : Int) ∉ c.breakpoints := by decide
      exact hwork.pc.symm ▸ haway
    omega
  have hlast : last = (s.bench.step ask).1 := by
    have hreached' := h.reached
    rw [hone, hreached] at hreached'
    exact (congrArg Prod.fst hreached').symm
  have honly : ∀ other, s.Decides ask ask c r.steps last other → .quit = other := by
    intro other hother
    rw [hone, hlast] at hother
    exact hquit.unique hother
  refine ⟨hone, ?_, ?_, ?_⟩
  · rw [h.quit, hone, hlast]
    exact hquit
  · exact Bool.eq_false_iff.mpr fun htrue => absurd (honly _ (h.breakpoint.mp htrue)) (by simp)
  · exact Bool.eq_false_iff.mpr fun htrue => absurd (honly _ (h.budget.mp htrue)) (by simp)

end Session

end ChipEight
