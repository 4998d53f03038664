import ChipEight.Dump

/-!
# Windows in normal form

Windows stand for the addresses that they show, and many lists of windows show the same ones. Of
these exactly one is normal: its windows are in order, and between two of them there is an address
that neither shows (`Normal.unique`). Joining brings windows into this form without changing what
they show, and everything else follows from that. The order of the windows cannot matter, nor how
often one is named, and a list that is normal already is left alone.

Joining goes through windows that are sorted by their first addresses only. So a window may end
inside the one before it, begin with it or touch it. What is known of the part still to come is that
it begins no earlier than the window that is being built, and the induction carries just that.
-/

namespace ChipEight

namespace MemoryWindow

/-- The window shows an address. -/
def Shows (w : MemoryWindow) (a : Int) : Prop := w.first ≤ a ∧ a ≤ w.last

instance (w : MemoryWindow) (a : Int) : Decidable (w.Shows a) :=
  inferInstanceAs (Decidable (_ ∧ _))

/-- One of the windows shows an address. -/
def Shown (windows : List MemoryWindow) (a : Int) : Prop := ∃ w ∈ windows, w.Shows a

instance (windows : List MemoryWindow) (a : Int) : Decidable (Shown windows a) :=
  inferInstanceAs (Decidable (∃ w ∈ windows, w.Shows a))

/-- The windows are as few as they can be, and in order. -/
structure Normal (windows : List MemoryWindow) : Prop where
  /-- Each window shows something. -/
  ordered : ∀ w ∈ windows, w.first ≤ w.last
  /-- Each begins past the address that follows an earlier one. -/
  apart : windows.Pairwise fun v w => v.last + 2 ≤ w.first

theorem not_shown_nil (a : Int) : ¬ Shown [] a := by
  rintro ⟨w, hw, _⟩
  exact absurd hw List.not_mem_nil

theorem shown_cons {w : MemoryWindow} {rest : List MemoryWindow} {a : Int} :
    Shown (w :: rest) a ↔ w.Shows a ∨ Shown rest a := by
  simp only [Shown, List.mem_cons, or_and_right, exists_or, exists_eq_left]

/-! ## A normal form is the only one -/

theorem Normal.tail {w : MemoryWindow} {rest : List MemoryWindow} (h : Normal (w :: rest)) :
    Normal rest where
  ordered := fun v hv => h.ordered v (List.mem_cons_of_mem w hv)
  apart := h.apart.of_cons

/-- What the windows after the first one show lies further on. -/
theorem Normal.shown_tail {w : MemoryWindow} {rest : List MemoryWindow} (h : Normal (w :: rest))
    {a : Int} : Shown rest a ↔ Shown (w :: rest) a ∧ w.last + 2 ≤ a := by
  constructor
  · rintro ⟨v, hv, ha⟩
    have hapart := List.rel_of_pairwise_cons h.apart hv
    have hlow := ha.1
    exact ⟨⟨v, List.mem_cons_of_mem w hv, ha⟩, by omega⟩
  · rintro ⟨hshown, hpast⟩
    rcases shown_cons.mp hshown with ha | ha
    · have hhigh := ha.2
      omega
    · exact ha

/-- Two normal lists that show the same begin with the same window: if one began earlier or ended
later, it would show an address that the other does not. -/
theorem Normal.head_le {w v : MemoryWindow} {ws vs : List MemoryWindow} (hw : Normal (w :: ws))
    (hv : Normal (v :: vs)) (h : ∀ a, Shown (w :: ws) a → Shown (v :: vs) a) :
    v.first ≤ w.first ∧ (v.first = w.first → w.last ≤ v.last) := by
  have hfilled := hw.ordered w List.mem_cons_self
  have hshows : ∀ a, w.first ≤ a → a ≤ w.last → v.Shows a ∨ v.last + 2 ≤ a := by
    intro a hlow hhigh
    have hshown := h a (shown_cons.mpr (Or.inl ⟨hlow, hhigh⟩))
    refine (shown_cons.mp hshown).imp_right fun hrest => ?_
    exact (hv.shown_tail.mp hrest).2
  have hfilled' := hv.ordered v List.mem_cons_self
  constructor
  · rcases hshows w.first (Int.le_refl _) hfilled with ⟨hlow, _⟩ | hpast
    · exact hlow
    · omega
  · intro hfirst
    refine Int.not_lt.mp fun hlonger => ?_
    -- the address right after v is shown by w, and by nothing on the other side
    rcases hshows (v.last + 1) (by omega) (by omega) with ⟨_, hhigh⟩ | hpast
    · omega
    · omega

/-- **There is one normal list for what is shown.** -/
theorem Normal.unique {ws vs : List MemoryWindow} (hw : Normal ws) (hv : Normal vs)
    (h : ∀ a, Shown ws a ↔ Shown vs a) : ws = vs := by
  induction ws generalizing vs with
  | nil =>
      cases vs with
      | nil => rfl
      | cons v vs =>
          have hfirst : Shown (v :: vs) v.first :=
            ⟨v, List.mem_cons_self, Int.le_refl _, hv.ordered v List.mem_cons_self⟩
          exact absurd ((h v.first).mpr hfirst) (not_shown_nil _)
  | cons w ws ih =>
      cases vs with
      | nil =>
          have hfirst : Shown (w :: ws) w.first :=
            ⟨w, List.mem_cons_self, Int.le_refl _, hw.ordered w List.mem_cons_self⟩
          exact absurd ((h w.first).mp hfirst) (not_shown_nil _)
      | cons v vs =>
          obtain ⟨hle, hlast⟩ := hw.head_le hv fun a => (h a).mp
          obtain ⟨hle', hlast'⟩ := hv.head_le hw fun a => (h a).mpr
          have hfirst : v.first = w.first := Int.le_antisymm hle hle'
          have hsame : w.last = v.last := Int.le_antisymm (hlast hfirst) (hlast' hfirst.symm)
          obtain rfl : w = v := by
            cases w
            cases v
            simp only at hfirst hsame
            rw [hfirst, hsame]
          rw [ih hw.tail hv.tail fun a => by rw [hw.shown_tail, hv.shown_tail, h a]]

/-- Addresses in a row that are all shown are shown by one window. -/
theorem Normal.window_of_shown {windows : List MemoryWindow} (h : Normal windows) {first last : Int}
    (hle : first ≤ last) (hshown : ∀ a, first ≤ a → a ≤ last → Shown windows a) :
    ∃ w ∈ windows, w.first ≤ first ∧ last ≤ w.last := by
  induction windows with
  | nil => exact absurd (hshown first (Int.le_refl _) hle) (not_shown_nil _)
  | cons w rest ih =>
      by_cases hpast : w.last + 2 ≤ first
      · -- the first window ended before, so nothing here is its doing
        obtain ⟨v, hv, hin⟩ := ih h.tail fun a hlow hhigh =>
          h.shown_tail.mpr ⟨hshown a hlow hhigh, by omega⟩
        exact ⟨v, List.mem_cons_of_mem w hv, hin⟩
      · have hhere : ∀ a, first ≤ a → a ≤ last → a ≤ w.last + 1 → w.Shows a := by
          intro a hlow hhigh hnear
          refine (shown_cons.mp (hshown a hlow hhigh)).resolve_right fun hrest => ?_
          have hlate := (h.shown_tail.mp hrest).2
          omega
        have hfirst := hhere first (Int.le_refl _) hle (by omega)
        refine ⟨w, List.mem_cons_self, hfirst.1, Int.not_lt.mp fun hlonger => ?_⟩
        have hnext := (hhere (w.last + 1) (by have := hfirst.2; omega) (by omega) (by omega)).2
        omega

/-! ## Joining sorted windows -/

/-- The windows are sorted by their first addresses. -/
def SortedByFirst (windows : List MemoryWindow) : Prop :=
  windows.Pairwise fun v w => v.first ≤ w.first

/-- A window that takes in the next one stays at the front. -/
theorem SortedByFirst.widen {w v : MemoryWindow} {rest : List MemoryWindow}
    (h : SortedByFirst (w :: v :: rest)) (last : Int) : SortedByFirst (⟨w.first, last⟩ :: rest) := by
  refine List.pairwise_cons.mpr ⟨fun u hu => ?_, h.of_cons.of_cons⟩
  exact List.rel_of_pairwise_cons h (List.mem_cons_of_mem v hu)

/-- Nothing that comes out of joining begins before the first window. -/
theorem join_first_le {w : MemoryWindow} {rest : List MemoryWindow}
    (h : SortedByFirst (w :: rest)) : ∀ u ∈ join w rest, w.first ≤ u.first := by
  induction rest generalizing w with
  | nil => simp [join]
  | cons v rest ih =>
      intro u hu
      rw [join] at hu
      split at hu
      · exact ih (h.widen (max w.last v.last)) u hu
      · rcases List.mem_cons.mp hu with rfl | hu
        · exact Int.le_refl _
        · have hnext := List.rel_of_pairwise_cons h List.mem_cons_self
          exact Int.le_trans hnext (ih h.of_cons u hu)

/-- **Joining neither loses an address nor adds one.** -/
theorem shown_join {w : MemoryWindow} {rest : List MemoryWindow} (h : SortedByFirst (w :: rest))
    (a : Int) : Shown (join w rest) a ↔ Shown (w :: rest) a := by
  induction rest generalizing w with
  | nil => rw [join]
  | cons v rest ih =>
      rw [join]
      split
      · rename_i htouch
        have hnext : w.first ≤ v.first := List.rel_of_pairwise_cons h List.mem_cons_self
        -- there is no gap between the two, so their union is one window
        have hunion : Shows ⟨w.first, max w.last v.last⟩ a ↔ w.Shows a ∨ v.Shows a := by
          simp only [Shows]
          omega
        rw [ih (h.widen _), shown_cons, hunion, shown_cons, shown_cons, or_assoc]
      · rw [shown_cons, ih h.of_cons, shown_cons (w := w)]

/-- **What comes out of joining is normal.** -/
theorem join_normal {w : MemoryWindow} {rest : List MemoryWindow} (h : SortedByFirst (w :: rest))
    (hordered : ∀ u ∈ w :: rest, u.first ≤ u.last) : Normal (join w rest) := by
  induction rest generalizing w with
  | nil => exact ⟨hordered, List.pairwise_singleton _ _⟩
  | cons v rest ih =>
      have hw := hordered w List.mem_cons_self
      have hrest : ∀ u ∈ v :: rest, u.first ≤ u.last := fun u hu =>
        hordered u (List.mem_cons_of_mem w hu)
      rw [join]
      split
      · refine ih (h.widen _) fun u hu => ?_
        rcases List.mem_cons.mp hu with rfl | hu
        · exact Int.le_trans hw (Int.le_max_left _ _)
        · exact hrest u (List.mem_cons_of_mem v hu)
      · rename_i hgap
        have hnormal := ih h.of_cons hrest
        refine ⟨fun u hu => ?_, List.pairwise_cons.mpr ⟨fun u hu => ?_, hnormal.apart⟩⟩
        · rcases List.mem_cons.mp hu with rfl | hu
          · exact hw
          · exact hnormal.ordered u hu
        · -- all that follows begins with the next window at the earliest
          have hlate := join_first_le h.of_cons u hu
          omega

/-! ## Coalescing -/

/-- Windows are sorted and then joined. -/
theorem coalesce_cases {windows : List MemoryWindow} (hsome : windows ≠ []) :
    ∃ w rest, coalesce windows = join w rest ∧ SortedByFirst (w :: rest) ∧
      ∀ u, u ∈ w :: rest ↔ u ∈ windows := by
  let le (v w : MemoryWindow) : Bool := v.first ≤ w.first
  have hsorted : (windows.mergeSort le).Pairwise fun v w => le v w = true := by
    refine List.pairwise_mergeSort (fun u v w => ?_) (fun v w => ?_) windows
    · simp only [le, decide_eq_true_eq]
      omega
    · simp only [le, Bool.or_eq_true, decide_eq_true_eq]
      omega
  have hmem : ∀ u, u ∈ windows.mergeSort le ↔ u ∈ windows := fun u => List.mem_mergeSort
  cases hsort : windows.mergeSort le with
  | nil =>
      refine absurd (List.eq_nil_iff_forall_not_mem.mpr fun u hu => ?_) hsome
      have hnone := (hmem u).mpr hu
      rw [hsort] at hnone
      exact absurd hnone List.not_mem_nil
  | cons w rest =>
      have hcoalesce : coalesce windows = join w rest := by
        have hfirst : (windows.mergeSort fun u v => u.first ≤ v.first) = w :: rest := hsort
        rw [coalesce, hfirst]
      rw [hsort] at hsorted hmem
      exact ⟨w, rest, hcoalesce, hsorted.imp of_decide_eq_true, hmem⟩

/-- With no window all of memory is shown. -/
theorem coalesce_nil : coalesce [] = [whole] := by
  rw [coalesce, List.mergeSort_nil]

/-- **Coalescing neither loses an address nor adds one.** -/
theorem shown_coalesce {windows : List MemoryWindow} (hsome : windows ≠ []) (a : Int) :
    Shown (coalesce windows) a ↔ Shown windows a := by
  obtain ⟨w, rest, hcoalesce, hsorted, hmem⟩ := coalesce_cases hsome
  rw [hcoalesce, shown_join hsorted]
  simp only [Shown, hmem]

theorem coalesce_normal {windows : List MemoryWindow}
    (hordered : ∀ w ∈ windows, w.first ≤ w.last) : Normal (coalesce windows) := by
  by_cases hsome : windows = []
  · rw [hsome, coalesce_nil]
    exact ⟨by simp [whole], List.pairwise_singleton _ _⟩
  · obtain ⟨w, rest, hcoalesce, hsorted, hmem⟩ := coalesce_cases hsome
    rw [hcoalesce]
    exact join_normal hsorted fun u hu => hordered u ((hmem u).mp hu)

/-- A normal list is what windows that show the same come to. -/
theorem coalesce_eq {windows normal : List MemoryWindow} (hsome : windows ≠ [])
    (hordered : ∀ w ∈ windows, w.first ≤ w.last) (hnormal : Normal normal)
    (hshown : ∀ a, Shown normal a ↔ Shown windows a) : coalesce windows = normal := by
  refine (coalesce_normal hordered).unique hnormal fun a => ?_
  rw [shown_coalesce hsome, hshown]

/-! ## The main statement -/

/--
**Coalescing gives the one normal list that shows what the windows show.**

Its windows are well formed, ascending and at least one address apart, and an address is in one of
them exactly if it was in one of the windows. A list of the same windows in another order or with
repetitions comes to the same, and coalescing once more changes nothing.
-/
theorem coalesce_normalises {windows : List MemoryWindow} (hsome : windows ≠ [])
    (hordered : ∀ w ∈ windows, w.first ≤ w.last) :
    Normal (coalesce windows) ∧
      (∀ a, Shown (coalesce windows) a ↔ Shown windows a) ∧
      (∀ other : List MemoryWindow, (∀ w, w ∈ other ↔ w ∈ windows) →
        coalesce other = coalesce windows) ∧
      coalesce (coalesce windows) = coalesce windows := by
  have hnormal := coalesce_normal hordered
  have hshown := shown_coalesce hsome
  refine ⟨hnormal, hshown, fun other hsame => ?_, ?_⟩
  · have hother : other ≠ [] := by
      obtain ⟨w, hw⟩ := List.exists_mem_of_ne_nil windows hsome
      exact List.ne_nil_of_mem ((hsame w).mpr hw)
    refine coalesce_eq hother (fun w hw => hordered w ((hsame w).mp hw)) hnormal fun a => ?_
    rw [hshown]
    simp only [Shown, hsame]
  · have hjoined : coalesce windows ≠ [] := by
      obtain ⟨w, hw⟩ := List.exists_mem_of_ne_nil windows hsome
      obtain ⟨v, hv, _⟩ := (hshown w.first).mpr ⟨w, hw, Int.le_refl _, hordered w hw⟩
      exact List.ne_nil_of_mem hv
    exact coalesce_eq hjoined hnormal.ordered hnormal fun _ => Iff.rfl

/-- One window inside another, one that begins where it does, one that touches it and one that is
named twice, below zero and in no order: two windows are left, and naming them twice over or in
another order makes no difference. -/
theorem coalesce_normalises_nested :
    let windows : List MemoryWindow := [⟨8, 9⟩, ⟨-3, 5⟩, ⟨0, 2⟩, ⟨6, 6⟩, ⟨-3, -1⟩, ⟨8, 9⟩]
    windows ≠ [] ∧ (∀ w ∈ windows, w.first ≤ w.last) ∧
      coalesce windows = [⟨-3, 6⟩, ⟨8, 9⟩] ∧
      coalesce [⟨-3, -1⟩, ⟨0, 2⟩, ⟨6, 6⟩, ⟨8, 9⟩, ⟨-3, 5⟩] = coalesce windows ∧
      coalesce (coalesce windows) = coalesce windows := by
  intro windows
  have hordered : ∀ w ∈ windows, w.first ≤ w.last := by decide
  obtain ⟨hnormal, hshown, hsame, hagain⟩ :=
    coalesce_normalises (show windows ≠ [] by decide) hordered
  refine ⟨by decide, hordered, ?_, hsame _ fun w => ?_, hagain⟩
  · have hexpected : Normal [⟨-3, 6⟩, ⟨8, 9⟩] := ⟨by decide, by decide⟩
    refine hnormal.unique hexpected fun a => (hshown a).trans ?_
    simp only [windows, shown_cons, not_shown_nil, or_false, Shows]
    omega
  · simp only [windows, List.mem_cons]
    grind

end MemoryWindow

end ChipEight
