import Mathlib.Data.List.Forall2

/-!
# Calculations that may fail

A chain of requests succeeds if each of them does, and a list of requests likewise. The statements
here open such a chain from its result, so that no proof has to follow the failures.
-/

namespace ChipEight

variable {ε ε' α β : Type}

theorem bind_eq_ok {x : Except ε α} {f : α → Except ε β} {b : β} :
    (x >>= f) = .ok b ↔ ∃ a, x = .ok a ∧ f a = .ok b := by
  cases x with
  | error why => simp [bind, Except.bind]
  | ok a => simp [bind, Except.bind]

theorem mapError_eq_ok {x : Except ε α} {f : ε → ε'} {a : α} :
    x.mapError f = .ok a ↔ x = .ok a := by
  cases x with
  | error why => simp [Except.mapError]
  | ok a' => simp [Except.mapError]

/-- A list is read if each of its members is. -/
theorem mapM_eq_ok {f : α → Except ε β} {as : List α} {bs : List β} :
    as.mapM f = .ok bs ↔ List.Forall₂ (fun a b => f a = .ok b) as bs := by
  induction as generalizing bs with
  | nil =>
      rw [List.mapM_nil, List.forall₂_nil_left_iff]
      exact ⟨fun h => (Except.ok.inj h).symm, fun h => h ▸ rfl⟩
  | cons a as ih =>
      rw [List.mapM_cons, bind_eq_ok, List.forall₂_cons_left_iff]
      constructor
      · rintro ⟨b, hb, hrest⟩
        obtain ⟨bs', hbs', hcons⟩ := bind_eq_ok.mp hrest
        exact ⟨b, bs', hb, ih.mp hbs', (Except.ok.inj hcons).symm⟩
      · rintro ⟨b, bs', hb, hbs', rfl⟩
        exact ⟨b, hb, bind_eq_ok.mpr ⟨bs', ih.mpr hbs', rfl⟩⟩

/-- A list is refused for the first of its members that is. -/
theorem mapM_eq_error {f : α → Except ε β} {as : List α} {why : ε} :
    as.mapM f = .error why ↔
      ∃ earlier a later, as = earlier ++ a :: later ∧ (∀ b ∈ earlier, ∃ c, f b = .ok c) ∧
        f a = .error why := by
  induction as with
  | nil =>
      rw [List.mapM_nil]
      refine iff_of_false (by simp [pure, Except.pure]) ?_
      rintro ⟨earlier, a, later, hsplit, _⟩
      exact absurd hsplit (by simp)
  | cons a as ih =>
      rw [List.mapM_cons]
      cases ha : f a with
      | error why' =>
          simp only [bind, Except.bind, Except.error.injEq]
          constructor
          · intro h
            exact ⟨[], a, as, rfl, by simp, h ▸ ha⟩
          · rintro ⟨earlier, b, later, hsplit, hearlier, hb⟩
            -- nothing succeeded before the first member, so it is the one that was refused
            rcases List.cons_eq_append_iff.mp hsplit with ⟨rfl, hrest⟩ | ⟨rest, rfl, _⟩
            · obtain rfl := (List.cons.inj hrest).1
              exact Except.error.inj (ha.symm.trans hb)
            · obtain ⟨c, hc⟩ := hearlier a List.mem_cons_self
              exact absurd (ha.symm.trans hc) (by simp)
      | ok b =>
          have hrest : ((Except.ok b : Except ε β) >>= fun b => do
              let bs ← as.mapM f
              pure (b :: bs)) = .error why ↔ as.mapM f = .error why := by
            cases as.mapM f <;> simp [bind, Except.bind, pure, Except.pure]
          rw [hrest, ih]
          constructor
          · rintro ⟨earlier, a', later, rfl, hearlier, hfault⟩
            refine ⟨a :: earlier, a', later, rfl, ?_, hfault⟩
            exact List.forall_mem_cons.mpr ⟨⟨b, ha⟩, hearlier⟩
          · rintro ⟨earlier, a', later, hsplit, hearlier, hfault⟩
            rcases List.cons_eq_append_iff.mp hsplit with ⟨rfl, hrest⟩ | ⟨rest, rfl, hrest⟩
            · obtain rfl := (List.cons.inj hrest).1
              exact absurd (ha.symm.trans hfault) (by simp)
            · exact ⟨rest, a', later, hrest, (List.forall_mem_cons.mp hearlier).2, hfault⟩

/-- A list is refused if any of its members is. -/
theorem mapM_refused {f : α → Except ε β} {as : List α} :
    (∃ why, as.mapM f = .error why) ↔ ∃ a ∈ as, ∃ why, f a = .error why := by
  constructor
  · intro h
    obtain ⟨why, hwhy⟩ := h
    obtain ⟨earlier, a, later, rfl, _, ha⟩ := mapM_eq_error.mp hwhy
    exact ⟨a, by simp, why, ha⟩
  · intro h
    cases hread : as.mapM f with
    | error why => exact ⟨why, rfl⟩
    | ok bs =>
        obtain ⟨a, hmem, why, ha⟩ := h
        obtain ⟨i, hi, rfl⟩ := List.getElem_of_mem hmem
        have hall := mapM_eq_ok.mp hread
        have hok := hall.get hi (hall.length_eq ▸ hi)
        exact absurd (ha.symm.trans hok) (by simp)

/-- Requests of which none fails give what each of them gives. -/
theorem mapM_of_ok {f : α → Except ε β} {g : α → β} {as : List α} (h : ∀ a ∈ as, f a = .ok (g a)) :
    as.mapM f = .ok (as.map g) := by
  rw [mapM_eq_ok, List.forall₂_map_right_iff, List.forall₂_same]
  exact h

/-- A list that was written member by member is read back if each member is. -/
theorem mapM_map_eq_some {write : α → β} {read : β → Option α} (h : ∀ a, read (write a) = some a)
    (as : List α) : (as.map write).mapM read = some as := by
  rw [List.mapM_map]
  simp only [Function.comp_def, h]
  exact List.mapM_pure.trans (congrArg some (List.map_id' as))

end ChipEight
