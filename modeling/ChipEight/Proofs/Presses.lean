import ChipEight.Proofs.Operation

/-!
# The queue of presses holds the newest of a log

Read by its keys alone, a keypad that changes from one state to the next has some keys that were up
and are now down. These are the presses that count. The log of a history lists them in order, and
it never looks at the queue. This module says that the queue keeps up with it: what a player does
puts the presses that count behind those that wait, and the newest sixteen of them stay.
-/

namespace ChipEight

/-- The presses that a queue has room for: the newest ones. -/
def newest (log : List Key) : List Key := log.drop (log.length - pressLimit)

theorem newest_length (log : List Key) : (newest log).length = min log.length pressLimit := by
  rw [newest, List.length_drop]
  omega

/-- Nothing is forgotten while there is room. -/
theorem newest_of_le {log : List Key} (h : log.length ≤ pressLimit) : newest log = log := by
  rw [newest, Nat.sub_eq_zero_of_le h, List.drop_zero]

theorem newest_eq_nil {log : List Key} : newest log = [] ↔ log = [] := by
  rw [← List.length_eq_zero_iff, ← List.length_eq_zero_iff, newest_length]
  simp only [pressLimit]
  omega

/-- **What was forgotten does not matter later.** -/
theorem newest_append (log later : List Key) :
    newest (newest log ++ later) = newest (log ++ later) := by
  have hlength := newest_length log
  unfold newest at hlength ⊢
  rw [← List.drop_append_of_le_length (by omega), List.drop_drop]
  congr 1
  simp only [List.length_append, List.length_drop]
  omega

namespace Keypad

/-! ## The presses that count -/

/-- The keys that are up in one state and down in the next, by their numbers. -/
def struck (before after : Keypad) : List Key :=
  keys.filter fun key => !before.isDown key && after.isDown key

theorem struck_self (k : Keypad) : k.struck k = [] := by
  refine List.filter_eq_nil_iff.mpr fun key _ => ?_
  cases k.isDown key <;> simp

/-- The presses that count read the keys and not the queue. -/
theorem struck_congr {before after before' after' : Keypad} (hbefore : before.down = before'.down)
    (hafter : after.down = after'.down) : before.struck after = before'.struck after' := by
  simp only [struck, isDown, hbefore, hafter]

theorem mem_keys (key : Key) : key ∈ keys := List.mem_finRange key

theorem isDown_press (k : Keypad) (key other : Key) :
    (k.press key).isDown other = if key = other then true else k.isDown other := by
  simp only [press, isDown, Fin.getElem_fin, Vector.getElem_set, Fin.ext_iff]

theorem isDown_release (k : Keypad) (key other : Key) :
    (k.release key).isDown other = if key = other then false else k.isDown other := by
  simp only [release, isDown, Fin.getElem_fin, Vector.getElem_set, Fin.ext_iff]

theorem enqueue_eq (presses : List Key) (key : Key) :
    enqueue presses key = newest (presses ++ [key]) := by
  rw [enqueue, newest, List.length_append, List.length_singleton]

/-! ## What a player does -/

/-- One key as a list of held keys wants it. -/
def put (held : List Int) (k : Keypad) (key : Key) : Keypad :=
  if held.contains (key.val : Int) then k.press key else k.release key

theorem isDown_put (held : List Int) (k : Keypad) (key other : Key) :
    (k.put held key).isDown other =
      if key = other then held.contains (other.val : Int) else k.isDown other := by
  unfold put
  cases hheld : held.contains (key.val : Int) with
  | true =>
      rw [if_pos rfl, isDown_press]
      split
      · rename_i hsame; rw [← hsame, hheld]
      · rfl
  | false =>
      rw [if_neg Bool.false_ne_true, isDown_release]
      split
      · rename_i hsame; rw [← hsame, hheld]
      · rfl

theorem press_presses {k : Keypad} (hroom : k.presses.length ≤ pressLimit) (key : Key) :
    (k.press key).presses = newest (k.presses ++ if k.isDown key then [] else [key]) := by
  simp only [press]
  split
  · rw [List.append_nil, newest_of_le hroom]
  · exact enqueue_eq _ _

theorem put_presses {k : Keypad} (hroom : k.presses.length ≤ pressLimit) (held : List Int)
    (key : Key) : (k.put held key).presses =
      newest (k.presses ++ [key].filter fun key => !k.isDown key && held.contains (key.val : Int)) := by
  unfold put
  rw [List.filter_cons, List.filter_nil]
  cases held.contains (key.val : Int) with
  | true =>
      rw [if_pos rfl, press_presses hroom]
      cases k.isDown key <;> rfl
  | false =>
      rw [if_neg Bool.false_ne_true, Bool.and_false, if_neg Bool.false_ne_true, List.append_nil]
      exact (newest_of_le hroom).symm

/-- Of the keys that are gone through, those that are listed are down afterwards. -/
theorem isDown_puts (held : List Int) (order : List Key) (k : Keypad) (key : Key) :
    (order.foldl (put held) k).isDown key =
      if order.contains key then held.contains (key.val : Int) else k.isDown key := by
  induction order generalizing k with
  | nil => rfl
  | cons first rest ih =>
      rw [List.foldl_cons, ih, isDown_put, List.contains_cons]
      by_cases hkey : first = key
      · subst hkey
        simp
      · simp [hkey, Ne.symm hkey]

/-- Of the keys that are gone through, those that go down are queued. -/
theorem puts_presses (held : List Int) {order : List Key} (hnodup : order.Nodup) {k : Keypad}
    (hroom : k.presses.length ≤ pressLimit) :
    (order.foldl (put held) k).presses = newest (k.presses ++
      order.filter fun key => !k.isDown key && held.contains (key.val : Int)) := by
  induction order generalizing k with
  | nil =>
      rw [List.filter_nil, List.append_nil, newest_of_le hroom]
      rfl
  | cons first rest ih =>
      obtain ⟨hfirst, hrest⟩ := List.nodup_cons.mp hnodup
      have hput := put_presses hroom held first
      have hroom' : (k.put held first).presses.length ≤ pressLimit := by
        rw [hput, newest_length]
        exact Nat.min_le_right _ _
      -- the keys still to come are as they were
      have hlater : rest.filter (fun key =>
            !(k.put held first).isDown key && held.contains (key.val : Int)) =
          rest.filter fun key => !k.isDown key && held.contains (key.val : Int) := by
        refine List.filter_congr fun key hkey => ?_
        have hne : first ≠ key := fun h => hfirst (h ▸ hkey)
        rw [isDown_put, if_neg hne]
      rw [List.foldl_cons, ih hrest hroom', hlater, hput, newest_append, List.append_assoc,
        ← List.filter_append, List.singleton_append]

/-- Afterwards exactly the listed keys are down. -/
theorem isDown_setKeys (k : Keypad) (held : List Int) (key : Key) :
    (k.setKeys held).isDown key = held.contains (key.val : Int) :=
  (isDown_puts held keys k key).trans (if_pos (List.contains_iff_mem.mpr (mem_keys key)))

/-- The listed keys that were up are struck. -/
theorem struck_setKeys (k : Keypad) (held : List Int) : k.struck (k.setKeys held) =
    keys.filter fun key => !k.isDown key && held.contains (key.val : Int) := by
  simp only [struck, isDown_setKeys]

theorem keys_nodup : keys.Nodup := by decide

theorem setKeys_presses {k : Keypad} (hroom : k.presses.length ≤ pressLimit) (held : List Int) :
    (k.setKeys held).presses = newest (k.presses ++ k.struck (k.setKeys held)) := by
  rw [struck_setKeys]
  exact puts_presses held keys_nodup hroom

theorem struck_press (k : Keypad) (key : Key) :
    k.struck (k.press key) = if k.isDown key then [] else [key] := by
  have hone : ∀ key : Key, keys.filter (fun other => decide (key = other)) = [key] := by decide
  have hnew : ∀ other, (!k.isDown other && (k.press key).isDown other) =
      (decide (key = other) && !k.isDown key) := by
    intro other
    rw [isDown_press]
    by_cases hkey : key = other
    · subst hkey; simp
    · simp [hkey]
  simp only [struck, hnew]
  cases k.isDown key with
  | true => simp
  | false => simpa using hone key

theorem struck_release (k : Keypad) (key : Key) : k.struck (k.release key) = [] := by
  refine List.filter_eq_nil_iff.mpr fun other _ => ?_
  rw [isDown_release]
  split
  · simp
  · cases k.isDown other <;> simp

/-- The keys that exist are those with the numbers of keys. -/
theorem handle_key (k : Keypad) (key : Key) : k.handle (.press key.val) = k.press key := by
  rw [handle, Key.ofInt_val]

/-- **What a player does puts the presses that count behind those that wait**, and the newest
sixteen stay. -/
theorem handle_presses {k : Keypad} (hroom : k.presses.length ≤ pressLimit) (event : KeyEvent) :
    (k.handle event).presses = newest (k.presses ++ k.struck (k.handle event)) := by
  cases event with
  | press key =>
      simp only [handle]
      split
      · rw [struck_press, press_presses hroom]
      · rw [struck_self, List.append_nil, newest_of_le hroom]
  | release key =>
      simp only [handle]
      split
      · rw [struck_release, List.append_nil, newest_of_le hroom]; rfl
      · rw [struck_self, List.append_nil, newest_of_le hroom]
  | setKeys held => exact setKeys_presses hroom held

theorem handle_queue {k : Keypad} (hroom : k.presses.length ≤ pressLimit) (event : KeyEvent) :
    (k.handle event).presses.length ≤ pressLimit := by
  rw [handle_presses hroom, newest_length]
  exact Nat.min_le_right _ _

end Keypad

end ChipEight
