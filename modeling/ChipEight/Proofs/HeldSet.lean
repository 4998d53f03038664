import ChipEight.Proofs.Presses

/-!
# A list of held keys replaces the one before

To hold a list of keys is to go through all sixteen and press or release each. Nothing that happens
to one key on the way concerns another, so the result can be told all at once: the keys that are down
are those on the list, and the queue has got those of them that were up, by their numbers. What was
down before and how the list is written do not matter otherwise: a number that occurs twice counts
once, and one that no key has does not count.

The keys are gone through by their numbers, and each of these is checked again when the key is
pressed or released. `trySetKeys` is written with the checks, to say that none of them ever fails.
-/

namespace ChipEight

namespace Keypad

/-! ## Keys by their numbers -/

/-- The key with a number goes down, if there is one. -/
def tryPress (k : Keypad) (number : Int) : Except Misuse Keypad := (Key.ofInt number).map k.press

/-- The key with a number goes up, if there is one. -/
def tryRelease (k : Keypad) (number : Int) : Except Misuse Keypad :=
  (Key.ofInt number).map k.release

/-- Puts exactly the listed keys down, each by its number. -/
def trySetKeys (k : Keypad) (held : List Int) : Except Misuse Keypad :=
  (List.range 16).foldlM
    (fun k (number : Nat) =>
      if held.contains (number : Int) then k.tryPress number else k.tryRelease number) k

/-- The check of a key's own number succeeds. -/
theorem try_put (held : List Int) (k : Keypad) (key : Key) :
    (if held.contains ((key.val : Nat) : Int) then k.tryPress (key.val : Nat)
      else k.tryRelease (key.val : Nat)) = .ok (k.put held key) := by
  unfold put tryPress tryRelease
  rw [Key.ofInt_val]
  split <;> rfl

theorem map_val_keys : keys.map Fin.val = List.range 16 := by decide

/-- **No number on the way is turned down.** -/
theorem trySetKeys_eq (k : Keypad) (held : List Int) :
    k.trySetKeys held = .ok (k.setKeys held) := by
  rw [trySetKeys, ← map_val_keys, List.foldlM_map]
  simp only [try_put]
  exact List.foldlM_pure

/-! ## The keys that are down -/

theorem keys_ascending : keys.Pairwise (· < ·) := List.pairwise_lt_finRange 16

theorem mem_pressedKeys {k : Keypad} {key : Key} :
    key ∈ k.pressedKeys ↔ k.isDown key = true := by
  rw [pressedKeys, List.mem_filter]
  exact and_iff_right (mem_keys key)

/-- A keypad is known by its keys and its queue. -/
theorem eq_of_isDown {k k' : Keypad} (hdown : ∀ key, k.isDown key = k'.isDown key)
    (hpresses : k.presses = k'.presses) : k = k' := by
  obtain ⟨down, presses⟩ := k
  obtain ⟨down', presses'⟩ := k'
  obtain rfl : down = down' := Vector.ext fun i hi => hdown ⟨i, hi⟩
  obtain rfl : presses = presses' := hpresses
  rfl

/-! ## The keys that go down -/

theorem struck_ascending (before after : Keypad) : (before.struck after).Pairwise (· < ·) :=
  keys_ascending.filter _

theorem mem_struck_setKeys {k : Keypad} {held : List Int} {key : Key} :
    key ∈ k.struck (k.setKeys held) ↔ (key.val : Int) ∈ held ∧ k.isDown key = false := by
  rw [struck_setKeys, List.mem_filter, Bool.and_eq_true, Bool.not_eq_true', List.contains_iff_mem,
    and_comm (a := k.isDown key = false)]
  exact and_iff_right (mem_keys key)

/-- Whoever is held already is not struck. -/
theorem struck_again {k : Keypad} {held again : List Int}
    (h : ∀ key : Key, (key.val : Int) ∈ again ↔ (key.val : Int) ∈ held) :
    (k.setKeys held).struck ((k.setKeys held).setKeys again) = [] := by
  refine List.eq_nil_iff_forall_not_mem.mpr fun key hkey => ?_
  obtain ⟨hlisted, hup⟩ := mem_struck_setKeys.mp hkey
  rw [isDown_setKeys, ← Bool.not_eq_true, List.contains_iff_mem] at hup
  exact hup ((h key).mp hlisted)

/-- **To hold the same keys once more changes nothing.** -/
theorem setKeys_again {k : Keypad} (hroom : k.presses.length ≤ pressLimit) {held again : List Int}
    (h : ∀ key : Key, (key.val : Int) ∈ again ↔ (key.val : Int) ∈ held) :
    (k.setKeys held).setKeys again = k.setKeys held := by
  have hroom' : (k.setKeys held).presses.length ≤ pressLimit := handle_queue hroom (.setKeys held)
  refine eq_of_isDown (fun key => ?_) ?_
  · rw [isDown_setKeys, isDown_setKeys, Bool.eq_iff_iff, List.contains_iff_mem,
      List.contains_iff_mem, h]
  · rw [setKeys_presses hroom', struck_again h, List.append_nil, newest_of_le hroom']

/-! ## The main statement -/

/--
**The listed keys take the place of those that were held.**

The queue has room for sixteen presses, and no event leaves more in it. The call never fails.
Afterwards the keys that are down are those on the list, each once and by their numbers; those of them
that were up are queued in this order behind the presses that wait, and the newest sixteen of all
stay. To hold the same keys again, however they are listed, changes nothing.
-/
theorem setKeys_replaces {k : Keypad} (hroom : k.presses.length ≤ 16) (held : List Int) :
    k.trySetKeys held = .ok (k.setKeys held) ∧
    (k.setKeys held).pressedKeys.Pairwise (· < ·) ∧
    (∀ key : Key, key ∈ (k.setKeys held).pressedKeys ↔ (key.val : Int) ∈ held) ∧
    (∃ struck : List Key, struck.Pairwise (· < ·) ∧
      (∀ key : Key, key ∈ struck ↔ (key.val : Int) ∈ held ∧ k.isDown key = false) ∧
      (k.setKeys held).presses =
        (k.presses ++ struck).drop ((k.presses ++ struck).length - 16)) ∧
    ∀ again : List Int, (∀ key : Key, (key.val : Int) ∈ again ↔ (key.val : Int) ∈ held) →
      (k.setKeys held).setKeys again = k.setKeys held := by
  refine ⟨trySetKeys_eq k held, keys_ascending.filter _, ?_, ?_, ?_⟩
  · intro key
    rw [mem_pressedKeys, isDown_setKeys, List.contains_iff_mem]
  · exact ⟨k.struck (k.setKeys held), struck_ascending _ _, fun _ => mem_struck_setKeys,
      setKeys_presses hroom held⟩
  · intro again hsame
    exact setKeys_again hroom hsame

/-- Key 3 is held and fifteen presses wait. A list with 3, with 9 and 1 twice and with numbers that
no key has queues 1 and 9, which pushes the oldest press out. -/
theorem setKeys_replaces_full_queue :
    let k : Keypad := ({} : Keypad).press 3
    let k : Keypad := { k with presses := 0 :: List.replicate 14 3 }
    let held : List Int := [9, 16, 3, -1, 9, 1, 1]
    k.presses.length ≤ 16 ∧ k.trySetKeys held = .ok (k.setKeys held) ∧
      (k.setKeys held).pressedKeys = [1, 3, 9] ∧
      (k.setKeys held).presses = List.replicate 14 3 ++ [1, 9] ∧
      (k.setKeys held).setKeys [3, 1, 9, 20] = k.setKeys held := by
  intro k' k held
  have hroom : k.presses.length ≤ 16 := by decide
  obtain ⟨hdone, _, _, _, hagain⟩ := setKeys_replaces hroom held
  exact ⟨hroom, hdone, by decide, by decide, hagain [3, 1, 9, 20] (by decide)⟩

end Keypad

end ChipEight
