import ChipEight.Proofs.Success
import ChipEight.Proofs.TypedValues

/-!
# Which texts are lists of keys

A list of keys is typed with commas between its items. Blanks around an item do not matter, an item
that is all blanks is left out, and every other one must be a numeral for a key. The reader splits,
trims, leaves out and reads in this order, but what it comes to can be told of the items as they
stand in the text: the keys are what the items that are not blank denote, in their order and as often
as they are named, and a text is refused for the first of them that denotes no key.

Trimming is what makes the two agree. It takes blanks only, so it leaves nothing exactly of an item
that is blank, and a numeral may have blanks around it anyway.
-/

namespace ChipEight

open Text

/-- The items, with a comma between any two of them, make up the text, and none of them holds a comma
itself. -/
structure ListsItems (text : List Char) (items : List (List Char)) : Prop where
  joined : [','].intercalate items = text
  some : items ≠ []
  apart : ∀ item ∈ items, ',' ∉ item

/-- The item is not blank. -/
def isFilled (item : List Char) : Bool := item.any fun c => !isBlank c

/-- The items of a text that are not blank. -/
def filledItems (text : List Char) : List (List Char) := (splitChars ',' text).filter isFilled

/-- The item is a numeral for the key. -/
def KeyDenotes (item : List Char) (key : Key) : Prop := NumeralDenotes item (key.val : Nat)

/-- Why an item is refused as a key. -/
inductive KeyRefused (item : List Char) : ValueRefusal → Prop
  | noNumeral (h : ∀ value, ¬ NumeralDenotes item value) :
      KeyRefused item (.notHexNumeral (trim (String.ofList item)))
  | outside {value : Int} (h : NumeralDenotes item value) (hout : value < 0 ∨ 15 < value) :
      KeyRefused item (.notKey (trim (String.ofList item)))

/-- The items are those of a list of keys, each written as any rendering of its number, with blank
items in between. -/
inductive KeysSpelled : List (List Char) → List Key → Prop
  | nil : KeysSpelled [] []
  | blank {item : List Char} {items : List (List Char)} {keys : List Key}
      (hitem : ∀ c ∈ item, isBlank c = true) (hrest : KeysSpelled items keys) :
      KeysSpelled (item :: items) keys
  | key {item : List Char} {items : List (List Char)} {key : Key} {keys : List Key}
      (hitem : Renders item key.val) (hrest : KeysSpelled items keys) :
      KeysSpelled (item :: items) (key :: keys)

/-! ## Items -/

theorem listsItems (text : List Char) : ListsItems text (splitChars ',' text) := by
  obtain ⟨hlength, hjoined, hapart⟩ := splitChars_spec ',' text
  refine ⟨hjoined, List.ne_nil_of_length_pos ?_, hapart⟩
  omega

/-- A text has the items that it is made of, and no others. -/
theorem ListsItems.splitChars_eq {text : List Char} {items : List (List Char)}
    (h : ListsItems text items) : splitChars ',' text = items := by
  rw [← h.joined]
  exact splitChars_intercalate h.some h.apart

theorem isFilled_eq_false {item : List Char} :
    isFilled item = false ↔ ∀ c ∈ item, isBlank c = true := by
  simp [isFilled]

theorem trim_eq_empty (item : List Char) :
    trim (String.ofList item) = "" ↔ ∀ c ∈ item, isBlank c = true := by
  rw [trim, String.toList_ofList, ← String.toList_inj, String.toList_ofList, String.toList_empty]
  constructor
  · intro hnone
    obtain ⟨before, after, hparts, hbefore, hafter⟩ := trimChars_parts isBlank item
    rw [hnone] at hparts
    rw [hparts]
    simp only [List.forall_mem_append]
    exact ⟨⟨hbefore, by simp⟩, hafter⟩
  · intro hall
    have htrimmed : trimChars isBlank (item ++ [] ++ []) = [] :=
      trimChars_between hall (by simp) (by simp)
    rwa [List.append_nil, List.append_nil] at htrimmed

/-- **The reader reads the items that are not blank.** -/
theorem readKeys_eq (text : String) :
    readKeys text =
      (filledItems text.toList).mapM fun item => readKey (trim (String.ofList item)) := by
  have hkept : ∀ item : List Char, decide (trim (String.ofList item) ≠ "") = isFilled item := by
    intro item
    rw [Bool.eq_iff_iff, decide_eq_true_iff, ne_eq, trim_eq_empty, ← isFilled_eq_false,
      Bool.not_eq_false]
  rw [readKeys, splitAt, List.map_map, List.filter_map, List.mapM_map, filledItems]
  simp only [Function.comp_def, hkept]

/-! ## One item -/

theorem readKey_of_denotes {item : List Char} {key : Key} (h : KeyDenotes item key) :
    readKey (trim (String.ofList item)) = .ok key := by
  unfold readKey
  rw [hexNumeral?_ofList.mpr h]
  simp only [Key.ofInt_val]

theorem readKey_of_refused {item : List Char} {refusal : ValueRefusal}
    (h : KeyRefused item refusal) : readKey (trim (String.ofList item)) = .error refusal := by
  unfold readKey
  cases h with
  | noNumeral hnone => rw [hexNumeral?_ofList_none.mpr hnone]
  | @outside value hnumeral hout =>
      have hnone : Key.ofInt value = .error .keyOutOfRange := dif_neg (by omega)
      rw [hexNumeral?_ofList.mpr hnumeral]
      simp only [hnone]

/-- Every item is a key or is refused as one. -/
theorem key_total (item : List Char) :
    (∃ key, KeyDenotes item key) ∨ ∃ refusal, KeyRefused item refusal := by
  by_cases hsome : ∃ value, NumeralDenotes item value
  · obtain ⟨value, hvalue⟩ := hsome
    by_cases hin : 0 ≤ value ∧ value ≤ 15
    · obtain ⟨n, rfl⟩ := Int.eq_ofNat_of_zero_le hin.1
      exact Or.inl ⟨⟨n, by omega⟩, hvalue⟩
    · exact Or.inr ⟨_, .outside hvalue (by omega)⟩
  · exact Or.inr ⟨_, .noNumeral (not_exists.mp hsome)⟩

theorem keyRefused_iff {item : List Char} :
    (∃ refusal, KeyRefused item refusal) ↔
      (∀ value, ¬ NumeralDenotes item value) ∨
        ∃ value, NumeralDenotes item value ∧ ¬ (0 ≤ value ∧ value ≤ 15) := by
  constructor
  · intro h
    obtain ⟨refusal, hrefused⟩ := h
    cases hrefused with
    | noNumeral hnone => exact Or.inl hnone
    | outside hnumeral hout => exact Or.inr ⟨_, hnumeral, by omega⟩
  · intro h
    rcases h with hnone | ⟨value, hnumeral, hout⟩
    · exact ⟨_, .noNumeral hnone⟩
    · exact ⟨_, .outside hnumeral (by omega)⟩

/-- What an item comes to. -/
theorem readKey_iff (item : List Char) :
    (∀ key, readKey (trim (String.ofList item)) = .ok key ↔ KeyDenotes item key) ∧
    ∀ refusal, readKey (trim (String.ofList item)) = .error refusal ↔ KeyRefused item refusal :=
  outcome_iff (fun _ => readKey_of_denotes) (fun _ => readKey_of_refused) (key_total item)

/-! ## Lists -/

/-- The items of a spelled list hold no comma, and those that are not blank denote its keys. -/
theorem KeysSpelled.items {items : List (List Char)} {keys : List Key} (h : KeysSpelled items keys) :
    (∀ item ∈ items, ',' ∉ item) ∧
      List.Forall₂ KeyDenotes (items.filter isFilled) keys := by
  induction h with
  | nil => exact ⟨by simp, .nil⟩
  | blank hitem _ ih =>
      obtain ⟨hapart, hkeys⟩ := ih
      have hcomma : isBlank ',' = false := rfl
      refine ⟨List.forall_mem_cons.mpr ⟨fun hmem => ?_, hapart⟩, ?_⟩
      · rw [hitem ',' hmem] at hcomma
        exact absurd hcomma (by simp)
      · rw [List.filter_cons_of_neg (by rw [isFilled_eq_false.mpr hitem]; simp)]
        exact hkeys
  | @key item _ key _ hitem _ ih =>
      obtain ⟨hapart, hkeys⟩ := ih
      have hdenotes : NumeralDenotes item (key.val : Nat) := hitem.denotes
      have hfilled : isFilled item = true := by
        obtain ⟨c, hc, hblank⟩ := hdenotes.filled
        exact List.any_eq_true.mpr ⟨c, hc, by rw [hblank]; rfl⟩
      refine ⟨List.forall_mem_cons.mpr ⟨hdenotes.not_mem rfl rfl rfl (by decide), hapart⟩, ?_⟩
      rw [List.filter_cons_of_pos hfilled]
      exact .cons hdenotes hkeys

/-- A spelled list is read as the keys that it was made for. -/
theorem readKeys_of_spelled {text : String} {items : List (List Char)} {keys : List Key}
    (h : KeysSpelled items keys) (htext : [','].intercalate items = text.toList) :
    List.Forall₂ KeyDenotes (filledItems text.toList) keys := by
  obtain ⟨hapart, hkeys⟩ := h.items
  by_cases hsome : items = []
  · -- the empty text has one item, and that is blank
    subst hsome
    rw [← htext]
    cases hkeys
    exact .nil
  · have hitems : ListsItems text.toList items := ⟨htext, hsome, hapart⟩
    rw [filledItems, hitems.splitChars_eq]
    exact hkeys

/-! ## The main statement -/

/--
**A text is read as the keys that its items denote, or refused for the first item that denotes none.**

Blank items do not count. Every other one must be a numeral for a number from 0 to 15, and if each is,
the keys are what they denote, in order and with repetitions. In particular a list of keys may be
written in digits of either case, with blanks and empty items put in anywhere, and is read as that
list.
-/
theorem readKeys_exact (text : String) :
    ListsItems text.toList (splitChars ',' text.toList) ∧
    (∀ keys, readKeys text = .ok keys ↔ List.Forall₂ KeyDenotes (filledItems text.toList) keys) ∧
    (∀ refusal, readKeys text = .error refusal ↔
      ∃ earlier item later, filledItems text.toList = earlier ++ item :: later ∧
        (∀ other ∈ earlier, ∃ key, KeyDenotes other key) ∧ KeyRefused item refusal) ∧
    ((∃ refusal, readKeys text = .error refusal) ↔
      ∃ item ∈ filledItems text.toList, (∀ value, ¬ NumeralDenotes item value) ∨
        ∃ value, NumeralDenotes item value ∧ ¬ (0 ≤ value ∧ value ≤ 15)) ∧
    ∀ (items : List (List Char)) (keys : List Key), KeysSpelled items keys →
      [','].intercalate items = text.toList → readKeys text = .ok keys := by
  have hok : ∀ keys, readKeys text = .ok keys ↔
      List.Forall₂ KeyDenotes (filledItems text.toList) keys := by
    intro keys
    rw [readKeys_eq, mapM_eq_ok]
    simp only [(readKey_iff _).1]
  have herror : ∀ refusal, readKeys text = .error refusal ↔
      ∃ earlier item later, filledItems text.toList = earlier ++ item :: later ∧
        (∀ other ∈ earlier, ∃ key, KeyDenotes other key) ∧ KeyRefused item refusal := by
    intro refusal
    rw [readKeys_eq, mapM_eq_error]
    simp only [(readKey_iff _).1, (readKey_iff _).2]
  refine ⟨listsItems _, hok, herror, ?_, ?_⟩
  · rw [readKeys_eq, mapM_refused]
    simp only [(readKey_iff _).2, keyRefused_iff]
  · intro items keys hspelled htext
    exact (hok keys).mpr (readKeys_of_spelled hspelled htext)

/-- Blanks, an empty item, one that is blank, either case and a key named twice. -/
theorem readKeys_exact_spelled : readKeys "a, ,0A\t,,3," = .ok [10, 10, 3] := by
  obtain ⟨_, _, _, _, hspelled⟩ := readKeys_exact "a, ,0A\t,,3,"
  have hblank : ∀ c ∈ [' '], isBlank c = true := by simp [isBlank]
  have hten : Renders ['a'] 10 := by
    refine ⟨[], [], ['a'], [], 1, rfl, by simp, by simp, by simp, ?_⟩
    rw [hex_toList]
    simp [hexDigits, hexDigit]
  have htab : Renders ['0', 'A', '\t'] 10 := by
    refine ⟨[], [], ['0', 'A'], ['\t'], 2, rfl, by simp, by simp [isBlank], by simp, ?_⟩
    rw [hex_toList]
    simp [hexDigits, hexDigit]
  have hthree : Renders ['3'] 3 := by
    refine ⟨[], [], ['3'], [], 1, rfl, by simp, by simp, by simp, ?_⟩
    rw [hex_toList]
    simp [hexDigits, hexDigit]
  exact hspelled [['a'], [' '], ['0', 'A', '\t'], [], ['3'], []] [10, 10, 3]
    (.key hten (.blank hblank (.key htab (.blank (by simp) (.key hthree (.blank (by simp) .nil))))))
    rfl

end ChipEight
