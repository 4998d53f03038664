import ChipEight.Proofs.HexNumerals
import Mathlib.Data.List.Basic

/-!
# Which texts are windows

A window is typed as two addresses with one colon between them. It is read by splitting the text and
reading each half, and a text is refused for the first thing that is wrong with it: how many colons it
has, then its first half, its second half, and at last the order of the two addresses.

Splitting gives two parts exactly if there is one colon, and then the two halves of the text
(`splitAt_eq_halves`), so that what is said of the parts can be said of the text.
-/

namespace ChipEight

open Text

/-- The text is two halves with a colon between them and has no other colon. -/
def Halves (text before after : List Char) : Prop :=
  text = before ++ ':' :: after ∧ ':' ∉ before ∧ ':' ∉ after

/-- The text is a numeral for an address of memory. -/
structure AddressDenotes (text : List Char) (value : Int) : Prop where
  numeral : NumeralDenotes text value
  nonneg : 0 ≤ value
  within : value ≤ 0xFFF

/-- The text is a window: its halves are numerals for two addresses of memory in order. -/
structure WindowDenotes (text : List Char) (window : MemoryWindow) : Prop where
  halves : ∃ before after, Halves text before after ∧ NumeralDenotes before window.first ∧
    NumeralDenotes after window.last
  nonneg : 0 ≤ window.first
  ordered : window.first ≤ window.last
  within : window.last ≤ 0xFFF

/-- Why a text is refused as an address. -/
inductive AddressRefused (text : List Char) : ValueRefusal → Prop
  | noNumeral (h : ∀ value, ¬ NumeralDenotes text value) :
      AddressRefused text (.notAddress (String.ofList text))
  | outside {value : Int} (h : NumeralDenotes text value) (hout : value < 0 ∨ 0xFFF < value) :
      AddressRefused text (.addressOutside value)

/-- Why a text is refused as a window, which is the first thing that is wrong with it. -/
inductive WindowRefused (text : List Char) : ValueRefusal → Prop
  | colons (h : text.count ':' ≠ 1) : WindowRefused text .notWindow
  | first {before after : List Char} {refusal : ValueRefusal} (h : Halves text before after)
      (hrefused : AddressRefused before refusal) : WindowRefused text refusal
  | last {before after : List Char} {first : Int} {refusal : ValueRefusal}
      (h : Halves text before after) (hfirst : AddressDenotes before first)
      (hrefused : AddressRefused after refusal) : WindowRefused text refusal
  | order {before after : List Char} {first last : Int} (h : Halves text before after)
      (hfirst : AddressDenotes before first) (hlast : AddressDenotes after last)
      (horder : last < first) : WindowRefused text .endBeforeStart

/-- What is known to come out in each of several cases comes out in no other, if there is no other
case. -/
theorem outcome_iff {ε α : Type} {x : Except ε α} {P : α → Prop} {R : ε → Prop}
    (hok : ∀ a, P a → x = .ok a) (herror : ∀ e, R e → x = .error e)
    (htotal : (∃ a, P a) ∨ ∃ e, R e) :
    (∀ a, x = .ok a ↔ P a) ∧ ∀ e, x = .error e ↔ R e := by
  refine ⟨fun a => ⟨fun h => ?_, hok a⟩, fun e => ⟨fun h => ?_, herror e⟩⟩
  · rcases htotal with ⟨b, hb⟩ | ⟨e, he⟩
    · obtain rfl : a = b := Except.ok.inj (h.symm.trans (hok b hb))
      exact hb
    · exact absurd (h.symm.trans (herror e he)) (by simp)
  · rcases htotal with ⟨a, ha⟩ | ⟨f, hf⟩
    · exact absurd (h.symm.trans (hok a ha)) (by simp)
    · obtain rfl : e = f := Except.error.inj (h.symm.trans (herror f hf))
      exact hf

/-! ## Addresses -/

theorem memorySize_eq : (memorySize : Int) = 0x1000 := rfl

theorem readAddress_of_denotes {cs : List Char} {value : Int} (h : AddressDenotes cs value) :
    readAddress (String.ofList cs) = .ok value := by
  have hwithin := h.within
  unfold readAddress
  rw [hexNumeral?_ofList.mpr h.numeral]
  exact if_pos ⟨h.nonneg, by rw [memorySize_eq]; omega⟩

theorem readAddress_of_refused {cs : List Char} {refusal : ValueRefusal}
    (h : AddressRefused cs refusal) : readAddress (String.ofList cs) = .error refusal := by
  unfold readAddress
  cases h with
  | noNumeral hnone => rw [hexNumeral?_ofList_none.mpr hnone]
  | outside hnumeral hout =>
      rw [hexNumeral?_ofList.mpr hnumeral]
      exact if_neg (by rw [memorySize_eq]; omega)

/-- Every text is an address or is refused as one. -/
theorem address_total (cs : List Char) :
    (∃ value, AddressDenotes cs value) ∨ ∃ refusal, AddressRefused cs refusal := by
  by_cases hsome : ∃ value, NumeralDenotes cs value
  · obtain ⟨value, hvalue⟩ := hsome
    by_cases hin : 0 ≤ value ∧ value ≤ 0xFFF
    · exact Or.inl ⟨value, hvalue, hin.1, hin.2⟩
    · exact Or.inr ⟨_, .outside hvalue (by omega)⟩
  · exact Or.inr ⟨_, .noNumeral (not_exists.mp hsome)⟩

/-! ## Windows -/

theorem Text.NumeralDenotes.not_colon {text : List Char} {value : Int}
    (h : NumeralDenotes text value) : ':' ∉ text :=
  h.not_mem rfl rfl rfl (by decide)

/-- With one colon, the parts of a text are its halves. -/
theorem splitAt_of_halves {text : String} {before after : List Char}
    (h : Halves text.toList before after) :
    splitAt ':' text = [String.ofList before, String.ofList after] := by
  obtain ⟨htext, hbefore, hafter⟩ := h
  rw [splitAt, htext, splitChars_append hbefore, splitChars_of_not_mem hafter]
  rfl

theorem halves_of_count {text : List Char} (h : text.count ':' = 1) :
    ∃ before after, Halves text before after := by
  obtain ⟨hlength, hjoin, hnone⟩ := splitChars_spec ':' text
  rw [h] at hlength
  obtain ⟨before, after, hparts⟩ := List.length_eq_two.mp hlength
  rw [hparts] at hjoin hnone
  refine ⟨before, after, ?_, hnone before (by simp), hnone after (by simp)⟩
  rw [← hjoin]
  simp

theorem readWindow_of_halves {text : String} {before after : List Char}
    (h : Halves text.toList before after) :
    readWindow text = (do
      let first ← readAddress (String.ofList before)
      let last ← readAddress (String.ofList after)
      if last < first then .error .endBeforeStart else .ok ⟨first, last⟩) := by
  rw [readWindow, splitAt_of_halves h]

theorem readWindow_of_denotes {text : String} {window : MemoryWindow}
    (h : WindowDenotes text.toList window) : readWindow text = .ok window := by
  obtain ⟨⟨before, after, hhalves, hfirst, hlast⟩, hnonneg, hordered, hwithin⟩ := h
  have hfirst' : AddressDenotes before window.first := ⟨hfirst, hnonneg, by omega⟩
  have hlast' : AddressDenotes after window.last := ⟨hlast, by omega, hwithin⟩
  rw [readWindow_of_halves hhalves, readAddress_of_denotes hfirst', readAddress_of_denotes hlast']
  exact if_neg (Int.not_lt.mpr hordered)

theorem readWindow_of_refused {text : String} {refusal : ValueRefusal}
    (h : WindowRefused text.toList refusal) : readWindow text = .error refusal := by
  cases h with
  | colons h =>
      obtain ⟨hlength, _⟩ := splitChars_spec ':' text.toList
      unfold readWindow
      split
      · rename_i first last hparts
        have htwo := congrArg List.length hparts
        rw [splitAt, List.length_map, hlength] at htwo
        exact absurd (Nat.succ.inj htwo) h
      · rfl
  | first h hrefused => rw [readWindow_of_halves h, readAddress_of_refused hrefused]; rfl
  | last h hfirst hrefused =>
      rw [readWindow_of_halves h, readAddress_of_denotes hfirst, readAddress_of_refused hrefused]
      rfl
  | order h hfirst hlast horder =>
      rw [readWindow_of_halves h, readAddress_of_denotes hfirst, readAddress_of_denotes hlast]
      exact if_pos horder

/-- Every text is a window or is refused as one. -/
theorem window_total (text : List Char) :
    (∃ window, WindowDenotes text window) ∨ ∃ refusal, WindowRefused text refusal := by
  by_cases hcount : text.count ':' = 1
  · obtain ⟨before, after, hhalves⟩ := halves_of_count hcount
    rcases address_total before with ⟨first, hfirst⟩ | ⟨refusal, hrefused⟩
    · rcases address_total after with ⟨last, hlast⟩ | ⟨refusal, hrefused⟩
      · by_cases horder : last < first
        · exact Or.inr ⟨_, .order hhalves hfirst hlast horder⟩
        · exact Or.inl ⟨⟨first, last⟩, ⟨before, after, hhalves, hfirst.numeral, hlast.numeral⟩,
            hfirst.nonneg, Int.not_lt.mp horder, hlast.within⟩
      · exact Or.inr ⟨_, .last hhalves hfirst hrefused⟩
    · exact Or.inr ⟨_, .first hhalves hrefused⟩
  · exact Or.inr ⟨_, .colons hcount⟩

/-- What was read as a window is one. -/
theorem windowDenotes_of_read {text : String} {window : MemoryWindow}
    (h : readWindow text = .ok window) : WindowDenotes text.toList window := by
  rcases window_total text.toList with ⟨denoted, hdenotes⟩ | ⟨refusal, hrefused⟩
  · obtain rfl := Except.ok.inj (h.symm.trans (readWindow_of_denotes hdenotes))
    exact hdenotes
  · exact absurd (h.symm.trans (readWindow_of_refused hrefused)) (by simp)

/--
**A text is read as a window exactly if it is one, and as the window that it is.**

Every other text is refused, with the first thing that is wrong with it as the reason. In particular
two addresses in order may be written in digits of either case and any width, with a mark and with
blanks, and are read as the window between them.
-/
theorem readWindow_exact (text : String) :
    (∀ window, readWindow text = .ok window ↔ WindowDenotes text.toList window) ∧
    (∀ refusal, readWindow text = .error refusal ↔ WindowRefused text.toList refusal) ∧
    ((∃ refusal, readWindow text = .error refusal) ↔
      ¬ ∃ window, WindowDenotes text.toList window) ∧
    ∀ (before after : List Char) (first last : Nat),
      text.toList = before ++ ':' :: after → Renders before first → Renders after last →
      first ≤ last → last ≤ 0xFFF → readWindow text = .ok ⟨first, last⟩ := by
  obtain ⟨hok, herror⟩ := outcome_iff (x := readWindow text)
    (fun _ => readWindow_of_denotes) (fun _ => readWindow_of_refused) (window_total text.toList)
  refine ⟨hok, herror, ?_, ?_⟩
  · constructor
    · intro hrefused hwindow
      obtain ⟨refusal, hread⟩ := hrefused
      obtain ⟨window, hdenotes⟩ := hwindow
      exact absurd (hread.symm.trans ((hok window).mpr hdenotes)) (by simp)
    · intro hnone
      obtain ⟨refusal, hrefused⟩ := (window_total text.toList).resolve_left hnone
      exact ⟨refusal, (herror refusal).mpr hrefused⟩
  · intro before after first last htext hbefore hafter hordered hwithin
    have hhalves : Halves text.toList before after :=
      ⟨htext, hbefore.denotes.not_colon, hafter.denotes.not_colon⟩
    refine (hok _).mpr ⟨⟨before, after, hhalves, hbefore.denotes, hafter.denotes⟩, ?_, ?_, ?_⟩
    · exact Int.natCast_nonneg first
    · exact Int.ofNat_le.mpr hordered
    · exact Int.ofNat_le.mpr hwithin

/-- Blanks, a mark, a small letter and a zero too many. -/
theorem readWindow_exact_written :
    readWindow "\t0X0aF :0200" = .ok ⟨0xAF, 0x200⟩ := by
  obtain ⟨_, _, _, hrendered⟩ := readWindow_exact "\t0X0aF :0200"
  refine hrendered ['\t', '0', 'X', '0', 'a', 'F', ' '] ['0', '2', '0', '0'] 0xAF 0x200 rfl ?_ ?_
    (by decide) (by decide)
  · refine ⟨['\t'], ['0', 'X'], ['0', 'a', 'F'], [' '], 3, rfl, by simp [isBlank], by simp [isBlank],
      by simp, ?_⟩
    rw [hex_toList]
    simp [hexDigits, hexDigit]
  · refine ⟨[], [], ['0', '2', '0', '0'], [], 4, rfl, by simp, by simp, by simp, ?_⟩
    rw [hex_toList]
    simp [hexDigits, hexDigit]

end ChipEight
