import ChipEight.Text.Numeral
import ChipEight.Text.Padded
import ChipEight.Text.Split
import Mathlib.Algebra.Group.Nat.Defs

/-!
# Columns that can be read back

Lines are made by joining texts, with a blank or a line end between them, and numbers in them are
hexadecimal and filled up with zeros. Both can be undone. Splitting gives the parts back as long as
none of them holds the separator, and a numeral read to its end gives its number back, however many
zeros it was filled up with. That no blank is ever part of a numeral is a consequence: what is read
as digits holds digits only.
-/

namespace ChipEight.Text

/-! ## Splitting what was joined -/

section Split

variable {separator : Char}

theorem splitChars_of_not_mem {part : List Char} (h : separator ∉ part) :
    splitChars separator part = [part] := by
  induction part with
  | nil => rfl
  | cons c rest ih =>
      have hc := List.ne_of_not_mem_cons h
      rw [splitChars, if_neg (Ne.symm hc), ih (List.not_mem_of_not_mem_cons h)]

/-- The first part ends at the first separator. -/
theorem splitChars_append {part : List Char} (h : separator ∉ part) (rest : List Char) :
    splitChars separator (part ++ separator :: rest) = part :: splitChars separator rest := by
  induction part with
  | nil => rw [List.nil_append, splitChars, if_pos rfl]
  | cons c part ih =>
      have hc := List.ne_of_not_mem_cons h
      rw [List.cons_append, splitChars, if_neg (Ne.symm hc), ih (List.not_mem_of_not_mem_cons h)]

/-- **Splitting undoes joining.** -/
theorem splitChars_intercalate {parts : List (List Char)} (hsome : parts ≠ [])
    (h : ∀ part ∈ parts, separator ∉ part) :
    splitChars separator ([separator].intercalate parts) = parts := by
  induction parts with
  | nil => exact absurd rfl hsome
  | cons part rest ih =>
      have hpart := h part List.mem_cons_self
      cases rest with
      | nil => rw [List.intercalate_singleton, splitChars_of_not_mem hpart]
      | cons next rest =>
          have hrest := ih (List.cons_ne_nil _ _) fun p hp => h p (List.mem_cons_of_mem part hp)
          rw [List.intercalate_cons_cons, List.append_assoc, List.singleton_append,
            splitChars_append hpart, hrest]

/-- There is one part more than there are separators, and joining the parts gives the text back. -/
theorem splitChars_spec (separator : Char) (cs : List Char) :
    (splitChars separator cs).length = cs.count separator + 1 ∧
    [separator].intercalate (splitChars separator cs) = cs ∧
    ∀ part ∈ splitChars separator cs, separator ∉ part := by
  induction cs with
  | nil => simp [splitChars]
  | cons c rest ih =>
      obtain ⟨hlength, hjoin, hnone⟩ := ih
      rw [splitChars]
      rcases hrest : splitChars separator rest with _ | ⟨part, parts⟩
      · rw [hrest] at hlength
        exact absurd hlength (by simp)
      · rw [hrest] at hlength hjoin hnone
        by_cases hc : c = separator
        · subst hc
          rw [if_pos rfl]
          refine ⟨?_, ?_, ?_⟩
          · rw [List.length_cons, hlength, List.count_cons_self]
          · rw [List.intercalate_cons_cons, hjoin]
            rfl
          · simpa using hnone
        · rw [if_neg hc]
          refine ⟨?_, ?_, ?_⟩
          · rw [List.count_cons_of_ne hc, ← hlength]
            rfl
          · rw [← hjoin]
            cases parts <;> simp
          · intro p hp
            rcases List.mem_cons.mp hp with rfl | hp
            · exact List.not_mem_cons_of_ne_of_not_mem (Ne.symm hc) (hnone _ List.mem_cons_self)
            · exact hnone p (List.mem_cons_of_mem _ hp)

/-- The same for texts. -/
theorem splitAt_intercalate {joiner : String} (hjoiner : joiner.toList = [separator])
    {parts : List String} (hsome : parts ≠ []) (h : ∀ part ∈ parts, separator ∉ part.toList) :
    splitAt separator (joiner.intercalate parts) = parts := by
  have hparts : parts.map String.toList ≠ [] := by simpa using hsome
  have hnone : ∀ part ∈ parts.map String.toList, separator ∉ part := by
    intro part hpart
    obtain ⟨text, htext, rfl⟩ := List.mem_map.mp hpart
    exact h text htext
  rw [splitAt, String.toList_intercalate, hjoiner, splitChars_intercalate hparts hnone,
    List.map_map]
  exact List.map_id'' (fun text => String.ofList_toList) parts

/-- What holds in every part and in between holds in what was joined. -/
theorem forall_mem_intercalate {α : Type} {P : α → Prop} {joiner : List α} {parts : List (List α)}
    (hjoiner : ∀ a ∈ joiner, P a) (h : ∀ part ∈ parts, ∀ a ∈ part, P a) :
    ∀ a ∈ joiner.intercalate parts, P a := by
  induction parts with
  | nil => exact fun a ha => absurd ha List.not_mem_nil
  | cons part rest ih =>
      have hpart := h part List.mem_cons_self
      have hrest := ih fun p hp => h p (List.mem_cons_of_mem part hp)
      cases rest with
      | nil => rwa [List.intercalate_singleton]
      | cons next rest =>
          rw [List.intercalate_cons_cons]
          simp only [List.forall_mem_append]
          exact ⟨⟨hpart, hjoiner⟩, hrest⟩

/-- What is left of parts that were joined is what is left of each of them. -/
theorem filter_intercalate {α : Type} (keep : α → Bool) (joiner : List α) (parts : List (List α)) :
    (joiner.intercalate parts).filter keep =
      (joiner.filter keep).intercalate (parts.map (List.filter keep)) := by
  induction parts with
  | nil => rfl
  | cons part rest ih =>
      cases rest with
      | nil => rw [List.intercalate_singleton, List.map_singleton, List.intercalate_singleton]
      | cons next rest =>
          rw [List.intercalate_cons_cons, List.filter_append, List.filter_append, ih]
          simp only [List.map_cons, List.intercalate_cons_cons]

theorem intercalate_ne_nil {α : Type} {joiner part : List α} {rest : List (List α)}
    (h : ∀ p ∈ part :: rest, p ≠ []) : joiner.intercalate (part :: rest) ≠ [] := by
  have hpart := h part List.mem_cons_self
  cases rest with
  | nil => rwa [List.intercalate_singleton]
  | cons _ _ => simp [List.intercalate_cons_cons, hpart]

/-- A character that is in no part and not in between is not in what was joined. -/
theorem not_mem_intercalate {c : Char} {joiner : String} (hjoiner : c ∉ joiner.toList)
    {parts : List String} (h : ∀ part ∈ parts, c ∉ part.toList) :
    c ∉ (joiner.intercalate parts).toList := by
  rw [String.toList_intercalate]
  have hne : ∀ a ∈ joiner.toList.intercalate (parts.map String.toList), a ≠ c := by
    refine forall_mem_intercalate (fun a ha heq => hjoiner (heq ▸ ha)) fun part hpart a ha => ?_
    obtain ⟨text, htext, rfl⟩ := List.mem_map.mp hpart
    exact fun heq => h text htext (heq ▸ ha)
  exact fun hmem => hne c hmem rfl

end Split

/-! ## Blocks of lines -/

/-- The blocks of a text, which are its lines up to an empty line and from there on. The last line
ends as every other one does. -/
def blocksOf (text : String) : List (List String) := (splitAt '\n' text).dropLast.splitOn ""

/-- Blocks with an empty line between them are lines too. -/
theorem intercalate_blocks {blocks : List (List String)} (h : ∀ block ∈ blocks, block ≠ []) :
    "\n\n".intercalate (blocks.map ("\n".intercalate ·)) =
      "\n".intercalate ([""].intercalate blocks) := by
  induction blocks with
  | nil => rfl
  | cons block rest ih =>
      cases rest with
      | nil => rw [List.map_singleton, String.intercalate_singleton, List.intercalate_singleton]
      | cons next rest =>
          have hblock := h block List.mem_cons_self
          have hrest := ih fun b hb => h b (List.mem_cons_of_mem block hb)
          have hnext : [""].intercalate (next :: rest) ≠ [] :=
            intercalate_ne_nil fun b hb => h b (List.mem_cons_of_mem block hb)
          have hgap : "\n\n" = "\n" ++ "\n" := rfl
          rw [List.map_cons, String.intercalate_cons_of_ne_nil (by simp), hrest,
            List.intercalate_cons_cons, String.intercalate_append_of_ne_nil (by simp) hnext,
            String.intercalate_append_of_ne_nil hblock (by simp), String.intercalate_singleton,
            String.append_empty, hgap, ← String.append_assoc]

/-- **Blocks are read back as they were printed.** -/
theorem blocksOf_print {blocks : List (List String)} (hsome : blocks ≠ [])
    (h : ∀ block ∈ blocks, block ≠ [] ∧ ∀ line ∈ block, line ≠ "" ∧ '\n' ∉ line.toList) :
    blocksOf ("\n\n".intercalate (blocks.map ("\n".intercalate ·)) ++ "\n") = blocks := by
  have hfilled : [""].intercalate blocks ≠ [] := by
    obtain ⟨block, rest, rfl⟩ := List.exists_cons_of_ne_nil hsome
    exact intercalate_ne_nil fun b hb => (h b hb).1
  have hlines : ∀ line ∈ [""].intercalate blocks ++ [""], '\n' ∉ line.toList := by
    simp only [List.forall_mem_append, List.forall_mem_singleton]
    refine ⟨forall_mem_intercalate (by simp) fun block hblock line hline => ?_, by simp⟩
    exact ((h block hblock).2 line hline).2
  have htext : "\n".intercalate ([""].intercalate blocks) ++ "\n" =
      "\n".intercalate ([""].intercalate blocks ++ [""]) := by
    rw [String.intercalate_append_of_ne_nil hfilled (by simp), String.intercalate_singleton,
      String.append_empty]
  rw [blocksOf, intercalate_blocks fun block hblock => (h block hblock).1, htext,
    splitAt_intercalate rfl (by simp) hlines, List.dropLast_concat]
  exact List.splitOn_intercalate "" (fun block hblock hempty => ((h block hblock).2 "" hempty).1 rfl)
    hsome

/-! ## Reading numerals back -/

/-- Reading begins with a mark where one may stand, or with a digit of the base. -/
theorem readDigits?_cons {base value n : Nat} {need : Bool} {c : Char} {rest : List Char} :
    readDigits? base value need (c :: rest) = some n ↔
      (c = '_' ∧ need = false ∧ readDigits? base value true rest = some n) ∨
        (c ≠ '_' ∧ ∃ d < base, digitValue? c = some d ∧
          readDigits? base (value * base + d) false rest = some n) := by
  rw [readDigits?]
  by_cases hmark : c = '_'
  · cases need <;> simp [hmark]
  · cases hc : digitValue? c with
    | none => simp [hmark]
    | some d => by_cases hd : d < base <;> grind

/-- Reading goes on behind digits with what they were read as. -/
theorem readDigits?_append {base value n : Nat} {need : Bool} {cs : List Char}
    (h : readDigits? base value need cs = some n) (more : List Char) :
    readDigits? base value need (cs ++ more) = readDigits? base n false more := by
  induction cs generalizing value need with
  | nil =>
      obtain ⟨rfl, rfl⟩ : need = false ∧ value = n := by
        cases need <;> simp_all [readDigits?]
      rfl
  | cons first rest ih =>
      rw [List.cons_append]
      rcases readDigits?_cons.mp h with ⟨rfl, rfl, hrest⟩ | ⟨hfirst, e, he, hvalue, hrest⟩
      · exact ih hrest
      · rw [readDigits?, if_neg (by simpa using hfirst), hvalue]
        simp only [he, if_true]
        exact ih hrest

/-- One digit more is read onto what was read before it. -/
theorem readDigits?_concat {base value n d : Nat} {need : Bool} {cs : List Char} {c : Char}
    (h : readDigits? base value need cs = some n) (hmark : c ≠ '_')
    (hc : digitValue? c = some d) (hd : d < base) :
    readDigits? base value need (cs ++ [c]) = some (n * base + d) := by
  rw [readDigits?_append h]
  exact readDigits?_cons.mpr (Or.inr ⟨hmark, d, hd, hc, rfl⟩)

/-- What is read as digits holds no other character. -/
theorem not_mem_of_readDigits? {base value n : Nat} {need : Bool} {cs : List Char} {c : Char}
    (h : readDigits? base value need cs = some n) (hmark : c ≠ '_') (hc : digitValue? c = none) :
    c ∉ cs := by
  induction cs generalizing value need with
  | nil => exact List.not_mem_nil
  | cons first rest ih =>
      rcases readDigits?_cons.mp h with ⟨hfirst, _, hrest⟩ | ⟨_, d, _, hvalue, hrest⟩
      · exact List.not_mem_cons_of_ne_of_not_mem (hfirst ▸ hmark) (ih hrest)
      · refine List.not_mem_cons_of_ne_of_not_mem (fun heq => ?_) (ih hrest)
        rw [heq, hvalue] at hc
        exact absurd hc (by simp)

theorem digitValue?_hexDigit : ∀ d < 16, digitValue? (hexDigit d) = some d := by decide

theorem hexDigit_ne_mark : ∀ d < 16, hexDigit d ≠ '_' := by decide

/-- **The digits of a number are read as the number.** -/
theorem readDigits?_hexDigits (n : Nat) (need : Bool) :
    readDigits? 16 0 need (hexDigits n) = some n := by
  fun_induction hexDigits n with
  | case1 n h =>
      refine readDigits?_cons.mpr (Or.inr ⟨hexDigit_ne_mark n h, n, h, digitValue?_hexDigit n h, ?_⟩)
      rw [Nat.zero_mul, Nat.zero_add]
      rfl
  | case2 n h ih =>
      have hlow : n % 16 < 16 := Nat.mod_lt _ (by decide)
      rw [readDigits?_concat ih (hexDigit_ne_mark _ hlow) (digitValue?_hexDigit _ hlow) hlow]
      congr 1
      omega

/-- A number has at most as many digits as there is room for it. -/
theorem hexDigits_length_le {n width : Nat} (hwidth : 0 < width) (h : n < 16 ^ width) :
    (hexDigits n).length ≤ width := by
  induction width generalizing n with
  | zero => exact absurd hwidth (Nat.lt_irrefl 0)
  | succ width ih =>
      rw [hexDigits]
      split
      · exact Nat.le_add_left 1 width
      · rename_i hlarge
        have hpos : 0 < width := by
          rcases Nat.eq_zero_or_pos width with rfl | hpos
          · exact absurd h hlarge
          · exact hpos
        rw [List.length_append, List.length_singleton]
        exact Nat.succ_le_succ (ih hpos (Nat.div_lt_of_lt_mul (Nat.pow_succ' ▸ h)))

/-- Zeros in front make no difference. -/
theorem readDigits?_zeros (k n : Nat) (need : Bool) :
    readDigits? 16 0 need (List.replicate k '0' ++ hexDigits n) = some n := by
  induction k generalizing need with
  | zero => exact readDigits?_hexDigits n need
  | succ k ih =>
      rw [List.replicate_succ, List.cons_append, readDigits?]
      exact ih false

/-- The characters of a number in a column. -/
theorem hex_toList (width n : Nat) :
    (hex width n).toList = List.replicate (width - (hexDigits n).length) '0' ++ hexDigits n := by
  change (padLeft width '0' (String.ofList (hexDigits n))).toList = _
  rw [padLeft, String.toList_append, String.toList_ofList, String.toList_ofList,
    String.length_ofList]

/-- A number that there is room for fills its column. -/
theorem hex_length {width n : Nat} (hwidth : 0 < width) (h : n < 16 ^ width) :
    (hex width n).toList.length = width := by
  have hfits := hexDigits_length_le hwidth h
  rw [hex_toList, List.length_append, List.length_replicate]
  omega

/-- **A number in a column is read as the number**, whatever the width. -/
theorem readDigits?_hex (width n : Nat) (need : Bool) :
    readDigits? 16 0 need (hex width n).toList = some n := by
  rw [hex_toList, readDigits?_zeros]

/-- The character is never part of a number. -/
def Separates (c : Char) : Prop := c ≠ '_' ∧ c ≠ '-' ∧ digitValue? c = none

instance (c : Char) : Decidable (Separates c) := inferInstanceAs (Decidable (_ ∧ _ ∧ _))

/-- A number in a column is made of digits, and of a sign if it is below zero. -/
theorem not_mem_hex {c : Char} (h : Separates c) (width : Nat) (n : Int) :
    c ∉ (hex width n).toList := by
  obtain ⟨hmark, hsign, hc⟩ := h
  cases n with
  | ofNat n => exact not_mem_of_readDigits? (readDigits?_hex width n false) hmark hc
  | negSucc n =>
      have hdigits := not_mem_of_readDigits? (readDigits?_hex (width - 1) (n + 1) false) hmark hc
      have htext : hex width (.negSucc n) = "-" ++ hex (width - 1) (n + 1 : Nat) := rfl
      rw [htext, String.toList_append]
      refine fun hmem => ?_
      rcases List.mem_append.mp hmem with h | h
      · exact hsign (List.mem_singleton.mp h)
      · exact hdigits h

/-- **A byte is two digits.** -/
theorem hex_byte (value : UInt8) :
    hex 2 value.toNat = String.ofList [hexDigit (value.toNat / 16), hexDigit (value.toNat % 16)] := by
  have hlt := value.toNat_lt
  rw [← String.toList_inj, hex_toList, String.toList_ofList, hexDigits]
  by_cases h : value.toNat < 16
  · rw [if_pos h, Nat.div_eq_of_lt h, Nat.mod_eq_of_lt h]
    rfl
  · rw [if_neg h, hexDigits, if_pos (by omega)]
    rfl

end ChipEight.Text
