import ChipEight.Options.Values
import ChipEight.Proofs.Columns
import ChipEight.Proofs.Finish

/-!
# Which texts are hexadecimal numerals

A numeral is read in passes: blanks are trimmed, digits and blanks of other scripts become those of
ASCII, and what is left loses its sign and its mark before its digits are read. The grammar below is
of the characters as they were typed, and says at once where a sign, a mark and an underscore may
stand. `hexNumeral?_trim` says that the passes accept this grammar, and with the number it denotes.

Both directions need to know what becomes of a character, which is all in `plain_cases`: no character
becomes a sign, a letter or an underscore that was none before, and no blank is a digit. So what was
read after the passes was in the text before them.
-/

namespace ChipEight.Text

/-! ## The grammar -/

/-- The digit is worth the number: it is a decimal digit of any script, or one of the first six letters
in either case. -/
inductive DigitDenotes (c : Char) : Nat → Prop
  | decimal {d : Nat} (h : decimalDigit? c = some d) : DigitDenotes c d
  | small {k : Nat} (hk : k < 6) (h : c.toNat = 'a'.toNat + k) : DigitDenotes c (10 + k)
  | capital {k : Nat} (hk : k < 6) (h : c.toNat = 'A'.toNat + k) : DigitDenotes c (10 + k)

/-- The digits denote the number. A single underscore may stand between two of them. -/
inductive DigitsDenote : List Char → Nat → Prop
  | one {c : Char} {d : Nat} (hc : DigitDenotes c d) : DigitsDenote [c] d
  | next {digits : List Char} {n : Nat} {c : Char} {d : Nat} (h : DigitsDenote digits n)
      (hc : DigitDenotes c d) : DigitsDenote (digits ++ [c]) (n * 16 + d)
  | grouped {digits : List Char} {n : Nat} {c : Char} {d : Nat} (h : DigitsDenote digits n)
      (hc : DigitDenotes c d) : DigitsDenote (digits ++ ['_', c]) (n * 16 + d)

/-- A sign, which may be missing; `true` is said of the negative one. -/
inductive SignDenotes : List Char → Bool → Prop
  | none : SignDenotes [] false
  | plus : SignDenotes ['+'] false
  | minus : SignDenotes ['-'] true

/-- The mark of a hexadecimal numeral, which may be missing. One underscore may follow it. -/
inductive HexMark : List Char → Prop
  | none : HexMark []
  | bare {c x : Char} (hc : DigitDenotes c 0) (hx : x = 'x' ∨ x = 'X') : HexMark [c, x]
  | grouped {c x : Char} (hc : DigitDenotes c 0) (hx : x = 'x' ∨ x = 'X') : HexMark [c, x, '_']

/-- The text is a hexadecimal numeral that denotes the number. Blanks may stand around it and nowhere
else. -/
def NumeralDenotes (text : List Char) (value : Int) : Prop :=
  ∃ lead sign mark digits trail negative n,
    text = lead ++ (sign ++ (mark ++ digits)) ++ trail ∧
    (∀ c ∈ lead, isBlank c = true) ∧ (∀ c ∈ trail, isBlank c = true) ∧
    SignDenotes sign negative ∧ HexMark mark ∧ DigitsDenote digits n ∧ value = signed negative n

/-! ## Characters -/

/-- The digits by their places in the code table. -/
theorem digitDenotes_iff {c : Char} {d : Nat} :
    DigitDenotes c d ↔
      decimalDigit? c = some d ∨ (10 ≤ d ∧ d < 16 ∧ (c.toNat = d + 87 ∨ c.toNat = d + 55)) := by
  have hsmall : 'a'.toNat = 97 := rfl
  have hcapital : 'A'.toNat = 65 := rfl
  constructor
  · intro h
    cases h with
    | decimal h => exact Or.inl h
    | small hk h => exact Or.inr ⟨by omega, by omega, Or.inl (by omega)⟩
    | capital hk h => exact Or.inr ⟨by omega, by omega, Or.inr (by omega)⟩
  · intro h
    rcases h with h | ⟨hlow, hhigh, h⟩
    · exact .decimal h
    · obtain ⟨k, rfl⟩ := Nat.exists_eq_add_of_le hlow
      rcases h with h | h
      · exact .small (by omega) (by omega)
      · exact .capital (by omega) (by omega)

/-- A decimal digit stands behind the zero of its script. -/
theorem decimalDigit?_eq_some {c : Char} {d : Nat} (h : decimalDigit? c = some d) :
    d < 10 ∧ ∃ first ∈ decimalZeros, c.toNat = first + d := by
  obtain ⟨first, hfind, hd⟩ := Option.map_eq_some_iff.mp h
  have hrange := List.find?_some hfind
  simp only [Bool.and_eq_true, decide_eq_true_eq] at hrange
  exact ⟨by omega, first, List.mem_of_find?_eq_some hfind, by omega⟩

/-- No digit of any script is a blank. -/
theorem isBlank_of_decimalDigit? {c : Char} {d : Nat} (h : decimalDigit? c = some d) :
    isBlank c = false := by
  obtain ⟨hd, first, hfirst, hc⟩ := decimalDigit?_eq_some h
  have hall : ∀ first ∈ decimalZeros, ∀ d < 10, isBlank (Char.ofNat (first + d)) = false := by
    decide +kernel
  rw [← Char.ofNat_toNat c, hc]
  exact hall first hfirst d hd

/-- Of the characters of ASCII, the digits are the usual ones. -/
theorem decimalDigit?_ascii {c : Char} (h : c.toNat < 127) :
    decimalDigit? c = if 48 ≤ c.toNat ∧ c.toNat ≤ 57 then some (c.toNat - 48) else none := by
  have hlater : ∀ first ∈ decimalZeros.tail, 127 ≤ first := by decide
  have hnone : (decimalZeros.tail.find? fun first => first ≤ c.toNat && c.toNat ≤ first + 9) = none := by
    rw [List.find?_eq_none]
    intro first hfirst
    have hle := hlater first hfirst
    simp only [Bool.and_eq_true, decide_eq_true_eq, not_and]
    omega
  have hzeros : decimalZeros = 48 :: decimalZeros.tail := rfl
  rw [decimalDigit?, hzeros, List.find?_cons, hnone]
  by_cases hc : 48 ≤ c.toNat ∧ c.toNat ≤ 57
  · simp [hc]
  · have hoff : (decide (48 ≤ c.toNat) && decide (c.toNat ≤ 48 + 9)) = false := by
      simp only [Bool.and_eq_false_iff, decide_eq_false_iff_not]
      omega
    rw [if_neg hc, hoff]
    rfl

/-- What becomes of a character: those of ASCII stay, a blank becomes a space, a digit becomes the same
digit of ASCII, and any other character stays. -/
theorem plain_cases (c : Char) :
    (c.toNat < 127 ∧ plain c = c) ∨
    (127 ≤ c.toNat ∧ isBlank c = true ∧ plain c = ' ') ∨
    (127 ≤ c.toNat ∧ ∃ d < 10, decimalDigit? c = some d ∧ plain c = Char.ofNat (48 + d)) ∨
    (127 ≤ c.toNat ∧ decimalDigit? c = none ∧ isBlank c = false ∧ plain c = c) := by
  by_cases hascii : c.toNat < 127
  · exact Or.inl ⟨hascii, if_pos hascii⟩
  · have hhigh := Nat.le_of_not_lt hascii
    cases hblank : isBlank c with
    | true => exact Or.inr (Or.inl ⟨hhigh, rfl, by simp [plain, hascii, hblank]⟩)
    | false =>
        cases hdigit : decimalDigit? c with
        | some d =>
            refine Or.inr (Or.inr (Or.inl ⟨hhigh, d, (decimalDigit?_eq_some hdigit).1, rfl, ?_⟩))
            simp [plain, hascii, hblank, hdigit]
        | none =>
            refine Or.inr (Or.inr (Or.inr ⟨hhigh, rfl, rfl, ?_⟩))
            simp [plain, hascii, hblank, hdigit]

theorem toNat_ofNat_digit : ∀ d < 10, (Char.ofNat (48 + d)).toNat = 48 + d := by decide

/-- **A character of ASCII that is neither a digit nor a blank comes from itself only.** -/
theorem plain_toNat {c : Char} {n : Nat} (hascii : n < 127) (hspace : n ≠ 32)
    (hdigit : n < 48 ∨ 57 < n) : (plain c).toNat = n ↔ c.toNat = n := by
  rcases plain_cases c with ⟨_, hc⟩ | ⟨hhigh, _, hc⟩ | ⟨hhigh, d, hd, _, hc⟩ | ⟨_, _, _, hc⟩
  · rw [hc]
  · have hvalue : ' '.toNat = 32 := rfl
    rw [hc, hvalue]
    omega
  · rw [hc, toNat_ofNat_digit d hd]
    omega
  · rw [hc]

theorem plain_eq {c a : Char} (h : a.toNat < 127 ∧ a.toNat ≠ 32 ∧ (a.toNat < 48 ∨ 57 < a.toNat)) :
    plain c = a ↔ c = a := by
  obtain ⟨hascii, hspace, hdigit⟩ := h
  rw [← Char.toNat_inj, plain_toNat hascii hspace hdigit, Char.toNat_inj]

theorem plain_eq_underscore {c : Char} : plain c = '_' ↔ c = '_' := plain_eq (by decide)

/-- A digit of any script keeps its worth, and nothing else becomes a digit. -/
theorem decimalDigit?_plain (c : Char) : decimalDigit? (plain c) = decimalDigit? c := by
  rcases plain_cases c with ⟨_, hc⟩ | ⟨_, hblank, hc⟩ | ⟨_, d, hd, hdigit, hc⟩ | ⟨_, _, _, hc⟩
  · rw [hc]
  · rw [hc]
    cases hdigit : decimalDigit? c with
    | none => rfl
    | some d =>
        rw [isBlank_of_decimalDigit? hdigit] at hblank
        exact absurd hblank Bool.false_ne_true
  · have hvalue := toNat_ofNat_digit d hd
    rw [hc, hdigit, decimalDigit?_ascii (by omega), hvalue, if_pos (by omega)]
    congr 1
    omega
  · rw [hc]

/-- Characters that are the same letter or the same digit are worth the same. -/
theorem DigitDenotes.congr {a b : Char} (hdecimal : decimalDigit? a = decimalDigit? b)
    (hletter : ∀ n, 57 < n → n < 127 → (a.toNat = n ↔ b.toNat = n)) {d : Nat}
    (h : DigitDenotes a d) : DigitDenotes b d := by
  rw [digitDenotes_iff] at h ⊢
  rcases h with h | ⟨hlow, hhigh, h⟩
  · exact Or.inl (hdecimal ▸ h)
  · rw [hletter (d + 87) (by omega) (by omega), hletter (d + 55) (by omega) (by omega)] at h
    exact Or.inr ⟨hlow, hhigh, h⟩

theorem denotes_plain {c : Char} {d : Nat} : DigitDenotes (plain c) d ↔ DigitDenotes c d := by
  have hletter : ∀ n, 57 < n → n < 127 → ((plain c).toNat = n ↔ c.toNat = n) := by
    intro n hlow hhigh
    exact plain_toNat hhigh (by omega) (Or.inr hlow)
  constructor
  · intro h
    exact h.congr (decimalDigit?_plain c) hletter
  · intro h
    exact h.congr (decimalDigit?_plain c).symm fun n hlow hhigh => (hletter n hlow hhigh).symm

/-- Only blanks become spacing. -/
theorem isBlank_of_isSpacing_plain {c : Char} (h : isSpacing (plain c) = true) :
    isBlank c = true := by
  simp only [isSpacing, Bool.or_eq_true, Bool.and_eq_true, beq_iff_eq, ← Char.toNat_inj,
    decide_eq_true_eq] at h
  have hvalue : ' '.toNat = 32 := rfl
  rcases plain_cases c with ⟨_, hc⟩ | ⟨_, hblank, _⟩ | ⟨_, d, hd, _, hc⟩ | ⟨_, _, _, hc⟩
  · rw [hc] at h
    simp only [isBlank, Bool.or_eq_true, Bool.and_eq_true, decide_eq_true_eq, beq_iff_eq]
    omega
  · exact hblank
  · rw [hc, toNat_ofNat_digit d hd] at h
    omega
  · rw [hc] at h
    omega

theorem DigitDenotes.lt {c : Char} {d : Nat} (h : DigitDenotes c d) : d < 16 := by
  rcases digitDenotes_iff.mp h with h | ⟨_, hd, _⟩
  · exact Nat.lt_trans (decimalDigit?_eq_some h).1 (by omega)
  · exact hd

theorem isBlank_of_ascii {c : Char} (hlow : 32 < c.toNat) (hhigh : c.toNat < 127) :
    isBlank c = false := by
  rw [← Bool.not_eq_true]
  simp only [isBlank, Bool.or_eq_true, Bool.and_eq_true, decide_eq_true_eq, beq_iff_eq]
  omega

theorem DigitDenotes.not_blank {c : Char} {d : Nat} (h : DigitDenotes c d) : isBlank c = false := by
  rcases digitDenotes_iff.mp h with h | ⟨_, _, hc⟩
  · exact isBlank_of_decimalDigit? h
  · exact isBlank_of_ascii (by omega) (by omega)

/-- The reader knows no digits but those of the grammar. -/
theorem denotes_of_digitValue? {c : Char} {d : Nat} (h : digitValue? c = some d) (hd : d < 16) :
    DigitDenotes c d := by
  rw [digitDenotes_iff]
  simp only [digitValue?, Bool.and_eq_true, decide_eq_true_eq] at h
  split at h
  · rename_i hdigit
    refine Or.inl ?_
    rw [decimalDigit?_ascii (by omega), if_pos hdigit, h]
  · split at h
    · rename_i hsmall
      obtain rfl : c.toNat - 87 = d := Option.some.inj h
      exact Or.inr ⟨by omega, hd, Or.inl (by omega)⟩
    · split at h
      · rename_i hcapital
        obtain rfl : c.toNat - 55 = d := Option.some.inj h
        exact Or.inr ⟨by omega, hd, Or.inr (by omega)⟩
      · exact absurd h (by simp)

/-- The reader knows all digits of ASCII. -/
theorem digitValue?_of_denotes {c : Char} {d : Nat} (hascii : c.toNat < 127)
    (h : DigitDenotes c d) : digitValue? c = some d := by
  simp only [digitValue?, Bool.and_eq_true, decide_eq_true_eq]
  rcases digitDenotes_iff.mp h with h | ⟨hlow, hhigh, hc | hc⟩
  · rw [decimalDigit?_ascii hascii] at h
    split at h
    · rename_i hdigit
      rw [if_pos hdigit]
      exact h
    · exact absurd h (by simp)
  · rw [if_neg (by omega), if_pos (by omega), hc, Nat.add_sub_cancel]
  · rw [if_neg (by omega), if_neg (by omega), if_pos (by omega), hc, Nat.add_sub_cancel]

theorem DigitDenotes.plain_ascii {c : Char} {d : Nat} (h : DigitDenotes c d) :
    (plain c).toNat < 127 := by
  rcases plain_cases c with ⟨hascii, hc⟩ | ⟨_, _, hc⟩ | ⟨_, e, he, _, hc⟩ | ⟨hhigh, hnone, _, _⟩
  · rwa [hc]
  · rw [hc]
    decide
  · rw [hc, toNat_ofNat_digit e he]
    omega
  · rcases digitDenotes_iff.mp h with h | ⟨_, _, hletter⟩
    · rw [hnone] at h
      exact absurd h (by simp)
    · omega

/-- **Every digit of the grammar becomes one that the reader knows.** -/
theorem digitValue?_plain {c : Char} {d : Nat} (h : DigitDenotes c d) :
    digitValue? (plain c) = some d :=
  digitValue?_of_denotes h.plain_ascii (denotes_plain.mpr h)

/-! ## Digits -/

theorem DigitDenotes.plain_ne {c a : Char} {d : Nat} (h : DigitDenotes c d)
    (ha : digitValue? a = none) : plain c ≠ a := by
  intro heq
  rw [← heq, digitValue?_plain h] at ha
  exact absurd ha (by simp)

/-- What can be read on from: digits, if they need no other one, or digits and an underscore. -/
inductive Reading : List Char → Nat → Bool → Prop
  | start : Reading [] 0 true
  | digits {cs : List Char} {n : Nat} (h : DigitsDenote cs n) : Reading cs n false
  | underscore {cs : List Char} {n : Nat} (h : DigitsDenote cs n) : Reading (cs ++ ['_']) n true

/-- One digit more. -/
theorem Reading.digit {cs : List Char} {n d : Nat} {need : Bool} {c : Char} (h : Reading cs n need)
    (hc : DigitDenotes c d) : DigitsDenote (cs ++ [c]) (n * 16 + d) := by
  cases h with
  | start =>
      rw [Nat.zero_mul, Nat.zero_add]
      exact .one hc
  | digits h => exact .next h hc
  | underscore h =>
      rw [List.append_assoc]
      exact .grouped h hc

/-- What is read to its end denotes what it is read as. -/
theorem Reading.denotes {cs rest : List Char} {value n : Nat} {need : Bool}
    (h : Reading cs value need) (hread : readDigits? 16 value need rest = some n) :
    DigitsDenote (cs ++ rest) n := by
  induction rest generalizing cs value need with
  | nil =>
      rw [List.append_nil]
      cases h with
      | start => exact absurd hread (by simp [readDigits?])
      | digits h =>
          obtain rfl : value = n := Option.some.inj hread
          exact h
      | underscore h => exact absurd hread (by simp [readDigits?])
  | cons c rest ih =>
      rw [List.append_cons]
      rcases readDigits?_cons.mp hread with ⟨rfl, rfl, hrest⟩ | ⟨_, d, hd, hvalue, hrest⟩
      · cases h with
        | digits h => exact ih (.underscore h) hrest
      · exact ih (.digits (h.digit (denotes_of_digitValue? hvalue hd))) hrest

theorem denotes_of_readDigits? {cs : List Char} {n : Nat} (h : readDigits? 16 0 true cs = some n) :
    DigitsDenote cs n := by
  rw [← List.nil_append cs]
  exact Reading.start.denotes h

/-- Digits denote what they did before their characters were changed into others, if those denote the
same. -/
theorem DigitsDenote.of_map {f : Char → Char}
    (hdigit : ∀ {c d}, DigitDenotes (f c) d → DigitDenotes c d) (hmark : ∀ {c}, f c = '_' → c = '_')
    {digits : List Char} {n : Nat} (h : DigitsDenote (digits.map f) n) : DigitsDenote digits n := by
  generalize hcs : digits.map f = cs at h
  induction h generalizing digits with
  | one hc =>
      obtain ⟨c, rfl, rfl⟩ := List.map_eq_singleton_iff.mp hcs
      exact .one (hdigit hc)
  | next _ hc ih =>
      obtain ⟨before, last, rfl, hbefore, hlast⟩ := List.map_eq_append_iff.mp hcs
      obtain ⟨c, rfl, rfl⟩ := List.map_eq_singleton_iff.mp hlast
      exact .next (ih hbefore) (hdigit hc)
  | grouped _ hc ih =>
      obtain ⟨before, last, rfl, hbefore, hlast⟩ := List.map_eq_append_iff.mp hcs
      obtain ⟨mark, last, rfl, hfirst, hlast⟩ := List.map_eq_cons_iff.mp hlast
      obtain ⟨c, rfl, rfl⟩ := List.map_eq_singleton_iff.mp hlast
      obtain rfl := hmark hfirst
      exact .grouped (ih hbefore) (hdigit hc)

/-- **The reader reads the digits that denote a number as the number, and no others.** -/
theorem readDigits?_plain {digits : List Char} {n : Nat} :
    readDigits? 16 0 true (digits.map plain) = some n ↔ DigitsDenote digits n := by
  constructor
  · intro h
    exact (denotes_of_readDigits? h).of_map denotes_plain.mp plain_eq_underscore.mp
  · intro h
    induction h with
    | one hc =>
        refine readDigits?_cons.mpr (Or.inr ⟨hc.plain_ne rfl, _, hc.lt, digitValue?_plain hc, ?_⟩)
        rw [Nat.zero_mul, Nat.zero_add]
        rfl
    | next _ hc ih =>
        rw [List.map_append]
        exact readDigits?_concat ih (hc.plain_ne rfl) (digitValue?_plain hc) hc.lt
    | grouped _ hc ih =>
        rw [List.map_append, readDigits?_append ih]
        refine readDigits?_cons.mpr (Or.inl ⟨rfl, rfl, ?_⟩)
        exact readDigits?_cons.mpr (Or.inr ⟨hc.plain_ne rfl, _, hc.lt, digitValue?_plain hc, rfl⟩)

theorem DigitsDenote.begins {digits : List Char} {n : Nat} (h : DigitsDenote digits n) :
    ∃ c d rest, digits = c :: rest ∧ DigitDenotes c d := by
  induction h with
  | one hc => exact ⟨_, _, [], rfl, hc⟩
  | next _ _ ih =>
      obtain ⟨c, d, rest, rfl, hc⟩ := ih
      exact ⟨c, d, _, rfl, hc⟩
  | grouped _ _ ih =>
      obtain ⟨c, d, rest, rfl, hc⟩ := ih
      exact ⟨c, d, _, rfl, hc⟩

theorem DigitsDenote.forall {P : Char → Prop} (hdigit : ∀ {c d}, DigitDenotes c d → P c)
    (hmark : P '_') {digits : List Char} {n : Nat} (h : DigitsDenote digits n) :
    ∀ c ∈ digits, P c := by
  induction h with
  | one hc => simpa using hdigit hc
  | next _ hc ih =>
      rw [List.forall_mem_append, List.forall_mem_singleton]
      exact ⟨ih, hdigit hc⟩
  | grouped _ hc ih =>
      rw [List.forall_mem_append, List.forall_mem_cons, List.forall_mem_singleton]
      exact ⟨ih, hmark, hdigit hc⟩

/-! ## Signs and marks -/

theorem SignDenotes.of_plain {sign : List Char} {negative : Bool}
    (h : SignDenotes (sign.map plain) negative) : SignDenotes sign negative := by
  generalize hcs : sign.map plain = cs at h
  cases h with
  | none =>
      obtain rfl := List.map_eq_nil_iff.mp hcs
      exact .none
  | plus =>
      obtain ⟨c, rfl, hc⟩ := List.map_eq_singleton_iff.mp hcs
      obtain rfl := (plain_eq (by decide)).mp hc
      exact .plus
  | minus =>
      obtain ⟨c, rfl, hc⟩ := List.map_eq_singleton_iff.mp hcs
      obtain rfl := (plain_eq (by decide)).mp hc
      exact .minus

/-- A sign is split off from what does not begin with another one. -/
theorem splitSign_plain {sign : List Char} {negative : Bool} (h : SignDenotes sign negative)
    {c : Char} {d : Nat} (hc : DigitDenotes c d) (rest : List Char) :
    splitSign ((sign ++ c :: rest).map plain) = (negative, (c :: rest).map plain) := by
  cases h with
  | none =>
      have hminus := hc.plain_ne (a := '-') rfl
      have hplus := hc.plain_ne (a := '+') rfl
      rw [List.nil_append, List.map_cons, splitSign]
      · intro _ heq
        exact hminus (List.cons.inj heq).1
      · intro _ heq
        exact hplus (List.cons.inj heq).1
  | plus => rfl
  | minus => rfl

theorem splitSign_parts (cs : List Char) :
    ∃ sign, SignDenotes sign (splitSign cs).1 ∧ cs = sign ++ (splitSign cs).2 := by
  unfold splitSign
  split
  · exact ⟨_, .minus, rfl⟩
  · exact ⟨_, .plus, rfl⟩
  · exact ⟨_, .none, rfl⟩

theorem plain_eq_mark {c x : Char} (hx : x = 'x' ∨ x = 'X') : plain c = x ↔ c = x :=
  plain_eq (by rcases hx with rfl | rfl <;> decide)

theorem HexMark.of_plain {mark : List Char} (h : HexMark (mark.map plain)) : HexMark mark := by
  generalize hcs : mark.map plain = cs at h
  cases h with
  | none =>
      obtain rfl := List.map_eq_nil_iff.mp hcs
      exact .none
  | bare hc hx =>
      obtain ⟨c, _, rfl, rfl, hrest⟩ := List.map_eq_cons_iff.mp hcs
      obtain ⟨x, rfl, hlast⟩ := List.map_eq_singleton_iff.mp hrest
      obtain rfl := (plain_eq_mark hx).mp hlast
      exact .bare (denotes_plain.mp hc) hx
  | grouped hc hx =>
      obtain ⟨c, _, rfl, rfl, hrest⟩ := List.map_eq_cons_iff.mp hcs
      obtain ⟨x, _, rfl, hnext, hrest⟩ := List.map_eq_cons_iff.mp hrest
      obtain ⟨mark, rfl, hlast⟩ := List.map_eq_singleton_iff.mp hrest
      obtain rfl := (plain_eq_mark hx).mp hnext
      obtain rfl := plain_eq_underscore.mp hlast
      exact .grouped (denotes_plain.mp hc) hx

theorem dropHexMark_parts (cs : List Char) : ∃ mark, HexMark mark ∧ cs = mark ++ dropHexMark cs := by
  unfold dropHexMark
  split
  · split
    · rename_i x _ hx
      have hzero : DigitDenotes '0' 0 := .decimal rfl
      have hmark : x = 'x' ∨ x = 'X' := by simpa using hx
      split
      · exact ⟨_, .grouped hzero hmark, rfl⟩
      · exact ⟨_, .bare hzero hmark, rfl⟩
    · exact ⟨_, .none, rfl⟩
  · exact ⟨_, .none, rfl⟩

/-- Nothing is taken off digits alone. -/
theorem dropHexMark_of_readDigits? {cs : List Char} {n : Nat}
    (h : readDigits? 16 0 true cs = some n) : dropHexMark cs = cs := by
  unfold dropHexMark
  split
  · rename_i x rest
    split
    · rename_i hx
      -- the letter of the mark is no digit, so the zero in front of it could not be read on from
      rcases readDigits?_cons.mp h with ⟨hfirst, _⟩ | ⟨_, _, _, _, hrest⟩
      · exact absurd hfirst (by decide)
      · rw [Bool.or_eq_true, beq_iff_eq, beq_iff_eq] at hx
        rcases hx with rfl | rfl <;> exact absurd hrest (by simp [readDigits?, digitValue?])
    · rfl
  · rfl

theorem DigitDenotes.plain_zero {c : Char} (h : DigitDenotes c 0) : plain c = '0' := by
  have hzero : '0'.toNat = 48 := rfl
  rw [← Char.toNat_inj, hzero]
  rcases digitDenotes_iff.mp (denotes_plain.mpr h) with hdecimal | ⟨hten, _⟩
  · rw [decimalDigit?_ascii h.plain_ascii] at hdecimal
    split at hdecimal
    · rename_i hdigit
      have hvalue := Option.some.inj hdecimal
      omega
    · exact absurd hdecimal (by simp)
  · omega

theorem dropHexMark_plain {mark digits : List Char} {n : Nat} (h : HexMark mark)
    (hdigits : DigitsDenote digits n) :
    dropHexMark ((mark ++ digits).map plain) = digits.map plain := by
  cases h with
  | none => exact dropHexMark_of_readDigits? (readDigits?_plain.mpr hdigits)
  | @bare c x hc hx =>
      obtain ⟨first, _, rest, rfl, hfirst⟩ := hdigits.begins
      have hx' := (plain_eq_mark hx).mpr rfl
      simp only [List.cons_append, List.nil_append, List.map_cons, hc.plain_zero, hx']
      rw [dropHexMark, if_pos (by simpa using hx)]
      -- the digits do not begin with an underscore
      intro _ heq
      exact hfirst.plain_ne rfl (List.cons.inj heq).1
  | @grouped c x hc hx =>
      have hx' := (plain_eq_mark hx).mpr rfl
      have hunderscore : plain '_' = '_' := rfl
      simp only [List.cons_append, List.nil_append, List.map_cons, hc.plain_zero, hx', hunderscore]
      rw [dropHexMark, if_pos (by simpa using hx)]

theorem HexMark.begins {mark digits : List Char} {n : Nat} (h : HexMark mark)
    (hdigits : DigitsDenote digits n) :
    ∃ c d rest, mark ++ digits = c :: rest ∧ DigitDenotes c d := by
  cases h with
  | none => exact hdigits.begins
  | bare hc _ => exact ⟨_, 0, _, rfl, hc⟩
  | grouped hc _ => exact ⟨_, 0, _, rfl, hc⟩

/-! ## Numerals -/

/-- What holds of digits, signs, marks and underscores holds of all that stands between the blanks. -/
theorem forall_mem_word {P : Char → Prop} (hdigit : ∀ {c d}, DigitDenotes c d → P c)
    (hother : ∀ c ∈ ['+', '-', 'x', 'X', '_'], P c) {sign mark digits : List Char} {negative : Bool}
    {n : Nat} (hsign : SignDenotes sign negative) (hmark : HexMark mark)
    (hdigits : DigitsDenote digits n) : ∀ c ∈ sign ++ (mark ++ digits), P c := by
  simp only [List.forall_mem_cons] at hother
  obtain ⟨hplus, hminus, hsmall, hcapital, hunderscore, _⟩ := hother
  rw [List.forall_mem_append, List.forall_mem_append]
  refine ⟨?_, ?_, hdigits.forall hdigit hunderscore⟩
  · cases hsign with
    | none => simp
    | plus => simpa using hplus
    | minus => simpa using hminus
  · cases hmark with
    | none => simp
    | bare hc hx => rcases hx with rfl | rfl <;> simp [hdigit hc, hsmall, hcapital]
    | grouped hc hx => rcases hx with rfl | rfl <;> simp [hdigit hc, hsmall, hcapital, hunderscore]

/-- A character that is none of these, and no blank, is in no numeral. -/
theorem NumeralDenotes.not_mem {text : List Char} {value : Int} (h : NumeralDenotes text value)
    {a : Char} (hplain : plain a = a) (hvalue : digitValue? a = none) (hblank : isBlank a = false)
    (hother : a ∉ ['+', '-', 'x', 'X', '_']) : a ∉ text := by
  obtain ⟨lead, sign, mark, digits, trail, _, _, rfl, hlead, htrail, hsign, hmark, hdigits, _⟩ := h
  have hblanks : ∀ {cs : List Char}, (∀ c ∈ cs, isBlank c = true) → a ∉ cs := by
    intro cs hcs hmem
    rw [hcs a hmem] at hblank
    exact absurd hblank (by simp)
  have hword : ∀ c ∈ sign ++ (mark ++ digits), c ≠ a := by
    refine forall_mem_word (fun hc heq => ?_) (fun c hc heq => ?_) hsign hmark hdigits
    · subst heq
      exact hc.plain_ne hvalue hplain
    · subst heq
      exact hother hc
  rw [List.mem_append, List.mem_append]
  intro hmem
  rcases hmem with (hmem | hmem) | hmem
  · exact hblanks hlead hmem
  · exact hword a hmem rfl
  · exact hblanks htrail hmem

/-- What is left between the blanks stood between blanks. -/
theorem numeralChars_parts (text : String) :
    ∃ lead word trail, text.toList = lead ++ word ++ trail ∧ (∀ c ∈ lead, isBlank c = true) ∧
      (∀ c ∈ trail, isBlank c = true) ∧ word.map plain = numeralChars (trim text) := by
  obtain ⟨lead, trail, htext, hlead, htrail⟩ := trimChars_parts isBlank text.toList
  obtain ⟨before, after, hword, hbefore, hafter⟩ :=
    trimChars_parts isSpacing ((trim text).toList.map plain)
  obtain ⟨front, last, hsplit, hfront, rfl⟩ := List.map_eq_append_iff.mp hword
  obtain ⟨first, word, rfl, rfl, hmiddle⟩ := List.map_eq_append_iff.mp hfront
  rw [trim, String.toList_ofList] at hsplit
  refine ⟨lead ++ first, word, last ++ trail, ?_, ?_, ?_, hmiddle⟩
  · rw [htext, hsplit]
    simp only [List.append_assoc]
  · rw [List.forall_mem_append]
    refine ⟨hlead, fun c hc => isBlank_of_isSpacing_plain ?_⟩
    exact hbefore _ (List.mem_map_of_mem hc)
  · rw [List.forall_mem_append]
    refine ⟨fun c hc => isBlank_of_isSpacing_plain ?_, htrail⟩
    exact hafter _ (List.mem_map_of_mem hc)

/-- A word without blanks is left as it is. -/
theorem numeralChars_between {text : String} {lead word trail : List Char}
    (htext : text.toList = lead ++ word ++ trail) (hlead : ∀ c ∈ lead, isBlank c = true)
    (htrail : ∀ c ∈ trail, isBlank c = true) (hword : ∀ c ∈ word, isBlank c = false) :
    numeralChars (trim text) = word.map plain := by
  have hplain : ∀ p ∈ word.map plain, isSpacing p = false := by
    intro p hp
    obtain ⟨c, hc, rfl⟩ := List.mem_map.mp hp
    cases hspacing : isSpacing (plain c) with
    | false => rfl
    | true =>
        have hblank := isBlank_of_isSpacing_plain hspacing
        rw [hword c hc] at hblank
        exact absurd hblank Bool.false_ne_true
  have htrimmed : trimChars isSpacing ([] ++ word.map plain ++ []) = word.map plain :=
    trimChars_between (by simp) (by simp) hplain
  rw [List.nil_append, List.append_nil] at htrimmed
  rw [numeralChars, trim, String.toList_ofList, htext, trimChars_between hlead htrail hword, htrimmed]

theorem hexNumeral?_eq_some {text : String} {value : Int} {negative : Bool} {cs : List Char}
    (h : splitSign (numeralChars text) = (negative, cs)) :
    hexNumeral? text = some value ↔
      ∃ n, readDigits? 16 0 true (dropHexMark cs) = some n ∧ signed negative n = value := by
  simp only [hexNumeral?, h]
  exact Option.map_eq_some_iff

/-- **The reader reads the numerals of the grammar, each as the number that it denotes.** -/
theorem hexNumeral?_trim {text : String} {value : Int} :
    hexNumeral? (trim text) = some value ↔ NumeralDenotes text.toList value := by
  constructor
  · intro h
    obtain ⟨lead, word, trail, htext, hlead, htrail, hword⟩ := numeralChars_parts text
    -- the sign, the mark and the digits are found one after another, and then in the text
    obtain ⟨signed, hsign, hrest⟩ := splitSign_parts (word.map plain)
    rcases hsplit : splitSign (word.map plain) with ⟨negative, unsigned⟩
    rw [hsplit] at hsign hrest
    rw [hword] at hsplit
    obtain ⟨n, hread, rfl⟩ := (hexNumeral?_eq_some hsplit).mp h
    obtain ⟨marked, hmark, hdigits⟩ := dropHexMark_parts unsigned
    obtain ⟨sign, unmarked, rfl, rfl, hunmarked⟩ := List.map_eq_append_iff.mp hrest
    rw [hdigits] at hunmarked
    obtain ⟨mark, digits, rfl, rfl, hplain⟩ := List.map_eq_append_iff.mp hunmarked
    rw [← hplain] at hread
    exact ⟨lead, sign, mark, digits, trail, negative, n, htext, hlead, htrail, hsign.of_plain,
      hmark.of_plain, readDigits?_plain.mp hread, rfl⟩
  · rintro ⟨lead, sign, mark, digits, trail, negative, n, htext, hlead, htrail, hsign, hmark, hdigits,
      rfl⟩
    have hword : ∀ c ∈ sign ++ (mark ++ digits), isBlank c = false :=
      forall_mem_word DigitDenotes.not_blank (by simp [isBlank]) hsign hmark hdigits
    obtain ⟨c, d, rest, hbegins, hc⟩ := hmark.begins hdigits
    have hsplit := splitSign_plain hsign hc rest
    rw [← hbegins, ← numeralChars_between htext hlead htrail hword] at hsplit
    refine (hexNumeral?_eq_some hsplit).mpr ⟨n, ?_, rfl⟩
    rw [dropHexMark_plain hmark hdigits, readDigits?_plain.mpr hdigits]

theorem hexNumeral?_ofList {cs : List Char} {value : Int} :
    hexNumeral? (trim (String.ofList cs)) = some value ↔ NumeralDenotes cs value := by
  rw [hexNumeral?_trim, String.toList_ofList]

theorem hexNumeral?_ofList_none {cs : List Char} :
    hexNumeral? (trim (String.ofList cs)) = none ↔ ∀ value, ¬ NumeralDenotes cs value := by
  rw [Option.eq_none_iff_forall_ne_some]
  exact forall_congr' fun value => not_congr hexNumeral?_ofList

/-- A numeral is not blank. -/
theorem NumeralDenotes.filled {text : List Char} {value : Int} (h : NumeralDenotes text value) :
    ∃ c ∈ text, isBlank c = false := by
  obtain ⟨lead, sign, mark, digits, trail, _, _, rfl, _, _, _, _, hdigits, _⟩ := h
  obtain ⟨c, d, rest, rfl, hc⟩ := hdigits.begins
  exact ⟨c, by simp, hc.not_blank⟩

/-! ## Numbers as they may be written -/

/-- The text is the number in hexadecimal digits of either case, filled up with zeros to any width, with
or without a mark in front of them and blanks around them. -/
def Renders (text : List Char) (n : Nat) : Prop :=
  ∃ lead mark digits trail width, text = lead ++ (mark ++ digits) ++ trail ∧
    (∀ c ∈ lead, isBlank c = true) ∧ (∀ c ∈ trail, isBlank c = true) ∧
    mark ∈ [[], ['0', 'x'], ['0', 'X']] ∧ digits.map Char.toUpper = (hex width n).toList

/-- A small letter becomes the capital one, and nothing else changes. -/
theorem toUpper_cases (c : Char) :
    (97 ≤ c.toNat ∧ c.toNat ≤ 122 ∧ c.toUpper.toNat = c.toNat - 32) ∨ c.toUpper = c := by
  by_cases h : 'a'.val ≤ c.val ∧ c.val ≤ 'z'.val
  · have hlow : 97 ≤ c.toNat := h.1
    have hhigh : c.toNat ≤ 122 := h.2
    have hupper : c.toUpper.val = c.val + ('A'.val - 'a'.val) := by
      delta Char.toUpper
      rw [dif_pos h]
    refine Or.inl ⟨hlow, hhigh, ?_⟩
    have hnat := congrArg UInt32.toNat hupper
    have hshift : ('A'.val - 'a'.val).toNat = 2 ^ 32 - 32 := rfl
    rw [UInt32.toNat_add, hshift, Char.toNat_val, Char.toNat_val] at hnat
    omega
  · exact Or.inr (dif_neg h)

/-- A digit is worth the same in either case. -/
theorem denotes_of_toUpper {c : Char} {d : Nat} (h : DigitDenotes c.toUpper d) :
    DigitDenotes c d := by
  rcases toUpper_cases c with ⟨hlow, hhigh, hc⟩ | hc
  · rw [digitDenotes_iff, decimalDigit?_ascii (by omega), if_neg (by omega)] at h
    rcases h with h | ⟨hten, hd, hletter⟩
    · exact absurd h (by simp)
    · exact digitDenotes_iff.mpr (Or.inr ⟨hten, hd, by omega⟩)
  · exact hc ▸ h

theorem underscore_of_toUpper {c : Char} (h : c.toUpper = '_') : c = '_' := by
  rcases toUpper_cases c with ⟨_, _, hc⟩ | hc
  · have hvalue : '_'.toNat = 95 := rfl
    rw [h] at hc
    omega
  · exact hc ▸ h

/-- **A number is denoted by all its renderings.** -/
theorem Renders.denotes {text : List Char} {n : Nat} (h : Renders text n) :
    NumeralDenotes text n := by
  obtain ⟨lead, mark, digits, trail, width, rfl, hlead, htrail, hmark, hdigits⟩ := h
  have hmarked : HexMark mark := by
    have hzero : DigitDenotes '0' 0 := .decimal rfl
    simp only [List.mem_cons, List.not_mem_nil, or_false] at hmark
    rcases hmark with rfl | rfl | rfl
    · exact .none
    · exact .bare hzero (Or.inl rfl)
    · exact .bare hzero (Or.inr rfl)
  have hupper : DigitsDenote (digits.map Char.toUpper) n := by
    rw [hdigits]
    exact denotes_of_readDigits? (readDigits?_hex width n true)
  exact ⟨lead, [], mark, digits, trail, false, n, rfl, hlead, htrail, .none, hmarked,
    hupper.of_map denotes_of_toUpper underscore_of_toUpper, rfl⟩

end ChipEight.Text
