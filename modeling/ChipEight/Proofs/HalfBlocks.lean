import ChipEight.Proofs.Columns
import ChipEight.Proofs.Sprite
import ChipEight.Proofs.Success
import ChipEight.Screen.Render
import Mathlib.Data.List.TakeWhile

/-!
# The text of a screen can be read back

A character of the text stands for two pixels above each other. Two things are not in the text: the
blanks at the end of a line and, if the number of rows in use is odd, a row below the last. Both are
known to be dark, so the text can still be read (`textRows?`). A line is filled up with blanks to
the width of the screen and each character is taken for its two pixels, and that gives back the rows
in use.

So the text tells everything about the rows in use, and it tells nothing else: a screen with other
pixels below them has the same text.
-/

namespace ChipEight

/-! ## Rows and columns -/

/-- The pixels of a row as zeros and ones. -/
def PixelRow.numbers (pixels : PixelRow) : List Nat :=
  (List.range screenWidth).map fun column => if pixels.lit column then 1 else 0

/-- Rows with the same zeros and ones are the same. -/
theorem PixelRow.numbers_injective {a b : PixelRow} (h : a.numbers = b.numbers) : a = b := by
  refine BitVec.eq_of_getMsbD_eq ?_
  intro column hcolumn
  have hnumber := List.map_inj_left.mp h column (List.mem_range.mpr hcolumn)
  change a.lit column = b.lit column
  cases ha : a.lit column <;> cases hb : b.lit column <;> simp_all

theorem PixelRow.numbers_zero : PixelRow.numbers 0 = List.replicate screenWidth 0 := by
  unfold numbers
  simp only [lit_zero, Bool.false_eq_true, if_false, List.map_const', List.length_range]

namespace Screen

variable (s : Screen)

/-- A row by its number, dark outside. -/
def row (k : Nat) : PixelRow := s.grid[k]?.getD 0

theorem lit_eq (column row : Nat) : s.lit column row = (s.row row).lit column := by
  unfold lit Screen.row
  cases s.grid[row]? with
  | none => exact (PixelRow.lit_zero column).symm
  | some pixels => rfl

/-- All rows are the rows with a number below the height. -/
theorem map_grid {α : Type} (shown : PixelRow → α) :
    s.grid.toList.map shown = (List.range screenHeight).map fun k => shown (s.row k) := by
  refine List.ext_getElem (by simp) ?_
  intro k hk hk'
  have hrow : k < screenHeight := by simpa using hk
  simp [Screen.row, Vector.getElem?_eq_getElem hrow]

theorem pixels_eq : s.pixels = (List.range screenHeight).map fun k => (s.row k).numbers :=
  s.map_grid PixelRow.numbers

end Screen

/-! ## Text that can be read back -/

/-- The two pixels that a character shows, the upper one first. -/
def blockPixels? : Char → Option (Bool × Bool)
  | '█' => some (true, true)
  | '▀' => some (true, false)
  | '▄' => some (false, true)
  | ' ' => some (false, false)
  | _ => none

theorem blockPixels?_halfBlock (pixels : Bool × Bool) :
    blockPixels? (halfBlock pixels.1 pixels.2) = some pixels := by
  obtain ⟨upper, lower⟩ := pixels
  cases upper <;> cases lower <;> rfl

theorem halfBlock_ne_lineEnd (upper lower : Bool) : halfBlock upper lower ≠ '\n' := by
  cases upper <;> cases lower <;> decide

/-- The two rows that a line shows when it is filled up with blanks to the width of the screen. -/
def lineRows? (line : String) : Option (List (List Nat)) :=
  ((line.toList.rightpad screenWidth ' ').mapM blockPixels?).map fun pixels =>
    [pixels.map fun p => if p.1 then 1 else 0, pixels.map fun p => if p.2 then 1 else 0]

/-- The rows that the lines of a text show. -/
def textRows? (text : String) : Option (List (List Nat)) :=
  ((Text.splitAt '\n' text).mapM lineRows?).map List.flatten

namespace Text

variable {blank : Char → Bool} {cs : List Char}

/-- What is left ends in no blank. -/
theorem getLast?_dropTrailing {c : Char} (h : (dropTrailing blank cs).getLast? = some c) :
    blank c = false := by
  unfold dropTrailing at h
  rw [List.getLast?_reverse] at h
  have hfirst := List.head?_dropWhile_not blank cs.reverse
  rwa [h] at hfirst

theorem dropTrailing_sublist : (dropTrailing blank cs).Sublist cs := by
  unfold dropTrailing
  have hfewer := (List.dropWhile_sublist blank (l := cs.reverse)).reverse
  rwa [List.reverse_reverse] at hfewer

/-- Only what is blank is left out, so there is some number of marks behind what is left. -/
theorem dropTrailing_append (mark : Char) (cs : List Char) :
    ∃ n, cs = dropTrailing (· == mark) cs ++ List.replicate n mark := by
  let trailing := cs.reverse.takeWhile (· == mark)
  have hmarks : trailing = List.replicate trailing.length mark := by
    refine List.eq_replicate_iff.mpr ⟨rfl, ?_⟩
    intro c hc
    have hmark := List.mem_takeWhile_imp hc
    exact beq_iff_eq.mp hmark
  refine ⟨trailing.length, ?_⟩
  calc cs = (trailing ++ cs.reverse.dropWhile (· == mark)).reverse := by
        rw [List.takeWhile_append_dropWhile, List.reverse_reverse]
    _ = dropTrailing (· == mark) cs ++ trailing.reverse := List.reverse_append
    _ = dropTrailing (· == mark) cs ++ List.replicate trailing.length mark := by
        rw [hmarks, List.reverse_replicate, List.length_replicate]

/-- Marks that were left out at the end are put back by filling up. -/
theorem rightpad_dropTrailing (mark : Char) (cs : List Char) :
    (dropTrailing (· == mark) cs).rightpad cs.length mark = cs := by
  obtain ⟨n, hn⟩ := dropTrailing_append mark cs
  have hlength := congrArg List.length hn
  rw [List.length_append, List.length_replicate] at hlength
  have hcount : cs.length - (dropTrailing (· == mark) cs).length = n := by omega
  unfold List.rightpad
  rw [hcount, ← hn]

end Text

namespace Screen

variable (s : Screen)

/-- The characters of a line before the blanks at its end are left out. -/
def lineChars (top : Nat) : List Char :=
  (List.range screenWidth).map fun column =>
    halfBlock ((s.rowInUse top).lit column) ((s.rowInUse (top + 1)).lit column)

theorem textLine_toList (top : Nat) :
    (s.textLine top).toList = Text.dropTrailing (· == ' ') (s.lineChars top) :=
  String.toList_ofList

theorem lineChars_length (top : Nat) : (s.lineChars top).length = screenWidth := by
  unfold lineChars
  rw [List.length_map, List.length_range]

/-- **A line is read as the two rows that it shows.** -/
theorem lineRows?_textLine (top : Nat) :
    lineRows? (s.textLine top) =
      some [(s.rowInUse top).numbers, (s.rowInUse (top + 1)).numbers] := by
  have hfilled := Text.rightpad_dropTrailing ' ' (s.lineChars top)
  rw [lineChars_length] at hfilled
  -- each character is made from a pair of pixels
  have hpairs : s.lineChars top =
      ((List.range screenWidth).map fun column =>
        ((s.rowInUse top).lit column, (s.rowInUse (top + 1)).lit column)).map
          fun pixels => halfBlock pixels.1 pixels.2 := by
    rw [List.map_map]
    rfl
  unfold lineRows?
  rw [textLine_toList, hfilled, hpairs, mapM_map_eq_some blockPixels?_halfBlock, Option.map_some,
    List.map_map, List.map_map]
  rfl

theorem not_mem_textLine (top : Nat) : '\n' ∉ (s.textLine top).toList := by
  intro hmem
  rw [textLine_toList] at hmem
  obtain ⟨column, _, hcolumn⟩ := List.mem_map.mp (Text.dropTrailing_sublist.mem hmem)
  exact halfBlock_ne_lineEnd _ _ hcolumn

/-! ### All lines -/

/-- Two rows for each number are the rows up to twice as far. -/
theorem flatten_pairs {α : Type} (f : Nat → α) (n : Nat) :
    ((List.range n).map fun k => [f (2 * k), f (2 * k + 1)]).flatten =
      (List.range (2 * n)).map f := by
  induction n with
  | zero => rfl
  | succ n ih =>
      rw [List.range_succ, List.map_append, List.flatten_append, ih, Nat.mul_succ, List.range_succ,
        List.range_succ]
      simp

/-- A row in use is there if no more rows are in use than there are. -/
theorem map_rowInUse {k : Nat} (h : (k : Int) ≤ s.height) (hrows : k ≤ screenHeight) :
    (List.range k).map (fun row => (s.rowInUse row).numbers) = s.pixels.take k := by
  rw [pixels_eq, ← List.map_take, List.take_range, Nat.min_eq_left hrows]
  refine List.map_congr_left ?_
  intro row hrow
  have hlt := List.mem_range.mp hrow
  have huse : s.rowInUse row = s.row row := if_pos (by omega)
  rw [huse]

/-- The rows that the lines show are the rows in use, and a dark one if their number is odd. -/
theorem shown_rows (hsome : 0 < s.height) (h : s.height ≤ screenHeight) :
    (List.range (2 * ((s.height.toNat + 1) / 2))).map (fun row => (s.rowInUse row).numbers) =
      s.pixels.take s.height.toNat ++
        List.replicate (s.height.toNat % 2) (List.replicate screenWidth 0) := by
  have hrows := s.map_rowInUse (k := s.height.toNat) (by omega) (by omega)
  rcases Nat.mod_two_eq_zero_or_one s.height.toNat with heven | hodd
  · have htwice : 2 * ((s.height.toNat + 1) / 2) = s.height.toNat := by omega
    rw [htwice, heven, hrows, List.replicate_zero, List.append_nil]
  · -- the row below the last one in use is shown dark
    have htwice : 2 * ((s.height.toNat + 1) / 2) = s.height.toNat + 1 := by omega
    have hbelow : s.rowInUse s.height.toNat = 0 := if_neg (by omega)
    rw [htwice, hodd, List.range_succ, List.map_append, hrows, List.map_singleton, hbelow,
      PixelRow.numbers_zero]
    rfl

theorem textLines_length : s.textLines.length = ((s.height + 1) / 2).toNat := by
  unfold textLines
  rw [List.length_map, List.length_range]

theorem splitAt_text (hsome : 0 < s.height) : Text.splitAt '\n' s.text = s.textLines := by
  have hlength := s.textLines_length
  refine Text.splitAt_intercalate rfl ?_ ?_
  · intro hnone
    rw [hnone, List.length_nil] at hlength
    omega
  · intro line hline
    obtain ⟨k, _, rfl⟩ := List.mem_map.mp hline
    exact s.not_mem_textLine (2 * k)

/-- **The text is read as the rows in use.** -/
theorem textRows?_text (hsome : 0 < s.height) (h : s.height ≤ screenHeight) :
    textRows? s.text = some (s.pixels.take s.height.toNat ++
      List.replicate (s.height.toNat % 2) (List.replicate screenWidth 0)) := by
  have hcount : ((s.height + 1) / 2).toNat = (s.height.toNat + 1) / 2 := by omega
  have hlines : s.textLines.mapM lineRows? =
      some ((List.range ((s.height.toNat + 1) / 2)).map fun k =>
        [(s.rowInUse (2 * k)).numbers, (s.rowInUse (2 * k + 1)).numbers]) := by
    unfold textLines
    rw [List.mapM_map, hcount]
    simp only [Function.comp_def, lineRows?_textLine]
    exact List.mapM_pure
  unfold textRows?
  rw [s.splitAt_text hsome, hlines, Option.map_some,
    flatten_pairs (fun row => (s.rowInUse row).numbers), s.shown_rows hsome h]

theorem tryText_eq (h : s.height ≤ screenHeight) : s.tryText = .ok s.text := by
  unfold tryText
  exact if_neg (by omega)

variable {s}

/-- The text depends on the rows in use alone. -/
theorem text_congr {s' : Screen} (hheight : s'.height = s.height)
    (h : s.height ≤ screenHeight)
    (hrows : s.pixels.take s.height.toNat = s'.pixels.take s.height.toNat) : s.text = s'.text := by
  have hrow : ∀ k, s.rowInUse k = s'.rowInUse k := by
    intro k
    unfold rowInUse
    rw [hheight]
    split
    · rw [← map_rowInUse s (by omega) (by omega), ← map_rowInUse s' (by omega) (by omega)] at hrows
      have hnumbers := List.map_inj_left.mp hrows k (List.mem_range.mpr (by omega))
      unfold rowInUse at hnumbers
      rw [hheight, if_pos (by omega), if_pos (by omega)] at hnumbers
      exact PixelRow.numbers_injective hnumbers
    · rfl
  unfold text textLines textLine
  simp only [hrow, hheight]

end Screen

/--
**The text of a screen loses nothing.**

A screen with some of its rows in use, and no more of them than there are, is shown as one line for
each two rows in use, rounded up. No line is longer than the screen is wide and none ends in a
blank. When the lines are filled up with blanks and each character is taken for its two pixels, what
is read are the rows in use, followed by a dark row if their number is odd. So two screens that use
as many rows have the same text exactly if these rows are the same.
-/
theorem text_lossless :
    (∀ s : Screen, 0 < s.height → s.height ≤ screenHeight →
      ∃ lines : List String, s.tryText = .ok ("\n".intercalate lines) ∧
        lines.length = (s.height.toNat + 1) / 2 ∧
        (∀ line ∈ lines, '\n' ∉ line.toList ∧ line.length ≤ screenWidth ∧
          line.toList.getLast? ≠ some ' ') ∧
        textRows? ("\n".intercalate lines) = some (s.pixels.take s.height.toNat ++
          List.replicate (s.height.toNat % 2) (List.replicate screenWidth 0))) ∧
    ∀ s s' : Screen, 0 < s.height → s.height ≤ screenHeight → s'.height = s.height →
      (s.tryText = s'.tryText ↔
        s.pixels.take s.height.toNat = s'.pixels.take s.height.toNat) := by
  constructor
  · intro s hsome h
    refine ⟨s.textLines, s.tryText_eq h, ?_, ?_, s.textRows?_text hsome h⟩
    · rw [s.textLines_length]
      omega
    · intro line hline
      obtain ⟨k, _, rfl⟩ := List.mem_map.mp hline
      refine ⟨s.not_mem_textLine (2 * k), ?_, ?_⟩
      · rw [← String.length_toList, s.textLine_toList, ← s.lineChars_length (2 * k)]
        exact Text.dropTrailing_sublist.length_le
      · intro hlast
        rw [s.textLine_toList] at hlast
        exact absurd (Text.getLast?_dropTrailing hlast) (by decide)
  · intro s s' hsome h hheight
    have h' : s'.height ≤ screenHeight := hheight ▸ h
    rw [s.tryText_eq h, s'.tryText_eq h']
    constructor
    · intro htext
      -- what is read from the one text is read from the other
      have hread := s.textRows?_text hsome h
      rw [Except.ok.inj htext, s'.textRows?_text (hheight ▸ hsome) h', hheight] at hread
      exact (List.append_cancel_right (Option.some.inj hread)).symm
    · intro hrows
      rw [Screen.text_congr hheight h hrows]

/-- Three rows are in use, the last one with its last pixel lit. A pixel in a row that is not in use
makes no difference. -/
theorem text_lossless_three_rows :
    let s : Screen := { grid := (Vector.replicate screenHeight 0).set 2 1, height := 3 }
    let other : Screen := { s with grid := s.grid.set 3 1 }
    s.tryText = other.tryText ∧
      ∃ lines : List String, s.tryText = .ok ("\n".intercalate lines) ∧ lines.length = 2 ∧
        textRows? ("\n".intercalate lines) =
          some [List.replicate 64 0, List.replicate 64 0, List.replicate 63 0 ++ [1],
            List.replicate 64 0] := by
  intro s other
  obtain ⟨lines, htext, hlength, _, hread⟩ := text_lossless.1 s (by decide) (by decide)
  have hheight : s.height.toNat = 3 := rfl
  have hrows : s.pixels.take 3 =
      [List.replicate 64 0, List.replicate 64 0, List.replicate 63 0 ++ [1]] := by
    dsimp only [s]
    decide
  rw [hheight] at hlength hread
  rw [hrows] at hread
  have hsame := (text_lossless.2 s other (by decide) (by decide) rfl).mpr rfl
  exact ⟨hsame, lines, htext, hlength, hread⟩

end ChipEight
