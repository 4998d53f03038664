import ChipEight.Inspector
import ChipEight.Proofs.Columns

/-!
# The trace in lines

The inspector shows the addresses of the last steps eight to a line, the last step first. What is
shown can be read back: the lines are split at their blanks, and the parts of one line after the
other are the addresses again.

How texts are laid out in lines is said by `LaidOut`, which knows nothing of how the lines were made.
Whatever is laid out has as few lines as there can be, since only the last line has room left. So the
number of lines need not be counted while they are made.
-/

namespace ChipEight

open Text

namespace Inspector

/-! ## Texts in lines -/

/-- The texts in a line, which have one space between them. -/
def parts (line : String) : List String := splitAt ' ' line

/-- Texts are laid out in lines of so many: nothing is lost, and only the last line has room left. -/
structure LaidOut (width : Nat) (lines texts : List String) : Prop where
  /-- The texts are read back line by line. -/
  content : lines.flatMap parts = texts
  /-- Each line but the last is full. -/
  full : ∀ line ∈ lines.dropLast, (parts line).length = width
  /-- No line has too many. -/
  room : ∀ line ∈ lines, (parts line).length ≤ width

theorem parts_ne_nil (line : String) : parts line ≠ [] := by
  have hlength := (splitChars_spec ' ' line.toList).1
  intro hnil
  rw [parts, splitAt, List.map_eq_nil_iff] at hnil
  rw [hnil] at hlength
  exact absurd hlength (by simp)

namespace LaidOut

variable {width : Nat} {lines texts line : List String}

theorem nil (width : Nat) : LaidOut width [] [] :=
  ⟨rfl, fun _ h => absurd h List.not_mem_nil, fun _ h => absurd h List.not_mem_nil⟩

theorem ne_nil (h : LaidOut width lines texts) (hlines : lines ≠ []) : texts ≠ [] := by
  obtain ⟨first, rest, rfl⟩ := List.exists_cons_of_ne_nil hlines
  rw [← h.content, List.flatMap_cons]
  exact fun hnil => parts_ne_nil first (List.append_eq_nil_iff.mp hnil).1

/-- One line more in front, which is full if it does not stay the last one. -/
theorem cons (h : LaidOut width lines texts) (hsome : line ≠ [])
    (hblank : ∀ text ∈ line, ' ' ∉ text.toList) (hroom : line.length ≤ width)
    (hfull : texts ≠ [] → line.length = width) :
    LaidOut width (" ".intercalate line :: lines) (line ++ texts) := by
  have hparts : parts (" ".intercalate line) = line := splitAt_intercalate rfl hsome hblank
  refine ⟨?_, ?_, ?_⟩
  · rw [List.flatMap_cons, hparts, h.content]
  · cases lines with
    | nil => exact fun _ hmem => absurd hmem List.not_mem_nil
    | cons next rest =>
        rw [List.dropLast_cons_of_ne_nil (List.cons_ne_nil _ _)]
        refine List.forall_mem_cons.mpr ⟨?_, h.full⟩
        rw [hparts]
        exact hfull (h.ne_nil (List.cons_ne_nil _ _))
  · refine List.forall_mem_cons.mpr ⟨?_, h.room⟩
    rw [hparts]
    exact hroom

/-- **As many lines as are needed**: one more than there are full ones. -/
theorem length_le (h : LaidOut width lines texts) {n : Nat} (hn : texts.length ≤ width * n) :
    lines.length ≤ n := by
  rcases List.eq_nil_or_concat lines with rfl | ⟨before, last, rfl⟩
  · exact Nat.zero_le n
  · have hcontent := h.content
    have hfull := h.full
    rw [List.concat_eq_append] at hcontent hfull
    rw [List.dropLast_concat] at hfull
    have hbefore : (before.flatMap parts).length = before.length * width := by
      rw [List.length_flatMap, List.map_congr_left hfull, List.map_const', List.sum_replicate_nat]
    have hlast : 0 < (parts last).length := List.length_pos_iff.mpr (parts_ne_nil last)
    rw [← hcontent, List.flatMap_append, List.length_append, hbefore, List.flatMap_singleton] at hn
    have hlt : width * before.length < width * n := by
      rw [Nat.mul_comm width before.length]
      omega
    rw [List.concat_eq_append, List.length_append, List.length_singleton]
    exact Nat.lt_of_mul_lt_mul_left hlt

end LaidOut

/-- **Making lines lays the texts out**, if it may make a line for each of them. -/
theorem inLines_laidOut {width : Nat} (hwidth : 0 < width) {lines : Nat} {texts : List String}
    (henough : texts.length ≤ lines) (hblank : ∀ text ∈ texts, ' ' ∉ text.toList) :
    LaidOut width (inLines width lines texts) texts := by
  induction lines generalizing texts with
  | zero =>
      obtain rfl := List.eq_nil_of_length_eq_zero (Nat.le_zero.mp henough)
      exact .nil width
  | succ lines ih =>
      cases texts with
      | nil => exact .nil width
      | cons first rest =>
          let line := (first :: rest).take width
          let later := (first :: rest).drop width
          have hline : line ≠ [] := by
            rw [Ne, List.take_eq_nil_iff, not_or]
            exact ⟨Nat.ne_of_gt hwidth, List.cons_ne_nil _ _⟩
          have hfull : later ≠ [] → line.length = width := by
            -- what is left over did not fit
            intro hleft
            have hlonger : 0 < later.length := List.length_pos_iff.mpr hleft
            rw [List.length_drop] at hlonger
            rw [List.length_take]
            omega
          have hlater : LaidOut width (inLines width lines later) later := by
            refine ih ?_ fun text htext => hblank text (List.mem_of_mem_drop htext)
            rw [List.length_drop]
            omega
          have hlaid : LaidOut width (inLines width (lines + 1) (first :: rest)) (line ++ later) :=
            hlater.cons hline (fun text htext => hblank text (List.mem_of_mem_take htext))
              (List.length_take_le _ _) hfull
          rwa [List.take_append_drop] at hlaid

example : inLines 2 3 ["204", "202", "200"] = ["204 202", "200"] := by decide

/-! ## The lines of the trace -/

theorem traceLines_nil {i : Inspector} (h : i.trace = []) : i.traceLines = ["<empty>"] := by
  rw [traceLines, h]

/-- **The trace is laid out in lines of eight**, the last address first. -/
theorem traceLines_laidOut {i : Inspector} (h : i.trace ≠ []) :
    LaidOut 8 i.traceLines (i.recorded.reverse.map (hex 3)) := by
  have hlines : i.traceLines = inLines traceWidth i.trace.length (i.trace.map (hex 3)) := by
    rw [traceLines]
    split
    · contradiction
    · rfl
  rw [hlines, recorded, List.reverse_reverse]
  refine inLines_laidOut (by decide) (Nat.le_of_eq (List.length_map _)) fun text htext => ?_
  obtain ⟨pc, _, rfl⟩ := List.mem_map.mp htext
  exact not_mem_hex (by decide) 3 pc

/-- An address below 4096 has three digits, and they are read as the address. -/
theorem address_digits {pc : Int} (hlow : 0 ≤ pc) (hhigh : pc < 0x1000) :
    (hex 3 pc).length = 3 ∧ readDigits? 16 0 true (hex 3 pc).toList = some pc.toNat := by
  obtain ⟨n, rfl⟩ := Int.eq_ofNat_of_zero_le hlow
  rw [← String.length_toList]
  exact ⟨hex_length (by decide) (by omega), readDigits?_hex 3 n true⟩

end Inspector

end ChipEight
