import ChipEight.FrameBudget
import Mathlib.Algebra.Ring.Int.Defs

/-!
# Steps are allotted evenly

At whole rates what is due by the end of a frame is a floor (`FrameBudget.dueBy`), and a frame is
allotted the difference to what was due before it. So the allotments of frames in a row add up to
the difference of two floors, however many there are (`allotments_sum`). A difference of floors is
the floor of the difference or one more, and that bounds every stretch of frames, a single one
included.
-/

namespace ChipEight

open Number

/-- The floor of a sum exceeds the floor of one part by the floor of the other, or by one more. -/
theorem floor_sub_floor {c : Int} (hc : 0 < c) (a b : Int) :
    (a + b) / c - a / c = b / c ∨ (a + b) / c - a / c = b / c + 1 := by
  rw [Int.add_ediv (by omega), Int.sign_eq_one_of_pos hc]
  split
  · exact Or.inr (by omega)
  · exact Or.inl (by omega)

namespace FrameBudget

/-- At whole rates the next frame is allotted what is due by its end, less what was before. -/
theorem next_whole {rate fps : Int} (hfps : 0 < fps) (frames issued : Int) :
    FrameBudget.next { rate := .whole rate, fps := .whole fps, frames, issued } =
      .ok ((frames + 1) * rate / fps - issued,
        { rate := .whole rate, fps := .whole fps, frames := frames + 1
          issued := (frames + 1) * rate / fps }) := by
  have hzero : (fps == 0) = false := beq_eq_false_iff_ne.mpr (by omega)
  have hfloor : ((frames + 1) * rate).fdiv fps = (frames + 1) * rate / fps :=
    Int.fdiv_eq_ediv_of_nonneg _ (by omega)
  simp only [next, due, Quantity.mul, Quantity.floorDiv, Quantity.toInt, bind, Except.bind, hzero,
    Bool.false_eq_true, if_false, hfloor]

/-- What is due never gets less, so no allotment is negative. -/
theorem due_mono {rate fps : Int} (hrate : 0 < rate) (hfps : 0 < fps) (frames : Nat) :
    (frames : Int) * rate / fps ≤ (frames + 1) * rate / fps := by
  refine Int.ediv_le_ediv hfps ?_
  rw [Int.add_mul]
  omega

/-! ## Frames in a row -/

/-- What is due by the end of a number of frames at whole rates. -/
def dueBy (rate fps : Int) (frames : Nat) : Int := frames * rate / fps

/-- What a frame is allotted, counted from zero. -/
def allotment (rate fps : Int) (frame : Nat) : Int :=
  dueBy rate fps (frame + 1) - dueBy rate fps frame

/-- A budget at whole rates when a number of frames have had their allotments. -/
def reached (rate fps : Int) (frames : Nat) : FrameBudget :=
  { rate := .whole rate, fps := .whole fps, frames, issued := dueBy rate fps frames }

section Whole

variable {rate fps : Int}

theorem dueBy_zero : dueBy rate fps 0 = 0 := by
  unfold dueBy
  simp

theorem dueBy_one : dueBy rate fps 1 = rate / fps := by
  unfold dueBy
  simp

/-- A number of frames is due as much more from anywhere as from the start, or one step more. -/
theorem dueBy_add (hfps : 0 < fps) (frames more : Nat) :
    dueBy rate fps (frames + more) - dueBy rate fps frames = dueBy rate fps more ∨
      dueBy rate fps (frames + more) - dueBy rate fps frames = dueBy rate fps more + 1 := by
  unfold dueBy
  rw [Int.natCast_add, Int.add_mul]
  exact floor_sub_floor hfps _ _

theorem next_reached (hfps : 0 < fps) (frames : Nat) :
    (reached rate fps frames).next =
      .ok (allotment rate fps frames, reached rate fps (frames + 1)) := by
  unfold reached
  rw [next_whole hfps]
  rfl

/-- The frames to come have their allotments one after the other. -/
theorem take_reached (hfps : 0 < fps) (frames n : Nat) :
    (reached rate fps frames).take n =
      .ok ((List.range' frames n).map (allotment rate fps)) := by
  induction n generalizing frames with
  | zero => rfl
  | succ n ih =>
      rw [take, next_reached hfps]
      simp only [bind, Except.bind, ih, List.range'_succ, List.map_cons]

/-- **Nothing is lost between frames**: their allotments add up to what became due meanwhile. -/
theorem allotments_sum (frames n : Nat) :
    ((List.range' frames n).map (allotment rate fps)).sum =
      dueBy rate fps (frames + n) - dueBy rate fps frames := by
  induction n generalizing frames with
  | zero => simp
  | succ n ih =>
      have hcount : frames + 1 + n = frames + (n + 1) := by omega
      rw [List.range'_succ, List.map_cons, List.sum_cons, ih, hcount]
      unfold allotment
      omega

/-- Frames in a row out of the first ones. -/
theorem stretch_of_first {start count n : Nat} (h : start + count ≤ n) :
    ((List.range' 0 n).drop start).take count = List.range' start count := by
  refine List.ext_getElem ?_ ?_
  · simp only [List.length_take, List.length_drop, List.length_range']
    omega
  · intro k hk hk'
    simp

end Whole

end FrameBudget

/-! ## The main statement -/

open FrameBudget in
/--
**Steps are allotted evenly, and none is lost or added.**

At positive whole rates every number of frames has its allotments. Together they make up the floor
of n * rate / fps exactly, no allotment is negative and each is the floor of rate / fps or one more,
and the allotments of any m frames in a row add up to the floor of m * rate / fps or to one more.
-/
theorem allotments_even {rate fps : Int} (hrate : 0 < rate) (hfps : 0 < fps) (n : Nat) :
    ∃ steps : List Int,
      FrameBudget.take n { rate := .whole rate, fps := .whole fps } = .ok steps ∧
      steps.length = n ∧ steps.sum = n * rate / fps ∧
      (∀ k ∈ steps, 0 ≤ k ∧ (k = rate / fps ∨ k = rate / fps + 1)) ∧
      ∀ start m : Nat, start + m ≤ n →
        ((steps.drop start).take m).sum = m * rate / fps ∨
          ((steps.drop start).take m).sum = m * rate / fps + 1 := by
  have hopening :
      ({ rate := .whole rate, fps := .whole fps } : FrameBudget) = reached rate fps 0 := by
    unfold reached
    rw [dueBy_zero]
    rfl
  refine ⟨_, hopening ▸ take_reached hfps 0 n, ?_, ?_, ?_, ?_⟩
  · rw [List.length_map, List.length_range']
  · rw [allotments_sum, dueBy_zero, Int.sub_zero, Nat.zero_add]
    rfl
  · intro k hk
    obtain ⟨frame, _, rfl⟩ := List.mem_map.mp hk
    have hmore := due_mono hrate hfps frame
    refine ⟨Int.sub_nonneg_of_le hmore, ?_⟩
    -- one frame is the shortest stretch
    have hsingle : allotment rate fps frame = dueBy rate fps 1 ∨
        allotment rate fps frame = dueBy rate fps 1 + 1 := dueBy_add hfps frame 1
    rwa [dueBy_one] at hsingle
  · intro start m hm
    rw [← List.map_drop, ← List.map_take, stretch_of_first hm, allotments_sum]
    exact dueBy_add hfps start m

/-- Seven steps for each three frames: two, two and three in turn, never twice three in a row. -/
theorem allotments_even_thirds :
    ∃ steps : List Int,
      FrameBudget.take 7 { rate := .whole 7, fps := .whole 3 } = .ok steps ∧
      steps = [2, 2, 3, 2, 2, 3, 2] ∧ steps.sum = 16 ∧
      (((steps.drop 1).take 2).sum = 4 ∨ ((steps.drop 1).take 2).sum = 5) := by
  obtain ⟨steps, htake, _, hsum, _, hstretch⟩ :=
    allotments_even (by decide : (0 : Int) < 7) (by decide : (0 : Int) < 3) 7
  have hsteps : FrameBudget.take 7 { rate := .whole 7, fps := .whole 3 } =
      .ok [2, 2, 3, 2, 2, 3, 2] := rfl
  exact ⟨steps, htake, Except.ok.inj (htake.symm.trans hsteps), hsum, hstretch 1 2 (by decide)⟩

end ChipEight
