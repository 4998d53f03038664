import ChipEight.Number.Quantity

/-!
# Steps per frame

A window shows so many frames in a second and the machine takes so many steps, and the first
number seldom divides the second. So each frame is allotted what is due by then less what has been
allotted before: the remainder is carried from frame to frame and no step is lost or added.
-/

namespace ChipEight

open Number

/-- The two rates, the frames counted and the steps allotted so far. -/
structure FrameBudget where
  rate : Quantity
  fps : Quantity
  frames : Int := 0
  issued : Int := 0

namespace FrameBudget

/-- How many steps are due by the end of a number of frames. -/
def due (b : FrameBudget) (frames : Int) : Except Trouble Int := do
  let steps ← Quantity.mul (.whole frames) b.rate
  let perFrame ← steps.floorDiv b.fps
  perFrame.toInt

/-- The steps of the next frame. -/
def next (b : FrameBudget) : Except Trouble (Int × FrameBudget) := do
  let due ← b.due (b.frames + 1)
  .ok (due - b.issued, { b with frames := b.frames + 1, issued := due })

/-- The steps of a number of frames in turn. -/
def take : Nat → FrameBudget → Except Trouble (List Int)
  | 0, _ => .ok []
  | n + 1, b => do
    let (steps, b) ← b.next
    let rest ← take n b
    .ok (steps :: rest)

end FrameBudget

end ChipEight
