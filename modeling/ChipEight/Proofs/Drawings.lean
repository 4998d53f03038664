import ChipEight.Proofs.Sprite
import Mathlib.Algebra.BigOperators.Group.List.Lemmas
import Mathlib.Algebra.BigOperators.Ring.List
import Mathlib.Algebra.Ring.Parity

/-!
# Drawings one after the other

Which pixels a drawing flips depends on the drawing alone and not on what is lit. So after any
number of drawings a pixel has changed exactly if an odd number of them flip it (`drawAll_lit`). The
order does not matter for that, and neither does any drawing that is made twice.

The collisions do depend on the order, because a drawing collides with what the ones before it left.
All that can be said of them without the screen is about one drawing made twice: where it has a set
bit on the screen, it finds a lit pixel the first time or makes one for the second.
-/

namespace ChipEight

/-! ## Drawings -/

/-- A sprite and the place of its top left pixel. -/
structure Drawing where
  x : Int
  y : Int
  rows : List Int
  deriving DecidableEq, Repr

/-- Makes drawings one after the other. They are answered one by one, so one that is turned down
does not keep the others from being made. -/
def Screen.drawAll (s : Screen) : List Drawing → Screen × List (Except Misuse Bool)
  | [] => (s, [])
  | d :: rest =>
    let (drawn, answer) := s.tryDraw d.x d.y d.rows
    let (after, answers) := drawAll drawn rest
    (after, answer :: answers)

namespace Drawing

/-- The drawing flips a pixel of a screen that uses rows down to a height. -/
def flips (d : Drawing) (height : Int) (column row : Nat) : Bool :=
  ChipEight.flips height d.x d.y d.rows column row

/-- The sprite has a set bit that comes to lie on a screen that uses rows down to a height. -/
def Reaches (d : Drawing) (height : Int) : Prop :=
  ∃ (j k : Nat) (bits : Int), d.rows[j]? = some bits ∧ k < 8 ∧ bitOf bits (7 - k) = true ∧
    (0 ≤ d.x + k ∧ d.x + k < screenWidth) ∧ (0 ≤ d.y + j ∧ d.y + j < height)

/-- What comes to lie on the screen is what flips a pixel there. -/
theorem reaches_iff (d : Drawing) (height : Int) :
    d.Reaches height ↔ ∃ column row, d.flips height column row = true := by
  unfold Reaches flips ChipEight.flips spritePixel
  constructor
  · intro h
    obtain ⟨j, k, bits, hbits, hk, hset, hcolumn, hrow⟩ := h
    refine ⟨(d.x + k).toNat, (d.y + j).toNat, ?_⟩
    have hj : (((d.y + j).toNat : Int) - d.y).toNat = j := by omega
    have hbit : (7 - (((d.x + k).toNat : Int) - d.x)).toNat = 7 - k := by omega
    rw [hj, hbits, Option.any_some, hbit, hset, Bool.and_true, Bool.and_eq_true, decide_eq_true_eq,
      decide_eq_true_eq]
    omega
  · intro h
    obtain ⟨column, row, h⟩ := h
    rw [Bool.and_eq_true, decide_eq_true_eq, Option.any_eq_true] at h
    obtain ⟨hplace, bits, hbits, h⟩ := h
    rw [Bool.and_eq_true, decide_eq_true_eq] at h
    have hbit : (7 - ((column : Int) - d.x)).toNat = 7 - ((column : Int) - d.x).toNat := by omega
    refine ⟨((row : Int) - d.y).toNat, ((column : Int) - d.x).toNat, bits, hbits, by omega, ?_⟩
    rw [← hbit]
    exact ⟨h.2, by omega⟩

end Drawing

/-! ## How often a pixel is flipped -/

/-- An odd number of the drawings flip a pixel. -/
def flippedBy (height : Int) (drawings : List Drawing) (column row : Nat) : Bool :=
  decide (Odd (drawings.countP fun d => d.flips height column row))

theorem flippedBy_cons (height : Int) (d : Drawing) (rest : List Drawing) (column row : Nat) :
    flippedBy height (d :: rest) column row =
      (d.flips height column row ^^ flippedBy height rest column row) := by
  unfold flippedBy
  rw [List.countP_cons]
  cases d.flips height column row with
  | false => simp only [Bool.false_eq_true, if_false, Nat.add_zero, Bool.false_xor]
  | true => simp only [if_true, Nat.odd_add_one, decide_not, Bool.true_xor]

/-- What occurs an even number of times is counted an even number of times, whatever is counted. -/
theorem even_countP {α : Type} [DecidableEq α] {as : List α} (h : ∀ a ∈ as, Even (as.count a))
    (counted : α → Bool) : Even (as.countP counted) := by
  rw [← List.sum_map_count_dedup_filter_eq_countP, even_iff_two_dvd]
  refine List.dvd_sum ?_
  intro n hn
  obtain ⟨a, ha, rfl⟩ := List.mem_map.mp hn
  have hmem : a ∈ as := List.mem_dedup.mp (List.mem_of_mem_filter ha)
  exact even_iff_two_dvd.mp (h a hmem)

namespace Screen

variable (s : Screen)

/-- The pixels are all that there is to the rows. -/
theorem grid_ext {s s' : Screen}
    (h : ∀ column < screenWidth, ∀ row < screenHeight, s.lit column row = s'.lit column row) :
    s.grid = s'.grid := by
  refine Vector.ext ?_
  intro row hrow
  refine BitVec.eq_of_getMsbD_eq ?_
  intro column hcolumn
  have hpixel := h column hcolumn row hrow
  rwa [lit_row _ _ hrow, lit_row _ _ hrow] at hpixel

/-- A drawing that is turned down leaves what was drawn until then. -/
theorem tryDraw_grid (x y : Int) (rows : List Int) :
    (s.tryDraw x y rows).1.grid = (drawRows s.height x s.grid y rows).1 := by
  unfold tryDraw
  dsimp only
  split <;> rfl

theorem tryDraw_height (x y : Int) (rows : List Int) :
    (s.tryDraw x y rows).1.height = s.height := by
  unfold tryDraw
  dsimp only
  split <;> rfl

variable {column row : Nat}

/-- **A drawing flips its pixels**, also if it is turned down. -/
theorem tryDraw_lit (d : Drawing) (hcolumn : column < screenWidth) (hrow : row < screenHeight) :
    (s.tryDraw d.x d.y d.rows).1.lit column row =
      (s.lit column row ^^ d.flips s.height column row) := by
  rw [lit_row _ _ hrow, lit_row _ _ hrow]
  simp only [tryDraw_grid]
  exact drawRows_lit _ _ _ _ _ hcolumn hrow

/-- **After any number of drawings a pixel is flipped if an odd number of them flip it.** -/
theorem drawAll_lit (drawings : List Drawing) (hcolumn : column < screenWidth)
    (hrow : row < screenHeight) :
    (s.drawAll drawings).1.lit column row =
      (s.lit column row ^^ flippedBy s.height drawings column row) := by
  induction drawings generalizing s with
  | nil => simp [drawAll, flippedBy]
  | cons d rest ih =>
      have hrest := ih (s.tryDraw d.x d.y d.rows).1
      rw [tryDraw_height, tryDraw_lit _ _ hcolumn hrow, Bool.xor_assoc] at hrest
      rw [flippedBy_cons]
      exact hrest

/-- A drawing that is not turned down is drawn, and the others are made on what it leaves. -/
theorem drawAll_cons (h : s.height ≤ screenHeight) (d : Drawing) (rest : List Drawing) :
    s.drawAll (d :: rest) =
      let once := s.draw d.x d.y d.rows
      let later := once.1.drawAll rest
      (later.1, .ok once.2 :: later.2) := by
  rw [drawAll, s.tryDraw_eq _ _ _ h]

/-- No drawing is turned down if no more rows are in use than there are. -/
theorem drawAll_answers (h : s.height ≤ screenHeight) (drawings : List Drawing) :
    ∃ hits : List Bool, (s.drawAll drawings).2 = hits.map .ok := by
  induction drawings generalizing s with
  | nil => exact ⟨[], rfl⟩
  | cons d rest ih =>
      have hdrawn : (s.draw d.x d.y d.rows).1.height ≤ screenHeight := h
      obtain ⟨hits, hrest⟩ := ih (s.draw d.x d.y d.rows).1 hdrawn
      refine ⟨(s.draw d.x d.y d.rows).2 :: hits, ?_⟩
      rw [s.drawAll_cons h, List.map_cons, ← hrest]

/-- **Of a drawing made twice, one of the two collides if it has a set bit on the screen.** -/
theorem draw_twice (h : s.height ≤ screenHeight) (d : Drawing) :
    let once := s.draw d.x d.y d.rows
    (once.2 || (once.1.draw d.x d.y d.rows).2) = true ↔ d.Reaches s.height := by
  intro once
  have hfirst := s.draw_drawn d.x d.y d.rows h
  have hsecond := once.1.draw_drawn d.x d.y d.rows h
  rw [Bool.or_eq_true, hfirst.collision, hsecond.collision, d.reaches_iff]
  constructor
  · intro hhit
    rcases hhit with ⟨column, row, hflips, _⟩ | ⟨column, row, hflips, _⟩
    · exact ⟨column, row, hflips⟩
    · exact ⟨column, row, hflips⟩
  · intro hflipped
    obtain ⟨column, row, hflips⟩ := hflipped
    cases hlit : s.lit column row with
    | true => exact Or.inl ⟨column, row, hflips, hlit⟩
    | false =>
        -- the first drawing lights it
        refine Or.inr ⟨column, row, hflips, ?_⟩
        have hpixel := hfirst.pixels column row
        have hset : ChipEight.flips s.height d.x d.y d.rows column row = true := hflips
        rwa [hlit, hset] at hpixel

end Screen

/-! ## The main statement -/

/--
**Drawings commute and cancel.**

On any screen, for all whole numbers as coordinates and as rows: the same drawings in another order
leave the same pixels, and drawings of which each is made an even number of times leave the pixels
that were there. If no more rows are in use than there are, none of them is turned down, and of a
drawing that is made twice in a row at least one collides exactly if the sprite has a set bit on the
screen.
-/
theorem drawings_commute_and_cancel :
    (∀ (s : Screen) (first second : List Drawing), first.Perm second →
      (s.drawAll first).1.grid = (s.drawAll second).1.grid) ∧
    (∀ (s : Screen) (drawings : List Drawing), (∀ d ∈ drawings, Even (drawings.count d)) →
      (s.drawAll drawings).1.grid = s.grid) ∧
    (∀ (s : Screen) (drawings : List Drawing), s.height ≤ screenHeight →
      ∃ hits : List Bool, (s.drawAll drawings).2 = hits.map .ok) ∧
    ∀ (s : Screen) (d : Drawing), s.height ≤ screenHeight →
      ∃ hit again, (s.drawAll [d, d]).2 = [.ok hit, .ok again] ∧
        ((hit || again) = true ↔ d.Reaches s.height) := by
  refine ⟨?_, ?_, fun s drawings h => s.drawAll_answers h drawings, ?_⟩
  · intro s first second hperm
    refine Screen.grid_ext ?_
    intro column hcolumn row hrow
    -- a pixel is flipped as often in either order
    have hflipped : flippedBy s.height first column row = flippedBy s.height second column row := by
      unfold flippedBy
      rw [hperm.countP_eq]
    rw [s.drawAll_lit first hcolumn hrow, s.drawAll_lit second hcolumn hrow, hflipped]
  · intro s drawings heven
    refine Screen.grid_ext ?_
    intro column hcolumn row hrow
    have hflipped : flippedBy s.height drawings column row = false :=
      decide_eq_false (Nat.not_odd_iff_even.mpr (even_countP heven _))
    rw [s.drawAll_lit drawings hcolumn hrow, hflipped, Bool.xor_false]
  · intro s d h
    refine ⟨_, _, ?_, s.draw_twice h d⟩
    have hdrawn : (s.draw d.x d.y d.rows).1.height ≤ screenHeight := h
    rw [s.drawAll_cons h]
    dsimp only
    rw [Screen.drawAll_cons _ hdrawn]
    rfl

/-- Two sprites that overlap in the upper right corner, where both are clipped, on a screen whose
last column is lit. Which of them collides with the other depends on the order, the pixels do not. -/
theorem drawings_commute_and_cancel_corner :
    let s : Screen := { grid := Vector.replicate screenHeight 1 }
    let large : Drawing := ⟨59, -2, [0xFF, 0xFF, 0xF1]⟩
    let small : Drawing := ⟨62, 0, [0x80]⟩
    (s.drawAll [large, small]).2 = [.ok false, .ok true] ∧
      (s.drawAll [small, large]).2 = [.ok false, .ok true] ∧
      (s.drawAll [large, small]).1.grid = (s.drawAll [small, large]).1.grid ∧
      (s.drawAll [large, small, small, large]).1.grid = s.grid ∧
      ∃ hit again, (s.drawAll [small, small]).2 = [.ok hit, .ok again] ∧ (hit || again) = true := by
  intro s large small
  obtain ⟨hcommute, hcancel, -, htwice⟩ := drawings_commute_and_cancel
  have hfirst : (s.drawAll [large, small]).2 = [.ok false, .ok true] := by
    dsimp only [s, large, small]
    rfl
  have hsecond : (s.drawAll [small, large]).2 = [.ok false, .ok true] := by
    dsimp only [s, large, small]
    rfl
  obtain ⟨hit, again, hboth, hreaches⟩ := htwice s small (by decide)
  -- the highest bit of the small sprite lies in the last column but one
  have hset : small.Reaches s.height := ⟨0, 0, 0x80, rfl, by decide⟩
  exact ⟨hfirst, hsecond, hcommute s _ _ (List.Perm.swap small large []), hcancel s _ (by decide),
    hit, again, hboth, hreaches.mpr hset⟩

end ChipEight
