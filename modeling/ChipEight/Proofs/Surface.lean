import ChipEight.Proofs.HalfBlocks
import Mathlib.Data.List.Nodup

/-!
# A surface has the colours of the pixels

A surface is painted square by square over the background, one square for each lit pixel. A point
lies in the square of a pixel exactly if its coordinates, divided by the scale and rounded down, are
the column and the row of the pixel (`covers_square`). So a point lies in one square at most, no two
squares overlap, and the order in which they are painted does not matter: a point is light if the
pixel that it belongs to is lit, and has the colour of the background if not.
-/

namespace ChipEight

/-! ## Painting -/

/-- The point lies in the rectangle. -/
def Rectangle.Covers (r : Rectangle) (x y : Int) : Prop :=
  (r.left ≤ x ∧ x < r.left + r.width) ∧ (r.top ≤ y ∧ y < r.top + r.height)

instance (r : Rectangle) (x y : Int) : Decidable (r.Covers x y) :=
  inferInstanceAs (Decidable (_ ∧ _))

/-- No point lies in both rectangles. -/
def Rectangle.Apart (r r' : Rectangle) : Prop := ∀ x y, ¬ (r.Covers x y ∧ r'.Covers x y)

/-- The colour of a point after a rectangle was filled: exactly the points in it take its colour. -/
def Rectangle.fill (x y : Int) (color : Int) (r : Rectangle) : Int :=
  if r.Covers x y then r.color else color

/-- The colour of a point when the background was painted and then the rectangles in order. -/
def Surface.colorAt (f : Surface) (x y : Int) : Int :=
  f.rectangles.foldl (Rectangle.fill x y) f.background

/-- Rectangles of one colour leave that colour on what they cover, and all else as it was. -/
theorem foldl_fill {rectangles : List Rectangle} {light : Int}
    (h : ∀ r ∈ rectangles, r.color = light) (x y before : Int) :
    rectangles.foldl (Rectangle.fill x y) before =
      if ∃ r ∈ rectangles, r.Covers x y then light else before := by
  induction rectangles generalizing before with
  | nil => simp
  | cons r rest ih =>
      have hlight : ∀ r' ∈ rest, r'.color = light := by
        intro r' hr'
        exact h r' (List.mem_cons_of_mem r hr')
      have hcolor := h r List.mem_cons_self
      rw [List.foldl_cons, ih hlight]
      unfold Rectangle.fill
      by_cases hlater : ∃ r' ∈ rest, r'.Covers x y
      · have hsome : ∃ r' ∈ r :: rest, r'.Covers x y := by
          obtain ⟨r', hr', hcovers⟩ := hlater
          exact ⟨r', List.mem_cons_of_mem r hr', hcovers⟩
        rw [if_pos hlater, if_pos hsome]
      · -- then the first rectangle decides
        rw [if_neg hlater, hcolor]
        refine if_congr ?_ rfl rfl
        rw [List.exists_mem_cons_iff, or_iff_left hlater]

/-! ## The squares of the lit pixels -/

section Square

variable {scale : Int} (hscale : 0 < scale)
include hscale

/-- **A point lies in the square of the pixel that it belongs to, and in no other.** -/
theorem covers_square (color : Int) (place : Nat × Nat) (x y : Int) :
    (Screen.square scale color place).Covers x y ↔ x / scale = place.1 ∧ y / scale = place.2 := by
  rw [Int.ediv_eq_iff_of_pos hscale, Int.ediv_eq_iff_of_pos hscale]
  rfl

/-- The squares of different pixels do not overlap. -/
theorem square_apart (color : Int) {place place' : Nat × Nat} (h : place ≠ place') :
    (Screen.square scale color place).Apart (Screen.square scale color place') := by
  intro x y hboth
  rw [covers_square hscale, covers_square hscale] at hboth
  obtain ⟨⟨hcolumn, hrow⟩, hcolumn', hrow'⟩ := hboth
  refine h (Prod.ext ?_ ?_)
  · omega
  · omega

end Square

namespace Screen

variable (s : Screen)

/-- Nothing is lit off the screen. -/
theorem lit_inside {column row : Nat} (h : s.lit column row = true) :
    column < screenWidth ∧ row < screenHeight := by
  by_contra hout
  rw [s.lit_outside hout] at h
  exact absurd h Bool.false_ne_true

theorem mem_litPlaces (column row : Nat) :
    (column, row) ∈ s.litPlaces ↔ s.lit column row = true := by
  unfold litPlaces
  rw [List.mem_flatMap]
  constructor
  · intro h
    obtain ⟨k, _, hk⟩ := h
    obtain ⟨c, hc, hplace⟩ := List.mem_map.mp hk
    obtain ⟨rfl, rfl⟩ := Prod.mk.inj hplace
    exact (List.mem_filter.mp hc).2
  · intro hlit
    have hin := s.lit_inside hlit
    refine ⟨row, List.mem_range.mpr hin.2, List.mem_map.mpr ⟨column, ?_, rfl⟩⟩
    exact List.mem_filter.mpr ⟨List.mem_range.mpr hin.1, hlit⟩

/-- No place comes twice. -/
theorem litPlaces_nodup : s.litPlaces.Nodup := by
  unfold litPlaces
  rw [List.nodup_flatMap]
  constructor
  · intro row _
    refine (List.nodup_range.filter _).map ?_
    intro column column' heq
    exact (Prod.mk.inj heq).1
  · refine List.nodup_range.imp ?_
    intro row row' hne place hplace hplace'
    obtain ⟨_, _, rfl⟩ := List.mem_map.mp hplace
    obtain ⟨_, _, heq⟩ := List.mem_map.mp hplace'
    exact hne (Prod.mk.inj heq).2.symm

/-- There are as many places as there are ones among the pixels. -/
theorem litPlaces_length : s.litPlaces.length = s.pixels.flatten.count 1 := by
  unfold litPlaces
  rw [List.length_flatMap, pixels_eq, List.count_flatten, List.map_map]
  refine congrArg List.sum (List.map_congr_left ?_)
  intro row _
  rw [List.length_map, Function.comp_apply, PixelRow.numbers, List.count_eq_countP, List.countP_map,
    List.countP_eq_length_filter]
  refine congrArg List.length (List.filter_congr ?_)
  intro column _
  rw [lit_eq]
  cases hlit : (s.row row).lit column <;> simp [hlit]

/-- The colour of a pixel in the grid of colours. -/
theorem colors_getElem? (p : Palette) {column row : Nat} (hcolumn : column < screenWidth)
    (hrow : row < screenHeight) :
    (s.colors p)[row]?.bind (·[column]?) =
      some (if s.lit column row then p.light else p.dark) := by
  unfold colors
  rw [s.map_grid, List.getElem?_map, List.getElem?_range hrow, Option.map_some, Option.bind_some,
    List.getElem?_map, List.getElem?_range hcolumn, Option.map_some, lit_eq]

/-- What a surface of a scale shows of a screen that uses all its rows. -/
structure ShownBy (s : Screen) (scale : Int) (p : Palette) (f : Surface) : Prop where
  /-- It has a square of points for each pixel. -/
  size : f.width = screenWidth * scale ∧ f.height = screenHeight * scale
  /-- The background is painted in the colour of dark pixels. -/
  background : f.background = p.dark
  /-- In the end every point has the colour of the pixel that it belongs to. -/
  points : ∀ x y, 0 ≤ x → x < f.width → 0 ≤ y → y < f.height →
    (s.colors p)[(y / scale).toNat]?.bind (·[(x / scale).toNat]?) = some (f.colorAt x y)
  /-- Nothing is painted beyond the edges. -/
  inside : ∀ r ∈ f.rectangles,
    0 ≤ r.left ∧ r.left + r.width ≤ f.width ∧ 0 ≤ r.top ∧ r.top + r.height ≤ f.height
  /-- Nothing is painted twice over the background. -/
  apart : f.rectangles.Pairwise Rectangle.Apart
  /-- What is painted are the squares of lit pixels. -/
  squares : ∀ r, r ∈ f.rectangles ↔
    ∃ column row : Nat, s.lit column row = true ∧
      r = ⟨column * scale, row * scale, scale, scale, p.light⟩
  /-- There are as many squares as lit pixels. -/
  number : f.rectangles.length = s.pixels.flatten.count 1

section Square

variable {scale : Int} (hscale : 0 < scale) (p : Palette)
include hscale

/-- The squares cover the points that belong to a lit pixel. -/
theorem covered_iff {x y : Int} (hx : 0 ≤ x) (hy : 0 ≤ y) :
    (∃ r ∈ s.litPlaces.map (square scale p.light), r.Covers x y) ↔
      s.lit (x / scale).toNat (y / scale).toNat = true := by
  constructor
  · intro h
    obtain ⟨r, hr, hcovers⟩ := h
    obtain ⟨⟨column, row⟩, hplace, rfl⟩ := List.mem_map.mp hr
    obtain ⟨hcolumn, hrow⟩ := (covers_square hscale _ _ _ _).mp hcovers
    rw [hcolumn, hrow]
    exact (s.mem_litPlaces column row).mp hplace
  · intro hlit
    refine ⟨_, List.mem_map_of_mem ((s.mem_litPlaces _ _).mpr hlit), ?_⟩
    rw [covers_square hscale]
    have hcolumn := Int.ediv_nonneg hx hscale.le
    have hrow := Int.ediv_nonneg hy hscale.le
    exact ⟨(Int.toNat_of_nonneg hcolumn).symm, (Int.toNat_of_nonneg hrow).symm⟩

/-- **A point is light if the pixel that it belongs to is lit.** -/
theorem colorAt_eq {x y : Int} (hx : 0 ≤ x) (hy : 0 ≤ y) (width height : Int) :
    Surface.colorAt ⟨width, height, p.dark, s.litPlaces.map (square scale p.light)⟩ x y =
      if s.lit (x / scale).toNat (y / scale).toNat then p.light else p.dark := by
  have hlight : ∀ r ∈ s.litPlaces.map (square scale p.light), r.color = p.light := by
    intro r hr
    obtain ⟨place, _, rfl⟩ := List.mem_map.mp hr
    rfl
  unfold Surface.colorAt
  rw [foldl_fill hlight]
  exact if_congr (s.covered_iff hscale p hx hy) rfl rfl

/-- A pixel of the screen has its square on the surface. -/
theorem square_inside {column row : Nat} (h : s.lit column row = true) :
    (column : Int) * scale + scale ≤ screenWidth * scale ∧
      (row : Int) * scale + scale ≤ screenHeight * scale := by
  have hin := s.lit_inside h
  have hright : ((column : Int) + 1) * scale ≤ screenWidth * scale :=
    Int.mul_le_mul_of_nonneg_right (by omega) hscale.le
  have hbottom : ((row : Int) + 1) * scale ≤ screenHeight * scale :=
    Int.mul_le_mul_of_nonneg_right (by omega) hscale.le
  rw [Int.add_mul, Int.one_mul] at hright hbottom
  exact ⟨hright, hbottom⟩

theorem shownBy (hheight : s.height = screenHeight) :
    s.ShownBy scale p ⟨screenWidth * scale, s.height * scale, p.dark,
      s.litPlaces.map (square scale p.light)⟩ where
  size := ⟨rfl, by rw [hheight]⟩
  background := rfl
  points := by
    intro x y hx hwidth hy hbottom
    rw [s.colorAt_eq hscale p hx hy]
    have hcolumn : (x / scale).toNat < screenWidth :=
      (Int.toNat_lt (Int.ediv_nonneg hx hscale.le)).mpr (Int.ediv_lt_of_lt_mul hscale hwidth)
    have hrow : (y / scale).toNat < screenHeight :=
      (Int.toNat_lt (Int.ediv_nonneg hy hscale.le)).mpr
        (Int.ediv_lt_of_lt_mul hscale (hheight ▸ hbottom))
    exact s.colors_getElem? p hcolumn hrow
  inside := by
    intro r hr
    obtain ⟨⟨column, row⟩, hplace, rfl⟩ := List.mem_map.mp hr
    obtain ⟨hright, hbottom⟩ := s.square_inside hscale ((s.mem_litPlaces column row).mp hplace)
    rw [hheight]
    exact ⟨Int.mul_nonneg (Int.natCast_nonneg column) hscale.le, hright,
      Int.mul_nonneg (Int.natCast_nonneg row) hscale.le, hbottom⟩
  apart := by
    rw [List.pairwise_map]
    refine s.litPlaces_nodup.imp ?_
    intro place place' hne
    exact square_apart hscale p.light hne
  squares := by
    intro r
    rw [List.mem_map]
    constructor
    · intro h
      obtain ⟨⟨column, row⟩, hplace, rfl⟩ := h
      exact ⟨column, row, (s.mem_litPlaces column row).mp hplace, rfl⟩
    · intro h
      obtain ⟨column, row, hlit, rfl⟩ := h
      exact ⟨(column, row), (s.mem_litPlaces column row).mpr hlit, rfl⟩
  number := by
    rw [List.length_map, litPlaces_length]

end Square

end Screen

/-! ## The main statement -/

/--
**A surface shows what the grid of colours shows.**

For a screen that uses all its rows, any two colours and any scale above zero there is a surface, 64
times the scale wide and 32 times the scale high. When the background is painted in the first colour
and then the rectangles are in order, the point at X and Y has the colour in row ⌊Y / scale⌋ and
column ⌊X / scale⌋ of the grid of colours. The rectangles are one square for each lit pixel, lie on
the surface and do not overlap. At a scale of zero or less nothing is painted, and the scale is
refused.
-/
theorem surface_shows_colors :
    (∀ (s : Screen) (scale dark light : Int), s.height = screenHeight → 0 < scale →
      ∃ f, s.surface scale (Palette.ofList [dark, light]) = .ok f ∧
        s.ShownBy scale ⟨dark, light⟩ f) ∧
    ∀ (s : Screen) (scale : Int) (palette : Except Misuse Palette), scale ≤ 0 →
      s.surface scale palette = .error .scaleNotPositive := by
  constructor
  · intro s scale dark light hheight hscale
    refine ⟨_, ?_, s.shownBy hscale ⟨dark, light⟩ hheight⟩
    unfold Screen.surface
    rw [if_neg (by omega)]
    rfl
  · intro s scale palette hscale
    unfold Screen.surface
    exact if_pos hscale

/-- The last pixel of the screen at a scale of three: its square ends at the corner, and the point
in its middle is light. -/
theorem surface_shows_colors_corner :
    let s : Screen := { grid := (Vector.replicate screenHeight 0).set 31 1 }
    s.surface 0 (Palette.ofList [5, 7]) = .error .scaleNotPositive ∧
      ∃ f, s.surface 3 (Palette.ofList [5, 7]) = .ok f ∧ (⟨189, 93, 3, 3, 7⟩ ∈ f.rectangles) ∧
        f.colorAt 190 94 = 7 ∧ f.colorAt 188 94 = 5 := by
  intro s
  obtain ⟨f, hsurface, hshown⟩ := surface_shows_colors.1 s 3 5 7 rfl (by decide)
  obtain ⟨hwidth, hheight⟩ := hshown.size
  have hlight := hshown.points 190 94 (by decide) (by rw [hwidth]; decide) (by decide)
    (by rw [hheight]; decide)
  have hdark := hshown.points 188 94 (by decide) (by rw [hwidth]; decide) (by decide)
    (by rw [hheight]; decide)
  rw [s.colors_getElem? _ (by decide) (by decide)] at hlight hdark
  refine ⟨surface_shows_colors.2 s 0 _ (by decide), f, hsurface, ?_, ?_, ?_⟩
  · exact (hshown.squares _).mpr ⟨63, 31, by decide, rfl⟩
  · exact (Option.some.inj hlight).symm.trans (if_pos (by decide))
  · exact (Option.some.inj hdark).symm.trans (if_neg (by decide))

end ChipEight
