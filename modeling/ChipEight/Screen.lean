import ChipEight.Fault

/-!
# The screen

Sixty-four columns and thirty-two rows of pixels, lit or dark. A row is a word of sixty-four bits
whose most significant bit is the leftmost pixel, so a sprite row of eight pixels is drawn by
shifting it to its column and combining the two words by exclusive or. What a sprite sticks out
of the screen is cut off, never wrapped around. A drawing collides if it darkens a lit pixel.

The screen notes that it may have changed, so that whoever shows it can skip frames without news.

A screen can be told to use more rows than it has. Then a request that reaches one of the missing
rows is turned down, and a sprite that reaches one is drawn only down to the last row there is,
which does not count as news.
-/

namespace ChipEight

/-- The number of columns. -/
abbrev screenWidth : Nat := 64

/-- The number of rows. -/
abbrev screenHeight : Nat := 32

/-- One row of pixels, the leftmost in the most significant bit. -/
abbrev PixelRow := BitVec 64

/-- All rows, the top one first. -/
abbrev PixelGrid := Vector PixelRow screenHeight

/-- The pixels, the number of rows from the top that are in use, and whether there is news. -/
structure Screen where
  grid : PixelGrid := Vector.replicate screenHeight 0
  height : Int := screenHeight
  dirty : Bool := true

/-- Eight pixels with the leftmost at a column, as far as they lie on the screen. -/
def spriteRow (column bits : Int) : PixelRow :=
  let pixels := (bits % 256).toNat
  if column ≤ -8 ∨ 64 ≤ column then 0
  else if column ≤ 56 then BitVec.ofNat 64 (pixels <<< (56 - column).toNat)
  else BitVec.ofNat 64 (pixels >>> (column - 56).toNat)

/-- The pixel at a column of a row. -/
def PixelRow.lit (row : PixelRow) (column : Nat) : Bool := row.getMsbD column

/-- Draws sprite rows one below the other, the first at a row of the screen; the truth value
tells whether a lit pixel was darkened. -/
def drawRows (height x : Int) : PixelGrid → Int → List Int → PixelGrid × Bool
  | grid, _, [] => (grid, false)
  | grid, y, bits :: rest =>
    if h : 0 ≤ y ∧ y < height ∧ y < screenHeight then
      have : y.toNat < screenHeight := by omega
      let old := grid[y.toNat]
      let sprite := spriteRow x bits
      let (grid, hit) := drawRows height x (grid.set y.toNat (old ^^^ sprite)) (y + 1) rest
      (grid, (old &&& sprite) != 0 || hit)
    else drawRows height x grid (y + 1) rest

namespace Screen

/-- Darkens every pixel. -/
def clear (s : Screen) : Screen :=
  { s with grid := Vector.replicate screenHeight 0, dirty := true }

/-- Draws a sprite with its top left pixel at a place; the truth value tells of a collision. -/
def draw (s : Screen) (x y : Int) (rows : List Int) : Screen × Bool :=
  let (grid, hit) := drawRows s.height x s.grid y rows
  ({ s with grid, dirty := true }, hit)

/-- Draws a sprite as far as there are rows; it is turned down if it reaches a row in use that is
not there, be it with dark pixels only. -/
def tryDraw (s : Screen) (x y : Int) (rows : List Int) : Screen × Except Misuse Bool :=
  let (drawn, hit) := s.draw x y rows
  if max (screenHeight : Int) y < min s.height (y + rows.length) then
    ({ drawn with dirty := s.dirty }, .error .rowAbsent)
  else (drawn, .ok hit)

/-- The pixel at a column and a row, dark outside. -/
def lit (s : Screen) (column row : Nat) : Bool :=
  match s.grid[row]? with
  | some pixels => PixelRow.lit pixels column
  | none => false

/-- The pixel at a place on the part of the screen that is in use. -/
def pixel (s : Screen) (x y : Int) : Except Misuse Bool :=
  if 0 ≤ x ∧ x < screenWidth ∧ 0 ≤ y ∧ y < s.height then
    if y < screenHeight then .ok (s.lit x.toNat y.toNat) else .error .rowAbsent
  else .error .pixelOutOfRange

/-- Whether there is news since the last time this was asked. -/
def takeDirty (s : Screen) : Bool × Screen := (s.dirty, { s with dirty := false })

end Screen

end ChipEight
