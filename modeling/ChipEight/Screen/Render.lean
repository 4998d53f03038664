import ChipEight.Screen
import ChipEight.Text.Blank

/-!
# Showing the screen

The screen is shown in three ways: as text, where one character stands for two pixels above each
other; as a grid of colours; and as a surface of any scale, painted in the background colour and
then with one square for each lit pixel. All three show the same pixels. The text shows only the
rows in use, the others show every row.
-/

namespace ChipEight

/-- The colour of dark pixels and the colour of lit ones. -/
structure Palette where
  dark : Int
  light : Int
  deriving DecidableEq, Repr

/-- Black and white. -/
def Palette.standard : Palette := ⟨0x000000, 0xFFFFFF⟩

/-- A palette is exactly two colours, the dark one first. -/
def Palette.ofList : List Int → Except Misuse Palette
  | [dark, light] => .ok ⟨dark, light⟩
  | colors => if colors.length < 2 then .error (.paletteTooShort colors.length)
    else .error .paletteTooLong

/-- The character that shows two pixels, one above the other. -/
def halfBlock : Bool → Bool → Char
  | true, true => '█'
  | true, false => '▀'
  | false, true => '▄'
  | false, false => ' '

/-- A filled rectangle of a surface. -/
structure Rectangle where
  left : Int
  top : Int
  width : Int
  height : Int
  color : Int
  deriving DecidableEq, Repr

/-- What is painted on a surface: the background and then the rectangles in order. -/
structure Surface where
  width : Int
  height : Int
  background : Int
  rectangles : List Rectangle
  deriving DecidableEq, Repr

namespace Screen

/-- A row in use, or a dark one below the last. -/
def rowInUse (s : Screen) (row : Nat) : PixelRow :=
  if (row : Int) < s.height then s.grid[row]?.getD 0 else 0

/-- The characters of one line of text, with the blanks at its end left out. -/
def textLine (s : Screen) (top : Nat) : String :=
  let upper := s.rowInUse top
  let lower := s.rowInUse (top + 1)
  let chars := (List.range screenWidth).map fun column =>
    halfBlock (PixelRow.lit upper column) (PixelRow.lit lower column)
  String.ofList (Text.dropTrailing (· == ' ') chars)

/-- The lines of text that show the rows in use, two by two. -/
def textLines (s : Screen) : List String :=
  (List.range ((s.height + 1) / 2).toNat).map fun k => s.textLine (2 * k)

/-- The text that shows the rows in use. -/
def text (s : Screen) : String := "\n".intercalate s.textLines

/-- The text that shows the rows in use, if all of them are there. -/
def tryText (s : Screen) : Except Misuse String :=
  if (screenHeight : Int) < s.height then .error .shownRowAbsent else .ok s.text

/-- The colours of all pixels, row by row. -/
def colors (s : Screen) (palette : Palette) : List (List Int) :=
  s.grid.toList.map fun row => (List.range screenWidth).map fun column =>
    if PixelRow.lit row column then palette.light else palette.dark

/-- The places of the lit pixels, row by row from the left. -/
def litPlaces (s : Screen) : List (Nat × Nat) :=
  (List.range screenHeight).flatMap fun row =>
    ((List.range screenWidth).filter fun column => s.lit column row).map fun column => (column, row)

/-- The square that a lit pixel becomes. -/
def square (scale color : Int) (place : Nat × Nat) : Rectangle :=
  ⟨place.1 * scale, place.2 * scale, scale, scale, color⟩

/-- The surface that shows all pixels at a scale. -/
def surface (s : Screen) (scale : Int) (palette : Except Misuse Palette) :
    Except Misuse Surface :=
  if scale ≤ 0 then .error .scaleNotPositive
  else palette.map fun p =>
    ⟨screenWidth * scale, s.height * scale, p.dark, s.litPlaces.map (square scale p.light)⟩

end Screen

end ChipEight
