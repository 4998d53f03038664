import ChipEight.Memory

/-!
# Memory dumps

A dump shows the bytes of some windows, each from a first address to a last one. Windows that
overlap or touch are joined first, so every byte is shown once and in the order of addresses. With
no window all of memory is shown.

A dump is the bytes themselves, or a table of hexadecimal numbers with sixteen bytes in a row. The
rows of a table begin at multiples of sixteen, so a row may show bytes beside the window.
-/

namespace ChipEight

open Text

/-- The bytes from a first address to a last one, both included. -/
structure MemoryWindow where
  first : Int
  last : Int
  deriving DecidableEq, Repr

/-- The number of bytes in a row of a table. -/
abbrev rowWidth : Nat := 16

namespace MemoryWindow

/-- The number of bytes. -/
def length (w : MemoryWindow) : Int := w.last - w.first + 1

/-- Where the first row of the window begins. -/
def firstRow (w : MemoryWindow) : Int := w.first - w.first % rowWidth

/-- The number of rows. -/
def rowCount (w : MemoryWindow) : Nat := ((w.last - w.firstRow) / rowWidth + 1).toNat

/-- Where the rows of the window begin. -/
def rows (w : MemoryWindow) : List Int :=
  (List.range w.rowCount).map fun (k : Nat) => w.firstRow + rowWidth * k

/-- All of memory. -/
def whole : MemoryWindow := ⟨0, memorySize - 1⟩

/-- Joins a window with those after it that it overlaps or touches, in windows that are in the
order of their first addresses. -/
def join (w : MemoryWindow) : List MemoryWindow → List MemoryWindow
  | [] => [w]
  | v :: rest =>
    if v.first ≤ w.last + 1 then join ⟨w.first, max w.last v.last⟩ rest
    else w :: join v rest

/-- The windows in order, with those joined that overlap or touch; all of memory if there are
none. -/
def coalesce (windows : List MemoryWindow) : List MemoryWindow :=
  match windows.mergeSort fun a b => a.first ≤ b.first with
  | [] => [whole]
  | w :: rest => join w rest

end MemoryWindow

namespace Memory

/-- The line over a table. -/
def tableHeader : String :=
  "ADDR " ++ " ".intercalate ((List.range rowWidth).map fun (column : Nat) => s!"+{hex 0 column}")

/-- The row of a table that begins at an address. -/
def tableRow (m : Memory) (row : Int) : Except Fault String := do
  let bytes ← (List.range rowWidth).mapM fun (column : Nat) => m.read (row + column)
  let cells := " ".intercalate (bytes.map fun byte => hex 2 byte.toNat)
  .ok s!"{hex 4 row} {cells}"

/-- A number of rows of a table, the first at an address. A row that cannot be read ends them at
once, so a window that goes far beyond memory costs no more than memory does. -/
def tableRows (m : Memory) (row : Int) : Nat → Except Fault (List String)
  | 0 => .ok []
  | n + 1 => do
    let line ← m.tableRow row
    let rest ← tableRows m (row + rowWidth) n
    .ok (line :: rest)

/-- The lines of a window's table. -/
def tableBlock (m : Memory) (w : MemoryWindow) : Except Fault (List String) := do
  let rows ← m.tableRows w.firstRow w.rowCount
  .ok (tableHeader :: rows)

/-- The tables of windows, with an empty line between them. -/
def hexTable (m : Memory) (windows : List MemoryWindow) : Except Fault String := do
  let blocks ← windows.mapM m.tableBlock
  .ok ("\n\n".intercalate (blocks.map ("\n".intercalate ·)))

/-- The bytes of windows one after the other. -/
def windowBytes (m : Memory) (windows : List MemoryWindow) : Except Fault (List UInt8) := do
  let blocks ← windows.mapM fun w => m.readBlock w.first w.length
  .ok blocks.flatten

end Memory

end ChipEight
