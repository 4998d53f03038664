import ChipEight.Headless.Command
import ChipEight.Proofs.Columns
import ChipEight.Proofs.Memory
import ChipEight.Proofs.Success
import ChipEight.Proofs.Windows
import Mathlib.Data.List.Sort

/-!
# Dumps

A dump of windows that lie in memory never fails, and it shows what is in memory and nothing else.
In binary it is the bytes at the addresses that some window shows, ascending and each once. As a
table it is a text of blocks, one for each window that is left after joining. The rows of a block
begin at multiples of sixteen, so the first and the last row go beyond the window. They stay within
memory all the same, since its size is a multiple of sixteen too.

What the table shows is read off the text that is printed. It is split into lines and blocks, a line
into numbers, and the byte at an address is looked up by its row and its column.
-/

namespace ChipEight

open Text

namespace MemoryWindow

/-! ## The addresses of a window -/

/-- All that the window shows is in memory. -/
def InMemory (w : MemoryWindow) : Prop := 0 ≤ w.first ∧ w.first ≤ w.last ∧ w.last < memorySize

instance (w : MemoryWindow) : Decidable w.InMemory := inferInstanceAs (Decidable (_ ∧ _ ∧ _))

/-- The windows that a dump is about: all of memory if none is named. -/
def asked (windows : List MemoryWindow) : List MemoryWindow :=
  if windows.isEmpty then [whole] else windows

/-- The addresses that a dump is about, ascending. -/
def shownAddresses (windows : List MemoryWindow) : List Nat :=
  (List.range memorySize).filter fun a => Shown (asked windows) a

theorem inMemory_whole : whole.InMemory := by decide

theorem asked_inMemory {windows : List MemoryWindow} (h : ∀ w ∈ windows, w.InMemory) :
    ∀ w ∈ asked windows, w.InMemory := by
  unfold asked
  split
  · simp only [List.mem_singleton, forall_eq]
    exact inMemory_whole
  · exact h

theorem coalesce_asked (windows : List MemoryWindow) :
    coalesce (asked windows) = coalesce windows := by
  unfold asked
  split
  · rename_i hnone
    rw [List.isEmpty_iff.mp hnone, coalesce_nil, coalesce, List.mergeSort_singleton]
    rfl
  · rfl

theorem asked_ne_nil (windows : List MemoryWindow) : asked windows ≠ [] := by
  unfold asked
  split
  · exact List.cons_ne_nil _ _
  · rename_i hsome
    exact fun hnil => hsome (List.isEmpty_iff.mpr hnil)

/-- What is asked for is what is shown after joining. -/
theorem shown_asked (windows : List MemoryWindow) (a : Int) :
    Shown (coalesce windows) a ↔ Shown (asked windows) a := by
  rw [← coalesce_asked, shown_coalesce (asked_ne_nil windows)]

/-- **Joining does not lead out of memory.** -/
theorem coalesce_inMemory {windows : List MemoryWindow} (h : ∀ w ∈ windows, w.InMemory) :
    ∀ w ∈ coalesce windows, w.InMemory := by
  intro w hw
  have hordered := (coalesce_normal fun v hv => (h v hv).2.1).ordered w hw
  -- both ends of the window are shown by windows that were asked for
  have hshown : ∀ a, w.Shows a → 0 ≤ a ∧ a < memorySize := by
    intro a ha
    obtain ⟨v, hv, hlow, hhigh⟩ := (shown_asked windows a).mp ⟨w, hw, ha⟩
    obtain ⟨hfirst, _, hlast⟩ := asked_inMemory h v hv
    exact ⟨Int.le_trans hfirst hlow, Int.lt_of_le_of_lt hhigh hlast⟩
  exact ⟨(hshown w.first ⟨Int.le_refl _, hordered⟩).1, hordered,
    (hshown w.last ⟨hordered, Int.le_refl _⟩).2⟩

/-- Every window that is asked for lies within one that is left. -/
theorem coalesce_covers {windows : List MemoryWindow} (h : ∀ w ∈ windows, w.InMemory) :
    ∀ w ∈ asked windows, ∃ v ∈ coalesce windows, v.first ≤ w.first ∧ w.last ≤ v.last := by
  intro w hw
  have hnormal := coalesce_normal fun v hv => (h v hv).2.1
  refine hnormal.window_of_shown (asked_inMemory h w hw).2.1 fun a hlow hhigh => ?_
  exact (shown_asked windows a).mpr ⟨w, hw, hlow, hhigh⟩

/-- The addresses of a window, ascending. -/
def addresses (w : MemoryWindow) : List Nat := List.range' w.first.toNat w.length.toNat

theorem InMemory.mem_addresses {w : MemoryWindow} (h : w.InMemory) {a : Nat} :
    a ∈ w.addresses ↔ w.Shows a := by
  obtain ⟨hfirst, hordered, _⟩ := h
  simp only [addresses, List.mem_range'_1, Shows, length]
  omega

/-- **The addresses of one window after the other are the shown ones, ascending and each once.** -/
theorem flatMap_addresses {windows : List MemoryWindow} (h : ∀ w ∈ windows, w.InMemory) :
    (coalesce windows).flatMap addresses = shownAddresses windows := by
  have hin := coalesce_inMemory h
  have hnormal := coalesce_normal fun w hw => (h w hw).2.1
  have hascending : ((coalesce windows).flatMap addresses).Pairwise (· < ·) := by
    refine List.pairwise_flatMap.mpr ⟨fun w _ => List.pairwise_lt_range', ?_⟩
    refine List.Pairwise.imp_of_mem (fun {v w} hv hw hapart a ha b hb => ?_) hnormal.apart
    have hhigh := ((hin v hv).mem_addresses.mp ha).2
    have hlow := ((hin w hw).mem_addresses.mp hb).1
    omega
  refine hascending.eq_of_mem_iff (List.pairwise_lt_range.filter _) fun a => ?_
  rw [shownAddresses, List.mem_flatMap, List.mem_filter, decide_eq_true_eq, ← shown_asked,
    List.mem_range]
  constructor
  · rintro ⟨w, hw, ha⟩
    have hshows := (hin w hw).mem_addresses.mp ha
    obtain ⟨_, _, hlast⟩ := hin w hw
    have hhigh := hshows.2
    exact ⟨by omega, w, hw, hshows⟩
  · rintro ⟨_, w, hw, hshows⟩
    exact ⟨w, hw, (hin w hw).mem_addresses.mpr hshows⟩

/-! ## The rows of a window -/

/-- Rows ascend, since each begins sixteen bytes after the one before. -/
theorem rows_ascending (w : MemoryWindow) : w.rows.Pairwise (· < ·) := by
  refine List.pairwise_map.mpr (List.pairwise_lt_range.imp fun {j k} hlt => ?_)
  simp only [rowWidth]
  omega

/-- **A row begins at each multiple of sixteen from where sixteen bytes meet the window.** -/
theorem mem_rows {w : MemoryWindow} (hordered : w.first ≤ w.last) {a : Int} :
    a ∈ w.rows ↔ (rowWidth : Int) ∣ a ∧ ∃ q, a ≤ q ∧ q < a + rowWidth ∧ w.Shows q := by
  simp only [rows, List.mem_map, List.mem_range, rowCount, firstRow, rowWidth, Shows]
  constructor
  · rintro ⟨k, hk, rfl⟩
    refine ⟨by omega, max w.first (w.first - w.first % 16 + 16 * k), ?_⟩
    omega
  · rintro ⟨hrow, q, hlow, hhigh, hfirst, hlast⟩
    exact ⟨((a - (w.first - w.first % 16)) / 16).toNat, by omega, by omega⟩

/-- Rows lie in memory as a whole. -/
theorem InMemory.of_mem_rows {w : MemoryWindow} (h : w.InMemory) {a : Int} (ha : a ∈ w.rows) :
    0 ≤ a ∧ a + rowWidth ≤ memorySize := by
  obtain ⟨hfirst, hordered, hlast⟩ := h
  obtain ⟨hrow, q, hlow, hhigh, hfrom, hto⟩ := (mem_rows hordered).mp ha
  simp only [rowWidth, memorySize] at *
  omega

end MemoryWindow

namespace Memory

variable (m : Memory)

/-! ## What is printed -/

/-- **The bytes of windows that lie in memory.** -/
theorem windowBytes_of_inMemory {windows : List MemoryWindow} (h : ∀ w ∈ windows, w.InMemory) :
    m.windowBytes windows = .ok ((windows.flatMap MemoryWindow.addresses).map m.byteAt) := by
  have hread : ∀ w ∈ windows, m.readBlock w.first w.length = .ok (w.addresses.map m.byteAt) := by
    intro w hw
    obtain ⟨hfirst, hordered, hlast⟩ := h w hw
    have hholds : Holds w.first w.length := by
      simp only [Holds, MemoryWindow.length]
      omega
    rw [readBlock_of_holds hholds, MemoryWindow.addresses, List.range'_eq_map_range, List.map_map]
    rfl
  rw [windowBytes, mapM_of_ok hread, List.map_flatMap, List.flatMap_def]
  rfl

/-- A cell of a table: a byte as two digits. -/
def cell (byte : UInt8) : String :=
  String.ofList [hexDigit (byte.toNat / 16), hexDigit (byte.toNat % 16)]

theorem cell_eq_hex (byte : UInt8) : cell byte = hex 2 byte.toNat := (hex_byte byte).symm

/-- A row of a table: its address and the bytes from there on. -/
def rowLine (row : Int) : String :=
  " ".intercalate
    (hex 4 row :: (List.range rowWidth).map fun (column : Nat) => cell (m.byteAt (row + column).toNat))

/-- The block of a window: the header and its rows. -/
def block (w : MemoryWindow) : List String := tableHeader :: w.rows.map m.rowLine

/-- A row is printed if all its bytes are in memory. -/
theorem tableRow_eq {row : Int} (hlow : 0 ≤ row) (hhigh : row + rowWidth ≤ memorySize) :
    m.tableRow row = .ok (m.rowLine row) := by
  have hread : ∀ column ∈ List.range rowWidth,
      m.read (row + column) = .ok (m.byteAt (row + column).toNat) := by
    intro column hcolumn
    have hlt := List.mem_range.mp hcolumn
    refine if_pos ?_
    simp only [Holds]
    omega
  have hcells : (((List.range rowWidth).map fun (column : Nat) =>
      m.byteAt (row + column).toNat).map fun byte => hex 2 byte.toNat) =
      (List.range rowWidth).map fun (column : Nat) => cell (m.byteAt (row + column).toNat) := by
    rw [List.map_map]
    exact List.map_congr_left fun column _ => hex_byte _
  refine bind_eq_ok.mpr ⟨_, mapM_of_ok hread, ?_⟩
  rw [hcells, rowLine, String.intercalate_cons_of_ne_nil (by simp [rowWidth])]
  rfl

/-- Rows are printed one by one. -/
theorem tableRows_eq (row : Int) (n : Nat) :
    m.tableRows row n =
      ((List.range n).map fun (k : Nat) => row + rowWidth * k).mapM m.tableRow := by
  induction n generalizing row with
  | zero => rfl
  | succ n ih =>
      have hshift : ((List.range (n + 1)).map fun (k : Nat) => row + rowWidth * k) =
          row :: (List.range n).map fun (k : Nat) => row + rowWidth + rowWidth * k := by
        rw [List.range_succ_eq_map, List.map_cons, List.map_map]
        congr 1
        · simp
        · refine List.map_congr_left fun k _ => ?_
          simp only [Function.comp, rowWidth]
          omega
      rw [tableRows, hshift, List.mapM_cons, ih]
      rfl

theorem tableBlock_of_inMemory {w : MemoryWindow} (h : w.InMemory) :
    m.tableBlock w = .ok (m.block w) := by
  have hrows : ∀ row ∈ w.rows, m.tableRow row = .ok (m.rowLine row) := fun row hrow =>
    m.tableRow_eq (h.of_mem_rows hrow).1 (h.of_mem_rows hrow).2
  rw [tableBlock, tableRows_eq]
  exact bind_eq_ok.mpr ⟨_, mapM_of_ok hrows, rfl⟩

/-- **The table of windows that lie in memory.** -/
theorem hexTable_of_inMemory {windows : List MemoryWindow} (h : ∀ w ∈ windows, w.InMemory) :
    m.hexTable windows =
      .ok ("\n\n".intercalate ((windows.map m.block).map ("\n".intercalate ·))) := by
  have hblocks := mapM_of_ok fun w hw => m.tableBlock_of_inMemory (h w hw)
  exact bind_eq_ok.mpr ⟨_, hblocks, rfl⟩

/-! ## What is read off the print -/

/-- The numbers in a line of a table. -/
def numbers (line : String) : List (Option Nat) :=
  (splitAt ' ' line).map fun text => readDigits? 16 0 true text.toList

/-- The number that a block shows for an address: in the row that begins at the multiple of sixteen
before the address, behind the address of the row. -/
def shownByte? (block : List String) (address : Nat) : Option Nat := do
  let row ← (block.tail.map numbers).find? fun row =>
    row.head? = some (some (address - address % rowWidth))
  (row[address % rowWidth + 1]?).join

/-- **A row is read as its address and its bytes.** -/
theorem numbers_rowLine (row : Nat) :
    numbers (m.rowLine row) =
      some row :: (List.range rowWidth).map fun column => some (m.byteAt (row + column)).toNat := by
  have hnone : ∀ part ∈ hex 4 row ::
      (List.range rowWidth).map fun (column : Nat) => cell (m.byteAt ((row : Int) + column).toNat),
      ' ' ∉ part.toList := by
    simp only [List.forall_mem_cons, List.forall_mem_map, cell_eq_hex]
    exact ⟨not_mem_hex (by decide) 4 row, fun column _ => not_mem_hex (by decide) 2 _⟩
  rw [numbers, rowLine, splitAt_intercalate rfl (List.cons_ne_nil _ _) hnone, List.map_cons,
    readDigits?_hex, List.map_map]
  congr 1
  refine List.map_congr_left fun column _ => ?_
  simp only [Function.comp]
  rw [cell_eq_hex, readDigits?_hex]
  rfl

/-- The header and the rows are lines, and none is empty. -/
theorem block_lines (w : MemoryWindow) :
    ∀ line ∈ m.block w, line ≠ "" ∧ '\n' ∉ line.toList := by
  have hnumber : ∀ (width : Nat) (n : Int), '\n' ∉ (hex width n).toList :=
    not_mem_hex (by decide)
  simp only [block, List.forall_mem_cons, List.forall_mem_map]
  refine ⟨⟨by simp [tableHeader], ?_⟩, fun row _ => ⟨?_, ?_⟩⟩
  · rw [tableHeader, String.toList_append, List.mem_append, not_or]
    refine ⟨by decide, not_mem_intercalate (by decide) ?_⟩
    simp only [List.forall_mem_map]
    intro column _
    change '\n' ∉ ("+" ++ hex 0 column).toList
    rw [String.toList_append, List.mem_append, not_or]
    exact ⟨by decide, hnumber 0 column⟩
  · rw [rowLine, String.intercalate_cons_of_ne_nil (by simp [rowWidth])]
    simp
  · refine not_mem_intercalate (by decide) ?_
    simp only [List.forall_mem_cons, List.forall_mem_map, cell_eq_hex]
    exact ⟨hnumber 4 row, fun column _ => hnumber 2 _⟩

/-- **Every byte of the window can be read in its block.** -/
theorem shownByte?_block {w : MemoryWindow} (h : w.InMemory) {a : Nat} (ha : w.Shows a) :
    shownByte? (m.block w) a = some (m.byteAt a).toNat := by
  -- the row of the address is there, and a line that begins as this row does is this row
  have hhere : ((a - a % rowWidth : Nat) : Int) ∈ w.rows := by
    refine (MemoryWindow.mem_rows h.2.1).mpr ⟨?_, a, ?_, ?_, ha⟩
    all_goals simp only [rowWidth]; omega
  have hlines : ∀ line ∈ (m.block w).tail.map numbers, ∃ k : Nat, line =
      some k :: (List.range rowWidth).map fun column => some (m.byteAt (k + column)).toNat := by
    simp only [block, List.tail_cons, List.map_map, List.forall_mem_map,
      Function.comp_apply]
    intro row hrow
    obtain ⟨k, rfl⟩ := Int.eq_ofNat_of_zero_le (h.of_mem_rows hrow).1
    exact ⟨k, m.numbers_rowLine k⟩
  have hsome : (((m.block w).tail.map numbers).find? fun row =>
      row.head? = some (some (a - a % rowWidth))).isSome := by
    refine List.find?_isSome.mpr ⟨_, List.mem_map_of_mem (List.mem_map_of_mem hhere), ?_⟩
    rw [numbers_rowLine]
    simp
  obtain ⟨line, hline⟩ := Option.isSome_iff_exists.mp hsome
  obtain ⟨k, rfl⟩ := hlines line (List.mem_of_find?_eq_some hline)
  have hrow : k = a - a % rowWidth := by simpa using List.find?_some hline
  have hcolumn : a % rowWidth < rowWidth := Nat.mod_lt a (by decide)
  have hplace : k + a % rowWidth = a := by
    have hle := Nat.mod_le a rowWidth
    omega
  rw [shownByte?, hline, Option.bind_eq_bind, Option.bind_some, List.getElem?_cons_succ,
    List.getElem?_map, List.getElem?_range hcolumn, Option.map_some, hplace]
  rfl

/-! ## The main statement -/

/-- A block shows a window. -/
structure Tabulates (w : MemoryWindow) (block : List String) : Prop where
  /-- Under the header is a row for each multiple of sixteen from where sixteen bytes meet the
  window, ascending. -/
  lines : ∃ rows : List Int, rows.Pairwise (· < ·) ∧
    (∀ a, a ∈ rows ↔ (rowWidth : Int) ∣ a ∧ ∃ q, a ≤ q ∧ q < a + rowWidth ∧ w.Shows q) ∧
    block = tableHeader :: rows.map m.rowLine
  /-- Every byte of the window can be read. -/
  readable : ∀ a : Nat, w.Shows a → shownByte? block a = some (m.byteAt a).toNat

theorem block_tabulates {w : MemoryWindow} (h : w.InMemory) : m.Tabulates w (m.block w) where
  lines := ⟨w.rows, w.rows_ascending, fun _ => MemoryWindow.mem_rows h.2.1, rfl⟩
  readable := fun _ => m.shownByte?_block h

end Memory

/-- Neither kind of dump meets a fault. -/
theorem dumpOf_of_inMemory (memory : Memory) {windows : List MemoryWindow}
    (h : ∀ w ∈ windows, w.InMemory) (binary : Bool) :
    ∃ dump, dumpOf memory windows binary = .ok dump := by
  have hin := MemoryWindow.coalesce_inMemory h
  cases binary with
  | true => exact ⟨_, congrArg (Except.map Printed.bytes) (memory.windowBytes_of_inMemory hin)⟩
  | false => exact ⟨_, congrArg (Except.map _) (memory.hexTable_of_inMemory hin)⟩

/--
**Dumps of windows in memory show just what they are asked for, and always.**

In binary these are the bytes at the addresses that the windows show, ascending and each once. The
table is a text of blocks, one for each window that is left after joining, and each of the windows
lies within one of them.
-/
theorem dumpOf_exact (memory : Memory) {windows : List MemoryWindow}
    (h : ∀ w ∈ windows, w.InMemory) :
    dumpOf memory windows true =
        .ok (.bytes ((MemoryWindow.shownAddresses windows).map memory.byteAt)) ∧
      (∃ text, dumpOf memory windows false = .ok (.text text) ∧
        List.Forall₂ memory.Tabulates (MemoryWindow.coalesce windows) (blocksOf text)) ∧
      ∀ w ∈ MemoryWindow.asked windows, ∃ v ∈ MemoryWindow.coalesce windows,
        v.first ≤ w.first ∧ w.last ≤ v.last := by
  have hin := MemoryWindow.coalesce_inMemory h
  refine ⟨?_, ?_, MemoryWindow.coalesce_covers h⟩
  · simp only [dumpOf, if_true, memory.windowBytes_of_inMemory hin,
      MemoryWindow.flatMap_addresses h]
    rfl
  · have hsome : MemoryWindow.coalesce windows ≠ [] := by
      obtain ⟨w, hw⟩ := List.exists_mem_of_ne_nil _ (MemoryWindow.asked_ne_nil windows)
      obtain ⟨v, hv, _⟩ := MemoryWindow.coalesce_covers h w hw
      exact List.ne_nil_of_mem hv
    refine ⟨_, by simp only [dumpOf, memory.hexTable_of_inMemory hin]; rfl, ?_⟩
    rw [blocksOf_print (List.map_eq_nil_iff.not.mpr hsome), List.forall₂_map_right_iff, List.forall₂_same]
    · exact fun w hw => memory.block_tabulates (hin w hw)
    · simp only [List.forall_mem_map]
      exact fun w _ => ⟨List.cons_ne_nil _ _, memory.block_lines w⟩

/-- The last two bytes of memory and, out of order and touching, four bytes of the first glyph: the
bytes of the glyph come first, and each of two blocks can be read at both ends. -/
theorem dumpOf_exact_glyph :
    let windows : List MemoryWindow := [⟨0xFFE, 0xFFF⟩, ⟨0x52, 0x54⟩, ⟨0x51, 0x51⟩]
    (∀ w ∈ windows, w.InMemory) ∧
      dumpOf Memory.blank windows true = .ok (.bytes [0x90, 0x90, 0x90, 0xF0, 0, 0]) ∧
      ∃ text glyph last, dumpOf Memory.blank windows false = .ok (.text text) ∧
        blocksOf text = [glyph, last] ∧
        Memory.shownByte? glyph 0x51 = some 0x90 ∧ Memory.shownByte? glyph 0x54 = some 0xF0 ∧
        Memory.shownByte? last 0xFFE = some 0 ∧ Memory.shownByte? last 0xFFF = some 0 := by
  intro windows
  have hin : ∀ w ∈ windows, w.InMemory := by decide
  obtain ⟨hbytes, ⟨text, htext, hblocks⟩, _⟩ := dumpOf_exact Memory.blank hin
  have hjoined : MemoryWindow.coalesce windows = [⟨0x51, 0x54⟩, ⟨0xFFE, 0xFFF⟩] := by
    refine MemoryWindow.coalesce_eq (by decide) (fun w hw => (hin w hw).2.1)
      ⟨by decide, by decide⟩ fun a => ?_
    simp only [windows, MemoryWindow.shown_cons, MemoryWindow.not_shown_nil, or_false,
      MemoryWindow.Shows]
    omega
  rw [← MemoryWindow.flatMap_addresses hin, hjoined] at hbytes
  rw [hjoined] at hblocks
  obtain ⟨glyph, _, hglyph, hrest, hfirst⟩ := List.forall₂_cons_left_iff.mp hblocks
  obtain ⟨last, _, hlast, hnone, rfl⟩ := List.forall₂_cons_left_iff.mp hrest
  rw [List.forall₂_nil_left_iff.mp hnone] at hfirst
  refine ⟨hin, hbytes.trans ?_, text, glyph, last, htext, hfirst, ?_, ?_, ?_, ?_⟩
  · have haddresses : List.flatMap MemoryWindow.addresses [⟨0x51, 0x54⟩, ⟨0xFFE, 0xFFF⟩] =
        [0x51, 0x52, 0x53, 0x54, 0xFFE, 0xFFF] := rfl
    simp only [haddresses, List.map_cons, List.map_nil, Memory.byteAt_blank]
    rfl
  · rw [hglyph.readable 0x51 (by decide), Memory.byteAt_blank]
    rfl
  · rw [hglyph.readable 0x54 (by decide), Memory.byteAt_blank]
    rfl
  · rw [hlast.readable 0xFFE (by decide), Memory.byteAt_blank]
    rfl
  · rw [hlast.readable 0xFFF (by decide), Memory.byteAt_blank]
    rfl

end ChipEight
