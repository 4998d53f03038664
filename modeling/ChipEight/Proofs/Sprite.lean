import ChipEight.Proofs.Delivery
import ChipEight.Proofs.Effects
import ChipEight.Proofs.Faults
import ChipEight.Proofs.Ranges
import Mathlib.Tactic.IntervalCases

/-!
# What a sprite does to the screen

The screen is drawn on a row at a time: a sprite's row is shifted to its column as a word, and the
two words are combined. This module says what that comes to pixel by pixel (`flips`): a pixel of the
part of the screen in use is flipped exactly if it lies under a set bit of the sprite, and a drawing
collides exactly if one that is flipped was lit. It holds for all whole numbers as coordinates and
as rows, so a sprite is clipped at all four edges and never comes in again at the other side.

The rows come one after another, each on what the ones before it left. A row of the sprite is drawn
on one row of the screen only and the rows after it go further down, so what is collided with is
what was there before the whole drawing.
-/

namespace ChipEight

/-! ## The bits of a sprite -/

/-- The bit of a whole number that counts for two to the power of k. -/
def bitOf (value : Int) (k : Nat) : Bool := decide (value >>> k % 2 = 1)

/-- The pixel at a distance from the left end of a sprite's row, which is its highest of eight bits;
no other distance has one. -/
def spritePixel (bits offset : Int) : Bool :=
  decide (0 ≤ offset ∧ offset < 8) && bitOf bits (7 - offset).toNat

/-- A pixel is in the part of the screen that is in use, and a sprite drawn at a place has a set bit
over it. -/
def flips (height x y : Int) (rows : List Int) (column row : Nat) : Bool :=
  decide (column < screenWidth ∧ (row : Int) < height ∧ 0 ≤ (row : Int) - y) &&
    (rows[((row : Int) - y).toNat]?.any fun bits => spritePixel bits (column - x))

theorem testBit_byte (value : Int) (k : Nat) :
    (value % 256).toNat.testBit k = (decide (k < 8) && bitOf value k) := by
  by_cases hk : k < 8
  · rw [decide_eq_true hk, Bool.true_and, bitOf, Nat.testBit_eq_decide_div_mod_eq,
      Int.shiftRight_eq_div_pow]
    refine decide_eq_decide.mpr ?_
    interval_cases k <;> omega
  · rw [decide_eq_false hk, Bool.false_and]
    refine Nat.testBit_lt_two_pow ?_
    have hpow : 2 ^ 8 ≤ 2 ^ k := Nat.pow_le_pow_right (by decide) (by omega)
    omega

theorem testBit_sprite (bits : Int) {k : Nat} {offset : Int} (h : (k : Int) = 7 - offset) :
    (bits % 256).toNat.testBit k = spritePixel bits offset := by
  have hk : (7 - offset).toNat = k := by omega
  rw [testBit_byte, spritePixel, hk]
  refine congrArg (· && bitOf bits k) (decide_eq_decide.mpr ?_)
  omega

/-! ## One row -/

namespace PixelRow

theorem lit_zero (column : Nat) : lit 0 column = false := BitVec.getMsbD_zero

theorem lit_xor (old sprite : PixelRow) (column : Nat) :
    lit (old ^^^ sprite) column = (lit old column ^^ lit sprite column) := BitVec.getMsbD_xor

theorem lit_and (old sprite : PixelRow) (column : Nat) :
    lit (old &&& sprite) column = (lit old column && lit sprite column) := BitVec.getMsbD_and

theorem lit_of_width_le (pixels : PixelRow) {column : Nat} (h : screenWidth ≤ column) :
    lit pixels column = false := BitVec.getMsbD_of_ge pixels column h

/-- **A sprite's row in its place has the sprite's pixels**, as far as it lies on the screen. -/
theorem lit_spriteRow (x bits : Int) {column : Nat} (h : column < screenWidth) :
    lit (spriteRow x bits) column = spritePixel bits (column - x) := by
  have hcolumn : column < 64 := h
  unfold lit spriteRow
  rw [BitVec.getMsbD_eq_getLsbD, decide_eq_true hcolumn, Bool.true_and]
  dsimp only
  by_cases hout : x ≤ -8 ∨ 64 ≤ x
  · rw [if_pos hout, spritePixel, decide_eq_false (by omega), Bool.false_and]
    exact BitVec.getLsbD_zero
  rw [if_neg hout]
  by_cases hleft : x ≤ 56
  · rw [if_pos hleft, BitVec.getLsbD_ofNat, Nat.testBit_shiftLeft,
      decide_eq_true (p := 64 - 1 - column < 64) (by omega), Bool.true_and]
    by_cases hreached : (56 - x).toNat ≤ 64 - 1 - column
    · rw [decide_eq_true hreached, Bool.true_and]
      exact testBit_sprite bits (by omega)
    · -- right of the sprite, where zeros were shifted in
      rw [decide_eq_false hreached, spritePixel, decide_eq_false (by omega), Bool.false_and,
        Bool.false_and]
  · rw [if_neg hleft, BitVec.getLsbD_ofNat, Nat.testBit_shiftRight,
      decide_eq_true (p := 64 - 1 - column < 64) (by omega), Bool.true_and]
    exact testBit_sprite bits (by omega)

/-- Two words have a bit in common if there is a pixel that is lit in both rows. -/
theorem and_ne_zero_iff (old sprite : PixelRow) :
    ((old &&& sprite) != 0) = true ↔
      ∃ column < screenWidth, lit sprite column = true ∧ lit old column = true := by
  rw [bne_iff_ne]
  constructor
  · intro hne
    by_contra hnone
    have hdark : ∀ column < screenWidth, lit (old &&& sprite) column = lit 0 column := by
      intro column hcolumn
      rw [lit_zero, lit_and]
      refine Bool.eq_false_iff.mpr fun hboth => hnone ⟨column, hcolumn, ?_⟩
      obtain ⟨hold, hsprite⟩ := Bool.and_eq_true_iff.mp hboth
      exact ⟨hsprite, hold⟩
    exact hne (BitVec.eq_of_getMsbD_eq hdark)
  · rintro ⟨column, _, hsprite, hold⟩ hzero
    have hboth := lit_and old sprite column
    rw [hzero, lit_zero, hsprite, hold] at hboth
    exact absurd hboth.symm (by simp)

end PixelRow

/-! ## Row after row -/

section Rows

variable (height x y bits : Int) (rows : List Int) (column row : Nat)

theorem flips_nil : flips height x y [] column row = false := by
  rw [flips, List.getElem?_nil, Option.any_none, Bool.and_false]

variable {y row}

theorem flips_above (h : (row : Int) < y) : flips height x y rows column row = false := by
  rw [flips, decide_eq_false (by omega), Bool.false_and]

/-- At the height of its first row a sprite flips what that row covers. -/
theorem flips_first (h : (row : Int) = y) : flips height x y (bits :: rows) column row =
    (decide (column < screenWidth ∧ (row : Int) < height) && spritePixel bits (column - x)) := by
  have hfirst : ((row : Int) - y).toNat = 0 := by omega
  rw [flips, hfirst, List.getElem?_cons_zero, Option.any_some]
  refine congrArg (· && spritePixel bits (column - x)) (decide_eq_decide.mpr ?_)
  omega

/-- Elsewhere it flips what its other rows flip, from one row further down. -/
theorem flips_later (h : (row : Int) ≠ y) : flips height x y (bits :: rows) column row =
    flips height x (y + 1) rows column row := by
  by_cases habove : (row : Int) < y
  · rw [flips_above _ _ _ _ habove, flips_above _ _ _ _ (by omega)]
  · have hnext : ((row : Int) - y).toNat = ((row : Int) - (y + 1)).toNat + 1 := by omega
    rw [flips, flips, hnext, List.getElem?_cons_succ]
    refine congrArg (· && _) (decide_eq_decide.mpr ?_)
    omega

/-- A row off the screen flips nothing. -/
theorem flips_outside (h : ¬ (0 ≤ y ∧ y < height ∧ y < screenHeight)) (hrow : row < screenHeight) :
    flips height x y (bits :: rows) column row = flips height x (y + 1) rows column row := by
  by_cases hhere : (row : Int) = y
  · rw [flips_first _ _ _ _ _ hhere, flips_above _ _ _ _ (by omega), decide_eq_false (by omega),
      Bool.false_and]
  · exact flips_later _ _ _ _ _ hhere

variable (grid : PixelGrid)

theorem drawRows_outside (h : ¬ (0 ≤ y ∧ y < height ∧ y < screenHeight)) :
    drawRows height x grid y (bits :: rows) = drawRows height x grid (y + 1) rows := by
  rw [drawRows, dif_neg h]

theorem drawRows_inside {k : Nat} (hk : k < screenHeight) (hheight : (k : Int) < height) :
    drawRows height x grid k (bits :: rows) =
      let later := drawRows height x (grid.set k (grid[k] ^^^ spriteRow x bits)) (k + 1) rows
      (later.1, (grid[k] &&& spriteRow x bits) != 0 || later.2) := by
  have hin : 0 ≤ (k : Int) ∧ (k : Int) < height ∧ (k : Int) < screenHeight := by omega
  rw [drawRows, dif_pos hin]
  rfl

variable {column}

/-- **Drawing rows flips the pixels under set bits, and no others.** -/
theorem drawRows_lit (y : Int) (hcolumn : column < screenWidth) (hrow : row < screenHeight) :
    PixelRow.lit (drawRows height x grid y rows).1[row] column =
      (PixelRow.lit grid[row] column ^^ flips height x y rows column row) := by
  -- by the rows, for any grid: each row is drawn on what the ones above it left
  induction rows generalizing grid y with
  | nil =>
      rw [flips_nil, Bool.xor_false]
      rfl
  | cons bits rest ih =>
      by_cases hin : 0 ≤ y ∧ y < height ∧ y < screenHeight
      · obtain ⟨k, rfl⟩ := Int.eq_ofNat_of_zero_le hin.1
        have hk : k < screenHeight := by omega
        rw [drawRows_inside _ _ _ _ _ hk hin.2.1, ih]
        by_cases hhere : row = k
        · -- the rows that come after it are drawn further down
          subst hhere
          rw [Vector.getElem_set_self, PixelRow.lit_xor, PixelRow.lit_spriteRow _ _ hcolumn,
            flips_above _ _ _ _ (by omega), Bool.xor_false, flips_first _ _ _ _ _ rfl,
            decide_eq_true ⟨hcolumn, hin.2.1⟩, Bool.true_and]
        · rw [Vector.getElem_set_ne _ _ (Ne.symm hhere), flips_later _ _ _ _ _ (by omega)]
      · rw [drawRows_outside _ _ _ _ _ hin, ih, flips_outside _ _ _ _ _ hin hrow]

/-- **Drawing rows collides exactly if a pixel is flipped that was lit before all of them.** -/
theorem drawRows_hit (y : Int) :
    (drawRows height x grid y rows).2 = true ↔
      ∃ column, ∃ row, ∃ hrow : row < screenHeight,
        flips height x y rows column row = true ∧ PixelRow.lit grid[row] column = true := by
  induction rows generalizing grid y with
  | nil => exact iff_of_false Bool.false_ne_true (by simp [flips_nil])
  | cons bits rest ih =>
      by_cases hin : 0 ≤ y ∧ y < height ∧ y < screenHeight
      · obtain ⟨k, rfl⟩ := Int.eq_ofNat_of_zero_le hin.1
        have hk : k < screenHeight := by omega
        -- the rows after this one find their part of the screen as it was
        have hlater : ∀ column row, ∀ hrow : row < screenHeight, row ≠ k →
            PixelRow.lit (grid.set k (grid[k] ^^^ spriteRow x bits))[row] column =
              PixelRow.lit grid[row] column := by
          intro column row hrow hne
          rw [Vector.getElem_set_ne _ _ (Ne.symm hne)]
        simp only [drawRows_inside _ _ _ _ _ hk hin.2.1, Bool.or_eq_true, ih,
          PixelRow.and_ne_zero_iff]
        constructor
        · rintro (⟨column, hcolumn, hsprite, hlit⟩ | ⟨column, row, hrow, hflips, hlit⟩)
          · refine ⟨column, k, hk, ?_, hlit⟩
            rw [flips_first _ _ _ _ _ rfl, decide_eq_true ⟨hcolumn, hin.2.1⟩, Bool.true_and,
              ← PixelRow.lit_spriteRow _ _ hcolumn, hsprite]
          · have hne : row ≠ k := by
              rintro rfl
              rw [flips_above _ _ _ _ (by omega)] at hflips
              exact absurd hflips Bool.false_ne_true
            rw [hlater _ _ hrow hne] at hlit
            exact ⟨column, row, hrow, by rw [flips_later _ _ _ _ _ (by omega), hflips], hlit⟩
        · rintro ⟨column, row, hrow, hflips, hlit⟩
          by_cases hhere : row = k
          · subst hhere
            rw [flips_first _ _ _ _ _ rfl, Bool.and_eq_true, decide_eq_true_eq] at hflips
            obtain ⟨⟨hcolumn, _⟩, hsprite⟩ := hflips
            rw [← PixelRow.lit_spriteRow _ _ hcolumn] at hsprite
            exact Or.inl ⟨column, hcolumn, hsprite, hlit⟩
          · rw [flips_later _ _ _ _ _ (by omega)] at hflips
            rw [← hlater _ _ hrow hhere] at hlit
            exact Or.inr ⟨column, row, hrow, hflips, hlit⟩
      · rw [drawRows_outside _ _ _ _ _ hin, ih]
        refine exists_congr fun column => exists_congr fun row => exists_congr fun hrow => ?_
        rw [flips_outside _ _ _ _ _ hin hrow]

end Rows

/-! ## The screen -/

/-- What a sprite drawn at a place leaves on a screen, and whether it collided. -/
structure Drawn (s : Screen) (x y : Int) (rows : List Int) (after : Screen) (hit : Bool) :
    Prop where
  /-- Pixels under set bits are flipped, and all others stay as they are. -/
  pixels : ∀ column row,
    after.lit column row = (s.lit column row ^^ flips s.height x y rows column row)
  /-- It collided if a pixel was flipped that was lit. -/
  collision : hit = true ↔
    ∃ column row, flips s.height x y rows column row = true ∧ s.lit column row = true
  /-- There are as many rows and columns as before, and pixels are zero or one. -/
  sized : after.pixels.length = 32 ∧
    ∀ row ∈ after.pixels, row.length = 64 ∧ ∀ pixel ∈ row, pixel = 0 ∨ pixel = 1
  /-- As many rows are in use as before. -/
  height : after.height = s.height
  /-- There is news. -/
  news : after.dirty = true

namespace Screen

variable (s : Screen) (x y : Int) (rows : List Int)

theorem lit_row (column : Nat) {row : Nat} (h : row < screenHeight) :
    s.lit column row = PixelRow.lit s.grid[row] column := by
  rw [lit, Vector.getElem?_eq_getElem h]

theorem lit_outside {column row : Nat} (h : ¬ (column < screenWidth ∧ row < screenHeight)) :
    s.lit column row = false := by
  by_cases hrow : row < screenHeight
  · rw [lit_row _ _ hrow]
    exact PixelRow.lit_of_width_le _ (by omega)
  · rw [lit, Vector.getElem?_eq_none (by omega)]

/-- **A drawing does what it should**, if no more rows are in use than there are. -/
theorem draw_drawn (h : s.height ≤ screenHeight) :
    Drawn s x y rows (s.draw x y rows).1 (s.draw x y rows).2 where
  pixels column row := by
    by_cases hin : column < screenWidth ∧ row < screenHeight
    · rw [lit_row _ _ hin.2, lit_row _ _ hin.2]
      exact drawRows_lit _ _ _ _ _ hin.1 hin.2
    · -- nothing is lit beyond the edges, and nothing is flipped there
      have hflips : flips s.height x y rows column row = false := by
        rw [flips, decide_eq_false (by omega), Bool.false_and]
      rw [lit_outside _ hin, lit_outside _ hin, hflips]
      rfl
  collision := by
    refine (drawRows_hit s.height x rows s.grid y).trans ?_
    refine exists_congr fun column => exists_congr fun row => ?_
    constructor
    · rintro ⟨hrow, hflips, hlit⟩
      exact ⟨hflips, (lit_row _ _ hrow).trans hlit⟩
    · rintro ⟨hflips, hlit⟩
      by_cases hrow : row < screenHeight
      · exact ⟨hrow, hflips, (lit_row _ _ hrow).symm.trans hlit⟩
      · rw [lit_outside _ (fun hin => hrow hin.2)] at hlit
        exact absurd hlit Bool.false_ne_true
  sized := pixels_sized _
  height := rfl
  news := rfl

/-- Then no drawing is turned down. -/
theorem tryDraw_eq (h : s.height ≤ screenHeight) :
    s.tryDraw x y rows = ((s.draw x y rows).1, .ok (s.draw x y rows).2) := by
  unfold tryDraw
  exact if_neg (by omega)

end Screen

/-! ## A step that draws -/

namespace Board

/-- A number of bytes of memory from the index on. -/
def bytesAtIndex (b : Board) (n : Nibble) : List Int :=
  (List.range n.val).map fun k => ((b.memory.byteAt (b.processor.index.toNat + k)).toNat : Int)

variable {b : Board} {n : Nibble}

theorem spriteRows_eq (hindex : 0 ≤ b.processor.index) (hroom : b.processor.index + n.val ≤ 4096) :
    b.spriteRows n = some (b.bytesAtIndex n) := by
  have hholds : Memory.Holds b.processor.index n.val := ⟨hindex, by omega, hroom⟩
  rw [spriteRows, Memory.readBlock, if_pos hholds, bytesAtIndex]
  simp [Except.toOption, Function.comp_def]

/-- **A step on DXYN draws the bytes at the index where its registers point, and reports it.** -/
theorem step_draw (hrun : b.processor.halted = false) {x y : Register}
    (hf : b.Fetches (0xD000 + 0x100 * x.val + 0x10 * y.val + n.val))
    (hindex : 0 ≤ b.processor.index) (hroom : b.processor.index + n.val ≤ 4096) (now : Seconds) :
    let drawing := b.drawn x y (b.bytesAtIndex n)
    (b.step now).fault = none ∧ (b.step now).board.screen = drawing.1 ∧
      (b.step now).board.processor.registers =
        (b.processor.setRegister flagRegister (if drawing.2 then 1 else 0)).registers := by
  obtain ⟨word, hfetch, hword⟩ := hf
  have hdecode : Instruction.decode word = .draw x y n :=
    Instruction.decode_code (by simp) hword
  obtain ⟨hboard, hfault⟩ := step_of_fetch hrun hfetch now
  -- the program counter has moved on by then, and the sprite does not depend on it
  have hrows : b.advanced.spriteRows n = some (b.bytesAtIndex n) := spriteRows_eq hindex hroom
  rw [hboard, hfault, hdecode]
  refine ⟨if_pos ⟨hindex, by omega, hroom⟩, ?_, ?_⟩
  · simp only [outcome, screenAfter, hrows]
    rfl
  · simp only [outcome, registersAfter, hrows]
    rfl

end Board

/-! ## The main statement -/

/--
**A sprite is drawn as its pixels say.**

On a screen of which no more rows are in use than there are, for all whole numbers as coordinates
and as rows: a pixel at column c and row r of the part in use is flipped if 0 ≤ c - x < 8 and row
r - y of the sprite, counted from zero, has bit 7 - (c - x); no other pixel changes, and the drawing
collides exactly if one that is flipped was lit. A step on DXYN whose bytes are all in memory draws
them in this way at the place that the registers X and Y held before the step, whichever they are,
and leaves one in the flag register if it collided and zero if not; no other register changes.
-/
theorem draw_pixels :
    (∀ (s : Screen) (x y : Int) (rows : List Int), s.height ≤ screenHeight →
      ∃ after hit, s.tryDraw x y rows = (after, .ok hit) ∧ Drawn s x y rows after hit) ∧
    ∀ (b : Board) (now : Seconds) (x y : Register) (n : Nibble),
      b.processor.halted = false →
      b.Fetches (0xD000 + 0x100 * x.val + 0x10 * y.val + n.val) →
      0 ≤ b.processor.index → b.processor.index + n.val ≤ 4096 →
      b.screen.height ≤ screenHeight →
      ∃ hit, (b.step now).fault = none ∧
        Drawn b.screen (b.processor.register x).toNat (b.processor.register y).toNat
          (b.bytesAtIndex n) (b.step now).board.screen hit ∧
        ∀ k, (b.step now).board.processor.register k =
          if k = flagRegister then (if hit then 1 else 0) else b.processor.register k := by
  refine ⟨fun s x y rows h => ⟨_, _, s.tryDraw_eq x y rows h, s.draw_drawn x y rows h⟩, ?_⟩
  intro b now x y n hrun hf hindex hroom hheight
  obtain ⟨hfault, hscreen, hregisters⟩ := Board.step_draw hrun hf hindex hroom now
  refine ⟨(b.drawn x y (b.bytesAtIndex n)).2, hfault, ?_, fun k => ?_⟩
  · rw [hscreen]
    exact b.screen.draw_drawn _ _ _ hheight
  · rw [Processor.register, hregisters]
    by_cases hk : k = flagRegister
    · rw [if_pos hk, hk]
      exact Vector.getElem_set_self _
    · rw [if_neg hk]
      exact Processor.setRegister_of_ne _ _ hk

/-- Thirteen rows of 0xDD four rows above the bottom, on a screen with one column lit: four rows are
drawn, the lit column is under the first pixel of each, and the drawing collides. -/
theorem draw_pixels_bottom_edge :
    let b : Board :=
      { (Machine.new (.ofSeed 7) 0.25).board with
        processor := { registers := (Vector.replicate 16 0).set 13 28 }
        memory := ⟨Vector.replicate memorySize 0xDD, 0⟩
        screen := { grid := Vector.replicate screenHeight (1 <<< 35) } }
    ∃ hit, (b.step 0.5).fault = none ∧
      Drawn b.screen 28 28 (List.replicate 13 0xDD) (b.step 0.5).board.screen hit ∧
      hit = true ∧ (b.step 0.5).board.processor.register flagRegister = 1 ∧
      (b.step 0.5).board.screen.lit 28 27 = true ∧ (b.step 0.5).board.screen.lit 28 28 = false ∧
      (b.step 0.5).board.screen.lit 29 31 = true := by
  intro b
  have hbyte : ∀ k, k < memorySize → b.memory.byteAt k = 0xDD := by
    intro k hk
    simp [b, Memory.byteAt, hk]
  have hf : b.Fetches 0xDDDD := by
    refine ⟨0xDDDD, ?_, rfl⟩
    rw [Memory.fetch_eq, if_pos (by decide), hbyte _ (by decide), hbyte _ (by decide)]
    rfl
  have hrows : b.bytesAtIndex 13 = List.replicate 13 0xDD := by
    refine List.eq_replicate_iff.mpr ⟨rfl, fun value hvalue => ?_⟩
    obtain ⟨k, hk, rfl⟩ := List.mem_map.mp hvalue
    have hk : k < 13 := List.mem_range.mp hk
    have hin : b.processor.index.toNat + k < memorySize := by
      change 0 + k < 4096
      omega
    rw [hbyte _ hin]
    rfl
  obtain ⟨hit, hfault, hdrawn, hregisters⟩ :=
    draw_pixels.2 b 0.5 13 13 13 rfl hf (by decide) (by decide) (by decide)
  rw [hrows] at hdrawn
  have hhit : hit = true := hdrawn.collision.mpr ⟨28, 28, by decide, by decide⟩
  refine ⟨hit, hfault, hdrawn, hhit, ?_, ?_, ?_, ?_⟩
  · rw [hregisters, if_pos rfl, hhit]
    rfl
  · rw [hdrawn.pixels]
    decide
  · rw [hdrawn.pixels]
    decide
  · rw [hdrawn.pixels]
    decide

end ChipEight
