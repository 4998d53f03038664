import ChipEight.Memory

/-!
# Memory as an array

Everything that is put into memory goes through `Memory.place`, so one statement says what memory
holds afterwards: the values from the address on, as far as there is room, and what it held before
everywhere else. The rest of the module reads the accesses by their ends, each with its condition
and its result, and no proof about accesses opens one again.
-/

namespace ChipEight

/-- A byte is stored of a whole number modulo 256. -/
theorem byteOf_toNat (value : Int) : ((byteOf value).toNat : Int) = value % 256 := by
  have hlow := Int.emod_nonneg value (show (256 : Int) ≠ 0 by decide)
  have hhigh := Int.emod_lt_of_pos value (show (0 : Int) < 256 by decide)
  unfold byteOf
  rw [UInt8.toNat_ofNat']
  omega

/-- So a byte is stored as it is. -/
theorem byteOf_byte (value : UInt8) : byteOf value.toNat = value := by
  have hlt := value.toNat_lt
  have hnumber := byteOf_toNat value.toNat
  exact UInt8.toNat_inj.mp (by omega)

namespace Memory

/-! ## What is put in place -/

/-- **Placing changes the bytes from the address on and no others.** -/
theorem place_getElem? (bytes : Vector UInt8 memorySize) (address : Nat) (values : List UInt8)
    (k : Nat) : (place bytes address values)[k]? =
      if address ≤ k ∧ k < address + values.length ∧ k < memorySize then values[k - address]?
      else bytes[k]? := by
  induction values generalizing bytes address with
  | nil => rw [place, if_neg (by rw [List.length_nil]; omega)]
  | cons value rest ih =>
      rw [place, ih, Vector.getElem?_setIfInBounds, List.length_cons]
      by_cases hhere : address = k
      · -- the later values come behind this one
        subst hhere
        rw [if_neg (by omega), if_pos rfl, Nat.sub_self, List.getElem?_cons_zero]
        by_cases hin : address < memorySize
        · rw [if_pos hin, if_pos (by omega)]
        · -- past the end there is no byte to be put in place
          rw [if_neg hin, if_neg (by omega), Vector.getElem?_eq_none (by omega)]
      · rw [if_neg hhere]
        by_cases hin : address + 1 ≤ k ∧ k < address + 1 + rest.length ∧ k < memorySize
        · rw [if_pos hin, if_pos (by omega), show k - address = (k - (address + 1)) + 1 by omega,
            List.getElem?_cons_succ]
        · rw [if_neg hin, if_neg (by omega)]

/-- The bytes of a memory in which values were put in place. -/
theorem byteAt_place (m : Memory) (address : Nat) (values : List UInt8) (k : Nat) :
    byteAt { m with bytes := place m.bytes address values } k =
      if address ≤ k ∧ k < address + values.length ∧ k < memorySize then
        values[k - address]?.getD 0
      else m.byteAt k := by
  simp only [byteAt, place_getElem?]
  split <;> rfl

/-- Memory holds the glyphs at first, each byte at its place, and zero elsewhere. -/
theorem byteAt_blank (k : Nat) :
    blank.byteAt k =
      if fontStart ≤ k ∧ k < fontStart + fontGlyphs.length then
        fontGlyphs[k - fontStart]?.getD 0
      else 0 := by
  have hzero : byteAt ⟨Vector.replicate memorySize 0, 0⟩ k = 0 := by
    rw [byteAt, Vector.getElem?_replicate]
    split <;> rfl
  have hend : fontStart + fontGlyphs.length ≤ memorySize := by decide
  refine (byteAt_place ⟨Vector.replicate memorySize 0, 0⟩ fontStart fontGlyphs k).trans ?_
  rw [hzero]
  by_cases hin : fontStart ≤ k ∧ k < fontStart + fontGlyphs.length
  · rw [if_pos hin, if_pos ⟨hin.1, hin.2, Nat.lt_of_lt_of_le hin.2 hend⟩]
  · rw [if_neg hin, if_neg fun hc => hin ⟨hc.1, hc.2.1⟩]

/-- The bytes of a program that was loaded, each at its place. -/
theorem byteAt_load {m loaded : Memory} {program : List UInt8} (h : m.load program = .ok loaded)
    (k : Nat) : loaded.byteAt k =
      if programStart ≤ k ∧ k < programStart + program.length then
        program[k - programStart]?.getD 0
      else m.byteAt k := by
  unfold load at h
  split at h
  · rename_i hroom
    rw [← Except.ok.inj h]
    simp only [byteAt, place_getElem?]
    by_cases hin : programStart ≤ k ∧ k < programStart + program.length
    · rw [if_pos hin, if_pos ⟨hin.1, hin.2, by simp only [programLimit] at hroom; omega⟩]
    · rw [if_neg hin, if_neg (fun hc => hin ⟨hc.1, hc.2.1⟩)]
  · exact absurd h (by simp)

/-! ## The ends of an access -/

/-- **Fetching, with its three ends written out.** The end mark needs no second byte. -/
theorem fetch_eq (m : Memory) (pc : Int) :
    m.fetch pc =
      if 0 ≤ pc ∧ pc ≤ 0xFFF then
        if m.byteAt pc.toNat = endMark then .ok (wordOf endMark 0)
        else if pc = 0xFFF then .error (.outOfBounds 0x1000 1)
        else .ok (wordOf (m.byteAt pc.toNat) (m.byteAt (pc + 1).toNat))
      else .error (.outOfBounds pc 1) := by
  have hin : Holds pc 1 ↔ 0 ≤ pc ∧ pc ≤ 0xFFF := by
    simp only [Holds, memorySize]; omega
  unfold fetch read
  by_cases h : 0 ≤ pc ∧ pc ≤ 0xFFF
  · rw [if_pos (hin.mpr h), if_pos h]
    simp only [bind, Except.bind]
    by_cases hend : m.byteAt pc.toNat = endMark
    · rw [if_pos hend, if_pos hend]
    · rw [if_neg hend, if_neg hend]
      by_cases hlast : pc = 0xFFF
      · rw [if_pos hlast, if_neg (by simp only [Holds, memorySize]; omega), hlast]
        rfl
      · rw [if_neg hlast, if_pos (by simp only [Holds, memorySize]; omega)]
  · rw [if_neg (fun hc => h (hin.mp hc)), if_neg h]
    rfl

/-- What is fetched lies in memory, and on the last byte it is the end mark. -/
theorem fetch_ok_bounds {m : Memory} {pc : Int} {word : UInt16} (h : m.fetch pc = .ok word) :
    0 ≤ pc ∧ pc ≤ 0xFFF ∧ (pc = 0xFFF → word = wordOf endMark 0) := by
  rw [fetch_eq] at h
  split at h
  · rename_i hpc
    refine ⟨hpc.1, hpc.2, fun hlast => ?_⟩
    split at h
    · exact (Except.ok.inj h).symm
    · exact absurd h (by simp)
  · exact absurd h (by simp)

/-- What is fetched from a loaded program is its own word. -/
theorem fetch_load {m loaded : Memory} {program : List UInt8} (h : m.load program = .ok loaded)
    {k : Nat} (hk : k + 1 < program.length) (hmark : program[k] ≠ endMark) :
    loaded.fetch (programStart + k : Nat) = .ok (wordOf program[k] program[k + 1]) := by
  have hlimit : program.length ≤ programLimit := by
    unfold load at h
    split at h
    · assumption
    · exact absurd h (by simp)
  have hhigh : loaded.byteAt (programStart + k) = program[k] := by
    rw [byteAt_load h, if_pos (by omega), Nat.add_sub_cancel_left,
      List.getElem?_eq_getElem (by omega), Option.getD_some]
  have hlow : loaded.byteAt (programStart + (k + 1)) = program[k + 1] := by
    rw [byteAt_load h, if_pos (by omega), Nat.add_sub_cancel_left,
      List.getElem?_eq_getElem hk, Option.getD_some]
  simp only [programLimit, memorySize, programStart] at *
  rw [fetch_eq, if_pos (by omega), Int.toNat_natCast, if_neg (hhigh ▸ hmark), if_neg (by omega)]
  rw [hhigh, show ((0x200 + k : Nat) + 1 : Int).toNat = 0x200 + (k + 1) by omega, hlow]

/-- The same at the address of a word whose two bytes are known. -/
theorem fetch_word {m loaded : Memory} {program : List UInt8} (h : m.load program = .ok loaded)
    {k : Nat} {high low : UInt8} (hhigh : program[k]? = some high)
    (hlow : program[k + 1]? = some low) (hmark : high ≠ endMark) {pc : Int}
    (hpc : pc = programStart + k) : loaded.fetch pc = .ok (wordOf high low) := by
  obtain ⟨hk, rfl⟩ := List.getElem?_eq_some_iff.mp hhigh
  obtain ⟨hk', rfl⟩ := List.getElem?_eq_some_iff.mp hlow
  rw [hpc]
  exact_mod_cast fetch_load h hk' hmark

/-- Reading a block gives its bytes or a fault that names the block. -/
theorem readBlock_cases (m : Memory) (address length : Int) :
    (Holds address length ∧ ∃ bytes, m.readBlock address length = .ok bytes) ∨
      (¬ Holds address length ∧
        m.readBlock address length = .error (.outOfBounds address length)) := by
  by_cases h : Holds address length
  · exact Or.inl ⟨h, _, if_pos h⟩
  · exact Or.inr ⟨h, if_neg h⟩

/-- Writing a block gives another memory or a fault that names the block. -/
theorem writeBlock_cases (m : Memory) (address : Int) (values : List Int) :
    (Holds address values.length ∧ ∃ memory, m.writeBlock address values = .ok memory) ∨
      (¬ Holds address values.length ∧
        m.writeBlock address values = .error (.outOfBounds address values.length)) := by
  by_cases h : Holds address values.length
  · exact Or.inl ⟨h, _, if_pos h⟩
  · exact Or.inr ⟨h, if_neg h⟩

/-- A block that lies in memory is read byte by byte. -/
theorem readBlock_of_holds {m : Memory} {address length : Int} (h : Holds address length) :
    m.readBlock address length =
      .ok ((List.range length.toNat).map fun k => m.byteAt (address.toNat + k)) := if_pos h

/-- **A block that was written holds its values, each modulo 256, and no byte beside it has
changed.** -/
theorem byteAt_writeBlock {m after : Memory} {address : Int} {values : List Int}
    (h : m.writeBlock address values = .ok after) (k : Nat) :
    after.byteAt k =
      if address ≤ k ∧ (k : Int) < address + values.length then
        (values.map byteOf)[k - address.toNat]?.getD 0
      else m.byteAt k := by
  unfold writeBlock at h
  split at h
  · rename_i hin
    obtain ⟨hlow, _, hhigh⟩ := hin
    rw [← Except.ok.inj h, byteAt_place, List.length_map]
    by_cases hk : address ≤ k ∧ (k : Int) < address + values.length
    · rw [if_pos hk, if_pos (by omega)]
    · rw [if_neg hk, if_neg (by omega)]
  · exact absurd h (by simp)

end Memory

end ChipEight
