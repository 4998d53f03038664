import ChipEight.Proofs.Memory
import ChipEight.Proofs.Success

/-!
# Accesses are all or nothing

A block of memory is checked once, as a whole, and only then moved. So whatever the address and the
length are, a request has one of two ends: it is refused with a fault that names the block, or every
byte of the block is where it belongs. Neither a negative address nor a length that is too large can
wrap, cut the block short or change how many bytes there are.

What was written is told through reading it, byte by byte, because every other access is made of
these: a block that is read is its bytes one after the other, and a byte that is written is a block
of one.
-/

namespace ChipEight

namespace Memory

/-- The memory after an attempt to change it: what was there before, if the attempt failed. -/
def afterwards (m : Memory) (attempt : Except Fault Memory) : Memory := attempt.toOption.getD m

theorem holds_length {address : Int} {values : List Int} :
    Holds address values.length ↔ ¬ (address < 0 ∨ memorySize < address + values.length) := by
  unfold Holds
  omega

theorem holds_one {address : Int} : Holds address 1 ↔ 0 ≤ address ∧ address < memorySize := by
  unfold Holds
  omega

theorem read_of_holds {m : Memory} {address : Int} (h : Holds address 1) :
    m.read address = .ok (m.byteAt address.toNat) := if_pos h

theorem read_of_not_holds {m : Memory} {address : Int} (h : ¬ Holds address 1) :
    m.read address = .error (.outOfBounds address 1) := if_neg h

/-- A byte can be read exactly at the addresses of memory, whatever it holds. -/
theorem read_eq_ok_iff (m : Memory) (address : Int) :
    (∃ byte, m.read address = .ok byte) ↔ 0 ≤ address ∧ address < memorySize := by
  rw [← holds_one]
  constructor
  · intro hread
    obtain ⟨byte, hbyte⟩ := hread
    by_cases h : Holds address 1
    · exact h
    · rw [read_of_not_holds h] at hbyte
      exact absurd hbyte (by simp)
  · intro h
    exact ⟨_, read_of_holds h⟩

section Written

variable {m after : Memory} {address : Int} {values : List Int}

theorem holds_of_writeBlock (h : m.writeBlock address values = .ok after) :
    Holds address values.length := by
  rcases writeBlock_cases m address values with ⟨hin, _⟩ | ⟨_, hrefused⟩
  · exact hin
  · rw [hrefused] at h
    exact absurd h (by simp)

/-- The byte at each place of the block is its value there. -/
theorem byteAt_written (h : m.writeBlock address values = .ok after) {i : Nat}
    (hi : i < values.length) : after.byteAt (address.toNat + i) = byteOf values[i] := by
  have hstart := (holds_of_writeBlock h).1
  rw [byteAt_writeBlock h, if_pos (by omega), Nat.add_sub_cancel_left,
    List.getElem?_eq_getElem (by rwa [List.length_map]), List.getElem_map, Option.getD_some]

theorem read_written (h : m.writeBlock address values = .ok after) {i : Nat}
    (hi : i < values.length) : after.read (address + i) = .ok (byteOf values[i]) := by
  obtain ⟨hstart, _, hend⟩ := holds_of_writeBlock h
  have hplace : (address + i).toNat = address.toNat + i := by omega
  rw [read_of_holds (by unfold Holds; omega), hplace, byteAt_written h hi]

/-- Beside the block reading gives what it gave, or is refused as it was. -/
theorem read_beside (h : m.writeBlock address values = .ok after) {other : Int}
    (hother : other < address ∨ address + values.length ≤ other) :
    after.read other = m.read other := by
  by_cases hin : Holds other 1
  · have hplace := hin.1
    rw [read_of_holds hin, read_of_holds hin, byteAt_writeBlock h, if_neg (by omega)]
  · rw [read_of_not_holds hin, read_of_not_holds hin]

/-- **What was written is read back.** -/
theorem readBlock_written (h : m.writeBlock address values = .ok after) :
    after.readBlock address values.length = .ok (values.map byteOf) := by
  rw [readBlock_of_holds (holds_of_writeBlock h), Int.toNat_natCast]
  congr 1
  refine List.ext_getElem (by simp) fun i hi hi' => ?_
  rw [List.getElem_map, List.getElem_range, List.getElem_map]
  exact byteAt_written h (by simpa using hi)

end Written

/-- **A block is its bytes**, read one after the other. -/
theorem readBlock_bytes {m : Memory} {address length : Int} (h : Holds address length) :
    m.readBlock address length =
      (List.range length.toNat).mapM fun k => m.read (address + (k : Nat)) := by
  obtain ⟨hstart, hlength, hend⟩ := h
  rw [readBlock_of_holds ⟨hstart, hlength, hend⟩]
  refine (mapM_of_ok fun k hk => ?_).symm
  have hk : k < length.toNat := List.mem_range.mp hk
  have hplace : (address + k).toNat = address.toNat + k := by omega
  rw [read_of_holds (by unfold Holds; omega), hplace]

/-- **A byte is a block of one.** -/
theorem write_eq_writeBlock (m : Memory) (address value : Int) :
    m.write address value = m.writeBlock address [value] := by
  rcases writeBlock_cases m address [value] with ⟨hin, _⟩ | ⟨hout, hrefused⟩
  · rw [writeBlock, if_pos hin]
    exact if_pos hin
  · rw [hrefused]
    exact if_neg hout

/-! ## The main statement -/

/-- What a write of values from an address on has made of a memory. -/
structure Written (m after : Memory) (address : Int) (values : List Int) : Prop where
  /-- The block holds the values, each modulo 256. -/
  inside : ∀ (i : Nat) (hi : i < values.length),
    ∃ byte, after.read (address + i) = .ok byte ∧ (byte.toNat : Int) = values[i] % 256
  /-- Beside the block nothing has changed. -/
  beside : ∀ other, other < address ∨ address + values.length ≤ other →
    after.read other = m.read other
  /-- There are as many bytes as before. -/
  size : ∀ other, (∃ byte, after.read other = .ok byte) ↔ 0 ≤ other ∧ other < memorySize
  /-- The block is read back at once, each value modulo 256. -/
  back : ∃ bytes, after.readBlock address values.length = .ok bytes ∧
    bytes.map (fun byte => (byte.toNat : Int)) = values.map (· % 256)

theorem written {m after : Memory} {address : Int} {values : List Int}
    (h : m.writeBlock address values = .ok after) : Written m after address values where
  inside _ hi := ⟨_, read_written h hi, byteOf_toNat _⟩
  beside _ hother := read_beside h hother
  size other := read_eq_ok_iff after other
  back := by
    refine ⟨_, readBlock_written h, ?_⟩
    rw [List.map_map]
    exact List.map_congr_left fun value _ => byteOf_toNat value

/-- What holds of every access to a memory. -/
structure AllOrNothing (m : Memory) : Prop where
  /-- A write is refused exactly if its block does not lie in memory as a whole. -/
  write_refused : ∀ (address : Int) (values : List Int),
    (∃ fault, m.writeBlock address values = .error fault) ↔
      address < 0 ∨ memorySize < address + values.length
  /-- The fault names the block, and memory is as it was. -/
  write_fault : ∀ (address : Int) (values : List Int) (fault : Fault),
    m.writeBlock address values = .error fault →
    fault = .outOfBounds address values.length ∧ m.afterwards (m.writeBlock address values) = m
  /-- Any other write is done in full. -/
  write_done : ∀ (address : Int) (values : List Int) (after : Memory),
    m.writeBlock address values = .ok after → Written m after address values
  /-- A block is read exactly if it lies in memory as a whole. -/
  read_done : ∀ address length : Int,
    (∃ bytes, m.readBlock address length = .ok bytes) ↔
      0 ≤ address ∧ 0 ≤ length ∧ address + length ≤ memorySize
  /-- Then it is its bytes, read one after the other. -/
  read_bytes : ∀ (address length : Int) (bytes : List UInt8),
    m.readBlock address length = .ok bytes →
    (List.range length.toNat).mapM (fun k => m.read (address + (k : Nat))) = .ok bytes
  /-- To write a byte is to write a block of one. -/
  write_byte : ∀ address value : Int, m.write address value = m.writeBlock address [value]

/--
**Memory is an array whose accesses are all or nothing.**

A block is written or read exactly if it lies in memory as a whole, whatever the address and the
length are. A write that is refused changes nothing; one that is done puts each value in its place,
modulo 256, leaves every other byte alone and is read back.
-/
theorem accesses_all_or_nothing (m : Memory) : m.AllOrNothing where
  write_refused := by
    intro address values
    rcases writeBlock_cases m address values with ⟨hin, after, hdone⟩ | ⟨hout, hrefused⟩
    · rw [hdone]
      refine iff_of_false (by simp) ?_
      exact holds_length.mp hin
    · rw [hrefused]
      refine iff_of_true ⟨_, rfl⟩ ?_
      exact Decidable.not_not.mp (mt holds_length.mpr hout)
  write_fault := by
    intro address values fault h
    rcases writeBlock_cases m address values with ⟨_, after, hdone⟩ | ⟨_, hrefused⟩
    · rw [hdone] at h
      exact absurd h (by simp)
    · rw [hrefused] at h ⊢
      exact ⟨(Except.error.inj h).symm, rfl⟩
  write_done := by
    intro address values after h
    exact written h
  read_done := by
    intro address length
    rcases readBlock_cases m address length with ⟨hin, bytes, hdone⟩ | ⟨hout, hrefused⟩
    · exact iff_of_true ⟨bytes, hdone⟩ hin
    · rw [hrefused]
      exact iff_of_false (by simp) hout
  read_bytes := by
    intro address length bytes h
    rcases readBlock_cases m address length with ⟨hin, _⟩ | ⟨_, hrefused⟩
    · rw [← readBlock_bytes hin, h]
    · rw [hrefused] at h
      exact absurd h (by simp)
  write_byte := by
    intro address value
    exact write_eq_writeBlock m address value

/-- The last two bytes of memory take two values and not three, and nothing fits behind them but a
block of no bytes. -/
theorem accesses_all_or_nothing_last_bytes :
    (∃ after bytes, blank.writeBlock 0xFFE [-1, 0x1F0] = .ok after ∧
      after.readBlock 0xFFE 2 = .ok bytes ∧
      bytes.map (fun byte => (byte.toNat : Int)) = [0xFF, 0xF0] ∧
      after.read 0xFFD = blank.read 0xFFD) ∧
    (∃ fault, blank.writeBlock 0xFFE [1, 2, 3] = .error fault) ∧
    (∃ bytes, blank.readBlock 0x1000 0 = .ok bytes) ∧
    ¬ (∃ bytes, blank.readBlock 0x1001 0 = .ok bytes) ∧
    ¬ (∃ bytes, blank.readBlock 5 (-1) = .ok bytes) ∧
    blank.write (-1) 7 = blank.writeBlock (-1) [7] := by
  obtain ⟨hrefused, _, hdone, hread, _, hbyte⟩ := accesses_all_or_nothing blank
  have hlast := hdone 0xFFE [-1, 0x1F0] _ rfl
  obtain ⟨bytes, hbytes, hvalues⟩ := hlast.back
  refine ⟨⟨_, bytes, rfl, hbytes, hvalues, hlast.beside 0xFFD (Or.inl (by decide))⟩, ?_, ?_, ?_, ?_,
    hbyte (-1) 7⟩
  · exact (hrefused 0xFFE [1, 2, 3]).mpr (by decide)
  · exact (hread 0x1000 0).mpr (by decide)
  · exact fun h => absurd ((hread 0x1001 0).mp h) (by decide)
  · exact fun h => absurd ((hread 5 (-1)).mp h) (by decide)

end Memory

end ChipEight
