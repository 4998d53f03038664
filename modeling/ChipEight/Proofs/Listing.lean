import ChipEight.Listing
import ChipEight.Proofs.Step

/-!
# A listing names what the machine would execute

A program is read in two ways that have no code in common. `listing` goes through its bytes two by
two and never looks at memory; a step of the processor fetches single bytes from memory, each behind
a check of its address, and stops at the end mark. They meet in `wordAt`: the word at an offset of a
program, with zeros past its end and behind an end mark. A listing shows these words one after the
other, and at every even offset of a loaded program the machine fetches the same word.

Two things keep the fetch from failing there. A program has at most 3584 bytes, an even number, so
the second byte of a word that begins inside it is still in memory; and if the program is one byte
short of that word, the byte behind it is the zero that memory was filled with, because the font
lies below.
-/

namespace ChipEight

/-- The word at an offset of a program. -/
def wordAt (program : List UInt8) (k : Nat) : UInt16 :=
  listedWord (program[k]?.getD 0) (program[k + 1]?.getD 0)

/-- The bytes of a program as far as they matter: a last single byte gets a zero behind it, and so
does an end mark in place of the byte that follows. -/
def canonicalBytes : List UInt8 → List UInt8
  | [] => []
  | [high] => [high, 0]
  | high :: low :: rest => high :: (if high = endMark then 0 else low) :: canonicalBytes rest

/-! ## Listings -/

/-- There is one word for each two bytes, and one for a last single byte. -/
theorem listing_length (base : Int) (program : List UInt8) :
    (listing base program).length = (program.length + 1) / 2 := by
  fun_induction listing base program with
  | case1 => rfl
  | case2 base high => simp only [List.length_singleton]
  | case3 base high low rest ih =>
      simp only [List.length_cons, ih]
      omega

/-- **The j-th word of a listing is the word at twice its place.** -/
theorem listing_getElem? (base : Int) (program : List UInt8) (j : Nat)
    (hj : j < (program.length + 1) / 2) :
    (listing base program)[j]? = some ⟨base + 2 * j, wordAt program (2 * j)⟩ := by
  fun_induction listing base program generalizing j with
  | case1 => exact absurd hj (Nat.not_lt_zero j)
  | case2 base high =>
      obtain rfl : j = 0 := by simp only [List.length_singleton] at hj; omega
      simp [wordAt]
  | case3 base high low rest ih =>
      cases j with
      | zero => simp [wordAt]
      | succ j =>
          simp only [List.length_cons] at hj
          have hrest := ih j (by omega)
          have haddress : base + 2 + 2 * (j : Int) = base + 2 * ((j + 1 : Nat) : Int) := by omega
          -- two bytes further on in the program is one word further on in the listing
          have hword : wordAt (high :: low :: rest) (2 * (j + 1)) = wordAt rest (2 * j) := by
            rw [wordAt, wordAt, show 2 * (j + 1) = 2 * j + 1 + 1 by omega]
            simp only [List.getElem?_cons_succ]
          rw [List.getElem?_cons_succ, hrest, haddress, hword]

theorem listedWord_endMark (low : UInt8) : listedWord endMark low = listedWord endMark 0 := by
  rw [listedWord, listedWord, if_pos rfl, if_pos rfl]

theorem canonicalBytes_length (program : List UInt8) :
    (canonicalBytes program).length = 2 * ((program.length + 1) / 2) := by
  fun_induction canonicalBytes program with
  | case1 => rfl
  | case2 high => simp only [List.length_cons, List.length_nil]
  | case3 high low rest ih =>
      simp only [List.length_cons, ih]
      omega

/-- **What does not matter is not listed.** -/
theorem listing_canonicalBytes (base : Int) (program : List UInt8) :
    listing base (canonicalBytes program) = listing base program := by
  fun_induction canonicalBytes program generalizing base with
  | case1 => rfl
  | case2 high => simp only [listing]
  | case3 high low rest ih =>
      have hword : listedWord high (if high = endMark then 0 else low) = listedWord high low := by
        split
        · rename_i hmark
          rw [hmark, listedWord_endMark low]
        · rfl
      rw [listing, listing, hword, ih]

section Congr

variable {program other : List UInt8} (h : canonicalBytes other = canonicalBytes program)
include h

/-- Programs that differ in nothing that matters have as many words. -/
theorem words_of_canonicalBytes : (other.length + 1) / 2 = (program.length + 1) / 2 := by
  have hlength := congrArg List.length h
  rw [canonicalBytes_length, canonicalBytes_length] at hlength
  omega

theorem listing_congr (base : Int) : listing base other = listing base program := by
  rw [← listing_canonicalBytes base other, h, listing_canonicalBytes]

/-- They have the same words, because these can be read off their listings. -/
theorem wordAt_congr {j : Nat} (hj : j < (program.length + 1) / 2) :
    wordAt other (2 * j) = wordAt program (2 * j) := by
  have hother := listing_getElem? 0 other j (by rw [words_of_canonicalBytes h]; exact hj)
  rw [listing_congr h, listing_getElem? 0 program j hj] at hother
  exact (ListedWord.mk.inj (Option.some.inj hother)).2.symm

end Congr

/-! ## Fetching from a loaded program -/

namespace Memory

/-- The bytes from the start of a program on, with zeros past its end. -/
theorem byteAt_loaded {program : List UInt8} {memory : Memory}
    (hload : blank.load program = .ok memory) (k : Nat) :
    memory.byteAt (programStart + k) = program[k]?.getD 0 := by
  rw [byteAt_load hload]
  by_cases hk : k < program.length
  · rw [if_pos (by omega), Nat.add_sub_cancel_left]
  · have hfont : fontStart + fontGlyphs.length ≤ programStart := by decide
    rw [if_neg (by omega), byteAt_blank, if_neg (by omega), List.getElem?_eq_none (by omega)]
    rfl

/-- **At an even offset of a loaded program its word is fetched**, and no fetch fails there. -/
theorem fetch_loaded {program : List UInt8} {memory : Memory}
    (hfits : program.length ≤ programLimit) (hload : blank.load program = .ok memory) {k : Nat}
    (hk : k < program.length) (heven : k % 2 = 0) :
    memory.fetch (programStart + k : Nat) = .ok (wordAt program k) := by
  simp only [programLimit, memorySize, programStart] at hfits
  have hhigh : memory.byteAt (Int.toNat (programStart + k : Nat)) = program[k]?.getD 0 :=
    byteAt_loaded hload k
  have hlow : memory.byteAt ((programStart + k : Nat) + 1 : Int).toNat = program[k + 1]?.getD 0 :=
    byteAt_loaded hload (k + 1)
  -- the word begins at 0xFFE at the latest, so its second byte is in memory
  have hin : (0 : Int) ≤ (programStart + k : Nat) ∧ ((programStart + k : Nat) : Int) ≤ 0xFFF := by
    simp only [programStart]
    omega
  have hlast : ¬ ((programStart + k : Nat) : Int) = 0xFFF := by
    simp only [programStart]
    omega
  rw [fetch_eq, if_pos hin, hhigh, if_neg hlast, hlow, wordAt, listedWord]
  split <;> rfl

end Memory

/-! ## The main statement -/

/-- The machine and a listing agree on the word at an offset of a program in memory. -/
structure ListedAt (program : List UInt8) (memory : Memory) (k : Nat) (word : UInt16) : Prop where
  /-- The word is fetched, so the fetch does not fail. -/
  fetched : memory.fetch (programStart + k : Nat) = .ok word
  /-- It is the word that is listed at that address. -/
  listed : (listing programStart program)[k / 2]? = some ⟨(programStart + k : Nat), word⟩
  /-- Whatever else a board holds, its step there decodes the listed instruction. -/
  decoded : ∀ (b : Board) (now : Seconds), b.memory = memory → b.processor.halted = false →
    b.processor.pc = (programStart + k : Nat) →
      ∃ f, (b.step now).fetched = some f ∧ f.pc = (programStart + k : Nat) ∧
        f.instruction = (ListedWord.mk (programStart + k : Nat) word).instruction

theorem listedAt_of_loaded {program : List UInt8} {memory : Memory}
    (hfits : program.length ≤ programLimit) (hload : Memory.blank.load program = .ok memory)
    {k : Nat} (hk : k < program.length) (heven : k % 2 = 0) :
    ListedAt program memory k (wordAt program k) where
  fetched := Memory.fetch_loaded hfits hload hk heven
  listed := by
    have hlisted := listing_getElem? programStart program (k / 2) (by omega)
    have htwice : 2 * (k / 2) = k := by omega
    rw [hlisted, htwice, Option.some.injEq, ListedWord.mk.injEq]
    exact ⟨by omega, rfl⟩
  decoded := by
    intro b now hmemory hrun hpc
    have hfetch := Memory.fetch_loaded hfits hload hk heven
    rw [← hmemory, ← hpc] at hfetch
    rw [b.step_eq now, hrun, hfetch]
    exact ⟨_, rfl, hpc, rfl⟩

/--
**A listing agrees with execution.**

A program that fits can be loaded, and has one listed word for each two bytes, at every second
address. At every even offset the machine fetches the listed word and decodes the listed
instruction. A program with the same canonical bytes is listed alike and fetched alike: neither the
byte behind an end mark matters, nor whether a last zero is there.
-/
theorem listing_agrees (program : List UInt8) (hfits : program.length ≤ programLimit) :
    (∀ base : Int, (listing base program).length = (program.length + 1) / 2 ∧
      ∀ (j : Nat) (w : ListedWord), (listing base program)[j]? = some w →
        w.address = base + 2 * j) ∧
    ∃ memory, Memory.blank.load program = .ok memory ∧
      (∀ k < program.length, k % 2 = 0 → ∃ word, ListedAt program memory k word) ∧
      ∀ other, canonicalBytes other = canonicalBytes program →
        (∀ base, listing base other = listing base program) ∧
        ∃ memory', Memory.blank.load other = .ok memory' ∧
          ∀ k < program.length, k % 2 = 0 →
            memory'.fetch (programStart + k : Nat) = memory.fetch (programStart + k : Nat) := by
  refine ⟨fun base => ⟨listing_length base program, ?_⟩, ?_⟩
  · intro j w hw
    have hj : j < (program.length + 1) / 2 := by
      rw [← listing_length base program]
      exact (List.getElem?_eq_some_iff.mp hw).1
    rw [listing_getElem? base program j hj] at hw
    rw [← Option.some.inj hw]
  · have hload : Memory.blank.load program = .ok _ := if_pos hfits
    refine ⟨_, hload, fun k hk heven => ⟨_, listedAt_of_loaded hfits hload hk heven⟩, ?_⟩
    intro other hcanonical
    have hwords := words_of_canonicalBytes hcanonical
    have hother : other.length ≤ programLimit := by
      simp only [programLimit, memorySize, programStart] at hfits ⊢
      omega
    have hload' : Memory.blank.load other = .ok _ := if_pos hother
    refine ⟨listing_congr hcanonical, _, hload', ?_⟩
    intro k hk heven
    have hk' : k < other.length := by omega
    have hword := wordAt_congr hcanonical (j := k / 2) (by omega)
    rw [show 2 * (k / 2) = k by omega] at hword
    rw [Memory.fetch_loaded hother hload' hk' heven, Memory.fetch_loaded hfits hload hk heven,
      hword]

/-- Three bytes, the first of them an end mark: the second does not matter, and the third is a word
of its own. -/
theorem listing_agrees_odd_tail :
    let program : List UInt8 := [0x0A, 0x77, 0x12]
    let other : List UInt8 := [0x0A, 0x00, 0x12, 0x00]
    program.length ≤ programLimit ∧
      listing 0x200 program = [⟨0x200, 0x0A00⟩, ⟨0x202, 0x1200⟩] ∧
      listing 0x200 other = listing 0x200 program ∧
      ∃ memory, Memory.blank.load program = .ok memory ∧ memory.fetch 0x200 = .ok 0x0A00 ∧
        memory.fetch 0x202 = .ok 0x1200 := by
  intro program other
  have hfits : program.length ≤ programLimit := by decide
  obtain ⟨_, memory, hload, hlisted, hcongr⟩ := listing_agrees program hfits
  obtain ⟨first, hfirst⟩ := hlisted 0 (by decide) rfl
  obtain ⟨second, hsecond⟩ := hlisted 2 (by decide) rfl
  -- the words are those that the listing shows
  obtain rfl : 0x0A00 = first := (ListedWord.mk.inj (Option.some.inj hfirst.listed)).2
  obtain rfl : 0x1200 = second := (ListedWord.mk.inj (Option.some.inj hsecond.listed)).2
  exact ⟨hfits, rfl, (hcongr other rfl).1 0x200, memory, hload, hfirst.fetched, hsecond.fetched⟩

end ChipEight
