import ChipEight.Instruction

/-!
# Words and instructions

Every instruction has a word that it is written as (`Instruction.code`), and decoding undoes that:
`decode_eq_iff` says that a word decodes to an instruction exactly if it is the instruction's own.
There are two exceptions, which are left out there. The end of the program is written 0x0A00, but
every word with the high byte 0x0A ends it; and an unknown word may be any word, but none that has a
meaning is one.
-/

namespace ChipEight

/-- The word of a skip, as a number. -/
def Condition.code : Condition → Nat
  | .byteEqual x value => 0x3000 + 0x100 * x.val + value.toNat
  | .byteDifferent x value => 0x4000 + 0x100 * x.val + value.toNat
  | .equal x y => 0x5000 + 0x100 * x.val + 0x10 * y.val
  | .different x y => 0x9000 + 0x100 * x.val + 0x10 * y.val
  | .keyDown x => 0xE000 + 0x100 * x.val + 0x9E
  | .keyUp x => 0xE000 + 0x100 * x.val + 0xA1

/-- The last four bits of the word of a combination. -/
def Combination.code : Combination → Nat
  | .copy => 0x0
  | .or => 0x1
  | .and => 0x2
  | .xor => 0x3
  | .add => 0x4
  | .subtract => 0x5
  | .shiftRight => 0x6
  | .subtractReverse => 0x7
  | .shiftLeft => 0xE

theorem Combination.ofCode?_eq_some {n : Nat} {how : Combination} :
    Combination.ofCode? n = some how ↔ n = how.code := by
  constructor
  · intro h
    unfold Combination.ofCode? at h
    split at h <;> cases h <;> rfl
  · rintro rfl
    cases how <;> rfl

namespace Instruction

/-- The word of an instruction, as a number. -/
def code : Instruction → Nat
  | .endProgram => 0x0A00
  | .clearScreen => 0x00E0
  | .ret => 0x00EE
  | .jump target => 0x1000 + target.val
  | .call target => 0x2000 + target.val
  | .jumpOffset base => 0xB000 + base.val
  | .skipIf condition => condition.code
  | .loadByte x value => 0x6000 + 0x100 * x.val + value.toNat
  | .addByte x value => 0x7000 + 0x100 * x.val + value.toNat
  | .combine how x y => 0x8000 + 0x100 * x.val + 0x10 * y.val + how.code
  | .random x mask => 0xC000 + 0x100 * x.val + mask.toNat
  | .setIndex target => 0xA000 + target.val
  | .draw x y height => 0xD000 + 0x100 * x.val + 0x10 * y.val + height.val
  | .readDelay x => 0xF000 + 0x100 * x.val + 0x07
  | .awaitKey x => 0xF000 + 0x100 * x.val + 0x0A
  | .setDelay x => 0xF000 + 0x100 * x.val + 0x15
  | .setSound x => 0xF000 + 0x100 * x.val + 0x18
  | .addIndex x => 0xF000 + 0x100 * x.val + 0x1E
  | .loadGlyph x => 0xF000 + 0x100 * x.val + 0x29
  | .storeDigits x => 0xF000 + 0x100 * x.val + 0x33
  | .storeRegisters x => 0xF000 + 0x100 * x.val + 0x55
  | .loadRegisters x => 0xF000 + 0x100 * x.val + 0x65
  | .unknown word => word.toNat

theorem code_ofSystemWord {word : UInt16} (h : word.toNat / 256 ≠ 0x0A) :
    (ofSystemWord word).code = word.toNat := by
  unfold ofSystemWord
  rw [if_neg h]
  split
  · rename_i hw; exact hw.symm
  split
  · rename_i hw; exact hw.symm
  · rfl

theorem code_ofKeyWord {word : UInt16} {x : Register} (hfamily : word.toNat / 4096 = 0xE)
    (hx : x.val = word.toNat / 256 % 16) : (ofKeyWord word x).code = word.toNat := by
  unfold ofKeyWord
  split <;> simp only [code, Condition.code] <;> omega

theorem code_ofMiscWord {word : UInt16} {x : Register} (hfamily : word.toNat / 4096 = 0xF)
    (hx : x.val = word.toNat / 256 % 16) : (ofMiscWord word x).code = word.toNat := by
  unfold ofMiscWord
  split <;> simp only [code] <;> omega

/-- **What a word decodes to is written as that word**, unless it ends the program. -/
theorem code_decode {word : UInt16} (h : word.toNat / 256 ≠ 0x0A) :
    (decode word).code = word.toNat := by
  have hlt := word.toNat_lt
  have hx : (Operands.ofWord word).x.val = word.toNat / 256 % 16 := rfl
  have hy : (Operands.ofWord word).y.val = word.toNat / 16 % 16 := rfl
  have hn : (Operands.ofWord word).n.val = word.toNat % 16 := rfl
  have hnn : (Operands.ofWord word).nn.toNat = word.toNat % 256 := by
    simp only [Operands.ofWord, UInt8.toNat_ofNat']; omega
  have hnnn : (Operands.ofWord word).nnn.val = word.toNat % 4096 := rfl
  unfold decode
  dsimp only
  split
  · exact code_ofSystemWord h
  · simp only [code, hnnn]; omega
  · simp only [code, hnnn]; omega
  · simp only [code, Condition.code, hx, hnn]; omega
  · simp only [code, Condition.code, hx, hnn]; omega
  · split
    · rename_i hzero
      have := congrArg Fin.val hzero
      simp only [code, Condition.code, hx, hy]; omega
    · rfl
  · simp only [code, hx, hnn]; omega
  · simp only [code, hx, hnn]; omega
  · split
    · rename_i how hhow
      have := Combination.ofCode?_eq_some.mp hhow
      simp only [code, hx, hy]; omega
    · rfl
  · split
    · rename_i hzero
      have := congrArg Fin.val hzero
      simp only [code, Condition.code, hx, hy]; omega
    · rfl
  · simp only [code, hnnn]; omega
  · simp only [code, hnnn]; omega
  · simp only [code, hx, hnn]; omega
  · simp only [code, hx, hy, hn]; omega
  · exact code_ofKeyWord (by assumption) hx
  · -- the families before are excluded, so it is the last
    simp only [imp_false] at *
    exact code_ofMiscWord (by omega) hx

/-! ## Decoding the word of an instruction

The family is read off the first four bits, and then the operands are where they were put. -/

/-- A family with an address. -/
theorem operands_address {word : UInt16} (family : Nat) (target : Target)
    (h : word.toNat = 0x1000 * family + target.val) :
    word.toNat / 4096 = family ∧ (Operands.ofWord word).nnn = target := by
  have := target.isLt
  exact ⟨by omega, Fin.ext (show word.toNat % 4096 = target.val by omega)⟩

/-- A family with a register that is told by its low byte. -/
theorem operands_low {word : UInt16} (family : Nat) (x : Register) {low : Nat} (hlow : low < 256)
    (h : word.toNat = 0x1000 * family + 0x100 * x.val + low) :
    word.toNat / 4096 = family ∧ (Operands.ofWord word).x = x ∧ word.toNat % 256 = low :=
  ⟨by omega, Fin.ext (show word.toNat / 256 % 16 = x.val by omega), by omega⟩

/-- A family with a register and a byte. -/
theorem operands_byte {word : UInt16} (family : Nat) (x : Register) (value : UInt8)
    (h : word.toNat = 0x1000 * family + 0x100 * x.val + value.toNat) :
    word.toNat / 4096 = family ∧ (Operands.ofWord word).x = x ∧
      (Operands.ofWord word).nn = value := by
  obtain ⟨hfamily, hx, hlow⟩ := operands_low family x value.toNat_lt h
  refine ⟨hfamily, hx, UInt8.toNat_inj.mp ?_⟩
  simp only [Operands.ofWord, UInt8.toNat_ofNat']
  omega

/-- A family with two registers and four more bits. -/
theorem operands_pair {word : UInt16} (family : Nat) (x y : Register) (n : Nibble)
    (h : word.toNat = 0x1000 * family + 0x100 * x.val + 0x10 * y.val + n.val) :
    word.toNat / 4096 = family ∧ (Operands.ofWord word).x = x ∧ (Operands.ofWord word).y = y ∧
      (Operands.ofWord word).n = n :=
  ⟨by omega, Fin.ext (show word.toNat / 256 % 16 = x.val by omega),
    Fin.ext (show word.toNat / 16 % 16 = y.val by omega),
    Fin.ext (show word.toNat % 16 = n.val by omega)⟩

theorem decode_condition {word : UInt16} {condition : Condition}
    (h : word.toNat = condition.code) : decode word = .skipIf condition := by
  cases condition with
  | byteEqual x value =>
      obtain ⟨hfamily, hx, hvalue⟩ := operands_byte 0x3 x value h
      simp only [decode, hfamily, hx, hvalue]
  | byteDifferent x value =>
      obtain ⟨hfamily, hx, hvalue⟩ := operands_byte 0x4 x value h
      simp only [decode, hfamily, hx, hvalue]
  | equal x y =>
      obtain ⟨hfamily, hx, hy, hn⟩ := operands_pair 0x5 x y 0 h
      simp only [decode, hfamily, hx, hy, hn, if_true]
  | different x y =>
      obtain ⟨hfamily, hx, hy, hn⟩ := operands_pair 0x9 x y 0 h
      simp only [decode, hfamily, hx, hy, hn, if_true]
  | keyDown x | keyUp x =>
      obtain ⟨hfamily, hx, hlow⟩ := operands_low 0xE x (by decide) h
      simp only [decode, hfamily, hx, ofKeyWord, hlow]

theorem combination_code_lt (how : Combination) : how.code < 16 := by
  cases how <;> decide

/-- **The word of an instruction decodes to it.** -/
theorem decode_code {word : UInt16} {i : Instruction} (hknown : ∀ w, i ≠ .unknown w)
    (h : word.toNat = i.code) : decode word = i := by
  cases i with
  | endProgram | clearScreen | ret =>
      rw [show word = UInt16.ofNat word.toNat from (UInt16.ofNat_toNat).symm, h]
      rfl
  | jump target =>
      obtain ⟨hfamily, htarget⟩ := operands_address 0x1 target h
      simp only [decode, hfamily, htarget]
  | call target =>
      obtain ⟨hfamily, htarget⟩ := operands_address 0x2 target h
      simp only [decode, hfamily, htarget]
  | setIndex target =>
      obtain ⟨hfamily, htarget⟩ := operands_address 0xA target h
      simp only [decode, hfamily, htarget]
  | jumpOffset base =>
      obtain ⟨hfamily, hbase⟩ := operands_address 0xB base h
      simp only [decode, hfamily, hbase]
  | skipIf condition => exact decode_condition h
  | loadByte x value =>
      obtain ⟨hfamily, hx, hvalue⟩ := operands_byte 0x6 x value h
      simp only [decode, hfamily, hx, hvalue]
  | addByte x value =>
      obtain ⟨hfamily, hx, hvalue⟩ := operands_byte 0x7 x value h
      simp only [decode, hfamily, hx, hvalue]
  | random x mask =>
      obtain ⟨hfamily, hx, hmask⟩ := operands_byte 0xC x mask h
      simp only [decode, hfamily, hx, hmask]
  | combine how x y =>
      obtain ⟨hfamily, hx, hy, hn⟩ := operands_pair 0x8 x y ⟨how.code, combination_code_lt how⟩ h
      simp only [decode, hfamily, hx, hy, hn, Combination.ofCode?_eq_some.mpr rfl]
  | draw x y height =>
      obtain ⟨hfamily, hx, hy, hn⟩ := operands_pair 0xD x y height h
      simp only [decode, hfamily, hx, hy, hn]
  | readDelay x | awaitKey x | setDelay x | setSound x | addIndex x | loadGlyph x
  | storeDigits x | storeRegisters x | loadRegisters x =>
      obtain ⟨hfamily, hx, hlow⟩ := operands_low 0xF x (by decide) h
      simp only [decode, hfamily, hx, ofMiscWord, hlow]
  | unknown w => exact absurd rfl (hknown w)

/-- Every word with the high byte 0x0A ends the program. -/
theorem decode_mark {word : UInt16} (h : word.toNat / 256 = 0x0A) : decode word = .endProgram := by
  simp only [decode, show word.toNat / 4096 = 0 by omega, ofSystemWord, if_pos h]

/-- No other word does. -/
theorem decode_eq_endProgram {word : UInt16} :
    decode word = .endProgram ↔ word.toNat / 256 = 0x0A := by
  refine ⟨fun hd => ?_, decode_mark⟩
  by_cases hmark : word.toNat / 256 = 0x0A
  · exact hmark
  · -- it would be written as itself, and so begin with the mark after all
    have hcode := code_decode hmark
    rw [hd] at hcode
    simp only [code] at hcode
    omega

/-- What does not end the program is written as the word it was decoded from. -/
theorem toNat_of_decode {word : UInt16} {i : Instruction} (hend : i ≠ .endProgram)
    (hd : decode word = i) : word.toNat = i.code := by
  rw [← hd]
  refine (code_decode fun hmark => hend ?_).symm
  rw [← hd, decode_mark hmark]

/-- **A word decodes to an instruction exactly if it is the instruction's own.** -/
theorem decode_eq_iff {word : UInt16} {i : Instruction} (hend : i ≠ .endProgram)
    (hknown : ∀ w, i ≠ .unknown w) : decode word = i ↔ word.toNat = i.code :=
  ⟨toNat_of_decode hend, decode_code hknown⟩

/-- An unknown word is unknown as itself. -/
theorem eq_of_decode_unknown {word w : UInt16} (hd : decode word = .unknown w) : w = word :=
  (UInt16.toNat_inj.mp (toNat_of_decode (by simp) hd)).symm

end Instruction

end ChipEight
