import ChipEight.Proofs.Columns
import ChipEight.Proofs.Decode
import ChipEight.Proofs.Listing
import ChipEight.Proofs.Success

/-!
# Mnemonics lose nothing

A program can be assembled again from the last column of its listing alone. A mnemonic is a name and
operands (`Mnemonic`), and what kind of operand a text is can be seen from the text. A register
begins with a V, a number in hexadecimal is a byte, an address or a word by its number of digits,
and the few operands with a name of their own are told by the name. So the parts can be read back,
and the instruction is read off its parts.

Names do not tell instructions apart. LD stands for eleven of them, and only the operands say which
one it is.

What comes back is the canonical bytes of the program. The byte behind an end mark is not listed,
and a single last byte is listed as a word.
-/

namespace ChipEight

open Text

/-- A text that is put into a text is left as it is. -/
theorem Text.toString_text (text : String) : toString text = text := rfl

/-! ## Operands -/

/-- What has a name of its own in a mnemonic. -/
inductive Special
  | index | delay | sound | key | glyph | digits | memory
  deriving DecidableEq, Repr

namespace Special

def text : Special → String
  | .index => "I"
  | .delay => "DT"
  | .sound => "ST"
  | .key => "K"
  | .glyph => "F"
  | .digits => "B"
  | .memory => "[I]"

def all : List Special := [.index, .delay, .sound, .key, .glyph, .digits, .memory]

/-- Reads a name. -/
def ofText? (text : String) : Option Special := all.find? fun name => name.text = text

end Special

/-- An operand of a mnemonic. -/
inductive Operand
  | register (x : Register)
  | byte (value : UInt8)
  | target (address : Target)
  | word (value : UInt16)
  | height (rows : Nibble)
  | named (name : Special)
  deriving DecidableEq, Repr

namespace Operand

def text : Operand → String
  | .register x => registerName x
  | .byte value => byteText value
  | .target address => targetText address
  | .word value => s!"0x{hex 4 value.toNat}"
  | .height rows => toString rows.val
  | .named name => name.text

/-- What a hexadecimal number of some digits is. -/
def ofHex? (width n : Nat) : Option Operand :=
  match width with
  | 2 => some (.byte (UInt8.ofNat n))
  | 3 => some (.target (Fin.ofNat 4096 n))
  | 4 => some (.word (UInt16.ofNat n))
  | _ => none

/-- Reads an operand. -/
def ofText? (text : String) : Option Operand :=
  match text.toList with
  | 'V' :: digits => (readDigits? 16 0 true digits).map fun n => .register (Fin.ofNat 16 n)
  | '0' :: 'x' :: digits => (readDigits? 16 0 true digits).bind (ofHex? digits.length)
  | digits =>
    match Special.ofText? text with
    | some name => some (.named name)
    | none => (readDigits? 10 0 true digits).map fun n => .height (Fin.ofNat 16 n)

theorem registerName_toList (x : Register) :
    (registerName x).toList = 'V' :: (hex 0 x.val).toList := by
  change ("V" ++ hex 0 x.val).toList = _
  rw [String.toList_append]
  rfl

/-- A number in hexadecimal as it stands in a mnemonic. -/
theorem hexOperand_toList (width n : Nat) :
    (s!"0x{hex width n}").toList = '0' :: 'x' :: (hex width n).toList := by
  change ("0x" ++ hex width n).toList = _
  rw [String.toList_append]
  rfl

/-- A hexadecimal number that fills its column is told by the width. -/
theorem ofText?_hexOperand {width n : Nat} (hwidth : 0 < width) (h : n < 16 ^ width) :
    ofText? s!"0x{hex width n}" = ofHex? width n := by
  rw [ofText?, hexOperand_toList]
  simp only [readDigits?_hex, Option.bind_some, hex_length hwidth h]

/-- **An operand is read from its text.** -/
theorem ofText?_text (operand : Operand) : ofText? operand.text = some operand := by
  cases operand with
  | register x =>
      rw [text, ofText?, registerName_toList]
      simp only [readDigits?_hex, Option.map_some, Fin.ofNat_val_eq_self]
  | byte value =>
      rw [text, byteText, ofText?_hexOperand (by decide) value.toNat_lt, ofHex?,
        UInt8.ofNat_toNat]
  | target address =>
      rw [text, targetText, ofText?_hexOperand (by decide) address.isLt, ofHex?,
        Fin.ofNat_val_eq_self]
  | word value =>
      rw [text, ofText?_hexOperand (by decide) value.toNat_lt, ofHex?, UInt16.ofNat_toNat]
  | height rows =>
      revert rows
      decide
  | named name => cases name <;> decide

/-- No operand holds a blank or a comma. -/
theorem not_mem_text {c : Char} (hc : c = ' ' ∨ c = ',') (operand : Operand) :
    c ∉ operand.text.toList := by
  have hnumber : ∀ (width : Nat) (n : Int), c ∉ (hex width n).toList := by
    rcases hc with rfl | rfl
    all_goals exact not_mem_hex (by decide)
  have hregister : c ≠ 'V' := by rcases hc with rfl | rfl <;> decide
  have hmark : c ≠ '0' ∧ c ≠ 'x' := by rcases hc with rfl | rfl <;> decide
  have hhex : ∀ width n : Nat, c ∉ (s!"0x{hex width n}").toList := by
    intro width n
    rw [hexOperand_toList]
    simp only [List.mem_cons, not_or]
    exact ⟨hmark.1, hmark.2, hnumber width n⟩
  cases operand with
  | register x =>
      rw [text, registerName_toList]
      exact List.not_mem_cons_of_ne_of_not_mem hregister (hnumber 0 x.val)
  | byte value => exact hhex 2 value.toNat
  | target address => exact hhex 3 address.val
  | word value => exact hhex 4 value.toNat
  | height rows =>
      revert rows
      rcases hc with rfl | rfl <;> decide
  | named name => rcases hc with rfl | rfl <;> cases name <;> decide

end Operand

/-! ## Mnemonics in parts -/

/-- A mnemonic as a name and operands. -/
structure Mnemonic where
  name : String
  operands : List Operand
  deriving DecidableEq, Repr

namespace Mnemonic

/-- The text of the parts: commas between operands, and nothing behind a name without any. -/
def text (m : Mnemonic) : String :=
  if m.operands.isEmpty then m.name
  else m.name ++ " " ++ ", ".intercalate (m.operands.map Operand.text)

/-- Reads a mnemonic in parts. -/
def read? (text : String) : Option Mnemonic :=
  match splitChars ' ' (text.toList.filter (· ≠ ',')) with
  | [] => none
  | name :: operands =>
    (operands.mapM fun operand => Operand.ofText? (String.ofList operand)).map fun operands =>
      ⟨String.ofList name, operands⟩

/-- The name holds neither a blank nor a comma. -/
def Plain (m : Mnemonic) : Prop := ' ' ∉ m.name.toList ∧ ',' ∉ m.name.toList

instance (m : Mnemonic) : Decidable m.Plain := inferInstanceAs (Decidable (_ ∧ _))

/-- Without its commas the text is the parts with blanks between them. -/
theorem filter_text {m : Mnemonic} (h : m.Plain) :
    m.text.toList.filter (· ≠ ',') =
      [' '].intercalate (m.name.toList :: m.operands.map fun o => o.text.toList) := by
  have hkept : ∀ cs : List Char, ',' ∉ cs → cs.filter (· ≠ ',') = cs := by
    intro cs hcs
    refine List.filter_eq_self.mpr fun c hc => decide_eq_true fun heq => hcs (heq ▸ hc)
  have hparts : ((m.operands.map Operand.text).map String.toList).map (List.filter (· ≠ ',')) =
      m.operands.map fun o => o.text.toList := by
    rw [List.map_map, List.map_map]
    exact List.map_congr_left fun o _ => hkept _ (o.not_mem_text (Or.inr rfl))
  rw [text]
  split
  · rename_i hnone
    rw [List.isEmpty_iff.mp hnone, List.map_nil, List.intercalate_singleton, hkept _ h.2]
  · rename_i hsome
    obtain ⟨first, rest, hcons⟩ := List.exists_cons_of_ne_nil (mt List.isEmpty_iff.mpr hsome)
    rw [String.toList_append, String.toList_append, String.toList_intercalate, List.filter_append,
      List.filter_append, filter_intercalate, hkept _ h.2, hparts, hcons, List.map_cons,
      List.intercalate_cons_cons]
    rfl

/-- **A mnemonic is read back in parts.** -/
theorem read?_text {m : Mnemonic} (h : m.Plain) : read? m.text = some m := by
  have hnone : ∀ part ∈ m.name.toList :: m.operands.map fun o => o.text.toList, ' ' ∉ part := by
    simp only [List.forall_mem_cons, List.forall_mem_map]
    exact ⟨h.1, fun o _ => o.not_mem_text (Or.inl rfl)⟩
  have hoperands : (m.operands.map fun o => o.text.toList).mapM
      (fun operand => Operand.ofText? (String.ofList operand)) = some m.operands := by
    refine mapM_map_eq_some (fun o => ?_) m.operands
    rw [String.ofList_toList, o.ofText?_text]
  rw [read?, filter_text h, splitChars_intercalate (List.cons_ne_nil _ _) hnone]
  simp only [hoperands, Option.map_some, String.ofList_toList]

end Mnemonic

/-! ## Instructions -/

/-- A skip as a name and operands. -/
def Condition.parts : Condition → Mnemonic
  | .byteEqual x value => ⟨"SE", [.register x, .byte value]⟩
  | .byteDifferent x value => ⟨"SNE", [.register x, .byte value]⟩
  | .equal x y => ⟨"SE", [.register x, .register y]⟩
  | .different x y => ⟨"SNE", [.register x, .register y]⟩
  | .keyDown x => ⟨"SKP", [.register x]⟩
  | .keyUp x => ⟨"SKNP", [.register x]⟩

namespace Instruction

/-- An instruction as a name and operands. -/
def parts : Instruction → Mnemonic
  | .endProgram => ⟨"EOF", []⟩
  | .clearScreen => ⟨"CLS", []⟩
  | .ret => ⟨"RET", []⟩
  | .jump target => ⟨"JP", [.target target]⟩
  | .call target => ⟨"CALL", [.target target]⟩
  | .jumpOffset base => ⟨"JP", [.register 0, .target base]⟩
  | .skipIf condition => condition.parts
  | .loadByte x value => ⟨"LD", [.register x, .byte value]⟩
  | .addByte x value => ⟨"ADD", [.register x, .byte value]⟩
  | .combine how x y => ⟨how.mnemonic, [.register x, .register y]⟩
  | .random x mask => ⟨"RND", [.register x, .byte mask]⟩
  | .setIndex target => ⟨"LD", [.named .index, .target target]⟩
  | .draw x y height => ⟨"DRW", [.register x, .register y, .height height]⟩
  | .readDelay x => ⟨"LD", [.register x, .named .delay]⟩
  | .awaitKey x => ⟨"LD", [.register x, .named .key]⟩
  | .setDelay x => ⟨"LD", [.named .delay, .register x]⟩
  | .setSound x => ⟨"LD", [.named .sound, .register x]⟩
  | .addIndex x => ⟨"ADD", [.named .index, .register x]⟩
  | .loadGlyph x => ⟨"LD", [.named .glyph, .register x]⟩
  | .storeDigits x => ⟨"LD", [.named .digits, .register x]⟩
  | .storeRegisters x => ⟨"LD", [.named .memory, .register x]⟩
  | .loadRegisters x => ⟨"LD", [.register x, .named .memory]⟩
  | .unknown word => ⟨"???", [.word word]⟩

theorem parts_plain (i : Instruction) : i.parts.Plain := by
  cases i with
  | skipIf condition =>
      cases condition <;> simp only [Mnemonic.Plain, parts, Condition.parts] <;> decide
  | combine how x y =>
      cases how <;> simp only [Mnemonic.Plain, parts, Combination.mnemonic] <;> decide
  | _ => simp only [Mnemonic.Plain, parts]; decide

theorem registerName_zero : registerName 0 = "V0" := by
  rw [← String.toList_inj, Operand.registerName_toList, hex_toList, hexDigits]
  rfl

/-- **The parts have the text of the mnemonic.** -/
theorem parts_text (i : Instruction) : i.parts.text = i.mnemonic := by
  rw [← String.toList_inj]
  cases i with
  | skipIf condition =>
      cases condition <;>
        simp [parts, Condition.parts, mnemonic, Condition.mnemonic, Mnemonic.text, Operand.text,
          toString_text]
  | combine how x y => simp [parts, mnemonic, Mnemonic.text, Operand.text, toString_text]
  | jumpOffset base =>
      simp [parts, mnemonic, Mnemonic.text, Operand.text, registerName_zero, toString_text]
  | _ => simp [parts, mnemonic, Mnemonic.text, Operand.text, Special.text, toString_text]

/-- The instruction with the name LD and operands. -/
def ofLoad? : List Operand → Option Instruction
  | [.register x, .byte value] => some (.loadByte x value)
  | [.register x, .register y] => some (.combine .copy x y)
  | [.named .index, .target target] => some (.setIndex target)
  | [.register x, .named .delay] => some (.readDelay x)
  | [.register x, .named .key] => some (.awaitKey x)
  | [.named .delay, .register x] => some (.setDelay x)
  | [.named .sound, .register x] => some (.setSound x)
  | [.named .glyph, .register x] => some (.loadGlyph x)
  | [.named .digits, .register x] => some (.storeDigits x)
  | [.named .memory, .register x] => some (.storeRegisters x)
  | [.register x, .named .memory] => some (.loadRegisters x)
  | _ => none

/-- The instruction with a name and operands. -/
def ofParts? (m : Mnemonic) : Option Instruction :=
  match m.name, m.operands with
  | "EOF", [] => some .endProgram
  | "CLS", [] => some .clearScreen
  | "RET", [] => some .ret
  | "JP", [.target target] => some (.jump target)
  | "JP", [.register _, .target base] => some (.jumpOffset base)
  | "CALL", [.target target] => some (.call target)
  | "SE", [.register x, .byte value] => some (.skipIf (.byteEqual x value))
  | "SE", [.register x, .register y] => some (.skipIf (.equal x y))
  | "SNE", [.register x, .byte value] => some (.skipIf (.byteDifferent x value))
  | "SNE", [.register x, .register y] => some (.skipIf (.different x y))
  | "SKP", [.register x] => some (.skipIf (.keyDown x))
  | "SKNP", [.register x] => some (.skipIf (.keyUp x))
  | "LD", operands => ofLoad? operands
  | "ADD", [.register x, .byte value] => some (.addByte x value)
  | "ADD", [.register x, .register y] => some (.combine .add x y)
  | "ADD", [.named .index, .register x] => some (.addIndex x)
  | "OR", [.register x, .register y] => some (.combine .or x y)
  | "AND", [.register x, .register y] => some (.combine .and x y)
  | "XOR", [.register x, .register y] => some (.combine .xor x y)
  | "SUB", [.register x, .register y] => some (.combine .subtract x y)
  | "SHR", [.register x, .register y] => some (.combine .shiftRight x y)
  | "SUBN", [.register x, .register y] => some (.combine .subtractReverse x y)
  | "SHL", [.register x, .register y] => some (.combine .shiftLeft x y)
  | "RND", [.register x, .byte mask] => some (.random x mask)
  | "DRW", [.register x, .register y, .height height] => some (.draw x y height)
  | "???", [.word word] => some (.unknown word)
  | _, _ => none

theorem ofParts?_parts (i : Instruction) : ofParts? i.parts = some i := by
  cases i with
  | skipIf condition => cases condition <;> rfl
  | combine how x y => cases how <;> rfl
  | _ => rfl

/-- The instruction that a mnemonic shows. -/
def ofMnemonic? (text : String) : Option Instruction := (Mnemonic.read? text).bind ofParts?

/-- **An instruction is read from its mnemonic.** -/
theorem ofMnemonic?_mnemonic (i : Instruction) : ofMnemonic? i.mnemonic = some i := by
  rw [ofMnemonic?, ← i.parts_text, Mnemonic.read?_text i.parts_plain, Option.bind_some,
    ofParts?_parts]

/-- The two bytes of an instruction, the more significant one first. -/
def bytes (i : Instruction) : List UInt8 :=
  [UInt8.ofNat (i.code / 256), UInt8.ofNat (i.code % 256)]

/-- **An instruction that is listed has the bytes that it was listed for**, but for the byte behind
an end mark. -/
theorem bytes_listedWord (high low : UInt8) :
    (decode (listedWord high low)).bytes = [high, if high = endMark then 0 else low] := by
  by_cases hmark : high = endMark
  · subst hmark
    rw [if_pos rfl, listedWord, if_pos rfl]
    rfl
  · have hhigh := high.toNat_lt
    have hlow := low.toNat_lt
    have hword : (Memory.wordOf high low).toNat = high.toNat * 256 + low.toNat := by
      rw [Memory.wordOf, UInt16.toNat_ofNat', Nat.mod_eq_of_lt (by omega)]
    have hhead : (high.toNat * 256 + low.toNat) / 256 = high.toNat := by omega
    have htail : (high.toNat * 256 + low.toNat) % 256 = low.toNat := by omega
    have hother : high.toNat ≠ 0x0A := fun heq => hmark (UInt8.toNat_inj.mp heq)
    rw [if_neg hmark, listedWord, if_neg hmark, bytes, code_decode (by rw [hword, hhead]; exact hother),
      hword, hhead, htail, UInt8.ofNat_toNat, UInt8.ofNat_toNat]

end Instruction

/-! ## The last column of a listing -/

/-- What follows a column, behind two blanks. -/
def afterColumn (cs : List Char) : List Char := (cs.dropWhile (· ≠ ' ')).drop 2

theorem afterColumn_append {column : List Char} (h : ' ' ∉ column) (rest : List Char) :
    afterColumn (column ++ ' ' :: ' ' :: rest) = rest := by
  have hcolumn : ∀ c ∈ column, decide (c ≠ ' ') = true := fun c hc =>
    decide_eq_true fun heq => h (heq ▸ hc)
  rw [afterColumn, List.dropWhile_append_of_pos hcolumn]
  rfl

/-- A line without the address and the word. -/
def mnemonicColumn (line : String) : String := String.ofList (afterColumn (afterColumn line.toList))

/-- **The last column of a line is the mnemonic.** -/
theorem mnemonicColumn_line (w : ListedWord) : mnemonicColumn w.line = w.instruction.mnemonic := by
  have hnumber : ∀ (width : Nat) (n : Int), ' ' ∉ (hex width n).toList :=
    not_mem_hex (by decide)
  have haddress : ' ' ∉ '0' :: 'x' :: (hex 3 w.address).toList := by
    simp only [List.mem_cons, not_or]
    exact ⟨by decide, by decide, hnumber 3 w.address⟩
  have hline : w.line.toList = ('0' :: 'x' :: (hex 3 w.address).toList) ++ ' ' :: ' ' ::
      ((hex 4 w.word.toNat).toList ++ ' ' :: ' ' :: w.instruction.mnemonic.toList) := by
    simp [ListedWord.line, toString_text]
  rw [mnemonicColumn, hline, afterColumn_append haddress, afterColumn_append (hnumber 4 _),
    String.ofList_toList]

/-- The mnemonics of a program as they are listed. -/
def mnemonics (base : Int) (program : List UInt8) : List String :=
  (disassemble base program).map mnemonicColumn

theorem mnemonics_eq (base : Int) (program : List UInt8) :
    mnemonics base program =
      ((listing base program).map ListedWord.instruction).map Instruction.mnemonic := by
  rw [mnemonics, disassemble, List.map_map, List.map_map]
  exact List.map_congr_left fun w _ => mnemonicColumn_line w

/-- Where a program begins makes no difference to what it means. -/
theorem listing_instructions (base base' : Int) (program : List UInt8) :
    (listing base program).map ListedWord.instruction =
      (listing base' program).map ListedWord.instruction := by
  fun_induction listing base program generalizing base' with
  | case1 => rfl
  | case2 => rfl
  | case3 base high low rest ih => rw [listing, List.map_cons, List.map_cons, ih (base' + 2)]; rfl

/-- **The bytes of the listed instructions are the canonical bytes of the program.** -/
theorem listing_bytes (base : Int) (program : List UInt8) :
    ((listing base program).map ListedWord.instruction).flatMap Instruction.bytes =
      canonicalBytes program := by
  fun_induction canonicalBytes program generalizing base with
  | case1 => rfl
  | case2 high =>
      have hbytes := Instruction.bytes_listedWord high 0
      rw [ite_self] at hbytes
      rw [listing, List.map_singleton, List.flatMap_singleton]
      exact hbytes
  | case3 high low rest ih =>
      rw [listing, List.map_cons, List.flatMap_cons, ih]
      exact congrArg (· ++ canonicalBytes rest) (Instruction.bytes_listedWord high low)

/-- Assembles a program from mnemonics. -/
def assemble? (texts : List String) : Option (List UInt8) :=
  (texts.mapM Instruction.ofMnemonic?).map fun instructions =>
    instructions.flatMap Instruction.bytes

/-- **A program is assembled from its listed mnemonics.** -/
theorem assemble?_mnemonics (base : Int) (program : List UInt8) :
    assemble? (mnemonics base program) = some (canonicalBytes program) := by
  rw [assemble?, mnemonics_eq, mapM_map_eq_some Instruction.ofMnemonic?_mnemonic, Option.map_some,
    listing_bytes]

/-! ## The main statement -/

/--
**The mnemonics of a listing tell the program.**

From the last column alone a program is assembled again, up to the bytes that do not matter. So two
programs are listed with the same mnemonics, line by line, exactly if they have the same canonical
bytes, and it makes no difference at which addresses they are listed.
-/
theorem mnemonics_lossless (base base' : Int) (program other : List UInt8) :
    assemble? (mnemonics base program) = some (canonicalBytes program) ∧
      (mnemonics base program = mnemonics base' other ↔
        canonicalBytes program = canonicalBytes other) := by
  refine ⟨assemble?_mnemonics base program, fun hsame => ?_, fun hbytes => ?_⟩
  · have hread := assemble?_mnemonics base program
    rw [hsame, assemble?_mnemonics] at hread
    exact (Option.some.inj hread).symm
  · rw [mnemonics_eq, mnemonics_eq, listing_congr hbytes, listing_instructions base base']

/-- A register loaded with a byte and from another one, a word of no meaning, an end mark and a last
single byte. -/
example : disassemble 0x200 [0x6A, 0x0B, 0x8A, 0xB0, 0x80, 0x08, 0x0A, 0x77, 0x12] =
    ["0x200  6A0B  LD VA, 0x0B", "0x202  8AB0  LD VA, VB", "0x204  8008  ??? 0x8008",
      "0x206  0A00  EOF", "0x208  1200  JP 0x200"] := by
  decide +kernel

end ChipEight
