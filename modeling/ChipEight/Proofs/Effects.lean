import ChipEight.Proofs.Step

/-!
# What an instruction leaves alone

An instruction has its business with one or two parts of the board, and a program relies on it that
everything else stays as it is. `Board.Confined` says so for each part: if it is changed at all, the
instruction is one of the few that are named. Registers need the most care, because the operands may
name the same register twice and the flag register is one of the sixteen. `Instruction.Writes` lists
who may change which.

Only for the source of random numbers there is more to say: an instruction that asks for a number
takes exactly one, whatever it makes of it.
-/

namespace ChipEight

/-- The combinations that report in the flag register. -/
inductive Combination.Flagged : Combination → Prop
  | add : Flagged .add
  | subtract : Flagged .subtract
  | subtractReverse : Flagged .subtractReverse
  | shiftRight : Flagged .shiftRight
  | shiftLeft : Flagged .shiftLeft

/-- The registers that an instruction may give another value. -/
inductive Instruction.Writes : Instruction → Register → Prop
  | loadByte (x : Register) (value : UInt8) : Writes (.loadByte x value) x
  | addByte (x : Register) (value : UInt8) : Writes (.addByte x value) x
  | combine (how : Combination) (x y : Register) : Writes (.combine how x y) x
  | random (x : Register) (mask : UInt8) : Writes (.random x mask) x
  | readDelay (x : Register) : Writes (.readDelay x) x
  | awaitKey (x : Register) : Writes (.awaitKey x) x
  /-- Restoring reaches from the first register to the operand. -/
  | loadRegisters (x k : Register) : k ≤ x → Writes (.loadRegisters x) k
  /-- Carry, borrow and the bit shifted out. -/
  | flag (how : Combination) (x y : Register) : how.Flagged →
      Writes (.combine how x y) flagRegister
  /-- A sum beyond memory. -/
  | beyond (x : Register) : Writes (.addIndex x) flagRegister
  /-- A collision. -/
  | collision (x y : Register) (height : Nibble) : Writes (.draw x y height) flagRegister

/-! ## Registers -/

namespace Processor

theorem setRegister_of_ne (p : Processor) {x k : Register} (value : UInt8) (h : k ≠ x) :
    (p.setRegister x value).register k = p.register k := by
  have hval : x.val ≠ k.val := fun heq => h (Fin.ext heq.symm)
  exact Vector.getElem_set_ne x.isLt k.isLt hval

theorem setFlagged_of_ne (p : Processor) {x k : Register} (value : UInt8) (flag : Bool)
    (hx : k ≠ x) (hflag : k ≠ flagRegister) :
    (p.setFlagged x value flag).register k = p.register k := by
  rw [setFlagged, setRegister_of_ne _ _ hflag, setRegister_of_ne _ _ hx]

/-- A combination changes its first operand, and the flag register if it reports there. -/
theorem combine_of_ne (p : Processor) {how : Combination} {x k : Register} (y : Register)
    (hx : k ≠ x) (hflag : how.Flagged → k ≠ flagRegister) :
    (p.combine how x y).register k = p.register k := by
  cases how with
  | copy | or | and | xor => exact p.setRegister_of_ne _ hx
  | add => exact p.setFlagged_of_ne _ _ hx (hflag .add)
  | subtract => exact p.setFlagged_of_ne _ _ hx (hflag .subtract)
  | subtractReverse => exact p.setFlagged_of_ne _ _ hx (hflag .subtractReverse)
  | shiftRight => exact p.setFlagged_of_ne _ _ hx (hflag .shiftRight)
  | shiftLeft => exact p.setFlagged_of_ne _ _ hx (hflag .shiftLeft)

/-- Values that are put in place from one register on do not reach those past them, nor those
before. -/
theorem fill_getElem (registers : Vector UInt8 16) (start : Nat) (values : List UInt8)
    {k : Nat} (hk : k < 16) (h : k < start ∨ start + values.length ≤ k) :
    (setRegisters.fill registers start values)[k] = registers[k] := by
  induction values generalizing registers start with
  | nil => rfl
  | cons value rest ih =>
      rw [List.length_cons] at h
      have hrest := ih (registers.setIfInBounds start value) (start + 1) (by omega)
      rw [setRegisters.fill, hrest]
      exact Vector.getElem_setIfInBounds_ne hk (by omega)

theorem setRegisters_of_le (p : Processor) {values : List UInt8} {k : Register}
    (h : values.length ≤ k.val) : (p.setRegisters values).register k = p.register k :=
  fill_getElem p.registers 0 values k.isLt (Or.inr (by omega))

end Processor

namespace Memory

/-- A block that was read has the length that was asked for. -/
theorem readBlock_length {m : Memory} {address length : Int} {bytes : List UInt8}
    (h : m.readBlock address length = .ok bytes) : (bytes.length : Int) = length := by
  unfold readBlock at h
  split at h
  · rename_i hin
    have hlength := hin.2.1
    rw [← Except.ok.inj h, List.length_map, List.length_range]
    omega
  · exact absurd h (by simp)

end Memory

namespace Board

variable {b : Board} {i : Instruction}

/-- **A register that an instruction does not write keeps its value.** -/
theorem registersAfter_of_not_writes {k : Register} (h : ¬ i.Writes k) :
    ({ b.processor with registers := b.registersAfter i } : Processor).register k =
      b.processor.register k := by
  -- the operand is another register, because an instruction may write its operand
  have hother : ∀ x, i.Writes x → k ≠ x := by
    rintro x hx rfl
    exact h hx
  cases i with
  | loadByte x value => exact b.processor.setRegister_of_ne _ (hother x (.loadByte x value))
  | addByte x value => exact b.processor.setRegister_of_ne _ (hother x (.addByte x value))
  | combine how x y =>
      exact b.processor.combine_of_ne y (hother x (.combine how x y))
        fun hflagged => hother _ (.flag how x y hflagged)
  | random x mask => exact b.processor.setRegister_of_ne _ (hother x (.random x mask))
  | draw x y height =>
      rw [registersAfter]
      cases b.spriteRows height with
      | some rows => exact b.processor.setRegister_of_ne _ (hother _ (.collision x y height))
      | none => rfl
  | readDelay x => exact b.processor.setRegister_of_ne _ (hother x (.readDelay x))
  | awaitKey x =>
      rw [registersAfter]
      cases b.awaited.presses with
      | cons key rest => exact b.processor.setRegister_of_ne _ (hother x (.awaitKey x))
      | nil => rfl
  | addIndex x =>
      have hindex : ∀ index, ({ b.processor with index } : Processor).register k =
          b.processor.register k := fun _ => rfl
      exact (Processor.setRegister_of_ne _ _ (hother _ (.beyond x))).trans (hindex _)
  | loadRegisters x =>
      have hpast : x.val < k.val := by
        have hle : ¬ k ≤ x := fun hle => h (.loadRegisters x k hle)
        exact Nat.lt_of_not_le hle
      rw [registersAfter]
      cases hread : b.memory.readBlock b.processor.index (x.val + 1) with
      | ok values =>
          have hlength := Memory.readBlock_length hread
          exact b.processor.setRegisters_of_le (by omega)
      | error fault => rfl
  | _ => rfl

/-! ## All parts -/

/-- What an instruction changed of a board is its own business. -/
structure Confined (b : Board) (i : Instruction) (after : Board) : Prop where
  /-- Memory is written by the two instructions that store. -/
  memory : after.memory ≠ b.memory →
    (∃ x, i = .storeDigits x) ∨ ∃ x, i = .storeRegisters x
  /-- The pixels and the news of them come from clearing and drawing. -/
  screen : after.screen ≠ b.screen → i = .clearScreen ∨ ∃ x y height, i = .draw x y height
  /-- The call stack belongs to calls and returns. -/
  stack : after.processor.stack ≠ b.processor.stack → (∃ target, i = .call target) ∨ i = .ret
  /-- The index is set, added to, or pointed at a glyph. -/
  index : after.processor.index ≠ b.processor.index →
    (∃ target, i = .setIndex target) ∨ (∃ x, i = .addIndex x) ∨ ∃ x, i = .loadGlyph x
  /-- Each timer has one instruction that sets it. -/
  delay : after.delay ≠ b.delay → ∃ x, i = .setDelay x
  sound : after.sound ≠ b.sound → ∃ x, i = .setSound x
  /-- Only a wait for a key takes presses out of the queue. -/
  presses : after.keypad.presses ≠ b.keypad.presses → ∃ x, i = .awaitKey x
  waiting : after.processor.waiting ≠ b.processor.waiting → ∃ x, i = .awaitKey x
  /-- No instruction moves a key. -/
  down : after.keypad.down = b.keypad.down
  /-- Only the end of the program halts. -/
  halted : after.processor.halted ≠ b.processor.halted → i = .endProgram
  /-- One random number is taken, or none. -/
  random : ((∃ x mask, i = .random x mask) ∧ after.random = b.random.next.2) ∨
    ((∀ x mask, i ≠ .random x mask) ∧ after.random = b.random)
  /-- Registers are written by those that `Instruction.Writes` lists. -/
  registers : ∀ k, after.processor.register k ≠ b.processor.register k → i.Writes k
  /-- The program counter goes on to the next word, unless the instruction is one of those that
  lead elsewhere. -/
  pc : after.processor.pc ≠ b.processor.pc + wordSize →
    i = .ret ∨ (∃ target, i = .jump target) ∨ (∃ target, i = .call target) ∨
      (∃ base, i = .jumpOffset base) ∨ (∃ condition, i = .skipIf condition) ∨
      ∃ x, i = .awaitKey x
  /-- Each instruction is counted. -/
  count : after.processor.count = b.processor.count + 1

theorem memoryAfter_ne (h : b.memoryAfter i ≠ b.memory) :
    (∃ x, i = .storeDigits x) ∨ ∃ x, i = .storeRegisters x := by
  cases i with
  | storeDigits x => exact Or.inl ⟨x, rfl⟩
  | storeRegisters x => exact Or.inr ⟨x, rfl⟩
  | _ => exact absurd rfl h

theorem screenAfter_ne (h : b.screenAfter i ≠ b.screen) :
    i = .clearScreen ∨ ∃ x y height, i = .draw x y height := by
  cases i with
  | clearScreen => exact Or.inl rfl
  | draw x y height => exact Or.inr ⟨x, y, height, rfl⟩
  | _ => exact absurd rfl h

theorem stackAfter_ne (h : b.stackAfter i ≠ b.processor.stack) :
    (∃ target, i = .call target) ∨ i = .ret := by
  cases i with
  | call target => exact Or.inl ⟨target, rfl⟩
  | ret => exact Or.inr rfl
  | _ => exact absurd rfl h

theorem indexAfter_ne (h : b.indexAfter i ≠ b.processor.index) :
    (∃ target, i = .setIndex target) ∨ (∃ x, i = .addIndex x) ∨ ∃ x, i = .loadGlyph x := by
  cases i with
  | setIndex target => exact Or.inl ⟨target, rfl⟩
  | addIndex x => exact Or.inr (Or.inl ⟨x, rfl⟩)
  | loadGlyph x => exact Or.inr (Or.inr ⟨x, rfl⟩)
  | _ => exact absurd rfl h

theorem delayAfter_ne {now : Seconds} (h : b.delayAfter now i ≠ b.delay) :
    ∃ x, i = .setDelay x := by
  cases i with
  | setDelay x => exact ⟨x, rfl⟩
  | _ => exact absurd rfl h

theorem soundAfter_ne {now : Seconds} (h : b.soundAfter now i ≠ b.sound) :
    ∃ x, i = .setSound x := by
  cases i with
  | setSound x => exact ⟨x, rfl⟩
  | _ => exact absurd rfl h

theorem keypadAfter_ne (h : b.keypadAfter i ≠ b.keypad) : ∃ x, i = .awaitKey x := by
  cases i with
  | awaitKey x => exact ⟨x, rfl⟩
  | _ => exact absurd rfl h

theorem waitingAfter_ne (h : b.waitingAfter i ≠ b.processor.waiting) : ∃ x, i = .awaitKey x := by
  cases i with
  | awaitKey x => exact ⟨x, rfl⟩
  | _ => exact absurd rfl h

theorem haltedAfter_ne (h : b.haltedAfter i ≠ b.processor.halted) : i = .endProgram := by
  cases i with
  | endProgram => rfl
  | _ => exact absurd rfl h

theorem randomAfter_cases (b : Board) (i : Instruction) :
    ((∃ x mask, i = .random x mask) ∧ b.randomAfter i = b.random.next.2) ∨
      ((∀ x mask, i ≠ .random x mask) ∧ b.randomAfter i = b.random) := by
  cases i with
  | random x mask => exact Or.inl ⟨⟨x, mask, rfl⟩, rfl⟩
  | _ => exact Or.inr ⟨by simp, rfl⟩

theorem pcAfter_ne (h : b.pcAfter i ≠ b.processor.pc) :
    i = .ret ∨ (∃ target, i = .jump target) ∨ (∃ target, i = .call target) ∨
      (∃ base, i = .jumpOffset base) ∨ (∃ condition, i = .skipIf condition) ∨
      ∃ x, i = .awaitKey x := by
  cases i with
  | ret | jump target | call target | jumpOffset base | skipIf condition | awaitKey x => simp
  | _ => exact absurd rfl h

/-- **The outcome of an instruction is confined** to what it is for. -/
theorem outcome_confined (b : Board) (now : Seconds) (i : Instruction) :
    b.Confined i (b.advanced.outcome now i) where
  memory := memoryAfter_ne (b := b.advanced)
  screen := screenAfter_ne (b := b.advanced)
  stack := stackAfter_ne (b := b.advanced)
  index := indexAfter_ne (b := b.advanced)
  delay := delayAfter_ne (b := b.advanced)
  sound := soundAfter_ne (b := b.advanced)
  presses := fun h => keypadAfter_ne (b := b.advanced) fun heq => h (congrArg Keypad.presses heq)
  waiting := waitingAfter_ne (b := b.advanced)
  down := b.advanced.keypadAfter_down i
  halted := haltedAfter_ne (b := b.advanced)
  random := b.advanced.randomAfter_cases i
  registers := by
    intro k hk
    have hkept := registersAfter_of_not_writes (b := b.advanced) (i := i) (k := k)
    exact Classical.byContradiction fun hwrites => hk (hkept hwrites)
  pc := pcAfter_ne (b := b.advanced)
  count := rfl

/--
**A step changes what its instruction is for, and nothing else.**

A step that succeeds has fetched an instruction, and the board after it differs from the board
before in the parts that belong to that instruction at most. Nothing is asked of the board but that
its processor is not halted: registers that are named twice, an index past memory or a full queue
make no difference.
-/
theorem step_confined {now : Seconds} (hrun : b.processor.halted = false)
    (hok : (b.step now).fault = none) :
    ∃ word, b.memory.fetch b.processor.pc = .ok word ∧
      b.Confined (Instruction.decode word) (b.step now).board := by
  cases hfetch : b.memory.fetch b.processor.pc with
  | error fault =>
      rw [step_fault_of_fetch_error hrun hfetch] at hok
      exact absurd hok (by simp)
  | ok word =>
      rw [(step_of_fetch hrun hfetch now).1]
      exact ⟨word, rfl, b.outcome_confined now _⟩

/-- Memory full of 0xDD, so that a sprite of thirteen rows is drawn at the place that one register
holds twice: memory, index and all registers but the flag register stay as they are. -/
theorem step_confined_sprite :
    let b : Board :=
      { (Machine.new (.ofSeed 7) 0.25).board with
        memory := ⟨Vector.replicate memorySize 0xDD, 0⟩ }
    b.processor.halted = false ∧ (b.step 0.5).fault = none ∧
      (b.step 0.5).board.memory = b.memory ∧
      (b.step 0.5).board.processor.index = b.processor.index ∧
      ∀ k, k ≠ flagRegister →
        (b.step 0.5).board.processor.register k = b.processor.register k := by
  intro b
  have hbyte : ∀ k, k < memorySize → b.memory.byteAt k = 0xDD := by
    intro k hk
    simp [b, Memory.byteAt, hk]
  have hfetch : b.memory.fetch b.processor.pc = .ok 0xDDDD := by
    rw [Memory.fetch_eq, if_pos (by decide), hbyte _ (by decide), hbyte _ (by decide)]
    rfl
  have hdecode : Instruction.decode 0xDDDD = .draw 13 13 13 := rfl
  have hok : (b.step 0.5).fault = none := by
    have hroom : b.blockFault 13 = none := if_pos (show Memory.Holds 0 13 by decide)
    rw [(step_of_fetch rfl hfetch 0.5).2, hdecode]
    exact hroom
  obtain ⟨word, hword, hconfined⟩ := step_confined rfl hok
  rw [hfetch] at hword
  rw [← Except.ok.inj hword, hdecode] at hconfined
  refine ⟨rfl, hok, ?_, ?_, ?_⟩
  · refine Classical.byContradiction fun h => ?_
    rcases hconfined.memory h with ⟨_, hstore⟩ | ⟨_, hstore⟩
    · cases hstore
    · cases hstore
  · refine Classical.byContradiction fun h => ?_
    rcases hconfined.index h with ⟨_, hset⟩ | ⟨_, hset⟩ | ⟨_, hset⟩
    · cases hset
    · cases hset
    · cases hset
  · intro k hk
    refine Classical.byContradiction fun h => hk ?_
    cases hconfined.registers k h
    rfl

end Board

end ChipEight
