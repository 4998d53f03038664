import ChipEight.Command
import ChipEight.Proofs.Memory
import ChipEight.Proofs.Operation

/-!
# Loading a program

A load is made in full or not at all. What is too large is turned down before anything is touched; all
else is put in its place byte by byte, remembered for a reset, and nothing beside it changes.

A program from a file goes through two checks of its size: one of the file, and the one of memory that
every load makes. `Machine.loadTwiceChecked` has both in it. They agree, so the second never turns
down what the first let through, and a load from a file fails for the file's sake only.
-/

namespace ChipEight

/-- Why a load from a file is turned down: by the file's own check, or by the one of memory. -/
inductive LoadRefusal
  | file (trouble : RomTrouble)
  | memory (fault : Fault)

/-- The system cannot read the file, or what is in it is no program. -/
inductive FileTree.Unloadable (files : FileTree) (path : Path) : RomTrouble → Prop
  /-- The system says why. It is not asked for a path with a null character in it. -/
  | unreadable (why : FileTrouble) : files.read path = .error why → why ≠ .embeddedNull →
      files.Unloadable path (.unreadable path why)
  | empty : files.read path = .ok [] → files.Unloadable path (.empty path)
  | tooLarge (bytes : List UInt8) : files.read path = .ok bytes → 3584 < bytes.length →
      files.Unloadable path (.tooLarge path bytes.length)

namespace Machine

/-- A load from a file with both checks in it: the file is read and checked, the program is placed if
memory takes it, and then the machine gets its title. -/
def loadTwiceChecked (m : Machine) (files : FileTree) (path : Path) :
    Except LoadRefusal (Rom × Machine) :=
  match loadRom files path with
  | .error trouble => .error (.file trouble)
  | .ok rom =>
    match m.load rom.bytes with
    | .error fault => .error (.memory fault)
    | .ok loaded => .ok (rom, { loaded with title := some rom.title })

/-- The machine after a load from a file, which stays as it is if the load is turned down. -/
def afterLoadFrom (m : Machine) (files : FileTree) (path : Path) : Machine :=
  match m.loadFrom files path with
  | .ok (_, loaded) => loaded
  | .error _ => m

/-- The machine after a program was placed in it. -/
structure Loaded (m : Machine) (program : List UInt8) (after : Machine) : Prop where
  /-- Each byte of the program is in its place. -/
  placed : ∀ k (h : k < program.length), after.board.memory.byteAt (0x200 + k) = program[k]
  /-- No other byte has changed, those of the font included. -/
  kept : ∀ address, address < 0x200 ∨ 0x200 + program.length ≤ address →
    after.board.memory.byteAt address = m.board.memory.byteAt address
  size : after.board.memory.bytes.toList.length = 4096
  length : after.board.memory.programLength = program.length
  /-- A reset will place it again. -/
  remembered : after.program = program
  /-- Nothing else has changed. -/
  rest : { after with
    board := { after.board with memory := m.board.memory }, program := m.program } = m

variable {m : Machine} {files : FileTree} {path : Path}

/-! ## From memory -/

/-- **A load is turned down exactly if the program is too large.** -/
theorem load_eq_error {program : List UInt8} {fault : Fault} :
    m.load program = .error fault ↔
      3584 < program.length ∧ fault = .programTooLarge program.length := by
  rcases m.perform_load_cases program with ⟨hfits, memory, hload, _⟩ | ⟨hlarge, hload, _⟩
  · simp only [load, hload, reduceCtorEq, false_iff, not_and]
    intro hlarge
    exact absurd hfits (Nat.not_le_of_lt hlarge)
  · simp only [load, hload, Except.error.injEq]
    exact ⟨fun h => ⟨Nat.lt_of_not_le hlarge, h.symm⟩, fun h => h.2.symm⟩

/-- **A program that fits is placed byte by byte.** -/
theorem load_of_fits {program : List UInt8} (h : program.length ≤ 3584) :
    ∃ after, m.load program = .ok after ∧ m.perform (.load program) = after ∧
      m.Loaded program after := by
  obtain ⟨memory, hload, hperform⟩ := m.perform_load program h
  have hafter : m.load program = .ok { m with board := { m.board with memory }, program } := by
    simp only [load, hload]
  have hbytes := Memory.byteAt_load hload
  refine ⟨_, hafter, hperform, ?_, ?_, Vector.length_toList, ?_, rfl, rfl⟩
  · intro k hk
    have hplace : programStart ≤ 0x200 + k ∧ 0x200 + k < programStart + program.length := by
      simp only [programStart]
      omega
    refine (hbytes (0x200 + k)).trans ?_
    rw [if_pos hplace, show 0x200 + k - programStart = k from Nat.add_sub_cancel_left 0x200 k,
      List.getElem?_eq_getElem hk, Option.getD_some]
  · intro address haddress
    refine (hbytes address).trans (if_neg fun hplace => ?_)
    simp only [programStart] at hplace
    omega
  · have hmemory : m.board.memory.load program =
        .ok ⟨Memory.place m.board.memory.bytes programStart program, program.length⟩ := if_pos h
    rw [hmemory] at hload
    rw [← Except.ok.inj hload]

/-! ## From a file -/

/-- What a file holds that is not empty and fits is a program. -/
theorem loadRom_of_read {bytes : List UInt8} (hread : files.read path = .ok bytes)
    (hsome : bytes ≠ []) (hfits : bytes.length ≤ 3584) :
    loadRom files path = .ok ⟨bytes, Text.upper path.stem, path⟩ := by
  have hempty : bytes.isEmpty = false := by
    rw [List.isEmpty_eq_false_iff]
    exact hsome
  have hroom : ¬ programLimit < bytes.length := Nat.not_lt_of_le hfits
  simp only [loadRom, hread, hempty, if_neg hroom, Bool.false_eq_true, if_false]

/-- **Loading a file fails for what is wrong with the file.** -/
theorem loadRom_cases (hpath : files.read path ≠ .error .embeddedNull) :
    (∃ trouble, loadRom files path = .error trouble ∧ files.Unloadable path trouble) ∨
    ∃ bytes, files.read path = .ok bytes ∧ bytes ≠ [] ∧ bytes.length ≤ 3584 ∧
      loadRom files path = .ok ⟨bytes, Text.upper path.stem, path⟩ := by
  cases hread : files.read path with
  | error why =>
      refine Or.inl ⟨.unreadable path why, ?_, .unreadable why hread fun hnull => ?_⟩
      · simp only [loadRom, hread]
      · rw [hread, hnull] at hpath
        exact hpath rfl
  | ok bytes =>
      by_cases hempty : bytes = []
      · subst hempty
        refine Or.inl ⟨.empty path, ?_, .empty hread⟩
        simp only [loadRom, hread, List.isEmpty_nil, if_true]
      · by_cases hfits : bytes.length ≤ 3584
        · exact Or.inr ⟨bytes, rfl, hempty, hfits, loadRom_of_read hread hempty hfits⟩
        · have hlarge : programLimit < bytes.length := Nat.lt_of_not_le hfits
          have hfilled : bytes.isEmpty = false := by
            rw [List.isEmpty_eq_false_iff]
            exact hempty
          refine Or.inl ⟨.tooLarge path bytes.length, ?_, .tooLarge bytes hread hlarge⟩
          simp only [loadRom, hread, hfilled, if_pos hlarge, Bool.false_eq_true, if_false]

end Machine

/-- A program that was read from a file fits. -/
theorem loadRom_fits {files : FileTree} {path : Path} {rom : Rom}
    (h : loadRom files path = .ok rom) : rom.bytes.length ≤ programLimit := by
  unfold loadRom at h
  split at h
  · exact absurd h (by simp)
  · split at h
    · exact absurd h (by simp)
    · split at h
      · exact absurd h (by simp)
      · rename_i hfits
        obtain rfl := Except.ok.inj h
        exact Nat.le_of_not_lt hfits

theorem withRom_of_fits {m : Machine} {rom : Rom} (h : rom.bytes.length ≤ programLimit) :
    ∃ loaded, m.load rom.bytes = .ok loaded ∧
      m.withRom rom = { loaded with title := some rom.title } := by
  obtain ⟨loaded, hloaded, _⟩ := m.load_of_fits h
  refine ⟨loaded, hloaded, ?_⟩
  rw [Machine.withRom, hloaded]
  rfl

namespace Machine

/-- **The two checks agree**: memory takes whatever the file's check let through. -/
theorem loadTwiceChecked_eq (m : Machine) (files : FileTree) (path : Path) :
    m.loadTwiceChecked files path = (m.loadFrom files path).mapError .file := by
  unfold loadTwiceChecked loadFrom
  cases hrom : loadRom files path with
  | error trouble => rfl
  | ok rom =>
      obtain ⟨loaded, hload, hwith⟩ := withRom_of_fits (m := m) (loadRom_fits hrom)
      simp only [hload, Except.map, hwith]
      rfl

/-! ## The main statement -/

/-- Loads into a machine are exact, and made in full or not at all. -/
structure LoadsExactly (m : Machine) : Prop where
  /-- A load is turned down for one reason, and only then. -/
  tooLarge : ∀ program fault, m.load program = .error fault ↔
    3584 < program.length ∧ fault = .programTooLarge program.length
  /-- What is turned down has changed nothing. -/
  untouched : ∀ program : List UInt8, 3584 < program.length → m.perform (.load program) = m
  fits : ∀ program : List UInt8, program.length ≤ 3584 →
    ∃ after, m.load program = .ok after ∧ m.perform (.load program) = after ∧
      m.Loaded program after
  /-- A file that can be loaded is loaded as it is, and any other one is turned down for what is wrong
  with it and leaves the whole machine. -/
  file : ∀ files path, files.read path ≠ .error .embeddedNull →
    (∃ trouble, m.loadFrom files path = .error trouble ∧ files.Unloadable path trouble ∧
      m.afterLoadFrom files path = m) ∨
    ∃ bytes after, files.read path = .ok bytes ∧ bytes ≠ [] ∧ bytes.length ≤ 3584 ∧
      m.Loaded bytes after ∧
      m.loadFrom files path =
        .ok (⟨bytes, Text.upper path.stem, path⟩,
          { after with title := some (Text.upper path.stem) })
  /-- The check of memory has no part in that. -/
  checked : ∀ files path, m.loadTwiceChecked files path = (m.loadFrom files path).mapError .file

/--
**Loading is exact and atomic**, whatever state the machine is in.

The bytes of a program of 3584 bytes reach to the end of memory, and those of a longer one are not
looked at.
-/
theorem loading_exact (m : Machine) : m.LoadsExactly where
  tooLarge := fun program fault => load_eq_error
  untouched := by
    intro program hlarge
    rcases m.perform_load_cases program with ⟨hfits, _⟩ | ⟨_, _, hm⟩
    · exact absurd hfits (Nat.not_le_of_lt hlarge)
    · exact hm
  fits := fun program h => load_of_fits h
  file := by
    intro files path hpath
    rcases loadRom_cases hpath with ⟨trouble, hrom, hwhy⟩ | ⟨bytes, hread, hsome, hfits, hrom⟩
    · have hload : m.loadFrom files path = .error trouble := by
        rw [loadFrom, hrom]
        rfl
      refine Or.inl ⟨trouble, hload, hwhy, ?_⟩
      rw [afterLoadFrom, hload]
    · obtain ⟨after, hload, _, hloaded⟩ := m.load_of_fits hfits
      refine Or.inr ⟨bytes, after, hread, hsome, hfits, hloaded, ?_⟩
      rw [loadFrom, hrom]
      change Except.ok (_, m.withRom _) = _
      rw [withRom, hload]
      rfl
  checked := m.loadTwiceChecked_eq

end Machine

end ChipEight
