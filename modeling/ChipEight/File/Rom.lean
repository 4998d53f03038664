import ChipEight.File.Tree
import ChipEight.Memory
import ChipEight.Text.UpperCase

/-!
# Program files

A program file holds the bytes of a program and nothing else. It must hold at least one byte and
no more than fit into memory. Its title is its name without the suffix, in upper case.
-/

namespace ChipEight

/-- A program as it was read. -/
structure Rom where
  bytes : List UInt8
  title : String
  path : Path
  deriving Repr

/-- Why a program cannot be loaded from a file. -/
inductive RomTrouble
  | unreadable (path : Path) (why : FileTrouble)
  | empty (path : Path)
  | tooLarge (path : Path) (size : Nat)
  deriving DecidableEq, Repr

/-- The wording of the trouble. -/
def RomTrouble.message : RomTrouble → String
  | .unreadable path .embeddedNull => FileTrouble.embeddedNull.message path
  | .unreadable path why => s!"cannot read {path.text}: {why.reason path}"
  | .empty path => s!"{path.text} is empty"
  | .tooLarge path size =>
    s!"{path.text} is {size} bytes; at most {programLimit} bytes fit in memory"

/-- Reads a program. -/
def loadRom (files : FileTree) (path : Path) : Except RomTrouble Rom :=
  match files.read path with
  | .error why => .error (.unreadable path why)
  | .ok bytes =>
    if bytes.isEmpty then .error (.empty path)
    else if programLimit < bytes.length then .error (.tooLarge path bytes.length)
    else .ok ⟨bytes, Text.upper path.stem, path⟩

/-- The path that was given, or the one of the environment; an empty text is none. -/
def romPath? (given environment : Option String) : Option Path :=
  match given.filter (· ≠ ""), environment.filter (· ≠ "") with
  | some text, _ => some (Path.ofText text)
  | none, some text => some (Path.ofText text)
  | none, none => none

end ChipEight
