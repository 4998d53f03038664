import ChipEight.File.Path
import ChipEight.Text.Quoted

/-!
# A tree of files

The files of a working directory as a value, so that reading and writing are functions. A path is
followed name by name from the working directory; each name but the last must be that of a
directory. Double dots lead up. A path with a root starts outside the working directory.

What the system says of a file is its number for an error and its own words, whatever they are.
Four errors follow from the tree itself. Any other one, such as that a file may not be opened, is a
refusal that the tree holds beside its entries.
-/

namespace ChipEight

/-- An error of the system: its number and its words. -/
structure SystemError where
  number : Nat
  reason : String
  deriving DecidableEq, Repr

/-- Why a file cannot be read or written: the system says so, or it is not even asked, because there
is a null character in the path. -/
inductive FileTrouble
  | system (error : SystemError)
  | embeddedNull
  deriving DecidableEq, Repr

namespace FileTrouble

/-- There is nothing in the place. -/
def notFound : FileTrouble := .system ⟨2, "No such file or directory"⟩

/-- A path goes on after a file. -/
def notDirectory : FileTrouble := .system ⟨20, "Not a directory"⟩

/-- What should be a file is a directory. -/
def isDirectory : FileTrouble := .system ⟨21, "Is a directory"⟩

/-- A path or a name in it has too many bytes. -/
def nameTooLong : FileTrouble := .system ⟨36, "File name too long"⟩

/-- The wording of the trouble with a path. -/
def message (path : Path) : FileTrouble → String
  | system error => s!"[Errno {error.number}] {error.reason}: {Text.quoted path.text}"
  | embeddedNull => "embedded null byte"

/-- The system's words alone; where it has none, the whole wording. -/
def reason (path : Path) : FileTrouble → String
  | system error => if error.reason.isEmpty then message path (.system error) else error.reason
  | embeddedNull => message path embeddedNull

end FileTrouble

/-- What a place holds. -/
inductive FileEntry
  | directory
  | file (bytes : List UInt8)
  deriving DecidableEq, Repr

/-- A place inside the working directory or outside it, by the names that lead there. -/
inductive Place
  | inside (names : List String)
  | outside (names : List String)
  deriving DecidableEq, Repr

/-- What a place is used for: a path goes on from it, or it is opened for reading or for writing. -/
inductive PlaceUse
  | enter
  | read
  | write
  deriving DecidableEq, Repr

/-- What places hold, and which uses of places the system refuses, the last change first. -/
structure FileTree where
  entries : List (Place × FileEntry) := []
  refusals : List ((Place × PlaceUse) × SystemError) := []
  deriving Repr

/-- The most bytes of a name. -/
abbrev nameLimit : Nat := 255

/-- The most bytes of a path. -/
abbrev pathLimit : Nat := 4095

namespace FileTree

/-- What a place holds. The working directory is there, and so is the directory above it. -/
def entry? (t : FileTree) : Place → Option FileEntry
  | .inside [] | .outside [] => some .directory
  | place => t.entries.lookup place

/-- A use of a place is refused if the system refuses it. -/
def permit (t : FileTree) (place : Place) (use : PlaceUse) : Except FileTrouble Unit :=
  match t.refusals.lookup (place, use) with
  | some error => .error (.system error)
  | none => .ok ()

/-- The place that a name leads to from a directory. -/
def child : Place → String → Place
  | .inside names, ".." => if names.isEmpty then .outside [] else .inside names.dropLast
  | .inside names, name => .inside (names ++ [name])
  | .outside names, ".." => .outside names.dropLast
  | .outside names, name => .outside (names ++ [name])

/-- The place that names lead to. -/
def follow (t : FileTree) (place : Place) : List String → Except FileTrouble Place
  | [] => .ok place
  | name :: rest => do
    t.permit place .enter
    match t.entry? place with
    | none => .error .notFound
    | some (.file _) => .error .notDirectory
    | some .directory =>
      if nameLimit < name.utf8ByteSize then .error .nameTooLong
      else t.follow (child place name) rest

/-- Where the names of a path lead from. -/
def startOf (p : Path) : Place := if p.root = .relative then .inside [] else .outside []

/-- The place that a path leads to. -/
def locate (t : FileTree) (p : Path) : Except FileTrouble Place :=
  if p.text.toList.contains '\x00' then .error .embeddedNull
  else if pathLimit < p.text.utf8ByteSize then .error .nameTooLong
  else t.follow (startOf p) p.names

/-- The bytes of a file. -/
def read (t : FileTree) (p : Path) : Except FileTrouble (List UInt8) := do
  let place ← t.locate p
  t.permit place .read
  match t.entry? place with
  | none => .error .notFound
  | some .directory => .error .isDirectory
  | some (.file bytes) => .ok bytes

/-- Puts an entry in a place. -/
def put (t : FileTree) (place : Place) (entry : FileEntry) : FileTree :=
  { t with entries := (place, entry) :: t.entries }

/-- Writes a file. -/
def write (t : FileTree) (p : Path) (bytes : List UInt8) : Except FileTrouble FileTree := do
  let place ← t.locate p
  t.permit place .write
  match t.entry? place with
  | some .directory => .error .isDirectory
  | _ => .ok (t.put place (.file bytes))

/-- Makes the directories that names lead to where there is nothing yet; the place is where the
last name leads. -/
def reach (t : FileTree) (place : Place) : List String → FileTree × Place
  | [] => (t, place)
  | name :: rest =>
    let next := child place name
    let t := if (t.entry? next).isNone then t.put next .directory else t
    t.reach next rest

/-- Makes a directory and those above it. -/
def makeDirectory (t : FileTree) (p : Path) : FileTree := (t.reach (startOf p) p.names).1

/-- Adds a file and the directories above it. -/
def addFile (t : FileTree) (p : Path) (bytes : List UInt8) : FileTree :=
  let (t, place) := t.reach (startOf p) p.names.dropLast
  t.put (child place p.name) (.file bytes)

/-- Has the system refuse a use of the place of a file, and adds the directories above it. -/
def refuse (t : FileTree) (p : Path) (use : PlaceUse) (error : SystemError) : FileTree :=
  let (t, place) := t.reach (startOf p) p.names.dropLast
  { t with refusals := ((child place p.name, use), error) :: t.refusals }

/-- The files below the working directory that are in this tree and not in another, by their
paths. -/
def createdSince (t earlier : FileTree) : List (String × List UInt8) :=
  (t.entries.map Prod.fst).eraseDups.filterMap fun place =>
    match place, earlier.entry? place, t.entry? place with
    | .inside names, none, some (.file bytes) => some ("/".intercalate names, bytes)
    | _, _, _ => none

end FileTree

end ChipEight
