import ChipEight.Text.Split

/-!
# Paths

A path is a root and the names below it. Empty names and single dots are dropped when a path is
read, so one path has one text; double dots stay, because where they lead depends on the files.
Exactly two slashes in front are a root of their own, any other number is the same root as one.
-/

namespace ChipEight

/-- Where a path starts. -/
inductive PathRoot
  | relative
  | single
  | double
  deriving DecidableEq, Repr

/-- A root and the names below it. -/
structure Path where
  root : PathRoot
  names : List String
  deriving DecidableEq, Repr

namespace Path

/-- The root that leading slashes stand for. -/
def rootOf (text : List Char) : PathRoot :=
  match (text.takeWhile (· == '/')).length with
  | 0 => .relative
  | 2 => .double
  | _ => .single

/-- Reads a path. -/
def ofText (text : String) : Path where
  root := rootOf text.toList
  names := (Text.splitAt '/' text).filter fun name => name ≠ "" ∧ name ≠ "."

/-- The text of a root. -/
def rootText : PathRoot → String
  | .relative => ""
  | .single => "/"
  | .double => "//"

/-- The text of a path; without names and root it is a dot. -/
def text (p : Path) : String :=
  let text := rootText p.root ++ "/".intercalate p.names
  if text.isEmpty then "." else text

/-- The last name, if there is one. -/
def name (p : Path) : String := p.names.getLastD ""

/-- The characters of a name before its last dot, unless the dot comes first or last. -/
def stemChars (name : List Char) : List Char :=
  let suffix := name.reverse.takeWhile (· != '.')
  let stem := (name.reverse.drop (suffix.length + 1)).reverse
  if stem.isEmpty || suffix.isEmpty then name else stem

/-- The last name without its suffix. -/
def stem (p : Path) : String := String.ofList (stemChars p.name.toList)

end Path

end ChipEight
