/-!
# Numbers in columns

Numbers are written with a least width, filled up on the left. A filled number keeps its sign in
front of the filling, and the sign counts towards the width: -1 in four hexadecimal places is
`-001`. Hexadecimal digits above nine are the capital letters.
-/

namespace ChipEight.Text

/-- The text filled up on the left to the width. -/
def padLeft (width : Nat) (fill : Char) (text : String) : String :=
  String.ofList (List.replicate (width - text.length) fill) ++ text

/-- The capital hexadecimal digit of a number below sixteen. -/
def hexDigit (d : Nat) : Char :=
  if d < 10 then Char.ofNat (48 + d) else Char.ofNat (55 + d)

/-- The hexadecimal digits of a number, most significant first and at least one. -/
def hexDigits (n : Nat) : List Char :=
  if n < 16 then [hexDigit n] else hexDigits (n / 16) ++ [hexDigit (n % 16)]
termination_by n
decreasing_by omega

/-- A number in hexadecimal, filled up with zeros after its sign. -/
def hex (width : Nat) (n : Int) : String :=
  match n with
  | .ofNat n => padLeft width '0' (String.ofList (hexDigits n))
  | .negSucc n => "-" ++ padLeft (width - 1) '0' (String.ofList (hexDigits (n + 1)))

/-- A number in decimal, filled up with zeros. -/
def decimal (width : Nat) (n : Nat) : String := padLeft width '0' (toString n)

/-- A number in decimal, filled up with spaces. -/
def aligned (width : Nat) (n : Nat) : String := padLeft width ' ' (toString n)

end ChipEight.Text
