import ChipEight.Number.Binary64
import ChipEight.Text.Blank
import ChipEight.Text.DecimalDigit

/-!
# Numerals

How a number is read from text that a user typed. Blanks around the numeral are skipped, a sign
may stand in front, digits may be grouped by single underscores between them, and a decimal digit
of any script counts as its value. A hexadecimal numeral may begin with `0x`, and then with one
underscore. A real numeral is a decimal fraction with an optional exponent, or one of the words
for infinity and for no number.

Everything is read after `plain` has turned digits and blanks of other scripts into the ones of
ASCII, so the grammars below speak of ASCII only.
-/

namespace ChipEight.Text

/-- A space or one of the five control characters that move to another place in the text. -/
def isSpacing (c : Char) : Bool := c == ' ' || (0x9 ≤ c.toNat && c.toNat ≤ 0xd)

/-- The character with digits and blanks outside ASCII replaced by their ASCII equals. -/
def plain (c : Char) : Char :=
  if c.toNat < 127 then c
  else if isBlank c then ' '
  else match decimalDigit? c with
    | some d => Char.ofNat (48 + d)
    | none => c

/-- What an ASCII digit or letter is worth as a digit. -/
def digitValue? (c : Char) : Option Nat :=
  let n := c.toNat
  if 48 ≤ n && n ≤ 57 then some (n - 48)
  else if 97 ≤ n && n ≤ 122 then some (n - 87)
  else if 65 ≤ n && n ≤ 90 then some (n - 55)
  else none

/-- Reads digits of the base onto what has been read; `need` says that a digit must come next. -/
def readDigits? (base : Nat) (value : Nat) (need : Bool) : List Char → Option Nat
  | [] => if need then none else some value
  | c :: rest =>
    if c == '_' then
      if need then none else readDigits? base value true rest
    else match digitValue? c with
      | some d => if d < base then readDigits? base (value * base + d) false rest else none
      | none => none

/-- Splits a sign off; `true` says that the number is negative. -/
def splitSign : List Char → Bool × List Char
  | '-' :: rest => (true, rest)
  | '+' :: rest => (false, rest)
  | cs => (false, cs)

/-- The number with the sign. -/
def signed (negative : Bool) (n : Nat) : Int := if negative then -(n : Int) else n

/-- The numeral between the blanks, in ASCII as far as it can be. -/
def numeralChars (text : String) : List Char :=
  trimChars isSpacing (text.toList.map plain)

/-- Takes the mark of a hexadecimal numeral off, and the one underscore that may follow it. -/
def dropHexMark : List Char → List Char
  | '0' :: x :: rest =>
    if x == 'x' || x == 'X' then
      match rest with
      | '_' :: rest => rest
      | rest => rest
    else '0' :: x :: rest
  | cs => cs

/-- Reads a hexadecimal numeral. -/
def hexNumeral? (text : String) : Option Int :=
  let (negative, digits) := splitSign (numeralChars text)
  (readDigits? 16 0 true (dropHexMark digits)).map (signed negative)

/-- The most digits that a decimal numeral may have. -/
def decimalDigitLimit : Nat := 4300

/-- Reads a decimal numeral. -/
def decimalNumeral? (text : String) : Option Int :=
  let (negative, digits) := splitSign (numeralChars text)
  if decimalDigitLimit < digits.countP (· != '_') then none
  else (readDigits? 10 0 true digits).map (signed negative)

/-- Takes underscores out, each of which must stand between two digits. -/
def dropGrouping? (last : Char) : List Char → Option (List Char)
  | [] => if last == '_' then none else some []
  | c :: rest =>
    if c == '_' then
      if last.isDigit then dropGrouping? c rest else none
    else if last == '_' && !c.isDigit then none
    else (dropGrouping? c rest).map (c :: ·)

/-- The digits at the front and what follows them. -/
def spanDigits (cs : List Char) : List Char × List Char := cs.span Char.isDigit

/-- The number that decimal digits denote. -/
def digitsValue (cs : List Char) : Nat := cs.foldl (fun n c => n * 10 + (c.toNat - 48)) 0

/-- Reads an exponent, which may be missing, to the end of the text. -/
def exponent? : List Char → Option Int
  | [] => some 0
  | c :: rest =>
    if c == 'e' || c == 'E' then
      let (negative, digits) := splitSign rest
      if digits.isEmpty || !digits.all Char.isDigit then none
      else some (signed negative (digitsValue digits))
    else none

/-- Reads an unsigned decimal fraction with an optional exponent. -/
def fraction? (cs : List Char) : Option Float :=
  let (whole, rest) := spanDigits cs
  let (part, rest) := match rest with
    | '.' :: rest => spanDigits rest
    | rest => ([], rest)
  if whole.isEmpty && part.isEmpty then none
  else (exponent? rest).map fun e =>
    Number.ofDecimal (digitsValue (whole ++ part)) (e - part.length)

/-- Reads an unsigned real numeral. -/
def magnitude? (cs : List Char) : Option Float :=
  let word := String.ofList (cs.map Char.toLower)
  if word == "inf" || word == "infinity" then some Number.infinity
  else if word == "nan" then some Number.undefined
  else fraction? cs

/-- Reads a real numeral. -/
def realNumeral? (text : String) : Option Float :=
  (dropGrouping? ' ' (numeralChars text)).bind fun cs =>
    let (negative, rest) := splitSign cs
    (magnitude? rest).map fun x => if negative then -x else x

end ChipEight.Text
