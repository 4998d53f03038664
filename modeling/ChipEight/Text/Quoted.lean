import ChipEight.Text.Padded
import ChipEight.Text.Printable

/-!
# Quoted text

Text quoted in a message stands between single quotes, or between double quotes if it holds a
single quote and no double quote. Inside, a backslash and the quote in use are escaped by a
backslash, tab, line feed and carriage return have their letters, and any other character that
is not printable is written by its number in two, four or eight hexadecimal digits. So a quoted
text is one line of printable characters from which the text can be read back.
-/

namespace ChipEight.Text

/-- The quote that a text is put between. -/
def quoteFor (cs : List Char) : Char :=
  if cs.contains '\'' && !cs.contains '"' then '"' else '\''

/-- The number in small hexadecimal digits, in a fixed number of places. -/
def hexPlaces : Nat → Nat → List Char
  | 0, _ => []
  | places + 1, n => hexPlaces places (n / 16) ++ [(hexDigit (n % 16)).toLower]

/-- One character as it stands between the given quotes. -/
def escapeChar (quote c : Char) : List Char :=
  if c == '\\' || c == quote then ['\\', c]
  else if c == '\t' then ['\\', 't']
  else if c == '\n' then ['\\', 'n']
  else if c == '\r' then ['\\', 'r']
  else if isPrintable c then [c]
  else if c.toNat < 0x100 then '\\' :: 'x' :: hexPlaces 2 c.toNat
  else if c.toNat < 0x10000 then '\\' :: 'u' :: hexPlaces 4 c.toNat
  else '\\' :: 'U' :: hexPlaces 8 c.toNat

/-- The characters between their quotes. -/
def quoteChars (cs : List Char) : List Char :=
  quoteFor cs :: cs.flatMap (escapeChar (quoteFor cs)) ++ [quoteFor cs]

/-- The text between its quotes. -/
def quoted (text : String) : String := String.ofList (quoteChars text.toList)

end ChipEight.Text
