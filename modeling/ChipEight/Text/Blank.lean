/-!
# Blank characters

The characters that count as space around a word. They are the white space characters of the
character database together with the four information separators U+001C to U+001F.

Trimming removes blanks at both ends and nothing else.
-/

namespace ChipEight.Text

/-- The character is a blank. -/
def isBlank (c : Char) : Bool :=
  let n := c.toNat
  (0x9 ≤ n && n ≤ 0xd) || (0x1c ≤ n && n ≤ 0x20) || n == 0x85 || n == 0xa0 || n == 0x1680
    || (0x2000 ≤ n && n ≤ 0x200a) || n == 0x2028 || n == 0x2029 || n == 0x202f || n == 0x205f
    || n == 0x3000

/-- The characters without the blanks at the end. -/
def dropTrailing (blank : Char → Bool) (cs : List Char) : List Char :=
  (cs.reverse.dropWhile blank).reverse

/-- The characters without those at either end that satisfy the test. -/
def trimChars (blank : Char → Bool) (cs : List Char) : List Char :=
  dropTrailing blank (cs.dropWhile blank)

/-- The text without the blanks at both ends. -/
def trim (text : String) : String :=
  String.ofList (trimChars isBlank text.toList)

end ChipEight.Text
