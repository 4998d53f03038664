/-!
# Splitting text

A text is split at every occurrence of a separator, so a text with n separators has n + 1 parts
and joining the parts with the separator gives the text back.
-/

namespace ChipEight.Text

/-- The parts between the separators; there is always at least one. -/
def splitChars (separator : Char) : List Char → List (List Char)
  | [] => [[]]
  | c :: rest =>
    if c = separator then [] :: splitChars separator rest
    else match splitChars separator rest with
      | part :: parts => (c :: part) :: parts
      | [] => [[c]]

/-- The parts of a text between the separators. -/
def splitAt (separator : Char) (text : String) : List String :=
  (splitChars separator text.toList).map String.ofList

end ChipEight.Text
