import ChipEight.Dump
import ChipEight.Keypad
import ChipEight.Text.Numeral
import ChipEight.Text.Quoted
import ChipEight.Text.Split

/-!
# Addresses, windows and keys as they are typed

An address is a hexadecimal numeral within memory, a window is two addresses with a colon between
them, and a list of keys is hexadecimal digits with commas between them. Blanks around each part
are skipped and empty parts of a list of keys are left out. Anything else is refused, with the
first thing wrong as the reason.
-/

namespace ChipEight

open Text

/-- Why a typed value is refused. -/
inductive ValueRefusal
  | notAddress (text : String)
  | addressOutside (value : Int)
  | notWindow
  | endBeforeStart
  | notHexNumeral (text : String)
  | notKey (text : String)
  deriving DecidableEq, Repr

/-- How much of a text that is no numeral is shown. -/
abbrev shownText : Nat := 200

/-- The wording of a refusal. -/
def ValueRefusal.message : ValueRefusal → String
  | .notAddress text => s!"{quoted text} is not a hexadecimal address"
  | .addressOutside value => s!"0x{hex 0 value} lies outside 0x000-0xFFF"
  | .notWindow => "expected START:END"
  | .endBeforeStart => "END precedes START"
  | .notHexNumeral text =>
    "invalid literal for int() with base 16: "
      ++ String.ofList ((quoted text).toList.take shownText)
  | .notKey text => s!"key {quoted text} is not a hex digit"

/-- Reads an address. -/
def readAddress (text : String) : Except ValueRefusal Int :=
  match hexNumeral? (trim text) with
  | none => .error (.notAddress text)
  | some value =>
    if 0 ≤ value ∧ value < memorySize then .ok value else .error (.addressOutside value)

/-- Reads a window. -/
def readWindow (text : String) : Except ValueRefusal MemoryWindow :=
  match splitAt ':' text with
  | [start, finish] => do
    let first ← readAddress start
    let last ← readAddress finish
    if last < first then .error .endBeforeStart else .ok ⟨first, last⟩
  | _ => .error .notWindow

/-- Reads one key. -/
def readKey (text : String) : Except ValueRefusal Key :=
  match hexNumeral? text with
  | none => .error (.notHexNumeral text)
  | some value => match Key.ofInt value with
    | .ok key => .ok key
    | .error _ => .error (.notKey text)

/-- Reads a list of keys. -/
def readKeys (text : String) : Except ValueRefusal (List Key) :=
  (((splitAt ',' text).map trim).filter (· ≠ "")).mapM readKey

end ChipEight
