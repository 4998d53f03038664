import ChipEight.Fault
import ChipEight.Number.Nibble

/-!
# The keypad

Sixteen keys, each up or down, and a queue of the presses that nobody has asked for yet. A press
counts when the key goes from up to down, so a key that is held down is queued once. The queue
keeps the newest sixteen presses.
-/

namespace ChipEight

/-- A key by its hexadecimal digit. -/
abbrev Key := Nibble

/-- The most presses that wait in the queue. -/
abbrev pressLimit : Nat := 16

/-- The key with a number. -/
def Key.ofInt (key : Int) : Except Misuse Key :=
  if h : 0 ≤ key ∧ key < 16 then .ok ⟨key.toNat, by omega⟩ else .error .keyOutOfRange

/-- Every key has its number. -/
theorem Key.ofInt_val (key : Key) : Key.ofInt (key.val : Nat) = .ok key := by
  have hrange : 0 ≤ ((key.val : Nat) : Int) ∧ ((key.val : Nat) : Int) < 16 := by omega
  exact dif_pos hrange

/-- Which keys are down and which presses wait, the oldest first. -/
structure Keypad where
  down : Vector Bool 16 := Vector.replicate 16 false
  presses : List Key := []
  deriving DecidableEq, Repr

namespace Keypad

/-- Puts a press behind the others and forgets the oldest beyond the limit. -/
def enqueue (presses : List Key) (key : Key) : List Key :=
  (presses ++ [key]).drop (presses.length + 1 - pressLimit)

/-- The key is down. -/
def isDown (k : Keypad) (key : Key) : Bool := k.down[key]

/-- A key goes down. -/
def press (k : Keypad) (key : Key) : Keypad :=
  { down := k.down.set key true
    presses := if k.isDown key then k.presses else enqueue k.presses key }

/-- A key goes up. -/
def release (k : Keypad) (key : Key) : Keypad :=
  { k with down := k.down.set key false }

/-- All keys by their numbers. -/
def keys : List Key := List.finRange 16

/-- Puts exactly the listed keys down, one after the other. -/
def setKeys (k : Keypad) (held : List Int) : Keypad :=
  keys.foldl (fun k key => if held.contains (key.val : Int) then k.press key else k.release key) k

/-- All keys are up and no press waits. -/
def clear (_ : Keypad) : Keypad := {}

/-- The keys that are down, by their numbers. -/
def pressedKeys (k : Keypad) : List Key := keys.filter k.isDown

/-- Forgets the presses that wait. -/
def discardPresses (k : Keypad) : Keypad := { k with presses := [] }

/-- Takes the oldest press that waits. -/
def nextPress (k : Keypad) : Option Key × Keypad :=
  match k.presses with
  | [] => (none, k)
  | key :: rest => (some key, { k with presses := rest })

/-- Waits for a press no longer than it takes to look: gives up if none waits, and takes the oldest
otherwise. -/
def takePress (k : Keypad) : Option Key × Keypad :=
  if k.presses.isEmpty then (none, k)
  else (k.presses.head?, { k with presses := k.presses.tail })

end Keypad

end ChipEight
