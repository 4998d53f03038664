import ChipEight.Keypad

/-!
# Keys of the host

Sixteen keys of the host's keyboard stand for the keys of the keypad, as a block of four rows. The
two layouts use the same host keys and give them different digits. A host key is known by the
number of its character.
-/

namespace ChipEight

/-- Which key of the keypad a host key stands for. -/
abbrev KeyMap := List (Char × Key)

namespace KeyMap

/-- The layout of the first machines: the digits A to F around the block. -/
def vip : KeyMap := [
  ('1', 0x1), ('2', 0x2), ('3', 0x3), ('4', 0xC),
  ('q', 0x4), ('w', 0x5), ('e', 0x6), ('r', 0xD),
  ('a', 0x7), ('s', 0x8), ('d', 0x9), ('f', 0xE),
  ('z', 0xA), ('x', 0x0), ('c', 0xB), ('v', 0xF)]

/-- The layout with A to D on the row of digits and 0 on the last key. -/
def classic : KeyMap := [
  ('v', 0x0), ('q', 0x1), ('w', 0x2), ('e', 0x3),
  ('a', 0x4), ('s', 0x5), ('d', 0x6), ('z', 0x7),
  ('x', 0x8), ('c', 0x9), ('1', 0xA), ('2', 0xB),
  ('3', 0xC), ('4', 0xD), ('r', 0xE), ('f', 0xF)]

/-- The layouts by their names, in the order of the alphabet. -/
def choices : List (String × KeyMap) := [("classic", classic), ("vip", vip)]

/-- The key that a host key stands for. -/
def key? (map : KeyMap) (code : Int) : Option Key :=
  (map.find? fun (c, _) => (c.toNat : Int) = code).map Prod.snd

end KeyMap

/-- The host key that starts and ends a pause. -/
abbrev escapeCode : Int := 27

/-- The host key that ends a pause. -/
abbrev spaceCode : Int := 32

/-- The host key for one step during a pause. -/
abbrev stepCode : Int := 110

/-- The host key that closes the window during a pause. -/
abbrev quitCode : Int := 113

end ChipEight
