/-!
# Binary floating point

A finite double is a whole number of units of some power of two, and every question about it is
settled in whole numbers: which double lies nearest to a quotient, which whole number a double
truncates to, what remains of one double after taking another away as often as it fits. Rounding
is to nearest, and a quotient halfway between two doubles goes to the one whose last bit is zero.
-/

namespace ChipEight.Number

/-- A power of two. -/
abbrev twoTo (k : Nat) : Nat := Nat.pow 2 k

/-- A power of ten. -/
abbrev tenTo (k : Nat) : Nat := Nat.pow 10 k

/-- Positive infinity. -/
def infinity : Float := Float.ofBits 0x7ff0000000000000

/-- The double that is no number. -/
def undefined : Float := Float.ofBits 0x7ff8000000000000

/-- What a double stands for: no number, an infinity, or a signed number of units `2 ^ exponent`. -/
inductive Reading
  | undefined
  | infinite (negative : Bool)
  | finite (negative : Bool) (units : Nat) (exponent : Int)

/-- What a bit pattern stands for. -/
def readBits (bits : Nat) : Reading :=
  let negative : Bool := bits / twoTo 63 % 2 == 1
  let biased : Nat := bits / twoTo 52 % twoTo 11
  let fraction : Nat := bits % twoTo 52
  if biased == 2047 then
    if fraction == 0 then .infinite negative else .undefined
  else if biased == 0 then .finite negative fraction (-1074)
  else .finite negative (fraction + twoTo 52) ((biased : Int) - 1075)

/-- What a double stands for. -/
def read (x : Float) : Reading := readBits x.toBits.toNat

/-- The quotient rounded to a whole number, a half going to the even neighbour. -/
def roundQuotient (n d : Nat) : Nat :=
  let q := n / d
  let r := n % d
  if d < 2 * r || (d == 2 * r && q % 2 == 1) then q + 1 else q

/-- The whole logarithm to base two of a quotient of positive numbers. -/
def quotientLog (n d : Nat) : Int :=
  let e : Int := (n.log2 : Int) - d.log2
  let fits := if 0 ≤ e then d * twoTo e.toNat ≤ n else d ≤ n * twoTo (-e).toNat
  if fits then e else e - 1

/-- The bit pattern, without its sign, of the double nearest to a quotient of positive numbers.
Patterns from `0x7ff0000000000000` on say that the quotient is out of range. -/
def quotientBits (n d : Nat) : Nat :=
  let e := max (quotientLog n d - 52) (-1074)
  let q := if 0 ≤ e then roundQuotient n (d * twoTo e.toNat)
    else roundQuotient (n * twoTo (-e).toNat) d
  (e + 1074).toNat * twoTo 52 + q

/-- The double with a sign and the bit pattern of a magnitude. -/
def ofMagnitude (negative : Bool) (bits : Nat) : Float :=
  Float.ofBits (UInt64.ofNat (bits + if negative then twoTo 63 else 0))

/-- The double nearest to a quotient, unless it is out of range. -/
def ofQuotient? (n : Int) (d : Nat) : Option Float :=
  if n == 0 then some 0.0
  else
    let bits := quotientBits n.natAbs d
    if bits < 0x7ff0000000000000 then some (ofMagnitude (n < 0) bits) else none

/-- The double nearest to a whole number, unless it is out of range. -/
def ofInt? (n : Int) : Option Float := ofQuotient? n 1

/-- The double nearest to `digits * 10 ^ exponent`, infinity if it is out of range. -/
def ofDecimal (digits : Nat) (exponent : Int) : Float :=
  let bits := digits.log2
  if digits == 0 || (bits / 3 : Nat) + exponent < -400 then 0.0
  else if 400 < (bits / 4 : Nat) + exponent then infinity
  else
    let x := if 0 ≤ exponent then ofQuotient? (digits * tenTo exponent.toNat) 1
      else ofQuotient? digits (tenTo (-exponent).toNat)
    x.getD infinity

/-- The whole number of units, scaled down to a whole number toward zero. -/
def scaleDown (units : Nat) (exponent : Int) : Nat :=
  if 0 ≤ exponent then units * twoTo exponent.toNat else units / twoTo (-exponent).toNat

/-- What is left of a finite double after taking another one away as often as it fits; it has the
sign of the first. -/
def remainder (x y : Float) : Float :=
  match read x, read y with
  | .finite negative m e, .finite _ n f =>
    let g := min e f
    let r := (m * twoTo (e - g).toNat) % (n * twoTo (f - g).toNat)
    if n == 0 then undefined
    else if r == 0 then ofMagnitude negative 0
    else
      let bits := if 0 ≤ g then quotientBits (r * twoTo g.toNat) 1
        else quotientBits r (twoTo (-g).toNat)
      ofMagnitude negative bits
  | .finite .., .infinite _ => x
  | _, _ => undefined

/-- The greatest whole number that does not pass the double; one that is not finite stays. -/
def wholeBelow (x : Float) : Float :=
  match read x with
  | .finite negative units e =>
    if 0 ≤ e then x
    else
      let d := twoTo (-e).toNat
      let n := if negative then (units + d - 1) / d else units / d
      ofMagnitude negative (if n == 0 then 0 else quotientBits n 1)
  | _ => x

/-- The greatest whole number whose multiple of the divisor does not pass the dividend, computed
from the remainder so that rounding the quotient cannot carry it to the next whole number. -/
def floorQuotient (x y : Float) : Float :=
  let r := remainder x y
  let quotient := (x - r) / y
  if r != 0 then
    let quotient := if (y < 0) != (r < 0) then quotient - 1 else quotient
    roundDown quotient (x / y)
  else roundDown quotient (x / y)
where
  /-- The whole number a nearly whole quotient stands for. -/
  roundDown (quotient exact : Float) : Float :=
    if quotient != 0 then
      let down := wholeBelow quotient
      if quotient - down > 0.5 then down + 1 else down
    else if exact < 0 then -0.0 else 0.0

end ChipEight.Number
