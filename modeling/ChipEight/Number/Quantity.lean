import ChipEight.Number.Binary64

/-!
# Quantities

A rate, a frequency or a length of time is a whole number or a double, and which of the two it is
decides how it is calculated with: whole numbers stay exact and have no bounds, and meet a double
by being rounded to the nearest one first. Each calculation says which case it cannot do, and no
other one fails.
-/

namespace ChipEight.Number

/-- Why a calculation has no result. -/
inductive Trouble
  | wholeDivisorZero
  | wholeFloorDivisorZero
  | realDivisorZero
  | realFloorDivisorZero
  | wholeTooLarge
  | quotientTooLarge
  | infiniteToWhole
  | undefinedToWhole
  | tooManyToCount
  | tooManyToHold
  deriving DecidableEq, Repr

/-- The wording of the trouble. -/
def Trouble.message : Trouble → String
  | .wholeDivisorZero => "division by zero"
  | .wholeFloorDivisorZero => "integer division or modulo by zero"
  | .realDivisorZero => "float division by zero"
  | .realFloorDivisorZero => "float floor division by zero"
  | .wholeTooLarge => "int too large to convert to float"
  | .quotientTooLarge => "integer division result too large for a float"
  | .infiniteToWhole => "cannot convert float infinity to integer"
  | .undefinedToWhole => "cannot convert float NaN to integer"
  | .tooManyToCount => "cannot fit 'int' into an index-sized integer"
  | .tooManyToHold => ""

/-- A whole number or a double. -/
inductive Quantity
  | whole (n : Int)
  | real (x : Float)

instance : Coe Int Quantity := ⟨.whole⟩

/-- The quantity as a double. -/
def Quantity.toFloat : Quantity → Except Trouble Float
  | .whole n => match ofInt? n with
    | some x => .ok x
    | none => .error .wholeTooLarge
  | .real x => .ok x

/-- The quantity is zero or below it. -/
def Quantity.isNonPositive : Quantity → Bool
  | .whole n => n ≤ 0
  | .real x => x ≤ 0

/-- The whole number between zero and the double that lies next to it. -/
def truncate (x : Float) : Except Trouble Int :=
  match read x with
  | .undefined => .error .undefinedToWhole
  | .infinite _ => .error .infiniteToWhole
  | .finite negative units e =>
    let n : Int := scaleDown units e
    .ok (if negative then -n else n)

/-- The product of two quantities. -/
def Quantity.mul : Quantity → Quantity → Except Trouble Quantity
  | .whole a, .whole b => .ok (.whole (a * b))
  | a, b => do
    let x ← a.toFloat
    let y ← b.toFloat
    .ok (.real (x * y))

/-- The quotient of two quantities, as a double. -/
def Quantity.div : Quantity → Quantity → Except Trouble Float
  | .whole a, .whole b =>
    if b == 0 then .error .wholeDivisorZero
    else match ofQuotient? (if b < 0 then -a else a) b.natAbs with
      | some x => .ok x
      | none => .error .quotientTooLarge
  | a, b => do
    let x ← a.toFloat
    let y ← b.toFloat
    if y == 0 then .error .realDivisorZero else .ok (x / y)

/-- The greatest whole number not above the quotient of two quantities. -/
def Quantity.floorDiv : Quantity → Quantity → Except Trouble Quantity
  | .whole a, .whole b =>
    if b == 0 then .error .wholeFloorDivisorZero else .ok (.whole (a.fdiv b))
  | a, b => do
    let x ← a.toFloat
    let y ← b.toFloat
    if y == 0 then .error .realFloorDivisorZero else .ok (.real (floorQuotient x y))

/-- The whole number between zero and the quantity that lies next to it. -/
def Quantity.toInt : Quantity → Except Trouble Int
  | .whole n => .ok n
  | .real x => truncate x

end ChipEight.Number
