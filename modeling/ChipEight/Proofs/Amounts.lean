import ChipEight.Proofs.Lag
import ChipEight.Proofs.Success

/-!
# What a quantity amounts to

A quantity is a fraction, an infinity or no number at all. For a double this is settled by its bit
pattern, and the arithmetic of doubles is defined on the parts of that pattern, so everything here
rests on the two agreeing about the parts (`read_eq`). From there the test for a quantity being
positive and the cut to a whole number are those of fractions, with nothing rounded. Only products
and quotients are rounded, and even they are not where there is nothing to round: from a double
that is not finite a product is not finite, and a floored quotient is no number.
-/

namespace ChipEight.Number

open Float.Model Float.Model.UnpackedFloat

/-! ## The parts of a bit pattern -/

/-- What the parts of a double stand for. -/
def standsFor : UnpackedFloat → Reading
  | .notANumber => .undefined
  | .infinity sign => .infinite (sign == .negative)
  | .zero sign => .finite (sign == .negative) 0 (-1074)
  | .finite sign mantissa exponent _ => .finite (sign == .negative) mantissa exponent

section Fields

variable (b : BitVec (Format.numBits .binary64))

theorem unpackExponent_toNat : (unpackExponent b).toNat = b.toNat / twoTo 52 % twoTo 11 := by
  change (b.toNat >>> 52) % 2 ^ 11 = _
  rw [Nat.shiftRight_eq_div_pow]

theorem unpackMantissa_toNat : (unpackMantissa b).toNat = b.toNat % twoTo 52 := by
  change (b.toNat >>> 0) % 2 ^ 52 = _
  rw [Nat.shiftRight_zero]

theorem unpackSign_toNat : (unpackSign b).toNat = b.toNat / twoTo 63 % 2 := by
  change (b.toNat >>> 63) % 2 = _
  rw [Nat.shiftRight_eq_div_pow]

theorem sign_negative :
    (Sign.ofBitVec (unpackSign b) == .negative) = (b.toNat / twoTo 63 % 2 == 1) := by
  rw [← unpackSign_toNat]
  generalize unpackSign b = sign
  revert sign
  decide

theorem exponent_full :
    unpackExponent b = -1#_ ↔ b.toNat / twoTo 52 % twoTo 11 = 2047 := by
  rw [← unpackExponent_toNat, ← BitVec.toNat_inj]
  rfl

theorem exponent_blank : unpackExponent b = 0#_ ↔ b.toNat / twoTo 52 % twoTo 11 = 0 := by
  rw [← unpackExponent_toNat, ← BitVec.toNat_inj]
  rfl

theorem mantissa_blank : unpackMantissa b = 0#_ ↔ b.toNat % twoTo 52 = 0 := by
  rw [← unpackMantissa_toNat, ← BitVec.toNat_inj]
  rfl

/-- A mantissa with the bit that is not written. -/
theorem mantissa_implicit :
    (1#1 ++ unpackMantissa b).toNat = b.toNat % twoTo 52 + twoTo 52 := by
  have hlt : (unpackMantissa b).toNat < 2 ^ 52 := (unpackMantissa b).isLt
  have hone : (1#1).toNat = 1 := rfl
  rw [BitVec.toNat_append, ← unpackMantissa_toNat, hone]
  change 1 <<< 52 ||| _ = _
  rw [Nat.shiftLeft_eq, Nat.one_mul]
  have h := Nat.two_pow_add_eq_or_of_lt hlt 1
  rw [Nat.mul_one] at h
  rw [← h, Nat.add_comm]

/-- A bit pattern is read by its parts. -/
theorem readBits_eq : readBits b.toNat = standsFor (UnpackedFloat.unpack .binary64 b) := by
  unfold readBits
  simp only [beq_iff_eq, ← exponent_full, ← exponent_blank, ← mantissa_blank, ← sign_negative]
  unfold UnpackedFloat.unpack
  by_cases hfull : unpackExponent b = -1#_
  · rw [if_pos hfull, if_pos hfull]
    split <;> rfl
  · rw [if_neg hfull, if_neg hfull]
    by_cases hblank : unpackExponent b = 0#_
    · rw [if_pos hblank, if_pos hblank]
      by_cases hzero : unpackMantissa b = 0#_
      · rw [dif_pos hzero, (mantissa_blank b).mp hzero]
        rfl
      · have hexponent : (unpackExponent b).toNat = 0 := by
          rw [hblank]
          rfl
        rw [dif_neg hzero, ← unpackMantissa_toNat, hexponent]
        rfl
    · rw [if_neg hblank, if_neg hblank, ← mantissa_implicit, ← unpackExponent_toNat]
      rfl

end Fields

/-- **A double is read as its parts are unpacked.** -/
theorem read_eq (x : Float) : read x = standsFor x.toModel.unpack :=
  readBits_eq x.toModel.toBits.toBitVec

/-! ## Amounts -/

/-- A fraction, an infinity or no number. -/
inductive Amount
  | number (value : ℚ)
  | infinite (negative : Bool)
  | undefined
  deriving DecidableEq

/-- The fraction that a signed number of units makes up. -/
def signedUnits (negative : Bool) (units : ℕ) (exponent : ℤ) : ℚ :=
  if negative then -(units * 2 ^ exponent) else units * 2 ^ exponent

/-- What a reading amounts to. -/
def Reading.amount : Reading → Amount
  | .undefined => .undefined
  | .infinite negative => .infinite negative
  | .finite negative units exponent => .number (signedUnits negative units exponent)

/-- What a quantity amounts to. -/
def Quantity.amount : Quantity → Amount
  | .whole n => .number n
  | .real x => (read x).amount

namespace Amount

/-- The amount is zero or below it. -/
def isNonPositive : Amount → Bool
  | number value => value ≤ 0
  | infinite negative => negative
  | undefined => false

/-- The amount is a fraction. -/
def isFinite : Amount → Bool
  | number _ => true
  | _ => false

/-- A whole number of times the amount. -/
def times (n : ℤ) : Amount → Amount
  | number value => number (n * value)
  | infinite negative => if n = 0 then undefined else infinite (negative ^^ decide (n < 0))
  | undefined => undefined

/-- The greatest whole number whose multiple of the divisor does not pass the amount. -/
def floorBy (divisor : ℤ) (a : Amount) : Except Trouble Amount :=
  if divisor = 0 then .error .realFloorDivisorZero
  else match a with
    | number value => .ok (number ⌊value / divisor⌋)
    | _ => .ok undefined

/-- The whole number between zero and the amount that lies next to it. -/
def toInt : Amount → Except Trouble ℤ
  | number value => .ok (wholePart value)
  | infinite _ => .error .infiniteToWhole
  | undefined => .error .undefinedToWhole

variable {a : Amount}

/-- What is let through by refusing what is zero or below it. -/
theorem kinds_of_positive (h : a.isNonPositive = false) :
    (∃ value, 0 < value ∧ a = number value) ∨ a = infinite false ∨ a = undefined := by
  cases a with
  | number value => exact Or.inl ⟨value, not_le.mp (of_decide_eq_false h), rfl⟩
  | infinite negative => exact Or.inr (Or.inl (congrArg infinite h))
  | undefined => exact Or.inr (Or.inr rfl)

theorem times_notFinite (h : a.isFinite = false) (n : ℤ) : (a.times n).isFinite = false := by
  cases a with
  | number value => exact absurd h.symm Bool.false_ne_true
  | undefined => rfl
  | infinite negative =>
      rw [times]
      split <;> rfl

theorem floorBy_number {divisor : ℤ} (hdivisor : divisor ≠ 0) (value : ℚ) :
    (number value).floorBy divisor = .ok (number ⌊value / divisor⌋) :=
  if_neg hdivisor

theorem floorBy_notFinite {divisor : ℤ} (hdivisor : divisor ≠ 0) (h : a.isFinite = false) :
    a.floorBy divisor = .ok undefined := by
  unfold floorBy
  rw [if_neg hdivisor]
  cases a with
  | number value => exact absurd h.symm Bool.false_ne_true
  | infinite negative => rfl
  | undefined => rfl

end Amount

/-! ### Nothing is rounded in a test or a cut -/

theorem signedUnits_pos {units : ℕ} (h : 0 < units) (exponent : ℤ) :
    0 < signedUnits false units exponent :=
  mul_pos (Nat.cast_pos.mpr h) (zpow_pos two_pos exponent)

theorem signedUnits_zero (negative : Bool) (exponent : ℤ) :
    signedUnits negative 0 exponent = 0 := by
  simp [signedUnits]

theorem signedUnits_negative (units : ℕ) (exponent : ℤ) :
    signedUnits true units exponent = -signedUnits false units exponent := rfl

/-- **The test whether a quantity is positive is exact.** -/
theorem Quantity.isNonPositive_eq (q : Quantity) : q.isNonPositive = q.amount.isNonPositive := by
  cases q with
  | whole n => simp [Quantity.isNonPositive, Quantity.amount, Amount.isNonPositive]
  | real x =>
      have hle : (Quantity.real x).isNonPositive = x.toModel.unpack.le (.zero .positive) := by
        rw [← unpack_zero, Bool.eq_iff_iff]
        exact ⟨fun h => of_decide_eq_true (of_decide_eq_true h),
          fun h => decide_eq_true (decide_eq_true h)⟩
      rw [hle, Quantity.amount, read_eq]
      cases x.toModel.unpack with
      | notANumber => rfl
      | infinity sign => cases sign <;> rfl
      | zero sign =>
          have hzero := signedUnits_zero (sign == .negative) (-1074)
          exact (decide_eq_true hzero.le).symm
      | finite sign mantissa exponent hmantissa =>
          have hpos := signedUnits_pos hmantissa exponent
          cases sign with
          | positive => exact (decide_eq_false (not_le.mpr hpos)).symm
          | negative => exact (decide_eq_true (neg_nonpos.mpr hpos.le)).symm

/-- What is cut off a number of units is less than one. -/
theorem wholePart_units (units : ℕ) (exponent : ℤ) :
    wholePart (signedUnits false units exponent) = scaleDown units exponent := by
  have hunits : signedUnits false units exponent = units * 2 ^ exponent := rfl
  have hnonneg : 0 ≤ signedUnits false units exponent :=
    mul_nonneg (Nat.cast_nonneg units) (zpow_nonneg zero_le_two exponent)
  rw [wholePart_eq_floor hnonneg, hunits]
  unfold scaleDown
  split
  · next hexponent =>
    obtain ⟨k, rfl⟩ := Int.eq_ofNat_of_zero_le hexponent
    have hwhole : (units : ℚ) * 2 ^ (k : ℤ) = ((units * 2 ^ k : ℕ) : ℤ) := by
      push_cast
      rw [zpow_natCast]
    rw [hwhole, Int.floor_intCast]
    rfl
  · next hexponent =>
    obtain ⟨k, hk⟩ := Int.eq_ofNat_of_zero_le (Int.neg_nonneg.mpr (not_le.mp hexponent).le)
    have hquotient : (units : ℚ) * 2 ^ exponent = (units : ℚ) / (2 ^ k : ℕ) := by
      have hexp : exponent = -(k : ℤ) := by omega
      rw [hexp, zpow_neg, zpow_natCast]
      push_cast
      rfl
    rw [hquotient, hk]
    exact Rat.floor_natCast_div_natCast _ _

/-- **The cut to a whole number is exact.** -/
theorem Quantity.toInt_eq (q : Quantity) : q.toInt = q.amount.toInt := by
  cases q with
  | whole n => simp [Quantity.toInt, Quantity.amount, Amount.toInt, wholePart]
  | real x =>
      have hcut : (Quantity.real x).toInt = truncate x := rfl
      rw [hcut, truncate, Quantity.amount]
      cases Number.read x with
      | undefined => rfl
      | infinite negative => rfl
      | finite negative units exponent =>
          have hunits := wholePart_units units exponent
          cases negative with
          | false => exact congrArg Except.ok hunits.symm
          | true =>
              refine congrArg Except.ok ?_
              rw [signedUnits_negative, wholePart_neg, hunits]
              rfl

/-! ### Nothing becomes finite again -/

theorem unpack_pack_undefined {u : UnpackedFloat} (h : u = .notANumber) :
    (pack u).unpack = .notANumber := by
  rw [h]
  rfl

theorem unpack_pack_infinity {u : UnpackedFloat} {sign : Sign} (h : u = .infinity sign) :
    (pack u).unpack = .infinity sign := by
  rw [h]
  cases sign <;> rfl

section Undefined

variable {x y : Float}

theorem undefined_sub (h : x.toModel.unpack = .notANumber) (y : Float) :
    (x - y).toModel.unpack = .notANumber := by
  have hsub : UnpackedFloat.sub .binary64 x.toModel.unpack y.toModel.unpack = .notANumber := by
    rw [h]
    rfl
  exact unpack_pack_undefined hsub

theorem sub_undefined (x : Float) (h : y.toModel.unpack = .notANumber) :
    (x - y).toModel.unpack = .notANumber := by
  have hsub : UnpackedFloat.sub .binary64 x.toModel.unpack y.toModel.unpack = .notANumber := by
    rw [h]
    cases x.toModel.unpack <;> rfl
  exact unpack_pack_undefined hsub

theorem undefined_add (h : x.toModel.unpack = .notANumber) (y : Float) :
    (x + y).toModel.unpack = .notANumber := by
  have hadd : UnpackedFloat.add .binary64 x.toModel.unpack y.toModel.unpack = .notANumber := by
    rw [h]
    rfl
  exact unpack_pack_undefined hadd

theorem undefined_div (h : x.toModel.unpack = .notANumber) (y : Float) :
    (x / y).toModel.unpack = .notANumber := by
  have hdiv : UnpackedFloat.div .binary64 x.toModel.unpack y.toModel.unpack = .notANumber := by
    rw [h]
    rfl
  exact unpack_pack_undefined hdiv

theorem wholeBelow_undefined (h : x.toModel.unpack = .notANumber) : wholeBelow x = x := by
  unfold wholeBelow
  rw [read_eq, h]
  rfl

/-- Taking a whole number out of what is no number leaves no number. -/
theorem roundDown_undefined (h : x.toModel.unpack = .notANumber) (exact : Float) :
    (floorQuotient.roundDown x exact).toModel.unpack = .notANumber := by
  have hne : (x != 0) = true := by
    rw [bne, beq_zero_eq, h]
    rfl
  unfold floorQuotient.roundDown
  rw [if_pos hne, wholeBelow_undefined h]
  dsimp only
  split
  · exact undefined_add h 1
  · exact h

/-- What is not finite leaves no number when anything is taken away as often as it fits. -/
theorem remainder_undefined (h : (read x).amount.isFinite = false) (y : Float) :
    remainder x y = undefined := by
  unfold remainder
  cases hx : read x with
  | undefined => rfl
  | infinite negative => rfl
  | finite negative units exponent =>
      rw [hx] at h
      exact absurd h.symm Bool.false_ne_true

/-- **A floored quotient is no number unless the dividend is finite.** -/
theorem floorQuotient_undefined (h : (read x).amount.isFinite = false) (y : Float) :
    (floorQuotient x y).toModel.unpack = .notANumber := by
  have hundefined : undefined.toModel.unpack = .notANumber := by rfl
  have hquotient := undefined_div (sub_undefined x hundefined) y
  have hless := undefined_sub hquotient 1
  unfold floorQuotient
  rw [remainder_undefined h y]
  dsimp only
  split
  · split
    · exact roundDown_undefined hless _
    · exact roundDown_undefined hquotient _
  · exact roundDown_undefined hquotient _

/-- What is not finite is no number or infinite when it is multiplied. -/
theorem mul_special (u : UnpackedFloat) {v : UnpackedFloat}
    (h : (standsFor v).amount.isFinite = false) :
    UnpackedFloat.mul .binary64 u v = .notANumber ∨
      ∃ sign, UnpackedFloat.mul .binary64 u v = .infinity sign := by
  cases v with
  | zero sign => exact absurd h.symm Bool.false_ne_true
  | finite sign mantissa exponent hmantissa => exact absurd h.symm Bool.false_ne_true
  | notANumber => exact Or.inl (by cases u <;> rfl)
  | infinity sign =>
      cases u with
      | notANumber => exact Or.inl rfl
      | zero sign' => exact Or.inl rfl
      | infinity sign' => exact Or.inr ⟨_, rfl⟩
      | finite sign' mantissa exponent hmantissa => exact Or.inr ⟨_, rfl⟩

/-- **A product is not finite if its second factor is not.** -/
theorem mul_notFinite (x : Float) (h : (read y).amount.isFinite = false) :
    (read (x * y)).amount.isFinite = false := by
  have hmul : (x * y).toModel.unpack =
      (pack (.mul .binary64 x.toModel.unpack y.toModel.unpack)).unpack := rfl
  rw [read_eq] at h ⊢
  rw [hmul]
  rcases mul_special x.toModel.unpack h with hproduct | ⟨sign, hproduct⟩
  · rw [unpack_pack_undefined hproduct]
    rfl
  · rw [unpack_pack_infinity hproduct]
    rfl

end Undefined

/-- What is no whole number and not finite is a double. -/
theorem Quantity.real_of_notFinite {q : Quantity} (h : q.amount.isFinite = false) :
    ∃ x, q = .real x ∧ (read x).amount.isFinite = false := by
  cases q with
  | whole n => exact absurd h.symm Bool.false_ne_true
  | real x => exact ⟨x, rfl, h⟩

/-- A number of times what is not finite is not finite. -/
theorem Quantity.mul_notFinite {n : ℤ} {q product : Quantity} (h : q.amount.isFinite = false)
    (hmul : Quantity.mul (.whole n) q = .ok product) : product.amount.isFinite = false := by
  obtain ⟨y, rfl, hy⟩ := q.real_of_notFinite h
  obtain ⟨x, _, hproduct⟩ := bind_eq_ok.mp hmul
  obtain rfl := Except.ok.inj hproduct
  exact Number.mul_notFinite x hy

/-- A floored quotient of what is not finite is no number. -/
theorem Quantity.floorDiv_notFinite {q divisor quotient : Quantity} (h : q.amount.isFinite = false)
    (hdiv : q.floorDiv divisor = .ok quotient) : quotient.amount = .undefined := by
  obtain ⟨x, rfl, hx⟩ := q.real_of_notFinite h
  obtain ⟨x', hx', hrest⟩ := bind_eq_ok.mp hdiv
  obtain rfl : x = x' := Except.ok.inj hx'
  obtain ⟨y, _, hquotient⟩ := bind_eq_ok.mp hrest
  split at hquotient
  · exact absurd hquotient (by simp)
  · obtain rfl := Except.ok.inj hquotient
    have hread := read_eq (floorQuotient x y)
    rw [floorQuotient_undefined hx y] at hread
    exact congrArg Reading.amount hread

end ChipEight.Number
