import ChipEight.Pacer

/-!
# Anchoring a schedule

Every run anchors its schedule before it does anything else: no step is due yet, so the base is the
moment at which the run begins. That takes a division by the rate, which has a result for every rate
that is a number. So whether a run begins at all depends on the rate alone, and what it begins with
differs from the schedule before in the base only.
-/

namespace ChipEight

namespace Number

/-- The quantity is a number. The one double that is none compares with nothing. -/
def Quantity.IsNumber : Quantity → Prop
  | .whole _ => True
  | .real x => x ≤ 0 ∨ 0 < x

instance (rate : Quantity) : Decidable rate.IsNumber :=
  match rate with
  | .whole _ => isTrue trivial
  | .real x => inferInstanceAs (Decidable (x ≤ 0 ∨ 0 < x))

theorem scaleDown_zero (exponent : Int) : scaleDown 0 exponent = 0 := by
  unfold scaleDown
  split
  · exact Nat.zero_mul _
  · exact Nat.zero_div _

theorem truncate_zero {x : Float} (h : x.toBits = 0) : truncate x = .ok 0 := by
  have hread : Number.read x = .finite false 0 (-1074) := by
    unfold Number.read
    rw [h]
    rfl
  unfold truncate
  rw [hread]
  dsimp only
  rw [scaleDown_zero]
  rfl

/-! ### Zero against a double -/

theorem unpack_zero : (0 : Float).toModel.unpack = .zero .positive := by rfl

theorem beq_zero_eq (x : Float) : (x == 0) = x.toModel.unpack.beq (.zero .positive) := by
  rw [← unpack_zero]
  rfl

open Float.Model in
theorem zero_div_eq (x : Float) : (0.0 : Float) / x =
    .ofModel (pack (.div Format.binary64 (.zero .positive) x.toModel.unpack)) := by
  have hzero : (0.0 : Float).toModel.unpack = .zero .positive := by rfl
  rw [← hzero]
  rfl

open Float.Model in
/-- A positive double is infinite or a positive number of units. -/
theorem unpack_positive {x : Float} (h : 0 < x) :
    x.toModel.unpack = .infinity .positive ∨
      ∃ mantissa exponent hmantissa,
        x.toModel.unpack = .finite .positive mantissa exponent hmantissa := by
  have hlt : (0 : Float).toModel.unpack.lt x.toModel.unpack = true := of_decide_eq_true h
  rw [unpack_zero] at hlt
  cases hx : x.toModel.unpack with
  | notANumber => rw [hx] at hlt; exact absurd hlt (by decide)
  | zero sign => rw [hx] at hlt; cases sign <;> exact absurd hlt (by decide)
  | infinity sign =>
      cases sign with
      | positive => exact Or.inl rfl
      | negative => rw [hx] at hlt; exact absurd hlt (by decide)
  | finite sign mantissa exponent hmantissa =>
      cases sign with
      | positive => exact Or.inr ⟨mantissa, exponent, hmantissa, rfl⟩
      | negative => rw [hx] at hlt; exact absurd hlt Bool.false_ne_true

theorem positive_ne_zero {x : Float} (h : 0 < x) : (x == 0) = false := by
  rw [beq_zero_eq]
  rcases unpack_positive h with hx | ⟨mantissa, exponent, hmantissa, hx⟩
  · rw [hx]; decide
  · rw [hx]; rfl

open Float.Model in
theorem zero_div_positive {x : Float} (h : 0 < x) : (0.0 : Float) / x = 0.0 := by
  rw [zero_div_eq]
  rcases unpack_positive h with hx | ⟨mantissa, exponent, hmantissa, hx⟩
  · rw [hx]; decide
  · have hquotient : UnpackedFloat.div Format.binary64 (.zero .positive)
        (.finite .positive mantissa exponent hmantissa) = .zero .positive := rfl
    rw [hx, hquotient]
    decide

open Float.Model in
/-- Only the double that is no number is neither positive nor at most zero. -/
theorem unpack_undefined {x : Float} (h : ¬ (Quantity.real x).IsNumber) :
    x.toModel.unpack = .notANumber := by
  rw [Quantity.IsNumber, not_or] at h
  obtain ⟨hle, hlt⟩ := h
  have hle : x.toModel.unpack.le (0 : Float).toModel.unpack = false :=
    Bool.eq_false_iff.mpr fun h => hle (decide_eq_true h)
  have hlt : (0 : Float).toModel.unpack.lt x.toModel.unpack = false :=
    Bool.eq_false_iff.mpr fun h => hlt (decide_eq_true h)
  rw [unpack_zero] at hle hlt
  cases hx : x.toModel.unpack with
  | notANumber => rfl
  | zero sign => rw [hx] at hle; cases sign <;> exact absurd hle (by decide)
  | infinity sign =>
      cases sign with
      | positive => rw [hx] at hlt; exact absurd hlt (by decide)
      | negative => rw [hx] at hle; exact absurd hle (by decide)
  | finite sign mantissa exponent hmantissa =>
      cases sign with
      | positive => rw [hx] at hlt; exact absurd hlt.symm Bool.false_ne_true
      | negative => rw [hx] at hle; exact absurd hle.symm Bool.false_ne_true

theorem undefined_not_number : ¬ (Quantity.real undefined).IsNumber := by
  rw [Quantity.IsNumber]
  decide

theorem undefined_ne_zero {x : Float} (h : ¬ (Quantity.real x).IsNumber) : (x == 0) = false := by
  rw [beq_zero_eq, unpack_undefined h]
  decide

open Float.Model in
theorem zero_div_undefined {x : Float} (h : ¬ (Quantity.real x).IsNumber) :
    (0.0 : Float) / x = .ofModel (pack .notANumber) := by
  rw [zero_div_eq, unpack_undefined h]
  rfl

theorem toFloat_zero : (Quantity.whole 0).toFloat = .ok 0.0 := rfl

/-- No steps at a positive rate take no time. -/
theorem zero_div_rate {rate : Quantity} (hpositive : rate.isNonPositive = false)
    (hnumber : rate.IsNumber) : Quantity.div (.whole 0) rate = .ok 0.0 := by
  cases rate with
  | whole n =>
      have hn : n ≠ 0 := by
        simp only [Quantity.isNonPositive, decide_eq_false_iff_not] at hpositive
        omega
      simp [Quantity.div, hn, ofQuotient?]
  | real x =>
      have hx : 0 < x := by
        rcases hnumber with h | h
        · exact absurd h (of_decide_eq_false hpositive)
        · exact h
      have hdivisor : (Quantity.real x).toFloat = .ok x := rfl
      simp only [Quantity.div, toFloat_zero, hdivisor, bind, Except.bind, positive_ne_zero hx,
        zero_div_positive hx, Bool.false_eq_true, if_false]

end Number

open Number

/-- At a rate that is a positive number no steps are due at once. -/
theorem dueOffset_zero {rate : Quantity} (hpositive : rate.isNonPositive = false)
    (hnumber : rate.IsNumber) : dueOffset 0 rate = .ok 0 := by
  have hzero : (0.0 * 1000000000 : Float).toBits = 0 := by decide
  unfold dueOffset
  rw [zero_div_rate hpositive hnumber]
  simp only [bind, Except.bind]
  exact truncate_zero hzero

open Float.Model in
/-- At a rate that is no number it cannot be said when any steps are due. -/
theorem dueOffset_undefined {rate : Quantity} (h : ¬ rate.IsNumber) :
    dueOffset 0 rate = .error .undefinedToWhole := by
  cases rate with
  | whole n => exact absurd trivial h
  | real x =>
      have hdivisor : (Quantity.real x).toFloat = .ok x := rfl
      have hcut : truncate (Float.ofModel (pack .notANumber) * 1000000000) =
          .error .undefinedToWhole := by rfl
      simp only [dueOffset, Quantity.div, toFloat_zero, hdivisor, bind, Except.bind,
        undefined_ne_zero h, zero_div_undefined h, Bool.false_eq_true, if_false]
      exact hcut

namespace Schedule

/-- **Every rate that is a number can be paced by**, and the schedule is anchored at the present. -/
theorem reset_zero (s : Schedule) {rate : Quantity} (hnumber : rate.IsNumber) :
    s.reset 0 rate = .ok { s with pacer := Pacer.anchor s.now 0 } := by
  unfold reset
  cases hpositive : rate.isNonPositive with
  | true => rfl
  | false =>
      rw [dueOffset_zero hpositive hnumber]
      rfl

/-- **No schedule can be anchored at a rate that is no number.** Such a rate is not found out to be
no positive one, because it compares with nothing. -/
theorem reset_undefined (s : Schedule) {rate : Quantity} (h : ¬ rate.IsNumber) :
    s.reset 0 rate = .error .undefinedToWhole := by
  have hpositive : rate.isNonPositive = false := by
    cases rate with
    | whole n => exact absurd trivial h
    | real x =>
        rw [Quantity.IsNumber, not_or] at h
        exact decide_eq_false h.1
  unfold reset
  rw [hpositive, dueOffset_undefined h]
  rfl

/-- Anchoring moves the base and nothing else. -/
theorem reset_pacer {s s' : Schedule} {steps : Int} {rate : Quantity}
    (h : s.reset steps rate = .ok s') : ∃ pacer, s' = { s with pacer } := by
  unfold reset at h
  split at h
  · exact ⟨_, (Except.ok.inj h).symm⟩
  · cases hoffset : dueOffset steps rate with
    | error trouble => rw [hoffset] at h; exact absurd h (by simp [bind, Except.bind])
    | ok offset =>
        rw [hoffset] at h
        exact ⟨_, (Except.ok.inj h).symm⟩

end Schedule

end ChipEight
