import Playground.Number.Basic

/-!
# Numbers on a time line

A clock shows zero or a sum that was rounded, so what it shows is a representable magnitude or
infinity (`IsInstant`). Rounding never passes a representable magnitude, so adding a wait that is
not negative never leads to an earlier instant (`IsInstant.add`). On instants the numeric order is
total, and it has no NaN to get around.
-/

namespace Playground.Number

/-- One number is less than another or equal to it. A NaN is neither. -/
def AtMost (left right : Number) : Prop :=
  left.less right ∨ left.equals right

/-! ## Representable magnitudes -/

/-- A magnitude that takes up no more than fifty-three significant bits. -/
def Representable (units : Nat) : Prop :=
  ∃ significand exponent,
    significand ≤ Nat.pow 2 53 ∧ units = significand * Nat.pow 2 exponent

variable {units total : Nat}

theorem pow_mul_pow (exponent more : Nat) :
    Nat.pow 2 exponent * Nat.pow 2 more = Nat.pow 2 (exponent + more) :=
  (Nat.pow_add 2 exponent more).symm

theorem spacing_pos (units : Nat) : 0 < spacing units :=
  Nat.pow_pos (by decide)

/-- Rounding takes the multiple of the spacing below a magnitude, or the one above. -/
theorem exists_roundQuotient_eq (total : Nat) : ∃ significand,
    total / spacing total ≤ significand ∧ significand ≤ total / spacing total + 1 ∧
      roundQuotient total 1 = significand * spacing total := by
  simp only [roundQuotient, Nat.div_one, Nat.one_mul]
  split
  · exact ⟨_, Nat.le_refl _, Nat.le_succ _, rfl⟩
  · exact ⟨_, Nat.le_succ _, Nat.le_refl _, rfl⟩

/-- The significand below a magnitude has no more than fifty-three bits. -/
theorem div_spacing_lt (total : Nat) : total / spacing total < Nat.pow 2 53 := by
  rw [Nat.div_lt_iff_lt_mul (spacing_pos total), spacing, pow_mul_pow]
  exact Nat.lt_of_lt_of_le Nat.lt_log2_self (Nat.pow_le_pow_right (by decide) (by omega))

theorem representable_roundQuotient (total : Nat) : Representable (roundQuotient total 1) := by
  obtain ⟨significand, -, below, rounded⟩ := exists_roundQuotient_eq total
  have := div_spacing_lt total
  exact ⟨significand, total.log2 + 1 - 53, by omega, rounded⟩

/-- Rounding does not pass a representable magnitude. -/
theorem Representable.le_roundQuotient (representable : Representable units)
    (below : units ≤ total) : units ≤ roundQuotient total 1 := by
  obtain ⟨significand, floor, -, rounded⟩ := exists_roundQuotient_eq total
  suffices units ≤ total / spacing total * spacing total by
    rw [rounded]
    exact Nat.le_trans this (Nat.mul_le_mul_right _ floor)
  obtain ⟨digits, exponent, short, rfl⟩ := representable
  by_cases fine : total.log2 + 1 - 53 ≤ exponent
  · -- The magnitude is a multiple of the spacing.
    have multiple : digits * Nat.pow 2 exponent =
        digits * Nat.pow 2 (exponent - (total.log2 + 1 - 53)) * spacing total := by
      rw [spacing, Nat.mul_assoc, pow_mul_pow, Nat.sub_add_cancel fine]
    rw [multiple] at below ⊢
    exact Nat.mul_le_mul_right _ ((Nat.le_div_iff_mul_le (spacing_pos total)).mpr below)
  · -- The magnitude is below the least one that has this spacing.
    have leading : Nat.pow 2 52 ≤ total / spacing total := by
      rw [Nat.le_div_iff_mul_le (spacing_pos total), spacing, pow_mul_pow]
      have positive : total ≠ 0 := by
        rintro rfl
        simp at fine
      exact Nat.le_trans (Nat.pow_le_pow_right (by decide) (by omega)) (Nat.log2_self_le positive)
    calc digits * Nat.pow 2 exponent
        ≤ Nat.pow 2 53 * Nat.pow 2 (total.log2 + 1 - 53 - 1) :=
          Nat.mul_le_mul short (Nat.pow_le_pow_right (by decide) (by omega))
      _ = Nat.pow 2 52 * spacing total := by
          rw [spacing, pow_mul_pow, pow_mul_pow]
          congr 1
          omega
      _ ≤ total / spacing total * spacing total := Nat.mul_le_mul_right _ leading

/-! ## Instants and waits -/

/-- What a clock shows. -/
inductive IsInstant : Number → Prop where
  | infinite : IsInstant (.infinite false)
  | finite {units : Nat} (representable : Representable units) : IsInstant (.finite units)

/-- A number that is not negative. -/
inductive IsWait : Number → Prop where
  | infinite : IsWait (.infinite false)
  | finite (units : Nat) : IsWait (.finite units)

/-- Whatever is clamped at zero can be waited for. -/
theorem isWait_clampAtZero (number : Number) : IsWait number.clampAtZero := by
  unfold clampAtZero
  split
  case isTrue positive =>
    match number, positive with
    | .infinite false, _ => exact .infinite
    | .finite (.ofNat units), _ => exact .finite units
    | .finite (.negSucc below), positive => simp [less, zero] at positive
  case isFalse => exact .finite 0

/-- A rounded magnitude is an instant. -/
theorem isInstant_ofMagnitude (total : Nat) :
    IsInstant (ofMagnitude false (roundQuotient total 1)) := by
  unfold ofMagnitude
  split
  · exact .infinite
  · exact .finite (representable_roundQuotient total)

/-- A larger magnitude is a later number, also if it overflows. -/
theorem atMost_ofMagnitude (below : units ≤ total) :
    (finite units).AtMost (ofMagnitude false total) := by
  by_cases overflows : overflowUnits ≤ total
  · rw [ofMagnitude, if_pos overflows]
    exact .inl rfl
  · rw [ofMagnitude, if_neg overflows]
    rcases Nat.lt_or_eq_of_le below with less | same
    · exact .inl (by simpa [Number.less] using less)
    · exact .inr (by simp [equals, same])

theorem add_eq (left right : Number) : left + right = add left right := rfl

theorem ofUnits_natCast (units : Nat) :
    ofUnits units = ofMagnitude false (roundQuotient units 1) := by
  have positive : decide ((units : Int) < 0) = false := by
    rw [decide_eq_false_iff_not]
    omega
  simp only [ofUnits, ofQuotient, Int.natAbs_natCast]
  rw [positive]

/-- The sum of magnitudes is rounded once. -/
theorem finite_add_finite (units wait : Nat) : finite units + finite wait =
    ofMagnitude false (roundQuotient (units + wait) 1) := by
  rw [add_eq, add, ← Int.natCast_add, ofUnits_natCast]

/-- A wait leads from an instant to one that is not earlier. -/
theorem IsInstant.add {clock wait : Number} (instant : IsInstant clock) (waits : IsWait wait) :
    IsInstant (clock + wait) ∧ clock.AtMost (clock + wait) := by
  cases instant with
  | infinite =>
    have stays : (.infinite false : Number) + wait = .infinite false := by cases waits <;> rfl
    rw [stays]
    exact ⟨.infinite, .inr (by decide)⟩
  | @finite units representable =>
    cases waits with
    | infinite => exact ⟨.infinite, .inl rfl⟩
    | finite wait =>
      rw [finite_add_finite]
      exact ⟨isInstant_ofMagnitude _,
        atMost_ofMagnitude (representable.le_roundQuotient (Nat.le_add_right units wait))⟩

/-! ## The order of instants -/

section Order

variable {one other third : Number}

theorem AtMost.refl (instant : IsInstant one) : one.AtMost one := by
  cases instant <;> simp [AtMost, less, equals]

/-- Of two instants, one is less or the other is at most as large. -/
theorem IsInstant.atMost_of_not_less (instant : IsInstant one) (otherInstant : IsInstant other)
    (above : ¬one.less other) : other.AtMost one := by
  cases instant <;> cases otherInstant <;> simp_all [AtMost, less, equals]
  omega

theorem AtMost.trans (left : one.AtMost other) (right : other.AtMost third) :
    one.AtMost third := by
  cases one <;> cases other <;> cases third <;> simp_all [AtMost, less, equals] <;> grind

theorem AtMost.trans_less (left : one.AtMost other) (right : other.less third) :
    one.less third := by
  cases one <;> cases other <;> cases third <;> simp_all [AtMost, less, equals] <;> grind

theorem less_trans_atMost (left : one.less other) (right : other.AtMost third) :
    one.less third := by
  cases one <;> cases other <;> cases third <;> simp_all [AtMost, less, equals] <;> grind

end Order

/-! ## Exact integers -/

/-- A representable magnitude is a multiple of the distance between its neighbours. -/
theorem Representable.spacing_dvd {units : Nat} (representable : Representable units) :
    spacing units ∣ units := by
  obtain ⟨digits, exponent, short, rfl⟩ := representable
  by_cases fine : (digits * Nat.pow 2 exponent).log2 + 1 - 53 ≤ exponent
  · exact Nat.dvd_mul_left_of_dvd (Nat.pow_dvd_pow 2 fine) digits
  · -- Only the next power of two has more bits than the significand.
    have positive : digits * Nat.pow 2 exponent ≠ 0 := by
      intro none
      rw [none] at fine
      simp at fine
    have least : Nat.pow 2 (53 + exponent) ≤ digits * Nat.pow 2 exponent :=
      Nat.le_trans (Nat.pow_le_pow_right (by decide) (by omega)) (Nat.log2_self_le positive)
    have power : digits * Nat.pow 2 exponent = Nat.pow 2 (53 + exponent) :=
      Nat.le_antisymm (pow_mul_pow 53 exponent ▸ Nat.mul_le_mul_right _ short) least
    have bits : (Nat.pow 2 (53 + exponent)).log2 = 53 + exponent := Nat.log2_two_pow
    rw [power, spacing, bits]
    exact Nat.pow_dvd_pow 2 (by omega)

theorem mul_pow_lt_pow {value digits exponent bound : Nat} (short : value ≤ Nat.pow 2 digits)
    (room : digits + exponent < bound) : value * Nat.pow 2 exponent < Nat.pow 2 bound :=
  calc value * Nat.pow 2 exponent
      ≤ Nat.pow 2 digits * Nat.pow 2 exponent := Nat.mul_le_mul_right _ short
    _ = Nat.pow 2 (digits + exponent) := pow_mul_pow digits exponent
    _ < Nat.pow 2 bound := Nat.pow_lt_pow_right (by decide) room

/-- A representable magnitude is not rounded. -/
theorem Representable.roundQuotient_eq {units : Nat} (representable : Representable units) :
    roundQuotient units 1 = units := by
  have whole : units % spacing units = 0 := Nat.mod_eq_zero_of_dvd representable.spacing_dvd
  simp only [roundQuotient, Nat.div_one, Nat.one_mul, whole]
  rw [if_pos (.inl (spacing_pos units)), Nat.div_mul_cancel representable.spacing_dvd]

/-- A natural number that is a double precision number. -/
def Exact (value : Nat) : Prop :=
  ofNat value = .finite (value * unitsPerOne : Nat)

theorem ofNat_eq (value : Nat) :
    ofNat value = ofMagnitude false (roundQuotient (value * unitsPerOne) 1) := by
  rw [ofNat, ofInt, ← Int.natCast_mul, ofUnits_natCast]

/-- Integers of up to 53 bits are exact. -/
theorem exact_of_le {value : Nat} (small : value ≤ Nat.pow 2 53) : Exact value := by
  have representable : Representable (value * unitsPerOne) := ⟨value, 1074, small, rfl⟩
  have below : value * unitsPerOne < overflowUnits :=
    mul_pow_lt_pow small (by omega : 53 + 1074 < 2098)
  rw [Exact, ofNat_eq, representable.roundQuotient_eq, ofMagnitude, if_neg (Nat.not_le.mpr below)]
  rfl

end Playground.Number
