import DarijaScript.Proofs.Decimal.Fields

/-!
# Exact values

A value with at most fifty-three bits is packed without a change, in whichever way it is written,
and a fraction that has such a value is read as that double.
-/

namespace DarijaScript.Decimal

theorem mul_two_pow_lt {m shift : Nat} (pos : m ≠ 0) (fits : shift ≤ 52 - m.log2)
    (small : m < 2 ^ 53) : m * 2 ^ shift < 2 ^ 53 := by
  have bits : m.log2 < 53 := (Nat.log2_lt pos).mpr small
  calc m * 2 ^ shift < 2 ^ (m.log2 + 1) * 2 ^ shift :=
        Nat.mul_lt_mul_of_pos_right Nat.lt_log2_self (Nat.two_pow_pos _)
    _ = 2 ^ (m.log2 + 1 + shift) := (Nat.pow_add ..).symm
    _ ≤ 2 ^ 53 := Nat.pow_le_pow_right (by decide) (by omega)

/-- What is packed has fields. -/
theorem exists_fields_pack {m : Nat} {e : Int} (small : m < 2 ^ 53) :
    ∃ fields : Fields, pack false m e = fields.toFloat := by
  unfold pack
  split
  · exact ⟨⟨0, 0, by decide, by decide, by decide⟩, rfl⟩
  · next pos =>
    dsimp only
    have scaled := mul_two_pow_lt pos (Nat.min_le_left (52 - m.log2) (e + 1074).toNat) small
    generalize m * 2 ^ min (52 - m.log2) (e + 1074).toNat = scaledMantissa at scaled
    split
    · next subnormal => exact ⟨⟨0, scaledMantissa, by decide, subnormal, fun top => absurd top (by decide)⟩, rfl⟩
    · split
      · next top => exact ⟨⟨_, _, Nat.le_of_lt top, by omega, fun eq => absurd top (by omega)⟩, rfl⟩
      · exact ⟨⟨topExponent, 0, Nat.le_refl _, by decide, fun _ => rfl⟩, rfl⟩

theorem log2_mul_two_pow {m : Nat} (pos : m ≠ 0) (k : Nat) : (m * 2 ^ k).log2 = m.log2 + k := by
  rw [Nat.log2_eq_iff (Nat.mul_ne_zero pos (Nat.ne_of_gt (Nat.two_pow_pos k)))]
  constructor
  · rw [Nat.pow_add]
    exact Nat.mul_le_mul_right _ (Nat.log2_self_le pos)
  · rw [show m.log2 + k + 1 = m.log2 + 1 + k by omega, Nat.pow_add]
    exact Nat.mul_lt_mul_of_pos_right Nat.lt_log2_self (Nat.two_pow_pos _)

/-- Factors of two may stand in the mantissa or in the exponent. -/
theorem pack_mul_two_pow {m k : Nat} {e : Int} (small : m * 2 ^ k < 2 ^ 53) (low : -1074 ≤ e) :
    pack false (m * 2 ^ k) e = pack false m (e + k) := by
  by_cases pos : m = 0
  · simp [pack, pos]
  · have pos' : m * 2 ^ k ≠ 0 := Nat.mul_ne_zero pos (Nat.ne_of_gt (Nat.two_pow_pos k))
    have bits : m.log2 + k < 53 := by
      rw [← log2_mul_two_pow pos]
      exact (Nat.log2_lt pos').mpr small
    have shift : min (52 - m.log2) (e + k + 1074).toNat =
        k + min (52 - (m.log2 + k)) (e + 1074).toNat := by omega
    unfold pack
    rw [if_neg pos, if_neg pos', log2_mul_two_pow pos, shift]
    dsimp only
    have exponent (n : Nat) : e + k - ((k + n : Nat) : Int) = e - n := by omega
    rw [exponent, Nat.pow_add, Nat.mul_assoc]

/-- Packing the parts of a double gives it back. -/
theorem pack_of_unpack {fields : Fields} {value : Dyadic}
    (h : unpack fields.toFloat = .finite value) :
    value.negative = false ∧ pack false value.mantissa value.exponent = fields.toFloat ∧
      value.mantissa < 2 ^ 53 ∧ -1074 ≤ value.exponent ∧ value.exponent ≤ 971 := by
  have fraction_lt := fields.fraction_lt
  have field_le := fields.field_le
  rw [Fields.unpack_toFloat] at h
  split at h
  · cases h
  · next notTop =>
    split at h
    · next low =>
      obtain rfl := Unpacked.finite.inj h
      refine ⟨rfl, ?_, by dsimp only; omega, by dsimp only; omega, by dsimp only; omega⟩
      unfold pack Fields.toFloat
      dsimp only
      rw [low]
      split
      · next none => rw [none]
      · rw [show min _ (-1074 + 1074 : Int).toNat = 0 from Nat.min_zero _, Nat.pow_zero, Nat.mul_one,
          if_pos fraction_lt]
    · next low =>
      obtain rfl := Unpacked.finite.inj h
      have bits : (2 ^ 52 + fields.fraction).log2 = 52 :=
        (Nat.log2_eq_iff (by omega)).mpr ⟨by omega, by omega⟩
      unfold topExponent at notTop field_le
      refine ⟨rfl, ?_, by dsimp only; omega, by dsimp only; omega, by dsimp only; omega⟩
      unfold pack Fields.toFloat
      dsimp only
      rw [if_neg (by omega), bits, Nat.sub_self, Nat.zero_min, Nat.pow_zero, Nat.mul_one,
        if_neg (by omega)]
      have field : ((fields.field : Int) - 1075 - (0 : Nat) + 1075).toNat = fields.field := by omega
      rw [field, if_pos (by unfold topExponent; omega), Nat.add_sub_cancel_left]

theorem divRoundEven_mul {quotient denominator : Nat} (pos : 0 < denominator) :
    divRoundEven (quotient * denominator) denominator = quotient := by
  unfold divRoundEven
  simp [pos]

/-- The whole part of a fraction on the grid of this power of two. -/
def quotientAt (numerator denominator : Nat) (exponent : Int) : Nat :=
  numerator * 2 ^ (-exponent).toNat / (denominator * 2 ^ exponent.toNat)

section

variable {numerator denominator : Nat}

theorem quotientAt_anti (pos : 0 < denominator) {E E' : Int} (coarser : E ≤ E') :
    quotientAt numerator denominator E' ≤ quotientAt numerator denominator E :=
  Nat.div_le_div
    (Nat.mul_le_mul_left _ (Nat.pow_le_pow_right (by decide) (by omega)))
    (Nat.mul_le_mul_left _ (Nat.pow_le_pow_right (by decide) (by omega)))
    (Nat.ne_of_gt (Nat.mul_pos pos (Nat.two_pow_pos _)))

theorem quotientAt_lt (pos : 0 < denominator) {E : Int} {bits : Nat}
    (enough : (numerator.log2 : Int) + 1 - E ≤ denominator.log2 + bits) :
    quotientAt numerator denominator E < 2 ^ bits := by
  rw [quotientAt, Nat.div_lt_iff_lt_mul (Nat.mul_pos pos (Nat.two_pow_pos _))]
  calc numerator * 2 ^ (-E).toNat
      < 2 ^ (numerator.log2 + 1) * 2 ^ (-E).toNat :=
        Nat.mul_lt_mul_of_pos_right Nat.lt_log2_self (Nat.two_pow_pos _)
    _ = 2 ^ (numerator.log2 + 1 + (-E).toNat) := (Nat.pow_add ..).symm
    _ ≤ 2 ^ (bits + (denominator.log2 + E.toNat)) :=
        Nat.pow_le_pow_right (by decide) (by omega)
    _ = 2 ^ bits * (2 ^ denominator.log2 * 2 ^ E.toNat) := by rw [Nat.pow_add, Nat.pow_add]
    _ ≤ 2 ^ bits * (denominator * 2 ^ E.toNat) :=
        Nat.mul_le_mul_left _
          (Nat.mul_le_mul_right _ (Nat.log2_self_le (Nat.ne_of_gt pos)))

/-- A fraction is rounded on the finest grid on which its whole part has at most fifty-three
bits. -/
theorem ofFraction_eq (numerator : Nat) (pos : 0 < denominator) :
    ∃ E : Int, -1074 ≤ E ∧ quotientAt numerator denominator E < 2 ^ 53 ∧
      (∀ E' : Int, -1074 ≤ E' → (numerator.log2 : Int) - denominator.log2 - 53 ≤ E' →
        quotientAt numerator denominator E' < 2 ^ 53 → E ≤ E') ∧
      ofFraction numerator denominator =
        let mantissa := divRoundEven (numerator * 2 ^ (-E).toNat) (denominator * 2 ^ E.toNat)
        if mantissa < 2 ^ 53 then pack false mantissa E
        else pack false (mantissa / 2) (E + 1) := by
  unfold ofFraction
  dsimp only
  split
  · next fits =>
    exact ⟨_, Int.le_max_right _ _,
      Nat.lt_of_le_of_lt (quotientAt_anti pos (Int.le_max_left _ _)) fits,
      fun _ low above _ => Int.max_le.mpr ⟨above, low⟩, rfl⟩
  · next exceeds =>
    have fits : quotientAt numerator denominator ((numerator.log2 : Int) - denominator.log2 - 53 + 1) <
        2 ^ 53 := quotientAt_lt pos (by omega)
    refine ⟨_, Int.le_max_right _ _,
      Nat.lt_of_le_of_lt (quotientAt_anti pos (Int.le_max_left _ _)) fits,
      fun E' low above fits => Int.max_le.mpr ⟨?_, low⟩, rfl⟩
    have apart : (numerator.log2 : Int) - denominator.log2 - 53 ≠ E' := by
      rintro rfl
      exact exceeds fits
    omega

theorem divRoundEven_le (numerator denominator : Nat) :
    divRoundEven numerator denominator ≤ numerator / denominator + 1 := by
  unfold divRoundEven
  dsimp only
  split
  · exact Nat.le_succ _
  · split <;> omega

/-- What a fraction is read as has fields. -/
theorem exists_fields_ofFraction (pos : 0 < denominator) :
    ∃ fields : Fields, ofFraction numerator denominator = fields.toFloat := by
  obtain ⟨E, -, fits, -, eq⟩ := ofFraction_eq numerator pos
  rw [eq]
  dsimp only
  split
  · next small => exact exists_fields_pack small
  · have := divRoundEven_le (numerator * 2 ^ (-E).toNat) (denominator * 2 ^ E.toNat)
    unfold quotientAt at fits
    exact exists_fields_pack (by omega)

end

section

variable {numerator denominator m : Nat} {e : Int}

/-- The numerator on a finer grid is a multiple of the denominator. -/
theorem numerator_eq (value : numerator * 2 ^ (-e).toNat = m * 2 ^ e.toNat * denominator) {E : Int}
    (fine : E ≤ e) : numerator * 2 ^ (-E).toNat =
      m * 2 ^ (e - E).toNat * (denominator * 2 ^ E.toNat) := by
  have split : (-E).toNat + e.toNat = (-e).toNat + ((e - E).toNat + E.toNat) := by omega
  have pos : 0 < 2 ^ e.toNat := Nat.two_pow_pos _
  apply Nat.eq_of_mul_eq_mul_right pos
  calc numerator * 2 ^ (-E).toNat * 2 ^ e.toNat
      = numerator * (2 ^ (-E).toNat * 2 ^ e.toNat) := Nat.mul_assoc ..
    _ = numerator * (2 ^ (-e).toNat * (2 ^ (e - E).toNat * 2 ^ E.toNat)) := by
      rw [← Nat.pow_add, split, Nat.pow_add, Nat.pow_add]
    _ = numerator * 2 ^ (-e).toNat * (2 ^ (e - E).toNat * 2 ^ E.toNat) := (Nat.mul_assoc ..).symm
    _ = m * 2 ^ e.toNat * denominator * (2 ^ (e - E).toNat * 2 ^ E.toNat) := by rw [value]
    _ = m * 2 ^ (e - E).toNat * (denominator * 2 ^ E.toNat) * 2 ^ e.toNat := by
      simp only [Nat.mul_assoc, Nat.mul_left_comm, Nat.mul_comm]

theorem quotientAt_eq (value : numerator * 2 ^ (-e).toNat = m * 2 ^ e.toNat * denominator)
    (pos : 0 < denominator) {E : Int} (fine : E ≤ e) :
    quotientAt numerator denominator E = m * 2 ^ (e - E).toNat := by
  rw [quotientAt, numerator_eq value fine]
  exact Nat.mul_div_cancel _ (Nat.mul_pos pos (Nat.two_pow_pos _))

/-- The first estimate of the exponent is not above the exponent of the value. -/
theorem estimate_le (value : numerator * 2 ^ (-e).toNat = m * 2 ^ e.toNat * denominator)
    (pos : 0 < m) (small : m < 2 ^ 53) (denominatorPos : 0 < denominator) :
    (numerator.log2 : Int) - denominator.log2 - 53 ≤ e := by
  have numeratorPos : numerator ≠ 0 := by
    rintro rfl
    rw [Nat.zero_mul] at value
    have := Nat.mul_pos (Nat.mul_pos pos (Nat.two_pow_pos e.toNat)) denominatorPos
    omega
  have less : 2 ^ (numerator.log2 + (-e).toNat) < 2 ^ (53 + e.toNat + (denominator.log2 + 1)) :=
    calc 2 ^ (numerator.log2 + (-e).toNat)
        = 2 ^ numerator.log2 * 2 ^ (-e).toNat := Nat.pow_add ..
      _ ≤ numerator * 2 ^ (-e).toNat := Nat.mul_le_mul_right _ (Nat.log2_self_le numeratorPos)
      _ = m * 2 ^ e.toNat * denominator := value
      _ < 2 ^ 53 * 2 ^ e.toNat * 2 ^ (denominator.log2 + 1) :=
        Nat.mul_lt_mul_of_lt_of_le (Nat.mul_lt_mul_of_pos_right small (Nat.two_pow_pos _))
          (Nat.le_of_lt Nat.lt_log2_self) (Nat.two_pow_pos _)
      _ = 2 ^ (53 + e.toNat + (denominator.log2 + 1)) := by rw [← Nat.pow_add, ← Nat.pow_add]
  have := (Nat.pow_lt_pow_iff_right (by decide)).mp less
  omega

/-- A fraction with a value of at most fifty-three bits is read as that value. -/
theorem ofFraction_exact (value : numerator * 2 ^ (-e).toNat = m * 2 ^ e.toNat * denominator)
    (pos : 0 < m) (small : m < 2 ^ 53) (denominatorPos : 0 < denominator) (low : -1074 ≤ e) :
    ofFraction numerator denominator = pack false m e := by
  obtain ⟨E, lowE, fits, least, eq⟩ := ofFraction_eq numerator denominatorPos
  have fine : E ≤ e := by
    refine least e low (estimate_le value pos small denominatorPos) ?_
    rw [quotientAt_eq value denominatorPos (Int.le_refl e), Int.sub_self]
    simpa using small
  rw [quotientAt_eq value denominatorPos fine] at fits
  have exponent : E + ((e - E).toNat : Int) = e := by omega
  rw [eq, numerator_eq value fine,
    divRoundEven_mul (Nat.mul_pos denominatorPos (Nat.two_pow_pos _))]
  dsimp only
  rw [if_pos fits, pack_mul_two_pow fits lowE, exponent]

end

end DarijaScript.Decimal
