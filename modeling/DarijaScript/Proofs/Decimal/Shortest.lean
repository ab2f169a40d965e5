import DarijaScript.Decimal.Shortest
import DarijaScript.Proofs.Decimal.Exact

/-!
# The numeral of a double reads back

Whichever way the numeral of a positive double is found, it is read as that double: a grid point
because it was tried, the exact value and a whole number because nothing is rounded.
-/

namespace DarijaScript.Decimal

/-- What is read has fields. -/
theorem exists_fields_ofScientific (coefficient : Nat) (exponent : Int) :
    ∃ fields : Fields, ofScientific coefficient exponent = fields.toFloat := by
  have zero : ∃ fields : Fields, ofFields false 0 0 = fields.toFloat :=
    ⟨⟨0, 0, by decide, by decide, by decide⟩, rfl⟩
  unfold ofScientific
  split
  · exact zero
  · split
    · exact ⟨⟨topExponent, 0, Nat.le_refl _, by decide, fun _ => rfl⟩, rfl⟩
    · split
      · exact zero
      · exact exists_fields_ofFraction (Nat.pow_pos (by decide))

/-- Powers of ten may stand in the coefficient. -/
theorem ofScientific_mul_ten_pow {coefficient places : Nat} (pos : coefficient ≠ 0)
    (few : places ≤ 400) :
    ofScientific (coefficient * 10 ^ places) 0 = ofScientific coefficient places := by
  have pos' : coefficient * 10 ^ places ≠ 0 :=
    Nat.mul_ne_zero pos (Nat.ne_of_gt (Nat.pow_pos (by decide)))
  unfold ofScientific
  rw [if_neg pos, if_neg pos', if_neg (by omega), if_neg (by omega), if_neg (by omega),
    if_neg (by omega)]
  simp

section

variable {fields : Fields} {value : Dyadic}

theorem toNat?_of_finite {x : Float} (h : unpack x = .finite value)
    (positive : value.negative = false) : toNat? x =
      if 0 ≤ value.exponent then some (value.mantissa * 2 ^ value.exponent.toNat)
      else if value.mantissa % 2 ^ (-value.exponent).toNat = 0 then
        some (value.mantissa / 2 ^ (-value.exponent).toNat)
      else none := by
  unfold toNat?
  rw [h]
  simp [positive]

/-- A double that equals a small natural number has it for its mantissa. -/
theorem pack_toNat (h : unpack fields.toFloat = .finite value) {n : Nat}
    (whole : toNat? fields.toFloat = some n) (small : n < 2 ^ 53) :
    pack false n 0 = fields.toFloat := by
  obtain ⟨positive, packed, fits, low, -⟩ := pack_of_unpack h
  rw [toNat?_of_finite h positive] at whole
  rw [← packed]
  split at whole
  · next large =>
    have eq : value.mantissa * 2 ^ value.exponent.toNat = n := Option.some.inj whole
    have exponent : (0 : Int) + value.exponent.toNat = value.exponent := by omega
    rw [← eq] at small ⊢
    rw [pack_mul_two_pow small (by decide), exponent]
  · split at whole
    · next divides =>
      have eq : n * 2 ^ (-value.exponent).toNat = value.mantissa := by
        rw [← Option.some.inj whole]
        exact Nat.div_mul_cancel (Nat.dvd_of_mod_eq_zero divides)
      have exponent : value.exponent + (-value.exponent).toNat = 0 := by omega
      rw [← eq] at fits ⊢
      rw [pack_mul_two_pow fits low, exponent]
    · cases whole

/-- A double that equals a small natural number is read from the digits of that number. -/
theorem ofScientific_toNat (h : unpack fields.toFloat = .finite value) {n : Nat}
    (whole : toNat? fields.toFloat = some n) (small : n < 2 ^ 53) :
    ofScientific n 0 = fields.toFloat := by
  have packed := pack_toNat h whole small
  unfold ofScientific
  by_cases none : n = 0
  · rw [if_pos none, ← packed, pack, if_pos none]
  · rw [if_neg none, if_neg (by omega), if_neg (by omega), ← packed]
    exact ofFraction_exact (by simp) (Nat.pos_of_ne_zero none) small (by simp) (by decide)

/-- The exact value of a double is read without rounding. -/
theorem exactNumeral_toFloat (h : unpack fields.toFloat = .finite value)
    (pos : 0 < value.mantissa) : value.exactNumeral.toFloat = fields.toFloat := by
  obtain ⟨-, packed, fits, low, -⟩ := pack_of_unpack h
  have five (k : Nat) : 2 * k ≤ (value.mantissa * 5 ^ k).log2 := by
    rw [Nat.le_log2 (Nat.ne_of_gt (Nat.mul_pos pos (Nat.pow_pos (by decide))))]
    calc 2 ^ (2 * k) = 4 ^ k := by rw [Nat.pow_mul]
      _ ≤ 5 ^ k := Nat.pow_le_pow_left (by decide) k
      _ ≤ value.mantissa * 5 ^ k := Nat.le_mul_of_pos_left _ pos
  have pos' (k : Nat) : value.mantissa * 5 ^ k ≠ 0 :=
    Nat.ne_of_gt (Nat.mul_pos pos (Nat.pow_pos (by decide)))
  have pos'' (k : Nat) : value.mantissa * 2 ^ k ≠ 0 :=
    Nat.ne_of_gt (Nat.mul_pos pos (Nat.pow_pos (by decide)))
  rw [← packed]
  unfold Dyadic.exactNumeral Numeral.toFloat ofScientific
  split
  · next large =>
    dsimp only
    rw [if_neg (pos'' _), if_neg (by omega), if_neg (by omega)]
    refine ofFraction_exact ?_ pos fits (by simp) low
    rw [show (-value.exponent).toNat = 0 by omega]
    simp
  · next below =>
    dsimp only
    have places := five (-value.exponent).toNat
    rw [if_neg (pos' _), if_neg (by omega), if_neg (by omega)]
    refine ofFraction_exact ?_ pos fits (Nat.pow_pos (by decide)) low
    have whole : value.exponent.toNat = 0 := by omega
    simp only [whole, Nat.pow_zero, Nat.mul_one]
    rw [Nat.mul_assoc, ← Nat.mul_pow]

theorem onGrid?_toFloat (target : Fields) {exponent : Int} {numeral : Numeral}
    (h : onGrid? value target.toFloat exponent = some numeral) :
    numeral.toFloat = target.toFloat ∧ numeral.exponent = exponent := by
  have reads {tried : Numeral} (same : (tried.toFloat == target.toFloat) = true) :
      tried.toFloat = target.toFloat := by
    obtain ⟨fields, eq⟩ := exists_fields_ofScientific tried.coefficient tried.exponent
    have eq : tried.toFloat = fields.toFloat := eq
    rw [eq] at same ⊢
    exact Fields.eq_of_beq same
  unfold onGrid? at h
  dsimp only at h
  split at h
  · next below above =>
    obtain rfl := Option.some.inj h
    split
    · exact ⟨reads above, rfl⟩
    · exact ⟨reads below, rfl⟩
  · next below _ =>
    obtain rfl := Option.some.inj h
    exact ⟨reads below, rfl⟩
  · next _ above =>
    obtain rfl := Option.some.inj h
    exact ⟨reads above, rfl⟩
  · cases h

theorem firstGrid?_toFloat (target : Fields) {tries : Nat} {exponent : Int} {numeral : Numeral}
    (h : firstGrid? value target.toFloat tries exponent = some numeral) :
    numeral.toFloat = target.toFloat ∧ numeral.exponent ≤ exponent := by
  induction tries generalizing exponent with
  | zero => cases h
  | succ tries ih =>
    unfold firstGrid? at h
    cases found : onGrid? value target.toFloat exponent with
    | some first =>
      rw [found] at h
      obtain rfl := Option.some.inj h
      obtain ⟨reads, eq⟩ := onGrid?_toFloat target found
      exact ⟨reads, Int.le_of_eq eq⟩
    | none =>
      rw [found, Option.none_or] at h
      obtain ⟨reads, le⟩ := ih h
      exact ⟨reads, by omega⟩

/-- No double is so large that its first grid is beyond four hundred places. -/
theorem coarseExponent_le (small : value.mantissa < 2 ^ 53) (high : value.exponent ≤ 971) :
    value.coarseExponent ≤ 400 := by
  have bits : value.mantissa.log2 ≤ 53 := by
    by_cases none : value.mantissa = 0
    · rw [none]
      decide
    · exact Nat.le_of_lt ((Nat.log2_lt none).mpr small)
  unfold Dyadic.coarseExponent
  rw [Int.fdiv_eq_ediv_of_nonneg _ (by decide)]
  omega

/-- **The numeral of a double is read as that double.** -/
theorem numeral_toFloat (h : unpack fields.toFloat = .finite value) (pos : 0 < value.mantissa) :
    value.numeral.toFloat = fields.toFloat ∧ value.numeral.exponent ≤ 400 := by
  obtain ⟨-, packed, fits, -, high⟩ := pack_of_unpack h
  have searched : (Dyadic.numeral.searched value fields.toFloat).toFloat = fields.toFloat ∧
      (Dyadic.numeral.searched value fields.toFloat).exponent ≤ 400 := by
    unfold Dyadic.numeral.searched
    cases found : firstGrid? value fields.toFloat 24 value.coarseExponent with
    | some numeral =>
      obtain ⟨reads, le⟩ := firstGrid?_toFloat fields found
      exact ⟨reads, Int.le_trans le (coarseExponent_le fits high)⟩
    | none =>
      refine ⟨exactNumeral_toFloat h pos, ?_⟩
      rw [Option.getD_none]
      unfold Dyadic.exactNumeral
      split <;> dsimp only <;> omega
  unfold Dyadic.numeral
  dsimp only
  rw [packed]
  split
  · next n whole =>
    split
    · next small => exact ⟨ofScientific_toNat h whole small, by dsimp only; omega⟩
    · exact searched
  · exact searched

end

end DarijaScript.Decimal
