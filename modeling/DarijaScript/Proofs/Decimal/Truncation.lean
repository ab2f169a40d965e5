import DarijaScript.Proofs.Decimal.Integers
import DarijaScript.Proofs.Decimal.Shortest

/-!
# Cutting doubles to integers

The integer part of a finite double is a double again, and it is the integer to which the double is
converted.
-/

namespace DarijaScript.Decimal

open Float.Model UnpackedFloat

variable {m n : Nat} {k : Int}

/-! ### Packing with a sign -/

theorem toBitVec_ofFields (negative : Bool) {field fraction : Nat} (small : field < 2 ^ 11)
    (small' : fraction < 2 ^ 52) :
    (UInt64.ofNat ((if negative then 2 ^ 63 else 0) + field * 2 ^ 52 + fraction)).toBitVec =
      packComponents .binary64 (if negative then .negative else .positive)
        (BitVec.ofNat 11 field) (BitVec.ofNat 52 fraction) := by
  apply BitVec.eq_of_toNat_eq
  have bits : (if negative then 2 ^ 63 else 0) + field * 2 ^ 52 + fraction < 2 ^ 64 := by
    split <;> omega
  have sign : (Sign.toBitVec (if negative then .negative else .positive)).toNat =
      if negative then 1 else 0 := by cases negative <;> rfl
  unfold packComponents
  rw [UInt64.toNat_toBitVec, UInt64.toNat_ofNat', Nat.mod_eq_of_lt bits, BitVec.toNat_append,
    BitVec.toNat_append, BitVec.toNat_ofNat, BitVec.toNat_ofNat, Nat.mod_eq_of_lt small,
    Nat.mod_eq_of_lt small', ← Nat.shiftLeft_add_eq_or_of_lt small',
    ← Nat.shiftLeft_add_eq_or_of_lt small, Nat.shiftLeft_eq, Nat.shiftLeft_eq, sign]
  change _ = ((if negative then 1 else 0) * 2 ^ 11 + field) * 2 ^ 52 + fraction
  split <;> omega

/-- The two doubles with the same fields are negations of each other. -/
theorem unpack_ofFields_true {field fraction : Nat} (small : field < 2 ^ 11)
    (small' : fraction < 2 ^ 52) :
    (ofFields true field fraction).toModel.unpack =
      (ofFields false field fraction).toModel.unpack.neg := by
  have form (negative : Bool) : (ofFields negative field fraction).toModel.unpack =
      UnpackedFloat.unpack .binary64 (UnpackedFloat.pack .binary64 (UnpackedFloat.unpack .binary64
        (packComponents .binary64 (if negative then .negative else .positive)
          (BitVec.ofNat 11 field) (BitVec.ofNat 52 fraction)))) := by
    rw [← toBitVec_ofFields negative small small']
    rfl
  rw [form, form, ← unpack_pack_neg]
  exact congrArg _ (congrArg _ (unpack_packComponents_neg .positive _ _))

theorem unpack_pack_true (small : m < 2 ^ 53) (e : Int) :
    (pack true m e).toModel.unpack = (pack false m e).toModel.unpack.neg := by
  unfold pack
  split
  · exact unpack_ofFields_true (by decide) (by decide)
  · next some =>
    dsimp only
    have scaled := mul_two_pow_lt some (Nat.min_le_left (52 - m.log2) (e + 1074).toNat) small
    split
    · next subnormal => exact unpack_ofFields_true (by decide) subnormal
    · split
      · next finite =>
        refine unpack_ofFields_true (Nat.lt_trans finite (by decide)) ?_
        omega
      · exact unpack_ofFields_true (by decide) (by decide)

/-- A whole number of at most fifty-three bits is packed as it is. -/
theorem integral_pack (negative : Bool) (small : n < 2 ^ 53) :
    Integral (pack negative n 0).toModel.unpack (if negative then -n else n) := by
  have positive : Integral (pack false n 0).toModel.unpack n := by
    rcases Nat.eq_zero_or_pos n with rfl | pos
    · exact .zero .positive
    · obtain ⟨m, e, pos', normalized, high, value⟩ := exists_normalized pos small
      obtain ⟨fields, packed, -⟩ := normalized.exists_fields pos'
      have form : fields.toFloat.toModel.unpack = .finite .positive m e pos' := by
        rw [fields.unpack_toModel, ← packed]
        exact normalized.unpack_pack pos' high
      have whole : toNat? fields.toFloat = some n := by
        rw [toNat?_eq_whole?, form, whole?_finite_iff]
        exact (multiple_eq_multiple_iff normalized.low).mp value
      obtain ⟨parts, finite⟩ : ∃ parts, unpack fields.toFloat = .finite parts :=
        ⟨_, by rw [unpack_eq_partsOf, form]; rfl⟩
      rw [pack_toNat finite whole small, form]
      exact .finite pos' normalized high value
  cases negative with
  | false => exact positive
  | true =>
    rw [unpack_pack_true small]
    exact positive.neg

/-! ### Integer parts -/

/-- Cutting a finite double gives the double that is its integer part. -/
theorem integral_truncate {x : Float} (part : truncatedInt? x = some k) :
    Integral (truncate x).toModel.unpack k := by
  rw [truncatedInt?_eq_integer?] at part
  unfold truncate roundBy
  rw [unpack_eq_partsOf]
  cases form : x.toModel.unpack with
  | infinity sign | notANumber => simp [form, integer?] at part
  | zero sign =>
    simp only [partsOf]
    rw [form, integer?] at part
    cases part
    rw [if_neg (by decide), if_pos (Nat.zero_mod _), form]
    exact .zero sign
  | finite sign m e pos =>
    obtain ⟨normalized, high⟩ := normalized_of_toModel form
    rw [form] at part
    have exact {n : Nat} (value : n * 2 ^ (-e).toNat = m * 2 ^ e.toNat) :
        Integral x.toModel.unpack (sign.apply n) := by
      rw [form]
      exact .finite pos normalized high ((multiple_eq_multiple_iff normalized.low).mpr value)
    rw [integer?, Option.some_inj] at part
    simp only [partsOf]
    rw [← part]
    split
    · next nonneg =>
      have shift : (-e).toNat = 0 := by omega
      exact exact (by rw [shift, Nat.pow_zero, Nat.mul_one])
    · next negative =>
      have shift : e.toNat = 0 := by omega
      split
      · next whole =>
        refine exact ?_
        rw [shift, Nat.pow_zero, Nat.mul_one, Nat.div_mul_cancel (Nat.dvd_of_mod_eq_zero whole)]
      · next fraction =>
        have small : m / 2 ^ (-e).toNat < 2 ^ 53 :=
          Nat.lt_of_le_of_lt (Nat.div_le_self ..) normalized.small
        have packed := integral_pack (sign == .negative) small
        cases sign <;> exact packed

/-- A finite double is converted to its integer part. -/
theorem toInt_eq {form : UnpackedFloat} (part : integer? form = some k) (low high : Int) :
    form.toInt low high = k := by
  cases form with
  | infinity sign | notANumber => cases part
  | zero sign => exact Option.some.inj part
  | finite sign m e pos =>
    rw [integer?, Option.some_inj] at part
    rw [← part]
    unfold toInt roundToInt decreaseExponent shiftToExponent
    dsimp only
    rw [mantissa_shiftRight]
    congr 2
    change m <<< (e - 0).toNat / _ = _
    rw [Nat.shiftLeft_eq, Int.sub_zero]
    split
    · next nonneg =>
      have shift : (0 - (e - e.toNat)).toNat = 0 := by omega
      rw [shift, Nat.pow_zero, Nat.div_one]
    · next negative =>
      have shift : e.toNat = 0 := by omega
      have shift' : (0 - (e - (0 : Nat))).toNat = (-e).toNat := by omega
      rw [shift, shift', Nat.pow_zero, Nat.mul_one]

theorem toNat_toUInt64 {x : Float} (part : truncatedInt? x = some k) (small : k < 2 ^ 64) :
    x.toUInt64.toNat = k.toNat := by
  rw [truncatedInt?_eq_integer?] at part
  change (UInt64.ofNatClamp (x.toModel.unpack.toInt 0 _).toNat).toNat = _
  rw [toInt_eq part, UInt64.toNat_ofNatClamp_of_lt]
  change k.toNat < 2 ^ 64
  omega

end DarijaScript.Decimal
