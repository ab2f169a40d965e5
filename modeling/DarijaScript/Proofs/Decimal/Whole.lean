import DarijaScript.Proofs.Decimal.Equality
import DarijaScript.Proofs.Decimal.Sum

/-!
# Whole numbers as doubles

A whole number that a double can stand for is not rounded when it becomes one. So a double is found
to be a whole number exactly when it compares as equal to the double of that number.
-/

namespace DarijaScript.Decimal

open Float.Model UnpackedFloat

/-! ### Forms and parts -/

/-- The parts of the double that has a form. -/
def partsOf : UnpackedFloat → Unpacked
  | .infinity sign => .infinite (sign == .negative)
  | .notANumber => .notANumber
  | .zero sign => .finite ⟨sign == .negative, 0, -1074⟩
  | .finite sign mantissa exponent _ => .finite ⟨sign == .negative, mantissa, exponent⟩

theorem toNat_unpackExponent (bits : BitVec Format.binary64.numBits) :
    (unpackExponent bits).toNat = bits.toNat / 2 ^ 52 % 2 ^ 11 := by
  simp [unpackExponent, BitVec.extractLsb, Nat.shiftRight_eq_div_pow]

theorem toNat_unpackMantissa (bits : BitVec Format.binary64.numBits) :
    (unpackMantissa bits).toNat = bits.toNat % 2 ^ 52 := by
  simp [unpackMantissa, BitVec.extractLsb]

theorem isNegative_unpackSign (bits : BitVec Format.binary64.numBits) :
    (Sign.ofBitVec (unpackSign bits) == .negative) = decide (2 ^ 63 ≤ bits.toNat) := by
  have small : bits.toNat < 2 ^ 64 := bits.isLt
  have sign : (unpackSign bits).toNat = bits.toNat / 2 ^ 63 % 2 := by
    simp [unpackSign, BitVec.extractLsb, Nat.shiftRight_eq_div_pow]
  unfold Sign.ofBitVec
  by_cases positive : unpackSign bits = 0#1
  · rw [positive] at sign
    change 0 = _ at sign
    rw [if_pos positive, decide_eq_false (by omega)]
    rfl
  · have negative : (unpackSign bits).toNat ≠ 0 := fun none =>
      positive (BitVec.eq_of_toNat_eq none)
    rw [if_neg positive, decide_eq_true (by omega)]
    rfl

/-- A double is taken apart into the parts of its form. -/
theorem unpack_eq_partsOf (x : Float) : unpack x = partsOf x.toModel.unpack := by
  obtain ⟨bits, form, parts⟩ : ∃ bits : BitVec Format.binary64.numBits,
      x.toModel.unpack = UnpackedFloat.unpack .binary64 bits ∧ x.toBits.toNat = bits.toNat :=
    ⟨x.toModel.toBits.toBitVec, rfl, rfl⟩
  rw [form]
  unfold unpack
  rw [parts]
  have fieldNat := toNat_unpackExponent bits
  have fractionNat := toNat_unpackMantissa bits
  have negative := isNegative_unpackSign bits
  dsimp only
  rw [← negative, ← fieldNat, ← fractionNat]
  have top : unpackExponent bits = -1#11 ↔ (unpackExponent bits).toNat = topExponent :=
    BitVec.toNat_inj.symm
  have low : unpackExponent bits = 0#11 ↔ (unpackExponent bits).toNat = 0 := BitVec.toNat_inj.symm
  have none : unpackMantissa bits = 0#52 ↔ (unpackMantissa bits).toNat = 0 := BitVec.toNat_inj.symm
  have joined : (1#1 ++ unpackMantissa bits).toNat = 2 ^ 52 + (unpackMantissa bits).toNat := by
    rw [BitVec.toNat_append, ← Nat.shiftLeft_add_eq_or_of_lt (unpackMantissa bits).isLt]
    rfl
  have bias : ((Format.binary64.exponentBias : Int) + (52 : Nat)) = 1075 := by decide
  unfold UnpackedFloat.unpack
  dsimp only
  by_cases marked : (unpackExponent bits).toNat = topExponent
  · rw [if_pos marked, if_pos (top.mpr marked)]
    by_cases empty : (unpackMantissa bits).toNat = 0
    · rw [if_pos empty, if_pos (none.mpr empty)]
      rfl
    · rw [if_neg empty, if_neg (mt none.mp empty)]
      rfl
  · rw [if_neg marked, if_neg (mt top.mp marked)]
    by_cases least : (unpackExponent bits).toNat = 0
    · rw [if_pos least, if_pos (low.mpr least)]
      by_cases empty : (unpackMantissa bits).toNat = 0
      · rw [dif_pos (none.mpr empty), empty]
        rfl
      · rw [dif_neg (mt none.mp empty)]
        unfold partsOf
        rw [bias, least]
        rfl
    · rw [if_neg least, if_neg (mt low.mp least)]
      unfold partsOf
      rw [bias, ← joined]

/-- The whole number that a form stands for. -/
def whole? : UnpackedFloat → Option Nat
  | .zero _ => some 0
  | .finite .positive mantissa exponent _ =>
    if 0 ≤ exponent then some (mantissa * 2 ^ exponent.toNat)
    else if mantissa % 2 ^ (-exponent).toNat = 0 then some (mantissa / 2 ^ (-exponent).toNat)
    else none
  | _ => none

/-- A form stands for a whole number exactly if both are the same multiple of a power of two. -/
theorem whole?_finite_iff {n m : Nat} {e : Int} {pos : 0 < m} :
    whole? (.finite .positive m e pos) = some n ↔ n * 2 ^ (-e).toNat = m * 2 ^ e.toNat := by
  by_cases nonneg : 0 ≤ e
  · have shift : (-e).toNat = 0 := by omega
    rw [whole?, if_pos nonneg, Option.some_inj, shift, Nat.pow_zero, Nat.mul_one, eq_comm]
  · have shift : e.toNat = 0 := by omega
    rw [whole?, if_neg nonneg, shift, Nat.pow_zero, Nat.mul_one]
    constructor
    · intro whole
      split at whole
      · next divides =>
        rw [← Option.some.inj whole]
        exact Nat.div_mul_cancel (Nat.dvd_of_mod_eq_zero divides)
      · cases whole
    · intro value
      rw [← value, if_pos (Nat.mul_mod_left ..), Nat.mul_div_cancel _ (Nat.two_pow_pos _)]

theorem toNat?_eq_whole? (x : Float) : toNat? x = whole? x.toModel.unpack := by
  unfold toNat?
  rw [unpack_eq_partsOf]
  generalize x.toModel.unpack = form
  cases form with
  | infinity sign | notANumber => rfl
  | zero sign =>
    dsimp only [partsOf, whole?]
    rw [if_neg (by simp), if_neg (by decide), if_pos (Nat.zero_mod _), Nat.zero_div]
  | finite sign m e pos =>
    cases sign with
    | positive => rfl
    | negative =>
      have some : m ≠ 0 := Nat.ne_of_gt pos
      simp [partsOf, whole?, some]

/-- Whether a double is a whole number depends on the number that it stands for alone. -/
theorem toNat?_congr {x y : Float} (h : (x == y) = true) : toNat? x = toNat? y := by
  have kept (form : UnpackedFloat) : whole? (unsignedZero form) = whole? form := by
    cases form <;> rfl
  rw [toNat?_eq_whole?, toNat?_eq_whole?, ← kept, (beq_iff_unsignedZero.mp h).2, kept]

theorem exponent_le_of_unpack {x : Float} {value : Dyadic} (h : unpack x = .finite value) :
    value.exponent ≤ 971 := by
  unfold unpack at h
  dsimp only at h
  split at h
  · split at h <;> cases h
  · next number =>
    unfold topExponent at number
    split at h
    · rw [← Unpacked.finite.inj h]
      dsimp only
      omega
    · rw [← Unpacked.finite.inj h]
      dsimp only
      omega

/-! ### Exact rounding -/

theorem Canonical.unique {x y : UnpackedFloat} {n : Nat} (hx : Canonical x n)
    (hy : Canonical y n) : x = y := by
  have unsigned {x : UnpackedFloat} (h : Canonical x n) : unsignedZero x = x := by cases h <;> rfl
  have compares : x.compare y = some .eq := by rw [hx.compare_eq hy, Nat.compare_eq_eq.mpr rfl]
  rw [← unsigned hx, ← unsigned hy]
  exact ((compare_eq_iff x y).mp compares).2

theorem shiftRight_mul_two_pow (m k : Nat) :
    (⟨m * 2 ^ k, false, false⟩ : ExtendedMantissa) >>> k = ⟨m, false, false⟩ := by
  induction k generalizing m with
  | zero => rw [Nat.pow_zero, Nat.mul_one]; rfl
  | succ k ih =>
    change ((⟨m * 2 ^ (k + 1), false, false⟩ : ExtendedMantissa) >>> k).shiftRightOne = _
    rw [Nat.pow_succ, Nat.mul_comm (2 ^ k), ← Nat.mul_assoc, ih]
    simp [ExtendedMantissa.shiftRightOne]

namespace Normalized

variable {m : Nat} {e : Int} (h : Normalized m e) (pos : 0 < m)

include h pos

/-- A normalized value is on its grid. -/
theorem gridExponent_eq : gridExponent m e = e := by
  obtain ⟨low, small, full⟩ := h
  have bits : m.log2 < 53 := (Nat.log2_lt (Nat.ne_of_gt pos)).mpr small
  unfold gridExponent
  rcases full with lowest | full
  · omega
  · have : 52 ≤ m.log2 := (Nat.le_log2 (Nat.ne_of_gt pos)).mpr full
    omega

/-- A normalized value is not changed by rounding, however fine the grid it is given on. -/
theorem roundWithAccuracy_eq (sign : Sign) (k : Nat) :
    roundWithAccuracy .binary64 sign (m * 2 ^ k) (e - k) .exact = .finite sign m e pos := by
  have grid : gridExponent (m * 2 ^ k) (e - k) = e := by
    rw [gridExponent_mul_two_pow pos, h.gridExponent_eq pos]
  have shift : (e - (e - k)).toNat = k := by omega
  have exponent : e - k + (k : Int) = e := by omega
  have rounded : (⟨m, false, false⟩ : ExtendedMantissa).roundedMantissa = m := rfl
  unfold roundWithAccuracy
  rw [shiftToTargetExponent_eq, grid, shift, shiftRight_mul_two_pow, exponent]
  dsimp only
  rw [rounded, shiftToTargetExponent_of_lt h.small h.low]
  exact dif_neg (Nat.ne_of_gt pos)

/-- A normalized value that is packed is taken apart into itself. -/
theorem unpack_pack (high : e ≤ 971) :
    (Float.ofModel (.pack (.finite .positive m e pos))).toModel.unpack =
      .finite .positive m e pos := by
  obtain ⟨fields, packed, bits⟩ := h.exists_fields pos
  have finite : fields.bits = finiteBits m e := by
    rw [bits]
    exact Nat.min_eq_left (Nat.le_of_lt (h.finiteBits_lt high))
  have canonical := fields.canonical
  rw [ofModel_pack packed]
  rw [finite] at canonical
  exact canonical.unique (.finite m e pos h high)

end Normalized

/-! ### Doubles of whole numbers -/

section

variable {n m : Nat} {e : Int}

/-- A small whole number is not rounded when it is converted. -/
theorem unpack_toFloat_toUInt64 (value : n * 2 ^ (-e).toNat = m) (nonpos : e ≤ 0)
    (h : Normalized m e) (pos : 0 < m) (small : n < 2 ^ 53) :
    n.toUInt64.toFloat.toModel.unpack = .finite .positive m e pos := by
  have same : n.toUInt64.toNat = n := Nat.mod_eq_of_lt (Nat.lt_trans small (by decide))
  have exponent : (0 : Int) - (-e).toNat = e := by omega
  have some : 0 < n := by
    refine Nat.pos_of_ne_zero fun none => ?_
    rw [none, Nat.zero_mul] at value
    omega
  have grid : gridExponent n 0 = e := by
    rw [← gridExponent_mul_two_pow some 0 (-e).toNat, value, exponent, h.gridExponent_eq pos]
  have exact := h.roundWithAccuracy_eq pos .positive 0
  rw [Nat.pow_zero, Nat.mul_one, Int.natCast_zero, Int.sub_zero] at exact
  have rounded : UnpackedFloat.ofUInt64 .binary64 n.toUInt64 = .finite .positive m e pos := by
    unfold UnpackedFloat.ofUInt64 UnpackedFloat.ofNat UnpackedFloat.ofInt UnpackedFloat.normalize
    rw [same, Int.compare_eq_gt.mpr (Int.natCast_pos.mpr some)]
    change round .binary64 .positive n 0 = _
    rw [round_eq, grid, Int.zero_sub, value, exponent, exact]
  have packed := h.unpack_pack pos (by omega)
  rw [← rounded] at packed ⊢
  exact packed

/-- A small whole number is multiplied by one, which does not round it either. -/
theorem unpack_ofNat_of_lt (value : n * 2 ^ (-e).toNat = m) (nonpos : e ≤ 0)
    (h : Normalized m e) (pos : 0 < m) (small : n < 2 ^ 53) :
    (ofNat n).toModel.unpack = .finite .positive m e pos := by
  have product : ofNat n = n.toUInt64.toFloat * Float.ofBits 0x3FF0000000000000 :=
    dif_pos ⟨small, by decide⟩
  have mul_eq (x y : Float) : x * y =
      .ofModel (.pack (UnpackedFloat.mul .binary64 x.toModel.unpack y.toModel.unpack)) := rfl
  have one : (Float.ofBits 0x3FF0000000000000).toModel.unpack =
      .finite .positive (2 ^ 52) (-52) (by decide) := rfl
  have exact := h.roundWithAccuracy_eq pos .positive 52
  rw [product, mul_eq, one, unpack_toFloat_toUInt64 value nonpos h pos small]
  change (Float.ofModel (.pack (roundWithAccuracy .binary64 .positive (m * 2 ^ 52) (e - (52 : Nat))
    .exact))).toModel.unpack = _
  rw [exact, h.unpack_pack pos (by omega)]

/-- A large whole number that has few enough bits is not rounded. -/
theorem unpack_ofNat_of_le (value : n = m * 2 ^ e.toNat) (nonneg : 0 ≤ e) (h : Normalized m e)
    (pos : 0 < m) (high : e ≤ 971) (large : 2 ^ 53 ≤ n) :
    (ofNat n).toModel.unpack = .finite .positive m e pos := by
  have some : n ≠ 0 := by omega
  have scientific : ofNat n = .ofModel (.pack (UnpackedFloat.ofScientific .binary64 n 0)) :=
    dif_neg fun fast => Nat.not_lt_of_le large fast.1
  have exact := h.roundWithAccuracy_eq pos .positive (e.toNat + 53)
  have mantissa : n <<< 53 * 10 ^ (0 : Int).toNat = m * 2 ^ (e.toNat + 53) := by
    rw [Nat.shiftLeft_eq, Int.toNat_zero, Nat.pow_zero, Nat.mul_one, value, Nat.mul_assoc,
      Nat.pow_add]
  have exponent : -(Format.binary64.mantissaBits : Int) + 0 = e - ((e.toNat + 53 : Nat) : Int) := by
    change -53 + 0 = _
    omega
  have far : ¬(0 : Int) < -((2 ^ Format.binary64.exponentBits : Int) + n.log2) := by
    have bits : (2 ^ Format.binary64.exponentBits : Int) = 2048 := rfl
    omega
  have rounded : UnpackedFloat.ofScientific .binary64 n 0 = .finite .positive m e pos := by
    unfold UnpackedFloat.ofScientific
    rw [dif_neg some, if_neg (by decide), if_neg far, if_pos (Int.le_refl 0)]
    change roundWithAccuracy .binary64 .positive (n <<< 53 * 10 ^ (0 : Int).toNat)
      (-(Format.binary64.mantissaBits : Int) + 0) .exact = _
    rw [mantissa, exponent, exact]
  rw [scientific, rounded, h.unpack_pack pos high]

/-- A whole number that is the value of a double becomes that double. -/
theorem unpack_ofNat (value : n * 2 ^ (-e).toNat = m * 2 ^ e.toNat) (h : Normalized m e)
    (pos : 0 < m) (high : e ≤ 971) : (ofNat n).toModel.unpack = .finite .positive m e pos := by
  by_cases small : n < 2 ^ 53
  · have nonpos : e ≤ 0 := by
      by_contra above
      have shift : (-e).toNat = 0 := by omega
      have full : 2 ^ 52 ≤ m := h.full.resolve_left (by omega)
      have twice : 2 ^ 1 ≤ 2 ^ e.toNat := Nat.pow_le_pow_right (by decide) (by omega)
      have large := Nat.mul_le_mul full twice
      rw [← value, shift, Nat.pow_zero, Nat.mul_one] at large
      omega
    have shift : e.toNat = 0 := by omega
    rw [shift, Nat.pow_zero, Nat.mul_one] at value
    exact unpack_ofNat_of_lt value nonpos h pos small
  · have nonneg : 0 ≤ e := by
      by_contra below
      have shift : e.toNat = 0 := by omega
      have bound := h.small
      have grown : n ≤ n * 2 ^ (-e).toNat := Nat.le_mul_of_pos_right _ (Nat.two_pow_pos _)
      rw [value, shift, Nat.pow_zero, Nat.mul_one] at grown
      omega
    have shift : (-e).toNat = 0 := by omega
    rw [shift, Nat.pow_zero, Nat.mul_one] at value
    exact unpack_ofNat_of_le value nonneg h pos high (Nat.le_of_not_lt small)

/-- A double that is a whole number compares as equal to the double of that number. -/
theorem beq_ofNat_of_toNat? {x : Float} (h : toNat? x = some n) : (x == ofNat n) = true := by
  rw [toNat?_eq_whole?] at h
  have normalized {sign m e pos} (h : x.toModel.unpack = .finite sign m e pos) : Normalized m e :=
    normalized_of_unpack ((unpack_eq x).symm.trans h)
  have high : ∀ value, unpack x = .finite value → value.exponent ≤ 971 :=
    fun _ => exponent_le_of_unpack
  rw [unpack_eq_partsOf] at high
  rw [beq_iff_unsignedZero, isNaN_eq]
  generalize x.toModel.unpack = form at *
  cases form with
  | infinity sign | notANumber => cases h
  | zero sign =>
    rw [← Option.some.inj h]
    exact ⟨rfl, rfl⟩
  | finite sign m e pos =>
    cases sign with
    | negative => cases h
    | positive =>
      rw [unpack_ofNat (whole?_finite_iff.mp h) (normalized rfl) pos (high _ rfl)]
      exact ⟨rfl, rfl⟩

theorem toNat?_ofNat (small : n < 2 ^ 53) : toNat? (ofNat n) = some n := by
  rw [toNat?_eq_whole?]
  by_cases none : n = 0
  · rw [none]
    rfl
  · have bits : n.log2 < 53 := (Nat.log2_lt none).mpr small
    obtain ⟨shift, few⟩ : ∃ shift, n.log2 + shift = 52 := ⟨52 - n.log2, by omega⟩
    have scaled : n * 2 ^ shift < 2 ^ 53 := mul_two_pow_lt none (by omega) small
    have full : 2 ^ 52 ≤ n * 2 ^ shift := by
      rw [← few, Nat.pow_add]
      exact Nat.mul_le_mul_right _ (Nat.log2_self_le none)
    have normalized : Normalized (n * 2 ^ shift) (-(shift : Int)) := ⟨by omega, scaled, .inr full⟩
    have value : n * 2 ^ (-(-(shift : Int))).toNat =
        n * 2 ^ shift * 2 ^ (-(shift : Int)).toNat := by
      rw [Int.neg_neg, Int.toNat_natCast, Int.toNat_neg_natCast, Nat.pow_zero, Nat.mul_one]
    rw [unpack_ofNat value normalized (by omega) (by omega)]
    exact whole?_finite_iff.mpr value

/-- A double is a small whole number exactly if it compares as equal to the double of that
number. -/
theorem toNat?_eq_some_iff {x : Float} (small : n < 2 ^ 53) :
    toNat? x = some n ↔ (x == ofNat n) = true := by
  refine ⟨beq_ofNat_of_toNat?, fun equal => ?_⟩
  rw [toNat?_congr equal, toNat?_ofNat small]

end

end DarijaScript.Decimal
