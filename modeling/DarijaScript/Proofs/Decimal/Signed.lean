import DarijaScript.Proofs.Decimal.Whole

/-!
# Negative doubles

The sign of a double is a bit of its own, so negating a double changes its sign and nothing else: it is
taken apart into the same mantissa and the same exponent.
-/

namespace DarijaScript.Decimal

open Float.Model UnpackedFloat

/-! ### Signs -/

theorem ofBitVec_unpackSign {spec : Format} (sign : Sign) (exponent : BitVec spec.exponentBits)
    (mantissa : BitVec spec.mantissaBitsWithoutImplicit) :
    Sign.ofBitVec (unpackSign (packComponents spec sign exponent mantissa)) = sign := by
  have bit : unpackSign (packComponents spec sign exponent mantissa) = sign.toBitVec := by
    ext i hi
    have first : i = 0 := by omega
    subst first
    simp [unpackSign, packComponents, BitVec.getLsbD_append, BitVec.getElem_append]
  rw [bit]
  cases sign <;> rfl

theorem unpack_packComponents_neg (sign : Sign) (exponent : BitVec Format.binary64.exponentBits)
    (mantissa : BitVec Format.binary64.mantissaBitsWithoutImplicit) :
    UnpackedFloat.unpack .binary64 (packComponents .binary64 (-sign) exponent mantissa) =
      (UnpackedFloat.unpack .binary64 (packComponents .binary64 sign exponent mantissa)).neg := by
  unfold UnpackedFloat.unpack
  simp only [ofBitVec_unpackSign, unpackExponent_packComponents, unpackMantissa_packComponents]
  split
  · split <;> rfl
  · split
    · split <;> rfl
    · rfl

/-- A form and its negation are packed with the same exponent and mantissa. -/
theorem unpack_pack_neg (form : UnpackedFloat) :
    UnpackedFloat.unpack .binary64 (UnpackedFloat.pack .binary64 form.neg) =
      (UnpackedFloat.unpack .binary64 (UnpackedFloat.pack .binary64 form)).neg := by
  cases form with
  | notANumber => rfl
  | infinity sign => exact unpack_packComponents_neg ..
  | zero sign => exact unpack_packComponents_neg ..
  | finite sign m e pos =>
    unfold UnpackedFloat.neg UnpackedFloat.pack
    dsimp only
    split
    · exact unpack_packComponents_neg ..
    · split <;> exact unpack_packComponents_neg ..

/-- A normalized value is kept when it is packed, whatever its sign. -/
theorem Normalized.unpack_pack_signed {m : Nat} {e : Int} (h : Normalized m e) (pos : 0 < m)
    (high : e ≤ 971) (sign : Sign) :
    UnpackedFloat.unpack .binary64 (UnpackedFloat.pack .binary64 (.finite sign m e pos)) =
      .finite sign m e pos := by
  have kept := h.unpack_pack pos high
  cases sign with
  | positive => exact kept
  | negative =>
    exact (unpack_pack_neg (.finite .positive m e pos)).trans (congrArg UnpackedFloat.neg kept)

/-- The form of a finite double is normalized, and no larger than the largest one. -/
theorem normalized_of_toModel {x : Float} {sign : Sign} {m : Nat} {e : Int} {pos : 0 < m}
    (form : x.toModel.unpack = .finite sign m e pos) : Normalized m e ∧ e ≤ 971 :=
  ⟨normalized_of_unpack ((unpack_eq x).symm.trans form),
    exponent_le_of_unpack ((unpack_eq_partsOf x).trans (congrArg partsOf form))⟩

/-- The form of a double is kept when it is packed. -/
theorem unpack_pack_unpack (x : Float) :
    UnpackedFloat.unpack .binary64 (UnpackedFloat.pack .binary64 x.toModel.unpack) =
      x.toModel.unpack := by
  cases form : x.toModel.unpack with
  | notANumber => rfl
  | infinity sign | zero sign => cases sign <;> rfl
  | finite sign m e pos =>
    obtain ⟨normalized, high⟩ := normalized_of_toModel form
    exact normalized.unpack_pack_signed pos high sign

theorem unpack_toModel_neg (x : Float) : (-x).toModel.unpack = x.toModel.unpack.neg :=
  (unpack_pack_neg x.toModel.unpack).trans (congrArg UnpackedFloat.neg (unpack_pack_unpack x))

/-! ### Integer parts -/

/-- The integer part of a form, cut towards zero. -/
def integer? : UnpackedFloat → Option Int
  | .zero _ => some 0
  | .finite sign mantissa exponent _ =>
    some (sign.apply (if 0 ≤ exponent then mantissa * 2 ^ exponent.toNat
      else mantissa / 2 ^ (-exponent).toNat : Nat))
  | _ => none

theorem truncatedInt?_eq_integer? (x : Float) : truncatedInt? x = integer? x.toModel.unpack := by
  unfold truncatedInt?
  rw [unpack_eq_partsOf]
  cases x.toModel.unpack with
  | infinity sign | notANumber => rfl
  | zero sign =>
    dsimp only [partsOf, integer?]
    rw [if_neg (by decide : ¬(0 : Int) ≤ -1074), Nat.zero_div]
    cases sign <;> rfl
  | finite sign m e pos => cases sign <;> rfl

theorem integer?_neg (form : UnpackedFloat) :
    integer? form.neg = (integer? form).map (-·) := by
  cases form with
  | infinity sign | notANumber | zero sign => rfl
  | finite sign m e pos =>
    cases sign with
    | positive => rfl
    | negative => exact congrArg some (Int.neg_neg _).symm

theorem truncatedInt?_neg (x : Float) : truncatedInt? (-x) = (truncatedInt? x).map (-·) := by
  rw [truncatedInt?_eq_integer?, unpack_toModel_neg, integer?_neg, truncatedInt?_eq_integer?]

/-- A whole number is its own integer part. -/
theorem truncatedInt?_of_toNat? {x : Float} {n : Nat} (h : toNat? x = some n) :
    truncatedInt? x = some (n : Int) := by
  rw [toNat?_eq_whole?] at h
  rw [truncatedInt?_eq_integer?]
  generalize x.toModel.unpack = form at h ⊢
  cases form with
  | infinity sign | notANumber => cases h
  | zero sign =>
    cases h
    rfl
  | finite sign m e pos =>
    cases sign with
    | negative => cases h
    | positive =>
      rw [whole?] at h
      rw [integer?]
      split at h
      · next nonneg =>
        rw [if_pos nonneg, Option.some.inj h]
        rfl
      · next negative =>
        split at h
        · rw [if_neg negative, Option.some.inj h]
          rfl
        · cases h

theorem truncatedInt?_ofNat {n : Nat} (small : n < 2 ^ 53) :
    truncatedInt? (ofNat n) = some (n : Int) :=
  truncatedInt?_of_toNat? (toNat?_ofNat small)

theorem truncatedInt?_ofInt {n : Int} (small : n.natAbs < 2 ^ 53) :
    truncatedInt? (ofInt n) = some n := by
  have whole : truncatedInt? (Float.ofNat n.natAbs) = some (n.natAbs : Int) :=
    truncatedInt?_ofNat small
  unfold ofInt
  split
  · next negative =>
    rw [truncatedInt?_neg, whole, Option.map_some]
    exact congrArg some (by omega)
  · next nonneg =>
    rw [whole]
    exact congrArg some (by omega)

end DarijaScript.Decimal
