import Mathlib
import DarijaScript.Decimal.Shortest

/-!
# Doubles and their fields

A double that is not negative and stands for a number is put together from an exponent field and a
fraction, and taking it apart gives them back. So such doubles are equal as soon as they compare as
equal.
-/

namespace DarijaScript.Decimal

open Float.Model UnpackedFloat

/-- The exponent field and the fraction of a double that is not negative and stands for a number. -/
structure Fields where
  field : Nat
  fraction : Nat
  field_le : field ≤ topExponent
  fraction_lt : fraction < 2 ^ 52
  number : field = topExponent → fraction = 0

namespace Fields

variable (fields : Fields)

/-- The double with these fields. -/
def toFloat : Float := ofFields false fields.field fields.fraction

/-- The bits of the double as a number. -/
def bits : Nat := fields.field * 2 ^ 52 + fields.fraction

theorem bits_lt : fields.bits < 2 ^ 63 := by
  have := fields.field_le
  have := fields.fraction_lt
  unfold bits
  unfold topExponent at *
  omega

/-- The bits of the double. -/
def vector : BitVec Format.binary64.numBits :=
  packComponents .binary64 .positive (BitVec.ofNat 11 fields.field) (BitVec.ofNat 52 fields.fraction)

theorem toNat_vector : fields.vector.toNat = fields.bits := by
  have := fields.field_le
  have small := fields.fraction_lt
  have field : fields.field % 2 ^ 11 = fields.field := by
    unfold topExponent at *
    omega
  unfold vector packComponents bits
  simp only [Sign.toBitVec, BitVec.toNat_append, BitVec.toNat_ofNat]
  rw [field, Nat.mod_eq_of_lt small, ← Nat.shiftLeft_add_eq_or_of_lt small]
  simp [Nat.shiftLeft_eq]

theorem vector_eq_ofNat : fields.vector = (UInt64.ofNat fields.bits).toBitVec := by
  apply BitVec.eq_of_toNat_eq
  have small := fields.bits_lt
  rw [toNat_vector, UInt64.toNat_toBitVec, UInt64.toNat_ofNat', Nat.mod_eq_of_lt]
  exact Nat.lt_trans small (by decide)

theorem toNat_field : (BitVec.ofNat 11 fields.field).toNat = fields.field := by
  have := fields.field_le
  unfold topExponent at *
  simp only [BitVec.toNat_ofNat]
  omega

theorem toNat_fraction : (BitVec.ofNat 52 fields.fraction).toNat = fields.fraction := by
  have := fields.fraction_lt
  simp only [BitVec.toNat_ofNat]
  omega

theorem unpackSign_vector : unpackSign fields.vector = 0#1 := by
  apply BitVec.eq_of_toNat_eq
  have := fields.bits_lt
  have sign (b : BitVec Format.binary64.numBits) : (unpackSign b).toNat = b.toNat / 2 ^ 63 % 2 := by
    simp [unpackSign, BitVec.extractLsb, Nat.shiftRight_eq_div_pow]
  rw [sign, toNat_vector]
  simp only [BitVec.toNat_ofNat]
  omega

/-- What kind of double it is. -/
inductive Kind : UnpackedFloat → Prop
  | infinite (top : fields.field = topExponent) (none : fields.fraction = 0) :
      Kind (.infinity .positive)
  | zero (low : fields.field = 0) (none : fields.fraction = 0) : Kind (.zero .positive)
  | subnormal (low : fields.field = 0) (pos : 0 < fields.fraction) :
      Kind (.finite .positive fields.fraction (-1074) pos)
  | normal (low : 0 < fields.field) (top : fields.field < topExponent)
      (pos : 0 < 2 ^ 52 + fields.fraction) :
      Kind (.finite .positive (2 ^ 52 + fields.fraction) ((fields.field : Int) - 1075) pos)

theorem kind : fields.Kind (UnpackedFloat.unpack .binary64 fields.vector) := by
  have fieldNat := fields.toNat_field
  have fractionNat := fields.toNat_fraction
  have field_le := fields.field_le
  have number := fields.number
  have sign : Sign.ofBitVec (unpackSign fields.vector) = .positive := by
    rw [unpackSign_vector]
    rfl
  have exponent : unpackExponent fields.vector = BitVec.ofNat 11 fields.field :=
    unpackExponent_packComponents
  have mantissa : unpackMantissa fields.vector = BitVec.ofNat 52 fields.fraction :=
    unpackMantissa_packComponents
  unfold UnpackedFloat.unpack
  dsimp only
  split
  · next top =>
    have top : fields.field = topExponent := by
      rw [exponent] at top
      rw [← fieldNat, top]
      rfl
    have none := number top
    rw [if_pos (by rw [mantissa, none]), sign]
    exact .infinite top none
  · next notTop =>
    have notTop : fields.field < topExponent := by
      refine Nat.lt_of_le_of_ne field_le fun top => notTop ?_
      rw [exponent, top]
      rfl
    split
    · next low =>
      have low : fields.field = 0 := by
        rw [exponent] at low
        rw [← fieldNat, low]
        rfl
      split
      · next none =>
        have none : fields.fraction = 0 := by
          rw [mantissa] at none
          rw [← fractionNat, none]
          rfl
        rw [sign]
        exact .zero low none
      · next some =>
        have pos : 0 < fields.fraction := by
          refine Nat.pos_of_ne_zero fun none => some ?_
          rw [mantissa, none]
        have same : UnpackedFloat.finite (Sign.ofBitVec (unpackSign fields.vector))
            (unpackMantissa fields.vector).toNat
            ((unpackExponent fields.vector).toNat -
              (Format.binary64.exponentBias + Format.binary64.mantissaBitsWithoutImplicit : Int) + 1)
            (by rw [mantissa, fractionNat]; exact pos) =
            .finite .positive fields.fraction (-1074) pos := by
          rw [UnpackedFloat.finite.injEq, sign, mantissa, fractionNat, exponent, fieldNat, low]
          exact ⟨rfl, rfl, by decide⟩
        rw [same]
        exact .subnormal low pos
    · next notLow =>
      have low : 0 < fields.field := by
        refine Nat.pos_of_ne_zero fun low => notLow ?_
        rw [exponent, low]
      have pos : 0 < 2 ^ 52 + fields.fraction := by omega
      have same : UnpackedFloat.finite (Sign.ofBitVec (unpackSign fields.vector))
          (1#1 ++ unpackMantissa fields.vector).toNat
          ((unpackExponent fields.vector).toNat -
            (Format.binary64.exponentBias + Format.binary64.mantissaBitsWithoutImplicit : Int))
          (by rw [BitVec.toNat_append]; exact Nat.lt_of_lt_of_le (by decide) Nat.left_le_or) =
          .finite .positive (2 ^ 52 + fields.fraction) ((fields.field : Int) - 1075) pos := by
        have joined : (1#1 ++ unpackMantissa fields.vector).toNat = 2 ^ 52 + fields.fraction := by
          have small := fields.fraction_lt
          rw [mantissa, BitVec.toNat_append, fractionNat, ← Nat.shiftLeft_add_eq_or_of_lt small]
          rfl
        rw [UnpackedFloat.finite.injEq, sign, joined, exponent, fieldNat]
        exact ⟨rfl, rfl, rfl⟩
      rw [same]
      exact .normal low notTop pos

/-- The bits of the double are kept. -/
theorem pack_unpack : UnpackedFloat.pack .binary64 (UnpackedFloat.unpack .binary64 fields.vector) =
    fields.vector := by
  have small := fields.fraction_lt
  have kind := fields.kind
  generalize UnpackedFloat.unpack .binary64 fields.vector = unpacked at kind
  unfold vector
  cases kind with
  | infinite top none =>
    rw [top, none]
    rfl
  | zero low none =>
    rw [low, none]
    rfl
  | subnormal low pos =>
    have bits : ¬fields.fraction.log2 + 1 = Format.binary64.mantissaBits := by
      have := (Nat.log2_lt (Nat.ne_of_gt pos)).mpr small
      change ¬fields.fraction.log2 + 1 = 53
      omega
    unfold UnpackedFloat.pack
    rw [if_neg (by decide), if_neg bits, low]
  | normal low top pos =>
    have bits : (2 ^ 52 + fields.fraction).log2 + 1 = Format.binary64.mantissaBits := by
      have : (2 ^ 52 + fields.fraction).log2 = 52 :=
        (Nat.log2_eq_iff (Nat.ne_of_gt pos)).mpr ⟨by omega, by omega⟩
      rw [this]
      rfl
    have exponent : ((fields.field : Int) - 1075 + Format.binary64.exponentBias +
        Format.binary64.mantissaBitsWithoutImplicit).toNat = fields.field := by
      change ((fields.field : Int) - 1075 + 1023 + 52).toNat = fields.field
      omega
    have representable : ¬2 ^ Format.binary64.exponentBits ≤ fields.field + 1 := by
      change ¬2048 ≤ fields.field + 1
      unfold topExponent at top
      omega
    unfold UnpackedFloat.pack
    dsimp only
    rw [exponent, if_neg representable, if_pos bits]
    congr 1
    apply BitVec.eq_of_toNat_eq
    simp

theorem toBitVec_toFloat : fields.toFloat.toBits.toBitVec = fields.vector := by
  have same : UInt64.ofNat (0 + fields.field * 2 ^ 52 + fields.fraction) =
      UInt64.ofNat fields.bits := by
    rw [Nat.zero_add]
    rfl
  calc fields.toFloat.toBits.toBitVec
      = UnpackedFloat.pack .binary64 (UnpackedFloat.unpack .binary64
          (UInt64.ofNat (0 + fields.field * 2 ^ 52 + fields.fraction)).toBitVec) := rfl
    _ = UnpackedFloat.pack .binary64 (UnpackedFloat.unpack .binary64 fields.vector) := by
      rw [same, vector_eq_ofNat]
    _ = fields.vector := fields.pack_unpack

theorem toNat_toBits : fields.toFloat.toBits.toNat = fields.bits := by
  rw [← UInt64.toNat_toBitVec, toBitVec_toFloat, toNat_vector]

theorem unpack_toModel :
    fields.toFloat.toModel.unpack = UnpackedFloat.unpack .binary64 fields.vector := by
  rw [← toBitVec_toFloat]
  rfl

/-- The parts of the double. -/
theorem unpack_toFloat : unpack fields.toFloat =
    if fields.field = topExponent then .infinite false
    else if fields.field = 0 then .finite ⟨false, fields.fraction, -1074⟩
    else .finite ⟨false, 2 ^ 52 + fields.fraction, (fields.field : Int) - 1075⟩ := by
  have small := fields.bits_lt
  have field_le := fields.field_le
  have fraction_lt := fields.fraction_lt
  have field : fields.bits / 2 ^ 52 % 2 ^ 11 = fields.field := by
    unfold bits topExponent at *
    omega
  have fraction : fields.bits % 2 ^ 52 = fields.fraction := by
    unfold bits
    omega
  have positive : ¬2 ^ 63 ≤ fields.bits := by omega
  unfold unpack
  simp only [toNat_toBits, field, fraction, positive, decide_false]
  split
  · next top => rw [if_pos (fields.number top)]
  · rfl

theorem isInf_toFloat : fields.toFloat.isInf = decide (fields.field = topExponent) := by
  have kind := fields.kind
  unfold Float.isInf Float.Model.isInf
  rw [unpack_toModel]
  generalize UnpackedFloat.unpack .binary64 fields.vector = unpacked at kind
  cases kind with
  | infinite top => simp [UnpackedFloat.isInf, top]
  | zero low => simp [UnpackedFloat.isInf, low, topExponent]
  | subnormal low => simp [UnpackedFloat.isInf, low, topExponent]
  | normal low top => simp [UnpackedFloat.isInf, Nat.ne_of_lt top]

/-- Doubles of this kind that compare as equal are equal. -/
theorem beq_iff (others : Fields) : (fields.toFloat == others.toFloat) = true ↔
    fields.field = others.field ∧ fields.fraction = others.fraction := by
  have compares : (fields.toFloat == others.toFloat) =
      (UnpackedFloat.unpack .binary64 fields.vector).beq
        (UnpackedFloat.unpack .binary64 others.vector) := by
    rw [← unpack_toModel, ← unpack_toModel]
    rfl
  have small := fields.fraction_lt
  have small' := others.fraction_lt
  have kind := fields.kind
  have kind' := others.kind
  rw [compares]
  generalize UnpackedFloat.unpack .binary64 fields.vector = unpacked at kind
  generalize UnpackedFloat.unpack .binary64 others.vector = unpacked' at kind'
  have ordered (e e' : Int) (m m' : Nat) (pos : 0 < m) (pos' : 0 < m') :
      (UnpackedFloat.finite .positive m e pos).beq (.finite .positive m' e' pos') = true ↔
        e = e' ∧ m = m' := by
    simp [UnpackedFloat.beq, UnpackedFloat.compare, Ordering.then_eq_eq]
  have apart {u v : UnpackedFloat} {order : Ordering} (h : u.compare v = some order)
      (other : order ≠ .eq) : ¬u.beq v = true := by
    simp [UnpackedFloat.beq, h, other]
  cases kind with
  | infinite top none =>
    cases kind' with
    | infinite top' none' => exact iff_of_true rfl ⟨top.trans top'.symm, none.trans none'.symm⟩
    | zero low => exact iff_of_false (apart rfl (by decide)) (by rw [top, low]; simp [topExponent])
    | subnormal low => exact iff_of_false (apart rfl (by decide)) (by rw [top, low]; simp [topExponent])
    | normal low top' => exact iff_of_false (apart rfl (by decide)) (by omega)
  | zero low none =>
    cases kind' with
    | infinite top => exact iff_of_false (apart rfl (by decide)) (by rw [top, low]; simp [topExponent])
    | zero low' none' => exact iff_of_true rfl ⟨low.trans low'.symm, none.trans none'.symm⟩
    | subnormal low' pos => exact iff_of_false (apart rfl (by decide)) (by omega)
    | normal low' => exact iff_of_false (apart rfl (by decide)) (by omega)
  | subnormal low pos =>
    cases kind' with
    | infinite top => exact iff_of_false (apart rfl (by decide)) (by rw [top, low]; simp [topExponent])
    | zero low' none => exact iff_of_false (apart rfl (by decide)) (by omega)
    | subnormal low' => rw [ordered, low, low']; simp
    | normal low' => rw [ordered]; omega
  | normal low top =>
    cases kind' with
    | infinite top' => exact iff_of_false (apart rfl (by decide)) (by omega)
    | zero low' => exact iff_of_false (apart rfl (by decide)) (by omega)
    | subnormal low' => rw [ordered]; omega
    | normal low' => rw [ordered]; omega

theorem eq_of_beq {fields others : Fields} (h : (fields.toFloat == others.toFloat) = true) :
    fields.toFloat = others.toFloat := by
  obtain ⟨field, fraction⟩ := (fields.beq_iff others).mp h
  unfold toFloat
  rw [field, fraction]

theorem beq_self : (fields.toFloat == fields.toFloat) = true :=
  (fields.beq_iff fields).mpr ⟨rfl, rfl⟩

end Fields

end DarijaScript.Decimal
