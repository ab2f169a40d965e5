import DarijaScript.Machine.Agenda
import DarijaScript.Proofs.Decimal.Fields

/-!
# The order of doubles

Doubles that are not negative and stand for numbers are ordered as their bits are, and so are their
places in the order of all doubles.
-/

namespace DarijaScript.Decimal

open Float.Model UnpackedFloat

/-! ### Canonical forms -/

/-- The value `mantissa * 2 ^ exponent` is written in the only way in which a double has it. -/
structure Normalized (mantissa : Nat) (exponent : Int) : Prop where
  low : -1074 ≤ exponent
  small : mantissa < 2 ^ 53
  full : exponent = -1074 ∨ 2 ^ 52 ≤ mantissa

/-- The bits of a finite double as a number: they count the exponent from the least one, and the
mantissa. -/
def finiteBits (mantissa : Nat) (exponent : Int) : Nat :=
  (exponent + 1074).toNat * 2 ^ 52 + mantissa

/-- A double that is not negative and stands for a number, and its bits as a number. -/
inductive Canonical : UnpackedFloat → Nat → Prop
  | infinite : Canonical (.infinity .positive) (topExponent * 2 ^ 52)
  | zero : Canonical (.zero .positive) 0
  | finite (mantissa : Nat) (exponent : Int) (pos : 0 < mantissa)
      (normalized : Normalized mantissa exponent) (high : exponent ≤ 971) :
      Canonical (.finite .positive mantissa exponent pos) (finiteBits mantissa exponent)

theorem Normalized.compare_eq {m m' : Nat} {e e' : Int} (h : Normalized m e)
    (h' : Normalized m' e') :
    (compare e e').then (compare m m') = compare (finiteBits m e) (finiteBits m' e') := by
  obtain ⟨low, small, full⟩ := h
  obtain ⟨low', small', full'⟩ := h'
  unfold finiteBits
  rcases Int.lt_trichotomy e e' with less | rfl | greater
  · have bits : (e + 1074).toNat * 2 ^ 52 + m < (e' + 1074).toNat * 2 ^ 52 + m' := by omega
    rw [Int.compare_eq_lt.mpr less, Nat.compare_eq_lt.mpr bits]
    rfl
  · rw [Int.compare_eq_eq.mpr rfl]
    change compare m m' = _
    rcases Nat.lt_trichotomy m m' with less | rfl | greater
    · rw [Nat.compare_eq_lt.mpr less, eq_comm, Nat.compare_eq_lt]
      omega
    · rw [Nat.compare_eq_eq.mpr rfl, eq_comm, Nat.compare_eq_eq]
    · rw [Nat.compare_eq_gt.mpr greater, eq_comm, Nat.compare_eq_gt]
      omega
  · have bits : (e' + 1074).toNat * 2 ^ 52 + m' < (e + 1074).toNat * 2 ^ 52 + m := by omega
    rw [Int.compare_eq_gt.mpr greater, Nat.compare_eq_gt.mpr bits]
    rfl

theorem Normalized.finiteBits_lt {m : Nat} {e : Int} (h : Normalized m e) (high : e ≤ 971) :
    finiteBits m e < topExponent * 2 ^ 52 := by
  obtain ⟨low, small, -⟩ := h
  unfold finiteBits topExponent
  omega

theorem finiteBits_pos {m : Nat} (pos : 0 < m) (e : Int) : 0 < finiteBits m e :=
  Nat.lt_of_lt_of_le pos (Nat.le_add_left _ _)

/-- Canonical forms are ordered as the bits are. -/
theorem Canonical.compare_eq {x y : UnpackedFloat} {n k : Nat} (hx : Canonical x n)
    (hy : Canonical y k) : x.compare y = some (compare n k) := by
  have before {a b : Nat} (h : a < b) : some Ordering.lt = some (compare a b) := by
    rw [Nat.compare_eq_lt.mpr h]
  have behind {a b : Nat} (h : b < a) : some Ordering.gt = some (compare a b) := by
    rw [Nat.compare_eq_gt.mpr h]
  have same (a : Nat) : some Ordering.eq = some (compare a a) := by
    rw [Nat.compare_eq_eq.mpr rfl]
  cases hx with
  | infinite =>
    cases hy with
    | infinite => exact same _
    | zero => exact behind (by decide)
    | finite m e pos normalized high => exact behind (normalized.finiteBits_lt high)
  | zero =>
    cases hy with
    | infinite => exact before (by decide)
    | zero => exact same _
    | finite m e pos => exact before (finiteBits_pos pos e)
  | finite m e pos normalized high =>
    cases hy with
    | infinite => exact before (normalized.finiteBits_lt high)
    | zero => exact behind (finiteBits_pos pos e)
    | finite m' e' pos' normalized' high' => exact congrArg some (normalized.compare_eq normalized')

theorem Canonical.isNaN_eq {x : UnpackedFloat} {n : Nat} (h : Canonical x n) : x.isNaN = false := by
  cases h <;> rfl

/-! ### Comparisons -/

theorem lt_iff_compare {x y : Float} :
    x < y ↔ x.toModel.unpack.compare y.toModel.unpack = some .lt := by
  change Float.lt x y = true ↔ _
  unfold Float.lt
  rw [decide_eq_true_iff]
  change (x.toModel.unpack.compare y.toModel.unpack == some .lt) = true ↔ _
  exact beq_iff_eq

theorem le_iff_compare {x y : Float} :
    x ≤ y ↔ (x.toModel.unpack.compare y.toModel.unpack).any (·.isLE) = true := by
  change Float.le x y = true ↔ _
  unfold Float.le
  rw [decide_eq_true_iff]
  rfl

theorem isNaN_eq (x : Float) : x.isNaN = x.toModel.unpack.isNaN := rfl

theorem orderKey_eq (x : Float) : orderKey x =
    if x.toBits < 0x8000000000000000 then x.toBits + 0x8000000000000000 else ~~~x.toBits := rfl

/-! ### Doubles with fields -/

namespace Fields

variable (fields others : Fields)

/-- Every double with fields is taken apart into its canonical form. -/
theorem canonical : Canonical fields.toFloat.toModel.unpack fields.bits := by
  have small := fields.fraction_lt
  have kind := fields.kind
  rw [unpack_toModel]
  generalize UnpackedFloat.unpack .binary64 fields.vector = unpacked at kind
  unfold bits
  cases kind with
  | infinite top none =>
    rw [top, none]
    exact .infinite
  | zero low none =>
    rw [low, none]
    exact .zero
  | subnormal low pos =>
    have form := Canonical.finite _ (-1074) pos ⟨by decide, by omega, .inl rfl⟩ (by decide)
    rw [low]
    exact form
  | normal low top pos =>
    unfold topExponent at top
    have normalized : Normalized (2 ^ 52 + fields.fraction) ((fields.field : Int) - 1075) :=
      ⟨by omega, by omega, .inr (Nat.le_add_right _ _)⟩
    have bits : finiteBits (2 ^ 52 + fields.fraction) ((fields.field : Int) - 1075) =
        fields.field * 2 ^ 52 + fields.fraction := by
      unfold finiteBits
      omega
    rw [← bits]
    exact .finite _ _ pos normalized (by omega)

/-- Doubles of this kind are less than others exactly if their bits are. -/
theorem lt_iff : fields.toFloat < others.toFloat ↔ fields.bits < others.bits := by
  rw [lt_iff_compare, fields.canonical.compare_eq others.canonical, Option.some_inj,
    Nat.compare_eq_lt]

theorem le_iff : fields.toFloat ≤ others.toFloat ↔ fields.bits ≤ others.bits := by
  rw [le_iff_compare, fields.canonical.compare_eq others.canonical, Option.any_some,
    Nat.isLE_compare]

theorem isNaN_toFloat : fields.toFloat.isNaN = false := by
  rw [isNaN_eq, fields.canonical.isNaN_eq]

theorem toFloat_inj (h : fields.bits = others.bits) : fields.toFloat = others.toFloat := by
  have := fields.fraction_lt
  have := others.fraction_lt
  unfold bits at h
  have field : fields.field = others.field := by omega
  have fraction : fields.fraction = others.fraction := by omega
  unfold toFloat
  rw [field, fraction]

/-- The places of doubles of this kind in the order of all doubles. -/
theorem toNat_orderKey : (orderKey fields.toFloat).toNat = fields.bits + 2 ^ 63 := by
  have small := fields.bits_lt
  have bits := fields.toNat_toBits
  have positive : fields.toFloat.toBits < 0x8000000000000000 := by
    rw [UInt64.lt_iff_toNat_lt, bits]
    exact small
  have half : (0x8000000000000000 : UInt64).toNat = 2 ^ 63 := rfl
  rw [orderKey_eq, if_pos positive, UInt64.toNat_add, bits, half]
  omega

end Fields

end DarijaScript.Decimal
