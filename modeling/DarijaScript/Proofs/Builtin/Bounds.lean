import DarijaScript.Builtin.Arguments
import DarijaScript.Proofs.Decimal.Truncation

/-!
# Bounds of parts

Whatever values the bounds of a part are taken from, they are in order and inside. An integer bound is
this integer, counted from the end if it is negative. Computing the bounds with doubles is exact for
every length of at most fifty-three bits: a sum that would be rounded is so far below zero that the
bound is the beginning.
-/

namespace DarijaScript

/-- The integer part of the number that stands for the value. -/
def Value.integerPart? (value : Value) : Option Int := Decimal.truncatedInt? value.toNumber

namespace Builtins

variable {length default : Nat} {bound : Value} {k : Int}

theorem resolveBound_le (inside : default ≤ length) (bound : Value) :
    resolveBound length bound default ≤ length := by
  unfold resolveBound
  split
  · exact inside
  · split
    · exact Nat.zero_le _
    · split
      · exact Nat.zero_le _
      · exact Nat.le_refl _
    · dsimp only
      split
      · omega
      · exact Nat.min_le_right ..

/-- The bounds of a part are in order and inside, whatever values they are taken from. -/
theorem partBounds_le (length : Nat) (start stop : Value) :
    (partBounds length start stop).1 ≤ (partBounds length start stop).2 ∧
      (partBounds length start stop).2 ≤ length := by
  have first := resolveBound_le (Nat.zero_le length) start
  have last := resolveBound_le (Nat.le_refl length) stop
  exact ⟨Nat.le_max_right .., Nat.max_le.mpr ⟨last, first⟩⟩

/-! ### Integer bounds -/

theorem integerPart?_ofNat {n : Nat} (small : n < 2 ^ 53) :
    (Value.ofNat n).integerPart? = some (n : Int) := Decimal.truncatedInt?_ofNat small

theorem integerPart?_ofInt (small : k.natAbs < 2 ^ 53) :
    (Value.number (Decimal.ofInt k)).integerPart? = some k := Decimal.truncatedInt?_ofInt small

/-- A bound with an integer part is this integer, counted from the end if it is negative. -/
theorem resolveBound_eq (part : bound.integerPart? = some k) :
    resolveBound length bound default =
      if k < 0 then (length + k).toNat else min k.toNat length := by
  have finite : ∃ value, Decimal.unpack bound.toNumber = .finite value := by
    unfold Value.integerPart? Decimal.truncatedInt? at part
    split at part
    · exact ⟨_, ‹_›⟩
    · cases part
  obtain ⟨value, finite⟩ := finite
  unfold resolveBound
  split
  · cases part
  · rw [Value.integerPart?] at part
    rw [finite, part]
    rfl

theorem resolveBound_of_le (part : bound.integerPart? = some k) (nonneg : 0 ≤ k)
    (inside : k ≤ length) : resolveBound length bound default = k.toNat := by
  rw [resolveBound_eq part, if_neg (Int.not_lt.mpr nonneg)]
  omega

/-! ### Bounds in doubles -/

open Decimal in
/-- A position that is computed with doubles: a negative one counts from the end, and none is outside. -/
def clampInDoubles (length : Nat) (position : Float) : Nat :=
  (if position < 0 then max (ofNat length + position) 0
    else min position (ofNat length)).toUInt64.toNat

/-- A bound that is computed with doubles, where the integer part of NaN is zero. -/
def resolveBoundInDoubles (length : Nat) (bound : Value) (default : Nat) : Nat :=
  match bound with
  | .undefined => default
  | bound =>
    clampInDoubles length (if bound.toNumber.isNaN then 0 else Decimal.truncate bound.toNumber)

/-- The bounds of a part that are computed with doubles. -/
def partBoundsInDoubles (length : Nat) (start stop : Value) : Nat × Nat :=
  let start := resolveBoundInDoubles length start 0
  (start, max (resolveBoundInDoubles length stop length) start)

section

open Decimal

variable {x y : Float} {j : Int}

theorem toNat_of_integral (h : Integral x.toModel.unpack k) (small : k < 2 ^ 64) :
    x.toUInt64.toNat = k.toNat :=
  toNat_toUInt64 ((truncatedInt?_eq_integer? x).trans h.integer?) small

/-- The smaller one of two integers. -/
theorem integral_min (hx : Integral x.toModel.unpack j) (hy : Integral y.toModel.unpack k) :
    Integral (min x y).toModel.unpack (min j k) := by
  change Integral (if x ≤ y then x else y).toModel.unpack _
  by_cases le : j ≤ k
  · rw [if_pos ((le_iff_of_integral hx hy).mpr le), Int.min_eq_left le]
    exact hx
  · rw [if_neg (mt (le_iff_of_integral hx hy).mp le), Int.min_eq_right (by omega)]
    exact hy

/-- The larger one of two integers. -/
theorem integral_max (hx : Integral x.toModel.unpack j) (hy : Integral y.toModel.unpack k) :
    Integral (max x y).toModel.unpack (max j k) := by
  change Integral (if x ≤ y then y else x).toModel.unpack _
  by_cases le : j ≤ k
  · rw [if_pos ((le_iff_of_integral hx hy).mpr le), Int.max_eq_right le]
    exact hy
  · rw [if_neg (mt (le_iff_of_integral hx hy).mp le), Int.max_eq_left (by omega)]
    exact hx

theorem max_zero_of_negative (negative : Negative x.toModel.unpack) : max x 0 = 0 := by
  have le : x ≤ 0 := by
    rw [le_iff_compare, compare_zero_of_negative negative]
    rfl
  change (if x ≤ 0 then 0 else x) = 0
  rw [if_pos le]

/-- A position that is an integer is clamped like the integer. -/
theorem clampInDoubles_eq (small : length < 2 ^ 53) (h : Integral x.toModel.unpack k) :
    clampInDoubles length x = if k < 0 then (length + k).toNat else min k.toNat length := by
  have whole : Integral (ofNat length).toModel.unpack length := integral_ofNat small
  unfold clampInDoubles
  by_cases negative : k < 0
  · rw [if_pos ((lt_iff_of_integral h integral_zero).mpr negative), if_pos negative]
    by_cases before : length + k < 0
    · rw [max_zero_of_negative (negative_add whole h before), toNat_of_integral integral_zero]
      · omega
      · decide
    · have sum := integral_add whole h (by omega) (by omega)
      rw [toNat_of_integral (integral_max sum integral_zero) (by omega)]
      omega
  · rw [if_neg (mt (lt_iff_of_integral h integral_zero).mp negative), if_neg negative,
      toNat_of_integral (integral_min h whole) (by omega)]
    omega

/-- An infinite position is the beginning or the end. -/
theorem clampInDoubles_infinite (small : length < 2 ^ 53)
    {sign : Float.Model.UnpackedFloat.Sign} (infinite : x.toModel.unpack = .infinity sign) :
    clampInDoubles length x = if sign == .negative then 0 else length := by
  have whole : Integral (ofNat length).toModel.unpack length := integral_ofNat small
  unfold clampInDoubles
  generalize ofNat length = last at whole
  cases sign with
  | negative =>
    have negative : Negative x.toModel.unpack := by
      rw [infinite]
      trivial
    have sum : Negative (last + x).toModel.unpack := by
      rw [add_eq, infinite, whole.add_infinity]
      trivial
    rw [if_pos (lt_iff_compare.mpr (compare_zero_of_negative negative)), max_zero_of_negative sum,
      toNat_of_integral integral_zero (by decide)]
    rfl
  | positive =>
    have above : ¬x < 0 := by
      rw [lt_iff_compare, infinite]
      exact Option.some_inj.not.mpr (by decide)
    have beyond : ¬x ≤ last := by
      rw [le_iff_compare, infinite, whole.compare_infinity]
      exact Bool.false_ne_true
    have least : min x last = last := if_neg beyond
    rw [if_neg above, least, toNat_of_integral whole (by omega)]
    rfl

theorem clampInDoubles_truncate (small : length < 2 ^ 53) (x : Float) :
    clampInDoubles length (if x.isNaN then 0 else truncate x) =
      match unpack x with
      | .notANumber => 0
      | .infinite negative => if negative then 0 else length
      | .finite _ =>
        let position := (truncatedInt? x).getD 0
        if position < 0 then (length + position).toNat else min position.toNat length := by
  rw [Decimal.isNaN_eq, unpack_eq_partsOf]
  cases form : x.toModel.unpack with
  | notANumber => exact (clampInDoubles_eq small integral_zero).trans (Nat.zero_min length)
  | infinity sign =>
    have cut : truncate x = x := by
      rw [truncate, roundBy, unpack_eq_partsOf, form]
      rfl
    change clampInDoubles length (truncate x) = _
    rw [cut]
    exact clampInDoubles_infinite small form
  | zero sign | finite sign =>
    obtain ⟨k, part⟩ : ∃ k, truncatedInt? x = some k :=
      ⟨_, by rw [truncatedInt?_eq_integer?, form]; rfl⟩
    rw [part]
    exact clampInDoubles_eq small (integral_truncate part)

/-- For every length of at most fifty-three bits the bounds are the ones computed with doubles. -/
theorem resolveBoundInDoubles_eq (small : length < 2 ^ 53) (bound : Value) (default : Nat) :
    resolveBoundInDoubles length bound default = resolveBound length bound default := by
  cases bound with
  | undefined => rfl
  | _ => exact clampInDoubles_truncate small _

theorem partBoundsInDoubles_eq (small : length < 2 ^ 53) (start stop : Value) :
    partBoundsInDoubles length start stop = partBounds length start stop := by
  unfold partBoundsInDoubles partBounds
  rw [resolveBoundInDoubles_eq small, resolveBoundInDoubles_eq small]

end

end Builtins

end DarijaScript
