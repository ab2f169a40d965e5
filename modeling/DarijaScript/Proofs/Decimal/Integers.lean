import DarijaScript.Proofs.Decimal.Signed

/-!
# Integers as doubles

Doubles that are integers are compared and added like integers as long as the sum has at most
fifty-three bits. Every finite double is a multiple of the least positive one, and the multiples are
compared and added in place of the doubles.
-/

namespace DarijaScript.Decimal

open Float.Model UnpackedFloat

/-! ### Multiples of the least double -/

/-- How many times the least positive double a value is. -/
def multiple (mantissa : Nat) (exponent : Int) : Nat := mantissa * 2 ^ (exponent + 1074).toNat

section

variable {m m' n : Nat} {e e' : Int}

theorem multiple_pos (pos : 0 < m) (e : Int) : 0 < multiple m e :=
  Nat.mul_pos pos (Nat.two_pow_pos _)

/-- Moving factors of two between the mantissa and the exponent keeps the multiple. -/
theorem multiple_mul_two_pow (m : Nat) {k : Nat} (low : -1074 ≤ e - k) :
    multiple (m * 2 ^ k) (e - k) = multiple m e := by
  have sum : (e + 1074).toNat = k + (e - k + 1074).toNat := by omega
  unfold multiple
  rw [sum, Nat.pow_add, Nat.mul_assoc]

theorem multiple_inj : multiple m e = multiple m' e ↔ m = m' :=
  Nat.mul_left_inj (Nat.ne_of_gt (Nat.two_pow_pos _))

/-- A whole number is the same multiple of the least double as its value. -/
theorem multiple_eq_multiple_iff (low : -1074 ≤ e) :
    multiple n 0 = multiple m e ↔ n * 2 ^ (-e).toNat = m * 2 ^ e.toNat := by
  rcases Int.le_total 0 e with nonneg | nonpos
  · have shift : (-e).toNat = 0 := by omega
    have exponent : e - e.toNat = 0 := by omega
    rw [← multiple_mul_two_pow m (k := e.toNat) (by omega), exponent, multiple_inj, shift,
      Nat.pow_zero, Nat.mul_one]
  · have shift : e.toNat = 0 := by omega
    have exponent : (0 : Int) - (-e).toNat = e := by omega
    rw [← multiple_mul_two_pow n (k := (-e).toNat) (by omega), exponent, multiple_inj, shift,
      Nat.pow_zero, Nat.mul_one]

/-- Normalized values are ordered as multiples of the least double. -/
theorem Normalized.multiple_lt (h : Normalized m e) (h' : Normalized m' e')
    (less : finiteBits m e < finiteBits m' e') : multiple m e < multiple m' e' := by
  obtain ⟨low, small, full⟩ := h
  obtain ⟨low', small', full'⟩ := h'
  unfold finiteBits at less
  unfold multiple
  rcases Int.lt_trichotomy e e' with before | rfl | behind
  · have whole : 2 ^ 52 ≤ m' := full'.resolve_left (by omega)
    calc m * 2 ^ (e + 1074).toNat
        < 2 ^ 53 * 2 ^ (e + 1074).toNat := Nat.mul_lt_mul_of_pos_right small (Nat.two_pow_pos _)
      _ = 2 ^ 52 * 2 ^ ((e + 1074).toNat + 1) := by rw [Nat.pow_succ]; omega
      _ ≤ m' * 2 ^ (e' + 1074).toNat :=
        Nat.mul_le_mul whole (Nat.pow_le_pow_right (by decide) (by omega))
  · exact Nat.mul_lt_mul_of_pos_right (by omega) (Nat.two_pow_pos _)
  · omega

theorem Normalized.compare_multiple (h : Normalized m e) (h' : Normalized m' e') :
    (compare e e').then (compare m m') = compare (multiple m e) (multiple m' e') := by
  rw [h.compare_eq h']
  rcases Nat.lt_trichotomy (finiteBits m e) (finiteBits m' e') with less | same | greater
  · rw [Nat.compare_eq_lt.mpr less, Nat.compare_eq_lt.mpr (h.multiple_lt h' less)]
  · obtain ⟨low, small, full⟩ := h
    obtain ⟨low', small', full'⟩ := h'
    have exponent : e = e' := by
      unfold finiteBits at same
      omega
    subst exponent
    rw [Nat.add_left_cancel same]
    simp
  · rw [Nat.compare_eq_gt.mpr greater, Nat.compare_eq_gt.mpr (h'.multiple_lt h greater)]

end

/-! ### Forms of integers -/

/-- The form of a double that stands for an integer. -/
inductive Integral : UnpackedFloat → Int → Prop
  | zero (sign : Sign) : Integral (.zero sign) 0
  | finite {sign : Sign} {m n : Nat} {e : Int} (pos : 0 < m) (normalized : Normalized m e)
      (high : e ≤ 971) (value : multiple n 0 = multiple m e) :
    Integral (.finite sign m e pos) (sign.apply n)

/-- The form is negative and not zero. -/
def Negative : UnpackedFloat → Prop
  | .infinity .negative | .finite .negative _ _ _ => True
  | _ => False

section

variable {x y : UnpackedFloat} {j k : Int} {m n : Nat} {e : Int}

theorem pos_of_multiple_eq (pos : 0 < m) (value : multiple n 0 = multiple m e) : 0 < n := by
  refine Nat.pos_of_ne_zero fun none => ?_
  have some := multiple_pos pos e
  rw [← value, none, multiple, Nat.zero_mul] at some
  exact Nat.lt_irrefl 0 some

theorem compare_multiple (n n' : Nat) :
    compare (multiple n 0) (multiple n' 0) = compare (n : Int) n' := by
  have some : 0 < 2 ^ ((0 : Int) + 1074).toNat := Nat.two_pow_pos _
  unfold multiple
  generalize 2 ^ ((0 : Int) + 1074).toNat = unit at some
  rcases Nat.lt_trichotomy n n' with less | same | greater
  · rw [Nat.compare_eq_lt.mpr (Nat.mul_lt_mul_of_pos_right less some),
      Int.compare_eq_lt.mpr (Int.ofNat_lt.mpr less)]
  · rw [same, Nat.compare_eq_eq.mpr rfl, Int.compare_eq_eq.mpr rfl]
  · rw [Nat.compare_eq_gt.mpr (Nat.mul_lt_mul_of_pos_right greater some),
      Int.compare_eq_gt.mpr (Int.ofNat_lt.mpr greater)]

theorem compare_neg (j k : Int) : compare (-j) (-k) = (compare j k).swap := by
  have swapped : compare k j = (compare j k).swap := Std.OrientedCmp.eq_swap
  rw [← swapped]
  simp only [compare, compareOfLessAndEq]
  simp [eq_comm]

/-- Doubles that are integers are compared like the integers. -/
theorem Integral.compare_eq (hx : Integral x j) (hy : Integral y k) :
    x.compare y = some (compare j k) := by
  have before {a b : Int} (h : a < b) : some Ordering.lt = some (compare a b) := by
    rw [Int.compare_eq_lt.mpr h]
  have behind {a b : Int} (h : b < a) : some Ordering.gt = some (compare a b) := by
    rw [Int.compare_eq_gt.mpr h]
  cases hx with
  | zero sign =>
    cases hy with
    | zero sign' => rfl
    | @finite sign' m' n' e' pos' normalized' high' value' =>
      have some := pos_of_multiple_eq pos' value'
      cases sign' with
      | positive => exact before (Int.natCast_pos.mpr some)
      | negative => exact behind (Int.neg_neg_of_pos (Int.natCast_pos.mpr some))
  | @finite sign m n e pos normalized high value =>
    have some := pos_of_multiple_eq pos value
    cases hy with
    | zero sign' =>
      cases sign with
      | positive => exact behind (Int.natCast_pos.mpr some)
      | negative => exact before (Int.neg_neg_of_pos (Int.natCast_pos.mpr some))
    | @finite sign' m' n' e' pos' normalized' high' value' =>
      have some' := pos_of_multiple_eq pos' value'
      have magnitudes : (compare e e').then (compare m m') = compare (n : Int) n' := by
        rw [normalized.compare_multiple normalized', ← value, ← value', compare_multiple]
      cases sign <;> cases sign'
      · exact congrArg Option.some ((congrArg Ordering.swap magnitudes).trans (compare_neg ..).symm)
      · exact before (by change -(n : Int) < n'; omega)
      · exact behind (by change -(n' : Int) < n; omega)
      · exact congrArg Option.some magnitudes

theorem Integral.neg (h : Integral x k) : Integral x.neg (-k) := by
  cases h with
  | zero sign => exact .zero _
  | @finite sign m n e pos normalized high value =>
    cases sign with
    | positive => exact .finite pos normalized high value
    | negative =>
      change Integral _ (- -(n : Int))
      rw [Int.neg_neg]
      exact .finite pos normalized high value

theorem Integral.kept (h : Integral x k) :
    Integral (UnpackedFloat.unpack .binary64 (UnpackedFloat.pack .binary64 x)) k := by
  cases h with
  | zero sign =>
    cases sign
    · exact .zero .negative
    · exact .zero .positive
  | finite pos normalized high value =>
    rw [normalized.unpack_pack_signed pos high]
    exact .finite pos normalized high value

theorem Integral.integer? (h : Integral x k) : integer? x = some k := by
  cases h with
  | zero sign => rfl
  | @finite sign m n e pos normalized high value =>
    have value := (multiple_eq_multiple_iff normalized.low).mp value
    rw [Decimal.integer?]
    split
    · next nonneg =>
      have shift : (-e).toNat = 0 := by omega
      rw [← value, shift, Nat.pow_zero, Nat.mul_one]
    · next negative =>
      have shift : e.toNat = 0 := by omega
      rw [shift, Nat.pow_zero, Nat.mul_one] at value
      rw [← value, Nat.mul_div_cancel _ (Nat.two_pow_pos _)]

/-- A value that a double has is not rounded, on whatever grid it is given. -/
theorem Normalized.round_eq_of_multiple (h : Normalized m e) (pos : 0 < m) (sign : Sign) {M : Nat}
    {E : Int} (low : -1074 ≤ E) (same : multiple M E = multiple m e) :
    round .binary64 sign M E = .finite sign m e pos := by
  have grid := h.gridExponent_eq pos
  rcases Int.le_total E e with finer | coarser
  · obtain ⟨k, rfl⟩ : ∃ k : Nat, E = e - k := ⟨(e - E).toNat, by omega⟩
    rw [← multiple_mul_two_pow m low, multiple_inj] at same
    have shift : (e - k - e).toNat = 0 := by omega
    have exact := h.roundWithAccuracy_eq pos sign k
    rw [round_eq, same, gridExponent_mul_two_pow pos, grid, shift, Nat.pow_zero, Nat.mul_one,
      Int.natCast_zero, Int.sub_zero, exact]
  · obtain ⟨k, rfl⟩ : ∃ k : Nat, e = E - k := ⟨(E - e).toNat, by omega⟩
    rw [← multiple_mul_two_pow M h.low, multiple_inj] at same
    subst same
    have some : 0 < M := Nat.pos_of_mul_pos_right pos
    have shift : (E - (E - k)).toNat = k := by omega
    have exact := h.roundWithAccuracy_eq pos sign 0
    rw [Nat.pow_zero, Nat.mul_one, Int.natCast_zero, Int.sub_zero] at exact
    rw [gridExponent_mul_two_pow some] at grid
    rw [round_eq, grid, shift, exact]

/-- A whole number of at most fifty-three bits is the value of a double. -/
theorem exists_normalized (pos : 0 < n) (small : n < 2 ^ 53) :
    ∃ m e, 0 < m ∧ Normalized m e ∧ e ≤ 971 ∧ multiple n 0 = multiple m e := by
  have some : n ≠ 0 := Nat.ne_of_gt pos
  have bits : n.log2 < 53 := (Nat.log2_lt some).mpr small
  obtain ⟨shift, few⟩ : ∃ shift, n.log2 + shift = 52 := ⟨52 - n.log2, by omega⟩
  have full : 2 ^ 52 ≤ n * 2 ^ shift := by
    rw [← few, Nat.pow_add]
    exact Nat.mul_le_mul_right _ (Nat.log2_self_le some)
  refine ⟨n * 2 ^ shift, 0 - shift, Nat.mul_pos pos (Nat.two_pow_pos _),
    ⟨by omega, mul_two_pow_lt some (by omega) small, .inr full⟩, by omega, ?_⟩
  rw [multiple_mul_two_pow n (by omega)]

/-! ### Sums -/

theorem round_negative (m : Nat) (e : Int) :
    round .binary64 .negative m e = (round .binary64 .positive m e).neg := by
  unfold UnpackedFloat.round roundWithAccuracy
  dsimp only
  split <;> rfl

/-- What is rounded from a negative value is negative. -/
theorem negative_round (pos : 0 < m) (low : -1074 ≤ e) :
    Negative (UnpackedFloat.unpack .binary64 (UnpackedFloat.pack .binary64
      (round .binary64 .negative m e))) := by
  obtain ⟨r, E, some, eq, normalized, -⟩ := exists_round pos low
  obtain ⟨fields, packed, bits⟩ := normalized.exists_fields some
  have canonical := fields.canonical
  have positive : 0 < fields.bits := by
    rw [bits]
    exact Nat.lt_min.mpr ⟨finiteBits_pos some E, by decide⟩
  rw [round_negative, unpack_pack_neg, eq, packed, ← fields.unpack_toModel]
  generalize fields.toFloat.toModel.unpack = form at canonical
  generalize fields.bits = bits at canonical positive
  cases canonical with
  | infinite | finite => trivial
  | zero => exact absurd positive (Nat.lt_irrefl 0)

section

variable {M E : Int} (low : -1074 ≤ E)
  (value : M * (2 ^ (E + 1074).toNat : Nat) = k * (2 ^ ((0 : Int) + 1074).toNat : Nat))

include value

theorem sign_of_value : M.sign = k.sign := by
  have power (a : Nat) : ((2 ^ a : Nat) : Int).sign = 1 :=
    Int.sign_eq_one_of_pos (Int.natCast_pos.mpr (Nat.two_pow_pos a))
  have signs := congrArg Int.sign value
  rwa [Int.sign_mul, Int.sign_mul, power, power, Int.mul_one, Int.mul_one] at signs

include low

/-- A signed multiple of the least double is rounded to the integer with this value. -/
theorem integral_normalize (nonneg : 0 ≤ k) (small : k < 2 ^ 53) :
    Integral (normalize .binary64 M E .positive) k := by
  have sign := sign_of_value value
  rcases Int.lt_or_eq_of_le nonneg with positive | rfl
  · rw [Int.sign_eq_one_of_pos positive, Int.sign_eq_one_iff_pos] at sign
    lift M to Nat using Int.le_of_lt sign
    lift k to Nat using nonneg
    have same : multiple M E = multiple k 0 := by
      rw [← Int.natCast_mul, ← Int.natCast_mul] at value
      exact Int.natCast_inj.mp value
    obtain ⟨m, e, pos, normalized, high, value⟩ :=
      exists_normalized (Int.natCast_pos.mp positive) (by omega)
    unfold UnpackedFloat.normalize
    rw [Int.compare_eq_gt.mpr sign]
    change Integral (UnpackedFloat.round .binary64 .positive M E) k
    rw [normalized.round_eq_of_multiple pos .positive low (same.trans value)]
    exact .finite pos normalized high value
  · rw [Int.sign_zero, Int.sign_eq_zero_iff_zero] at sign
    rw [sign]
    exact .zero .positive

theorem negative_normalize (negative : k < 0) :
    Negative (UnpackedFloat.unpack .binary64 (UnpackedFloat.pack .binary64
      (normalize .binary64 M E .positive))) := by
  have sign := sign_of_value value
  rw [Int.sign_eq_neg_one_of_neg negative, Int.sign_eq_neg_one_iff_neg] at sign
  unfold UnpackedFloat.normalize
  rw [Int.compare_eq_lt.mpr sign]
  exact negative_round (by omega) low

end

/-- A value that is added is a multiple of the least double on the common grid. -/
theorem apply_mul_two_pow {sign : Sign} {E : Int} (low : -1074 ≤ E) (finer : E ≤ e)
    (value : multiple n 0 = multiple m e) :
    sign.apply (m <<< (e - E).toNat : Nat) * (2 ^ (E + 1074).toNat : Nat) =
      sign.apply n * (2 ^ ((0 : Int) + 1074).toNat : Nat) := by
  obtain ⟨shift, rfl⟩ : ∃ shift : Nat, E = e - shift := ⟨(e - E).toNat, by omega⟩
  rw [← multiple_mul_two_pow m low] at value
  have steps : (e - (e - shift)).toNat = shift := by omega
  have value : ((m * 2 ^ shift : Nat) : Int) * (2 ^ (e - shift + 1074).toNat : Nat) =
      n * (2 ^ ((0 : Int) + 1074).toNat : Nat) := by
    rw [← Int.natCast_mul, ← Int.natCast_mul]
    exact Int.natCast_inj.mpr value.symm
  rw [steps, Nat.shiftLeft_eq]
  cases sign with
  | positive => exact value
  | negative =>
    change -_ * _ = -_ * _
    rw [Int.neg_mul, Int.neg_mul, value]

/-- The exact sum of two doubles that are integers, on the finer of their grids. -/
theorem add_eq_normalize {m' n' : Nat} {e' : Int} {sign sign' : Sign} {pos : 0 < m} {pos' : 0 < m'}
    (low : -1074 ≤ e) (low' : -1074 ≤ e') (value : multiple n 0 = multiple m e)
    (value' : multiple n' 0 = multiple m' e') : ∃ M E : Int, -1074 ≤ E ∧
      UnpackedFloat.add .binary64 (.finite sign m e pos) (.finite sign' m' e' pos') =
        UnpackedFloat.normalize .binary64 M E .positive ∧
      M * (2 ^ (E + 1074).toNat : Nat) =
        (sign.apply n + sign'.apply n') * (2 ^ ((0 : Int) + 1074).toNat : Nat) := by
  have finest : -1074 ≤ min e e' := Int.le_min.mpr ⟨low, low'⟩
  refine ⟨_, _, finest, rfl, ?_⟩
  rw [Int.add_mul, apply_mul_two_pow finest (Int.min_le_left ..) value,
    apply_mul_two_pow finest (Int.min_le_right ..) value', Int.add_mul]

/-- A sum that is an integer of at most fifty-three bits is not rounded. -/
theorem Integral.add (hx : Integral x j) (hy : Integral y k) (nonneg : 0 ≤ j + k)
    (small : j + k < 2 ^ 53) : Integral (UnpackedFloat.add .binary64 x y) (j + k) := by
  cases hx with
  | zero sign =>
    cases hy with
    | zero sign' =>
      cases sign <;> cases sign' <;> exact .zero _
    | finite pos normalized high value =>
      rw [Int.zero_add]
      exact .finite pos normalized high value
  | finite pos normalized high value =>
    cases hy with
    | zero sign' =>
      rw [Int.add_zero]
      exact .finite pos normalized high value
    | finite pos' normalized' high' value' =>
      obtain ⟨M, E, low, sum, exact⟩ :=
        add_eq_normalize normalized.low normalized'.low value value'
      rw [sum]
      exact integral_normalize low exact nonneg small

theorem Integral.add_infinity (h : Integral x k) (sign : Sign) :
    UnpackedFloat.add .binary64 x (.infinity sign) = .infinity sign := by
  cases h <;> rfl

theorem Integral.compare_infinity (h : Integral x k) :
    (UnpackedFloat.infinity .positive).compare x = some .gt := by
  cases h <;> rfl

theorem Integral.negative_iff (h : Integral x k) : Negative x ↔ k < 0 := by
  cases h with
  | zero sign => exact iff_of_false id (Int.lt_irrefl 0)
  | @finite sign m n e pos normalized high value =>
    have some := pos_of_multiple_eq pos value
    cases sign with
    | positive => exact iff_of_false id (Int.not_lt.mpr (Int.natCast_nonneg n))
    | negative => exact iff_of_true trivial (Int.neg_neg_of_pos (Int.natCast_pos.mpr some))

/-- A sum that is less than zero is not rounded to zero. -/
theorem Integral.negative_add (hx : Integral x j) (hy : Integral y k) (negative : j + k < 0) :
    Negative (UnpackedFloat.unpack .binary64 (UnpackedFloat.pack .binary64
      (UnpackedFloat.add .binary64 x y))) := by
  cases hx with
  | zero sign =>
    cases hy with
    | zero sign' => exact absurd negative (Int.lt_irrefl 0)
    | finite pos normalized high value =>
      rw [Int.zero_add] at negative
      exact (Integral.finite pos normalized high value).kept.negative_iff.mpr negative
  | finite pos normalized high value =>
    cases hy with
    | zero sign' =>
      rw [Int.add_zero] at negative
      exact (Integral.finite pos normalized high value).kept.negative_iff.mpr negative
    | finite pos' normalized' high' value' =>
      obtain ⟨M, E, low, sum, exact⟩ :=
        add_eq_normalize normalized.low normalized'.low value value'
      rw [sum]
      exact negative_normalize low exact negative

end

/-! ### Doubles -/

section

variable {x y : Float} {j k : Int} {n : Nat}

theorem integral_ofNat (small : n < 2 ^ 53) : Integral (ofNat n).toModel.unpack n := by
  rcases Nat.eq_zero_or_pos n with rfl | pos
  · exact .zero .positive
  · obtain ⟨m, e, pos', normalized, high, value⟩ := exists_normalized pos small
    rw [unpack_ofNat ((multiple_eq_multiple_iff normalized.low).mp value) normalized pos' high]
    exact .finite pos' normalized high value

theorem integral_zero : Integral (0 : Float).toModel.unpack 0 := .zero .positive

theorem lt_iff_of_integral (hx : Integral x.toModel.unpack j) (hy : Integral y.toModel.unpack k) :
    x < y ↔ j < k := by
  rw [lt_iff_compare, hx.compare_eq hy, Option.some_inj, Int.compare_eq_lt]

theorem le_iff_of_integral (hx : Integral x.toModel.unpack j) (hy : Integral y.toModel.unpack k) :
    x ≤ y ↔ j ≤ k := by
  rw [le_iff_compare, hx.compare_eq hy, Option.any_some, Int.isLE_compare]

theorem integral_add (hx : Integral x.toModel.unpack j) (hy : Integral y.toModel.unpack k)
    (nonneg : 0 ≤ j + k) (small : j + k < 2 ^ 53) : Integral (x + y).toModel.unpack (j + k) := by
  rw [add_eq]
  exact (hx.add hy nonneg small).kept

theorem negative_add (hx : Integral x.toModel.unpack j) (hy : Integral y.toModel.unpack k)
    (negative : j + k < 0) : Negative (x + y).toModel.unpack := by
  rw [add_eq]
  exact hx.negative_add hy negative

theorem integral_neg (h : Integral x.toModel.unpack k) : Integral (-x).toModel.unpack (-k) := by
  rw [unpack_toModel_neg]
  exact h.neg

theorem not_negative_unpack (exponent : BitVec Format.binary64.exponentBits)
    (mantissa : BitVec Format.binary64.mantissaBitsWithoutImplicit) :
    ¬Negative (UnpackedFloat.unpack .binary64
      (packComponents .binary64 .positive exponent mantissa)) := by
  unfold UnpackedFloat.unpack
  simp only [ofBitVec_unpackSign]
  split
  · split <;> exact fun none => none
  · split
    · split <;> exact fun none => none
    · exact fun none => none

/-- What is rounded from a value that is not negative is not negative. -/
theorem not_negative_roundWithAccuracy (m : Nat) (e : Int) :
    ¬Negative (UnpackedFloat.unpack .binary64 (UnpackedFloat.pack .binary64
      (roundWithAccuracy .binary64 .positive m e .exact))) := by
  unfold roundWithAccuracy
  dsimp only
  split
  · exact not_negative_unpack _ _
  · unfold UnpackedFloat.pack
    dsimp only
    split
    · exact not_negative_unpack _ _
    · split <;> exact not_negative_unpack _ _

/-- The double of a natural number is not negative, even if it is rounded. -/
theorem not_negative_ofNat (n : Nat) : ¬Negative (ofNat n).toModel.unpack := by
  by_cases small : n < 2 ^ 53
  · rw [(integral_ofNat small).negative_iff]
    exact Int.not_lt.mpr (Int.natCast_nonneg n)
  · have scientific : ofNat n = .ofModel (.pack (UnpackedFloat.ofScientific .binary64 n 0)) :=
      dif_neg fun fast => small fast.1
    have far : ¬(0 : Int) < -((2 ^ Format.binary64.exponentBits : Int) + n.log2) := by
      have bits : (2 ^ Format.binary64.exponentBits : Int) = 2048 := rfl
      omega
    have rounded : UnpackedFloat.ofScientific .binary64 n 0 =
        roundWithAccuracy .binary64 .positive (n <<< 53 * 10 ^ (0 : Int).toNat)
          (-(Format.binary64.mantissaBits : Int) + 0) .exact := by
      unfold UnpackedFloat.ofScientific
      rw [dif_neg (by omega), if_neg (by decide), if_neg far, if_pos (Int.le_refl 0)]
      rfl
    rw [scientific, rounded]
    generalize n <<< 53 * 10 ^ (0 : Int).toNat = m
    exact not_negative_roundWithAccuracy m _

/-- What is negative is below zero. -/
theorem compare_zero_of_negative (negative : Negative x.toModel.unpack) :
    x.toModel.unpack.compare (0 : Float).toModel.unpack = some .lt := by
  have zero : (0 : Float).toModel.unpack = .zero .positive := rfl
  rw [zero]
  generalize x.toModel.unpack = form at negative
  match form, negative with
  | .infinity .negative, _ | .finite .negative .., _ => rfl

end

end DarijaScript.Decimal
