import DarijaScript.Proofs.Decimal.Compare
import DarijaScript.Proofs.Decimal.Exact

/-!
# Sums of doubles

The sum of two doubles that are not negative is rounded to the nearest double. A double that is not
above the exact sum is not above the rounded one, so adding never makes a double less.
-/

namespace DarijaScript.Decimal

open Float.Model UnpackedFloat

/-! ### Packing -/

theorem ofModel_pack {x : UnpackedFloat} {fields : Fields}
    (h : UnpackedFloat.pack .binary64 x = fields.vector) :
    Float.ofModel (Float.Model.pack x) = fields.toFloat := by
  have bits : UnpackedFloat.pack .binary64 x = fields.toFloat.toModel.toBits.toBitVec :=
    h.trans fields.toBitVec_toFloat.symm
  generalize fields.toFloat = y at bits
  obtain ⟨⟨bits', valid⟩⟩ := y
  congr 1
  unfold Float.Model.pack
  congr 1
  rw [bits]

/-- The fields of the infinity. -/
def Fields.infinity : Fields := ⟨topExponent, 0, Nat.le_refl _, by decide, fun _ => rfl⟩

theorem Fields.bits_infinity : infinity.bits = topExponent * 2 ^ 52 := by
  unfold bits infinity
  rw [Nat.add_zero]

/-- A finite double is packed with the bits that its exponent and its mantissa make, or as an
infinity. -/
theorem Normalized.exists_fields {m : Nat} {e : Int} (h : Normalized m e) (pos : 0 < m) :
    ∃ fields : Fields, UnpackedFloat.pack .binary64 (.finite .positive m e pos) = fields.vector ∧
      fields.bits = min (finiteBits m e) (topExponent * 2 ^ 52) := by
  obtain ⟨low, small, full⟩ := h
  have biased : (e + Format.binary64.exponentBias +
      Format.binary64.mantissaBitsWithoutImplicit).toNat = (e + 1075).toNat := by
    congr 1
    change e + 1023 + 52 = e + 1075
    omega
  unfold UnpackedFloat.pack
  dsimp only
  rw [biased]
  by_cases large : 971 < e
  · refine ⟨.infinity, ?_, ?_⟩
    · rw [if_pos (by change 2048 ≤ _; omega)]
      rfl
    · rw [Fields.bits_infinity]
      unfold finiteBits topExponent
      omega
  · rw [if_neg (by change ¬2048 ≤ _; omega)]
    by_cases normal : 2 ^ 52 ≤ m
    · have bits : m.log2 + 1 = Format.binary64.mantissaBits := by
        rw [(Nat.log2_eq_iff (Nat.ne_of_gt pos)).mpr ⟨normal, small⟩]
        rfl
      have top : (e + 1075).toNat < topExponent := by
        unfold topExponent
        omega
      have fraction : BitVec.ofNat 52 m = BitVec.ofNat 52 (m - 2 ^ 52) := by
        apply BitVec.eq_of_toNat_eq
        rw [BitVec.toNat_ofNat, BitVec.toNat_ofNat]
        omega
      refine ⟨⟨(e + 1075).toNat, m - 2 ^ 52, Nat.le_of_lt top, by omega, fun eq => by omega⟩,
        ?_, ?_⟩
      · rw [if_pos bits, fraction]
        rfl
      · unfold Fields.bits finiteBits topExponent
        dsimp only
        omega
    · have bits : ¬m.log2 + 1 = Format.binary64.mantissaBits := by
        have := (Nat.log2_lt (Nat.ne_of_gt pos)).mpr (Nat.lt_of_not_le normal)
        change ¬m.log2 + 1 = 53
        omega
      refine ⟨⟨0, m, by decide, by omega, fun eq => absurd eq (by decide)⟩, ?_, ?_⟩
      · rw [if_neg bits]
        rfl
      · unfold Fields.bits finiteBits topExponent
        dsimp only
        omega

/-- What a finite double is taken apart into is normalized. -/
theorem normalized_of_unpack {bits : BitVec Format.binary64.numBits} {sign : Sign} {m : Nat}
    {e : Int} {pos : 0 < m} (h : UnpackedFloat.unpack .binary64 bits = .finite sign m e pos) :
    Normalized m e := by
  have small : (@unpackMantissa .binary64 bits).toNat < 2 ^ 52 :=
    (@unpackMantissa .binary64 bits).isLt
  have bias : ((Format.binary64.exponentBias : Int) + Format.binary64.mantissaBitsWithoutImplicit) =
      1075 := by decide
  unfold UnpackedFloat.unpack at h
  dsimp only at h
  split at h
  · split at h <;> cases h
  · split at h
    · next low =>
      split at h
      · cases h
      · obtain ⟨-, rfl, rfl⟩ := UnpackedFloat.finite.inj h
        rw [low, bias]
        refine ⟨by decide, ?_, .inl (by decide)⟩
        omega
    · next low =>
      obtain ⟨-, rfl, rfl⟩ := UnpackedFloat.finite.inj h
      rw [bias]
      have some : (@unpackExponent .binary64 bits).toNat ≠ 0 := fun none =>
        low (BitVec.eq_of_toNat_eq none)
      have joined : (1#1 ++ @unpackMantissa .binary64 bits).toNat =
          2 ^ 52 + (@unpackMantissa .binary64 bits).toNat := by
        rw [BitVec.toNat_append, ← Nat.shiftLeft_add_eq_or_of_lt small]
        rfl
      rw [joined]
      exact ⟨by omega, by omega, .inr (by omega)⟩

/-! ### Rounding -/

theorem mantissa_shiftRight (extended : ExtendedMantissa) (k : Nat) :
    (extended >>> k).mantissa = extended.mantissa / 2 ^ k := by
  induction k with
  | zero => exact (Nat.div_one _).symm
  | succ k ih =>
    change (extended >>> k).mantissa / 2 = _
    rw [ih, Nat.div_div_eq_div_mul, Nat.pow_succ]

theorem roundedMantissa_bounds (extended : ExtendedMantissa) :
    extended.mantissa ≤ extended.roundedMantissa ∧
      extended.roundedMantissa ≤ extended.mantissa + 1 := by
  obtain ⟨m, half, more⟩ := extended
  cases half <;> cases more
  all_goals
    simp only [ExtendedMantissa.roundedMantissa, ExtendedMantissa.accuracy,
      Accuracy.roundToNearestEven]
    omega

/-- The exponent of the grid to which a value is rounded. -/
def gridExponent (m : Nat) (e : Int) : Int := max (m.log2 + 1 + e - 53) (-1074)

theorem gridExponent_mul_two_pow {m : Nat} (pos : 0 < m) (e : Int) (k : Nat) :
    gridExponent (m * 2 ^ k) (e - k) = gridExponent m e := by
  unfold gridExponent
  rw [log2_mul_two_pow (Nat.ne_of_gt pos)]
  push_cast
  congr 1
  omega

/-- On its grid a value has at most fifty-three bits. -/
theorem div_gridExponent_lt (m : Nat) (e : Int) :
    m / 2 ^ (gridExponent m e - e).toNat < 2 ^ 53 := by
  rw [Nat.div_lt_iff_lt_mul (Nat.two_pow_pos _), ← Nat.pow_add]
  apply Nat.lt_of_lt_of_le Nat.lt_log2_self
  apply Nat.pow_le_pow_right (by decide)
  unfold gridExponent
  omega

/-- It has just as many unless the grid is the finest one. -/
theorem le_div_gridExponent {m : Nat} (pos : 0 < m) {e : Int} (fine : e ≤ gridExponent m e)
    (above : gridExponent m e ≠ -1074) : 2 ^ 52 ≤ m / 2 ^ (gridExponent m e - e).toNat := by
  rw [Nat.le_div_iff_mul_le (Nat.two_pow_pos _), ← Nat.pow_add]
  refine Nat.le_trans (Nat.pow_le_pow_right (by decide) ?_) (Nat.log2_self_le (Nat.ne_of_gt pos))
  unfold gridExponent at *
  omega

theorem shiftToTargetExponent_eq (m : Nat) (e : Int) :
    shiftToTargetExponent .binary64 m e .exact =
      ((⟨m, false, false⟩ : ExtendedMantissa) >>> (gridExponent m e - e).toNat,
        e + (gridExponent m e - e).toNat) := rfl

/-- A mantissa that fits stays as it is. -/
theorem shiftToTargetExponent_of_lt {m : Nat} {e : Int} (small : m < 2 ^ 53) (low : -1074 ≤ e) :
    shiftToTargetExponent .binary64 m e .exact = (⟨m, false, false⟩, e) := by
  have fits : m.log2 < 53 := by
    by_cases none : m = 0
    · rw [none]
      decide
    · exact (Nat.log2_lt none).mpr small
  have none : (gridExponent m e - e).toNat = 0 := by
    unfold gridExponent
    omega
  rw [shiftToTargetExponent_eq, none]
  exact congrArg _ (Int.add_zero e)

/-- A mantissa that rounding has made one bit too long is halved. -/
theorem shiftToTargetExponent_carry {e : Int} (low : -1074 ≤ e) :
    shiftToTargetExponent .binary64 (2 ^ 53) e .exact = (⟨2 ^ 52, false, false⟩, e + 1) := by
  have once : (gridExponent (2 ^ 53) e - e).toNat = 1 := by
    unfold gridExponent
    rw [Nat.log2_two_pow]
    omega
  rw [shiftToTargetExponent_eq, once]
  rfl

/-- What a value is rounded to is not below its whole part on the grid. -/
theorem exists_roundWithAccuracy {m : Nat} {e : Int} (pos : 0 < m) (fine : e ≤ gridExponent m e)
    (some : 0 < m / 2 ^ (gridExponent m e - e).toNat) :
    ∃ (r : Nat) (E : Int) (h : 0 < r),
      roundWithAccuracy .binary64 .positive m e .exact = .finite .positive r E h ∧
        Normalized r E ∧
          finiteBits (m / 2 ^ (gridExponent m e - e).toNat) (gridExponent m e) ≤
            finiteBits r E := by
  have low : -1074 ≤ gridExponent m e := Int.le_max_right _ _
  have exponent : e + ((gridExponent m e - e).toNat : Int) = gridExponent m e := by omega
  have fits := div_gridExponent_lt m e
  have full := le_div_gridExponent pos fine
  unfold roundWithAccuracy
  rw [shiftToTargetExponent_eq, exponent]
  dsimp only
  have bounds := roundedMantissa_bounds
    ((⟨m, false, false⟩ : ExtendedMantissa) >>> (gridExponent m e - e).toNat)
  rw [mantissa_shiftRight] at bounds
  dsimp only at bounds
  generalize ((⟨m, false, false⟩ : ExtendedMantissa) >>>
    (gridExponent m e - e).toNat).roundedMantissa = rounded at bounds
  generalize gridExponent m e = grid at *
  generalize m / 2 ^ (grid - e).toNat = part at *
  unfold finiteBits
  by_cases small : rounded < 2 ^ 53
  · rw [shiftToTargetExponent_of_lt small low]
    refine ⟨rounded, grid, by omega, ?_, ⟨low, small, by omega⟩, by omega⟩
    exact dif_neg (by change ¬rounded = 0; omega)
  · obtain rfl : rounded = 2 ^ 53 := by omega
    rw [shiftToTargetExponent_carry low]
    exact ⟨2 ^ 52, grid + 1, by decide, rfl, ⟨by omega, by decide, .inr (Nat.le_refl _)⟩, by omega⟩

/-- The grid is at least as coarse as the one of any double that is not above the value. -/
theorem Normalized.le_gridExponent {m m' : Nat} {e e' : Int} (h : Normalized m' e') (pos : 0 < m)
    (coarser : e ≤ e') (below : m' * 2 ^ (e' - e).toNat ≤ m) : e' ≤ gridExponent m e := by
  rcases h.full with lowest | full
  · rw [lowest]
    exact Int.le_max_right _ _
  · have bits : 52 + (e' - e).toNat ≤ m.log2 := by
      rw [Nat.le_log2 (Nat.ne_of_gt pos), Nat.pow_add]
      exact Nat.le_trans (Nat.mul_le_mul_right _ full) below
    unfold gridExponent
    omega

/-- A value that is coarser than its grid is refined before it is rounded. -/
theorem round_eq (sign : Sign) (m : Nat) (e : Int) : round .binary64 sign m e =
    roundWithAccuracy .binary64 sign (m * 2 ^ (e - gridExponent m e).toNat)
      (e - (e - gridExponent m e).toNat) .exact := by
  rw [← Nat.shiftLeft_eq]
  rfl

/-- No double that is not above a value is above what the value is rounded to. -/
theorem exists_round {m : Nat} {e : Int} (pos : 0 < m) (low : -1074 ≤ e) :
    ∃ (r : Nat) (E : Int) (h : 0 < r), round .binary64 .positive m e = .finite .positive r E h ∧
      Normalized r E ∧
        ∀ (m' : Nat) (e' : Int), Normalized m' e' → e ≤ e' → m' * 2 ^ (e' - e).toNat ≤ m →
          finiteBits m' e' ≤ finiteBits r E := by
  rw [round_eq]
  have coarsest : -1074 ≤ gridExponent m e := Int.le_max_right _ _
  have outside := fun m' e' (h : Normalized m' e') => h.le_gridExponent (e := e) pos
  have same := gridExponent_mul_two_pow pos e (e - gridExponent m e).toNat
  have pos' : 0 < m * 2 ^ (e - gridExponent m e).toNat := Nat.mul_pos pos (Nat.two_pow_pos _)
  have full := le_div_gridExponent (e := e - (e - gridExponent m e).toNat) pos'
  have rounded := exists_roundWithAccuracy (e := e - (e - gridExponent m e).toNat) pos'
  rw [same] at full rounded
  generalize gridExponent m e = grid at *
  have fine : e - (e - grid).toNat ≤ grid := by omega
  have some : 0 < m * 2 ^ (e - grid).toNat / 2 ^ (grid - (e - (e - grid).toNat)).toNat := by
    by_cases finest : grid = -1074
    · have none : (grid - (e - (e - grid).toNat)).toNat = 0 := by omega
      rw [none, Nat.pow_zero, Nat.div_one]
      exact pos'
    · exact Nat.lt_of_lt_of_le (by decide) (full fine finest)
  obtain ⟨r, E, h, eq, normalized, above⟩ := rounded fine some
  refine ⟨r, E, h, eq, normalized, ?_⟩
  intro m' e' normalized' coarser below
  refine Nat.le_trans ?_ above
  have inside := outside m' e' normalized' coarser below
  by_cases same : e' = grid
  · subst same
    have none : (e - e').toNat = 0 := by omega
    have shift : (e' - (e - ((0 : Nat) : Int))).toNat = (e' - e).toNat := by omega
    rw [none, Nat.pow_zero, Nat.mul_one, shift]
    apply Nat.add_le_add_left
    exact (Nat.le_div_iff_mul_le (Nat.two_pow_pos _)).mpr below
  · have part := full fine (by have := normalized'.low; omega)
    have small := normalized'.small
    have lower := normalized'.low
    unfold finiteBits
    omega

/-! ### Sums -/

theorem add_eq (x y : Float) : x + y =
    .ofModel (.pack (UnpackedFloat.add .binary64 x.toModel.unpack y.toModel.unpack)) := rfl

theorem unpack_eq (x : Float) :
    x.toModel.unpack = UnpackedFloat.unpack .binary64 x.toModel.toBits.toBitVec := rfl

/-- The zero is the least of the doubles that are not negative. -/
theorem not_lt_zero_iff {y : Float} : ¬y < 0 ↔
    y.toModel.unpack.compare (.zero .positive) ≠ some .lt := by
  have zero : (0 : Float).toModel.unpack = .zero .positive := rfl
  rw [lt_iff_compare, zero]

/-- The sum of two finite doubles is the exact sum, rounded. -/
theorem add_finite {m m' : Nat} {e e' : Int} (pos : 0 < m) (pos' : 0 < m') :
    UnpackedFloat.add .binary64 (.finite .positive m e pos) (.finite .positive m' e' pos') =
      round .binary64 .positive
        (m * 2 ^ (e - min e e').toNat + m' * 2 ^ (e' - min e e').toNat) (min e e') := by
  have sum : 0 < m * 2 ^ (e - min e e').toNat + m' * 2 ^ (e' - min e e').toNat :=
    Nat.add_pos_left (Nat.mul_pos pos (Nat.two_pow_pos _)) _
  unfold UnpackedFloat.add decreaseExponent
  dsimp only [Sign.apply]
  rw [Nat.shiftLeft_eq, Nat.shiftLeft_eq, ← Int.natCast_add]
  generalize m * 2 ^ (e - min e e').toNat + m' * 2 ^ (e' - min e e').toNat = m at sum
  unfold UnpackedFloat.normalize
  rw [Int.compare_eq_gt.mpr (Int.natCast_pos.mpr sum)]
  rfl

/-- A finite double plus another one is packed with at least as many bits. -/
theorem Normalized.exists_fields_add {m m' : Nat} {e e' : Int} (h : Normalized m e)
    (h' : Normalized m' e') (pos : 0 < m) (pos' : 0 < m') (high : e ≤ 971) :
    ∃ sum : Fields, UnpackedFloat.pack .binary64
        (.add .binary64 (.finite .positive m e pos) (.finite .positive m' e' pos')) = sum.vector ∧
      finiteBits m e ≤ sum.bits := by
  have exact : 0 < m * 2 ^ (e - min e e').toNat + m' * 2 ^ (e' - min e e').toNat :=
    Nat.add_pos_left (Nat.mul_pos pos (Nat.two_pow_pos _)) _
  obtain ⟨r, E, some, eq, normalized, above⟩ :=
    exists_round exact (Int.le_min.mpr ⟨h.low, h'.low⟩)
  obtain ⟨sum, packed, bits⟩ := normalized.exists_fields some
  have finite := h.finiteBits_lt high
  have less := above m e h (Int.min_le_left _ _) (Nat.le_add_right _ _)
  refine ⟨sum, ?_, by omega⟩
  rw [add_finite, eq, packed]

/-- The forms of two doubles that are not negative are added to one with at least as many bits. -/
theorem Canonical.exists_fields_add {x y : UnpackedFloat} {n : Nat} {fields : Fields}
    (hx : Canonical x n) (bits : n = fields.bits)
    (packed : UnpackedFloat.pack .binary64 x = fields.vector) (number : y.isNaN = false)
    (nonneg : y.compare (.zero .positive) ≠ some .lt)
    (normalized : ∀ sign m e pos, y = .finite sign m e pos → Normalized m e) :
    ∃ sum : Fields, UnpackedFloat.pack .binary64 (.add .binary64 x y) = sum.vector ∧
      fields.bits ≤ sum.bits := by
  have unchanged (eq : UnpackedFloat.add .binary64 x y = x) : ∃ sum : Fields,
      UnpackedFloat.pack .binary64 (.add .binary64 x y) = sum.vector ∧ fields.bits ≤ sum.bits :=
    ⟨fields, by rw [eq, packed], Nat.le_refl _⟩
  have infinite (eq : UnpackedFloat.add .binary64 x y = .infinity .positive)
      (below : n ≤ topExponent * 2 ^ 52) : ∃ sum : Fields,
      UnpackedFloat.pack .binary64 (.add .binary64 x y) = sum.vector ∧ fields.bits ≤ sum.bits := by
    refine ⟨.infinity, ?_, ?_⟩
    · rw [eq]
      rfl
    · rw [← bits, Fields.bits_infinity]
      exact below
  match y with
  | .notANumber => cases number
  | .infinity .negative | .finite .negative _ _ _ => exact absurd rfl nonneg
  | .infinity .positive =>
    cases hx with
    | infinite => exact unchanged rfl
    | zero => exact infinite rfl (Nat.zero_le _)
    | finite m e pos h high => exact infinite rfl (Nat.le_of_lt (h.finiteBits_lt high))
  | .zero sign =>
    cases hx with
    | infinite => exact unchanged rfl
    | zero => cases sign <;> exact unchanged rfl
    | finite m e pos h high => exact unchanged rfl
  | .finite .positive m' e' pos' =>
    have h' := normalized _ _ _ _ rfl
    cases hx with
    | infinite => exact unchanged rfl
    | zero =>
      obtain ⟨sum, packed, -⟩ := h'.exists_fields pos'
      rw [← bits]
      exact ⟨sum, packed, Nat.zero_le _⟩
    | finite m e pos h high =>
      rw [← bits]
      exact h.exists_fields_add h' pos pos' high

/-- Adding a double that is not negative gives none that is less. -/
theorem Fields.exists_fields_add (fields : Fields) {y : Float} (number : y.isNaN = false)
    (nonneg : ¬y < 0) :
    ∃ sum : Fields, fields.toFloat + y = sum.toFloat ∧ fields.bits ≤ sum.bits := by
  rw [not_lt_zero_iff] at nonneg
  rw [isNaN_eq] at number
  have packed : UnpackedFloat.pack .binary64 fields.toFloat.toModel.unpack = fields.vector := by
    rw [unpack_toModel, pack_unpack]
  obtain ⟨sum, packed, above⟩ := fields.canonical.exists_fields_add rfl packed number nonneg
    fun sign m e pos h => normalized_of_unpack ((unpack_eq y).symm.trans h)
  exact ⟨sum, (add_eq _ _).trans (ofModel_pack packed), above⟩

/-! ### Times -/

/-- The double stands for a number and has no sign: it is neither negative nor the negative zero. -/
def IsTime (x : Float) : Prop := ∃ fields : Fields, x = fields.toFloat

/-- The double stands for a number that is not negative; it may be the negative zero. -/
def IsDuration (x : Float) : Prop := x.isNaN = false ∧ ¬x < 0

namespace IsTime

variable {x y z : Float}

theorem zero : IsTime 0 := ⟨⟨0, 0, by decide, by decide, by decide⟩, rfl⟩

theorem isNaN_eq (hx : IsTime x) : x.isNaN = false := by
  obtain ⟨fields, rfl⟩ := hx
  exact fields.isNaN_toFloat

theorem le_refl (hx : IsTime x) : x ≤ x := by
  obtain ⟨fields, rfl⟩ := hx
  exact (fields.le_iff fields).mpr (Nat.le_refl _)

theorem le_trans (hx : IsTime x) (hy : IsTime y) (hz : IsTime z) (first : x ≤ y)
    (second : y ≤ z) : x ≤ z := by
  obtain ⟨fields, rfl⟩ := hx
  obtain ⟨fields', rfl⟩ := hy
  obtain ⟨fields'', rfl⟩ := hz
  rw [Fields.le_iff] at first second ⊢
  exact Nat.le_trans first second

theorem le_of_lt (hx : IsTime x) (hy : IsTime y) (h : x < y) : x ≤ y := by
  obtain ⟨fields, rfl⟩ := hx
  obtain ⟨fields', rfl⟩ := hy
  rw [Fields.lt_iff] at h
  exact (fields.le_iff fields').mpr (Nat.le_of_lt h)

theorem eq_of_le (hx : IsTime x) (hy : IsTime y) (h : x ≤ y) (h' : ¬x < y) : x = y := by
  obtain ⟨fields, rfl⟩ := hx
  obtain ⟨fields', rfl⟩ := hy
  rw [Fields.le_iff] at h
  rw [Fields.lt_iff] at h'
  exact fields.toFloat_inj fields' (by omega)

/-- Time goes on by a duration, never back. -/
theorem add (hx : IsTime x) (hy : IsDuration y) : IsTime (x + y) ∧ x ≤ x + y := by
  obtain ⟨fields, rfl⟩ := hx
  obtain ⟨sum, eq, above⟩ := fields.exists_fields_add hy.1 hy.2
  rw [eq]
  exact ⟨⟨sum, rfl⟩, (fields.le_iff sum).mpr above⟩

/-- A place that is not before another one in the order of all doubles is that of a time that is not
less. -/
theorem le_of_orderKey (hx : IsTime x) (hy : IsTime y)
    (h : (orderKey x).toNat ≤ (orderKey y).toNat) : x ≤ y := by
  obtain ⟨fields, rfl⟩ := hx
  obtain ⟨fields', rfl⟩ := hy
  rw [Fields.toNat_orderKey, Fields.toNat_orderKey] at h
  exact (fields.le_iff fields').mpr (by omega)

theorem lt_of_orderKey (hx : IsTime x) (hy : IsTime y)
    (h : (orderKey x).toNat < (orderKey y).toNat) : x < y := by
  obtain ⟨fields, rfl⟩ := hx
  obtain ⟨fields', rfl⟩ := hy
  rw [Fields.toNat_orderKey, Fields.toNat_orderKey] at h
  exact (fields.lt_iff fields').mpr (by omega)

end IsTime

end DarijaScript.Decimal
