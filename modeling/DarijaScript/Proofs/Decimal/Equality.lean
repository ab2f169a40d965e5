import DarijaScript.Proofs.Decimal.Compare

/-!
# Doubles that compare as equal

Two doubles compare as equal exactly if both stand for one number, where a zero is the same number
with either sign and NaN is none. So comparing is an equality on all doubles but NaN, which is equal
to nothing, itself included.
-/

namespace DarijaScript.Decimal

open Float.Model UnpackedFloat

/-- A form in which both zeros are one. -/
def unsignedZero : UnpackedFloat → UnpackedFloat
  | .zero _ => .zero .positive
  | x => x

/-- The number that a double stands for. -/
def number? (x : Float) : Option UnpackedFloat :=
  if x.isNaN then none else some (unsignedZero x.toModel.unpack)

/-- Forms compare as equal exactly if they stand for one number. -/
theorem compare_eq_iff (x y : UnpackedFloat) :
    x.compare y = some .eq ↔ x.isNaN = false ∧ unsignedZero x = unsignedZero y := by
  have signs (s s' : Sign) : compare s s' = .eq ↔ s = s' := by
    cases s <;> cases s' <;> simp [compare]
  have swapped (o : Ordering) : o.swap = .eq ↔ o = .eq := by cases o <;> decide
  have ordered (e e' : Int) (m m' : Nat) :
      (compare e e').then (compare m m') = .eq ↔ m = m' ∧ e = e' := by
    rw [Ordering.then_eq_eq, Int.compare_eq_eq, Nat.compare_eq_eq]
    exact And.comm
  cases x with
  | notANumber => simp [UnpackedFloat.compare, UnpackedFloat.isNaN]
  | infinity sign =>
    cases y with
    | infinity sign' => simp [UnpackedFloat.compare, unsignedZero, UnpackedFloat.isNaN, signs]
    | _ => cases sign <;> simp [UnpackedFloat.compare, unsignedZero]
  | zero sign =>
    cases y with
    | infinity sign' => cases sign' <;> simp [UnpackedFloat.compare, unsignedZero]
    | finite sign' => cases sign' <;> simp [UnpackedFloat.compare, unsignedZero]
    | _ => simp [UnpackedFloat.compare, unsignedZero, UnpackedFloat.isNaN]
  | finite sign m e =>
    cases y with
    | infinity sign' => cases sign' <;> simp [UnpackedFloat.compare, unsignedZero]
    | finite sign' m' e' =>
      cases sign <;> cases sign' <;>
        simp [UnpackedFloat.compare, unsignedZero, UnpackedFloat.isNaN, ordered, swapped]
    | _ => cases sign <;> simp [UnpackedFloat.compare, unsignedZero]

theorem number?_eq_none_iff {x : Float} : number? x = none ↔ x.isNaN = true := by
  unfold number?
  cases x.isNaN <;> simp

theorem beq_iff_unsignedZero {x y : Float} : (x == y) = true ↔
    x.isNaN = false ∧ unsignedZero x.toModel.unpack = unsignedZero y.toModel.unpack := by
  rw [isNaN_eq, ← compare_eq_iff]
  change (x.toModel.unpack.compare y.toModel.unpack == some .eq) = true ↔ _
  exact beq_iff_eq

/-- Doubles compare as equal exactly if they stand for one number. -/
theorem beq_iff {x y : Float} : (x == y) = true ↔ number? x ≠ none ∧ number? x = number? y := by
  have kept (form : UnpackedFloat) : (unsignedZero form).isNaN = form.isNaN := by cases form <;> rfl
  rw [beq_iff_unsignedZero, ne_eq, number?_eq_none_iff, Bool.not_eq_true]
  refine and_congr_right fun number => ?_
  unfold number?
  rw [number, if_neg Bool.false_ne_true, isNaN_eq y]
  rw [isNaN_eq] at number
  constructor
  · intro same
    rw [← kept, ← same, kept, number, if_neg Bool.false_ne_true]
  · intro same
    split at same
    · cases same
    · exact Option.some.inj same

theorem beq_comm (x y : Float) : (x == y) = (y == x) := by
  have symm {x y : Float} (h : (x == y) = true) : (y == x) = true := by
    rw [beq_iff] at h ⊢
    exact ⟨h.2 ▸ h.1, h.2.symm⟩
  exact Bool.eq_iff_iff.mpr ⟨symm, symm⟩

end DarijaScript.Decimal
