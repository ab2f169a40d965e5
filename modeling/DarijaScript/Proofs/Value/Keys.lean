import DarijaScript.Proofs.Decimal.Text
import DarijaScript.Proofs.Decimal.Whole
import DarijaScript.Value.Basic

/-!
# Keys that denote an index

An index may be given as a number or in decimal digits, and each of the two is recognised on a way
of its own. Both ways find the same: a number denotes the index that it equals, and a text the index
whose digits it is, with no zero in front.
-/

namespace DarijaScript

/-! ### Digits -/

theorem exists_digitChar {c : Char} (h : c.isDigit = true) : ∃ d < 10, c = d.digitChar := by
  have bounds : 48 ≤ c.toNat ∧ c.toNat ≤ 57 := by
    simpa [Char.isDigit, UInt32.le_iff_toNat_le] using h
  refine ⟨c.toNat - 48, by omega, Char.toNat_inj.mp ?_⟩
  rw [Nat.toNat_digitChar_of_lt_ten (by omega)]
  omega

/-- The digits of a number that is not zero begin with no zero. -/
theorem head?_toDigits {n : Nat} (pos : 0 < n) : (Nat.toDigits 10 n).head? ≠ some '0' := by
  induction n using Nat.base_induction 10 (by decide) with
  | single n small =>
    rw [Nat.toDigits_of_lt_base small]
    simpa using Nat.ne_of_gt pos
  | digit n k small some ih =>
    rw [← Nat.toDigits_append_toDigits (by decide) some small,
      List.head?_append_of_ne_nil _ Nat.toDigits_ne_nil]
    exact ih some

/-- Further digits are written behind those of the number read so far. -/
theorem toDigits_ofDigitChars {digits : List Char} (all : ∀ c ∈ digits, c.isDigit = true) {n : Nat}
    (pos : 0 < n) : Nat.toDigits 10 (Nat.ofDigitChars 10 digits n) = Nat.toDigits 10 n ++ digits := by
  induction digits generalizing n with
  | nil => rw [Nat.ofDigitChars_nil, List.append_nil]
  | cons c rest ih =>
    obtain ⟨d, small, rfl⟩ := exists_digitChar (all c (List.mem_cons_self ..))
    rw [Nat.ofDigitChars_cons_digitChar_of_lt_ten small,
      ih (fun c mem => all c (List.mem_cons_of_mem _ mem)) (by omega),
      ← Nat.toDigits_append_toDigits (by decide) pos small, Nat.toDigits_of_lt_base small,
      List.append_assoc]
    rfl

/-- Digits that begin with no zero are those of the number that they write. -/
theorem toDigits_natOfDigits {digits : List Char} (all : ∀ c ∈ digits, c.isDigit = true)
    (nonempty : digits ≠ []) (head : digits.length = 1 ∨ digits.head? ≠ some '0') :
    Nat.toDigits 10 (Decimal.natOfDigits digits) = digits := by
  rw [Decimal.natOfDigits_eq]
  cases digits with
  | nil => exact absurd rfl nonempty
  | cons c rest =>
    obtain ⟨d, small, rfl⟩ := exists_digitChar (all c (List.mem_cons_self ..))
    rw [Nat.ofDigitChars_cons_digitChar_of_lt_ten small, Nat.mul_zero, Nat.zero_add]
    rcases Nat.eq_zero_or_pos d with rfl | pos
    · have alone : rest = [] := by simpa using head
      rw [alone]
      rfl
    · rw [toDigits_ofDigitChars (fun c mem => all c (List.mem_cons_of_mem _ mem)) pos,
        Nat.toDigits_of_lt_base small]
      rfl

namespace Value

/-- A text writes a number in canonical digits exactly if it is the text of that number. -/
theorem canonicalNat?_iff {text : String} {n : Nat} :
    canonicalNat? text = some n ↔ text = n.repr := by
  unfold canonicalNat?
  dsimp only
  constructor
  · intro read
    split at read
    · next canonical =>
      simp only [Bool.and_eq_true, Bool.or_eq_true, List.all_eq_true, Bool.not_eq_true',
        List.isEmpty_eq_false_iff, beq_iff_eq, bne_iff_ne] at canonical
      obtain ⟨⟨all, nonempty⟩, head⟩ := canonical
      rw [← String.toList_inj, Nat.toList_repr, ← Option.some.inj read,
        toDigits_natOfDigits all nonempty head]
    · cases read
  · rintro rfl
    have all : ∀ c ∈ Nat.toDigits 10 n, c.isDigit = true :=
      fun _ => Nat.isDigit_of_mem_toDigits (by decide) (by decide)
    have head : (Nat.toDigits 10 n).length = 1 ∨ (Nat.toDigits 10 n).head? ≠ some '0' := by
      rcases Nat.eq_zero_or_pos n with rfl | pos
      · exact .inl rfl
      · exact .inr (head?_toDigits pos)
    rw [Nat.toList_repr, if_pos, Decimal.natOfDigits_eq, Nat.ofDigitChars_ten_toDigits]
    simp only [Bool.and_eq_true, Bool.or_eq_true, List.all_eq_true, Bool.not_eq_true',
      List.isEmpty_eq_false_iff, beq_iff_eq, bne_iff_ne]
    exact ⟨⟨all, Nat.toDigits_ne_nil⟩, head⟩

/-! ### Indices -/

/-- The key is the number, or its text. -/
def Denotes : Value → Nat → Prop
  | number x, n => (x == Decimal.ofNat n) = true
  | string text, n => text = n.repr
  | _, _ => False

variable {key : Value} {i : Nat}

theorem denotes_of_index? (h : key.index? = some i) : key.Denotes i := by
  cases key with
  | number x => exact Decimal.beq_ofNat_of_toNat? (Option.filter_eq_some_iff.mp h).1
  | string text => exact canonicalNat?_iff.mp (Option.filter_eq_some_iff.mp h).1
  | _ => cases h

/-- A key has a small index exactly if it denotes that index. -/
theorem index?_iff (small : i < 2 ^ 53) : key.index? = some i ↔ key.Denotes i := by
  have below : decide (i < 2 ^ 64) = true := decide_eq_true (Nat.lt_trans small (by decide))
  refine ⟨denotes_of_index?, fun denotes => ?_⟩
  cases key with
  | number x =>
    exact Option.filter_eq_some_iff.mpr ⟨(Decimal.toNat?_eq_some_iff small).mpr denotes, below⟩
  | string text => exact Option.filter_eq_some_iff.mpr ⟨canonicalNat?_iff.mpr denotes, below⟩
  | _ => cases denotes

theorem denotes_ofNat (small : i < 2 ^ 53) : (ofNat i).Denotes i :=
  (Decimal.toNat?_eq_some_iff small).mp (Decimal.toNat?_ofNat small)

theorem denotes_repr (i : Nat) : (string i.repr).Denotes i := rfl

end Value

end DarijaScript
