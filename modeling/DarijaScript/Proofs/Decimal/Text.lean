import DarijaScript.Proofs.Decimal.Shortest
import DarijaScript.Proofs.Text.Run

/-!
# The text of a double reads back

A double that is not negative is written with digits and at most one point, and the text is read as
the same double.
-/

namespace DarijaScript.Decimal

open Text

theorem ne_of_isDigit {c d : Char} (digit : c.isDigit = true) (other : d.isDigit = false) :
    c ≠ d := by
  rintro rfl
  simp [digit] at other

theorem toLower_of_isDigit {c : Char} (digit : c.isDigit = true) : c.toLower = c := by
  simp only [Char.isDigit, Bool.and_eq_true, decide_eq_true_eq] at digit
  unfold Char.toLower
  rw [dif_neg]
  rintro ⟨above, -⟩
  have := digit.2
  simp only [UInt32.le_iff_toNat_le, ge_iff_le] at above this
  exact absurd (Nat.le_trans above this) (by decide)

theorem splitSign_of_isDigit {c : Char} {rest : List Char} (digit : c.isDigit = true) :
    splitSign (c :: rest) = (false, c :: rest) := by
  unfold splitSign
  split
  · next eq => exact absurd (List.cons.inj eq).1 (ne_of_isDigit digit rfl)
  · next eq => exact absurd (List.cons.inj eq).1 (ne_of_isDigit digit rfl)
  · rfl

/-- A text that begins with a digit has no sign and is no word. -/
theorem read?_of_isDigit {c : Char} {rest : List Char} (digit : c.isDigit = true) :
    read? (c :: rest) = readUnsigned? (c :: rest) := by
  have noWord : readWord? (c :: rest) = none := by
    have lower := toLower_of_isDigit digit
    have noInfinity := ne_of_isDigit (d := 'i') digit rfl
    have noNumber := ne_of_isDigit (d := 'n') digit rfl
    simp [readWord?, lower, noInfinity, noNumber]
  unfold read?
  rw [splitSign_of_isDigit digit]
  simp [noWord]

/-- A number with no sign and no power of ten, as it is written: digits and, if there is a fraction,
a point and more digits. -/
structure Positional where
  whole : List Char
  fraction : List Char
  nonempty : whole ≠ []
  digits : ∀ c ∈ whole ++ fraction, c.isDigit = true

namespace Positional

variable (number : Positional)

/-- The text of the number. -/
def chars : List Char :=
  if number.fraction = [] then number.whole else number.whole ++ '.' :: number.fraction

/-- The double that the number is read as. -/
def toFloat : Float :=
  ofScientific (natOfDigits (number.whole ++ number.fraction)) (-number.fraction.length)

theorem isDigit_of_mem_whole {c : Char} (mem : c ∈ number.whole) : c.isDigit = true :=
  number.digits c (List.mem_append_left _ mem)

theorem isDigit_of_mem_fraction {c : Char} (mem : c ∈ number.fraction) : c.isDigit = true :=
  number.digits c (List.mem_append_right _ mem)

theorem chars_eq_cons : ∃ c rest, number.chars = c :: rest ∧ c.isDigit = true := by
  obtain ⟨c, rest, eq⟩ := List.exists_cons_of_ne_nil number.nonempty
  have digit : c.isDigit = true := number.isDigit_of_mem_whole (by simp [eq])
  unfold chars
  split
  · exact ⟨c, rest, eq, digit⟩
  · exact ⟨c, rest ++ '.' :: number.fraction, by rw [eq, List.cons_append], digit⟩

theorem readUnsigned?_chars : readUnsigned? number.chars = some number.toFloat := by
  have none : number.whole.isEmpty = false := by simp [number.nonempty]
  have none' : ([] : List Char).head?.any Char.isDigit = false := rfl
  unfold readUnsigned? chars toFloat
  split
  · next empty =>
    have taken := takeWhile_run (fun _ => number.isDigit_of_mem_whole) none'
    have left := dropWhile_run (fun _ => number.isDigit_of_mem_whole) none'
    rw [List.append_nil] at taken left
    rw [taken, left]
    simp [none, empty, readExponent?]
  · have point : ('.' :: number.fraction).head?.any Char.isDigit = false := rfl
    have taken := takeWhile_run (fun _ => number.isDigit_of_mem_whole) point
    have left := dropWhile_run (fun _ => number.isDigit_of_mem_whole) point
    have taken' := takeWhile_run (fun _ => number.isDigit_of_mem_fraction) none'
    have left' := dropWhile_run (fun _ => number.isDigit_of_mem_fraction) none'
    rw [List.append_nil] at taken' left'
    rw [taken, left]
    simp [none, taken', left', readExponent?]

theorem read?_chars : read? number.chars = some number.toFloat := by
  obtain ⟨c, rest, eq, digit⟩ := number.chars_eq_cons
  rw [eq, read?_of_isDigit digit, ← eq, number.readUnsigned?_chars]

end Positional

theorem natOfDigits_eq (digits : List Char) : natOfDigits digits = Nat.ofDigitChars 10 digits 0 := rfl

/-- Digits behind a point are read as they are. -/
theorem Numeral.toFloat_of_places {numeral : Numeral} (below : numeral.exponent < 0)
    {number : Positional} (digits : natOfDigits (number.whole ++ number.fraction) = numeral.coefficient)
    (places : number.fraction.length = (-numeral.exponent).toNat) :
    number.toFloat = numeral.toFloat := by
  have exponent : -((-numeral.exponent).toNat : Int) = numeral.exponent := by omega
  rw [Positional.toFloat, digits, places, exponent, Numeral.toFloat]

/-- The digits of a numeral, with a point at the right place, are read as the numeral. -/
theorem Numeral.text_eq {numeral : Numeral} (few : numeral.exponent ≤ 400) :
    ∃ number : Positional, numeral.text.toList = number.chars ∧
      number.toFloat = numeral.toFloat := by
  have digit {c : Char} (mem : c ∈ Nat.toDigits 10 numeral.coefficient) : c.isDigit = true :=
    Nat.isDigit_of_mem_toDigits (by decide) (by decide) mem
  have zero {n : Nat} {c : Char} (mem : c ∈ List.replicate n '0') : c.isDigit = true := by
    rw [List.eq_of_mem_replicate mem]
    rfl
  have nonempty : Nat.toDigits 10 numeral.coefficient ≠ [] := Nat.toDigits_ne_nil
  have value : Nat.ofDigitChars 10 (Nat.toDigits 10 numeral.coefficient) 0 = numeral.coefficient :=
    Nat.ofDigitChars_ten_toDigits
  unfold Numeral.text
  rw [String.toList_ofList, Nat.toList_repr]
  generalize Nat.toDigits 10 numeral.coefficient = digits at *
  dsimp only
  split
  · next whole =>
    refine ⟨⟨_, [], List.append_ne_nil_of_left_ne_nil nonempty _, ?_⟩, rfl, ?_⟩
    · intro c mem
      rw [List.append_nil, List.mem_append] at mem
      exact mem.elim digit zero
    · unfold Positional.toFloat Numeral.toFloat
      dsimp only
      rw [List.append_nil, natOfDigits_eq, Nat.ofDigitChars_append, value,
        Nat.ofDigitChars_replicate_zero]
      split
      · next none => rw [none]; simp [ofScientific]
      · next some =>
        have places : numeral.exponent.toNat ≤ 400 := by omega
        have scaled := ofScientific_mul_ten_pow some places
        rw [Int.toNat_of_nonneg whole] at scaled
        rw [Nat.mul_comm]
        exact scaled
  · next below =>
    split
    · next inside =>
      have whole : digits.take (digits.length - (-numeral.exponent).toNat) ≠ [] := by
        simp [nonempty]
        omega
      have fraction : digits.drop (digits.length - (-numeral.exponent).toNat) ≠ [] := by
        simp
        omega
      refine ⟨⟨_, _, whole, fun c mem => digit (by rwa [List.take_append_drop] at mem)⟩,
        (if_neg fraction).symm, Numeral.toFloat_of_places (by omega) ?_ ?_⟩
      · dsimp only
        rw [List.take_append_drop, natOfDigits_eq, value]
      · dsimp only
        rw [List.length_drop]
        omega
    · next outside =>
      have fraction : List.replicate ((-numeral.exponent).toNat - digits.length) '0' ++ digits ≠ [] :=
        List.append_ne_nil_of_right_ne_nil _ nonempty
      have zeroDigit : Nat.ofDigitChars 10 ['0'] 0 = 0 := rfl
      refine ⟨⟨['0'], _, by simp, ?_⟩, (if_neg fraction).symm,
        Numeral.toFloat_of_places (by omega) ?_ ?_⟩
      · intro c mem
        rw [List.cons_append, List.nil_append, List.mem_cons, List.mem_append] at mem
        rcases mem with rfl | mem | mem
        · rfl
        · exact zero mem
        · exact digit mem
      · dsimp only
        rw [natOfDigits_eq, Nat.ofDigitChars_append, Nat.ofDigitChars_append,
          Nat.ofDigitChars_replicate_zero, zeroDigit, Nat.mul_zero, value]
      · dsimp only
        rw [List.length_append, List.length_replicate]
        omega

theorem text_of_finite {x : Float} {value : Dyadic} (h : unpack x = .finite value)
    (positive : value.negative = false) :
    text x = if value.mantissa = 0 then "0" else value.numeral.text := by
  unfold text
  rw [h]
  simp [positive]

/-- A double that is not negative is written as a number that is read as the double. -/
theorem text_eq {fields : Fields} (finite : fields.field ≠ topExponent) :
    ∃ number : Positional, (text fields.toFloat).toList = number.chars ∧
      number.toFloat = fields.toFloat := by
  obtain ⟨value, unpacked⟩ : ∃ value, unpack fields.toFloat = .finite value := by
    rw [fields.unpack_toFloat, if_neg finite]
    split
    · exact ⟨_, rfl⟩
    · exact ⟨_, rfl⟩
  obtain ⟨positive, packed, -⟩ := pack_of_unpack unpacked
  rw [text_of_finite unpacked positive]
  split
  · next none =>
    refine ⟨⟨['0'], [], by simp, by simp⟩, rfl, ?_⟩
    rw [← packed, none, pack, if_pos rfl]
    simp [Positional.toFloat, natOfDigits, ofScientific]
  · next some =>
    obtain ⟨reads, few⟩ := numeral_toFloat unpacked (Nat.pos_of_ne_zero some)
    obtain ⟨number, eq, same⟩ := Numeral.text_eq few
    exact ⟨number, eq, same.trans reads⟩

/-- **The text of a double is read as that double.** -/
theorem read?_text {fields : Fields} (finite : fields.field ≠ topExponent) :
    read? (text fields.toFloat).toList = some fields.toFloat := by
  obtain ⟨number, eq, same⟩ := text_eq finite
  rw [eq, number.read?_chars, same]

/-- What is read from a text that begins with a digit has fields. -/
theorem exists_fields_of_read? {c : Char} {rest : List Char} {x : Float} (digit : c.isDigit = true)
    (h : read? (c :: rest) = some x) : ∃ fields : Fields, x = fields.toFloat := by
  rw [read?_of_isDigit digit] at h
  unfold readUnsigned? at h
  dsimp only at h
  have fields {digits : List Char} {places : Int} {exponent : Option Int}
      (h : exponent.map (fun exponent => ofScientific (natOfDigits digits) (exponent - places)) =
        some x) : ∃ fields : Fields, x = fields.toFloat := by
    obtain ⟨exponent, -, rfl⟩ := Option.map_eq_some_iff.mp h
    exact exists_fields_ofScientific _ _
  split at h
  · split at h
    · cases h
    · exact fields h
  · split at h
    · cases h
    · exact fields h

end DarijaScript.Decimal
