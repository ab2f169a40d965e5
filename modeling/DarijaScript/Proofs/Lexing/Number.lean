import DarijaScript.Proofs.Lexing.Follow

/-!
# The texts of numbers

A number is written with digits, then with a fraction or none, then with a power of ten or none. The
lexer finds the parts one by one, and it finds each of them again whatever ends the number.
-/

namespace DarijaScript

open Text

section

variable {rest : List Char} (ends : rest.head?.any isWordChar = false)
include ends

theorem digitAhead_of_endsWord : digitAhead rest = false := by
  cases rest with
  | nil => rfl
  | cons c rest => exact isDigit_of_isWordChar (by simpa using ends)

theorem powerAhead_of_endsWord : powerAhead rest = [] := by
  cases rest with
  | nil => rfl
  | cons c rest =>
    have ends : isWordChar c = false := by simpa using ends
    have noPower : ¬(c = 'e' ∨ c = 'E') := by
      rintro (rfl | rfl)
      · exact absurd ends (by decide +kernel)
      · exact absurd ends (by decide +kernel)
    unfold powerAhead
    exact if_neg noPower

theorem takeWhile_of_endsWord : rest.takeWhile isWordChar = [] :=
  takeWhile_run (by simp : ∀ c ∈ [], isWordChar c = true) ends

end

/-! ### Fractions -/

/-- A point and digits, or nothing. -/
inductive IsFraction : List Char → Prop
  | none : IsFraction []
  | digits {digit : Char} {digits : List Char} (first : digit.isDigit = true)
      (all : ∀ c ∈ digits, c.isDigit = true) : IsFraction ('.' :: digit :: digits)

theorem isDigit_of_mem_takeWhile {text : List Char} {c : Char}
    (mem : c ∈ text.takeWhile Char.isDigit) : c.isDigit = true :=
  List.all_eq_true.mp List.all_takeWhile c mem

theorem isFraction_fractionAhead (text : List Char) : IsFraction (fractionAhead text) := by
  unfold fractionAhead
  split
  · split
    · next digit => exact .digits digit fun _ => isDigit_of_mem_takeWhile
    · exact .none
  · exact .none

theorem fractionAhead_isPrefix (text : List Char) : fractionAhead text <+: text := by
  unfold fractionAhead
  split
  · split
    · simp [List.takeWhile_prefix]
    · exact List.nil_prefix
  · exact List.nil_prefix

theorem IsFraction.ahead {fraction rest : List Char} (h : IsFraction fraction)
    (ends : digitAhead rest = false) (alone : fraction = [] → fractionAhead rest = []) :
    fractionAhead (fraction ++ rest) = fraction := by
  cases h with
  | none => exact alone rfl
  | digits first all =>
    rw [List.cons_append, List.cons_append, fractionAhead, if_pos first, takeWhile_run all ends]

/-! ### Powers of ten -/

/-- A power of ten: its letter, then a sign or none, then digits; or nothing. -/
inductive IsPower : List Char → Prop
  | none : IsPower []
  | plain {letter digit : Char} {digits : List Char} (power : letter = 'e' ∨ letter = 'E')
      (first : digit.isDigit = true) (all : ∀ c ∈ digits, c.isDigit = true) :
      IsPower (letter :: digit :: digits)
  | signed {letter sign digit : Char} {digits : List Char} (power : letter = 'e' ∨ letter = 'E')
      (signed : sign = '+' ∨ sign = '-') (first : digit.isDigit = true)
      (all : ∀ c ∈ digits, c.isDigit = true) : IsPower (letter :: sign :: digit :: digits)

section

variable {letter digit : Char} {rest : List Char}

theorem powerAhead_plain (power : letter = 'e' ∨ letter = 'E') (first : digit.isDigit = true) :
    powerAhead (letter :: digit :: rest) = letter :: digit :: rest.takeWhile Char.isDigit := by
  have noSign : ¬(digit = '+' ∨ digit = '-') := by
    rintro (rfl | rfl) <;> cases first
  unfold powerAhead
  dsimp only
  rw [if_pos power]
  cases rest with
  | nil => simp [first]
  | cons c rest => simp [first, noSign]

theorem powerAhead_signed {sign : Char} (power : letter = 'e' ∨ letter = 'E')
    (signed : sign = '+' ∨ sign = '-') (first : digit.isDigit = true) :
    powerAhead (letter :: sign :: digit :: rest) =
      letter :: sign :: digit :: rest.takeWhile Char.isDigit := by
  rw [powerAhead, if_pos power]
  exact if_pos ⟨signed, first⟩

end

/-- What is found is a power of ten at the front of the text. -/
theorem powerAhead_ok (text : List Char) : IsPower (powerAhead text) ∧ powerAhead text <+: text := by
  have none : IsPower [] ∧ [] <+: text := ⟨.none, List.nil_prefix⟩
  have all (digits : List Char) : ∀ c ∈ digits.takeWhile Char.isDigit, c.isDigit = true :=
    fun _ => isDigit_of_mem_takeWhile
  cases found : (powerAhead text).isEmpty with
  | true => rwa [List.isEmpty_iff.mp found]
  | false =>
    cases text with
    | nil => cases found
    | cons letter rest =>
      rw [powerAhead_cons] at found
      obtain ⟨power, ahead⟩ : (letter = 'e' ∨ letter = 'E') ∧
          (digitAhead rest = true ∨ signedDigitAhead rest = true) := by
        simpa only [Bool.not_eq_false', Bool.and_eq_true, Bool.or_eq_true, beq_iff_eq] using found
      cases rest with
      | nil => simp [digitAhead, signedDigitAhead] at ahead
      | cons digit more =>
        cases first : digit.isDigit with
        | true =>
          rw [powerAhead_plain power first]
          exact ⟨.plain power first (all more), by simp [List.takeWhile_prefix]⟩
        | false =>
          obtain ⟨sign, digits⟩ : (digit = '+' ∨ digit = '-') ∧ digitAhead more = true := by
            simpa [digitAhead, signedDigitAhead, first] using ahead
          cases more with
          | nil => cases digits
          | cons first more =>
            have digit : first.isDigit = true := by simpa [digitAhead] using digits
            rw [powerAhead_signed power sign digit]
            exact ⟨.signed power sign digit (all more), by simp [List.takeWhile_prefix]⟩

theorem IsPower.ahead {power rest : List Char} (h : IsPower power)
    (ends : rest.head?.any isWordChar = false) : powerAhead (power ++ rest) = power := by
  have stops := digitAhead_of_endsWord ends
  cases h with
  | none => exact powerAhead_of_endsWord ends
  | plain power first all =>
    rw [List.cons_append, List.cons_append, powerAhead_plain power first, takeWhile_run all stops]
  | signed power sign first all =>
    rw [List.cons_append, List.cons_append, List.cons_append, powerAhead_signed power sign first,
      takeWhile_run all stops]

theorem IsPower.noDigit {power : List Char} (h : IsPower power) : digitAhead power = false := by
  cases h with
  | none => rfl
  | plain power => rcases power with rfl | rfl <;> rfl
  | signed power => rcases power with rfl | rfl <;> rfl

theorem IsPower.letter_ne {letter : Char} {power : List Char} (h : IsPower (letter :: power)) :
    letter ≠ '.' := by
  cases h with
  | plain power => rcases power with rfl | rfl <;> decide
  | signed power => rcases power with rfl | rfl <;> decide

/-! ### Numbers -/

/-- The text of a number. -/
inductive IsNumber : List Char → Prop
  | mk {whole fraction power : List Char} (nonempty : whole ≠ [])
      (digits : ∀ c ∈ whole, c.isDigit = true) (places : IsFraction fraction)
      (scale : IsPower power) : IsNumber (whole ++ fraction ++ power)

theorem digitAhead_of_forall {digits : List Char} (nonempty : digits ≠ [])
    (all : ∀ c ∈ digits, c.isDigit = true) : digitAhead digits = true := by
  obtain ⟨c, digits, rfl⟩ := List.exists_cons_of_ne_nil nonempty
  simpa [digitAhead] using all c (by simp)

theorem digitAhead_append {text : List Char} (digit : digitAhead text = true) (rest : List Char) :
    digitAhead (text ++ rest) = true := by
  cases text with
  | nil => cases digit
  | cons => exact digit

theorem IsNumber.begins {text : List Char} (h : IsNumber text) : digitAhead text = true := by
  cases h with
  | mk nonempty digits =>
    exact digitAhead_append (digitAhead_append (digitAhead_of_forall nonempty digits) _) _

namespace Decimal

theorem readExponent?_isSome {power : List Char} (h : IsPower power) :
    (readExponent? power).isSome = true := by
  cases h with
  | none => rfl
  | plain power first all =>
    unfold readExponent?
    dsimp only
    rw [if_pos power, splitSign_of_isDigit first]
    simp [first, List.all_eq_true.mpr all]
  | signed power signed first all =>
    unfold readExponent?
    dsimp only
    rw [if_pos power]
    rcases signed with rfl | rfl <;> simp [splitSign, first, List.all_eq_true.mpr all]

/-- Every text of a number is read as one. -/
theorem read?_isSome {text : List Char} (h : IsNumber text) : (read? text).isSome = true := by
  cases h with
  | @mk whole fraction power nonempty digits places scale =>
    have reads := readExponent?_isSome scale
    have stops : power.head?.any Char.isDigit = false := scale.noDigit
    have some : whole.isEmpty = false := by simp [nonempty]
    obtain ⟨c, others, eq⟩ := List.exists_cons_of_ne_nil nonempty
    have unsigned : read? (whole ++ fraction ++ power) = readUnsigned? (whole ++ fraction ++ power) := by
      rw [eq]
      exact read?_of_isDigit (digits c (by simp [eq]))
    rw [unsigned]
    unfold readUnsigned?
    cases places with
    | none =>
      rw [List.append_nil, takeWhile_run digits stops, dropWhile_run digits stops]
      dsimp only
      split
      · next eq => exact absurd rfl scale.letter_ne
      · simp [some, reads]
    | @digits digit more first all =>
      have point : ('.' :: digit :: (more ++ power)).head?.any Char.isDigit = false := rfl
      have all : ∀ c ∈ digit :: more, c.isDigit = true := by simpa [first] using all
      have taken := takeWhile_run all stops
      have left := dropWhile_run all stops
      rw [List.cons_append] at taken left
      rw [List.append_assoc, List.cons_append, List.cons_append, takeWhile_run digits point,
        dropWhile_run digits point]
      simp only [taken, left]
      simp [some, reads]

end Decimal

/-- What the scanner takes for a number is read as one that is not negative. -/
theorem IsNumber.exists_fields {text : List Char} (h : IsNumber text) :
    ∃ fields : Decimal.Fields, Decimal.read? text = some fields.toFloat := by
  obtain ⟨x, reads⟩ := Option.isSome_iff_exists.mp (Decimal.read?_isSome h)
  have begins := h.begins
  cases text with
  | nil => cases begins
  | cons c rest =>
    obtain ⟨fields, rfl⟩ := Decimal.exists_fields_of_read? begins reads
    exact ⟨fields, reads⟩

/-! ### Scanning -/

/-- Digits that are not the beginning of a word are the beginning of a number. -/
theorem scanNumber_eq {digits rest : List Char} (all : ∀ c ∈ digits, c.isDigit = true)
    (stops : digitAhead rest = false)
    (noWord : ((powerAhead rest).isEmpty && rest.head?.any isWordChar) = false) :
    scanNumber (digits ++ rest) =
      let fraction := fractionAhead rest
      let after := rest.drop fraction.length
      let power := powerAhead after
      let glued := (after.drop power.length).takeWhile isWordChar
      let taken := digits ++ fraction ++ power ++ glued
      if glued.isEmpty && (Decimal.read? taken).isSome then
        ⟨taken.length, .ok (.number, String.ofList taken)⟩
      else ⟨taken.length, .error (.invalidNumber (String.ofList taken))⟩ := by
  unfold scanNumber
  dsimp only
  rw [takeWhile_run all stops, dropWhile_run all stops, noWord]
  simp

/-- A number is taken as far as its text goes, and no fraction is added to one that has a fraction or
a power of ten. -/
theorem IsNumber.scanNumber_append {text rest : List Char} (h : IsNumber text)
    (ends : rest.head?.any isWordChar = false)
    (alone : (∀ c ∈ text, c.isDigit = true) → fractionAhead rest = []) :
    scanNumber (text ++ rest) = ⟨text.length, .ok (.number, String.ofList text)⟩ := by
  have reads := Decimal.read?_isSome h
  have noWord := takeWhile_of_endsWord ends
  cases h with
  | @mk whole fraction power nonempty digits places scale =>
    have power_eq := scale.ahead ends
    have behind : digitAhead (power ++ rest) = false := by
      cases power with
      | nil => exact digitAhead_of_endsWord ends
      | cons letter power => exact scale.noDigit
    have fraction_eq : fractionAhead (fraction ++ (power ++ rest)) = fraction := by
      refine places.ahead behind ?_
      rintro rfl
      cases power with
      | nil => exact alone (by simpa using digits)
      | cons letter power => exact fractionAhead_of_ne scale.letter_ne
    have stops : digitAhead (fraction ++ (power ++ rest)) = false := by
      cases places with
      | none => exact behind
      | digits => rfl
    have number : ((powerAhead (fraction ++ (power ++ rest))).isEmpty &&
        (fraction ++ (power ++ rest)).head?.any isWordChar) = false := by
      cases places with
      | none =>
        rw [List.nil_append, power_eq]
        cases power with
        | nil => simp [ends]
        | cons => rfl
      | digits =>
        have apart : isWordChar '.' = false := by decide +kernel
        simp [apart]
    rw [List.append_assoc, List.append_assoc, scanNumber_eq digits stops number]
    simp only [fraction_eq, List.drop_left, power_eq, noWord]
    rw [List.append_nil, reads]
    rfl

/-- How digits at the front of a text go on: as a word, as a number, or as a number that a word is glued
to. -/
inductive NumberFinds : List Char → Scan → Prop
  | word {text : List Char} (noPower : (powerAhead (text.dropWhile Char.isDigit)).isEmpty = true)
      (letter : (text.dropWhile Char.isDigit).head?.any isWordChar = true) :
      NumberFinds text (scanWord text)
  | number {number rest : List Char} (isNumber : IsNumber number)
      (ends : rest.head?.any isWordChar = false) :
      NumberFinds (number ++ rest) ⟨number.length, .ok (.number, String.ofList number)⟩
  | glued {number glued rest : List Char} (isNumber : IsNumber number) (some : glued ≠ [])
      (all : ∀ c ∈ glued, isWordChar c = true) (ends : rest.head?.any isWordChar = false) :
      NumberFinds (number ++ (glued ++ rest))
        ⟨(number ++ glued).length, .error (.invalidNumber (String.ofList (number ++ glued)))⟩

/-- The text of a number is always read as one, so nothing but a glued word makes it invalid. -/
theorem finds_scanNumber {text : List Char} (begins : digitAhead text = true) :
    NumberFinds text (scanNumber text) := by
  obtain ⟨whole, after, rfl, digits, stops⟩ := exists_run Char.isDigit text
  cases word : (powerAhead after).isEmpty && after.head?.any isWordChar with
  | true =>
    obtain ⟨noPower, letter⟩ := Bool.and_eq_true_iff.mp word
    have same : scanNumber (whole ++ after) = scanWord (whole ++ after) := by
      unfold scanNumber
      rw [dropWhile_run digits stops, if_pos word]
    rw [← dropWhile_run digits stops] at noPower letter
    rw [same]
    exact .word noPower letter
  | false =>
    obtain ⟨left, fraction_eq⟩ := fractionAhead_isPrefix after
    obtain ⟨scale, left', power_eq⟩ := powerAhead_ok left
    obtain ⟨glued, rest, rfl, all, ends⟩ := exists_run isWordChar left'
    have dropped : after.drop (fractionAhead after).length = left :=
      (congrArg (List.drop _) fraction_eq).symm.trans List.drop_left
    have dropped' : left.drop (powerAhead left).length = glued ++ rest :=
      (congrArg (List.drop _) power_eq).symm.trans List.drop_left
    have nonempty : whole ≠ [] := by
      rintro rfl
      simp [digitAhead, stops] at begins
    have isNumber := IsNumber.mk nonempty digits (isFraction_fractionAhead after) scale
    rw [scanNumber_eq digits stops word]
    simp only [dropped, dropped', takeWhile_run all ends]
    generalize fractionAhead after = fraction, powerAhead left = power at *
    subst power_eq fraction_eq
    rw [← List.append_assoc, ← List.append_assoc]
    cases glued with
    | nil =>
      rw [List.append_nil, Decimal.read?_isSome isNumber]
      exact .number isNumber ends
    | cons c glued => exact .glued isNumber (List.cons_ne_nil c glued) all ends

/-- What begins with digits is a word or a number. -/
theorem scanNumber_ok {text : List Char} {kind : TokenKind} {lexeme : String}
    (begins : digitAhead text = true) (h : (scanNumber text).outcome = .ok (kind, lexeme)) :
    (scanNumber text = scanWord text ∧ (powerAhead (text.dropWhile Char.isDigit)).isEmpty = true ∧
      (text.dropWhile Char.isDigit).head?.any isWordChar = true) ∨
    (kind = .number ∧ IsNumber lexeme.toList ∧ lexeme.toList <+: text ∧
      (scanNumber text).length = lexeme.length) := by
  have finds := finds_scanNumber begins
  generalize scanNumber text = found at finds h ⊢
  cases finds with
  | word noPower letter => exact .inl ⟨rfl, noPower, letter⟩
  | @number number rest isNumber =>
    obtain ⟨rfl, rfl⟩ := Prod.mk.inj (Except.ok.inj h)
    rw [String.toList_ofList]
    exact .inr ⟨rfl, isNumber, List.prefix_append .., String.length_ofList.symm⟩
  | glued => cases h

end DarijaScript
