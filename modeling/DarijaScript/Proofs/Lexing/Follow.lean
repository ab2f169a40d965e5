import DarijaScript.Proofs.Decimal.Text
import DarijaScript.Proofs.Lexing.Tokenize

/-!
# What may stand behind a token

A word or a number is taken as far as it goes, so what stands behind it decides whether it is found
again. Here are the characters that end a token, and what a text must not begin with when it stands
behind one.
-/

namespace DarijaScript

open Text

/-! ### Characters -/

/-- The signs that operators consist of. -/
def operatorChars : List Char := ['=', '!', '<', '>', '&', '|', '+', '-', '*', '/', '%']

/-- The blanks one by one. -/
private def blankPoints : List Nat :=
  [0x9, 0xa, 0xb, 0xc, 0xd, 0x20, 0x85, 0xa0, 0x1680, 0x2000, 0x2001, 0x2002, 0x2003, 0x2004, 0x2005,
    0x2006, 0x2007, 0x2008, 0x2009, 0x200a, 0x2028, 0x2029, 0x202f, 0x205f, 0x3000]

theorem isWordChar_of_isBlank {c : Char} (h : isBlank c = true) : isWordChar c = false := by
  have point : c.toNat ∈ blankPoints := by
    simp only [isBlank, inRanges_iff, blankRanges, List.mem_cons, List.not_mem_nil,
      or_false, exists_eq_or_imp, exists_eq_left] at h
    simp only [blankPoints, List.mem_cons, List.not_mem_nil, or_false]
    omega
  have apart : ∀ n ∈ blankPoints, isWordChar (Char.ofNat n) = false := by decide +kernel
  rw [← Char.ofNat_toNat c]
  exact apart _ point

theorem isBlank_of_isWordChar {c : Char} (h : isWordChar c = true) : isBlank c = false := by
  refine Bool.eq_false_iff.mpr fun blank => ?_
  simp [isWordChar_of_isBlank blank] at h

theorem ne_of_isWordChar {c d : Char} (h : isWordChar c = true) (other : isWordChar d = false) :
    c ≠ d := by
  rintro rfl
  simp [h] at other

theorem isDigit_of_isWordChar {c : Char} (h : isWordChar c = false) : c.isDigit = false := by
  refine Bool.eq_false_iff.mpr fun digit => ?_
  simp [isWordChar_of_isDigit digit] at h

theorem isWordChar_of_mem_operatorChars : ∀ c ∈ operatorChars, isWordChar c = false :=
  forall_mem_of_all (by decide +kernel)

theorem isWordChar_of_mem_punctuationChars : ∀ c ∈ punctuationChars, isWordChar c = false :=
  forall_mem_of_all (by decide +kernel)

/-! ### Powers of ten -/

/-- A digit comes first. -/
def digitAhead (text : List Char) : Bool := text.head?.any Char.isDigit

/-- A sign and a digit come first. -/
def signedDigitAhead : List Char → Bool
  | c :: rest => (c == '+' || c == '-') && digitAhead rest
  | [] => false

/-- There is a power of ten exactly where digits, with or without a sign, follow its letter. -/
theorem powerAhead_cons (letter : Char) (rest : List Char) :
    (powerAhead (letter :: rest)).isEmpty =
      !((letter == 'e' || letter == 'E') && (digitAhead rest || signedDigitAhead rest)) := by
  unfold powerAhead
  dsimp only
  by_cases power : letter = 'e' ∨ letter = 'E'
  · have power' : (letter == 'e' || letter == 'E') = true := by simpa using power
    rw [if_pos power, power', Bool.true_and]
    match rest with
    | [] => simp [digitAhead, signedDigitAhead]
    | [digit] =>
      cases digits : digit.isDigit <;> simp [digitAhead, signedDigitAhead, digits]
    | sign :: digit :: more =>
      dsimp only
      split
      · next signed =>
        obtain ⟨rfl | rfl, digit⟩ := signed
        · simp [digitAhead, signedDigitAhead, digit]
        · simp [digitAhead, signedDigitAhead, digit]
      · next unsigned =>
        cases digits : sign.isDigit with
        | true => simp [digitAhead, digits]
        | false =>
          have unsigned : ¬((sign = '+' ∨ sign = '-') ∧ digit.isDigit = true) := unsigned
          simp [digitAhead, signedDigitAhead, digits]
          grind
  · have power' : (letter == 'e' || letter == 'E') = false := by simpa using power
    rw [if_neg power, power']
    rfl

/-! ### Words -/

/-- The lexer takes the text for a word. Where it begins with digits, something behind them keeps it
from being a number. -/
structure IsWord (text : List Char) : Prop where
  nonempty : text ≠ []
  chars : ∀ c ∈ text, isWordChar c = true
  noNumber : digitAhead text = true → text.dropWhile Char.isDigit ≠ [] ∧
    (powerAhead (text.dropWhile Char.isDigit)).isEmpty = true

/-- The number that ends with the fraction ahead is followed by word characters, so it is no
number. -/
def RunsOn (text : List Char) : Prop :=
  let after := text.drop (fractionAhead text).length
  ((after.drop (powerAhead after).length).takeWhile isWordChar).isEmpty = false

/-- The text may stand behind a word or a number. If it would go on with a whole number as its
fraction, there is no number. -/
structure Follows (text : List Char) : Prop where
  endsWord : text.head?.any isWordChar = false
  unsigned : signedDigitAhead text = false
  fraction : (fractionAhead text).isEmpty = false → RunsOn text

/-- What a word takes is not a power of ten, whatever may stand behind it. -/
theorem powerAhead_append {tail rest : List Char} (nonempty : tail ≠ [])
    (chars : ∀ c ∈ tail, isWordChar c = true) (noPower : (powerAhead tail).isEmpty = true)
    (follows : Follows rest) : (powerAhead (tail ++ rest)).isEmpty = true := by
  obtain ⟨letter, tail, rfl⟩ := List.exists_cons_of_ne_nil nonempty
  rw [List.cons_append, powerAhead_cons]
  rw [powerAhead_cons] at noPower
  cases power : (letter == 'e' || letter == 'E') with
  | false => rfl
  | true =>
    rw [power] at noPower
    cases tail with
    | nil =>
      have noDigit : digitAhead rest = false := by
        have ends := follows.endsWord
        unfold digitAhead
        cases rest with
        | nil => rfl
        | cons c rest => exact isDigit_of_isWordChar (by simpa using ends)
      simp [noDigit, follows.unsigned]
    | cons c tail =>
      have word : isWordChar c = true := chars c (by simp)
      have noPlus : c ≠ '+' := ne_of_isWordChar word (by decide +kernel)
      have noMinus : c ≠ '-' := ne_of_isWordChar word (by decide +kernel)
      simpa [digitAhead, signedDigitAhead, noPlus, noMinus] using noPower

theorem follows_nil : Follows [] where
  endsWord := rfl
  unsigned := rfl
  fraction := by simp [fractionAhead]

theorem fractionAhead_of_ne {c : Char} {rest : List Char} (noPoint : c ≠ '.') :
    fractionAhead (c :: rest) = [] := by
  unfold fractionAhead
  split
  · next eq => exact absurd (List.cons.inj eq).1 noPoint
  · rfl

/-- Most signs may stand behind every token. -/
theorem follows_cons {c : Char} {rest : List Char} (apart : isWordChar c = false)
    (noSign : c ≠ '+' ∧ c ≠ '-') (noPoint : c ≠ '.') : Follows (c :: rest) where
  endsWord := by simp [apart]
  unsigned := by simp [signedDigitAhead, noSign]
  fraction := by simp [fractionAhead_of_ne noPoint]

/-- The sign of an update may stand behind every word. -/
theorem follows_step {c : Char} {rest : List Char} (sign : c = '+' ∨ c = '-') :
    Follows (c :: c :: rest) where
  endsWord := by
    have apart : isWordChar '+' = false ∧ isWordChar '-' = false := by decide +kernel
    rcases sign with rfl | rfl <;> simp [apart]
  unsigned := by
    rcases sign with rfl | rfl <;> simp [signedDigitAhead, digitAhead]
  fraction := by
    rcases sign with rfl | rfl <;> simp [fractionAhead]

/-- A point and a word may stand behind every token. If the word begins with a digit, then what
stands in front of the point is no whole number any more. -/
theorem follows_point {word rest : List Char} (isWord : IsWord word) (follows : Follows rest) :
    Follows ('.' :: (word ++ rest)) where
  endsWord := by
    have apart : isWordChar '.' = false := by decide +kernel
    simp [apart]
  unsigned := rfl
  fraction := by
    intro fraction
    obtain ⟨c, letters, rfl⟩ := List.exists_cons_of_ne_nil isWord.nonempty
    have digit : c.isDigit = true := by
      refine Bool.not_eq_false _ |>.mp fun noDigit => ?_
      simp [fractionAhead, noDigit] at fraction
    obtain ⟨digits, tail, eq, all, stops⟩ := exists_run Char.isDigit (c :: letters)
    have dropped : (c :: letters).dropWhile Char.isDigit = tail := by
      rw [eq, dropWhile_run all stops]
    obtain ⟨nonempty, noPower⟩ := isWord.noNumber (by simp [digitAhead, digit])
    rw [dropped] at nonempty noPower
    have chars : ∀ d ∈ tail, isWordChar d = true :=
      fun d mem => isWord.chars d (by rw [eq]; exact List.mem_append_right _ mem)
    obtain ⟨letter, others, rfl⟩ := List.exists_cons_of_ne_nil nonempty
    have taken : fractionAhead ('.' :: (c :: letters ++ rest)) = '.' :: digits := by
      have taken : (c :: (letters ++ rest)).takeWhile Char.isDigit = digits := by
        rw [← List.cons_append, eq, List.append_assoc]
        exact takeWhile_run all stops
      rw [List.takeWhile_cons_of_pos digit] at taken
      rw [List.cons_append, fractionAhead, if_pos digit, taken]
    have left : ('.' :: (c :: letters ++ rest)).drop ('.' :: digits).length =
        letter :: others ++ rest := by
      rw [eq, List.append_assoc, List.length_cons, List.drop_succ_cons, List.drop_left]
    have none : powerAhead (letter :: others ++ rest) = [] :=
      List.isEmpty_iff.mp (powerAhead_append nonempty chars noPower follows)
    unfold RunsOn
    dsimp only
    rw [taken, left, none, List.length_nil, List.drop_zero, List.cons_append,
      List.takeWhile_cons_of_pos (chars letter (by simp))]
    rfl

end DarijaScript
