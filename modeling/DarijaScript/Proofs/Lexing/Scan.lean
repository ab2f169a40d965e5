import DarijaScript.Proofs.Lexing.Number
import DarijaScript.Syntax.Layout

/-!
# Tokens that are found again

A token that is written out is found at the front of a text, if what stands behind it does not go on
with it.
-/

namespace DarijaScript

open Text

/-- Nothing is skipped in front of the text. -/
def NoGap (text : List Char) : Prop := ∀ length, gapFrom .between length text = .skip length

theorem noGap_nil : NoGap [] := fun _ => rfl

theorem noGap_cons {c : Char} {rest : List Char} (solid : isBlank c = false)
    (noComment : c = '/' → rest.head? ≠ some '/' ∧ rest.head? ≠ some '*') :
    NoGap (c :: rest) := by
  intro length
  have noLine : ¬(c = '/' ∧ rest.head? = some '/') := fun ⟨slash, next⟩ => (noComment slash).1 next
  have noBlock : ¬(c = '/' ∧ rest.head? = some '*') := fun ⟨slash, next⟩ => (noComment slash).2 next
  rw [gapFrom, if_neg (by simp [solid]), if_neg noLine, if_neg noBlock]

theorem noGap_of_isWordChar {c : Char} {rest : List Char} (word : isWordChar c = true) :
    NoGap (c :: rest) :=
  noGap_cons (isBlank_of_isWordChar word)
    (fun slash => absurd slash (ne_of_isWordChar word (by decide +kernel)))

/-- The lexer finds this token where the text begins, and the rest behind it. -/
structure Stands (text : List Char) (kind : TokenKind) (lexeme : String) (rest : List Char) :
    Prop where
  noGap : NoGap (text ++ rest)
  scan : scan (text ++ rest) = ⟨text.length, .ok (kind, lexeme)⟩

/-! ### Words -/

theorem scan_of_isWordChar {c : Char} {rest : List Char} (word : isWordChar c = true) :
    scan (c :: rest) = if c.isDigit then scanNumber (c :: rest) else scanWord (c :: rest) := by
  have noQuote : ¬(c = '"' ∨ c = '\'') := by
    rintro (rfl | rfl)
    · exact absurd word (by decide +kernel)
    · exact absurd word (by decide +kernel)
  rw [DarijaScript.scan, if_neg noQuote]
  simp [word]

theorem scanWord_append {word rest : List Char} (isWord : IsWord word)
    (ends : rest.head?.any isWordChar = false) :
    scanWord (word ++ rest) =
      ⟨word.length, .ok (wordKind (String.ofList word), String.ofList word)⟩ := by
  unfold scanWord
  rw [takeWhile_run isWord.chars ends]

/-- A word is found again. -/
theorem IsWord.stands {word rest : List Char} (isWord : IsWord word) (follows : Follows rest) :
    Stands word (wordKind (String.ofList word)) (String.ofList word) rest := by
  have scanned := scanWord_append isWord follows.endsWord
  obtain ⟨c, letters, rfl⟩ := List.exists_cons_of_ne_nil isWord.nonempty
  have first : isWordChar c = true := isWord.chars c (by simp)
  refine ⟨noGap_of_isWordChar first, ?_⟩
  rw [List.cons_append, scan_of_isWordChar first, ← List.cons_append]
  split
  · next digit =>
    obtain ⟨digits, tail, eq, all, stops⟩ := exists_run Char.isDigit (c :: letters)
    have dropped : (c :: letters).dropWhile Char.isDigit = tail := by
      rw [eq, dropWhile_run all stops]
    obtain ⟨nonempty, noPower⟩ := isWord.noNumber (by simp [digitAhead, digit])
    rw [dropped] at nonempty noPower
    have chars : ∀ d ∈ tail, isWordChar d = true :=
      fun d mem => isWord.chars d (by rw [eq]; exact List.mem_append_right _ mem)
    have noPower := powerAhead_append nonempty chars noPower follows
    obtain ⟨letter, others, rfl⟩ := List.exists_cons_of_ne_nil nonempty
    have dropped : (c :: letters ++ rest).dropWhile Char.isDigit = letter :: (others ++ rest) := by
      rw [eq, List.append_assoc]
      exact dropWhile_run all stops
    unfold scanNumber
    dsimp only
    rw [dropped, ← List.cons_append, noPower]
    simpa [chars] using scanned
  · exact scanned

/-! ### Numbers -/

theorem scan_of_digits {text : List Char} (digit : digitAhead text = true) :
    NoGap text ∧ scan text = scanNumber text := by
  cases text with
  | nil => cases digit
  | cons c rest =>
    have digit : c.isDigit = true := by simpa [digitAhead] using digit
    have word := isWordChar_of_isDigit digit
    exact ⟨noGap_of_isWordChar word, by rw [scan_of_isWordChar word, if_pos digit]⟩

/-- A number is found again. A whole number must not stand in front of a fraction. -/
theorem IsNumber.stands {text rest : List Char} (h : IsNumber text)
    (ends : rest.head?.any isWordChar = false)
    (alone : (∀ c ∈ text, c.isDigit = true) → fractionAhead rest = []) :
    Stands text .number (String.ofList text) rest := by
  obtain ⟨noGap, scanned⟩ := scan_of_digits (digitAhead_append h.begins rest)
  exact ⟨noGap, by rw [scanned, h.scanNumber_append ends alone]⟩

/-- Only a whole number is written with digits alone. -/
theorem Decimal.Positional.fraction_eq_nil (number : Decimal.Positional)
    (digits : ∀ c ∈ number.chars, c.isDigit = true) : number.fraction = [] := by
  by_contra some
  exact absurd (digits '.' (by simp [chars, some])) (by decide)

theorem Decimal.Positional.isNumber (number : Decimal.Positional) : IsNumber number.chars := by
  have digits := fun c => number.isDigit_of_mem_whole (c := c)
  unfold Decimal.Positional.chars
  split
  · have := IsNumber.mk number.nonempty digits .none .none
    rwa [List.append_nil, List.append_nil] at this
  · next some =>
    obtain ⟨c, others, eq⟩ := List.exists_cons_of_ne_nil some
    have all := fun d => number.isDigit_of_mem_fraction (c := d)
    rw [eq] at all ⊢
    have places := IsFraction.digits (all c (by simp)) fun d mem => all d (List.mem_cons_of_mem _ mem)
    have := IsNumber.mk number.nonempty digits places .none
    rwa [List.append_nil] at this

/-- The number that stands for every one that is too large. -/
theorem isNumber_infinity : IsNumber "1e999".toList :=
  .mk (List.cons_ne_nil '1' []) (by simp) .none
    (.plain (.inl rfl) rfl (by simp : ∀ c ∈ ['9', '9'], c.isDigit = true))

/-- A whole number in front of a fraction is found together with it, which is not a number. -/
theorem scan_glued {digits rest : List Char} (nonempty : digits ≠ [])
    (all : ∀ c ∈ digits, c.isDigit = true) (follows : Follows rest)
    (fraction : (fractionAhead rest).isEmpty = false) :
    NoGap (digits ++ rest) ∧
      ∃ length issue, scan (digits ++ rest) = ⟨length, .error issue⟩ := by
  have digit := digitAhead_append (digitAhead_of_forall nonempty all) rest
  obtain ⟨noGap, scanned⟩ := scan_of_digits digit
  have runsOn := follows.fraction fraction
  unfold RunsOn at runsOn
  dsimp only at runsOn
  refine ⟨noGap, ?_⟩
  rw [scanned, scanNumber_eq all (digitAhead_of_endsWord follows.endsWord) (by simp [follows.endsWord])]
  dsimp only
  rw [runsOn]
  exact ⟨_, _, rfl⟩

/-! ### Strings -/

theorem scanString_append (text rest : List Char) (length : Nat) (value : List Char) :
    scanString '"' length value (text.flatMap escape ++ '"' :: rest) =
      ⟨length + (text.flatMap escape).length + 1,
        .ok (.string, String.ofList (value.reverse ++ text))⟩ := by
  induction text generalizing length value with
  | nil => simp [scanString]
  | cons c text ih =>
    have escaped (d : Char) (eq : escape c = ['\\', d]) (back : unescape d = c) :
        scanString '"' length value ((c :: text).flatMap escape ++ '"' :: rest) =
          ⟨length + ((c :: text).flatMap escape).length + 1,
            .ok (.string, String.ofList (value.reverse ++ c :: text))⟩ := by
      rw [List.flatMap_cons, eq, List.append_assoc, List.cons_append, List.cons_append,
        List.nil_append, scanString, ih, back]
      simp
      omega
    by_cases quoted : c = '"'
    · exact escaped '"' (by rw [quoted]; rfl) quoted.symm
    by_cases slash : c = '\\'
    · exact escaped '\\' (by rw [slash]; rfl) slash.symm
    by_cases newline : c = '\n'
    · exact escaped 'n' (by rw [newline]; rfl) newline.symm
    by_cases tab : c = '\t'
    · exact escaped 't' (by rw [tab]; rfl) tab.symm
    by_cases carriage : c = '\r'
    · exact escaped 'r' (by rw [carriage]; rfl) carriage.symm
    by_cases null : c = '\x00'
    · exact escaped '0' (by rw [null]; rfl) null.symm
    have plain : escape c = [c] := by
      unfold escape
      split <;> first | contradiction | rfl
    rw [List.flatMap_cons, plain, List.append_assoc, List.cons_append, List.nil_append]
    rw [scanString, if_neg newline, if_neg quoted, ih]
    · simp
      omega
    · exact slash

/-- A string is found again, whatever stands behind it. -/
theorem stands_string (lexeme : String) (rest : List Char) :
    Stands (quote lexeme.toList) .string lexeme rest := by
  have noGap : NoGap ('"' :: (lexeme.toList.flatMap escape ++ '"' :: rest)) :=
    noGap_cons (by decide) (fun slash => absurd slash (by decide))
  have eq : quote lexeme.toList ++ rest = '"' :: (lexeme.toList.flatMap escape ++ '"' :: rest) := by
    simp [quote]
  refine ⟨by rwa [eq], ?_⟩
  rw [eq, DarijaScript.scan, if_pos (.inl rfl), scanString_append]
  simp [quote]
  omega

/-! ### Signs -/

/-- A punctuation sign is found again, whatever stands behind it. -/
theorem stands_punctuation {c : Char} (mem : c ∈ punctuationChars) (rest : List Char) :
    Stands [c] .punctuation c.toString rest := by
  have apart := isWordChar_of_mem_punctuationChars c mem
  have solid : ∀ c ∈ punctuationChars, isBlank c = false ∧ c ≠ '/' ∧ c ≠ '"' ∧ c ≠ '\'' :=
    forall_mem_of_all (by decide)
  obtain ⟨blank, slash, quote, quote'⟩ := solid c mem
  refine ⟨noGap_cons blank (fun eq => absurd eq slash), ?_⟩
  rw [List.cons_append, List.nil_append, DarijaScript.scan]
  simp [quote, quote', isDigit_of_isWordChar apart, apart, mem]

private theorem find?_congr {α : Type} {p q : α → Bool} {l : List α} (same : ∀ a ∈ l, p a = q a) :
    l.find? p = l.find? q := by
  induction l with
  | nil => rfl
  | cons a l ih =>
    rw [List.find?_cons, List.find?_cons, same a (by simp),
      ih fun b mem => same b (List.mem_cons_of_mem _ mem)]

theorem isPrefixOf_append {xs ys rest : List Char} (signs : ∀ c ∈ xs, c ∈ operatorChars)
    (ends : ∀ c ∈ rest.head?, c ∉ operatorChars) : xs.isPrefixOf (ys ++ rest) = xs.isPrefixOf ys := by
  induction xs generalizing ys with
  | nil => simp
  | cons x xs ih =>
    cases ys with
    | nil =>
      cases rest with
      | nil => rfl
      | cons c rest =>
        have apart : x ≠ c := by
          rintro rfl
          exact ends x (by simp) (signs x (by simp))
        simp [List.isPrefixOf, apart]
    | cons y ys => simp [List.isPrefixOf, ih fun c mem => signs c (List.mem_cons_of_mem _ mem)]

/-- An operator is found again if no operator stands behind it. -/
theorem stands_operator {text : String} (mem : text ∈ operatorTexts) {rest : List Char}
    (ends : ∀ c ∈ rest.head?, c ∉ operatorChars) : Stands text.toList .operator text rest := by
  have signs : ∀ operator ∈ operatorTexts, ∀ c ∈ operator.toList, c ∈ operatorChars := by
    have all : operatorTexts.all (fun operator => operator.toList.all operatorChars.contains) = true := by
      decide
    simpa using all
  have longest : ∀ operator ∈ operatorTexts,
      operatorTexts.find? (fun other => other.toList.isPrefixOf operator.toList) = some operator := by
    decide
  have found : operatorTexts.find? (fun other => other.toList.isPrefixOf (text.toList ++ rest)) =
      some text := by
    rw [← longest text mem]
    exact find?_congr fun other mem' => isPrefixOf_append (signs other mem') ends
  have nonempty : ∀ operator ∈ operatorTexts, operator.toList ≠ [] := by decide
  obtain ⟨c, others, eq⟩ := List.exists_cons_of_ne_nil (nonempty text mem)
  have sign : c ∈ operatorChars := signs text mem c (by simp [eq])
  have solid : ∀ c ∈ operatorChars, isBlank c = false ∧ c ∉ punctuationChars ∧ c ≠ '"' ∧ c ≠ '\'' :=
    forall_mem_of_all (by decide)
  obtain ⟨blank, noPunctuation, quote, quote'⟩ := solid c sign
  have apart := isWordChar_of_mem_operatorChars c sign
  constructor
  · rw [eq]
    refine noGap_cons blank fun slash => ?_
    have divides : ∀ operator ∈ operatorTexts, operator.toList.head? = some '/' →
        operator.toList = ['/'] ∨ operator.toList = ['/', '='] := by decide
    rcases divides text mem (by simp [eq, slash]) with eq' | eq'
    · obtain ⟨-, rfl⟩ := List.cons.inj (eq.symm.trans eq')
      constructor
      · exact fun head => ends '/' (by simpa using head) (by decide)
      · exact fun head => ends '*' (by simpa using head) (by decide)
    · obtain ⟨-, rfl⟩ := List.cons.inj (eq.symm.trans eq')
      simp
  · rw [eq] at found ⊢
    rw [List.cons_append] at found ⊢
    rw [DarijaScript.scan]
    simp only [quote, quote', or_self, if_false, isDigit_of_isWordChar apart, apart, noPunctuation,
      Bool.false_eq_true]
    unfold scanOperator
    rw [found]
    dsimp only
    rw [← eq, String.length_toList]

/-! ### What is found -/

theorem powerAhead_of_append {tail rest : List Char} (nonempty : tail ≠ [])
    (noPower : (powerAhead (tail ++ rest)).isEmpty = true) : (powerAhead tail).isEmpty = true := by
  obtain ⟨letter, tail, rfl⟩ := List.exists_cons_of_ne_nil nonempty
  rw [List.cons_append, powerAhead_cons] at noPower
  rw [powerAhead_cons]
  have digit : digitAhead tail = true → digitAhead (tail ++ rest) = true := by
    cases tail <;> simp [digitAhead]
  have signed : signedDigitAhead tail = true → signedDigitAhead (tail ++ rest) = true := by
    cases tail with
    | nil => simp [signedDigitAhead]
    | cons sign tail => cases tail <;> simp [signedDigitAhead, digitAhead]
  grind

/-- A word that was found is one. -/
theorem isWord_takeWhile {text : List Char} {c : Char} {rest : List Char} (eq : text = c :: rest)
    (first : isWordChar c = true)
    (noNumber : c.isDigit = true → (powerAhead (text.dropWhile Char.isDigit)).isEmpty = true ∧
      (text.dropWhile Char.isDigit).head?.any isWordChar = true) :
    IsWord (text.takeWhile isWordChar) where
  nonempty := by simp [eq, first]
  chars := by
    intro d mem
    exact List.all_eq_true.mp List.all_takeWhile d mem
  noNumber := by
    intro digit
    obtain ⟨run, others, split, all, ends⟩ := exists_run isWordChar text
    obtain ⟨digits, tail, split', all', ends'⟩ := exists_run Char.isDigit run
    have taken : text.takeWhile isWordChar = run := by rw [split, takeWhile_run all ends]
    have dropped : run.dropWhile Char.isDigit = tail := by rw [split', dropWhile_run all' ends']
    have begins : c.isDigit = true := by
      rw [eq, List.takeWhile_cons_of_pos first] at digit
      simpa [digitAhead] using digit
    obtain ⟨noPower, word⟩ := noNumber begins
    rw [taken, dropped]
    rw [split, split', List.append_assoc] at noPower word
    have nonempty : tail ≠ [] := by
      rintro rfl
      rw [List.nil_append, dropWhile_run all' (digitAhead_of_endsWord ends), ends] at word
      cases word
    have left : (digits ++ (tail ++ others)).dropWhile Char.isDigit = tail ++ others := by
      obtain ⟨letter, tail, rfl⟩ := List.exists_cons_of_ne_nil nonempty
      exact dropWhile_run all' ends'
    rw [left] at noPower
    exact ⟨nonempty, powerAhead_of_append nonempty noPower⟩

theorem wordKind_cases (word : String) : wordKind word = .boolean ∨ wordKind word = .keyword ∨
    wordKind word = .identifier := by
  unfold wordKind
  split
  · exact .inl rfl
  · split
    · exact .inr (.inl rfl)
    · exact .inr (.inr rfl)

theorem wordKind_ne {kind : TokenKind} (other : kind ∉ [.boolean, .keyword, .identifier])
    (word : String) : wordKind word ≠ kind := by
  rintro rfl
  rcases wordKind_cases word with eq | eq | eq <;> simp [eq] at other

theorem scanWord_ok {text : List Char} {kind : TokenKind} {lexeme : String}
    (h : (scanWord text).outcome = .ok (kind, lexeme)) :
    kind = wordKind lexeme ∧ lexeme.toList = text.takeWhile isWordChar := by
  obtain ⟨rfl, rfl⟩ := Prod.mk.inj (Except.ok.inj h)
  exact ⟨rfl, String.toList_ofList⟩

theorem scanString_ok {quote : Char} {length : Nat} {value text : List Char} {kind : TokenKind}
    {lexeme : String} (h : (scanString quote length value text).outcome = .ok (kind, lexeme)) :
    kind = .string := by
  fun_induction scanString quote length value text with
  | case1 => cases h
  | case2 => cases h
  | case3 _ _ _ _ ih => exact ih h
  | case4 => cases h
  | case5 => exact (Prod.mk.inj (Except.ok.inj h)).1.symm
  | case6 _ _ _ _ _ _ _ ih => exact ih h

theorem scanOperator_ok {first : Char} {text : List Char} {kind : TokenKind} {lexeme : String}
    (h : (scanOperator first text).outcome = .ok (kind, lexeme)) :
    kind = .operator ∧ lexeme ∈ operatorTexts ∧ lexeme.toList <+: text ∧
      (scanOperator first text).length = lexeme.length := by
  unfold scanOperator at h ⊢
  split at h
  · next operator found =>
    obtain ⟨rfl, rfl⟩ := Prod.mk.inj (Except.ok.inj h)
    have isPrefix : operator.toList.isPrefixOf text = true := by simpa using List.find?_some found
    exact ⟨rfl, List.mem_of_find?_eq_some found, List.isPrefixOf_iff_prefix.mp isPrefix, rfl⟩
  · cases h

/-- What the lexeme of a token is like. -/
inductive Lexeme : TokenKind → String → Prop
  | word {lexeme : String} (isWord : IsWord lexeme.toList) : Lexeme (wordKind lexeme) lexeme
  | number {lexeme : String} (isNumber : IsNumber lexeme.toList) : Lexeme .number lexeme
  | string {lexeme : String} : Lexeme .string lexeme
  | operator {lexeme : String} (mem : lexeme ∈ operatorTexts) : Lexeme .operator lexeme
  | punctuation {c : Char} (mem : c ∈ punctuationChars) : Lexeme .punctuation c.toString
  | ending : Lexeme .endOfFile ""

theorem Token.Scanned.lexeme {token : Token} (h : token.Scanned) :
    Lexeme token.kind token.lexeme := by
  obtain ⟨text, outcome⟩ := h
  have finds := finds_scan text
  generalize scan text = found at finds outcome
  cases finds with
  | ending =>
    obtain ⟨kind, lexeme⟩ := Prod.mk.inj (Except.ok.inj outcome)
    rw [← kind, ← lexeme]
    exact .ending
  | string =>
    rw [scanString_ok outcome]
    exact .string
  | @number c rest digit =>
    have begins : digitAhead (c :: rest) = true := by simpa [digitAhead] using digit
    rcases scanNumber_ok begins outcome with ⟨same, noPower, word⟩ | ⟨kind, isNumber, -⟩
    · rw [same] at outcome
      obtain ⟨kind, eq⟩ := scanWord_ok outcome
      rw [kind]
      refine .word ?_
      rw [eq]
      exact isWord_takeWhile rfl (isWordChar_of_isDigit digit) (fun _ => ⟨noPower, word⟩)
    · rw [kind]
      exact .number isNumber
  | word noDigit letter =>
    obtain ⟨kind, eq⟩ := scanWord_ok outcome
    rw [kind]
    refine .word ?_
    rw [eq]
    exact isWord_takeWhile rfl letter (fun digit => absurd digit (by simp [noDigit]))
  | punctuation mem =>
    obtain ⟨kind, lexeme⟩ := Prod.mk.inj (Except.ok.inj outcome)
    rw [← kind, ← lexeme]
    exact .punctuation mem
  | operator =>
    obtain ⟨kind, mem, -⟩ := scanOperator_ok outcome
    rw [kind]
    exact .operator mem

/-- A token of a kind that words have is a word. -/
theorem Token.Scanned.isWord {token : Token} (h : token.Scanned) (name : token.isMemberName = true) :
    wordKind token.lexeme = token.kind ∧ IsWord token.lexeme.toList := by
  have lexeme := h.lexeme
  unfold Token.isMemberName at name
  generalize token.kind = kind, token.lexeme = text at *
  cases lexeme with
  | word isWord => exact ⟨rfl, isWord⟩
  | number => cases name
  | string => cases name
  | operator => cases name
  | punctuation => cases name
  | ending => cases name

/-- The text of a number is one. -/
theorem Token.Scanned.isNumber {token : Token} (h : token.Scanned) (kind : token.kind = .number) :
    IsNumber token.lexeme.toList := by
  have lexeme := h.lexeme
  generalize token.kind = found, token.lexeme = text at *
  cases lexeme with
  | word => have := wordKind_cases text; grind
  | number isNumber => exact isNumber
  | string => cases kind
  | operator => cases kind
  | punctuation => cases kind
  | ending => cases kind

end DarijaScript
