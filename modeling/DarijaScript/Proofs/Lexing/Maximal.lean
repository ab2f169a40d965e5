import DarijaScript.Grammar.Expression
import DarijaScript.Proofs.Lexing.Partition

/-!
# Tokens are maximal

A word or a number begins and ends where no word goes on, and an operator is the longest one ahead.
Digits are a number exactly if what is taken has the form of one, and every text of this form is read as
a number, so what the lexer accepts the parser can convert.
-/

namespace DarijaScript

open Text

/-! ### Places -/

/-- No word goes on from the one text to the other. -/
def Severed (front back : List Char) : Prop :=
  front.getLast?.any isWordChar = false ∨ back.head?.any isWordChar = false

/-- The tokens of the kind are words and numbers. -/
def TokenKind.isWordOrNumber : TokenKind → Bool
  | .number | .boolean | .identifier | .keyword => true
  | _ => false

theorem getLast?_of_sign (front : List Char) {rest : List Char} {c : Char} (sign : isWordChar c = false)
    (more : rest.getLast?.any isWordChar = false) :
    (front ++ c :: rest).getLast?.any isWordChar = false := by
  rw [List.getLast?_append, List.getLast?_cons]
  cases last : rest.getLast? with
  | none => simpa using sign
  | some d => simpa [last] using more

/-- What is passed over does not end with a word. -/
theorem Spacing.getLast? {spaces : List Char} (h : Spacing spaces) :
    spaces.getLast?.any isWordChar = false := by
  induction h with
  | nil => rfl
  | blank blank _ ih => exact getLast?_of_sign [] (isWordChar_of_isBlank blank) ih
  | @line text rest _ _ ih =>
    exact getLast?_of_sign ('/' :: '/' :: text) (by decide +kernel) ih
  | @block text rest _ _ ih =>
    have slash : isWordChar '/' = false := by decide +kernel
    simpa [commentClose] using getLast?_of_sign ('/' :: '*' :: (text ++ ['*'])) slash ih

/-- Behind what is passed over no word goes on if none did in front of it. -/
theorem Severed.spaces {front spaces left : List Char} (severed : Severed front (spaces ++ left))
    (spacing : left ≠ [] → Spacing spaces) : Severed (front ++ spaces) left := by
  by_cases ending : left = []
  · exact .inr (by rw [ending]; rfl)
  · by_cases none : spaces = []
    · rw [none] at severed ⊢
      rwa [List.append_nil]
    · left
      rw [List.getLast?_append_of_ne_nil _ none]
      exact (spacing ending).getLast?

/-! ### One token -/

theorem head?_drop_scanWord (text : List Char) :
    (text.drop (scanWord text).length).head?.any isWordChar = false := by
  obtain ⟨run, rest, rfl, all, stops⟩ := exists_run isWordChar text
  have length : (scanWord (run ++ rest)).length = run.length :=
    congrArg List.length (takeWhile_run all stops)
  rwa [length, List.drop_left]

theorem head?_drop_scanNumber {text : List Char} (begins : digitAhead text = true)
    {kind : TokenKind} {lexeme : String} (h : (scanNumber text).outcome = .ok (kind, lexeme)) :
    (text.drop (scanNumber text).length).head?.any isWordChar = false := by
  have finds := finds_scanNumber begins
  generalize scanNumber text = found at finds h ⊢
  cases finds with
  | word => exact head?_drop_scanWord text
  | number isNumber ends => rwa [List.drop_left]
  | glued => cases h

/-- A string ends with the quote that it begins with. -/
theorem scanString_closed {quote : Char} {length : Nat} {value text : List Char} {kind : TokenKind}
    {lexeme : String} (h : (scanString quote length value text).outcome = .ok (kind, lexeme)) :
    ∃ inside rest, text = inside ++ quote :: rest ∧
      (scanString quote length value text).length = length + inside.length + 1 := by
  fun_induction scanString quote length value text with
  | case1 => cases h
  | case2 => cases h
  | case3 length value c more ih =>
    obtain ⟨inside, rest, rfl, taken⟩ := ih h
    refine ⟨'\\' :: c :: inside, rest, rfl, ?_⟩
    rw [taken, List.length_cons, List.length_cons]
    omega
  | case4 => cases h
  | case5 length value rest => exact ⟨[], rest, rfl, rfl⟩
  | case6 length value c rest _ _ _ ih =>
    obtain ⟨inside, rest, rfl, taken⟩ := ih h
    refine ⟨c :: inside, rest, rfl, ?_⟩
    rw [taken, List.length_cons]
    omega

/-- How a token ends: a word or a number where no word goes on, and every other one with a sign or at
the end of the text. -/
inductive Ends (text : List Char) (length : Nat) : TokenKind → Prop
  | word {kind : TokenKind} (begins : text.head?.any isWordChar = true)
    (stops : (text.drop length).head?.any isWordChar = false) : Ends text length kind
  | sign {kind : TokenKind} {c : Char} (other : kind.isWordOrNumber = false)
    (last : (text.take length).getLast? = some c) (sign : isWordChar c = false) : Ends text length kind
  | ending (none : text = []) : Ends text length .endOfFile

theorem ends_scan {text : List Char} {kind : TokenKind} {lexeme : String}
    (h : (scan text).outcome = .ok (kind, lexeme)) : Ends text (scan text).length kind := by
  have finds := finds_scan text
  generalize scan text = found at finds h ⊢
  cases finds with
  | ending =>
    obtain ⟨rfl, -⟩ := Prod.mk.inj (Except.ok.inj h)
    exact .ending rfl
  | @string quote rest quotes =>
    obtain rfl := scanString_ok h
    obtain ⟨inside, rest, rfl, length⟩ := scanString_closed h
    have sign : isWordChar quote = false := by
      rcases quotes with rfl | rfl
      · decide +kernel
      · decide +kernel
    have whole : quote :: (inside ++ quote :: rest) = quote :: inside ++ [quote] ++ rest := by simp
    have taken : (quote :: inside ++ [quote]).length = 1 + inside.length + 1 := by simp [Nat.add_comm]
    refine .sign rfl ?_ sign
    rw [length, whole, List.take_left' taken, List.getLast?_concat]
  | @number c rest digit =>
    have begins : digitAhead (c :: rest) = true := by simpa [digitAhead] using digit
    exact .word (by simpa using isWordChar_of_isDigit digit) (head?_drop_scanNumber begins h)
  | @word c rest _ letter => exact .word (by simpa using letter) (head?_drop_scanWord _)
  | punctuation mem =>
    obtain ⟨rfl, -⟩ := Prod.mk.inj (Except.ok.inj h)
    exact .sign rfl rfl (isWordChar_of_mem_punctuationChars _ mem)
  | operator =>
    have signs : ∀ operator ∈ operatorTexts, operator.toList.getLast?.any (!isWordChar ·) = true := by
      decide +kernel
    obtain ⟨rfl, mem, isPrefix, length⟩ := scanOperator_ok h
    obtain ⟨c, last, sign⟩ := (Option.any_eq_true ..).mp (signs lexeme mem)
    refine .sign rfl ?_ (by simpa using sign)
    rw [← Taken.eq_take ⟨isPrefix, length⟩, last]

/-- No operator that is ahead is longer than the one that is found. -/
theorem length_le_scanOperator {first : Char} {text : List Char} {kind : TokenKind} {lexeme : String}
    (h : (scanOperator first text).outcome = .ok (kind, lexeme)) {other : String}
    (mem : other ∈ operatorTexts) (ahead : other.toList <+: text) : other.length ≤ lexeme.length := by
  have sorted : operatorTexts.Pairwise fun operator later => later.length ≤ operator.length := by
    decide
  unfold scanOperator at h
  split at h
  · next operator found =>
    obtain ⟨-, rfl⟩ := Prod.mk.inj (Except.ok.inj h)
    obtain ⟨-, longer, shorter, eq, before⟩ := List.find?_eq_some_iff_append.mp found
    rw [eq] at mem sorted
    rcases List.mem_append.mp mem with mem | mem
    · have absent := before other mem
      rw [List.isPrefixOf_iff_prefix.mpr ahead] at absent
      cases absent
    · rcases List.mem_cons.mp mem with rfl | mem
      · exact Nat.le_refl _
      · exact (List.pairwise_cons.mp (List.pairwise_append.mp sorted).2.1).1 other mem
  · cases h

theorem scan_operator {text : List Char} {lexeme : String}
    (h : (scan text).outcome = .ok (.operator, lexeme)) :
    ∃ first, (scanOperator first text).outcome = .ok (.operator, lexeme) := by
  have finds := finds_scan text
  have noWord : wordKind lexeme ≠ .operator := wordKind_ne (by decide) lexeme
  generalize scan text = found at finds h
  cases finds with
  | ending => cases h
  | string => cases scanString_ok h
  | @number c rest digit =>
    have begins : digitAhead (c :: rest) = true := by simpa [digitAhead] using digit
    rcases scanNumber_ok begins h with ⟨same, -⟩ | ⟨kind, -⟩
    · rw [same] at h
      exact absurd (scanWord_ok h).1.symm noWord
    · cases kind
  | word => exact absurd (scanWord_ok h).1.symm noWord
  | punctuation => cases h
  | operator => exact ⟨_, h⟩

/-- A word that begins with digits is not the text of a number. -/
theorem not_isNumber_takeWhile {text : List Char}
    (noPower : (powerAhead (text.dropWhile Char.isDigit)).isEmpty = true)
    (letter : (text.dropWhile Char.isDigit).head?.any isWordChar = true) :
    ¬IsNumber (text.takeWhile isWordChar) := by
  intro isNumber
  obtain ⟨run, rest, rfl, all, stops⟩ := exists_run isWordChar text
  rw [takeWhile_run all stops] at isNumber
  have word : scanNumber (run ++ rest) = scanWord (run ++ rest) := by
    unfold scanNumber
    simp [noPower, letter]
  have number := isNumber.scanNumber_append stops fun digits => by
    rw [dropWhile_run digits (digitAhead_of_endsWord stops), stops] at letter
    cases letter
  have kinds : TokenKind.number = wordKind (String.ofList ((run ++ rest).takeWhile isWordChar)) :=
    (Prod.mk.inj (Except.ok.inj (congrArg Scan.outcome (number.symm.trans word)))).1
  exact wordKind_ne (by decide) _ kinds.symm

/-- What begins with a digit is a number if it has the form of one, and otherwise it is all of the word
ahead. -/
theorem scan_digits {text : List Char} (begins : digitAhead text = true) {kind : TokenKind}
    {lexeme : String} (h : (scan text).outcome = .ok (kind, lexeme)) :
    (kind = .number ↔ IsNumber (text.take (scan text).length)) ∧
      (kind ≠ .number → text.take (scan text).length = text.takeWhile isWordChar) := by
  rw [(scan_of_digits begins).2] at h ⊢
  have finds := finds_scanNumber begins
  generalize scanNumber text = found at finds h ⊢
  cases finds with
  | word noPower letter =>
    obtain ⟨kind_eq, lexeme_eq⟩ := scanWord_ok h
    have other : kind ≠ .number := kind_eq ▸ wordKind_ne (by decide) lexeme
    have taken : text.take (scanWord text).length = text.takeWhile isWordChar :=
      (scanWord_taken h).eq_take.symm.trans lexeme_eq
    rw [taken]
    exact ⟨iff_of_false other (not_isNumber_takeWhile noPower letter), fun _ => rfl⟩
  | number isNumber =>
    obtain ⟨rfl, -⟩ := Prod.mk.inj (Except.ok.inj h)
    rw [List.take_left]
    exact ⟨iff_of_true rfl isNumber, fun other => absurd rfl other⟩
  | glued => cases h

/-! ### All tokens -/

/-- The token could not be longer. A word or a number stands alone, an operator is the longest one ahead,
and what begins with a digit is a number or all of a word. -/
structure Token.Maximal (text : List Char) (token : Token) : Prop where
  alone : token.kind.isWordOrNumber = true →
    (text.take token.start).getLast?.any isWordChar = false ∧
      (text.drop token.stop).head?.any isWordChar = false
  operator : token.kind = .operator →
    token.lexeme ∈ operatorTexts ∧ token.lexeme.toList = slice text token.start token.stop ∧
      ∀ other ∈ operatorTexts, other.toList <+: text.drop token.start →
        other.length ≤ token.lexeme.length
  number : digitAhead (text.drop token.start) = true →
    (token.kind = .number ↔ IsNumber (slice text token.start token.stop))
  word : digitAhead (text.drop token.start) = true → token.kind ≠ .number →
    slice text token.start token.stop = (text.drop token.start).takeWhile isWordChar

/-- The token is the one that the lexer finds at its offset. -/
structure Token.FoundIn (text : List Char) (token : Token) : Prop where
  outcome : (scan (text.drop token.start)).outcome = .ok (token.kind, token.lexeme)
  stop_eq : token.stop = token.start + (scan (text.drop token.start)).length

namespace Token.FoundIn

variable {text : List Char} {token : Token} (found : token.FoundIn text)
include found

theorem slice_eq : slice text token.start token.stop =
    (text.drop token.start).take (scan (text.drop token.start)).length := by
  rw [slice, found.stop_eq, Nat.add_sub_cancel_left]

theorem drop_stop :
    text.drop token.stop = (text.drop token.start).drop (scan (text.drop token.start)).length := by
  rw [found.stop_eq, List.drop_drop]

/-- No word goes on behind the token. -/
theorem severed : Severed (text.take token.stop) (text.drop token.stop) := by
  have ends := ends_scan found.outcome
  rw [found.drop_stop, found.stop_eq, List.take_add]
  generalize token.kind = kind at ends
  cases ends with
  | word _ stops => exact .inr stops
  | sign _ last sign =>
    left
    rw [List.getLast?_append, last]
    exact sign
  | ending none => exact .inr (by rw [none]; rfl)

theorem alone (severed : Severed (text.take token.start) (text.drop token.start))
    (word : token.kind.isWordOrNumber = true) :
    (text.take token.start).getLast?.any isWordChar = false ∧
      (text.drop token.stop).head?.any isWordChar = false := by
  have ends := ends_scan found.outcome
  rw [found.drop_stop]
  generalize token.kind = kind at ends word
  cases ends with
  | word begins stops => exact ⟨severed.resolve_right ((Bool.not_eq_false _).mpr begins), stops⟩
  | sign other =>
    rw [other] at word
    cases word
  | ending => cases word

theorem longest (isOperator : token.kind = .operator) :
    token.lexeme ∈ operatorTexts ∧ token.lexeme.toList = slice text token.start token.stop ∧
      ∀ other ∈ operatorTexts, other.toList <+: text.drop token.start →
        other.length ≤ token.lexeme.length := by
  have outcome := found.outcome
  rw [isOperator] at outcome
  obtain ⟨first, scanned⟩ := scan_operator outcome
  rw [found.slice_eq]
  exact ⟨(scanOperator_ok scanned).2.1, (scan_ok outcome).2 (by decide),
    fun other => length_le_scanOperator scanned⟩

theorem maximal (severed : Severed (text.take token.start) (text.drop token.start)) :
    token.Maximal text where
  alone := found.alone severed
  operator := found.longest
  number begins := by
    rw [found.slice_eq]
    exact (scan_digits begins found.outcome).1
  word begins := by
    rw [found.slice_eq]
    exact (scan_digits begins found.outcome).2

end Token.FoundIn

namespace Cursor

variable {text : List Char} {front : Nat} {token : Token} {cursor rest : Cursor}

/-- The next token is the one at its offset, and what is passed over in front of it ends no word. -/
theorem foundIn_next (le : front ≤ text.length)
    (severed : Severed (text.take front) (text.drop front))
    (h : (ofOffset text front).next = (.ok token, rest)) :
    token.FoundIn text ∧ Severed (text.take token.start) (text.drop token.start) := by
  obtain ⟨spaces, left, kind, lexeme, eq, spacing, -, found, rfl, -⟩ := next_found le h
  have behind : text.drop (front + spaces.length) = left := drop_behind eq
  have before : text.take (front + spaces.length) = text.take front ++ spaces := by
    rw [List.take_add, eq, List.take_left]
  constructor
  · exact ⟨behind ▸ found, by rw [behind]⟩
  · rw [behind, before]
    exact Severed.spaces (eq ▸ severed) spacing

/-- The cursor stands where no word goes on. -/
def Clear (cursor : Cursor) (text : List Char) : Prop :=
  ∃ front ≤ text.length, cursor = ofOffset text front ∧
    Severed (text.take front) (text.drop front)

theorem clear_next (h : cursor.next = (.ok token, rest)) (clear : cursor.Clear text) :
    token.Maximal text ∧ rest.Clear text := by
  obtain ⟨front, le, rfl, severed⟩ := clear
  obtain ⟨found, severed⟩ := foundIn_next le severed h
  obtain ⟨cut, rfl⟩ := next_ofOffset le h
  exact ⟨found.maximal severed, token.stop, cut.ends, rfl, found.severed⟩

end Cursor

theorem maximal_of_tokenize {source : String} {tokens : List Token}
    (h : tokenize source = .ok tokens) : ∀ token ∈ tokens, token.Maximal source.toList :=
  Cursor.forall_tokens Cursor.clear_next h ⟨0, Nat.zero_le _, rfl, .inl rfl⟩

/-! ### Reading numbers -/

open Grammar Parse

variable {levels : Levels} {stream : Stream} {value : Float}

theorem Grammar.atom_number (levels : Levels) (kind : stream.head.kind = .number)
    (reads : Decimal.read? stream.head.lexeme.toList = some value) :
    atom levels stream = .ok (.literal (.number value)) stream.tail := by
  unfold atom
  simp only [bind, EStateM.bind, advance, kind, reads]
  rfl

/-- Behind a number as the name of a field stands its value. -/
theorem Grammar.entry_number (levels : Levels) (kind : stream.head.kind = .number)
    (reads : Decimal.read? stream.head.lexeme.toList = some value) :
    entry levels stream = (do
      let _ ← expectSign ':'
      let expr ← nestedExpression levels
      pure (Decimal.text value, expr)) stream.tail := by
  unfold entry
  simp only [bind, EStateM.bind, advance, kind, reads]
  rfl

/-- **Tokens are maximal and numbers can be converted.** In a text that the lexer accepts no word or
number touches a further word character, an operator is the longest one ahead, and what begins with a
digit is a number if it has the form of one and otherwise all of a word. The text of a number is read as
one, so neither a literal nor the name of a field fails for it. Digits anywhere in a text are a word, a
number, or a number that a word is glued to, and only the last is an error. -/
theorem tokenize_maximal (source : String) :
    (∀ tokens, tokenize source = .ok tokens → ∀ token ∈ tokens, token.Maximal source.toList ∧
      (token.kind = .number → ∃ value, Decimal.read? token.lexeme.toList = some value ∧
        ∀ (levels : Levels) (stream : Stream), stream.head = token →
          atom levels stream = .ok (.literal (.number value)) stream.tail ∧
          entry levels stream = (do
            let _ ← expectSign ':'
            let expr ← nestedExpression levels
            pure (Decimal.text value, expr)) stream.tail)) ∧
    ∀ offset, digitAhead (source.toList.drop offset) = true →
      NumberFinds (source.toList.drop offset) (scan (source.toList.drop offset)) := by
  constructor
  · intro tokens h token mem
    refine ⟨maximal_of_tokenize h token mem, fun kind => ?_⟩
    have isNumber := (scanned_of_tokenize h token mem).isNumber kind
    obtain ⟨value, reads⟩ := Option.isSome_iff_exists.mp (Decimal.read?_isSome isNumber)
    refine ⟨value, reads, ?_⟩
    rintro levels stream rfl
    exact ⟨atom_number levels kind reads, entry_number levels kind reads⟩
  · intro offset begins
    rw [(scan_of_digits begins).2]
    exact finds_scanNumber begins

/-- Words and numbers that begin with digits, and signs that can be taken for two operators. -/
theorem tokenize_maximal_digits : ∃ tokens,
    tokenize "7ala 1e 12e5 7.x 1.5e-3===-7" = .ok tokens ∧
      ∀ token ∈ tokens, token.Maximal "7ala 1e 12e5 7.x 1.5e-3===-7".toList := by
  have lexed : (tokenize "7ala 1e 12e5 7.x 1.5e-3===-7").isOk = true := by decide +kernel
  cases found : tokenize "7ala 1e 12e5 7.x 1.5e-3===-7" with
  | error error => simp [found, Except.isOk, Except.toBool] at lexed
  | ok tokens =>
    exact ⟨tokens, rfl, fun token mem => ((tokenize_maximal _).1 tokens found token mem).1⟩

end DarijaScript
