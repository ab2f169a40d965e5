import DarijaScript.Proofs.Lexing.Partition

/-!
# The lexer goes on behind errors

Wherever an error leaves the cursor, it stands at an offset of the text, and the next call begins
there as it would in a text that begins there. So what holds of one call at an offset holds of every
call: it comes to the end of the file, or it takes a character.
-/

namespace DarijaScript

open Text

/-! ### One call -/

/-- Behind the opening quote the line ends, or the text, before the quote comes again. -/
inductive Unclosed (quote : Char) : List Char → Prop
  | ending : Unclosed quote []
  | line {rest : List Char} : Unclosed quote ('\n' :: rest)
  | backslash : Unclosed quote ['\\']
  | escaped {c : Char} {rest : List Char} (more : Unclosed quote rest) :
      Unclosed quote ('\\' :: c :: rest)
  | plain {c : Char} {rest : List Char} (other : c ≠ quote) (more : Unclosed quote rest) :
      Unclosed quote (c :: rest)

/-- The fault is told of the token, or of the comment, that the text begins with. -/
inductive LexicalIssue.Offends : LexicalIssue → List Char → Prop
  /-- No token and no comment begins with the character. -/
  | character {c : Char} {rest : List Char} (solid : isBlank c = false)
      (noLetter : isWordChar c = false) (noSign : c ∉ punctuationChars)
      (noOperator : ∀ operator ∈ operatorTexts, ¬operator.toList <+: c :: rest) :
      Offends (.unexpectedCharacter c) (c :: rest)
  | string {quote : Char} {rest : List Char} (quotes : quote = '"' ∨ quote = '\'')
      (unclosed : Unclosed quote rest) : Offends .unterminatedString (quote :: rest)
  /-- A word is glued to a number. -/
  | number {number glued rest : List Char} (isNumber : IsNumber number) (some : glued ≠ [])
      (all : ∀ c ∈ glued, isWordChar c = true) (ends : rest.head?.any isWordChar = false) :
      Offends (.invalidNumber (String.ofList (number ++ glued))) (number ++ (glued ++ rest))
  | comment {rest : List Char} (unclosed : ¬commentClose <:+: rest) :
      Offends .unterminatedComment ('/' :: '*' :: rest)

theorem scanString_error {quote : Char} {length : Nat} {value text : List Char}
    {issue : LexicalIssue} (h : (scanString quote length value text).outcome = .error issue) :
    issue = .unterminatedString ∧ Unclosed quote text := by
  fun_induction scanString quote length value text with
  | case1 => exact ⟨(Except.error.inj h).symm, .ending⟩
  | case2 => exact ⟨(Except.error.inj h).symm, .backslash⟩
  | case3 _ _ _ _ ih =>
    obtain ⟨eq, more⟩ := ih h
    exact ⟨eq, .escaped more⟩
  | case4 => exact ⟨(Except.error.inj h).symm, .line⟩
  | case5 => cases h
  | case6 _ _ _ _ _ _ other ih =>
    obtain ⟨eq, more⟩ := ih h
    exact ⟨eq, .plain other more⟩

theorem scanOperator_error {first : Char} {text : List Char} {issue : LexicalIssue}
    (h : (scanOperator first text).outcome = .error issue) :
    issue = .unexpectedCharacter first ∧
      ∀ operator ∈ operatorTexts, ¬operator.toList <+: text := by
  unfold scanOperator at h
  split at h
  · cases h
  · next none =>
    refine ⟨(Except.error.inj h).symm, fun operator mem ahead => ?_⟩
    have absent := List.find?_eq_none.mp none operator mem
    exact absent (List.isPrefixOf_iff_prefix.mpr ahead)

/-- Where no token is found, the fault is one of the characters ahead. -/
theorem offends_scan {text : List Char} {issue : LexicalIssue}
    (solid : text.head?.any isBlank = false) (h : (scan text).outcome = .error issue) :
    issue.Offends text := by
  have finds := finds_scan text
  generalize scan text = found at finds h
  cases finds with
  | ending => cases h
  | string quotes =>
    obtain ⟨rfl, unclosed⟩ := scanString_error h
    exact .string quotes unclosed
  | @number c rest digit =>
    have begins : digitAhead (c :: rest) = true := by simpa [digitAhead] using digit
    have finds := finds_scanNumber begins
    generalize c :: rest = text, scanNumber (c :: rest) = found at finds h
    cases finds with
    | word => cases h
    | number => cases h
    | glued isNumber some all ends =>
      obtain rfl := Except.error.inj h
      exact .number isNumber some all ends
  | word => cases h
  | punctuation => cases h
  | operator noLetter noSign =>
    obtain ⟨rfl, noOperator⟩ := scanOperator_error h
    exact .character (by simpa using solid) noLetter noSign noOperator

namespace Cursor

/-- What a call of the lexer at an offset of a text comes to: the end of the file, a token, or a
fault. -/
inductive Comes (text : List Char) (front : Nat) : Except SyntaxError Token × Cursor → Prop
  | ending {token : Token} (cut : token.Cut text front) (isEnd : token.isEnd = true) :
      Comes text front (.ok token, ofOffset text text.length)
  | token {token : Token} (cut : token.Cut text front) (notEnd : token.isEnd = false) :
      Comes text front (.ok token, ofOffset text token.stop)
  | fault {issue : LexicalIssue} {start stop : Nat} (passed : front ≤ start)
      (taken : start < stop) (within : stop ≤ text.length)
      (spacing : Spacing (slice text front start)) (offends : issue.Offends (text.drop start)) :
      Comes text front (.error ⟨.lexical issue, .behind (text.take start)⟩, ofOffset text stop)

/-- A call that gives no token tells a fault behind what is passed over. -/
theorem comes_of_error {text : List Char} {front : Nat} {error : SyntaxError} {rest : Cursor}
    (le : front ≤ text.length) (h : (ofOffset text front).next = (.error error, rest)) :
    Comes text front (.error error, rest) := by
  have passes := passes_gap (text.drop front)
  generalize eq : text.drop front = characters, ahead : gap (text.drop front) = found at passes
  rw [eq] at ahead
  cases passes with
  | @token spaces left spacing solid =>
    rw [next_of_skip le eq (eq ▸ ahead)] at h
    split at h
    · cases h
    · next issue outcome =>
      have length := length_of_drop eq le
      have taken := length_scan_le left
      have some : left ≠ [] := by
        rintro rfl
        cases outcome
      have positive := length_scan_pos some
      cases h
      refine .fault (Nat.le_add_right _ _) (by omega) (by omega) ?_ ?_
      · rwa [slice_front eq]
      · rw [drop_behind eq]
        exact offends_scan solid outcome
  | comment last =>
    have eq : text.drop front = characters ++ [] := by rw [eq, List.append_nil]
    rw [next_of_skip le eq (eq ▸ by simpa using ahead)] at h
    cases h
  | @unclosed spaces inside spacing unclosed =>
    have length := length_of_drop eq le
    rw [List.length_cons, List.length_cons] at length
    rw [next_of_openComment le eq (eq ▸ ahead)] at h
    cases h
    refine .fault (Nat.le_add_right _ _) (by omega) (Nat.le_refl _) ?_ ?_
    · rwa [slice_front eq]
    · rw [drop_behind eq]
      exact .comment unclosed

theorem comes_next {text : List Char} {front : Nat} (le : front ≤ text.length) :
    Comes text front (ofOffset text front).next := by
  cases called : (ofOffset text front).next with
  | mk answer rest =>
  cases answer with
  | ok token =>
    obtain ⟨cut, rfl⟩ := next_ofOffset le called
    cases isEnd : token.isEnd with
    | true => rw [(cut.ending isEnd).2]; exact .ending cut isEnd
    | false => exact .token cut isEnd
  | error error => exact comes_of_error le called

/-! ### Any number of calls -/

/-- The cursor behind some calls, where reading goes on after every error. -/
def after (calls : Nat) (cursor : Cursor) : Cursor := (·.next.2)^[calls] cursor

/-- The cursor stands at its offset of the text, where a call comes to the end of the file at the end of
the text or takes a character, and a fault is told where the token or the comment begins that it is one
of: only blanks and closed comments are passed over in front of it. -/
structure Progresses (text : List Char) (cursor : Cursor) : Prop where
  within : cursor.offset ≤ text.length
  rest : cursor.rest = text.drop cursor.offset
  position : cursor.position = .behind (text.take cursor.offset)
  moves : (∃ token, cursor.next.1 = .ok token ∧ token.isEnd = true ∧
      cursor.next.2.offset = text.length) ∨ cursor.offset < cursor.next.2.offset
  faults : ∀ error, cursor.next.1 = .error error → ∃ issue start,
    error = ⟨.lexical issue, .behind (text.take start)⟩ ∧ cursor.offset ≤ start ∧
      Spacing (slice text cursor.offset start) ∧ issue.Offends (text.drop start)

/-- What the lexer gives for the text behind the cursor when it is called until the end of the file or
the first error, however often that is. -/
inductive Collects : Cursor → Except SyntaxError (List Token) → Prop
  | ending {cursor rest : Cursor} {token : Token} (next : cursor.next = (.ok token, rest))
      (isEnd : token.isEnd = true) : Collects cursor (.ok [token])
  | token {cursor rest : Cursor} {token : Token} {found : Except SyntaxError (List Token)}
      (next : cursor.next = (.ok token, rest)) (notEnd : token.isEnd = false)
      (more : Collects rest found) : Collects cursor (found.map (token :: ·))
  | error {cursor rest : Cursor} {error : SyntaxError} (next : cursor.next = (.error error, rest)) :
      Collects cursor (.error error)

section

variable {text : List Char} {front : Nat} (le : front ≤ text.length)
include le

/-- A call leaves the cursor at an offset of the text, which is the end behind the end of the file and
otherwise further on. -/
theorem exists_next : ∃ stop ≤ text.length, (ofOffset text front).next.2 = ofOffset text stop ∧
    ((∃ token, (ofOffset text front).next.1 = .ok token ∧ token.isEnd = true ∧
      stop = text.length) ∨ front < stop) := by
  have comes := comes_next le
  generalize (ofOffset text front).next = called at comes ⊢
  cases comes with
  | ending _ isEnd => exact ⟨_, Nat.le_refl _, rfl, .inl ⟨_, rfl, isEnd, rfl⟩⟩
  | token cut notEnd =>
    exact ⟨_, cut.ends, rfl, .inr (Nat.lt_of_le_of_lt cut.begins (cut.nonempty notEnd))⟩
  | fault passed taken within =>
    exact ⟨_, within, rfl, .inr (Nat.lt_of_le_of_lt passed taken)⟩

theorem progresses_ofOffset : (ofOffset text front).Progresses text where
  within := le
  rest := rfl
  position := rfl
  moves := by
    obtain ⟨stop, -, eq, moved⟩ := exists_next le
    rw [eq]
    exact moved
  faults := by
    intro error told
    have comes := comes_next le
    generalize (ofOffset text front).next = called at comes told
    cases comes with
    | ending => cases told
    | token => cases told
    | fault passed _ _ spacing offends =>
      obtain rfl := Except.error.inj told
      exact ⟨_, _, rfl, passed, spacing, offends⟩

theorem exists_after (calls : Nat) :
    ∃ stop ≤ text.length, (ofOffset text front).after calls = ofOffset text stop := by
  induction calls with
  | zero => exact ⟨front, le, rfl⟩
  | succ calls ih =>
    obtain ⟨mid, within, eq⟩ := ih
    have step : (ofOffset text front).after (calls + 1) = ((ofOffset text front).after calls).next.2 :=
      Function.iterate_succ_apply' ..
    obtain ⟨stop, within, moved, -⟩ := exists_next within
    exact ⟨stop, within, by rw [step, eq, moved]⟩

end

/-- By induction on the characters ahead: a call that does not come to the end takes one. -/
theorem exists_ending {text : List Char} {front : Nat} (le : front ≤ text.length) :
    ∃ calls ≤ text.length - front, ∃ token,
      ((ofOffset text front).after calls).next.1 = .ok token ∧ token.isEnd = true := by
  obtain ⟨stop, within, moved, ⟨token, found, isEnd, -⟩ | further⟩ := exists_next le
  · exact ⟨0, Nat.zero_le _, token, found, isEnd⟩
  · obtain ⟨calls, few, token, found, isEnd⟩ := exists_ending within
    refine ⟨calls + 1, by omega, token, ?_, isEnd⟩
    have step : (ofOffset text front).after (calls + 1) = (ofOffset text front).next.2.after calls :=
      Function.iterate_succ_apply ..
    rw [step, moved, found]
termination_by text.length - front

theorem collects_tokens {text : List Char} {front atMost : Nat} (le : front ≤ text.length)
    (enough : text.length - front < atMost) :
    Collects (ofOffset text front) (tokens atMost (ofOffset text front)) := by
  induction atMost generalizing front with
  | zero => omega
  | succ atMost ih =>
    have comes := comes_next le
    unfold tokens
    generalize called : (ofOffset text front).next = call at comes
    cases comes with
    | ending _ isEnd => simpa [isEnd] using Collects.ending called isEnd
    | token cut notEnd =>
      have begins := cut.begins
      have taken := cut.nonempty notEnd
      have ends := cut.ends
      have more := ih ends (by omega)
      simpa [notEnd] using Collects.token called notEnd more
    | fault => exact .error called

end Cursor

/-- **The lexer makes progress through errors.** However often it was called, the cursor stands at an
offset of the text with the line and the column of that offset, and the next call gives the end of the
file at the end of the text or moves the cursor on, also if it tells a fault; the position of a fault
is that of the first character of what is wrong. The end of the file comes at the latest with one call
more than there are characters, so calling the lexer until then or until the first error ends, and
that is what all tokens of a text are. -/
theorem lexer_progresses (source : String) :
    (∀ calls, ((Cursor.ofText source.toList).after calls).Progresses source.toList) ∧
      (∃ calls ≤ source.length, ∃ token,
        ((Cursor.ofText source.toList).after calls).next.1 = .ok token ∧ token.isEnd = true) ∧
      (Cursor.ofText source.toList).Collects (tokenize source) := by
  refine ⟨fun calls => ?_, ?_, Cursor.collects_tokens (Nat.zero_le _) (Nat.lt_succ_self _)⟩
  · obtain ⟨stop, within, eq⟩ := Cursor.exists_after (Nat.zero_le source.toList.length) calls
    have eq : (Cursor.ofText source.toList).after calls = .ofOffset source.toList stop := eq
    rw [eq]
    exact Cursor.progresses_ofOffset within
  · rw [← String.length_toList]
    exact Cursor.exists_ending (Nat.zero_le _)

end DarijaScript
