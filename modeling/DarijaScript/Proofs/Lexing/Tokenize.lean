import DarijaScript.Syntax.Lexer

/-!
# Sequences of tokens

Every token but the last takes a character, so the bound on the number of tokens is never reached:
what the lexer accepts ends with the end of the file, and nothing else in it is the end of the file.
-/

namespace DarijaScript

/-- The token is what the lexer finds at the front of some text. -/
def Token.Scanned (token : Token) : Prop :=
  ∃ text, (scan text).outcome = .ok (token.kind, token.lexeme)

theorem isWordChar_of_isDigit {c : Char} (h : c.isDigit = true) : isWordChar c = true := by
  have ascii : c.toNat < 0x80 := by
    simp only [Char.isDigit, Bool.and_eq_true, decide_eq_true_eq] at h
    have := h.2
    simp only [UInt32.le_iff_toNat_le] at this
    exact Nat.lt_of_le_of_lt this (by decide)
  have alphanumeric := Text.isAlphanumeric_of_isAlphanum c (by simp [Char.isAlphanum, h]) ascii
  simp [isWordChar, alphanumeric]

theorem length_le_scanString (quote : Char) (length : Nat) (value text : List Char) :
    length ≤ (scanString quote length value text).length := by
  fun_induction scanString quote length value text with
  | case1 => exact Nat.le_refl _
  | case2 => exact Nat.le_succ _
  | case3 _ _ _ _ ih => omega
  | case4 => exact Nat.le_succ _
  | case5 => exact Nat.le_succ _
  | case6 _ _ _ _ _ _ ih => omega

theorem length_scanWord_pos {c : Char} {rest : List Char} (h : isWordChar c = true) :
    0 < (scanWord (c :: rest)).length := by
  simp [scanWord, h]

theorem length_scanNumber_pos {c : Char} {rest : List Char} (h : c.isDigit = true) :
    0 < (scanNumber (c :: rest)).length := by
  unfold scanNumber
  dsimp only
  split
  · exact length_scanWord_pos (isWordChar_of_isDigit h)
  · split <;> simp [h]

theorem length_scanOperator_pos (c : Char) (text : List Char) :
    0 < (scanOperator c text).length := by
  unfold scanOperator
  split
  · next operator found =>
    have mem := List.mem_of_find?_eq_some found
    clear found
    revert operator
    decide
  · exact Nat.one_pos

/-- What is found at the front of a text, by the character that it begins with. -/
inductive Finds : List Char → Scan → Prop
  | ending : Finds [] ⟨0, .ok (.endOfFile, "")⟩
  | string {quote : Char} {rest : List Char} (quotes : quote = '"' ∨ quote = '\'') :
      Finds (quote :: rest) (scanString quote 1 [] rest)
  | number {c : Char} {rest : List Char} (digit : c.isDigit = true) :
      Finds (c :: rest) (scanNumber (c :: rest))
  | word {c : Char} {rest : List Char} (noDigit : c.isDigit = false)
      (letter : isWordChar c = true) : Finds (c :: rest) (scanWord (c :: rest))
  | punctuation {c : Char} {rest : List Char} (mem : c ∈ punctuationChars) :
      Finds (c :: rest) ⟨1, .ok (.punctuation, c.toString)⟩
  | operator {c : Char} {rest : List Char} (noLetter : isWordChar c = false)
      (noSign : c ∉ punctuationChars) : Finds (c :: rest) (scanOperator c (c :: rest))

theorem finds_scan (text : List Char) : Finds text (scan text) := by
  unfold scan
  split
  · exact .ending
  · next c rest =>
    split
    · next quotes => exact .string quotes
    · split
      · next digit => exact .number digit
      · next noDigit =>
        split
        · next letter => exact .word (by simpa using noDigit) letter
        · next noLetter =>
          split
          · next mem => exact .punctuation mem
          · next noSign => exact .operator (by simpa using noLetter) noSign

theorem length_scan_pos {text : List Char} (h : text ≠ []) : 0 < (scan text).length := by
  have finds := finds_scan text
  generalize scan text = found at finds ⊢
  cases finds with
  | ending => exact absurd rfl h
  | string => exact length_le_scanString _ 1 [] _
  | number digit => exact length_scanNumber_pos digit
  | word _ letter => exact length_scanWord_pos letter
  | punctuation => exact Nat.one_pos
  | operator => exact length_scanOperator_pos _ _

namespace Cursor

theorem rest_forward (n : Nat) (cursor : Cursor) : (cursor.forward n).rest = cursor.rest.drop n := by
  induction n generalizing cursor with
  | zero => rfl
  | succ n ih =>
    unfold forward
    split
    · next eq => simp [eq]
    · next eq => simp [ih, eq]

/-- A token is the end of the file at the end of the text, or it takes at least one character. -/
theorem next_ok {cursor rest : Cursor} {token : Token} (h : cursor.next = (.ok token, rest)) :
    token.Scanned ∧ (token.isEnd = true ∨ rest.rest.length < cursor.rest.length) := by
  unfold next at h
  split at h
  · cases h
  · next length _ =>
    dsimp only at h
    split at h
    · next kind lexeme found =>
      obtain ⟨made, rfl⟩ := Prod.mk.inj h
      obtain rfl := Except.ok.inj made
      refine ⟨⟨_, found⟩, ?_⟩
      by_cases ending : (cursor.forward length).rest = []
      · left
        rw [ending] at found
        obtain ⟨rfl, rfl⟩ := Prod.mk.inj (Except.ok.inj found)
        rfl
      · right
        have pos := length_scan_pos ending
        have nonempty := List.length_pos_iff.mpr ending
        rw [rest_forward] at pos nonempty ⊢
        rw [rest_forward, List.length_drop]
        rw [List.length_drop] at nonempty ⊢
        omega
    · cases h

/-- The first token is the last one, or the others come from the cursor behind it. -/
theorem tokens_succ {atMost : Nat} {cursor : Cursor} {found : List Token}
    (h : tokens (atMost + 1) cursor = .ok found) :
    ∃ token rest, cursor.next = (.ok token, rest) ∧
      ((token.isEnd = true ∧ found = [token]) ∨
        (token.isEnd = false ∧ ∃ others, tokens atMost rest = .ok others ∧
          found = token :: others)) := by
  unfold tokens at h
  split at h
  · cases h
  · next token rest next =>
    refine ⟨token, rest, next, ?_⟩
    split at h
    · next isEnd => exact .inl ⟨isEnd, (Except.ok.inj h).symm⟩
    · next notEnd =>
      cases further : tokens atMost rest with
      | error error => simp [further, Except.map] at h
      | ok others =>
        have eq : token :: others = found := by simpa [further, Except.map] using h
        exact .inr ⟨by simpa using notEnd, others, rfl, eq.symm⟩

theorem tokens_ok {atMost : Nat} {cursor : Cursor} {found : List Token}
    (enough : cursor.rest.length < atMost) (h : tokens atMost cursor = .ok found) :
    ∃ body ending, found = body ++ [ending] ∧ ending.isEnd = true ∧
      ∀ token ∈ body, token.isEnd = false ∧ token.Scanned := by
  induction atMost generalizing cursor found with
  | zero => omega
  | succ atMost ih =>
    obtain ⟨token, rest, next, ⟨isEnd, rfl⟩ | ⟨notEnd, others, further, rfl⟩⟩ := tokens_succ h
    · exact ⟨[], token, rfl, isEnd, by simp⟩
    · obtain ⟨scanned, ending⟩ := next_ok next
      have fewer := ending.resolve_left (by simp [notEnd])
      obtain ⟨body, last, rfl, isEnd, others⟩ := ih (by omega) further
      refine ⟨token :: body, last, rfl, isEnd, ?_⟩
      simpa [scanned, notEnd] using others

/-- What holds of every token that is found next holds of all tokens. -/
theorem forall_tokens {holds : Cursor → Prop} {good : Token → Prop}
    (step : ∀ {cursor token rest}, cursor.next = (.ok token, rest) → holds cursor →
      good token ∧ holds rest) {atMost : Nat} {cursor : Cursor} {found : List Token}
    (h : tokens atMost cursor = .ok found) (begins : holds cursor) : ∀ token ∈ found, good token := by
  induction atMost generalizing cursor found with
  | zero =>
    cases h
    exact List.forall_mem_nil _
  | succ atMost ih =>
    obtain ⟨token, rest, next, ⟨-, rfl⟩ | ⟨-, others, further, rfl⟩⟩ := tokens_succ h
    · exact List.forall_mem_singleton.mpr (step next begins).1
    · obtain ⟨here, behind⟩ := step next begins
      exact List.forall_mem_cons.mpr ⟨here, ih further behind⟩

/-! ### Lines -/

theorem line_pos_forward (n : Nat) {cursor : Cursor} (h : 1 ≤ cursor.position.line) :
    1 ≤ (cursor.forward n).position.line := by
  induction n generalizing cursor with
  | zero => exact h
  | succ n ih =>
    unfold forward
    split
    · exact h
    · apply ih
      unfold Position.after
      split
      · exact Nat.le_succ_of_le h
      · exact h

theorem line_pos_next {cursor rest : Cursor} {token : Token} (h : cursor.next = (.ok token, rest))
    (begins : 1 ≤ cursor.position.line) : 1 ≤ token.position.line ∧ 1 ≤ rest.position.line := by
  unfold next at h
  split at h
  · cases h
  · dsimp only at h
    split at h
    · cases h
      exact ⟨line_pos_forward _ begins, line_pos_forward _ (line_pos_forward _ begins)⟩
    · cases h

end Cursor

/-- Lines are counted from one. -/
theorem line_pos_of_tokenize {text : String} {tokens : List Token}
    (h : tokenize text = .ok tokens) : ∀ token ∈ tokens, 1 ≤ token.position.line :=
  Cursor.forall_tokens Cursor.line_pos_next h (Nat.le_refl 1)

/-- Every token is found at the front of some text. -/
theorem scanned_of_tokenize {text : String} {tokens : List Token}
    (h : tokenize text = .ok tokens) : ∀ token ∈ tokens, token.Scanned :=
  Cursor.forall_tokens (fun next _ => ⟨(Cursor.next_ok next).1, trivial⟩) h trivial

/-- The tokens of a text end with the end of the file and hold no other one. -/
theorem tokenize_ok {text : String} {tokens : List Token} (h : tokenize text = .ok tokens) :
    ∃ body ending, tokens = body ++ [ending] ∧ ending.isEnd = true ∧
      ∀ token ∈ body, token.isEnd = false ∧ token.Scanned :=
  Cursor.tokens_ok (Nat.lt_succ_self _) h

end DarijaScript
