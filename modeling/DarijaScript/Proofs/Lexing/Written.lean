import DarijaScript.Proofs.Lexing.Spacing

/-!
# Written tokens are read

A written sequence of tokens with blanks between some of them is cut into the same tokens, if each of
them is found again in front of what is written behind it. There is one exception: a whole number
directly in front of a point and a digit is not a token any more, and then the text is refused.
-/

namespace DarijaScript

open Text Piece

/-- What the grammar sees of a token. -/
def Token.content (token : Token) : TokenKind × String := (token.kind, token.lexeme)

/-- The token that a part writes, if it is not a blank. -/
def Piece.content? : Piece → Option (TokenKind × String)
  | token kind lexeme => some (kind, lexeme)
  | _ => none

/-- The tokens that the parts write. -/
def contents (pieces : List Piece) : List (TokenKind × String) := pieces.filterMap content?

/-- A whole number stands directly in front of a point and a digit. -/
def gluesNumber : List Piece → Bool
  | [] => false
  | token .number lexeme :: rest =>
    (lexeme.toList.all Char.isDigit && !(fractionAhead (render rest)).isEmpty) || gluesNumber rest
  | _ :: rest => gluesNumber rest

theorem gluesNumber_token {kind : TokenKind} {lexeme : String} {rest : List Piece}
    (other : kind ≠ .number) : gluesNumber (token kind lexeme :: rest) = gluesNumber rest := by
  cases kind <;> first | exact absurd rfl other | rfl

theorem chars_token {kind : TokenKind} {lexeme : String} (other : kind ≠ .string) :
    (token kind lexeme).chars = lexeme.toList := by
  unfold chars
  split <;> simp_all

theorem render_cons (piece : Piece) (rest : List Piece) :
    render (piece :: rest) = piece.chars ++ render rest := List.flatMap_cons ..

theorem render_append (pieces rest : List Piece) :
    render (pieces ++ rest) = render pieces ++ render rest := List.flatMap_append ..

/-! ### One token -/

namespace Cursor

variable {cursor : Cursor} {front text : List Char}

theorem rest_forward_front (ahead : cursor.rest = front ++ text) :
    (cursor.forward front.length).rest = text := by
  rw [rest_forward, ahead, List.drop_left]

/-- The token that is found behind what is passed over is the next one. -/
theorem next_of_scan (ahead : cursor.rest = front ++ text) (spacing : Spacing front)
    (noGap : NoGap text) {length : Nat} {kind : TokenKind} {lexeme : String}
    (scanned : scan text = ⟨length, .ok (kind, lexeme)⟩) :
    ∃ token after, cursor.next = (.ok token, after) ∧ token.content = (kind, lexeme) ∧
      after.rest = text.drop length := by
  have skipped : gap cursor.rest = .skip front.length := by rw [ahead, spacing.gap_append noGap]
  have start := rest_forward_front ahead
  unfold next
  rw [skipped]
  dsimp only
  rw [start, scanned]
  dsimp only
  exact ⟨_, _, rfl, rfl, by rw [rest_forward, start]⟩

theorem next_of_error (ahead : cursor.rest = front ++ text) (spacing : Spacing front)
    (noGap : NoGap text) {length : Nat} {issue : LexicalIssue}
    (scanned : scan text = ⟨length, .error issue⟩) :
    ∃ error after, cursor.next = (.error error, after) := by
  have skipped : gap cursor.rest = .skip front.length := by rw [ahead, spacing.gap_append noGap]
  unfold next
  rw [skipped]
  dsimp only
  rw [rest_forward_front ahead, scanned]
  exact ⟨_, _, rfl⟩

/-- Where only blanks and comments are left, the end of the file is the only token. -/
theorem tokens_of_spacing (spacing : Spacing cursor.rest) {atMost : Nat} (enough : 0 < atMost) :
    ∃ ending, cursor.tokens atMost = .ok [ending] ∧ ending.content = (.endOfFile, "") := by
  obtain ⟨atMost, rfl⟩ := Nat.exists_eq_add_one_of_ne_zero (Nat.ne_of_gt enough)
  have none : scan [] = ⟨0, .ok (.endOfFile, "")⟩ := rfl
  obtain ⟨ending, after, next, content, -⟩ :=
    next_of_scan (List.append_nil _).symm spacing noGap_nil none
  have isEnd : ending.isEnd = true := by
    have kind : ending.kind = .endOfFile := (Prod.mk.inj content).1
    simp [Token.isEnd, kind]
  refine ⟨ending, ?_, content⟩
  rw [tokens, next]
  simp [isEnd]

/-- A token that is found again is the first one, and the others are those of the text behind it. -/
theorem tokens_of_stands {rest : List Char} (ahead : cursor.rest = front ++ (text ++ rest))
    (spacing : Spacing front) {kind : TokenKind} {lexeme : String}
    (stands : Stands text kind lexeme rest) (notEnd : kind ≠ .endOfFile) :
    ∃ (token : Token) (after : Cursor), token.content = (kind, lexeme) ∧ after.rest = rest ∧
      after.rest.length < cursor.rest.length ∧
      ∀ atMost, cursor.tokens (atMost + 1) = (after.tokens atMost).map (token :: ·) := by
  obtain ⟨token, after, next, content, left⟩ := next_of_scan ahead spacing stands.noGap stands.scan
  rw [List.drop_left] at left
  have notEnd : token.isEnd = false := by
    have kind : token.kind = kind := (Prod.mk.inj content).1
    simpa [Token.isEnd, kind] using notEnd
  have fewer := (next_ok next).2.resolve_left (by simp [notEnd])
  refine ⟨token, after, content, left, fewer, fun atMost => ?_⟩
  rw [tokens, next]
  simp [notEnd]

end Cursor

/-! ### Sequences of tokens -/

/-- Behind any blanks, the parts are cut into the tokens that they write, unless a number is glued to
a fraction. -/
def Lexes (pieces : List Piece) : Prop :=
  ∀ ⦃cursor : Cursor⦄ ⦃blanks : List Char⦄ ⦃atMost : Nat⦄,
    cursor.rest = blanks ++ render pieces → (∀ c ∈ blanks, isBlank c = true) →
    cursor.rest.length < atMost →
    if gluesNumber pieces then ∃ error, cursor.tokens atMost = .error error
    else ∃ body ending, cursor.tokens atMost = .ok (body ++ [ending]) ∧
      body.map Token.content = contents pieces

theorem lexes_nil : Lexes [] := by
  intro cursor blanks atMost ahead all enough
  have spacing : Spacing cursor.rest := by
    rw [ahead, render, List.flatMap_nil, List.append_nil]
    exact spacing_blanks all
  obtain ⟨ending, eq, -⟩ := Cursor.tokens_of_spacing spacing (Nat.zero_lt_of_lt enough)
  exact ⟨[], ending, eq, rfl⟩

section

variable {rest : List Piece}

/-- Blanks change nothing. -/
theorem Lexes.blank {piece : Piece} (all : ∀ c ∈ piece.chars, isBlank c = true)
    (noToken : piece.content? = none) (h : Lexes rest) : Lexes (piece :: rest) := by
  intro cursor blanks atMost ahead blank enough
  rw [render_cons, ← List.append_assoc] at ahead
  have glues : gluesNumber (piece :: rest) = gluesNumber rest := by
    cases piece with
    | token => cases noToken
    | space => rfl
    | line => rfl
  have same : contents (piece :: rest) = contents rest := by
    rw [contents, List.filterMap_cons_none noToken]
    rfl
  rw [glues, same]
  refine h ahead (fun c mem => ?_) enough
  rcases List.mem_append.mp mem with mem | mem
  · exact blank c mem
  · exact all c mem

theorem Lexes.space (h : Lexes rest) : Lexes (space :: rest) := by
  refine h.blank (fun c mem => ?_) rfl
  obtain rfl : c = ' ' := by simpa [chars] using mem
  rfl

theorem Lexes.line (depth : Nat) (h : Lexes rest) : Lexes (line depth :: rest) := by
  refine h.blank (fun c mem => ?_) rfl
  have : c = '\n' ∨ c = ' ' := by
    simp only [chars, indentation, List.mem_cons, List.mem_flatten, List.mem_replicate] at mem
    rcases mem with rfl | ⟨_, ⟨-, rfl⟩, mem⟩
    · exact .inl rfl
    · exact .inr (List.eq_of_mem_replicate mem)
  rcases this with rfl | rfl <;> rfl

/-- A token that is found again goes on with what is written behind it. -/
theorem Lexes.token {kind : TokenKind} {lexeme : String} (h : Lexes rest)
    (stands : Stands (token kind lexeme).chars kind lexeme (render rest))
    (notEnd : kind ≠ .endOfFile)
    (alone : gluesNumber (token kind lexeme :: rest) = gluesNumber rest) :
    Lexes (token kind lexeme :: rest) := by
  intro cursor blanks atMost ahead blank enough
  obtain ⟨atMost, rfl⟩ := Nat.exists_eq_add_one_of_ne_zero (Nat.ne_of_gt (Nat.zero_lt_of_lt enough))
  rw [render_cons] at ahead
  obtain ⟨found, after, content, left, fewer, step⟩ :=
    Cursor.tokens_of_stands ahead (spacing_blanks blank) stands notEnd
  have others := h (left.trans (List.nil_append _).symm) (by simp) (by omega : _ < atMost)
  rw [alone, step]
  cases glues : gluesNumber rest with
  | true =>
    rw [glues, if_pos rfl] at others
    obtain ⟨error, eq⟩ := others
    exact ⟨error, by rw [eq]; rfl⟩
  | false =>
    rw [glues, if_neg (by decide)] at others
    obtain ⟨body, ending, eq, same⟩ := others
    refine ⟨found :: body, ending, by rw [eq]; rfl, ?_⟩
    rw [List.map_cons, content, same]
    rfl

/-- A whole number that is glued to a fraction is no token. -/
theorem Lexes.glued {lexeme : String} (nonempty : lexeme.toList ≠ [])
    (digits : ∀ c ∈ lexeme.toList, c.isDigit = true) (follows : Follows (render rest))
    (fraction : (fractionAhead (render rest)).isEmpty = false) :
    Lexes (Piece.token .number lexeme :: rest) := by
  intro cursor blanks atMost ahead blank enough
  obtain ⟨atMost, rfl⟩ := Nat.exists_eq_add_one_of_ne_zero (Nat.ne_of_gt (Nat.zero_lt_of_lt enough))
  have glues : gluesNumber (Piece.token .number lexeme :: rest) = true := by
    simp only [gluesNumber, fraction, Bool.not_false, Bool.and_true, Bool.or_eq_true]
    exact .inl (List.all_eq_true.mpr digits)
  obtain ⟨noGap, length, issue, scanned⟩ := scan_glued nonempty digits follows fraction
  obtain ⟨error, after, next⟩ := Cursor.next_of_error ahead (spacing_blanks blank) noGap scanned
  rw [glues, if_pos rfl, Cursor.tokens, next]
  exact ⟨error, rfl⟩

end

/-! ### The kinds of tokens -/

section

variable {rest : List Piece}

theorem Lexes.word {lexeme : String} (h : Lexes rest) (isWord : IsWord lexeme.toList)
    (follows : Follows (render rest)) : Lexes (word lexeme :: rest) := by
  have stands := isWord.stands follows
  rw [String.ofList_toList] at stands
  have kinds := wordKind_cases lexeme
  refine h.token ?_ (by grind) (gluesNumber_token (by grind))
  rwa [chars_token (by grind)]

theorem Lexes.identifier {name : String} (h : Lexes rest) (isWord : IsWord name.toList)
    (kind : wordKind name = .identifier) (follows : Follows (render rest)) :
    Lexes (Piece.token .identifier name :: rest) := by
  rw [← kind]
  exact h.word isWord follows

theorem isWord_keyword (keyword : Keyword) : IsWord keyword.text.toList := by
  have fields : keyword.text.toList ≠ [] ∧ keyword.text.toList.all isWordChar = true ∧
      (digitAhead keyword.text.toList = true →
        keyword.text.toList.dropWhile Char.isDigit ≠ [] ∧
          (powerAhead (keyword.text.toList.dropWhile Char.isDigit)).isEmpty = true) := by
    revert keyword
    have all : ∀ keyword ∈ Keyword.all, keyword.text.toList ≠ [] ∧
        keyword.text.toList.all isWordChar = true ∧
        (digitAhead keyword.text.toList = true →
          keyword.text.toList.dropWhile Char.isDigit ≠ [] ∧
            (powerAhead (keyword.text.toList.dropWhile Char.isDigit)).isEmpty = true) := by
      decide +kernel
    exact fun keyword => all keyword keyword.mem_all
  exact ⟨fields.1, List.all_eq_true.mp fields.2.1, fields.2.2⟩

theorem keyword_eq_word (word : Keyword) : keyword word = Piece.word word.text := by
  cases word <;> decide

theorem Lexes.keyword (word : Keyword) (h : Lexes rest) (follows : Follows (render rest)) :
    Lexes (keyword word :: rest) := by
  rw [keyword_eq_word]
  exact h.word (isWord_keyword word) follows

theorem Lexes.string (lexeme : String) (h : Lexes rest) :
    Lexes (Piece.token .string lexeme :: rest) :=
  h.token (stands_string lexeme _) (by decide) (gluesNumber_token (by decide))

theorem Lexes.sign {c : Char} (mem : c ∈ punctuationChars) (h : Lexes rest) :
    Lexes (sign c :: rest) := by
  refine h.token ?_ (by decide) (gluesNumber_token (by decide))
  rw [chars_token (by decide)]
  simpa [Char.toString] using stands_punctuation mem (render rest)

theorem Lexes.operator {text : String} (mem : text ∈ operatorTexts) (h : Lexes rest)
    (ends : ∀ c ∈ (render rest).head?, c ∉ operatorChars) : Lexes (operator text :: rest) := by
  refine h.token ?_ (by decide) (gluesNumber_token (by decide))
  rw [chars_token (by decide)]
  exact stands_operator mem ends

/-- A number is a token unless a fraction is glued to it. -/
theorem Lexes.number {lexeme : String} (number : Decimal.Positional)
    (eq : lexeme.toList = number.chars) (h : Lexes rest) (follows : Follows (render rest)) :
    Lexes (Piece.token .number lexeme :: rest) := by
  by_cases glues : number.fraction = [] ∧ (fractionAhead (render rest)).isEmpty = false
  · obtain ⟨whole, fraction⟩ := glues
    have eq : lexeme.toList = number.whole := by
      rw [eq, Decimal.Positional.chars, if_pos whole]
    exact Lexes.glued (by rw [eq]; exact number.nonempty)
      (by rw [eq]; exact fun c => number.isDigit_of_mem_whole) follows fraction
  · have alone : number.fraction = [] → (fractionAhead (render rest)).isEmpty = true :=
      fun whole => by simpa [whole] using glues
    refine h.token ?_ (by decide) ?_
    · have stands := number.isNumber.stands follows.endsWord fun digits =>
        List.isEmpty_iff.mp (alone (number.fraction_eq_nil digits))
      rw [← eq, String.ofList_toList] at stands
      rwa [chars_token (by decide)]
    · have noDigits : number.fraction ≠ [] → lexeme.toList.all Char.isDigit = false := by
        intro some
        rw [eq, Decimal.Positional.chars, if_neg some]
        simp
      by_cases whole : number.fraction = []
      · simp [gluesNumber, alone whole]
      · simp [gluesNumber, noDigits whole]

theorem Lexes.infinity (h : Lexes rest) (follows : Follows (render rest)) :
    Lexes (Piece.token .number "1e999" :: rest) := by
  refine h.token ?_ (by decide) rfl
  rw [chars_token (by decide)]
  exact isNumber_infinity.stands follows.endsWord (by simp)

end

/-- The written text is refused exactly where a number is glued to a fraction; otherwise its tokens
are the written ones. -/
theorem Lexes.tokenize {pieces : List Piece} (h : Lexes pieces) :
    if gluesNumber pieces then ∃ error, tokenize (String.ofList (render pieces)) = .error error
    else ∃ body ending, tokenize (String.ofList (render pieces)) = .ok (body ++ [ending]) ∧
      body.map Token.content = contents pieces := by
  have ahead : (Cursor.ofText (String.ofList (render pieces)).toList).rest = [] ++ render pieces := by
    simp [Cursor.ofText]
  exact h ahead (by simp) (Nat.lt_succ_self _)

end DarijaScript
