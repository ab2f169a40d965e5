import DarijaScript.Proofs.Lexing.Written

/-!
# Tokens in any layout

Tokens that were found in some text may be written out again in any layout: as long as a blank stands
behind each of them, no token sees what comes behind it, and the same tokens are found.
-/

namespace DarijaScript

open Text Piece

/-- What may be put between any two tokens: a blank, and behind it blanks and comments. -/
structure Separator (text : List Char) : Prop where
  spacing : Spacing text
  blank : text.head?.any isBlank = true

/-- The text writes the tokens one after the other with separators between them. -/
inductive Woven : List (TokenKind × String) → List Char → Prop
  | nil : Woven [] []
  | last {kind : TokenKind} {lexeme : String} : Woven [(kind, lexeme)] (token kind lexeme).chars
  | cons {kind : TokenKind} {lexeme : String} {next : TokenKind × String}
      {rest : List (TokenKind × String)} {separator text : List Char}
      (separates : Separator separator) (more : Woven (next :: rest) text) :
      Woven ((kind, lexeme) :: next :: rest) ((token kind lexeme).chars ++ separator ++ text)

/-- A token that was found is found again in front of a blank or the end of the text. -/
theorem Lexeme.stands {kind : TokenKind} {lexeme : String} {rest : List Char}
    (h : Lexeme kind lexeme) (notEnd : kind ≠ .endOfFile)
    (ends : ∀ c ∈ rest.head?, isBlank c = true) :
    Stands (token kind lexeme).chars kind lexeme rest := by
  have apart : ∀ c ∈ rest.head?, isWordChar c = false ∧ c ∉ operatorChars ∧ c ≠ '.' := by
    intro c mem
    have blank := ends c mem
    have solid : ∀ d ∈ '.' :: operatorChars, isBlank d = false := forall_mem_of_all (by decide)
    refine ⟨isWordChar_of_isBlank blank, fun sign => ?_, ?_⟩
    · simp [solid c (List.mem_cons_of_mem _ sign)] at blank
    · rintro rfl
      simp [solid '.' (by simp)] at blank
  have follows : Follows rest := by
    cases rest with
    | nil => exact follows_nil
    | cons c rest =>
      obtain ⟨word, sign, point⟩ := apart c rfl
      have signs : '+' ∈ operatorChars ∧ '-' ∈ operatorChars := by decide
      refine follows_cons word ⟨?_, ?_⟩ point
      · rintro rfl
        exact sign signs.1
      · rintro rfl
        exact sign signs.2
  cases h with
  | word isWord =>
    have kinds := wordKind_cases lexeme
    have stands := isWord.stands follows
    rw [String.ofList_toList] at stands
    rwa [chars_token (by grind)]
  | number isNumber =>
    have noFraction : fractionAhead rest = [] := by
      cases rest with
      | nil => rfl
      | cons c rest => exact fractionAhead_of_ne (apart c rfl).2.2
    have stands := isNumber.stands follows.endsWord fun _ => noFraction
    rw [String.ofList_toList] at stands
    rwa [chars_token (by decide)]
  | string => exact stands_string lexeme rest
  | operator mem =>
    rw [chars_token (by decide)]
    exact stands_operator mem fun c head => (apart c head).2.1
  | punctuation mem =>
    rw [chars_token (by decide)]
    simpa [Char.toString] using stands_punctuation mem rest
  | ending => exact absurd rfl notEnd

/-- These are the tokens of the text in front of its end, also behind anything that is passed over. -/
def HoldsTokens (text : List Char) (contents : List (TokenKind × String)) : Prop :=
  ∀ ⦃cursor : Cursor⦄ ⦃front : List Char⦄ ⦃atMost : Nat⦄,
    cursor.rest = front ++ text → Spacing front → cursor.rest.length < atMost →
    ∃ found, cursor.tokens atMost = .ok found ∧
      found.map Token.content = contents ++ [(.endOfFile, "")]

namespace HoldsTokens

variable {text : List Char} {contents : List (TokenKind × String)}

theorem nil : HoldsTokens [] [] := by
  intro cursor front atMost ahead spacing enough
  have spacing : Spacing cursor.rest := by rwa [ahead, List.append_nil]
  obtain ⟨ending, eq, content⟩ := cursor.tokens_of_spacing spacing (Nat.zero_lt_of_lt enough)
  exact ⟨[ending], eq, by rw [List.map_singleton, content, List.nil_append]⟩

theorem space {separator : List Char} (passed : Spacing separator) (h : HoldsTokens text contents) :
    HoldsTokens (separator ++ text) contents := by
  intro cursor front atMost ahead spacing enough
  rw [← List.append_assoc] at ahead
  exact h ahead (spacing.append passed) enough

/-- A token that was found stands in front, unless it is the end of the file, which is written as
nothing. -/
theorem cons {kind : TokenKind} {lexeme : String} (found : Lexeme kind lexeme)
    (ends : ∀ c ∈ text.head?, isBlank c = true) (h : HoldsTokens text contents) :
    HoldsTokens ((token kind lexeme).chars ++ text)
      ([(kind, lexeme)].filter (·.1 != .endOfFile) ++ contents) := by
  by_cases isEnd : kind = .endOfFile
  · cases found with
    | ending => simpa [chars] using h
    | word => rcases wordKind_cases lexeme with kind | kind | kind <;> simp [kind] at isEnd
    | _ => cases isEnd
  · intro cursor front atMost ahead spacing enough
    obtain ⟨token, after, content, left, fewer, step⟩ :=
      Cursor.tokens_of_stands ahead spacing (found.stands isEnd ends) isEnd
    obtain ⟨atMost, rfl⟩ := Nat.exists_eq_add_one_of_ne_zero (Nat.ne_of_gt (Nat.zero_lt_of_lt enough))
    obtain ⟨others, eq, same⟩ := h (left.trans (List.nil_append _).symm) .nil (by omega : _ < atMost)
    refine ⟨token :: others, by rw [step, eq]; rfl, ?_⟩
    simp [content, same, isEnd]

end HoldsTokens

/-- By induction on the tokens: what separates a token from the next one is passed over in front of
that. -/
theorem Woven.holdsTokens {contents : List (TokenKind × String)} {text : List Char}
    (h : Woven contents text) (lexemes : ∀ content ∈ contents, Lexeme content.1 content.2) :
    HoldsTokens text (contents.filter (·.1 != .endOfFile)) := by
  induction h with
  | nil => exact .nil
  | last =>
    have found := lexemes _ (List.mem_singleton_self _)
    simpa using HoldsTokens.nil.cons found (by simp)
  | @cons kind lexeme next rest separator text separates more ih =>
    obtain ⟨found, others⟩ := List.forall_mem_cons.mp lexemes
    have ends : ∀ c ∈ (separator ++ text).head?, isBlank c = true := by
      have blank := separates.blank
      cases separator with
      | nil => cases blank
      | cons c separator => simpa using blank
    have := ((ih others).space separates.spacing).cons found ends
    rwa [← List.append_assoc, ← List.filter_append] at this

theorem exists_lexeme {source : String} {tokens : List Token} (h : tokenize source = .ok tokens)
    {content : TokenKind × String} (mem : content ∈ tokens.map Token.content) :
    Lexeme content.1 content.2 := by
  obtain ⟨token, found, rfl⟩ := List.mem_map.mp mem
  exact (scanned_of_tokenize h token found).lexeme

/-- **Tokens are found again in every layout.** Each of the tokens comes from some source text. When
they are written one after the other with separators between them, the text has these tokens and
the end of the file behind them. An end of the file among them is written as nothing. -/
theorem tokenize_woven {contents : List (TokenKind × String)} {text : List Char}
    (arise : ∀ content ∈ contents, ∃ source tokens, tokenize source = .ok tokens ∧
      content ∈ tokens.map Token.content) (woven : Woven contents text) :
    ∃ tokens, tokenize (String.ofList text) = .ok tokens ∧
      tokens.map Token.content = contents.filter (·.1 != .endOfFile) ++ [(.endOfFile, "")] := by
  have lexemes : ∀ content ∈ contents, Lexeme content.1 content.2 := by
    intro content mem
    obtain ⟨source, tokens, lexed, mem⟩ := arise content mem
    exact exists_lexeme lexed mem
  have ahead : (Cursor.ofText (String.ofList text).toList).rest = [] ++ text := by
    simp [Cursor.ofText]
  exact woven.holdsTokens lexemes ahead .nil (Nat.lt_succ_self _)

/-- A number, a keyword and a string are found again behind comments of both kinds. -/
theorem tokenize_woven_comments : ∃ tokens,
    tokenize "2.5 /* 1 */7ala\n// x\n\"\\n\"" = .ok tokens ∧ tokens.map Token.content =
      [(.number, "2.5"), (.keyword, "7ala"), (.string, "\n"), (.endOfFile, "")] := by
  have lexed : (tokenize "2.5 7ala '\\n'").toOption.map (·.map Token.content) =
      some [(.number, "2.5"), (.keyword, "7ala"), (.string, "\n"), (.endOfFile, "")] := by
    decide +kernel
  cases found : tokenize "2.5 7ala '\\n'" with
  | error error => simp [found, Except.toOption] at lexed
  | ok tokens =>
    have contents := Option.some.inj (found ▸ lexed)
    dsimp only at contents
    have block : Spacing " /* 1 */".toList :=
      .blank rfl (.block (by decide : ¬commentClose <:+: [' ', '1', ' '] ++ ['*']) .nil)
    have line : Spacing "\n// x\n".toList :=
      .blank rfl (.line (by decide : '\n' ∉ [' ', 'x']) .nil)
    have woven : Woven [(.number, "2.5"), (.keyword, "7ala"), (.string, "\n")]
        "2.5 /* 1 */7ala\n// x\n\"\\n\"".toList :=
      .cons ⟨block, rfl⟩ (.cons ⟨line, rfl⟩ .last)
    refine tokenize_woven (fun content mem => ⟨_, tokens, found, ?_⟩) woven
    rw [contents]
    exact List.mem_append_left [(.endOfFile, "")] mem

end DarijaScript
