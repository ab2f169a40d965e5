import DarijaScript.Proofs.Grammar.CompleteStatement
import DarijaScript.Proofs.Grammar.SoundStatement
import DarijaScript.Proofs.Lexing.Tokenize

/-!
# The grammar is what the parser accepts

A program that was read is derived by exactly the tokens in front of the end of the file, and what
they derive is read unless the levels of nesting run out.
-/

namespace DarijaScript

open Parse Grammar Phrase

variable {source : Nat}

/-- Statements are read up to a token that stops them or to the end of the file, if the limit does
not come first. -/
theorem items_end {levels : Levels} [SoundLevels source levels] {stops : Token → Bool}
    {limit : Nat} {around : Surroundings} {before after : List Token} {stmts : List Stmt}
    (enough : before.length ≤ limit)
    (h : Gives around source (items levels stops limit) before stmts after) :
    (headOf after).isEnd = true ∨ stops (headOf after) = true := by
  induction limit generalizing before stmts with
  | zero =>
    obtain ⟨rfl, rfl⟩ := gives_pure.mp h
    obtain rfl := List.length_eq_zero_iff.mp (Nat.le_zero.mp enough)
    exact .inl rfl
  | succ limit ih =>
    rw [gives_items_succ, gives_peek_bind] at h
    split at h
    · next ends =>
      obtain ⟨rfl, rfl⟩ := gives_pure.mp h
      simpa using ends
    · simp only [gives_bind, gives_pure] at h
      obtain ⟨stmt, mid, read, others, _, rest, rfl, rfl⟩ := h
      obtain ⟨tokens, rfl, written, -⟩ := sound_nestedStatement levels read
      have fewer : mid.length ≤ limit := by
        have begins := Token.isEnd_of_beginsStatement written.begins
        obtain ⟨more, eq⟩ := eq_cons_of_headOf begins
        rw [eq] at enough
        simp at enough
        omega
      exact ih fewer rest

/-- Up to the end of the file there is only one way to cut the tokens. -/
private theorem cut_at_end {body tokens rest : List Token} {ending : Token}
    (ends : ending.isEnd = true) (inside : ∀ token ∈ body, token.isEnd = false)
    (passed : ∀ token ∈ tokens, token.isEnd = false) (stops : (headOf rest).isEnd = true)
    (eq : body ++ [ending] = tokens ++ rest) : tokens = body := by
  induction body generalizing tokens with
  | nil =>
    cases tokens with
    | nil => rfl
    | cons token tokens =>
      obtain rfl : ending = token := (List.cons.inj eq).1
      exact absurd ends (by simp [passed])
  | cons first body ih =>
    cases tokens with
    | nil =>
      obtain rfl : first :: (body ++ [ending]) = rest := eq
      exact absurd stops (by simp [inside])
    | cons token tokens =>
      obtain ⟨rfl, rest_eq⟩ := List.cons.inj eq
      rw [ih (fun _ mem => inside _ (List.mem_cons_of_mem _ mem))
        (fun _ mem => passed _ (List.mem_cons_of_mem _ mem)) rest_eq]

/-- A program is read by reading statements from the first token without recording an error. -/
theorem gives_of_parse {tokens : List Token} {program : List Stmt}
    (h : parse tokens source = .ok program) :
    ∃ rest, Gives .none source (items (levels maxLevels) (fun _ => false) tokens.length) tokens
      program rest := by
  unfold parse at h
  split at h
  · next stmts stream result =>
    split at h
    · next noErrors =>
      obtain rfl := Except.ok.inj h
      have noErrors : stream.errors = #[] := by simpa using noErrors
      refine ⟨stream.rest, ?_⟩
      rw [Gives, ← (Conservative.ok result).eq_fresh noErrors]
      exact result
    · cases h
  · cases h

section

variable {body : List Token} {ending : Token} {program : List Stmt}

/-- Reading comes to the end of the file. -/
theorem gives_of_parse_end (ends : ending.isEnd = true)
    (inside : ∀ token ∈ body, token.isEnd = false)
    (h : parse (body ++ [ending]) source = .ok program) :
    Gives .none source (items (levels maxLevels) (fun _ => false) (body ++ [ending]).length)
      (body ++ [ending]) program [ending] := by
  obtain ⟨rest, read⟩ := gives_of_parse h
  obtain ⟨passed, eq, notEnd⟩ := (Conservative.ok read).passed
  have eq : body ++ [ending] = passed ++ rest := eq
  have stops : (headOf rest).isEnd = true := by
    simpa using items_end (Nat.le_refl _) read
  obtain rfl := cut_at_end ends inside notEnd stops eq
  obtain rfl := List.append_cancel_left eq
  exact read

theorem parse_sound (ends : ending.isEnd = true) (inside : ∀ token ∈ body, token.isEnd = false)
    (h : parse (body ++ [ending]) source = .ok program) : Program source body program := by
  obtain ⟨tokens, eq, written⟩ := sound_items _ _ _ (gives_of_parse_end ends inside h)
  obtain rfl := List.append_cancel_right eq
  exact written

theorem parse_complete (ends : ending.isEnd = true)
    (h : Program source body program) : parse (body ++ [ending]) source = .ok program ∨
      ∃ error others, parse (body ++ [ending]) source = .error (error :: others) ∧
        error.isTooDeep = true := by
  have follows (stmt : Stmt) : EndsStatement stmt ending := by
    have noWord := Token.isKeyword_eq_false_of_isEnd ends
    exact ⟨noWord _, noWord _, fun _ => by simp [Token.addsBranch, noWord]⟩
  have ending_ends : (headOf [ending]).isEnd = true := ends
  have reads : Reads .none source
      (items (levels maxLevels) (fun _ => false) (body ++ [ending]).length) (body ++ [ending])
      program [ending] :=
    reads_items _ (fun _ _ => rfl) h (.inl ending_ends) follows (by simp)
  rcases reads with read | deep
  · left
    unfold parse
    rw [show items _ _ _ (Stream.ofTokens (body ++ [ending]) source) = _ from read]
    rfl
  · right
    obtain ⟨error, first, deep⟩ := deep
    have first : (errorsOf (items (levels maxLevels) (fun _ => false) (body ++ [ending]).length
        (Stream.ofTokens (body ++ [ending]) source))).head? = some error := first
    unfold parse
    split
    · next stmts stream result =>
      rw [result] at first
      obtain ⟨others, eq⟩ := List.head?_eq_some_iff.mp first
      have eq : stream.errors.toList = error :: others := eq
      have someErrors : stream.errors.isEmpty = false := by
        cases none : stream.errors.isEmpty with
        | false => rfl
        | true => simp [Array.isEmpty_iff.mp none] at eq
      rw [if_neg (by simp [someErrors])]
      exact ⟨error, others, congrArg _ eq, deep⟩
    · next last stream result =>
      rw [result] at first
      obtain ⟨others, eq⟩ := List.head?_eq_some_iff.mp first
      exact ⟨error, others, congrArg _ eq, deep⟩

end

/-- **The parser accepts its grammar.** For the tokens of a text, a program that is read is derived
by all the tokens in front of the end of the file, and a program that they derive is read, or the
first error is that the levels of nesting ran out. -/
theorem parse_accepts {text : String} {tokens : List Token} (lexed : tokenize text = .ok tokens)
    (source : Nat) :
    (∀ program, parse tokens source = .ok program → Program source tokens.dropLast program) ∧
      ∀ program, Program source tokens.dropLast program →
        parse tokens source = .ok program ∨
          ∃ error others, parse tokens source = .error (error :: others) ∧
            error.isTooDeep = true := by
  obtain ⟨body, ending, rfl, ends, inside⟩ := tokenize_ok lexed
  have inside : ∀ token ∈ body, token.isEnd = false := fun token mem => (inside token mem).1
  rw [List.dropLast_concat]
  exact ⟨fun _ => parse_sound ends inside, fun _ => parse_complete ends⟩

theorem parse_of_readProgram {text : String} (read : (readProgram text source).isOk = true) :
    ∃ tokens program, tokenize text = .ok tokens ∧ parse tokens source = .ok program := by
  unfold readProgram at read
  split at read
  · cases read
  · next tokens lexed =>
    cases parsed : parse tokens source with
    | error errors => simp [parsed, Except.isOk, Except.toBool] at read
    | ok program => exact ⟨tokens, program, lexed, parsed⟩

/-- A call is read, and its tokens derive what was read. -/
theorem parse_accepts_call : ∃ tokens program, tokenize "jdid f(x)(y);" = .ok tokens ∧
    parse tokens 0 = .ok program ∧ Program 0 tokens.dropLast program := by
  have read : (readProgram "jdid f(x)(y);" 0).isOk = true := by decide +kernel
  obtain ⟨tokens, program, lexed, parsed⟩ := parse_of_readProgram read
  exact ⟨tokens, program, lexed, parsed, (parse_accepts lexed 0).1 program parsed⟩

end DarijaScript
