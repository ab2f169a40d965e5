import DarijaScript.Proofs.Grammar.Acceptance
import DarijaScript.Proofs.Grammar.Locality

/-!
# Programs one after the other

Statements that were read without an error leave no trace but the tokens behind them, so what
follows a program is read as if it stood alone.
-/

namespace DarijaScript

open Parse Grammar

variable {source : Nat} {around : Surroundings} {front back : List Token}

/-- Behind statements that are read without an error, reading goes on as it would begin. -/
theorem items_append {levels : Levels} [LocalLevels levels] {limit limit' : Nat}
    {rest : List Token} {stmts : List Stmt} (same : SameBranch (headOf rest) (headOf back))
    (enough : (front ++ back).length ≤ limit')
    (h : Gives around source (items levels (fun _ => false) limit) (front ++ rest) stmts rest) :
    items levels (fun _ => false) limit' (.fresh around source (front ++ back)) =
      (do
        let others ← items levels (fun _ => false) back.length
        pure (stmts ++ others) : Parse (List Stmt)) (.fresh around source back) := by
  have nothing {limit' : Nat} (enough : back.length ≤ limit') :
      items levels (fun _ => false) limit' (.fresh around source back) =
        (do
          let others ← items levels (fun _ => false) back.length
          pure ([] ++ others) : Parse (List Stmt)) (.fresh around source back) := by
    simp only [List.nil_append, bind_pure]
    exact items_limit _ enough (Nat.le_refl _)
  induction limit generalizing front stmts limit' with
  | zero =>
    obtain ⟨rfl, eq⟩ := gives_pure.mp h
    obtain rfl := List.self_eq_append_left.mp eq
    exact nothing enough
  | succ limit ih =>
    rw [gives_items_succ, gives_peek_bind] at h
    split at h
    · obtain ⟨rfl, eq⟩ := gives_pure.mp h
      obtain rfl := List.self_eq_append_left.mp eq
      exact nothing enough
    · next goesOn =>
      obtain ⟨stmt, first, second, rfl, read, behind⟩ := h.split
      obtain ⟨others, mid, rest, made⟩ := behind.bind
      obtain ⟨rfl, rfl⟩ := gives_pure.mp made
      obtain ⟨token, first, rfl⟩ := List.exists_cons_of_ne_nil read.passed_ne_nil
      have read := Local.gives (headOf_append_congr second same) read
      have notEnd : token.isEnd = false := by simpa using goesOn
      rw [List.append_assoc, List.cons_append, List.length_cons, List.length_append] at enough
      obtain ⟨limit', rfl⟩ : ∃ fewer, limit' = fewer + 1 := ⟨limit' - 1, by omega⟩
      rw [List.append_assoc, items_of_ok (by simpa [Stream.head_fresh] using notEnd) read,
        bind_apply, ih (by omega) rest, ← bind_apply]
      simp only [bind_assoc, pure_bind, List.cons_append]

/-- **A program in front changes nothing behind it.** When some tokens make up a program and what
follows does not go on with its last statement, then what follows is read as if it stood alone: to
the same statements, behind those of the program in front, or with the same errors in the same
order. -/
theorem parse_append {ending : Token} {program : List Stmt}
    (inside : ∀ token ∈ front, token.isEnd = false) (ends : ending.isEnd = true)
    (accepted : parse (front ++ [ending]) source = .ok program)
    (apart : ∀ keyword ∈ [Keyword.ella, .wa9ila, .fakhr],
      (headOf back).isKeyword keyword = false) :
    parse (front ++ back) source = (parse back source).map (program ++ ·) := by
  have same : SameBranch (headOf [ending]) (headOf back) := by
    intro keyword mem
    rw [apart keyword mem]
    by_contra word
    simp [Token.isEnd_of_isKeyword (by simpa using word)] at ends
  have read := gives_of_parse_end ends inside accepted
  obtain ⟨others, after, alone⟩ := items_eq_ok (levels maxLevels) (fun _ => false) back.length
    (.ofTokens back source)
  have behind : items (levels maxLevels) (fun _ => false) (front ++ back).length
      (.ofTokens (front ++ back) source) = .ok (program ++ others) after := by
    have eq := items_append same (Nat.le_refl _) read
    exact eq.trans (bind_of_ok alone)
  unfold parse
  rw [behind, alone]
  dsimp only
  split <;> rfl

/-- A jump without a loop around it is told behind a condition as it is alone. -/
theorem parse_append_conditional : ∃ front ending program,
    tokenize "ila (a) b;" = .ok (front ++ [ending]) ∧
      parse (front ++ [ending]) 0 = .ok program ∧
      parse (front ++ [⟨.keyword, "wa9f", .unknown, 0, 0⟩, Stream.endToken]) 0 =
        (parse [⟨.keyword, "wa9f", .unknown, 0, 0⟩, Stream.endToken] 0).map (program ++ ·) := by
  have read : (readProgram "ila (a) b;" 0).isOk = true := by decide +kernel
  obtain ⟨tokens, program, lexed, parsed⟩ := parse_of_readProgram read
  obtain ⟨front, ending, rfl, ends, inside⟩ := tokenize_ok lexed
  exact ⟨front, ending, program, lexed, parsed,
    parse_append (fun token mem => (inside token mem).1) ends parsed (by decide)⟩

end DarijaScript
