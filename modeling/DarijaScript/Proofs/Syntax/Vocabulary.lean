import DarijaScript.Proofs.Grammar.Marks

/-!
# The vocabulary of trees

The names in a tree are the identifiers among the tokens that derive it. So a condition on the
identifiers of a text is a condition on the names in the program that is read from it.
-/

namespace DarijaScript

/-- The names of a tree meet a condition. -/
def Node.Spelled (allowed : String → Prop) : Node → Prop
  | .name word => allowed word
  | .function _ | .choice _ => True

/-- The identifiers among the tokens meet a condition. -/
def AllSpelled (allowed : String → Prop) (tokens : List Token) : Prop :=
  ∀ token ∈ tokens, token.kind = .identifier → allowed token.lexeme

/-- The names among the marks meet a condition; nothing is asked of places. -/
def Mark.Spelled (allowed : String → Prop) : Mark → Prop
  | .name identifier => allowed identifier.name
  | .place _ => True

theorem Node.follows_spelled (allowed : String → Prop) :
    Node.Follows (Mark.Spelled allowed) (Node.Spelled allowed) where
  name := fun _ spelled => spelled
  function := fun _ _ => trivial
  choice := fun _ _ => trivial

/-- The names in a program that is read are identifiers of its text. -/
theorem spelled_of_readProgram {allowed : String → Prop} {text : String} {source : Nat}
    {program : List Stmt} (read : readProgram text source = .ok program)
    (within : ∀ tokens, tokenize text = .ok tokens → AllSpelled allowed tokens) :
    ∀ stmt ∈ program, stmt.Meets (Node.Spelled allowed) := by
  have marked : ∀ stmt ∈ program, stmt.Marked (Mark.Spelled allowed) :=
    marked_of_readProgram read fun tokens lexed token mem =>
      ⟨within tokens lexed token mem, trivial⟩
  exact fun stmt mem => (marked stmt mem).meets (Node.follows_spelled allowed)

end DarijaScript
