import DarijaScript.Proofs.Grammar.Counted

/-!
# Reading leaves the books in order

Whether a statement or an expression is read or a fault stops it, the levels that are open and the
constructs around are those from before, errors have only been added, and only tokens before the end of
the file have been passed, at least one of them by what was read. The main statement says so of a
reader that counts the levels, and that it reads just as the rules do that are given the levels left.
-/

set_option synthInstance.maxSize 1000

namespace DarijaScript

open Parse

/-! ### Expressions pass a token -/

/-- A rule that begins with a token passes it if it fails at the end of the file. -/
theorem Parse.advances_advance {α : Type} {next : Token → Parse α}
    [∀ token, Conservative (next token)]
    (fails : ∀ token stream a after, token.isEnd = true → next token stream ≠ .ok a after) :
    Advances (advance >>= next) where
  ahead_lt stream a after eq := by
    have eq : next stream.head stream.tail = .ok a after := eq
    cases ends : stream.head.isEnd with
    | true => exact absurd eq (fails _ _ _ _ ends)
    | false =>
      have passed := (Stream.tail_of_isEnd_eq_false ends).2
      exact Nat.lt_of_le_of_lt (Conservative.ok eq).ahead_le passed

namespace Grammar

section

variable (levels : Levels) [ConservativeLevels levels]

instance : Advances (atom levels) := by
  unfold atom
  refine @advances_advance _ _ (fun token => ?_) fun token stream expr after ends => ?_
  · cases token.kind with
    | number => cases Decimal.read? token.lexeme.toList <;> infer_instance
    | keyword =>
      cases token.keyword? with
      | none => infer_instance
      | some word => cases word <;> infer_instance
    | _ => infer_instance
  · have kind : token.kind = .endOfFile := by simpa [Token.isEnd] using ends
    rw [kind]
    exact nofun

instance : Advances (primary levels) := by
  unfold primary
  infer_instance

instance : Advances (updated levels) := by
  unfold updated
  infer_instance

instance [Advances (levels.deeper (·.operand))] : Advances (operand levels) := by
  unfold operand
  refine @Advances.bind_right _ _ _ _ _ fun token => ?_
  cases stepOp? token with
  | some op => infer_instance
  | none => cases unaryOp? token <;> infer_instance

end

instance (n : Nat) : Advances ((Grammar.levels n).deeper (·.operand)) := by
  induction n with
  | zero => exact ⟨nofun⟩
  | succ n ih => exact inferInstanceAs (Advances (operand (Grammar.levels n)))

/-- An operand that passes a token where these levels are left. -/
structure PassesToken (levels : Levels) (operand : Levels → Parse Expr) : Prop where
  conservative : ∀ levels [ConservativeLevels levels], Conservative (operand levels)
  advances : Advances (operand levels)

/-- A chain passes the tokens of its first operand. -/
theorem PassesToken.chain {levels : Levels} [ConservativeLevels levels]
    {operand : Levels → Parse Expr} (passes : PassesToken levels operand) (joint : Joint) :
    PassesToken levels (Grammar.chain joint operand) where
  conservative := conservative_chain joint operand passes.conservative
  advances := by
    have first := passes.advances
    have behind := conservative_chainFrom joint operand passes.conservative levels
    unfold Grammar.chain
    infer_instance

instance (n : Nat) : Advances (disjunction (Grammar.levels n)) := by
  have innermost : PassesToken (Grammar.levels n) operand := ⟨fun _ _ => inferInstance, inferInstance⟩
  unfold disjunction conjunction equality comparison sum product
  exact (((((innermost.chain _).chain _).chain _).chain _).chain _).chain _ |>.advances

instance (n : Nat) : Advances (assignment (Grammar.levels n)) := by
  unfold assignment
  infer_instance

instance (n : Nat) : Advances (nestedExpression (Grammar.levels n)) := by
  cases n with
  | zero => exact ⟨nofun⟩
  | succ n => exact inferInstanceAs (Advances (assignment (Grammar.levels n)))

end Grammar

/-! ### The books -/

namespace Counting

variable {α : Type}

/-- The state in which a counting rule ended. -/
def readerOf : EStateM.Result SyntaxError Reader α → Reader
  | .ok _ reader => reader
  | .error _ reader => reader

/-- A result of reading from a state, be it a success or a failure, that leaves the books in order: the
levels that are open and the constructs around are the ones from before, errors have only been added,
and only tokens before the end of the file have been passed, at least one by what was read. -/
structure InOrder (before : Reader) (result : EStateM.Result SyntaxError Reader α) : Prop where
  depth : (readerOf result).depth = before.depth
  surroundings : (readerOf result).stream.surroundings = before.stream.surroundings
  errors : before.stream.errors.toList <+: (readerOf result).stream.errors.toList
  passed : ∃ tokens, before.stream.rest = tokens ++ (readerOf result).stream.rest ∧
    (∀ token ∈ tokens, token.isEnd = false) ∧ ∀ a after, result = .ok a after → tokens ≠ []

/-- The books are in order behind a rule that restores the levels and passes a token if it succeeds. -/
theorem inOrder_of_restores {counted : Counting α} {rule : Parse α} [Conservative rule]
    [advances : Advances rule] {reader : Reader}
    (restores : Restores reader.depth counted rule) : InOrder reader (counted reader) := by
  have read : counted reader = putDepth reader.depth reader.depth (rule reader.stream) :=
    restores.apply_eq reader.stream
  rw [read]
  cases h : rule reader.stream with
  | ok a after =>
    have later := Conservative.ok h
    have fewer := advances.ahead_lt reader.stream a after h
    obtain ⟨tokens, rest, notEnd⟩ := later.passed
    refine ⟨rfl, later.surroundings, later.errors, tokens, rest, notEnd, ?_⟩
    rintro - - - rfl
    rw [reader.stream.ahead_eq, after.ahead_eq, rest] at fewer
    exact absurd fewer (Nat.lt_irrefl _)
  | error error after =>
    have later := Conservative.error h
    obtain ⟨tokens, rest, notEnd⟩ := later.passed
    exact ⟨rfl, later.surroundings, later.errors, tokens, rest, notEnd, nofun⟩

section

variable (depth : Nat)

instance : Advances (Grammar.nestedStatement (levelsLeft depth)) :=
  inferInstanceAs (Advances (Grammar.nestedStatement (Grammar.levels _)))

instance : Advances (Grammar.nestedExpression (levelsLeft depth)) :=
  inferInstanceAs (Advances (Grammar.nestedExpression (Grammar.levels _)))

theorem restores_item : Restores depth item (Grammar.nestedStatement (levelsLeft depth)) := by
  have := serves_rules (show maxLevels ≤ maxLevels + depth by omega)
  unfold item
  infer_instance

theorem restores_expression :
    Restores depth expression (Grammar.nestedExpression (levelsLeft depth)) := by
  have := serves_rules (show maxLevels ≤ maxLevels + depth by omega)
  unfold expression
  infer_instance

end

/-- **Reading leaves the books in order.** In whatever state a reader is, with any tokens ahead, any
errors recorded, any constructs around and any number of levels open, reading a statement and reading
an expression leave the books in order, whether they succeed or a fault stops them midway. They read
just as the rules do that are given the levels left, which with no level open are `Grammar.item` and
`Grammar.expression`. -/
theorem inOrder_item_expression (reader : Reader) :
    InOrder reader (item reader) ∧ InOrder reader (expression reader) ∧
      item reader = putDepth reader.depth reader.depth
        (Grammar.nestedStatement (levelsLeft reader.depth) reader.stream) ∧
      expression reader = putDepth reader.depth reader.depth
        (Grammar.nestedExpression (levelsLeft reader.depth) reader.stream) := by
  have statements := restores_item reader.depth
  have expressions := restores_expression reader.depth
  exact ⟨inOrder_of_restores statements, inOrder_of_restores expressions,
    statements.apply_eq reader.stream, expressions.apply_eq reader.stream⟩

/-- Two tokens into a sum that breaks off, one more level is open; the expression around closes it. -/
example :
    let sum := Stream.ofTokens
      [⟨.identifier, "a", .unknown, 0, 1⟩, ⟨.operator, "+", .unknown, 1, 2⟩] 0
    let links := chain (Grammar.binaryJoint [.add]) (operand (rules 1))
    (readerOf (links ⟨sum, 5⟩)).depth = 6 ∧ (readerOf (expression ⟨sum, 5⟩)).depth = 5 := by
  cbv

end Counting

end DarijaScript
