import DarijaScript.Proofs.Grammar.Phrase
import DarijaScript.Proofs.Lexing.Written
import DarijaScript.Proofs.Printing.Alike

/-!
# Tokens of written parts

What the tokens of a text are, when the text was written from parts: a sign, a keyword, an operator or
a name is found as one token of that kind, and blanks leave no token.
-/

namespace DarijaScript

open Piece

/-- The tokens are those that the parts write. -/
def Writes (tokens : List Token) (pieces : List Piece) : Prop :=
  tokens.map Token.content = contents pieces

namespace Writes

variable {tokens : List Token} {pieces rest : List Piece}

theorem nil (h : Writes tokens []) : tokens = [] := List.map_eq_nil_iff.mp h

theorem append (h : Writes tokens (pieces ++ rest)) :
    ∃ first others, tokens = first ++ others ∧ Writes first pieces ∧ Writes others rest := by
  rw [Writes, contents, List.filterMap_append] at h
  obtain ⟨first, others, eq, written, written'⟩ := List.map_eq_append_iff.mp h
  exact ⟨first, others, eq, written, written'⟩

theorem space (h : Writes tokens (space :: rest)) : Writes tokens rest := h

theorem line {depth : Nat} (h : Writes tokens (line depth :: rest)) : Writes tokens rest := h

theorem token {kind : TokenKind} {lexeme : String} (h : Writes tokens (token kind lexeme :: rest)) :
    ∃ first others, tokens = first :: others ∧ first.kind = kind ∧ first.lexeme = lexeme ∧
      Writes others rest := by
  obtain ⟨first, others, eq, written, behind⟩ := List.map_eq_cons_iff.mp h
  exact ⟨first, others, eq, congrArg Prod.fst written, congrArg Prod.snd written, behind⟩

theorem sign {c : Char} (h : Writes tokens (sign c :: rest)) :
    ∃ first others, tokens = first :: others ∧ first.isPunctuation c = true ∧
      Writes others rest := by
  obtain ⟨first, others, eq, kind, lexeme, behind⟩ := h.token
  exact ⟨first, others, eq, by simp [Token.isPunctuation, kind, lexeme, Char.toString], behind⟩

theorem keyword {word : Keyword} (h : Writes tokens (keyword word :: rest)) :
    ∃ first others, tokens = first :: others ∧ first.isKeyword word = true ∧
      Writes others rest := by
  obtain ⟨first, others, eq, kind, lexeme, behind⟩ := h.token
  refine ⟨first, others, eq, ?_, behind⟩
  simp [Token.isKeyword, Token.keyword?, kind, lexeme, Keyword.ofWord?_text]

theorem operator {text : String} (h : Writes tokens (operator text :: rest)) :
    ∃ first others, tokens = first :: others ∧ first.kind = .operator ∧ first.lexeme = text ∧
      Writes others rest := h.token

theorem word {name : String} (h : Writes tokens (word name :: rest)) :
    ∃ first others, tokens = first :: others ∧ first.isMemberName = true ∧ first.lexeme = name ∧
      Writes others rest := by
  obtain ⟨first, others, eq, kind, lexeme, behind⟩ := h.token
  refine ⟨first, others, eq, ?_, lexeme, behind⟩
  have kinds := wordKind_cases name
  unfold Token.isMemberName
  rw [kind]
  grind

theorem parenthesized (h : Writes tokens (parenthesized pieces ++ rest)) :
    ∃ opening inside closing others, tokens = opening :: inside ++ closing :: others ∧
      opening.isPunctuation '(' = true ∧ Writes inside pieces ∧
      closing.isPunctuation ')' = true ∧ Writes others rest := by
  rw [Piece.parenthesized, List.cons_append, List.cons_append, List.append_assoc] at h
  obtain ⟨opening, _, rfl, opens, h⟩ := h.sign
  obtain ⟨inside, _, rfl, written, h⟩ := h.append
  obtain ⟨closing, others, rfl, closes, behind⟩ := h.sign
  exact ⟨opening, inside, closing, others, rfl, opens, written, closes, behind⟩

theorem group (h : Writes tokens (Piece.parenthesized pieces)) :
    ∃ opening inside closing, tokens = opening :: (inside ++ [closing]) ∧
      opening.isPunctuation '(' = true ∧ Writes inside pieces ∧
      closing.isPunctuation ')' = true := by
  rw [← List.append_nil (Piece.parenthesized pieces)] at h
  obtain ⟨opening, inside, closing, others, rfl, opens, written, closes, behind⟩ := h.parenthesized
  obtain rfl := behind.nil
  exact ⟨opening, inside, closing, rfl, opens, written, closes⟩

end Writes

/-! ### Operators -/

namespace Grammar

variable {token : Token}

theorem stepOp?_text {op : StepOp} (kind : token.kind = .operator) (lexeme : token.lexeme = op.text) :
    stepOp? token = some op := by
  cases op <;> simp [stepOp?, Token.isOperator, kind, lexeme, StepOp.text]

theorem assignOp?_text {op : AssignmentOp} (kind : token.kind = .operator)
    (lexeme : token.lexeme = op.text) : assignOp? token = some op := by
  rw [assignOp?, if_pos kind, lexeme]
  cases op <;> decide

section

variable {tokens : List Token} {rest : List Piece} {op : UnaryOp}

/-- The signs of the operators of one operand are no steps. -/
theorem unaryOp?_of_sign {text : String}
    (mem : (text, op) ∈ [("!", UnaryOp.not), ("-", UnaryOp.negate), ("+", UnaryOp.toNumber)])
    (h : Writes tokens (operator text :: rest)) :
    ∃ first others, tokens = first :: others ∧ stepOp? first = none ∧ unaryOp? first = some op ∧
      Writes others rest := by
  obtain ⟨first, others, eq, kind, lexeme, behind⟩ := h.operator
  have noWord : first.isKeyword .no3 = false := by
    simp [Token.isKeyword, Token.keyword?, kind]
  refine ⟨first, others, eq, ?_, ?_, behind⟩
  all_goals
    simp only [List.mem_cons, Prod.mk.injEq, List.not_mem_nil, or_false] at mem
    rcases mem with ⟨rfl, rfl⟩ | ⟨rfl, rfl⟩ | ⟨rfl, rfl⟩
    all_goals simp [stepOp?, unaryOp?, Token.isOperator, noWord, kind, lexeme, StepOp.text]

/-- The sign of an operator of one operand is read as that operator. -/
theorem unaryOp?_of_writes (h : Writes tokens (op.pieces ++ rest)) :
    ∃ first others, tokens = first :: others ∧ stepOp? first = none ∧ unaryOp? first = some op ∧
      Writes others rest := by
  cases op with
  | not => exact unaryOp?_of_sign (by decide) h
  | negate => exact unaryOp?_of_sign (by decide) h
  | toNumber => exact unaryOp?_of_sign (by decide) h
  | typeOf =>
    obtain ⟨first, others, eq, kind, lexeme, behind⟩ := h.token
    refine ⟨first, others, eq, by simp [stepOp?, Token.isOperator, kind], ?_, behind.space⟩
    simp [unaryOp?, Token.isKeyword, Token.keyword?, kind, lexeme, Keyword.ofWord?_text]

end

theorem logicalJoint_text {op : Connective} (kind : token.kind = .operator)
    (lexeme : token.lexeme = op.text) :
    ∃ joint ∈ Phrase.tiers, joint token = some (.logical op) := by
  refine ⟨logicalJoint op, by cases op <;> simp [Phrase.tiers], ?_⟩
  simp [logicalJoint, Token.isOperator, kind, lexeme]

theorem binaryJoint_text {op : BinaryOp} (kind : token.kind = .operator)
    (lexeme : token.lexeme = op.text) :
    ∃ joint ∈ Phrase.tiers, joint token = some (.binary op) := by
  have joins (ops : List BinaryOp) (found : ops.find? (fun other => op.text == other.text) = some op) :
      binaryJoint ops token = some (.binary op) := by
    simp only [binaryJoint, Token.isOperator, kind, lexeme, BEq.rfl, Bool.true_and, found]
    rfl
  cases op with
  | looseEqual | looseNotEqual | strictEqual | strictNotEqual =>
    exact ⟨_, by simp [Phrase.tiers], joins [.looseEqual, .looseNotEqual, .strictEqual,
      .strictNotEqual] (by decide)⟩
  | less | lessEqual | greater | greaterEqual =>
    exact ⟨_, by simp [Phrase.tiers], joins [.less, .lessEqual, .greater, .greaterEqual] (by decide)⟩
  | add | subtract =>
    exact ⟨_, by simp [Phrase.tiers], joins [.add, .subtract] (by decide)⟩
  | multiply | divide | remainder =>
    exact ⟨_, by simp [Phrase.tiers], joins [.multiply, .divide, .remainder] (by decide)⟩

end Grammar

namespace Phrase

variable {Operand : List Token → Expr → Prop}

/-- An operand is a chain of every tier. -/
theorem Tier.ofOperand {tokens : List Token} {expr : Expr} (operand : Operand tokens expr)
    (joints : List Grammar.Joint) : Tier Operand joints tokens expr := by
  induction joints with
  | nil => exact .operand operand
  | cons joint joints ih => exact .tighter ih

/-- Two operands with an operator of any tier between them are a chain. -/
theorem Tier.ofJoint {joints : List Grammar.Joint} {joint : Grammar.Joint} (mem : joint ∈ joints)
    {tokens others : List Token} {op : Token} {left right : Expr}
    {join : Expr → Expr → Expr} (joins : joint op = some join) (first : Operand tokens left)
    (second : Operand others right) :
    Tier Operand joints (tokens ++ op :: others) (join left right) := by
  induction mem with
  | head joints =>
    exact .link (.tighter (.ofOperand first _)) (by rw [joins]; rfl) (.ofOperand second _)
  | tail _ _ ih => exact .tighter ih

end Phrase

end DarijaScript
