import DarijaScript.Proofs.Decimal.Text
import DarijaScript.Proofs.Printing.Parts
import DarijaScript.Proofs.Syntax.Formed

/-!
# Written trees are derived from their tokens

The tokens of a written well-formed tree derive a tree that differs from it in positions only.
Parentheses stand where an operand would bind otherwise, so every operand is derived as the tightest
kind of phrase, and a chain of any tier is derived from two of them.
-/

namespace DarijaScript

open Piece Phrase

section

variable (source : Nat)

/-- Chains of calls and members. -/
abbrev CallChain : List Token → Expr → Prop := Suffixed (Primary source) (CallSuffix source) false

/-- Chains of members only. -/
abbrev MemberChain : List Token → Expr → Prop :=
  Suffixed (Primary source) (MemberSuffix source) false

/-- The tokens derive a tree like this one; they derive it as an operand as well if it needs no
parentheses, and as a constructor if it needs none as that. -/
structure ReadAs (expr : Expr) (tokens : List Token) (expr' : Expr) : Prop where
  alike : expr.Alike expr'
  expression : Expression source tokens expr'
  operand : expr.needsParentheses = false → CallChain source tokens expr'
  constructor : expr.isPlainChain = true → MemberChain source tokens expr'

/-- The tokens of the written expression derive it. -/
def Expr.Derived (expr : Expr) : Prop :=
  ∀ ⦃depth : Nat⦄ ⦃tokens : List Token⦄, Writes tokens (expr.pieces depth) →
    ∃ expr', ReadAs source expr tokens expr'

/-- The tokens of the written function derive it. -/
def Function.Derived (f : Function) : Prop :=
  ∀ ⦃depth : Nat⦄ ⦃tokens : List Token⦄, Writes tokens (f.pieces depth) →
    ∃ keyword names others name f', tokens = keyword :: names ++ others ∧
      keyword.isKeyword .dala = true ∧ Optionally Name names name ∧
      Perhaps Identifier.Alike f.name name ∧ FunctionRest source keyword name others f' ∧ f.Alike f'

/-- The tokens of the written statement derive it within these surroundings. -/
def Stmt.Derived (stmt : Stmt) (around : Surroundings) : Prop :=
  ∀ ⦃depth : Nat⦄ ⦃tokens : List Token⦄, Writes tokens (stmt.pieces depth) →
    ∃ stmt', stmt.Alike stmt' ∧ Statement source around tokens stmt'

end

variable {source : Nat} {depth : Nat} {tokens : List Token}

/-! ### Operands -/

theorem CallChain.expression {expr : Expr} (chain : CallChain source tokens expr) :
    Expression source tokens expr :=
  .chain (.ofOperand (.updated (.plain chain)) _)

theorem CallChain.operand {expr : Expr} (chain : CallChain source tokens expr) :
    Operand source tokens expr :=
  .updated (.plain chain)

namespace ReadAs

variable {expr expr' : Expr}

theorem ofAtom (alike : expr.Alike expr') (atom : Atom source tokens expr') :
    ReadAs source expr tokens expr' :=
  have chain : CallChain source tokens expr' := .head (.atom atom)
  ⟨alike, chain.expression, fun _ => chain, fun _ => .head (.atom atom)⟩

/-- A chain that is no plain one is derived as an operand only. -/
theorem ofChain (alike : expr.Alike expr') (chain : CallChain source tokens expr')
    (constructor : expr.isPlainChain = true → MemberChain source tokens expr') :
    ReadAs source expr tokens expr' :=
  ⟨alike, chain.expression, fun _ => chain, constructor⟩

theorem ofExpression (alike : expr.Alike expr') (expression : Expression source tokens expr')
    (needs : expr.needsParentheses = true) : ReadAs source expr tokens expr' where
  alike := alike
  expression := expression
  operand := fun plain => absurd needs (by simp [plain])
  constructor := fun plain => absurd needs (by simp [needsParentheses_of_isPlainChain plain])

end ReadAs

namespace Expr.Derived

variable {expr : Expr}

/-- Between parentheses everything is an atom. -/
theorem group (h : expr.Derived source) {rest : List Piece}
    (written : Writes tokens (parenthesized (expr.pieces depth) ++ rest)) :
    ∃ group others expr', tokens = group ++ others ∧ expr.Alike expr' ∧ Atom source group expr' ∧
      Parenthesized source group expr' ∧ Writes others rest := by
  obtain ⟨opening, inside, closing, others, rfl, opens, written, closes, behind⟩ :=
    written.parenthesized
  obtain ⟨expr', read⟩ := h written
  exact ⟨opening :: inside ++ [closing], others, expr', by simp, read.alike,
    .group opens read.expression closes, .mk opens read.expression closes, behind⟩

/-- An operand is derived as a chain of calls and members, and a plain chain also as a
constructor. -/
theorem operand (h : expr.Derived source)
    (written : Writes tokens (parenthesizedIf expr.needsParentheses (expr.pieces depth))) :
    ∃ expr', expr.Alike expr' ∧ CallChain source tokens expr' ∧
      (expr.isPlainChain = true → MemberChain source tokens expr') := by
  cases needs : expr.needsParentheses with
  | true =>
    rw [needs, parenthesizedIf, if_pos rfl, ← List.append_nil (parenthesized _)] at written
    obtain ⟨group, others, expr', rfl, alike, atom, -, behind⟩ := h.group written
    obtain rfl := behind.nil
    rw [List.append_nil]
    exact ⟨expr', alike, .head (.atom atom), fun _ => .head (.atom atom)⟩
  | false =>
    rw [needs] at written
    obtain ⟨expr', read⟩ := h written
    exact ⟨expr', read.alike, read.operand needs, read.constructor⟩

/-- What objects are constructed from. -/
theorem callee (h : expr.Derived source)
    (written : Writes tokens (parenthesizedIf (!expr.isPlainChain) (expr.pieces depth))) :
    ∃ expr', expr.Alike expr' ∧ MemberChain source tokens expr' := by
  cases plain : expr.isPlainChain with
  | true =>
    rw [plain] at written
    obtain ⟨expr', read⟩ := h written
    exact ⟨expr', read.alike, read.constructor plain⟩
  | false =>
    rw [plain, Bool.not_false, parenthesizedIf, if_pos rfl, ← List.append_nil (parenthesized _)]
      at written
    obtain ⟨group, others, expr', rfl, alike, atom, -, behind⟩ := h.group written
    obtain rfl := behind.nil
    rw [List.append_nil]
    exact ⟨expr', alike, .head (.atom atom)⟩

end Expr.Derived

/-! ### Lists -/

theorem Phrase.Enumerated.listed {α : Type} {Thing : List Token → α → Prop} {as : List α}
    (h : Enumerated Thing tokens as) : Listed Thing tokens as := by
  induction h with
  | last thing => exact .last thing
  | cons thing sign _ ih => exact .cons thing sign ih

section

variable {α : Type} {Thing : List Token → α → Prop} {Related : α → α → Prop}
  {write : α → List Piece} {writeAll : List α → List Piece}

/-- Things that are written with commas between them are derived one after the other. -/
theorem enumerated_of_writes (single : ∀ a, writeAll [a] = write a)
    (several : ∀ a b as, writeAll (a :: b :: as) = write a ++ sign ',' :: space :: writeAll (b :: as))
    {a : α} {as : List α} (inside : ∀ each ∈ a :: as, ∀ ⦃tokens : List Token⦄,
      Writes tokens (write each) → ∃ each', Related each each' ∧ Thing tokens each')
    (written : Writes tokens (writeAll (a :: as))) :
    ∃ as', Pairwise Related (a :: as) as' ∧ Enumerated Thing tokens as' := by
  induction as generalizing a tokens with
  | nil =>
    rw [single] at written
    obtain ⟨a', alike, thing⟩ := inside a (by simp) written
    exact ⟨[a'], .cons alike .nil, .last thing⟩
  | cons b as ih =>
    obtain ⟨first, others⟩ := List.forall_mem_cons.mp inside
    rw [several] at written
    obtain ⟨head, _, rfl, here, behind⟩ := written.append
    obtain ⟨comma, rest, rfl, sign, behind⟩ := behind.sign
    obtain ⟨a', alike, thing⟩ := first here
    obtain ⟨as', alikes, listed⟩ := ih others behind.space
    exact ⟨a' :: as', .cons alike alikes, .cons thing sign listed⟩

theorem listed_of_writes (write : α → List Piece) (none : writeAll [] = []) (single : ∀ a, writeAll [a] = write a)
    (several : ∀ a b as, writeAll (a :: b :: as) = write a ++ sign ',' :: space :: writeAll (b :: as))
    {as : List α} (inside : ∀ each ∈ as, ∀ ⦃tokens : List Token⦄,
      Writes tokens (write each) → ∃ each', Related each each' ∧ Thing tokens each')
    (written : Writes tokens (writeAll as)) :
    ∃ as', Pairwise Related as as' ∧ Listed Thing tokens as' := by
  cases as with
  | nil =>
    rw [none] at written
    obtain rfl := written.nil
    exact ⟨[], .nil, .nil⟩
  | cons a as =>
    obtain ⟨as', alike, enumerated⟩ := enumerated_of_writes single several inside written
    exact ⟨as', alike, enumerated.listed⟩

end

theorem listPieces_cons_cons (a b : Expr) (as : List Expr) : Expr.listPieces depth (a :: b :: as) =
    a.pieces depth ++ sign ',' :: space :: Expr.listPieces depth (b :: as) := by
  rw [Expr.listPieces, List.append_assoc]
  · rfl
  · simp

theorem derived_elements {elements : List Expr} (inside : ∀ each ∈ elements, each.Derived source)
    (written : Writes tokens (Expr.listPieces depth elements)) :
    ∃ elements', Pairwise Expr.Alike elements elements' ∧
      Listed (Expression source) tokens elements' := by
  refine listed_of_writes (Expr.pieces depth) rfl (fun _ => rfl) listPieces_cons_cons (fun each mem _ here => ?_) written
  obtain ⟨each', read⟩ := inside each mem here
  exact ⟨each', read.alike, read.expression⟩

/-- The arguments of a call with the closing parenthesis behind them. -/
theorem derived_arguments {args : List Expr} (inside : ∀ each ∈ args, each.Derived source)
    (few : args.length ≤ maxArguments) (written : Writes tokens (Expr.listPieces depth args))
    {closing : Token} (closes : closing.isPunctuation ')' = true) :
    ∃ args', Pairwise Expr.Alike args args' ∧ Arguments source (tokens ++ [closing]) args' := by
  cases args with
  | nil =>
    obtain rfl := written.nil
    exact ⟨[], .nil, .none closes⟩
  | cons arg args =>
    have each : ∀ each ∈ arg :: args, ∀ ⦃tokens : List Token⦄, Writes tokens (each.pieces depth) →
        ∃ each', each.Alike each' ∧ Expression source tokens each' := by
      intro each mem tokens here
      obtain ⟨each', read⟩ := inside each mem here
      exact ⟨each', read.alike, read.expression⟩
    obtain ⟨args', alike, enumerated⟩ :=
      enumerated_of_writes (fun _ => rfl) listPieces_cons_cons each written
    exact ⟨args', alike, .some enumerated (by rw [alike.length_eq]; exact few) closes⟩

theorem derived_entries {entries : List (String × Expr)}
    (inside : ∀ each ∈ entries, each.2.Derived source)
    (written : Writes tokens (Expr.entriesPieces depth entries)) :
    ∃ entries', Pairwise Entry.Alike entries entries' ∧
      Listed (Phrase.Entry source) tokens entries' := by
  refine listed_of_writes (Expr.entryPieces depth) rfl (fun _ => rfl) (fun a b as => ?_)
    (fun each mem _ here => ?_) written
  · rw [Expr.entriesPieces, List.append_assoc]
    · rfl
    · simp
  · obtain ⟨key, value⟩ := each
    obtain ⟨token, _, rfl, kind, lexeme, here⟩ := here.token
    obtain ⟨colon, rest, rfl, sign, here⟩ := here.sign
    obtain ⟨value', read⟩ := inside (key, value) mem here.space
    refine ⟨(key, value'), .mk read.alike, .mk ?_ sign read.expression⟩
    rw [← lexeme]
    exact .string kind

theorem derived_name (name : Identifier)
    (written : Writes tokens [token .identifier name.name]) :
    ∃ name', Identifier.Alike name name' ∧ Name tokens name' := by
  obtain ⟨token, _, rfl, kind, lexeme, behind⟩ := written.token
  obtain rfl := behind.nil
  exact ⟨⟨token.lexeme, token.position⟩, lexeme.symm, .mk kind⟩

theorem derived_names {names : List Identifier} (written : Writes tokens (namePieces names)) :
    ∃ names', Pairwise Identifier.Alike names names' ∧ Listed Name tokens names' := by
  refine listed_of_writes (fun name => [token .identifier name.name]) rfl (fun _ => rfl)
    (fun a b as => ?_) (fun each _ _ here => derived_name each here) written
  rw [namePieces]
  · rfl
  · simp

/-! ### Literals -/

theorem read?_infinity : Decimal.read? "1e999".toList = some (Decimal.infinity false) := by
  rw [show "1e999".toList = '1' :: "e999".toList from rfl, Decimal.read?_of_isDigit (by decide)]
  rfl

theorem toFloat_of_infinite {fields : Decimal.Fields}
    (infinite : fields.field = Decimal.topExponent) :
    fields.toFloat = Decimal.infinity false := by
  rw [Decimal.Fields.toFloat, infinite, fields.number infinite]
  rfl

/-- A written number is read as itself. -/
theorem derived_number {fields : Decimal.Fields}
    (written : Writes tokens [(Literal.number fields.toFloat).piece]) :
    Atom source tokens (.literal (.number fields.toFloat)) := by
  have reads : ∃ lexeme, (Literal.number fields.toFloat).piece = token .number lexeme ∧
      Decimal.read? lexeme.toList = some fields.toFloat := by
    unfold Literal.piece
    dsimp only
    rw [Decimal.Fields.isInf_toFloat]
    by_cases infinite : fields.field = Decimal.topExponent
    · simp only [infinite, decide_true, if_true]
      exact ⟨_, rfl, by rw [toFloat_of_infinite infinite]; exact read?_infinity⟩
    · simp only [infinite, decide_false, Bool.false_eq_true, if_false]
      exact ⟨_, rfl, Decimal.read?_text infinite⟩
  obtain ⟨lexeme, piece, reads⟩ := reads
  rw [piece] at written
  obtain ⟨token, _, rfl, kind, same, behind⟩ := written.token
  obtain rfl := behind.nil
  exact .number kind (by rw [same]; exact reads)

theorem derived_boolean {value : Bool} (written : Writes tokens [(Literal.boolean value).piece]) :
    Atom source tokens (.literal (.boolean value)) := by
  have piece : (Literal.boolean value).piece =
      token .boolean (if value then trueWord else "ghalat") := by
    cases value <;> rfl
  rw [piece] at written
  obtain ⟨token, _, rfl, kind, same, behind⟩ := written.token
  obtain rfl := behind.nil
  have value_eq : value = (token.lexeme == trueWord) := by
    rw [same]
    cases value <;> decide
  rw [value_eq]
  exact .boolean kind

/-! ### Expressions that begin statements -/

/-- The first part of an expression is a token. -/
theorem Expr.exists_pieces (expr : Expr) (depth : Nat) :
    ∃ kind lexeme rest, expr.pieces depth = token kind lexeme :: rest := by
  have operand {expr : Expr} (h : ∃ kind lexeme rest, expr.pieces depth = token kind lexeme :: rest)
      (condition : Bool) (more : List Piece) : ∃ kind lexeme rest,
        parenthesizedIf condition (expr.pieces depth) ++ more = token kind lexeme :: rest := by
    cases condition with
    | true => exact ⟨_, _, _, rfl⟩
    | false =>
      obtain ⟨kind, lexeme, rest, eq⟩ := h
      exact ⟨kind, lexeme, rest ++ more, by simp [parenthesizedIf, eq]⟩
  match expr with
  | .assign _ target _ _ =>
    obtain ⟨kind, lexeme, rest, eq⟩ := target.exists_pieces depth
    exact ⟨kind, lexeme, _, by rw [Expr.pieces, eq]; rfl⟩
  | .logical _ left _ =>
    rw [Expr.pieces, List.append_assoc]
    exact operand (left.exists_pieces depth) _ _
  | .binary _ left _ =>
    rw [Expr.pieces, List.append_assoc]
    exact operand (left.exists_pieces depth) _ _
  | .unary op _ => cases op <;> exact ⟨_, _, _, rfl⟩
  | .update _ true _ _ => exact ⟨_, _, _, rfl⟩
  | .update _ false target _ => exact operand (target.exists_pieces depth) _ _
  | .call callee _ _ => exact operand (callee.exists_pieces depth) _ _
  | .construct .. => exact ⟨_, _, _, rfl⟩
  | .member owner _ _ => exact operand (owner.exists_pieces depth) _ _
  | .identifier _ => exact ⟨_, _, _, rfl⟩
  | .literal value =>
    cases value with
    | boolean value => cases value <;> exact ⟨_, _, _, rfl⟩
    | _ => exact ⟨_, _, _, rfl⟩
  | .this => exact ⟨_, _, _, rfl⟩
  | .array _ => exact ⟨_, _, _, rfl⟩
  | .object _ => exact ⟨_, _, _, rfl⟩
  | .function (.mk ..) => exact ⟨_, _, _, rfl⟩
termination_by structural expr

/-- A text that does not look like a statement does not begin as one. -/
theorem noStatementHead_of_writes {kind : TokenKind} {lexeme : String} {rest : List Piece}
    (plain : looksLikeStatement (token kind lexeme :: rest) = false)
    (written : Writes tokens (token kind lexeme :: rest)) : NoStatementHead tokens := by
  obtain ⟨first, others, rfl, rfl, rfl, -⟩ := written.token
  unfold looksLikeStatement at plain
  simp only [render_cons, Bool.or_eq_false_iff] at plain
  intro token mem
  obtain rfl : first = token := by simpa using mem
  constructor
  · refine Bool.eq_false_iff.mpr fun brace => ?_
    obtain ⟨kind, head⟩ : first.kind = .punctuation ∧ first.lexeme.toList.head? = some '\x7b' := by
      simpa [Token.isPunctuation] using brace
    obtain ⟨chars, eq⟩ := List.head?_eq_some_iff.mp head
    rw [kind, chars_token (by decide), eq] at plain
    simp at plain
  · refine Bool.eq_false_iff.mpr fun word => ?_
    obtain ⟨kind, lexeme⟩ : first.kind = .keyword ∧ first.lexeme = Keyword.dala.text := by
      have found : first.keyword? = some .dala := by simpa [Token.isKeyword] using word
      unfold Token.keyword? at found
      split at found
      · next kind => exact ⟨kind, (Keyword.text_of_ofWord? found).symm⟩
      · cases found
    rw [kind, chars_token (by decide), lexeme] at plain
    have begins := List.isPrefixOf_iff_prefix.mpr
      (List.prefix_append Keyword.dala.text.toList (render rest))
    simp [begins] at plain

theorem Expr.Derived.head {expr : Expr} (h : expr.Derived source)
    (written : Writes tokens (statementHead (expr.pieces depth))) :
    ∃ expr', expr.Alike expr' ∧ Expression source tokens expr' ∧ NoStatementHead tokens := by
  unfold statementHead at written
  cases looks : looksLikeStatement (expr.pieces depth) with
  | true =>
    rw [looks, parenthesizedIf, if_pos rfl, ← List.append_nil (parenthesized _)] at written
    obtain ⟨group, others, expr', rfl, alike, atom, grouped, behind⟩ := h.group written
    obtain rfl := behind.nil
    rw [List.append_nil]
    have chain : CallChain source group expr' := .head (.atom atom)
    refine ⟨expr', alike, chain.expression, ?_⟩
    obtain ⟨opens, -, -⟩ := grouped
    intro token mem
    obtain rfl : _ = token := by simpa using mem
    simp_all [Token.isPunctuation, Token.isKeyword, Token.keyword?]
  | false =>
    rw [looks] at written
    obtain ⟨expr', read⟩ := h written
    obtain ⟨kind, lexeme, rest, eq⟩ := expr.exists_pieces depth
    rw [eq] at looks
    refine ⟨expr', read.alike, read.expression, noStatementHead_of_writes looks ?_⟩
    rw [← eq]
    exact written

/-! ### Parts of statements -/

section

variable {around : Surroundings} {rest : List Piece}

theorem derived_statements {body : List Stmt} (inside : ∀ stmt ∈ body, stmt.Derived source around)
    (written : Writes tokens (Stmt.listPieces depth body)) :
    ∃ body', Pairwise Stmt.Alike body body' ∧ Many (Statement source) tokens body' around := by
  induction body generalizing tokens with
  | nil =>
    obtain rfl := written.nil
    exact ⟨[], .nil, .nil⟩
  | cons stmt body ih =>
    obtain ⟨first, others⟩ := List.forall_mem_cons.mp inside
    obtain ⟨_, _, rfl, here, behind⟩ := written.line.append
    obtain ⟨stmt', alike, statement⟩ := first here
    obtain ⟨body', alikes, many⟩ := ih others behind
    exact ⟨stmt' :: body', .cons alike alikes, .cons statement many⟩

/-- Statements between braces. -/
theorem derived_block {body : List Stmt} (inside : ∀ stmt ∈ body, stmt.Derived source around)
    (written : Writes tokens
      (sign '\x7b' :: (Stmt.listPieces (depth + 1) body ++ line depth :: sign '\x7d' :: rest))) :
    ∃ block others body', tokens = block ++ others ∧ Pairwise Stmt.Alike body body' ∧
      Block source around block body' ∧ Writes others rest := by
  obtain ⟨opening, _, rfl, opens, written⟩ := written.sign
  obtain ⟨stmts, _, rfl, here, behind⟩ := written.append
  obtain ⟨closing, others, rfl, closes, behind⟩ := behind.line.sign
  obtain ⟨body', alikes, many⟩ := derived_statements inside here
  exact ⟨opening :: stmts ++ [closing], others, body', by simp, alikes, .mk opens many closes, behind⟩

theorem derived_optional {expr : Option Expr} (inside : ∀ each ∈ expr, each.Derived source)
    (written : Writes tokens (Expr.optionalPieces depth expr)) :
    ∃ expr', Perhaps Expr.Alike expr expr' ∧ Optionally (Expression source) tokens expr' := by
  cases expr with
  | none =>
    obtain rfl := written.nil
    exact ⟨none, .none, .none⟩
  | some expr =>
    obtain ⟨expr', read⟩ := inside expr rfl written
    exact ⟨some expr', .some read.alike, .some read.expression⟩

/-- A declaration without its semicolon. -/
theorem derived_declaration (kind : DeclarationKind) {name : Identifier} {value : Option Expr}
    (initialized : kind = .constant → value.isSome = true)
    (inside : ∀ expr ∈ value, expr.Derived source)
    (written : Writes tokens (keyword kind.keyword :: space :: token .identifier name.name ::
      Stmt.valuePieces depth value)) :
    ∃ stmt', (Stmt.declare kind name value).Alike stmt' ∧ Declaration source tokens stmt' := by
  obtain ⟨keyword, _, rfl, word, written⟩ := written.keyword
  obtain ⟨first, _, rfl, isName, lexeme, written⟩ := written.space.token
  have alike : Identifier.Alike name ⟨first.lexeme, first.position⟩ := lexeme.symm
  cases value with
  | none =>
    obtain rfl := written.nil
    cases kind with
    | constant => simp at initialized
    | «variable» => exact ⟨_, .declare alike .none, .uninitialized word isName⟩
  | some value =>
    obtain ⟨sign, _, rfl, isSign, text, written⟩ := written.space.operator
    obtain ⟨value', read⟩ := inside value rfl written.space
    have assigns : sign.isOperator "=" = true := by simp [Token.isOperator, isSign, text]
    cases kind with
    | constant =>
      exact ⟨_, .declare alike (.some read.alike), .constant word isName assigns read.expression⟩
    | «variable» =>
      exact ⟨_, .declare alike (.some read.alike), .variable word isName assigns read.expression⟩

/-- A statement that may begin a counting loop does so without its semicolon. -/
theorem Phrase.Statement.start {stmt : Stmt} {semicolon : Token}
    (h : Statement source around (tokens ++ [semicolon]) stmt) (simple : stmt.isStart = true) :
    Start source tokens (some stmt) := by
  generalize eq : tokens ++ [semicolon] = all at h
  cases h with
  | declare declaration =>
    obtain ⟨rfl, -⟩ := List.append_inj' eq rfl
    exact .declare declaration
  | evaluate written =>
    obtain ⟨rfl, -⟩ := List.append_inj' eq rfl
    exact .evaluate written
  | conditional _ rest => cases rest <;> cases simple
  | _ => cases simple

theorem derived_start {start : Option Stmt} (simple : ∀ stmt ∈ start, stmt.isStart = true)
    (inside : ∀ stmt ∈ start, stmt.Derived source around)
    (written : Writes tokens (Stmt.startPieces depth start ++ [sign ';'])) :
    ∃ head semicolon start', tokens = head ++ [semicolon] ∧ semicolon.isPunctuation ';' = true ∧
      Perhaps Stmt.Alike start start' ∧ Start source head start' := by
  obtain ⟨head, _, rfl, here, behind⟩ := written.append
  obtain ⟨semicolon, _, rfl, ends, behind⟩ := behind.sign
  obtain rfl := behind.nil
  cases start with
  | none =>
    obtain rfl := here.nil
    exact ⟨[], semicolon, none, rfl, ends, .none, .none⟩
  | some stmt =>
    have simple := simple stmt rfl
    rw [startPieces_append simple depth, List.append_nil] at written
    obtain ⟨stmt', alike, statement⟩ := inside stmt rfl written
    exact ⟨head, semicolon, some stmt', rfl, ends, .some alike,
      statement.start (alike.isStart.trans simple)⟩

theorem derived_handler {name : Identifier} {body : List Stmt}
    (inside : ∀ stmt ∈ body, stmt.Derived source around)
    (written : Writes tokens (Stmt.handlerBodyPieces depth (name, body) ++ rest)) :
    ∃ head others handler, tokens = head ++ others ∧ Handler.Alike (name, body) handler ∧
      Phrase.Handler source around head handler ∧ Writes others rest := by
  rw [Stmt.handlerBodyPieces] at written
  simp only [List.append_assoc, List.cons_append, List.nil_append] at written
  obtain ⟨keyword, _, rfl, word, written⟩ := written.space.keyword
  obtain ⟨opening, _, closing, _, rfl, opens, named, closes, braces⟩ := written.space.parenthesized
  obtain ⟨first, _, rfl, isName, lexeme, nothing⟩ := named.token
  obtain rfl := nothing.nil
  obtain ⟨block, others, body', rfl, alikes, block', behind⟩ := derived_block inside braces.space
  refine ⟨keyword :: opening :: first :: closing :: block, others, (⟨first.lexeme, first.position⟩,
    body'), by simp, .mk lexeme.symm alikes, .mk word opens isName closes block', behind⟩

theorem derived_finalizer {body : List Stmt} (inside : ∀ stmt ∈ body, stmt.Derived source around)
    (written : Writes tokens (Stmt.finalizerPieces depth (some body))) :
    ∃ keyword block body', tokens = keyword :: block ∧ keyword.isKeyword .fakhr = true ∧
      Pairwise Stmt.Alike body body' ∧ Block source around block body' := by
  rw [Stmt.finalizerPieces] at written
  simp only [List.cons_append] at written
  obtain ⟨keyword, _, rfl, word, written⟩ := written.space.keyword
  obtain ⟨block, _, body', rfl, alikes, block', behind⟩ := derived_block inside written.space
  obtain rfl := behind.nil
  exact ⟨keyword, block, body', by simp, word, alikes, block'⟩

/-- The clauses of a choice, of which at most one has no test. -/
theorem derived_clauses {cases : List Case} (hasDefault : Bool)
    (tested : ∀ clause ∈ cases, ∀ test ∈ clause.test, test.Derived source)
    (inside : ∀ clause ∈ cases, ∀ stmt ∈ clause.body, stmt.Derived source around.inChoice)
    (single : (cases.filter (·.test.isNone)).length ≤ if hasDefault then 0 else 1)
    (written : Writes tokens (Case.listPieces depth cases)) :
    ∃ cases', Pairwise Case.Alike cases cases' ∧ Clauses source around hasDefault tokens cases' := by
  induction cases generalizing tokens hasDefault with
  | nil =>
    obtain rfl := written.nil
    exact ⟨[], .nil, .nil⟩
  | cons clause cases ih =>
    obtain ⟨firstTest, tests⟩ := List.forall_mem_cons.mp tested
    obtain ⟨firstBody, bodies⟩ := List.forall_mem_cons.mp inside
    obtain ⟨test, body⟩ := clause
    obtain ⟨clause, more, rfl, here, behind⟩ := written.append
    rw [Case.pieces] at here
    simp only [List.cons_append] at here
    obtain ⟨head, _, rfl, head', here⟩ := here.line.append
    obtain ⟨colon, stmts, rfl, sign, here⟩ := here.sign
    obtain ⟨body', alikes, many⟩ := derived_statements firstBody here
    cases test with
    | none =>
      obtain ⟨keyword, _, rfl, word, nothing⟩ := head'.keyword
      obtain rfl := nothing.nil
      cases hasDefault with
      | true => simp [Case.test] at single
      | false =>
        have single : (cases.filter (·.test.isNone)).length ≤ 0 := by
          simpa [List.filter_cons, Case.test] using single
        obtain ⟨cases', alike, clauses⟩ := ih true tests bodies single behind
        exact ⟨.mk none body' :: cases', .cons (.mk .none alikes) alike,
          .default word sign many clauses⟩
    | some test =>
      obtain ⟨keyword, _, rfl, word, head'⟩ := head'.keyword
      obtain ⟨test', read⟩ := firstTest test rfl head'.space
      have single : (cases.filter (·.test.isNone)).length ≤ if hasDefault then 0 else 1 := by
        simpa [List.filter_cons, Case.test] using single
      obtain ⟨cases', alike, clauses⟩ := ih hasDefault tests bodies single behind
      exact ⟨.mk (some test') body' :: cases', .cons (.mk (.some read.alike) alikes) alike,
        .test word read.expression sign many clauses⟩

end

/-- The name of a function may be left out. -/
theorem derived_ownName {name : Option Identifier}
    (written : Writes tokens (match name with
      | none => []
      | some name => [space, token .identifier name.name])) :
    ∃ name', Perhaps Identifier.Alike name name' ∧ Optionally Name tokens name' := by
  cases name with
  | none =>
    obtain rfl := written.nil
    exact ⟨none, .none, .none⟩
  | some name =>
    obtain ⟨name', alike, named⟩ := derived_name name written.space
    exact ⟨some name', .some alike, .some named⟩

/-! ### Trees -/

mutual

/-- The tokens of an expression derive it. -/
theorem Expr.Formed.derived {expr : Expr} (h : expr.Formed) : expr.Derived source := by
  match h with
  | .assign assignable place written =>
    intro depth tokens written'
    rw [Expr.pieces, List.append_assoc] at written'
    obtain ⟨target, _, rfl, here, behind⟩ := written'.append
    obtain ⟨sign, value, rfl, kind, lexeme, behind⟩ := behind.space.operator
    obtain ⟨target', read⟩ := place.derived here
    obtain ⟨value', read'⟩ := written.derived behind.space
    have chain := read.operand (needsParentheses_of_isReference assignable)
    have assigned := Expression.assign (.ofOperand chain.operand _)
      (read.alike.isReference.trans assignable) (Grammar.assignOp?_text kind lexeme) read'.expression
    exact ⟨_, .ofExpression (.assign read.alike read'.alike) assigned rfl⟩
  | .logical first second =>
    intro depth tokens written
    rw [Expr.pieces, List.append_assoc] at written
    obtain ⟨left, _, rfl, here, behind⟩ := written.append
    obtain ⟨sign, right, rfl, kind, lexeme, behind⟩ := behind.space.operator
    obtain ⟨left', alike, chain, -⟩ := first.derived.operand here
    obtain ⟨right', alike', chain', -⟩ := second.derived.operand behind.space
    obtain ⟨joint, mem, joins⟩ := Grammar.logicalJoint_text kind lexeme
    exact ⟨_, .ofExpression (.logical alike alike')
      (.chain (.ofJoint mem joins chain.operand chain'.operand)) rfl⟩
  | .binary first second =>
    intro depth tokens written
    rw [Expr.pieces, List.append_assoc] at written
    obtain ⟨left, _, rfl, here, behind⟩ := written.append
    obtain ⟨sign, right, rfl, kind, lexeme, behind⟩ := behind.space.operator
    obtain ⟨left', alike, chain, -⟩ := first.derived.operand here
    obtain ⟨right', alike', chain', -⟩ := second.derived.operand behind.space
    obtain ⟨joint, mem, joins⟩ := Grammar.binaryJoint_text kind lexeme
    exact ⟨_, .ofExpression (.binary alike alike')
      (.chain (.ofJoint mem joins chain.operand chain'.operand)) rfl⟩
  | .unary inside =>
    intro depth tokens written
    obtain ⟨sign, operand, rfl, noStep, applies, behind⟩ := Grammar.unaryOp?_of_writes written
    obtain ⟨operand', alike, chain, -⟩ := inside.derived.operand behind
    exact ⟨_, .ofExpression (.unary alike)
      (.chain (.ofOperand (.unary noStep applies chain.operand) _)) rfl⟩
  | @Expr.Formed.update _ true _ _ assignable place =>
    intro depth tokens written
    obtain ⟨sign, target, rfl, kind, lexeme, behind⟩ := written.operator
    obtain ⟨target', alike, chain, -⟩ := place.derived.operand behind
    exact ⟨_, .ofExpression (.update alike) (.chain (.ofOperand (.update
      (Grammar.stepOp?_text kind lexeme) chain.operand (alike.isReference.trans assignable)) _)) rfl⟩
  | @Expr.Formed.update _ false _ _ assignable place =>
    intro depth tokens written
    obtain ⟨target, _, rfl, here, behind⟩ := written.append
    obtain ⟨sign, _, rfl, kind, lexeme, behind⟩ := behind.operator
    obtain rfl := behind.nil
    obtain ⟨target', alike, chain, -⟩ := place.derived.operand here
    exact ⟨_, .ofExpression (.update alike) (.chain (.ofOperand (.updated (.update chain
      (alike.isReference.trans assignable) (Grammar.stepOp?_text kind lexeme))) _)) rfl⟩
  | .call called passed few =>
    intro depth tokens written
    obtain ⟨callee, _, rfl, here, behind⟩ := written.append
    obtain ⟨opening, args, closing, rfl, opens, listed, closes⟩ := behind.group
    obtain ⟨callee', alike, chain, -⟩ := called.derived.operand here
    obtain ⟨args', alikes, args''⟩ :=
      derived_arguments (fun arg mem => (passed arg mem).derived) few listed closes
    exact ⟨_, .ofChain (.call alike alikes) (.suffix chain (.call opens args'')) nofun⟩
  | .construct called passed few =>
    intro depth tokens written
    rw [Expr.pieces] at written
    simp only [List.cons_append] at written
    obtain ⟨keyword, _, rfl, word, behind⟩ := written.keyword
    obtain ⟨callee, _, rfl, here, behind⟩ := behind.space.append
    obtain ⟨opening, args, closing, rfl, opens, listed, closes⟩ := behind.group
    obtain ⟨callee', alike, chain⟩ := called.derived.callee here
    obtain ⟨args', alikes, args''⟩ :=
      derived_arguments (fun arg mem => (passed arg mem).derived) few listed closes
    exact ⟨_, .ofChain (.construct alike alikes) (.head (.construct word chain opens args'')) nofun⟩
  | .named inside isWord =>
    intro depth tokens written
    obtain ⟨owner, _, rfl, here, behind⟩ := written.append
    obtain ⟨point, _, rfl, sign, behind⟩ := behind.sign
    obtain ⟨name, _, rfl, word, lexeme, behind⟩ := behind.word
    obtain rfl := behind.nil
    obtain ⟨owner', alike, chain, members⟩ := inside.derived.operand here
    subst lexeme
    exact ⟨_, .ofChain (.named alike) (.suffix chain (.member (.named sign word)))
      fun plain => .suffix (members plain) (.named sign word)⟩
  | .computed inside selected =>
    intro depth tokens written
    obtain ⟨owner, _, rfl, here, behind⟩ := written.append
    obtain ⟨opening, _, rfl, opens, behind⟩ := behind.sign
    obtain ⟨key, _, rfl, key', behind⟩ := behind.append
    obtain ⟨closing, _, rfl, closes, behind⟩ := behind.sign
    obtain rfl := behind.nil
    obtain ⟨owner', alike, chain, members⟩ := inside.derived.operand here
    obtain ⟨key', read⟩ := selected.derived key'
    exact ⟨_, .ofChain (.computed alike read.alike)
      (.suffix chain (.member (.computed opens read.expression closes)))
      fun plain => .suffix (members plain) (.computed opens read.expression closes)⟩
  | .identifier isName =>
    intro depth tokens written
    obtain ⟨name, alike, ⟨kind⟩⟩ := derived_name _ written
    exact ⟨_, .ofAtom (.identifier alike) (.identifier kind)⟩
  | .number fields =>
    intro depth tokens written
    exact ⟨_, .ofAtom (.literal fields.beq_self) (derived_number written)⟩
  | .string =>
    intro depth tokens written
    obtain ⟨token, _, rfl, kind, lexeme, behind⟩ := written.token
    obtain rfl := behind.nil
    subst lexeme
    exact ⟨_, .ofAtom (.literal (by simp [Literal.same])) (.string kind)⟩
  | .boolean =>
    intro depth tokens written
    exact ⟨_, .ofAtom (.literal (by simp [Literal.same])) (derived_boolean written)⟩
  | .null =>
    intro depth tokens written
    obtain ⟨token, _, rfl, word, behind⟩ := written.keyword
    obtain rfl := behind.nil
    exact ⟨_, .ofAtom (.literal rfl) (.null word)⟩
  | .undefined =>
    intro depth tokens written
    obtain ⟨token, _, rfl, word, behind⟩ := written.keyword
    obtain rfl := behind.nil
    exact ⟨_, .ofAtom (.literal rfl) (.undefined word)⟩
  | .this =>
    intro depth tokens written
    obtain ⟨token, _, rfl, word, behind⟩ := written.keyword
    obtain rfl := behind.nil
    exact ⟨_, .ofAtom .this (.this word)⟩
  | .array inside =>
    intro depth tokens written
    obtain ⟨opening, _, rfl, opens, behind⟩ := written.sign
    obtain ⟨elements, _, rfl, here, behind⟩ := behind.append
    obtain ⟨closing, _, rfl, closes, behind⟩ := behind.sign
    obtain rfl := behind.nil
    obtain ⟨elements', alikes, listed⟩ :=
      derived_elements (fun element mem => (inside element mem).derived) here
    exact ⟨_, .ofAtom (.array alikes) (.array opens listed closes)⟩
  | .object inside =>
    intro depth tokens written
    obtain ⟨opening, _, rfl, opens, behind⟩ := written.sign
    obtain ⟨entries, _, rfl, here, behind⟩ := behind.append
    obtain ⟨closing, _, rfl, closes, behind⟩ := behind.sign
    obtain rfl := behind.nil
    obtain ⟨entries', alikes, listed⟩ :=
      derived_entries (fun entry mem => (inside entry mem).derived) here
    exact ⟨_, .ofAtom (.object alikes) (.object opens listed closes)⟩
  | .function written =>
    intro depth tokens written'
    obtain ⟨keyword, names, others, name, f', rfl, word, named, -, rest, alike⟩ :=
      written.derived written'
    exact ⟨_, .ofAtom (.function alike) (.function word named rest)⟩
termination_by structural h

/-- The tokens of a function derive it. -/
theorem Function.Formed.derived {f : Function} (h : f.Formed) : f.Derived source := by
  match h with
  | @Function.Formed.mk name _ _ _ _ _ few inside =>
    intro depth tokens written
    simp only [Function.pieces, List.cons_append, List.append_assoc] at written
    obtain ⟨keyword, _, rfl, word, behind⟩ := written.keyword
    obtain ⟨names, _, rfl, named, behind⟩ := behind.append
    obtain ⟨opening, params, closing, _, rfl, opens, listed, closes, behind⟩ := behind.parenthesized
    obtain ⟨block, _, body', rfl, alikes, block', behind⟩ :=
      derived_block (fun stmt mem => (inside stmt mem).derived) behind.space
    obtain rfl := behind.nil
    obtain ⟨params', alike, listed'⟩ := derived_names listed
    obtain ⟨name', own, named'⟩ : ∃ name', Perhaps Identifier.Alike name name' ∧
        Optionally Name names name' := derived_ownName named
    have few : params'.length ≤ maxArguments := by rwa [alike.length_eq]
    rw [List.append_nil]
    exact ⟨keyword, names, _, name', _, rfl, word, named', own, .mk opens listed' closes few block',
      .mk own alike alikes⟩
termination_by structural h

/-- The tokens of a statement derive it. -/
theorem Stmt.Formed.derived {stmt : Stmt} {around : Surroundings} (h : stmt.Formed around) :
    stmt.Derived source around := by
  match h with
  | .constant _ written =>
    intro depth tokens written'
    obtain ⟨head, _, rfl, here, behind⟩ := written'.append
    obtain ⟨semicolon, _, rfl, ends, behind⟩ := behind.sign
    obtain rfl := behind.nil
    obtain ⟨stmt', alike, declaration⟩ :=
      derived_declaration .constant (fun _ => rfl) (by simpa using written.derived) here
    exact ⟨stmt', alike, .declare declaration ends⟩
  | .variable _ written =>
    intro depth tokens written'
    obtain ⟨head, _, rfl, here, behind⟩ := written'.append
    obtain ⟨semicolon, _, rfl, ends, behind⟩ := behind.sign
    obtain rfl := behind.nil
    obtain ⟨stmt', alike, declaration⟩ :=
      derived_declaration .variable nofun (fun expr mem => (written expr mem).derived) here
    exact ⟨stmt', alike, .declare declaration ends⟩
  | .defineFunction isNamed written =>
    intro depth tokens written'
    obtain ⟨keyword, names, others, name, f', rfl, word, named, own, rest, alike⟩ :=
      written.derived written'
    have isNamed := own.isSome_eq.trans isNamed
    match named with
    | .some (.mk kind) => exact ⟨_, .defineFunction alike, .function word kind rest⟩
  | .block inside =>
    intro depth tokens written
    obtain ⟨block, _, body', rfl, alikes, block', behind⟩ :=
      derived_block (fun stmt mem => (inside stmt mem).derived) written
    obtain rfl := behind.nil
    rw [List.append_nil]
    exact ⟨_, .block alikes, .block block'⟩
  | @Stmt.Formed.conditional _ _ _ none tested branch _ _ =>
    intro depth tokens written
    simp only [Stmt.pieces, List.append_assoc, List.cons_append] at written
    obtain ⟨keyword, _, rfl, word, behind⟩ := written.keyword
    obtain ⟨group, _, test', rfl, alike, -, tested', behind⟩ := tested.derived.group behind.space
    obtain ⟨first, _, rfl, here, behind⟩ := behind.space.append
    obtain rfl := behind.nil
    obtain ⟨branch', alike', statement⟩ := branch.derived here
    rw [List.append_nil]
    exact ⟨_, .conditional alike alike' .none, .conditional word (.alone tested' statement)⟩
  | @Stmt.Formed.conditional _ _ _ (some alternate) tested branch other closed =>
    intro depth tokens written
    simp only [Stmt.pieces, List.append_assoc, List.cons_append] at written
    obtain ⟨keyword, _, rfl, word, behind⟩ := written.keyword
    obtain ⟨group, _, test', rfl, alike, -, tested', behind⟩ := tested.derived.group behind.space
    obtain ⟨first, _, rfl, here, behind⟩ := behind.space.append
    obtain ⟨ella, more, rfl, word', behind⟩ := behind.space.keyword
    obtain ⟨branch', alike', statement⟩ := branch.derived here
    obtain ⟨other', alike'', statement'⟩ := (other alternate rfl).derived behind.space
    have closed := alike'.endsOpen.trans (closed rfl)
    refine ⟨_, .conditional alike alike' (.some alike''), ?_⟩
    rw [← List.append_assoc]
    exact .conditional word (.otherwise tested' statement closed word' statement')
  | .whileLoop tested repeated =>
    intro depth tokens written
    simp only [Stmt.pieces, List.cons_append] at written
    obtain ⟨keyword, _, rfl, word, behind⟩ := written.keyword
    obtain ⟨group, _, test', rfl, alike, -, tested', behind⟩ := tested.derived.group behind.space
    obtain ⟨body', alike', statement⟩ := repeated.derived behind.space
    exact ⟨_, .whileLoop alike alike', .whileLoop word tested' statement⟩
  | .doWhileLoop repeated tested =>
    intro depth tokens written
    simp only [Stmt.pieces, List.append_assoc, List.cons_append] at written
    obtain ⟨keyword, _, rfl, word, behind⟩ := written.keyword
    obtain ⟨body, _, rfl, here, behind⟩ := behind.space.append
    obtain ⟨last, _, rfl, word', behind⟩ := behind.space.keyword
    obtain ⟨group, _, test', rfl, alike, -, tested', behind⟩ := tested.derived.group behind.space
    obtain ⟨semicolon, _, rfl, ends, behind⟩ := behind.sign
    obtain rfl := behind.nil
    obtain ⟨body', alike', statement⟩ := repeated.derived here
    refine ⟨_, .doWhileLoop alike' alike, ?_⟩
    simpa only [List.append_assoc, List.cons_append] using
      Statement.doWhileLoop word statement word' tested' ends
  | .forLoop simple begins tested updated repeated =>
    intro depth tokens written
    simp only [Stmt.pieces, List.append_assoc, List.cons_append] at written
    obtain ⟨keyword, _, rfl, word, behind⟩ := written.keyword
    obtain ⟨opening, _, rfl, opens, behind⟩ := behind.space.sign
    rw [← List.singleton_append, ← List.append_assoc] at behind
    obtain ⟨_, _, rfl, here, after⟩ := behind.append
    obtain ⟨starting, first, start', rfl, sign, alike, start⟩ :=
      derived_start simple (fun stmt mem => (begins stmt mem).derived) here
    obtain ⟨testing, _, rfl, here', after⟩ := after.space.append
    obtain ⟨second, _, rfl, sign', after⟩ := after.sign
    obtain ⟨updating, _, rfl, here'', after⟩ := after.space.append
    obtain ⟨closing, body, rfl, closes, after⟩ := after.sign
    obtain ⟨test', alike', tested'⟩ :=
      derived_optional (fun expr mem => (tested expr mem).derived) here'
    obtain ⟨update', alike'', updated'⟩ :=
      derived_optional (fun expr mem => (updated expr mem).derived) here''
    obtain ⟨body', alikeBody, statement⟩ := repeated.derived after.space
    refine ⟨_, .forLoop alike alike' alike'' alikeBody, ?_⟩
    simpa only [List.append_assoc, List.cons_append, List.nil_append] using
      Statement.forLoop word opens start sign tested' sign' updated' closes statement
  | @Stmt.Formed.attempt _ _ none none _ follows _ _ _ => simp at follows
  | @Stmt.Formed.attempt _ _ (some (name, body)) none inside _ _ handles _ =>
    intro depth tokens written
    simp only [Stmt.pieces, List.append_assoc, List.cons_append] at written
    obtain ⟨keyword, _, rfl, word, behind⟩ := written.keyword
    obtain ⟨block, _, body', rfl, alikes, block', behind⟩ :=
      derived_block (fun stmt mem => (inside stmt mem).derived) behind.space
    obtain ⟨head, _, handler, rfl, alike, handler', behind⟩ :=
      derived_handler (fun stmt mem => (handles _ rfl stmt mem).derived) behind
    obtain rfl := behind.nil
    refine ⟨_, .attempt alikes (.some alike) .none, ?_⟩
    rw [List.append_nil]
    exact .handled word block' handler'
  | @Stmt.Formed.attempt _ _ none (some final) inside _ _ _ closing =>
    intro depth tokens written
    simp only [Stmt.pieces, List.append_assoc, List.cons_append] at written
    obtain ⟨keyword, _, rfl, word, behind⟩ := written.keyword
    obtain ⟨block, _, body', rfl, alikes, block', behind⟩ :=
      derived_block (fun stmt mem => (inside stmt mem).derived) behind.space
    obtain ⟨last, final, final', rfl, word', alikes', block''⟩ :=
      derived_finalizer (fun stmt mem => (closing _ rfl stmt mem).derived) behind
    exact ⟨_, .attempt alikes .none (.some alikes'), .finalized word block' word' block''⟩
  | @Stmt.Formed.attempt _ _ (some (name, body)) (some final) inside _ _ handles closing =>
    intro depth tokens written
    simp only [Stmt.pieces, List.append_assoc, List.cons_append] at written
    obtain ⟨keyword, _, rfl, word, behind⟩ := written.keyword
    obtain ⟨block, _, body', rfl, alikes, block', behind⟩ :=
      derived_block (fun stmt mem => (inside stmt mem).derived) behind.space
    obtain ⟨head, _, handler, rfl, alike, handler', behind⟩ :=
      derived_handler (fun stmt mem => (handles _ rfl stmt mem).derived) behind
    obtain ⟨last, final, final', rfl, word', alikes', block''⟩ :=
      derived_finalizer (fun stmt mem => (closing _ rfl stmt mem).derived) behind
    refine ⟨_, .attempt alikes (.some alike) (.some alikes'), ?_⟩
    simpa only [List.append_assoc, List.cons_append] using
      Statement.handledFinalized word block' handler' word' block''
  | .choice chosen tested inside single =>
    intro depth tokens written
    simp only [Stmt.pieces, List.append_assoc, List.cons_append] at written
    obtain ⟨keyword, _, rfl, word, behind⟩ := written.keyword
    obtain ⟨group, _, subject', rfl, alike, -, chosen', behind⟩ := chosen.derived.group behind.space
    obtain ⟨opening, _, rfl, opens, behind⟩ := behind.space.sign
    obtain ⟨clauses, _, rfl, here, behind⟩ := behind.append
    obtain ⟨closing, _, rfl, closes, behind⟩ := behind.line.sign
    obtain rfl := behind.nil
    obtain ⟨cases', alikes, clauses'⟩ := derived_clauses false
      (fun clause mem test mem' => (tested clause mem test mem').derived)
      (fun clause mem stmt mem' => (inside clause mem stmt mem').derived) single here
    refine ⟨_, .choice alike alikes, ?_⟩
    simpa only [List.append_assoc, List.cons_append] using
      Statement.choice word chosen' opens clauses' closes
  | @Stmt.Formed.giveBack _ none placed _ =>
    intro depth tokens written
    obtain ⟨keyword, _, rfl, word, behind⟩ := written.keyword
    obtain ⟨semicolon, _, rfl, ends, behind⟩ := behind.sign
    obtain rfl := behind.nil
    exact ⟨_, .giveBack .none, .giveBack word placed .none ends⟩
  | @Stmt.Formed.giveBack _ (some value) placed written =>
    intro depth tokens written'
    simp only [Stmt.pieces, List.cons_append] at written'
    obtain ⟨keyword, _, rfl, word, behind⟩ := written'.keyword
    obtain ⟨head, _, rfl, here, behind⟩ := behind.space.append
    obtain ⟨semicolon, _, rfl, ends, behind⟩ := behind.sign
    obtain rfl := behind.nil
    obtain ⟨value', read⟩ := (written value rfl).derived here
    exact ⟨_, .giveBack (.some read.alike), .giveBack word placed (.some read.expression) ends⟩
  | .leave placed =>
    intro depth tokens written
    obtain ⟨keyword, _, rfl, word, behind⟩ := written.keyword
    obtain ⟨semicolon, _, rfl, ends, behind⟩ := behind.sign
    obtain rfl := behind.nil
    exact ⟨_, .leave, .leave word placed ends⟩
  | .next placed =>
    intro depth tokens written
    obtain ⟨keyword, _, rfl, word, behind⟩ := written.keyword
    obtain ⟨semicolon, _, rfl, ends, behind⟩ := behind.sign
    obtain rfl := behind.nil
    exact ⟨_, .next, .next word placed ends⟩
  | .evaluate written =>
    intro depth tokens written'
    obtain ⟨head, _, rfl, here, behind⟩ := written'.append
    obtain ⟨semicolon, _, rfl, ends, behind⟩ := behind.sign
    obtain rfl := behind.nil
    obtain ⟨expr', alike, expression, headless⟩ := written.derived.head here
    exact ⟨_, .evaluate alike, .evaluate expression headless ends⟩
  | .empty =>
    intro depth tokens written
    obtain ⟨semicolon, _, rfl, ends, behind⟩ := written.sign
    obtain rfl := behind.nil
    exact ⟨_, .empty, .empty ends⟩
termination_by structural h

end

/-- The tokens of a written program derive it. -/
theorem derived_program {program : List Stmt} (formed : ∀ stmt ∈ program, stmt.Formed .none)
    (written : Writes tokens (programPieces program)) :
    ∃ program', Pairwise Stmt.Alike program program' ∧ Program source tokens program' := by
  unfold programPieces at written
  induction program generalizing tokens with
  | nil =>
    obtain rfl := written.nil
    exact ⟨[], .nil, .nil⟩
  | cons stmt program ih =>
    obtain ⟨first, others⟩ := List.forall_mem_cons.mp formed
    rw [List.flatMap_cons, List.append_assoc] at written
    obtain ⟨head, _, rfl, here, behind⟩ := written.append
    obtain ⟨stmt', alike, statement⟩ := first.derived here
    obtain ⟨program', alikes, rest⟩ := ih others behind.line
    exact ⟨stmt' :: program', .cons alike alikes, .cons statement rest⟩

end DarijaScript
