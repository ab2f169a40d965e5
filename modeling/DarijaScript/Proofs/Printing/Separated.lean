import DarijaScript.Proofs.Lexing.Written
import DarijaScript.Proofs.Printing.Alike
import DarijaScript.Proofs.Syntax.Formed

/-!
# Written trees are cut into their tokens

Every token of a written tree is found again in front of what is written behind it. What stands
behind an operand may be a sign that goes on with the expression; behind an expression that needs
parentheses as an operand, only signs that end it may stand.
-/

namespace DarijaScript

open Piece

/-! ### What stands behind an expression -/

/-- The characters that end every expression. -/
def closers : List Char := [')', ']', '\x7d', ',', ';', ':', ' ', '\n']

/-- The text may stand behind every expression. -/
def Closes (text : List Char) : Prop := ∀ c ∈ text.head?, c ∈ closers

theorem Closes.follows {text : List Char} (h : Closes text) : Follows text := by
  have apart : ∀ c ∈ closers, isWordChar c = false ∧ (c ≠ '+' ∧ c ≠ '-') ∧ c ≠ '.' :=
    Text.forall_mem_of_all (by decide +kernel)
  cases text with
  | nil => exact follows_nil
  | cons c text =>
    obtain ⟨word, signs, point⟩ := apart c (h c rfl)
    exact follows_cons word signs point

theorem Closes.noOperator {text : List Char} (h : Closes text) :
    ∀ c ∈ text.head?, c ∉ operatorChars := by
  have apart : ∀ c ∈ closers, c ∉ operatorChars := Text.forall_mem_of_all (by decide)
  exact fun c mem => apart c (h c mem)

/-- The text may stand behind this expression. -/
structure Behind (expr : Expr) (text : List Char) : Prop where
  follows : Follows text
  closes : expr.needsParentheses = true → Closes text

theorem Closes.behind {text : List Char} (h : Closes text) (expr : Expr) : Behind expr text :=
  ⟨h.follows, fun _ => h⟩

theorem Follows.behind {text : List Char} {expr : Expr} (h : Follows text)
    (plain : expr.needsParentheses = false) : Behind expr text :=
  ⟨h, fun needs => by simp [plain] at needs⟩

section

variable {rest : List Piece}

theorem closes_space : Closes (render (space :: rest)) := by
  intro c mem
  obtain rfl : ' ' = c := by simpa [render_cons, chars] using mem
  decide

theorem render_sign (c : Char) : render (sign c :: rest) = c :: render rest := by
  rw [render_cons, sign, chars_token (by decide)]
  simp [Char.toString]

theorem closes_sign {c : Char} (closer : c ∈ closers) : Closes (render (sign c :: rest)) := by
  intro d mem
  rw [render_sign] at mem
  obtain rfl : c = d := by simpa using mem
  exact closer

theorem follows_opening {c : Char} (opens : c ∈ ['(', '[']) : Follows (render (sign c :: rest)) := by
  have apart : ∀ c ∈ ['(', '['], isWordChar c = false ∧ (c ≠ '+' ∧ c ≠ '-') ∧ c ≠ '.' :=
    Text.forall_mem_of_all (by decide +kernel)
  rw [render_sign]
  obtain ⟨word, signs, point⟩ := apart c opens
  exact follows_cons word signs point

theorem follows_member {name : String} (isWord : IsWord name.toList)
    (follows : Follows (render rest)) : Follows (render (sign '.' :: word name :: rest)) := by
  have kinds := wordKind_cases name
  rw [render_sign, render_cons, word, chars_token (by grind)]
  exact follows_point isWord follows

theorem follows_update (op : StepOp) : Follows (render (operator op.text :: rest)) := by
  rw [render_cons, operator, chars_token (by decide)]
  cases op with
  | increment => exact follows_step (.inl rfl)
  | decrement => exact follows_step (.inr rfl)

end

/-! ### Expressions -/

/-- The tokens of the expression are found again, wherever it is written. -/
def Expr.Separated (expr : Expr) : Prop :=
  ∀ ⦃depth : Nat⦄ ⦃rest : List Piece⦄, Lexes rest → Behind expr (render rest) →
    Lexes (expr.pieces depth ++ rest)

/-- The tokens of the statement are found again, wherever it is written. -/
def Stmt.Separated (stmt : Stmt) : Prop :=
  ∀ ⦃depth : Nat⦄ ⦃rest : List Piece⦄, Lexes rest → Lexes (stmt.pieces depth ++ rest)

section

variable (depth : Nat) {rest : List Piece}

theorem lexes_parenthesized {pieces : List Piece}
    (inside : ∀ {rest}, Lexes rest → Closes (render rest) → Lexes (pieces ++ rest))
    (h : Lexes rest) : Lexes (parenthesized pieces ++ rest) := by
  rw [parenthesized, List.cons_append, List.cons_append, List.append_assoc]
  refine .sign (by decide) (inside ?_ (closes_sign (by decide)))
  exact h.sign (by decide)

/-- Between parentheses nothing behind an expression matters. -/
theorem Expr.Separated.parenthesizedIf {expr : Expr} (inside : expr.Separated) {condition : Bool}
    (h : Lexes rest) (behind : condition = false → Behind expr (render rest)) :
    Lexes (parenthesizedIf condition (expr.pieces depth) ++ rest) := by
  cases condition with
  | true => exact lexes_parenthesized (fun h closes => inside h (closes.behind expr)) h
  | false => exact inside h (behind rfl)

theorem Expr.Separated.operand {expr : Expr} (inside : expr.Separated) (h : Lexes rest)
    (follows : Follows (render rest)) :
    Lexes (DarijaScript.parenthesizedIf expr.needsParentheses (expr.pieces depth) ++ rest) :=
  inside.parenthesizedIf depth h fun plain => follows.behind plain

theorem lexes_list {exprs : List Expr} (inside : ∀ expr ∈ exprs, expr.Separated) (h : Lexes rest)
    (closes : Closes (render rest)) : Lexes (Expr.listPieces depth exprs ++ rest) := by
  induction exprs with
  | nil => exact h
  | cons expr others ih =>
    obtain ⟨first, others'⟩ := List.forall_mem_cons.mp inside
    cases others with
    | nil => exact first h (closes.behind expr)
    | cons next others =>
      rw [Expr.listPieces, List.append_assoc, List.append_assoc]
      · refine first (.sign (by decide) (.space (ih others'))) ?_
        exact (closes_sign (by decide)).behind expr
      · simp

theorem lexes_entries {entries : List (String × Expr)}
    (inside : ∀ entry ∈ entries, entry.2.Separated) (h : Lexes rest)
    (closes : Closes (render rest)) : Lexes (Expr.entriesPieces depth entries ++ rest) := by
  induction entries with
  | nil => exact h
  | cons entry others ih =>
    obtain ⟨first, others'⟩ := List.forall_mem_cons.mp inside
    have entry {rest : List Piece} (h : Lexes rest) (closes : Closes (render rest)) :
        Lexes (Expr.entryPieces depth entry ++ rest) := by
      rw [Expr.entryPieces]
      exact .string _ (.sign (by decide) (.space (first h (closes.behind _))))
    cases others with
    | nil => exact entry h closes
    | cons next others =>
      rw [Expr.entriesPieces, List.append_assoc, List.append_assoc]
      · exact entry (.sign (by decide) (.space (ih others'))) (closes_sign (by decide))
      · simp

theorem lexes_names {names : List Identifier} (named : ∀ name ∈ names, IsName name.name)
    (h : Lexes rest) (closes : Closes (render rest)) : Lexes (namePieces names ++ rest) := by
  induction names with
  | nil => exact h
  | cons name others ih =>
    obtain ⟨first, others'⟩ := List.forall_mem_cons.mp named
    cases others with
    | nil => exact h.identifier first.isWord first.kind closes.follows
    | cons next others =>
      rw [namePieces]
      · refine Lexes.identifier ?_ first.isWord first.kind (closes_sign (by decide)).follows
        exact .sign (by decide) (.space (ih others'))
      · simp

theorem lexes_number (fields : Decimal.Fields) (h : Lexes rest) (follows : Follows (render rest)) :
    Lexes ((Literal.number fields.toFloat).piece :: rest) := by
  unfold Literal.piece
  dsimp only
  rw [Decimal.Fields.isInf_toFloat]
  by_cases infinite : fields.field = Decimal.topExponent
  · simp only [infinite, decide_true, if_true]
    exact h.infinity follows
  · simp only [infinite, decide_false, Bool.false_eq_true, if_false]
    obtain ⟨number, eq, -⟩ := Decimal.text_eq infinite
    exact h.number number eq follows

theorem lexes_boolean (value : Bool) (h : Lexes rest) (follows : Follows (render rest)) :
    Lexes ((Literal.boolean value).piece :: rest) := by
  cases value with
  | true =>
    have isWord : IsWord trueWord.toList :=
      ⟨by decide, Text.forall_mem_of_all (by decide +kernel), by decide +kernel⟩
    have eq : (Literal.boolean true).piece = word trueWord := by decide
    rw [eq]
    exact h.word isWord follows
  | false =>
    have isWord : IsWord "ghalat".toList :=
      ⟨by decide, Text.forall_mem_of_all (by decide +kernel), by decide +kernel⟩
    have eq : (Literal.boolean false).piece = word "ghalat" := by decide
    rw [eq]
    exact h.word isWord follows

end

/-! ### The first character -/

/-- The text begins with a character that no operator holds. -/
def BeginsSolid (text : List Char) : Prop := ∃ c rest, text = c :: rest ∧ c ∉ operatorChars

theorem BeginsSolid.append {text : List Char} (h : BeginsSolid text) (rest : List Char) :
    BeginsSolid (text ++ rest) := by
  obtain ⟨c, others, rfl, solid⟩ := h
  exact ⟨c, others ++ rest, rfl, solid⟩

theorem BeginsSolid.noOperator {text : List Char} (h : BeginsSolid text) :
    ∀ c ∈ text.head?, c ∉ operatorChars := by
  obtain ⟨c, rest, rfl, solid⟩ := h
  simpa using solid

theorem beginsSolid_sign {c : Char} (mem : c ∈ punctuationChars) (rest : List Piece) :
    BeginsSolid (render (sign c :: rest)) := by
  have apart : ∀ c ∈ punctuationChars, c ∉ operatorChars := Text.forall_mem_of_all (by decide)
  exact ⟨c, render rest, render_sign c, apart c mem⟩

theorem beginsSolid_word {name : String} (isWord : IsWord name.toList) (rest : List Piece) :
    BeginsSolid (render (word name :: rest)) := by
  have kinds := wordKind_cases name
  rw [render_cons, word, chars_token (by grind)]
  obtain ⟨c, letters, eq⟩ := List.exists_cons_of_ne_nil isWord.nonempty
  have first : isWordChar c = true := isWord.chars c (by simp [eq])
  refine ⟨c, letters ++ render rest, by rw [eq, List.cons_append], fun sign => ?_⟩
  simp [isWordChar_of_mem_operatorChars c sign] at first

theorem beginsSolid_keyword (word : Keyword) (rest : List Piece) :
    BeginsSolid (render (keyword word :: rest)) := by
  rw [keyword_eq_word]
  exact beginsSolid_word (isWord_keyword word) rest

theorem beginsSolid_number (fields : Decimal.Fields) (rest : List Piece) :
    BeginsSolid (render ((Literal.number fields.toFloat).piece :: rest)) := by
  unfold Literal.piece
  dsimp only
  rw [Decimal.Fields.isInf_toFloat, render_cons]
  by_cases infinite : fields.field = Decimal.topExponent
  · simp only [infinite, decide_true, if_true]
    exact ⟨'1', _, rfl, by decide⟩
  · simp only [infinite, decide_false, Bool.false_eq_true, if_false]
    obtain ⟨number, eq, -⟩ := Decimal.text_eq infinite
    obtain ⟨c, digits, eq', digit⟩ := number.chars_eq_cons
    rw [chars_token (by decide), eq, eq']
    refine ⟨c, _, rfl, fun sign => ?_⟩
    have := isWordChar_of_isDigit digit
    simp [isWordChar_of_mem_operatorChars c sign] at this

/-- An operand begins with no operator. -/
theorem Expr.Formed.beginsSolid {expr : Expr} (h : expr.Formed) (depth : Nat) :
    BeginsSolid (render (parenthesizedIf expr.needsParentheses (expr.pieces depth))) := by
  have grouped (pieces : List Piece) : BeginsSolid (render (parenthesized pieces)) :=
    beginsSolid_sign (by decide) _
  match h with
  | .assign .. => exact grouped _
  | .logical .. => exact grouped _
  | .binary .. => exact grouped _
  | .unary _ => exact grouped _
  | .update .. => exact grouped _
  | .function _ => exact grouped _
  | @Expr.Formed.call callee args _ called _ _ =>
    change BeginsSolid (render (parenthesizedIf callee.needsParentheses (callee.pieces depth) ++
      parenthesized (Expr.listPieces depth args)))
    rw [render_append]
    exact (called.beginsSolid depth).append _
  | .construct _ _ _ => exact beginsSolid_keyword .jdid _
  | @Expr.Formed.named owner name _ inside _ =>
    change BeginsSolid (render (parenthesizedIf owner.needsParentheses (owner.pieces depth) ++
      Property.pieces depth (.named name)))
    rw [render_append]
    exact (inside.beginsSolid depth).append _
  | @Expr.Formed.computed owner key _ inside _ =>
    change BeginsSolid (render (parenthesizedIf owner.needsParentheses (owner.pieces depth) ++
      Property.pieces depth (.computed key)))
    rw [render_append]
    exact (inside.beginsSolid depth).append _
  | .identifier isName =>
    have begins := beginsSolid_word isName.isWord []
    rwa [word, isName.kind] at begins
  | .number fields => exact beginsSolid_number fields []
  | .string => exact ⟨'"', _, rfl, by decide⟩
  | @Expr.Formed.boolean true => exact ⟨'s', _, rfl, by decide⟩
  | @Expr.Formed.boolean false => exact ⟨'g', _, rfl, by decide⟩
  | .null => exact beginsSolid_keyword .farkha []
  | .undefined => exact beginsSolid_keyword .mchmcha []
  | .this => exact beginsSolid_keyword .hadi []
  | .array _ => exact beginsSolid_sign (by decide) _
  | .object _ => exact beginsSolid_sign (by decide) _
termination_by structural h

/-! ### Parts of statements -/

section

variable (depth : Nat) {rest : List Piece}

theorem mem_operatorTexts_assignment (op : AssignmentOp) : op.text ∈ operatorTexts := by
  cases op <;> decide

theorem mem_operatorTexts_binary (op : BinaryOp) : op.text ∈ operatorTexts := by
  cases op <;> decide

theorem mem_operatorTexts_connective (op : Connective) : op.text ∈ operatorTexts := by
  cases op <;> decide

theorem mem_operatorTexts_step (op : StepOp) : op.text ∈ operatorTexts := by
  cases op <;> decide

/-- An operator of two operands stands between spaces. -/
theorem lexes_between {text : String} (mem : text ∈ operatorTexts) (h : Lexes rest) :
    Lexes (space :: operator text :: space :: rest) :=
  .space (.operator mem (.space h) closes_space.noOperator)

theorem lexes_statements {body : List Stmt} (inside : ∀ stmt ∈ body, stmt.Separated)
    (h : Lexes rest) : Lexes (Stmt.listPieces depth body ++ rest) := by
  induction body with
  | nil => exact h
  | cons stmt body ih =>
    obtain ⟨first, others⟩ := List.forall_mem_cons.mp inside
    rw [Stmt.listPieces, List.cons_append, List.cons_append, List.append_assoc]
    exact .line depth (first (ih others))

/-- Statements between braces. -/
theorem lexes_block {body : List Stmt} (inside : ∀ stmt ∈ body, stmt.Separated) (h : Lexes rest) :
    Lexes (sign '\x7b' :: (Stmt.listPieces (depth + 1) body ++ line depth :: sign '\x7d' :: rest)) :=
  .sign (by decide) (lexes_statements (depth + 1) inside (.line depth (.sign (by decide) h)))

theorem lexes_value {value : Option Expr} (written : ∀ expr ∈ value, expr.Separated)
    (h : Lexes rest) (closes : Closes (render rest)) :
    Lexes (Stmt.valuePieces depth value ++ rest) ∧
      Closes (render (Stmt.valuePieces depth value ++ rest)) := by
  cases value with
  | none => exact ⟨h, closes⟩
  | some value => exact
    ⟨lexes_between (by decide) (written value rfl h (closes.behind value)), closes_space⟩

/-- A declaration without its semicolon. -/
theorem lexes_declaration {kind : DeclarationKind} {name : Identifier} {value : Option Expr}
    (isName : IsName name.name) (written : ∀ expr ∈ value, expr.Separated) (h : Lexes rest)
    (closes : Closes (render rest)) :
    Lexes (keyword kind.keyword :: space :: token .identifier name.name ::
      (Stmt.valuePieces depth value ++ rest)) := by
  obtain ⟨others, follows⟩ := lexes_value depth written h closes
  exact .keyword _ (.space (others.identifier isName.isWord isName.kind follows.follows))
    closes_space.follows

theorem lexes_optional {expr : Option Expr} (inside : ∀ written ∈ expr, written.Separated)
    (h : Lexes rest) (closes : Closes (render rest)) :
    Lexes (Expr.optionalPieces depth expr ++ rest) := by
  cases expr with
  | none => exact h
  | some expr => exact inside expr rfl h (closes.behind expr)

theorem lexes_alternate {alternate : Option Stmt} (inside : ∀ stmt ∈ alternate, stmt.Separated)
    (h : Lexes rest) : Lexes (Stmt.alternatePieces depth alternate ++ rest) := by
  cases alternate with
  | none => exact h
  | some stmt =>
    exact .space (.keyword .ella (.space (inside stmt rfl h)) closes_space.follows)

theorem lexes_start {start : Option Stmt} (simple : ∀ stmt ∈ start, stmt.isStart = true)
    (inside : ∀ stmt ∈ start, stmt.Separated) (h : Lexes rest) :
    Lexes (Stmt.startPieces depth start ++ sign ';' :: rest) := by
  cases start with
  | none => exact h.sign (by decide)
  | some stmt =>
    rw [startPieces_append (simple stmt rfl)]
    exact inside stmt rfl h

theorem lexes_handler {handler : Option (Identifier × List Stmt)}
    (isName : ∀ handling ∈ handler, IsName handling.1.name)
    (inside : ∀ handling ∈ handler, ∀ stmt ∈ handling.2, stmt.Separated) (h : Lexes rest) :
    Lexes (Stmt.handlerPieces depth handler ++ rest) := by
  match handler with
  | none => exact h
  | some (name, body) =>
    have block := lexes_block depth (inside (name, body) rfl) h
    have isName : IsName name.name := isName (name, body) rfl
    have named {rest : List Piece} (h : Lexes rest) (closes : Closes (render rest)) :
        Lexes ([token .identifier name.name] ++ rest) :=
      h.identifier isName.isWord isName.kind closes.follows
    have written := lexes_parenthesized named (.space block)
    rw [Stmt.handlerPieces, Stmt.handlerBodyPieces]
    simp only [List.append_assoc, List.cons_append, List.nil_append] at written ⊢
    exact .space (.keyword _ (.space written) closes_space.follows)

theorem lexes_finalizer {finalizer : Option (List Stmt)}
    (inside : ∀ final ∈ finalizer, ∀ stmt ∈ final, stmt.Separated) (h : Lexes rest) :
    Lexes (Stmt.finalizerPieces depth finalizer ++ rest) := by
  match finalizer with
  | none => exact h
  | some body =>
    have block := lexes_block depth (inside body rfl) h
    rw [Stmt.finalizerPieces]
    simp only [List.append_assoc, List.cons_append, List.nil_append]
    exact .space (.keyword _ (.space block) closes_space.follows)

theorem lexes_clauses {cases : List Case}
    (tested : ∀ clause ∈ cases, ∀ test ∈ clause.test, test.Separated)
    (inside : ∀ clause ∈ cases, ∀ stmt ∈ clause.body, stmt.Separated) (h : Lexes rest) :
    Lexes (Case.listPieces depth cases ++ rest) := by
  induction cases with
  | nil => exact h
  | cons clause others ih =>
    obtain ⟨first, tests⟩ := List.forall_mem_cons.mp tested
    obtain ⟨first', bodies⟩ := List.forall_mem_cons.mp inside
    have body := lexes_statements (depth + 2) first' (ih tests bodies)
    obtain ⟨test, stmts⟩ := clause
    rw [Case.listPieces, Case.pieces]
    simp only [List.append_assoc, List.cons_append, Case.body] at body ⊢
    refine .line _ ?_
    cases test with
    | none => exact .keyword _ (.sign (by decide) body) (closes_sign (by decide)).follows
    | some test =>
      refine .keyword _ (.space (first test rfl (.sign (by decide) body) ?_)) closes_space.follows
      exact (closes_sign (by decide)).behind test

end

/-! ### Trees -/

mutual

/-- The tokens of an expression are found again. -/
theorem Expr.Formed.separated {expr : Expr} (h : expr.Formed) : expr.Separated := by
  match h with
  | .assign _ place written =>
    intro depth rest lexes behind
    have closes := behind.closes rfl
    rw [Expr.pieces]
    simp only [List.append_assoc, List.cons_append, List.nil_append]
    refine place.separated (lexes_between (mem_operatorTexts_assignment _) ?_) (closes_space.behind _)
    exact written.separated lexes (closes.behind _)
  | .logical first second =>
    intro depth rest lexes behind
    rw [Expr.pieces]
    simp only [List.append_assoc, List.cons_append, List.nil_append]
    refine first.separated.operand depth (lexes_between (mem_operatorTexts_connective _) ?_) closes_space.follows
    exact second.separated.operand depth lexes behind.follows
  | .binary first second =>
    intro depth rest lexes behind
    rw [Expr.pieces]
    simp only [List.append_assoc, List.cons_append, List.nil_append]
    refine first.separated.operand depth (lexes_between (mem_operatorTexts_binary _) ?_) closes_space.follows
    exact second.separated.operand depth lexes behind.follows
  | @Expr.Formed.unary op _ inside =>
    intro depth rest lexes behind
    have operand := inside.separated.operand depth lexes behind.follows
    have ends := ((inside.beginsSolid depth).append (render rest)).noOperator
    rw [← render_append] at ends
    rw [Expr.pieces, List.append_assoc]
    cases op with
    | not => exact .operator (by decide) operand ends
    | negate => exact .operator (by decide) operand ends
    | toNumber => exact .operator (by decide) operand ends
    | typeOf => exact .keyword _ (.space operand) closes_space.follows
  | @Expr.Formed.update op true _ _ _ place =>
    intro depth rest lexes behind
    have operand := place.separated.operand depth lexes behind.follows
    have ends := ((place.beginsSolid depth).append (render rest)).noOperator
    rw [← render_append] at ends
    exact .operator (mem_operatorTexts_step op) operand ends
  | @Expr.Formed.update op false _ _ _ place =>
    intro depth rest lexes behind
    rw [Expr.pieces, List.append_assoc]
    refine place.separated.operand depth (.operator (mem_operatorTexts_step op) lexes ?_)
      (follows_update op)
    exact (behind.closes rfl).noOperator
  | .call called passed _ =>
    intro depth rest lexes behind
    rw [Expr.pieces, List.append_assoc]
    refine called.separated.operand depth (lexes_parenthesized ?_ lexes) (follows_opening (by decide))
    exact lexes_list depth fun arg mem => (passed arg mem).separated
  | @Expr.Formed.construct _ args _ called passed _ =>
    intro depth rest lexes behind
    rw [Expr.pieces]
    simp only [List.append_assoc, List.cons_append]
    refine .keyword _ (.space ?_) closes_space.follows
    have written := lexes_parenthesized
      (lexes_list depth fun arg mem => (passed arg mem).separated) lexes
    refine called.separated.parenthesizedIf depth written fun plain => ?_
    have follows : Follows (render (parenthesized (Expr.listPieces depth args) ++ rest)) :=
      follows_opening (by decide)
    exact follows.behind (needsParentheses_of_isPlainChain (by simpa using plain))
  | .named inside isWord =>
    intro depth rest lexes behind
    rw [Expr.pieces, List.append_assoc]
    refine inside.separated.operand depth ?_ (follows_member isWord behind.follows)
    exact .sign (by decide) (lexes.word isWord behind.follows)
  | .computed inside selected =>
    intro depth rest lexes behind
    rw [Expr.pieces, List.append_assoc, Property.pieces]
    simp only [List.append_assoc, List.cons_append, List.nil_append]
    refine inside.separated.operand depth (.sign (by decide) ?_) (follows_opening (by decide))
    refine selected.separated (.sign (by decide) lexes) ?_
    exact (closes_sign (by decide)).behind _
  | .identifier isName =>
    intro depth rest lexes behind
    exact lexes.identifier isName.isWord isName.kind behind.follows
  | .number fields =>
    intro depth rest lexes behind
    exact lexes_number fields lexes behind.follows
  | .string =>
    intro depth rest lexes behind
    exact .string _ lexes
  | .boolean =>
    intro depth rest lexes behind
    exact lexes_boolean _ lexes behind.follows
  | .null =>
    intro depth rest lexes behind
    exact .keyword .farkha lexes behind.follows
  | .undefined =>
    intro depth rest lexes behind
    exact .keyword .mchmcha lexes behind.follows
  | .this =>
    intro depth rest lexes behind
    exact .keyword .hadi lexes behind.follows
  | .array inside =>
    intro depth rest lexes behind
    rw [Expr.pieces, List.cons_append, List.cons_append, List.append_assoc]
    refine .sign (by decide) (lexes_list depth (fun element mem => (inside element mem).separated) ?_ ?_)
    · exact .sign (by decide) lexes
    · exact closes_sign (by decide)
  | .object inside =>
    intro depth rest lexes behind
    rw [Expr.pieces, List.cons_append, List.cons_append, List.append_assoc]
    refine .sign (by decide) (lexes_entries depth (fun entry mem => (inside entry mem).separated) ?_ ?_)
    · exact .sign (by decide) lexes
    · exact closes_sign (by decide)
  | .function written =>
    intro depth rest lexes behind
    exact written.separated lexes
termination_by structural h

/-- The tokens of a function are found again. -/
theorem Function.Formed.separated {f : Function} (h : f.Formed) {depth : Nat} {rest : List Piece}
    (lexes : Lexes rest) : Lexes (f.pieces depth ++ rest) := by
  match h with
  | @Function.Formed.mk name _ _ _ own listed _ inside =>
    have block := lexes_block depth (fun stmt mem => (inside stmt mem).separated) lexes
    have params := lexes_parenthesized (lexes_names listed) (.space block)
    cases name with
    | none =>
      simp only [Function.pieces, List.append_assoc, List.cons_append, List.nil_append] at params ⊢
      exact .keyword _ params (follows_opening (by decide))
    | some name =>
      have isName := own name rfl
      simp only [Function.pieces, List.append_assoc, List.cons_append, List.nil_append] at params ⊢
      refine .keyword _ (.space (params.identifier isName.isWord isName.kind ?_)) closes_space.follows
      exact follows_opening (by decide)
termination_by structural h

/-- The tokens of a statement are found again. -/
theorem Stmt.Formed.separated {stmt : Stmt} {around : Surroundings} (h : stmt.Formed around) :
    stmt.Separated := by
  match h with
  | .constant isName written =>
    intro depth rest lexes
    rw [Stmt.pieces]
    simp only [List.append_assoc, List.cons_append, List.nil_append]
    exact lexes_declaration depth isName (by simpa using written.separated) (.sign (by decide) lexes)
      (closes_sign (by decide))
  | .variable isName written =>
    intro depth rest lexes
    rw [Stmt.pieces]
    simp only [List.append_assoc, List.cons_append, List.nil_append]
    exact lexes_declaration depth isName (fun expr mem => (written expr mem).separated)
      (.sign (by decide) lexes) (closes_sign (by decide))
  | .defineFunction _ written =>
    intro depth rest lexes
    exact written.separated lexes
  | .block inside =>
    intro depth rest lexes
    rw [Stmt.pieces]
    simp only [List.append_assoc, List.cons_append, List.nil_append]
    exact lexes_block depth (fun stmt mem => (inside stmt mem).separated) lexes
  | .conditional tested branch other _ =>
    intro depth rest lexes
    have alternate := lexes_alternate depth
      (fun stmt mem => (other stmt mem).separated) lexes
    rw [Stmt.pieces]
    simp only [List.append_assoc, List.cons_append]
    refine .keyword _ (.space (lexes_parenthesized ?_ (.space ?_))) closes_space.follows
    · exact fun h closes => tested.separated h (closes.behind _)
    · exact branch.separated alternate
  | .whileLoop tested repeated =>
    intro depth rest lexes
    rw [Stmt.pieces]
    simp only [List.append_assoc, List.cons_append]
    refine .keyword _ (.space (lexes_parenthesized ?_ (.space ?_))) closes_space.follows
    · exact fun h closes => tested.separated h (closes.behind _)
    · exact repeated.separated lexes
  | @Stmt.Formed.doWhileLoop _ test _ repeated tested =>
    intro depth rest lexes
    have last : Lexes (parenthesized (test.pieces depth) ++ sign ';' :: rest) :=
      lexes_parenthesized (fun h closes => tested.separated h (closes.behind _))
        (lexes.sign (by decide))
    rw [Stmt.pieces]
    simp only [List.append_assoc, List.cons_append, List.nil_append]
    refine .keyword _ (.space (repeated.separated (.space ?_))) closes_space.follows
    exact .keyword _ (.space last) closes_space.follows
  | @Stmt.Formed.forLoop _ _ _ _ body simple begins tested updated repeated =>
    intro depth rest lexes
    have body : Lexes (body.pieces depth ++ rest) := repeated.separated lexes
    have update := lexes_optional depth (fun expr mem => (updated expr mem).separated)
      (.sign (c := ')') (by decide) (.space body)) (closes_sign (by decide))
    have test := lexes_optional depth (fun expr mem => (tested expr mem).separated)
      (.sign (c := ';') (by decide) (.space update)) (closes_sign (by decide))
    have start := lexes_start depth simple
      (fun stmt mem => (begins stmt mem).separated) (.space test)
    rw [Stmt.pieces]
    simp only [List.append_assoc, List.cons_append]
    exact .keyword _ (.space (.sign (by decide) start)) closes_space.follows
  | .attempt inside _ isName handles closing =>
    intro depth rest lexes
    have final := lexes_finalizer depth
      (fun final mem stmt mem' => (closing final mem stmt mem').separated) lexes
    have handled := lexes_handler depth isName
      (fun handling mem stmt mem' => (handles handling mem stmt mem').separated) final
    have block := lexes_block depth (fun stmt mem => (inside stmt mem).separated) handled
    rw [Stmt.pieces]
    simp only [List.append_assoc, List.cons_append, List.nil_append]
    exact .keyword _ (.space block) closes_space.follows
  | .choice chosen tested inside _ =>
    intro depth rest lexes
    have clauses := lexes_clauses depth
      (fun clause mem test mem' => (tested clause mem test mem').separated)
      (fun clause mem stmt mem' => (inside clause mem stmt mem').separated)
      (.line depth (lexes.sign (c := '\x7d') (by decide)))
    rw [Stmt.pieces]
    simp only [List.append_assoc, List.cons_append, List.nil_append]
    refine .keyword _ (.space (lexes_parenthesized ?_ (.space ?_))) closes_space.follows
    · exact fun h closes => chosen.separated h (closes.behind _)
    · exact .sign (by decide) clauses
  | @Stmt.Formed.giveBack _ none _ _ =>
    intro depth rest lexes
    exact .keyword _ (.sign (by decide) lexes) (closes_sign (by decide)).follows
  | @Stmt.Formed.giveBack _ (some value) _ written =>
    intro depth rest lexes
    rw [Stmt.pieces]
    simp only [List.append_assoc, List.cons_append, List.nil_append]
    refine .keyword _ (.space ((written value rfl).separated ?_ ?_)) closes_space.follows
    · exact .sign (by decide) lexes
    · exact (closes_sign (by decide)).behind value
  | .leave _ =>
    intro depth rest lexes
    exact .keyword _ (.sign (by decide) lexes) (closes_sign (by decide)).follows
  | .next _ =>
    intro depth rest lexes
    exact .keyword _ (.sign (by decide) lexes) (closes_sign (by decide)).follows
  | .evaluate written =>
    intro depth rest lexes
    rw [Stmt.pieces, List.append_assoc]
    refine written.separated.parenthesizedIf depth (.sign (by decide) lexes) fun _ => ?_
    exact (closes_sign (by decide)).behind _
  | .empty =>
    intro depth rest lexes
    exact .sign (by decide) lexes
termination_by structural h

end

/-- The tokens of a program are found again. -/
theorem lexes_program {program : List Stmt} {around : Surroundings}
    (formed : ∀ stmt ∈ program, stmt.Formed around) : Lexes (programPieces program) := by
  unfold programPieces
  induction program with
  | nil => exact lexes_nil
  | cons stmt program ih =>
    obtain ⟨first, others⟩ := List.forall_mem_cons.mp formed
    rw [List.flatMap_cons, List.append_assoc]
    exact first.separated (.line 0 (ih others))

end DarijaScript
