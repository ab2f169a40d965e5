import DarijaScript.Proofs.Grammar.Phrase
import DarijaScript.Syntax.Printer

/-!
# Trees that differ in positions only

Two trees that differ in nothing but the positions in them have the same shape and are written in the
same way.
-/

namespace DarijaScript

/-- The lists are equally long and hold related things at the same places. -/
inductive Pairwise {α : Type} (Related : α → α → Prop) : List α → List α → Prop
  | nil : Pairwise Related [] []
  | cons {a b : α} {as bs : List α} (first : Related a b) (rest : Pairwise Related as bs) :
      Pairwise Related (a :: as) (b :: bs)

/-- Both things are left out, or they are related. -/
inductive Perhaps {α : Type} (Related : α → α → Prop) : Option α → Option α → Prop
  | none : Perhaps Related none none
  | some {a b : α} (thing : Related a b) : Perhaps Related (some a) (some b)

/-- The same name. -/
abbrev Identifier.Alike (name name' : Identifier) : Prop := name.name = name'.name

mutual

/-- The expressions differ in positions only. -/
inductive Expr.Alike : Expr → Expr → Prop
  | assign {op : AssignmentOp} {target target' value value' : Expr} {position position' : Position}
      (place : target.Alike target') (written : value.Alike value') :
      Expr.Alike (.assign op target value position) (.assign op target' value' position')
  | logical {op : Connective} {left left' right right' : Expr} (first : left.Alike left')
      (second : right.Alike right') : Expr.Alike (.logical op left right) (.logical op left' right')
  | binary {op : BinaryOp} {left left' right right' : Expr} (first : left.Alike left')
      (second : right.Alike right') : Expr.Alike (.binary op left right) (.binary op left' right')
  | unary {op : UnaryOp} {operand operand' : Expr} (inside : operand.Alike operand') :
      Expr.Alike (.unary op operand) (.unary op operand')
  | update {op : StepOp} {before : Bool} {target target' : Expr} {position position' : Position}
      (place : target.Alike target') :
      Expr.Alike (.update op before target position) (.update op before target' position')
  | call {callee callee' : Expr} {args args' : List Expr} {position position' : Position}
      (called : callee.Alike callee') (passed : Pairwise Expr.Alike args args') :
      Expr.Alike (.call callee args position) (.call callee' args' position')
  | construct {callee callee' : Expr} {args args' : List Expr} {position position' : Position}
      (called : callee.Alike callee') (passed : Pairwise Expr.Alike args args') :
      Expr.Alike (.construct callee args position) (.construct callee' args' position')
  | named {owner owner' : Expr} {name : String} {position position' : Position}
      (inside : owner.Alike owner') :
      Expr.Alike (.member owner (.named name) position) (.member owner' (.named name) position')
  | computed {owner owner' key key' : Expr} {position position' : Position}
      (inside : owner.Alike owner') (selected : key.Alike key') :
      Expr.Alike (.member owner (.computed key) position) (.member owner' (.computed key') position')
  | identifier {name name' : Identifier} (named : name.Alike name') :
      Expr.Alike (.identifier name) (.identifier name')
  | literal {value : Literal} (itself : value.same value = true) :
      Expr.Alike (.literal value) (.literal value)
  | this : Expr.Alike .this .this
  | array {elements elements' : List Expr} (inside : Pairwise Expr.Alike elements elements') :
      Expr.Alike (.array elements) (.array elements')
  | object {entries entries' : List (String × Expr)} (inside : Pairwise Entry.Alike entries entries') :
      Expr.Alike (.object entries) (.object entries')
  | function {f f' : Function} (written : f.Alike f') : Expr.Alike (.function f) (.function f')

/-- The fields have the same key, and their values differ in positions only. -/
inductive Entry.Alike : String × Expr → String × Expr → Prop
  | mk {key : String} {value value' : Expr} (written : value.Alike value') :
      Entry.Alike (key, value) (key, value')

/-- The functions differ in positions only. -/
inductive Function.Alike : Function → Function → Prop
  | mk {name name' : Option Identifier} {params params' : List Identifier} {body body' : List Stmt}
      {origin origin' : Origin} (named : Perhaps Identifier.Alike name name')
      (listed : Pairwise Identifier.Alike params params')
      (inside : Pairwise Stmt.Alike body body') :
      Function.Alike (.mk name params body origin) (.mk name' params' body' origin')

/-- The statements differ in positions only. -/
inductive Stmt.Alike : Stmt → Stmt → Prop
  | declare {kind : DeclarationKind} {name name' : Identifier} {value value' : Option Expr}
      (named : name.Alike name') (written : Perhaps Expr.Alike value value') :
      Stmt.Alike (.declare kind name value) (.declare kind name' value')
  | defineFunction {f f' : Function} (written : f.Alike f') :
      Stmt.Alike (.defineFunction f) (.defineFunction f')
  | block {body body' : List Stmt} (inside : Pairwise Stmt.Alike body body') :
      Stmt.Alike (.block body) (.block body')
  | conditional {test test' : Expr} {consequent consequent' : Stmt}
      {alternate alternate' : Option Stmt} (tested : test.Alike test')
      (branch : consequent.Alike consequent') (other : Perhaps Stmt.Alike alternate alternate') :
      Stmt.Alike (.conditional test consequent alternate)
        (.conditional test' consequent' alternate')
  | whileLoop {test test' : Expr} {body body' : Stmt} (tested : test.Alike test')
      (repeated : body.Alike body') : Stmt.Alike (.whileLoop test body) (.whileLoop test' body')
  | doWhileLoop {test test' : Expr} {body body' : Stmt} (repeated : body.Alike body')
      (tested : test.Alike test') : Stmt.Alike (.doWhileLoop body test) (.doWhileLoop body' test')
  | forLoop {start start' : Option Stmt} {test test' update update' : Option Expr}
      {body body' : Stmt} (begins : Perhaps Stmt.Alike start start')
      (tested : Perhaps Expr.Alike test test') (updated : Perhaps Expr.Alike update update')
      (repeated : body.Alike body') :
      Stmt.Alike (.forLoop start test update body) (.forLoop start' test' update' body')
  | attempt {body body' : List Stmt} {handler handler' : Option (Identifier × List Stmt)}
      {finalizer finalizer' : Option (List Stmt)} (inside : Pairwise Stmt.Alike body body')
      (handles : Perhaps Handler.Alike handler handler')
      (closing : Perhaps (Pairwise Stmt.Alike) finalizer finalizer') :
      Stmt.Alike (.attempt body handler finalizer) (.attempt body' handler' finalizer')
  | choice {subject subject' : Expr} {cases cases' : List Case} (chosen : subject.Alike subject')
      (clauses : Pairwise Case.Alike cases cases') :
      Stmt.Alike (.choice subject cases) (.choice subject' cases')
  | giveBack {value value' : Option Expr} (written : Perhaps Expr.Alike value value') :
      Stmt.Alike (.giveBack value) (.giveBack value')
  | leave : Stmt.Alike .leave .leave
  | next : Stmt.Alike .next .next
  | evaluate {expr expr' : Expr} (written : expr.Alike expr') :
      Stmt.Alike (.evaluate expr) (.evaluate expr')
  | empty : Stmt.Alike .empty .empty

/-- The handlers have the same name, and their statements differ in positions only. -/
inductive Handler.Alike : Identifier × List Stmt → Identifier × List Stmt → Prop
  | mk {name name' : Identifier} {body body' : List Stmt} (named : name.Alike name')
      (inside : Pairwise Stmt.Alike body body') : Handler.Alike (name, body) (name', body')

/-- The clauses differ in positions only. -/
inductive Case.Alike : Case → Case → Prop
  | mk {test test' : Option Expr} {body body' : List Stmt}
      (tested : Perhaps Expr.Alike test test') (inside : Pairwise Stmt.Alike body body') :
      Case.Alike (.mk test body) (.mk test' body')

end

/-! ### Names -/

theorem sameNames_of_alike {names names' : List Identifier}
    (h : Pairwise Identifier.Alike names names') : sameNames names names' = true := by
  induction h with
  | nil => rfl
  | cons first _ ih => simp [sameNames, first, ih]

theorem namePieces_of_alike {names names' : List Identifier}
    (h : Pairwise Identifier.Alike names names') : namePieces names' = namePieces names := by
  induction h with
  | nil => rfl
  | cons first rest ih =>
    cases rest with
    | nil => simp [namePieces, first]
    | cons => simpa [namePieces, first] using ih

theorem sameName?_of_alike {name name' : Option Identifier}
    (h : Perhaps Identifier.Alike name name') : sameName? name name' = true := by
  cases h with
  | none => rfl
  | some same => simpa [sameName?] using same

/-! ### The shape -/

mutual

theorem Expr.Alike.same {expr expr' : Expr} (h : expr.Alike expr') :
    expr.sameShape expr' = true := by
  match h with
  | .assign place written => simp [Expr.sameShape, place.same, written.same]
  | .logical first second => simp [Expr.sameShape, first.same, second.same]
  | .binary first second => simp [Expr.sameShape, first.same, second.same]
  | .unary inside => simp [Expr.sameShape, inside.same]
  | .update place => simp [Expr.sameShape, place.same]
  | .call called passed => simp [Expr.sameShape, called.same, sameShapes_of_alike passed]
  | .construct called passed => simp [Expr.sameShape, called.same, sameShapes_of_alike passed]
  | .named inside => simp [Expr.sameShape, Property.sameShape, inside.same]
  | .computed inside selected => simp [Expr.sameShape, Property.sameShape, inside.same, selected.same]
  | .identifier isName => simpa [Expr.sameShape] using isName
  | .literal itself => simpa [Expr.sameShape] using itself
  | .this => rfl
  | .array inside => simp [Expr.sameShape, sameShapes_of_alike inside]
  | .object inside => simp [Expr.sameShape, sameEntries_of_alike inside]
  | .function written => simp [Expr.sameShape, written.same]
termination_by structural h

theorem sameShapes_of_alike {exprs exprs' : List Expr} (h : Pairwise Expr.Alike exprs exprs') :
    Expr.sameShapes exprs exprs' = true := by
  match h with
  | .nil => rfl
  | .cons first rest => simp [Expr.sameShapes, first.same, sameShapes_of_alike rest]
termination_by structural h

theorem sameEntries_of_alike {entries entries' : List (String × Expr)}
    (h : Pairwise Entry.Alike entries entries') : Expr.sameEntries entries entries' = true := by
  match h with
  | .nil => rfl
  | .cons first rest => simp [Expr.sameEntries, first.same, sameEntries_of_alike rest]
termination_by structural h

theorem Entry.Alike.same {entry entry' : String × Expr} (h : Entry.Alike entry entry') :
    Expr.sameEntry entry entry' = true := by
  match h with
  | @Entry.Alike.mk key value value' written =>
    have same : (key == key && value.sameShape value') = true := by simp [written.same]
    exact same
termination_by structural h

theorem sameShape?_of_alike {expr expr' : Option Expr} (h : Perhaps Expr.Alike expr expr') :
    Expr.sameShape? expr expr' = true := by
  match h with
  | .none => rfl
  | .some same => exact same.same
termination_by structural h

theorem Function.Alike.same {f f' : Function} (h : f.Alike f') : f.sameShape f' = true := by
  match h with
  | .mk own listed inside =>
    simp [Function.sameShape, sameName?_of_alike own, sameNames_of_alike listed,
      sameStatements_of_alike inside]
termination_by structural h

theorem Stmt.Alike.same {stmt stmt' : Stmt} (h : stmt.Alike stmt') :
    stmt.sameShape stmt' = true := by
  match h with
  | .declare isName written =>
    have isName : _ = _ := isName
    simp [Stmt.sameShape, isName, sameShape?_of_alike written]
  | .defineFunction written => simp [Stmt.sameShape, written.same]
  | .block inside => simp [Stmt.sameShape, sameStatements_of_alike inside]
  | .conditional tested branch other =>
    simp [Stmt.sameShape, tested.same, branch.same, sameStatement?_of_alike other]
  | .whileLoop tested repeated => simp [Stmt.sameShape, tested.same, repeated.same]
  | .doWhileLoop repeated tested => simp [Stmt.sameShape, tested.same, repeated.same]
  | .forLoop begins tested updated repeated =>
    simp [Stmt.sameShape, sameStatement?_of_alike begins, sameShape?_of_alike tested,
      sameShape?_of_alike updated, repeated.same]
  | .attempt inside handles closing =>
    simp [Stmt.sameShape, sameStatements_of_alike inside, sameHandler?_of_alike handles,
      sameBody?_of_alike closing]
  | .choice chosen clauses => simp [Stmt.sameShape, chosen.same, sameCases_of_alike clauses]
  | .giveBack written => simp [Stmt.sameShape, sameShape?_of_alike written]
  | .leave => rfl
  | .next => rfl
  | .evaluate written => simp [Stmt.sameShape, written.same]
  | .empty => rfl
termination_by structural h

theorem sameStatements_of_alike {body body' : List Stmt} (h : Pairwise Stmt.Alike body body') :
    Stmt.sameShapes body body' = true := by
  match h with
  | .nil => rfl
  | .cons first rest => simp [Stmt.sameShapes, first.same, sameStatements_of_alike rest]
termination_by structural h

theorem sameStatement?_of_alike {stmt stmt' : Option Stmt} (h : Perhaps Stmt.Alike stmt stmt') :
    Stmt.sameShape? stmt stmt' = true := by
  match h with
  | .none => rfl
  | .some same => exact same.same
termination_by structural h

theorem sameBody?_of_alike {body body' : Option (List Stmt)}
    (h : Perhaps (Pairwise Stmt.Alike) body body') : Stmt.sameBody? body body' = true := by
  match h with
  | .none => rfl
  | .some same => exact sameStatements_of_alike same
termination_by structural h

theorem sameHandler?_of_alike {handler handler' : Option (Identifier × List Stmt)}
    (h : Perhaps Handler.Alike handler handler') :
    Stmt.sameHandler? handler handler' = true := by
  match h with
  | .none => rfl
  | .some same => exact same.same
termination_by structural h

theorem Handler.Alike.same {handler handler' : Identifier × List Stmt}
    (h : Handler.Alike handler handler') : Stmt.sameHandler handler handler' = true := by
  match h with
  | @Handler.Alike.mk name name' body body' isName inside =>
    have isName : name.name = name'.name := isName
    have same : (name.name == name'.name && Stmt.sameShapes body body') = true := by
      simp [isName, sameStatements_of_alike inside]
    exact same
termination_by structural h

theorem sameCases_of_alike {cases cases' : List Case} (h : Pairwise Case.Alike cases cases') :
    Case.sameShapes cases cases' = true := by
  match h with
  | .nil => rfl
  | .cons first rest => simp [Case.sameShapes, first.same, sameCases_of_alike rest]
termination_by structural h

theorem Case.Alike.same {clause clause' : Case} (h : clause.Alike clause') :
    clause.sameShape clause' = true := by
  match h with
  | .mk tested inside =>
    simp [Case.sameShape, sameShape?_of_alike tested, sameStatements_of_alike inside]
termination_by structural h

end

/-! ### What reading and writing depend on -/

theorem Expr.Alike.needsParentheses {expr expr' : Expr} (h : expr.Alike expr') :
    expr'.needsParentheses = expr.needsParentheses := by
  cases h <;> rfl

theorem Expr.Alike.isReference {expr expr' : Expr} (h : expr.Alike expr') :
    expr'.isReference = expr.isReference := by
  cases h <;> rfl

theorem Expr.Alike.isPlainChain {expr expr' : Expr} (h : expr.Alike expr') :
    expr'.isPlainChain = expr.isPlainChain := by
  match h with
  | .named inside => exact inside.isPlainChain
  | .computed inside _ => exact inside.isPlainChain
  | .assign .. | .logical .. | .binary .. | .unary .. | .update .. | .call .. | .construct ..
  | .identifier .. | .literal .. | .this | .array .. | .object .. | .function .. => rfl
termination_by structural h

theorem Stmt.Alike.isStart {stmt stmt' : Stmt} (h : stmt.Alike stmt') :
    stmt'.isStart = stmt.isStart := by
  cases h <;> rfl

theorem Stmt.Alike.endsOpen {stmt stmt' : Stmt} (h : stmt.Alike stmt') :
    stmt'.endsOpen = stmt.endsOpen := by
  match h with
  | .conditional _ _ .none => rfl
  | .conditional _ _ (.some other) => exact other.endsOpen
  | .whileLoop _ repeated => exact repeated.endsOpen
  | .forLoop _ _ _ repeated => exact repeated.endsOpen
  | .declare .. | .defineFunction .. | .block .. | .doWhileLoop .. | .attempt .. | .choice ..
  | .giveBack .. | .leave | .next | .evaluate .. | .empty => rfl
termination_by structural h

theorem needsParentheses_of_isReference {expr : Expr} (place : expr.isReference = true) :
    expr.needsParentheses = false := by
  cases expr <;> first | rfl | cases place

theorem needsParentheses_of_isPlainChain {expr : Expr} (plain : expr.isPlainChain = true) :
    expr.needsParentheses = false := by
  cases expr <;> first | rfl | cases plain

/-! ### The written text -/

theorem Perhaps.isSome_eq {α : Type} {Related : α → α → Prop} {a b : Option α}
    (h : Perhaps Related a b) : b.isSome = a.isSome := by
  cases h <;> rfl

theorem Pairwise.length_eq {α : Type} {Related : α → α → Prop} {as bs : List α}
    (h : Pairwise Related as bs) : bs.length = as.length := by
  induction h with
  | nil => rfl
  | cons _ _ ih => rw [List.length_cons, List.length_cons, ih]

theorem Pairwise.nil_iff {α : Type} {Related : α → α → Prop} {as bs : List α}
    (h : Pairwise Related as bs) : bs = [] ↔ as = [] := by
  cases h <;> simp

theorem listPieces_congr {depth : Nat} {expr expr' : Expr} {exprs exprs' : List Expr}
    (first : expr'.pieces depth = expr.pieces depth) (empty : exprs' = [] ↔ exprs = [])
    (rest : Expr.listPieces depth exprs' = Expr.listPieces depth exprs) :
    Expr.listPieces depth (expr' :: exprs') = Expr.listPieces depth (expr :: exprs) := by
  cases exprs with
  | nil =>
    obtain rfl := empty.mpr rfl
    exact first
  | cons next others =>
    have some : exprs' ≠ [] := fun none => by simp [none] at empty
    obtain ⟨next', others', rfl⟩ := List.exists_cons_of_ne_nil some
    change expr'.pieces depth ++ [Piece.sign ',', Piece.space] ++ _ =
      expr.pieces depth ++ [Piece.sign ',', Piece.space] ++ _
    rw [first, rest]

theorem entriesPieces_congr {depth : Nat} {entry entry' : String × Expr}
    {entries entries' : List (String × Expr)}
    (first : Expr.entryPieces depth entry' = Expr.entryPieces depth entry)
    (empty : entries' = [] ↔ entries = [])
    (rest : Expr.entriesPieces depth entries' = Expr.entriesPieces depth entries) :
    Expr.entriesPieces depth (entry' :: entries') = Expr.entriesPieces depth (entry :: entries) := by
  cases entries with
  | nil =>
    obtain rfl := empty.mpr rfl
    exact first
  | cons next others =>
    have some : entries' ≠ [] := fun none => by simp [none] at empty
    obtain ⟨next', others', rfl⟩ := List.exists_cons_of_ne_nil some
    change Expr.entryPieces depth entry' ++ [Piece.sign ',', Piece.space] ++ _ =
      Expr.entryPieces depth entry ++ [Piece.sign ',', Piece.space] ++ _
    rw [first, rest]

/-- What begins a counting loop is written as the statement that it is. -/
theorem startPieces_append {stmt : Stmt} (simple : stmt.isStart = true) (depth : Nat)
    (rest : List Piece) :
    Stmt.startPieces depth (some stmt) ++ Piece.sign ';' :: rest = stmt.pieces depth ++ rest := by
  cases stmt with
  | declare => simp [Stmt.startPieces, Stmt.pieces]
  | evaluate => simp [Stmt.startPieces, Stmt.pieces]
  | _ => cases simple

theorem startPieces_of_not {stmt : Stmt} (other : stmt.isStart = false) (depth : Nat) :
    Stmt.startPieces depth (some stmt) = stmt.pieces depth := by
  cases stmt with
  | declare => cases other
  | evaluate => cases other
  | _ => rfl

theorem startPieces_congr {stmt stmt' : Stmt} {depth : Nat} (start : stmt'.isStart = stmt.isStart)
    (pieces : stmt'.pieces depth = stmt.pieces depth) :
    Stmt.startPieces depth (some stmt') = Stmt.startPieces depth (some stmt) := by
  cases simple : stmt.isStart with
  | true =>
    have written := startPieces_append simple depth []
    have written' := startPieces_append (start.trans simple) depth []
    rw [pieces, ← written] at written'
    exact List.append_cancel_right written'
  | false => rw [startPieces_of_not simple, startPieces_of_not (start.trans simple), pieces]

mutual

theorem Expr.Alike.pieces {expr expr' : Expr} (h : expr.Alike expr') (depth : Nat) :
    expr'.pieces depth = expr.pieces depth := by
  match h with
  | .assign place written => simp [Expr.pieces, place.pieces, written.pieces]
  | .logical first second =>
    simp [Expr.pieces, first.pieces, first.needsParentheses, second.pieces, second.needsParentheses]
  | .binary first second =>
    simp [Expr.pieces, first.pieces, first.needsParentheses, second.pieces, second.needsParentheses]
  | .unary inside => simp [Expr.pieces, inside.pieces, inside.needsParentheses]
  | @Expr.Alike.update _ true _ _ _ _ place => simp [Expr.pieces, place.pieces, place.needsParentheses]
  | @Expr.Alike.update _ false _ _ _ _ place => simp [Expr.pieces, place.pieces, place.needsParentheses]
  | .call called passed =>
    simp [Expr.pieces, called.pieces, called.needsParentheses, listPieces_of_alike passed]
  | .construct called passed =>
    simp [Expr.pieces, called.pieces, called.isPlainChain, listPieces_of_alike passed]
  | .named inside => simp [Expr.pieces, inside.pieces, inside.needsParentheses]
  | .computed inside selected =>
    simp [Expr.pieces, Property.pieces, inside.pieces, inside.needsParentheses, selected.pieces]
  | @Expr.Alike.identifier name name' isName =>
    have isName : name.name = name'.name := isName
    simp [Expr.pieces, isName]
  | .literal _ => rfl
  | .this => rfl
  | .array inside => simp [Expr.pieces, listPieces_of_alike inside]
  | .object inside => simp [Expr.pieces, entriesPieces_of_alike inside]
  | .function written => simp [Expr.pieces, written.pieces]
termination_by structural h

theorem listPieces_of_alike {exprs exprs' : List Expr} (h : Pairwise Expr.Alike exprs exprs')
    (depth : Nat) : Expr.listPieces depth exprs' = Expr.listPieces depth exprs := by
  match h with
  | .nil => rfl
  | .cons first rest =>
    exact listPieces_congr (first.pieces depth) rest.nil_iff (listPieces_of_alike rest depth)
termination_by structural h

theorem entriesPieces_of_alike {entries entries' : List (String × Expr)}
    (h : Pairwise Entry.Alike entries entries') (depth : Nat) :
    Expr.entriesPieces depth entries' = Expr.entriesPieces depth entries := by
  match h with
  | .nil => rfl
  | .cons first rest =>
    exact entriesPieces_congr (first.pieces depth) rest.nil_iff (entriesPieces_of_alike rest depth)
termination_by structural h

theorem Entry.Alike.pieces {entry entry' : String × Expr} (h : Entry.Alike entry entry')
    (depth : Nat) : Expr.entryPieces depth entry' = Expr.entryPieces depth entry := by
  match h with
  | .mk written => rw [Expr.entryPieces, Expr.entryPieces, written.pieces]
termination_by structural h

theorem optionalPieces_of_alike {expr expr' : Option Expr} (h : Perhaps Expr.Alike expr expr')
    (depth : Nat) : Expr.optionalPieces depth expr' = Expr.optionalPieces depth expr := by
  match h with
  | .none => rfl
  | .some same => exact same.pieces depth
termination_by structural h

theorem Function.Alike.pieces {f f' : Function} (h : f.Alike f') (depth : Nat) :
    f'.pieces depth = f.pieces depth := by
  match h with
  | .mk .none listed inside =>
    simp only [Function.pieces, namePieces_of_alike listed, statementPieces_of_alike inside]
  | .mk (.some (a := name) (b := name') same) listed inside =>
    have same : name.name = name'.name := same
    simp only [Function.pieces, same, namePieces_of_alike listed, statementPieces_of_alike inside]
termination_by structural h

theorem Stmt.Alike.pieces {stmt stmt' : Stmt} (h : stmt.Alike stmt') (depth : Nat) :
    stmt'.pieces depth = stmt.pieces depth := by
  match h with
  | @Stmt.Alike.declare _ name name' _ _ isName written =>
    have isName : name.name = name'.name := isName
    simp [Stmt.pieces, isName, valuePieces_of_alike written]
  | .defineFunction written => simp [Stmt.pieces, written.pieces]
  | .block inside => simp [Stmt.pieces, statementPieces_of_alike inside]
  | .conditional tested branch other =>
    simp [Stmt.pieces, tested.pieces, branch.pieces, alternatePieces_of_alike other]
  | .whileLoop tested repeated => simp [Stmt.pieces, tested.pieces, repeated.pieces]
  | .doWhileLoop repeated tested => simp [Stmt.pieces, tested.pieces, repeated.pieces]
  | .forLoop begins tested updated repeated =>
    simp [Stmt.pieces, startPieces_of_alike begins, optionalPieces_of_alike tested,
      optionalPieces_of_alike updated, repeated.pieces]
  | .attempt inside handles closing =>
    simp [Stmt.pieces, statementPieces_of_alike inside, handlerPieces_of_alike handles,
      finalizerPieces_of_alike closing]
  | .choice chosen clauses => simp [Stmt.pieces, chosen.pieces, casePieces_of_alike clauses]
  | .giveBack .none => rfl
  | .giveBack (.some same) => simp [Stmt.pieces, same.pieces]
  | .leave => rfl
  | .next => rfl
  | .evaluate written => simp [Stmt.pieces, written.pieces]
  | .empty => rfl
termination_by structural h

theorem statementPieces_of_alike {body body' : List Stmt} (h : Pairwise Stmt.Alike body body')
    (depth : Nat) : Stmt.listPieces depth body' = Stmt.listPieces depth body := by
  match h with
  | .nil => rfl
  | .cons first rest => simp [Stmt.listPieces, first.pieces, statementPieces_of_alike rest]
termination_by structural h

theorem valuePieces_of_alike {value value' : Option Expr} (h : Perhaps Expr.Alike value value')
    (depth : Nat) : Stmt.valuePieces depth value' = Stmt.valuePieces depth value := by
  match h with
  | .none => rfl
  | .some same => simp [Stmt.valuePieces, same.pieces]
termination_by structural h

theorem alternatePieces_of_alike {stmt stmt' : Option Stmt} (h : Perhaps Stmt.Alike stmt stmt')
    (depth : Nat) : Stmt.alternatePieces depth stmt' = Stmt.alternatePieces depth stmt := by
  match h with
  | .none => rfl
  | .some same => simp [Stmt.alternatePieces, same.pieces]
termination_by structural h

theorem startPieces_of_alike {stmt stmt' : Option Stmt} (h : Perhaps Stmt.Alike stmt stmt')
    (depth : Nat) : Stmt.startPieces depth stmt' = Stmt.startPieces depth stmt := by
  match h with
  | .none => rfl
  | .some same => exact startPieces_congr same.isStart (same.pieces depth)
termination_by structural h

theorem finalizerPieces_of_alike {body body' : Option (List Stmt)}
    (h : Perhaps (Pairwise Stmt.Alike) body body') (depth : Nat) :
    Stmt.finalizerPieces depth body' = Stmt.finalizerPieces depth body := by
  match h with
  | .none => rfl
  | .some same => simp [Stmt.finalizerPieces, statementPieces_of_alike same]
termination_by structural h

theorem handlerPieces_of_alike {handler handler' : Option (Identifier × List Stmt)}
    (h : Perhaps Handler.Alike handler handler') (depth : Nat) :
    Stmt.handlerPieces depth handler' = Stmt.handlerPieces depth handler := by
  match h with
  | .none => rfl
  | .some same => exact same.pieces depth
termination_by structural h

theorem Handler.Alike.pieces {handler handler' : Identifier × List Stmt}
    (h : Handler.Alike handler handler') (depth : Nat) :
    Stmt.handlerBodyPieces depth handler' = Stmt.handlerBodyPieces depth handler := by
  match h with
  | @Handler.Alike.mk name name' _ _ isName inside =>
    have isName : name.name = name'.name := isName
    rw [Stmt.handlerBodyPieces, Stmt.handlerBodyPieces, isName, statementPieces_of_alike inside]
termination_by structural h

theorem casePieces_of_alike {cases cases' : List Case} (h : Pairwise Case.Alike cases cases')
    (depth : Nat) : Case.listPieces depth cases' = Case.listPieces depth cases := by
  match h with
  | .nil => rfl
  | .cons first rest => simp [Case.listPieces, first.pieces, casePieces_of_alike rest]
termination_by structural h

theorem Case.Alike.pieces {clause clause' : Case} (h : clause.Alike clause') (depth : Nat) :
    clause'.pieces depth = clause.pieces depth := by
  match h with
  | .mk tested inside =>
    simp [Case.pieces, testPieces_of_alike tested, statementPieces_of_alike inside]
termination_by structural h

theorem testPieces_of_alike {test test' : Option Expr} (h : Perhaps Expr.Alike test test')
    (depth : Nat) : Case.testPieces depth test' = Case.testPieces depth test := by
  match h with
  | .none => rfl
  | .some same => simp [Case.testPieces, same.pieces]
termination_by structural h

end

/-- Programs that differ in positions only are written in the same way. -/
theorem programText_of_alike {program program' : List Stmt}
    (h : Pairwise Stmt.Alike program program') : programText program' = programText program := by
  have pieces : programPieces program' = programPieces program := by
    unfold programPieces
    induction h with
    | nil => rfl
    | cons first _ ih => rw [List.flatMap_cons, List.flatMap_cons, first.pieces, ih]
  rw [programText, programText, pieces]

end DarijaScript
