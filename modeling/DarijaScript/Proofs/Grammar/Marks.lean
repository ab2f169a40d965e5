import DarijaScript.Proofs.Printing.RoundTrip
import DarijaScript.Proofs.Syntax.Mark

/-!
# The marks of phrases

Every mark of a tree comes from a token of the phrase that writes it: a name from an identifier, and
the place of a node from the token that begins it or joins its parts. So a condition on the tokens of
a text is a condition on the marks of the program that is read from it.
-/

namespace DarijaScript

/-- The marks that a tree can have from the token are good. -/
structure Token.Good (good : Mark → Prop) (token : Token) : Prop where
  name : token.kind = .identifier → good (.name ⟨token.lexeme, token.position⟩)
  place : good (.place token.position)

/-- The marks that a tree can have from the tokens are good. -/
def AllGood (good : Mark → Prop) (tokens : List Token) : Prop :=
  ∀ token ∈ tokens, token.Good good

/-- The marks of a tree are good, as a criterion. -/
def Criterion.marked (good : Mark → Prop) : Criterion where
  names name := good (.name name)
  members _ := True
  places position := good (.place position)
  numbers _ := True
  exprs := Expr.Marked good
  functions := Function.Marked good
  stmts stmt _ := stmt.Marked good
  ofNumber _ := Expr.marked_iff.mpr trivial
  ofString := Expr.marked_iff.mpr trivial
  ofBoolean := Expr.marked_iff.mpr trivial
  ofNull := Expr.marked_iff.mpr trivial
  ofUndefined := Expr.marked_iff.mpr trivial
  ofThis := Expr.marked_iff.mpr trivial
  ofIdentifier named := Expr.marked_iff.mpr named
  ofArray inside := Expr.marked_iff.mpr inside
  ofObject inside := Expr.marked_iff.mpr inside
  ofFunction written := Expr.marked_iff.mpr written
  ofNamed placed inside _ :=
    Expr.marked_iff.mpr ⟨placed, inside, Property.marked_iff.mpr trivial⟩
  ofComputed placed inside selected :=
    Expr.marked_iff.mpr ⟨placed, inside, Property.marked_iff.mpr selected⟩
  ofCall placed called passed _ := Expr.marked_iff.mpr ⟨placed, called, passed⟩
  ofConstruct placed called passed _ := Expr.marked_iff.mpr ⟨placed, called, passed⟩
  ofUpdate placed _ inside := Expr.marked_iff.mpr ⟨placed, inside⟩
  ofUnary inside := Expr.marked_iff.mpr inside
  ofLogical first second := Expr.marked_iff.mpr ⟨first, second⟩
  ofBinary first second := Expr.marked_iff.mpr ⟨first, second⟩
  ofAssign placed _ inside written := Expr.marked_iff.mpr ⟨placed, inside, written⟩
  ofDefinition named listed _ inside := Function.marked_iff.mpr ⟨named, listed, inside⟩
  ofConstant named written := Stmt.marked_iff.mpr ⟨named, by simpa using written⟩
  ofVariable named written := Stmt.marked_iff.mpr ⟨named, written⟩
  ofDefineFunction _ written := Stmt.marked_iff.mpr written
  ofBlock inside := Stmt.marked_iff.mpr inside
  ofConditional tested branch other _ := Stmt.marked_iff.mpr ⟨tested, branch, other⟩
  ofWhileLoop tested repeated := Stmt.marked_iff.mpr ⟨tested, repeated⟩
  ofDoWhileLoop repeated tested := Stmt.marked_iff.mpr ⟨repeated, tested⟩
  ofForLoop _ begins tested updated repeated :=
    Stmt.marked_iff.mpr ⟨begins, tested, updated, repeated⟩
  ofAttempt inside _ handles closing := Stmt.marked_iff.mpr ⟨inside, handles, closing⟩
  ofChoice chosen inside _ :=
    Stmt.marked_iff.mpr ⟨chosen, fun clause mem => Case.marked_iff.mpr (inside clause mem)⟩
  ofGiveBack _ written := Stmt.marked_iff.mpr written
  ofLeave _ := Stmt.marked_iff.mpr trivial
  ofNext _ := Stmt.marked_iff.mpr trivial
  ofEvaluate written := Stmt.marked_iff.mpr written
  ofEmpty := Stmt.marked_iff.mpr trivial

theorem Token.Good.admitted {good : Mark → Prop} {token : Token} (h : token.Good good) :
    (Criterion.marked good).Admits token where
  name := h.name
  member _ := trivial
  number _ _ := trivial
  place := h.place

/-- The marks of a program that is read come from the tokens of its text. -/
theorem marked_of_readProgram {good : Mark → Prop} {text : String} {source : Nat}
    {program : List Stmt} (read : readProgram text source = .ok program)
    (within : ∀ tokens, tokenize text = .ok tokens → AllGood good tokens) :
    ∀ stmt ∈ program, stmt.Marked good := by
  unfold readProgram at read
  split at read
  · cases read
  · next tokens lexed =>
    have marked := within tokens lexed
    obtain ⟨body, ending, rfl, ends, inside⟩ := tokenize_ok lexed
    have derived := parse_sound ends (fun token mem => (inside token mem).1) read
    exact Phrase.Program.suits (c := .marked good) derived fun token mem =>
      (marked token (List.mem_append_left _ mem)).admitted

end DarijaScript
