import DarijaScript.Proofs.Syntax.Node

/-!
# Declared names

The names that statements bind in the scope in which they are executed, as constants or as functions,
and the choices in which no clause declares a function under the name of a constant of a clause
before it.
-/

namespace DarijaScript

/-- The names that a statement may bind as constants in the scope in which it is executed. -/
def Stmt.constants : Stmt → List String
  | .declare .constant name _ => [name.name]
  | .conditional _ consequent none => consequent.constants
  | .conditional _ consequent (some alternate) => consequent.constants ++ alternate.constants
  | .whileLoop _ body => body.constants
  | .doWhileLoop body _ => body.constants
  | _ => []

/-- The names that some statements may bind as constants. -/
def constantsOf (stmts : List Stmt) : List String := stmts.flatMap Stmt.constants

/-- The names of the functions declared among some statements. -/
def functionNames : List Stmt → List String
  | [] => []
  | .defineFunction f :: rest => (f.name.map (·.name)).toList ++ functionNames rest
  | _ :: rest => functionNames rest

/-- No clause declares a function under a name that a clause before it declares as a constant. -/
def Steady (cases : List Case) : Prop :=
  cases.Pairwise fun earlier later =>
    ∀ name ∈ constantsOf earlier.body, name ∉ functionNames later.body

instance (cases : List Case) : Decidable (Steady cases) :=
  inferInstanceAs (Decidable (cases.Pairwise _))

/-- Whatever choices a tree contains are steady. -/
def Node.Steady : Node → Prop
  | .choice cases => DarijaScript.Steady cases
  | _ => True

instance (node : Node) : Decidable node.Steady := by
  cases node <;> unfold Node.Steady <;> infer_instance

/-- The names and functions of a tree are well-formed. -/
def Node.Formed : Node → Prop
  | .name word => IsName word
  | .function f => f.Formed
  | .choice _ => True

theorem IsName.ne_keyword {name : String} (h : IsName name) (keyword : Keyword) :
    name ≠ keyword.text := by
  intro eq
  have kind := h.kind
  rw [eq] at kind
  cases keyword <;> revert kind <;> decide

mutual

theorem Expr.Formed.meets {expr : Expr} (h : expr.Formed) : expr.Meets Node.Formed := by
  rw [Expr.meets_iff]
  match h with
  | .assign _ place written => exact ⟨place.meets, written.meets⟩
  | .logical first second => exact ⟨first.meets, second.meets⟩
  | .binary first second => exact ⟨first.meets, second.meets⟩
  | .unary inside => exact inside.meets
  | .update _ place => exact place.meets
  | .call called passed _ => exact ⟨called.meets, fun arg mem => (passed arg mem).meets⟩
  | .construct called passed _ => exact ⟨called.meets, fun arg mem => (passed arg mem).meets⟩
  | .named inside _ => exact ⟨inside.meets, Property.meets_iff.mpr trivial⟩
  | .computed inside selected => exact ⟨inside.meets, Property.meets_iff.mpr selected.meets⟩
  | .identifier named => exact named
  | .number _ | .string | .boolean | .null | .undefined | .this => trivial
  | .array inside => exact fun element mem => (inside element mem).meets
  | .object inside => exact fun entry mem => (inside entry mem).meets
  | .function written => exact written.meets
termination_by structural h

theorem Function.Formed.meets {f : Function} (h : f.Formed) : f.Meets Node.Formed := by
  rw [Function.meets_iff]
  match h with
  | .mk named listed few inside =>
    exact ⟨.mk named listed few inside, named, listed, fun stmt mem => (inside stmt mem).meets⟩
termination_by structural h

theorem Stmt.Formed.meets {stmt : Stmt} {around : Surroundings} (h : stmt.Formed around) :
    stmt.Meets Node.Formed := by
  rw [Stmt.meets_iff]
  match h with
  | .constant named written =>
    refine ⟨named, fun expr mem => ?_⟩
    cases mem
    exact written.meets
  | .variable named written => exact ⟨named, fun expr mem => (written expr mem).meets⟩
  | .defineFunction _ written => exact written.meets
  | .block inside => exact fun stmt mem => (inside stmt mem).meets
  | .conditional tested branch other _ =>
    exact ⟨tested.meets, branch.meets, fun stmt mem => (other stmt mem).meets⟩
  | .whileLoop tested repeated => exact ⟨tested.meets, repeated.meets⟩
  | .doWhileLoop repeated tested => exact ⟨repeated.meets, tested.meets⟩
  | .forLoop _ begins tested updated repeated =>
    exact ⟨fun stmt mem => (begins stmt mem).meets, fun expr mem => (tested expr mem).meets,
      fun expr mem => (updated expr mem).meets, repeated.meets⟩
  | .attempt inside _ named handles closing =>
    exact ⟨fun stmt mem => (inside stmt mem).meets,
      fun h mem => ⟨named h mem, fun stmt inner => (handles h mem stmt inner).meets⟩,
      fun final mem stmt inner => (closing final mem stmt inner).meets⟩
  | .choice chosen tested inside _ =>
    exact ⟨trivial, chosen.meets, fun clause mem => Case.meets_iff.mpr
      ⟨fun test inner => (tested clause mem test inner).meets,
        fun stmt inner => (inside clause mem stmt inner).meets⟩⟩
  | .giveBack _ written => exact fun expr mem => (written expr mem).meets
  | .leave _ | .next _ | .empty => trivial
  | .evaluate written => exact written.meets
termination_by structural h

end

end DarijaScript
