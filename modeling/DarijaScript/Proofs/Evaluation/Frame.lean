import DarijaScript.Proofs.Evaluation.InStep
import DarijaScript.Proofs.Evaluation.Invariant
import DarijaScript.Proofs.Store.Changes

/-!
# Frames

Expressions, calls and statements with scopes of their own leave the scopes alone that were there
before them: these only get other values for their variables. What is declared on the way is bound in
a scope added on the way, so the number of scopes at the beginning tells both kinds apart.
-/

namespace DarijaScript

/-- A number of scopes that are framed. Nothing is asked of exceptions. -/
def Invariant.frame (count : Nat) : Invariant where
  good := fun _ => True
  mayBind := fun id => count ≤ id
  fits := fun store _ => count ≤ store.scopes.size
  changes := Store.FramesBelow count
  raises := fun _ => True
  refl := fun _ => .of_scopes_eq .refl rfl
  trans := .trans .trans
  others := fun same _ => .of_scopes_eq .refl same
  binds := Store.framesBelow_define
  assigns := fun value _ => Store.framesBelow_assign value
  adds := .addScope .refl
  kept := fun enough changes => changes.size_le enough
  next := id
  enters := fun enough => (Store.size_addChild _).symm ▸ Nat.le_succ_of_le enough
  renews := fun enough => (Store.size_addSnapshot _).symm ▸ Nat.le_succ_of_le enough
  receiver := fun _ _ => trivial
  nesting := fun _ => trivial
  located := fun _ _ => trivial

instance (count : Nat) : (Invariant.frame count).Receiving where
  receives := fun enough changes _ => Store.FramesBelow.size_le changes enough

/-- The run leaves the scopes of the machine as they are but for the values of their variables. -/
def Framed {α : Type} (machine : Machine) (ending : Ending α) : Prop :=
  machine.store.Frames ending.machine.store

theorem Node.marked_true (node : Node) : Node.Marked (fun _ => True) node := by
  cases node with
  | name _ | choice _ => trivial
  | function f => exact fun _ _ => trivial

theorem Value.meets_of_forall {check : Node → Prop} (all : ∀ node, check node) (value : Value) :
    value.Meets check := by
  cases value with
  | function f _ => exact fun node _ => all node
  | builtin b => exact all _
  | _ => trivial

theorem Store.meets_of_forall {check : Node → Prop} (all : ∀ node, check node) (store : Store) :
    store.Meets check where
  bindings := fun _ _ _ _ _ => Value.meets_of_forall all _
  fields := fun _ _ _ => Value.meets_of_forall all _
  elements := fun _ _ _ => Value.meets_of_forall all _

/-- Nothing is asked of the value of an exception. -/
theorem Exception.value_meets (e : Exception) : e.value.Meets (Node.Marked fun _ => True) :=
  Value.meets_of_forall Node.marked_true e.value

/-- No name is bound in the active scope, so every machine will do for the beginning. -/
theorem Invariant.Holds.framed {α : Type} {steps : Run α} {loose : Prop} {known : α → Prop}
    {machine : Machine}
    (h : (Invariant.frame machine.store.scopes.size).Holds ⟨False, loose⟩ steps known) :
    Framed machine (steps machine) :=
  (h machine ⟨Store.meets_of_forall Node.marked_true _, Nat.le_refl _, False.elim⟩).changes

/-- However the evaluation of an expression, a call or the execution of a statement with a scope of
its own ends, and whatever machine it begins in, the scopes that were there have the same names with
the same constants, the same of them may be assigned, and the scopes around them are the same. -/
theorem earlier_scopes_framed (fuel : Nat) (machine : Machine) :
    (∀ expr, Framed machine (Machine.evaluate fuel expr machine)) ∧
    (∀ callee receiver args, Framed machine (Machine.call fuel callee receiver args machine)) ∧
    (∀ body, Framed machine ((interpreter fuel).statement (.block body) machine)) ∧
    (∀ start test update body,
      Framed machine ((interpreter fuel).statement (.forLoop start test update body) machine)) ∧
    (∀ body handler finalizer,
      Framed machine ((interpreter fuel).statement (.attempt body handler finalizer) machine)) ∧
    ∀ subject cases,
      Framed machine ((interpreter fuel).statement (.choice subject cases) machine) := by
  let J := (Invariant.frame machine.store.scopes.size).toJudgement
  have respects : J.Respects (interpreter fuel) := Judgement.respects_interpreter fuel
  have known : ∀ value : Value, J.Knows value := Value.meets_of_forall Node.marked_true
  have statement : ∀ stmt : Stmt, stmt.opensScope = true →
      Framed machine ((interpreter fuel).statement stmt machine) := by
    intro stmt opens
    have judged : J.holds ⟨False, False⟩ ((interpreter fuel).statement stmt) J.KnowsFlow :=
      Judgement.opensScope fuel opens fun _ _ => trivial
    exact judged.framed
  refine ⟨fun expr => ?_, fun callee receiver args => ?_, fun _ => statement _ rfl,
    fun _ _ _ _ => statement _ rfl, fun _ _ _ => statement _ rfl, fun _ _ => statement _ rfl⟩
  · have judged : J.holds ⟨False, False⟩ (Machine.evaluate fuel expr) J.Knows :=
      respects.expression fun _ _ => trivial
    exact judged.framed
  · have judged : J.holds ⟨False, True⟩ (Machine.call fuel callee receiver args) J.Knows :=
      respects.call (c := ⟨False, False⟩) callee receiver args (known _) (known _)
        fun _ _ => known _
    exact judged.framed

end DarijaScript
