import DarijaScript.Proofs.Evaluation.Frame
import DarijaScript.Proofs.Store.Apart

/-!
# Scopes left alone

A scope that is not on the way outwards from the active one can be reached through functions made in
it or inside it only. So it is changed by their calls, or not at all: whatever is done in place of
these calls, if it leaves the scope alone, then so does everything else.
-/

namespace DarijaScript

/-- The function was made in the scope or inside it. The same is said of a function made in a scope from
which no way outwards ends, but none of the operations on scopes makes such scopes. -/
def Store.Captured (store : Store) (id : ScopeId) : Value → Prop
  | .function _ closure => ¬ store.Apart id closure
  | _ => False

/-- Ways of calling under a bound. -/
abbrev Callers := Nat → Value → Value → List Value → Run Value

open Classical in
/-- The activities under a bound, with other calls in place of those of functions that were made in a
scope or inside it. -/
noncomputable def replacing (id : ScopeId) (calls : Callers) : (fuel : Nat) → Interpreter
  | 0 =>
    { statement := fun _ => throw .outOfFuel
      expression := fun _ => throw .outOfFuel
      call := fun _ _ _ => throw .outOfFuel }
  | fuel + 1 =>
    { statement := fun stmt => Run.deeper (Evaluation.statement (replacing id calls fuel) fuel stmt)
      expression := fun expr => Run.deeper (Evaluation.expression (replacing id calls fuel) expr)
      call := fun callee receiver args machine =>
        if machine.store.Captured id callee then calls fuel callee receiver args machine
        else Evaluation.invoke (replacing id calls fuel) callee receiver args machine }

/-- With the calls of the interpreter in their place the runs are those of the interpreter. -/
theorem replacing_invoke (id : ScopeId) (fuel : Nat) :
    replacing id (fun fuel => Evaluation.invoke (interpreter fuel)) fuel = interpreter fuel := by
  induction fuel with
  | zero => rfl
  | succ fuel ih => simp only [replacing, interpreter, ih, ite_self]

/-- The ending leaves a scope alone, and the active scope as it is. -/
def Ending.Spares {α : Type} (id : ScopeId) (machine : Machine) (ending : Ending α) : Prop :=
  machine.store.Spares id ending.machine.store ∧ ending.machine.scope = machine.scope

/-- The calls leave a scope alone. -/
def Callers.Spare (calls : Callers) (id : ScopeId) : Prop :=
  ∀ fuel callee receiver args machine, Ending.Spares id machine (calls fuel callee receiver args machine)

/-- A scope that lies apart from the active one and stays the same. Nothing is asked of exceptions. -/
def Invariant.spared (id : ScopeId) : Invariant where
  good := fun _ => True
  mayBind := (· ≠ id)
  fits := fun store active => id < store.scopes.size ∧ store.Apart id active
  changes := Store.Spares id
  raises := fun _ => True
  refl := fun _ => .of_scopes_eq rfl
  trans := .trans
  others := fun same _ => .of_scopes_eq same
  binds := .define
  assigns := fun _ fits resolved _ => .define (fits.2.ne_of_resolve? resolved)
  adds := .addScope
  kept := fun fits changes => ⟨changes.size_le fits.1, fits.2.mono changes.grown⟩
  next := fun fits => Nat.ne_of_gt fits.1
  enters := fun fits =>
    ⟨(Store.size_addChild _).symm ▸ Nat.lt_succ_of_lt fits.1, fits.2.addChild fits.1⟩
  renews := fun fits =>
    ⟨(Store.size_addSnapshot _).symm ▸ Nat.lt_succ_of_lt fits.1, fits.2.addSnapshot fits.1⟩
  receiver := fun _ _ => trivial
  nesting := fun _ => trivial
  located := fun _ _ => trivial

namespace Invariant

variable {id : ScopeId} {calls : Callers} {c : Stance} {machine : Machine}

theorem fits_spared {loose : Prop} (inside : id < machine.store.scopes.size)
    (apart : machine.store.Apart id machine.scope) :
    (spared id).Fits ⟨True, loose⟩ machine :=
  ⟨Store.meets_of_forall Node.marked_true _, ⟨inside, apart⟩, fun _ => apart.ne⟩

theorem Ends.of_spares {α : Type} {known : α → Prop} {ending : Ending α}
    (fits : (spared id).Fits c machine) (h : Ending.Spares id machine ending)
    (all : ∀ value, known value) : (spared id).Ends c known machine ending := by
  obtain ⟨spares, same⟩ := h
  have kept : (spared id).Kept c machine ending.machine :=
    fits.kept spares (Store.meets_of_forall Node.marked_true _) same
  match ending with
  | .ok value _ => exact ⟨all value, kept⟩
  | .error (.exception _) _ => exact ⟨⟨Value.meets_of_forall Node.marked_true _, .inl trivial⟩, kept⟩
  | .error .outOfFuel _ => exact spares

/-- Apart from the calls in whose place there are others, all that is done leaves the scope alone. -/
theorem respects_replacing (spare : calls.Spare id) (fuel : Nat) :
    (spared id).toJudgement.Respects (replacing id calls fuel) := by
  induction fuel with
  | zero => exact Judgement.agree_zero
  | succ fuel ih =>
    refine {
      statement := fun owns marked =>
        Judgement.Limited.deeper (Judgement.statement ih fuel (fun _ => owns) marked)
      expression := fun marked => Judgement.Limited.deeper (Judgement.expression ih.values marked)
      call := ?_ }
    intro c callee receiver args known owner passed machine fits
    simp only [replacing]
    split
    · exact Ends.of_spares fits (spare ..) (Value.meets_of_forall Node.marked_true)
    · next free =>
      cases callee with
      | function f closure =>
        refine fits.callFunction trivial ih (Function.meets_iff.mp known).1 owner passed ?_
        intro store changes _
        have apart : machine.store.Apart id closure := Classical.not_not.mp free
        have inside : id < (machine.store.addChild closure).scopes.size :=
          (Store.size_addChild _).symm ▸ Nat.lt_succ_of_lt fits.active.1
        exact (spared id).kept ⟨inside, apart.addChild fits.active.1⟩ changes
      | _ => exact Judgement.invoke_foreign ih.call rfl passed machine fits

end Invariant

/-- The steps change a scope through the calls of functions made in it or inside it only: if what is
done in place of these calls leaves the scope alone, then so do the steps. -/
def Machine.LeavesAlone {α : Type} (id : ScopeId) (machine : Machine) (steps : Interpreter → Run α) :
    Prop :=
  ∀ (calls : Callers) (fuel : Nat), calls.Spare id →
    (Ending.machine (steps (replacing id calls fuel) machine)).store.scopes[id]? =
      machine.store.scopes[id]?

/-- The scope lies apart from the active one, and whatever is done from here on changes it through the
calls of functions made in it or inside it only. -/
structure Machine.HasLeft (id : ScopeId) (machine : Machine) : Prop where
  apart : machine.store.Apart id machine.scope
  statement : ∀ stmt, machine.LeavesAlone id (·.statement stmt)
  expression : ∀ expr, machine.LeavesAlone id (·.expression expr)
  call : ∀ callee receiver args, machine.LeavesAlone id (·.call callee receiver args)

section

variable {id : ScopeId} {machine : Machine} {fuel : Nat} {α : Type} {steps : Interpreter → Run α}

/-- Steps of the interpreter that come to the same end if such calls stop them make none, and leave the
scope alone. -/
theorem Machine.LeavesAlone.unchanged (alone : machine.LeavesAlone id steps)
    (none : steps (replacing id (fun _ _ _ _ => throw .outOfFuel) fuel) machine =
      steps (interpreter fuel) machine) :
    (Ending.machine (steps (interpreter fuel) machine)).store.scopes[id]? =
      machine.store.scopes[id]? := by
  have spare : Callers.Spare (fun _ _ _ _ => throw .outOfFuel) id :=
    fun _ _ _ _ _ => ⟨.of_scopes_eq rfl, rfl⟩
  rw [← none]
  exact alone _ fuel spare

variable (inside : id < machine.store.scopes.size) (apart : machine.store.Apart id machine.scope)
include inside apart

theorem Machine.leavesAlone {known : α → Prop}
    (holds : ∀ inner, (Invariant.spared id).toJudgement.Respects inner →
      (Invariant.spared id).Holds ⟨True, True⟩ (steps inner) known) :
    machine.LeavesAlone id steps := by
  intro calls fuel spare
  have held := holds _ (Invariant.respects_replacing spare fuel)
  exact (held machine (Invariant.fits_spared inside apart)).changes.getElem?_eq inside

/-- From a scope apart from it every scope has been left. -/
theorem Machine.hasLeft : machine.HasLeft id where
  apart := apart
  statement := fun _ => leavesAlone inside apart fun _ respects =>
    respects.statement trivial fun _ _ => trivial
  expression := fun _ => leavesAlone inside apart fun _ respects =>
    respects.expression fun _ _ => trivial
  call := fun callee receiver args => leavesAlone inside apart fun _ respects =>
    respects.call (c := ⟨True, True⟩) callee receiver args (Value.meets_of_forall Node.marked_true _)
      (Value.meets_of_forall Node.marked_true _) fun _ _ => Value.meets_of_forall Node.marked_true _

end

end DarijaScript
