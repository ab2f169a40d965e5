import DarijaScript.Proofs.Evaluation.InStep
import DarijaScript.Proofs.Store.Chains

/-!
# What names mean

The stores that the operations on scopes build, and what the steps of the machine that read, assign
and declare names do in them.
-/

namespace DarijaScript

/-- The stores that the operations on scopes build one after another, with any objects and arrays
beside the scopes. -/
inductive Store.Built : Store → Prop
  | empty : Built .empty
  | contents {store changed : Store} (built : Built store) (same : changed.scopes = store.scopes) :
    Built changed
  | root {store : Store} (built : Built store) : Built (store.addScope rootScope)
  | bare {store : Store} (built : Built store) : Built (store.addScope ⟨[], none⟩)
  | child {store : Store} {parent : ScopeId} (built : Built store)
      (inside : parent < store.scopes.size) : Built (store.addChild parent)
  | snapshot {store : Store} {id : ScopeId} (built : Built store)
      (inside : id < store.scopes.size) : Built (store.addSnapshot id)
  | define {store : Store} {id : ScopeId} (built : Built store) (inside : id < store.scopes.size)
      (name : String) (binding : Binding) : Built (store.define id name binding)
  | declare {machine : Machine} (built : Built machine.store)
      (inside : machine.scope < machine.store.scopes.size) (name : String) (value : Value)
      (assignable : Bool) :
    Built (Ending.machine (Run.declare name value assignable machine)).store
  | assign {machine : Machine} (built : Built machine.store)
      (inside : machine.scope < machine.store.scopes.size) (name : String) (value : Value) :
    Built (Ending.machine (Run.assign name value machine)).store

namespace Run

variable {name : String} {value : Value} {assignable : Bool} {machine : Machine}

theorem declare_apply (name : String) (value : Value) (assignable : Bool) (machine : Machine) :
    declare name value assignable machine =
      if machine.store.declares machine.scope name then
        .error (.exception (.fault (.redeclaration name) .unknown)) machine
      else .ok () { machine with
        store := machine.store.define machine.scope name ⟨value, assignable⟩ } := by
  change (if machine.store.declares machine.scope name then fault (.redeclaration name)
    else define machine.scope name value assignable : Run Unit) machine = _
  split <;> rfl

theorem assign_of_assignable {owner : ScopeId} {old : Value}
    (found : machine.store.resolve? machine.scope name = some (owner, ⟨old, true⟩)) :
    assign name value machine =
      .ok () { machine with store := machine.store.define owner name ⟨value, true⟩ } := by
  rw [assign_apply, found]
  rfl

/-- Only a variable is assigned to; all else leaves the machine as it is. -/
theorem assign_cases (name : String) (value : Value) (machine : Machine) :
    (∃ owner old, machine.store.resolve? machine.scope name = some (owner, ⟨old, true⟩)) ∨
    (¬ ∃ owner old, machine.store.resolve? machine.scope name = some (owner, ⟨old, true⟩)) ∧
      ∃ interruption, assign name value machine = .error interruption machine := by
  rw [assign_apply]
  match machine.store.resolve? machine.scope name with
  | some (owner, ⟨old, true⟩) => exact .inl ⟨owner, old, rfl⟩
  | some (_, ⟨_, false⟩) => exact .inr ⟨nofun, _, rfl⟩
  | none => exact .inr ⟨nofun, _, rfl⟩

theorem store_declare (name : String) (value : Value) (assignable : Bool) (machine : Machine) :
    (Ending.machine (declare name value assignable machine)).store = machine.store ∨
    (Ending.machine (declare name value assignable machine)).store =
      machine.store.define machine.scope name ⟨value, assignable⟩ := by
  rw [declare_apply]
  split
  · exact .inl rfl
  · exact .inr rfl

theorem store_assign (name : String) (value : Value) (machine : Machine) :
    (Ending.machine (assign name value machine)).store = machine.store ∨
    ∃ owner, (Ending.machine (assign name value machine)).store =
      machine.store.define owner name ⟨value, true⟩ := by
  rcases assign_cases name value machine with ⟨owner, old, found⟩ | ⟨-, interruption, failed⟩
  · rw [assign_of_assignable found]
    exact .inr ⟨owner, rfl⟩
  · rw [failed]
    exact .inl rfl

end Run

theorem Store.Built.ordered {store : Store} (built : store.Built) : store.Ordered := by
  induction built with
  | empty => exact ordered_empty
  | contents _ same ih => exact ih.of_scopes_eq same
  | root _ ih => exact ih.addScope nofun
  | bare _ ih => exact ih.addScope nofun
  | child _ inside ih =>
    refine ih.addScope ?_
    rintro _ ⟨⟩
    exact inside
  | snapshot _ _ ih => exact ih.addSnapshot _
  | define _ _ _ binding ih => exact ih.define binding
  | declare _ _ name value assignable ih =>
    rcases Run.store_declare name value assignable _ with same | bound
    · rwa [same]
    · rw [bound]
      exact ih.define _
  | assign _ _ name value ih =>
    rcases Run.store_assign name value _ with same | ⟨owner, bound⟩
    · rwa [same]
    · rw [bound]
      exact ih.define _

section Names

variable {machine : Machine}

theorem declare_succeeds (name : String) (value : Value) (assignable : Bool) :
    Ending.isOk (Run.declare name value assignable machine) =
      !machine.store.declares machine.scope name := by
  rw [Run.declare_apply]
  cases machine.store.declares machine.scope name <;> rfl

/-- A declaration that fails leaves the machine as it is. -/
theorem declare_fails {name : String} {value : Value} {assignable : Bool}
    (failed : Ending.isOk (Run.declare name value assignable machine) = false) :
    Ending.machine (Run.declare name value assignable machine) = machine := by
  rw [Run.declare_apply] at failed ⊢
  split
  · rfl
  · next free => rw [if_neg free] at failed; cases failed

theorem declare_binds {name : String} {value : Value} {assignable : Bool}
    (inside : machine.scope < machine.store.scopes.size)
    (succeeded : Ending.isOk (Run.declare name value assignable machine) = true) :
    (Ending.machine (Run.declare name value assignable machine)).store.binding? machine.scope name =
      some ⟨value, assignable⟩ := by
  rw [Run.declare_apply] at succeeded ⊢
  split
  · next bound => rw [if_pos bound] at succeeded; cases succeeded
  · exact (Store.binding?_define _ _ _).trans (if_pos ⟨rfl, rfl, inside⟩)

theorem declare_keeps_other (name : String) (value : Value) (assignable : Bool) {id : ScopeId}
    (other : id ≠ machine.scope) :
    (Ending.machine (Run.declare name value assignable machine)).store.scopes[id]? =
      machine.store.scopes[id]? := by
  rcases Run.store_declare name value assignable machine with same | bound
  · rw [same]
  · rw [bound, Store.define, Array.getElem?_modify, if_neg other.symm]

/-- An assignment that fails leaves the machine as it is. -/
theorem assign_fails {name : String} {value : Value}
    (failed : Ending.isOk (Run.assign name value machine) = false) :
    Ending.machine (Run.assign name value machine) = machine := by
  rcases Run.assign_cases name value machine with ⟨owner, old, found⟩ | ⟨-, interruption, error⟩
  · rw [Run.assign_of_assignable found] at failed
    cases failed
  · rw [error]
    rfl

variable (ordered : machine.store.Ordered) (name : String)
include ordered

theorem lookup_lexical (value : Value) :
    Run.lookup name machine = .ok value machine ↔
      ∃ owner assignable, machine.store.Means machine.scope name owner ⟨value, assignable⟩ := by
  rw [← ordered.lookup?_eq_some_iff, Run.lookup_apply]
  cases machine.store.lookup? machine.scope name with
  | none => exact ⟨nofun, nofun⟩
  | some found =>
    constructor
    · rintro ⟨⟩
      rfl
    · rintro ⟨⟩
      rfl

theorem assign_succeeds (value : Value) :
    Ending.isOk (Run.assign name value machine) = true ↔
      ∃ owner old, machine.store.Means machine.scope name owner ⟨old, true⟩ := by
  simp only [← ordered.resolve?_eq_some_iff]
  rcases Run.assign_cases name value machine with ⟨owner, old, found⟩ | ⟨other, interruption, failed⟩
  · rw [Run.assign_of_assignable found]
    exact ⟨fun _ => ⟨owner, old, found⟩, fun _ => rfl⟩
  · rw [failed]
    exact ⟨nofun, fun found => absurd found other⟩

theorem assign_lexical {owner : ScopeId} {old value : Value}
    (means : machine.store.Means machine.scope name owner ⟨old, true⟩) (id : ScopeId) (key : String) :
    (key = name ∧ machine.store.Nearest id key owner →
      (Ending.machine (Run.assign name value machine)).store.lookup? id key = some value) ∧
    (¬ (key = name ∧ machine.store.Nearest id key owner) →
      (Ending.machine (Run.assign name value machine)).store.lookup? id key =
        machine.store.lookup? id key) := by
  rw [Run.assign_of_assignable (ordered.resolve?_eq_some_iff.mpr means)]
  exact ordered.lookup?_define means.2 ⟨value, true⟩ id key

end Names

/-- A name is bound exactly where it has a value. -/
theorem Run.isBound_iff (name : String) (machine : Machine) :
    isBound name machine = .ok true machine ↔ ∃ value, lookup name machine = .ok value machine := by
  rw [lookup_apply]
  change (.ok (machine.store.contains machine.scope name) machine : Ending Bool) = _ ↔ _
  rw [Store.lookup?, Store.contains]
  cases machine.store.resolve? machine.scope name with
  | none =>
    constructor
    · rintro ⟨⟩
    · rintro ⟨_, ⟨⟩⟩
  | some found => exact ⟨fun _ => ⟨found.2.value, rfl⟩, fun _ => rfl⟩

/-- **Scope chains implement lexical lookup exactly**, in every store that the operations on scopes
build, for every scope of it as the active one. There is one way outwards and it ends. A name is bound
exactly where it has a value, the one in the first scope on the way outwards that binds the name. It is
assigned to exactly where that binding is a variable; afterwards the value is read wherever the name
means this very binding, and every other reading is as it was. What fails leaves everything as it is.
A declaration fails exactly where the active scope itself has the name, and it leaves every other scope
as it is. -/
theorem scope_chains_lexical {machine : Machine} (built : machine.store.Built)
    (inside : machine.scope < machine.store.scopes.size) (name : String) (value : Value)
    (assignable : Bool) :
    (∃ chain, machine.store.Chain machine.scope chain ∧
      ∀ other, machine.store.Chain machine.scope other → other = chain) ∧
    (Run.isBound name machine = .ok true machine ↔
      ∃ found, Run.lookup name machine = .ok found machine) ∧
    (∀ found, Run.lookup name machine = .ok found machine ↔
      ∃ owner assignable, machine.store.Means machine.scope name owner ⟨found, assignable⟩) ∧
    (Ending.isOk (Run.assign name value machine) = true ↔
      ∃ owner old, machine.store.Means machine.scope name owner ⟨old, true⟩) ∧
    (∀ owner old, machine.store.Means machine.scope name owner ⟨old, true⟩ →
      ∀ (id : ScopeId) (key : String),
        (key = name ∧ machine.store.Nearest id key owner →
          (Ending.machine (Run.assign name value machine)).store.lookup? id key = some value) ∧
        (¬ (key = name ∧ machine.store.Nearest id key owner) →
          (Ending.machine (Run.assign name value machine)).store.lookup? id key =
            machine.store.lookup? id key)) ∧
    (Ending.isOk (Run.assign name value machine) = false →
      Ending.machine (Run.assign name value machine) = machine) ∧
    (Ending.isOk (Run.declare name value assignable machine) = false ↔
      machine.store.declares machine.scope name = true) ∧
    (Ending.isOk (Run.declare name value assignable machine) = false →
      Ending.machine (Run.declare name value assignable machine) = machine) ∧
    (Ending.isOk (Run.declare name value assignable machine) = true →
      (Ending.machine (Run.declare name value assignable machine)).store.binding?
        machine.scope name = some ⟨value, assignable⟩) ∧
    ∀ id ≠ machine.scope,
      (Ending.machine (Run.declare name value assignable machine)).store.scopes[id]? =
        machine.store.scopes[id]? := by
  have ordered := built.ordered
  obtain ⟨chain, outwards⟩ := ordered.exists_chain inside
  refine ⟨⟨chain, outwards, fun other => outwards.unique⟩, Run.isBound_iff name machine,
    lookup_lexical ordered name, assign_succeeds ordered name value,
    fun owner old => assign_lexical ordered name, assign_fails, ?_, declare_fails,
    declare_binds inside, fun id => declare_keeps_other name value assignable⟩
  rw [declare_succeeds, Bool.not_eq_false']

/-- A variable, a scope in which a constant shadows it, and another scope beside that one. -/
def Store.shadowed : Store :=
  ((((empty.addScope ⟨[], none⟩).define 0 "x" ⟨.boolean false, true⟩).addChild 0).define 1 "x"
    ⟨.null, false⟩).addChild 0

theorem Store.built_shadowed : shadowed.Built := by
  have outer : Built ((empty.addScope ⟨[], none⟩).define 0 "x" ⟨.boolean false, true⟩) :=
    .define (.bare .empty) (by decide) _ _
  exact .child (.define (.child outer (by decide)) (by decide) _ _) (by decide)

/-- An assignment from the scope beside the shadowing one is seen outside, and not in the latter. -/
theorem scope_chains_lexical_shadowed :
    Store.shadowed.Built ∧ 2 < Store.shadowed.scopes.size ∧
      ∃ machine : Machine, machine.store = Store.shadowed ∧ machine.scope = 2 ∧
        (Ending.machine (Run.assign "x" (.boolean true) machine)).store.lookup? 0 "x" =
          some (.boolean true) ∧
        (Ending.machine (Run.assign "x" (.boolean true) machine)).store.lookup? 1 "x" =
          Store.shadowed.lookup? 1 "x" := by
  let machine : Machine :=
    { Machine.initial (.silent (fun _ => 0) fun _ => 0) with store := Store.shadowed, scope := 2 }
  have inside : machine.scope < machine.store.scopes.size := by decide
  have outer : machine.store.Nearest 0 "x" 0 := ⟨[0], .outermost rfl rfl, rfl⟩
  have shadow : machine.store.Nearest 1 "x" 1 := ⟨[1, 0], .inside rfl rfl (.outermost rfl rfl), rfl⟩
  have means : machine.store.Means machine.scope "x" 0 ⟨.boolean false, true⟩ :=
    ⟨⟨[2, 0], .inside rfl rfl (.outermost rfl rfl), rfl⟩, rfl⟩
  obtain ⟨-, -, -, -, seen, -⟩ :=
    @scope_chains_lexical machine Store.built_shadowed inside "x" (.boolean true) true
  refine ⟨Store.built_shadowed, inside, machine, rfl, rfl, (seen _ _ means 0 "x").1 ⟨rfl, outer⟩,
    (seen _ _ means 1 "x").2 ?_⟩
  rintro ⟨-, other⟩
  cases shadow.unique other

end DarijaScript
