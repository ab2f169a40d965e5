import DarijaScript.Store.Scope
import DarijaScript.Value.Member

/-!
# Bindings in the store

What each change of the store does to the bindings of its scopes. A constant is a binding that may
not be assigned; it is kept by a change if it is bound to the same value afterwards.
-/

namespace DarijaScript

theorem Scope.lookup_bind (bindings : List (String × Binding)) (name key : String)
    (binding : Binding) : (Scope.bind bindings name binding).lookup key =
      if key = name then some binding else bindings.lookup key := by
  induction bindings with
  | nil =>
    by_cases same : key = name
    · simp [Scope.bind, same]
    · simp [Scope.bind, List.lookup_cons, beq_false_of_ne same, same]
  | cons first rest ih =>
    obtain ⟨n, b⟩ := first
    by_cases found : n = name
    · subst found
      by_cases same : key = n
      · simp [Scope.bind, same]
      · simp [Scope.bind, List.lookup_cons, beq_false_of_ne same, same]
    · by_cases same : key = n
      · subst same
        simp [Scope.bind, found]
      · simp [Scope.bind, found, List.lookup_cons, beq_false_of_ne same, ih]

namespace Store

/-- The binding of a name in a scope itself. -/
def binding? (store : Store) (id : ScopeId) (name : String) : Option Binding :=
  store.scopes[id]?.bind (·.get? name)

variable {store : Store} {id : ScopeId} {name : String}

theorem binding?_of_size_le (h : store.scopes.size ≤ id) : store.binding? id name = none := by
  simp [binding?, Array.getElem?_eq_none h]

theorem binding?_congr {changed : Store} (h : changed.scopes = store.scopes) :
    changed.binding? id name = store.binding? id name := by
  simp [binding?, h]

theorem declares_eq : store.declares id name = (store.binding? id name).isSome := by
  unfold declares binding?
  cases store.scopes[id]? <;> rfl

@[simp] theorem size_define (owner : ScopeId) (key : String) (binding : Binding) :
    (store.define owner key binding).scopes.size = store.scopes.size := by
  simp [define]

theorem binding?_define (owner : ScopeId) (key : String) (binding : Binding) :
    (store.define owner key binding).binding? id name =
      if id = owner ∧ name = key ∧ owner < store.scopes.size then some binding
      else store.binding? id name := by
  unfold binding? define
  rw [Array.getElem?_modify]
  by_cases same : owner = id
  · subst same
    by_cases inside : owner < store.scopes.size
    · simp [inside, Scope.get?, Scope.set, Scope.lookup_bind]
    · simp [inside]
  · simp [same, Ne.symm same]

theorem declares_define {binding : Binding} (inside : id < store.scopes.size) :
    (store.define id name binding).declares id name = true := by
  rw [declares_eq, binding?_define, if_pos ⟨rfl, rfl, inside⟩]
  rfl

@[simp] theorem size_addScope (scope : Scope) :
    (store.addScope scope).scopes.size = store.scopes.size + 1 := by
  simp [addScope]

theorem binding?_addScope (scope : Scope) :
    (store.addScope scope).binding? id name =
      if id = store.scopes.size then scope.get? name else store.binding? id name := by
  unfold binding? addScope
  rw [Array.getElem?_push]
  split <;> rfl

@[simp] theorem size_addChild (parent : ScopeId) :
    (store.addChild parent).scopes.size = store.scopes.size + 1 := size_addScope _

theorem binding?_addChild (parent : ScopeId) :
    (store.addChild parent).binding? id name = store.binding? id name := by
  rw [addChild, binding?_addScope]
  split
  · next new => rw [binding?_of_size_le (Nat.le_of_eq new.symm)]; rfl
  · rfl

@[simp] theorem size_addSnapshot (source : ScopeId) :
    (store.addSnapshot source).scopes.size = store.scopes.size + 1 := by
  unfold addSnapshot
  split <;> exact size_addScope _

theorem binding?_addSnapshot (source : ScopeId) :
    (store.addSnapshot source).binding? id name =
      if id = store.scopes.size then store.binding? source name else store.binding? id name := by
  unfold addSnapshot
  split
  · next scope found => rw [binding?_addScope]; simp [binding?, found]
  · next missing => rw [binding?_addScope]; simp [binding?, missing, Scope.get?]

theorem binding?_of_resolve? {owner : ScopeId} {binding : Binding}
    (h : store.resolve? id name = some (owner, binding)) :
    store.binding? owner name = some binding := by
  induction id using Nat.strongRecOn with
  | ind id ih =>
    unfold resolve? at h
    split at h
    · cases h
    · next scope found =>
      split at h
      · next own =>
        cases h
        simp [binding?, found, own]
      · split at h
        · cases h
        · next parent _ =>
          split at h
          · next outwards => exact ih parent outwards h
          · cases h

/-- In a new store names are bound in the outermost scope only: the receiver to undefined and every
other one to the built-in function of this name. -/
theorem binding?_initial {binding : Binding} (h : initial.binding? id name = some binding) :
    id = 0 ∧ binding.assignable = false ∧
      (name = Keyword.hadi.text ∧ binding.value = .undefined ∨
        ∃ builtin : Builtin, name = builtin.name ∧ binding.value = .builtin builtin) := by
  rw [initial, binding?_addChild, binding?_addScope] at h
  split at h
  · next outermost =>
    obtain ⟨before, after, eq, -⟩ := List.lookup_eq_some_iff.mp h
    have mem : (name, binding) ∈ rootScope.bindings := by simp [eq]
    refine ⟨outermost, ?_⟩
    rcases List.mem_cons.mp mem with receiver | builtins
    · cases receiver
      exact ⟨rfl, .inl ⟨rfl, rfl⟩⟩
    · obtain ⟨builtin, -, bound⟩ := List.mem_map.mp builtins
      cases bound
      exact ⟨rfl, .inr ⟨builtin, rfl, rfl⟩⟩
  · rw [binding?_of_size_le (Nat.zero_le _)] at h
    cases h

theorem binding?_programScope (name : String) : initial.binding? programScope name = none := by
  cases bound : initial.binding? programScope name with
  | none => rfl
  | some binding => cases (binding?_initial bound).1

theorem resolve?_of_binding? {binding : Binding} (h : store.binding? id name = some binding) :
    store.resolve? id name = some (id, binding) := by
  unfold binding? at h
  unfold resolve?
  cases found : store.scopes[id]? with
  | none =>
    rw [found] at h
    cases h
  | some scope =>
    rw [found] at h
    have own : scope.get? name = some binding := h
    simp only [own]

/-! ### Constants -/

/-- The scope binds the name as a constant. -/
def IsConstant (store : Store) (id : ScopeId) (name : String) : Prop :=
  ∃ value, store.binding? id name = some ⟨value, false⟩

/-- Every constant is still bound to its value, and still a constant. -/
def Keeps (store changed : Store) : Prop :=
  ∀ id name value, store.binding? id name = some ⟨value, false⟩ →
    changed.binding? id name = some ⟨value, false⟩

theorem Keeps.refl (store : Store) : store.Keeps store := fun _ _ _ => id

theorem Keeps.trans {first second third : Store} (h : first.Keeps second)
    (h' : second.Keeps third) : first.Keeps third :=
  fun id name value bound => h' id name value (h id name value bound)

theorem Keeps.of_scopes_eq {changed : Store} (h : changed.scopes = store.scopes) :
    store.Keeps changed := fun _ _ _ bound => (binding?_congr h).trans bound

theorem keeps_define {key : String} {owner : ScopeId} {binding : Binding}
    (free : ¬ store.IsConstant owner key) : store.Keeps (store.define owner key binding) := by
  intro id name value bound
  rw [binding?_define, if_neg]
  · exact bound
  · rintro ⟨rfl, rfl, -⟩
    exact free ⟨value, bound⟩

theorem isConstant_define {key : String} {owner : ScopeId} {binding : Binding}
    (h : (store.define owner key binding).IsConstant id name) :
    store.IsConstant id name ∨ (id = owner ∧ name = key ∧ binding.assignable = false) := by
  obtain ⟨value, bound⟩ := h
  rw [binding?_define] at bound
  split at bound
  · next same =>
    cases bound
    exact .inr ⟨same.1, same.2.1, rfl⟩
  · exact .inl ⟨value, bound⟩

theorem keeps_addScope (scope : Scope) : store.Keeps (store.addScope scope) := by
  intro id name value bound
  rw [binding?_addScope, if_neg]
  · exact bound
  · intro new
    rw [binding?_of_size_le (Nat.le_of_eq new.symm)] at bound
    cases bound

theorem keeps_addChild (parent : ScopeId) : store.Keeps (store.addChild parent) :=
  keeps_addScope _

theorem keeps_addSnapshot (source : ScopeId) : store.Keeps (store.addSnapshot source) := by
  unfold addSnapshot
  split <;> exact keeps_addScope _

/-! ### Other parts of the store -/

@[simp] theorem scopes_modifyObject (id : ObjectId) (change : Fields → Fields) :
    (store.modifyObject id change).scopes = store.scopes := rfl

@[simp] theorem scopes_modifyArray (id : ArrayId) (change : Array Value → Array Value) :
    (store.modifyArray id change).scopes = store.scopes := rfl

@[simp] theorem scopes_write (slot : Slot) (value : Value) :
    (store.write slot value).scopes = store.scopes := by
  cases slot <;> rfl

theorem fields_modifyObject (store : Store) (id other : ObjectId) (change : Fields → Fields) :
    (store.modifyObject id change).fields other = store.fields other ∨
      (store.modifyObject id change).fields other = change (store.fields other) := by
  unfold modifyObject fields
  simp only [Array.getD_eq_getD_getElem?, Array.getElem?_modify]
  by_cases same : id = other
  · subst same
    cases store.objects[id]? with
    | none => exact .inl (by simp)
    | some fields => exact .inr (by simp)
  · exact .inl (by simp [same])

theorem elements_modifyArray (store : Store) (id other : ArrayId) (change : Array Value → Array Value) :
    (store.modifyArray id change).elements other = store.elements other ∨
      (store.modifyArray id change).elements other = change (store.elements other) := by
  unfold modifyArray elements
  simp only [Array.getD_eq_getD_getElem?, Array.getElem?_modify]
  by_cases same : id = other
  · subst same
    cases store.arrays[id]? with
    | none => exact .inl (by simp)
    | some elements => exact .inr (by simp)
  · exact .inl (by simp [same])

end Store

end DarijaScript
