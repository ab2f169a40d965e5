import DarijaScript.Proofs.Store.Bindings

/-!
# Changes of scopes

What a change of the store leaves of the scopes that were there before. Two relations between a scope
and what has become of it matter: it may have got other values for its variables only, or further
names as well. In both cases the way outwards from a scope is still the same.
-/

namespace DarijaScript

/-- The scope is the same but for the values of its variables. -/
structure Scope.Frames (scope changed : Scope) : Prop where
  parent : changed.parent = scope.parent
  assignable : ∀ name,
    (changed.get? name).map Binding.assignable = (scope.get? name).map Binding.assignable
  constant : ∀ name value, scope.get? name = some ⟨value, false⟩ →
    changed.get? name = some ⟨value, false⟩

/-- The scope has the same parent and binds the same names, and perhaps further ones. -/
structure Scope.Extends (scope changed : Scope) : Prop where
  parent : changed.parent = scope.parent
  binds : ∀ name, scope.binds name = true → changed.binds name = true

namespace Scope

theorem Frames.refl (scope : Scope) : scope.Frames scope := ⟨rfl, fun _ => rfl, fun _ _ => id⟩

theorem Frames.trans {first second third : Scope} (h : first.Frames second)
    (h' : second.Frames third) : first.Frames third where
  parent := h'.parent.trans h.parent
  assignable := fun name => (h'.assignable name).trans (h.assignable name)
  constant := fun name value bound => h'.constant name value (h.constant name value bound)

/-- Another value for a variable. -/
theorem frames_set {scope : Scope} {name : String} {binding : Binding}
    (bound : scope.get? name = some binding) (assignable : binding.assignable = true)
    (value : Value) : scope.Frames (scope.set name ⟨value, true⟩) where
  parent := rfl
  assignable := by
    intro key
    simp only [get?, set, lookup_bind]
    split
    · next same =>
      have found : scope.bindings.lookup key = some binding := same ▸ bound
      rw [found]
      exact congrArg some assignable.symm
    · rfl
  constant := by
    intro key fixed found
    simp only [get?, set, lookup_bind]
    split
    · next same =>
      rw [same, bound] at found
      cases found
      cases assignable
    · exact found

theorem Extends.refl (scope : Scope) : scope.Extends scope := ⟨rfl, fun _ => id⟩

theorem Extends.trans {first second third : Scope} (h : first.Extends second)
    (h' : second.Extends third) : first.Extends third :=
  ⟨h'.parent.trans h.parent, fun name bound => h'.binds name (h.binds name bound)⟩

theorem extends_set (scope : Scope) (name : String) (binding : Binding) :
    scope.Extends (scope.set name binding) where
  parent := rfl
  binds := by
    intro key bound
    simp only [binds, get?, set, lookup_bind]
    split
    · rfl
    · exact bound

end Scope

namespace Store

/-- The scopes at some places are still there, and each has changed in the given way. -/
def Related (places : ScopeId → Prop) (relation : Scope → Scope → Prop)
    (store changed : Store) : Prop :=
  ∀ id, places id → ∀ scope, store.scopes[id]? = some scope →
    ∃ kept, changed.scopes[id]? = some kept ∧ relation scope kept

namespace Related

variable {places : ScopeId → Prop} {relation : Scope → Scope → Prop} {store changed : Store}

theorem of_scopes_eq (refl : ∀ scope, relation scope scope)
    (same : changed.scopes = store.scopes) : Related places relation store changed :=
  fun _ _ scope found => ⟨scope, same ▸ found, refl scope⟩

theorem trans {second third : Store}
    (compose : ∀ {a b c}, relation a b → relation b c → relation a c)
    (h : Related places relation store second) (h' : Related places relation second third) :
    Related places relation store third := by
  intro id here scope found
  obtain ⟨middle, found, first⟩ := h id here scope found
  obtain ⟨last, found, second⟩ := h' id here middle found
  exact ⟨last, found, compose first second⟩

theorem addScope (refl : ∀ scope, relation scope scope) (scope : Scope) :
    Related places relation store (store.addScope scope) := by
  intro id _ old found
  have inside : id ≠ store.scopes.size :=
    Nat.ne_of_lt (Array.getElem?_eq_some_iff.mp found).1
  exact ⟨old, by simpa [Store.addScope, Array.getElem?_push, inside] using found, refl old⟩

theorem addSnapshot (refl : ∀ scope, relation scope scope) (source : ScopeId) :
    Related places relation store (store.addSnapshot source) := by
  unfold Store.addSnapshot
  split <;> exact addScope refl _

theorem define {owner : ScopeId} {name : String} {binding : Binding}
    (refl : ∀ scope, relation scope scope)
    (h : places owner → ∀ scope, store.scopes[owner]? = some scope →
      relation scope (scope.set name binding)) :
    Related places relation store (store.define owner name binding) := by
  intro id here scope found
  simp only [Store.define, Array.getElem?_modify, found]
  split
  · next same =>
    subst same
    exact ⟨_, rfl, h here scope found⟩
  · exact ⟨scope, rfl, refl scope⟩

end Related

/-! ### Frames -/

/-- The first scopes, up to the given number, are the same but for the values of their variables. -/
abbrev FramesBelow (count : Nat) (store changed : Store) : Prop :=
  Related (· < count) Scope.Frames store changed

/-- All scopes of the store are the same in the other one but for the values of their variables. -/
def Frames (store changed : Store) : Prop := FramesBelow store.scopes.size store changed

variable {store changed : Store} {id : ScopeId} {name : String} {count : Nat}

theorem FramesBelow.size_le (h : FramesBelow count store changed)
    (enough : count ≤ store.scopes.size) : count ≤ changed.scopes.size := by
  cases count with
  | zero => exact Nat.zero_le _
  | succ last =>
    have found : store.scopes[last]? = some store.scopes[last] := Array.getElem?_eq_getElem enough
    obtain ⟨_, kept, _⟩ := h last (Nat.lt_succ_self last) _ found
    exact (Array.getElem?_eq_some_iff.mp kept).1

/-- A name bound in a further scope. -/
theorem framesBelow_define {binding : Binding} (further : count ≤ id) :
    FramesBelow count store (store.define id name binding) :=
  .define .refl fun below => absurd below (Nat.not_lt.mpr further)

/-- A variable that gets another value. -/
theorem framesBelow_assign {owner : ScopeId} {binding : Binding} (value : Value)
    (resolved : store.resolve? id name = some (owner, binding))
    (assignable : binding.assignable = true) :
    FramesBelow count store (store.define owner name ⟨value, true⟩) := by
  apply Related.define .refl
  intro _ scope found
  have bound : scope.get? name = some binding := by
    simpa [binding?, found] using binding?_of_resolve? resolved
  exact Scope.frames_set bound assignable value

/-! ### Names on the way outwards -/

/-- Every scope is still there, with its parent and its names. -/
abbrev Extends (store changed : Store) : Prop := Related (fun _ => True) Scope.Extends store changed

theorem extends_of_scopes_eq (same : changed.scopes = store.scopes) : store.Extends changed :=
  Related.of_scopes_eq .refl same

theorem extends_refl (store : Store) : store.Extends store := extends_of_scopes_eq rfl

theorem extends_trans {first second third : Store} (h : first.Extends second)
    (h' : second.Extends third) : first.Extends third := Related.trans .trans h h'

theorem extends_addScope (scope : Scope) : store.Extends (store.addScope scope) :=
  Related.addScope .refl scope

theorem contains_iff : store.contains id name = true ↔
    ∃ scope, store.scopes[id]? = some scope ∧ (scope.binds name = true ∨
      ∃ parent, scope.parent = some parent ∧ parent < id ∧ store.contains parent name = true) := by
  unfold contains
  rw [resolve?]
  cases store.scopes[id]? with
  | none => simp
  | some scope =>
    obtain ⟨bindings, parent⟩ := scope
    cases own : (Scope.mk bindings parent).get? name with
    | some binding => simp [Scope.binds, own]
    | none =>
      cases parent with
      | none => simp [Scope.binds, own]
      | some parent => by_cases outwards : parent < id <;> simp [Scope.binds, own, outwards]

theorem Extends.contains (h : store.Extends changed) :
    ∀ id, store.contains id name = true → changed.contains id name = true := by
  intro id
  induction id using Nat.strongRecOn with
  | ind id ih =>
    rw [contains_iff, contains_iff]
    rintro ⟨scope, found, bound⟩
    obtain ⟨kept, found, extended⟩ := h id trivial scope found
    refine ⟨kept, found, bound.imp (extended.binds name) ?_⟩
    rintro ⟨parent, around, outwards, further⟩
    exact ⟨parent, extended.parent.trans around, outwards, ih parent outwards further⟩

theorem lt_size_of_contains (h : store.contains id name = true) : id < store.scopes.size := by
  obtain ⟨_, found, _⟩ := contains_iff.mp h
  exact (Array.getElem?_eq_some_iff.mp found).1

theorem contains_of_declares (h : store.declares id name = true) :
    store.contains id name = true := by
  unfold declares at h
  cases found : store.scopes[id]? with
  | none => simp [found] at h
  | some scope =>
    rw [found] at h
    exact contains_iff.mpr ⟨scope, found, .inl h⟩

theorem Extends.declares (h : store.Extends changed) (bound : store.declares id name = true) :
    changed.declares id name = true := by
  unfold Store.declares at bound ⊢
  cases found : store.scopes[id]? with
  | none => simp [found] at bound
  | some scope =>
    rw [found] at bound
    obtain ⟨kept, here, extended⟩ := h id trivial scope found
    rw [here]
    exact extended.binds name bound

theorem Extends.lt_size (h : store.Extends changed) (inside : id < store.scopes.size) :
    id < changed.scopes.size := by
  obtain ⟨_, kept, -⟩ := h id trivial _ (Array.getElem?_eq_getElem inside)
  exact (Array.getElem?_eq_some_iff.mp kept).1

theorem extends_define {binding : Binding} : store.Extends (store.define id name binding) :=
  .define .refl fun _ scope _ => scope.extends_set _ _

theorem contains_addChild (h : store.contains id name = true) :
    (store.addChild id).contains store.nextScope name = true := by
  have found : (store.addChild id).scopes[store.nextScope]? = some ⟨[], some id⟩ := by
    simp [addChild, addScope, nextScope]
  have outwards : (store.addChild id).contains id name = true :=
    Extends.contains (.addScope .refl _) id h
  exact contains_iff.mpr ⟨_, found, .inr ⟨id, rfl, lt_size_of_contains h, outwards⟩⟩

theorem contains_addSnapshot (h : store.contains id name = true) :
    (store.addSnapshot id).contains store.nextScope name = true := by
  have inside := lt_size_of_contains h
  obtain ⟨scope, found, bound⟩ := contains_iff.mp h
  simp only [addSnapshot, found]
  have copied : (store.addScope scope).scopes[store.nextScope]? = some scope := by
    simp [addScope, nextScope]
  refine contains_iff.mpr ⟨scope, copied, bound.imp_right ?_⟩
  rintro ⟨parent, around, outwards, further⟩
  exact ⟨parent, around, Nat.lt_trans outwards inside,
    Extends.contains (.addScope .refl _) parent further⟩

end Store

end DarijaScript
