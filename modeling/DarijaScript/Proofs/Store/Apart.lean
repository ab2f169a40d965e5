import DarijaScript.Proofs.Store.Chains
import DarijaScript.Proofs.Store.Changes

/-!
# Scopes apart

A scope lies apart from another one if it is not met on the way outwards from there. Then no lookup
from there finds it, and it stays apart from what is opened or copied there.
-/

namespace DarijaScript

/-- The scope still lies in the same one. -/
def Scope.Stays (scope kept : Scope) : Prop := kept.parent = scope.parent

theorem Scope.Stays.refl (scope : Scope) : scope.Stays scope := rfl

theorem Scope.Stays.trans {first second third : Scope} (h : first.Stays second)
    (h' : second.Stays third) : first.Stays third := Eq.trans h' h

namespace Store

variable {store changed : Store} {id other : ScopeId}

/-- The way outwards from the other scope ends and does not meet the scope. -/
def Apart (store : Store) (id other : ScopeId) : Prop :=
  ∃ chain, store.Chain other chain ∧ id ∉ chain

/-- Every scope is still there, inside the same one. -/
abbrev Grows (store changed : Store) : Prop :=
  Related (fun _ => True) Scope.Stays store changed

/-- Every scope is still there, inside the same one, and one of them is the same itself. -/
structure Spares (id : ScopeId) (store changed : Store) : Prop where
  grown : store.Grows changed
  same : Related (· = id) Eq store changed

/-! ### Growth -/

namespace Grows

theorem of_scopes_eq (same : changed.scopes = store.scopes) : store.Grows changed :=
  Related.of_scopes_eq .refl same

theorem refl (store : Store) : store.Grows store := of_scopes_eq rfl

theorem trans {last : Store} (h : store.Grows changed) (h' : changed.Grows last) :
    store.Grows last := Related.trans .trans h h'

theorem addScope (scope : Scope) : store.Grows (store.addScope scope) :=
  Related.addScope .refl scope

theorem addSnapshot (source : ScopeId) : store.Grows (store.addSnapshot source) :=
  Related.addSnapshot .refl source

theorem define (name : String) (binding : Binding) : store.Grows (store.define id name binding) :=
  Related.define .refl fun _ _ _ => rfl

theorem size_le (h : store.Grows changed) : store.scopes.size ≤ changed.scopes.size := by
  refine Nat.le_of_not_lt fun fewer => ?_
  obtain ⟨_, found, -⟩ := h changed.scopes.size trivial _ (Array.getElem?_eq_getElem fewer)
  exact absurd (Array.getElem?_eq_some_iff.mp found).1 (Nat.lt_irrefl _)

end Grows

/-! ### The way outwards -/

theorem Chain.lt_size {chain : List ScopeId} (h : store.Chain id chain) :
    ∀ place ∈ chain, place < store.scopes.size := by
  induction h with
  | outermost found last =>
    rintro _ (_ | ⟨_, ⟨⟩⟩)
    exact (Array.getElem?_eq_some_iff.mp found).1
  | inside found around _ ih =>
    rintro _ (_ | ⟨_, further⟩)
    · exact (Array.getElem?_eq_some_iff.mp found).1
    · exact ih _ further

theorem Chain.mem_self {chain : List ScopeId} (h : store.Chain id chain) : id ∈ chain := by
  cases h <;> exact List.mem_cons_self

/-- The way outwards is the same in a store that has grown. -/
theorem Chain.mono {chain : List ScopeId} (h : store.Chain id chain)
    (grown : store.Grows changed) : changed.Chain id chain := by
  induction h with
  | outermost found last =>
    obtain ⟨_, found, same⟩ := grown _ trivial _ found
    exact .outermost found (Eq.trans same last)
  | inside found around _ ih =>
    obtain ⟨_, found, same⟩ := grown _ trivial _ found
    exact .inside found (Eq.trans same around) ih

theorem Chain.addChild {chain : List ScopeId} (h : store.Chain id chain) :
    (store.addChild id).Chain store.nextScope (store.nextScope :: chain) := by
  have found : (store.addChild id).scopes[store.nextScope]? = some ⟨[], some id⟩ := by
    simp [Store.addChild, addScope, nextScope]
  exact .inside found rfl (h.mono (.addScope _))

/-- From a copy of a scope the way goes on as from the scope itself. -/
theorem Chain.addSnapshot {chain : List ScopeId} (h : store.Chain id chain) :
    (store.addSnapshot id).Chain store.nextScope (store.nextScope :: chain.tail) := by
  have copied : ∀ scope, store.scopes[id]? = some scope → store.addSnapshot id = store.addScope scope :=
    fun scope found => by simp only [Store.addSnapshot, found]
  have last : ∀ scope, (store.addScope scope).scopes[store.nextScope]? = some scope :=
    fun scope => by simp [addScope, nextScope]
  cases h with
  | outermost found outermost =>
    rw [copied _ found]
    exact .outermost (last _) outermost
  | inside found around further =>
    rw [copied _ found]
    exact .inside (last _) around (further.mono (.addScope _))

/-- What a lookup finds is on the way outwards. -/
theorem Chain.mem_of_resolve? {chain : List ScopeId} (h : store.Chain id chain) {name : String}
    {owner : ScopeId} {binding : Binding} (resolved : store.resolve? id name = some (owner, binding)) :
    owner ∈ chain := by
  induction h with
  | outermost found last =>
    rw [resolve?_of_found found, last] at resolved
    split at resolved
    · cases resolved
      exact List.mem_cons_self
    · cases resolved
  | inside found around _ ih =>
    rw [resolve?_of_found found, around] at resolved
    split at resolved
    · cases resolved
      exact List.mem_cons_self
    · dsimp only at resolved
      split at resolved
      · exact List.mem_cons_of_mem _ (ih resolved)
      · cases resolved

/-! ### Apart -/

namespace Apart

theorem lt_size (h : store.Apart id other) : other < store.scopes.size := by
  obtain ⟨chain, outwards, -⟩ := h
  exact outwards.lt_size other outwards.mem_self

theorem ne (h : store.Apart id other) : other ≠ id := by
  obtain ⟨chain, outwards, off⟩ := h
  rintro rfl
  exact off outwards.mem_self

theorem mono (h : store.Apart id other) (grown : store.Grows changed) :
    changed.Apart id other := by
  obtain ⟨chain, outwards, off⟩ := h
  exact ⟨chain, outwards.mono grown, off⟩

theorem ne_of_resolve? (h : store.Apart id other) {name : String} {owner : ScopeId}
    {binding : Binding} (resolved : store.resolve? other name = some (owner, binding)) :
    owner ≠ id := by
  obtain ⟨chain, outwards, off⟩ := h
  rintro rfl
  exact off (outwards.mem_of_resolve? resolved)

theorem addChild (h : store.Apart id other) (inside : id < store.scopes.size) :
    (store.addChild other).Apart id store.nextScope := by
  obtain ⟨chain, outwards, off⟩ := h
  exact ⟨_, outwards.addChild, List.not_mem_cons_of_ne_of_not_mem (Nat.ne_of_lt inside) off⟩

theorem addSnapshot (h : store.Apart id other) (inside : id < store.scopes.size) :
    (store.addSnapshot other).Apart id store.nextScope := by
  obtain ⟨chain, outwards, off⟩ := h
  have further : id ∉ chain.tail := fun mem => off (List.mem_of_mem_tail mem)
  exact ⟨_, outwards.addSnapshot,
    List.not_mem_cons_of_ne_of_not_mem (Nat.ne_of_lt inside) further⟩

end Apart

/-! ### Spared scopes -/

namespace Spares

theorem of_scopes_eq (same : changed.scopes = store.scopes) : store.Spares id changed :=
  ⟨.of_scopes_eq same, .of_scopes_eq (fun _ => rfl) same⟩

theorem trans {second third : Store} (h : store.Spares id second) (h' : second.Spares id third) :
    store.Spares id third := ⟨h.grown.trans h'.grown, .trans Eq.trans h.same h'.same⟩

theorem addScope (scope : Scope) : store.Spares id (store.addScope scope) :=
  ⟨.addScope scope, .addScope (fun _ => rfl) scope⟩

theorem addSnapshot (source : ScopeId) : store.Spares id (store.addSnapshot source) :=
  ⟨.addSnapshot source, .addSnapshot (fun _ => rfl) source⟩

theorem define {name : String} {binding : Binding} (ne : other ≠ id) :
    store.Spares id (store.define other name binding) where
  grown := .define name binding
  same := .define (fun _ => rfl) fun here => absurd here ne

theorem size_le (h : store.Spares id changed) (inside : id < store.scopes.size) :
    id < changed.scopes.size := by
  obtain ⟨_, found, -⟩ := h.same id rfl _ (Array.getElem?_eq_getElem inside)
  exact (Array.getElem?_eq_some_iff.mp found).1

/-- The scope is the same if it was there. -/
theorem getElem?_eq (h : store.Spares id changed) (inside : id < store.scopes.size) :
    changed.scopes[id]? = store.scopes[id]? := by
  have before : store.scopes[id]? = some store.scopes[id] := Array.getElem?_eq_getElem inside
  obtain ⟨_, found, rfl⟩ := h.same id rfl _ before
  exact found.trans before.symm

end Spares

end Store

end DarijaScript
