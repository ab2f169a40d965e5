import DarijaScript.Proofs.Store.Bindings

/-!
# The way outwards

The scopes from a scope outwards, each followed by the one around it. Where every scope stands behind
the one around it this way ends, and what a name means is decided by the first scope on it that binds
the name.
-/

namespace DarijaScript.Store

variable {store changed : Store} {id outer parent owner : ScopeId} {name key : String}

/-- The scopes from a scope outwards, which end with one that has none around it. -/
inductive Chain (store : Store) : ScopeId → List ScopeId → Prop
  | outermost {id : ScopeId} {scope : Scope} (found : store.scopes[id]? = some scope)
      (last : scope.parent = none) : Chain store id [id]
  | inside {id parent : ScopeId} {scope : Scope} {rest : List ScopeId}
      (found : store.scopes[id]? = some scope) (around : scope.parent = some parent)
      (further : Chain store parent rest) : Chain store id (id :: rest)

/-- The first scope on the way outwards that binds the name. -/
def Nearest (store : Store) (id : ScopeId) (name : String) (owner : ScopeId) : Prop :=
  ∃ chain, store.Chain id chain ∧ chain.find? (store.declares · name) = some owner

/-- What a name means in a scope: the first scope on the way outwards that binds it, and the binding. -/
def Means (store : Store) (id : ScopeId) (name : String) (owner : ScopeId) (binding : Binding) : Prop :=
  store.Nearest id name owner ∧ store.binding? owner name = some binding

/-- Every scope stands behind the one around it. -/
def Ordered (store : Store) : Prop :=
  ∀ (id : ScopeId) (scope : Scope) (parent : ScopeId), store.scopes[id]? = some scope →
    scope.parent = some parent → parent < id

/-! ### Chains -/

theorem Ordered.exists_chain (ordered : store.Ordered) (inside : id < store.scopes.size) :
    ∃ chain, store.Chain id chain := by
  induction id using Nat.strongRecOn with
  | ind id ih =>
    have found : store.scopes[id]? = some store.scopes[id] := Array.getElem?_eq_getElem inside
    cases around : store.scopes[id].parent with
    | none => exact ⟨_, .outermost found around⟩
    | some parent =>
      have outwards := ordered id _ parent found around
      obtain ⟨chain, further⟩ := ih parent outwards (Nat.lt_trans outwards inside)
      exact ⟨_, .inside found around further⟩

theorem Chain.unique {chain other : List ScopeId} (h : store.Chain id chain)
    (h' : store.Chain id other) : other = chain := by
  induction h generalizing other with
  | outermost found last =>
    cases h' with
    | outermost => rfl
    | inside found' around =>
      cases found.symm.trans found'
      cases last.symm.trans around
  | inside found around _ ih =>
    cases h' with
    | outermost found' last =>
      cases found.symm.trans found'
      cases last.symm.trans around
    | inside found' around' further =>
      cases found.symm.trans found'
      cases around.symm.trans around'
      rw [ih further]

/-- The way outwards depends on the scopes around scopes only. -/
theorem Chain.congr {chain : List ScopeId} (h : store.Chain id chain)
    (same : ∀ id : ScopeId,
      (changed.scopes[id]?).map Scope.parent = (store.scopes[id]?).map Scope.parent) :
    changed.Chain id chain := by
  have kept : ∀ {id : ScopeId} {scope}, store.scopes[id]? = some scope →
      ∃ scope', changed.scopes[id]? = some scope' ∧ scope'.parent = scope.parent := by
    intro id scope found
    have parents := same id
    rw [found] at parents
    exact Option.map_eq_some_iff.mp parents
  induction h with
  | outermost found last =>
    obtain ⟨_, found, parents⟩ := kept found
    exact .outermost found (parents.trans last)
  | inside found around _ ih =>
    obtain ⟨_, found, parents⟩ := kept found
    exact .inside found (parents.trans around) ih

theorem Nearest.unique {other : ScopeId} (h : store.Nearest id name owner)
    (h' : store.Nearest id name other) : other = owner := by
  obtain ⟨chain, outwards, first⟩ := h
  obtain ⟨_, outwards', first'⟩ := h'
  rw [outwards.unique outwards', first] at first'
  exact (Option.some.inj first').symm

theorem declares_of_nearest (h : store.Nearest id name owner) :
    store.declares owner name = true := by
  obtain ⟨chain, -, first⟩ := h
  exact List.find?_some (p := (store.declares · name)) first

/-! ### Lookups -/

theorem resolve?_of_found {scope : Scope} (found : store.scopes[id]? = some scope) :
    store.resolve? id name =
      match scope.get? name with
      | some binding => some (id, binding)
      | none =>
        match scope.parent with
        | none => none
        | some parent => if parent < id then store.resolve? parent name else none := by
  have unfolded := resolve?.eq_def store id name
  rw [found] at unfolded
  exact unfolded

/-- A lookup goes the way outwards to the first scope that binds the name. -/
theorem Chain.resolve?_eq {chain : List ScopeId} (ordered : store.Ordered)
    (h : store.Chain id chain) (name : String) :
    store.resolve? id name = (chain.find? (store.declares · name)).bind fun owner =>
      (store.binding? owner name).map (owner, ·) := by
  have own : ∀ {id : ScopeId} {scope}, store.scopes[id]? = some scope →
      store.declares id name = (scope.get? name).isSome ∧
        store.binding? id name = scope.get? name := by
    intro id scope found
    simp [declares, binding?, found, Scope.binds]
  induction h with
  | outermost found last =>
    rw [resolve?_of_found found, List.find?_cons, (own found).1]
    cases bound : Scope.get? _ name with
    | none => simp [last]
    | some binding => simp [(own found).2, bound]
  | inside found around _ ih =>
    rw [resolve?_of_found found, List.find?_cons, (own found).1, around]
    cases bound : Scope.get? _ name with
    | none => simp [ordered _ _ _ found around, ih]
    | some binding => simp [(own found).2, bound]

theorem lt_size_of_resolve? {found : ScopeId × Binding} (h : store.resolve? id name = some found) :
    id < store.scopes.size := by
  rw [resolve?] at h
  cases inside : store.scopes[id]? with
  | none =>
    rw [inside] at h
    cases h
  | some scope => exact (Array.getElem?_eq_some_iff.mp inside).1

/-- The first scope on the way outwards that binds the name is the one that a lookup finds. -/
theorem Ordered.nearest_iff (ordered : store.Ordered) :
    store.Nearest id name owner ↔ ∃ binding, store.resolve? id name = some (owner, binding) := by
  constructor
  · intro nearest
    have bound := declares_of_nearest nearest
    obtain ⟨chain, outwards, first⟩ := nearest
    rw [declares_eq] at bound
    obtain ⟨binding, found⟩ := Option.isSome_iff_exists.mp bound
    exact ⟨binding, by simp [outwards.resolve?_eq ordered, first, found]⟩
  · rintro ⟨binding, resolved⟩
    obtain ⟨chain, outwards⟩ := ordered.exists_chain (lt_size_of_resolve? resolved)
    rw [outwards.resolve?_eq ordered] at resolved
    obtain ⟨first, found, eq⟩ := Option.bind_eq_some_iff.mp resolved
    obtain ⟨_, -, pair⟩ := Option.map_eq_some_iff.mp eq
    cases pair
    exact ⟨chain, outwards, found⟩

/-- The binding that a lookup finds is that of the first scope that has one. -/
theorem Ordered.resolve?_eq_some_iff (ordered : store.Ordered) {binding : Binding} :
    store.resolve? id name = some (owner, binding) ↔ store.Means id name owner binding := by
  constructor
  · intro resolved
    exact ⟨ordered.nearest_iff.mpr ⟨binding, resolved⟩, binding?_of_resolve? resolved⟩
  · rintro ⟨nearest, bound⟩
    obtain ⟨binding', resolved⟩ := ordered.nearest_iff.mp nearest
    cases bound.symm.trans (binding?_of_resolve? resolved)
    exact resolved

theorem Ordered.lookup?_eq_some_iff (ordered : store.Ordered) {value : Value} :
    store.lookup? id name = some value ↔
      ∃ owner assignable, store.Means id name owner ⟨value, assignable⟩ := by
  rw [lookup?, Option.map_eq_some_iff]
  constructor
  · rintro ⟨⟨owner, value, assignable⟩, resolved, rfl⟩
    exact ⟨owner, assignable, ordered.resolve?_eq_some_iff.mp resolved⟩
  · rintro ⟨owner, assignable, found⟩
    exact ⟨(owner, ⟨value, assignable⟩), ordered.resolve?_eq_some_iff.mpr found, rfl⟩

/-! ### Operations -/

theorem ordered_empty : empty.Ordered := by
  intro id scope parent found
  simp [empty] at found

theorem Ordered.of_scopes_eq (ordered : store.Ordered) (same : changed.scopes = store.scopes) :
    changed.Ordered := fun id scope parent found => ordered id scope parent (same ▸ found)

theorem Ordered.addScope (ordered : store.Ordered) {scope : Scope}
    (inside : ∀ parent ∈ scope.parent, parent < store.scopes.size) :
    (store.addScope scope).Ordered := by
  intro id scope' parent found around
  simp only [Store.addScope, Array.getElem?_push] at found
  split at found
  · next last =>
    cases found
    exact last ▸ inside parent around
  · exact ordered id scope' parent found around

theorem Ordered.addSnapshot (ordered : store.Ordered) (id : ScopeId) :
    (store.addSnapshot id).Ordered := by
  unfold Store.addSnapshot
  split
  · next scope found =>
    refine ordered.addScope fun parent around => ?_
    exact Nat.lt_trans (ordered id scope parent found around)
      (Array.getElem?_eq_some_iff.mp found).1
  · exact ordered.addScope nofun

/-- Binding a name leaves the way outwards as it is. -/
theorem parent_define (binding : Binding) (id : ScopeId) :
    ((store.define owner name binding).scopes[id]?).map Scope.parent =
      (store.scopes[id]?).map Scope.parent := by
  simp only [define, Array.getElem?_modify]
  split <;> cases store.scopes[id]? <;> rfl

theorem Ordered.define (ordered : store.Ordered) (binding : Binding) :
    (store.define owner name binding).Ordered := by
  intro id scope parent found around
  have parents : some scope.parent = (store.scopes[id]?).map Scope.parent :=
    (congrArg (Option.map Scope.parent) found).symm.trans (parent_define binding id)
  obtain ⟨scope', found', same⟩ := Option.map_eq_some_iff.mp parents.symm
  exact ordered id scope' parent found' (same.trans around)

/-- Another binding for a name in a scope that binds it already leaves open to no name another way to
its first scope. -/
theorem nearest_define {old : Binding} (bound : store.binding? owner name = some old)
    (binding : Binding) {first : ScopeId} :
    (store.define owner name binding).Nearest id key first ↔ store.Nearest id key first := by
  have declares : ∀ id, (store.define owner name binding).declares id key =
      store.declares id key := by
    intro id
    rw [declares_eq, declares_eq, binding?_define]
    split
    · next same => rw [same.1, same.2.1, bound]; rfl
    · rfl
  simp only [Nearest, declares]
  constructor
  · rintro ⟨chain, outwards, found⟩
    exact ⟨chain, outwards.congr fun id => (parent_define binding id).symm, found⟩
  · rintro ⟨chain, outwards, found⟩
    exact ⟨chain, outwards.congr (parent_define binding), found⟩

/-- Another value for a variable is seen where the variable is the first one of this name on the way
outwards, and nowhere else. -/
theorem Ordered.lookup?_define (ordered : store.Ordered) {old : Binding}
    (bound : store.binding? owner name = some old) (binding : Binding) (id : ScopeId) (key : String) :
    (key = name ∧ store.Nearest id key owner →
      (store.define owner name binding).lookup? id key = some binding.value) ∧
    (¬ (key = name ∧ store.Nearest id key owner) →
      (store.define owner name binding).lookup? id key = store.lookup? id key) := by
  have inside : owner < store.scopes.size := by
    refine Nat.lt_of_not_le fun outside => ?_
    rw [binding?_of_size_le outside] at bound
    cases bound
  have ordered' : (store.define owner name binding).Ordered := ordered.define binding
  constructor
  · rintro ⟨rfl, nearest⟩
    rw [ordered'.lookup?_eq_some_iff]
    refine ⟨owner, binding.assignable, (nearest_define bound binding).mpr nearest, ?_⟩
    rw [binding?_define, if_pos ⟨rfl, rfl, inside⟩]
  · intro other
    apply Option.ext
    intro value
    rw [ordered'.lookup?_eq_some_iff, ordered.lookup?_eq_some_iff]
    refine exists_congr fun first => exists_congr fun assignable => ?_
    rw [Means, Means, nearest_define bound]
    refine and_congr_right fun nearest => ?_
    rw [binding?_define, if_neg]
    rintro ⟨rfl, rfl, -⟩
    exact other ⟨rfl, nearest⟩

end DarijaScript.Store
