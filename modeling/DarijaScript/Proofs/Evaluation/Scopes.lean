import DarijaScript.Proofs.Evaluation.Steps

/-!
# Scopes in step

Names are bound and assigned in step. A scope that some steps open is new, so what is bound in it
changes nothing that was there before.
-/

namespace DarijaScript.Setting

variable {S : Setting} {c c' : Context} {machine : Machine} {α : Type}

/-- A binding that replaces no constant, and that is one itself only under a known name. -/
theorem Fits.after_define (fits : S.Fits c machine) {id : ScopeId} {name : String} {value : Value}
    {assignable : Bool}
    (meets : S.check (.name name) ∨ name = Keyword.hadi.text → value.Meets S.check)
    (free : S.tracked → ¬ machine.store.IsConstant id name)
    (known : S.tracked → assignable = false → id = machine.scope ∧ name ∈ c.constants) :
    S.After c machine
      { machine with store := machine.store.define id name ⟨value, assignable⟩ } where
  fits :=
    { fits with
      store := fits.store.define meets
      active := by simpa using fits.active
      constants := by
        intro tracked key bound
        rcases Store.isConstant_define bound with earlier | ⟨-, rfl, constant⟩
        · exact fits.constants tracked key earlier
        · exact (known tracked constant).2 }
  evolves := by
    intro tracked
    refine ⟨Nat.le_of_eq (Store.size_define _ _ _).symm, Store.keeps_define (free tracked), ?_,
      .inl rfl⟩
    intro other _ key bound
    rcases Store.isConstant_define bound with earlier | ⟨rfl, rfl, constant⟩
    · exact .inl earlier
    · exact .inr (known tracked constant)
  settled := fun _ => rfl

theorem InStep.assign {name : String} {value : Value} (meets : value.Meets S.check) :
    S.InStep c c (Run.assign name value) (Run.assign name value) fun _ => True := by
  apply InStep.of_run
  intro machine fits
  have same : (S.beside machine).store.resolve? (S.beside machine).scope name =
      machine.store.resolve? machine.scope name := rfl
  rw [Run.assign_apply, Run.assign_apply (S.beside machine), same]
  cases resolved : machine.store.resolve? machine.scope name with
  | none => exact (InStep.fault _).joint machine fits
  | some found =>
    obtain ⟨owner, binding⟩ := found
    by_cases free : binding.assignable = true
    · have bound := Store.binding?_of_resolve? resolved
      have unlocked : ¬ machine.store.IsConstant owner name := by
        rintro ⟨constant, eq⟩
        rw [bound] at eq
        cases eq
        cases free
      simp only [free, if_true]
      exact ⟨rfl, trivial, fits.after_define (fun _ => meets) (fun _ => unlocked) nofun⟩
    · simp only [free]
      exact (InStep.fault _).joint machine fits

theorem InStep.define {name : String} {value : ScopeId → Value}
    (meets : ∀ id, S.check (.name name) ∨ name = Keyword.hadi.text → (value id).Meets S.check)
    (free : S.tracked → name ∉ c.constants) :
    S.InStep c c (Run.scope >>= fun id => Run.define id name (value id) true)
      (Run.scope >>= fun id => Run.define id name (value id) true) fun _ => True := by
  apply InStep.of_run
  intro machine fits
  refine ⟨rfl, trivial, fits.after_define (meets _) (fun tracked bound => ?_) nofun⟩
  exact free tracked (fits.constants tracked name bound)

theorem InStep.declare {name : String} {value : Value} {assignable : Bool}
    (meets : value.Meets S.check) (known : S.tracked → assignable = false → name ∈ c.constants) :
    S.InStep c c (Run.declare name value assignable) (Run.declare name value assignable)
      fun _ => True := by
  apply InStep.of_run
  intro machine fits
  have declaring : ∀ start : Machine, Run.declare name value assignable start =
      (if start.store.declares start.scope name then Run.fault (.redeclaration name)
        else Run.define start.scope name value assignable : Run Unit) start := fun _ => rfl
  rw [declaring, declaring (S.beside machine)]
  change S.Ends _ _ _ _ ((if machine.store.declares machine.scope name then _ else _ : Run Unit) _)
  by_cases taken : machine.store.declares machine.scope name = true
  · rw [if_pos taken, if_pos taken]
    exact (InStep.fault _).joint machine fits
  · rw [if_neg taken, if_neg taken]
    refine ⟨rfl, trivial, fits.after_define (fun _ => meets) (fun _ bound => ?_)
      fun tracked constant => ⟨rfl, known tracked constant⟩⟩
    obtain ⟨value, bound⟩ := bound
    exact taken (by rw [Store.declares_eq, bound]; rfl)

theorem InStep.renewScope :
    S.InStep c c.unsettled Run.renewScope Run.renewScope fun _ => True := by
  apply InStep.of_run
  intro machine fits
  refine ⟨rfl, trivial, ?_⟩
  exact
    { fits :=
        { fits with
          store := fits.store.addSnapshot machine.scope
          active := fun _ => by
            rw [Store.size_addSnapshot]
            exact Nat.lt_succ_self _
          constants := by
            rintro tracked name ⟨value, bound⟩
            refine fits.constants tracked name ⟨value, ?_⟩
            simpa [Store.binding?_addSnapshot, Store.nextScope] using bound }
      evolves := by
        intro tracked
        refine ⟨?_, Store.keeps_addSnapshot _, fun id inside name bound => .inl ?_, .inr ?_⟩
        · rw [Store.size_addSnapshot]
          exact Nat.le_succ _
        · rw [Store.IsConstant, Store.binding?_addSnapshot, if_neg (Nat.ne_of_lt inside)] at bound
          exact bound
        · exact Nat.le_refl _
      settled := nofun }

/-! ### New scopes -/

/-- The scope is new since the machine, and its constants have known names. -/
structure Opened (c : Context) (constants : List String) (machine opened : Machine)
    (id : ScopeId) : Prop where
  after : S.After c machine opened
  apart : S.tracked → opened.scope ≠ id
  fresh : S.tracked → machine.store.scopes.size ≤ id
  inside : S.tracked → id < opened.store.scopes.size
  constants : S.tracked → ∀ name, opened.store.IsConstant id name → name ∈ constants

variable (S) in
/-- The two runs open a scope, the same one. -/
def Opens (c : Context) (constants : List String) (x : Run ScopeId) : Prop :=
  ∀ machine, S.Fits c machine → ∃ id opened, x machine = .ok id opened ∧
    x (S.beside machine) = .ok id (S.beside opened) ∧ S.Opened c constants machine opened id

variable (S) in
/-- The steps bind names in an opened scope. -/
def Fills (c : Context) (constants more : List String) (id : ScopeId) (x : Run Unit) : Prop :=
  ∀ machine opened, S.Opened c constants machine opened id → ∃ filled, x opened = .ok () filled ∧
    x (S.beside opened) = .ok () (S.beside filled) ∧ S.Opened c more machine filled id

theorem Opens.newChild (parent : ScopeId) : S.Opens c [] (Run.newChild parent) := by
  intro machine fits
  refine ⟨_, _, rfl, rfl, ?_, fun tracked => Nat.ne_of_lt (fits.active tracked),
    fun _ => Nat.le_refl _, fun _ => ?_, fun _ name bound => ?_⟩
  · exact
      { fits :=
          { fits with
            store := fits.store.addChild parent
            active := fun tracked => by
              rw [Store.size_addChild]
              exact Nat.lt_succ_of_lt (fits.active tracked)
            constants := by simpa [Store.IsConstant, Store.binding?_addChild] using fits.constants }
        evolves := by
          intro tracked
          refine ⟨?_, Store.keeps_addChild _, fun id _ name bound => .inl ?_, .inl rfl⟩
          · rw [Store.size_addChild]
            exact Nat.le_succ _
          · simpa [Store.IsConstant, Store.binding?_addChild] using bound
        settled := fun _ => rfl }
  · rw [Store.size_addChild]
    exact Nat.lt_succ_self _
  · obtain ⟨value, bound⟩ := bound
    have outside : machine.store.binding? machine.store.scopes.size name = none :=
      Store.binding?_of_size_le (Nat.le_refl _)
    rw [Store.binding?_addChild] at bound
    cases outside.symm.trans bound

theorem Opens.newScope : S.Opens c [] Run.newScope :=
  fun machine fits => Opens.newChild machine.scope machine fits

theorem Fills.define {constants more : List String} {id : ScopeId} {name : String} {value : Value}
    {assignable : Bool}
    (meets : S.check (.name name) ∨ name = Keyword.hadi.text → value.Meets S.check)
    (free : S.tracked → name ∉ constants) (sub : constants ⊆ more)
    (known : assignable = false → name ∈ more) :
    S.Fills c constants more id (Run.define id name value assignable) := by
  intro machine opened before
  have unbound : S.tracked → ¬ opened.store.IsConstant id name := fun tracked bound =>
    free tracked (before.constants tracked name bound)
  refine ⟨_, rfl, rfl, ?_, before.apart, before.fresh, fun tracked => ?_, fun tracked key bound => ?_⟩
  · exact
      { fits :=
          { before.after.fits with
            store := before.after.fits.store.define meets
            active := by simpa using before.after.fits.active
            constants := by
              intro tracked key bound
              rcases Store.isConstant_define bound with earlier | ⟨eq, -⟩
              · exact before.after.fits.constants tracked key earlier
              · exact absurd eq (before.apart tracked) }
        evolves := by
          intro tracked
          have evolves := before.after.evolves tracked
          refine ⟨?_, evolves.keeps.trans (Store.keeps_define (unbound tracked)), ?_, evolves.scope⟩
          · rw [Store.size_define]
            exact evolves.grows
          · intro other inside key bound
            rcases Store.isConstant_define bound with earlier | ⟨rfl, -⟩
            · exact evolves.fresh other inside key earlier
            · exact absurd inside (Nat.not_lt.mpr (before.fresh tracked))
        settled := before.after.settled }
  · rw [Store.size_define]
    exact before.inside tracked
  · rcases Store.isConstant_define bound with earlier | ⟨-, rfl, constant⟩
    · exact sub (before.constants tracked key earlier)
    · exact known constant

theorem Fills.bind {constants more most : List String} {id : ScopeId} {x y : Run Unit}
    (first : S.Fills c constants more id x) (second : S.Fills c more most id y) :
    S.Fills c constants most id (x >>= fun _ => y) := by
  intro machine opened known
  obtain ⟨filled, eq, eq', known⟩ := first machine opened known
  obtain ⟨full, last, last', known⟩ := second machine filled known
  refine ⟨full, ?_, ?_, known⟩
  · change EStateM.bind x _ opened = _
    rw [EStateM.bind, eq]
    exact last
  · change EStateM.bind x _ (S.beside opened) = _
    rw [EStateM.bind, eq']
    exact last'

theorem Opens.bind {constants more : List String} {x : Run ScopeId} {f : ScopeId → Run Unit}
    (opens : S.Opens c constants x) (fills : ∀ id, S.Fills c constants more id (f id)) :
    S.Opens c more (do
      let id ← x
      f id
      pure id) := by
  intro machine fits
  obtain ⟨id, opened, eq, eq', known⟩ := opens machine fits
  obtain ⟨filled, last, last', known⟩ := fills id machine opened known
  refine ⟨id, filled, ?_, ?_, known⟩
  · change EStateM.bind x _ machine = _
    rw [EStateM.bind, eq]
    change EStateM.bind (f id) _ opened = _
    rw [EStateM.bind, last]
    rfl
  · change EStateM.bind x _ (S.beside machine) = _
    rw [EStateM.bind, eq']
    change EStateM.bind (f id) _ (S.beside opened) = _
    rw [EStateM.bind, last']
    rfl

theorem Joint.inOpened {constants : List String} {x : Run ScopeId} {y z : Run α}
    {good : α → Prop} (opens : S.Opens c constants x)
    (inside : S.Joint (c.knowing constants) c' y z good) (depth : c'.depth = c.depth)
    (nesting : c'.nesting = c.nesting) :
    S.Joint c c (x >>= fun id => Run.inScope id y) (x >>= fun id => Run.inScope id z) good := by
  intro machine fits
  obtain ⟨id, opened, eq, eq', before⟩ := opens machine fits
  change S.Ends c good machine (EStateM.bind x _ machine) (EStateM.bind x _ (S.beside machine))
  rw [EStateM.bind, EStateM.bind, eq, eq']
  have start : S.Fits (c.knowing constants) { opened with scope := id } :=
    { before.after.fits with
      active := before.inside
      constants := before.constants }
  have ends := inside _ start
  change S.Ends c good machine (restored ({ · with scope := opened.scope }) _)
    (restored ({ · with scope := opened.scope }) _)
  refine ends.restored (fun after h => ?_) (fun _ => rfl) (fun _ => ⟨rfl, rfl⟩)
    fun strict => (before.after.evolves (S.follows strict)).keeps
  have earlier : S.tracked → ∀ other < opened.store.scopes.size, other ≠ id → ∀ name,
      after.store.IsConstant other name → opened.store.IsConstant other name := by
    intro tracked other old ne name bound
    rcases (h.evolves tracked).fresh other old name bound with earlier | ⟨eq, -⟩
    · exact earlier
    · exact absurd eq ne
  exact
    { fits :=
        { h.fits with
          depth := h.fits.depth.trans depth
          nesting := h.fits.nesting.trans nesting
          active := fun tracked =>
            Nat.lt_of_lt_of_le (before.after.fits.active tracked) (h.evolves tracked).grows
          constants := fun tracked name bound => before.after.fits.constants tracked name
            (earlier tracked _ (before.after.fits.active tracked) (before.apart tracked) name bound) }
      evolves := by
        intro tracked
        have before' := before.after.evolves tracked
        refine ⟨Nat.le_trans before'.grows (h.evolves tracked).grows,
          before'.keeps.trans (h.evolves tracked).keeps, fun other old name bound => ?_,
          before'.scope⟩
        have new : other ≠ id := Nat.ne_of_lt (Nat.lt_of_lt_of_le old (before.fresh tracked))
        exact before'.fresh other old name
          (earlier tracked other (Nat.lt_of_lt_of_le old before'.grows) new name bound)
      settled := before.after.settled }

/-- What happens in a new scope leaves the context as it was. -/
theorem InStep.inOpened {constants : List String} {x : Run ScopeId} {y z : Run α}
    {good : α → Prop} (opens : S.Opens c constants x)
    (inside : S.InStep (c.knowing constants) c' y z good) (depth : c'.depth = c.depth)
    (nesting : c'.nesting = c.nesting) :
    S.InStep c c (x >>= fun id => Run.inScope id y) (x >>= fun id => Run.inScope id z) good :=
  ⟨.inOpened opens inside.joint depth nesting, .inOpened opens inside.itself depth nesting⟩

end DarijaScript.Setting
