import DarijaScript.Proofs.Evaluation.RunLogic
import DarijaScript.Proofs.Syntax.Declared

/-!
# Runs in step

Two runs are in step when from machines that differ in their hosts only they come to the same end,
again in machines that differ in their hosts only. A setting says what the two runs have in common
and what is known of everything that they work on. In a tracked setting every constant is kept. In a
strict one the first run may also be stopped early: then every constant that it leaves behind is kept
by what the second one still does.
-/

namespace DarijaScript

/-- How a run ends. -/
abbrev Ending (α : Type) := EStateM.Result Interruption Machine α

/-- The machine in which a run ends. -/
def Ending.machine {α : Type} : Ending α → Machine
  | .ok _ machine => machine
  | .error _ machine => machine

/-- The run ends without an exception and without being stopped. -/
def Ending.isOk {α : Type} : Ending α → Bool
  | .ok _ _ => true
  | .error _ _ => false

/-- The run ends with an exception of which the test is true. -/
def Ending.raises {α : Type} (test : Exception → Bool) : Ending α → Bool
  | .error (.exception e) _ => test e
  | _ => false

/-- A run after another one begins where the other one has ended. -/
theorem Run.of_bind_ok {α β : Type} {x : Run α} {f : α → Run β} {machine after : Machine} {b : β}
    (h : (x >>= f) machine = .ok b after) :
    ∃ a middle, x machine = .ok a middle ∧ f a middle = .ok b after := by
  change EStateM.bind x f machine = _ at h
  unfold EStateM.bind at h
  cases ending : x machine with
  | ok a middle =>
    rw [ending] at h
    exact ⟨a, middle, rfl, h⟩
  | error interruption middle =>
    rw [ending] at h
    cases h

theorem Run.bind_ok {α β : Type} {x : Run α} {f : α → Run β} {start middle : Machine} {value : α}
    (first : x start = .ok value middle) : (x >>= f) start = f value middle := by
  change EStateM.bind x f start = _
  rw [EStateM.bind, first]

theorem Run.bind_error {α β : Type} {x : Run α} {f : α → Run β} {start after : Machine}
    {interruption : Interruption} (first : x start = .error interruption after) :
    (x >>= f) start = .error interruption after := by
  change EStateM.bind x f start = _
  rw [EStateM.bind, first]

namespace Run

variable {name : String}

theorem lookup_apply (machine : Machine) :
    lookup name machine =
      (match machine.store.lookup? machine.scope name with
        | some value => pure value
        | none => fault (.undefinedVariable name) : Run Value) machine := rfl

theorem assign_apply {value : Value} (machine : Machine) :
    assign name value machine =
      (match machine.store.resolve? machine.scope name with
        | some (owner, binding) =>
          if binding.assignable then changeStore (·.define owner name ⟨value, true⟩)
          else fault (.constantAssignment name)
        | none => fault (.undefinedVariable name) : Run Unit) machine := rfl

end Run

/-! ### Settings -/

/-- What two runs have in common: a condition on the nodes of the trees that they execute, the
limits, and their hosts. A function that asks the host may be reached only if the hosts are the
same. In a tracked setting constants are never bound again, and a strict one is tracked. -/
structure Setting where
  check : Node → Prop
  limits : Limits
  host : Host
  other : Host
  tracked : Prop
  strict : Prop
  follows : strict → tracked
  alone : strict → host = other
  hosts : ∀ b : Builtin, b.asks = true → check (.name b.name) → host = other
  steady : tracked → ∀ cases, check (.choice cases) → Steady cases
  named : tracked → ∀ name, check (.name name) → name ≠ Keyword.hadi.text

/-- What is known where some steps begin or end: the counters, the names that may be constants in
the active scope, and at an end whether the active scope is the one of the beginning. -/
structure Context where
  depth : Nat
  nesting : Nat
  constants : List String
  settled : Bool

namespace Context

/-- Less is known in the second context. -/
structure Within (c c' : Context) : Prop where
  depth : c.depth = c'.depth
  nesting : c.nesting = c'.nesting
  constants : c.constants ⊆ c'.constants
  settled : c'.settled = true → c.settled = true

theorem Within.refl (c : Context) : c.Within c := ⟨rfl, rfl, List.Subset.refl _, id⟩

/-- The context one level deeper. -/
def nested (c : Context) : Context := { c with nesting := c.nesting + 1 }

/-- The context one call deeper. -/
def called (c : Context) : Context := { c with depth := c.depth + 1 }

/-- The context in which the active scope may change. -/
def unsettled (c : Context) : Context := { c with settled := false }

/-- The context with other names of constants. -/
def knowing (c : Context) (constants : List String) : Context := { c with constants := constants }

theorem within_knowing {c : Context} {constants : List String} (h : c.constants ⊆ constants) :
    c.Within (c.knowing constants) := ⟨rfl, rfl, h, id⟩

end Context

/-- What some steps change in a machine, given the names that they may bind as constants in the
active scope: constants are kept, and there are new ones only in new scopes or under these names. -/
structure Machine.Evolves (constants : List String) (machine after : Machine) : Prop where
  grows : machine.store.scopes.size ≤ after.store.scopes.size
  keeps : machine.store.Keeps after.store
  fresh : ∀ id < machine.store.scopes.size, ∀ name, after.store.IsConstant id name →
    machine.store.IsConstant id name ∨ (id = machine.scope ∧ name ∈ constants)
  scope : after.scope = machine.scope ∨ machine.store.scopes.size ≤ after.scope

theorem Machine.Evolves.trans {constants more : List String} {first second third : Machine}
    (h : first.Evolves constants second) (h' : second.Evolves more third)
    (sub : constants ⊆ more) : first.Evolves more third where
  grows := Nat.le_trans h.grows h'.grows
  keeps := h.keeps.trans h'.keeps
  fresh := by
    intro id inside name bound
    rcases h'.fresh id (Nat.lt_of_lt_of_le inside h.grows) name bound with earlier | ⟨eq, mem⟩
    · exact (h.fresh id inside name earlier).imp_right fun ⟨eq, mem⟩ => ⟨eq, sub mem⟩
    · rcases h.scope with same | new
      · exact .inr ⟨eq.trans same, mem⟩
      · omega
  scope := by
    rcases h'.scope with same | new
    · rw [same]
      exact h.scope
    · exact .inr (Nat.le_trans h.grows new)

namespace Setting

variable (S : Setting)

/-- The same machine on the other host. -/
def beside (machine : Machine) : Machine := { machine with host := S.other }

/-- The machine is as the setting and the context say. -/
structure Fits (c : Context) (machine : Machine) : Prop where
  host : machine.host = S.host
  limits : machine.limits = S.limits
  depth : machine.depth = c.depth
  nesting : machine.nesting = c.nesting
  store : machine.store.Meets S.check
  agenda : machine.agenda.Meets S.check
  active : S.tracked → machine.scope < machine.store.scopes.size
  constants : S.tracked → ∀ name, machine.store.IsConstant machine.scope name → name ∈ c.constants

/-- What is known at the end of some steps. -/
structure After (c : Context) (machine after : Machine) : Prop where
  fits : S.Fits c after
  evolves : S.tracked → machine.Evolves c.constants after
  settled : c.settled = true → after.scope = machine.scope

/-- Two runs from one machine, the second one on the other host, come to the same end. -/
def Ends {α : Type} (c : Context) (good : α → Prop) (machine : Machine) :
    (ending other : Ending α) → Prop
  | .ok value after, other =>
    other = .ok value (S.beside after) ∧ good value ∧ S.After c machine after
  | .error (.exception exception) after, other =>
    other = .error (.exception exception) (S.beside after) ∧ exception.Meets S.check ∧
      S.After c machine after
  | .error .outOfFuel after, other =>
    (¬ S.strict → other = .error .outOfFuel (S.beside after) ∧ after.host = S.host) ∧
      (S.strict → machine.store.Keeps after.store ∧ after.store.Keeps other.machine.store)

/-- From every machine that fits, the two runs come to the same end. -/
def Joint {α : Type} (c c' : Context) (x y : Run α) (good : α → Prop) : Prop :=
  ∀ machine, S.Fits c machine → S.Ends c' good machine (x machine) (y (S.beside machine))

/-- The runs are in step, and the second one is so with itself, since it may go on alone. -/
structure InStep {α : Type} (c c' : Context) (x y : Run α) (good : α → Prop) : Prop where
  joint : S.Joint c c' x y good
  itself : S.Joint c c' y y good

variable {S} {c c₁ c' : Context} {machine middle after : Machine} {α β : Type}

theorem Fits.beside_eq (fits : S.Fits c machine) (strict : S.strict) :
    S.beside machine = machine := by
  unfold beside
  rw [← S.alone strict, ← fits.host]

theorem Fits.mono (fits : S.Fits c machine) (within : c.Within c') : S.Fits c' machine where
  host := fits.host
  limits := fits.limits
  depth := fits.depth.trans within.depth
  nesting := fits.nesting.trans within.nesting
  store := fits.store
  agenda := fits.agenda
  active := fits.active
  constants := fun tracked name bound => within.constants (fits.constants tracked name bound)

theorem After.refl (fits : S.Fits c machine) : S.After c machine machine where
  fits := fits
  evolves := fun _ => ⟨Nat.le_refl _, .refl _, fun _ _ _ bound => .inl bound, .inl rfl⟩
  settled := fun _ => rfl

theorem After.trans (h : S.After c₁ machine middle) (h' : S.After c' middle after)
    (within : c₁.Within c') : S.After c' machine after where
  fits := h'.fits
  evolves := fun tracked => (h.evolves tracked).trans (h'.evolves tracked) within.constants
  settled := fun settled => (h'.settled settled).trans (h.settled (within.settled settled))

theorem After.mono (h : S.After c₁ machine after) (within : c₁.Within c') :
    S.After c' machine after := h.trans (.refl (h.fits.mono within)) within

/-- A change of the store alone that no scope is part of. -/
theorem Fits.after_scopes_eq (fits : S.Fits c machine) {store : Store}
    (same : store.scopes = machine.store.scopes) (meets : store.Meets S.check) :
    S.After c machine { machine with store := store } where
  fits :=
    { fits with
      store := meets
      active := by simpa [same] using fits.active
      constants := by simpa [Store.IsConstant, Store.binding?_congr same] using fits.constants }
  evolves := by
    intro tracked
    refine ⟨Nat.le_of_eq (by simp [same]), .of_scopes_eq same, fun id _ name bound => .inl ?_,
      .inl rfl⟩
    simpa [Store.IsConstant, Store.binding?_congr same] using bound
  settled := fun _ => rfl

/-! ### Ends -/

theorem Ends.keeps {good : α → Prop} {ending other : Ending α} (strict : S.strict)
    (h : S.Ends c good machine ending other) : machine.store.Keeps ending.machine.store := by
  match ending with
  | .ok _ _ => exact (h.2.2.evolves (S.follows strict)).keeps
  | .error (.exception _) _ => exact (h.2.2.evolves (S.follows strict)).keeps
  | .error .outOfFuel _ => exact (h.2 strict).1

theorem Ends.mono {good good' : α → Prop} {ending other : Ending α}
    (h : S.Ends c₁ good machine ending other) (within : c₁.Within c')
    (better : ∀ value, good value → good' value) : S.Ends c' good' machine ending other := by
  match ending with
  | .ok _ _ => exact ⟨h.1, better _ h.2.1, h.2.2.mono within⟩
  | .error (.exception _) _ => exact ⟨h.1, h.2.1, h.2.2.mono within⟩
  | .error .outOfFuel _ => exact h

/-- What is known after more steps is known after all of them. -/
theorem Ends.prepend {good : α → Prop} {ending other : Ending α}
    (first : S.After c₁ machine middle) (h : S.Ends c' good middle ending other)
    (within : c₁.Within c') : S.Ends c' good machine ending other := by
  match ending with
  | .ok _ _ => exact ⟨h.1, h.2.1, first.trans h.2.2 within⟩
  | .error (.exception _) _ => exact ⟨h.1, h.2.1, first.trans h.2.2 within⟩
  | .error .outOfFuel _ =>
    refine ⟨h.1, fun strict => ⟨?_, (h.2 strict).2⟩⟩
    exact (first.evolves (S.follows strict)).keeps.trans (h.2 strict).1

/-! ### One run after the other -/

/-- What the first runs end in may be used for the second ones. -/
theorem Joint.bindFrom {x y : Run α} {f g : α → Run β} {good : α → Prop} {good' : β → Prop}
    (first : S.Joint c c₁ x y good) (itself : S.Joint c c₁ y y good)
    (next : ∀ machine a middle, x machine = .ok a middle → good a → S.Fits c₁ middle →
      S.Ends c' good' middle (f a middle) (g a (S.beside middle)))
    (nextItself : ∀ machine a middle, y machine = .ok a middle → good a → S.Fits c₁ middle →
      S.Ends c' good' middle (g a middle) (g a (S.beside middle))) (within : c₁.Within c') :
    S.Joint c c' (x >>= f) (y >>= g) good' := by
  intro machine fits
  have h := first machine fits
  change S.Ends c' good' machine (EStateM.bind x f machine) (EStateM.bind y g (S.beside machine))
  unfold EStateM.bind
  cases ending : x machine with
  | ok a middle =>
    rw [ending] at h
    obtain ⟨other, value, after⟩ := h
    rw [other]
    exact .prepend after (next machine a middle ending value after.fits) within
  | error interruption middle =>
    rw [ending] at h
    cases interruption with
    | exception exception =>
      obtain ⟨other, meets, after⟩ := h
      rw [other]
      exact ⟨rfl, meets, after.mono within⟩
    | outOfFuel =>
      refine ⟨fun loose => ?_, fun strict => ⟨(h.2 strict).1, (h.2 strict).2.trans ?_⟩⟩
      · rw [(h.1 loose).1]
        exact ⟨rfl, (h.1 loose).2⟩
      -- the first run has stopped, so that the second one goes on alone
      · have again := itself machine fits
        rw [fits.beside_eq strict] at again ⊢
        cases ending' : y machine with
        | error _ _ => exact .refl _
        | ok a middle =>
          rw [ending'] at again
          obtain ⟨-, value, after⟩ := again
          exact (nextItself machine a middle ending' value after.fits).keeps strict

theorem Joint.bind {x y : Run α} {f g : α → Run β} {good : α → Prop} {good' : β → Prop}
    (first : S.Joint c c₁ x y good) (itself : S.Joint c c₁ y y good)
    (next : ∀ a, good a → S.Joint c₁ c' (f a) (g a) good')
    (nextItself : ∀ a, good a → S.Joint c₁ c' (g a) (g a) good') (within : c₁.Within c') :
    S.Joint c c' (x >>= f) (y >>= g) good' :=
  first.bindFrom itself (fun _ a middle _ value fits => next a value middle fits)
    (fun _ a middle _ value fits => nextItself a value middle fits) within

theorem InStep.bindGrowing {x y : Run α} {f g : α → Run β} {good : α → Prop} {good' : β → Prop}
    (first : S.InStep c c₁ x y good) (within : c₁.Within c')
    (next : ∀ a, good a → S.InStep c₁ c' (f a) (g a) good') :
    S.InStep c c' (x >>= f) (y >>= g) good' where
  joint := first.joint.bind first.itself (fun a value => (next a value).joint)
    (fun a value => (next a value).itself) within
  itself := first.itself.bind first.itself (fun a value => (next a value).itself)
    (fun a value => (next a value).itself) within

theorem InStep.bind {x y : Run α} {f g : α → Run β} {good : α → Prop} {good' : β → Prop}
    (first : S.InStep c c' x y good) (next : ∀ a, good a → S.InStep c' c' (f a) (g a) good') :
    S.InStep c c' (x >>= f) (y >>= g) good' := first.bindGrowing (.refl _) next

theorem InStep.mono {x y : Run α} {good good' : α → Prop} (h : S.InStep c c₁ x y good)
    (within : c₁.Within c') (better : ∀ value, good value → good' value) :
    S.InStep c c' x y good' where
  joint := fun machine fits => (h.joint machine fits).mono within better
  itself := fun machine fits => (h.itself machine fits).mono within better

theorem InStep.of_within {x y : Run α} {good : α → Prop} (h : S.InStep c₁ c' x y good)
    (within : c.Within c₁) : S.InStep c c' x y good where
  joint := fun machine fits => h.joint machine (fits.mono within)
  itself := fun machine fits => h.itself machine (fits.mono within)

/-- A run that does not look at the host is in step with itself. -/
theorem InStep.of_run {x : Run α} {good : α → Prop}
    (h : ∀ machine, S.Fits c machine → S.Ends c' good machine (x machine) (x (S.beside machine))) :
    S.InStep c c' x x good := ⟨h, h⟩

theorem InStep.pure {good : α → Prop} {value : α} (h : good value) :
    S.InStep c c (pure value) (pure value) good :=
  .of_run fun _ fits => ⟨rfl, h, .refl fits⟩

theorem InStep.throw {good : α → Prop} {exception : Exception} (h : exception.Meets S.check) :
    S.InStep c c (throw (.exception exception) : Run α) (throw (.exception exception)) good :=
  .of_run fun _ fits => ⟨rfl, h, .refl fits⟩

theorem InStep.fault {good : α → Prop} (f : Fault) :
    S.InStep c c (Run.fault f : Run α) (Run.fault f) good := .throw trivial

theorem InStep.outOfFuel {good : α → Prop} :
    S.InStep c c (MonadExcept.throw .outOfFuel : Run α) (MonadExcept.throw .outOfFuel) good := by
  apply InStep.of_run
  intro machine fits
  refine ⟨fun _ => ⟨rfl, fits.host⟩, fun strict => ⟨.refl _, ?_⟩⟩
  rw [fits.beside_eq strict]
  exact .refl _

end Setting

end DarijaScript
