import DarijaScript.Proofs.Evaluation.Judgement.Calls

/-!
# Invariants of the store

An invariant says what is known of the store and its active scope, how the store may change, in which
scopes names may be bound, and which exceptions may leave a tree. It holds of everything that the
interpreter does if it is kept by the few changes that a step can make of the scopes: binding a name
in a scope of one's own, assigning to a variable, and adding a scope.
-/

namespace DarijaScript

/-- A condition on the store, on its changes and on exceptions that every step keeps. -/
structure Invariant where
  /-- The marks that the trees may have. -/
  good : Mark → Prop
  /-- Names may be bound in the scope. -/
  mayBind : ScopeId → Prop
  /-- What holds of the store and the active scope. -/
  fits : Store → ScopeId → Prop
  /-- What may become of the store. -/
  changes : Store → Store → Prop
  /-- The exceptions that may leave a tree. -/
  raises : Exception → Prop
  refl : ∀ store, changes store store
  trans : ∀ {first second third}, changes first second → changes second third →
    changes first third
  others : ∀ {store changed : Store}, changed.scopes = store.scopes → store.ObjectStep changed →
    changes store changed
  binds : ∀ {store : Store} {id name binding}, mayBind id →
    changes store (store.define id name binding)
  assigns : ∀ {store : Store} {id name owner binding} (value : Value), fits store id →
    store.resolve? id name = some (owner, binding) → binding.assignable = true →
      changes store (store.define owner name ⟨value, true⟩)
  adds : ∀ {store : Store} (scope : Scope), changes store (store.addScope scope)
  kept : ∀ {store changed id}, fits store id → changes store changed → fits changed id
  next : ∀ {store : Store} {id}, fits store id → mayBind store.nextScope
  enters : ∀ {store : Store} {id}, fits store id → fits (store.addChild id) store.nextScope
  renews : ∀ {store : Store} {id}, fits store id → fits (store.addSnapshot id) store.nextScope
  receiver : ∀ {store : Store} {id}, fits store id → store.lookup? id Keyword.hadi.text = none →
    raises (.fault (.undefinedVariable Keyword.hadi.text) .unknown)
  nesting : ∀ limit, raises (.fault (.nestingLimit limit) .unknown)
  located : ∀ {mark e}, good mark → raises e ∨ e.position.line = 0 →
    raises (e.located mark.position)

/-- Every scope of a call may become the active one. -/
class Invariant.Receiving (I : Invariant) : Prop where
  receives : ∀ {store changed : Store} {id callee}, I.fits store id → I.changes store changed →
    changed.declares callee Keyword.hadi.text = true → I.fits changed callee

/-- What is known where some steps begin. -/
structure Stance where
  /-- Names may be bound in the active scope. -/
  own : Prop
  /-- Exceptions of the steps are still to be given a place. -/
  loose : Prop

namespace Invariant

variable (I : Invariant)

/-- The machine is as the invariant wants it. -/
structure Fits (c : Stance) (machine : Machine) : Prop where
  known : machine.store.Meets (Node.Marked I.good)
  active : I.fits machine.store machine.scope
  own : c.own → I.mayBind machine.scope

/-- The machine is still as the invariant wants it. -/
structure Kept (c : Stance) (machine after : Machine) : Prop where
  changes : I.changes machine.store after.store
  fits : I.Fits c after

/-- The exception may end the steps. -/
def Raises (c : Stance) (e : Exception) : Prop :=
  e.value.Meets (Node.Marked I.good) ∧ (I.raises e ∨ c.loose ∧ e.position.line = 0)

/-- The run ends as the invariant wants it. -/
def Ends {α : Type} (c : Stance) (known : α → Prop) (machine : Machine) : Ending α → Prop
  | .ok value after => known value ∧ I.Kept c machine after
  | .error (.exception e) after => I.Raises c e ∧ I.Kept c machine after
  | .error .outOfFuel after => I.changes machine.store after.store

/-- The invariant is kept by the steps. -/
def Holds {α : Type} (c : Stance) (steps : Run α) (known : α → Prop) : Prop :=
  ∀ machine, I.Fits c machine → I.Ends c known machine (steps machine)

variable {I} {c : Stance} {α β : Type} {machine after : Machine}

theorem Fits.kept (h : I.Fits c machine) (changes : I.changes machine.store after.store)
    (known : after.store.Meets (Node.Marked I.good)) (same : after.scope = machine.scope) :
    I.Kept c machine after where
  changes := changes
  fits := ⟨known, same ▸ I.kept h.active changes, fun own => same ▸ h.own own⟩

theorem Fits.self (h : I.Fits c machine) : I.Kept c machine machine := ⟨I.refl _, h⟩

theorem Fits.next (h : I.Fits c machine) : I.mayBind machine.store.nextScope := I.next h.active

/-- The machine with a new scope inside the active one in its place. -/
theorem Fits.newScope (h : I.Fits c machine) :
    I.Fits ⟨True, False⟩ { machine with
      store := machine.store.addChild machine.scope, scope := machine.store.nextScope } :=
  ⟨h.known.addChild _, I.enters h.active, fun _ => h.next⟩

theorem Fits.newScopeWith {name : String} {value : Value} (h : I.Fits c machine)
    (meets : value.Meets (Node.Marked I.good)) :
    I.Fits ⟨True, False⟩ { machine with
      store := (machine.store.addChild machine.scope).define machine.store.nextScope name
        ⟨value, true⟩
      scope := machine.store.nextScope } :=
  ⟨(h.known.addChild _).define fun _ => meets, I.kept (I.enters h.active) (I.binds h.next),
    fun _ => h.next⟩

theorem Kept.trans {middle : Machine} (h : I.Kept c machine middle)
    (h' : I.Kept c middle after) : I.Kept c machine after :=
  ⟨I.trans h.changes h'.changes, h'.fits⟩

theorem Ends.prepend {known : α → Prop} {ending : Ending α} {middle : Machine}
    (h : I.Kept c machine middle) (h' : I.Ends c known middle ending) :
    I.Ends c known machine ending := by
  match ending, h' with
  | .ok _ _, ⟨fine, kept⟩ => exact ⟨fine, h.trans kept⟩
  | .error (.exception _) _, ⟨raised, kept⟩ => exact ⟨raised, h.trans kept⟩
  | .error .outOfFuel _, changes => exact I.trans h.changes changes

/-- However the run ends, the store has changed as the invariant wants it. -/
theorem Ends.changes {known : α → Prop} {ending : Ending α} (h : I.Ends c known machine ending) :
    I.changes machine.store ending.machine.store := by
  match ending, h with
  | .ok _ _, ⟨_, kept⟩ => exact kept.changes
  | .error (.exception _) _, ⟨_, kept⟩ => exact kept.changes
  | .error .outOfFuel _, changes => exact changes

/-- A run after another one, from the machine in which that one ends. -/
theorem Ends.bind {first : Run α} {next : α → Run β} {known : α → Prop} {known' : β → Prop}
    (ends : I.Ends c known machine (first machine))
    (h : ∀ value, known value → I.Holds c (next value) known') :
    I.Ends c known' machine ((first >>= next) machine) := by
  change I.Ends c known' machine (EStateM.bind first next machine)
  unfold EStateM.bind
  match ending : first machine with
  | .ok value middle =>
    rw [ending] at ends
    exact (h value ends.1 middle ends.2.fits).prepend ends.2
  | .error (.exception _) _ =>
    rw [ending] at ends
    exact ends
  | .error .outOfFuel _ =>
    rw [ending] at ends
    exact ends

namespace Holds

/-! ### Steps -/

theorem pure {known : α → Prop} {value : α} (h : known value) :
    I.Holds c (Pure.pure value) known := fun _ fits => ⟨h, fits.self⟩

theorem bind {first : Run α} {next : α → Run β} {known : α → Prop} {known' : β → Prop}
    (h : I.Holds c first known) (h' : ∀ value, known value → I.Holds c (next value) known') :
    I.Holds c (first >>= next) known' := fun machine fits => (h machine fits).bind h'

theorem raise {known : α → Prop} {e : Exception} (h : I.Raises c e) :
    I.Holds c (throw (.exception e)) known := fun _ fits => ⟨h, fits.self⟩

theorem fault {known : α → Prop} (f : Fault) (loose : c.loose) :
    I.Holds c (Run.fault f) known := raise ⟨trivial, .inr ⟨loose, rfl⟩⟩

theorem readStore {read : Store → α} {known : α → Prop}
    (h : ∀ store : Store, store.Meets (Node.Marked I.good) → known (read store)) :
    I.Holds c (Run.readStore read) known := fun _ fits => ⟨h _ fits.known, fits.self⟩

theorem changeStore {change : Store → Store}
    (h : ∀ machine, I.Fits c machine → I.changes machine.store (change machine.store) ∧
      (change machine.store).Meets (Node.Marked I.good)) :
    I.Holds c (Run.changeStore change) fun _ => True := by
  intro machine fits
  obtain ⟨changes, known⟩ := h machine fits
  exact ⟨trivial, fits.kept changes known rfl⟩

theorem located {steps : Run α} {known : α → Prop} {mark : Mark} (placed : I.good mark)
    (h : I.Holds ⟨c.own, True⟩ steps known) :
    I.Holds c (Run.located mark.position steps) known := by
  intro machine fits
  have ends := h machine ⟨fits.known, fits.active, fits.own⟩
  unfold Run.located
  match ending : steps machine with
  | .ok _ _ =>
    rw [ending] at ends
    exact ⟨ends.1, ends.2.changes, ends.2.fits.known, ends.2.fits.active, ends.2.fits.own⟩
  | .error (.exception e) _ =>
    rw [ending] at ends
    obtain ⟨⟨known, raised⟩, kept⟩ := ends
    refine ⟨⟨?_, .inl (I.located placed (raised.imp_right And.right))⟩, kept.changes,
      kept.fits.known, kept.fits.active, kept.fits.own⟩
    cases e <;> exact known
  | .error .outOfFuel _ =>
    rw [ending] at ends
    exact ends

theorem outcome {steps : Run α} {known : α → Prop} (h : I.Holds c steps known) :
    I.Holds c (Run.outcome steps) (Judgement.IsOutcome (I.Raises c) known) := by
  intro machine fits
  have ends := h machine fits
  unfold Run.outcome
  match ending : steps machine with
  | .ok _ _ | .error (.exception _) _ | .error .outOfFuel _ =>
    rw [ending] at ends
    exact ends

theorem outside {steps : Run α} (h : ∀ machine, ∃ value after, steps machine = .ok value after ∧
    after.store = machine.store ∧ after.scope = machine.scope) :
    I.Holds c steps fun _ => True := by
  intro machine fits
  obtain ⟨value, after, eq, same, active⟩ := h machine
  rw [eq]
  exact ⟨trivial, fits.kept (same ▸ I.refl _) (same ▸ fits.known) active⟩

/-- What waits is not part of the store. -/
theorem nextAppointment : I.Holds c Run.nextAppointment fun _ => True := by
  apply outside
  intro machine
  unfold Run.nextAppointment
  split
  · exact ⟨_, _, rfl, rfl, rfl⟩
  · exact ⟨_, _, rfl, rfl, rfl⟩

/-! ### Names -/

theorem assign {name : String} {value : Value} (loose : c.loose)
    (known : value.Meets (Node.Marked I.good)) :
    I.Holds c (Run.assign name value) fun _ => True := by
  intro machine fits
  rw [Run.assign_apply]
  cases resolved : machine.store.resolve? machine.scope name with
  | none => exact fault _ loose machine fits
  | some found =>
    dsimp only
    split
    · next assignable =>
      exact ⟨trivial, fits.kept (I.assigns value fits.active resolved assignable)
        (fits.known.define fun _ => known) rfl⟩
    · exact fault _ loose machine fits

theorem receiver :
    I.Holds c (Run.lookup Keyword.hadi.text) (Value.Meets (Node.Marked I.good)) := by
  intro machine fits
  rw [Run.lookup_apply]
  cases bound : machine.store.lookup? machine.scope Keyword.hadi.text with
  | none => exact ⟨⟨trivial, .inl (I.receiver fits.active bound)⟩, fits.self⟩
  | some value => exact ⟨fits.known.lookup? (.inr rfl) value bound, fits.self⟩

theorem define {value : ScopeId → Value} (name : String) (own : c.own)
    (known : ∀ id, (value id).Meets (Node.Marked I.good)) :
    I.Holds c (Run.scope >>= fun id => Run.define id name (value id) true) fun _ => True :=
  fun _ fits => ⟨trivial, fits.kept (I.binds (fits.own own))
    (fits.known.define fun _ => known _) rfl⟩

theorem declare {name : String} {value : Value} {assignable : Bool} (own : c.own)
    (loose : c.loose) (known : value.Meets (Node.Marked I.good)) :
    I.Holds c (Run.declare name value assignable) fun _ => True := by
  intro machine fits
  change I.Ends c _ machine ((if machine.store.declares machine.scope name then
    Run.fault (.redeclaration name) else Run.define machine.scope name value assignable :
      Run Unit) machine)
  split
  · exact fault _ loose machine fits
  · exact ⟨trivial, fits.kept (I.binds (fits.own own)) (fits.known.define fun _ => known) rfl⟩

/-! ### Scopes -/

theorem renewScope : I.Holds c Run.renewScope fun _ => True := by
  intro machine fits
  have changes : I.changes machine.store (machine.store.addSnapshot machine.scope) := by
    unfold Store.addSnapshot
    split <;> exact I.adds _
  exact ⟨trivial, changes, fits.known.addSnapshot _, I.renews fits.active, fun _ => fits.next⟩

/-- Steps in a scope that was opened for them. -/
theorem inScope {steps : Run α} {known : α → Prop} {opened : Machine} {id : ScopeId}
    (h : I.Holds ⟨True, False⟩ steps known) (fits : I.Fits c machine)
    (changes : I.changes machine.store opened.store) (same : opened.scope = machine.scope)
    (inner : I.Fits ⟨True, False⟩ { opened with scope := id }) :
    I.Ends c known machine (Run.inScope id steps opened) := by
  have ends := h _ inner
  unfold Run.inScope
  match ending : steps { opened with scope := id } with
  | .ok _ after =>
    simp only [ending] at ends ⊢
    exact ⟨ends.1, fits.kept (I.trans changes ends.2.changes) ends.2.fits.known same⟩
  | .error (.exception e) after =>
    simp only [ending] at ends ⊢
    obtain ⟨⟨known, raised⟩, kept⟩ := ends
    exact ⟨⟨known, .inl (raised.resolve_right And.left)⟩,
      fits.kept (I.trans changes kept.changes) kept.fits.known same⟩
  | .error .outOfFuel after =>
    simp only [ending] at ends ⊢
    exact I.trans changes ends

theorem inNew {steps : Run α} {known : α → Prop} (h : I.Holds ⟨True, False⟩ steps known) :
    I.Holds c (Run.newScope >>= fun id => Run.inScope id steps) known := fun _ fits =>
  h.inScope fits (I.adds _) rfl fits.newScope

theorem inHandler {steps : Run α} {known : α → Prop} {name : String} {value : Value}
    (meets : value.Meets (Node.Marked I.good)) (h : I.Holds ⟨True, False⟩ steps known) :
    I.Holds c (Run.newScopeWith name value >>= fun id => Run.inScope id steps) known :=
  fun _ fits =>
    h.inScope fits (I.trans (I.adds _) (I.binds fits.next)) rfl (fits.newScopeWith meets)

end Holds

/-! ### Calls -/

/-- The steps bind names in a scope and do nothing else. -/
def Fills (I : Invariant) (id : ScopeId) (steps : Run Unit) : Prop :=
  ∀ machine : Machine, machine.store.Meets (Node.Marked I.good) → ∃ store,
    steps machine = .ok () { machine with store := store } ∧
      I.changes machine.store store ∧ store.Meets (Node.Marked I.good) ∧
        store.scopes.size = machine.store.scopes.size ∧
          ∀ name, machine.store.declares id name = true → store.declares id name = true

namespace Fills

variable {id : ScopeId} {first second : Run Unit}

theorem pure : I.Fills id (Pure.pure ()) := fun machine known =>
  ⟨machine.store, rfl, I.refl _, known, rfl, fun _ bound => bound⟩

theorem bind (h : I.Fills id first) (h' : I.Fills id second) :
    I.Fills id (first >>= fun _ => second) := by
  intro machine known
  obtain ⟨store, ran, changes, known, size, declares⟩ := h machine known
  obtain ⟨store', ran', changes', known', size', declares'⟩ :=
    h' { machine with store := store } known
  refine ⟨store', ?_, I.trans changes changes', known', size'.trans size,
    fun name bound => declares' name (declares name bound)⟩
  change EStateM.bind first _ machine = _
  unfold EStateM.bind
  rw [ran]
  exact ran'

theorem define {name : String} {value : Value} {assignable : Bool} (mayBind : I.mayBind id)
    (known : value.Meets (Node.Marked I.good)) :
    I.Fills id (Run.define id name value assignable) := by
  intro machine meets
  refine ⟨_, rfl, I.binds mayBind, meets.define fun _ => known, Store.size_define _ _ _, ?_⟩
  intro key bound
  rw [Store.declares_eq, Store.binding?_define]
  split
  · rfl
  · rwa [Store.declares_eq] at bound

theorem bindParameters (mayBind : I.mayBind id) (params : List Identifier) :
    ∀ {args : List Value}, (∀ arg ∈ args, arg.Meets (Node.Marked I.good)) →
      I.Fills id (Evaluation.bindParameters id params args) := by
  induction params with
  | nil => exact fun _ => pure
  | cons param rest ih =>
    intro args passed
    cases args with
    | nil =>
      have first : I.Fills id (Run.define id param.name .undefined true) :=
        define mayBind trivial
      exact first.bind (ih passed)
    | cons arg args =>
      obtain ⟨known, others⟩ := List.forall_mem_cons.mp passed
      exact (define mayBind known).bind (ih others)

theorem bindOwnName (mayBind : I.mayBind id) {f : Function} (closure : ScopeId)
    (known : f.Marked I.good) : I.Fills id (Evaluation.bindOwnName id f closure) := by
  unfold Evaluation.bindOwnName
  split
  · exact define mayBind (Function.Marked.meets (Node.follows_marked _) known)
  · exact pure

end Fills

/-- What a call binds leaves the receiver bound in its scope. -/
theorem exists_bindCall (machine : Machine) {f : Function} (closure : ScopeId) {id : ScopeId}
    {receiver : Value} {args : List Value} (mayBind : I.mayBind id) (marked : f.Marked I.good)
    (owner : receiver.Meets (Node.Marked I.good))
    (passed : ∀ arg ∈ args, arg.Meets (Node.Marked I.good))
    (meets : machine.store.Meets (Node.Marked I.good)) (inside : id < machine.store.scopes.size) :
    ∃ store, Evaluation.bindCall f closure receiver args id machine =
        .ok () { machine with store := store } ∧ I.changes machine.store store ∧
          store.Meets (Node.Marked I.good) ∧ store.declares id Keyword.hadi.text = true := by
  obtain ⟨named, ran, changes, meets, size, -⟩ :=
    Fills.bindOwnName mayBind closure marked machine meets
  have received : (named.define id Keyword.hadi.text ⟨receiver, false⟩).Meets
      (Node.Marked I.good) := meets.define fun _ => owner
  obtain ⟨store, ran', changes', meets', -, declares⟩ :=
    Fills.bindParameters mayBind f.params passed
      { machine with store := named.define id Keyword.hadi.text ⟨receiver, false⟩ } received
  refine ⟨store, ?_, I.trans changes (I.trans (I.binds mayBind) changes'), meets', ?_⟩
  · change EStateM.bind (Evaluation.bindOwnName id f closure) _ machine = _
    unfold EStateM.bind
    rw [ran]
    exact ran'
  · exact declares _ (Store.declares_define (size ▸ inside))

/-- The new scope of a call that may become the active one. -/
theorem Fits.exists_callScope {f : Function} {receiver : Value} {args : List Value}
    (fits : I.Fits c machine) {closure : ScopeId} (marked : f.Marked I.good)
    (owner : receiver.Meets (Node.Marked I.good))
    (passed : ∀ arg ∈ args, arg.Meets (Node.Marked I.good))
    (receives : ∀ store, I.changes (machine.store.addChild closure) store →
      store.declares machine.store.nextScope Keyword.hadi.text = true →
        I.fits store machine.store.nextScope) :
    ∃ store, Evaluation.callScope f closure receiver args machine =
        .ok machine.store.nextScope { machine with store := store } ∧
      I.changes machine.store store ∧
        I.Fits ⟨True, False⟩ { machine with store := store, scope := machine.store.nextScope } := by
  have inside : machine.store.nextScope < (machine.store.addChild closure).scopes.size := by
    rw [Store.size_addChild]
    exact Nat.lt_succ_self _
  obtain ⟨store, ran, changes, meets, declares⟩ :=
    exists_bindCall { machine with store := machine.store.addChild closure } closure fits.next
      marked owner passed (fits.known.addChild closure) inside
  refine ⟨store, ?_, I.trans (I.adds _) changes,
    ⟨meets, receives store changes declares, fun _ => fits.next⟩⟩
  change EStateM.bind (Evaluation.bindCall f closure receiver args machine.store.nextScope) _
    { machine with store := machine.store.addChild closure } = _
  unfold EStateM.bind
  rw [ran]
  rfl

/-- Steps in the new scope of a call that may become the active one. -/
theorem Fits.inCall {steps : Run α} {known : α → Prop} {f : Function} {receiver : Value}
    {args : List Value} (fits : I.Fits c machine) {closure : ScopeId} (marked : f.Marked I.good)
    (owner : receiver.Meets (Node.Marked I.good))
    (passed : ∀ arg ∈ args, arg.Meets (Node.Marked I.good))
    (receives : ∀ store, I.changes (machine.store.addChild closure) store →
      store.declares machine.store.nextScope Keyword.hadi.text = true →
        I.fits store machine.store.nextScope)
    (h : I.Holds ⟨True, False⟩ steps known) :
    I.Ends c known machine
      ((Evaluation.callScope f closure receiver args >>= fun id => Run.inScope id steps)
        machine) := by
  obtain ⟨store, opened, changes, inner⟩ := fits.exists_callScope marked owner passed receives
  rw [Run.bind_ok opened]
  exact h.inScope fits changes rfl inner

theorem Holds.inCall [I.Receiving] {steps : Run α} {known : α → Prop} {f : Function}
    {receiver : Value} {args : List Value} (closure : ScopeId) (marked : f.Marked I.good)
    (owner : receiver.Meets (Node.Marked I.good))
    (passed : ∀ arg ∈ args, arg.Meets (Node.Marked I.good))
    (h : I.Holds ⟨True, False⟩ steps known) :
    I.Holds c (Evaluation.callScope f closure receiver args >>= fun id => Run.inScope id steps)
      known := by
  intro machine fits
  refine fits.inCall marked owner passed (fun store changes declares => ?_) h
  exact Receiving.receives fits.active (I.trans (I.adds _) changes) declares

/-! ### Limits -/

theorem Holds.asCall {steps : Run α} {known : α → Prop} (h : I.Holds c steps known) :
    I.Holds c (Run.asCall steps) known := by
  intro machine fits
  have ends := h { machine with depth := machine.depth + 1 } ⟨fits.known, fits.active, fits.own⟩
  unfold Run.asCall
  match ending : steps { machine with depth := machine.depth + 1 } with
  | .ok _ _ | .error (.exception _) _ =>
    simp only [ending] at ends ⊢
    exact ⟨ends.1, ends.2.changes, ends.2.fits.known, ends.2.fits.active, ends.2.fits.own⟩
  | .error .outOfFuel _ =>
    simp only [ending] at ends ⊢
    exact ends

theorem Holds.deeper {steps : Run α} {known : α → Prop} (h : I.Holds c steps known) :
    I.Holds c (Run.deeper steps) known := by
  intro machine fits
  have ends := h { machine with nesting := machine.nesting + 1 }
    ⟨fits.known, fits.active, fits.own⟩
  unfold Run.deeper
  dsimp only
  split
  · exact ⟨⟨trivial, .inl (I.nesting _)⟩, fits.self⟩
  · match ending : steps { machine with nesting := machine.nesting + 1 } with
    | .ok _ _ | .error (.exception _) _ =>
      simp only [ending] at ends ⊢
      exact ⟨ends.1, ends.2.changes, ends.2.fits.known, ends.2.fits.active, ends.2.fits.own⟩
    | .error .outOfFuel _ =>
      simp only [ending] at ends ⊢
      exact ends

/-- An invariant is a judgement about single runs. -/
def toJudgement (I : Invariant) : Judgement where
  Context := Stance
  relates := fun c steps _ known => I.Holds c steps known
  good := I.good
  owns := Stance.own
  inside := fun _ => ⟨True, False⟩
  loose := fun c => ⟨c.own, True⟩
  raises := I.Raises
  owns_inside := fun _ => trivial
  raises_inside := fun raised => ⟨raised.1, .inl (raised.2.resolve_right And.left)⟩
  raises_fault := fun _ => ⟨trivial, .inr ⟨trivial, rfl⟩⟩
  raises_raised := fun known => ⟨known, .inr ⟨trivial, rfl⟩⟩
  known := And.left
  pure := .pure
  bind := .bind
  raise := .raise
  outOfFuel := fun _ _ => I.refl _
  located := .located
  outcome := .outcome
  readStore := .readStore
  changeStore := fun same step known => .changeStore fun _ fits =>
    ⟨I.others (same _) (step _), known _ fits.known⟩
  surrounding := fun h => .outside h.gives
  asCall := .asCall

instance (I : Invariant) : I.toJudgement.Scoped where
  scope := Holds.outside fun machine => ⟨_, machine, rfl, rfl, rfl⟩
  assign := Holds.assign trivial
  receiver := Holds.receiver
  define := Holds.define
  declare := fun own => Holds.declare own trivial
  renewScope := fun _ => Holds.renewScope
  inNew := Holds.inNew
  inHandler := Holds.inHandler

instance (I : Invariant) [I.Receiving] : I.toJudgement.Entering where
  inCall := Holds.inCall

instance (I : Invariant) : I.toJudgement.Limited where
  mayCall := Holds.outside fun machine => ⟨_, machine, rfl, rfl, rfl⟩
  deeper := Holds.deeper

/-- The call of a function of the program in whose scope the invariant holds again. -/
theorem Fits.callFunction {inner : Interpreter} (fits : I.Fits c machine) (loose : c.loose)
    (respects : I.toJudgement.Respects inner) {f : Function} {closure : ScopeId} {receiver : Value}
    {args : List Value} (marked : f.Marked I.good) (owner : receiver.Meets (Node.Marked I.good))
    (passed : ∀ arg ∈ args, arg.Meets (Node.Marked I.good))
    (receives : ∀ store, I.changes (machine.store.addChild closure) store →
      store.declares machine.store.nextScope Keyword.hadi.text = true →
        I.fits store machine.store.nextScope) :
    I.Ends c (Value.Meets (Node.Marked I.good)) machine
      (Evaluation.callFunction inner f closure receiver args machine) := by
  rw [Evaluation.callFunction_eq_ite]
  split
  · have body : I.Holds ⟨True, False⟩ (Evaluation.items inner f.body) I.toJudgement.KnowsFlow :=
      Judgement.items respects trivial (Function.marked_iff.mp marked).2.2
    have result : ∀ flow, I.toJudgement.KnowsFlow flow →
        I.Holds c (pure flow.result) (Value.Meets (Node.Marked I.good)) :=
      fun flow known => Holds.pure (Setting.meets_result known)
    have called := (fits.inCall marked owner passed receives body.asCall).bind result
    simpa only [Evaluation.executeFunction, bind_assoc, Run.asCall_inScope] using called
  · exact Holds.fault _ loose machine fits

end Invariant

end DarijaScript
