import DarijaScript.Proofs.Evaluation.Invariant

/-!
# Runs that coincide under an invariant

Two runs need to be the same from those machines only that are as an invariant wants them, since no
others come up. So an invariant is a judgement about two runs as well: the first one keeps it, and the
second one ends as the first one does.
-/

namespace DarijaScript

theorem Run.deeper_congr {α : Type} {steps steps' : Run α} {machine : Machine}
    (h : steps' { machine with nesting := machine.nesting + 1 } =
      steps { machine with nesting := machine.nesting + 1 }) :
    Run.deeper steps' machine = Run.deeper steps machine := by
  unfold Run.deeper
  dsimp only
  rw [h]

namespace Invariant

/-- The first steps keep the invariant, and where it holds the second ones do the same. -/
structure Coincides (I : Invariant) {α : Type} (c : Stance) (steps steps' : Run α)
    (known : α → Prop) : Prop where
  holds : I.Holds c steps known
  same : ∀ machine, I.Fits c machine → steps' machine = steps machine

variable {I : Invariant} {c : Stance} {α β : Type}

theorem Holds.coincides {steps : Run α} {known : α → Prop} (h : I.Holds c steps known) :
    I.Coincides c steps steps known := ⟨h, fun _ _ => rfl⟩

namespace Coincides

variable {steps steps' : Run α} {known : α → Prop}

theorem bind {next next' : α → Run β} {known' : β → Prop} (h : I.Coincides c steps steps' known)
    (h' : ∀ value, known value → I.Coincides c (next value) (next' value) known') :
    I.Coincides c (steps >>= next) (steps' >>= next') known' where
  holds := h.holds.bind fun value fine => (h' value fine).holds
  same := by
    intro machine fits
    have ends := h.holds machine fits
    have same := h.same machine fits
    cases ended : steps machine with
    | ok value middle =>
      rw [ended] at ends same
      rw [Run.bind_ok ended, Run.bind_ok same]
      exact (h' value ends.1).same middle ends.2.fits
    | error interruption middle =>
      rw [ended] at same
      rw [Run.bind_error ended, Run.bind_error same]

theorem located {mark : Mark} (placed : I.good mark)
    (h : I.Coincides ⟨c.own, True⟩ steps steps' known) :
    I.Coincides c (Run.located mark.position steps) (Run.located mark.position steps') known where
  holds := h.holds.located placed
  same := by
    intro machine fits
    unfold Run.located
    rw [h.same machine ⟨fits.known, fits.active, fits.own⟩]

theorem outcome (h : I.Coincides c steps steps' known) :
    I.Coincides c (Run.outcome steps) (Run.outcome steps')
      (Judgement.IsOutcome (I.Raises c) known) where
  holds := h.holds.outcome
  same := by
    intro machine fits
    unfold Run.outcome
    rw [h.same machine fits]

theorem asCall (h : I.Coincides c steps steps' known) :
    I.Coincides c (Run.asCall steps) (Run.asCall steps') known where
  holds := h.holds.asCall
  same := by
    intro machine fits
    have entered := h.same { machine with depth := machine.depth + 1 }
      ⟨fits.known, fits.active, fits.own⟩
    unfold Run.asCall
    dsimp only
    rw [entered]

theorem deeper (h : I.Coincides c steps steps' known) :
    I.Coincides c (Run.deeper steps) (Run.deeper steps') known where
  holds := h.holds.deeper
  same := fun _ fits => Run.deeper_congr (h.same _ ⟨fits.known, fits.active, fits.own⟩)

/-! ### Scopes -/

/-- Steps in a scope that was opened for them. -/
theorem inScope {opened : Machine} {id : ScopeId} (h : I.Coincides ⟨True, False⟩ steps steps' known)
    (inner : I.Fits ⟨True, False⟩ { opened with scope := id }) :
    Run.inScope id steps' opened = Run.inScope id steps opened := by
  unfold Run.inScope
  rw [h.same _ inner]

theorem inNew (h : I.Coincides ⟨True, False⟩ steps steps' known) :
    I.Coincides c (Run.newScope >>= fun id => Run.inScope id steps)
      (Run.newScope >>= fun id => Run.inScope id steps') known where
  holds := h.holds.inNew
  same := fun _ fits => h.inScope fits.newScope

theorem inHandler {name : String} {value : Value} (meets : value.Meets (Node.Marked I.good))
    (h : I.Coincides ⟨True, False⟩ steps steps' known) :
    I.Coincides c (Run.newScopeWith name value >>= fun id => Run.inScope id steps)
      (Run.newScopeWith name value >>= fun id => Run.inScope id steps') known where
  holds := h.holds.inHandler meets
  same := fun _ fits => h.inScope (fits.newScopeWith meets)

theorem inCall [I.Receiving] {f : Function} {receiver : Value} {args : List Value}
    (closure : ScopeId) (marked : f.Marked I.good) (owner : receiver.Meets (Node.Marked I.good))
    (passed : ∀ arg ∈ args, arg.Meets (Node.Marked I.good))
    (h : I.Coincides ⟨True, False⟩ steps steps' known) :
    I.Coincides c
      (Evaluation.callScope f closure receiver args >>= fun id => Run.inScope id steps)
      (Evaluation.callScope f closure receiver args >>= fun id => Run.inScope id steps')
      known where
  holds := h.holds.inCall closure marked owner passed
  same := by
    intro machine fits
    obtain ⟨store, opened, -, inner⟩ := fits.exists_callScope marked owner passed
      fun store changes => Receiving.receives fits.active (I.trans (I.adds _) changes)
    rw [Run.bind_ok opened, Run.bind_ok opened]
    exact h.inScope inner

end Coincides

/-- An invariant is a judgement about two runs. -/
def toComparing (I : Invariant) : Judgement :=
  { I.toJudgement with
    Context := Stance
    relates := fun c => I.Coincides c
    pure := fun known => Holds.coincides (.pure known)
    bind := .bind
    raise := fun raised => Holds.coincides (.raise raised)
    outOfFuel := Holds.coincides fun _ _ => I.refl _
    located := .located
    outcome := .outcome
    readStore := fun known => Holds.coincides (.readStore known)
    changeStore := fun same step known => Holds.coincides
      (.changeStore fun _ fits => ⟨I.others (same _) (step _), known _ fits.known⟩)
    surrounding := fun h => Holds.coincides (.outside h.gives)
    asCall := .asCall }

instance (I : Invariant) : I.toComparing.Scoped where
  scope := Holds.coincides (.outside fun machine => ⟨_, machine, rfl, rfl, rfl⟩)
  assign := fun known => Holds.coincides (.assign trivial known)
  receiver := Holds.receiver.coincides
  define := fun name own known => Holds.coincides (.define name own known)
  declare := fun own known => Holds.coincides (.declare own trivial known)
  renewScope := fun _ => Holds.renewScope.coincides
  inNew := .inNew
  inHandler := .inHandler

instance (I : Invariant) [I.Receiving] : I.toComparing.Entering where
  inCall := .inCall

instance (I : Invariant) : I.toComparing.Limited where
  mayCall := Holds.coincides (.outside fun machine => ⟨_, machine, rfl, rfl, rfl⟩)
  deeper := .deeper

end Invariant

end DarijaScript
