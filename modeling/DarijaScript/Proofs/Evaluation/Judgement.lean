import DarijaScript.Evaluation.Interpreter
import DarijaScript.Proofs.Evaluation.Known
import DarijaScript.Proofs.Evaluation.Unscoped
import DarijaScript.Proofs.Store.Objects
import DarijaScript.Proofs.Syntax.Mark

/-!
# Judgements about runs

A judgement says something about every run, in a way that is kept from the steps of the machine to
everything that the rules of evaluation make of them. What it must be for that is listed once here;
the rules are then gone through once for all judgements. A judgement may compare two runs, of the same
rules on two interpreters; one about a single run does not look at the other. Built-in functions ask
nothing of the active scope, so what a judgement says of names, scopes and calls is listed apart.
-/

namespace DarijaScript

/-- A function is known if its marks are; nothing is asked of names and choices. -/
def Node.Marked (good : Mark → Prop) : Node → Prop
  | .function f => f.Marked good
  | .name _ | .choice _ => True

theorem Node.follows_marked (good : Mark → Prop) : Node.Follows good (Node.Marked good) where
  name := fun _ _ => trivial
  function := fun _ known => known
  choice := fun _ _ => trivial

/-- The outcome is a value or an exception of the given kinds. -/
def Judgement.IsOutcome {α : Type} (raises : Exception → Prop) (known : α → Prop) :
    Except Exception α → Prop
  | .ok value => known value
  | .error e => raises e

/-- Something that is said of two runs. A context says what is known where they begin, and a condition
on the value of the first one what is known where they end. -/
structure Comparison where
  Context : Type
  relates : {α : Type} → Context → Run α → Run α → (α → Prop) → Prop

/-- What is said of a run compared with itself. -/
abbrev Comparison.holds (C : Comparison) {α : Type} (c : C.Context) (steps : Run α)
    (known : α → Prop) : Prop := C.relates c steps steps known

/-- A judgement about runs on trees with good marks. -/
structure Judgement extends Comparison where
  /-- The marks that the trees may have. -/
  good : Mark → Prop
  /-- Names may be bound in the active scope. -/
  owns : Context → Prop
  /-- In a scope that is opened here. -/
  inside : Context → Context
  /-- In steps whose exceptions will be given a place. -/
  loose : Context → Context
  /-- The exceptions that may end a run. -/
  raises : Context → Exception → Prop
  owns_inside : ∀ c, owns (inside c)
  raises_inside : ∀ {c e}, raises (inside c) e → raises c e
  raises_fault : ∀ {c} {f : Fault}, f.isFiringLimit = false → raises (loose c) (.fault f .unknown)
  raises_raised : ∀ {c} {value : Value}, value.Meets (Node.Marked good) →
    raises (loose c) (.raised value .unknown)
  /-- The value of an exception is known. -/
  known : ∀ {c e}, raises c e → e.value.Meets (Node.Marked good)
  pure : ∀ {α} {c} {known : α → Prop} {value : α}, known value →
    toComparison.holds c (Pure.pure value) known
  bind : ∀ {α β} {c} {first first' : Run α} {next next' : α → Run β} {known : α → Prop}
    {known' : β → Prop}, relates c first first' known →
      (∀ value, known value → relates c (next value) (next' value) known') →
        relates c (first >>= next) (first' >>= next') known'
  raise : ∀ {α} {c} {known : α → Prop} {e}, raises c e →
    toComparison.holds c (throw (.exception e)) known
  outOfFuel : ∀ {α} {c} {known : α → Prop}, toComparison.holds c (throw .outOfFuel) known
  located : ∀ {α} {c} {steps steps' : Run α} {known : α → Prop} {mark : Mark}, good mark →
    relates (loose c) steps steps' known →
      relates c (Run.located mark.position steps) (Run.located mark.position steps') known
  outcome : ∀ {α} {c} {steps steps' : Run α} {known : α → Prop}, relates c steps steps' known →
    relates c (Run.outcome steps) (Run.outcome steps') (Judgement.IsOutcome (raises c) known)
  readStore : ∀ {α} {c} {read : Store → α} {known : α → Prop},
    (∀ store : Store, store.Meets (Node.Marked good) → known (read store)) →
      toComparison.holds c (Run.readStore read) known
  /-- A change of the store alone that no scope is part of. -/
  changeStore : ∀ {c} {change : Store → Store}, (∀ store, (change store).scopes = store.scopes) →
    (∀ store : Store, store.ObjectStep (change store)) →
    (∀ store : Store, store.Meets (Node.Marked good) →
      (change store).Meets (Node.Marked good)) →
      toComparison.holds c (Run.changeStore change) fun _ => True
  surrounding : ∀ {α} {c} {steps : Run α}, steps.Surrounding →
    toComparison.holds c steps fun _ => True
  asCall : ∀ {α} {c} {steps steps' : Run α} {known : α → Prop}, relates c steps steps' known →
    relates c (Run.asCall steps) (Run.asCall steps') known

namespace Judgement

section

variable (J : Judgement)

/-- The judgement holds of names and of the scopes in which they are bound. -/
class Scoped : Prop where
  scope : ∀ {c}, J.holds c Run.scope fun _ => True
  assign : ∀ {c} {name : String} {value : Value}, value.Meets (Node.Marked J.good) →
    J.holds (J.loose c) (Run.assign name value) fun _ => True
  /-- The receiver has a value everywhere. -/
  receiver : ∀ {c}, J.holds c (Run.lookup Keyword.hadi.text) (Value.Meets (Node.Marked J.good))
  define : ∀ {c} {value : ScopeId → Value} (name : String), J.owns c →
    (∀ id, (value id).Meets (Node.Marked J.good)) →
      J.holds c (Run.scope >>= fun id => Run.define id name (value id) true) fun _ => True
  declare : ∀ {c} {name : String} {value : Value} {assignable : Bool}, J.owns c →
    value.Meets (Node.Marked J.good) →
      J.holds (J.loose c) (Run.declare name value assignable) fun _ => True
  renewScope : ∀ {c}, J.owns c → J.holds c Run.renewScope fun _ => True
  /-- Steps in a new scope inside the active one. -/
  inNew : ∀ {α} {c} {steps steps' : Run α} {known : α → Prop},
    J.relates (J.inside c) steps steps' known →
      J.relates c (Run.newScope >>= fun id => Run.inScope id steps)
        (Run.newScope >>= fun id => Run.inScope id steps') known
  /-- Steps in a new scope inside the active one in which a name is bound. -/
  inHandler : ∀ {α} {c} {steps steps' : Run α} {known : α → Prop} {name : String} {value : Value},
    value.Meets (Node.Marked J.good) → J.relates (J.inside c) steps steps' known →
      J.relates c (Run.newScopeWith name value >>= fun id => Run.inScope id steps)
        (Run.newScopeWith name value >>= fun id => Run.inScope id steps') known

/-- The judgement holds of the scopes of calls. -/
class Entering : Prop where
  /-- Steps in the new scope of a call. -/
  inCall : ∀ {α} {c} {steps steps' : Run α} {known : α → Prop} {f : Function} {receiver : Value}
    {args : List Value} (closure : ScopeId), f.Marked J.good → receiver.Meets (Node.Marked J.good) →
      (∀ arg ∈ args, arg.Meets (Node.Marked J.good)) → J.relates (J.inside c) steps steps' known →
        J.relates c (Evaluation.callScope f closure receiver args >>= fun id => Run.inScope id steps)
          (Evaluation.callScope f closure receiver args >>= fun id => Run.inScope id steps') known

/-- The judgement holds of what reads a limit and of what a limit may refuse. -/
class Limited : Prop where
  mayCall : ∀ {c}, J.holds c Run.mayCall fun _ => True
  deeper : ∀ {α} {c} {steps steps' : Run α} {known : α → Prop}, J.relates c steps steps' known →
    J.relates c (Run.deeper steps) (Run.deeper steps') known

end

variable {J : Judgement} {c : J.Context} {α β : Type}

variable (J) in
/-- The functions in the value have good marks. -/
abbrev Knows (value : Value) : Prop := value.Meets (Node.Marked J.good)

variable (J) in
/-- The functions in the value that is given back have good marks. -/
abbrev KnowsFlow (flow : Completion) : Prop := flow.Meets (Node.Marked J.good)

/-! ### The surroundings -/

theorem print (line : String) : J.holds c (Run.print line) fun _ => True :=
  J.surrounding ⟨fun _ _ => rfl, fun _ _ => rfl, fun _ => ⟨_, _, rfl, rfl, rfl⟩, fun _ => rfl⟩

theorem callHost {call : HostCall} {answer : Host → HostLog → α} :
    J.holds c (Run.callHost call answer) fun _ => True :=
  J.surrounding ⟨fun _ _ => rfl, fun _ _ => rfl, fun _ => ⟨_, _, rfl, rfl, rfl⟩, fun _ => rfl⟩

theorem currentTime : J.holds c Run.currentTime fun _ => True :=
  J.surrounding ⟨fun _ _ => rfl, fun _ _ => rfl, fun _ => ⟨_, _, rfl, rfl, rfl⟩, fun _ => rfl⟩

theorem changeAgenda {change : Agenda → Agenda}
    (still : ∀ agenda, (change agenda).clock = agenda.clock) :
    J.holds c (Run.changeAgenda change) fun _ => True :=
  J.surrounding ⟨fun _ _ => rfl, fun _ _ => rfl, fun _ => ⟨_, _, rfl, rfl, rfl⟩, fun _ => still _⟩

theorem schedule {callback : Value} {delay : Float} {args : List Value} {repeats : Bool} :
    J.holds c (Run.schedule callback delay args repeats) fun _ => True :=
  J.surrounding ⟨fun _ _ => rfl, fun _ _ => rfl, fun _ => ⟨_, _, rfl, rfl, rfl⟩, fun _ => rfl⟩

/-! ### The logics of a judgement -/

variable (J) in
/-- What is made of runs that are judged is judged. -/
def runLogic (c : J.Context) : RunLogic (Node.Marked J.good) where
  relates := J.relates c
  pure := J.pure
  bind := J.bind
  outOfFuel := J.outOfFuel
  readStore := J.readStore
  changeStore := J.changeStore

variable (J) in
/-- In steps whose exceptions will be given a place, ordinary faults are judged as well. -/
def stepLogic (c : J.Context) : StepLogic (Node.Marked J.good) where
  toRunLogic := J.runLogic (J.loose c)
  answered := True
  fault ordinary := J.raise (J.raises_fault ordinary)
  raise known := J.raise (J.raises_raised known)
  print := print _
  tellHost := callHost
  askHost _ := callHost
  currentTime _ := currentTime
  changeAgenda still _ := changeAgenda still
  schedule _ _ := schedule

variable (J) in
/-- Names are judged as well. -/
def placedLogic [J.Scoped] (c : J.Context) : PlacedLogic (Node.Marked J.good) where
  toRunLogic := J.runLogic c
  loose := J.stepLogic c
  scope := Scoped.scope
  receiver := Scoped.receiver
  assign := Scoped.assign

theorem locates [J.Scoped] {mark : Mark} (placed : J.good mark) :
    (J.placedLogic c).Locates mark.position := J.located placed

/-! ### Names, calls and outcomes -/

theorem lookup [J.Scoped] {name : String} : J.holds (J.loose c) (Run.lookup name) J.Knows := by
  apply J.bind Scoped.scope
  intro id _
  have found : J.holds (J.loose c) (Run.readStore (·.lookup? id name)) fun result =>
      ∀ value ∈ result, J.Knows value := J.readStore fun _ known => known.lookup? (.inl trivial)
  apply J.bind found
  intro result known
  cases result with
  | none => exact J.raise (J.raises_fault rfl)
  | some value => exact J.pure (known value rfl)

variable (J) in
/-- The calls that two callers make are judged. -/
def Calls (c : J.Context) (call call' : Builtins.Caller) : Prop :=
  ∀ callee receiver args, J.Knows callee → J.Knows receiver → (∀ arg ∈ args, J.Knows arg) →
    J.relates (J.loose c) (call callee receiver args) (call' callee receiver args) J.Knows

theorem ofOutcome {known : α → Prop} {result : Except Exception α}
    (h : IsOutcome (J.raises c) known result) : J.holds c (Run.ofOutcome result) known := by
  cases result with
  | ok value => exact J.pure h
  | error e => exact J.raise h

end Judgement

end DarijaScript
