import DarijaScript.Evaluation.Interpreter
import DarijaScript.Proofs.Evaluation.Known
import DarijaScript.Proofs.Store.Objects

/-!
# Logics of runs

What is said of every run is often kept from the steps of the machine to all that the rules of
evaluation make of them. A logic is something that is said of two runs, of the same rules on two
interpreters; one about a single run does not look at the other. What must hold of the steps is
listed once here, so that the rules are gone through once for all logics.
-/

namespace DarijaScript

/-- The answer of the function comes from the host. -/
def Builtin.asks : Builtin → Bool
  | .prompt | .confirm | .random | .now | .date => true
  | _ => false

/-- The fault of the bound on the callbacks after a program, which no construct of a program
meets. -/
def Fault.isFiringLimit : Fault → Bool
  | .firingLimit _ => true
  | _ => false

/-! ### Faults of the store -/

section

variable {store : Store} {owner key : Value} {f : Fault}

theorem Store.isFiringLimit_of_member (h : store.member owner key = .error f) :
    f.isFiringLimit = false := by
  unfold Store.member at h
  dsimp only at h
  repeat' split at h
  all_goals
    cases h
    try rfl

theorem Store.isFiringLimit_of_slot (h : store.slot owner key = .error f) :
    f.isFiringLimit = false := by
  unfold Store.slot at h
  repeat' split at h
  all_goals
    cases h
    try rfl

end

/-! ### Logics -/

/-- Something that is said of two runs and kept when one run follows another. The condition is what
is known of values and of the store. -/
structure RunLogic (check : Node → Prop) where
  relates : {α : Type} → Run α → Run α → (α → Prop) → Prop
  pure : ∀ {α} {known : α → Prop} {value : α}, known value →
    relates (Pure.pure value) (Pure.pure value) known
  bind : ∀ {α β} {first first' : Run α} {next next' : α → Run β} {known : α → Prop}
    {known' : β → Prop}, relates first first' known →
      (∀ value, known value → relates (next value) (next' value) known') →
        relates (first >>= next) (first' >>= next') known'
  outOfFuel : ∀ {α} {known : α → Prop}, relates (throw .outOfFuel) (throw .outOfFuel) known
  readStore : ∀ {α} {read : Store → α} {known : α → Prop},
    (∀ store : Store, store.Meets check → known (read store)) →
      relates (Run.readStore read) (Run.readStore read) known
  /-- A change of the store alone that no scope is part of. -/
  changeStore : ∀ {change : Store → Store}, (∀ store, (change store).scopes = store.scopes) →
    (∀ store : Store, store.ObjectStep (change store)) →
    (∀ store : Store, store.Meets check → (change store).Meets check) →
      relates (Run.changeStore change) (Run.changeStore change) fun _ => True

/-- What is said of a run compared with itself. -/
abbrev RunLogic.holds {check : Node → Prop} (L : RunLogic check) {α : Type} (steps : Run α)
    (known : α → Prop) : Prop := L.relates steps steps known

/-- A logic that is kept by faults and by what is done to the surroundings of a run. -/
structure StepLogic (check : Node → Prop) extends RunLogic check where
  /-- The answers of the host may be used. -/
  answered : Prop
  fault : ∀ {α} {known : α → Prop} {f : Fault}, f.isFiringLimit = false →
    toRunLogic.holds (Run.fault f) known
  raise : ∀ {α} {known : α → Prop} {value : Value}, value.Meets check →
    toRunLogic.holds (throw (.exception (.raised value .unknown))) known
  print : ∀ {line : String}, toRunLogic.holds (Run.print line) fun _ => True
  /-- A call of the host whose answer is not looked at. -/
  tellHost : ∀ {call : HostCall}, toRunLogic.holds (Run.callHost call fun _ _ => ()) fun _ => True
  askHost : ∀ {α} {call : HostCall} {answer : Host → HostLog → α}, answered →
    toRunLogic.holds (Run.callHost call answer) fun _ => True
  currentTime : answered → toRunLogic.holds Run.currentTime fun _ => True
  changeAgenda : ∀ {change : Agenda → Agenda}, (∀ agenda, (change agenda).clock = agenda.clock) →
    (∀ agenda : Agenda, agenda.Meets check → (change agenda).Meets check) →
      toRunLogic.holds (Run.changeAgenda change) fun _ => True
  schedule : ∀ {callback : Value} {delay : Float} {args : List Value} {repeats : Bool},
    callback.Meets check → (∀ arg ∈ args, arg.Meets check) →
      toRunLogic.holds (Run.schedule callback delay args repeats) fun _ => True

/-- A logic of runs whose exceptions have their places, with one of the steps whose exceptions will
be given a place. -/
structure PlacedLogic (check : Node → Prop) extends RunLogic check where
  loose : StepLogic check
  scope : toRunLogic.holds Run.scope fun _ => True
  /-- The receiver has a value everywhere. -/
  receiver : toRunLogic.holds (Run.lookup Keyword.hadi.text) (Value.Meets check)
  assign : ∀ {name : String} {value : Value}, value.Meets check →
    loose.holds (Run.assign name value) fun _ => True

/-- The exceptions of steps can be given this place. -/
def PlacedLogic.Locates {check : Node → Prop} (L : PlacedLogic check) (position : Position) :
    Prop :=
  ∀ {α : Type} {steps steps' : Run α} {known : α → Prop}, L.loose.relates steps steps' known →
    L.relates (Run.located position steps) (Run.located position steps') known

variable {check : Node → Prop} {α : Type}

/-! ### Steps -/

namespace RunLogic

variable {L : RunLogic check}

theorem mono {steps steps' : Run α} {known known' : α → Prop}
    (h : L.relates steps steps' known) (better : ∀ value, known value → known' value) :
    L.relates steps steps' known' := by
  have h := L.bind h fun value fine => L.pure (better value fine)
  rwa [bind_pure, bind_pure] at h

/-- Reading of which nothing is known. -/
theorem read {read : Store → α} : L.holds (Run.readStore read) fun _ => True :=
  L.readStore fun _ _ => trivial

theorem text (value : Value) : L.holds (Run.text value) fun _ => True := read

theorem allocateObject (entries : List (String × Value))
    (known : ∀ entry ∈ entries, entry.2.Meets check) :
    L.holds (Run.allocateObject (Fields.ofEntries entries)) (Value.Meets check) := by
  apply L.bind read
  intro id _
  apply L.bind
  · exact L.changeStore (fun _ => rfl) (fun _ => .literal entries rfl) fun _ before =>
      before.addObject (Fields.forall_ofEntries known)
  · exact fun _ _ => L.pure trivial

theorem allocateArray {elements : Array Value} (known : ∀ element ∈ elements, element.Meets check) :
    L.holds (Run.allocateArray elements) (Value.Meets check) := by
  apply L.bind read
  intro id _
  apply L.bind
  · exact L.changeStore (fun _ => rfl) (fun _ => .apart rfl) fun _ before => before.addArray known
  · exact fun _ _ => L.pure trivial

theorem repeatUntil {round round' : Run (Option α)} {known : α → Prop}
    (h : L.relates round round' fun result => ∀ value ∈ result, known value) (rounds : Nat) :
    L.relates (Run.repeatUntil round rounds) (Run.repeatUntil round' rounds) known := by
  induction rounds with
  | zero => exact L.outOfFuel
  | succ rounds ih =>
    apply L.bind h
    intro result fine
    cases result with
    | some value => exact L.pure (fine value rfl)
    | none => exact ih

end RunLogic

namespace StepLogic

variable {L : StepLogic check}

theorem faultAt {known : α → Prop} {f : String → Fault} {value : Value}
    (ordinary : ∀ shown, (f shown).isFiringLimit = false) :
    L.holds (Run.faultAt f value) known :=
  L.bind RunLogic.read fun _ _ => L.fault (ordinary _)

theorem ofExcept {known : α → Prop} {result : Except Fault α}
    (h : ∀ value, result = .ok value → known value)
    (ordinary : ∀ f, result = .error f → f.isFiringLimit = false) :
    L.holds (Run.ofExcept result) known := by
  cases result with
  | ok value => exact L.pure (h value rfl)
  | error f => exact L.fault (ordinary f rfl)

theorem member {owner key : Value} : L.holds (Run.member owner key) (Value.Meets check) := by
  have found : L.holds (Run.readStore (·.member owner key)) fun result =>
      (∀ value, result = .ok value → value.Meets check) ∧
        ∀ f, result = .error f → f.isFiringLimit = false :=
    L.readStore fun _ known => ⟨known.member, fun _ => Store.isFiringLimit_of_member⟩
  exact L.bind found fun _ known => ofExcept known.1 known.2

theorem assignMember {owner key value : Value} (known : value.Meets check) :
    L.holds (Run.assignMember owner key value) fun _ => True := by
  have found : L.holds (Run.readStore (·.slot owner key)) fun result =>
      ∀ f, result = .error f → f.isFiringLimit = false :=
    L.readStore fun _ _ _ => Store.isFiringLimit_of_slot
  apply L.bind found
  intro found ordinary
  apply L.bind (ofExcept (fun _ _ => trivial) ordinary)
  intro slot _
  exact L.changeStore (fun _ => Store.scopes_write _ _)
    (fun store => store.objectStep_write slot value) fun _ before => before.write slot known

end StepLogic

end DarijaScript
