import DarijaScript.Proofs.Store.Bindings
import DarijaScript.Proofs.Syntax.Node
import DarijaScript.Evaluation.Basic

/-!
# What is known of values

A condition on the nodes of trees is carried over to values, which contain functions, and from there
to everything in which a running program keeps values. Every change that a program can make of the
store and of the agenda keeps it.
-/

namespace DarijaScript

section

variable (check : Node → Prop)

/-- The functions in a value meet the condition, a built-in function by its name. -/
def Value.Meets : Value → Prop
  | .function f _ => f.Meets check
  | .builtin b => check (.name b.name)
  | _ => True

/-- The value given back meets the condition. -/
def Completion.Meets : Completion → Prop
  | .giveBack value => value.Meets check
  | _ => True

/-- The value raised meets the condition. -/
def Exception.Meets : Exception → Prop
  | .fault _ _ => True
  | .raised value _ => value.Meets check

/-- All values that a program can get hold of meet the condition: those bound to names that meet it,
those of receivers, and those in objects and arrays. -/
structure Store.Meets (store : Store) : Prop where
  bindings : ∀ id name binding, store.binding? id name = some binding →
    check (.name name) ∨ name = Keyword.hadi.text → binding.value.Meets check
  fields : ∀ id, ∀ field ∈ store.fields id, field.2.Meets check
  elements : ∀ id, ∀ element ∈ store.elements id, element.Meets check

/-- The callbacks that wait and their arguments meet the condition. -/
def Agenda.Meets (agenda : Agenda) : Prop :=
  ∀ appointment ∈ agenda.appointments,
    appointment.callback.Meets check ∧ ∀ arg ∈ appointment.args, arg.Meets check

end

variable {check : Node → Prop}

/-! ### The store -/

theorem Fields.forall_set {fields : Fields} {key : String} {value : Value} {good : Value → Prop}
    (h : ∀ field ∈ fields, good field.2) (hv : good value) :
    ∀ field ∈ fields.set key value, good field.2 := by
  induction fields with
  | nil => simpa [set] using hv
  | cons field rest ih =>
    obtain ⟨first, others⟩ := List.forall_mem_cons.mp h
    unfold set
    split
    · exact List.forall_mem_cons.mpr ⟨hv, others⟩
    · exact List.forall_mem_cons.mpr ⟨first, ih others⟩

theorem Fields.forall_ofEntries {entries : List (String × Value)} {good : Value → Prop}
    (h : ∀ entry ∈ entries, good entry.2) : ∀ field ∈ ofEntries entries, good field.2 := by
  have fold : ∀ start : Fields, (∀ field ∈ start, good field.2) →
      ∀ field ∈ entries.foldl (fun fields entry => fields.set entry.1 entry.2) start,
        good field.2 := by
    induction entries with
    | nil => exact fun _ h => h
    | cons entry rest ih =>
      intro start hs
      obtain ⟨first, others⟩ := List.forall_mem_cons.mp h
      exact ih others _ (forall_set hs first)
  exact fold [] (by simp)

theorem Store.forall_setElement {elements : Array Value} {index : Nat} {value : Value}
    {good : Value → Prop} (h : ∀ element ∈ elements, good element) (hv : good value)
    (hu : good .undefined) : ∀ element ∈ setElement elements index value, good element := by
  unfold setElement
  split
  · intro element mem
    rcases Array.mem_or_eq_of_mem_setIfInBounds mem with old | rfl
    · exact h element old
    · exact hv
  · intro element mem
    rcases Array.mem_push.mp mem with mem | rfl
    · rcases Array.mem_append.mp mem with old | gap
      · exact h element old
      · rw [Array.eq_of_mem_replicate gap]
        exact hu
    · exact hv

namespace Store.Meets

variable {store : Store} {id : ScopeId} {name : String} {value : Value}

theorem define (h : store.Meets check) {assignable : Bool}
    (hv : check (.name name) ∨ name = Keyword.hadi.text → value.Meets check) :
    (store.define id name ⟨value, assignable⟩).Meets check where
  bindings := by
    intro other key binding bound known
    rw [binding?_define] at bound
    split at bound
    · next same =>
      cases bound
      rw [same.2.1] at known
      exact hv known
    · exact h.bindings other key binding bound known
  fields := h.fields
  elements := h.elements

theorem addChild (h : store.Meets check) (parent : ScopeId) :
    (store.addChild parent).Meets check where
  bindings := by
    intro other key binding bound known
    rw [binding?_addChild] at bound
    exact h.bindings other key binding bound known
  fields := h.fields
  elements := h.elements

theorem addSnapshot (h : store.Meets check) (source : ScopeId) :
    (store.addSnapshot source).Meets check where
  bindings := by
    intro other key binding bound known
    rw [binding?_addSnapshot] at bound
    split at bound
    · exact h.bindings source key binding bound known
    · exact h.bindings other key binding bound known
  fields := by
    unfold Store.addSnapshot
    split <;> exact h.fields
  elements := by
    unfold Store.addSnapshot
    split <;> exact h.elements

theorem addObject (h : store.Meets check) {fields : Fields}
    (hf : ∀ field ∈ fields, field.2.Meets check) : (store.addObject fields).Meets check where
  bindings := h.bindings
  fields := by
    intro id
    have old := h.fields id
    unfold Store.fields at old ⊢
    unfold Store.addObject
    rw [Array.getD_eq_getD_getElem?] at old ⊢
    rw [Array.getElem?_push]
    split
    · exact hf
    · exact old
  elements := h.elements

theorem addArray (h : store.Meets check) {elements : Array Value}
    (he : ∀ element ∈ elements, element.Meets check) : (store.addArray elements).Meets check where
  bindings := h.bindings
  fields := h.fields
  elements := by
    intro id
    have old := h.elements id
    unfold Store.elements at old ⊢
    unfold Store.addArray
    rw [Array.getD_eq_getD_getElem?] at old ⊢
    rw [Array.getElem?_push]
    split
    · exact he
    · exact old

theorem modifyArray (h : store.Meets check) {id : ArrayId} {change : Array Value → Array Value}
    (kept : ∀ elements : Array Value, (∀ element ∈ elements, element.Meets check) →
      ∀ element ∈ change elements, element.Meets check) :
    (store.modifyArray id change).Meets check where
  bindings := h.bindings
  fields := h.fields
  elements := by
    intro other
    rcases elements_modifyArray store id other change with same | changed
    · rw [same]
      exact h.elements other
    · rw [changed]
      exact kept _ (h.elements other)

theorem write (h : store.Meets check) (slot : Slot) (hv : value.Meets check) :
    (store.write slot value).Meets check := by
  cases slot with
  | field id name =>
    refine ⟨h.bindings, fun other => ?_, h.elements⟩
    rcases fields_modifyObject store id other (·.set name value) with same | changed
    · exact same ▸ h.fields other
    · exact changed ▸ Fields.forall_set (h.fields other) hv
  | element id index =>
    exact h.modifyArray fun elements he => forall_setElement he hv trivial

theorem lookup? (h : store.Meets check) (known : check (.name name) ∨ name = Keyword.hadi.text) :
    ∀ value ∈ store.lookup? id name, value.Meets check := by
  intro value found
  obtain ⟨⟨owner, binding⟩, resolved, rfl⟩ := Option.map_eq_some_iff.mp found
  exact h.bindings owner name binding (binding?_of_resolve? resolved) known

theorem element? {key : Value} {select : Nat → Option Value}
    (h : ∀ index, ∀ value ∈ select index, value.Meets check) :
    ∀ value ∈ Store.element? key select, value.Meets check := by
  intro value found
  unfold Store.element? at found
  split at found
  · next index _ =>
    cases found
    cases selected : select index with
    | none => trivial
    | some value => exact h index value selected
  · split at found
    · cases found
      trivial
    · cases found

theorem member (h : store.Meets check) {owner key : Value} :
    ∀ value, store.member owner key = .ok value → value.Meets check := by
  intro value found
  unfold Store.member at found
  split at found
  · next id =>
    dsimp only at found
    split at found
    · next field =>
      cases found
      obtain ⟨before, after, eq, -⟩ := List.lookup_eq_some_iff.mp field
      exact h.fields id (store.text key, value) (by simp [eq])
    · cases found
  · next id =>
    split at found
    · next element =>
      cases found
      refine element? (fun index value inside => ?_) _ element
      exact h.elements id _ (Array.mem_of_getElem? inside)
    · dsimp only at found
      split at found
      · cases found
        trivial
      · split at found
        · cases found
          trivial
        · cases found
  · next text =>
    split at found
    · next element =>
      cases found
      refine element? (fun index value inside => ?_) _ element
      obtain ⟨c, -, rfl⟩ := Option.map_eq_some_iff.mp inside
      trivial
    · dsimp only at found
      split at found
      · cases found
        trivial
      · split at found
        · cases found
          trivial
        · cases found
  · cases found

end Store.Meets

theorem Builtin.name_ne_hadi (builtin : Builtin) : builtin.name ≠ Keyword.hadi.text := by
  cases builtin <;> decide

theorem Store.meets_initial (check : Node → Prop) : Store.initial.Meets check where
  bindings := by
    intro id name binding bound known
    obtain ⟨-, -, ⟨-, value⟩ | ⟨builtin, rfl, value⟩⟩ := binding?_initial bound
    · rw [value]
      trivial
    · rw [value]
      exact known.resolve_right builtin.name_ne_hadi
  fields := by
    intro id field mem
    cases mem
  elements := by
    intro id element mem
    simp [Store.elements, Store.initial, Store.addChild, Store.addScope, Store.empty] at mem

/-! ### The agenda -/

theorem Agenda.clock_renew (agenda : Agenda) (appointment : Appointment) :
    (agenda.renew appointment).clock = agenda.clock := by
  unfold Agenda.renew
  split
  · rfl
  · split <;> rfl

namespace Agenda.Meets

variable {agenda : Agenda}

theorem cancel (h : agenda.Meets check) (id : Nat) : (agenda.cancel id).Meets check :=
  fun appointment mem => h appointment (List.mem_filter.mp mem).1

theorem renew (h : agenda.Meets check) {appointment : Appointment}
    (callable : appointment.callback.Meets check)
    (passed : ∀ arg ∈ appointment.args, arg.Meets check) :
    (agenda.renew appointment).Meets check := by
  unfold Agenda.renew
  split
  · exact h
  · split
    · exact h
    · intro other mem
      rcases List.mem_cons.mp mem with rfl | waiting
      · exact ⟨callable, passed⟩
      · exact h other waiting

end Agenda.Meets

theorem Agenda.mem_of_first? {appointments : List Appointment} {appointment : Appointment}
    (h : first? appointments = some appointment) : appointment ∈ appointments := by
  cases appointments with
  | nil => cases h
  | cons start rest =>
    cases h
    induction rest generalizing start with
    | nil => exact List.mem_singleton.mpr rfl
    | cons next rest ih =>
      have mem := ih (sooner start next)
      rw [List.foldl_cons]
      rcases List.mem_cons.mp mem with eq | later
      · rw [eq]
        unfold sooner
        split <;> simp
      · simp [later]

end DarijaScript
