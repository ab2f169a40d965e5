import DarijaScript.Proofs.Evaluation.Constants
import DarijaScript.Proofs.Evaluation.Frame
import DarijaScript.Proofs.Value.Elements
import DarijaScript.Proofs.Value.Written

/-!
# Objects and their enumerations

Whatever a program does, its objects go on with their histories, so at every moment of a run they are
ordered. The keys and the values of an object or an array can be listed, and agree position by
position with what the members of the container are.
-/

namespace DarijaScript

/-! ### Runs -/

/-- Objects go on with their histories. Nothing is asked of scopes, trees and exceptions. -/
def Invariant.goingOn : Invariant where
  good := fun _ => True
  mayBind := fun _ => True
  fits := fun _ _ => True
  changes := Store.GoesOn
  raises := fun _ => True
  refl := .refl
  trans := .trans
  others := fun _ step => step.goesOn
  binds := fun _ => Store.goesOn_of_objects_eq rfl
  assigns := fun _ _ _ _ => Store.goesOn_of_objects_eq rfl
  adds := fun _ => Store.goesOn_of_objects_eq rfl
  kept := fun _ _ => trivial
  next := fun _ => trivial
  enters := fun _ => trivial
  renews := fun _ => trivial
  receiver := fun _ _ => trivial
  nesting := fun _ => trivial
  located := fun _ _ => trivial

namespace Invariant

instance : goingOn.Receiving where
  receives := fun _ _ _ => trivial

instance : goingOn.toJudgement.Draining where
  next := by
    intro c
    let L := goingOn.toJudgement.runLogic c
    have next : L.holds Run.nextAppointment fun _ => True := Holds.nextAppointment
    have knows := Value.meets_of_forall Node.marked_true
    change L.holds Run.nextAppointment _
    exact L.mono next fun _ _ _ _ => ⟨knows _, fun _ _ => knows _⟩
  limit := ⟨trivial, .inl trivial⟩

/-- A stop changes nothing. -/
theorem Holds.passing {I : Invariant} {c : Stance} {α : Type} (stop : Moment → Bool)
    (activity : Activity) (around : List Activity) {value : α} {known : α → Prop}
    (fine : known value) : I.Holds c (Run.passing (stopping stop) activity around value) known := by
  intro machine fits
  unfold Run.passing stopping
  split
  · next stopped =>
    split at stopped
    · cases stopped
      exact I.refl _
    · cases stopped
  · exact ⟨fine, fits.self⟩

/-- What every step keeps is kept as well by runs that are stopped. -/
theorem respects_stopping (I : Invariant) [I.Receiving] (stop : Moment → Bool) (fuel : Nat) :
    ∀ around, I.toJudgement.Respects (watched (stopping stop) fuel around) := by
  have within {α : Type} {c : Stance} (activity : Activity) (around : List Activity)
      {steps : Run α} {known : α → Prop} (h : I.Holds c steps known) :
      I.Holds c (Run.watched (stopping stop) activity around steps) known :=
    (Holds.passing stop activity around trivial).bind fun _ (_ : True) =>
      h.bind fun _ fine => Holds.passing stop _ around fine
  induction fuel with
  | zero => exact fun _ => Judgement.agree_zero
  | succ fuel ih =>
    intro around
    exact {
      statement := fun {_ stmt} owns marked =>
        Holds.deeper (within (.statement stmt) around
          (Judgement.statement (ih _) fuel (fun _ => owns) marked))
      expression := fun {_ expr} marked =>
        Holds.deeper (within (.expression expr) around (Judgement.expression (ih _).values marked))
      call := fun callee receiver args known owner passed =>
        within (.call callee receiver args) around
          (Judgement.invoke (ih _).rows callee receiver args known owner passed) }

end Invariant

/-- At every moment of a run the objects have gone on with their histories. -/
theorem goesOn_executeUntil (stop : Moment → Bool) (fuel : Nat) (program : List Stmt)
    (start : Machine) :
    start.store.GoesOn (Machine.executeUntil stop fuel program start).store := by
  let J := Invariant.goingOn.toJudgement
  have respects : J.Respects (watched (stopping stop) fuel []) :=
    Invariant.goingOn.respects_stopping stop fuel []
  have executed : J.holds ⟨True, True⟩ (Machine.executeWatched (stopping stop) fuel program)
      fun _ => True :=
    Judgement.program (J := J) (c := (⟨True, True⟩ : Stance)) respects.rows trivial
      fun _ _ _ _ => trivial
  have fits : Invariant.goingOn.Fits ⟨True, True⟩ start :=
    ⟨Store.meets_of_forall Node.marked_true _, trivial, fun _ => trivial⟩
  exact (executed start fits).changes

/-! ### Enumerations -/

/-- Two arrays hold the keys and the values of a container: in the one is what the container holds, the
other one has the same length, and at each position it has a key that reads what is there in the first
one. -/
structure Store.Enumerated (store : Store) (owner : Value) (container : Container)
    (keys values : ArrayId) : Prop where
  held : (store.elements values).toList = store.content container
  size : (store.elements keys).size = (store.elements values).size
  agrees : ∀ (position : Value) (i : Nat), position.index? = some i →
    i < (store.elements keys).size → ∃ key value,
      store.member (.array keys) position = .ok key ∧
      store.member (.array values) position = .ok value ∧ store.member owner key = .ok value

namespace Store

variable {store : Store} {owner : Value} {container : Container}

/-- What the members of a container are listed under, from first to last. -/
def listedKeys (store : Store) : Container → List Value
  | .object id => (store.fields id).keys.map .string
  | .array id => (List.range (store.elements id).size).map fun i => .string i.repr

theorem length_listedKeys (store : Store) (container : Container) :
    (store.listedKeys container).length = (store.content container).length := by
  cases container <;> simp [listedKeys, content, Fields.keys, Fields.values]

/-- The store with one more array for the keys of a container. -/
theorem call_keys (is : owner.container? = some container) (fuel : Nat) (receiver : Value)
    (others : List Value) (machine : Machine) :
    Machine.call (fuel + 1) (.builtin .keys) receiver (owner :: others) machine =
      .ok (.array machine.store.arrays.size) { machine with
        store := machine.store.addArray (machine.store.listedKeys container).toArray } := by
  cases owner with
  | object id | array id =>
    cases is
    rfl
  | _ => cases is

theorem call_values (is : owner.container? = some container) (fuel : Nat) (receiver : Value)
    (others : List Value) (machine : Machine) :
    Machine.call (fuel + 1) (.builtin .values) receiver (owner :: others) machine =
      .ok (.array machine.store.arrays.size) { machine with
        store := machine.store.addArray (machine.store.content container).toArray } := by
  cases owner with
  | object id | array id =>
    cases is
    rfl
  | _ => cases is

/-- Under the key at a position the container has the value at this position. -/
theorem member_listedKey (is : owner.container? = some container)
    (distinct : ∀ id, (store.fields id).keys.Nodup) {i : Nat} (small : i < 2 ^ 64) {key value : Value}
    (listed : (store.listedKeys container)[i]? = some key)
    (held : (store.content container)[i]? = some value) : store.member owner key = .ok value := by
  cases owner with
  | object id =>
    cases is
    rw [listedKeys, List.getElem?_map, Fields.keys, List.getElem?_map] at listed
    rw [content, Fields.values, List.getElem?_map] at held
    obtain ⟨⟨name, other⟩, found, rfl⟩ := Option.map_eq_some_iff.mp held
    rw [found] at listed
    cases listed
    have here := Fields.get?_of_mem (distinct id) (List.mem_of_getElem? found)
    rw [member_object, text_string, here]
  | array id =>
    cases is
    have inside : i < (store.elements id).size := by
      simpa [content] using (List.getElem?_eq_some_iff.mp held).1
    rw [listedKeys, List.getElem?_map, List.getElem?_range inside] at listed
    cases listed
    have index : (Value.string i.repr).index? = some i :=
      Option.filter_eq_some_iff.mpr ⟨Value.canonicalNat?_iff.mpr rfl, decide_eq_true small⟩
    rw [content, Array.getElem?_toList] at held
    rw [member_array index, held]
    rfl
  | _ => cases is

theorem lt_of_index? {position : Value} {i : Nat} (index : position.index? = some i) :
    i < 2 ^ 64 := by
  cases position with
  | number _ | string _ => exact of_decide_eq_true (Option.filter_eq_some_iff.mp index).2
  | _ => cases index

/-- Arrays that hold what is listed enumerate the container. -/
theorem enumerated_of_listed (is : owner.container? = some container)
    (distinct : ∀ id, (store.fields id).keys.Nodup) {keys values : ArrayId}
    (listed : store.elements keys = (store.listedKeys container).toArray)
    (held : store.elements values = (store.content container).toArray) :
    store.Enumerated owner container keys values where
  held := by rw [held]
  size := by rw [listed, held, List.size_toArray, List.size_toArray, length_listedKeys]
  agrees := by
    intro position i index inside
    have within : i < (store.listedKeys container).length := by
      rwa [listed, List.size_toArray] at inside
    have within' : i < (store.content container).length := length_listedKeys store container ▸ within
    have key := List.getElem?_eq_getElem within
    have value := List.getElem?_eq_getElem within'
    refine ⟨_, _, ?_, ?_, member_listedKey is distinct (lt_of_index? index) key value⟩
    · rw [member_array index, listed, List.getElem?_toArray, key]
      rfl
    · rw [member_array index, held, List.getElem?_toArray, value]
      rfl

/-- A further array leaves those that were there. -/
theorem elements_addArray_of_lt {id : ArrayId} (inside : id < store.arrays.size)
    (elements : Array Value) : (store.addArray elements).elements id = store.elements id := by
  unfold Store.elements addArray
  rw [Array.getD_eq_getD_getElem?, Array.getElem?_push, if_neg (Nat.ne_of_lt inside),
    Array.getD_eq_getD_getElem?]

theorem elements_addArray_self (store : Store) (elements : Array Value) :
    (store.addArray elements).elements store.arrays.size = elements := by
  unfold Store.elements addArray
  rw [Array.getD_eq_getD_getElem?, Array.getElem?_push, if_pos rfl]
  rfl

theorem mem_containers_array {id : ArrayId} :
    .array id ∈ store.containers ↔ id < store.arrays.size := by simp [containers]

/-- A further array leaves the containers that were there. -/
theorem listed_addArray (there : container ∈ store.containers) (elements : Array Value) :
    (store.addArray elements).listedKeys container = store.listedKeys container ∧
      (store.addArray elements).content container = store.content container := by
  cases container with
  | object id => exact ⟨rfl, rfl⟩
  | array id =>
    have same := elements_addArray_of_lt (mem_containers_array.mp there) elements
    simp only [listedKeys, content, same, and_self]

theorem mem_containers_addArray (there : container ∈ store.containers) (elements : Array Value) :
    container ∈ (store.addArray elements).containers := by
  cases container with
  | object id => simpa [containers, addArray] using there
  | array id =>
    rw [mem_containers_array] at there ⊢
    rw [addArray, Array.size_push]
    exact Nat.lt_succ_of_lt there

/-- The store with the keys and then the values of a container in two further arrays. -/
theorem enumerated_addArray (is : owner.container? = some container)
    (there : container ∈ store.containers) (distinct : ∀ id, (store.fields id).keys.Nodup) :
    let middle := store.addArray (store.listedKeys container).toArray
    (middle.addArray (middle.content container).toArray).Enumerated owner container
      store.arrays.size middle.arrays.size := by
  intro middle
  let last := middle.addArray (middle.content container).toArray
  have new : store.arrays.size < middle.arrays.size := by simp [middle, addArray]
  obtain ⟨keys, -⟩ := listed_addArray there (store.listedKeys container).toArray
  obtain ⟨keys', values⟩ := listed_addArray
    (mem_containers_addArray there (store.listedKeys container).toArray)
    (middle.content container).toArray
  have distinct' : ∀ id, (last.fields id).keys.Nodup := distinct
  apply enumerated_of_listed is distinct'
  · rw [keys', keys, elements_addArray_of_lt new]
    exact elements_addArray_self store _
  · rw [values]
    exact elements_addArray_self middle _

end Store

/-- Listing the keys of a container and then its values gives two arrays that enumerate it. -/
theorem exists_enumerated {owner : Value} {container : Container} {machine : Machine}
    (is : owner.container? = some container) (there : container ∈ machine.store.containers)
    (distinct : ∀ id, (machine.store.fields id).keys.Nodup) (fuel : Nat) (receiver receiver' : Value)
    (others others' : List Value) : ∃ keys middle values after,
      Machine.call (fuel + 1) (.builtin .keys) receiver (owner :: others) machine =
        .ok (.array keys) middle ∧
      Machine.call (fuel + 1) (.builtin .values) receiver' (owner :: others') middle =
        .ok (.array values) after ∧
      after.store.Enumerated owner container keys values :=
  ⟨_, _, _, _, Store.call_keys is .., Store.call_values is ..,
    Store.enumerated_addArray is there distinct⟩

/-- **Objects are ordered and agree with their enumerations.** Every object that literals and assignments
to members have made has distinct keys, in the order of their first assignments; a key reads what was
last assigned under its text, and fails exactly if nothing was. Listing the keys and the values of an
object or an array gives two arrays of the same length, and at each position the key of the one reads
the value of the other. The objects of a program are made in no other way: at every moment of a run
they have gone on with their histories. -/
theorem objects_ordered {histories : Array History} {machine : Machine}
    (traced : machine.store.Traced histories) :
    histories.size = machine.store.objects.size ∧
    (∀ (id : ObjectId) history, histories[id]? = some history →
      machine.store.Records id history) ∧
    (∀ owner container, owner.container? = some container →
      container ∈ machine.store.containers → ∀ fuel receiver receiver' others others',
        ∃ keys middle values after,
          Machine.call (fuel + 1) (.builtin .keys) receiver (owner :: others) machine =
            .ok (.array keys) middle ∧
          Machine.call (fuel + 1) (.builtin .values) receiver' (owner :: others') middle =
            .ok (.array values) after ∧
          after.store.Enumerated owner container keys values) ∧
    ∀ stop fuel program,
      machine.store.GoesOn (Machine.executeUntil stop fuel program machine).store := by
  refine ⟨traced.size_eq, fun id history here => traced.records here, ?_, ?_⟩
  · intro owner container is there fuel receiver receiver' others others'
    exact exists_enumerated is there traced.nodup_keys fuel receiver receiver' others others'
  · exact fun stop fuel program => goesOn_executeUntil stop fuel program machine

/-- An object from a literal in which a key is repeated, with a field assigned to it afterwards under a
key that is no string. -/
theorem objects_ordered_repeated : ∃ (machine : Machine) (history : History),
    history.names = ["b", "a", "b", "s7i7"] ∧ machine.store.Records 0 history ∧
    (machine.store.fields 0).keys = ["b", "a", "s7i7"] ∧
    machine.store.member (.object 0) (.string "b") = .ok (.boolean false) ∧
    ∃ keys middle values after,
      Machine.call 1 (.builtin .keys) .undefined [.object 0] machine = .ok (.array keys) middle ∧
      Machine.call 1 (.builtin .values) .undefined [.object 0] middle = .ok (.array values) after ∧
      after.store.Enumerated (.object 0) (.object 0) keys values := by
  let start := Machine.initial (.scripted [] [] [] [])
  let entries : List (String × Value) :=
    [("b", .boolean true), ("a", .null), ("b", .boolean false)]
  let literal : Machine := { start with store := start.store.addObject (Fields.ofEntries entries) }
  let last : Machine := { literal with
    store := literal.store.write (.field 0 (literal.store.text (.boolean true))) .null }
  have made : Run.allocateObject (Fields.ofEntries entries) start = .ok (.object 0) literal := rfl
  have assigned : Run.assignMember (.object 0) (.boolean true) .null literal = .ok () last := rfl
  have text : literal.store.text (.boolean true) = "s7i7" := by
    rw [Store.text, Store.textWithin]
    rfl
  have traced : last.store.Traced #[entries ++ [("s7i7", .null)]] := by
    have traced := (Store.Traced.initial.literal made).assigned assigned
    rw [text] at traced
    exact traced
  obtain ⟨-, records, enumerated, -⟩ := objects_ordered traced
  have records := records 0 _ rfl
  refine ⟨last, _, rfl, records, ?_, ?_, ?_⟩
  · change (Fields.set (Fields.ofEntries entries) (literal.store.text (.boolean true)) _).keys = _
    rw [text]
    rfl
  · rw [records.reads, Store.text_string]
    exact ⟨entries.take 2, [("s7i7", .null)], rfl, by decide⟩
  · exact enumerated (.object 0) _ rfl (by decide) 0 .undefined .undefined [] []

end DarijaScript
