import DarijaScript.Proofs.Evaluation.RunLogic

/-!
# Built-in functions and methods

A logic of steps holds of every built-in function and of every method. A built-in function is the
same in both runs; a method that calls a function is judged by its calls.
-/

namespace DarijaScript.StepLogic

open Builtins RunLogic

variable {check : Node → Prop} {L : StepLogic check} {args : List Value}

/-! ### Arguments -/

theorem knows_argument (passed : ∀ arg ∈ args, arg.Meets check) (index : Nat) :
    (argument args index).Meets check := by
  unfold argument
  rw [List.getD_eq_getElem?_getD]
  cases found : args[index]? with
  | none => trivial
  | some value => exact passed value (List.mem_of_getElem? found)

theorem callbackArgument (passed : ∀ arg ∈ args, arg.Meets check) :
    L.holds (Builtins.callbackArgument args) (Value.Meets check) := by
  unfold Builtins.callbackArgument
  dsimp only
  split
  · exact L.pure (knows_argument passed 0)
  · exact faultAt fun _ => rfl

theorem textArgument (index : Nat) :
    L.holds (Builtins.textArgument args index) fun _ => True := text _

/-! ### Functions -/

theorem message : L.holds (Builtins.message args) fun _ => True := by
  cases args with
  | nil => exact L.pure trivial
  | cons value _ => exact text value

theorem keys (value : Value) : L.holds (Builtins.keys value) (Value.Meets check) := by
  unfold Builtins.keys
  cases value with
  | object id =>
    apply L.bind read
    intro fields _
    apply allocateArray
    intro element mem
    obtain ⟨key, -, rfl⟩ := List.mem_map.mp (List.mem_toArray.mp mem)
    trivial
  | array id =>
    apply L.bind read
    intro length _
    apply allocateArray
    intro element mem
    obtain ⟨index, -, rfl⟩ := List.mem_map.mp (List.mem_toArray.mp mem)
    trivial
  | _ => exact faultAt fun _ => rfl

theorem values (value : Value) : L.holds (Builtins.values value) (Value.Meets check) := by
  unfold Builtins.values
  cases value with
  | object id =>
    have fields : L.holds (Run.readStore (·.fields id)) fun fields =>
        ∀ field ∈ fields, field.2.Meets check := L.readStore fun _ known => known.fields id
    apply L.bind fields
    intro fields known
    apply allocateArray
    intro element mem
    obtain ⟨field, inside, rfl⟩ := List.mem_map.mp (List.mem_toArray.mp mem)
    exact known field inside
  | array id =>
    have elements : L.holds (Run.readStore (·.elements id)) fun elements =>
        ∀ element ∈ elements, element.Meets check := L.readStore fun _ known => known.elements id
    exact L.bind elements fun _ known => allocateArray known
  | _ => exact faultAt fun _ => rfl

theorem newDate (milliseconds : Float) :
    L.holds (Builtins.newDate milliseconds) (Value.Meets check) := by
  apply allocateObject [(Builtins.millisecondsField, .number milliseconds)]
  intro field mem
  rw [List.mem_singleton.mp mem]
  trivial

theorem datePart (value : Value) (part : Calendar.DateTime → Int) :
    L.holds (Builtins.datePart value part) (Value.Meets check) := by
  apply L.bind read
  intro milliseconds _
  split
  · exact L.pure trivial
  · exact faultAt fun _ => rfl

theorem makeAppointment (passed : ∀ arg ∈ args, arg.Meets check) (repeats : Bool) :
    L.holds (Builtins.makeAppointment args repeats) (Value.Meets check) := by
  apply L.bind (callbackArgument passed)
  intro callback callable
  apply L.bind
  · exact L.schedule callable fun arg mem => passed arg (List.mem_of_mem_drop mem)
  · exact fun _ _ => L.pure trivial

theorem cancelAppointment (handle : Float) :
    L.holds (Builtins.cancelAppointment handle) (Value.Meets check) := by
  unfold Builtins.cancelAppointment
  split
  · next id _ =>
    by_cases inside : 1 ≤ id ∧ id ≤ maxHandle
    · simp only [inside, and_self, if_true]
      apply L.bind
      · exact L.changeAgenda (fun _ => rfl) fun _ waiting => waiting.cancel id
      · exact fun _ _ => L.pure trivial
    · simp only [inside, if_false]
      exact L.pure trivial
  · exact L.pure trivial

/-- A function that asks the host is judged only if the answers may be used. -/
theorem builtin (builtin : Builtin) (answered : builtin.asks = true → L.answered)
    (passed : ∀ arg ∈ args, arg.Meets check) :
    L.holds (Builtins.run builtin args) (Value.Meets check) := by
  cases builtin with
  | print =>
    apply L.bind read
    intro line _
    exact L.bind L.print fun _ _ => L.pure trivial
  | alert =>
    apply L.bind message
    intro message _
    apply L.bind L.tellHost
    intro _ _
    exact L.bind L.print fun _ _ => L.pure trivial
  | prompt =>
    apply L.bind message
    intro message _
    apply L.bind (L.askHost (answered rfl))
    intro answer _
    cases answer <;> exact L.pure trivial
  | confirm =>
    apply L.bind message
    intro message _
    exact L.bind (L.askHost (answered rfl)) fun _ _ => L.pure trivial
  | raise => exact L.raise (knows_argument passed 0)
  | random => exact L.bind (L.askHost (answered rfl)) fun _ _ => L.pure trivial
  | toText => exact L.bind read fun _ _ => L.pure trivial
  | keys => exact StepLogic.keys _
  | values => exact StepLogic.values _
  | now => exact L.bind (L.currentTime (answered rfl)) fun _ _ => L.pure trivial
  | date =>
    unfold Builtins.run
    dsimp only
    split
    · exact L.bind (L.currentTime (answered rfl)) fun _ _ => newDate _
    · exact newDate _
  | year | month | day | hour | minute | second | weekday => exact datePart _ _
  | schedule | repeatedly => exact makeAppointment passed _
  | cancel => exact cancelAppointment _
  | squareRoot | power | absolute | round | floor | ceiling | maximum | minimum | toNumber =>
    exact L.pure trivial

/-! ### Methods of strings -/

theorem stringMethod (method : StringMethod) (text : String) :
    L.holds (runStringMethod method (.string text) args) (Value.Meets check) := by
  have allocated : ∀ parts : List (List Char),
      L.holds (Run.allocateArray (parts.map stringOf).toArray) (Value.Meets check) := by
    intro parts
    apply allocateArray
    intro element mem
    obtain ⟨chars, -, rfl⟩ := List.mem_map.mp (List.mem_toArray.mp mem)
    trivial
  simp only [runStringMethod, textReceiver, pure_bind]
  cases method with
  | upper | lower | slice | trim => exact L.pure trivial
  | contains => exact L.bind (textArgument 0) fun _ _ => L.pure trivial
  | indexOf =>
    apply L.bind (textArgument 0)
    intro needle _
    apply L.pure
    unfold positionValue
    split <;> trivial
  | split =>
    dsimp only
    split
    · exact allocated [text.toList]
    · apply L.bind read
      intro separator _
      unfold splitText
      split
      · have singles := allocated (text.toList.map fun c => [c])
        rwa [List.map_map] at singles
      · exact allocated _

/-! ### Methods of arrays -/

variable (L) in
/-- The calls that two callers make are judged. -/
def Calls (call call' : Caller) : Prop :=
  ∀ callee receiver args, callee.Meets check → receiver.Meets check →
    (∀ arg ∈ args, arg.Meets check) →
      L.relates (call callee receiver args) (call' callee receiver args) (Value.Meets check)

section

variable {call call' : Caller} {callback : Value} {id : ArrayId}

theorem elementsOf : L.holds (Builtins.elementsOf (.array id)) fun elements =>
    ∀ element ∈ elements, element.Meets check := by
  simp only [Builtins.elementsOf, arrayReceiver, pure_bind]
  exact L.readStore fun _ known element mem =>
    known.elements id element (Array.mem_toList_iff.mp mem)

variable (calls : L.Calls call call') (callable : callback.Meets check)

include calls callable

theorem callFor {index : Nat} {element : Value} (known : element.Meets check) :
    L.relates (Builtins.callFor call callback (.array id) index element)
      (Builtins.callFor call' callback (.array id) index element) (Value.Meets check) := by
  apply calls _ .undefined _ callable trivial
  intro arg mem
  simp only [List.mem_cons, List.not_mem_nil, or_false] at mem
  rcases mem with rfl | rfl | rfl
  · exact known
  · trivial
  · trivial

theorem mapElements {elements : List Value} (known : ∀ element ∈ elements, element.Meets check) :
    ∀ (index : Nat) (results : Array Value), (∀ result ∈ results, result.Meets check) →
      L.relates (Builtins.mapElements call callback (.array id) index results elements)
        (Builtins.mapElements call' callback (.array id) index results elements)
        fun results => ∀ result ∈ results, result.Meets check := by
  induction elements with
  | nil => exact fun _ _ given => L.pure given
  | cons element rest ih =>
    intro index results given
    obtain ⟨first, others⟩ := List.forall_mem_cons.mp known
    apply L.bind (callFor calls callable first)
    intro result fine
    apply ih others
    intro value mem
    rcases Array.mem_push.mp mem with earlier | rfl
    · exact given value earlier
    · exact fine

theorem filterElements {elements : List Value} (known : ∀ element ∈ elements, element.Meets check) :
    ∀ (index : Nat) (kept : Array Value), (∀ value ∈ kept, value.Meets check) →
      L.relates (Builtins.filterElements call callback (.array id) index kept elements)
        (Builtins.filterElements call' callback (.array id) index kept elements)
        fun kept => ∀ value ∈ kept, value.Meets check := by
  induction elements with
  | nil => exact fun _ _ given => L.pure given
  | cons element rest ih =>
    intro index kept given
    obtain ⟨first, others⟩ := List.forall_mem_cons.mp known
    apply L.bind (callFor calls callable first)
    intro result _
    apply ih others
    split
    · intro value mem
      rcases Array.mem_push.mp mem with earlier | rfl
      · exact given value earlier
      · exact first
    · exact given

theorem forElements {elements : List Value} (known : ∀ element ∈ elements, element.Meets check) :
    ∀ index : Nat,
      L.relates (Builtins.forElements call callback (.array id) index elements)
        (Builtins.forElements call' callback (.array id) index elements) fun _ => True := by
  induction elements with
  | nil => exact fun _ => L.pure trivial
  | cons element rest ih =>
    intro index
    obtain ⟨first, others⟩ := List.forall_mem_cons.mp known
    exact L.bind (callFor calls callable first) fun _ _ => ih others _

theorem findElement {elements : List Value} (known : ∀ element ∈ elements, element.Meets check) :
    ∀ index : Nat,
      L.relates (Builtins.findElement call callback (.array id) index elements)
        (Builtins.findElement call' callback (.array id) index elements) (Value.Meets check) := by
  induction elements with
  | nil => exact fun _ => L.pure trivial
  | cons element rest ih =>
    intro index
    obtain ⟨first, others⟩ := List.forall_mem_cons.mp known
    apply L.bind (callFor calls callable first)
    intro result _
    split
    · exact L.pure first
    · exact ih others _

theorem foldElements {elements : List Value} (known : ∀ element ∈ elements, element.Meets check) :
    ∀ (index : Nat) (result : Value), result.Meets check →
      L.relates (Builtins.foldElements call callback (.array id) index result elements)
        (Builtins.foldElements call' callback (.array id) index result elements)
        (Value.Meets check) := by
  induction elements with
  | nil => exact fun _ _ given => L.pure given
  | cons element rest ih =>
    intro index result given
    obtain ⟨first, others⟩ := List.forall_mem_cons.mp known
    apply L.bind
    · apply calls _ .undefined _ callable trivial
      intro arg mem
      simp only [List.mem_cons, List.not_mem_nil, or_false] at mem
      rcases mem with rfl | rfl | rfl | rfl
      · exact given
      · exact first
      · trivial
      · trivial
    · exact fun result fine => ih others _ result fine

end

/-- A change of an array that leaves what is known of its elements. -/
theorem modifyArray {id : ArrayId} {change : Array Value → Array Value}
    (kept : ∀ elements : Array Value, ∀ element ∈ change elements,
      element ∈ elements ∨ element.Meets check) :
    L.holds (Run.changeStore (·.modifyArray id change)) fun _ => True := by
  apply L.changeStore (fun _ => Store.scopes_modifyArray _ _) fun _ => .apart rfl
  intro store known
  apply known.modifyArray
  intro elements all element mem
  exact (kept elements element mem).elim (all element) fun fine => fine

/-- An element of an array, if there is one, is known. -/
theorem element? {id : ArrayId} {select : Array Value → Option Value}
    (selects : ∀ elements : Array Value, ∀ value ∈ select elements, value ∈ elements) :
    L.holds (Run.readStore fun store => select (store.elements id)) fun value =>
      (value.getD .undefined).Meets check := by
  apply L.readStore
  intro store known
  cases found : select (store.elements id) with
  | none => trivial
  | some value => exact known.elements id value (selects _ value found)

theorem joinElements (separator : String) (elements : List Value) :
    L.holds (Builtins.joinElements separator elements) (Value.Meets check) :=
  L.bind read fun _ _ => L.pure trivial

theorem arrayMethod {call call' : Caller} (calls : L.Calls call call') (method : ArrayMethod)
    (id : ArrayId) (passed : ∀ arg ∈ args, arg.Meets check) :
    L.relates (runArrayMethod call method (.array id) args)
      (runArrayMethod call' method (.array id) args) (Value.Meets check) := by
  cases method with
  | push =>
    simp only [runArrayMethod, arrayReceiver, pure_bind]
    apply L.bind
    · apply modifyArray
      intro elements element mem
      rw [← Array.mem_toList_iff, Array.toList_appendList, List.mem_append,
        Array.mem_toList_iff] at mem
      exact mem.imp_right (passed element)
    · exact fun _ _ => L.bind read fun _ _ => L.pure trivial
  | pop =>
    simp only [runArrayMethod, arrayReceiver, pure_bind]
    apply L.bind (element? fun _ _ => Array.mem_of_back?)
    intro last known
    apply L.bind
    · apply modifyArray
      intro elements element mem
      rw [← Array.mem_toList_iff, Array.toList_pop] at mem
      exact .inl (Array.mem_toList_iff.mp (List.dropLast_subset _ mem))
    · exact fun _ _ => L.pure known
  | pushFront =>
    simp only [runArrayMethod, arrayReceiver, pure_bind]
    apply L.bind
    · apply modifyArray
      intro elements element mem
      rw [Array.mem_append, List.mem_toArray] at mem
      exact mem.symm.imp_right (passed element)
    · exact fun _ _ => L.bind read fun _ _ => L.pure trivial
  | popFront =>
    simp only [runArrayMethod, arrayReceiver, pure_bind]
    apply L.bind (element? fun _ _ => Array.mem_of_getElem?)
    intro first known
    apply L.bind
    · apply modifyArray
      intro elements element mem
      rw [← Array.mem_toList_iff, Array.toList_extract] at mem
      have inside := List.mem_of_mem_drop (List.mem_of_mem_take mem)
      exact .inl (Array.mem_toList_iff.mp inside)
    · exact fun _ _ => L.pure known
  | map =>
    apply L.bind (callbackArgument passed)
    intro callback callable
    apply L.bind elementsOf
    intro elements known
    apply L.bind
    · exact mapElements calls callable known 0 #[] (by simp)
    · exact fun _ fine => allocateArray fine
  | filter =>
    apply L.bind (callbackArgument passed)
    intro callback callable
    apply L.bind elementsOf
    intro elements known
    apply L.bind
    · exact filterElements calls callable known 0 #[] (by simp)
    · exact fun _ fine => allocateArray fine
  | forEach =>
    apply L.bind (callbackArgument passed)
    intro callback callable
    apply L.bind elementsOf
    intro elements known
    exact L.bind (forElements calls callable known 0) fun _ _ => L.pure trivial
  | find =>
    apply L.bind (callbackArgument passed)
    intro callback callable
    apply L.bind elementsOf
    intro elements known
    exact findElement calls callable known 0
  | indexOf =>
    apply L.bind elementsOf
    intro elements _
    apply L.pure
    unfold positionValue
    split <;> trivial
  | contains => exact L.bind elementsOf fun _ _ => L.pure trivial
  | fold =>
    apply L.bind (callbackArgument passed)
    intro callback callable
    apply L.bind elementsOf
    intro elements known
    split
    · next start found =>
      exact foldElements calls callable known 0 start (passed start (List.mem_of_getElem? found))
    · next first rest _ =>
      obtain ⟨fine, others⟩ := List.forall_mem_cons.mp known
      exact foldElements calls callable others 1 first fine
    · exact faultAt fun _ => rfl
  | join =>
    apply L.bind elementsOf
    intro elements _
    split
    · exact joinElements _ _
    · exact L.bind read fun _ _ => joinElements _ _
  | slice =>
    apply L.bind elementsOf
    intro elements known
    apply allocateArray
    intro element mem
    have inside := List.mem_of_mem_take (List.mem_of_mem_drop (List.mem_toArray.mp mem))
    exact known element inside

end DarijaScript.StepLogic
