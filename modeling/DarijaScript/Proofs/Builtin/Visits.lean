import DarijaScript.Evaluation.Interpreter
import DarijaScript.Proofs.Evaluation.InStep

/-!
# Visiting the elements of an array

A method that calls a function for the elements of an array takes the elements that the array has at
the beginning. What the function is called for, and in which order, is told here as a relation, in
which the machine goes from one call to the next in whatever way the function changes it. Each such
method does what this relation says: it comes to the end of the elements, or the first call that is
interrupted ends it.
-/

namespace DarijaScript.Builtins

section

variable (call : Caller) (callback : Value) (id : ArrayId)

/-- Called for the elements one after another, each time with the element, its index and the array
itself, the function gives the results. -/
inductive Visits : (index : Nat) → (elements results : List Value) → (machine after : Machine) → Prop
  | nil (index : Nat) (machine : Machine) : Visits index [] [] machine machine
  | cons {index : Nat} {element result : Value} {elements results : List Value}
      {machine middle after : Machine}
      (called : callFor call callback (.array id) index element machine = .ok result middle)
      (others : Visits (index + 1) elements results middle after) :
    Visits index (element :: elements) (result :: results) machine after

/-- Called for the elements one after another, each time with the result before, the element, its index
and the array itself, the function gives the last result. -/
inductive Folds : (index : Nat) → (start : Value) → (elements : List Value) → (last : Value) →
    (machine after : Machine) → Prop
  | nil (index : Nat) (start : Value) (machine : Machine) :
    Folds index start [] start machine machine
  | cons {index : Nat} {start element result last : Value} {elements : List Value}
      {machine middle after : Machine}
      (called : call callback .undefined [start, element, .ofNat index, .array id] machine =
        .ok result middle)
      (others : Folds (index + 1) result elements last middle after) :
    Folds index start (element :: elements) last machine after

/-- The results of the elements before some element are as the condition says, and the call for this
element is interrupted. -/
def BreaksOff (elements : List Value) (passes : Value → Prop) (machine : Machine)
    (interruption : Interruption) (after : Machine) : Prop :=
  ∃ visited element rest results middle, elements = visited ++ element :: rest ∧
    Visits call callback id 0 visited results machine middle ∧ (∀ result ∈ results, passes result) ∧
      callFor call callback (.array id) visited.length element middle = .error interruption after

/-- A method calls the function for all elements and then ends with what it makes of the results,
unless a call is interrupted: then no further one is made, and the method ends in the same way. -/
def VisitsAll (elements : List Value) (machine : Machine)
    (finish : (results : List Value) → Machine → Ending Value) (ending : Ending Value) : Prop :=
  (∃ results after, Visits call callback id 0 elements results machine after ∧
    results.length = elements.length ∧ ending = finish results after) ∨
  ∃ interruption after, BreaksOff call callback id elements (fun _ => True) machine interruption
    after ∧ ending = .error interruption after

/-- A method calls the function for the elements up to the first one with a true result and ends with
this element; without one it ends with undefined, and a call that is interrupted ends it. -/
def VisitsUntil (elements : List Value) (machine : Machine) (ending : Ending Value) : Prop :=
  (∃ visited element rest results result after, elements = visited ++ element :: rest ∧
    Visits call callback id 0 (visited ++ [element]) (results ++ [result]) machine after ∧
      (∀ result ∈ results, result.holds = false) ∧ result.holds = true ∧
        ending = .ok element after) ∨
  (∃ results after, Visits call callback id 0 elements results machine after ∧
    (∀ result ∈ results, result.holds = false) ∧ ending = .ok .undefined after) ∨
  ∃ interruption after, BreaksOff call callback id elements (·.holds = false) machine interruption
    after ∧ ending = .error interruption after

/-- A method calls the function for all elements, from an index on and each time with the result before,
and ends with the last result, unless a call is interrupted. -/
def FoldsAll (index : Nat) (start : Value) (elements : List Value) (machine : Machine)
    (ending : Ending Value) : Prop :=
  (∃ last after, Folds call callback id index start elements last machine after ∧
    ending = .ok last after) ∨
  ∃ visited element rest result middle interruption after, elements = visited ++ element :: rest ∧
    Folds call callback id index start visited result machine middle ∧
      call callback .undefined [result, element, .ofNat (index + visited.length), .array id] middle =
        .error interruption after ∧
      ending = .error interruption after

end

variable {call : Caller} {callback : Value} {id : ArrayId} {index : Nat} {visited rest : List Value}
  {results : List Value} {machine middle : Machine}

/-! ### Visits -/

theorem add_length_cons (index : Nat) (element : Value) (elements : List Value) :
    index + (element :: elements).length = index + 1 + elements.length := by
  rw [List.length_cons]
  omega

theorem Visits.length_eq (visits : Visits call callback id index visited results machine middle) :
    results.length = visited.length := by
  induction visits with
  | nil => rfl
  | cons _ _ ih => simp [ih]

theorem Visits.concat {element result : Value} {after : Machine}
    (visits : Visits call callback id index visited results machine middle)
    (called : callFor call callback (.array id) (index + visited.length) element middle =
      .ok result after) :
    Visits call callback id index (visited ++ [element]) (results ++ [result]) machine after := by
  induction visits with
  | nil => exact .cons called (.nil _ _)
  | cons first _ ih =>
    rw [add_length_cons] at called
    exact .cons first (ih called)

/-- The visit of some elements comes to their end, to a result that stops it or to a call that is
interrupted. -/
theorem visit_cases (call : Caller) (callback : Value) (id : ArrayId) (stops : Value → Bool)
    (elements : List Value) : ∀ index machine,
    (∃ results after, Visits call callback id index elements results machine after ∧
      ∀ result ∈ results, stops result = false) ∨
    ∃ visited element rest results middle, elements = visited ++ element :: rest ∧
      Visits call callback id index visited results machine middle ∧
      (∀ result ∈ results, stops result = false) ∧
      ((∃ result after, callFor call callback (.array id) (index + visited.length) element middle =
          .ok result after ∧ stops result = true) ∨
        ∃ interruption after, callFor call callback (.array id) (index + visited.length) element
          middle = .error interruption after) := by
  induction elements with
  | nil => exact fun index machine => .inl ⟨[], machine, .nil _ _, List.forall_mem_nil _⟩
  | cons element others ih =>
    intro index machine
    cases called : callFor call callback (.array id) index element machine with
    | error interruption after =>
      exact .inr ⟨[], element, others, [], machine, rfl, .nil _ _, List.forall_mem_nil _,
        .inr ⟨interruption, after, called⟩⟩
    | ok result middle =>
      by_cases stop : stops result = true
      · exact .inr ⟨[], element, others, [], machine, rfl, .nil _ _, List.forall_mem_nil _,
          .inl ⟨result, middle, called, stop⟩⟩
      · have passes : stops result = false := by simpa using stop
        rcases ih (index + 1) middle with ⟨results, after, visits, pass⟩ |
          ⟨visited, last, rest, results, before, split, visits, pass, ends⟩
        · exact .inl ⟨result :: results, after, .cons called visits,
            List.forall_mem_cons.mpr ⟨passes, pass⟩⟩
        · refine .inr ⟨element :: visited, last, rest, result :: results, before,
            congrArg _ split, .cons called visits, List.forall_mem_cons.mpr ⟨passes, pass⟩, ?_⟩
          rwa [add_length_cons]

/-! ### What the methods make of them -/

theorem mapElements_of_visits (rest : List Value)
    (visits : Visits call callback id index visited results machine middle) :
    ∀ out, mapElements call callback (.array id) index out (visited ++ rest) machine =
      mapElements call callback (.array id) (index + visited.length) (out ++ results.toArray) rest
        middle := by
  induction visits with
  | nil => simp
  | cons called _ ih =>
    intro out
    rw [List.cons_append, mapElements, Run.bind_ok called, ih, add_length_cons]
    simp

/-- The elements whose results are true. -/
def keptElements (elements results : List Value) : List Value :=
  ((elements.zip results).filter (·.2.holds)).map (·.1)

theorem filterElements_of_visits (rest : List Value)
    (visits : Visits call callback id index visited results machine middle) :
    ∀ out, filterElements call callback (.array id) index out (visited ++ rest) machine =
      filterElements call callback (.array id) (index + visited.length)
        (out ++ (keptElements visited results).toArray) rest middle := by
  induction visits with
  | nil => simp [keptElements]
  | @cons _ _ result _ _ _ _ _ called _ ih =>
    intro out
    rw [List.cons_append, filterElements, Run.bind_ok called, ih, add_length_cons]
    by_cases keeps : result.holds = true <;> simp [keptElements, keeps]

theorem forElements_of_visits (rest : List Value)
    (visits : Visits call callback id index visited results machine middle) :
    forElements call callback (.array id) index (visited ++ rest) machine =
      forElements call callback (.array id) (index + visited.length) rest middle := by
  induction visits with
  | nil => rfl
  | cons called _ ih =>
    rw [List.cons_append, forElements, Run.bind_ok called, ih, add_length_cons]

theorem findElement_of_visits (rest : List Value)
    (visits : Visits call callback id index visited results machine middle)
    (pass : ∀ result ∈ results, result.holds = false) :
    findElement call callback (.array id) index (visited ++ rest) machine =
      findElement call callback (.array id) (index + visited.length) rest middle := by
  induction visits with
  | nil => rfl
  | cons called _ ih =>
    obtain ⟨passes, others⟩ := List.forall_mem_cons.mp pass
    rw [List.cons_append, findElement, Run.bind_ok called, passes, add_length_cons]
    exact ih others

/-- A function is folded over all elements, unless a call is interrupted. -/
theorem foldElements_foldsAll (elements : List Value) : ∀ index start machine,
    FoldsAll call callback id index start elements machine
      (foldElements call callback (.array id) index start elements machine) := by
  induction elements with
  | nil => exact fun index start machine => .inl ⟨start, machine, .nil _ _ _, rfl⟩
  | cons element others ih =>
    intro index start machine
    cases called : call callback .undefined [start, element, .ofNat index, .array id] machine with
    | error interruption after =>
      exact .inr ⟨[], element, others, start, machine, interruption, after, rfl, .nil _ _ _, called,
        Run.bind_error called⟩
    | ok result middle =>
      rw [foldElements, Run.bind_ok called]
      rcases ih (index + 1) result middle with ⟨last, after, folds, ended⟩ |
        ⟨visited, next, rest, before, stop, interruption, after, split, folds, broken, ended⟩
      · exact .inl ⟨last, after, .cons called folds, ended⟩
      · refine .inr ⟨element :: visited, next, rest, before, stop, interruption, after,
          congrArg _ split, .cons called folds, ?_, ended⟩
        rwa [add_length_cons]

/-! ### The methods -/

/-- What the methods of an array that call a function do with these elements, where `more` is what is
passed to them after the function. -/
structure Iterates (call : Caller) (callback : Value) (id : ArrayId) (more elements : List Value)
    (machine : Machine) (run : ArrayMethod → Ending Value) : Prop where
  map : VisitsAll call callback id elements machine
    (fun results after => Run.allocateArray results.toArray after) (run .map)
  filter : VisitsAll call callback id elements machine
    (fun results after => Run.allocateArray (keptElements elements results).toArray after)
    (run .filter)
  forEach : VisitsAll call callback id elements machine (fun _ after => .ok .undefined after)
    (run .forEach)
  find : VisitsUntil call callback id elements machine (run .find)
  fold : ∀ start others, more = start :: others →
    FoldsAll call callback id 0 start elements machine (run .fold)
  foldFirst : ∀ first rest, more = [] → elements = first :: rest →
    FoldsAll call callback id 1 first rest machine (run .fold)
  foldNone : more = [] → elements = [] → run .fold = Run.faultAt .emptyFold (.array id) machine

/-- What a method does is told by what it does when the visit is completed and when it breaks off. -/
theorem visitsAll {elements : List Value} {finish : List Value → Machine → Ending Value}
    {ending : Ending Value}
    (completes : ∀ results after, Visits call callback id 0 elements results machine after →
      ending = finish results after)
    (breaks : ∀ visited element rest results middle interruption after,
      elements = visited ++ element :: rest →
        Visits call callback id 0 visited results machine middle →
          callFor call callback (.array id) visited.length element middle =
            .error interruption after → ending = .error interruption after) :
    VisitsAll call callback id elements machine finish ending := by
  rcases visit_cases call callback id (fun _ => false) elements 0
    machine with ⟨results, after, visits, -⟩ | ⟨visited, element, rest, results, middle, split,
      visits, -, ⟨_, _, -, stop⟩ | ⟨interruption, after, broken⟩⟩
  · exact .inl ⟨results, after, visits, visits.length_eq, completes results after visits⟩
  · cases stop
  · rw [Nat.zero_add] at broken
    exact .inr ⟨interruption, after,
      ⟨visited, element, rest, results, middle, split, visits, fun _ _ => trivial, broken⟩,
      breaks _ _ _ _ _ _ _ split visits broken⟩

section

variable {more : List Value} (elements : List Value)

theorem visitsAll_map : VisitsAll call callback id elements machine
    (fun results after => Run.allocateArray results.toArray after)
    ((mapElements call callback (.array id) 0 #[] elements >>= Run.allocateArray) machine) := by
  apply visitsAll
  · intro results after visits
    have mapped := mapElements_of_visits [] visits #[]
    simp only [List.append_nil, mapElements, Array.empty_append] at mapped
    exact Run.bind_ok mapped
  · rintro visited element rest results middle interruption after rfl visits broken
    apply Run.bind_error
    rw [mapElements_of_visits _ visits, mapElements, Nat.zero_add]
    exact Run.bind_error broken

theorem visitsAll_filter : VisitsAll call callback id elements machine
    (fun results after => Run.allocateArray (keptElements elements results).toArray after)
    ((filterElements call callback (.array id) 0 #[] elements >>= Run.allocateArray) machine) := by
  apply visitsAll
  · intro results after visits
    have filtered := filterElements_of_visits [] visits #[]
    simp only [List.append_nil, filterElements, Array.empty_append] at filtered
    exact Run.bind_ok filtered
  · rintro visited element rest results middle interruption after rfl visits broken
    apply Run.bind_error
    rw [filterElements_of_visits _ visits, filterElements, Nat.zero_add]
    exact Run.bind_error broken

theorem visitsAll_forEach : VisitsAll call callback id elements machine
    (fun _ after => .ok .undefined after)
    ((forElements call callback (.array id) 0 elements >>= fun _ => pure .undefined) machine) := by
  apply visitsAll
  · intro results after visits
    have ended := forElements_of_visits [] visits
    rw [List.append_nil] at ended
    exact Run.bind_ok ended
  · rintro visited element rest results middle interruption after rfl visits broken
    apply Run.bind_error
    rw [forElements_of_visits _ visits, forElements, Nat.zero_add]
    exact Run.bind_error broken

theorem visitsUntil_find : VisitsUntil call callback id elements machine
    (findElement call callback (.array id) 0 elements machine) := by
  rcases visit_cases call callback id Value.holds elements 0
    machine with ⟨results, after, visits, pass⟩ | ⟨visited, element, rest, results, middle, rfl,
      visits, pass, ⟨result, after, called, stop⟩ | ⟨interruption, after, broken⟩⟩
  · have passed := findElement_of_visits [] visits pass
    rw [List.append_nil] at passed
    exact .inr (.inl ⟨results, after, visits, pass, passed⟩)
  · refine .inl ⟨visited, element, rest, results, result, after, rfl, visits.concat called, pass,
      stop, ?_⟩
    rw [findElement_of_visits _ visits pass, findElement, Run.bind_ok called, if_pos stop]
    rfl
  · rw [findElement_of_visits _ visits pass, findElement, Run.bind_error broken]
    rw [Nat.zero_add] at broken
    exact .inr (.inr ⟨interruption, after,
      ⟨visited, element, rest, results, middle, rfl, visits, pass, broken⟩, rfl⟩)

end

/-- **Methods that call a function visit the elements that the array has at the call**, in their order,
each with its index and the array itself, whatever the function does, to the array or to anything
else. Mapping gives as many results as there were elements, filtering the elements whose results are
true, searching ends with the first one of these, and folding begins with what is passed for it or else
with the first element. The first call that is interrupted ends the method in the same way. -/
theorem array_methods_iterate (inner : Interpreter) (id : ArrayId) (receiver callback : Value)
    (more : List Value) (machine : Machine) (callable : callback.isFunction = true) :
    Iterates inner.call callback id more (machine.store.elements id).toList machine fun method =>
      Evaluation.invoke inner (.arrayMethod method id) receiver (callback :: more) machine := by
  have passed : callbackArgument (callback :: more) machine = .ok callback machine := by
    change (if callback.isFunction then pure callback else _ : Run Value) machine = _
    rw [if_pos callable]
    rfl
  have begins : ∀ (method : ArrayMethod) {next : Value → List Value → Run Value},
      runArrayMethod inner.call method (.array id) (callback :: more) =
        (callbackArgument (callback :: more) >>= fun callback =>
          elementsOf (.array id) >>= next callback) →
      Evaluation.invoke inner (.arrayMethod method id) receiver (callback :: more) machine =
        next callback (machine.store.elements id).toList machine := by
    intro method next shape
    rw [Evaluation.invoke, shape, Run.bind_ok passed]
    exact Run.bind_ok rfl
  exact {
    map := by
      rw [begins .map rfl]
      exact visitsAll_map _
    filter := by
      rw [begins .filter rfl]
      exact visitsAll_filter _
    forEach := by
      rw [begins .forEach rfl]
      exact visitsAll_forEach _
    find := by
      rw [begins .find rfl]
      exact visitsUntil_find _
    fold := by
      rintro start others rfl
      rw [begins .fold rfl]
      exact foldElements_foldsAll _ _ _ _
    foldFirst := by
      rintro first rest rfl listed
      rw [begins .fold rfl, listed]
      exact foldElements_foldsAll _ _ _ _
    foldNone := by
      rintro rfl listed
      rw [begins .fold rfl, listed]
      rfl }

/-- A machine with an array of three elements. -/
def threeElements : Machine :=
  { Machine.initial (.scripted [] [] [] []) with
    store := Store.initial.addArray #[.boolean true, .null, .string "last"] }

/-- Taking the first element out is called for all three elements, though it leaves none. -/
theorem array_methods_iterate_shrinking :
    (Value.arrayMethod .popFront 0).isFunction = true ∧
      Iterates (interpreter 1).call (.arrayMethod .popFront 0) 0 []
        [.boolean true, .null, .string "last"] threeElements (fun method =>
          Evaluation.invoke (interpreter 1) (.arrayMethod method 0) .undefined
            [.arrayMethod .popFront 0] threeElements) ∧
      ∃ after, Evaluation.invoke (interpreter 1) (.arrayMethod .map 0) .undefined
          [.arrayMethod .popFront 0] threeElements = .ok (.array 1) after ∧
        after.store.elements 0 = #[] ∧
          after.store.elements 1 = #[.boolean true, .null, .string "last"] :=
  ⟨rfl, array_methods_iterate (interpreter 1) 0 .undefined (.arrayMethod .popFront 0) []
    threeElements rfl, _, rfl, rfl, rfl⟩

end DarijaScript.Builtins
