import DarijaScript.Proofs.Builtin.Methods
import DarijaScript.Proofs.Evaluation.Enumeration
import DarijaScript.Proofs.Text.Search
import DarijaScript.Proofs.Value.Sharing

/-!
# Joining undoes splitting

Both methods take the text of the separator from the store. Splitting adds an array to the store, but
the texts of the values that were there stay what they were, so the parts are joined with the text at
which they were cut.
-/

namespace DarijaScript

namespace Store

variable {store : Store} {value : Value} {container : Container} {around : List Container}
  {quoted : Bool} {text : String}

/-! ### Texts in a store with one more array -/

theorem elements_addArray_of_ne {id : ArrayId} (other : id ≠ store.arrays.size)
    (elements : Array Value) : (store.addArray elements).elements id = store.elements id := by
  unfold Store.elements addArray
  rw [Array.getD_eq_getD_getElem?, Array.getElem?_push, if_neg other, Array.getD_eq_getD_getElem?]

/-- A further array changes no other container. -/
theorem content_addArray (other : container ≠ .array store.arrays.size) (elements : Array Value) :
    (store.addArray elements).content container = store.content container ∧
      ∀ display, (store.addArray elements).enclosed display container =
        store.enclosed display container := by
  cases container with
  | object id => exact ⟨rfl, fun _ => rfl⟩
  | array id =>
    have same := elements_addArray_of_ne (mt (congrArg Container.array) other) elements
    simp only [content, enclosed, same, implies_true, and_self]

theorem Reaches.of_content {inner : Value} {reached : Container}
    (is : value.container? = some container) (mem : inner ∈ store.content container)
    (reaches : store.Reaches inner reached) : store.Reaches value reached := by
  obtain ⟨held, is', chain⟩ := reaches
  exact ⟨container, is, .head ⟨inner, mem, is'⟩ chain⟩

/-- A value is written as before if it does not lead to the new array. -/
theorem Written.addArray (written : store.Written around quoted value text)
    (apart : ¬store.Reaches value (.array store.arrays.size)) (elements : Array Value) :
    (store.addArray elements).Written around quoted value text := by
  induction written with
  | plain flat => exact .plain flat
  | marked is inside => exact .marked is inside
  | @whole around quoted value container display is outside contents ih =>
    have other : container ≠ .array store.arrays.size := by
      rintro rfl
      exact apart ⟨_, is, .refl⟩
    obtain ⟨content, enclosed⟩ := content_addArray other elements
    rw [← enclosed]
    refine .whole is outside fun inner mem => ?_
    rw [content] at mem
    exact ih inner mem fun reaches => apart (reaches.of_content is mem)

theorem text_addArray (apart : ¬store.Reaches value (.array store.arrays.size))
    (elements : Array Value) : (store.addArray elements).text value = store.text value := by
  have written : store.Written [] false value (store.text value) :=
    (written_iff (Nat.le_refl _)).mpr rfl
  exact ((written_iff (Nat.le_refl _)).mp (written.addArray apart elements)).symm

end Store

namespace Builtins

open Store

variable {store : Store} {machine : Machine} {args : List Value}

/-! ### Separators -/

/-- The text of the separator that is passed; a separator that is missing has none. -/
def separator? (store : Store) (args : List Value) : Option String :=
  match argument args 0 with
  | .undefined => none
  | separator => some (store.text separator)

/-- The parts of a text: without a separator the whole text, and with the empty one its characters. -/
def partsOf : (separator : Option String) → List Char → List (List Char)
  | none, text => [text]
  | some separator, text =>
    if separator = "" then text.map fun c => [c] else Text.splitOn separator.toList text

theorem separator?_addArray
    (apart : ¬store.Reaches (argument args 0) (.array store.arrays.size)) (elements : Array Value) :
    separator? (store.addArray elements) args = separator? store args := by
  unfold separator?
  split
  · rfl
  · rw [text_addArray apart]

theorem intercalate_singletons (text : List Char) :
    [].intercalate (text.map fun c => [c]) = text := by
  induction text with
  | nil => rfl
  | cons c rest ih =>
    cases rest with
    | nil => rfl
    | cons d rest =>
      rw [List.map_cons, List.intercalate_cons_of_ne_nil (by simp), ih]
      rfl

/-- The parts of a text are joined to the text, with any text between them if there is one part. -/
theorem intercalate_partsOf (separator : Option String) (default : String) (text : List Char) :
    (separator.getD default).toList.intercalate (partsOf separator text) = text := by
  cases separator with
  | none => simp [partsOf]
  | some separator =>
    rw [Option.getD_some, partsOf]
    split
    · next empty =>
      rw [empty]
      exact intercalate_singletons text
    · next some => exact Text.intercalate_splitOn (mt String.toList_eq_nil_iff.mp some) text

/-- The texts of some strings are joined like their characters. -/
theorem intercalate_ofList (separator : String) (parts : List (List Char)) :
    separator.intercalate (parts.map String.ofList) =
      String.ofList (separator.toList.intercalate parts) := by
  rw [← String.toList_inj, String.toList_intercalate, List.map_map, String.toList_ofList]
  simp

/-! ### Splitting and joining -/

theorem splitText_eq (separator : String) (text : List Char) :
    splitText separator.toList text = (partsOf (some separator) text).map stringOf := by
  rw [splitText, partsOf]
  by_cases empty : separator = ""
  · rw [if_pos empty, empty, List.map_map]
    rfl
  · have full : ¬separator.toList.isEmpty = true := by simpa using empty
    rw [if_neg empty, if_neg full]

/-- Splitting makes a new array of the parts. -/
theorem runStringMethod_split (text : String) (args : List Value) (machine : Machine) :
    runStringMethod .split (.string text) args machine =
      .ok (.array machine.store.arrays.size) { machine with
        store := machine.store.addArray
          ((partsOf (separator? machine.store args) text.toList).map stringOf).toArray } := by
  unfold separator?
  cases given : argument args 0 with
  | undefined =>
    simp only [runStringMethod, given]
    rfl
  | _ =>
    rw [← splitText_eq]
    simp only [runStringMethod, given]
    rfl

theorem joinElements_strings (separator : String) (parts : List (List Char)) (machine : Machine) :
    joinElements separator (parts.map stringOf) machine =
      .ok (stringOf (separator.toList.intercalate parts)) machine := by
  have texts : (parts.map stringOf).map (joinedText machine.store) = parts.map String.ofList := by
    rw [List.map_map]
    exact List.map_congr_left fun part _ => text_string machine.store _
  rw [stringOf, ← intercalate_ofList, ← texts]
  rfl

/-- Joining strings puts the separator between them, and a comma if it is missing. -/
theorem runArrayMethod_join (call : Caller) (args : List Value) {id : ArrayId} {parts : List (List Char)}
    (elements : (machine.store.elements id).toList = parts.map stringOf) :
    runArrayMethod call .join (.array id) args machine =
      .ok (stringOf (((separator? machine.store args).getD ",").toList.intercalate parts))
        machine := by
  unfold separator?
  cases given : argument args 0 with
  | undefined =>
    rw [Option.getD_none, ← joinElements_strings, ← elements]
    simp only [runArrayMethod, given]
    rfl
  | _ =>
    rw [Option.getD_some, ← joinElements_strings, ← elements]
    simp only [runArrayMethod, given]
    rfl

end Builtins

open Builtins

/-- **Joining undoes splitting.** Splitting a string and joining the array with the same arguments gives
the string, whatever separator is passed, if any: both methods take the same text from it. Without a
separator there is one part, and no part contains the text of a separator that is not empty. A
separator is a value of the store, so the containers that it leads to are there. -/
theorem join_split (fuel fuel' : Nat) (text : String) (args : List Value) (machine : Machine)
    (there : ∀ container, machine.store.Reaches (argument args 0) container →
      container ∈ machine.store.containers) :
    ∃ (id : ArrayId) (parts : List String) (after : Machine),
      Machine.callMethod (fuel + 1) (.string text) "9sem" args machine = .ok (.array id) after ∧
      Machine.callMethod (fuel' + 1) (.array id) "lsse9" args after = .ok (.string text) after ∧
      after.store.elements id = (parts.map .string).toArray ∧
      separator? after.store args = separator? machine.store args ∧
      (separator? machine.store args = none → parts = [text]) ∧
      ∀ separator, separator? machine.store args = some separator → separator ≠ "" →
        ∀ part ∈ parts, ¬separator.toList <:+: part.toList := by
  have apart : ¬machine.store.Reaches (argument args 0) (.array machine.store.arrays.size) :=
    fun reaches => Nat.lt_irrefl _ (Store.mem_containers_array.mp (there _ reaches))
  let parts := partsOf (separator? machine.store args) text.toList
  let after : Machine := { machine with
    store := machine.store.addArray (parts.map stringOf).toArray }
  have elements : after.store.elements machine.store.arrays.size = (parts.map stringOf).toArray :=
    Store.elements_addArray_self ..
  have same : separator? after.store args = separator? machine.store args :=
    separator?_addArray apart _
  refine ⟨machine.store.arrays.size, parts.map String.ofList, after, ?split, ?join, ?_, same, ?_, ?_⟩
  case split =>
    rw [← runStringMethod_split]
    exact Machine.callMethod_string fuel args machine text .split
  case join =>
    have joined := runArrayMethod_join (interpreter fuel').call args (congrArg Array.toList elements)
    rw [same, intercalate_partsOf, stringOf, String.ofList_toList] at joined
    rw [← joined]
    exact Machine.callMethod_array fuel' args after machine.store.arrays.size .join
  · rw [elements, List.map_map]
    rfl
  · intro missing
    simp [parts, missing, partsOf]
  · intro separator given some part mem
    obtain ⟨found, cut, rfl⟩ := List.mem_map.mp mem
    rw [String.toList_ofList]
    simp only [parts, given, partsOf, if_neg some] at cut
    exact Text.not_isInfix_of_mem_splitOn (mt String.toList_eq_nil_iff.mp some) cut

/-- A machine whose store has an array with another array in it. -/
def Machine.nestedArrays : Machine :=
  { Machine.initial (.scripted [] [] [] []) with store := ⟨#[], #[], #[#[.undefined], #[.array 0]]⟩ }

theorem mem_containers_nestedArrays {container : Container}
    (reaches : Machine.nestedArrays.store.Reaches (.array 1) container) :
    container ∈ Machine.nestedArrays.store.containers := by
  obtain ⟨outer, is, chain⟩ := reaches
  cases is
  rcases Relation.ReflTransGen.cases_tail chain with rfl | ⟨holder, -, value, mem, is⟩
  · decide
  · have there : holder ∈ [Container.array 0, Container.array 1] :=
      Store.mem_containers_of_content mem
    rcases List.mem_pair.mp there with rfl | rfl
    · cases List.mem_singleton.mp mem
      cases is
    · cases List.mem_singleton.mp mem
      cases is
      decide

/-- The separator is an array, and its text stands at both ends of the string, twice in a row and
behind a part of itself. -/
theorem join_split_array : ∃ (id : ArrayId) (parts : List String) (after : Machine),
    separator? Machine.nestedArrays.store [.array 1] = some "[[mchmcha]]" ∧
    Machine.callMethod 1 (.string "[[mchmcha]][[mchmcha]]a[[[mchmcha]]") "9sem" [.array 1]
      .nestedArrays = .ok (.array id) after ∧
    Machine.callMethod 1 (.array id) "lsse9" [.array 1] after =
      .ok (.string "[[mchmcha]][[mchmcha]]a[[[mchmcha]]") after ∧
    after.store.elements id = (parts.map .string).toArray ∧
    ∀ part ∈ parts, ¬"[[mchmcha]]".toList <:+: part.toList := by
  have given : separator? Machine.nestedArrays.store [.array 1] = some "[[mchmcha]]" := by rfl
  obtain ⟨id, parts, after, split, join, elements, -, -, apart⟩ :=
    join_split 0 0 "[[mchmcha]][[mchmcha]]a[[[mchmcha]]" [.array 1] .nestedArrays
      fun _ => mem_containers_nestedArrays
  exact ⟨id, parts, after, given, split, join, elements, apart _ given (by decide)⟩

end DarijaScript
