import DarijaScript.Machine.Basic
import DarijaScript.Proofs.Store.Bindings
import DarijaScript.Proofs.Value.Keys

/-!
# Elements of arrays

Assigning an element of an array is told by what can be read afterwards. A key that denotes an index
below the limit changes what is read there and what lies between the old end and it; every other key
is refused, and nothing has changed.
-/

namespace DarijaScript

namespace Store

/-! ### Reading -/

section

variable {store : Store} {id : ArrayId} {key : Value} {i : Nat}

theorem member_array (index : key.index? = some i) :
    store.member (.array id) key = .ok ((store.elements id)[i]?.getD .undefined) := by
  unfold member element?
  rw [index]

/-- What a key that denotes an index reads, whichever form the key has. -/
theorem member_of_denotes (small : i < 2 ^ 53) (denotes : key.Denotes i) :
    store.member (.array id) key = .ok ((store.elements id)[i]?.getD .undefined) :=
  member_array ((Value.index?_iff small).mpr denotes)

/-- A number always reads something, and undefined if it denotes no element. -/
theorem exists_member_number (store : Store) (id : ArrayId) (x : Float) :
    ∃ found, store.member (.array id) (.number x) = .ok found ∧
      ((∀ i < (store.elements id).size, ¬(Value.number x).Denotes i) → found = .undefined) := by
  unfold member element?
  cases index : (Value.number x).index? with
  | none => exact ⟨.undefined, rfl, fun _ => rfl⟩
  | some i =>
    refine ⟨(store.elements id)[i]?.getD .undefined, rfl, fun outside => ?_⟩
    have beyond : ¬i < (store.elements id).size := fun inside =>
      outside i inside (Value.denotes_of_index? index)
    rw [Array.getElem?_eq_none (Nat.le_of_not_lt beyond)]
    rfl

end

/-! ### Writing -/

theorem size_setElement (elements : Array Value) (i : Nat) (value : Value) :
    (setElement elements i value).size = max elements.size (i + 1) := by
  unfold setElement
  split
  · next inside =>
    rw [Array.size_setIfInBounds]
    omega
  · next outside =>
    rw [Array.size_push, Array.size_append, Array.size_replicate]
    omega

/-- Only one element changes; a gap in front of it reads as nothing did. -/
theorem getElem?_setElement (elements : Array Value) (i j : Nat) (value : Value) :
    (setElement elements i value)[j]?.getD .undefined =
      if j = i then value else elements[j]?.getD .undefined := by
  unfold setElement
  by_cases inside : i < elements.size
  · rw [if_pos inside, Array.getElem?_setIfInBounds]
    by_cases same : i = j
    · rw [if_pos same, if_pos inside, if_pos same.symm]
      rfl
    · rw [if_neg same, if_neg (Ne.symm same)]
  · have filled : (elements ++ Array.replicate (i - elements.size) Value.undefined).size = i := by
      rw [Array.size_append, Array.size_replicate]
      omega
    rw [if_neg inside, Array.getElem?_push, filled]
    by_cases same : j = i
    · rw [if_pos same, if_pos same]
      rfl
    · rw [if_neg same, if_neg same, Array.getElem?_append]
      split
      · rfl
      · next beyond =>
        rw [Array.getElem?_eq_none (Nat.le_of_not_lt beyond), Array.getElem?_replicate]
        split <;> rfl

/-- The store is the same but for one array, where an element has been assigned: the array has grown
to hold it if it had to, and a new element in front of it is undefined. -/
structure ElementAssigned (store after : Store) (id : ArrayId) (i : Nat) (value : Value) : Prop where
  scopes : after.scopes = store.scopes
  objects : after.objects = store.objects
  others : ∀ other, other ≠ id → after.arrays[other]? = store.arrays[other]?
  size : (after.elements id).size = max (store.elements id).size (i + 1)
  assigned : ∀ key : Value, key.Denotes i → after.member (.array id) key = .ok value
  kept : ∀ j < (store.elements id).size, j < 2 ^ 53 → j ≠ i → ∀ key : Value, key.Denotes j →
    after.member (.array id) key = store.member (.array id) key
  gap : ∀ j, (store.elements id).size ≤ j → j < i → ∀ key : Value, key.Denotes j →
    after.member (.array id) key = .ok .undefined

section

variable {store : Store} {id : ArrayId} {i : Nat}

theorem elements_write (there : id < store.arrays.size) (value : Value) :
    (store.write (.element id i) value).elements id = setElement (store.elements id) i value := by
  unfold write modifyArray elements
  rw [Array.getD_eq_getD_getElem?, Array.getElem?_modify, if_pos rfl, Array.getD_eq_getD_getElem?,
    Array.getElem?_eq_getElem there]
  rfl

theorem elementAssigned_write (there : id < store.arrays.size) (small : i < 2 ^ 53)
    (value : Value) : store.ElementAssigned (store.write (.element id i) value) id i value where
  scopes := rfl
  objects := rfl
  others := by
    intro other apart
    exact (Array.getElem?_modify ..).trans (if_neg (Ne.symm apart))
  size := by rw [elements_write there, size_setElement]
  assigned := by
    intro key denotes
    rw [member_of_denotes small denotes, elements_write there, getElem?_setElement, if_pos rfl]
  kept := by
    intro j _ few apart key denotes
    rw [member_of_denotes few denotes, member_of_denotes few denotes, elements_write there,
      getElem?_setElement, if_neg apart]
  gap := by
    intro j beyond before key denotes
    rw [member_of_denotes (Nat.lt_trans before small) denotes, elements_write there,
      getElem?_setElement, if_neg (Nat.ne_of_lt before), Array.getElem?_eq_none beyond]
    rfl

end

end Store

/-! ### Assigning -/

theorem Store.slot_of_denotes {store : Store} {id : ArrayId} {key : Value} {i : Nat}
    (low : i < maxArrayLength) (denotes : key.Denotes i) :
    store.slot (.array id) key = .ok (.element id i) := by
  have index := (Value.index?_iff (Nat.lt_trans low (by decide))).mpr denotes
  unfold slot
  rw [index, Option.filter_some, if_pos (decide_eq_true low)]

theorem Store.slot_of_not_denotes {store : Store} {id : ArrayId} {key : Value}
    (nowhere : ∀ i < maxArrayLength, ¬key.Denotes i) :
    store.slot (.array id) key = .error (.arrayIndex (store.literal key)) := by
  have index : key.index?.filter (· < maxArrayLength) = none :=
    Option.filter_eq_none_iff.mpr fun i found low =>
      nowhere i (of_decide_eq_true low) (Value.denotes_of_index? found)
  unfold slot
  rw [index]

/-- Assigning an element of an array is exact and atomic. A key that denotes an index below the
limit, as a number or in digits, is assigned there and nowhere else; all other keys are refused with
the machine unchanged. Reading an array with a number always succeeds, with undefined outside the
array, and both forms of an index read the same. -/
theorem element_assignment (machine : Machine) {id : ArrayId}
    (there : id < machine.store.arrays.size) (key value : Value) :
    (∀ i < maxArrayLength, key.Denotes i → ∃ after,
      Run.assignMember (.array id) key value machine = .ok () { machine with store := after } ∧
        machine.store.ElementAssigned after id i value) ∧
    ((∀ i < maxArrayLength, ¬key.Denotes i) →
      Run.assignMember (.array id) key value machine =
        .error (.exception (.fault (.arrayIndex (machine.store.literal key)) .unknown)) machine) ∧
    (∀ x, ∃ found, machine.store.member (.array id) (.number x) = .ok found ∧
      ((∀ i < (machine.store.elements id).size, ¬(Value.number x).Denotes i) →
        found = .undefined)) ∧
    ∀ i < 2 ^ 53, (Value.ofNat i).Denotes i ∧ (Value.string i.repr).Denotes i ∧
      machine.store.member (.array id) (.ofNat i) =
        machine.store.member (.array id) (.string i.repr) := by
  refine ⟨?assigned, ?refused, machine.store.exists_member_number id, ?forms⟩
  case assigned =>
    intro i low denotes
    refine ⟨machine.store.write (.element id i) value, ?_,
      Store.elementAssigned_write there (Nat.lt_trans low (by decide)) value⟩
    change (Run.ofExcept (machine.store.slot (.array id) key) >>= _) machine = _
    rw [Store.slot_of_denotes low denotes]
    rfl
  case refused =>
    intro nowhere
    change (Run.ofExcept (machine.store.slot (.array id) key) >>= _) machine = _
    rw [Store.slot_of_not_denotes nowhere]
    rfl
  case forms =>
    intro i few
    refine ⟨Value.denotes_ofNat few, Value.denotes_repr i, ?_⟩
    rw [Store.member_of_denotes few (Value.denotes_ofNat few),
      Store.member_of_denotes few (Value.denotes_repr i)]

/-- A machine whose store has one array, with one element. -/
def Machine.oneElement : Machine :=
  { Machine.initial (.silent (fun _ => 0) fun _ => 0) with store := ⟨#[], #[], #[#[.null]]⟩ }

/-- The third element of an array of one is assigned: the array grows, and its second element is
undefined. -/
theorem element_assignment_grows : ∃ after,
    Run.assignMember (.array 0) (.string "2") (.boolean true) .oneElement =
      .ok () { Machine.oneElement with store := after } ∧
    (after.elements 0).size = 3 ∧ after.member (.array 0) (.ofNat 2) = .ok (.boolean true) ∧
    after.member (.array 0) (.ofNat 1) = .ok .undefined := by
  have there : 0 < Machine.oneElement.store.arrays.size := by decide
  obtain ⟨assigned, -, -, forms⟩ :=
    element_assignment .oneElement there (.string "2") (.boolean true)
  obtain ⟨after, done, result⟩ := assigned 2 (by decide) rfl
  have second := (forms 2 (by decide)).1
  have first := (forms 1 (by decide)).1
  exact ⟨after, done, result.size, result.assigned _ second,
    result.gap 1 (by decide) (by decide) _ first⟩

end DarijaScript
