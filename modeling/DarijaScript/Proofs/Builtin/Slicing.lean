import DarijaScript.Proofs.Builtin.Bounds
import DarijaScript.Proofs.Builtin.Joining

/-!
# Slicing

A string is a sequence of its characters and an array one of its elements. Slicing gives a sequence of
the same kind with the items between two bounds, so what holds of parts of a list holds of both kinds.
-/

namespace DarijaScript

namespace Builtins

variable {α β : Type} {items : List α} {bound start stop : Value} {k : Int}

/-! ### Parts of a list -/

theorem slice_map (f : α → β) (items : List α) (start stop : Value) :
    slice (items.map f) start stop = (slice items start stop).map f := by
  unfold slice
  rw [List.length_map, List.map_drop, List.map_take]

/-- The items between two indices that are in order and inside. -/
theorem slice_eq {i j : Nat} (first : start.integerPart? = some i) (last : stop.integerPart? = some j)
    (order : i ≤ j) (inside : j ≤ items.length) :
    slice items start stop = (items.take j).drop i := by
  unfold slice partBounds
  rw [resolveBound_of_le first (Int.natCast_nonneg _) (by omega),
    resolveBound_of_le last (Int.natCast_nonneg _) (by omega)]
  simp [Nat.max_eq_left order]

/-- The items in front of a bound. -/
theorem slice_zero (first : start.integerPart? = some 0) (last : stop.integerPart? = some k)
    (nonneg : 0 ≤ k) (inside : k ≤ items.length) : slice items start stop = items.take k.toNat := by
  obtain ⟨j, rfl⟩ := Int.eq_ofNat_of_zero_le nonneg
  exact slice_eq first last (Nat.zero_le j) (Int.ofNat_le.mp inside)

/-- The items behind a bound. -/
theorem slice_undefined (items : List α) (start : Value) :
    slice items start .undefined = items.drop (resolveBound items.length start 0) := by
  have inside := resolveBound_le (Nat.zero_le items.length) start
  have last : max (resolveBound items.length .undefined items.length)
      (resolveBound items.length start 0) = items.length := Nat.max_eq_left inside
  unfold slice partBounds
  dsimp only
  rw [last, List.take_length]

/-- A list is the items in front of a bound and those behind it. -/
theorem slice_append_slice (first : start.integerPart? = some 0)
    (bounds : bound.integerPart? = some k) (nonneg : 0 ≤ k) (inside : k ≤ items.length) :
    slice items start bound ++ slice items bound .undefined = items := by
  rw [slice_zero first bounds nonneg inside, slice_undefined,
    resolveBound_of_le bounds nonneg inside, List.take_append_drop]

/-- Behind a negative bound are as many items as it says. -/
theorem slice_negative (bounds : bound.integerPart? = some k) (negative : k < 0)
    (inside : -items.length ≤ k) :
    slice items bound .undefined <:+ items ∧
      ((slice items bound .undefined).length : Int) = -k := by
  rw [slice_undefined, resolveBound_eq bounds, if_pos negative]
  refine ⟨List.drop_suffix .., ?_⟩
  rw [List.length_drop]
  omega

/-- Between an index and the next one is one item. -/
theorem slice_succ {i : Nat} (first : start.integerPart? = some i)
    (last : stop.integerPart? = some (i + 1 : Nat)) (inside : i < items.length) :
    slice items start stop = [items[i]] := by
  rw [slice_eq first last (Nat.le_succ i) inside]
  simp [List.drop_take, List.take_one, inside]

end Builtins

/-! ### Sequences -/

/-- The value is a string of these characters or an array of these elements. -/
inductive Store.Sequence (store : Store) : Value → List Value → Prop
  | string (text : String) :
    Sequence store (.string text) (text.toList.map fun c => .string c.toString)
  | array {id : ArrayId} (there : id < store.arrays.size) :
    Sequence store (.array id) (store.elements id).toList

namespace Store.Sequence

variable {store : Store} {owner : Value} {items : List Value}

/-- A further array leaves the sequences that are there. -/
theorem addArray (sequence : store.Sequence owner items) (elements : Array Value) :
    (store.addArray elements).Sequence owner items := by
  cases sequence with
  | string text => exact .string text
  | array there =>
    rw [← elements_addArray_of_lt there elements]
    exact .array (by simpa [Store.addArray] using Nat.lt_succ_of_lt there)

theorem addArray_self (store : Store) (items : List Value) :
    (store.addArray items.toArray).Sequence (.array store.arrays.size) items := by
  have sequence : (store.addArray items.toArray).Sequence (.array store.arrays.size) _ :=
    .array (by simp [Store.addArray])
  rwa [elements_addArray_self] at sequence

theorem stringOf (store : Store) (chars : List Char) :
    store.Sequence (Builtins.stringOf chars) (chars.map fun c => .string c.toString) := by
  have sequence : store.Sequence _ _ := .string (String.ofList chars)
  rwa [String.toList_ofList] at sequence

/-- The length of a sequence is the number of its items. -/
theorem member_length (sequence : store.Sequence owner items) :
    store.member owner (.string lengthName) = .ok (.ofNat items.length) := by
  have index : (Value.string lengthName).index? = none := by decide
  unfold member element?
  cases sequence <;> simp [index, Value.isNumber, String.length_toList]

end Store.Sequence

open Builtins

variable {fuel : Nat} {machine : Machine} {owner bound : Value} {items : List Value} {k : Int}

/-- Slicing a string gives the characters between the two bounds. -/
theorem Machine.callMethod_slice_string (fuel : Nat) (args : List Value) (machine : Machine)
    (text : String) : callMethod (fuel + 1) (.string text) "9te3" args machine =
      .ok (stringOf (Builtins.slice text.toList (argument args 0) (argument args 1))) machine :=
  callMethod_string fuel args machine text .slice

/-- Slicing an array makes a new one of the elements between the two bounds. -/
theorem Machine.callMethod_slice_array (fuel : Nat) (args : List Value) (machine : Machine)
    (id : ArrayId) : callMethod (fuel + 1) (.array id) "9te3" args machine =
      .ok (.array machine.store.arrays.size) { machine with
        store := machine.store.addArray
          (Builtins.slice (machine.store.elements id).toList (argument args 0)
            (argument args 1)).toArray } :=
  callMethod_array fuel args machine id .slice

/-- Slicing a sequence gives one of the same kind with the items between the two bounds, and leaves the
sequences that are there. -/
theorem Store.Sequence.slice (sequence : machine.store.Sequence owner items) (fuel : Nat)
    (args : List Value) :
    ∃ part after, Machine.callMethod (fuel + 1) owner "9te3" args machine = .ok part after ∧
      part.typeName = owner.typeName ∧
      after.store.Sequence part (Builtins.slice items (argument args 0) (argument args 1)) ∧
      ∀ other others, machine.store.Sequence other others → after.store.Sequence other others := by
  cases sequence with
  | string text =>
    refine ⟨_, _, Machine.callMethod_slice_string fuel args machine text, rfl, ?_, fun _ _ => id⟩
    rw [slice_map]
    exact .stringOf _ _
  | array there =>
    refine ⟨_, _, Machine.callMethod_slice_array fuel args machine _, rfl, .addArray_self _ _, ?_⟩
    exact fun other others sequence => sequence.addArray _

/-- What is in front of an integer bound and what is behind it. -/
theorem Store.Sequence.slice_twice (sequence : machine.store.Sequence owner items) (fuel : Nat)
    (part : bound.integerPart? = some k) (nonneg : 0 ≤ k) (inside : k ≤ items.length) :
    ∃ front back middle after firsts lasts,
      Machine.callMethod (fuel + 1) owner "9te3" [.ofNat 0, bound] machine = .ok front middle ∧
      Machine.callMethod (fuel + 1) owner "9te3" [bound] middle = .ok back after ∧
      front.typeName = owner.typeName ∧ back.typeName = owner.typeName ∧
      after.store.Sequence front firsts ∧ after.store.Sequence back lasts ∧
      firsts ++ lasts = items := by
  obtain ⟨front, middle, called, kind, firsts, kept⟩ := sequence.slice fuel [.ofNat 0, bound]
  obtain ⟨back, after, called', kind', lasts, kept'⟩ := (kept _ _ sequence).slice fuel [bound]
  have zero : (Value.ofNat 0).integerPart? = some 0 := integerPart?_ofNat (by decide)
  exact ⟨front, back, middle, after, _, _, called, called', kind, kind', kept' _ _ firsts, lasts,
    slice_append_slice zero part nonneg inside⟩

/-- What is behind a negative bound. -/
theorem Store.Sequence.slice_back (sequence : machine.store.Sequence owner items) (fuel : Nat)
    (part : bound.integerPart? = some k) (negative : k < 0) (inside : -items.length ≤ k) :
    ∃ back after lasts,
      Machine.callMethod (fuel + 1) owner "9te3" [bound] machine = .ok back after ∧
      back.typeName = owner.typeName ∧ after.store.Sequence back lasts ∧ lasts <:+ items ∧
      (lasts.length : Int) = -k := by
  obtain ⟨back, after, called, kind, lasts, -⟩ := sequence.slice fuel [bound]
  obtain ⟨suffix, length⟩ := slice_negative part negative inside
  exact ⟨back, after, _, called, kind, lasts, suffix, length⟩

/-! ### Strings -/

theorem join_characters (chars : List Char) :
    String.join (chars.map fun c => String.ofList [c]) = String.ofList chars := by
  rw [← String.toList_inj, String.toList_join, String.toList_ofList, List.flatMap_map]
  simp

/-- Slicing a string gives the text of what slicing the array of its characters gives. -/
theorem slice_characters (fuel : Nat) (text : String) (args : List Value) (machine : Machine) :
    ∃ (id part : ArrayId) (pieces : List String) (middle after : Machine),
      Machine.callMethod (fuel + 1) (.string text) "9sem" [.string ""] machine =
        .ok (.array id) middle ∧
      Machine.callMethod (fuel + 1) (.array id) "9te3" args middle = .ok (.array part) after ∧
      (after.store.elements part).toList = pieces.map .string ∧
      Machine.callMethod (fuel + 1) (.string text) "9te3" args machine =
        .ok (.string (String.join pieces)) machine := by
  have empty : separator? machine.store [.string ""] = some "" :=
    congrArg some (Store.text_string machine.store "")
  have split := runStringMethod_split text [.string ""] machine
  rw [empty] at split
  let characters := (text.toList.map fun c => [c]).map stringOf
  let middle : Machine := { machine with store := machine.store.addArray characters.toArray }
  have elements : middle.store.elements machine.store.arrays.size = characters.toArray :=
    Store.elements_addArray_self ..
  have sliced := Machine.callMethod_slice_array fuel args middle machine.store.arrays.size
  rw [elements, List.toList_toArray, slice_map, slice_map, List.map_map] at sliced
  let part := Builtins.slice text.toList (argument args 0) (argument args 1)
  refine ⟨_, _, part.map fun c => String.ofList [c], middle, _,
    (Machine.callMethod_string fuel _ machine text .split).trans split, sliced, ?_, ?_⟩
  · rw [Store.elements_addArray_self, List.toList_toArray, List.map_map]
    rfl
  · rw [join_characters]
    exact Machine.callMethod_slice_string fuel args machine text

theorem Store.member_string {store : Store} {text : String} {key : Value} {i : Nat}
    (index : key.index? = some i) (inside : i < text.toList.length) :
    store.member (.string text) key = .ok (stringOf [text.toList[i]]) := by
  unfold member element?
  rw [index]
  simp [inside, stringOf]

/-- At an index below the length a string has what is between the index and the next one. -/
theorem slice_character (fuel : Nat) {text : String} {i : Nat} (inside : i < text.length)
    (small : text.length < 2 ^ 53) {key : Value} (denotes : key.Denotes i) (machine : Machine) :
    ∃ item, Run.member (.string text) key machine = .ok item machine ∧
      Machine.callMethod (fuel + 1) (.string text) "9te3" [.ofNat i, .ofNat (i + 1)] machine =
        .ok item machine := by
  have index : key.index? = some i := (Value.index?_iff (Nat.lt_trans inside small)).mpr denotes
  have first : (Value.ofNat i).integerPart? = some i := integerPart?_ofNat (by omega)
  have last : (Value.ofNat (i + 1)).integerPart? = some (i + 1 : Nat) :=
    integerPart?_ofNat (by omega)
  rw [← String.length_toList] at inside
  refine ⟨stringOf [text.toList[i]], ?_, ?_⟩
  · change Run.ofExcept (machine.store.member (.string text) key) machine = _
    rw [Store.member_string index inside]
    rfl
  · rw [← slice_succ first last inside]
    exact Machine.callMethod_slice_string fuel [.ofNat i, .ofNat (i + 1)] machine text

/-- **Slicing is total, and the same for strings and arrays.** The bounds that are computed with doubles
are in order and inside for every length below `2 ^ 53`, whatever values are passed, and they are the
ones between which a part is taken, so there always is one. Slicing a string gives the text of what
slicing the array of its characters gives, and at an index it gives the character there. Every sequence
is what is in front of an integer bound and then what is behind it, and behind a negative bound are as
many items from its end. Every integer of at most fifty-three bits is such a bound. -/
theorem slice_sequences (fuel : Nat) (machine : Machine) :
    (∀ length < 2 ^ 53, ∀ start stop,
      (partBoundsInDoubles length start stop).1 ≤ (partBoundsInDoubles length start stop).2 ∧
      (partBoundsInDoubles length start stop).2 ≤ length ∧
      partBounds length start stop = partBoundsInDoubles length start stop) ∧
    (∀ (text : String) (args : List Value),
      ∃ (id part : ArrayId) (pieces : List String) (middle after : Machine),
        Machine.callMethod (fuel + 1) (.string text) "9sem" [.string ""] machine =
          .ok (.array id) middle ∧
        Machine.callMethod (fuel + 1) (.array id) "9te3" args middle = .ok (.array part) after ∧
        (after.store.elements part).toList = pieces.map .string ∧
        Machine.callMethod (fuel + 1) (.string text) "9te3" args machine =
          .ok (.string (String.join pieces)) machine) ∧
    (∀ text : String, text.length < 2 ^ 53 → ∀ i < text.length, ∀ key : Value, key.Denotes i →
      ∃ item, Run.member (.string text) key machine = .ok item machine ∧
        Machine.callMethod (fuel + 1) (.string text) "9te3" [.ofNat i, .ofNat (i + 1)] machine =
          .ok item machine) ∧
    (∀ owner items, machine.store.Sequence owner items →
      machine.store.member owner (.string "twil") = .ok (.ofNat items.length) ∧
      (∀ args, ∃ part after, Machine.callMethod (fuel + 1) owner "9te3" args machine = .ok part after ∧
        part.typeName = owner.typeName ∧
        after.store.Sequence part (Builtins.slice items (argument args 0) (argument args 1))) ∧
      ∀ (bound : Value) (k : Int), bound.integerPart? = some k →
        (0 ≤ k → k ≤ items.length → ∃ front back middle after firsts lasts,
          Machine.callMethod (fuel + 1) owner "9te3" [.ofNat 0, bound] machine = .ok front middle ∧
          Machine.callMethod (fuel + 1) owner "9te3" [bound] middle = .ok back after ∧
          front.typeName = owner.typeName ∧ back.typeName = owner.typeName ∧
          after.store.Sequence front firsts ∧ after.store.Sequence back lasts ∧
          firsts ++ lasts = items) ∧
        (k < 0 → -items.length ≤ k → ∃ back after lasts,
          Machine.callMethod (fuel + 1) owner "9te3" [bound] machine = .ok back after ∧
          back.typeName = owner.typeName ∧ after.store.Sequence back lasts ∧ lasts <:+ items ∧
          (lasts.length : Int) = -k)) ∧
    ∀ k : Int, k.natAbs < 2 ^ 53 → (Value.number (Decimal.ofInt k)).integerPart? = some k := by
  refine ⟨?bounds, fun text args => slice_characters fuel text args machine, ?index, ?twice,
    fun k => integerPart?_ofInt⟩
  case bounds =>
    intro length small start stop
    rw [partBoundsInDoubles_eq small]
    obtain ⟨order, inside⟩ := partBounds_le length start stop
    exact ⟨order, inside, rfl⟩
  case index =>
    intro text small i inside key denotes
    exact slice_character fuel inside small denotes machine
  case twice =>
    intro owner items sequence
    refine ⟨sequence.member_length, fun args => ?_, fun bound k part => ⟨?_, ?_⟩⟩
    · obtain ⟨part, after, called, kind, sliced, -⟩ := sequence.slice fuel args
      exact ⟨part, after, called, kind, sliced⟩
    · exact fun nonneg inside => sequence.slice_twice fuel part nonneg inside
    · exact fun negative inside => sequence.slice_back fuel part negative inside

/-- The last two characters of a string, and the same string cut in front of them. -/
theorem slice_sequences_negative :
    let machine := Machine.initial (.silent (fun _ => 0) fun _ => 0)
    let items := "ktâb".toList.map fun c => Value.string c.toString
    (∃ back after lasts,
      Machine.callMethod 1 (.string "ktâb") "9te3" [.number (Decimal.ofInt (-2))] machine =
        .ok back after ∧
      after.store.Sequence back lasts ∧ lasts <:+ items ∧ (lasts.length : Int) = 2) ∧
    ∃ front back middle after firsts lasts,
      Machine.callMethod 1 (.string "ktâb") "9te3" [.ofNat 0, .number (Decimal.ofInt 2)] machine =
        .ok front middle ∧
      Machine.callMethod 1 (.string "ktâb") "9te3" [.number (Decimal.ofInt 2)] middle =
        .ok back after ∧
      after.store.Sequence front firsts ∧ after.store.Sequence back lasts ∧
      firsts ++ lasts = items := by
  intro machine items
  obtain ⟨-, -, -, sequences, integers⟩ := slice_sequences 0 machine
  obtain ⟨-, -, parts⟩ := sequences (.string "ktâb") items (.string "ktâb")
  obtain ⟨back, after, lasts, called, -, sequence, suffix, length⟩ :=
    (parts _ (-2) (integers (-2) (by decide))).2 (by decide) (by decide)
  obtain ⟨front, back', middle, after', firsts, lasts', called', called'', -, -, sequence',
    sequence'', together⟩ := (parts _ 2 (integers 2 (by decide))).1 (by decide) (by decide)
  exact ⟨⟨back, after, lasts, called, sequence, suffix, length⟩, front, back', middle, after',
    firsts, lasts', called', called'', sequence', sequence'', together⟩

end DarijaScript
