import DarijaScript.Proofs.Builtin.Slicing
import DarijaScript.Proofs.Text.Bytes
import DarijaScript.Proofs.Value.Elements
import DarijaScript.Proofs.Value.Equality

/-!
# Searching

Searching a string or an array gives the first position at which something holds, or minus one if it
holds nowhere. In a string the position counts characters, and it is the one of the first byte at which
the encoding is found. In an array finding a position and asking for an element compare differently,
and this makes a difference for NaN only.
-/

namespace DarijaScript

namespace Builtins

/-! ### Positions -/

/-- Something holds at this position and not before. -/
def IsFirst (here : Nat → Prop) (i : Nat) : Prop := here i ∧ ∀ j < i, ¬here j

/-- The value is the first position at which something holds, or minus one if there is none. -/
inductive Locates (here : Nat → Prop) : Value → Prop
  | nowhere (none : ∀ i, ¬here i) : Locates here (.number (-1))
  | first {i : Nat} (first : IsFirst here i) : Locates here (.ofNat i)

variable {here : Nat → Prop} {position : Value}

open Decimal in
/-- No position is minus one, even if it is rounded. -/
theorem strictEqual_ofNat_minusOne (i : Nat) :
    (Value.ofNat i).strictEqual (.number (-1)) = false := by
  have minusOne : Integral (-1 : Float).toModel.unpack (-1) :=
    integral_neg (integral_ofNat (n := 1) (by decide))
  have negative : Negative (-1 : Float).toModel.unpack := minusOne.negative_iff.mpr (by decide)
  have unsigned (form) : Negative (unsignedZero form) ↔ Negative form := by cases form <;> rfl
  change (Decimal.ofNat i == -1) = false
  rw [Bool.eq_false_iff, ne_eq, beq_iff_unsignedZero]
  rintro ⟨-, same⟩
  rw [← unsigned, ← same, unsigned] at negative
  exact not_negative_ofNat i negative

theorem strictEqual_minusOne : (Value.number (-1)).strictEqual (.number (-1)) = true := by
  rw [Value.strictEqual_self_iff]
  rintro ⟨x, is, nan⟩
  cases is
  exact Bool.false_ne_true nan

/-- What is located is not minus one exactly if something holds somewhere. -/
theorem Locates.strictEqual_iff (locates : Locates here position) :
    position.strictEqual (.number (-1)) = false ↔ ∃ i, here i := by
  cases locates with
  | nowhere none => simp [strictEqual_minusOne, none]
  | first first => exact iff_of_true (strictEqual_ofNat_minusOne _) ⟨_, first.1⟩

end Builtins

open Builtins Text

variable {needle text : String} {fuel : Nat} {args : List Value} {machine : Machine} {i : Nat}

/-! ### Strings -/

theorem Builtins.locates_text (needle text : List Char) :
    Locates (OccursAt needle text) (positionValue (indexOf? needle text)) := by
  cases found : indexOf? needle text with
  | none => exact .nowhere (indexOf?_eq_none_iff.mp found)
  | some i => exact .first (indexOf?_eq_some_iff.mp found)

theorem Text.isSome_indexOf?_iff (needle text : List Char) :
    (indexOf? needle text).isSome = true ↔ ∃ i, OccursAt needle text i := by
  rw [Option.isSome_iff_ne_none, ne_eq, indexOf?_eq_none_iff, not_forall_not]

/-- As many characters are in front of the first byte at which the encoding is found as there are in
front of the first place of the text. -/
theorem Text.exists_front_of_isFirst_bytes {offset : Nat} {position : Value}
    (locates : Locates (OccursAt needle.toList text.toList) position)
    (first : IsFirst (OccursAt needle.toUTF8.data.toList text.toUTF8.data.toList) offset) :
    ∃ front back : String, front ++ back = text ∧ front.utf8ByteSize = offset ∧
      position = .ofNat front.length := by
  change IsFirst (OccursAt needle.toByteArray.data.toList text.toByteArray.data.toList) offset at first
  rw [← bytes_toList, ← bytes_toList] at first
  cases locates with
  | nowhere none =>
    obtain ⟨i, occurs⟩ := exists_occursAt_bytes_iff.mp ⟨offset, first.1⟩
    exact absurd occurs (none i)
  | @first i isFirst =>
    have before := length_bytes_take_le isFirst.2 first.1
    have same : offset = (bytes (text.toList.take i)).length :=
      Nat.le_antisymm (Nat.le_of_not_lt fun less => first.2 _ less isFirst.1.bytes) before
    have inside : i ≤ text.toList.length := Nat.le_of_add_right_le isFirst.1.add_length_le
    refine ⟨String.ofList (text.toList.take i), String.ofList (text.toList.drop i), ?_, ?_, ?_⟩
    · rw [← String.toList_inj]
      simp
    · rw [same, ← length_bytes_toList, String.toList_ofList]
    · rw [String.length_ofList, List.length_take_of_le inside]

/-- At every place of a text is the part with as many characters. -/
theorem Text.OccursAt.callMethod_slice (occurs : OccursAt needle.toList text.toList i)
    (small : text.length < 2 ^ 53) (fuel : Nat) (machine : Machine) :
    Machine.callMethod (fuel + 1) (.string text) "9te3" [.ofNat i, .ofNat (i + needle.length)]
      machine = .ok (.string needle) machine := by
  have inside := occurs.add_length_le
  rw [String.length_toList, String.length_toList] at inside
  have first : (Value.ofNat i).integerPart? = some i := integerPart?_ofNat (by omega)
  have last : (Value.ofNat (i + needle.length)).integerPart? = some (i + needle.length : Nat) :=
    integerPart?_ofNat (by omega)
  have part : Builtins.slice text.toList (.ofNat i) (.ofNat (i + needle.length)) = needle.toList := by
    rw [slice_eq first last (Nat.le_add_right ..) (by rwa [String.length_toList])]
    exact occurs.take_drop
  have whole : stringOf needle.toList = .string needle := congrArg Value.string String.ofList_toList
  rw [← whole, ← part]
  exact Machine.callMethod_slice_string fuel [.ofNat i, .ofNat (i + needle.length)] machine text

/-! ### Arrays -/

theorem Builtins.locates_findIdx? {α : Type} (p : α → Bool) (items : List α) :
    Locates (fun i => ∃ item, items[i]? = some item ∧ p item = true)
      (positionValue (items.findIdx? p)) := by
  cases found : items.findIdx? p with
  | none =>
    have nowhere := List.findIdx?_eq_none_iff.mp found
    refine .nowhere fun i ⟨item, there, holds⟩ => ?_
    rw [nowhere item (List.mem_of_getElem? there)] at holds
    cases holds
  | some i =>
    obtain ⟨inside, holds, before⟩ := List.findIdx?_eq_some_iff_getElem.mp found
    refine .first ⟨⟨items[i], List.getElem?_eq_getElem inside, holds⟩, ?_⟩
    rintro j less ⟨item, there, holds'⟩
    rw [List.getElem?_eq_getElem (Nat.lt_trans less inside), Option.some_inj] at there
    exact before j less (there ▸ holds')

/-- Asking for an element is the same as searching its position, but for NaN. -/
theorem Builtins.any_sameValueZero_iff (items : List Value) (wanted : Value) :
    items.any (·.sameValueZero wanted) = true ↔
      (∃ i : Nat, ∃ item, items[i]? = some item ∧ item.strictEqual wanted = true) ∨
        wanted.IsNaN ∧ ∃ item ∈ items, item.IsNaN := by
  rw [List.any_eq_true]
  simp only [Value.sameValueZero_iff_strictEqual]
  constructor
  · rintro ⟨item, mem, ⟨nan, nan'⟩ | equal⟩
    · exact .inr ⟨nan', item, mem, nan⟩
    · obtain ⟨i, there⟩ := List.mem_iff_getElem?.mp mem
      exact .inl ⟨i, item, there, equal⟩
  · rintro (⟨i, item, there, equal⟩ | ⟨nan, item, mem, nan'⟩)
    · exact ⟨item, List.mem_of_getElem? there, .inr equal⟩
    · exact ⟨item, mem, .inl ⟨nan', nan⟩⟩

/-- **Searching agrees with indexing.** In a string the position that is found is the first one at which
the text of the argument stands, counted in characters, or minus one; slicing there gives this text, and
in front of the first byte at which its encoding is found are as many characters. It is contained exactly
if it has a position. In an array the position is the first one with an element that is strictly equal to
the argument, or minus one, and the argument is contained exactly if it has a position or if it and some
element are NaN. -/
theorem search_sequences (fuel : Nat) (args : List Value) (machine : Machine) :
    (∀ text : String,
      let needle := machine.store.text (argument args 0)
      let inBytes := OccursAt needle.toUTF8.data.toList text.toUTF8.data.toList
      ∃ position contained,
        Machine.callMethod (fuel + 1) (.string text) "fin" args machine = .ok position machine ∧
        Machine.callMethod (fuel + 1) (.string text) "fih" args machine =
          .ok (.boolean contained) machine ∧
        Locates (OccursAt needle.toList text.toList) position ∧
        (contained = true ↔ position.strictEqual (.number (-1)) = false) ∧
        (contained = true ↔ ∃ offset, inBytes offset) ∧
        (∀ offset, IsFirst inBytes offset → ∃ front back : String, front ++ back = text ∧
          front.utf8ByteSize = offset ∧ position = .ofNat front.length) ∧
        (text.length < 2 ^ 53 → ∀ i, OccursAt needle.toList text.toList i →
          Machine.callMethod (fuel + 1) (.string text) "9te3" [.ofNat i, .ofNat (i + needle.length)]
            machine = .ok (.string needle) machine)) ∧
    ∀ id : ArrayId,
      let items := (machine.store.elements id).toList
      let wanted := argument args 0
      ∃ position contained,
        Machine.callMethod (fuel + 1) (.array id) "fin" args machine = .ok position machine ∧
        Machine.callMethod (fuel + 1) (.array id) "fih" args machine =
          .ok (.boolean contained) machine ∧
        Locates (fun i => ∃ item, items[i]? = some item ∧ item.strictEqual wanted = true) position ∧
        (contained = true ↔ position.strictEqual (.number (-1)) = false ∨
          wanted.IsNaN ∧ ∃ item ∈ items, item.IsNaN) ∧
        ∀ i < 2 ^ 53, ∀ key : Value, key.Denotes i →
          Run.member (.array id) key machine = .ok (items[i]?.getD .undefined) machine := by
  refine ⟨fun text => ?string, fun id => ?array⟩
  case string =>
    intro needle inBytes
    have locates := locates_text needle.toList text.toList
    have contained := isSome_indexOf?_iff needle.toList text.toList
    refine ⟨_, _, Machine.callMethod_string fuel args machine text .indexOf,
      Machine.callMethod_string fuel args machine text .contains, locates,
      contained.trans locates.strictEqual_iff.symm, ?_,
      fun _ => exists_front_of_isFirst_bytes locates,
      fun small i occurs => occurs.callMethod_slice small fuel machine⟩
    refine contained.trans (exists_occursAt_bytes_iff.symm.trans ?_)
    rw [bytes_toList, bytes_toList]
    rfl
  case array =>
    intro items wanted
    have locates := locates_findIdx? (·.strictEqual wanted) items
    refine ⟨_, _, Machine.callMethod_array fuel args machine id .indexOf,
      Machine.callMethod_array fuel args machine id .contains, locates, ?_, ?_⟩
    · rw [locates.strictEqual_iff]
      exact any_sameValueZero_iff items wanted
    · intro i small key denotes
      change Run.ofExcept (machine.store.member (.array id) key) machine = _
      rw [Store.member_of_denotes small denotes, ← Array.getElem?_toList]
      rfl

/-- A character of two bytes is contained and is found behind two others, and NaN is contained without
having a position. -/
theorem search_sequences_bytes :
    let machine := Machine.initial (.silent (fun _ => 0) fun _ => 0)
    let nan := Value.number (0 / 0)
    let held := { machine with store := machine.store.addArray #[nan] }
    (Machine.callMethod 1 (.string "ktâbâ") "fih" [.string "â"] machine = .ok (.boolean true) machine ∧
      Machine.callMethod 1 (.string "ktâbâ") "9te3" [.ofNat 2, .ofNat 3] machine =
        .ok (.string "â") machine) ∧
    Machine.callMethod 1 (.array machine.store.arrays.size) "fih" [nan] held =
        .ok (.boolean true) held ∧
      Machine.callMethod 1 (.array machine.store.arrays.size) "fin" [nan] held =
        .ok (.number (-1)) held := by
  intro machine nan held
  have isNaN : nan.IsNaN := ⟨0 / 0, rfl, rfl⟩
  constructor
  · obtain ⟨position, contained, -, called, -, -, inBytes, -, part⟩ :=
      (search_sequences 0 [.string "â"] machine).1 "ktâbâ"
    have text : machine.store.text (argument [.string "â"] 0) = "â" := Store.text_string ..
    rw [text] at inBytes part
    have occurs : OccursAt "â".toList "ktâbâ".toList 2 := ⟨['k', 't'], ['b', 'â'], by decide⟩
    have found : contained = true := inBytes.mpr ⟨2, [107, 116], [98, 195, 162], by decide⟩
    exact ⟨found ▸ called, part (by decide) 2 occurs⟩
  · obtain ⟨position, contained, called, called', locates, nans, -⟩ :=
      (search_sequences 0 [nan] held).2 machine.store.arrays.size
    have items : (held.store.elements machine.store.arrays.size).toList = [nan] :=
      congrArg Array.toList (Store.elements_addArray_self ..)
    rw [items] at locates nans
    have found : contained = true := nans.mpr (.inr ⟨isNaN, nan, List.mem_singleton_self nan, isNaN⟩)
    refine ⟨found ▸ called', ?_⟩
    cases locates with
    | nowhere none => exact called
    | first first =>
      obtain ⟨item, there, equal⟩ := first.1
      rw [List.mem_singleton.mp (List.mem_of_getElem? there)] at equal
      exact absurd isNaN (Value.strictEqual_self_iff.mp equal)

end DarijaScript
