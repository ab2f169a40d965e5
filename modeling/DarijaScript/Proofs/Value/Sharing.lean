import Mathlib.Data.List.Forall2
import Mathlib.Logic.Relation
import DarijaScript.Proofs.Value.Written

/-!
# Shared containers

A container that is held in several places but not by itself is written out in each of them. A value
under which no container holds itself is therefore written as if nothing were ever marked, and such a
text is the same for every copy of the value, however much of it the copy shares.
-/

namespace DarijaScript.Store

/-- A container is among what another one holds. -/
def Holds (store : Store) (outer inner : Container) : Prop :=
  ∃ value ∈ store.content outer, value.container? = some inner

/-- A container is the value itself or is held, directly or not, by the container that it is. -/
def Reaches (store : Store) (value : Value) (inner : Container) : Prop :=
  ∃ outer, value.container? = some outer ∧ Relation.ReflTransGen store.Holds outer inner

/-- No container under the value holds itself, directly or not. -/
def Acyclic (store : Store) (value : Value) : Prop :=
  ∀ container, store.Reaches value container → ¬ Relation.TransGen store.Holds container container

/-- The text of a value in which every container is written out, wherever it stands. -/
inductive WrittenOut (store : Store) : (quoted : Bool) → Value → String → Prop
  | plain {quoted : Bool} {value : Value} (flat : value.container? = none) :
    WrittenOut store quoted value (value.plainText quoted)
  | whole {quoted : Bool} {value : Value} {container : Container} {display : Value → String}
      (is : value.container? = some container)
      (contents : ∀ inner ∈ store.content container, WrittenOut store true inner (display inner)) :
    WrittenOut store quoted value (store.enclosed display container)

/-- The names under which an object holds its contents; an array has none. -/
def names (store : Store) : Container → Option (List String)
  | .array _ => none
  | .object id => some (store.fields id).keys

/-- Values of one store and their copies in another one: a value that is no container is its own copy,
and the copy of a container is one of the same kind that holds copies of the contents, in the same
order and under the same names. Two values may have one copy, and one value different ones. -/
structure Copying (store copy : Store) (copied : Value → Value → Prop) : Prop where
  plain : ∀ {value other}, copied value other → value.container? = none → other = value
  container : ∀ {value other container}, copied value other → value.container? = some container →
    ∃ container', other.container? = some container' ∧
      copy.names container' = store.names container ∧
      List.Forall₂ copied (store.content container) (copy.content container')

variable {store copy : Store} {copied : Value → Value → Prop} {value other : Value}
  {container : Container} {around : List Container} {quoted : Bool} {text : String}

theorem Acyclic.content {inner : Value} (acyclic : store.Acyclic value)
    (is : value.container? = some container) (mem : inner ∈ store.content container) :
    store.Acyclic inner := by
  rintro reached ⟨outer, is', chain⟩
  exact acyclic reached ⟨container, is, .head ⟨inner, mem, is'⟩ chain⟩

/-- Under a value without cycles nothing is marked: no container around it is held by it. -/
theorem Written.writtenOut (written : store.Written around quoted value text)
    (acyclic : store.Acyclic value) (held : ∀ outer ∈ around, ∀ inner,
      value.container? = some inner → Relation.TransGen store.Holds outer inner) :
    store.WrittenOut quoted value text := by
  induction written with
  | plain flat => exact .plain flat
  | marked is inside => exact absurd (held _ inside _ is) (acyclic _ ⟨_, is, .refl⟩)
  | whole is outside contents ih =>
    refine .whole is fun inner mem => ih inner mem (acyclic.content is mem) ?_
    intro outer around' reached is'
    rcases List.mem_cons.mp around' with rfl | around'
    · exact .single ⟨inner, mem, is'⟩
    · exact .tail (held outer around' _ is) ⟨inner, mem, is'⟩

theorem acyclic_of_plain (flat : value.container? = none) : store.Acyclic value := by
  rintro _ ⟨_, is, _⟩
  simp [flat] at is

/-- Going round once from a container leads through one of its contents, from which the container is
then reached. -/
theorem acyclic_of_content (is : value.container? = some container)
    (all : ∀ inner ∈ store.content container, store.Acyclic inner) : store.Acyclic value := by
  rintro reached ⟨outer, is', chain⟩ cycle
  cases is.symm.trans is'
  rcases Relation.ReflTransGen.cases_head chain with rfl | ⟨held, ⟨inner, mem, is'⟩, chain⟩
  · obtain ⟨held, ⟨inner, mem, is'⟩, back⟩ := Relation.TransGen.head'_iff.mp cycle
    exact all inner mem _ ⟨held, is', back⟩ cycle
  · exact all inner mem _ ⟨held, is', chain⟩ cycle

/-- What is written out comes to an end, so no container in it holds itself. -/
theorem WrittenOut.acyclic (out : store.WrittenOut quoted value text) : store.Acyclic value := by
  induction out with
  | plain flat => exact acyclic_of_plain flat
  | whole is _ ih => exact acyclic_of_content is ih

/-- A value that can be written out is written so: when a container comes up, it is not around itself. -/
theorem WrittenOut.written (out : store.WrittenOut quoted value text)
    (apart : ∀ outer ∈ around, ¬ store.Reaches value outer) :
    store.Written around quoted value text := by
  have acyclic := out.acyclic
  induction out generalizing around with
  | plain flat => exact .plain flat
  | @whole quoted value container display is contents ih =>
    refine .whole is (fun inside => apart _ inside ⟨_, is, .refl⟩) fun inner mem =>
      ih inner mem ?_ (acyclic.content is mem)
    rintro outer around' ⟨held, is', chain⟩
    have step : store.Holds container held := ⟨inner, mem, is'⟩
    rcases List.mem_cons.mp around' with rfl | around'
    · exact acyclic _ ⟨_, is, .refl⟩ (.head' step chain)
    · exact apart outer around' ⟨container, is, .head step chain⟩

theorem WrittenOut.eq_literal (out : store.WrittenOut true value text) :
    text = store.literal value :=
  (written_iff (Nat.le_refl _)).mp (out.written fun _ mem => absurd mem List.not_mem_nil)

/-- Which text a container has depends on its kind and its names, and on the texts of its contents. -/
theorem enclosed_eq_of_names {container' : Container} {display display' : Value → String}
    (named : copy.names container' = store.names container)
    (texts : (store.content container).map display = (copy.content container').map display') :
    store.enclosed display container = copy.enclosed display' container' := by
  have entries (fields : Fields) (display : Value → String) :
      fields.map (fun entry => entry.1 ++ ": " ++ display entry.2) =
        List.zipWith (fun name text => name ++ ": " ++ text) fields.keys
          (fields.values.map display) := by
    simp [Fields.keys, Fields.values, List.zipWith_map]
  cases container <;> cases container' <;>
    simp only [names, content, reduceCtorEq, Option.some.injEq] at named texts
  · rw [enclosed, enclosed, entries, entries, named, texts]
  · rw [enclosed, enclosed, texts]

/-- Copies of contents that are written out have the same texts. -/
theorem literals_of_written_out {inners others : List Value} {display : Value → String}
    (out : List.Forall₂ (fun inner other => copy.WrittenOut true other (display inner)) inners
      others) :
    inners.map display = others.map copy.literal ∧
      ∀ other ∈ others, copy.WrittenOut true other (copy.literal other) := by
  induction out with
  | nil => exact ⟨rfl, fun _ mem => absurd mem List.not_mem_nil⟩
  | cons first _ ih =>
    have same := first.eq_literal
    rw [same] at first
    exact ⟨by rw [List.map_cons, List.map_cons, same, ih.1], List.forall_mem_cons.mpr ⟨first, ih.2⟩⟩

/-- A copy of what is written out is written out, with the same text. -/
theorem WrittenOut.of_copied (out : store.WrittenOut quoted value text)
    (copying : Copying store copy copied) (same : copied value other) :
    copy.WrittenOut quoted other text := by
  induction out generalizing other with
  | plain flat =>
    rw [copying.plain same flat]
    exact .plain flat
  | whole is contents ih =>
    obtain ⟨container', is', named, all⟩ := copying.container same is
    have out := (List.forall₂_and_left _ _).mpr ⟨fun inner mem other => @ih inner mem other, all⟩
    obtain ⟨texts, contents'⟩ := literals_of_written_out
      (out.imp fun inner other ⟨copied, same⟩ => copied other same)
    rw [enclosed_eq_of_names named texts]
    exact .whole is' contents'

theorem Acyclic.writtenOut (acyclic : store.Acyclic value)
    (written : store.Written [] quoted value text) : store.WrittenOut quoted value text :=
  written.writtenOut acyclic fun _ mem => absurd mem List.not_mem_nil

theorem WrittenOut.written_alone (out : store.WrittenOut quoted value text) :
    store.Written [] quoted value text :=
  out.written fun _ mem => absurd mem List.not_mem_nil

/-- Displaying a value ends, and the text is the one in which exactly the containers being written
around an occurrence are marked there. Under a value without cycles everything is written out in every
place, and each of its copies, shared or not, has the same text. -/
theorem text_marks_cycles (store : Store) (value : Value) :
    (∀ text, store.Written [] false value text ↔ text = store.text value) ∧
    (∀ text, store.Written [] true value text ↔ text = store.literal value) ∧
    (∀ depth quoted, store.containerBound ≤ depth →
      store.textWithin depth [] quoted value = store.textWithin store.containerBound [] quoted value) ∧
    (∀ around quoted inner container text, inner.container? = some container →
      store.Written around quoted inner text → (text = circularMark ↔ container ∈ around)) ∧
    (store.Acyclic value →
      store.WrittenOut false value (store.text value) ∧
      store.WrittenOut true value (store.literal value) ∧
      ∀ copy copied other, Copying store copy copied → copied value other →
        copy.text other = store.text value ∧ copy.literal other = store.literal value) := by
  have alone (quoted : Bool) (text : String) : store.Written [] quoted value text ↔
      text = store.textWithin store.containerBound [] quoted value :=
    written_iff (Nat.le_refl _)
  refine ⟨alone false, alone true, ?_, ?_, ?_⟩
  · intro depth quoted enough
    exact (alone quoted _).mp ((written_iff enough).mpr rfl)
  · intro around quoted inner container text is written
    exact written.eq_circularMark_iff is
  · intro acyclic
    have out (quoted : Bool) :
        store.WrittenOut quoted value (store.textWithin store.containerBound [] quoted value) :=
      acyclic.writtenOut ((alone quoted _).mpr rfl)
    refine ⟨out false, out true, ?_⟩
    intro copy copied other copying same
    have equal (quoted : Bool) : copy.textWithin copy.containerBound [] quoted other =
        store.textWithin store.containerBound [] quoted value :=
      ((written_iff (Nat.le_refl _)).mp ((out quoted).of_copied copying same).written_alone).symm
    exact ⟨equal false, equal true⟩

/-- An array, another one that holds it twice, and a third one that holds itself. -/
def sharing : Store :=
  ⟨#[], #[], #[#[.boolean true], #[.array 0, .array 0], #[.array 2]]⟩

/-- Two arrays with the same element, and one that holds both. -/
def unshared : Store :=
  ⟨#[], #[], #[#[.boolean true], #[.boolean true], #[.array 0, .array 1]]⟩

/-- A value of `sharing` that does not hold itself, and a copy of it in `unshared`. -/
inductive Unshares : Value → Value → Prop
  | element : Unshares (.boolean true) (.boolean true)
  | first : Unshares (.array 0) (.array 0)
  | second : Unshares (.array 0) (.array 1)
  | pair : Unshares (.array 1) (.array 2)

theorem copying_unshared : Copying sharing unshared Unshares where
  plain := by
    rintro _ _ (_ | _ | _ | _) flat
    · rfl
    all_goals cases flat
  container := by
    rintro _ _ _ (_ | _ | _ | _) is <;> cases is
    · exact ⟨_, rfl, rfl, .cons .element .nil⟩
    · exact ⟨_, rfl, rfl, .cons .element .nil⟩
    · exact ⟨_, rfl, rfl, .cons .first (.cons .second .nil)⟩

theorem acyclic_sharing : sharing.Acyclic (.array 1) := by
  have single : sharing.Acyclic (.array 0) :=
    acyclic_of_content rfl (List.forall_mem_singleton.mpr (acyclic_of_plain rfl))
  exact acyclic_of_content rfl
    (List.forall_mem_cons.mpr ⟨single, List.forall_mem_singleton.mpr single⟩)

theorem text_marks_cycles_sharing :
    sharing.text (.array 1) = "[[s7i7], [s7i7]]" ∧
      unshared.text (.array 2) = "[[s7i7], [s7i7]]" ∧
      (circularMark = circularMark ↔ Container.array 2 ∈ [Container.array 2]) ∧
      sharing.text (.array 2) = "[[circular]]" := by
  obtain ⟨-, -, -, marks, same⟩ := text_marks_cycles sharing (.array 1)
  obtain ⟨-, -, copies⟩ := same acyclic_sharing
  have text : sharing.text (.array 1) = "[[s7i7], [s7i7]]" := by rfl
  refine ⟨text, (copies _ _ _ copying_unshared .pair).1.trans text, ?_, by rfl⟩
  exact marks [.array 2] true (.array 2) (.array 2) circularMark rfl (.marked rfl (by simp))

end DarijaScript.Store
