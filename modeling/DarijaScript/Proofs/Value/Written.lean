import DarijaScript.Proofs.Decimal.Text
import DarijaScript.Value.Text

/-!
# How values are written

What is written for a value is told as a relation that knows the containers being written around it
and no bound on their number. A container that is one of them is marked; every other one is written
out, with itself around what it holds. The relation gives one text for each value, and the text that
is computed with a bound is this one, since the containers around a value are different ones of the
store and cannot be more than there are.
-/

namespace DarijaScript

namespace Value

/-- The container that a value is. -/
def container? : Value → Option Container
  | .array id => some (.array id)
  | .object id => some (.object id)
  | _ => none

/-- The text of a value that is no container: no store has a part in it. -/
def plainText (value : Value) (quoted : Bool) : String :=
  Store.empty.textWithin 0 [] quoted value

end Value

namespace Store

/-- What a container holds, from first to last. -/
def content (store : Store) : Container → List Value
  | .array id => (store.elements id).toList
  | .object id => (store.fields id).values

/-- The text of a container whose contents have the given texts. -/
def enclosed (store : Store) (display : Value → String) : Container → String
  | .array id => "[" ++ ", ".intercalate ((store.elements id).toList.map display) ++ "]"
  | .object id =>
    "\x7b" ++ ", ".intercalate ((store.fields id).map fun entry =>
      entry.1 ++ ": " ++ display entry.2) ++ "\x7d"

/-- All containers of a store. -/
def containers (store : Store) : List Container :=
  (List.range store.objects.size).map .object ++ (List.range store.arrays.size).map .array

/-- The text is what is written for the value while the containers `around` are being written: the
mark for one of them, and otherwise a container with all it holds, itself now being written too. -/
inductive Written (store : Store) :
    (around : List Container) → (quoted : Bool) → Value → String → Prop
  | plain {around : List Container} {quoted : Bool} {value : Value}
      (flat : value.container? = none) : Written store around quoted value (value.plainText quoted)
  | marked {around : List Container} {quoted : Bool} {value : Value} {container : Container}
      (is : value.container? = some container) (inside : container ∈ around) :
    Written store around quoted value circularMark
  | whole {around : List Container} {quoted : Bool} {value : Value} {container : Container}
      {display : Value → String} (is : value.container? = some container)
      (outside : container ∉ around)
      (contents : ∀ inner ∈ store.content container,
        Written store (container :: around) true inner (display inner)) :
    Written store around quoted value (store.enclosed display container)

variable {store : Store} {value : Value} {container : Container} {around : List Container}
  {quoted : Bool} {text : String} {depth : Nat}

theorem enclosed_congr {display display' : Value → String}
    (same : ∀ inner ∈ store.content container, display inner = display' inner) :
    store.enclosed display container = store.enclosed display' container := by
  cases container with
  | array id =>
    have same' : ∀ element ∈ (store.elements id).toList, display element = display' element := same
    rw [enclosed, enclosed, List.map_congr_left same']
  | object id =>
    have same' : ∀ entry ∈ store.fields id,
        entry.1 ++ ": " ++ display entry.2 = entry.1 ++ ": " ++ display' entry.2 :=
      fun entry mem => by rw [same entry.2 (List.mem_map_of_mem mem)]
    rw [enclosed, enclosed, List.map_congr_left same']

/-! ### One text for each value -/

/-- There is at most one text for a value. -/
theorem Written.unique (written : store.Written around quoted value text) :
    ∀ {other}, store.Written around quoted value other → other = text := by
  induction written with
  | plain flat =>
    rintro _ (_ | ⟨is, _⟩ | ⟨is, _, _⟩)
    · rfl
    · simp [flat] at is
    · simp [flat] at is
  | marked is inside =>
    rintro _ (flat | _ | ⟨is', outside, _⟩)
    · simp [flat] at is
    · rfl
    · cases is.symm.trans is'
      exact absurd inside outside
  | whole is outside _ ih =>
    rintro _ (flat | ⟨is', inside⟩ | ⟨is', _, contents⟩)
    · simp [flat] at is
    · cases is.symm.trans is'
      exact absurd inside outside
    · cases is.symm.trans is'
      exact enclosed_congr fun inner mem => ih inner mem (contents inner mem)

theorem textWithin_plain (flat : value.container? = none) :
    store.textWithin depth around quoted value = value.plainText quoted := by
  unfold Value.plainText
  cases value <;> cases flat <;> cases depth <;> rfl

theorem textWithin_marked (is : value.container? = some container) (inside : container ∈ around) :
    store.textWithin depth around quoted value = circularMark := by
  cases value <;> cases is <;> cases depth <;> simp only [textWithin, if_pos inside]

theorem textWithin_whole (is : value.container? = some container) (outside : container ∉ around) :
    store.textWithin (depth + 1) around quoted value =
      store.enclosed (store.textWithin depth (container :: around) true) container := by
  cases value <;> cases is <;> simp only [textWithin, if_neg outside, enclosed]

theorem length_containers : store.containers.length + 1 = store.containerBound := by
  simp [containers, containerBound]

/-- Only a container of the store holds something. -/
theorem mem_containers_of_content {inner : Value} (mem : inner ∈ store.content container) :
    container ∈ store.containers := by
  cases container with
  | array id =>
    have inside : id < store.arrays.size := by
      by_contra outside
      simp [content, elements, outside] at mem
    simpa [containers] using inside
  | object id =>
    have inside : id < store.objects.size := by
      by_contra outside
      simp [content, fields, Fields.values, outside] at mem
    simpa [containers] using inside

/-- The containers around a value are different ones of the store, so with the ones that may still be
entered they are enough to write everything. -/
theorem written_textWithin : ∀ {depth around quoted value}, around.Nodup →
    around ⊆ store.containers → store.containerBound ≤ depth + around.length →
    store.Written around quoted value (store.textWithin depth around quoted value) := by
  intro depth
  induction depth with
  | zero =>
    intro around quoted value distinct known enough
    have few : around.length ≤ store.containers.length :=
      (List.subperm_of_subset distinct known).length_le
    rw [← length_containers] at enough
    omega
  | succ depth ih =>
    intro around quoted value distinct known enough
    cases is : value.container? with
    | none =>
      rw [textWithin_plain is]
      exact .plain is
    | some container =>
      by_cases inside : container ∈ around
      · rw [textWithin_marked is inside]
        exact .marked is inside
      · rw [textWithin_whole is inside]
        refine .whole is inside fun inner mem => ih ?_ ?_ ?_
        · exact List.nodup_cons.mpr ⟨inside, distinct⟩
        · exact List.cons_subset.mpr ⟨mem_containers_of_content mem, known⟩
        · rw [List.length_cons]
          omega

/-- What is written for a value on its own is the computed text, whatever bound is chosen from the
number of containers on. -/
theorem written_iff (enough : store.containerBound ≤ depth) :
    store.Written [] quoted value text ↔ text = store.textWithin depth [] quoted value := by
  have written : store.Written [] quoted value (store.textWithin depth [] quoted value) :=
    written_textWithin List.nodup_nil (List.nil_subset _) enough
  constructor
  · exact fun other => written.unique other
  · rintro rfl
    exact written

/-! ### The mark -/

/-- The text begins with another character than the mark does behind its bracket. -/
def BeginsOtherwise (text : String) : Prop := ∃ c rest, text.toList = c :: rest ∧ c ≠ 'c'

namespace BeginsOtherwise

theorem append {text : String} (h : BeginsOtherwise text) (other : String) :
    BeginsOtherwise (text ++ other) := by
  obtain ⟨c, rest, begins, differs⟩ := h
  exact ⟨c, rest ++ other.toList, by simp [begins], differs⟩

theorem of_isDigit {c : Char} {rest : List Char} (begins : text.toList = c :: rest)
    (digit : c.isDigit = true) : BeginsOtherwise text :=
  ⟨c, rest, begins, Decimal.ne_of_isDigit digit (by decide)⟩

end BeginsOtherwise

theorem beginsOtherwise_numeral (numeral : Decimal.Numeral) : BeginsOtherwise numeral.text := by
  obtain ⟨c, digits, eq⟩ : ∃ c digits, Nat.toDigits 10 numeral.coefficient = c :: digits :=
    List.exists_cons_of_ne_nil Nat.toDigits_ne_nil
  have digit : c.isDigit = true :=
    Nat.isDigit_of_mem_toDigits (by decide) (by decide) (eq ▸ List.mem_cons_self)
  unfold Decimal.Numeral.text
  rw [Nat.toList_repr, eq]
  dsimp only
  split
  · exact .of_isDigit (String.toList_ofList ..) digit
  · split
    · next inside =>
      obtain ⟨count, whole⟩ : ∃ count,
          (c :: digits).length - (-numeral.exponent).toNat = count + 1 :=
        Nat.exists_eq_succ_of_ne_zero (by omega)
      rw [whole]
      exact .of_isDigit (String.toList_ofList ..) digit
    · exact .of_isDigit (String.toList_ofList ..) rfl

theorem beginsOtherwise_decimal (x : Float) : BeginsOtherwise (Decimal.text x) := by
  unfold Decimal.text
  split
  · next value _ =>
    have magnitude : BeginsOtherwise (if value.mantissa = 0 then "0" else value.numeral.text) := by
      split
      · exact ⟨'0', [], rfl, by decide⟩
      · exact beginsOtherwise_numeral _
    dsimp only
    split
    · exact .append ⟨'-', [], rfl, by decide⟩ _
    · exact magnitude
  · split
    · exact ⟨'-', _, rfl, by decide⟩
    · exact ⟨'i', _, rfl, by decide⟩
  · exact ⟨'N', _, rfl, by decide⟩

theorem beginsOtherwise_number (x : Float) : BeginsOtherwise (textOfNumber x) := by
  unfold textOfNumber
  split
  · exact ⟨'N', _, rfl, by decide⟩
  · split
    · exact ⟨'I', _, rfl, by decide⟩
    · split
      · exact ⟨'-', _, rfl, by decide⟩
      · split
        · exact ⟨'0', _, rfl, by decide⟩
        · exact beginsOtherwise_decimal x

theorem beginsOtherwise_plain (flat : value.container? = none) :
    BeginsOtherwise (value.plainText true) := by
  cases value with
  | array id => cases flat
  | object id => cases flat
  | number x => exact beginsOtherwise_number x
  | string text => exact .append (.append ⟨'"', [], rfl, by decide⟩ _) _
  | boolean b => cases b <;> exact ⟨_, _, rfl, by decide⟩
  | null => exact ⟨'f', _, rfl, by decide⟩
  | undefined => exact ⟨'m', _, rfl, by decide⟩
  | function f _ => exact .append (.append (.append (.append ⟨'d', _, rfl, by decide⟩ _) _) _) _
  | builtin f => exact .append (.append ⟨'d', _, rfl, by decide⟩ _) _
  | arrayMethod method _ => exact .append (.append ⟨'d', _, rfl, by decide⟩ _) _
  | stringMethod method _ => exact .append (.append ⟨'d', _, rfl, by decide⟩ _) _

theorem beginsOtherwise_enclosed (display : Value → String) (container : Container) :
    BeginsOtherwise (store.enclosed display container) := by
  cases container with
  | array id => exact .append (.append ⟨'[', [], rfl, by decide⟩ _) _
  | object id => exact .append (.append ⟨'\x7b', [], rfl, by decide⟩ _) _

theorem Written.beginsOtherwise (written : store.Written around true value text) :
    BeginsOtherwise text := by
  cases written with
  | plain flat => exact beginsOtherwise_plain flat
  | marked is inside => exact ⟨'[', _, rfl, by decide⟩
  | whole is outside contents => exact beginsOtherwise_enclosed _ _

/-- What is written out in full never looks like the mark. -/
theorem enclosed_ne_circularMark {display : Value → String}
    (begin : ∀ inner ∈ store.content container, BeginsOtherwise (display inner)) :
    store.enclosed display container ≠ circularMark := by
  intro same
  rw [← String.toList_inj] at same
  cases container with
  | object id => simp [enclosed, circularMark] at same
  | array id =>
    simp only [enclosed, circularMark, String.toList_append, String.toList_intercalate] at same
    simp only [content] at begin
    cases elements : (store.elements id).toList with
    | nil => simp [elements] at same
    | cons first rest =>
      obtain ⟨c, others, begins, differs⟩ := begin first (by simp [elements])
      rw [elements] at same
      cases rest <;> simp_all [List.intercalate]

/-- **Exactly the containers being written around it are marked.** -/
theorem Written.eq_circularMark_iff (written : store.Written around quoted value text)
    (is : value.container? = some container) : text = circularMark ↔ container ∈ around := by
  cases written with
  | plain flat => simp [flat] at is
  | marked is' inside =>
    cases is.symm.trans is'
    exact iff_of_true rfl inside
  | whole is' outside contents =>
    cases is.symm.trans is'
    exact iff_of_false
      (enclosed_ne_circularMark fun inner mem => (contents inner mem).beginsOtherwise) outside

end Store

end DarijaScript
