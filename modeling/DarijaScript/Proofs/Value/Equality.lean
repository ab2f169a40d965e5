import DarijaScript.Proofs.Decimal.Equality
import DarijaScript.Proofs.Value.Written
import DarijaScript.Value.Operation

/-!
# The equalities

Loose equality is told as a relation that converts one operand at a time, a truth value into a
number or a container into its text, until what is left can be compared. Every pair of values has
one result under it, whichever operand comes first, and the computed equality is this result.
Strict equality compares what is known of a value alone, and NaN is all that it does not know.
-/

namespace DarijaScript

namespace Value

/-! ### Strict equality -/

/-- What strict equality knows of a value. -/
inductive Identity where
  | number (value : Float.Model.UnpackedFloat)
  | string (text : String)
  | boolean (value : Bool)
  | null
  | undefined
  | object (id : ObjectId)
  | array (id : ArrayId)
  | function (origin : Origin) (scope : ScopeId)
  | builtin (function : Builtin)
  | arrayMethod (method : ArrayMethod) (receiver : ArrayId)
  | stringMethod (method : StringMethod) (receiver : String)

/-- What strict equality knows of the value; of NaN it knows nothing. -/
def identity? : Value → Option Identity
  | number x => (Decimal.number? x).map .number
  | string text => some (.string text)
  | boolean b => some (.boolean b)
  | null => some .null
  | undefined => some .undefined
  | object id => some (.object id)
  | array id => some (.array id)
  | function f scope => some (.function f.origin scope)
  | builtin b => some (.builtin b)
  | arrayMethod method receiver => some (.arrayMethod method receiver)
  | stringMethod method receiver => some (.stringMethod method receiver)

/-- The value is NaN. -/
def IsNaN (value : Value) : Prop := ∃ x : Float, value = .number x ∧ x.isNaN = true

variable {a b c : Value}

theorem identity?_eq_none_iff : a.identity? = none ↔ a.IsNaN := by
  unfold IsNaN
  cases a with
  | number x => rw [identity?, Option.map_eq_none_iff, Decimal.number?_eq_none_iff]; simp
  | _ => simp [identity?]

/-- Values are strictly equal exactly if the same is known of both, and not nothing. -/
theorem strictEqual_iff :
    a.strictEqual b = true ↔ a.identity? ≠ none ∧ a.identity? = b.identity? := by
  have numbers (x y : Float) : (number x).strictEqual (number y) = true ↔
      (number x).identity? ≠ none ∧ (number x).identity? = (number y).identity? := by
    have injective : Function.Injective (Option.map Identity.number) :=
      Option.map_injective fun _ _ => Identity.number.inj
    change (x == y) = true ↔ _
    rw [Decimal.beq_iff, identity?, identity?, injective.eq_iff, ne_eq, ne_eq, Option.map_eq_none_iff]
  cases a <;> cases b <;> first
    | exact numbers _ _
    | simp [strictEqual, identity?]

theorem sameValueZero_iff_strictEqual :
    a.sameValueZero b = true ↔ a.IsNaN ∧ b.IsNaN ∨ a.strictEqual b = true := by
  unfold IsNaN
  cases a with
  | number x => cases b <;> simp [sameValueZero, strictEqual]
  | _ => simp [sameValueZero]

/-- They are the same value exactly if the same is known of both, be it nothing. -/
theorem sameValueZero_iff : a.sameValueZero b = true ↔ a.identity? = b.identity? := by
  rw [sameValueZero_iff_strictEqual, strictEqual_iff, ← identity?_eq_none_iff,
    ← identity?_eq_none_iff]
  constructor
  · rintro (⟨left, right⟩ | ⟨-, same⟩)
    · rw [left, right]
    · exact same
  · intro same
    by_cases nothing : a.identity? = none
    · exact .inl ⟨nothing, same ▸ nothing⟩
    · exact .inr ⟨nothing, same⟩

/-- Only NaN is not equal to itself. -/
theorem strictEqual_self_iff : a.strictEqual a = true ↔ ¬a.IsNaN := by
  rw [strictEqual_iff, ne_eq, identity?_eq_none_iff]
  exact and_iff_left rfl

theorem strictEqual_trans (first : a.strictEqual b = true) (second : b.strictEqual c = true) :
    a.strictEqual c = true := by
  rw [strictEqual_iff] at *
  exact ⟨first.1, first.2.trans second.2⟩

/-- The same values that are not strictly equal are two NaNs. -/
theorem strictEqual_ne_sameValueZero_iff :
    a.strictEqual b ≠ a.sameValueZero b ↔ a.IsNaN ∧ b.IsNaN := by
  constructor
  · intro apart
    by_contra others
    exact apart (Bool.eq_iff_iff.mpr (sameValueZero_iff_strictEqual.trans (or_iff_right others)).symm)
  · intro both same
    have same' := same.trans (sameValueZero_iff_strictEqual.mpr (.inl both))
    rw [strictEqual_iff, ne_eq, identity?_eq_none_iff] at same'
    exact same'.1 both.1

theorem strictEqual_comm (a b : Value) : a.strictEqual b = b.strictEqual a := by
  have symm {a b : Value} (h : a.strictEqual b = true) : b.strictEqual a = true := by
    rw [strictEqual_iff] at h ⊢
    exact ⟨h.2 ▸ h.1, h.2.symm⟩
  exact Bool.eq_iff_iff.mpr ⟨symm, symm⟩

/-! ### Loose equality -/

/-- The value is a truth value. -/
def isBoolean : Value → Bool
  | boolean _ => true
  | _ => false

/-- The value is an object or an array. -/
def isContainer (value : Value) : Bool := value.container?.isSome

/-- Two values are compared as they are: there is something in both, neither is a truth value, a
number meets no string and a container neither of them. -/
structure Unconverted (a b : Value) : Prop where
  nothing : a.isNothing = false ∧ b.isNothing = false
  boolean : a.isBoolean = false ∧ b.isBoolean = false
  primitive : a.isPrimitive = true → b.isPrimitive = true → a.typeName = b.typeName
  left : a.isContainer = true → b.isPrimitive = false
  right : b.isContainer = true → a.isPrimitive = false

theorem primitiveEqual_comm (a b : Value) : a.primitiveEqual b = b.primitiveEqual a := by
  cases a <;> cases b <;> simp only [primitiveEqual, Decimal.beq_comm, strictEqual_comm]

theorem primitiveEqual_of_alike
    (alike : a.isPrimitive = true → b.isPrimitive = true → a.typeName = b.typeName) :
    a.primitiveEqual b = a.strictEqual b := by
  cases a with
  | number x =>
    cases b with
    | string text => exact absurd (alike rfl rfl) (by simp [typeName])
    | _ => rfl
  | string text =>
    cases b with
    | number x => exact absurd (alike rfl rfl) (by simp [typeName])
    | _ => rfl
  | _ => rfl

theorem withoutBoolean_eq_self (h : a.isBoolean = false) : a.withoutBoolean = a := by
  cases a with
  | boolean b => cases h
  | _ => rfl

end Value

namespace Store

open Value

/-- The result of comparing two values, told by the conversions on the way: null and undefined meet
only each other, then truth values become numbers, the left one first, then a container that meets a
number or a string becomes its text, and a number and a string are compared as numbers. -/
inductive Compared (store : Store) : Value → Value → Bool → Prop
  | nothing {a b : Value} (left : a.isNothing = true) (right : b.isNothing = true) :
    Compared store a b true
  | nothingLeft {a b : Value} (left : a.isNothing = true) (right : b.isNothing = false) :
    Compared store a b false
  | nothingRight {a b : Value} (left : a.isNothing = false) (right : b.isNothing = true) :
    Compared store a b false
  | numberString {x : Float} {text : String} :
    Compared store (.number x) (.string text) (x == (string text).toNumber)
  | stringNumber {text : String} {x : Float} :
    Compared store (.string text) (.number x) ((string text).toNumber == x)
  | booleanLeft {b : Bool} {other : Value} {result : Bool} (right : other.isNothing = false)
      (next : Compared store (.number (boolean b).toNumber) other result) :
    Compared store (.boolean b) other result
  | booleanRight {b : Bool} {value : Value} {result : Bool} (left : value.isNothing = false)
      (first : value.isBoolean = false)
      (next : Compared store value (.number (boolean b).toNumber) result) :
    Compared store value (.boolean b) result
  | textLeft {value other : Value} {result : Bool} (left : value.isContainer = true)
      (right : other.isPrimitive = true)
      (next : Compared store (.string (store.text value)) other result) :
    Compared store value other result
  | textRight {value other : Value} {result : Bool} (left : value.isPrimitive = true)
      (right : other.isContainer = true)
      (next : Compared store value (.string (store.text other)) result) :
    Compared store value other result
  | unconverted {a b : Value} (plain : a.Unconverted b) : Compared store a b (a.strictEqual b)

variable {store : Store} {a b : Value} {result : Bool}

theorem looseEqual_comm (store : Store) (a b : Value) :
    store.looseEqual a b = store.looseEqual b a := by
  unfold looseEqual
  rw [Bool.or_comm, Bool.and_comm, primitiveEqual_comm]

theorem looseEqual_of_isNothing (h : a.isNothing = true) :
    store.looseEqual a b = b.isNothing := by
  unfold looseEqual
  simp [h]

theorem looseEqual_boolean (b : Bool) (right : a.isNothing = false) :
    store.looseEqual (.boolean b) a = store.looseEqual (.number (boolean b).toNumber) a := by
  unfold looseEqual
  rw [right]
  rfl

/-- A container is compared with a number or a string by its text. -/
theorem looseEqual_container (left : a.isContainer = true) (right : b.isPrimitive = true) :
    store.looseEqual a b = store.looseEqual (.string (store.text a)) b := by
  cases a with
  | object id | array id => cases b <;> first | rfl | cases right
  | _ => cases left

theorem comparable_eq_self (h : a.isContainer = true → b.isPrimitive = false) :
    store.comparable a b = a := by
  cases a with
  | object id | array id => exact if_neg (Bool.eq_false_iff.mp (h rfl))
  | _ => rfl

theorem looseEqual_unconverted (plain : a.Unconverted b) :
    store.looseEqual a b = a.strictEqual b := by
  unfold looseEqual
  rw [plain.nothing.1, plain.nothing.2, if_neg (by decide), withoutBoolean_eq_self plain.boolean.1,
    withoutBoolean_eq_self plain.boolean.2]
  dsimp only
  rw [comparable_eq_self plain.left, comparable_eq_self plain.right,
    primitiveEqual_of_alike plain.primitive]

/-- The computed equality is the result of the conversions. -/
theorem looseEqual_of_compared (h : store.Compared a b result) :
    store.looseEqual a b = result := by
  induction h with
  | nothing left right => rw [looseEqual_of_isNothing left, right]
  | nothingLeft left right => rw [looseEqual_of_isNothing left, right]
  | nothingRight left right => rw [looseEqual_comm, looseEqual_of_isNothing right, left]
  | numberString => rfl
  | stringNumber => rfl
  | booleanLeft right _ ih => rw [looseEqual_boolean _ right, ih]
  | booleanRight left _ _ ih => rw [looseEqual_comm, looseEqual_boolean _ left, looseEqual_comm, ih]
  | textLeft left right _ ih => rw [looseEqual_container left right, ih]
  | textRight left right _ ih => rw [looseEqual_comm, looseEqual_container right left, looseEqual_comm, ih]
  | unconverted plain => exact looseEqual_unconverted plain

theorem exists_compared_primitive (store : Store) (left : a.isPrimitive = true) (right : b.isPrimitive = true) :
    ∃ result, store.Compared a b result := by
  cases a with
  | number x =>
    cases b with
    | number y => exact ⟨_, .unconverted ⟨⟨rfl, rfl⟩, ⟨rfl, rfl⟩, fun _ _ => rfl, nofun, nofun⟩⟩
    | string text => exact ⟨_, .numberString⟩
    | _ => cases right
  | string text =>
    cases b with
    | number x => exact ⟨_, .stringNumber⟩
    | string other => exact ⟨_, .unconverted ⟨⟨rfl, rfl⟩, ⟨rfl, rfl⟩, fun _ _ => rfl, nofun, nofun⟩⟩
    | _ => cases right
  | _ => cases left

theorem exists_compared_something (store : Store) (left : a.isNothing = false ∧ a.isBoolean = false)
    (right : b.isNothing = false ∧ b.isBoolean = false) : ∃ result, store.Compared a b result := by
  by_cases primitives : a.isPrimitive = true ∧ b.isPrimitive = true
  · exact exists_compared_primitive store primitives.1 primitives.2
  by_cases first : a.isContainer = true ∧ b.isPrimitive = true
  · obtain ⟨result, next⟩ := exists_compared_primitive store
      (rfl : (string (store.text a)).isPrimitive = true) first.2
    exact ⟨result, .textLeft first.1 first.2 next⟩
  by_cases second : a.isPrimitive = true ∧ b.isContainer = true
  · obtain ⟨result, next⟩ := exists_compared_primitive store second.1
      (rfl : (string (store.text b)).isPrimitive = true)
    exact ⟨result, .textRight second.1 second.2 next⟩
  refine ⟨_, .unconverted ⟨⟨left.1, right.1⟩, ⟨left.2, right.2⟩, ?_, ?_, ?_⟩⟩
  · exact fun primitive primitive' => absurd ⟨primitive, primitive'⟩ primitives
  · exact fun container => Bool.eq_false_iff.mpr fun primitive => first ⟨container, primitive⟩
  · exact fun container => Bool.eq_false_iff.mpr fun primitive => second ⟨primitive, container⟩

/-- The conversions come to an end. -/
theorem exists_compared (store : Store) (a b : Value) : ∃ result, store.Compared a b result := by
  cases left : a.isNothing with
  | true =>
    cases right : b.isNothing with
    | true => exact ⟨_, .nothing left right⟩
    | false => exact ⟨_, .nothingLeft left right⟩
  | false =>
    cases right : b.isNothing with
    | true => exact ⟨_, .nothingRight left right⟩
    | false =>
      have onRight {a : Value} (left : a.isNothing = false) (first : a.isBoolean = false) :
          ∃ result, store.Compared a b result := by
        cases b with
        | boolean b =>
          have number : (number (boolean b).toNumber).isNothing = false ∧
              (number (boolean b).toNumber).isBoolean = false := ⟨rfl, rfl⟩
          obtain ⟨result, next⟩ := exists_compared_something store ⟨left, first⟩ number
          exact ⟨result, .booleanRight left first next⟩
        | _ => exact exists_compared_something store ⟨left, first⟩ ⟨right, rfl⟩
      cases a with
      | boolean a =>
        obtain ⟨result, next⟩ := onRight (a := number (boolean a).toNumber) rfl rfl
        exact ⟨result, .booleanLeft right next⟩
      | _ => exact onRight left rfl

/-- The conversions come to an end with one result, the computed one. -/
theorem compared_iff : store.Compared a b result ↔ store.looseEqual a b = result := by
  refine ⟨looseEqual_of_compared, ?_⟩
  rintro rfl
  obtain ⟨result, h⟩ := exists_compared store a b
  rw [looseEqual_of_compared h]
  exact h

theorem looseEqual_of_strictEqual (h : a.strictEqual b = true) : store.looseEqual a b = true := by
  cases a with
  | null | undefined => cases b <;> first | rfl | cases h
  | boolean x =>
    cases b with
    | boolean y =>
      obtain rfl := eq_of_beq h
      cases x <;> rfl
    | _ => cases h
  | _ => cases b <;> first | exact h | cases h

/-! ### How the equalities go together -/

theorem apply_looseEqual_iff :
    store.apply .looseEqual a b = .boolean result ↔ store.looseEqual a b = result := by
  rw [apply, Value.boolean.injEq]

theorem apply_strictEqual_iff :
    store.apply .strictEqual a b = .boolean result ↔ a.strictEqual b = result := by
  rw [apply, Value.boolean.injEq]

theorem looseEqual_nothing_iff (h : a = .null ∨ a = .undefined) :
    store.looseEqual a b = true ↔ b = .null ∨ b = .undefined := by
  have nothing {a : Value} : a.isNothing = true ↔ a = .null ∨ a = .undefined := by
    cases a <;> simp [isNothing]
  rw [looseEqual_of_isNothing (nothing.mpr h), nothing]

/-- Of all operands, the conversions of a loose comparison come to an end with one result, which the
operator gives and which does not depend on the order of the operands. Strict equality is symmetric
and transitive, and only NaN is not equal to itself. What is strictly equal is loosely equal and the
same value, and the same values that are not strictly equal are two NaNs. Null and undefined are
loosely equal to each other and to themselves alone, and the other two operators deny these. -/
theorem equalities_coherent (store : Store) (a b c : Value) :
    (∃! result, store.Compared a b result) ∧
    (∀ result, store.apply .looseEqual a b = .boolean result ↔ store.Compared a b result) ∧
    store.apply .looseEqual a b = store.apply .looseEqual b a ∧
    store.apply .strictEqual a b = store.apply .strictEqual b a ∧
    (store.apply .strictEqual a b = .boolean true → store.apply .strictEqual b c = .boolean true →
      store.apply .strictEqual a c = .boolean true) ∧
    (store.apply .strictEqual a a = .boolean true ↔ ¬a.IsNaN) ∧
    (store.apply .strictEqual a b = .boolean true →
      store.apply .looseEqual a b = .boolean true ∧ a.sameValueZero b = true) ∧
    (store.apply .strictEqual a b ≠ .boolean (a.sameValueZero b) ↔ a.IsNaN ∧ b.IsNaN) ∧
    (a = .null ∨ a = .undefined →
      (store.apply .looseEqual a b = .boolean true ↔ b = .null ∨ b = .undefined)) ∧
    (∀ result, store.apply .looseNotEqual a b = .boolean result ↔
      store.apply .looseEqual a b = .boolean !result) ∧
    ∀ result, store.apply .strictNotEqual a b = .boolean result ↔
      store.apply .strictEqual a b = .boolean !result := by
  simp only [ne_eq, apply_looseEqual_iff, apply_strictEqual_iff]
  refine ⟨?unique, fun _ => compared_iff.symm, ?loose, ?strict, strictEqual_trans,
    strictEqual_self_iff, ?implied, strictEqual_ne_sameValueZero_iff, looseEqual_nothing_iff,
    ?notLoose, ?notStrict⟩
  case unique =>
    exact ⟨_, compared_iff.mpr rfl, fun _ other => (looseEqual_of_compared other).symm⟩
  case loose => rw [apply, apply, looseEqual_comm]
  case strict => rw [apply, apply, strictEqual_comm]
  case implied =>
    exact fun equal =>
      ⟨looseEqual_of_strictEqual equal, sameValueZero_iff.mpr (strictEqual_iff.mp equal).2⟩
  case notLoose =>
    intro result
    rw [apply, Value.boolean.injEq, Bool.not_eq_eq_eq_not]
  case notStrict =>
    intro result
    rw [apply, Value.boolean.injEq, Bool.not_eq_eq_eq_not]

end Store

end DarijaScript
