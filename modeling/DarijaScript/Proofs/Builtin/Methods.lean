import DarijaScript.Evaluation.Interpreter
import DarijaScript.Proofs.Store.Objects

/-!
# Calling methods by their names

The name of a method is no index and not the name of the length, so reading it from a string or an
array gives the method with this receiver, and calling it does what the method does.
-/

namespace DarijaScript

/-- Reads a member of a value by its name and calls it, with the value as the receiver. -/
def Machine.callMethod (fuel : Nat) (owner : Value) (name : String) (args : List Value) :
    Run Value := do
  let method ← Run.member owner (.string name)
  call fuel method owner args

namespace Store

theorem member_stringMethod (store : Store) (text : String) (method : StringMethod) :
    store.member (.string text) (.string method.name) = .ok (.stringMethod method text) := by
  have index : (Value.string method.name).index? = none := by cases method <;> decide
  have other : method.name ≠ lengthName := by cases method <;> decide
  unfold member element?
  simp [index, Value.isNumber, other, StringMethod.ofName?_name]

theorem member_arrayMethod (store : Store) (id : ArrayId) (method : ArrayMethod) :
    store.member (.array id) (.string method.name) = .ok (.arrayMethod method id) := by
  have index : (Value.string method.name).index? = none := by cases method <;> decide
  have other : method.name ≠ lengthName := by cases method <;> decide
  unfold member element?
  simp [index, Value.isNumber, other, ArrayMethod.ofName?_name]

end Store

namespace Machine

variable (fuel : Nat) (args : List Value) (machine : Machine)

theorem callMethod_string (text : String) (method : StringMethod) :
    callMethod (fuel + 1) (.string text) method.name args machine =
      Builtins.runStringMethod method (.string text) args machine := by
  change (Run.ofExcept (machine.store.member (.string text) (.string method.name)) >>= _) machine = _
  rw [Store.member_stringMethod]
  rfl

theorem callMethod_array (id : ArrayId) (method : ArrayMethod) :
    callMethod (fuel + 1) (.array id) method.name args machine =
      Builtins.runArrayMethod (interpreter fuel).call method (.array id) args machine := by
  change (Run.ofExcept (machine.store.member (.array id) (.string method.name)) >>= _) machine = _
  rw [Store.member_arrayMethod]
  rfl

end Machine

end DarijaScript
