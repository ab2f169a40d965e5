import DarijaScript.Value.Basic

/-!
# The store

Everything that a running program can change: scopes, objects and arrays, each known by its place.
New ones are added at the end, and nothing is ever removed.
-/

namespace DarijaScript

/-- A name's value, and whether it may be assigned. -/
structure Binding where
  value : Value
  assignable : Bool
  deriving Inhabited

/-- The names bound in a scope, and the scope around it. -/
structure Scope where
  bindings : List (String × Binding)
  parent : Option ScopeId
  deriving Inhabited

/-- The fields of an object in the order in which they were first set. -/
abbrev Fields := List (String × Value)

namespace Fields

/-- The value of a field. -/
def get? (fields : Fields) (key : String) : Option Value := fields.lookup key

/-- Sets a field: in its place if it is there, else behind all others. -/
def set : Fields → String → Value → Fields
  | [], key, value => [(key, value)]
  | (k, v) :: rest, key, value =>
    if k = key then (k, value) :: rest else (k, v) :: set rest key value

/-- The names of the fields. -/
def keys (fields : Fields) : List String := fields.map (·.1)

/-- The values of the fields. -/
def values (fields : Fields) : List Value := fields.map (·.2)

/-- Fields set one after the other. -/
def ofEntries (entries : List (String × Value)) : Fields :=
  entries.foldl (fun fields entry => fields.set entry.1 entry.2) []

end Fields

/-- Scopes, objects and arrays by their places. -/
structure Store where
  scopes : Array Scope
  objects : Array Fields
  arrays : Array (Array Value)

namespace Store

/-- Nothing at all. -/
def empty : Store := ⟨#[], #[], #[]⟩

/-- The fields of an object. -/
def fields (store : Store) (id : ObjectId) : Fields := store.objects.getD id []

/-- The elements of an array. -/
def elements (store : Store) (id : ArrayId) : Array Value := store.arrays.getD id #[]

/-- Adds an object. -/
def addObject (store : Store) (fields : Fields) : Store :=
  { store with objects := store.objects.push fields }

/-- Adds an array. -/
def addArray (store : Store) (elements : Array Value) : Store :=
  { store with arrays := store.arrays.push elements }

/-- Changes the fields of an object. -/
def modifyObject (store : Store) (id : ObjectId) (change : Fields → Fields) : Store :=
  { store with objects := store.objects.modify id change }

/-- Changes the elements of an array. -/
def modifyArray (store : Store) (id : ArrayId) (change : Array Value → Array Value) : Store :=
  { store with arrays := store.arrays.modify id change }

end Store

end DarijaScript
