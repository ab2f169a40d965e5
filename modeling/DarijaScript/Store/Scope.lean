import DarijaScript.Store.Basic

/-!
# Scopes and names

A name is looked for in a scope, then in the scope around it, and so on outwards. A scope is always
added after the one around it, so its place is the greater one and every such way outwards ends.
-/

namespace DarijaScript

namespace Scope

/-- The binding of a name in this scope alone. -/
def get? (scope : Scope) (name : String) : Option Binding := scope.bindings.lookup name

/-- The name is bound in this scope itself. -/
def binds (scope : Scope) (name : String) : Bool := (scope.get? name).isSome

/-- Replaces the binding of a name, or adds one behind the others. -/
def bind (bindings : List (String × Binding)) (name : String) (binding : Binding) :
    List (String × Binding) :=
  match bindings with
  | [] => [(name, binding)]
  | (n, b) :: rest => if n = name then (n, binding) :: rest else (n, b) :: bind rest name binding

/-- The scope with a name bound in it. -/
def set (scope : Scope) (name : String) (binding : Binding) : Scope :=
  { scope with bindings := bind scope.bindings name binding }

end Scope

namespace Store

/-- Adds a scope. -/
def addScope (store : Store) (scope : Scope) : Store :=
  { store with scopes := store.scopes.push scope }

/-- The place that the next scope gets. -/
def nextScope (store : Store) : ScopeId := store.scopes.size

/-- An empty scope inside another one. -/
def addChild (store : Store) (parent : ScopeId) : Store := store.addScope ⟨[], some parent⟩

/-- A copy of a scope that has the same scope around it. -/
def addSnapshot (store : Store) (id : ScopeId) : Store :=
  match store.scopes[id]? with
  | some scope => store.addScope scope
  | none => store.addScope ⟨[], none⟩

/-- The innermost scope, from the given one outwards, that binds a name, and the binding. -/
def resolve? (store : Store) (id : ScopeId) (name : String) : Option (ScopeId × Binding) :=
  match store.scopes[id]? with
  | none => none
  | some scope =>
    match scope.get? name with
    | some binding => some (id, binding)
    | none =>
      match scope.parent with
      | none => none
      | some parent => if parent < id then resolve? store parent name else none
termination_by id

/-- The value that a name has in a scope. -/
def lookup? (store : Store) (id : ScopeId) (name : String) : Option Value :=
  (store.resolve? id name).map (·.2.value)

/-- The name is bound in the scope or around it. -/
def contains (store : Store) (id : ScopeId) (name : String) : Bool :=
  (store.resolve? id name).isSome

/-- The name is bound in the scope itself. -/
def declares (store : Store) (id : ScopeId) (name : String) : Bool :=
  match store.scopes[id]? with
  | some scope => scope.binds name
  | none => false

/-- Binds a name in a scope, whatever it was bound to there. -/
def define (store : Store) (id : ScopeId) (name : String) (binding : Binding) : Store :=
  { store with scopes := store.scopes.modify id (·.set name binding) }

/-- The outermost scope: the receiver, which is undefined there, and the built-in functions. -/
def rootScope : Scope :=
  let receiver : String × Binding := (Keyword.hadi.text, ⟨.undefined, false⟩)
  let builtins : List (String × Binding) :=
    Builtin.all.map fun f => (f.name, ⟨.builtin f, false⟩)
  ⟨receiver :: builtins, none⟩

/-- The store in which a program starts: the outermost scope and the one of the program in it. -/
def initial : Store := (empty.addScope rootScope).addChild 0

/-- The scope of the program in the initial store. -/
def programScope : ScopeId := 1

end Store

end DarijaScript
