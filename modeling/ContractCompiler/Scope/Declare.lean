/-
Declaring the functions of a contract.

The scope of the contract binds every function, and the scope of a function
binds its parameters.  Functions are declared in order, each before its
parameters.
-/

import ContractCompiler.Scope.Store

namespace ContractCompiler

def declareParameters (store : Store) (scope : ScopeId) :
    List Parameter → Except BindingError Store
  | [] => .ok store
  | parameter :: rest =>
      match store.defineVariable scope parameter.name parameter.type
          parameter.name with
      | .error error => .error error
      | .ok (_, store) => declareParameters store scope rest

def declareFunction (store : Store) (scope : ScopeId)
    (function : Function) : Except BindingError Store :=
  match store.defineFunction scope function.name function.name scope with
  | .error error => .error error
  | .ok (symbol, store) =>
      match store.functionScope? symbol with
      | none => .ok store
      | some own => declareParameters store own function.parameters

def declareFunctions (store : Store) (scope : ScopeId) :
    List Function → Except BindingError Store
  | [] => .ok store
  | function :: rest =>
      match declareFunction store scope function with
      | .error error => .error error
      | .ok store => declareFunctions store scope rest

/-- A store with its outermost scope, in which the functions of a contract
are bound. -/
structure Declarations where
  store : Store
  scope : ScopeId

namespace Declarations

def start : Declarations :=
  let (scope, store) := Store.empty.newScope none
  ⟨store.holdScope "contract" scope, scope⟩

def functionScope? (declarations : Declarations) (name : String) :
    Option ScopeId :=
  (declarations.store.resolveLocal? declarations.scope name).bind
    declarations.store.functionScope?

end Declarations

def Contract.declare (contract : Contract) :
    Except BindingError Declarations :=
  let start := Declarations.start
  match declareFunctions start.store start.scope contract.functions with
  | .error error => .error error
  | .ok store => .ok ⟨store, start.scope⟩

end ContractCompiler
