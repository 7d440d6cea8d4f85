/-
Code of functions.

The code of a function starts with a jump target and ends with a return, so
that control can enter at its start and cannot run on behind its end.
-/

import ContractCompiler.Code.Statement
import ContractCompiler.Scope.Declare

namespace ContractCompiler

/-- The code of a function, with the units in it that hold addresses. -/
structure FunctionCode where
  name : String
  code : Assembly
  jumpSites : List Nat
  deriving DecidableEq, Repr

namespace Function

def environment (function : Function) (outside : List String)
    (locals : List (String × ValueType)) : Environment where
  parameters := function.parameters.map Parameter.name
  returnType := function.returnType
  outside := outside
  locals := locals

def emit (function : Function) : Emitter Unit := do
  Emitter.emit .jumpTarget []
  Statement.emitAll function.body
  Emitter.emit .returning []

def code (function : Function) (environment : Environment) :
    Generated FunctionCode :=
  match function.emit.run ⟨.empty, [], environment⟩ with
  | (.error error, state) => (.error error, state.environment)
  | (.ok (), state) =>
      (.ok ⟨function.name, state.code, state.sites⟩, state.environment)

end Function

namespace Declarations

def names (declarations : Declarations) : List String :=
  (declarations.store.bindings declarations.scope).map Prod.fst

def defineAll (store : Store) (scope : ScopeId) :
    List (String × ValueType) → Store
  | [] => store
  | (name, type) :: rest =>
      match store.defineVariable scope name type name with
      | .ok (_, store) => defineAll store scope rest
      | .error _ => defineAll store scope rest

/-- The code of a declared function.  The variables of its body stay bound in
its scope, also when it has no code. -/
def compileFunction (declarations : Declarations) (function : Function) :
    Except FunctionError FunctionCode × Declarations :=
  match declarations.functionScope? function.name with
  | none =>
      (.error ⟨function.name, .undefined function.name⟩, declarations)
  | some scope =>
      let known := declarations.store.typedNames scope
      let (outcome, environment) :=
        function.code (function.environment declarations.names known)
      let store :=
        defineAll declarations.store scope
          (environment.locals.drop known.length)
      (match outcome with
        | .error error => .error ⟨function.name, error⟩
        | .ok code => .ok code,
        { declarations with store := store })

end Declarations

end ContractCompiler
