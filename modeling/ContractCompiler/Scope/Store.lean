/-
Scopes and the symbols bound in them.

A store holds scopes and symbols under numbers, and handles through which
they are reached from outside.  A scope is alive while a handle or a living
function symbol holds it; a symbol is alive while a handle or the table of a
living scope holds it.  A scope knows its parent without holding it: once the
parent is gone, names are no longer looked up there.  Scopes and symbols that
hold each other in a ring stay alive, whether or not they can be reached.

Scopes are numbered in the order in which they were made, so a parent is older
than its children.
-/

import ContractCompiler.Scope.Symbol

namespace ContractCompiler

/-- A scope: the names bound in it, the oldest first, and its parent. -/
structure Scope where
  bindings : List (String × SymbolId) := []
  parent : Option ScopeId := none

structure Store where
  scopes : List Scope := []
  symbols : List Symbol := []
  scopeHandles : List (String × ScopeId) := []
  symbolHandles : List (String × SymbolId) := []

namespace Store

def empty : Store := {}

def bindings (store : Store) (scope : ScopeId) : List (String × SymbolId) :=
  match store.scopes[scope]? with
  | some table => table.bindings
  | none => []

def symbol? (store : Store) (id : SymbolId) : Option Symbol :=
  store.symbols[id]?

/-! ### Handles -/

def point (handles : List (String × Nat)) (handle : String) (id : Nat) :
    List (String × Nat) :=
  (handle, id) :: handles.filter fun entry => entry.1 != handle

def unpoint (handles : List (String × Nat)) (handle : String) :
    List (String × Nat) :=
  handles.filter fun entry => entry.1 != handle

def holdScope (store : Store) (handle : String) (scope : ScopeId) : Store :=
  { store with scopeHandles := point store.scopeHandles handle scope }

def dropScope (store : Store) (handle : String) : Store :=
  { store with scopeHandles := unpoint store.scopeHandles handle }

def holdSymbol (store : Store) (handle : String) (symbol : SymbolId) :
    Store :=
  { store with symbolHandles := point store.symbolHandles handle symbol }

def dropSymbol (store : Store) (handle : String) : Store :=
  { store with symbolHandles := unpoint store.symbolHandles handle }

def scopeHandle? (store : Store) (handle : String) : Option ScopeId :=
  store.scopeHandles.lookup handle

def symbolHandle? (store : Store) (handle : String) : Option SymbolId :=
  store.symbolHandles.lookup handle

def handlesOf (store : Store) (scope : ScopeId) : List String :=
  ((store.scopeHandles.filter fun entry => entry.2 == scope).map
    Prod.fst).mergeSort fun left right => decide ¬ right < left

/-! ### Life -/

def symbolHeld (store : Store) (living : List ScopeId)
    (symbol : SymbolId) : Bool :=
  store.symbolHandles.any (fun entry => entry.2 == symbol) ||
    living.any fun scope =>
      (store.bindings scope).any fun entry => entry.2 == symbol

def scopeHeld (store : Store) (living : List ScopeId) (scope : ScopeId) :
    Bool :=
  store.scopeHandles.any (fun entry => entry.2 == scope) ||
    store.symbols.zipIdx.any fun (symbol, id) =>
      symbol.scope? == some scope && store.symbolHeld living id

/-- The scopes among the given ones that are held, if these are all there
are. -/
def heldAmong (store : Store) (living : List ScopeId) : List ScopeId :=
  living.filter (store.scopeHeld living)

/-- The scopes that are alive: those that are left when no more can be let go.
Every round lets go one at least, so there are no more rounds than scopes. -/
def livingScopes (store : Store) : List ScopeId :=
  Nat.repeat store.heldAmong store.scopes.length
    (List.range store.scopes.length)

def isLiving (store : Store) (scope : ScopeId) : Bool :=
  store.livingScopes.contains scope

/-! ### Looking up -/

/-- The parent of a scope, if it is still alive. -/
def parent? (store : Store) (scope : ScopeId) : Option ScopeId :=
  match store.scopes[scope]? with
  | some table => table.parent.filter store.isLiving
  | none => none

def resolveLocal? (store : Store) (scope : ScopeId) (name : String) :
    Option SymbolId :=
  (store.bindings scope).lookup name

/-- The symbol of a name in the nearest scope that binds it, going from
parent to parent. -/
def resolve? (store : Store) (scope : ScopeId) (name : String) :
    Option SymbolId :=
  match store.resolveLocal? scope name with
  | some symbol => some symbol
  | none =>
      match store.parent? scope with
      | none => none
      | some parent =>
          if parent < scope then store.resolve? parent name else none
termination_by scope

/-! ### Making and binding -/

def newScope (store : Store) (parent : Option ScopeId) : ScopeId × Store :=
  (store.scopes.length,
    { store with scopes := store.scopes ++ [{ parent := parent }] })

/-- Binds a name in a scope to a new symbol.  A name is bound at most once in
a scope. -/
def bindSymbol (store : Store) (scope : ScopeId) (name : String)
    (symbol : Symbol) : Except BindingError (SymbolId × Store) :=
  match store.resolveLocal? scope name with
  | some _ => .error (.redefined name)
  | none =>
      let id := store.symbols.length
      .ok (id,
        { store with
          symbols := store.symbols ++ [symbol]
          scopes := store.scopes.modify scope fun table =>
            { table with bindings := table.bindings ++ [(name, id)] } })

def defineVariable (store : Store) (scope : ScopeId) (name : String)
    (type : ValueType) (identifier : String) :
    Except BindingError (SymbolId × Store) := do
  let symbol ← Symbol.ofType type identifier
  store.bindSymbol scope name symbol

/-- Binds a name in a scope to a new function, whose own scope has the parent
`outer`. -/
def defineFunction (store : Store) (scope : ScopeId) (name : String)
    (identifier : String) (outer : ScopeId) :
    Except BindingError (SymbolId × Store) :=
  let (own, store) := store.newScope (some outer)
  store.bindSymbol scope name ⟨.function own, identifier⟩

def functionScope? (store : Store) (symbol : SymbolId) : Option ScopeId :=
  (store.symbol? symbol).bind Symbol.scope?

def typedNames (store : Store) (scope : ScopeId) :
    List (String × ValueType) :=
  (store.bindings scope).filterMap fun (name, id) =>
    ((store.symbol? id).bind Symbol.valueType?).map fun type => (name, type)

end Store

end ContractCompiler
