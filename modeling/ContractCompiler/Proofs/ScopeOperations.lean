/-
Working on a store.

A program makes scopes, builds symbols, binds names and holds or lets go what
it has, one operation after another, and can do so only to what is alive.  A
name can be bound to a symbol that was built before or is bound elsewhere.
Every operation keeps the order in which scopes are made, and no operation
takes away what a scope has bound.
-/

import ContractCompiler.Proofs.Ownership

namespace ContractCompiler

namespace Store

variable {store old new : Store} {scope : ScopeId} {name : String}
  {symbol : Symbol}

/-! ### Definitions -/

/-- What a name is to be bound to: a variable of a type, a function whose
scope lies in another one, or a symbol at hand, such as a function that was
built before or a copy of one that is bound already. -/
inductive Definition where
  | typed (type : ValueType) (identifier : String)
  | function (identifier : String) (outer : ScopeId)
  | given (symbol : Symbol)

def define (store : Store) (scope : ScopeId) (name : String) :
    Definition → Except BindingError (SymbolId × Store)
  | .typed type identifier =>
      store.defineVariable scope name type identifier
  | .function identifier outer =>
      store.defineFunction scope name identifier outer
  | .given symbol => store.bindSymbol scope name symbol

namespace Definition

def isVoid : Definition → Bool
  | .typed .void _ => true
  | _ => false

def symbolIn (store : Store) : Definition → Except BindingError Symbol
  | .typed type identifier => Symbol.ofType type identifier
  | .function identifier _ =>
      .ok ⟨.function store.scopes.length, identifier⟩
  | .given symbol => .ok symbol

def base (store : Store) : Definition → Store
  | .typed _ _ | .given _ => store
  | .function _ outer => (store.newScope (some outer)).2

def needs : Definition → List ScopeId
  | .typed _ _ => []
  | .function _ outer => [outer]
  | .given symbol => symbol.scope?.toList

variable {definition : Definition}

theorem symbolIn_eq_ok (store : Store) (proper : definition.isVoid = false) :
    ∃ symbol, definition.symbolIn store = .ok symbol := by
  cases definition with
  | typed type identifier =>
      have some : type ≠ .void := by
        intro void
        rw [void] at proper
        cases proper
      obtain ⟨symbol, made, _⟩ := Symbol.ofType_eq_ok identifier some
      exact ⟨symbol, made⟩
  | function identifier outer =>
      exact ⟨_, rfl⟩
  | given symbol =>
      exact ⟨symbol, rfl⟩

/-- The scope of a function is a new one, or it is needed. -/
theorem scope_symbolIn (made : definition.symbolIn store = .ok symbol)
    {own : ScopeId} (owned : symbol.scope? = some own) :
    own = store.scopes.length ∧
        own < (definition.base store).scopes.length ∨
      own ∈ definition.needs := by
  cases definition with
  | typed type identifier =>
      cases type <;> cases made <;> cases owned
  | function identifier outer =>
      cases made
      cases owned
      rw [base, length_newScope]
      exact Or.inl ⟨rfl, Nat.lt_succ_self _⟩
  | given other =>
      cases made
      right
      rw [needs, owned]
      exact List.mem_cons_self

theorem bindings_base (definition : Definition) (store : Store)
    (scope : ScopeId) :
    (definition.base store).bindings scope = store.bindings scope := by
  cases definition with
  | typed type identifier => rfl
  | function identifier outer => exact bindings_newScope store _ scope
  | given symbol => rfl

theorem symbols_base (definition : Definition) (store : Store) :
    (definition.base store).symbols = store.symbols := by
  cases definition <;> rfl

theorem length_base (definition : Definition) (store : Store) :
    store.scopes.length ≤ (definition.base store).scopes.length := by
  cases definition with
  | typed type identifier => exact Nat.le_refl _
  | function identifier outer =>
      rw [base, length_newScope]
      exact Nat.le_succ _
  | given symbol => exact Nat.le_refl _

private theorem ordered_base (ordered : store.Ordered)
    (made : ∀ needed ∈ definition.needs, needed < store.scopes.length) :
    (definition.base store).Ordered := by
  cases definition with
  | typed type identifier => exact ordered
  | function identifier outer =>
      apply ordered.newScope
      intro parent same
      cases same
      exact made outer List.mem_cons_self
  | given symbol => exact ordered

private theorem grows_base (grows : old.Grows store)
    (definition : Definition) : old.Grows (definition.base store) := by
  cases definition with
  | typed type identifier => exact grows
  | function identifier outer => exact grows.newScope _
  | given symbol => exact grows

private theorem scope_lt (ordered : store.Ordered)
    (made : definition.symbolIn store = .ok symbol)
    (needed : ∀ scope ∈ definition.needs, store.Alive (.scope scope))
    {own : ScopeId} (owned : symbol.scope? = some own) :
    own < (definition.base store).scopes.length := by
  rcases scope_symbolIn made owned with ⟨_, within⟩ | member
  · exact within
  · have inside : own < store.scopes.length :=
      (needed own member).has ordered
    exact Nat.lt_of_lt_of_le inside (definition.length_base store)

/-- A symbol holds no scope that is gone. -/
theorem scope_alive (grows : old.Grows store)
    (made : definition.symbolIn store = .ok symbol)
    (needed : ∀ scope ∈ definition.needs, store.Alive (.scope scope))
    {own : ScopeId} (owned : symbol.scope? = some own)
    (before : own < old.scopes.length) : old.Alive (.scope own) := by
  rcases scope_symbolIn made owned with ⟨fresh, _⟩ | member
  · rw [fresh] at before
    exact absurd before (Nat.not_lt.mpr grows.scopes)
  · exact grows.alive (needed own member) before

end Definition

private theorem define_eq_bind (definition : Definition) :
    store.define scope name definition =
      (definition.symbolIn store).bind
        ((definition.base store).bindSymbol scope name) := by
  cases definition <;> rfl

/-- A symbol that is made is bound, unless the name is bound already. -/
theorem define_eq {definition : Definition}
    (made : definition.symbolIn store = .ok symbol) :
    store.define scope name definition =
      if store.resolveLocal? scope name = none then
        .ok (store.symbols.length,
          (definition.base store).bound scope name symbol)
      else .error (.redefined name) := by
  have free : store.resolveLocal? scope name = none ↔
      name ∉ (store.bindings scope).map Prod.fst :=
    lookup_eq_none_iff_not_mem
  rw [define_eq_bind, made, Except.bind, bindSymbol_eq,
    definition.bindings_base, definition.symbols_base]
  simp only [free, ite_not]

/-! ### Operations -/

inductive Operation where
  | new (handle : String)
  | enclosed (handle : String) (outer : ScopeId)
  | build (handle : String) (definition : Definition)
  | define (scope : ScopeId) (name : String) (definition : Definition)
  | holdScope (handle : String) (scope : ScopeId)
  | holdSymbol (handle : String) (id : SymbolId)
  | dropScope (handle : String)
  | dropSymbol (handle : String)

def Operation.items : Operation → List Item
  | .new _ | .dropScope _ | .dropSymbol _ => []
  | .enclosed _ outer => [.scope outer]
  | .build _ definition => definition.needs.map .scope
  | .define scope _ definition =>
      .scope scope :: definition.needs.map .scope
  | .holdScope _ scope => [.scope scope]
  | .holdSymbol _ id => [.symbol id]

/-- The store behind an operation.  A symbol that cannot be made or bound
changes nothing. -/
def effect (store : Store) : Operation → Store
  | .new handle =>
      let (scope, store) := store.newScope none
      store.holdScope handle scope
  | .enclosed handle outer =>
      let (scope, store) := store.newScope (some outer)
      store.holdScope handle scope
  | .build handle definition =>
      match definition.symbolIn store with
      | .ok symbol =>
          ((definition.base store).added symbol).holdSymbol handle
            store.symbols.length
      | .error _ => store
  | .define scope name definition =>
      match store.define scope name definition with
      | .ok (_, store) => store
      | .error _ => store
  | .holdScope handle scope => store.holdScope handle scope
  | .holdSymbol handle id => store.holdSymbol handle id
  | .dropScope handle => store.dropScope handle
  | .dropSymbol handle => store.dropSymbol handle

def perform (store : Store) (operation : Operation) : Store :=
  if operation.items.all store.isAlive then store.effect operation else store

def run (store : Store) : List Operation → Store
  | [] => store
  | operation :: rest => (store.perform operation).run rest

inductive Step (store : Store) : Store → Prop where
  | stay : Step store store
  | made (handle : String) (parent : Option ScopeId)
      (held : ∀ outer ∈ parent, store.Alive (.scope outer)) :
      Step store
        ((store.newScope parent).2.holdScope handle store.scopes.length)
  | built (handle : String) (definition : Definition) (symbol : Symbol)
      (needed : ∀ scope ∈ definition.needs, store.Alive (.scope scope))
      (made : definition.symbolIn store = .ok symbol) :
      Step store (((definition.base store).added symbol).holdSymbol handle
        store.symbols.length)
  | defined (scope : ScopeId) (name : String) (definition : Definition)
      (symbol : Symbol) (held : store.Alive (.scope scope))
      (needed : ∀ scope ∈ definition.needs, store.Alive (.scope scope))
      (free : store.resolveLocal? scope name = none)
      (made : definition.symbolIn store = .ok symbol) :
      Step store ((definition.base store).bound scope name symbol)
  | scopeHandles (handles : List (String × ScopeId))
      (held : ∀ handle scope, (handle, scope) ∈ handles →
        store.Alive (.scope scope)) :
      Step store { store with scopeHandles := handles }
  | symbolHandles (handles : List (String × SymbolId))
      (held : ∀ handle id, (handle, id) ∈ handles →
        store.Alive (.symbol id)) :
      Step store { store with symbolHandles := handles }

private theorem mem_unpoint {handles : List (String × Nat)} {handle : String}
    {entry : String × Nat} (member : entry ∈ unpoint handles handle) :
    entry ∈ handles :=
  (List.mem_filter.mp member).1

private theorem mem_point {handles : List (String × Nat)} {handle : String}
    {id : Nat} {entry : String × Nat}
    (member : entry ∈ point handles handle id) :
    entry = (handle, id) ∨ entry ∈ handles := by
  rcases List.mem_cons.mp member with same | member
  · exact Or.inl same
  · exact Or.inr (mem_unpoint member)

/-- A definition binds a new symbol, or does nothing. -/
theorem effect_define (store : Store) (scope : ScopeId) (name : String)
    (definition : Definition) :
    store.effect (.define scope name definition) = store ∨
      ∃ symbol, definition.symbolIn store = .ok symbol ∧
        store.resolveLocal? scope name = none ∧
        store.effect (.define scope name definition) =
          (definition.base store).bound scope name symbol := by
  cases made : definition.symbolIn store with
  | error failure =>
      left
      rw [effect, define_eq_bind, made]
      rfl
  | ok symbol =>
      rw [effect, define_eq made]
      by_cases free : store.resolveLocal? scope name = none
      · right
        rw [if_pos free]
        exact ⟨symbol, rfl, free, rfl⟩
      · left
        rw [if_neg free]

theorem perform_cases (ordered : store.Ordered) (operation : Operation) :
    store.perform operation = store ∨
      (∀ item ∈ operation.items, store.Alive item) ∧
        store.perform operation = store.effect operation := by
  unfold perform
  split
  next alive =>
    right
    refine ⟨?_, rfl⟩
    intro item member
    exact (isAlive_iff ordered item).mp
      (List.all_eq_true.mp alive item member)
  next =>
    exact Or.inl rfl

private theorem effect_step {operation : Operation}
    (held : ∀ item ∈ operation.items, store.Alive item) :
    store.Step (store.effect operation) := by
  cases operation with
  | new handle =>
      refine .made handle none ?_
      intro outer absent
      cases absent
  | enclosed handle outer =>
      refine .made handle (some outer) ?_
      intro parent same
      cases same
      exact held _ List.mem_cons_self
  | build handle definition =>
      rw [effect]
      split
      next symbol made =>
        refine .built handle definition symbol ?_ made
        intro scope member
        exact held _ (List.mem_map_of_mem member)
      next => exact .stay
  | define scope name definition =>
      rcases store.effect_define scope name definition with
        same | ⟨symbol, made, free, bound⟩
      · rw [same]
        exact .stay
      · rw [bound]
        refine .defined scope name definition symbol
          (held _ List.mem_cons_self) ?_ free made
        intro scope member
        exact held _ (List.mem_cons_of_mem _ (List.mem_map_of_mem member))
  | holdScope handle scope =>
      refine .scopeHandles _ ?_
      intro other target member
      rcases mem_point member with same | member
      · cases same
        exact held _ List.mem_cons_self
      · exact .scopeHandle member
  | holdSymbol handle id =>
      refine .symbolHandles _ ?_
      intro other target member
      rcases mem_point member with same | member
      · cases same
        exact held _ List.mem_cons_self
      · exact .symbolHandle member
  | dropScope handle =>
      exact .scopeHandles _ fun _ _ member => .scopeHandle (mem_unpoint member)
  | dropSymbol handle =>
      exact .symbolHandles _ fun _ _ member =>
        .symbolHandle (mem_unpoint member)

theorem perform_step (ordered : store.Ordered) (operation : Operation) :
    store.Step (store.perform operation) := by
  rcases perform_cases ordered operation with same | ⟨held, same⟩
  · rw [same]
    exact .stay
  · rw [same]
    exact effect_step held

theorem Ordered.step (ordered : store.Ordered) (step : store.Step new) :
    new.Ordered := by
  cases step with
  | stay =>
      exact ordered
  | made handle parent held =>
      have made := ordered.newScope fun outer member =>
        (held outer member).has ordered
      refine { made with scopeHandles := ?_ }
      intro other scope member
      rcases mem_point member with same | member
      · cases same
        change _ < (store.newScope parent).2.scopes.length
        rw [length_newScope]
        exact Nat.lt_succ_self _
      · exact made.scopeHandles other scope member
  | built handle definition symbol needed made =>
      have based := Definition.ordered_base ordered fun scope member =>
        (needed scope member).has ordered
      have added := based.added fun _ =>
        Definition.scope_lt ordered made needed
      refine { added with symbolHandles := ?_ }
      intro other id member
      rcases mem_point member with same | member
      · cases same
        change _ < ((definition.base store).added symbol).symbols.length
        rw [Store.added, definition.symbols_base, List.length_append]
        exact Nat.lt_succ_self _
      · exact added.symbolHandles other id member
  | defined scope name definition symbol held needed free made =>
      have based := Definition.ordered_base ordered fun scope member =>
        (needed scope member).has ordered
      have inside : scope < store.scopes.length := held.has ordered
      exact based.bound
        (Nat.lt_of_lt_of_le inside (definition.length_base store)) name
        fun _ => Definition.scope_lt ordered made needed
  | scopeHandles handles held =>
      exact { ordered with
        scopeHandles := fun handle scope member =>
          (held handle scope member).has ordered }
  | symbolHandles handles held =>
      exact { ordered with
        symbolHandles := fun handle id member =>
          (held handle id member).has ordered }

theorem Grows.step (grows : old.Grows store) (ordered : store.Ordered)
    (step : store.Step new) : old.Grows new := by
  cases step with
  | stay =>
      exact grows
  | made handle parent held =>
      apply (grows.newScope parent).holdScopes
      intro other scope member before
      rcases mem_point member with same | member
      · cases same
        exact absurd before (Nat.not_lt.mpr grows.scopes)
      · exact grows.scopeHandles other scope member before
  | built handle definition symbol needed made =>
      have added := (Definition.grows_base grows definition).added fun _ =>
        Definition.scope_alive grows made needed
      apply added.holdSymbols
      intro other id member before
      rcases mem_point member with same | member
      · cases same
        exact absurd before (Nat.not_lt.mpr grows.symbols.length_le)
      · exact added.symbolHandles other id member before
  | defined scope name definition symbol held needed free made =>
      have inside : scope < store.scopes.length := held.has ordered
      exact (Definition.grows_base grows definition).bound
        (Nat.lt_of_lt_of_le inside (definition.length_base store)) name
        fun _ => Definition.scope_alive grows made needed
  | scopeHandles handles held =>
      exact grows.holdScopes fun handle scope member =>
        grows.alive (held handle scope member)
  | symbolHandles handles held =>
      exact grows.holdSymbols fun handle id member =>
        grows.alive (held handle id member)

theorem Ordered.run (ordered : store.Ordered)
    (operations : List Operation) : (store.run operations).Ordered := by
  induction operations generalizing store with
  | nil =>
      exact ordered
  | cons operation rest inductionHypothesis =>
      exact inductionHypothesis (ordered.step (perform_step ordered operation))

theorem Grows.run (grows : old.Grows store) (ordered : store.Ordered)
    (operations : List Operation) : old.Grows (store.run operations) := by
  induction operations generalizing store with
  | nil =>
      exact grows
  | cons operation rest inductionHypothesis =>
      have step := perform_step ordered operation
      exact inductionHypothesis (grows.step ordered step)
        (ordered.step step)

end Store

end ContractCompiler
