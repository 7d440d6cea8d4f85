/-
Who holds scopes and symbols.

Handles hold scopes and symbols, a scope holds the symbols in its table, and
the symbol of a function holds the scope of that function.  What nothing holds
is gone, and so is what only items hold that are gone themselves.  Letting go
of such scopes round after round leaves those that are alive.

Programs reach only what is alive.  So what is gone does not come back, and
what a scope has bound it keeps.
-/

import ContractCompiler.Proofs.Declaring

namespace ContractCompiler

namespace Store

variable {store old new base : Store} {scope own : ScopeId} {name : String}
  {symbol : Symbol}

/-! ### Life -/

inductive Item where
  | scope (id : ScopeId)
  | symbol (id : SymbolId)

/-- An item that no handle holds, and no other item but such that are gone. -/
inductive Gone (store : Store) : Item → Prop where
  | scope {scope : ScopeId}
      (free : ∀ handle, (handle, scope) ∉ store.scopeHandles)
      (holders : ∀ id, store.functionScope? id = some scope →
        Gone store (.symbol id)) :
      Gone store (.scope scope)
  | symbol {id : SymbolId}
      (free : ∀ handle, (handle, id) ∉ store.symbolHandles)
      (holders : ∀ scope name, (name, id) ∈ store.bindings scope →
        Gone store (.scope scope)) :
      Gone store (.symbol id)

def Alive (store : Store) (item : Item) : Prop :=
  ¬ store.Gone item

def isAlive (store : Store) : Item → Bool
  | .scope scope => store.isLiving scope
  | .symbol id => store.symbolHeld store.livingScopes id

def Has (store : Store) : Item → Prop
  | .scope scope => scope < store.scopes.length
  | .symbol id => id < store.symbols.length

def outer? (store : Store) (scope : ScopeId) : Option ScopeId :=
  (store.scopes[scope]?).bind Scope.parent

/-- What is held was made, and scopes are made from the outside in. -/
structure Ordered (store : Store) : Prop where
  parents : ∀ scope parent, store.outer? scope = some parent →
    parent < scope
  sound : store.Sound
  functions : ∀ id own, store.functionScope? id = some own →
    own < store.scopes.length
  scopeHandles : ∀ handle scope, (handle, scope) ∈ store.scopeHandles →
    scope < store.scopes.length
  symbolHandles : ∀ handle id, (handle, id) ∈ store.symbolHandles →
    id < store.symbols.length

theorem lt_of_symbol {id : SymbolId} (known : store.symbol? id = some symbol) :
    id < store.symbols.length :=
  (List.getElem?_eq_some_iff.mp known).1

private theorem lt_of_functionScope {id : SymbolId}
    (owned : store.functionScope? id = some own) :
    id < store.symbols.length := by
  obtain ⟨symbol, known, _⟩ := Option.bind_eq_some_iff.mp owned
  exact lt_of_symbol known

private theorem lt_of_binding {id : SymbolId}
    (listed : (name, id) ∈ store.bindings scope) :
    scope < store.scopes.length := by
  by_contra outside
  rw [bindings, List.getElem?_eq_none (Nat.le_of_not_lt outside)] at listed
  cases listed

namespace Alive

theorem scopeHandle {handle : String}
    (held : (handle, scope) ∈ store.scopeHandles) :
    store.Alive (.scope scope) := by
  intro gone
  cases gone with
  | scope free holders => exact free handle held

theorem symbolHandle {handle : String} {id : SymbolId}
    (held : (handle, id) ∈ store.symbolHandles) :
    store.Alive (.symbol id) := by
  intro gone
  cases gone with
  | symbol free holders => exact free handle held

private theorem function {id : SymbolId}
    (owned : store.functionScope? id = some scope)
    (holder : store.Alive (.symbol id)) : store.Alive (.scope scope) := by
  intro gone
  cases gone with
  | scope free holders => exact holder (holders id owned)

theorem binding {id : SymbolId}
    (listed : (name, id) ∈ store.bindings scope)
    (holder : store.Alive (.scope scope)) : store.Alive (.symbol id) := by
  intro gone
  cases gone with
  | symbol free holders => exact holder (holders scope name listed)

end Alive

theorem alive_scope_iff :
    store.Alive (.scope scope) ↔
      (∃ handle, (handle, scope) ∈ store.scopeHandles) ∨
        ∃ id, store.functionScope? id = some scope ∧
          store.Alive (.symbol id) := by
  constructor
  · intro alive
    by_contra unheld
    rw [not_or] at unheld
    obtain ⟨free, unowned⟩ := unheld
    refine alive (.scope (fun handle held => free ⟨handle, held⟩) ?_)
    intro id owned
    by_contra holder
    exact unowned ⟨id, owned, holder⟩
  · rintro (⟨handle, held⟩ | ⟨id, owned, holder⟩)
    · exact .scopeHandle held
    · exact .function owned holder

theorem alive_symbol_iff {id : SymbolId} :
    store.Alive (.symbol id) ↔
      (∃ handle, (handle, id) ∈ store.symbolHandles) ∨
        ∃ scope name, (name, id) ∈ store.bindings scope ∧
          store.Alive (.scope scope) := by
  constructor
  · intro alive
    by_contra unheld
    rw [not_or] at unheld
    obtain ⟨free, unlisted⟩ := unheld
    refine alive (.symbol (fun handle held => free ⟨handle, held⟩) ?_)
    intro scope name listed
    by_contra holder
    exact unlisted ⟨scope, name, listed, holder⟩
  · rintro (⟨handle, held⟩ | ⟨scope, name, listed, holder⟩)
    · exact .symbolHandle held
    · exact .binding listed holder

/-- A scope that binds its own function is never let go. -/
theorem alive_of_ring {id : SymbolId}
    (listed : (name, id) ∈ store.bindings scope)
    (owned : store.functionScope? id = some scope) :
    store.Alive (.scope scope) := by
  -- Along a proof that the scope is gone one would come back to the scope.
  have endless : ∀ item, store.Gone item →
      item ≠ .scope scope ∧ item ≠ .symbol id := by
    intro item gone
    induction gone with
    | scope free holders inductionHypothesis =>
        refine ⟨?_, nofun⟩
        rintro ⟨⟩
        exact (inductionHypothesis id owned).2 rfl
    | symbol free holders inductionHypothesis =>
        refine ⟨nofun, ?_⟩
        rintro ⟨⟩
        exact (inductionHypothesis scope name listed).1 rfl
  intro gone
  exact (endless _ gone).1 rfl

example : isAlive
    { scopes := [{}, { bindings := [("f", 0)], parent := some 0 }],
      symbols := [⟨.function 1, "f"⟩] } (.scope 1) = true := by
  decide

theorem Alive.has (ordered : store.Ordered) {item : Item}
    (alive : store.Alive item) : store.Has item := by
  cases item with
  | scope scope =>
      rcases alive_scope_iff.mp alive with ⟨handle, held⟩ | ⟨id, owned, _⟩
      · exact ordered.scopeHandles handle scope held
      · exact ordered.functions id scope owned
  | symbol id =>
      rcases alive_symbol_iff.mp alive with ⟨handle, held⟩ |
        ⟨scope, name, listed, _⟩
      · exact ordered.symbolHandles handle id held
      · obtain ⟨symbol, known⟩ := ordered.sound scope _ listed
        exact lt_of_symbol known

/-! ### Rounds -/

theorem symbolHeld_iff {living : List ScopeId} {id : SymbolId} :
    store.symbolHeld living id = true ↔
      (∃ handle, (handle, id) ∈ store.symbolHandles) ∨
        ∃ scope ∈ living, ∃ name, (name, id) ∈ store.bindings scope := by
  simp [symbolHeld]

theorem scopeHeld_iff {living : List ScopeId} :
    store.scopeHeld living scope = true ↔
      (∃ handle, (handle, scope) ∈ store.scopeHandles) ∨
        ∃ id, store.functionScope? id = some scope ∧
          store.symbolHeld living id = true := by
  rw [scopeHeld, Bool.or_eq_true]
  apply or_congr
  · simp
  · simp only [List.any_eq_true, Prod.exists, Bool.and_eq_true, beq_iff_eq,
      List.mem_zipIdx_iff_getElem?, functionScope?, symbol?,
      Option.bind_eq_some_iff]
    constructor
    · rintro ⟨symbol, id, known, owned, held⟩
      exact ⟨id, ⟨symbol, known, owned⟩, held⟩
    · rintro ⟨id, ⟨symbol, known, owned⟩, held⟩
      exact ⟨symbol, id, known, owned, held⟩

def livingAfter (store : Store) (rounds : Nat) : List ScopeId :=
  Nat.repeat store.heldAmong rounds (List.range store.scopes.length)

/-- As long as rounds change anything, each of them lets go a scope. -/
theorem livingAfter_settles (store : Store) (rounds : Nat) :
    (store.livingAfter rounds).length + rounds ≤ store.scopes.length ∨
      store.heldAmong (store.livingAfter rounds) =
        store.livingAfter rounds := by
  induction rounds with
  | zero =>
      left
      exact Nat.le_of_eq List.length_range
  | succ rounds inductionHypothesis =>
      have next : store.livingAfter (rounds + 1) =
        store.heldAmong (store.livingAfter rounds) := rfl
      rw [next]
      rcases inductionHypothesis with fewer | settled
      · by_cases same : (store.heldAmong (store.livingAfter rounds)).length =
            (store.livingAfter rounds).length
        · right
          have settled : store.heldAmong (store.livingAfter rounds) =
              store.livingAfter rounds :=
            List.filter_sublist.eq_of_length same
          rw [settled, settled]
        · left
          have less : (store.heldAmong (store.livingAfter rounds)).length ≤
              (store.livingAfter rounds).length :=
            List.length_filter_le ..
          omega
      · right
        rw [settled, settled]

private theorem heldAmong_livingScopes (store : Store) :
    store.heldAmong store.livingScopes = store.livingScopes := by
  rcases store.livingAfter_settles store.scopes.length with none | settled
  · have length : (store.livingAfter store.scopes.length).length = 0 := by
      omega
    have empty : store.livingScopes = [] :=
      List.eq_nil_of_length_eq_zero length
    rw [empty]
    rfl
  · exact settled

private theorem alive_of_isAlive {item : Item}
    (found : store.isAlive item = true) : store.Alive item := by
  intro gone
  induction gone with
  | scope free holders inductionHypothesis =>
      have member := List.contains_iff_mem.mp found
      rw [← heldAmong_livingScopes] at member
      rcases scopeHeld_iff.mp (List.mem_filter.mp member).2 with
        ⟨handle, held⟩ | ⟨id, owned, held⟩
      · exact free handle held
      · exact inductionHypothesis id owned held
  | symbol free holders inductionHypothesis =>
      rcases symbolHeld_iff.mp found with ⟨handle, held⟩ |
        ⟨scope, member, name, listed⟩
      · exact free handle held
      · exact inductionHypothesis scope name listed
          (List.contains_iff_mem.mpr member)

private theorem symbolHeld_of_alive {living : List ScopeId} {id : SymbolId}
    (all : ∀ scope, store.Alive (.scope scope) → scope ∈ living)
    (alive : store.Alive (.symbol id)) :
    store.symbolHeld living id = true := by
  rw [symbolHeld_iff]
  rcases alive_symbol_iff.mp alive with handled | ⟨scope, name, listed, holder⟩
  · exact Or.inl handled
  · exact Or.inr ⟨scope, all scope holder, name, listed⟩

private theorem mem_livingAfter (ordered : store.Ordered) (rounds : Nat)
    {scope : ScopeId} (alive : store.Alive (.scope scope)) :
    scope ∈ store.livingAfter rounds := by
  induction rounds generalizing scope with
  | zero =>
      exact List.mem_range.mpr (alive.has ordered)
  | succ rounds inductionHypothesis =>
      refine List.mem_filter.mpr ⟨inductionHypothesis alive, ?_⟩
      rw [scopeHeld_iff]
      rcases alive_scope_iff.mp alive with handled | ⟨id, owned, holder⟩
      · exact Or.inl handled
      · exact Or.inr ⟨id, owned,
          symbolHeld_of_alive (fun _ => inductionHypothesis) holder⟩

/-- The rounds find all that is alive. -/
theorem isAlive_iff (ordered : store.Ordered) (item : Item) :
    store.isAlive item = true ↔ store.Alive item := by
  refine ⟨alive_of_isAlive, ?_⟩
  intro alive
  cases item with
  | scope scope =>
      exact List.contains_iff_mem.mpr (mem_livingAfter ordered _ alive)
  | symbol id =>
      exact symbolHeld_of_alive (fun _ => mem_livingAfter ordered _) alive

/-! ### Growth -/

/-- What becomes of the items of a store: they keep what they hold.  Nothing
comes to hold an item that is gone. -/
structure Grows (old new : Store) : Prop where
  scopes : old.scopes.length ≤ new.scopes.length
  outer : ∀ scope, scope < old.scopes.length →
    new.outer? scope = old.outer? scope
  symbols : old.symbols <+: new.symbols
  bindings : ∀ scope, old.bindings scope <+: new.bindings scope
  functions : ∀ id own, new.functionScope? id = some own →
    own < old.scopes.length →
      id < old.symbols.length ∨ old.Alive (.scope own)
  tables : ∀ scope name id, (name, id) ∈ new.bindings scope →
    id < old.symbols.length → (name, id) ∈ old.bindings scope
  scopeHandles : ∀ handle scope, (handle, scope) ∈ new.scopeHandles →
    scope < old.scopes.length → old.Alive (.scope scope)
  symbolHandles : ∀ handle id, (handle, id) ∈ new.symbolHandles →
    id < old.symbols.length → old.Alive (.symbol id)

namespace Grows

theorem refl (store : Store) : store.Grows store where
  scopes := Nat.le_refl _
  outer _ _ := rfl
  symbols := List.prefix_refl _
  bindings _ := List.prefix_refl _
  functions _ _ owned _ := Or.inl (lt_of_functionScope owned)
  tables _ _ _ listed _ := listed
  scopeHandles _ _ held _ := .scopeHandle held
  symbolHandles _ _ held _ := .symbolHandle held

theorem symbol_eq (grows : old.Grows new) {id : SymbolId}
    (before : id < old.symbols.length) :
    new.symbol? id = old.symbol? id := by
  rw [symbol?, symbol?,
    List.prefix_iff_getElem?.mp grows.symbols id before,
    List.getElem?_eq_getElem before]

theorem functionScope_eq (grows : old.Grows new) {id : SymbolId}
    (before : id < old.symbols.length) :
    new.functionScope? id = old.functionScope? id := by
  rw [functionScope?, functionScope?, grows.symbol_eq before]

theorem resolveLocal_eq_some (grows : old.Grows new) {id : SymbolId}
    (bound : old.resolveLocal? scope name = some id) :
    new.resolveLocal? scope name = some id :=
  (grows.bindings scope).lookup_eq_some bound

/-- What is gone does not come back. -/
theorem gone (grows : old.Grows new) {item : Item} (gone : old.Gone item)
    (made : old.Has item) : new.Gone item := by
  induction gone with
  | @scope scope free holders inductionHypothesis =>
      have gone : old.Gone (.scope scope) := .scope free holders
      refine .scope ?_ ?_
      · intro handle held
        exact grows.scopeHandles handle scope held made gone
      · intro id owned
        rcases grows.functions id scope owned made with before | alive
        · rw [grows.functionScope_eq before] at owned
          exact inductionHypothesis id owned before
        · exact absurd gone alive
  | @symbol id free holders inductionHypothesis =>
      refine .symbol ?_ ?_
      · intro handle held
        exact grows.symbolHandles handle id held made (.symbol free holders)
      · intro scope name listed
        have listedToo := grows.tables scope name id listed made
        exact inductionHypothesis scope name listedToo
          (lt_of_binding listedToo)

theorem alive (grows : old.Grows new) {item : Item}
    (alive : new.Alive item) (made : old.Has item) : old.Alive item :=
  fun gone => alive (grows.gone gone made)

/-- Where handles stay, what is alive stays so. -/
theorem alive_later (grows : old.Grows new)
    (scopeHandles : new.scopeHandles = old.scopeHandles)
    (symbolHandles : new.symbolHandles = old.symbolHandles) {item : Item}
    (alive : old.Alive item) : new.Alive item := by
  intro gone
  apply alive
  clear alive
  induction gone with
  | scope free holders inductionHypothesis =>
      rw [scopeHandles] at free
      refine .scope free ?_
      intro id owned
      refine inductionHypothesis id ?_
      rw [grows.functionScope_eq (lt_of_functionScope owned)]
      exact owned
  | symbol free holders inductionHypothesis =>
      rw [symbolHandles] at free
      refine .symbol free ?_
      intro scope name listed
      exact inductionHypothesis scope name
        ((grows.bindings scope).subset listed)

end Grows

/-! ### Changes to a store -/

theorem outer_newScope (store : Store) (parent : Option ScopeId)
    (scope : ScopeId) :
    (store.newScope parent).2.outer? scope =
      if scope = store.scopes.length then parent
      else store.outer? scope := by
  simp only [outer?, newScope, List.getElem?_append, List.getElem?_singleton]
  grind

theorem outer_bound (store : Store) (scope : ScopeId) (name : String)
    (symbol : Symbol) (other : ScopeId) :
    (store.bound scope name symbol).outer? other = store.outer? other := by
  rw [outer?, outer?, bound, List.getElem?_modify]
  cases store.scopes[other]? with
  | none => rfl
  | some table => by_cases same : scope = other <;> simp [same]

def added (store : Store) (symbol : Symbol) : Store :=
  { store with symbols := store.symbols ++ [symbol] }

private theorem functionScope_added (store : Store) (symbol : Symbol)
    (id : SymbolId) :
    (store.added symbol).functionScope? id =
      if id = store.symbols.length then symbol.scope?
      else store.functionScope? id := by
  simp only [functionScope?, symbol?, added, List.getElem?_append,
    List.getElem?_singleton]
  grind

private theorem mem_bindings_bound (inside : scope < store.scopes.length)
    {entry : String × SymbolId} {other : ScopeId} :
    entry ∈ (store.bound scope name symbol).bindings other ↔
      entry ∈ store.bindings other ∨
        other = scope ∧ entry = (name, store.symbols.length) := by
  by_cases same : other = scope
  · subst same
    rw [bindings_bound symbol inside, List.mem_append, List.mem_singleton]
    simp
  · rw [bindings_bound_of_ne symbol same]
    simp [same]

namespace Grows

theorem newScope (grows : old.Grows base) (parent : Option ScopeId) :
    old.Grows (base.newScope parent).2 where
  scopes := by
    rw [length_newScope]
    exact Nat.le_succ_of_le grows.scopes
  outer scope before := by
    have apart : scope ≠ base.scopes.length :=
      Nat.ne_of_lt (Nat.lt_of_lt_of_le before grows.scopes)
    rw [outer_newScope, if_neg apart, grows.outer scope before]
  symbols := grows.symbols
  bindings scope := by
    rw [bindings_newScope]
    exact grows.bindings scope
  functions := grows.functions
  tables scope := by
    rw [bindings_newScope]
    exact grows.tables scope
  scopeHandles := grows.scopeHandles
  symbolHandles := grows.symbolHandles

theorem added (grows : old.Grows base)
    (alive : ∀ own, symbol.scope? = some own → own < old.scopes.length →
      old.Alive (.scope own)) :
    old.Grows (base.added symbol) :=
  { grows with
    symbols := grows.symbols.trans (List.prefix_append _ _)
    functions := by
      intro id own owned before
      rw [functionScope_added] at owned
      split at owned
      next => exact Or.inr (alive own owned before)
      next => exact grows.functions id own owned before }

theorem bound (grows : old.Grows base)
    (inside : scope < base.scopes.length) (name : String)
    (alive : ∀ own, symbol.scope? = some own → own < old.scopes.length →
      old.Alive (.scope own)) :
    old.Grows (base.bound scope name symbol) where
  scopes := by
    rw [Store.bound, List.length_modify]
    exact grows.scopes
  outer other before := by
    rw [outer_bound, grows.outer other before]
  symbols := (grows.added alive).symbols
  bindings other := by
    refine (grows.bindings other).trans ?_
    by_cases same : other = scope
    · subst same
      rw [bindings_bound symbol inside]
      exact List.prefix_append _ _
    · simp [bindings_bound_of_ne symbol same]
  functions := (grows.added alive).functions
  tables other wanted id listed before := by
    rcases (mem_bindings_bound inside).mp listed with listed | ⟨_, same⟩
    · exact grows.tables other wanted id listed before
    · cases same
      exact absurd before (Nat.not_lt.mpr grows.symbols.length_le)
  scopeHandles := grows.scopeHandles
  symbolHandles := grows.symbolHandles

theorem holdScopes (grows : old.Grows base)
    {handles : List (String × ScopeId)}
    (held : ∀ handle scope, (handle, scope) ∈ handles →
      scope < old.scopes.length → old.Alive (.scope scope)) :
    old.Grows { base with scopeHandles := handles } :=
  { grows with scopeHandles := held }

theorem holdSymbols (grows : old.Grows base)
    {handles : List (String × SymbolId)}
    (held : ∀ handle id, (handle, id) ∈ handles →
      id < old.symbols.length → old.Alive (.symbol id)) :
    old.Grows { base with symbolHandles := handles } :=
  { grows with symbolHandles := held }

end Grows

namespace Ordered

theorem empty : Store.empty.Ordered where
  parents _ _ made := by cases made
  sound _ _ listed := by cases listed
  functions _ _ owned := by cases owned
  scopeHandles _ _ held := by cases held
  symbolHandles _ _ held := by cases held

theorem newScope (ordered : store.Ordered) {parent : Option ScopeId}
    (older : ∀ outer ∈ parent, outer < store.scopes.length) :
    (store.newScope parent).2.Ordered where
  parents scope outer made := by
    rw [outer_newScope] at made
    split at made
    next last =>
      rw [last]
      exact older outer made
    next =>
      exact ordered.parents scope outer made
  sound := sound_newScope ordered.sound parent
  functions id own owned := by
    rw [length_newScope]
    exact Nat.lt_succ_of_lt (ordered.functions id own owned)
  scopeHandles handle scope held := by
    rw [length_newScope]
    exact Nat.lt_succ_of_lt (ordered.scopeHandles handle scope held)
  symbolHandles := ordered.symbolHandles

theorem added (ordered : store.Ordered)
    (made : ∀ own, symbol.scope? = some own → own < store.scopes.length) :
    (store.added symbol).Ordered :=
  { ordered with
    sound := by
      intro scope entry listed
      obtain ⟨known, found⟩ := ordered.sound scope entry listed
      exact ⟨known,
        (List.getElem?_append_left (lt_of_symbol found)).trans found⟩
    functions := by
      intro id own owned
      rw [functionScope_added] at owned
      split at owned
      next => exact made own owned
      next => exact ordered.functions id own owned
    symbolHandles := by
      intro handle id held
      rw [Store.added, List.length_append]
      exact Nat.lt_add_right _ (ordered.symbolHandles handle id held) }

theorem bound (ordered : store.Ordered)
    (inside : scope < store.scopes.length) (name : String)
    (made : ∀ own, symbol.scope? = some own → own < store.scopes.length) :
    (store.bound scope name symbol).Ordered where
  parents other outer made := by
    rw [outer_bound] at made
    exact ordered.parents other outer made
  sound := (bound_extends ordered.sound name symbol inside).sound
  functions id own owned := by
    rw [Store.bound, List.length_modify]
    exact (ordered.added made).functions id own owned
  scopeHandles handle other held := by
    rw [Store.bound, List.length_modify]
    exact ordered.scopeHandles handle other held
  symbolHandles := (ordered.added made).symbolHandles

end Ordered

end Store

end ContractCompiler
