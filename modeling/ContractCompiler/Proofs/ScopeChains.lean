/-
Names while scopes come and go.

However a program works on a store, a name stands for the symbol of the
nearest scope that binds it, on the way from parent to parent that ends where
a parent is gone.  A scope binds a name once and for all, and what it binds is
seen from the scopes below it only.
-/

import ContractCompiler.Proofs.ScopeOperations
import ContractCompiler.Proofs.TypeChecking

namespace ContractCompiler

namespace Store

variable {store old new : Store} {scope other : ScopeId} {name : String}

/-! ### Chains of parents -/

inductive Chain (store : Store) : ScopeId → List ScopeId → Prop where
  | last {scope : ScopeId}
      (ended : ∀ parent, store.outer? scope = some parent →
        ¬ store.Alive (.scope parent)) :
      Chain store scope [scope]
  | more {scope parent : ScopeId} {rest : List ScopeId}
      (made : store.outer? scope = some parent)
      (alive : store.Alive (.scope parent))
      (behind : Chain store parent rest) :
      Chain store scope (scope :: rest)

private theorem parent_eq (store : Store) (scope : ScopeId) :
    store.parent? scope = (store.outer? scope).filter store.isLiving := by
  unfold parent? outer?
  cases store.scopes[scope]? <;> rfl

theorem parent_eq_some (ordered : store.Ordered) {parent : ScopeId} :
    store.parent? scope = some parent ↔
      store.outer? scope = some parent ∧ store.Alive (.scope parent) := by
  rw [parent_eq, Option.filter_eq_some_iff,
    ← isAlive_iff ordered (.scope parent)]
  rfl

private theorem Chain.exists (ordered : store.Ordered) (scope : ScopeId) :
    ∃ scopes, store.Chain scope scopes := by
  induction scope using Nat.strong_induction_on with
  | _ scope inductionHypothesis =>
      cases found : store.parent? scope with
      | none =>
          refine ⟨[scope], .last ?_⟩
          intro parent made alive
          rw [(parent_eq_some ordered).mpr ⟨made, alive⟩] at found
          cases found
      | some parent =>
          obtain ⟨made, alive⟩ := (parent_eq_some ordered).mp found
          obtain ⟨rest, behind⟩ := inductionHypothesis parent
            (ordered.parents scope parent made)
          exact ⟨scope :: rest, .more made alive behind⟩

private theorem Chain.unique {first second : List ScopeId}
    (chain : store.Chain scope first) (chainToo : store.Chain scope second) :
    first = second := by
  induction chain generalizing second with
  | last ended =>
      cases chainToo with
      | last => rfl
      | more made alive => exact absurd alive (ended _ made)
  | more made alive behind inductionHypothesis =>
      cases chainToo with
      | last ended => exact absurd alive (ended _ made)
      | more madeToo aliveToo behindToo =>
          rw [made] at madeToo
          cases madeToo
          rw [inductionHypothesis behindToo]

/-- A name is looked up in one scope of the chain after the other. -/
theorem Chain.resolve_eq (ordered : store.Ordered) {scopes : List ScopeId}
    (chain : store.Chain scope scopes) (name : String) :
    store.resolve? scope name =
      scopes.findSome? fun scope => store.resolveLocal? scope name := by
  induction chain with
  | @last scope ended =>
      have none : store.parent? scope = none := by
        rw [Option.eq_none_iff_forall_ne_some]
        intro parent found
        obtain ⟨made, alive⟩ := (parent_eq_some ordered).mp found
        exact ended parent made alive
      rw [resolve?, none, List.findSome?_singleton]
      cases store.resolveLocal? scope name <;> rfl
  | @more scope parent rest made alive behind inductionHypothesis =>
      have found := (parent_eq_some ordered).mpr ⟨made, alive⟩
      rw [resolve?, found, List.findSome?_cons]
      cases store.resolveLocal? scope name with
      | some symbol => rfl
      | none =>
          simp only [if_pos (ordered.parents scope parent made)]
          exact inductionHypothesis

/-! ### What a definition changes -/

private theorem resolveLocal_bound_of_ne (symbol : Symbol)
    (inside : scope < store.scopes.length) {wanted : String}
    (apart : other ≠ scope ∨ wanted ≠ name) :
    (store.bound scope name symbol).resolveLocal? other wanted =
      store.resolveLocal? other wanted := by
  by_cases same : other = scope
  · have different : wanted ≠ name := apart.resolve_left (not_not.mpr same)
    rw [same, resolveLocal?, resolveLocal?, bindings_bound symbol inside,
      List.lookup_append, List.lookup_cons, beq_false_of_ne different]
    simp
  · rw [resolveLocal?, bindings_bound_of_ne symbol same, resolveLocal?]

theorem resolveLocal_bound (symbol : Symbol)
    (inside : scope < store.scopes.length)
    (free : store.resolveLocal? scope name = none) :
    (store.bound scope name symbol).resolveLocal? scope name =
      some store.symbols.length := by
  rw [resolveLocal?] at free
  rw [resolveLocal?, bindings_bound symbol inside, List.lookup_append, free]
  simp

structure Framed (old new : Store) (scope : ScopeId) (name : String) :
    Prop where
  scopeHandles : new.scopeHandles = old.scopeHandles
  symbolHandles : new.symbolHandles = old.symbolHandles
  resolveLocal : ∀ other wanted, other ≠ scope ∨ wanted ≠ name →
    new.resolveLocal? other wanted = old.resolveLocal? other wanted

private theorem framed_define (ordered : store.Ordered) (scope : ScopeId)
    (name : String) (definition : Definition) :
    store.Framed (store.perform (.define scope name definition)) scope
      name := by
  have unchanged : store.Framed store scope name :=
    ⟨rfl, rfl, fun _ _ _ => rfl⟩
  rcases perform_cases ordered (.define scope name definition) with
    same | ⟨held, same⟩
  · rw [same]
    exact unchanged
  · rw [same]
    rcases store.effect_define scope name definition with
      same | ⟨symbol, made, free, bound⟩
    · rw [same]
      exact unchanged
    · have inside : scope < (definition.base store).scopes.length :=
        Nat.lt_of_lt_of_le ((held _ List.mem_cons_self).has ordered)
          (definition.length_base store)
      rw [bound]
      constructor
      · cases definition <;> rfl
      · cases definition <;> rfl
      · intro other wanted apart
        rw [resolveLocal_bound_of_ne symbol inside apart, resolveLocal?,
          definition.bindings_base, resolveLocal?]

private theorem Chain.later {scopes : List ScopeId} (ordered : old.Ordered)
    (grows : old.Grows new) (framed : old.Framed new scope name)
    (chain : old.Chain other scopes) (made : other < old.scopes.length) :
    new.Chain other scopes := by
  induction chain with
  | @last other ended =>
      apply Chain.last
      intro parent found alive
      rw [grows.outer other made] at found
      have before : parent < old.scopes.length :=
        Nat.lt_trans (ordered.parents other parent found) made
      exact ended parent found (grows.alive alive before)
  | @more other parent rest found alive behind inductionHypothesis =>
      rw [← grows.outer other made] at found
      exact .more found
        (grows.alive_later framed.scopeHandles framed.symbolHandles alive)
        (inductionHypothesis (alive.has ordered))

/-- A definition is seen only along a chain through its scope, and only under
its name. -/
theorem resolve_framed {scopes : List ScopeId} {wanted : String}
    (ordered : old.Ordered) (orderedToo : new.Ordered)
    (grows : old.Grows new) (framed : old.Framed new scope name)
    (chain : old.Chain other scopes) (made : other < old.scopes.length)
    (apart : scope ∉ scopes ∨ wanted ≠ name) :
    new.resolve? other wanted = old.resolve? other wanted := by
  have same : ∀ place ∈ scopes, new.resolveLocal? place wanted =
      old.resolveLocal? place wanted := by
    intro place member
    apply framed.resolveLocal
    rcases apart with outside | different
    · exact Or.inl (ne_of_mem_of_not_mem member outside)
    · exact Or.inr different
  rw [chain.resolve_eq ordered,
    (chain.later ordered grows framed made).resolve_eq orderedToo,
    ← List.head?_filterMap, ← List.head?_filterMap,
    List.filterMap_congr same]

/-- A definition of a symbol is accepted unless its scope binds the name, and
then the name stands for that symbol. -/
theorem define_accepted (ordered : store.Ordered)
    (alive : store.Alive (.scope scope)) {definition : Definition}
    (proper : definition.isVoid = false)
    (free : store.resolveLocal? scope name = none) :
    ∃ id new, store.define scope name definition = .ok (id, new) ∧
      store.symbol? id = none ∧ new.resolveLocal? scope name = some id := by
  obtain ⟨symbol, made⟩ := Definition.symbolIn_eq_ok store proper
  refine ⟨_, _, (define_eq made).trans (if_pos free), ?_, ?_⟩
  · exact List.getElem?_eq_none (Nat.le_refl _)
  · have inside : scope < (definition.base store).scopes.length :=
      Nat.lt_of_lt_of_le (alive.has ordered) (definition.length_base store)
    have freeToo : (definition.base store).resolveLocal? scope name =
        none := by
      rw [resolveLocal?, definition.bindings_base]
      exact free
    rw [resolveLocal_bound symbol inside freeToo, definition.symbols_base]

private theorem define_refused {definition : Definition}
    (proper : definition.isVoid = false)
    (taken : store.resolveLocal? scope name ≠ none) :
    store.define scope name definition = .error (.redefined name) := by
  obtain ⟨symbol, made⟩ := Definition.symbolIn_eq_ok store proper
  exact (define_eq made).trans (if_neg taken)

/-- What a scope binds to a name it binds to it from then on. -/
theorem run_keeps_binding (ordered : store.Ordered)
    (later : List Operation) {id : SymbolId}
    (alive : (store.run later).Alive (.scope scope))
    (bound : store.resolveLocal? scope name = some id) :
    (store.run later).resolve? scope name = some id ∧
      (store.run later).Alive (.symbol id) ∧
      ∃ symbol, store.symbol? id = some symbol ∧
        (store.run later).symbol? id = some symbol := by
  have grows := (Grows.refl store).run ordered later
  have boundToo := grows.resolveLocal_eq_some bound
  obtain ⟨symbol, known⟩ := ordered.sound scope _ (mem_of_lookup bound)
  refine ⟨?_, .binding (mem_of_lookup boundToo) alive, symbol, known, ?_⟩
  · rw [resolve?, boundToo]
  · rw [grows.symbol_eq (lt_of_symbol known)]
    exact known

/-- However scopes and symbols are made, held and let go, a name in a scope
stands for what the nearest scope on its chain binds.  A name is defined
unless its own scope binds it, it keeps its symbol as long as that scope
lives, and a definition is seen along chains through its scope only. -/
theorem names_over_runs (operations : List Operation) :
    let store := empty.run operations
    (∀ item, store.isAlive item = true ↔ store.Alive item) ∧
    (∀ scope, store.Alive (.scope scope) →
      (∃! scopes, store.Chain scope scopes) ∧
      ∀ scopes, store.Chain scope scopes → ∀ name,
        store.resolve? scope name =
          scopes.findSome? fun place => store.resolveLocal? place name) ∧
    (∀ scope name definition, store.Alive (.scope scope) →
      definition.isVoid = false →
      (store.resolveLocal? scope name = none →
        ∃ id new, store.define scope name definition = .ok (id, new) ∧
          store.symbol? id = none ∧
          new.resolveLocal? scope name = some id) ∧
      (store.resolveLocal? scope name ≠ none →
        store.define scope name definition = .error (.redefined name))) ∧
    (∀ later scope name id, (store.run later).Alive (.scope scope) →
      store.resolveLocal? scope name = some id →
        (store.run later).resolve? scope name = some id ∧
          (store.run later).Alive (.symbol id) ∧
          ∃ symbol, store.symbol? id = some symbol ∧
            (store.run later).symbol? id = some symbol) ∧
    ∀ scope name definition other scopes wanted,
      store.Alive (.scope other) → store.Chain other scopes →
      scope ∉ scopes ∨ wanted ≠ name →
        (store.perform (.define scope name definition)).resolve? other
            wanted =
          store.resolve? other wanted := by
  intro store
  have ordered : store.Ordered := Ordered.empty.run operations
  refine ⟨isAlive_iff ordered, ?_, ?_, ?_, ?_⟩
  · intro scope alive
    obtain ⟨scopes, chain⟩ := Chain.exists ordered scope
    refine ⟨⟨scopes, chain, fun others chainToo => chainToo.unique chain⟩, ?_⟩
    intro others chainToo
    exact chainToo.resolve_eq ordered
  · intro scope name definition alive proper
    exact ⟨define_accepted ordered alive proper, define_refused proper⟩
  · intro later scope name id
    exact run_keeps_binding ordered later
  · intro scope name definition other scopes wanted alive chain apart
    have step := perform_step ordered (.define scope name definition)
    exact resolve_framed ordered (ordered.step step)
      ((Grows.refl store).step ordered step)
      (framed_define ordered scope name definition) chain
      (alive.has ordered) apart

/-- A scope that outlives its parent no longer sees the names bound there. -/
theorem name_lost_with_parent :
    let held := empty.run [.new "outer", .enclosed "inner" 0,
      .define 0 "x" (.typed .int "x")]
    let dropped := empty.run [.new "outer", .enclosed "inner" 0,
      .define 0 "x" (.typed .int "x"), .dropScope "outer"]
    held.Chain 1 [1, 0] ∧ held.resolve? 1 "x" = some 0 ∧
      dropped.Chain 1 [1] ∧ dropped.resolve? 1 "x" = none := by
  intro held dropped
  obtain ⟨life, chains, _⟩ := names_over_runs [.new "outer",
    .enclosed "inner" 0, .define 0 "x" (.typed .int "x")]
  obtain ⟨lifeToo, chainsToo, _⟩ := names_over_runs [.new "outer",
    .enclosed "inner" 0, .define 0 "x" (.typed .int "x"),
    .dropScope "outer"]
  have whole : held.Chain 1 [1, 0] := by
    refine .more rfl ((life (.scope 0)).mp (by decide)) (.last ?_)
    intro parent made
    cases made
  have cut : dropped.Chain 1 [1] := by
    apply Chain.last
    intro parent made alive
    cases made
    exact absurd ((lifeToo (.scope 0)).mpr alive) (by decide)
  refine ⟨whole, ?_, cut, ?_⟩
  · exact (chains 1 ((life (.scope 1)).mp (by decide))).2 _ whole "x"
  · exact (chainsToo 1 ((lifeToo (.scope 1)).mp (by decide))).2 _ cut "x"

end Store

end ContractCompiler
