/-
What declaring a contract leaves behind.

Binding a name changes one scope and adds one symbol.  So the scope of a
function binds exactly its parameters when the function is compiled, whether
or not other functions have bound variables of their own before.
-/

import Mathlib.Data.List.Forall2
import Mathlib.Data.List.Nodup
import ContractCompiler.Compile

namespace ContractCompiler

/-! ### Binding a name -/

theorem lookup_eq_none_iff_not_mem {α : Type} {names : List (String × α)}
    {name : String} :
    names.lookup name = none ↔ name ∉ names.map Prod.fst := by
  rw [List.lookup_eq_none_iff, List.mem_map]
  constructor
  · rintro apart ⟨entry, member, rfl⟩
    exact absurd (apart entry member) (by simp)
  · intro absent entry member
    rw [bne_iff_ne]
    rintro rfl
    exact absent ⟨entry, member, rfl⟩

/-- Every member of a list has a partner in the list that it is paired
with. -/
theorem exists_of_forall₂ {α β : Type} {related : α → β → Prop}
    {first : List α} {second : List β}
    (paired : List.Forall₂ related first second) :
    ∀ item ∈ first, ∃ partner ∈ second, related item partner := by
  induction paired with
  | nil =>
      exact nofun
  | cons head tail inductionHypothesis =>
      intro item member
      rcases List.mem_cons.mp member with rfl | member
      · exact ⟨_, List.mem_cons_self, head⟩
      · rcases inductionHypothesis item member with
          ⟨partner, inside, there⟩
        exact ⟨partner, List.mem_cons_of_mem _ inside, there⟩

theorem Symbol.ofType_eq_ok {type : ValueType} (name : String)
    (proper : type ≠ .void) :
    ∃ symbol, ofType type name = .ok symbol ∧
      symbol.valueType? = some type := by
  cases type with
  | void => exact absurd rfl proper
  | int => exact ⟨_, rfl, rfl⟩
  | string => exact ⟨_, rfl, rfl⟩
  | bool => exact ⟨_, rfl, rfl⟩

namespace Store

def Sound (store : Store) : Prop :=
  ∀ scope, ∀ entry ∈ store.bindings scope,
    ∃ symbol, store.symbol? entry.2 = some symbol

def bound (store : Store) (scope : ScopeId) (name : String)
    (symbol : Symbol) : Store :=
  { store with
    symbols := store.symbols ++ [symbol]
    scopes := store.scopes.modify scope fun table =>
      { table with
        bindings := table.bindings ++ [(name, store.symbols.length)] } }

/-- A store in which one scope may bind more names than in another one. -/
structure Extends (old new : Store) (scope : ScopeId) : Prop where
  bindings : ∀ other, other ≠ scope → new.bindings other = old.bindings other
  symbols : ∀ id symbol, old.symbol? id = some symbol →
    new.symbol? id = some symbol
  scopes : new.scopes.length = old.scopes.length
  sound : new.Sound

variable {old new store : Store} {scope other : ScopeId} {name : String}

theorem Extends.refl (sound : store.Sound) : store.Extends store scope :=
  ⟨fun _ _ => rfl, fun _ _ found => found, rfl, sound⟩

theorem Extends.trans {last : Store} (first : old.Extends new scope)
    (second : new.Extends last scope) : old.Extends last scope where
  bindings other apart :=
    (second.bindings other apart).trans (first.bindings other apart)
  symbols id symbol found :=
    second.symbols id symbol (first.symbols id symbol found)
  scopes := second.scopes.trans first.scopes
  sound := second.sound

/-- The variables of other scopes stay as they are. -/
theorem Extends.typedNames (extended : old.Extends new scope)
    (sound : old.Sound) (apart : other ≠ scope) :
    new.typedNames other = old.typedNames other := by
  unfold Store.typedNames
  rw [extended.bindings other apart]
  refine List.filterMap_congr ?_
  intro entry member
  rcases sound other entry member with ⟨symbol, found⟩
  simp only [found, extended.symbols _ _ found]

private theorem Extends.functionScope (extended : old.Extends new scope)
    {id : SymbolId} {own : ScopeId}
    (found : old.functionScope? id = some own) :
    new.functionScope? id = some own := by
  rcases Option.bind_eq_some_iff.mp found with ⟨symbol, known, owning⟩
  exact Option.bind_eq_some_iff.mpr
    ⟨symbol, extended.symbols _ _ known, owning⟩

theorem bindSymbol_eq (symbol : Symbol) :
    store.bindSymbol scope name symbol =
      if name ∈ (store.bindings scope).map Prod.fst then
        .error (.redefined name)
      else .ok (store.symbols.length, store.bound scope name symbol) := by
  unfold bindSymbol resolveLocal?
  split
  · next symbol found =>
      have bound : name ∈ (store.bindings scope).map Prod.fst := by
        by_contra absent
        rw [lookup_eq_none_iff_not_mem.mpr absent] at found
        contradiction
      rw [if_pos bound]
  · next missing =>
      rw [if_neg (lookup_eq_none_iff_not_mem.mp missing)]
      rfl

theorem bindings_bound (symbol : Symbol)
    (inside : scope < store.scopes.length) :
    (store.bound scope name symbol).bindings scope =
      store.bindings scope ++ [(name, store.symbols.length)] := by
  simp only [bindings, bound, List.getElem?_modify, if_true,
    List.getElem?_eq_getElem inside, Option.map_eq_map, Option.map_some]

theorem bindings_bound_of_ne (symbol : Symbol) (apart : other ≠ scope) :
    (store.bound scope name symbol).bindings other =
      store.bindings other := by
  simp only [bindings, bound, List.getElem?_modify, if_neg apart.symm,
    Option.map_eq_map, Option.map_id']

theorem symbol_bound (symbol : Symbol) :
    (store.bound scope name symbol).symbol? store.symbols.length =
      some symbol := by
  simp only [symbol?, bound, List.getElem?_append_right (Nat.le_refl _),
    Nat.sub_self, List.getElem?_cons_zero]

private theorem symbol_bound_of_known {id : SymbolId} {known : Symbol}
    (symbol : Symbol) (found : store.symbol? id = some known) :
    (store.bound scope name symbol).symbol? id = some known := by
  have inside : id < store.symbols.length :=
    (List.getElem?_eq_some_iff.mp found).1
  simp only [symbol?, bound, List.getElem?_append_left inside]
  exact found

theorem bound_extends (sound : store.Sound) (name : String)
    (symbol : Symbol) (inside : scope < store.scopes.length) :
    store.Extends (store.bound scope name symbol) scope where
  bindings other apart := bindings_bound_of_ne symbol apart
  symbols id known found := symbol_bound_of_known symbol found
  scopes := List.length_modify ..
  sound := by
    intro other entry member
    by_cases same : other = scope
    · subst same
      rw [bindings_bound symbol inside, List.mem_append] at member
      rcases member with member | member
      · rcases sound other entry member with ⟨known, found⟩
        exact ⟨known, symbol_bound_of_known symbol found⟩
      · rw [List.mem_singleton.mp member]
        exact ⟨symbol, symbol_bound symbol⟩
    · rw [bindings_bound_of_ne symbol same] at member
      rcases sound other entry member with ⟨known, found⟩
      exact ⟨known, symbol_bound_of_known symbol found⟩

private theorem typedNames_bound (sound : store.Sound) {symbol : Symbol}
    {type : ValueType} (typed : symbol.valueType? = some type)
    (inside : scope < store.scopes.length) :
    (store.bound scope name symbol).typedNames scope =
      store.typedNames scope ++ [(name, type)] := by
  unfold typedNames
  rw [bindings_bound symbol inside, List.filterMap_append]
  congr 1
  · refine List.filterMap_congr ?_
    intro entry member
    rcases sound scope entry member with ⟨known, found⟩
    simp only [found, symbol_bound_of_known symbol found]
  · simp only [List.filterMap_cons, List.filterMap_nil, symbol_bound,
      Option.bind_some, typed, Option.map_some]

theorem defineVariable_void (identifier : String) :
    store.defineVariable scope name .void identifier =
      .error (.voidBinding identifier) := rfl

theorem defineVariable_of_bound {type : ValueType} (identifier : String)
    (proper : type ≠ .void)
    (taken : name ∈ (store.bindings scope).map Prod.fst) :
    store.defineVariable scope name type identifier =
      .error (.redefined name) := by
  rcases Symbol.ofType_eq_ok identifier proper with
    ⟨symbol, made, _⟩
  simp only [defineVariable, made, bindSymbol_eq, if_pos taken]
  rfl

theorem defineVariable_of_free {type : ValueType} (identifier : String)
    (proper : type ≠ .void)
    (free : name ∉ (store.bindings scope).map Prod.fst) :
    ∃ symbol, symbol.valueType? = some type ∧
      store.defineVariable scope name type identifier =
        .ok (store.symbols.length, store.bound scope name symbol) := by
  rcases Symbol.ofType_eq_ok identifier proper with
    ⟨symbol, made, typed⟩
  refine ⟨symbol, typed, ?_⟩
  simp only [defineVariable, made, bindSymbol_eq, if_neg free]
  rfl

/-- A variable that is bound leaves one more name in its scope, of its
type. -/
theorem defineVariable_eq_ok {type : ValueType} {identifier : String}
    {id : SymbolId} (sound : old.Sound)
    (inside : scope < old.scopes.length)
    (defined : old.defineVariable scope name type identifier =
      .ok (id, new)) :
    type ≠ .void ∧ name ∉ (old.bindings scope).map Prod.fst ∧
      old.Extends new scope ∧
      (new.bindings scope).map Prod.fst =
        (old.bindings scope).map Prod.fst ++ [name] ∧
      new.typedNames scope = old.typedNames scope ++ [(name, type)] := by
  have proper : type ≠ .void := by
    rintro rfl
    rw [defineVariable_void] at defined
    contradiction
  have free : name ∉ (old.bindings scope).map Prod.fst := by
    intro taken
    rw [defineVariable_of_bound identifier proper taken] at defined
    contradiction
  rcases defineVariable_of_free identifier proper free with
    ⟨symbol, typed, made⟩
  rw [made] at defined
  cases defined
  refine ⟨proper, free, bound_extends sound name symbol inside, ?_,
    typedNames_bound sound typed inside⟩
  rw [bindings_bound symbol inside, List.map_append]
  rfl

end Store

/-! ### Parameters -/

def Function.typedParameters (function : Function) :
    List (String × ValueType) :=
  function.parameters.map fun parameter => (parameter.name, parameter.type)

theorem declareParameters_eq_ok {store new : Store} {scope : ScopeId}
    {parameters : List Parameter} (sound : store.Sound)
    (inside : scope < store.scopes.length)
    (declared : declareParameters store scope parameters = .ok new) :
    (parameters.map Parameter.name).Nodup ∧
      (∀ parameter ∈ parameters, parameter.type ≠ .void ∧
        parameter.name ∉ (store.bindings scope).map Prod.fst) ∧
      store.Extends new scope ∧
      new.typedNames scope = store.typedNames scope ++
        parameters.map fun parameter => (parameter.name, parameter.type) := by
  induction parameters generalizing store with
  | nil =>
      cases declared
      refine ⟨List.nodup_nil, List.forall_mem_nil _, .refl sound, ?_⟩
      rw [List.map_nil, List.append_nil]
  | cons parameter rest inductionHypothesis =>
      rw [declareParameters] at declared
      split at declared
      · cases declared
      next id next defined =>
      rcases Store.defineVariable_eq_ok sound inside defined with
        ⟨proper, free, extended, names, typed⟩
      rcases inductionHypothesis extended.sound
          (by rw [extended.scopes]; exact inside) declared with
        ⟨distinct, others, extendedToo, typedToo⟩
      rw [names] at others
      refine ⟨?_, ?_, extended.trans extendedToo, ?_⟩
      · rw [List.map_cons, List.nodup_cons]
        refine ⟨?_, distinct⟩
        intro repeated
        rcases List.mem_map.mp repeated with ⟨other, member, same⟩
        refine (others other member).2 ?_
        rw [same]
        exact List.mem_append_right _ (List.mem_singleton_self _)
      · intro other member
        rcases List.mem_cons.mp member with rfl | member
        · exact ⟨proper, free⟩
        · refine ⟨(others other member).1, ?_⟩
          intro taken
          exact (others other member).2 (List.mem_append_left _ taken)
      · rw [typedToo, typed, List.append_assoc]
        rfl

private theorem declareParameters_succeeds {store : Store} {scope : ScopeId}
    {parameters : List Parameter} (sound : store.Sound)
    (inside : scope < store.scopes.length)
    (distinct : (parameters.map Parameter.name).Nodup)
    (proper : ∀ parameter ∈ parameters, parameter.type ≠ .void ∧
      parameter.name ∉ (store.bindings scope).map Prod.fst) :
    ∃ new, declareParameters store scope parameters = .ok new := by
  induction parameters generalizing store with
  | nil =>
      exact ⟨store, rfl⟩
  | cons parameter rest inductionHypothesis =>
      rw [List.map_cons, List.nodup_cons] at distinct
      rcases proper parameter List.mem_cons_self with ⟨typed, free⟩
      rcases Store.defineVariable_of_free parameter.name typed free with
        ⟨symbol, _, defined⟩
      rcases Store.defineVariable_eq_ok sound inside defined with
        ⟨_, _, extended, names, _⟩
      rw [declareParameters, defined]
      refine inductionHypothesis extended.sound
        (by rw [extended.scopes]; exact inside) distinct.2 ?_
      intro other member
      rcases proper other (List.mem_cons_of_mem _ member) with
        ⟨typedToo, freeToo⟩
      refine ⟨typedToo, ?_⟩
      rw [names, List.mem_append, List.mem_singleton]
      rintro (taken | same)
      · exact freeToo taken
      · exact distinct.1 (same ▸ List.mem_map_of_mem member)

/-! ### Functions -/

namespace Store

variable {store old new : Store} {scope own changed : ScopeId}
  {function : Function}

theorem bindings_newScope (store : Store) (parent : Option ScopeId)
    (scope : ScopeId) :
    (store.newScope parent).2.bindings scope = store.bindings scope := by
  simp only [bindings, newScope]
  rcases Nat.lt_trichotomy scope store.scopes.length with
    inside | rfl | outside
  · rw [List.getElem?_append_left inside]
  · rw [List.getElem?_append_right (Nat.le_refl _), Nat.sub_self,
      List.getElem?_eq_none (Nat.le_refl _)]
    rfl
  · rw [List.getElem?_eq_none (Nat.le_of_lt outside),
      List.getElem?_eq_none]
    rw [List.length_append]
    exact outside

theorem sound_newScope (sound : store.Sound) (parent : Option ScopeId) :
    (store.newScope parent).2.Sound := by
  intro scope entry member
  rw [bindings_newScope] at member
  exact sound scope entry member

private theorem typedNames_newScope (store : Store) (parent : Option ScopeId)
    (scope : ScopeId) :
    (store.newScope parent).2.typedNames scope = store.typedNames scope := by
  unfold typedNames
  rw [bindings_newScope]
  rfl

structure Holds (store : Store) (scope : ScopeId) (function : Function)
    (own : ScopeId) : Prop where
  apart : own ≠ scope
  inside : own < store.scopes.length
  found : (store.resolveLocal? scope function.name).bind
    store.functionScope? = some own
  typed : store.typedNames own = function.typedParameters

/-- More names in another scope change nothing for a function. -/
theorem Holds.extends (held : old.Holds scope function own)
    (sound : old.Sound) (extended : old.Extends new changed)
    (elsewhere : changed ≠ scope) (unchanged : changed ≠ own) :
    new.Holds scope function own where
  apart := held.apart
  inside := by
    rw [extended.scopes]
    exact held.inside
  found := by
    rcases Option.bind_eq_some_iff.mp held.found with ⟨id, bound, owning⟩
    refine Option.bind_eq_some_iff.mpr
      ⟨id, ?_, extended.functionScope owning⟩
    rw [resolveLocal?, extended.bindings scope elsewhere.symm]
    exact bound
  typed := by
    rw [extended.typedNames sound unchanged.symm]
    exact held.typed

/-- A new function in the same scope changes nothing for a function. -/
theorem Holds.bound (held : store.Holds scope function own)
    (sound : store.Sound) (inside : scope < store.scopes.length)
    (name : String) (symbol : Symbol) :
    (store.bound scope name symbol).Holds scope function own where
  apart := held.apart
  inside := by
    rw [(bound_extends sound name symbol inside).scopes]
    exact held.inside
  found := by
    have extended := bound_extends sound name symbol inside
    rcases Option.bind_eq_some_iff.mp held.found with ⟨id, bound, owning⟩
    refine Option.bind_eq_some_iff.mpr
      ⟨id, ?_, extended.functionScope owning⟩
    rw [resolveLocal?] at bound ⊢
    rw [bindings_bound symbol inside, List.lookup_append, bound]
    rfl
  typed := by
    rw [(bound_extends sound name symbol inside).typedNames sound held.apart]
    exact held.typed

private theorem Holds.newScope (held : store.Holds scope function own)
    (parent : Option ScopeId) :
    (store.newScope parent).2.Holds scope function own where
  apart := held.apart
  inside := by
    show own < (store.scopes ++ [_]).length
    rw [List.length_append]
    exact Nat.lt_add_right 1 held.inside
  found := by
    rw [resolveLocal?, bindings_newScope]
    exact held.found
  typed := by
    rw [typedNames_newScope]
    exact held.typed

def withFunction (store : Store) (scope : ScopeId) (function : Function) :
    Store :=
  (store.newScope (some scope)).2.bound scope function.name
    ⟨.function store.scopes.length, function.name⟩

theorem length_newScope (store : Store) (parent : Option ScopeId) :
    (store.newScope parent).2.scopes.length = store.scopes.length + 1 :=
  List.length_append

theorem declareFunction_eq (store : Store) (scope : ScopeId)
    (function : Function) :
    declareFunction store scope function =
      if function.name ∈ (store.bindings scope).map Prod.fst then
        .error (.redefined function.name)
      else
        declareParameters (store.withFunction scope function)
          store.scopes.length function.parameters := by
  have defined : store.defineFunction scope function.name function.name
      scope =
      (store.newScope (some scope)).2.bindSymbol scope function.name
        ⟨.function store.scopes.length, function.name⟩ := rfl
  rw [declareFunction, defined, bindSymbol_eq, bindings_newScope]
  by_cases taken : function.name ∈ (store.bindings scope).map Prod.fst
  · rw [if_pos taken, if_pos taken]
  · have owning : (store.withFunction scope function).functionScope?
        (store.newScope (some scope)).2.symbols.length =
          some store.scopes.length := by
      rw [functionScope?, withFunction, symbol_bound]
      rfl
    rw [if_neg taken, if_neg taken, ← withFunction]
    simp only [owning]

theorem withFunction_extends (function : Function) (sound : store.Sound)
    (inside : scope < store.scopes.length) :
    (store.newScope (some scope)).2.Extends
      (store.withFunction scope function) scope :=
  bound_extends (sound_newScope sound _) _ _
    (by rw [length_newScope]; exact Nat.lt_succ_of_lt inside)

theorem withFunction_own (function : Function) (sound : store.Sound)
    (inside : scope < store.scopes.length) :
    store.scopes.length ≠ scope ∧
      (store.withFunction scope function).bindings store.scopes.length =
        [] := by
  have apart : store.scopes.length ≠ scope := (Nat.ne_of_lt inside).symm
  refine ⟨apart, ?_⟩
  rw [(withFunction_extends function sound inside).bindings _ apart,
    bindings_newScope, bindings, List.getElem?_eq_none (Nat.le_refl _)]

private theorem withFunction_names (function : Function)
    (inside : scope < store.scopes.length) :
    ((store.withFunction scope function).bindings scope).map Prod.fst =
      (store.bindings scope).map Prod.fst ++ [function.name] := by
  rw [withFunction, bindings_bound, bindings_newScope, List.map_append]
  · rfl
  · rw [length_newScope]
    exact Nat.lt_succ_of_lt inside

/-- The function that was just bound is found. -/
theorem withFunction_found (inside : scope < store.scopes.length)
    (free : function.name ∉ (store.bindings scope).map Prod.fst) :
    ((store.withFunction scope function).resolveLocal? scope
        function.name).bind
      (store.withFunction scope function).functionScope? =
        some store.scopes.length := by
  have insideToo : scope < (store.newScope (some scope)).2.scopes.length := by
    rw [length_newScope]
    exact Nat.lt_succ_of_lt inside
  rw [resolveLocal?, withFunction, bindings_bound _ insideToo,
    bindings_newScope, List.lookup_append,
    lookup_eq_none_iff_not_mem.mpr free, Option.none_or, List.lookup_cons,
    beq_self_eq_true, Option.bind_some, functionScope?, symbol_bound]
  rfl

end Store

/-- A declared function is held by its scope, and so are the functions that
were declared before. -/
theorem declareFunction_eq_ok {store new : Store} {scope : ScopeId}
    {function : Function} (sound : store.Sound)
    (inside : scope < store.scopes.length)
    (declared : declareFunction store scope function = .ok new) :
    function.name ∉ (store.bindings scope).map Prod.fst ∧
      (function.parameters.map Parameter.name).Nodup ∧
      (∀ parameter ∈ function.parameters, parameter.type ≠ .void) ∧
      new.Sound ∧ new.scopes.length = store.scopes.length + 1 ∧
      (new.bindings scope).map Prod.fst =
        (store.bindings scope).map Prod.fst ++ [function.name] ∧
      new.Holds scope function store.scopes.length ∧
      ∀ other own, store.Holds scope other own →
        new.Holds scope other own := by
  have extended := Store.withFunction_extends function sound inside
  rcases Store.withFunction_own function sound inside with ⟨apart, empty⟩
  have ownInside : store.scopes.length <
      (store.withFunction scope function).scopes.length := by
    rw [extended.scopes, Store.length_newScope]
    exact Nat.lt_succ_self _
  rw [Store.declareFunction_eq] at declared
  split at declared
  · cases declared
  next free =>
  rcases declareParameters_eq_ok extended.sound ownInside declared with
    ⟨distinct, proper, extendedToo, typed⟩
  have unchanged := extendedToo.bindings scope apart.symm
  refine ⟨free, distinct, fun parameter member => (proper parameter member).1,
    extendedToo.sound, ?_, ?_, ?_, ?_⟩
  · rw [extendedToo.scopes, extended.scopes, Store.length_newScope]
  · rw [unchanged, Store.withFunction_names function inside]
  · refine ⟨apart, by rw [extendedToo.scopes]; exact ownInside, ?_, ?_⟩
    · rcases Option.bind_eq_some_iff.mp
          (Store.withFunction_found inside free) with ⟨id, bound, owning⟩
      refine Option.bind_eq_some_iff.mpr
        ⟨id, ?_, extendedToo.functionScope owning⟩
      rw [Store.resolveLocal?, unchanged]
      exact bound
    · rw [typed, Store.typedNames, empty]
      rfl
  · intro other own held
    have heldBefore : (store.withFunction scope function).Holds scope other
        own :=
      (held.newScope (some scope)).bound (Store.sound_newScope sound _)
        (by rw [Store.length_newScope]; exact Nat.lt_succ_of_lt inside) _ _
    exact heldBefore.extends extended.sound extendedToo apart
      (Nat.ne_of_gt held.inside)

private theorem declareFunction_succeeds {store : Store} {scope : ScopeId}
    {function : Function} (sound : store.Sound)
    (inside : scope < store.scopes.length)
    (free : function.name ∉ (store.bindings scope).map Prod.fst)
    (distinct : (function.parameters.map Parameter.name).Nodup)
    (proper : ∀ parameter ∈ function.parameters, parameter.type ≠ .void) :
    ∃ new, declareFunction store scope function = .ok new := by
  have extended := Store.withFunction_extends function sound inside
  rcases Store.withFunction_own function sound inside with ⟨apart, empty⟩
  rw [Store.declareFunction_eq, if_neg free]
  refine declareParameters_succeeds extended.sound ?_ distinct ?_
  · rw [extended.scopes, Store.length_newScope]
    exact Nat.lt_succ_self _
  · intro parameter member
    refine ⟨proper parameter member, ?_⟩
    rw [empty]
    exact List.not_mem_nil

/-! ### Contracts -/

structure Store.Declared (store : Store) (scope : ScopeId)
    (functions : List Function) (owns : List ScopeId) : Prop where
  sound : store.Sound
  inside : scope < store.scopes.length
  names : (store.bindings scope).map Prod.fst = functions.map Function.name
  held : List.Forall₂ (store.Holds scope) functions owns
  distinct : owns.Nodup

/-- No two functions have the same name, no two parameters of a function have
the same name, and every parameter has a type other than `void`. -/
structure Declarable (functions : List Function) : Prop where
  names : (functions.map Function.name).Nodup
  parameters : ∀ function ∈ functions,
    (function.parameters.map Parameter.name).Nodup
  proper : ∀ function ∈ functions, ∀ parameter ∈ function.parameters,
    parameter.type ≠ .void

private theorem Store.Declared.fresh {store : Store} {scope : ScopeId}
    {functions : List Function} {owns : List ScopeId}
    (declared : store.Declared scope functions owns) :
    store.scopes.length ∉ owns := by
  intro member
  rcases exists_of_forall₂ declared.held.flip _ member with ⟨_, _, held⟩
  exact Nat.lt_irrefl _ held.inside

/-- Declaring one more function. -/
theorem Store.Declared.step {store new : Store} {scope : ScopeId}
    {functions : List Function} {owns : List ScopeId} {function : Function}
    (declared : store.Declared scope functions owns)
    (stepped : declareFunction store scope function = .ok new) :
    new.Declared scope (functions ++ [function])
      (owns ++ [store.scopes.length]) := by
  rcases declareFunction_eq_ok declared.sound declared.inside stepped with
    ⟨_, _, _, sound, length, names, held, kept⟩
  refine ⟨sound, ?_, ?_, ?_, ?_⟩
  · rw [length]
    exact Nat.lt_succ_of_lt declared.inside
  · rw [names, declared.names, List.map_append]
    rfl
  · exact List.rel_append (declared.held.imp kept) (.cons held .nil)
  · rw [← List.concat_eq_append]
    exact declared.distinct.concat declared.fresh

theorem Declarable.step {functions : List Function} {function : Function}
    (declarable : Declarable functions)
    (free : function.name ∉ functions.map Function.name)
    (distinct : (function.parameters.map Parameter.name).Nodup)
    (proper : ∀ parameter ∈ function.parameters, parameter.type ≠ .void) :
    Declarable (functions ++ [function]) where
  names := by
    rw [List.map_append, List.map_singleton, ← List.concat_eq_append]
    exact declarable.names.concat free
  parameters := by
    intro other member
    rcases List.mem_append.mp member with member | member
    · exact declarable.parameters other member
    · rw [List.mem_singleton.mp member]
      exact distinct
  proper := by
    intro other member
    rcases List.mem_append.mp member with member | member
    · exact declarable.proper other member
    · rw [List.mem_singleton.mp member]
      exact proper

private theorem declareFunctions_eq_ok {store new : Store} {scope : ScopeId}
    {before functions : List Function} {owns : List ScopeId}
    (declared : store.Declared scope before owns)
    (declarable : Declarable before)
    (finished : declareFunctions store scope functions = .ok new) :
    Declarable (before ++ functions) ∧
      ∃ all, new.Declared scope (before ++ functions) all := by
  -- The functions declared so far move to the front, one at a time.
  induction functions generalizing store before owns with
  | nil =>
      cases finished
      rw [List.append_nil]
      exact ⟨declarable, owns, declared⟩
  | cons function rest inductionHypothesis =>
      rw [declareFunctions] at finished
      split at finished
      · cases finished
      next next stepped =>
      rcases declareFunction_eq_ok declared.sound declared.inside stepped
        with ⟨free, distinct, proper, _⟩
      rw [declared.names] at free
      have whole := inductionHypothesis (declared.step stepped)
        (declarable.step free distinct proper) finished
      rw [List.append_assoc] at whole
      exact whole

private theorem declareFunctions_succeeds {store : Store} {scope : ScopeId}
    {before functions : List Function} {owns : List ScopeId}
    (declared : store.Declared scope before owns)
    (declarable : Declarable (before ++ functions)) :
    ∃ new, declareFunctions store scope functions = .ok new := by
  induction functions generalizing store before owns with
  | nil =>
      exact ⟨store, rfl⟩
  | cons function rest inductionHypothesis =>
      have member : function ∈ before ++ function :: rest :=
        List.mem_append_right _ List.mem_cons_self
      have free : function.name ∉ (store.bindings scope).map Prod.fst := by
        rw [declared.names]
        intro taken
        have distinct := declarable.names
        rw [List.map_append, List.nodup_append] at distinct
        exact distinct.2.2 _ taken _ List.mem_cons_self rfl
      rcases declareFunction_succeeds declared.sound declared.inside free
          (declarable.parameters function member)
          (declarable.proper function member) with
        ⟨next, stepped⟩
      rw [declareFunctions, stepped]
      refine inductionHypothesis (declared.step stepped) ?_
      rw [List.append_assoc]
      exact declarable

theorem Declarations.start_declared :
    start.store.Declared start.scope [] [] where
  sound := by
    intro scope entry member
    have empty : start.store.bindings scope = [] := by
      cases scope with
      | zero => rfl
      | succ scope => rfl
    rw [empty] at member
    cases member
  inside := Nat.zero_lt_one
  names := rfl
  held := .nil
  distinct := List.nodup_nil

theorem Contract.declare_eq_ok {contract : Contract}
    {declarations : Declarations}
    (declared : contract.declare = .ok declarations) :
    Declarable contract.functions ∧ ∃ owns,
      declarations.store.Declared declarations.scope contract.functions
        owns := by
  unfold declare at declared
  simp only at declared
  split at declared
  · cases declared
  next store finished =>
  cases declared
  exact declareFunctions_eq_ok Declarations.start_declared
    ⟨List.nodup_nil, List.forall_mem_nil _, List.forall_mem_nil _⟩ finished

theorem Contract.declare_succeeds {contract : Contract}
    (declarable : Declarable contract.functions) :
    ∃ declarations, contract.declare = .ok declarations := by
  rcases declareFunctions_succeeds Declarations.start_declared
    declarable with ⟨store, finished⟩
  exact ⟨⟨store, Declarations.start.scope⟩, by rw [declare, finished]⟩

end ContractCompiler
