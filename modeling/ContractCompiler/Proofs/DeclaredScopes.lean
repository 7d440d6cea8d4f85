/-
The scopes of a declared contract.

A contract can be declared exactly when no name is bound twice in a scope and
no parameter is `void`.  Its outermost scope then binds the functions and
nothing else.  Each function has a scope of its own below the outermost one,
which binds the parameters of that function and nothing else.  Otherwise the
first violation that is met in reading order is reported.
-/

import ContractCompiler.Proofs.DeclarationFailures
import ContractCompiler.Proofs.ScopeChains

namespace ContractCompiler

/-! ### The first violation -/

structure Bindable (parameters : List Parameter) : Prop where
  names : (parameters.map Parameter.name).Nodup
  proper : ∀ parameter ∈ parameters, parameter.type ≠ .void

/-- The first parameter that cannot be bound, behind parameters that can.  A
type is looked at before a name. -/
inductive ParameterViolation : List Parameter → BindingError → Prop where
  | void {front back : List Parameter} {parameter : Parameter}
      (fine : Bindable front) (void : parameter.type = .void) :
      ParameterViolation (front ++ parameter :: back)
        (.voidBinding parameter.name)
  | repeated {front back : List Parameter} {parameter : Parameter}
      (fine : Bindable front) (proper : parameter.type ≠ .void)
      (taken : parameter.name ∈ front.map Parameter.name) :
      ParameterViolation (front ++ parameter :: back)
        (.redefined parameter.name)

/-- The first function that cannot be declared, behind functions that can.  A
name is looked at before the parameters. -/
inductive FirstViolation : List Function → BindingError → Prop where
  | name {before after : List Function} {function : Function}
      (fine : Declarable before)
      (taken : function.name ∈ before.map Function.name) :
      FirstViolation (before ++ function :: after)
        (.redefined function.name)
  | parameter {before after : List Function} {function : Function}
      {error : BindingError} (fine : Declarable before)
      (free : function.name ∉ before.map Function.name)
      (violation : ParameterViolation function.parameters error) :
      FirstViolation (before ++ function :: after) error

section

variable {front parameters : List Parameter} {parameter : Parameter}
  {before functions : List Function} {function : Function}
  {error : BindingError}

theorem Bindable.nil : Bindable [] :=
  ⟨List.nodup_nil, List.forall_mem_nil _⟩

private theorem Bindable.concat (fine : Bindable front)
    (proper : parameter.type ≠ .void)
    (free : parameter.name ∉ front.map Parameter.name) :
    Bindable (front ++ [parameter]) where
  names := by
    rw [List.map_append, List.map_singleton, ← List.concat_eq_append]
    exact fine.names.concat free
  proper := by
    intro other member
    rcases List.mem_append.mp member with member | member
    · exact fine.proper other member
    · rw [List.mem_singleton.mp member]
      exact proper

/-- Behind parameters that can be bound, the search meets the first one that
cannot, if there is one. -/
theorem parameterFailure_cases (fine : Bindable front)
    (parameters : List Parameter) :
    match parameterFailure? (front.map Parameter.name) parameters with
    | none => Bindable (front ++ parameters)
    | some error => ParameterViolation (front ++ parameters) error := by
  induction parameters generalizing front with
  | nil =>
      rw [List.append_nil]
      exact fine
  | cons parameter rest inductionHypothesis =>
      rw [parameterFailure?]
      by_cases void : parameter.type = .void
      · rw [if_pos void]
        exact .void fine void
      rw [if_neg void]
      by_cases taken : parameter.name ∈ front.map Parameter.name
      · rw [if_pos taken]
        exact .repeated fine void taken
      · have behind := inductionHypothesis (fine.concat void taken)
        rw [List.map_append, List.map_singleton, List.append_assoc,
          List.singleton_append] at behind
        rw [if_neg taken]
        exact behind

theorem not_mem_of_nodup_append {bound others : List String} {name : String}
    (distinct : (bound ++ name :: others).Nodup) : name ∉ bound := by
  intro taken
  have apart := (List.nodup_cons.mp (List.nodup_middle.mp distinct)).1
  exact apart (List.mem_append_left others taken)

theorem parameterFailure_append {bound : List String}
    (distinct : (bound ++ front.map Parameter.name).Nodup)
    (proper : ∀ parameter ∈ front, parameter.type ≠ .void)
    (rest : List Parameter) :
    parameterFailure? bound (front ++ rest) =
      parameterFailure? (bound ++ front.map Parameter.name) rest := by
  induction front generalizing bound with
  | nil =>
      rw [List.map_nil, List.append_nil, List.nil_append]
  | cons parameter others inductionHypothesis =>
      have split : bound ++ (parameter :: others).map Parameter.name =
          (bound ++ [parameter.name]) ++ others.map Parameter.name := by
        rw [List.map_cons, List.append_assoc, List.singleton_append]
      have free : parameter.name ∉ bound := not_mem_of_nodup_append distinct
      rw [split] at distinct ⊢
      rw [List.cons_append, parameterFailure?,
        if_neg (proper parameter List.mem_cons_self), if_neg free]
      exact inductionHypothesis distinct fun other member =>
        proper other (List.mem_cons_of_mem _ member)

theorem Bindable.parameterFailure_append (fine : Bindable front)
    (rest : List Parameter) :
    parameterFailure? [] (front ++ rest) =
      parameterFailure? (front.map Parameter.name) rest :=
  ContractCompiler.parameterFailure_append fine.names fine.proper rest

private theorem Bindable.parameterFailure_eq_none
    (fine : Bindable parameters) : parameterFailure? [] parameters = none := by
  have passed := fine.parameterFailure_append []
  rw [List.append_nil] at passed
  rw [passed, parameterFailure?]

private theorem parameterFailure_eq_some :
    parameterFailure? [] parameters = some error ↔
      ParameterViolation parameters error := by
  constructor
  · intro failed
    have found := parameterFailure_cases .nil parameters
    rw [List.map_nil, failed, List.nil_append] at found
    exact found
  · intro violation
    cases violation with
    | void fine void =>
        rw [fine.parameterFailure_append, parameterFailure?, if_pos void]
    | repeated fine proper taken =>
        rw [fine.parameterFailure_append, parameterFailure?, if_neg proper,
          if_pos taken]

theorem Declarable.nil : Declarable [] :=
  ⟨List.nodup_nil, List.forall_mem_nil _, List.forall_mem_nil _⟩

private theorem Declarable.bindable (declarable : Declarable functions)
    (member : function ∈ functions) : Bindable function.parameters :=
  ⟨declarable.parameters function member, declarable.proper function member⟩

/-- Behind functions that can be declared, a failure is the first violation. -/
theorem firstViolation_of_failure (fine : Declarable before)
    (failed : functionFailure? (before.map Function.name) functions =
      some error) : FirstViolation (before ++ functions) error := by
  induction functions generalizing before with
  | nil =>
      cases failed
  | cons function rest inductionHypothesis =>
      rw [functionFailure?] at failed
      split at failed
      next taken =>
        cases failed
        exact .name fine taken
      next free =>
        split at failed
        next found met =>
          cases failed
          exact .parameter fine free (parameterFailure_eq_some.mp met)
        next passed =>
          have bindable := parameterFailure_cases .nil function.parameters
          rw [List.map_nil, passed, List.nil_append] at bindable
          have behind := @inductionHypothesis (before ++ [function])
            (fine.step free bindable.names bindable.proper)
          rw [List.map_append, List.map_singleton, List.append_assoc,
            List.singleton_append] at behind
          exact behind failed

theorem functionFailure_append {bound : List String}
    (distinct : (bound ++ before.map Function.name).Nodup)
    (fine : ∀ function ∈ before, Bindable function.parameters)
    (rest : List Function) :
    functionFailure? bound (before ++ rest) =
      functionFailure? (bound ++ before.map Function.name) rest := by
  induction before generalizing bound with
  | nil =>
      rw [List.map_nil, List.append_nil, List.nil_append]
  | cons function others inductionHypothesis =>
      have split : bound ++ (function :: others).map Function.name =
          (bound ++ [function.name]) ++ others.map Function.name := by
        rw [List.map_cons, List.append_assoc, List.singleton_append]
      have free : function.name ∉ bound := not_mem_of_nodup_append distinct
      have passed := (fine function
        List.mem_cons_self).parameterFailure_eq_none
      rw [split] at distinct ⊢
      rw [List.cons_append, functionFailure?, if_neg free, passed]
      exact inductionHypothesis distinct fun other member =>
        fine other (List.mem_cons_of_mem _ member)

theorem Declarable.functionFailure_append (fine : Declarable before)
    (rest : List Function) :
    functionFailure? [] (before ++ rest) =
      functionFailure? (before.map Function.name) rest :=
  ContractCompiler.functionFailure_append fine.names
    (fun _ member => fine.bindable member) rest

private theorem functionFailure_eq_some :
    functionFailure? [] functions = some error ↔
      FirstViolation functions error := by
  constructor
  · intro failed
    exact firstViolation_of_failure .nil failed
  · intro violation
    cases violation with
    | name fine taken =>
        rw [fine.functionFailure_append, functionFailure?, if_pos taken]
    | parameter fine free violation =>
        rw [fine.functionFailure_append, functionFailure?, if_neg free,
          parameterFailure_eq_some.mpr violation]

end

/-- A contract is refused with its first violation. -/
theorem Contract.declare_eq_error {contract : Contract}
    {error : BindingError} :
    contract.declare = .error error ↔
      FirstViolation contract.functions error := by
  have fails := contract.declare_failsAs
  rw [← functionFailure_eq_some]
  constructor
  · intro refused
    rw [refused] at fails
    exact fails
  · intro failed
    rw [declarationFailure?, failed] at fails
    exact fails.eq_error

/-! ### What scopes bind -/

namespace Store

variable {store old new : Store} {scope own : ScopeId} {name : String}
  {parameter : Parameter} {function : Function}

structure BindsParameter (store : Store) (entry : String × SymbolId)
    (parameter : Parameter) : Prop where
  name : entry.1 = parameter.name
  symbol : ∃ symbol, store.symbol? entry.2 = some symbol ∧
    symbol.name = parameter.name ∧ symbol.valueType? = some parameter.type

/-- A scope binds a function to a symbol with a scope of its own, which lies
in that scope and binds the parameters of the function and nothing else. -/
structure Enters (store : Store) (scope : ScopeId) (function : Function)
    (own : ScopeId) : Prop where
  symbol : ∃ id, store.resolveLocal? scope function.name = some id ∧
    store.symbol? id = some ⟨.function own, function.name⟩
  parameters : List.Forall₂ store.BindsParameter (store.bindings own)
    function.parameters
  outer : store.outer? own = some scope

structure Adds (old new : Store) : Prop where
  ordered : new.Ordered
  grows : old.Grows new
  handles : new.scopeHandles = old.scopeHandles

theorem Grows.trans {middle : Store} (first : old.Grows middle)
    (second : middle.Grows new) : old.Grows new where
  scopes := Nat.le_trans first.scopes second.scopes
  outer scope before := by
    rw [second.outer scope (Nat.lt_of_lt_of_le before first.scopes),
      first.outer scope before]
  symbols := first.symbols.trans second.symbols
  bindings scope := (first.bindings scope).trans (second.bindings scope)
  functions id own owned before := by
    rcases second.functions id own owned
        (Nat.lt_of_lt_of_le before first.scopes) with known | alive
    · rw [second.functionScope_eq known] at owned
      exact first.functions id own owned before
    · exact Or.inr (first.alive alive before)
  tables scope name id listed before :=
    first.tables scope name id
      (second.tables scope name id listed
        (Nat.lt_of_lt_of_le before first.symbols.length_le)) before
  scopeHandles handle scope held before :=
    first.alive (second.scopeHandles handle scope held
      (Nat.lt_of_lt_of_le before first.scopes)) before
  symbolHandles handle id held before :=
    first.alive (second.symbolHandles handle id held
      (Nat.lt_of_lt_of_le before first.symbols.length_le)) before

theorem Adds.refl (ordered : store.Ordered) : store.Adds store :=
  ⟨ordered, .refl store, rfl⟩

theorem Adds.trans {middle : Store} (first : old.Adds middle)
    (second : middle.Adds new) : old.Adds new :=
  ⟨second.ordered, first.grows.trans second.grows,
    second.handles.trans first.handles⟩

private theorem BindsParameter.grows {entry : String × SymbolId}
    (binds : old.BindsParameter entry parameter) (grows : old.Grows new) :
    new.BindsParameter entry parameter := by
  obtain ⟨symbol, known, typed⟩ := binds.symbol
  refine ⟨binds.name, symbol, ?_, typed⟩
  rw [grows.symbol_eq (lt_of_symbol known)]
  exact known

private theorem Enters.between (entered : store.Enters scope function own)
    (ordered : store.Ordered) : scope < own ∧ own < store.scopes.length := by
  refine ⟨ordered.parents own scope entered.outer, ?_⟩
  obtain ⟨table, found, _⟩ := Option.bind_eq_some_iff.mp entered.outer
  exact (List.getElem?_eq_some_iff.mp found).1

/-- A function stays entered as long as its own scope binds no more. -/
theorem Enters.grows (entered : old.Enters scope function own)
    (ordered : old.Ordered) (grows : old.Grows new)
    (kept : new.bindings own = old.bindings own) :
    new.Enters scope function own where
  symbol := by
    obtain ⟨id, bound, known⟩ := entered.symbol
    refine ⟨id, grows.resolveLocal_eq_some bound, ?_⟩
    rw [grows.symbol_eq (lt_of_symbol known)]
    exact known
  parameters := by
    rw [kept]
    exact entered.parameters.imp fun _ _ binds => binds.grows grows
  outer := by
    rw [grows.outer own (entered.between ordered).2]
    exact entered.outer

/-! ### Parameters -/

private theorem exists_bound_of_defineVariable {type : ValueType}
    {identifier : String} {id : SymbolId}
    (defined : old.defineVariable scope name type identifier =
      .ok (id, new)) :
    ∃ symbol, symbol.name = identifier ∧ symbol.valueType? = some type ∧
      symbol.scope? = none ∧ new = old.bound scope name symbol := by
  have bound : ∀ symbol, old.bindSymbol scope name symbol = .ok (id, new) →
      new = old.bound scope name symbol := by
    intro symbol made
    rw [bindSymbol_eq] at made
    split at made
    next => cases made
    next =>
      cases made
      rfl
  cases type with
  | void => cases defined
  | int => exact ⟨_, rfl, rfl, rfl, bound _ defined⟩
  | string => exact ⟨_, rfl, rfl, rfl, bound _ defined⟩
  | bool => exact ⟨_, rfl, rfl, rfl, bound _ defined⟩

private theorem adds_bound {symbol : Symbol} (ordered : store.Ordered)
    (inside : scope < store.scopes.length) (name : String)
    (plain : symbol.scope? = none) :
    store.Adds (store.bound scope name symbol) where
  ordered := by
    apply ordered.bound inside name
    intro own owned
    cases plain.symm.trans owned
  grows := by
    apply (Grows.refl store).bound inside name
    intro own owned
    cases plain.symm.trans owned
  handles := rfl

/-- Parameters that are declared are what their scope binds from then on. -/
theorem declareParameters_binds {parameters : List Parameter}
    (ordered : store.Ordered) (inside : scope < store.scopes.length)
    (declared : declareParameters store scope parameters = .ok new) :
    store.Adds new ∧ ∃ added,
      new.bindings scope = store.bindings scope ++ added ∧
        List.Forall₂ new.BindsParameter added parameters := by
  induction parameters generalizing store with
  | nil =>
      cases declared
      exact ⟨.refl ordered, [], (List.append_nil _).symm, .nil⟩
  | cons parameter rest inductionHypothesis =>
      rw [declareParameters] at declared
      split at declared
      next => cases declared
      next id next defined =>
        obtain ⟨symbol, named, typed, plain, rfl⟩ :=
          exists_bound_of_defineVariable defined
        have first := adds_bound ordered inside parameter.name plain
        have insideStill :=
          Nat.lt_of_lt_of_le inside first.grows.scopes
        obtain ⟨others, added, listed, bound⟩ :=
          inductionHypothesis first.ordered insideStill declared
        have binds : (store.bound scope parameter.name symbol).BindsParameter
            (parameter.name, store.symbols.length) parameter :=
          ⟨rfl, symbol, symbol_bound symbol, named, typed⟩
        refine ⟨first.trans others,
          (parameter.name, store.symbols.length) :: added, ?_,
          .cons (binds.grows others.grows) bound⟩
        rw [listed, bindings_bound symbol inside, List.append_assoc,
          List.singleton_append]

/-! ### Functions -/

private theorem adds_withFunction (function : Function)
    (ordered : store.Ordered) (inside : scope < store.scopes.length) :
    store.Adds (store.withFunction scope function) where
  ordered := by
    have older : ∀ outer ∈ some scope, outer < store.scopes.length := by
      intro outer same
      cases same
      exact inside
    apply (ordered.newScope older).bound
    · rw [length_newScope]
      exact Nat.lt_succ_of_lt inside
    · intro own owned
      cases owned
      rw [length_newScope]
      exact Nat.lt_succ_self _
  grows := by
    apply ((Grows.refl store).newScope (some scope)).bound
    · rw [length_newScope]
      exact Nat.lt_succ_of_lt inside
    · intro own owned before
      cases owned
      exact absurd before (Nat.lt_irrefl _)
  handles := rfl

private theorem withFunction_symbol (inside : scope < store.scopes.length)
    (free : function.name ∉ (store.bindings scope).map Prod.fst) :
    ∃ id, (store.withFunction scope function).resolveLocal? scope
        function.name = some id ∧
      (store.withFunction scope function).symbol? id =
        some ⟨.function store.scopes.length, function.name⟩ := by
  refine ⟨_, resolveLocal_bound _ ?_ ?_, symbol_bound _⟩
  · rw [length_newScope]
    exact Nat.lt_succ_of_lt inside
  · rw [resolveLocal?, bindings_newScope]
    exact lookup_eq_none_iff_not_mem.mpr free

private theorem withFunction_outer (store : Store) (scope : ScopeId)
    (function : Function) :
    (store.withFunction scope function).outer? store.scopes.length =
      some scope := by
  rw [withFunction, outer_bound, outer_newScope, if_pos rfl]

/-- A function that is declared is entered with a new scope, and no other scope
but the one it is declared in has changed. -/
theorem declareFunction_enters (ordered : store.Ordered)
    (inside : scope < store.scopes.length)
    (declared : declareFunction store scope function = .ok new) :
    store.Adds new ∧ new.Enters scope function store.scopes.length ∧
      ∀ other, scope < other → other < store.scopes.length →
        new.bindings other = store.bindings other := by
  rw [declareFunction_eq] at declared
  split at declared
  next => cases declared
  next free =>
    have extended := withFunction_extends function ordered.sound inside
    have first := adds_withFunction function ordered inside
    obtain ⟨apart, empty⟩ := withFunction_own function ordered.sound inside
    have ownInside : store.scopes.length <
        (store.withFunction scope function).scopes.length := by
      rw [extended.scopes, length_newScope]
      exact Nat.lt_succ_self _
    obtain ⟨second, added, listed, bound⟩ :=
      declareParameters_binds first.ordered ownInside declared
    obtain ⟨_, _, filled, _⟩ :=
      declareParameters_eq_ok extended.sound ownInside declared
    refine ⟨first.trans second, ⟨?_, ?_, ?_⟩, ?_⟩
    · obtain ⟨id, found, known⟩ := withFunction_symbol inside free
      refine ⟨id, second.grows.resolveLocal_eq_some found, ?_⟩
      rw [second.grows.symbol_eq (lt_of_symbol known)]
      exact known
    · rw [listed, empty]
      exact bound
    · rw [second.grows.outer _ ownInside]
      exact withFunction_outer store scope function
    · intro other behind before
      rw [filled.bindings other (Nat.ne_of_lt before),
        extended.bindings other (Nat.ne_of_gt behind), bindings_newScope]

private theorem declareFunctions_enters {before functions : List Function}
    {owns : List ScopeId} (ordered : store.Ordered)
    (declared : store.Declared scope before owns)
    (entered : List.Forall₂ (store.Enters scope) before owns)
    (finished : declareFunctions store scope functions = .ok new) :
    store.Adds new ∧ ∃ all, new.Declared scope (before ++ functions) all ∧
      List.Forall₂ (new.Enters scope) (before ++ functions) all := by
  induction functions generalizing store before owns with
  | nil =>
      cases finished
      rw [List.append_nil]
      exact ⟨.refl ordered, owns, declared, entered⟩
  | cons function rest inductionHypothesis =>
      rw [declareFunctions] at finished
      split at finished
      next => cases finished
      next next stepped =>
        obtain ⟨adds, enters, kept⟩ :=
          declareFunction_enters ordered declared.inside stepped
        have enteredBefore : List.Forall₂ (next.Enters scope) before owns :=
          entered.imp fun other own there =>
            have between := there.between ordered
            there.grows ordered adds.grows (kept own between.1 between.2)
        obtain ⟨others, all, declaredAll, enteredAll⟩ :=
          inductionHypothesis adds.ordered (declared.step stepped)
            (List.rel_append enteredBefore (.cons enters .nil)) finished
        rw [List.append_assoc, List.singleton_append]
          at declaredAll enteredAll
        exact ⟨adds.trans others, all, declaredAll, enteredAll⟩

end Store

/-! ### Contracts -/

namespace Declarations

/-- The scopes of declared functions: the outermost one binds the functions
and nothing else, and those of the functions lie in it, each for itself. -/
structure Registers (declarations : Declarations)
    (functions : List Function) (owns : List ScopeId) : Prop where
  names : (declarations.store.bindings declarations.scope).map Prod.fst =
    functions.map Function.name
  entered : List.Forall₂
    (declarations.store.Enters declarations.scope) functions owns
  parents : ∀ own ∈ owns,
    declarations.store.parent? own = some declarations.scope
  distinct : (declarations.scope :: owns).Nodup

private theorem start_ordered : start.store.Ordered := by
  apply Store.Ordered.empty.step (.made "contract" none ?_)
  intro outer absent
  cases absent

end Declarations

private theorem Contract.exists_registers {contract : Contract}
    {declarations : Declarations}
    (declared : contract.declare = .ok declarations) :
    ∃ owns, declarations.Registers contract.functions owns := by
  unfold declare at declared
  simp only at declared
  split at declared
  next => cases declared
  next store finished =>
    cases declared
    obtain ⟨adds, owns, all, entered⟩ := Store.declareFunctions_enters
      Declarations.start_ordered Declarations.start_declared .nil finished
    -- The handle that the outermost scope was made with keeps it alive.
    have alive : store.Alive (.scope Declarations.start.scope) := by
      apply Store.Alive.scopeHandle
      rw [adds.handles]
      exact List.mem_cons_self
    have within : ∀ own ∈ owns,
        store.outer? own = some Declarations.start.scope ∧
          Declarations.start.scope < own := by
      intro own member
      obtain ⟨function, _, there⟩ :=
        exists_of_forall₂ entered.flip own member
      exact ⟨there.outer, (there.between adds.ordered).1⟩
    refine ⟨owns, all.names, entered, ?_, ?_⟩
    · intro own member
      exact (Store.parent_eq_some adds.ordered).mpr
        ⟨(within own member).1, alive⟩
    · rw [List.nodup_cons]
      refine ⟨?_, all.distinct⟩
      intro member
      exact Nat.lt_irrefl _ (within _ member).2

/-- A contract can be declared exactly when its names can be bound.  Its scopes
then bind the functions and their parameters and nothing else; otherwise the
first violation is reported. -/
theorem Contract.declare_registers_or_refuses (contract : Contract) :
    ((∃ declarations, contract.declare = .ok declarations) ↔
      Declarable contract.functions) ∧
    (∀ declarations, contract.declare = .ok declarations →
      ∃ owns, declarations.Registers contract.functions owns) ∧
    ∀ error, contract.declare = .error error ↔
      FirstViolation contract.functions error := by
  refine ⟨⟨?_, declare_succeeds⟩, ?_, ?_⟩
  · rintro ⟨declarations, declared⟩
    exact (declare_eq_ok declared).1
  · intro declarations declared
    exact exists_registers declared
  · intro error
    exact declare_eq_error

def sharing : List Function :=
  [⟨"f", [⟨"a", .int⟩, ⟨"b", .bool⟩], .void, []⟩,
    ⟨"g", [⟨"a", .string⟩], .int, []⟩]

/-- A function has a parameter without a value in front of a repeated one, and
another function has the name of the first one. -/
def clashing : List Function :=
  [⟨"h", [⟨"a", .int⟩, ⟨"b", .void⟩, ⟨"a", .int⟩], .void, []⟩,
    ⟨"f", [], .void, []⟩]

theorem Contract.declare_registers_sharing :
    Declarable sharing ∧
      (∃ declarations owns,
        (⟨sharing⟩ : Contract).declare = .ok declarations ∧
          declarations.Registers sharing owns) ∧
      (⟨sharing ++ clashing⟩ : Contract).declare =
        .error (.voidBinding "b") := by
  have declarable : Declarable sharing := by
    constructor <;> decide
  obtain ⟨succeeds, registers, _⟩ := declare_registers_or_refuses ⟨sharing⟩
  obtain ⟨declarations, declared⟩ := succeeds.mpr declarable
  obtain ⟨owns, registered⟩ := registers declarations declared
  refine ⟨declarable, ⟨declarations, owns, declared, registered⟩, ?_⟩
  obtain ⟨_, _, refuses⟩ := declare_registers_or_refuses
    ⟨sharing ++ clashing⟩
  have fine : Bindable [⟨"a", .int⟩] := by
    constructor <;> decide
  have violation : ParameterViolation
      ([⟨"a", .int⟩] ++ ⟨"b", .void⟩ :: [⟨"a", .int⟩])
      (.voidBinding "b") := .void fine rfl
  exact (refuses _).mpr (.parameter declarable (by decide) violation)

end ContractCompiler
