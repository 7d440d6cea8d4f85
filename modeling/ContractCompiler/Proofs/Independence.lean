/-
Functions are compiled independently of each other.

A call that compiles a function binds names in the scope of that function and
nowhere else.  Its outcome depends on the function and on the names that are
declared.  So the calls can be made in any order or side by side, and what
stands in the bodies of other functions makes no difference.
-/

import Mathlib.Data.List.Perm.Basic
import ContractCompiler.Proofs.Surroundings

namespace ContractCompiler

namespace Declarations

def after (declarations : Declarations) (calls : List Function) :
    Declarations :=
  calls.foldl (fun current function => (current.compileFunction function).2)
    declarations

/-! ### Scopes stay apart -/

structure Separate (declarations : Declarations) : Prop where
  sound : declarations.store.Sound
  apart : ∀ name own, declarations.functionScope? name = some own →
    own ≠ declarations.scope ∧ own < declarations.store.scopes.length
  distinct : ∀ name other own,
    declarations.functionScope? name = some own →
      declarations.functionScope? other = some own → name = other

/-- What a call for the function with a name leaves as it is: the outermost
scope, the scopes of all other functions, and every symbol. -/
structure Spares (before behind : Declarations) (name : String) : Prop where
  scope : behind.scope = before.scope
  outermost : behind.store.bindings before.scope =
    before.store.bindings before.scope
  functions : ∀ other,
    behind.functionScope? other = before.functionScope? other
  others : ∀ other own, other ≠ name →
    before.functionScope? other = some own →
      behind.store.bindings own = before.store.bindings own
  symbols : ∀ id symbol, before.store.symbol? id = some symbol →
    behind.store.symbol? id = some symbol

theorem Spares.refl (declarations : Declarations) (name : String) :
    declarations.Spares declarations name where
  scope := rfl
  outermost := rfl
  functions _ := rfl
  others _ _ _ _ := rfl
  symbols _ _ found := found

/-- Functions are found in the same scopes when the outermost scope and the
symbols are kept. -/
theorem functionScope_of_extends {declarations : Declarations}
    {store : Store} {own : ScopeId} (sound : declarations.store.Sound)
    (apart : own ≠ declarations.scope)
    (extended : declarations.store.Extends store own) (name : String) :
    { declarations with store := store }.functionScope? name =
      declarations.functionScope? name := by
  have outermost := extended.bindings declarations.scope apart.symm
  unfold functionScope? Store.resolveLocal?
  simp only [outermost]
  cases found : (declarations.store.bindings declarations.scope).lookup
      name with
  | none =>
      rfl
  | some id =>
      have member : (name, id) ∈
          declarations.store.bindings declarations.scope := by
        rcases List.lookup_eq_some_iff.mp found with
          ⟨earlier, later, split, _⟩
        rw [split]
        simp
      rcases sound declarations.scope (name, id) member with
        ⟨symbol, known⟩
      simp only [Option.bind_some, Store.functionScope?, known,
        extended.symbols id symbol known]

private theorem compileFunction_of_missing {declarations : Declarations}
    {function : Function}
    (missing : declarations.functionScope? function.name = none) :
    (declarations.compileFunction function).2 = declarations := by
  simp only [compileFunction, missing]

/-- A call changes at most the scope of its function. -/
theorem compileFunction_extends {declarations : Declarations}
    {function : Function} {own : ScopeId}
    (separate : declarations.Separate)
    (found : declarations.functionScope? function.name = some own) :
    ∃ store, (declarations.compileFunction function).2 =
        { declarations with store := store } ∧
      declarations.store.Extends store own := by
  have inside := (separate.apart _ own found).2
  simp only [compileFunction, found]
  exact ⟨_, rfl, defineAll_extends separate.sound inside _⟩

private theorem Separate.spares {declarations : Declarations}
    (separate : declarations.Separate) (function : Function) :
    declarations.Spares (declarations.compileFunction function).2
      function.name := by
  cases found : declarations.functionScope? function.name with
  | none =>
      rw [compileFunction_of_missing found]
      exact .refl declarations function.name
  | some own =>
      rcases compileFunction_extends separate found with
        ⟨store, behind, extended⟩
      have apart := (separate.apart _ own found).1
      rw [behind]
      constructor
      · rfl
      · exact extended.bindings declarations.scope apart.symm
      · exact functionScope_of_extends separate.sound apart extended
      · intro other scope different there
        apply extended.bindings scope
        intro same
        rw [same] at there
        exact different (separate.distinct _ _ own there found)
      · exact extended.symbols

private theorem Separate.step {declarations : Declarations}
    (separate : declarations.Separate) (function : Function) :
    (declarations.compileFunction function).2.Separate := by
  cases found : declarations.functionScope? function.name with
  | none =>
      rw [compileFunction_of_missing found]
      exact separate
  | some own =>
      rcases compileFunction_extends separate found with
        ⟨store, behind, extended⟩
      have same := functionScope_of_extends separate.sound
        (separate.apart _ own found).1 extended
      rw [behind]
      constructor
      · exact extended.sound
      · intro name scope there
        rw [same] at there
        rw [extended.scopes]
        exact separate.apart name scope there
      · intro name other scope there thereToo
        rw [same] at there thereToo
        exact separate.distinct name other scope there thereToo

private theorem Separate.after {declarations : Declarations}
    (separate : declarations.Separate) (calls : List Function) :
    (declarations.after calls).Separate := by
  induction calls generalizing declarations with
  | nil =>
      exact separate
  | cons function rest inductionHypothesis =>
      exact inductionHypothesis (separate.step function)

end Declarations

/-! ### Declared contracts -/

namespace Contract

variable {contract : Contract} {declarations : Declarations}

private theorem separate_of_declared
    (declared : contract.declare = .ok declarations) :
    declarations.Separate := by
  rcases declare_eq_ok declared with ⟨declarable, owns, laid⟩
  -- The scopes of the functions, in the order of their declaration.
  have scopes : contract.functions.map
      (fun function => declarations.functionScope? function.name) =
        owns.map some := by
    rw [← List.forall₂_eq_eq_eq, List.forall₂_map_left_iff,
      List.forall₂_map_right_iff]
    exact laid.held.imp fun _ _ held => held.found
  have distinct : (contract.functions.map fun function =>
      declarations.functionScope? function.name).Nodup := by
    rw [scopes]
    exact laid.distinct.map fun _ _ same => Option.some.inj same
  have named : ∀ name own, declarations.functionScope? name = some own →
      ∃ function ∈ contract.functions, function.name = name := by
    intro name own found
    rcases Option.bind_eq_some_iff.mp found with ⟨id, bound, _⟩
    rw [← List.mem_map, ← laid.names]
    by_contra absent
    rw [Store.resolveLocal?, lookup_eq_none_iff_not_mem.mpr absent] at bound
    cases bound
  constructor
  · exact laid.sound
  · intro name own found
    rcases named name own found with ⟨function, member, rfl⟩
    rcases exists_of_forall₂ laid.held function member with
      ⟨other, _, held⟩
    have same : some own = some other := found.symm.trans held.found
    cases same
    exact ⟨held.apart, held.inside⟩
  · intro name other own found foundToo
    rcases named name own found with ⟨function, member, rfl⟩
    rcases named other own foundToo with ⟨another, memberToo, rfl⟩
    have same := List.inj_on_of_nodup_map distinct member memberToo
      (found.trans foundToo.symm)
    rw [same]

private theorem compileFunction_of_declared
    (declared : contract.declare = .ok declarations) {function : Function}
    (member : function ∈ contract.functions) :
    (declarations.compileFunction function).1 =
      function.outcome contract.functionNames := by
  rcases declare_eq_ok declared with ⟨_, owns, laid⟩
  rcases exists_of_forall₂ laid.held function member with ⟨_, _, held⟩
  rcases Declarations.compileFunction_of_held laid.sound held with
    ⟨store, compiled, _⟩
  have names : declarations.names = contract.functionNames := laid.names
  rw [compiled, names]

/-- In every order, each function has the outcome that it has alone. -/
theorem compileInSequence_of_perm
    (declared : contract.declare = .ok declarations)
    {order : List Function} (reordered : order.Perm contract.functions) :
    declarations.compileInSequence order =
      order.map fun function =>
        (declarations.compileFunction function).1 := by
  rcases declare_eq_ok declared with ⟨_, owns, laid⟩
  rcases List.perm_comp_forall₂ reordered laid.held with
    ⟨others, held, moved⟩
  have names : declarations.names = contract.functionNames := laid.names
  rw [Declarations.compileInSequence_eq laid.sound held
    (moved.nodup_iff.mpr laid.distinct), names]
  apply List.map_congr_left
  intro function member
  rw [compileFunction_of_declared declared (reordered.mem_iff.mp member)]

/-! ### Other bodies -/

def rewritten (contract : Contract) (kept : String)
    (bodies : Function → Block) : Contract :=
  ⟨contract.functions.map fun function =>
    if function.name = kept then function
    else { function with body := bodies function }⟩

private theorem mem_rewritten {function : Function}
    (member : function ∈ contract.functions) (bodies : Function → Block) :
    function ∈ (contract.rewritten function.name bodies).functions := by
  apply List.mem_map.mpr
  exact ⟨function, member, if_pos rfl⟩

private theorem functionNames_rewritten (contract : Contract) (kept : String)
    (bodies : Function → Block) :
    (contract.rewritten kept bodies).functionNames =
      contract.functionNames := by
  unfold functionNames rewritten
  rw [List.map_map]
  apply List.map_congr_left
  intro function _
  simp only [Function.comp_apply]
  split <;> rfl

private theorem declarable_rewritten
    (declarable : Declarable contract.functions) (kept : String)
    (bodies : Function → Block) :
    Declarable (contract.rewritten kept bodies).functions := by
  have parameters : ∀ function ∈ (contract.rewritten kept bodies).functions,
      ∃ original ∈ contract.functions,
        function.parameters = original.parameters := by
    intro function member
    rcases List.mem_map.mp member with ⟨original, known, rfl⟩
    refine ⟨original, known, ?_⟩
    split <;> rfl
  constructor
  · have names := functionNames_rewritten contract kept bodies
    unfold functionNames at names
    rw [names]
    exact declarable.names
  · intro function member
    rcases parameters function member with ⟨original, known, same⟩
    rw [same]
    exact declarable.parameters original known
  · intro function member
    rcases parameters function member with ⟨original, known, same⟩
    rw [same]
    exact declarable.proper original known

/-! ### Independence -/

/-- A function has the same outcome in every contract that declares it among
functions of the same names. -/
theorem compileFunction_of_names {other : Contract} {others : Declarations}
    (declared : contract.declare = .ok declarations)
    (declaredToo : other.declare = .ok others)
    (names : ∀ name, name ∈ other.functionNames ↔
      name ∈ contract.functionNames) {function : Function}
    (member : function ∈ contract.functions)
    (memberToo : function ∈ other.functions) :
    (others.compileFunction function).1 =
      (declarations.compileFunction function).1 := by
  rw [compileFunction_of_declared declared member,
    compileFunction_of_declared declaredToo memberToo]
  exact function.outcome_congr names

structure Independent (contract : Contract) (declarations : Declarations) :
    Prop where
  ordered : ∀ order : List Function, order.Perm contract.functions →
    declarations.compileInSequence order =
      order.map fun function => (declarations.compileFunction function).1
  named : ∀ (other : Contract) (others : Declarations),
    other.declare = .ok others →
      (∀ name, name ∈ other.functionNames ↔
        name ∈ contract.functionNames) →
      ∀ function ∈ contract.functions, function ∈ other.functions →
        (others.compileFunction function).1 =
          (declarations.compileFunction function).1
  rewritten : ∀ function ∈ contract.functions,
    ∀ bodies : Function → Block, ∃ others,
      (contract.rewritten function.name bodies).declare = .ok others ∧
      ∀ order : List Function,
        order.Perm (contract.rewritten function.name bodies).functions →
          (function, (declarations.compileFunction function).1) ∈
            order.zip (others.compileInSequence order)
  framed : ∀ (calls : List Function) (function : Function),
    (declarations.after calls).Spares
      ((declarations.after calls).compileFunction function).2 function.name
  parallel :
    declarations.compileInParallel contract.functions =
        declarations.compileInSequence contract.functions ∧
      contract.compile true = contract.compile false

theorem functions_independent
    (declared : contract.declare = .ok declarations) :
    contract.Independent declarations := by
  constructor
  · intro order reordered
    exact compileInSequence_of_perm declared reordered
  · intro other others declaredToo names function member memberToo
    exact compileFunction_of_names declared declaredToo names member
      memberToo
  · intro function member bodies
    rcases declare_succeeds (declarable_rewritten (declare_eq_ok declared).1
      function.name bodies) with ⟨others, declaredToo⟩
    refine ⟨others, declaredToo, ?_⟩
    intro order reordered
    have kept := mem_rewritten member bodies
    have same := compileFunction_of_names declared declaredToo
      (by simp [functionNames_rewritten]) member kept
    rw [compileInSequence_of_perm declaredToo reordered,
      ← List.map_prod_left_eq_zip]
    apply List.mem_map.mpr
    exact ⟨function, reordered.mem_iff.mpr kept, by rw [same]⟩
  · intro calls function
    exact ((separate_of_declared declared).after calls).spares function
  · constructor
    · rw [compileInSequence_of_perm declared (List.Perm.refl _)]
      rfl
    · rw [compile_of_declared declared, compile_of_declared declared]

/-- One function names another one as a value, and one assigns to a name
twice. -/
def entangledContract : Contract :=
  ⟨[⟨"f", [⟨"x", .int⟩], .void, [.evaluates (.identifier "g")]⟩,
    ⟨"g", [⟨"x", .int⟩], .int,
      [.assigns .int "y" (.identifier "x"),
        .returns (some (.identifier "y"))]⟩,
    ⟨"h", [], .void,
      [.assigns .bool "x" (.boolean true),
        .assigns .bool "x" (.boolean false)]⟩]⟩

theorem functions_independent_entangled :
    ∃ declarations, entangledContract.declare = .ok declarations ∧
      entangledContract.Independent declarations ∧
      entangledContract.functions.map
          (fun function =>
            ((declarations.compileFunction function).1.toOption).isSome) =
        [false, true, false] :=
  ⟨_, rfl, functions_independent rfl, by decide +kernel⟩

end Contract

end ContractCompiler
