/-
What comes out for each function.

A function is compiled from its own parameters and the names of all functions.
What other functions leave in the store does not reach it, so compiling in
parallel and compiling in sequence give the same outcomes.
-/

import ContractCompiler.Proofs.Declaring
import ContractCompiler.Proofs.Emission

namespace ContractCompiler

/-- What is known at the start of a function's body, when functions with some
names are declared around it. -/
def Function.entry (function : Function) (outside : List String) :
    Environment :=
  function.environment outside function.typedParameters

def Function.outcome (outside : List String) (function : Function) :
    Except FunctionError FunctionCode :=
  match (function.code (function.entry outside)).1 with
  | .error error => .error ⟨function.name, error⟩
  | .ok code => .ok code

namespace Declarations

theorem defineAll_extends {store : Store} {scope : ScopeId}
    (sound : store.Sound) (inside : scope < store.scopes.length)
    (locals : List (String × ValueType)) :
    store.Extends (defineAll store scope locals) scope := by
  induction locals generalizing store with
  | nil =>
      exact .refl sound
  | cons entry rest inductionHypothesis =>
      rcases entry with ⟨name, type⟩
      rw [defineAll]
      split
      · next id next defined =>
          have extended :=
            (Store.defineVariable_eq_ok sound inside defined).2.2.1
          exact extended.trans (inductionHypothesis extended.sound
            (by rw [extended.scopes]; exact inside))
      · exact inductionHypothesis sound inside

/-- A function that is held by its scope has its own outcome, and leaves a
store in which at most its own scope has changed. -/
theorem compileFunction_of_held {declarations : Declarations}
    {function : Function} {own : ScopeId}
    (sound : declarations.store.Sound)
    (held : declarations.store.Holds declarations.scope function own) :
    ∃ store, declarations.compileFunction function =
        (function.outcome declarations.names,
          { declarations with store := store }) ∧
      declarations.store.Extends store own := by
  have found : declarations.functionScope? function.name = some own :=
    held.found
  refine ⟨_, ?_, defineAll_extends sound held.inside
    ((function.code (function.entry declarations.names)).2.locals.drop
      function.typedParameters.length)⟩
  simp only [compileFunction, found, held.typed]
  rfl

/-- Functions that are compiled one after another have their own outcomes. -/
theorem compileInSequence_eq {declarations : Declarations}
    {functions : List Function} {owns : List ScopeId}
    (sound : declarations.store.Sound)
    (held : List.Forall₂ (declarations.store.Holds declarations.scope)
      functions owns)
    (distinct : owns.Nodup) :
    declarations.compileInSequence functions =
      functions.map (Function.outcome declarations.names) := by
  induction functions generalizing declarations owns with
  | nil =>
      rfl
  | cons function rest inductionHypothesis =>
      cases held with
      | @cons _ own _ others first remaining =>
          rcases compileFunction_of_held sound first with
            ⟨store, compiled, extended⟩
          rw [List.nodup_cons] at distinct
          have kept : List.Forall₂ (store.Holds declarations.scope) rest
              others := by
            rw [List.forall₂_iff_zip] at remaining ⊢
            refine ⟨remaining.1, ?_⟩
            intro other scope member
            refine (remaining.2 member).extends sound extended first.apart ?_
            rintro rfl
            exact distinct.1 (List.of_mem_zip member).2
          have names : { declarations with store := store }.names =
              declarations.names := by
            unfold names
            rw [extended.bindings _ first.apart.symm]
          rw [compileInSequence, compiled]
          simp only
          rw [inductionHypothesis extended.sound kept distinct.2, names,
            List.map_cons]

end Declarations

/-! ### All functions of a contract -/

def Contract.functionNames (contract : Contract) : List String :=
  contract.functions.map Function.name

def Contract.outcomes (contract : Contract) :
    List (Except FunctionError FunctionCode) :=
  contract.functions.map (Function.outcome contract.functionNames)

private theorem Contract.outcomes_eq {contract : Contract}
    {declarations : Declarations}
    (declared : contract.declare = .ok declarations) (parallel : Bool) :
    (if parallel then declarations.compileInParallel contract.functions
      else declarations.compileInSequence contract.functions) =
      contract.outcomes := by
  rcases Contract.declare_eq_ok declared with ⟨_, owns, laid⟩
  have names : declarations.names = contract.functionNames := laid.names
  cases parallel with
  | true =>
      rw [if_pos rfl, Declarations.compileInParallel, outcomes, ← names]
      refine List.map_congr_left ?_
      intro function member
      rcases exists_of_forall₂ laid.held function member with ⟨_, _, held⟩
      rcases Declarations.compileFunction_of_held laid.sound held with
        ⟨store, compiled, _⟩
      rw [compiled]
  | false =>
      rw [if_neg Bool.false_ne_true, outcomes, ← names]
      exact Declarations.compileInSequence_eq laid.sound laid.held
        laid.distinct

theorem Contract.compile_of_declared {contract : Contract}
    {declarations : Declarations}
    (declared : contract.declare = .ok declarations) (parallel : Bool) :
    contract.compile parallel =
      if (errorsOf contract.outcomes).isEmpty then
        match Artifact.link (valuesOf contract.outcomes) with
        | .ok artifact => .ok artifact
        | .error error => .error (.linking error)
      else .error (.functions (errorsOf contract.outcomes)) := by
  rw [← outcomes_eq declared parallel]
  unfold compile
  split
  next error failed =>
    rw [declared] at failed
    cases failed
  next found same =>
    rw [declared] at same
    cases same
    rfl

/-- Without errors, every outcome is a value. -/
theorem valuesOf_of_no_errors {ε α : Type} {outcomes : List (Except ε α)}
    (none : (errorsOf outcomes).isEmpty) :
    List.Forall₂ (fun outcome value => outcome = .ok value) outcomes
      (valuesOf outcomes) := by
  induction outcomes with
  | nil =>
      exact .nil
  | cons outcome rest inductionHypothesis =>
      cases outcome with
      | error error =>
          cases none
      | ok value =>
          exact .cons rfl (inductionHypothesis none)

/-- A contract compiles when its functions can be declared, every function has
code, and the codes can be linked. -/
theorem Contract.compile_eq_ok {contract : Contract} {parallel : Bool}
    {artifact : Artifact}
    (compiled : contract.compile parallel = .ok artifact) :
    Declarable contract.functions ∧ ∃ codes,
      List.Forall₂
        (fun function code =>
          function.outcome contract.functionNames = .ok code)
        contract.functions codes ∧
      Artifact.link codes = .ok artifact := by
  cases declared : contract.declare with
  | error error =>
      rw [compile, declared] at compiled
      cases compiled
  | ok declarations =>
      rw [compile_of_declared declared] at compiled
      split at compiled
      next none =>
        split at compiled
        · next found linked =>
            cases compiled
            refine ⟨(declare_eq_ok declared).1, _, ?_, linked⟩
            exact List.forall₂_map_left_iff.mp (valuesOf_of_no_errors none)
        · cases compiled
      next some =>
        cases compiled

end ContractCompiler
