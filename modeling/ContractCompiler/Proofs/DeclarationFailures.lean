/-
Why a contract cannot be declared.

Functions are declared in order, the name of each before its parameters.  The
first name that is bound already, or the first parameter without a value, ends
the declaration and is reported.
-/

import ContractCompiler.Proofs.Declaring

namespace ContractCompiler

def parameterFailure? (bound : List String) :
    List Parameter → Option BindingError
  | [] => none
  | parameter :: rest =>
      if parameter.type = .void then some (.voidBinding parameter.name)
      else if parameter.name ∈ bound then some (.redefined parameter.name)
      else parameterFailure? (bound ++ [parameter.name]) rest

/-- The first name of some functions and their parameters that cannot be bound,
next to functions with some names. -/
def functionFailure? (bound : List String) :
    List Function → Option BindingError
  | [] => none
  | function :: rest =>
      if function.name ∈ bound then some (.redefined function.name)
      else
        match parameterFailure? [] function.parameters with
        | some error => some error
        | none => functionFailure? (bound ++ [function.name]) rest

def Contract.declarationFailure? (contract : Contract) :
    Option BindingError :=
  functionFailure? [] contract.functions

def FailsAs {α : Type} (outcome : Except BindingError α)
    (expected : Option BindingError) : Prop :=
  match outcome with
  | .error error => expected = some error
  | .ok _ => expected = none

section

variable {α : Type} {outcome : Except BindingError α}

theorem FailsAs.eq_error {error : BindingError}
    (fails : FailsAs outcome (some error)) : outcome = .error error := by
  cases outcome with
  | error other =>
      cases fails
      rfl
  | ok value => cases fails

theorem FailsAs.exists_ok (fails : FailsAs outcome none) :
    ∃ value, outcome = .ok value := by
  cases outcome with
  | error other => cases fails
  | ok value => exact ⟨value, rfl⟩

end

private theorem declareParameters_failsAs {store : Store} {scope : ScopeId}
    (parameters : List Parameter) (sound : store.Sound)
    (inside : scope < store.scopes.length) :
    FailsAs (declareParameters store scope parameters)
      (parameterFailure? ((store.bindings scope).map Prod.fst)
        parameters) := by
  induction parameters generalizing store with
  | nil =>
      rfl
  | cons parameter rest inductionHypothesis =>
      rw [declareParameters, parameterFailure?]
      by_cases void : parameter.type = .void
      · rw [if_pos void, void, Store.defineVariable_void]
        rfl
      rw [if_neg void]
      by_cases taken : parameter.name ∈ (store.bindings scope).map Prod.fst
      · rw [if_pos taken,
          Store.defineVariable_of_bound parameter.name void taken]
        rfl
      rw [if_neg taken]
      obtain ⟨symbol, _, defined⟩ :=
        Store.defineVariable_of_free parameter.name void taken
      obtain ⟨_, _, extended, names, _⟩ :=
        Store.defineVariable_eq_ok sound inside defined
      have insideStill : scope < (store.bound scope parameter.name
          symbol).scopes.length := by
        rw [extended.scopes]
        exact inside
      rw [defined, ← names]
      exact inductionHypothesis extended.sound insideStill

private theorem declareFunction_failsAs {store : Store} {scope : ScopeId}
    (function : Function) (sound : store.Sound)
    (inside : scope < store.scopes.length) :
    FailsAs (declareFunction store scope function)
      (if function.name ∈ (store.bindings scope).map Prod.fst then
        some (.redefined function.name)
      else parameterFailure? [] function.parameters) := by
  rw [Store.declareFunction_eq]
  by_cases taken : function.name ∈ (store.bindings scope).map Prod.fst
  · rw [if_pos taken, if_pos taken]
    rfl
  · rw [if_neg taken, if_neg taken]
    have extended := Store.withFunction_extends function sound inside
    have empty := (Store.withFunction_own function sound inside).2
    have ownInside : store.scopes.length <
        (store.withFunction scope function).scopes.length := by
      rw [extended.scopes, Store.length_newScope]
      exact Nat.lt_succ_self _
    have fails := declareParameters_failsAs function.parameters
      extended.sound ownInside
    rw [empty] at fails
    exact fails

private theorem declareFunctions_failsAs {store : Store} {scope : ScopeId}
    {before : List Function} {owns : List ScopeId} (functions : List Function)
    (declared : store.Declared scope before owns) :
    FailsAs (declareFunctions store scope functions)
      (functionFailure? (before.map Function.name) functions) := by
  induction functions generalizing store before owns with
  | nil =>
      rfl
  | cons function rest inductionHypothesis =>
      have first := declareFunction_failsAs function declared.sound
        declared.inside
      rw [declared.names] at first
      rw [declareFunctions, functionFailure?]
      cases stepped : declareFunction store scope function with
      | error error =>
          rw [stepped] at first
          by_cases taken : function.name ∈ before.map Function.name
          · rw [if_pos taken] at first ⊢
            exact first
          · rw [if_neg taken] at first ⊢
            rw [show parameterFailure? [] function.parameters = some error
              from first]
            rfl
      | ok next =>
          rw [stepped] at first
          by_cases taken : function.name ∈ before.map Function.name
          · rw [if_pos taken] at first
            cases first
          · rw [if_neg taken] at first ⊢
            have behind := inductionHypothesis (declared.step stepped)
            rw [List.map_append] at behind
            rw [show parameterFailure? [] function.parameters = none
              from first]
            exact behind

/-- Declaring a contract fails with the first name that cannot be bound. -/
theorem Contract.declare_failsAs (contract : Contract) :
    FailsAs contract.declare contract.declarationFailure? := by
  have fails := declareFunctions_failsAs contract.functions
    Declarations.start_declared
  unfold declare
  simp only
  cases finished : declareFunctions Declarations.start.store
      Declarations.start.scope contract.functions with
  | error error =>
      rw [finished] at fails
      exact fails
  | ok store =>
      rw [finished] at fails
      exact fails

end ContractCompiler
