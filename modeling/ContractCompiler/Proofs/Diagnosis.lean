/-
Which contracts are accepted, and what is reported about the others.

A function has code exactly when it is well typed, as long as addresses fit in
a word.  A contract whose names are distinct fails with the errors of its
functions, so it is accepted when all of them are well typed, and otherwise
the others are named, in order.
-/

import ContractCompiler.Proofs.Acceptance
import ContractCompiler.Text.Identifier

namespace ContractCompiler

/-! ### Functions -/

namespace Function

variable {function : Function} {named : String → Prop}
  (outside : List String)

private theorem properScopes (regular : function.Regular named) :
    ProperScopes [function.typedParameters] := by
  intro scope member entry inside
  rw [List.mem_singleton.mp member] at inside
  rcases List.mem_map.mp inside with ⟨parameter, listed, rfl⟩
  exact (regular.parameters parameter listed).1

private theorem entry_recorded : (function.entry outside).Recorded := by
  intro block member entry inside
  rw [List.mem_singleton.mp member] at inside ⊢
  rcases List.mem_map.mp inside with ⟨parameter, listed, rfl⟩
  exact Or.inl ⟨rfl, List.mem_map_of_mem listed⟩

private theorem wellTyped_of_outcome {code : FunctionCode}
    (regular : function.Regular named)
    (compiled : function.outcome outside = .ok code) :
    function.WellTyped := by
  rcases outcome_eq_ok compiled with ⟨body, final, generated, _⟩
  exact generated.wellTyped regular.body (properScopes regular)

private theorem outcome_of_wellTyped (regular : function.Regular named)
    (typed : function.WellTyped) {error : FunctionError}
    (failed : function.outcome outside = .error error) :
    ∃ address, error.error = .assembly (.addressOverflow address) := by
  have accepted : Accepted (Statement.codeAll targetExtent
      (function.entry outside) function.body).1 :=
    Block.WellTyped.accepted typed (properScopes regular) targetExtent rfl
      rfl (entry_recorded outside)
  rw [outcome, Function.code_eq] at failed
  cases compiled : Statement.codeAll targetExtent (function.entry outside)
      function.body with
  | mk outcome final =>
      rw [compiled] at accepted failed
      rcases accepted with ⟨body, rfl⟩ | ⟨address, rfl⟩
      · cases failed
      · cases failed
        exact ⟨address, rfl⟩

end Function

/-! ### Contracts -/

def CompileFailure.IsOverflow : CompileFailure → Prop
  | .syntactic _ => False
  | .declaration _ => False
  | .functions errors => ∀ error ∈ errors,
      ∃ address, error.error = .assembly (.addressOverflow address)
  | .linking error => ∃ address, error = .addressOverflow address

namespace Contract

variable {contract : Contract} {named : String → Prop} {parallel : Bool}

def errorOf (contract : Contract) (function : Function) :
    Option FunctionError :=
  match function.outcome contract.functionNames with
  | .error error => some error
  | .ok _ => none

private theorem errorsOf_outcomes (contract : Contract) :
    errorsOf contract.outcomes =
      contract.functions.filterMap contract.errorOf := by
  unfold errorsOf outcomes errorOf
  rw [List.filterMap_map]
  refine List.filterMap_congr ?_
  intro function _
  rw [Function.comp_apply]
  cases function.outcome contract.functionNames <;> rfl

private theorem declarable_of_regular (regular : contract.Regular named)
    (names : (contract.functions.map Function.name).Nodup)
    (parameters : ∀ function ∈ contract.functions,
      (function.parameters.map Parameter.name).Nodup) :
    Declarable contract.functions :=
  ⟨names, parameters, fun function member parameter listed =>
    ((regular function member).parameters parameter listed).1⟩

private theorem errorOf_eq_some {function : Function} {error : FunctionError} :
    contract.errorOf function = some error ↔
      function.outcome contract.functionNames = .error error := by
  unfold errorOf
  cases function.outcome contract.functionNames with
  | ok code => exact ⟨nofun, nofun⟩
  | error found => simp only [Option.some.injEq, Except.error.injEq]

private theorem wellTyped_of_compiled {artifact : Artifact}
    (regular : contract.Regular named)
    (compiled : contract.compile parallel = .ok artifact) :
    contract.WellTyped := by
  rcases compile_eq_ok compiled with ⟨declarable, codes, coded, _⟩
  refine ⟨declarable.names, declarable.parameters, ?_⟩
  intro function member
  rcases exists_of_forall₂ coded function member with ⟨_, _, compiledHere⟩
  exact Function.wellTyped_of_outcome _ (regular function member)
    compiledHere

/-- Linking the functions of a contract fails only for an address that is too
large. -/
theorem link_overflows {error : AssemblyError}
    (none : (errorsOf contract.outcomes).isEmpty)
    (failed : Artifact.link (valuesOf contract.outcomes) = .error error) :
    ∃ address, error = .addressOverflow address := by
  have coded := List.forall₂_map_left_iff.mp (valuesOf_of_no_errors none)
  rcases Artifact.addFunctions_of_compiled .empty coded with
    ⟨address, overflows⟩ | ⟨_, _, _, added⟩
  · rw [Artifact.link, outcomes, overflows] at failed
    cases failed
    exact ⟨address, rfl⟩
  · rw [Artifact.link, outcomes, added] at failed
    cases failed

private theorem overflow_of_wellTyped {failure : CompileFailure}
    (regular : contract.Regular named) (typed : contract.WellTyped)
    (failed : contract.compile parallel = .error failure) :
    failure.IsOverflow := by
  rcases declare_succeeds
    (declarable_of_regular regular typed.names typed.parameters) with
    ⟨declarations, declared⟩
  rw [compile_of_declared declared] at failed
  split at failed
  next none =>
    split at failed
    · cases failed
    next error unlinked =>
      cases failed
      exact link_overflows none unlinked
  next some =>
    cases failed
    intro error member
    rw [errorsOf_outcomes] at member
    rcases List.mem_filterMap.mp member with ⟨function, listed, found⟩
    exact Function.outcome_of_wellTyped _ (regular function listed)
      (typed.bodies function listed) (errorOf_eq_some.mp found)

private theorem errors_of_declarable
    (declarable : Declarable contract.functions) :
    (∀ function ∈ contract.functions, contract.errorOf function = none) ∨
      contract.compile parallel =
        .error (.functions
          (contract.functions.filterMap contract.errorOf)) := by
  rcases declare_succeeds declarable with ⟨declarations, declared⟩
  rw [compile_of_declared declared, errorsOf_outcomes]
  split
  next none =>
    refine Or.inl ?_
    rw [List.isEmpty_iff, List.filterMap_eq_nil_iff] at none
    exact none
  next some =>
    exact Or.inr rfl

private theorem declaration_of_not_distinct
    (repeated : ¬ ((contract.functions.map Function.name).Nodup ∧
      ∀ function ∈ contract.functions,
        (function.parameters.map Parameter.name).Nodup)) :
    ∃ error, contract.compile parallel = .error (.declaration error) := by
  cases declared : contract.declare with
  | error error =>
      exact ⟨error, by rw [compile, declared]⟩
  | ok declarations =>
      have declarable := (declare_eq_ok declared).1
      exact absurd ⟨declarable.names, declarable.parameters⟩ repeated

/-- Errors name the functions that are not well typed, in order and at most
once each.  A function that is well typed is named only for an address that is
too large. -/
structure Reports (contract : Contract) (errors : List FunctionError) :
    Prop where
  ordered : (errors.map FunctionError.function).Sublist
    (contract.functions.map Function.name)
  complete : ∀ function ∈ contract.functions, ¬ function.WellTyped →
    function.name ∈ errors.map FunctionError.function
  sound : ∀ error ∈ errors,
    (∃ address, error.error = .assembly (.addressOverflow address)) ∨
      ∃ function ∈ contract.functions, function.name = error.function ∧
        ¬ function.WellTyped

private theorem errorOf_function {function : Function} {error : FunctionError}
    (found : contract.errorOf function = some error) :
    error.function = function.name := by
  have failed := errorOf_eq_some.mp found
  unfold Function.outcome at failed
  split at failed
  · cases failed
    rfl
  · cases failed

private theorem errorOf_of_not_wellTyped {function : Function}
    (regular : function.Regular named) (illTyped : ¬ function.WellTyped) :
    ∃ error, contract.errorOf function = some error := by
  cases outcome : function.outcome contract.functionNames with
  | error error =>
      exact ⟨error, errorOf_eq_some.mpr outcome⟩
  | ok code =>
      exact absurd (Function.wellTyped_of_outcome _ regular outcome) illTyped

private theorem reports_errors (regular : contract.Regular named) :
    contract.Reports (contract.functions.filterMap contract.errorOf) where
  ordered := by
    induction contract.functions with
    | nil =>
        exact List.Sublist.slnil
    | cons function rest inductionHypothesis =>
        cases found : contract.errorOf function with
        | none =>
            rw [List.filterMap_cons_none found]
            exact inductionHypothesis.cons _
        | some error =>
            rw [List.filterMap_cons_some found, List.map_cons,
              List.map_cons, errorOf_function found]
            exact inductionHypothesis.cons_cons _
  complete := by
    intro function member illTyped
    rcases errorOf_of_not_wellTyped (regular function member) illTyped with
      ⟨error, found⟩
    rw [← errorOf_function found]
    exact List.mem_map_of_mem (List.mem_filterMap.mpr ⟨_, member, found⟩)
  sound := by
    intro error member
    rcases List.mem_filterMap.mp member with ⟨function, listed, found⟩
    by_cases typed : function.WellTyped
    · exact Or.inl (Function.outcome_of_wellTyped _
        (regular function listed) typed (errorOf_eq_some.mp found))
    · exact Or.inr ⟨function, listed, (errorOf_function found).symm, typed⟩

private theorem reports_of_not_wellTyped (regular : contract.Regular named)
    (names : (contract.functions.map Function.name).Nodup)
    (parameters : ∀ function ∈ contract.functions,
      (function.parameters.map Parameter.name).Nodup)
    (illTyped : ¬ contract.WellTyped) :
    ∃ errors, contract.compile parallel = .error (.functions errors) ∧
      contract.Reports errors := by
  have declarable := declarable_of_regular regular names parameters
  refine ⟨_, ?_, reports_errors regular⟩
  rcases errors_of_declarable declarable with none | failed
  · refine absurd ⟨names, parameters, ?_⟩ illTyped
    intro function member
    by_contra untyped
    rcases errorOf_of_not_wellTyped (regular function member) untyped with
      ⟨error, found⟩
    rw [none function member] at found
    cases found
  · exact failed

/-- Compiling accepts exactly the well-typed contracts among those that can be
read, as long as addresses fit in a word.  With names declared twice the
declarations fail; otherwise the functions that are not well typed are
reported. -/
theorem compile_accepts_wellTyped {stream : TokenStream}
    (read : (readContract stream).outcome.1 = .ok contract)
    (parallel : Bool) :
    (∀ artifact, contract.compile parallel = .ok artifact →
        contract.WellTyped) ∧
      (contract.WellTyped → ∀ failure,
        contract.compile parallel = .error failure → failure.IsOverflow) ∧
      (¬ ((contract.functions.map Function.name).Nodup ∧
          ∀ function ∈ contract.functions,
            (function.parameters.map Parameter.name).Nodup) →
        ∃ error, contract.compile parallel = .error (.declaration error)) ∧
      ((contract.functions.map Function.name).Nodup →
        (∀ function ∈ contract.functions,
          (function.parameters.map Parameter.name).Nodup) →
        ¬ contract.WellTyped →
        ∃ errors, contract.compile parallel = .error (.functions errors) ∧
          contract.Reports errors) := by
  have regular : contract.Regular fun _ => True :=
    readContract_regular read fun _ _ _ => trivial
  refine ⟨?_, ?_, ?_, ?_⟩
  · intro artifact compiled
    exact wellTyped_of_compiled regular compiled
  · intro typed failure failed
    exact overflow_of_wellTyped regular typed failed
  · intro repeated
    exact declaration_of_not_distinct repeated
  · intro names parameters illTyped
    exact reports_of_not_wellTyped regular names parameters illTyped

/-- A parameter is tested, and a truth value of the same name is declared in
the block behind the test. -/
def shadowingSource : String :=
  "contract\x7bfunc f(x int)\x7bif(x<3)\x7bbool x=true !x\x7d\x7d\x7d"

open IdentifierTables

theorem compile_accepts_shadowing :
    ∃ contract artifact,
      (readContract (.ofTokens (tokenize shadowingSource))).outcome.1 =
        .ok contract ∧
      contract.compile true = .ok artifact ∧ contract.WellTyped := by
  have read :
      (readContract (.ofTokens (tokenize shadowingSource))).outcome.1 =
        .ok ⟨[⟨"f", [⟨"x", .int⟩], .void,
          [.ifThen (.binary .less (.identifier "x") (.integer 3))
            [.assigns .bool "x" (.boolean true),
              .evaluates (.unary .not (.identifier "x"))]]⟩]⟩ := by
    decide +kernel
  have known : (Contract.compile true ⟨[⟨"f", [⟨"x", .int⟩], .void,
      [.ifThen (.binary .less (.identifier "x") (.integer 3))
        [.assigns .bool "x" (.boolean true),
          .evaluates (.unary .not (.identifier "x"))]]⟩]⟩).map
      Artifact.functions = .ok [⟨"f", 0⟩] := by
    decide +kernel
  obtain ⟨artifact, compiled, _⟩ := exists_of_map_eq_ok known
  exact ⟨_, artifact, read, compiled,
    (compile_accepts_wellTyped read true).1 artifact compiled⟩

end Contract

end ContractCompiler
