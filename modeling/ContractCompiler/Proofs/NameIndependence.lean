/-
Contracts that differ in their names compile alike.

Functions are declared, compiled and linked in order, and names decide only
what is the same as what.  A map that keeps different identifiers apart changes
none of that: the linked code and the entry addresses stay, and a failure is
the same failure with other names.
-/

import ContractCompiler.Proofs.RenamedCode
import ContractCompiler.Text.Identifier

namespace ContractCompiler

/-! ### Results with other names -/

def FunctionError.rename (naming : String → String)
    (failure : FunctionError) : FunctionError :=
  ⟨naming failure.function, failure.error.rename naming⟩

def FunctionCode.rename (naming : String → String)
    (function : FunctionCode) : FunctionCode :=
  { function with name := naming function.name }

def FunctionEntry.rename (naming : String → String)
    (entry : FunctionEntry) : FunctionEntry :=
  { entry with name := naming entry.name }

def Artifact.rename (naming : String → String) (artifact : Artifact) :
    Artifact :=
  { artifact with
    functions := artifact.functions.map (FunctionEntry.rename naming) }

def CompileFailure.rename (naming : String → String) :
    CompileFailure → CompileFailure
  | .syntactic error => .syntactic error
  | .declaration error => .declaration (error.rename naming)
  | .functions errors =>
      .functions (errors.map (FunctionError.rename naming))
  | .linking error => .linking error

/-! ### Functions -/

namespace Faithful

variable {named : String → Prop} {naming : String → String}

private theorem entry_of_function (naming : String → String)
    (function : Function) (outside : List String) :
    (function.rename naming).entry (outside.map naming) =
      (function.entry outside).rename naming := by
  simp only [Function.entry, Function.environment, Function.typedParameters,
    Function.rename, Environment.rename, renameEntries, Parameter.rename,
    List.map_map, Function.comp_def]
  rfl

private theorem named_parameter {function : Function}
    (own : ∀ name ∈ function.names, named name) {parameter : Parameter}
    (member : parameter ∈ function.parameters) :
    named parameter.name := by
  apply own
  exact List.mem_cons_of_mem _
    (List.mem_append_left _ (List.mem_map_of_mem member))

private theorem namesOnly_entry {function : Function} {outside : List String}
    (own : ∀ name ∈ function.names, named name)
    (around : ∀ name ∈ outside, named name) :
    (function.entry outside).NamesOnly named := by
  constructor
  · intro name member
    obtain ⟨parameter, among, rfl⟩ := List.mem_map.mp member
    exact named_parameter own among
  · exact around
  · intro entry member
    obtain ⟨parameter, among, rfl⟩ := List.mem_map.mp member
    exact named_parameter own among
  · intro frame member
    cases member
  · intro entry member
    cases member

/-- A function has the same code under other names, or the same error. -/
theorem outcome_rename (faithful : Faithful named naming)
    {function : Function} {outside : List String}
    (own : ∀ name ∈ function.names, named name)
    (around : ∀ name ∈ outside, named name) :
    (function.rename naming).outcome (outside.map naming) =
      ((function.outcome outside).map
        (FunctionCode.rename naming)).mapError
          (FunctionError.rename naming) := by
  have ownBody : ∀ name ∈ Statement.namesAll function.body,
      named name := by
    intro name member
    exact own name (List.mem_cons_of_mem _ (List.mem_append_right _ member))
  obtain ⟨outcome, next, here, there, _⟩ :=
    Statement.codeAll_renames faithful function.body targetExtent
      (namesOnly_entry own around) ownBody
  have body : (function.rename naming).body =
      Statement.renameAll naming function.body := rfl
  rw [Function.outcome, Function.outcome, Function.code_eq,
    Function.code_eq, entry_of_function, body, here, there]
  cases outcome with
  | error error => rfl
  | ok fragment => rfl

/-! ### Declarations -/

private theorem parameterFailure_rename (faithful : Faithful named naming)
    {bound : List String} {parameters : List Parameter}
    (known : ∀ name ∈ bound, named name)
    (own : ∀ parameter ∈ parameters, named parameter.name) :
    parameterFailure? (bound.map naming)
        (parameters.map (Parameter.rename naming)) =
      (parameterFailure? bound parameters).map
        (BindingError.rename naming) := by
  induction parameters generalizing bound with
  | nil =>
      rfl
  | cons parameter rest inductionHypothesis =>
      obtain ⟨ownFirst, ownRest⟩ := List.forall_mem_cons.mp own
      rw [List.map_cons, parameterFailure?, parameterFailure?]
      by_cases void : parameter.type = .void
      · rw [if_pos void]
        exact if_pos void
      have taken : naming parameter.name ∈ bound.map naming ↔
          parameter.name ∈ bound := faithful.mem_map_iff known ownFirst
      have remaining := inductionHypothesis (List.forall_mem_append.mpr
        ⟨known, List.forall_mem_singleton.mpr ownFirst⟩) ownRest
      rw [List.map_append] at remaining
      rw [if_neg void, if_neg (show (parameter.rename naming).type ≠ .void
        from void)]
      by_cases again : parameter.name ∈ bound
      · rw [if_pos again]
        exact if_pos (taken.mpr again)
      · rw [if_neg again, ← remaining]
        exact if_neg (fun inside => again (taken.mp inside))

private theorem functionFailure_rename (faithful : Faithful named naming)
    {bound : List String} {functions : List Function}
    (known : ∀ name ∈ bound, named name)
    (own : ∀ function ∈ functions, ∀ name ∈ function.names, named name) :
    functionFailure? (bound.map naming)
        (functions.map (Function.rename naming)) =
      (functionFailure? bound functions).map
        (BindingError.rename naming) := by
  induction functions generalizing bound with
  | nil =>
      rfl
  | cons function rest inductionHypothesis =>
      obtain ⟨ownFirst, ownRest⟩ := List.forall_mem_cons.mp own
      have ownName : named function.name :=
        ownFirst function.name List.mem_cons_self
      have taken : naming function.name ∈ bound.map naming ↔
          function.name ∈ bound := faithful.mem_map_iff known ownName
      have remaining := inductionHypothesis (List.forall_mem_append.mpr
        ⟨known, List.forall_mem_singleton.mpr ownName⟩) ownRest
      rw [List.map_append] at remaining
      have inside : parameterFailure? []
          (function.rename naming).parameters =
          (parameterFailure? [] function.parameters).map
            (BindingError.rename naming) := by
        apply faithful.parameterFailure_rename (List.forall_mem_nil _)
        intro parameter member
        exact named_parameter ownFirst member
      rw [List.map_cons, functionFailure?, functionFailure?]
      by_cases again : function.name ∈ bound
      · rw [if_pos again]
        exact if_pos (taken.mpr again)
      · rw [if_neg again, if_neg (show (function.rename naming).name ∉
          bound.map naming from fun inside => again (taken.mp inside)),
          inside]
        cases parameterFailure? [] function.parameters with
        | none => exact remaining
        | some error => rfl

/-- The first name that cannot be bound is the same. -/
theorem declarationFailure_rename (faithful : Faithful named naming)
    {contract : Contract} (own : ∀ name ∈ contract.names, named name) :
    (contract.rename naming).declarationFailure? =
      contract.declarationFailure?.map (BindingError.rename naming) := by
  apply faithful.functionFailure_rename (List.forall_mem_nil _)
  intro function member name inside
  exact own name (List.mem_flatMap.mpr ⟨function, member, inside⟩)

/-- Under other names, a contract is declared when it was before. -/
theorem declare_rename (faithful : Faithful named naming)
    {contract : Contract} (own : ∀ name ∈ contract.names, named name) :
    (∃ error, contract.declare = .error error ∧
      (contract.rename naming).declare = .error (error.rename naming)) ∨
    ∃ declarations others, contract.declare = .ok declarations ∧
      (contract.rename naming).declare = .ok others := by
  have here := contract.declare_failsAs
  have there := (contract.rename naming).declare_failsAs
  rw [faithful.declarationFailure_rename own] at there
  cases expected : contract.declarationFailure? with
  | some error =>
      rw [expected] at here there
      exact Or.inl ⟨error, here.eq_error, there.eq_error⟩
  | none =>
      rw [expected] at here there
      obtain ⟨declarations, declared⟩ := here.exists_ok
      obtain ⟨others, declaredThere⟩ := there.exists_ok
      exact Or.inr ⟨declarations, others, declared, declaredThere⟩

/-! ### Linking -/

private theorem addFunctions_rename (naming : String → String)
    (artifact : Artifact) (functions : List FunctionCode) :
    (artifact.rename naming).addFunctions
        (functions.map (FunctionCode.rename naming)) =
      (artifact.addFunctions functions).map (Artifact.rename naming) := by
  induction functions generalizing artifact with
  | nil =>
      rfl
  | cons function rest inductionHypothesis =>
      rw [List.map_cons, Artifact.addFunctions, Artifact.addFunctions]
      simp only [Artifact.addFunction, Artifact.rename,
        FunctionCode.rename]
      cases Artifact.relocate artifact.code.byteLength function.code
          function.jumpSites with
      | error error => rfl
      | ok code =>
          simp only
          rw [← inductionHypothesis]
          simp only [Artifact.rename, List.map_append, List.map_cons,
            List.map_nil, FunctionEntry.rename]

private theorem link_rename (naming : String → String)
    (functions : List FunctionCode) :
    Artifact.link (functions.map (FunctionCode.rename naming)) =
      (Artifact.link functions).map (Artifact.rename naming) :=
  addFunctions_rename naming .empty functions

/-! ### Contracts -/

private theorem errorsOf_map {ε α : Type} (outcomes : List (Except ε α))
    (change : α → α) (complain : ε → ε) :
    errorsOf (outcomes.map fun outcome =>
        (outcome.map change).mapError complain) =
      (errorsOf outcomes).map complain := by
  induction outcomes with
  | nil =>
      rfl
  | cons outcome rest inductionHypothesis =>
      cases outcome with
      | error error =>
          exact congrArg (complain error :: ·) inductionHypothesis
      | ok value =>
          exact inductionHypothesis

private theorem valuesOf_map {ε α : Type} (outcomes : List (Except ε α))
    (change : α → α) (complain : ε → ε) :
    valuesOf (outcomes.map fun outcome =>
        (outcome.map change).mapError complain) =
      (valuesOf outcomes).map change := by
  induction outcomes with
  | nil =>
      rfl
  | cons outcome rest inductionHypothesis =>
      cases outcome with
      | error error =>
          exact inductionHypothesis
      | ok value =>
          exact congrArg (change value :: ·) inductionHypothesis

private theorem outcomes_rename (faithful : Faithful named naming)
    {contract : Contract} (own : ∀ name ∈ contract.names, named name) :
    (contract.rename naming).outcomes =
      contract.outcomes.map fun outcome =>
        (outcome.map (FunctionCode.rename naming)).mapError
          (FunctionError.rename naming) := by
  have ownFunction : ∀ function ∈ contract.functions,
      ∀ name ∈ function.names, named name := by
    intro function member name inside
    exact own name (List.mem_flatMap.mpr ⟨function, member, inside⟩)
  have around : ∀ name ∈ contract.functionNames, named name := by
    intro name member
    obtain ⟨function, among, rfl⟩ := List.mem_map.mp member
    exact ownFunction function among function.name List.mem_cons_self
  have names : (contract.rename naming).functionNames =
      contract.functionNames.map naming := by
    simp only [Contract.functionNames, Contract.rename, List.map_map,
      Function.comp_def, Function.rename]
  unfold Contract.outcomes
  rw [names, Contract.rename, List.map_map, List.map_map]
  apply List.map_congr_left
  intro function member
  exact faithful.outcome_rename (ownFunction function member) around

/-- A contract with other names compiles as before. -/
theorem compile_rename (faithful : Faithful named naming)
    {contract : Contract} (own : ∀ name ∈ contract.names, named name)
    (parallel : Bool) :
    (contract.rename naming).compile parallel =
      ((contract.compile parallel).map (Artifact.rename naming)).mapError
        (CompileFailure.rename naming) := by
  rcases faithful.declare_rename own with
    ⟨error, here, there⟩ | ⟨declarations, others, here, there⟩
  · rw [Contract.compile, Contract.compile, here, there]
    rfl
  · rw [Contract.compile_of_declared here,
      Contract.compile_of_declared there, faithful.outcomes_rename own,
      errorsOf_map, valuesOf_map, link_rename, List.isEmpty_map]
    by_cases fine : (errorsOf contract.outcomes).isEmpty = true
    · rw [if_pos fine, if_pos fine]
      cases Artifact.link (valuesOf contract.outcomes) <;> rfl
    · rw [if_neg fine, if_neg fine]
      rfl

end Faithful

section

variable [IdentifierCharacters]

def IsIdentifier (name : String) : Prop :=
  ∃ source, ∃ token ∈ tokenize source,
    token.kind = .identifier ∧ token.literal = name

private theorem plain_of_isIdentifier {name : String}
    (identifier : IsIdentifier name) : Plain name := by
  obtain ⟨source, token, member, kind, rfl⟩ := identifier
  exact tokensFrom_named .start source.toList token member kind

/-- Names do not influence code: when different identifiers become different
identifiers in a contract that is read, the code and the entry addresses stay,
and so does a failure, up to the names. -/
theorem Contract.compile_of_renamed {tokens : List Token}
    {contract : Contract} {naming : String → String}
    (scanned : ∀ token ∈ tokens, ∃ source, token ∈ tokenize source)
    (read : (readContract (.ofTokens tokens)).outcome.1 = .ok contract)
    (identifiers : ∀ name, IsIdentifier name → IsIdentifier (naming name))
    (injective : ∀ first second, IsIdentifier first → IsIdentifier second →
      naming first = naming second → first = second)
    (parallel : Bool) :
    (contract.rename naming).compile parallel =
      ((contract.compile parallel).map (Artifact.rename naming)).mapError
        (CompileFailure.rename naming) := by
  have faithful : Faithful IsIdentifier naming := by
    refine ⟨fun _ => plain_of_isIdentifier, ?_, injective⟩
    intro name identifier
    exact plain_of_isIdentifier (identifiers name identifier)
  have given : Named IsIdentifier
      (TokenStream.ofTokens tokens).upcoming := by
    intro token member kind
    obtain ⟨source, inside⟩ :=
      scanned token (List.takeWhile_subset _ member)
    exact ⟨source, token, inside, kind, rfl⟩
  exact faithful.compile_rename (readContract_named read given) parallel

end

open IdentifierTables

/-- A variable in a block has the name of the parameter, and another one has
the name of the function. -/
def crossedSource : String :=
  "contract\x7bfunc y(x int)\x7bif(x<3)\x7b" ++
    "string x=\"a\" int y=7 x y\x7d\x7d\x7d"

def crossed : Contract :=
  ⟨[⟨"y", [⟨"x", .int⟩], .void,
    [.ifThen (.binary .less (.identifier "x") (.integer 3))
      [.assigns .string "x" (.text "a"), .assigns .int "y" (.integer 7),
        .evaluates (.identifier "x"), .evaluates (.identifier "y")]]⟩]⟩

def crossing (name : String) : String :=
  if name = "x" then "y" else if name = "y" then "x" else name

private theorem crossing_crossing (name : String) :
    crossing (crossing name) = name := by
  unfold crossing
  by_cases first : name = "x"
  · simp [first]
  · by_cases second : name = "y"
    · simp [second]
    · simp [first, second]

private theorem isIdentifier_of_cut {name : String}
    (cut : (tokenize name).head? = some ⟨.identifier, name, 0, 1⟩) :
    IsIdentifier name :=
  ⟨name, _, List.mem_of_mem_head? cut, rfl, rfl⟩

private theorem isIdentifier_crossing {name : String}
    (identifier : IsIdentifier name) : IsIdentifier (crossing name) := by
  unfold crossing
  by_cases first : name = "x"
  · rw [if_pos first]
    exact isIdentifier_of_cut (by decide +kernel)
  · rw [if_neg first]
    by_cases second : name = "y"
    · rw [if_pos second]
      exact isIdentifier_of_cut (by decide +kernel)
    · rw [if_neg second]
      exact identifier

theorem Contract.compile_of_crossed :
    ∃ artifact,
      (readContract (.ofTokens (tokenize crossedSource))).outcome.1 =
        .ok crossed ∧
      crossed.compile true = .ok artifact ∧
      (crossed.rename crossing).compile true =
        .ok (artifact.rename crossing) := by
  have read : (readContract (.ofTokens
      (tokenize crossedSource))).outcome.1 = .ok crossed := by
    decide +kernel
  have compiles : (crossed.compile true).toOption.isSome = true := by
    decide +kernel
  cases compiled : crossed.compile true with
  | error failure =>
      rw [compiled] at compiles
      cases compiles
  | ok artifact =>
      refine ⟨artifact, read, rfl, ?_⟩
      have renamed := compile_of_renamed
        (fun token member => ⟨crossedSource, member⟩) read
        (fun _ => isIdentifier_crossing)
        (fun _ _ _ _ same => Function.Involutive.injective
          crossing_crossing same) true
      rw [compiled] at renamed
      exact renamed

end ContractCompiler
