/-
Contracts with other names.

A map on names is applied to every name of a contract: those of functions,
parameters and variables, and those that stand in expressions.  Where two names
that occur are not mapped to one, everything that is looked up by its name is
found again under the new name, in scopes and in memory alike.
-/

import Mathlib.Data.List.TakeWhile
import ContractCompiler.Proofs.Naming

namespace ContractCompiler

/-! ### Names of a contract -/

def Expression.names : Expression → List String
  | .identifier name => [name]
  | .binary _ left right => left.names ++ right.names
  | .unary _ operand => operand.names
  | _ => []

mutual

def Statement.names : Statement → List String
  | .returns none => []
  | .returns (some value) => value.names
  | .assigns _ name value => name :: value.names
  | .ifThen condition consequence =>
      condition.names ++ Statement.namesAll consequence
  | .ifThenElse condition consequence alternative =>
      condition.names ++ (Statement.namesAll consequence ++
        Statement.namesAll alternative)
  | .evaluates value => value.names

def Statement.namesAll : List Statement → List String
  | [] => []
  | statement :: rest => statement.names ++ Statement.namesAll rest

end

def Function.names (function : Function) : List String :=
  function.name :: (function.parameters.map Parameter.name ++
    Statement.namesAll function.body)

def Contract.names (contract : Contract) : List String :=
  contract.functions.flatMap Function.names

/-! ### Names in tokens -/

section

variable {named : String → Prop}

private theorem ExpressionTree.names_named {level : Nat}
    (tree : ExpressionTree level) (given : Named named tree.tokens) :
    ∀ name ∈ tree.expression.names, named name := by
  induction tree with
  | primary token expression stands =>
      intro name member
      cases stands with
      | identifier kind =>
          rw [List.mem_singleton.mp member]
          exact given token List.mem_cons_self kind
      | _ => cases member
  | parentheses opening inner closing inductionHypothesis =>
      exact inductionHypothesis given.tail.left
  | signed sign operator leads operand inductionHypothesis =>
      exact inductionHypothesis given.tail
  | tighter infixLevel inner inductionHypothesis =>
      exact inductionHypothesis given
  | joined left sign operator joins right leftHypothesis rightHypothesis =>
      exact List.forall_mem_append.mpr
        ⟨leftHypothesis given.left, rightHypothesis given.right.tail⟩

mutual

theorem StatementTree.names_named (tree : StatementTree)
    (given : Named named tree.tokens) :
    ∀ name ∈ tree.statement.names, named name := by
  match tree with
  | .returnsNothing word =>
      intro name member
      cases member
  | .returnsValue word value =>
      exact value.names_named given.tail
  | .assigns type name sign value =>
      exact List.forall_mem_cons.mpr
        ⟨given.right.head, value.names_named given.right.tail.tail⟩
  | .ifThen word opening condition closing consequence =>
      have inside := given.tail.tail
      exact List.forall_mem_append.mpr
        ⟨condition.names_named inside.left, consequence.names_named inside.right.tail⟩
  | .ifThenElse word opening condition closing consequence otherwise
      alternative =>
      have inside := given.tail.tail
      have branches := inside.right.tail
      exact List.forall_mem_append.mpr ⟨condition.names_named inside.left,
        List.forall_mem_append.mpr ⟨consequence.names_named branches.left,
          alternative.names_named branches.right.tail⟩⟩
  | .evaluates value =>
      exact value.names_named given

theorem BlockTree.names_named (tree : BlockTree)
    (given : Named named tree.tokens) :
    ∀ name ∈ Statement.namesAll tree.block, named name := by
  match tree with
  | .braces opening statements closing =>
      exact statements.names_named given.tail.left

theorem StatementsTree.names_named (tree : StatementsTree)
    (given : Named named tree.tokens) :
    ∀ name ∈ Statement.namesAll tree.statements, named name := by
  match tree with
  | .none =>
      intro name member
      cases member
  | .more first others =>
      exact List.forall_mem_append.mpr
        ⟨first.names_named given.left, others.names_named given.right⟩

end

private theorem FunctionTree.names_named (tree : FunctionTree)
    (given : Named named tree.tokens) :
    ∀ name ∈ tree.function.names, named name := by
  have own : named tree.name.val.literal := given.tail.head
  have regular := tree.regular given
  have inside := given.tail.tail.tail
  have body := tree.body.names_named inside.right.tail.right
  intro name member
  rcases List.mem_cons.mp member with rfl | member
  · exact own
  rcases List.mem_append.mp member with listed | listed
  · obtain ⟨parameter, among, rfl⟩ := List.mem_map.mp listed
    exact (regular.parameters parameter among).2
  · exact body name listed

/-- The names of a contract stand in the tokens from which it is read. -/
theorem readContract_named {stream : TokenStream} {contract : Contract}
    (read : (readContract stream).outcome.1 = .ok contract)
    (given : Named named stream.upcoming) :
    ∀ name ∈ contract.names, named name := by
  obtain ⟨tree, tokensEq, rfl, _⟩ := contract_derived
    (Reading.gives_iff_outcome.mpr (Prod.ext read rfl))
  rw [← tokensEq] at given
  intro name member
  obtain ⟨function, among, inside⟩ := List.mem_flatMap.mp member
  obtain ⟨functionTree, listed, rfl⟩ := List.mem_map.mp among
  have own : Named named functionTree.tokens := by
    intro token tokenMember
    exact given.tail.tail.left token
      (List.mem_flatMap.mpr ⟨functionTree, listed, tokenMember⟩)
  exact functionTree.names_named own name inside

end

/-! ### Other names -/

def Expression.rename (naming : String → String) : Expression → Expression
  | .identifier name => .identifier (naming name)
  | .integer value => .integer value
  | .text value => .text value
  | .boolean value => .boolean value
  | .binary operator left right =>
      .binary operator (left.rename naming) (right.rename naming)
  | .unary operator operand => .unary operator (operand.rename naming)

mutual

def Statement.rename (naming : String → String) : Statement → Statement
  | .returns none => .returns none
  | .returns (some value) => .returns (some (value.rename naming))
  | .assigns type name value =>
      .assigns type (naming name) (value.rename naming)
  | .ifThen condition consequence =>
      .ifThen (condition.rename naming)
        (Statement.renameAll naming consequence)
  | .ifThenElse condition consequence alternative =>
      .ifThenElse (condition.rename naming)
        (Statement.renameAll naming consequence)
        (Statement.renameAll naming alternative)
  | .evaluates value => .evaluates (value.rename naming)

def Statement.renameAll (naming : String → String) :
    List Statement → List Statement
  | [] => []
  | statement :: rest =>
      statement.rename naming :: Statement.renameAll naming rest

end

theorem Statement.rename_returns (naming : String → String)
    (value : Option Expression) :
    (Statement.returns value).rename naming =
      .returns (value.map (Expression.rename naming)) := by
  cases value <;> rfl

private theorem Expression.rename_id (expression : Expression) :
    expression.rename id = expression := by
  induction expression with
  | identifier name => rfl
  | integer value => rfl
  | text value => rfl
  | boolean value => rfl
  | binary operator left right leftHypothesis rightHypothesis =>
      rw [rename, leftHypothesis, rightHypothesis]
  | unary operator operand inductionHypothesis =>
      rw [rename, inductionHypothesis]

mutual

theorem Statement.rename_id (statement : Statement) :
    statement.rename id = statement := by
  match statement with
  | .returns none => rfl
  | .returns (some value) =>
      rw [Statement.rename, value.rename_id]
  | .assigns type name value =>
      rw [Statement.rename, value.rename_id, id]
  | .ifThen condition consequence =>
      rw [Statement.rename, condition.rename_id,
        Statement.renameAll_id consequence]
  | .ifThenElse condition consequence alternative =>
      rw [Statement.rename, condition.rename_id,
        Statement.renameAll_id consequence,
        Statement.renameAll_id alternative]
  | .evaluates value =>
      rw [Statement.rename, value.rename_id]

theorem Statement.renameAll_id (block : Block) :
    Statement.renameAll id block = block := by
  match block with
  | [] => rfl
  | statement :: rest =>
      rw [Statement.renameAll, statement.rename_id,
        Statement.renameAll_id rest]

end

def Parameter.rename (naming : String → String) (parameter : Parameter) :
    Parameter :=
  { parameter with name := naming parameter.name }

def Function.rename (naming : String → String) (function : Function) :
    Function where
  name := naming function.name
  parameters := function.parameters.map (Parameter.rename naming)
  returnType := function.returnType
  body := Statement.renameAll naming function.body

def Contract.rename (naming : String → String) (contract : Contract) :
    Contract :=
  ⟨contract.functions.map (Function.rename naming)⟩

/-! ### Errors with other names -/

def BindingError.rename (naming : String → String) :
    BindingError → BindingError
  | .redefined name => .redefined (naming name)
  | .voidBinding name => .voidBinding (naming name)

/-- The name under which a variable has its memory, when the variable has
another name.  The number of its block, which stands behind a separator, is
kept. -/
def renameId (naming : String → String) (id : String) : String :=
  naming (String.ofList (id.toList.takeWhile (· != '@'))) ++
    String.ofList (id.toList.dropWhile (· != '@'))

def CodeError.rename (naming : String → String) : CodeError → CodeError
  | .undefined name => .undefined (naming name)
  | .notAValue name => .notAValue (naming name)
  | .binding error => .binding (error.rename naming)
  | .entry missing => .entry ⟨renameId naming missing.id⟩
  | .typeMismatch expected found => .typeMismatch expected found
  | .unsupportedOperator operator operand =>
      .unsupportedOperator operator operand
  | .integerOverflow value => .integerOverflow value
  | .assembly error => .assembly error

theorem renameId_memoryId (naming : String → String) {name : String}
    (plain : Plain name) (block : Nat) :
    renameId naming (memoryId name block) =
      memoryId (naming name) block := by
  have kept : ∀ character ∈ name.toList, (character != '@') = true := by
    intro character member
    rw [bne_iff_ne]
    intro separator
    subst separator
    exact plain member
  apply String.toList_inj.mp
  rw [renameId, String.toList_append, toList_memoryId, toList_memoryId,
    String.toList_ofList]
  by_cases own : block = 0
  · simp only [own, if_true]
    rw [List.takeWhile_eq_self_iff.mpr kept,
      List.dropWhile_eq_nil_iff.mpr kept, String.ofList_toList,
      List.append_nil]
  · simp only [own, if_false]
    rw [List.takeWhile_append_of_pos kept, List.dropWhile_append_of_pos kept,
      List.takeWhile_cons_of_neg (by decide),
      List.dropWhile_cons_of_neg (by decide), List.append_nil,
      String.ofList_toList]

/-! ### Looking up other names -/

/-- A map does not send two names with a property to one, and the names that it
gives do not hold the separator of block numbers, as those with the property
do not. -/
structure Faithful (named : String → Prop) (naming : String → String) :
    Prop where
  plain : ∀ name, named name → Plain name
  plainThere : ∀ name, named name → Plain (naming name)
  injective : ∀ first second, named first → named second →
    naming first = naming second → first = second

theorem lookup_map {α : Type} {change : String → String} {key : String}
    {entries : List (String × α)}
    (injective : ∀ entry ∈ entries,
      change key = change entry.1 → key = entry.1) :
    (entries.map fun entry => (change entry.1, entry.2)).lookup
      (change key) = entries.lookup key := by
  induction entries with
  | nil =>
      rfl
  | cons entry rest inductionHypothesis =>
      have remaining := inductionHypothesis fun other member =>
        injective other (List.mem_cons_of_mem entry member)
      rw [List.map_cons, List.lookup_cons, List.lookup_cons, remaining]
      by_cases same : key = entry.1
      · rw [same, beq_self_eq_true, beq_self_eq_true]
      · have apart : change key ≠ change entry.1 :=
          fun equal => same (injective entry List.mem_cons_self equal)
        rw [beq_false_of_ne same, beq_false_of_ne apart]

namespace Faithful

variable {named : String → Prop} {naming : String → String}

theorem mem_map_iff (faithful : Faithful named naming)
    {names : List String} (known : ∀ name ∈ names, named name)
    {name : String} (own : named name) :
    naming name ∈ names.map naming ↔ name ∈ names := by
  constructor
  · intro member
    obtain ⟨other, inside, same⟩ := List.mem_map.mp member
    have equal := faithful.injective other name (known other inside) own same
    rw [← equal]
    exact inside
  · exact List.mem_map_of_mem

theorem contains_map (faithful : Faithful named naming)
    {names : List String} (known : ∀ name ∈ names, named name)
    {name : String} (own : named name) :
    (names.map naming).contains (naming name) = names.contains name := by
  rw [Bool.eq_iff_iff, List.contains_iff_mem, List.contains_iff_mem]
  exact faithful.mem_map_iff known own

theorem idxOf_map (faithful : Faithful named naming)
    {names : List String} (known : ∀ name ∈ names, named name)
    {name : String} (own : named name) :
    (names.map naming).idxOf? (naming name) = names.idxOf? name := by
  induction names with
  | nil =>
      rfl
  | cons first rest inductionHypothesis =>
      have remaining := inductionHypothesis fun other member =>
        known other (List.mem_cons_of_mem first member)
      rw [List.map_cons, List.idxOf?_cons, List.idxOf?_cons, remaining]
      by_cases same : first = name
      · rw [same, beq_self_eq_true, beq_self_eq_true]
      · have apart : naming first ≠ naming name := fun equal =>
          same (faithful.injective first name
            (known first List.mem_cons_self) own equal)
        rw [beq_false_of_ne same, beq_false_of_ne apart]

/-- Names of memory stay apart. -/
theorem renameId_injective (faithful : Faithful named naming)
    {first second : String} {block other : Nat} (own : named first)
    (ownToo : named second)
    (same : renameId naming (memoryId first block) =
      renameId naming (memoryId second other)) :
    memoryId first block = memoryId second other := by
  rw [renameId_memoryId naming (faithful.plain first own),
    renameId_memoryId naming (faithful.plain second ownToo)] at same
  obtain ⟨names, blocks⟩ := memoryId_injective
    (faithful.plainThere first own) (faithful.plainThere second ownToo) same
  rw [faithful.injective first second own ownToo names, blocks]

end Faithful

end ContractCompiler
