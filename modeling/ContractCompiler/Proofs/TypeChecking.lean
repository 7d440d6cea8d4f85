/-
The generator of code accepts what is well typed.

Checking types, looking names up and finding memory are one pass over three
structures.  They agree: whatever passes the checks is well typed, and whatever
is well typed has code, unless an address does not fit in a word.
-/

import ContractCompiler.Proofs.Linking
import ContractCompiler.Proofs.Regularity
import ContractCompiler.Proofs.TypeRules

namespace ContractCompiler

/-! ### Types that are found -/

theorem Operator.resultBetween_eq_ok {operator : Operator}
    {left right result : ValueType} :
    operator.resultBetween left right = .ok result ↔
      (operator.IsArithmetic ∧ left = .int ∧ right = .int ∧ result = .int) ∨
      (operator.IsOrdering ∧ left = .int ∧ right = .int ∧ result = .bool) ∨
      ((operator = .equal ∨ operator = .notEqual) ∧ right = left ∧
        left ≠ .string ∧ result = .bool) ∨
      ((operator = .and ∨ operator = .or ∨ operator = .not) ∧
        left = .bool ∧ right = .bool ∧ result = .bool) := by
  have supported : ∀ tested : Operator,
      (if left = .string then do
          throw (.unsupportedOperator tested left)
          pure .bool
        else pure .bool : Except CodeError ValueType) = .ok result ↔
        left ≠ .string ∧ result = .bool := by
    intro tested
    split
    next text =>
      exact ⟨nofun, fun given => absurd text given.1⟩
    next other =>
      rw [pure_eq_ok]
      exact ⟨fun same => ⟨other, same⟩, fun given => given.2⟩
  cases operator <;>
    simp only [resultBetween, requireType_bind_eq_ok, pure_eq_ok, supported,
      IsArithmetic, IsOrdering, reduceCtorEq, or_false, false_or, true_and,
      false_and]

namespace Expression

variable {environment : Environment} {type : ValueType}

theorem typeIn_identifier {name : String} :
    (identifier name).typeIn environment = .ok type ↔
      findName environment.scopes name = some type := by
  simp only [typeIn, bind_eq_ok, pure_eq_ok, Prod.exists,
    Environment.binding_eq_ok, environment.findName_scopes,
    Option.map_eq_some_iff]
  constructor
  · rintro ⟨_, _, ⟨block, found, _⟩, rfl⟩
    exact ⟨block, type, found, rfl⟩
  · rintro ⟨block, _, found, rfl⟩
    exact ⟨_, _, ⟨block, found, rfl⟩, rfl⟩

theorem typeIn_unary {operator : Operator} {operand : Expression} :
    (unary operator operand).typeIn environment = .ok type ↔
      operand.typeIn environment = .ok operator.typeBefore ∧
        type = operator.typeBefore := by
  simp only [typeIn, bind_eq_ok, requireType_eq_ok, pure_eq_ok]
  constructor
  · rintro ⟨_, typed, _, rfl, rfl⟩
    exact ⟨typed, rfl⟩
  · rintro ⟨typed, rfl⟩
    exact ⟨_, typed, ⟨⟩, rfl, rfl⟩

theorem typeIn_binary {operator : Operator} {left right : Expression} :
    (binary operator left right).typeIn environment = .ok type ↔
      ∃ leftType rightType, left.typeIn environment = .ok leftType ∧
        right.typeIn environment = .ok rightType ∧
        operator.resultBetween leftType rightType = .ok type := by
  simp only [typeIn, bind_eq_ok]
  constructor
  · rintro ⟨leftType, onLeft, rightType, onRight, given⟩
    exact ⟨leftType, rightType, onLeft, onRight, given⟩
  · rintro ⟨leftType, rightType, onLeft, onRight, given⟩
    exact ⟨leftType, onLeft, rightType, onRight, given⟩

end Expression

/-! ### What passes the checks is well typed -/

def ProperScopes (scopes : List (List (String × ValueType))) : Prop :=
  ∀ scope ∈ scopes, ∀ entry ∈ scope, entry.2 ≠ .void

theorem mem_of_lookup {α : Type} {names : List (String × α)} {name : String}
    {found : α} (bound : names.lookup name = some found) :
    (name, found) ∈ names := by
  rcases List.lookup_eq_some_iff.mp bound with ⟨before, after, rfl, _⟩
  exact List.mem_append_right _ List.mem_cons_self

private theorem mem_of_findName {α : Type} {scopes : List (List (String × α))}
    {name : String} {found : α} (bound : findName scopes name = some found) :
    ∃ scope ∈ scopes, (name, found) ∈ scope := by
  rcases List.exists_of_findSome?_eq_some bound with ⟨scope, member, here⟩
  exact ⟨scope, member, mem_of_lookup here⟩

theorem Expression.HasType.ne_void
    {scopes : List (List (String × ValueType))} {expression : Expression}
    {type : ValueType} (typed : expression.HasType scopes type)
    (proper : ProperScopes scopes) : type ≠ .void := by
  cases typed with
  | identifier found =>
      rcases mem_of_findName found with ⟨scope, inside, member⟩
      exact proper scope inside _ member
  | integer fits => exact nofun
  | text value => exact nofun
  | boolean value => exact nofun
  | negative number => exact nofun
  | negation truth => exact nofun
  | arithmetic computes onLeft onRight => exact nofun
  | ordering compares onLeft onRight => exact nofun
  | equality tests comparable onLeft onRight => exact nofun
  | logic connects onLeft onRight => exact nofun

theorem Word.ofInteger_eq_some {value : Int} {word : Word} :
    ofInteger? value = some word ↔
      (-0x80000000 ≤ value ∧ value < 0x80000000) ∧
        word = BitVec.ofInt 32 value := by
  unfold ofInteger?
  split
  next fits =>
    rw [Option.some.injEq]
    exact ⟨fun same => ⟨fits, same.symm⟩, fun given => given.2.symm⟩
  next overflows =>
    exact ⟨nofun, fun given => absurd given.1 overflows⟩

/-- An expression with a type and with code has that type. -/
theorem Expression.hasType_of_code {environment : Environment}
    {expression : Expression} {type : ValueType} {code : List Instruction}
    (regular : expression.Regular)
    (proper : ProperScopes environment.scopes)
    (typed : expression.typeIn environment = .ok type)
    (coded : expression.code environment = .ok code) :
    expression.HasType environment.scopes type := by
  induction expression generalizing type code with
  | identifier name =>
      exact .identifier (typeIn_identifier.mp typed)
  | integer value =>
      cases typed
      rcases code_integer.mp coded with ⟨word, fits, _⟩
      exact .integer (Word.ofInteger_eq_some.mp fits).1
  | text value =>
      cases typed
      exact .text value
  | boolean value =>
      cases typed
      exact .boolean value
  | binary operator left right leftHypothesis rightHypothesis =>
      rcases regular with ⟨infixed, leftRegular, rightRegular⟩
      rcases typeIn_binary.mp typed with
        ⟨leftType, rightType, onLeft, onRight, result⟩
      rcases code_binary.mp coded with
        ⟨leftCode, rightCode, leftCoded, rightCoded, _⟩
      have leftTyped := leftHypothesis leftRegular onLeft leftCoded
      have rightTyped := rightHypothesis rightRegular onRight rightCoded
      rcases Operator.resultBetween_eq_ok.mp result with
        ⟨computes, rfl, rfl, rfl⟩ | ⟨compares, rfl, rfl, rfl⟩ |
          ⟨tests, rfl, noText, rfl⟩ | ⟨connects, rfl, rfl, rfl⟩
      · exact .arithmetic computes leftTyped rightTyped
      · exact .ordering compares leftTyped rightTyped
      · have valued := leftTyped.ne_void proper
        refine .equality tests ?_ leftTyped rightTyped
        cases rightType with
        | void => exact absurd rfl valued
        | int => exact Or.inl rfl
        | string => exact absurd rfl noText
        | bool => exact Or.inr rfl
      · refine .logic ?_ leftTyped rightTyped
        rcases connects with rfl | rfl | rfl
        · exact Or.inl rfl
        · exact Or.inr rfl
        · exact absurd rfl infixed
  | unary operator operand inductionHypothesis =>
      rcases regular with ⟨leading, operandRegular⟩
      rcases typeIn_unary.mp typed with ⟨operandTyped, rfl⟩
      rcases leading with rfl | rfl
      · rcases code_minus.mp coded with ⟨_, operandCoded, _⟩
        exact .negative
          (inductionHypothesis operandRegular operandTyped operandCoded)
      · rcases (code_unary (by decide)).mp coded with ⟨_, operandCoded, _⟩
        exact .negation
          (inductionHypothesis operandRegular operandTyped operandCoded)

/-- Binding a variable of a type adds it to the innermost scope. -/
theorem scopes_of_assigned {environment next : Environment}
    {type : ValueType} {name : String} {value : Expression}
    {code : List Instruction}
    (compiled : assignCode environment type name value = (.ok code, next)) :
    type ≠ .void ∧ name ∉ environment.innermost.map Prod.fst ∧
      next.returnType = environment.returnType ∧
      next.scopes =
        (environment.innermost ++ [(name, type)]) :: environment.around := by
  rcases assignCode_eq_ok.mp compiled with
    ⟨_, size, defined, _, _, _, _, bound, _, _, rfl⟩
  rcases Environment.define_eq_ok.mp bound with ⟨proper, fresh, rfl⟩
  refine ⟨proper, fresh, ?_, environment.scopes_declare _⟩
  exact (environment.declare_grows [(name, type)]).returnType

theorem ProperScopes.declare {inner : List (String × ValueType)}
    {outer : List (List (String × ValueType))} {name : String}
    {type : ValueType} (proper : ProperScopes (inner :: outer))
    (valued : type ≠ .void) :
    ProperScopes ((inner ++ [(name, type)]) :: outer) := by
  intro scope member entry inside
  rcases List.mem_cons.mp member with rfl | member
  · rcases List.mem_append.mp inside with inside | inside
    · exact proper inner List.mem_cons_self entry inside
    · rw [List.mem_singleton.mp inside]
      exact valued
  · exact proper scope (List.mem_cons_of_mem _ member) entry inside

theorem ProperScopes.enter {scopes : List (List (String × ValueType))}
    (proper : ProperScopes scopes) : ProperScopes ([] :: scopes) := by
  intro scope member entry inside
  rcases List.mem_cons.mp member with rfl | member
  · cases inside
  · exact proper scope member entry inside

/-- A block with code is well typed. -/
theorem Block.Generates.wellTyped {start : Extent}
    {environment final : Environment} {block : Block} {fragment : Fragment}
    {named : String → Prop}
    (generated : Block.Generates start environment block fragment final)
    (regular : Statement.AllRegular named block)
    (proper : ProperScopes environment.scopes) :
    Block.WellTyped environment.returnType environment.scopes block := by
  induction generated with
  | nil =>
      exact .nil
  | @straight start environment next final statement others code tail
      compiled rest inductionHypothesis =>
      rcases regular with ⟨firstRegular, othersRegular⟩
      cases compiled with
      | evaluates compiled =>
          rcases Expression.evaluationCode_eq_ok.mp compiled with
            ⟨type, _, _, typed, _, coded, _⟩
          exact .evaluates
            (Expression.hasType_of_code firstRegular proper typed coded)
            (inductionHypothesis othersRegular proper)
      | @returns value _ compiled =>
          have othersTyped := inductionHypothesis othersRegular proper
          cases value with
          | none =>
              exact .returnsNothing (returnCode_none.mp compiled).1
                othersTyped
          | some value =>
              rcases returnCode_some.mp compiled with ⟨_, typed, coded, _⟩
              exact .returnsValue
                (Expression.hasType_of_code firstRegular proper typed coded)
                othersTyped
      | @assigns type name value _ _ compiled =>
          rcases scopes_of_assigned compiled with
            ⟨valued, fresh, sameReturn, scopesEq⟩
          rcases assignCode_eq_ok.mp compiled with
            ⟨_, _, _, _, typed, _, coded, _⟩
          have valueTyped := Expression.hasType_of_code firstRegular.2.2
            proper typed coded
          rw [environment.scopes_eq] at proper valueTyped ⊢
          rw [sameReturn, scopesEq] at inductionHypothesis
          exact .assigns valueTyped fresh
            (inductionHypothesis othersRegular (proper.declare valued))
  | @ifThen start environment inside final condition consequence others test
      target body tail tested inner reached rest innerHypothesis
      restHypothesis =>
      rcases regular with ⟨⟨conditionRegular, bodyRegular⟩, othersRegular⟩
      rcases conditionCode_eq_ok.mp tested with ⟨_, typed, coded, _⟩
      rw [inner.grows.leave_eq] at restHypothesis
      exact .ifThen
        (Expression.hasType_of_code conditionRegular proper typed coded)
        (innerHypothesis bodyRegular proper.enter)
        (restHypothesis othersRegular proper)
  | @ifThenElse start environment inside between final condition consequence
      alternative others test target ending body other tail tested inner
      reached innerToo reachedToo rest innerHypothesis innerHypothesisToo
      restHypothesis =>
      rcases regular with
        ⟨⟨conditionRegular, bodyRegular, otherRegular⟩, othersRegular⟩
      rcases conditionCode_eq_ok.mp tested with ⟨_, typed, coded, _⟩
      rw [innerToo.grows.leave_eq, inner.grows.leave_eq] at restHypothesis
      rw [inner.grows.leave_eq] at innerHypothesisToo
      exact .ifThenElse
        (Expression.hasType_of_code conditionRegular proper typed coded)
        (innerHypothesis bodyRegular proper.enter)
        (innerHypothesisToo otherRegular proper.enter)
        (restHypothesis othersRegular proper)

end ContractCompiler
