/-
What is read is regular.

Contracts can be built that are never read: with an operator in a position in
which it cannot be written, or with a variable of type `void`.  Whatever is
read has neither, and the names that it declares stand in the tokens.
-/

import ContractCompiler.Proofs.ContractReading

namespace ContractCompiler

/-- Every operator of an expression stands where it can be written. -/
def Expression.Regular : Expression → Prop
  | .binary operator left right =>
      operator ≠ .not ∧ left.Regular ∧ right.Regular
  | .unary operator operand =>
      (operator = .minus ∨ operator = .not) ∧ operand.Regular
  | _ => True

mutual

/-- The expressions of a statement are regular, its variables have values, and
their names have a property. -/
def Statement.Regular (named : String → Prop) : Statement → Prop
  | .returns none => True
  | .returns (some value) => value.Regular
  | .assigns type name value => type ≠ .void ∧ named name ∧ value.Regular
  | .ifThen condition consequence =>
      condition.Regular ∧ Statement.AllRegular named consequence
  | .ifThenElse condition consequence alternative =>
      condition.Regular ∧ Statement.AllRegular named consequence ∧
        Statement.AllRegular named alternative
  | .evaluates value => value.Regular

def Statement.AllRegular (named : String → Prop) : List Statement → Prop
  | [] => True
  | statement :: others =>
      statement.Regular named ∧ Statement.AllRegular named others

end

structure Function.Regular (named : String → Prop) (function : Function) :
    Prop where
  parameters : ∀ parameter ∈ function.parameters,
    parameter.type ≠ .void ∧ named parameter.name
  body : Statement.AllRegular named function.body

def Contract.Regular (named : String → Prop) (contract : Contract) : Prop :=
  ∀ function ∈ contract.functions, function.Regular named

/-! ### Trees -/

private theorem Token.StandsFor.regular {token : Token}
    {expression : Expression}
    (stands : token.StandsFor expression) : expression.Regular := by
  cases stands <;> trivial

theorem ExpressionTree.regular {level : Nat} (tree : ExpressionTree level) :
    tree.expression.Regular := by
  induction tree with
  | primary token expression stands =>
      exact stands.regular
  | parentheses opening inner closing inductionHypothesis =>
      exact inductionHypothesis
  | signed sign operator leads operand inductionHypothesis =>
      refine ⟨?_, inductionHypothesis⟩
      revert leads
      generalize sign.kind = kind
      intro leads
      cases leads with
      | minus => exact Or.inl rfl
      | not => exact Or.inr rfl
  | tighter infixLevel inner inductionHypothesis =>
      exact inductionHypothesis
  | joined left sign operator joins right leftHypothesis rightHypothesis =>
      refine ⟨?_, leftHypothesis, rightHypothesis⟩
      revert joins
      generalize sign.kind = kind
      intro joins
      cases joins <;> exact nofun

theorem TypeTree.type_ne_void (tree : TypeTree) : tree.type ≠ .void := by
  cases tree <;> exact nofun

def Named (named : String → Prop) (tokens : List Token) : Prop :=
  ∀ token ∈ tokens, token.kind = .identifier → named token.literal

section

variable {named : String → Prop} {first second : List Token}

theorem Named.left (given : Named named (first ++ second)) :
    Named named first :=
  fun token member => given token (List.mem_append_left _ member)

theorem Named.right (given : Named named (first ++ second)) :
    Named named second :=
  fun token member => given token (List.mem_append_right _ member)

theorem Named.tail {token : Token} (given : Named named (token :: first)) :
    Named named first :=
  fun other member => given other (List.mem_cons_of_mem _ member)

theorem Named.head {name : Terminal .identifier}
    (given : Named named (name.val :: first)) : named name.val.literal :=
  given name.val List.mem_cons_self name.property

private theorem ParametersTree.regular (tree : ParametersTree)
    (given : Named named tree.tokens) :
    ∀ parameter ∈ tree.parameters,
      parameter.type ≠ .void ∧ named parameter.name := by
  induction tree with
  | last name type =>
      intro parameter member
      rw [List.mem_singleton.mp member]
      exact ⟨type.type_ne_void, given.head⟩
  | more name type comma others inductionHypothesis =>
      intro parameter member
      rcases List.mem_cons.mp member with rfl | member
      · exact ⟨type.type_ne_void, given.head⟩
      · exact inductionHypothesis given.tail.right.tail parameter member

mutual

theorem StatementTree.regular (tree : StatementTree)
    (given : Named named tree.tokens) : tree.statement.Regular named := by
  match tree with
  | .returnsNothing word => exact trivial
  | .returnsValue word value => exact value.regular
  | .assigns type name sign value =>
      exact ⟨type.type_ne_void, given.right.head, value.regular⟩
  | .ifThen word opening condition closing consequence =>
      exact ⟨condition.regular,
        consequence.regular given.tail.tail.right.tail⟩
  | .ifThenElse word opening condition closing consequence otherwise
      alternative =>
      have branches := given.tail.tail.right.tail
      exact ⟨condition.regular, consequence.regular branches.left,
        alternative.regular branches.right.tail⟩
  | .evaluates value => exact value.regular

theorem BlockTree.regular (tree : BlockTree)
    (given : Named named tree.tokens) :
    Statement.AllRegular named tree.block := by
  match tree with
  | .braces opening statements closing =>
      exact statements.regular given.tail.left

theorem StatementsTree.regular (tree : StatementsTree)
    (given : Named named tree.tokens) :
    Statement.AllRegular named tree.statements := by
  match tree with
  | .none => exact trivial
  | .more first others =>
      exact ⟨first.regular given.left, others.regular given.right⟩

end

theorem FunctionTree.regular (tree : FunctionTree)
    (given : Named named tree.tokens) : tree.function.Regular named := by
  have inside := given.tail.tail.tail
  refine ⟨?_, tree.body.regular inside.right.tail.right⟩
  intro parameter member
  cases listed : tree.parameters with
  | none =>
      rw [function, listed] at member
      cases member
  | some parameters =>
      rw [function, listed] at member
      rw [listed] at inside
      exact parameters.regular inside.left parameter member

private theorem ContractTree.regular (tree : ContractTree)
    (given : Named named tree.tokens) : tree.contract.Regular named := by
  intro function member
  rcases List.mem_map.mp member with ⟨functionTree, inside, rfl⟩
  refine functionTree.regular ?_
  intro token tokenMember
  exact given.tail.tail.left token
    (List.mem_flatMap.mpr ⟨functionTree, inside, tokenMember⟩)

/-- A contract that is read is regular. -/
theorem readContract_regular {stream : TokenStream} {contract : Contract}
    (read : (readContract stream).outcome.1 = .ok contract)
    (given : Named named stream.upcoming) : contract.Regular named := by
  rcases contract_derived
    (Reading.gives_iff_outcome.mpr (Prod.ext read rfl)) with
    ⟨tree, tokensEq, rfl, _⟩
  exact tree.regular (tokensEq ▸ given)

end

end ContractCompiler
