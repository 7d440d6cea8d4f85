/-
Reading expressions is deriving them.

Reading with a power gives the expressions of one level of the grammar, and
stops in front of a token that does not bind tighter than that power.
-/

import ContractCompiler.Proofs.Grammar
import ContractCompiler.Proofs.Reading

namespace ContractCompiler

/-! ### Consuming tokens -/

namespace TokenStream

def Consumes (stream : TokenStream) (tokens : List Token)
    (rest : TokenStream) : Prop :=
  match tokens with
  | [] => rest = stream
  | token :: others =>
      stream.current.isEnd = false ∧ stream.current = token ∧
        stream.advance.Consumes others rest

@[simp]
theorem consumes_nil {stream rest : TokenStream} :
    stream.Consumes [] rest ↔ rest = stream :=
  Iff.rfl

@[simp]
theorem consumes_cons {stream rest : TokenStream} {token : Token}
    {tokens : List Token} :
    stream.Consumes (token :: tokens) rest ↔
      stream.current.isEnd = false ∧ stream.current = token ∧
        stream.advance.Consumes tokens rest :=
  Iff.rfl

@[simp]
theorem consumes_append {stream rest : TokenStream}
    {first second : List Token} :
    stream.Consumes (first ++ second) rest ↔
      ∃ middle, stream.Consumes first middle ∧
        middle.Consumes second rest := by
  induction first generalizing stream with
  | nil =>
      simp only [List.nil_append, consumes_nil, exists_eq_left]
  | cons token others inductionHypothesis =>
      simp only [List.cons_append, consumes_cons, inductionHypothesis]
      constructor
      · rintro ⟨inside, same, middle, before, behind⟩
        exact ⟨middle, ⟨inside, same, before⟩, behind⟩
      · rintro ⟨middle, ⟨inside, same, before⟩, behind⟩
        exact ⟨inside, same, middle, before, behind⟩

theorem Consumes.upcoming {stream rest : TokenStream} {tokens : List Token}
    (consumed : stream.Consumes tokens rest) :
    stream.upcoming = tokens ++ rest.upcoming := by
  induction tokens generalizing stream with
  | nil =>
      rw [consumes_nil.mp consumed]
      rfl
  | cons token others inductionHypothesis =>
      rcases consumed with ⟨inside, rfl, consumed⟩
      rw [upcoming_eq_cons inside, inductionHypothesis consumed]
      rfl

theorem consumes_of_upcoming {stream : TokenStream}
    {tokens behind : List Token}
    (shape : stream.upcoming = tokens ++ behind) :
    ∃ rest, stream.Consumes tokens rest ∧ rest.upcoming = behind := by
  induction tokens generalizing stream with
  | nil =>
      exact ⟨stream, rfl, shape⟩
  | cons token others inductionHypothesis =>
      have currentEq : stream.current = token := by
        simp only [current, shape, List.cons_append]
      have inside : stream.current.isEnd = false := by
        rw [currentEq]
        exact stream.upcoming_not_end token (by simp [shape])
      have advanced := upcoming_eq_cons inside
      rw [shape, currentEq, List.cons_append] at advanced
      rcases inductionHypothesis (List.cons.inj advanced).2.symm with
        ⟨rest, consumed, remaining⟩
      exact ⟨rest, ⟨inside, currentEq, consumed⟩, remaining⟩

/-- One token of a kind is consumed. -/
theorem consumes_terminal {stream : TokenStream} {kind : TokenKind}
    (found : stream.kind = kind) (proper : kind ≠ .endOfInput)
    {tokens : List Token} {rest : TokenStream}
    (consumed : stream.advance.Consumes tokens rest) :
    stream.Consumes (stream.current :: tokens) rest :=
  ⟨inside_of_kind found proper, rfl, consumed⟩

/-- The current kind is that of the current token. -/
theorem kind_of_terminal {stream : TokenStream} {kind : TokenKind}
    (terminal : Terminal kind) (found : stream.current = terminal.val) :
    stream.kind = kind := by
  rw [TokenStream.kind, found, terminal.property]

theorem kind_eq_endOfInput {stream : TokenStream}
    (emptied : stream.upcoming = []) : stream.kind = .endOfInput := by
  have ends := stream.ending_isEnd
  simp only [Token.isEnd, beq_iff_eq] at ends
  simp only [TokenStream.kind, current, emptied, ends]

end TokenStream

/-! ### Operators and precedences -/

theorem Operator.joins_iff {operator : Operator} {kind : TokenKind}
    {level : Nat} :
    operator.Joins kind level ↔
      Operator.between? kind = some operator ∧ kind.precedence = level := by
  constructor
  · intro joins
    cases joins <;> exact ⟨rfl, rfl⟩
  · rintro ⟨found, rfl⟩
    cases kind <;> cases found <;> constructor

theorem Operator.leads_iff {operator : Operator} {kind : TokenKind} :
    operator.Leads kind ↔ Operator.before? kind = some operator := by
  constructor
  · intro leads
    cases leads <;> rfl
  · intro found
    cases kind <;> cases found <;> constructor

theorem Token.standsFor_iff {token : Token} {expression : Expression} :
    token.StandsFor expression ↔
      Expression.ofToken? token = .ok (some expression) := by
  constructor
  · intro stands
    cases stands with
    | identifier kind => simp only [Expression.ofToken?, kind]
    | integer kind fits => simp only [Expression.ofToken?, kind, fits]
    | text kind => simp only [Expression.ofToken?, kind]
    | truth kind => simp only [Expression.ofToken?, kind]
    | falsehood kind => simp only [Expression.ofToken?, kind]
  · intro found
    unfold Expression.ofToken? at found
    split at found
    · rename_i kind
      cases found
      exact .identifier kind
    · rename_i kind
      split at found
      · rename_i value fits
        cases found
        exact .integer kind fits
      · cases found
    · rename_i kind
      cases found
      exact .text kind
    · rename_i kind
      cases found
      exact .truth kind
    · rename_i kind
      cases found
      exact .falsehood kind
    · cases found

private theorem TokenKind.precedence_le (kind : TokenKind) :
    kind.precedence ≤ 6 := by
  cases kind <;> decide

theorem TokenKind.not_isInfix_iff {kind : TokenKind} :
    ¬ kind.IsInfix ↔ kind.precedence ≤ 0 := by
  constructor
  · intro plain
    cases found : Operator.between? kind with
    | none =>
        exact Nat.le_of_eq (Operator.between_none_iff.mp found)
    | some operator =>
        exact absurd ⟨operator, _, Operator.joins_iff.mpr ⟨found, rfl⟩⟩
          plain
  · rintro flat ⟨operator, level, joins⟩
    have found := (Operator.joins_iff.mp joins).1
    rw [Operator.between_none_iff.mpr (Nat.le_zero.mp flat)] at found
    cases found

def levelAbove (power : Nat) : Nat :=
  min (power + 1) 7

theorem Operator.Joins.bounds {operator : Operator} {kind : TokenKind}
    {level : Nat} (joins : operator.Joins kind level) :
    1 ≤ level ∧ level ≤ 6 := by
  cases joins <;> decide

namespace ExpressionTree

theorem level_bounds {level : Nat} (tree : ExpressionTree level) :
    1 ≤ level ∧ level ≤ 7 := by
  cases tree with
  | tighter infixLevel inner =>
      omega
  | joined left sign operator joins right =>
      have bounds := joins.bounds
      omega
  | _ =>
      omega

/-- What is derived from a level is derived from every looser one. -/
theorem exists_looser {level : Nat} (tree : ExpressionTree level)
    (looser : Nat) (lower : 1 ≤ looser) (le : looser ≤ level) :
    ∃ other : ExpressionTree looser, other.tokens = tree.tokens ∧
      other.expression = tree.expression := by
  obtain ⟨steps, rfl⟩ := Nat.exists_eq_add_of_le le
  induction steps with
  | zero =>
      exact ⟨tree, rfl, rfl⟩
  | succ steps inductionHypothesis =>
      have bounds := tree.level_bounds
      exact inductionHypothesis (.tighter (by omega) tree) (by omega)

end ExpressionTree

/-! ### What is read is derived -/

/-- In streams with fewer tokens than a bound, whatever is read as an
expression is derived from the level of its power, and no operator that binds
tighter stands behind it. -/
def ReadsDerived (bound : Nat) : Prop :=
  ∀ (power : Nat) (stream rest : TokenStream) (expression : Expression),
    stream.left < bound →
    (readExpression power stream).Gives expression rest →
    ∃ tree : ExpressionTree (levelAbove power),
      stream.Consumes tree.tokens rest ∧ tree.expression = expression ∧
        rest.kind.precedence ≤ power

private theorem operand_derived {bound : Nat} (known : ReadsDerived bound)
    {stream rest : TokenStream} {expression : Expression}
    (short : stream.left ≤ bound)
    (given : (readOperand stream).Gives expression rest) :
    ∃ tree : ExpressionTree 7, stream.Consumes tree.tokens rest ∧
      tree.expression = expression := by
  rcases readOperand_gives_cases given with
    ⟨found, token⟩ | ⟨operator, leads⟩ | opens
  · rcases (readOperand_gives_of_token token).mp given with ⟨rfl, rfl⟩
    exact ⟨.primary stream.current expression (Token.standsFor_iff.mpr token),
      ⟨Expression.inside_of_ofToken token, rfl, rfl⟩, rfl⟩
  · have inside := Operator.inside_of_before leads
    have shorter := stream.left_advance_lt inside
    rcases (readOperand_gives_of_before leads).mp given with
      ⟨operand, inner, rfl⟩
    rcases known _ _ _ _ (by omega) inner with
      ⟨tree, consumed, rfl, _⟩
    exact ⟨.signed stream.current operator (Operator.leads_iff.mpr leads)
      tree, ⟨inside, rfl, consumed⟩, rfl⟩
  · have inside := TokenStream.inside_of_kind opens (by decide)
    have shorter := stream.left_advance_lt inside
    rcases (readOperand_gives_of_leftParen opens).mp given with
      ⟨middle, inner, closes, rfl⟩
    rcases known _ _ _ _ (by omega) inner with
      ⟨tree, consumed, rfl, _⟩
    refine ⟨.parentheses ⟨stream.current, opens⟩ tree
      ⟨middle.current, closes⟩, ⟨inside, rfl, ?_⟩, rfl⟩
    rw [TokenStream.consumes_append]
    exact ⟨middle, consumed,
      TokenStream.consumes_terminal closes (by decide) rfl⟩

/-- Operators extend a derivation of what stands to their left.  The next
operator never binds tighter than the level of that derivation, so it can be
loosened to the operator's own level. -/
theorem operators_derived {bound : Nat} (known : ReadsDerived bound)
    {power level : Nat} (left : ExpressionTree level)
    {stream rest : TokenStream} {expression : Expression}
    (short : stream.left ≤ bound) (above : levelAbove power ≤ level)
    (loose : stream.kind.precedence ≤ level)
    (given :
      (readOperators power left.expression stream).Gives expression rest) :
    ∃ (tree : ExpressionTree (levelAbove power)) (more : List Token),
      stream.Consumes more rest ∧ tree.tokens = left.tokens ++ more ∧
        tree.expression = expression ∧ rest.kind.precedence ≤ power := by
  have bounds := left.level_bounds
  by_cases tight : power < stream.kind.precedence
  · have upper := stream.kind.precedence_le
    rcases (readOperators_gives_of_lt tight).mp given with
      ⟨operator, right, middle, found, operand, operators⟩
    have inside := Operator.inside_of_between found
    have shorter := stream.left_advance_lt inside
    have passed := operand.left_lt
    rcases known _ _ _ _ (by omega) operand with
      ⟨rightTree, rightConsumed, rfl, rightStops⟩
    rcases left.exists_looser stream.kind.precedence (by omega)
        loose with
      ⟨leftTree, leftTokens, leftExpression⟩
    rcases rightTree.exists_looser (stream.kind.precedence + 1)
        (by omega) (by unfold levelAbove; omega) with
      ⟨operandTree, operandTokens, operandExpression⟩
    rw [← leftExpression, ← operandExpression] at operators
    have extended := operators_derived known
      (.joined leftTree stream.current operator
        (Operator.joins_iff.mpr ⟨found, rfl⟩) operandTree)
      (by omega) (by unfold levelAbove; omega) rightStops operators
    rcases extended with ⟨tree, more, consumed, tokensEq, same, stops⟩
    refine ⟨tree, stream.current :: (operandTree.tokens ++ more), ?_, ?_,
      same, stops⟩
    · refine ⟨inside, rfl, ?_⟩
      rw [TokenStream.consumes_append, operandTokens]
      exact ⟨middle, rightConsumed, consumed⟩
    · rw [tokensEq, ← leftTokens]
      simp only [ExpressionTree.tokens, List.append_assoc,
        List.cons_append]
  · have flat : stream.kind.precedence ≤ power := by omega
    rcases (readOperators_gives_of_le flat).mp given with ⟨rfl, rfl⟩
    rcases left.exists_looser _ (by unfold levelAbove; omega) above with
      ⟨tree, tokensEq, expressionEq⟩
    refine ⟨tree, [], rfl, ?_, expressionEq, flat⟩
    rw [tokensEq, List.append_nil]
termination_by stream.left
decreasing_by omega

private theorem readsDerived (bound : Nat) : ReadsDerived bound := by
  induction bound with
  | zero =>
      intro power stream rest expression short
      omega
  | succ bound known =>
      intro power stream rest expression short given
      rcases readExpression_gives.mp given with
        ⟨left, middle, operand, operators⟩
      have passed := operand.left_lt
      rcases operand_derived known (by omega) operand with
        ⟨leftTree, leftConsumed, rfl⟩
      have upper := middle.kind.precedence_le
      rcases operators_derived known leftTree (by omega)
          (by unfold levelAbove; omega) (by omega) operators with
        ⟨tree, more, consumed, tokensEq, same, stops⟩
      refine ⟨tree, ?_, same, stops⟩
      rw [tokensEq, TokenStream.consumes_append]
      exact ⟨middle, leftConsumed, consumed⟩

/-! ### What is derived is read -/

/-- A derived expression is read as one.  Reading goes on behind it with the
operators that bind tighter than the power. -/
theorem readExpression_of_derived {level : Nat}
    (tree : ExpressionTree level) {power : Nat}
    {stream rest final : TokenStream} {expression : Expression}
    (consumed : stream.Consumes tree.tokens rest)
    (above : levelAbove power ≤ level)
    (loose : rest.kind.precedence ≤ level)
    (operators :
      (readOperators power tree.expression rest).Gives expression final) :
    (readExpression power stream).Gives expression final := by
  -- An operand on the left is followed by its operator, not by the end of the
  -- whole, so what is read behind the tree stays open in the induction.
  induction tree generalizing power stream rest final expression with
  | primary token found stands =>
      rcases consumed with ⟨_, rfl, rfl⟩
      exact readExpression_gives.mpr ⟨found, _,
        (readOperand_gives_of_token (Token.standsFor_iff.mp stands)).mpr
          ⟨rfl, rfl⟩, operators⟩
  | parentheses opening inner closing inductionHypothesis =>
      rcases consumed with ⟨_, currentEq, consumed⟩
      rcases TokenStream.consumes_append.mp consumed with
        ⟨middle, innerConsumed, _, closingEq, rfl⟩
      have opens := TokenStream.kind_of_terminal opening currentEq
      have closes := TokenStream.kind_of_terminal closing closingEq
      have stops : middle.kind.precedence ≤ 0 := by
        rw [closes]
        decide
      have given := inductionHypothesis innerConsumed (by decide)
        (Nat.le_trans stops (by decide))
        ((readOperators_gives_of_le stops).mpr ⟨rfl, rfl⟩)
      exact readExpression_gives.mpr ⟨_, _,
        (readOperand_gives_of_leftParen opens).mpr
          ⟨middle, given, closes, rfl⟩, operators⟩
  | signed sign operator leads operand inductionHypothesis =>
      rcases consumed with ⟨_, currentEq, consumed⟩
      have found : Operator.before? stream.kind = some operator := by
        rw [TokenStream.kind, currentEq]
        exact Operator.leads_iff.mp leads
      have upper := rest.kind.precedence_le
      have stops : rest.kind.precedence ≤ signPrecedence := by
        unfold signPrecedence
        omega
      have given := inductionHypothesis consumed (by decide) stops
        ((readOperators_gives_of_le stops).mpr ⟨rfl, rfl⟩)
      exact readExpression_gives.mpr ⟨_, _,
        (readOperand_gives_of_before found).mpr ⟨_, given, rfl⟩, operators⟩
  | tighter infixLevel inner inductionHypothesis =>
      exact inductionHypothesis consumed (by omega) (by omega) operators
  | @joined level left sign operator joins right leftHypothesis
      rightHypothesis =>
      rcases TokenStream.consumes_append.mp consumed with
        ⟨middle, leftConsumed, _, signEq, rightConsumed⟩
      have bounds := joins.bounds
      rcases Operator.joins_iff.mp joins with ⟨found, levelEq⟩
      have middleKind : middle.kind = sign.kind := by
        rw [TokenStream.kind, signEq]
      have middleLevel : middle.kind.precedence = level := by
        rw [middleKind, levelEq]
      have tight : power < middle.kind.precedence := by
        unfold levelAbove at above
        omega
      have given := rightHypothesis rightConsumed
        (by unfold levelAbove; omega) (by omega)
        ((readOperators_gives_of_le loose).mpr ⟨rfl, rfl⟩)
      apply leftHypothesis leftConsumed above (Nat.le_of_eq middleLevel)
      apply (readOperators_gives_of_lt tight).mpr
      refine ⟨operator, right.expression, rest, ?_, ?_, operators⟩
      · rw [middleKind, found]
      · rw [middleLevel]
        exact given

/-- A power reads exactly what its level derives, up to a token that does not
bind tighter. -/
theorem readExpression_gives_iff {power : Nat} {stream rest : TokenStream}
    {expression : Expression} :
    (readExpression power stream).Gives expression rest ↔
      ∃ tree : ExpressionTree (levelAbove power),
        stream.Consumes tree.tokens rest ∧ tree.expression = expression ∧
          rest.kind.precedence ≤ power := by
  constructor
  · intro given
    exact readsDerived (stream.left + 1) power stream rest expression
      (Nat.lt_succ_self _) given
  · rintro ⟨tree, consumed, rfl, stops⟩
    have upper := rest.kind.precedence_le
    exact readExpression_of_derived tree consumed (Nat.le_refl _)
      (by unfold levelAbove; omega)
      ((readOperators_gives_of_le stops).mpr ⟨rfl, rfl⟩)

end ContractCompiler
