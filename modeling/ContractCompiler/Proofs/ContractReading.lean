/-
Reading contracts is deriving them.

A reader decides by the current token, so it matters which tokens a phrase can
start with: a statement starts neither with a closing brace nor with `else`,
which is why the end of a block and a missing alternative are recognised.
-/

import ContractCompiler.Proofs.ExpressionReading

namespace ContractCompiler

/-! ### First tokens -/

def TokenKind.StartsExpression : TokenKind → Prop
  | .identifier | .integer | .text | .trueWord | .falseWord | .leftParen
  | .minus | .bang => True
  | _ => False

def TokenKind.StartsStatement (kind : TokenKind) : Prop :=
  kind = .returnWord ∨ kind = .ifWord ∨ kind.isType = true ∨
    kind.StartsExpression

private theorem ExpressionTree.starts {level : Nat}
    (tree : ExpressionTree level) :
    ∃ token others, tree.tokens = token :: others ∧
      token.kind.StartsExpression := by
  induction tree with
  | primary token found stands =>
      refine ⟨token, [], rfl, ?_⟩
      cases stands with
      | identifier kind => rw [kind]; trivial
      | integer kind fits => rw [kind]; trivial
      | text kind => rw [kind]; trivial
      | truth kind => rw [kind]; trivial
      | falsehood kind => rw [kind]; trivial
  | parentheses opening inner closing inductionHypothesis =>
      exact ⟨opening.val, _, rfl, by rw [opening.property]; trivial⟩
  | signed sign operator leads operand inductionHypothesis =>
      refine ⟨sign, _, rfl, ?_⟩
      revert leads
      generalize sign.kind = kind
      intro leads
      cases leads <;> trivial
  | tighter infixLevel inner inductionHypothesis =>
      exact inductionHypothesis
  | joined left sign operator joins right leftHypothesis rightHypothesis =>
      rcases leftHypothesis with ⟨token, others, tokensEq, starts⟩
      refine ⟨token, others ++ sign :: right.tokens, ?_, starts⟩
      rw [tokens, tokensEq]
      rfl

theorem TypeTree.starts (tree : TypeTree) :
    ∃ token, tree.tokens = [token] ∧
      ValueType.ofKind? token.kind = some tree.type := by
  cases tree with
  | int word => exact ⟨word.val, rfl, by rw [word.property]; rfl⟩
  | string word => exact ⟨word.val, rfl, by rw [word.property]; rfl⟩
  | bool word => exact ⟨word.val, rfl, by rw [word.property]; rfl⟩

theorem StatementTree.starts (tree : StatementTree) :
    ∃ token others, tree.tokens = token :: others ∧
      token.kind.StartsStatement := by
  cases tree with
  | returnsNothing word =>
      exact ⟨word.val, _, rfl, Or.inl word.property⟩
  | returnsValue word value =>
      exact ⟨word.val, _, rfl, Or.inl word.property⟩
  | assigns type name sign value =>
      rcases type.starts with ⟨token, tokensEq, names⟩
      refine ⟨token, name.val :: sign.val :: value.tokens, ?_, ?_⟩
      · rw [tokens, tokensEq]
        rfl
      · exact Or.inr (Or.inr (Or.inl
          (ValueType.isType_iff.mpr ⟨_, names⟩)))
  | ifThen word opening condition closing consequence =>
      exact ⟨word.val, _, rfl, Or.inr (Or.inl word.property)⟩
  | ifThenElse word opening condition closing consequence otherwise
      alternative =>
      exact ⟨word.val, _, rfl, Or.inr (Or.inl word.property)⟩
  | evaluates value =>
      rcases value.starts with ⟨token, others, tokensEq, starts⟩
      exact ⟨token, others, tokensEq, Or.inr (Or.inr (Or.inr starts))⟩

/-- What no statement starts with. -/
theorem TokenKind.StartsStatement.ne {kind : TokenKind}
    (starts : kind.StartsStatement) :
    kind ≠ .rightBrace ∧ kind ≠ .endOfInput ∧ kind ≠ .elseWord := by
  rcases starts with rfl | rfl | names | starts
  · decide
  · decide
  · cases kind <;> first | decide | cases names
  · cases kind <;> first | decide | cases starts

/-- An expression starts no other statement. -/
theorem TokenKind.StartsExpression.ne {kind : TokenKind}
    (starts : kind.StartsExpression) :
    kind ≠ .returnWord ∧ kind ≠ .ifWord ∧ kind.isType = false ∧
      kind ≠ .rightBrace := by
  cases kind <;> first | decide | cases starts

/-- The current kind is that of the first token that is consumed. -/
theorem TokenStream.Consumes.kind_eq {stream rest : TokenStream}
    {tokens : List Token} (consumed : stream.Consumes tokens rest) :
    stream.kind = nextKind tokens rest.kind := by
  cases tokens with
  | nil =>
      rw [consumed]
      rfl
  | cons token others =>
      rcases consumed with ⟨_, rfl, _⟩
      rfl

/-- Behind a statement of a block stands another one or the brace. -/
theorem StatementsTree.nextKind_ne_else (tree : StatementsTree) :
    nextKind tree.tokens .rightBrace ≠ .elseWord := by
  cases tree with
  | none =>
      decide
  | more first others =>
      rcases first.starts with ⟨token, remaining, tokensEq, starts⟩
      simp only [tokens, tokensEq, List.cons_append, nextKind]
      exact starts.ne.2.2

/-! ### Types and parameters -/

theorem readType_gives_iff {stream rest : TokenStream} {type : ValueType} :
    (readType stream).Gives type rest ↔
      ∃ tree : TypeTree, stream.Consumes tree.tokens rest ∧
        tree.type = type := by
  rw [readType_gives]
  constructor
  · rintro ⟨names, rfl⟩
    have inside := ValueType.inside_of_ofKind names
    cases kind : stream.kind <;> rw [kind] at names <;> cases names
    · exact ⟨.int ⟨stream.current, kind⟩, ⟨inside, rfl, rfl⟩, rfl⟩
    · exact ⟨.string ⟨stream.current, kind⟩, ⟨inside, rfl, rfl⟩, rfl⟩
    · exact ⟨.bool ⟨stream.current, kind⟩, ⟨inside, rfl, rfl⟩, rfl⟩
  · rintro ⟨tree, consumed, rfl⟩
    rcases tree.starts with ⟨token, tokensEq, names⟩
    rw [tokensEq] at consumed
    rcases consumed with ⟨_, rfl, rfl⟩
    exact ⟨names, rfl⟩

private theorem parameters_derived {stream rest : TokenStream}
    {parameters : List Parameter}
    (given : (readParameters stream).Gives parameters rest) :
    ∃ tree : ParametersTree, stream.Consumes tree.tokens rest ∧
      tree.parameters = parameters := by
  rcases readParameters_gives.mp given with
    ⟨⟨name, type⟩, middle, parameterGiven, remaining⟩
  rcases readParameter_gives.mp parameterGiven with
    ⟨named, nameEq, typeGiven⟩
  rcases readType_gives_iff.mp typeGiven with
    ⟨typeTree, typeConsumed, typeEq⟩
  have inside := TokenStream.inside_of_kind named (by decide)
  have shorter := parameterGiven.left_lt
  simp only at nameEq typeEq
  subst nameEq typeEq
  rcases remaining with ⟨_, rfl, rfl⟩ | ⟨more, others, othersGiven, rfl⟩
  · exact ⟨.last ⟨stream.current, named⟩ typeTree,
      ⟨inside, rfl, typeConsumed⟩, rfl⟩
  · have insideComma := TokenStream.inside_of_kind more (by decide)
    have passed := middle.left_advance_lt insideComma
    rcases parameters_derived othersGiven with
      ⟨othersTree, othersConsumed, rfl⟩
    refine ⟨.more ⟨stream.current, named⟩ typeTree
      ⟨middle.current, more⟩ othersTree, ⟨inside, rfl, ?_⟩, rfl⟩
    rw [TokenStream.consumes_append]
    exact ⟨middle, typeConsumed, insideComma, rfl, othersConsumed⟩
termination_by stream.left
decreasing_by omega

private theorem parameters_read (tree : ParametersTree)
    {stream rest : TokenStream} (consumed : stream.Consumes tree.tokens rest)
    (last : rest.kind ≠ .comma) :
    (readParameters stream).Gives tree.parameters rest := by
  induction tree generalizing stream with
  | last name type =>
      rcases consumed with ⟨_, currentEq, consumed⟩
      have named := TokenStream.kind_of_terminal name currentEq
      have typeGiven := readType_gives_iff.mpr ⟨type, consumed, rfl⟩
      refine readParameters_gives.mpr
        ⟨⟨name.val.literal, type.type⟩, rest, ?_, Or.inl ⟨last, rfl, rfl⟩⟩
      exact readParameter_gives.mpr
        ⟨named, by rw [currentEq], typeGiven⟩
  | more name type comma others inductionHypothesis =>
      rcases consumed with ⟨_, currentEq, consumed⟩
      rcases TokenStream.consumes_append.mp consumed with
        ⟨middle, typeConsumed, _, commaEq, othersConsumed⟩
      have named := TokenStream.kind_of_terminal name currentEq
      have more := TokenStream.kind_of_terminal comma commaEq
      have typeGiven := readType_gives_iff.mpr ⟨type, typeConsumed, rfl⟩
      refine readParameters_gives.mpr
        ⟨⟨name.val.literal, type.type⟩, middle, ?_,
          Or.inr ⟨more, _, inductionHypothesis othersConsumed, rfl⟩⟩
      exact readParameter_gives.mpr
        ⟨named, by rw [currentEq], typeGiven⟩

/-! ### What is read as a statement is derived -/

/-- A whole expression is read up to a token that is no operator. -/
theorem readWhole_gives_iff {stream rest : TokenStream}
    {expression : Expression} :
    (readExpression 0 stream).Gives expression rest ↔
      ∃ tree : ExpressionTree 1, stream.Consumes tree.tokens rest ∧
        tree.expression = expression ∧ ¬ rest.kind.IsInfix := by
  rw [readExpression_gives_iff]
  simp only [TokenKind.not_isInfix_iff]
  rfl

theorem TokenKind.rightParen_not_infix : ¬ TokenKind.rightParen.IsInfix := by
  rw [not_isInfix_iff]
  decide

/-- In streams with fewer tokens than a bound, whatever is read as a block is
derived, and its statements are separated. -/
def BlocksDerived (bound : Nat) : Prop :=
  ∀ (stream rest : TokenStream) (block : Block), stream.left < bound →
    (readBlock stream).Gives block rest →
    ∃ tree : BlockTree, stream.Consumes tree.tokens rest ∧
      tree.block = block ∧ tree.Separated

def StatementDerived (stream rest : TokenStream) (statement : Statement) :
    Prop :=
  ∃ tree : StatementTree, stream.Consumes tree.tokens rest ∧
    tree.statement = statement ∧ tree.Separated ∧ tree.MayPrecede rest.kind

private theorem return_derived {stream rest : TokenStream}
    {statement : Statement} (returning : stream.kind = .returnWord)
    (given : (readStatement stream).Gives statement rest) :
    StatementDerived stream rest statement := by
  have inside := TokenStream.inside_of_kind returning (by decide)
  rcases (readStatement_gives_of_return returning).mp given with
    ⟨bare, rfl, rfl⟩ | ⟨_, value, valueGiven, rfl⟩
  · exact ⟨.returnsNothing ⟨stream.current, returning⟩,
      ⟨inside, rfl, rfl⟩, rfl, trivial, bare⟩
  · rcases readWhole_gives_iff.mp valueGiven with
      ⟨tree, consumed, rfl, plain⟩
    exact ⟨.returnsValue ⟨stream.current, returning⟩ tree,
      ⟨inside, rfl, consumed⟩, rfl, trivial, plain⟩

private theorem assignment_derived {stream rest : TokenStream}
    {statement : Statement} (declares : stream.kind.isType = true)
    (given : (readStatement stream).Gives statement rest) :
    StatementDerived stream rest statement := by
  rcases (readStatement_gives_of_type declares).mp given with
    ⟨type, value, names, named, assigned, valueGiven, rfl⟩
  rcases readType_gives_iff.mp (readType_gives.mpr ⟨names, rfl⟩) with
    ⟨typeTree, typeConsumed, rfl⟩
  rcases readWhole_gives_iff.mp valueGiven with
    ⟨tree, consumed, rfl, plain⟩
  refine ⟨.assigns typeTree ⟨stream.advance.current, named⟩
    ⟨stream.advance.advance.current, assigned⟩ tree, ?_, rfl, trivial,
    plain⟩
  rw [StatementTree.tokens, TokenStream.consumes_append]
  exact ⟨stream.advance, typeConsumed,
    TokenStream.inside_of_kind named (by decide), rfl,
    TokenStream.inside_of_kind assigned (by decide), rfl, consumed⟩

private theorem branch_derived {bound : Nat} (known : BlocksDerived bound)
    {stream rest : TokenStream} {statement : Statement}
    (short : stream.left ≤ bound) (branching : stream.kind = .ifWord)
    (given : (readStatement stream).Gives statement rest) :
    StatementDerived stream rest statement := by
  rcases (readStatement_gives_of_if branching).mp given with
    ⟨opens, condition, middle, consequence, behind, conditionGiven, closes,
      consequenceGiven, remaining⟩
  have inside := TokenStream.inside_of_kind branching (by decide)
  have insideOpening := TokenStream.inside_of_kind opens (by decide)
  have insideClosing := TokenStream.inside_of_kind closes (by decide)
  have started := stream.left_advance_lt inside
  have opened := stream.advance.left_advance_lt insideOpening
  have tested := conditionGiven.left_lt
  have closed := middle.left_advance_lt insideClosing
  have taken := consequenceGiven.left_lt
  rcases readWhole_gives_iff.mp conditionGiven with
    ⟨conditionTree, conditionConsumed, rfl, _⟩
  rcases known _ _ _ (by omega) consequenceGiven with
    ⟨consequenceTree, consequenceConsumed, rfl, consequenceSeparated⟩
  rcases remaining with ⟨_, rfl, rfl⟩ |
    ⟨otherwise, alternative, alternativeGiven, rfl⟩
  · refine ⟨.ifThen ⟨stream.current, branching⟩
      ⟨stream.advance.current, opens⟩ conditionTree
      ⟨middle.current, closes⟩ consequenceTree,
      ⟨inside, rfl, insideOpening, rfl, ?_⟩, rfl, consequenceSeparated,
      trivial⟩
    rw [TokenStream.consumes_append]
    exact ⟨middle, conditionConsumed, insideClosing, rfl,
      consequenceConsumed⟩
  · have insideElse := TokenStream.inside_of_kind otherwise (by decide)
    have skipped := behind.left_advance_lt insideElse
    rcases known _ _ _ (by omega) alternativeGiven with
      ⟨alternativeTree, alternativeConsumed, rfl, alternativeSeparated⟩
    refine ⟨.ifThenElse ⟨stream.current, branching⟩
      ⟨stream.advance.current, opens⟩ conditionTree
      ⟨middle.current, closes⟩ consequenceTree
      ⟨behind.current, otherwise⟩ alternativeTree,
      ⟨inside, rfl, insideOpening, rfl, ?_⟩, rfl,
      ⟨consequenceSeparated, alternativeSeparated⟩, trivial⟩
    rw [TokenStream.consumes_append]
    refine ⟨middle, conditionConsumed, insideClosing, rfl, ?_⟩
    rw [TokenStream.consumes_append]
    exact ⟨behind, consequenceConsumed, insideElse, rfl,
      alternativeConsumed⟩

private theorem statement_derived {bound : Nat} (known : BlocksDerived bound)
    {stream rest : TokenStream} {statement : Statement}
    (short : stream.left ≤ bound)
    (given : (readStatement stream).Gives statement rest) :
    StatementDerived stream rest statement := by
  by_cases returning : stream.kind = .returnWord
  · exact return_derived returning given
  · by_cases branching : stream.kind = .ifWord
    · exact branch_derived known short branching given
    · cases declares : stream.kind.isType with
      | true =>
          exact assignment_derived declares given
      | false =>
          rcases (readStatement_gives_of_expression returning branching
              declares).mp given with
            ⟨value, valueGiven, rfl⟩
          rcases readWhole_gives_iff.mp valueGiven with
            ⟨tree, consumed, rfl, plain⟩
          exact ⟨.evaluates tree, consumed, rfl, trivial, plain⟩

private theorem statements_derived {bound : Nat} (known : BlocksDerived bound)
    {stream rest : TokenStream} {block : Block} (short : stream.left ≤ bound)
    (given : (readStatements stream).Gives block rest) :
    ∃ tree : StatementsTree, stream.Consumes tree.tokens rest ∧
      tree.statements = block ∧ tree.Separated rest.kind := by
  rcases readStatements_gives.mp given with
    ⟨_, rfl, rfl⟩ | ⟨_, statement, others, middle, first, remaining, rfl⟩
  · exact ⟨.none, rfl, rfl, trivial⟩
  · have shorter := first.left_lt
    rcases statement_derived known short first with
      ⟨firstTree, firstConsumed, rfl, firstSeparated, precedes⟩
    rcases statements_derived known (by omega) remaining with
      ⟨othersTree, othersConsumed, rfl, othersSeparated⟩
    refine ⟨.more firstTree othersTree, ?_, rfl, firstSeparated, ?_,
      othersSeparated⟩
    · rw [StatementsTree.tokens, TokenStream.consumes_append]
      exact ⟨middle, firstConsumed, othersConsumed⟩
    · rw [← othersConsumed.kind_eq]
      exact precedes
termination_by stream.left
decreasing_by omega

private theorem blocksDerived (bound : Nat) : BlocksDerived bound := by
  induction bound with
  | zero =>
      intro stream rest block short
      omega
  | succ bound known =>
      intro stream rest block short given
      rcases readBlock_gives.mp given with
        ⟨opens, middle, statementsGiven, closes, rfl⟩
      have inside := TokenStream.inside_of_kind opens (by decide)
      have opened := stream.left_advance_lt inside
      rcases statements_derived known (by omega) statementsGiven with
        ⟨tree, consumed, rfl, separated⟩
      refine ⟨.braces ⟨stream.current, opens⟩ tree
        ⟨middle.current, closes⟩, ⟨inside, rfl, ?_⟩, rfl, separated⟩
      rw [TokenStream.consumes_append]
      exact ⟨middle, consumed,
        TokenStream.consumes_terminal closes (by decide) rfl⟩

/-! ### What is derived is read as a statement -/

structure StatementTree.Fits (tree : StatementTree)
    (stream rest : TokenStream) : Prop where
  consumed : stream.Consumes tree.tokens rest
  separated : tree.Separated
  precedes : tree.MayPrecede rest.kind
  noElse : rest.kind ≠ .elseWord

/-- The first statement of a block ends where the others start. -/
theorem StatementsTree.first_fits {first : StatementTree}
    {others : StatementsTree} {stream rest : TokenStream}
    (consumed : stream.Consumes (more first others).tokens rest)
    (closes : rest.kind = .rightBrace)
    (separated : (more first others).Separated .rightBrace) :
    ∃ middle, first.Fits stream middle ∧
      middle.Consumes others.tokens rest ∧
        others.Separated .rightBrace := by
  rcases TokenStream.consumes_append.mp consumed with
    ⟨middle, firstConsumed, othersConsumed⟩
  rcases separated with ⟨firstSeparated, precedes, othersSeparated⟩
  have middleKind := othersConsumed.kind_eq
  rw [closes] at middleKind
  refine ⟨middle, ⟨firstConsumed, firstSeparated, ?_, ?_⟩, othersConsumed,
    othersSeparated⟩
  · rw [middleKind]
    exact precedes
  · rw [middleKind]
    exact others.nextKind_ne_else

/-- The keyword and the condition of a branch are read. -/
theorem branchHead_read {word : Terminal .ifWord}
    {opening : Terminal .leftParen} {condition : ExpressionTree 1}
    {closing : Terminal .rightParen} {behind : List Token}
    {stream rest : TokenStream}
    (consumed : stream.Consumes (word.val :: opening.val ::
      (condition.tokens ++ closing.val :: behind)) rest) :
    stream.kind = .ifWord ∧ stream.advance.kind = .leftParen ∧
      ∃ middle : TokenStream, middle.kind = .rightParen ∧
        (readExpression 0 stream.advance.advance).Gives
          condition.expression middle ∧
        middle.advance.Consumes behind rest := by
  rcases consumed with ⟨_, wordEq, _, openingEq, consumed⟩
  rcases TokenStream.consumes_append.mp consumed with
    ⟨middle, conditionConsumed, _, closingEq, followed⟩
  have closes := TokenStream.kind_of_terminal closing closingEq
  have plain : ¬ middle.kind.IsInfix :=
    closes ▸ TokenKind.rightParen_not_infix
  exact ⟨TokenStream.kind_of_terminal word wordEq,
    TokenStream.kind_of_terminal opening openingEq, middle, closes,
    readWhole_gives_iff.mpr ⟨condition, conditionConsumed, rfl, plain⟩,
    followed⟩

mutual

theorem statement_read (tree : StatementTree) {stream rest : TokenStream}
    (fits : tree.Fits stream rest) :
    (readStatement stream).Gives tree.statement rest := by
  rcases fits with ⟨consumed, separated, precedes, noElse⟩
  match tree with
  | .returnsNothing word =>
      rcases consumed with ⟨_, currentEq, rfl⟩
      have returning := TokenStream.kind_of_terminal word currentEq
      exact (readStatement_gives_of_return returning).mpr
        (Or.inl ⟨precedes, rfl, rfl⟩)
  | .returnsValue word value =>
      rcases consumed with ⟨_, currentEq, consumed⟩
      have returning := TokenStream.kind_of_terminal word currentEq
      rcases value.starts with ⟨token, others, tokensEq, starts⟩
      have valued : stream.advance.kind ≠ .rightBrace := by
        rw [consumed.kind_eq, tokensEq]
        exact starts.ne.2.2.2
      exact (readStatement_gives_of_return returning).mpr
        (Or.inr ⟨valued, _,
          readWhole_gives_iff.mpr ⟨value, consumed, rfl, precedes⟩, rfl⟩)
  | .assigns type name sign value =>
      rcases TokenStream.consumes_append.mp consumed with
        ⟨middle, typeConsumed, _, nameEq, _, signEq, consumed⟩
      rcases readType_gives.mp
          (readType_gives_iff.mpr ⟨type, typeConsumed, rfl⟩) with
        ⟨names, rfl⟩
      have declares : stream.kind.isType = true :=
        ValueType.isType_iff.mpr ⟨_, names⟩
      have named := TokenStream.kind_of_terminal name nameEq
      have assigned := TokenStream.kind_of_terminal sign signEq
      refine (readStatement_gives_of_type declares).mpr
        ⟨_, _, names, named, assigned,
          readWhole_gives_iff.mpr ⟨value, consumed, rfl, precedes⟩, ?_⟩
      rw [nameEq]
      rfl
  | .ifThen word opening condition closing consequence =>
      rcases branchHead_read consumed with
        ⟨branching, opens, middle, closes, tested, taken⟩
      exact (readStatement_gives_of_if branching).mpr
        ⟨opens, _, middle, _, rest, tested, closes,
          block_read consequence taken separated,
          Or.inl ⟨noElse, rfl, rfl⟩⟩
  | .ifThenElse word opening condition closing consequence otherwise
      alternative =>
      rcases branchHead_read consumed with
        ⟨branching, opens, middle, closes, tested, branches⟩
      rcases TokenStream.consumes_append.mp branches with
        ⟨behind, taken, _, otherwiseEq, skipped⟩
      have hasElse := TokenStream.kind_of_terminal otherwise otherwiseEq
      exact (readStatement_gives_of_if branching).mpr
        ⟨opens, _, middle, _, behind, tested, closes,
          block_read consequence taken separated.1,
          Or.inr ⟨hasElse, _,
            block_read alternative skipped separated.2, rfl⟩⟩
  | .evaluates value =>
      rcases value.starts with ⟨token, others, tokensEq, starts⟩
      have kindEq : stream.kind = token.kind := by
        rw [consumed.kind_eq, StatementTree.tokens, tokensEq]
        rfl
      rw [← kindEq] at starts
      exact (readStatement_gives_of_expression starts.ne.1 starts.ne.2.1
        starts.ne.2.2.1).mpr
        ⟨_, readWhole_gives_iff.mpr ⟨value, consumed, rfl, precedes⟩, rfl⟩

theorem block_read (tree : BlockTree) {stream rest : TokenStream}
    (consumed : stream.Consumes tree.tokens rest)
    (separated : tree.Separated) :
    (readBlock stream).Gives tree.block rest := by
  match tree with
  | .braces opening statements closing =>
      rcases consumed with ⟨_, openingEq, consumed⟩
      rcases TokenStream.consumes_append.mp consumed with
        ⟨middle, inner, _, closingEq, rfl⟩
      have opens := TokenStream.kind_of_terminal opening openingEq
      have closes := TokenStream.kind_of_terminal closing closingEq
      have given := statements_read statements inner closes
        (closing.property ▸ separated)
      exact readBlock_gives.mpr ⟨opens, middle, given, closes, rfl⟩

theorem statements_read (tree : StatementsTree) {stream rest : TokenStream}
    (consumed : stream.Consumes tree.tokens rest)
    (closes : rest.kind = .rightBrace)
    (separated : tree.Separated .rightBrace) :
    (readStatements stream).Gives tree.statements rest := by
  match tree with
  | .none =>
      cases consumed
      exact readStatements_gives.mpr (Or.inl ⟨Or.inl closes, rfl, rfl⟩)
  | .more first others =>
      rcases StatementsTree.first_fits consumed closes separated with
        ⟨middle, fits, othersConsumed, othersSeparated⟩
      rcases first.starts with ⟨token, remaining, tokensEq, starts⟩
      have kindEq : stream.kind = token.kind := by
        rw [fits.consumed.kind_eq, tokensEq]
        rfl
      rw [← kindEq] at starts
      refine readStatements_gives.mpr (Or.inr ⟨?_, _, _, middle,
        statement_read first fits,
        statements_read others othersConsumed closes othersSeparated, rfl⟩)
      rintro (brace | ends)
      · exact starts.ne.1 brace
      · exact starts.ne.2.1 ends

end

/-! ### Functions and contracts -/

private theorem function_derived {stream rest : TokenStream}
    {function : Function} (given : (readFunction stream).Gives function rest) :
    ∃ tree : FunctionTree, stream.Consumes tree.tokens rest ∧
      tree.function = function ∧ tree.body.Separated := by
  rcases readFunction_gives.mp given with
    ⟨starts, named, opens, nameEq, middle, behind, listed, closes, typed,
      bodyGiven⟩
  rcases blocksDerived _ _ _ _ (Nat.lt_succ_self _) bodyGiven with
    ⟨bodyTree, bodyConsumed, bodyEq, separated⟩
  have parameters : ∃ parametersTree : Option ParametersTree,
      stream.advance.advance.advance.Consumes
          (parametersTree.elim [] ParametersTree.tokens) middle ∧
        parametersTree.elim [] ParametersTree.parameters =
          function.parameters := by
    rcases listed with ⟨_, empty, rfl⟩ | ⟨_, listed⟩
    · exact ⟨none, rfl, empty.symm⟩
    · rcases parameters_derived listed with ⟨tree, consumed, same⟩
      exact ⟨some tree, consumed, same⟩
  have returned : ∃ typeTree : Option TypeTree,
      middle.advance.Consumes (typeTree.elim [] TypeTree.tokens) behind ∧
        typeTree.elim .void TypeTree.type = function.returnType := by
    rcases typed with ⟨_, missing, rfl⟩ | typed
    · exact ⟨none, rfl, missing.symm⟩
    · rcases readType_gives_iff.mp typed with ⟨tree, consumed, same⟩
      exact ⟨some tree, consumed, same⟩
  rcases parameters with
    ⟨parametersTree, parametersConsumed, parametersEq⟩
  rcases returned with ⟨typeTree, typeConsumed, typeEq⟩
  refine ⟨⟨⟨stream.current, starts⟩, ⟨stream.advance.current, named⟩,
    ⟨stream.advance.advance.current, opens⟩, parametersTree,
    ⟨middle.current, closes⟩, typeTree, bodyTree⟩, ?_, ?_, separated⟩
  · refine ⟨TokenStream.inside_of_kind starts (by decide), rfl,
      TokenStream.inside_of_kind named (by decide), rfl,
      TokenStream.inside_of_kind opens (by decide), rfl, ?_⟩
    rw [TokenStream.consumes_append]
    refine ⟨middle, parametersConsumed,
      TokenStream.inside_of_kind closes (by decide), rfl, ?_⟩
    rw [TokenStream.consumes_append]
    exact ⟨behind, typeConsumed, bodyConsumed⟩
  · unfold FunctionTree.function
    rw [parametersEq, typeEq, bodyEq, ← nameEq]

theorem BlockTree.starts (tree : BlockTree) :
    ∃ token others, tree.tokens = token :: others ∧
      token.kind = .leftBrace := by
  cases tree with
  | braces opening statements closing =>
      exact ⟨opening.val, _, rfl, opening.property⟩

theorem ParametersTree.starts (tree : ParametersTree) :
    ∃ token others, tree.tokens = token :: others ∧
      token.kind = .identifier := by
  cases tree with
  | last name type => exact ⟨name.val, _, rfl, name.property⟩
  | more name type comma others =>
      exact ⟨name.val, _, rfl, name.property⟩

private theorem function_read (tree : FunctionTree) {stream rest : TokenStream}
    (consumed : stream.Consumes tree.tokens rest)
    (separated : tree.body.Separated) :
    (readFunction stream).Gives tree.function rest := by
  rcases consumed with ⟨_, wordEq, _, nameEq, _, openingEq, consumed⟩
  rcases TokenStream.consumes_append.mp consumed with
    ⟨middle, parametersConsumed, _, closingEq, consumed⟩
  rcases TokenStream.consumes_append.mp consumed with
    ⟨behind, typeConsumed, bodyConsumed⟩
  have starts := TokenStream.kind_of_terminal tree.word wordEq
  have named := TokenStream.kind_of_terminal tree.name nameEq
  have opens := TokenStream.kind_of_terminal tree.opening openingEq
  have closes := TokenStream.kind_of_terminal tree.closing closingEq
  refine readFunction_gives.mpr
    ⟨starts, named, opens, by rw [nameEq]; rfl, middle, behind, ?_, closes,
      ?_, block_read tree.body bodyConsumed separated⟩
  · cases listed : tree.parameters with
    | none =>
        rw [listed] at parametersConsumed
        cases parametersConsumed
        refine Or.inl ⟨closes, ?_, rfl⟩
        rw [FunctionTree.function, listed]
        rfl
    | some parameters =>
        rw [listed] at parametersConsumed
        rcases parameters.starts with ⟨token, others, tokensEq, kind⟩
        refine Or.inr ⟨?_, ?_⟩
        · rw [parametersConsumed.kind_eq, Option.elim_some, tokensEq,
            nextKind, kind]
          decide
        · rw [FunctionTree.function, listed]
          exact parameters_read parameters parametersConsumed
            (by rw [closes]; decide)
  · cases typed : tree.returnType with
    | none =>
        rw [typed] at typeConsumed
        cases typeConsumed
        rcases tree.body.starts with ⟨token, others, tokensEq, kind⟩
        refine Or.inl ⟨?_, ?_, rfl⟩
        · rw [bodyConsumed.kind_eq, tokensEq, nextKind, kind]
          rfl
        · rw [FunctionTree.function, typed]
          rfl
    | some type =>
        rw [typed] at typeConsumed
        rw [FunctionTree.function, typed]
        exact Or.inr (readType_gives_iff.mpr ⟨type, typeConsumed, rfl⟩)

private theorem functions_derived {stream rest : TokenStream}
    {functions : List Function}
    (given : (readFunctions stream).Gives functions rest) :
    ∃ trees : List FunctionTree,
      stream.Consumes (trees.flatMap FunctionTree.tokens) rest ∧
        trees.map FunctionTree.function = functions ∧
        ∀ tree ∈ trees, tree.body.Separated := by
  rcases readFunctions_gives.mp given with
    ⟨_, rfl, rfl⟩ | ⟨_, function, others, middle, first, remaining, rfl⟩
  · exact ⟨[], rfl, rfl, fun _ member => nomatch member⟩
  · have shorter := first.left_lt
    rcases function_derived first with
      ⟨firstTree, firstConsumed, rfl, firstSeparated⟩
    rcases functions_derived remaining with
      ⟨othersTrees, othersConsumed, rfl, othersSeparated⟩
    refine ⟨firstTree :: othersTrees, ?_, rfl, ?_⟩
    · rw [List.flatMap_cons, TokenStream.consumes_append]
      exact ⟨middle, firstConsumed, othersConsumed⟩
    · intro tree member
      rcases List.mem_cons.mp member with rfl | member
      · exact firstSeparated
      · exact othersSeparated tree member
termination_by stream.left

private theorem functions_read (trees : List FunctionTree)
    {stream rest : TokenStream}
    (consumed : stream.Consumes (trees.flatMap FunctionTree.tokens) rest)
    (closes : rest.kind = .rightBrace)
    (separated : ∀ tree ∈ trees, tree.body.Separated) :
    (readFunctions stream).Gives (trees.map FunctionTree.function) rest := by
  induction trees generalizing stream with
  | nil =>
      cases consumed
      exact readFunctions_gives.mpr (Or.inl ⟨Or.inl closes, rfl, rfl⟩)
  | cons first others inductionHypothesis =>
      rw [List.flatMap_cons] at consumed
      rcases TokenStream.consumes_append.mp consumed with
        ⟨middle, firstConsumed, othersConsumed⟩
      have starts : stream.kind = .function :=
        firstConsumed.kind_eq.trans first.word.property
      refine readFunctions_gives.mpr (Or.inr ⟨?_, _, _, middle,
        function_read first firstConsumed
          (separated first List.mem_cons_self),
        inductionHypothesis othersConsumed
          (fun tree member =>
            separated tree (List.mem_cons_of_mem first member)), rfl⟩)
      rw [starts]
      decide

/-- What is read as a contract is derived, up to the end of the input. -/
theorem contract_derived {stream rest : TokenStream} {contract : Contract}
    (given : (readContract stream).Gives contract rest) :
    ∃ tree : ContractTree, tree.tokens = stream.upcoming ∧
      tree.contract = contract ∧ tree.Separated := by
  rcases readContract_gives.mp given with
    ⟨starts, opens, middle, functionsGiven, closes, ends, rfl⟩
  rcases functions_derived functionsGiven with
    ⟨trees, consumed, functionsEq, separated⟩
  refine ⟨⟨⟨stream.current, starts⟩, ⟨stream.advance.current, opens⟩, trees,
    ⟨middle.current, closes⟩⟩, ?_, ?_, separated⟩
  · have whole : stream.Consumes (stream.current :: stream.advance.current ::
        (trees.flatMap FunctionTree.tokens ++ [middle.current]))
        middle.advance := by
      refine ⟨TokenStream.inside_of_kind starts (by decide), rfl,
        TokenStream.inside_of_kind opens (by decide), rfl, ?_⟩
      rw [TokenStream.consumes_append]
      exact ⟨middle, consumed,
        TokenStream.consumes_terminal closes (by decide) rfl⟩
    have emptied : middle.advance.upcoming = [] :=
      TokenStream.upcoming_eq_nil ends
    rw [whole.upcoming, emptied, List.append_nil]
    rfl
  · rw [ContractTree.contract, functionsEq]

/-- What is derived is read as a contract. -/
theorem contract_read (tree : ContractTree) {stream : TokenStream}
    (tokensEq : tree.tokens = stream.upcoming) (separated : tree.Separated) :
    ∃ rest, (readContract stream).Gives tree.contract rest := by
  have shape : stream.upcoming = tree.tokens ++ [] := by
    rw [tokensEq, List.append_nil]
  rcases TokenStream.consumes_of_upcoming shape with
    ⟨final, ⟨_, wordEq, _, openingEq, consumed⟩, emptied⟩
  rcases TokenStream.consumes_append.mp consumed with
    ⟨middle, inner, _, closingEq, rfl⟩
  have starts := TokenStream.kind_of_terminal tree.word wordEq
  have opens := TokenStream.kind_of_terminal tree.opening openingEq
  have closes := TokenStream.kind_of_terminal tree.closing closingEq
  exact ⟨_, readContract_gives.mpr ⟨starts, opens, middle,
    functions_read tree.functions inner closes separated, closes,
    TokenStream.kind_eq_endOfInput emptied, rfl⟩⟩

end ContractCompiler
