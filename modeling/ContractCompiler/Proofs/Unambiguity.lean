/-
No tokens have two derivations.

Two expressions of one level that start with the same tokens agree as far as
the shorter one goes: the shorter one stands at the left end of the longer one.
When no operator of the level stands behind either, they are equal.  A
statement is recognised by its first token, so the conditions on what stands
behind a statement settle everything else.
-/

import ContractCompiler.Proofs.ContractReading

namespace ContractCompiler

/-! ### Expressions -/

def nextPrecedence (tokens : List Token) : Nat :=
  (nextKind tokens .endOfInput).precedence

@[simp]
theorem nextPrecedence_cons (token : Token) (tokens : List Token) :
    nextPrecedence (token :: tokens) = token.kind.precedence := rfl

private theorem Token.StandsFor.unique {token : Token}
    {expression other : Expression} (stands : token.StandsFor expression)
    (standsToo : token.StandsFor other) : expression = other := by
  rw [Token.standsFor_iff] at stands standsToo
  rw [stands] at standsToo
  simpa using standsToo

private theorem Token.StandsFor.kind_ne {token : Token}
    {expression : Expression}
    (stands : token.StandsFor expression) : token.kind ≠ .leftParen := by
  cases stands with
  | identifier kind => rw [kind]; decide
  | integer kind fits => rw [kind]; decide
  | text kind => rw [kind]; decide
  | truth kind => rw [kind]; decide
  | falsehood kind => rw [kind]; decide

private theorem Token.StandsFor.not_leads {token : Token}
    {expression : Expression} {operator : Operator}
    (stands : token.StandsFor expression) :
    ¬ operator.Leads token.kind := by
  rw [Operator.leads_iff]
  cases stands with
  | identifier kind => rw [kind]; exact nofun
  | integer kind fits => rw [kind]; exact nofun
  | text kind => rw [kind]; exact nofun
  | truth kind => rw [kind]; exact nofun
  | falsehood kind => rw [kind]; exact nofun

private theorem Operator.Leads.kind_ne {operator : Operator} {kind : TokenKind}
    (leads : operator.Leads kind) : kind ≠ .leftParen := by
  cases leads <;> decide

private theorem Operator.Leads.unique {operator other : Operator}
    {kind : TokenKind} (leads : operator.Leads kind)
    (leadsToo : other.Leads kind) :
    operator = other := by
  rw [Operator.leads_iff] at leads leadsToo
  rw [leads] at leadsToo
  exact Option.some.inj leadsToo

private theorem Operator.Joins.unique {operator other : Operator}
    {kind : TokenKind} {level otherLevel : Nat}
    (joins : operator.Joins kind level)
    (joinsToo : other.Joins kind otherLevel) : operator = other := by
  have found := (Operator.joins_iff.mp joins).1
  rw [(Operator.joins_iff.mp joinsToo).1] at found
  exact (Option.some.inj found).symm

namespace ExpressionTree

variable {level : Nat}

/-- A tree stands at the left end of another one, with operators of the same
level between its right end and that of the other one. -/
inductive AtLeft : ExpressionTree level → ExpressionTree level → Prop where
  | whole (tree : ExpressionTree level) : AtLeft tree tree
  | inside {tree left : ExpressionTree level} {sign : Token}
      {operator : Operator} {joins : operator.Joins sign.kind level}
      {right : ExpressionTree (level + 1)} (within : AtLeft tree left) :
      AtLeft tree (.joined left sign operator joins right)

private theorem AtLeft.tokens_eq {tree other : ExpressionTree level}
    (within : AtLeft tree other) :
    tree = other ∨ ∃ sign : Token, ∃ more,
      other.tokens = tree.tokens ++ sign :: more ∧
        sign.kind.precedence = level := by
  induction within with
  | whole =>
      exact Or.inl rfl
  | @inside left sign operator joins right within inductionHypothesis =>
      refine Or.inr ?_
      rcases inductionHypothesis with rfl | ⟨first, more, tokensEq, binds⟩
      · exact ⟨sign, right.tokens, rfl, (Operator.joins_iff.mp joins).2⟩
      · refine ⟨first, more ++ sign :: right.tokens, ?_, binds⟩
        simp only [tokens, tokensEq, List.append_assoc, List.cons_append]

private theorem AtLeft.antisymm {tree other : ExpressionTree level}
    (within : AtLeft tree other) (around : AtLeft other tree) :
    tree = other := by
  rcases within.tokens_eq with same | ⟨_, _, longer, _⟩
  · exact same
  · rcases around.tokens_eq with same | ⟨_, _, shorter, _⟩
    · exact same.symm
    · have longerLength := congrArg List.length longer
      have shorterLength := congrArg List.length shorter
      simp only [List.length_append, List.length_cons]
        at longerLength shorterLength
      omega

/-- A tree at the left end of another is the whole of it when no operator of
the level stands behind it. -/
theorem AtLeft.eq_of_next {tree other : ExpressionTree level}
    (within : AtLeft tree other) {behind remaining : List Token}
    (same : tree.tokens ++ behind = other.tokens ++ remaining)
    (stops : nextPrecedence behind < level) :
    tree = other := by
  rcases within.tokens_eq with equal | ⟨sign, more, tokensEq, binds⟩
  · exact equal
  · rw [tokensEq, List.append_assoc] at same
    have behindEq := List.append_cancel_left same
    rw [behindEq, List.cons_append, nextPrecedence_cons] at stops
    omega

/-- Comparable trees are equal when no operator of the level stands behind
either. -/
theorem eq_of_comparable {first second : ExpressionTree level}
    {behind remaining : List Token}
    (comparable : first.AtLeft second ∨ second.AtLeft first)
    (same : first.tokens ++ behind = second.tokens ++ remaining)
    (firstStops : nextPrecedence behind < level)
    (secondStops : nextPrecedence remaining < level) :
    first = second := by
  rcases comparable with within | around
  · exact within.eq_of_next same firstStops
  · exact (around.eq_of_next same.symm secondStops).symm

mutual

/-- Operands that start with the same tokens are equal. -/
theorem operand_unique (first second : ExpressionTree 7)
    {behind remaining : List Token}
    (same : first.tokens ++ behind = second.tokens ++ remaining) :
    first = second := by
  match first, second with
  | .primary token expression stands, .primary other found standsToo =>
      obtain rfl : token = other := (List.cons.inj same).1
      obtain rfl := stands.unique standsToo
      rfl
  | .primary token expression stands, .parentheses opening inner closing =>
      obtain rfl : token = opening.val := (List.cons.inj same).1
      exact absurd opening.property stands.kind_ne
  | .primary token expression stands, .signed sign operator leads operand =>
      obtain rfl : token = sign := (List.cons.inj same).1
      exact absurd leads stands.not_leads
  | .parentheses opening inner closing, .primary token expression stands =>
      obtain rfl : opening.val = token := (List.cons.inj same).1
      exact absurd opening.property stands.kind_ne
  | .parentheses opening inner closing, .parentheses start other stop =>
      simp only [tokens, List.cons_append, List.append_assoc,
        List.nil_append, List.cons.injEq] at same
      obtain rfl := Subtype.ext same.1
      have innerEq : inner = other := by
        have stopped : nextPrecedence (closing.val :: behind) < 1 := by
          rw [nextPrecedence_cons, closing.property]
          decide
        have stoppedToo : nextPrecedence (stop.val :: remaining) < 1 := by
          rw [nextPrecedence_cons, stop.property]
          decide
        exact eq_of_comparable
          (atLeft_or_atLeft inner other same.2 (Nat.le_of_lt stopped)
            (Nat.le_of_lt stoppedToo))
          same.2 stopped stoppedToo
      subst innerEq
      have closingEq := List.append_cancel_left same.2
      obtain rfl := Subtype.ext (List.cons.inj closingEq).1
      rfl
  | .parentheses opening inner closing, .signed sign operator leads operand =>
      obtain rfl : opening.val = sign := (List.cons.inj same).1
      exact absurd opening.property leads.kind_ne
  | .signed sign operator leads operand, .primary token expression stands =>
      obtain rfl : sign = token := (List.cons.inj same).1
      exact absurd leads stands.not_leads
  | .signed sign operator leads operand, .parentheses opening inner closing =>
      obtain rfl : sign = opening.val := (List.cons.inj same).1
      exact absurd opening.property leads.kind_ne
  | .signed sign operator leads operand,
    .signed otherSign otherOperator leadsToo otherOperand =>
      obtain rfl : sign = otherSign := (List.cons.inj same).1
      obtain rfl := leads.unique leadsToo
      obtain rfl := operand_unique operand otherOperand
        (List.cons.inj same).2
      rfl
  | .tighter infixLevel _, _ => omega
  | _, .tighter infixLevel _ => omega
  | .joined _ _ _ joins _, _ =>
      have bounds := joins.bounds
      omega
  | _, .joined _ _ _ joins _ =>
      have bounds := joins.bounds
      omega
termination_by 2 * (sizeOf first + sizeOf second)

/-- Of two expressions of a level that start with the same tokens, one stands
at the left end of the other. -/
theorem atLeft_or_atLeft {level : Nat}
    (first second : ExpressionTree level) {behind remaining : List Token}
    (same : first.tokens ++ behind = second.tokens ++ remaining)
    (firstStops : nextPrecedence behind ≤ level)
    (secondStops : nextPrecedence remaining ≤ level) :
    first.AtLeft second ∨ second.AtLeft first := by
  -- The trees are taken apart by the size of both together: the left operand
  -- of one side is smaller, but may end before or behind the other side.
  match first, second with
  | .tighter infixLevel inner, .tighter _ other =>
      obtain rfl := eq_of_comparable
        (atLeft_or_atLeft inner other same (Nat.le_succ_of_le firstStops)
          (Nat.le_succ_of_le secondStops))
        same (Nat.lt_succ_of_le firstStops) (Nat.lt_succ_of_le secondStops)
      exact Or.inl (.whole _)
  | .joined left sign operator joins right, .tighter infixLevel inner =>
      have shorter : left.tokens ++ (sign :: right.tokens ++ behind) =
          inner.tokens ++ remaining := by
        simpa only [tokens, List.append_assoc] using same
      have binds : nextPrecedence (sign :: right.tokens ++ behind) ≤ level :=
        Nat.le_of_eq (Operator.joins_iff.mp joins).2
      rcases atLeft_or_atLeft left (.tighter infixLevel inner) shorter binds
          secondStops with within | around
      · cases within
        exact Or.inr (.inside (.whole _))
      · exact Or.inr (.inside around)
  | .tighter infixLevel inner, .joined left sign operator joins right =>
      have shorter : inner.tokens ++ behind =
          left.tokens ++ (sign :: right.tokens ++ remaining) := by
        simpa only [tokens, List.append_assoc] using same
      have binds :
          nextPrecedence (sign :: right.tokens ++ remaining) ≤ level :=
        Nat.le_of_eq (Operator.joins_iff.mp joins).2
      rcases atLeft_or_atLeft (.tighter infixLevel inner) left shorter
          firstStops binds with within | around
      · exact Or.inl (.inside within)
      · cases around
        exact Or.inl (.inside (.whole _))
  | .joined left sign operator joins right,
    .joined otherLeft otherSign otherOperator joinsToo otherRight =>
      have shorter : left.tokens ++ (sign :: right.tokens ++ behind) =
          (joined otherLeft otherSign otherOperator joinsToo
            otherRight).tokens ++ remaining := by
        simpa only [tokens, List.append_assoc] using same
      have shorterToo : (joined left sign operator joins right).tokens ++
          behind =
            otherLeft.tokens ++
              (otherSign :: otherRight.tokens ++ remaining) := by
        simpa only [tokens, List.append_assoc] using same
      -- Each left operand is compared with the whole of the other side.
      rcases atLeft_or_atLeft left _ shorter
          (Nat.le_of_eq (Operator.joins_iff.mp joins).2) secondStops with
        within | around
      · cases within with
        | whole => exact Or.inr (.inside (.whole _))
        | inside within =>
            rcases atLeft_or_atLeft _ otherLeft shorterToo firstStops
                (Nat.le_of_eq (Operator.joins_iff.mp joinsToo).2) with
              withinToo | around
            · exact Or.inl (.inside withinToo)
            · cases around with
              | whole => exact Or.inl (.inside (.whole _))
              | inside around =>
                  -- The left operands stand inside one another.
                  obtain rfl := within.antisymm around
                  simp only [tokens, List.append_assoc, List.cons_append,
                    List.append_cancel_left_eq, List.cons.injEq] at same
                  obtain ⟨rfl, same⟩ := same
                  obtain rfl := joins.unique joinsToo
                  obtain rfl := eq_of_comparable
                    (atLeft_or_atLeft right otherRight same
                      (Nat.le_succ_of_le firstStops)
                      (Nat.le_succ_of_le secondStops))
                    same (Nat.lt_succ_of_le firstStops)
                    (Nat.lt_succ_of_le secondStops)
                  exact Or.inl (.whole _)
      · exact Or.inr (.inside around)
  | .primary token expression stands, other =>
      obtain rfl := operand_unique _ other same
      exact Or.inl (.whole _)
  | .parentheses opening inner closing, other =>
      obtain rfl := operand_unique _ other same
      exact Or.inl (.whole _)
  | .signed sign operator leads operand, other =>
      obtain rfl := operand_unique _ other same
      exact Or.inl (.whole _)
  | other, .primary token expression stands =>
      obtain rfl := operand_unique other _ same
      exact Or.inl (.whole _)
  | other, .parentheses opening inner closing =>
      obtain rfl := operand_unique other _ same
      exact Or.inl (.whole _)
  | other, .signed sign operator leads operand =>
      obtain rfl := operand_unique other _ same
      exact Or.inl (.whole _)
termination_by 2 * (sizeOf first + sizeOf second) + 1

end

end ExpressionTree

/-! ### In a stream -/

private theorem TokenStream.Consumes.unique
    {stream rest remaining : TokenStream} {tokens : List Token}
    (first : stream.Consumes tokens rest)
    (second : stream.Consumes tokens remaining) : rest = remaining := by
  induction tokens generalizing stream with
  | nil =>
      exact Eq.trans first (Eq.symm second)
  | cons token others inductionHypothesis =>
      exact inductionHypothesis first.2.2 second.2.2

private theorem TokenStream.nextPrecedence_upcoming (stream : TokenStream) :
    nextPrecedence stream.upcoming = stream.kind.precedence := by
  cases shape : stream.upcoming with
  | nil =>
      rw [TokenStream.kind_eq_endOfInput shape]
      rfl
  | cons token others =>
      simp only [nextPrecedence_cons, TokenStream.kind,
        TokenStream.current, shape]

/-- A terminal at the front of a stream is its current token. -/
theorem Terminal.unique {stream : TokenStream} {kind : TokenKind}
    {first second : Terminal kind} (found : stream.current = first.val)
    (foundToo : stream.current = second.val) : first = second :=
  Subtype.ext (found.symm.trans foundToo)

private theorem ExpressionTree.unique {first second : ExpressionTree 1}
    {stream rest remaining : TokenStream}
    (consumed : stream.Consumes first.tokens rest)
    (consumedToo : stream.Consumes second.tokens remaining)
    (stops : ¬ rest.kind.IsInfix) (stopsToo : ¬ remaining.kind.IsInfix) :
    first = second ∧ rest = remaining := by
  have same := consumed.upcoming.symm.trans consumedToo.upcoming
  rw [TokenKind.not_isInfix_iff, ← TokenStream.nextPrecedence_upcoming]
    at stops stopsToo
  obtain rfl := eq_of_comparable
    (atLeft_or_atLeft first second same (Nat.le_succ_of_le stops)
      (Nat.le_succ_of_le stopsToo))
    same (Nat.lt_succ_of_le stops) (Nat.lt_succ_of_le stopsToo)
  exact ⟨rfl, consumed.unique consumedToo⟩

private theorem TypeTree.unique {first second : TypeTree}
    {stream rest remaining : TokenStream}
    (consumed : stream.Consumes first.tokens rest)
    (consumedToo : stream.Consumes second.tokens remaining) :
    first = second ∧ rest = remaining := by
  -- The type that is read decides which word it is.
  rcases (readType_gives_iff.mpr ⟨first, consumed, rfl⟩).unique
      (readType_gives_iff.mpr ⟨second, consumedToo, rfl⟩) with
    ⟨sameType, sameRest⟩
  refine ⟨?_, sameRest⟩
  match first, second with
  | .int word, .int other =>
      rw [Terminal.unique consumed.2.1 consumedToo.2.1]
  | .string word, .string other =>
      rw [Terminal.unique consumed.2.1 consumedToo.2.1]
  | .bool word, .bool other =>
      rw [Terminal.unique consumed.2.1 consumedToo.2.1]

private theorem ParametersTree.unique (first second : ParametersTree)
    {stream rest remaining : TokenStream}
    (consumed : stream.Consumes first.tokens rest)
    (consumedToo : stream.Consumes second.tokens remaining)
    (last : rest.kind ≠ .comma) (lastToo : remaining.kind ≠ .comma) :
    first = second := by
  match first, second with
  | .last name type, .last otherName otherType =>
      rcases consumed with ⟨_, nameEq, typeConsumed⟩
      rcases consumedToo with ⟨_, otherEq, otherConsumed⟩
      rw [Terminal.unique nameEq otherEq,
        (TypeTree.unique typeConsumed otherConsumed).1]
  | .last name type, .more otherName otherType comma others =>
      rcases consumed with ⟨_, _, typeConsumed⟩
      rcases consumedToo with ⟨_, _, tailConsumed⟩
      rcases TokenStream.consumes_append.mp tailConsumed with
        ⟨middle, otherConsumed, _, commaEq, _⟩
      rw [(TypeTree.unique typeConsumed otherConsumed).2] at last
      exact absurd (TokenStream.kind_of_terminal comma commaEq) last
  | .more name type comma others, .last otherName otherType =>
      rcases consumed with ⟨_, _, tailConsumed⟩
      rcases consumedToo with ⟨_, _, otherConsumed⟩
      rcases TokenStream.consumes_append.mp tailConsumed with
        ⟨middle, typeConsumed, _, commaEq, _⟩
      rw [(TypeTree.unique otherConsumed typeConsumed).2] at lastToo
      exact absurd (TokenStream.kind_of_terminal comma commaEq) lastToo
  | .more name type comma others,
    .more otherName otherType otherComma otherOthers =>
      rcases consumed with ⟨_, nameEq, tailConsumed⟩
      rcases consumedToo with ⟨_, otherEq, otherTail⟩
      rcases TokenStream.consumes_append.mp tailConsumed with
        ⟨middle, typeConsumed, _, commaEq, othersConsumed⟩
      rcases TokenStream.consumes_append.mp otherTail with
        ⟨behind, otherConsumed, _, otherCommaEq, otherOthersConsumed⟩
      rcases TypeTree.unique typeConsumed otherConsumed with ⟨rfl, rfl⟩
      rw [Terminal.unique nameEq otherEq,
        Terminal.unique commaEq otherCommaEq,
        unique others otherOthers othersConsumed otherOthersConsumed last
          lastToo]

/-! ### Statements -/

/-- The keyword and the condition of a branch are unique, and what follows
them starts at one place. -/
theorem StatementTree.head_unique {word otherWord : Terminal .ifWord}
    {opening otherOpening : Terminal .leftParen}
    {condition otherCondition : ExpressionTree 1}
    {closing otherClosing : Terminal .rightParen}
    {behind behindToo : List Token} {stream rest remaining : TokenStream}
    (consumed : stream.Consumes (word.val :: opening.val ::
      (condition.tokens ++ closing.val :: behind)) rest)
    (consumedToo : stream.Consumes (otherWord.val :: otherOpening.val ::
      (otherCondition.tokens ++ otherClosing.val :: behindToo)) remaining) :
    word = otherWord ∧ opening = otherOpening ∧ condition = otherCondition ∧
      closing = otherClosing ∧ ∃ middle : TokenStream,
        middle.Consumes behind rest ∧ middle.Consumes behindToo remaining := by
  rcases consumed with ⟨_, wordEq, _, openingEq, consumed⟩
  rcases consumedToo with ⟨_, otherWordEq, _, otherOpeningEq, consumedToo⟩
  rcases TokenStream.consumes_append.mp consumed with
    ⟨middle, tested, _, closingEq, followed⟩
  rcases TokenStream.consumes_append.mp consumedToo with
    ⟨other, testedToo, _, otherClosingEq, followedToo⟩
  have closes := TokenStream.kind_of_terminal closing closingEq
  have closesToo := TokenStream.kind_of_terminal otherClosing otherClosingEq
  have plain := TokenKind.rightParen_not_infix
  rcases ExpressionTree.unique tested testedToo (closes ▸ plain)
    (closesToo ▸ plain) with ⟨rfl, rfl⟩
  exact ⟨Terminal.unique wordEq otherWordEq,
    Terminal.unique openingEq otherOpeningEq, rfl,
    Terminal.unique closingEq otherClosingEq, _, followed, followedToo⟩

mutual

theorem StatementTree.unique (first second : StatementTree)
    {stream rest remaining : TokenStream} (fits : first.Fits stream rest)
    (fitsToo : second.Fits stream remaining) :
    first = second ∧ rest = remaining := by
  -- Both are read as the same statement, which decides its form.
  rcases (statement_read first fits).unique (statement_read second fitsToo)
    with ⟨sameStatement, sameRest⟩
  refine ⟨?_, sameRest⟩
  rcases fits with ⟨consumed, separated, precedes, noElse⟩
  rcases fitsToo with ⟨consumedToo, separatedToo, precedesToo, noElseToo⟩
  match first with
  | .returnsNothing word =>
      cases second with
      | returnsNothing otherWord =>
          rw [Terminal.unique consumed.2.1 consumedToo.2.1]
      | _ =>
          cases sameStatement
  | .returnsValue word value =>
      cases second with
      | returnsValue otherWord otherValue =>
          rw [Terminal.unique consumed.2.1 consumedToo.2.1,
            (ExpressionTree.unique consumed.2.2 consumedToo.2.2 precedes
              precedesToo).1]
      | _ =>
          cases sameStatement
  | .assigns type name sign value =>
      cases second with
      | assigns otherType otherName otherSign otherValue =>
          rcases TokenStream.consumes_append.mp consumed with
            ⟨middle, typeConsumed, _, nameEq, _, signEq, valueConsumed⟩
          rcases TokenStream.consumes_append.mp consumedToo with
            ⟨behind, otherConsumed, _, otherEq, _, otherSignEq,
              otherValueConsumed⟩
          rcases TypeTree.unique typeConsumed otherConsumed with ⟨rfl, rfl⟩
          rw [Terminal.unique nameEq otherEq,
            Terminal.unique signEq otherSignEq,
            (ExpressionTree.unique valueConsumed otherValueConsumed precedes
              precedesToo).1]
      | _ =>
          cases sameStatement
  | .ifThen word opening condition closing consequence =>
      cases second with
      | ifThen otherWord otherOpening otherCondition otherClosing
          otherConsequence =>
          rcases StatementTree.head_unique consumed consumedToo with
            ⟨rfl, rfl, rfl, rfl, middle, taken, takenToo⟩
          rw [(BlockTree.unique consequence otherConsequence taken takenToo
            separated separatedToo).1]
      | _ =>
          cases sameStatement
  | .ifThenElse word opening condition closing consequence otherwise
      alternative =>
      cases second with
      | ifThenElse otherWord otherOpening otherCondition otherClosing
          otherConsequence otherOtherwise otherAlternative =>
          rcases StatementTree.head_unique consumed consumedToo with
            ⟨rfl, rfl, rfl, rfl, middle, branches, branchesToo⟩
          rcases TokenStream.consumes_append.mp branches with
            ⟨behind, taken, _, otherwiseEq, skipped⟩
          rcases TokenStream.consumes_append.mp branchesToo with
            ⟨beyond, takenToo, _, otherwiseEqToo, skippedToo⟩
          rcases BlockTree.unique consequence otherConsequence taken takenToo
            separated.1 separatedToo.1 with ⟨rfl, rfl⟩
          rw [Terminal.unique otherwiseEq otherwiseEqToo,
            (BlockTree.unique alternative otherAlternative skipped
              skippedToo separated.2 separatedToo.2).1]
      | _ =>
          cases sameStatement
  | .evaluates value =>
      cases second with
      | evaluates otherValue =>
          rw [(ExpressionTree.unique consumed consumedToo precedes
            precedesToo).1]
      | _ =>
          cases sameStatement

theorem BlockTree.unique (first second : BlockTree)
    {stream rest remaining : TokenStream}
    (consumed : stream.Consumes first.tokens rest)
    (consumedToo : stream.Consumes second.tokens remaining)
    (separated : first.Separated) (separatedToo : second.Separated) :
    first = second ∧ rest = remaining := by
  match first, second with
  | .braces opening statements closing,
    .braces otherOpening otherStatements otherClosing =>
      rcases consumed with ⟨_, openingEq, consumed⟩
      rcases consumedToo with ⟨_, otherOpeningEq, consumedToo⟩
      rcases TokenStream.consumes_append.mp consumed with
        ⟨middle, inner, _, closingEq, rfl⟩
      rcases TokenStream.consumes_append.mp consumedToo with
        ⟨behind, innerToo, _, otherClosingEq, rfl⟩
      rcases StatementsTree.unique statements otherStatements inner innerToo
          (TokenStream.kind_of_terminal closing closingEq)
          (TokenStream.kind_of_terminal otherClosing otherClosingEq)
          (closing.property ▸ separated)
          (otherClosing.property ▸ separatedToo) with
        ⟨rfl, rfl⟩
      rw [Terminal.unique openingEq otherOpeningEq,
        Terminal.unique closingEq otherClosingEq]
      exact ⟨rfl, rfl⟩

theorem StatementsTree.unique (first second : StatementsTree)
    {stream rest remaining : TokenStream}
    (consumed : stream.Consumes first.tokens rest)
    (consumedToo : stream.Consumes second.tokens remaining)
    (closes : rest.kind = .rightBrace)
    (closesToo : remaining.kind = .rightBrace)
    (separated : first.Separated .rightBrace)
    (separatedToo : second.Separated .rightBrace) :
    first = second ∧ rest = remaining := by
  rcases (statements_read first consumed closes separated).unique
      (statements_read second consumedToo closesToo separatedToo) with
    ⟨sameStatements, sameRest⟩
  refine ⟨?_, sameRest⟩
  match first with
  | .none =>
      cases second with
      | none =>
          rfl
      | more next others =>
          cases sameStatements
  | .more next others =>
      cases second with
      | none =>
          cases sameStatements
      | more otherNext otherOthers =>
          rcases StatementsTree.first_fits consumed closes separated with
            ⟨middle, fits, othersConsumed, othersSeparated⟩
          rcases StatementsTree.first_fits consumedToo closesToo separatedToo with
            ⟨behind, fitsToo, othersConsumedToo, othersSeparatedToo⟩
          rcases StatementTree.unique next otherNext fits fitsToo with
            ⟨rfl, rfl⟩
          rw [(StatementsTree.unique others otherOthers othersConsumed
            othersConsumedToo closes closesToo othersSeparated
            othersSeparatedToo).1]

end

/-! ### Functions and contracts -/

private theorem ParametersTree.kind_eq {tree : ParametersTree}
    {stream rest : TokenStream} (consumed : stream.Consumes tree.tokens rest) :
    stream.kind = .identifier := by
  rcases tree.starts with ⟨token, others, tokensEq, kind⟩
  rw [consumed.kind_eq, tokensEq]
  exact kind

private theorem BlockTree.kind_eq {tree : BlockTree}
    {stream rest : TokenStream} (consumed : stream.Consumes tree.tokens rest) :
    stream.kind = .leftBrace := by
  rcases tree.starts with ⟨token, others, tokensEq, kind⟩
  rw [consumed.kind_eq, tokensEq]
  exact kind

private theorem TypeTree.kind_isType {tree : TypeTree}
    {stream rest : TokenStream} (consumed : stream.Consumes tree.tokens rest) :
    stream.kind.isType = true := by
  rcases tree.starts with ⟨token, tokensEq, names⟩
  rw [consumed.kind_eq, tokensEq]
  exact ValueType.isType_iff.mpr ⟨_, names⟩

/-- What stands between two parentheses is unique. -/
theorem ParametersTree.unique_optional {first second : Option ParametersTree}
    {stream rest remaining : TokenStream}
    (consumed : stream.Consumes (first.elim [] tokens) rest)
    (consumedToo : stream.Consumes (second.elim [] tokens) remaining)
    (closes : rest.kind = .rightParen)
    (closesToo : remaining.kind = .rightParen) : first = second := by
  cases first with
  | none =>
      cases second with
      | none =>
          rfl
      | some parameters =>
          cases consumed
          exact nomatch closes.symm.trans (kind_eq consumedToo)
  | some parameters =>
      cases second with
      | none =>
          cases consumedToo
          exact nomatch closesToo.symm.trans (kind_eq consumed)
      | some others =>
          rw [unique parameters others consumed consumedToo
            (by rw [closes]; decide) (by rw [closesToo]; decide)]

/-- What stands between a parenthesis and a body is unique. -/
theorem TypeTree.unique_optional {first second : Option TypeTree}
    {stream rest remaining : TokenStream}
    (consumed : stream.Consumes (first.elim [] tokens) rest)
    (consumedToo : stream.Consumes (second.elim [] tokens) remaining)
    (opens : rest.kind = .leftBrace)
    (opensToo : remaining.kind = .leftBrace) : first = second := by
  cases first with
  | none =>
      cases second with
      | none =>
          rfl
      | some type =>
          cases consumed
          have names := kind_isType consumedToo
          rw [opens] at names
          cases names
  | some type =>
      cases second with
      | none =>
          cases consumedToo
          have names := kind_isType consumed
          rw [opensToo] at names
          cases names
      | some other =>
          rw [(unique consumed consumedToo).1]

private theorem FunctionTree.unique {first second : FunctionTree}
    {stream rest remaining : TokenStream}
    (consumed : stream.Consumes first.tokens rest)
    (consumedToo : stream.Consumes second.tokens remaining)
    (separated : first.body.Separated) (separatedToo : second.body.Separated) :
    first = second ∧ rest = remaining := by
  rcases first with ⟨word, name, opening, parameters, closing, type, body⟩
  rcases second with ⟨otherWord, otherName, otherOpening, otherParameters,
    otherClosing, otherType, otherBody⟩
  rcases consumed with ⟨_, wordEq, _, nameEq, _, openingEq, consumed⟩
  rcases consumedToo with
    ⟨_, otherWordEq, _, otherNameEq, _, otherOpeningEq, consumedToo⟩
  obtain rfl := Terminal.unique wordEq otherWordEq
  obtain rfl := Terminal.unique nameEq otherNameEq
  obtain rfl := Terminal.unique openingEq otherOpeningEq
  rcases TokenStream.consumes_append.mp consumed with
    ⟨middle, listed, _, closingEq, consumed⟩
  rcases TokenStream.consumes_append.mp consumedToo with
    ⟨otherMiddle, listedToo, _, otherClosingEq, consumedToo⟩
  obtain rfl := ParametersTree.unique_optional listed listedToo
    (TokenStream.kind_of_terminal closing closingEq)
    (TokenStream.kind_of_terminal otherClosing otherClosingEq)
  obtain rfl := listed.unique listedToo
  obtain rfl := Terminal.unique closingEq otherClosingEq
  rcases TokenStream.consumes_append.mp consumed with
    ⟨behind, typed, bodyConsumed⟩
  rcases TokenStream.consumes_append.mp consumedToo with
    ⟨otherBehind, typedToo, bodyConsumedToo⟩
  obtain rfl := TypeTree.unique_optional typed typedToo
    (BlockTree.kind_eq bodyConsumed) (BlockTree.kind_eq bodyConsumedToo)
  obtain rfl := typed.unique typedToo
  rcases BlockTree.unique body otherBody bodyConsumed bodyConsumedToo
    separated separatedToo with ⟨rfl, rfl⟩
  exact ⟨rfl, rfl⟩

/-- The functions of a contract are unique up to the closing brace. -/
theorem FunctionTree.unique_all (first second : List FunctionTree)
    {stream rest remaining : TokenStream}
    (consumed : stream.Consumes (first.flatMap tokens) rest)
    (consumedToo : stream.Consumes (second.flatMap tokens) remaining)
    (closes : rest.kind = .rightBrace)
    (closesToo : remaining.kind = .rightBrace)
    (separated : ∀ tree ∈ first, tree.body.Separated)
    (separatedToo : ∀ tree ∈ second, tree.body.Separated) :
    first = second := by
  induction first generalizing second stream with
  | nil =>
      cases second with
      | nil =>
          rfl
      | cons other others =>
          cases consumed
          exact nomatch closes.symm.trans
            (consumedToo.kind_eq.trans other.word.property)
  | cons function functions inductionHypothesis =>
      cases second with
      | nil =>
          cases consumedToo
          exact nomatch closesToo.symm.trans
            (consumed.kind_eq.trans function.word.property)
      | cons other others =>
          rw [List.flatMap_cons] at consumed consumedToo
          rcases TokenStream.consumes_append.mp consumed with
            ⟨middle, firstConsumed, othersConsumed⟩
          rcases TokenStream.consumes_append.mp consumedToo with
            ⟨behind, firstConsumedToo, othersConsumedToo⟩
          rcases unique firstConsumed firstConsumedToo
              (separated function List.mem_cons_self)
              (separatedToo other List.mem_cons_self) with
            ⟨rfl, rfl⟩
          rw [inductionHypothesis others othersConsumed othersConsumedToo
            (fun tree member => separated tree (List.mem_cons_of_mem _ member))
            (fun tree member =>
              separatedToo tree (List.mem_cons_of_mem _ member))]

private theorem ContractTree.unique {first second : ContractTree}
    {stream : TokenStream} (tokensEq : first.tokens = stream.upcoming)
    (tokensEqToo : second.tokens = stream.upcoming)
    (separated : first.Separated) (separatedToo : second.Separated) :
    first = second := by
  have shape : stream.upcoming = first.tokens ++ [] := by
    rw [tokensEq, List.append_nil]
  rcases TokenStream.consumes_of_upcoming shape with ⟨final, consumed, _⟩
  have consumedToo : stream.Consumes second.tokens final := by
    rw [tokensEqToo, ← tokensEq]
    exact consumed
  rcases first with ⟨word, opening, functions, closing⟩
  rcases second with ⟨otherWord, otherOpening, otherFunctions, otherClosing⟩
  rcases consumed with ⟨_, wordEq, _, openingEq, consumed⟩
  rcases consumedToo with ⟨_, otherWordEq, _, otherOpeningEq, consumedToo⟩
  obtain rfl := Terminal.unique wordEq otherWordEq
  obtain rfl := Terminal.unique openingEq otherOpeningEq
  rcases TokenStream.consumes_append.mp consumed with
    ⟨middle, listed, _, closingEq, _⟩
  rcases TokenStream.consumes_append.mp consumedToo with
    ⟨behind, listedToo, _, otherClosingEq, _⟩
  obtain rfl := FunctionTree.unique_all functions otherFunctions listed
    listedToo (TokenStream.kind_of_terminal closing closingEq)
    (TokenStream.kind_of_terminal otherClosing otherClosingEq)
    separated separatedToo
  obtain rfl := listed.unique listedToo
  obtain rfl := Terminal.unique closingEq otherClosingEq
  rfl

/-- A contract is read from a stream of tokens exactly when the tokens derive
it, and they have no second derivation. -/
theorem readContract_ok_iff_derived (stream : TokenStream)
    (contract : Contract) :
    ((readContract stream).outcome.1 = .ok contract ↔
        ∃ tree : ContractTree, tree.tokens = stream.upcoming ∧
          tree.contract = contract ∧ tree.Separated) ∧
      Subsingleton { tree : ContractTree //
        tree.tokens = stream.upcoming ∧ tree.Separated } := by
  refine ⟨⟨?_, ?_⟩, ⟨?_⟩⟩
  · intro read
    exact contract_derived (Reading.gives_iff_outcome.mpr
      (Prod.ext read rfl))
  · rintro ⟨tree, tokensEq, rfl, separated⟩
    rcases contract_read tree tokensEq separated with ⟨rest, given⟩
    rw [Reading.gives_iff_outcome.mp given]
  · rintro ⟨first, tokensEq, separated⟩ ⟨second, tokensEqToo, separatedToo⟩
    exact Subtype.ext
      (ContractTree.unique tokensEq tokensEqToo separated separatedToo)

end ContractCompiler
