/-
How operators bind.

Reading with a power takes just the expressions of the level above that power,
up to the first token that does not bind tighter.  What a level derives is a
chain of operands of the next level, put together from the left.  A sign in
front of an operand belongs to that operand alone.
-/

import ContractCompiler.Proofs.ExpressionReading

namespace ContractCompiler

def Derives (level : Nat) (tokens : List Token) (expression : Expression) :
    Prop :=
  ∃ tree : ExpressionTree level, tree.tokens = tokens ∧
    tree.expression = expression

structure Link where
  sign : Token
  operator : Operator
  tokens : List Token
  operand : Expression

namespace Link

structure Fits (level : Nat) (link : Link) : Prop where
  joins : link.operator.Joins link.sign.kind level
  derived : Derives (level + 1) link.tokens link.operand

def spelled (links : List Link) : List Token :=
  links.flatMap fun link => link.sign :: link.tokens

def applied (first : Expression) (links : List Link) : Expression :=
  links.foldl (fun left link => .binary link.operator left link.operand) first

end Link

/-! ### Chains -/

section Chains

variable {level : Nat} {tokens : List Token} {expression : Expression}

private theorem Derives.bounds (derived : Derives level tokens expression) :
    1 ≤ level ∧ level ≤ 7 := by
  rcases derived with ⟨tree, _, _⟩
  exact tree.level_bounds

theorem Derives.looser (derived : Derives level tokens expression)
    {lower : Nat} (positive : 1 ≤ lower) (le : lower ≤ level) :
    Derives lower tokens expression := by
  rcases derived with ⟨tree, rfl, rfl⟩
  exact tree.exists_looser lower positive le

theorem Derives.append {links : List Link}
    (derived : Derives level tokens expression)
    (fits : ∀ link ∈ links, link.Fits level) :
    Derives level (tokens ++ Link.spelled links)
      (Link.applied expression links) := by
  induction links generalizing tokens expression with
  | nil =>
      rw [Link.spelled, List.flatMap_nil, List.append_nil]
      exact derived
  | cons link others inductionHypothesis =>
      have first := fits link List.mem_cons_self
      have joined : Derives level (tokens ++ link.sign :: link.tokens)
          (.binary link.operator expression link.operand) := by
        rcases derived with ⟨left, rfl, rfl⟩
        rcases first.derived with ⟨right, same, operand⟩
        rw [← same, ← operand]
        exact ⟨.joined left link.sign link.operator first.joins right, rfl,
          rfl⟩
      have whole := inductionHypothesis joined fun other member =>
        fits other (List.mem_cons_of_mem _ member)
      rw [List.append_assoc] at whole
      exact whole

/-- A level below the operands derives just the chains of the next level. -/
theorem derives_iff_chain (below : 1 ≤ level ∧ level ≤ 6) :
    Derives level tokens expression ↔
      ∃ firstTokens first links, Derives (level + 1) firstTokens first ∧
        (∀ link ∈ links, Link.Fits level link) ∧
        tokens = firstTokens ++ Link.spelled links ∧
        expression = Link.applied first links := by
  constructor
  · rintro ⟨tree, rfl, rfl⟩
    induction tree with
    | primary | parentheses | signed => omega
    | tighter _ inner =>
        refine ⟨_, _, [], ⟨inner, rfl, rfl⟩, by simp, ?_, rfl⟩
        rw [Link.spelled, List.flatMap_nil, List.append_nil]
        rfl
    | joined left sign operator joins right leftHypothesis _ =>
        -- The outermost operator is the last one of its chain.
        rcases leftHypothesis below with
          ⟨firstTokens, first, links, derived, fits, spelled, applied⟩
        refine ⟨firstTokens, first,
          links ++ [⟨sign, operator, right.tokens, right.expression⟩],
          derived, ?_, ?_, ?_⟩
        · intro link member
          rcases List.mem_append.mp member with earlier | last
          · exact fits link earlier
          · rw [List.mem_singleton.mp last]
            exact ⟨joins, right, rfl, rfl⟩
        · rw [ExpressionTree.tokens, spelled]
          simp [Link.spelled]
        · rw [ExpressionTree.expression, applied]
          simp [Link.applied]
  · rintro ⟨firstTokens, first, links, derived, fits, rfl, rfl⟩
    exact (derived.looser below.1 (Nat.le_succ level)).append fits

end Chains

/-! ### Signs -/

/-- An operand that is put together from two others stands in parentheses. -/
theorem derives_operand_binary {tokens : List Token} {operator : Operator}
    {left right : Expression}
    (derived : Derives 7 tokens (.binary operator left right)) :
    ∃ opening inner closing,
      Token.kind opening = .leftParen ∧ Token.kind closing = .rightParen ∧
      tokens = opening :: (inner ++ [closing]) ∧
      Derives 1 inner (.binary operator left right) := by
  rcases derived with ⟨tree, rfl, same⟩
  cases tree with
  | primary token expression stands =>
      change expression = _ at same
      rw [same] at stands
      cases stands
  | parentheses opening inner closing =>
      exact ⟨opening.val, inner.tokens, closing.val, opening.property,
        closing.property, rfl, inner, rfl, same⟩
  | signed =>
      cases same
  | tighter below =>
      omega
  | joined _ _ _ joins =>
      have bounds := joins.bounds
      omega

/-- What a sign at the front applies to as a whole is an operand. -/
theorem derives_signed {level : Nat} {sign : Token} {tokens : List Token}
    {operator : Operator} {operand : Expression}
    (leads : operator.Leads sign.kind)
    (derived : Derives level (sign :: tokens) (.unary operator operand)) :
    Derives 7 tokens operand := by
  rcases derived with ⟨tree, spelled, same⟩
  induction tree with
  | primary token expression stands =>
      change expression = _ at same
      rw [same] at stands
      cases stands
  | parentheses opening inner closing =>
      have opens : sign = opening.val := (List.cons.inj spelled).1.symm
      rw [opens, opening.property] at leads
      cases leads
  | signed found other leadsToo inner =>
      cases same
      exact ⟨inner, (List.cons.inj spelled).2, rfl⟩
  | tighter _ inner inductionHypothesis =>
      exact inductionHypothesis spelled same
  | joined =>
      cases same

/-! ### Reading -/

namespace TokenStream

def ReadsAs (stream : TokenStream) (power : Nat) (tokens : List Token)
    (expression : Expression) : Prop :=
  ∃ rest, (readExpression power stream).outcome = (.ok expression, rest) ∧
    stream.Consumes tokens rest

def StopsBehind (stream : TokenStream) (power : Nat)
    (tokens : List Token) : Prop :=
  ∃ rest, stream.Consumes tokens rest ∧
    ∀ operator level, Operator.Joins operator rest.kind level →
      level ≤ power

theorem stopsBehind_iff {stream : TokenStream} {power : Nat}
    {tokens : List Token} :
    stream.StopsBehind power tokens ↔
      ∃ rest, stream.Consumes tokens rest ∧
        rest.kind.precedence ≤ power := by
  constructor
  · rintro ⟨rest, consumed, loose⟩
    refine ⟨rest, consumed, ?_⟩
    cases found : Operator.between? rest.kind with
    | none =>
        rw [Operator.between_none_iff.mp found]
        exact Nat.zero_le power
    | some operator =>
        exact loose operator _ (Operator.joins_iff.mpr ⟨found, rfl⟩)
  · rintro ⟨rest, consumed, loose⟩
    refine ⟨rest, consumed, fun operator level joins => ?_⟩
    rw [← (Operator.joins_iff.mp joins).2]
    exact loose

/-- Just what the level above a power derives is read with it, in front of a
token that does not bind tighter. -/
theorem readsAs_iff {stream : TokenStream} {power : Nat}
    {tokens : List Token} {expression : Expression} :
    stream.ReadsAs power tokens expression ↔
      Derives (levelAbove power) tokens expression ∧
        stream.StopsBehind power tokens := by
  rw [stopsBehind_iff]
  constructor
  · rintro ⟨rest, outcome, consumed⟩
    rcases readExpression_gives_iff.mp
        (Reading.gives_iff_outcome.mpr outcome) with
      ⟨tree, consumedToo, same, loose⟩
    have tokensEq : tree.tokens = tokens := by
      have twice := consumedToo.upcoming
      rw [consumed.upcoming] at twice
      exact (List.append_cancel_right twice).symm
    exact ⟨⟨tree, tokensEq, same⟩, rest, consumed, loose⟩
  · rintro ⟨⟨tree, rfl, same⟩, rest, consumed, loose⟩
    refine ⟨rest, Reading.gives_iff_outcome.mp ?_, consumed⟩
    exact readExpression_gives_iff.mpr ⟨tree, consumed, same, loose⟩

/-- Chains of one level are read from the left. -/
theorem readsAs_chain {stream : TokenStream} {power level : Nat}
    {tokens : List Token} {first : Expression} {links : List Link}
    (above : power < level) (derived : Derives (level + 1) tokens first)
    (fits : ∀ link ∈ links, link.Fits level)
    (stops : stream.StopsBehind power (tokens ++ Link.spelled links)) :
    stream.ReadsAs power (tokens ++ Link.spelled links)
      (Link.applied first links) := by
  have bounds := derived.bounds
  have chained := (derived.looser (by omega) (Nat.le_succ level)).append fits
  refine readsAs_iff.mpr ⟨chained.looser ?_ ?_, stops⟩ <;>
  · unfold levelAbove
    omega

/-- How operators bind when an expression is read with a power.  No operator
between operands binds as tight as a sign, so the powers six and seven both
read operands. -/
structure Binds (stream : TokenStream) (power : Nat) : Prop where
  levels : ∀ tokens expression,
    stream.ReadsAs power tokens expression ↔
      Derives (levelAbove power) tokens expression ∧
        stream.StopsBehind power tokens
  leftward : ∀ level tokens first links, power < level →
    Derives (level + 1) tokens first →
    (∀ link ∈ links, Link.Fits level link) →
    stream.StopsBehind power (tokens ++ Link.spelled links) →
    stream.ReadsAs power (tokens ++ Link.spelled links)
      (Link.applied first links)
  chained : ∀ tokens expression, power < 6 →
    stream.ReadsAs power tokens expression →
    ∃ firstTokens first links, Derives (power + 2) firstTokens first ∧
      (∀ link ∈ links, Link.Fits (power + 1) link) ∧
      tokens = firstTokens ++ Link.spelled links ∧
      expression = Link.applied first links
  signed : ∀ level sign operator tokens operand links, power < level →
    level ≤ 6 → Operator.Leads operator (Token.kind sign) →
    Derives 7 tokens operand →
    (∀ link ∈ links, Link.Fits level link) →
    stream.StopsBehind power (sign :: tokens ++ Link.spelled links) →
    stream.ReadsAs power (sign :: tokens ++ Link.spelled links)
      (Link.applied (.unary operator operand) links)
  enclosed : ∀ sign operator tokens joint left right,
    Operator.Leads operator (Token.kind sign) →
    stream.ReadsAs power (sign :: tokens)
      (.unary operator (.binary joint left right)) →
    ∃ opening inner closing,
      Token.kind opening = .leftParen ∧ Token.kind closing = .rightParen ∧
      tokens = opening :: (inner ++ [closing]) ∧
      Derives 1 inner (.binary joint left right)

/-- Every power reads exactly its level of the grammar.  Operators of one level
associate to the left, and a sign applies to two operands at once only in front
of parentheses. -/
theorem readExpression_binds (stream : TokenStream) (power : Nat) :
    stream.Binds power where
  levels _ _ := readsAs_iff
  leftward _ _ _ _ := readsAs_chain
  chained tokens expression below reads := by
    have derived := (readsAs_iff.mp reads).1
    have level : levelAbove power = power + 1 := by
      unfold levelAbove
      omega
    rw [level] at derived
    exact (derives_iff_chain ⟨by omega, by omega⟩).mp derived
  signed level sign operator tokens operand links above below leads derived
      fits stops := by
    have tight : Derives 7 (sign :: tokens) (.unary operator operand) := by
      rcases derived with ⟨tree, rfl, rfl⟩
      exact ⟨.signed sign operator leads tree, rfl, rfl⟩
    exact readsAs_chain above (tight.looser (by omega) (by omega)) fits stops
  enclosed _ _ _ _ _ _ leads reads :=
    derives_operand_binary (derives_signed leads (readsAs_iff.mp reads).1)

end TokenStream

end ContractCompiler
