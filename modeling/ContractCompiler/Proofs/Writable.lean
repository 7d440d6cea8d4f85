/-
Contracts that can be written down.

A contract that is read from a source text has names that are identifiers,
integers without a sign, operators where they can be written, and a return
without a value only where a block ends.  Strings are the exception: a source
text can hold escapes, and their values cannot be written back as they are.
-/

import ContractCompiler.Proofs.Lexemes

namespace ContractCompiler

theorem readDigits_eq_some_iff {text : List Char} {number : Nat} :
    readDigits text = some number ↔
      text ≠ [] ∧ (∀ character ∈ text, isDigit character = true) ∧
        text.foldl (fun value digit => 10 * value + digitValue digit) 0 =
          number := by
  simp [readDigits, and_assoc]

/-- A numeral without a sign is read unless its number takes 64 bits. -/
theorem readInt64_of_digits {text : List Char} {number : Nat}
    (digits : readDigits text = some number) :
    readInt64 text =
      if number < 0x8000000000000000 then some (number : Int) else none := by
  have signless : readSigned text = some (number : Int) := by
    have known := (readDigits_eq_some_iff.mp digits).2.1
    rw [readSigned, digits]
    · rfl
    · rintro rest rfl
      cases known '-' List.mem_cons_self
    · rintro rest rfl
      cases known '+' List.mem_cons_self
  rw [readInt64, signless]
  by_cases fits : number < 0x8000000000000000
  · rw [if_pos fits, Option.filter_some, if_pos]
    rw [decide_eq_true_eq]
    omega
  · rw [if_neg fits, Option.filter_some, if_neg]
    rw [decide_eq_true_eq]
    omega

/-- A numeral without a sign is refused exactly when its number is `2 ^ 63` or
more. -/
theorem readInt64_eq_none_iff {text : List Char} {number : Nat}
    (digits : readDigits text = some number) :
    readInt64 text = none ↔ 0x8000000000000000 ≤ number := by
  rw [readInt64_of_digits digits, ite_eq_right_iff]
  simp

/-- A numeral without a sign is an operand exactly when its number is less than
`2 ^ 63`. -/
theorem Token.standsFor_iff_of_digits {token : Token} {number : Nat}
    {expression : Expression} (integer : token.kind = .integer)
    (digits : readDigits token.literal.toList = some number) :
    token.StandsFor expression ↔
      number < 0x8000000000000000 ∧ expression = .integer number := by
  constructor
  · intro stands
    cases stands with
    | integer _ fits =>
        rw [readInt64_of_digits digits] at fits
        split at fits
        next small =>
          cases fits
          exact ⟨small, rfl⟩
        next => cases fits
    | identifier kind | text kind | truth kind | falsehood kind =>
        cases integer.symm.trans kind
  · rintro ⟨small, rfl⟩
    exact .integer integer (by rw [readInt64_of_digits digits, if_pos small])

/-- A return without a value is the last statement of its block. -/
theorem StatementsTree.ended_of_returns {first : StatementTree}
    {others : StatementsTree} {behind : TokenKind}
    (precedes : first.MayPrecede (nextKind others.tokens behind))
    (returns : first.statement = .returns Option.none) :
    others.statements = [] := by
  cases first with
  | returnsNothing word =>
      cases others with
      | none => rfl
      | more next rest =>
          rcases next.starts with ⟨token, following, tokensEq, starts⟩
          have brace : nextKind (next.tokens ++ rest.tokens) behind =
              .rightBrace := precedes
          rw [tokensEq] at brace
          exact absurd brace starts.ne.1
  | returnsValue word value => cases returns
  | assigns type name sign value => cases returns
  | ifThen word opening condition closing consequence => cases returns
  | ifThenElse word opening condition closing consequence otherwise
      alternative => cases returns
  | evaluates value => cases returns

variable [IdentifierCharacters]

def Identifies (name : String) : Prop :=
  ∃ first rest, name.toList = first :: rest ∧
    isIdentifierStart first = true ∧
    (∀ character ∈ rest, isIdentifierPart character = true) ∧
    TokenKind.keyword? name = none

def Unescaped (value : String) : Prop :=
  '"' ∉ value.toList ∧ '\\' ∉ value.toList

/-! ### String values -/

def Expression.texts : Expression → List String
  | .text value => [value]
  | .binary _ left right => left.texts ++ right.texts
  | .unary _ operand => operand.texts
  | _ => []

mutual

def Statement.texts : Statement → List String
  | .returns none => []
  | .returns (some value) => value.texts
  | .assigns _ _ value => value.texts
  | .ifThen condition consequence =>
      condition.texts ++ Statement.textsAll consequence
  | .ifThenElse condition consequence alternative =>
      condition.texts ++ Statement.textsAll consequence ++
        Statement.textsAll alternative
  | .evaluates value => value.texts

def Statement.textsAll : List Statement → List String
  | [] => []
  | statement :: rest => statement.texts ++ Statement.textsAll rest

end

def Contract.texts (contract : Contract) : List String :=
  contract.functions.flatMap fun function => Statement.textsAll function.body

/-! ### Writable contracts -/

def Expression.Writable : Expression → Prop
  | .identifier name => Identifies name
  | .integer value => 0 ≤ value ∧ value < 0x8000000000000000
  | .text value => Unescaped value
  | .boolean _ => True
  | .binary operator left right =>
      operator ≠ .not ∧ left.Writable ∧ right.Writable
  | .unary operator operand =>
      (operator = .minus ∨ operator = .not) ∧ operand.Writable

mutual

def Statement.Writable : Statement → Prop
  | .returns none => True
  | .returns (some value) => value.Writable
  | .assigns type name value =>
      type ≠ .void ∧ Identifies name ∧ value.Writable
  | .ifThen condition consequence =>
      condition.Writable ∧ Statement.AllWritable consequence
  | .ifThenElse condition consequence alternative =>
      condition.Writable ∧ Statement.AllWritable consequence ∧
        Statement.AllWritable alternative
  | .evaluates value => value.Writable

/-- Statements that can be written in a block.  Nothing follows a return
without a value. -/
def Statement.AllWritable : List Statement → Prop
  | [] => True
  | statement :: rest =>
      (statement = .returns none → rest = []) ∧ statement.Writable ∧
        Statement.AllWritable rest

end

structure Function.Writable (function : Function) : Prop where
  name : Identifies function.name
  parameters : ∀ parameter ∈ function.parameters,
    Identifies parameter.name ∧ parameter.type ≠ .void
  body : Statement.AllWritable function.body

def Contract.Writable (contract : Contract) : Prop :=
  ∀ function ∈ contract.functions, function.Writable

/-! ### Tokens -/

structure Token.Spelled (token : Token) : Prop where
  name : token.kind = .identifier → Identifies token.literal
  number : token.kind = .integer →
    ∃ number, readDigits token.literal.toList = some number

private theorem Token.spelled_of_other {token : Token}
    (unnamed : token.kind ≠ .identifier) (uncounted : token.kind ≠ .integer) :
    token.Spelled := by
  constructor
  · intro named
    exact absurd named unnamed
  · intro counted
    exact absurd counted uncounted

namespace Lexeme

private theorem keyword_of_word {first : Char} {rest : List Char}
    {kind : TokenKind} (same : (word (first :: rest)).kind = kind) :
    (kind = .identifier ∧ TokenKind.keyword?
      (String.ofList (word (first :: rest)).text) = none) ∨
      kind ∈ TokenKind.keywords := by
  rw [word, wordKind] at same
  rw [word]
  cases found : TokenKind.keyword?
      (String.ofList (first :: rest.takeWhile isIdentifierPart)) with
  | none =>
      left
      rw [found] at same
      exact ⟨same.symm, rfl⟩
  | some keyword =>
      right
      rw [found] at same
      cases same
      exact List.mem_of_find?_eq_some found

private theorem read_spelled (first : Char) (rest : List Char)
    (place : Place) : ((read first rest).token place).Spelled := by
  have literal : ∀ lexeme : Lexeme,
      (lexeme.token place).literal.toList = lexeme.text :=
    fun lexeme => String.toList_ofList
  unfold read
  by_cases digit : isDigit first = true
  · rw [if_pos digit]
    constructor
    · intro named
      cases named
    · intro _
      rw [literal]
      refine ⟨_, readDigits_eq_some_iff.mpr ⟨?_, ?_, rfl⟩⟩
      · simp [number, digit]
      · exact List.all_eq_true.mp List.all_takeWhile
  rw [if_neg digit]
  by_cases quote : (first == '"') = true
  · rw [if_pos quote]
    rw [quoted]
    split
    · apply Token.spelled_of_other <;> intro same <;> cases same
    · apply Token.spelled_of_other <;> intro same <;> cases same
  rw [if_neg quote]
  by_cases starts : isIdentifierStart first = true
  · rw [if_pos starts]
    constructor
    · intro named
      rcases keyword_of_word named with ⟨_, unreserved⟩ | reserved
      · exact ⟨first, _, literal _, starts,
          List.all_eq_true.mp List.all_takeWhile, unreserved⟩
      · exact absurd reserved (by decide)
    · intro counted
      rcases keyword_of_word counted with ⟨other, _⟩ | reserved
      · cases other
      · exact absurd reserved (by decide)
  · rw [if_neg starts]
    exact Token.spelled_of_other (operator_ne (by decide) first rest)
      (operator_ne (by decide) first rest)

end Lexeme

theorem tokensFrom_spelled (place : Place) (text : List Char) :
    ∀ token ∈ tokensFrom place text, token.Spelled := by
  fun_induction tokensFrom place text with
  | case1 place text blanks here used =>
      intro token member
      rw [List.mem_singleton.mp member]
      apply Token.spelled_of_other <;> intro same <;> cases same
  | case2 place text blanks here first rest found lexeme
      inductionHypothesis =>
      intro token member
      rcases List.mem_cons.mp member with rfl | member
      · exact Lexeme.read_spelled first rest here
      · exact inductionHypothesis token member

/-! ### Trees -/

private theorem ExpressionTree.writable {level : Nat}
    (tree : ExpressionTree level)
    (spelled : ∀ token ∈ tree.tokens, token.Spelled)
    (plain : ∀ value ∈ tree.expression.texts, Unescaped value) :
    tree.expression.Writable := by
  induction tree with
  | primary token expression stands =>
      have known := spelled token (List.mem_singleton_self token)
      cases stands with
      | identifier kind => exact known.name kind
      | integer kind fits =>
          obtain ⟨number, digits⟩ := known.number kind
          obtain ⟨small, same⟩ := (Token.standsFor_iff_of_digits kind
            digits).mp (.integer kind fits)
          cases same
          exact ⟨Int.natCast_nonneg number, by omega⟩
      | text kind => exact plain _ (List.mem_singleton_self _)
      | truth kind => trivial
      | falsehood kind => trivial
  | parentheses opening inner closing inductionHypothesis =>
      simp only [tokens, List.forall_mem_cons, List.forall_mem_append]
        at spelled
      exact inductionHypothesis spelled.2.1 plain
  | signed sign operator leads operand inductionHypothesis =>
      have position := (signed sign operator leads operand).regular.1
      simp only [tokens, List.forall_mem_cons] at spelled
      exact ⟨position, inductionHypothesis spelled.2 plain⟩
  | tighter infixLevel inner inductionHypothesis =>
      exact inductionHypothesis spelled plain
  | joined left sign operator joins right leftHypothesis rightHypothesis =>
      have position := (joined left sign operator joins right).regular.1
      simp only [tokens, List.forall_mem_cons, List.forall_mem_append]
        at spelled
      simp only [expression, Expression.texts, List.forall_mem_append]
        at plain
      exact ⟨position, leftHypothesis spelled.1 plain.1,
        rightHypothesis spelled.2.2 plain.2⟩

private theorem ParametersTree.writable (tree : ParametersTree)
    (spelled : ∀ token ∈ tree.tokens, token.Spelled) :
    ∀ parameter ∈ tree.parameters,
      Identifies parameter.name ∧ parameter.type ≠ .void := by
  induction tree with
  | last name type =>
      intro parameter member
      rw [List.mem_singleton.mp member]
      exact ⟨(spelled name.val List.mem_cons_self).name name.property,
        type.type_ne_void⟩
  | more name type comma others inductionHypothesis =>
      simp only [tokens, List.forall_mem_cons, List.forall_mem_append]
        at spelled
      intro parameter member
      rcases List.mem_cons.mp member with rfl | member
      · exact ⟨spelled.1.name name.property, type.type_ne_void⟩
      · exact inductionHypothesis spelled.2.2.2 parameter member

mutual

theorem StatementTree.writable (tree : StatementTree)
    (separated : tree.Separated)
    (spelled : ∀ token ∈ tree.tokens, token.Spelled)
    (plain : ∀ value ∈ tree.statement.texts, Unescaped value) :
    tree.statement.Writable := by
  match tree with
  | .returnsNothing word =>
      exact trivial
  | .returnsValue word value =>
      simp only [StatementTree.tokens, List.forall_mem_cons] at spelled
      exact value.writable spelled.2 plain
  | .assigns type name sign value =>
      simp only [StatementTree.tokens, List.forall_mem_cons,
        List.forall_mem_append] at spelled
      rcases spelled with ⟨_, named, _, inValue⟩
      exact ⟨type.type_ne_void, named.name name.property,
        value.writable inValue plain⟩
  | .ifThen word opening condition closing consequence =>
      simp only [StatementTree.tokens, List.forall_mem_cons,
        List.forall_mem_append] at spelled
      simp only [StatementTree.statement, Statement.texts,
        List.forall_mem_append] at plain
      rcases spelled with ⟨_, _, inCondition, _, inConsequence⟩
      exact ⟨condition.writable inCondition plain.1,
        consequence.writable separated inConsequence plain.2⟩
  | .ifThenElse word opening condition closing consequence otherwise
      alternative =>
      simp only [StatementTree.tokens, List.forall_mem_cons,
        List.forall_mem_append] at spelled
      simp only [StatementTree.statement, Statement.texts,
        List.forall_mem_append] at plain
      rcases spelled with
        ⟨_, _, inCondition, _, inConsequence, _, inAlternative⟩
      exact ⟨condition.writable inCondition plain.1.1,
        consequence.writable separated.1 inConsequence plain.1.2,
        alternative.writable separated.2 inAlternative plain.2⟩
  | .evaluates value =>
      exact value.writable spelled plain

theorem BlockTree.writable (tree : BlockTree) (separated : tree.Separated)
    (spelled : ∀ token ∈ tree.tokens, token.Spelled)
    (plain : ∀ value ∈ Statement.textsAll tree.block, Unescaped value) :
    Statement.AllWritable tree.block := by
  match tree with
  | .braces opening statements closing =>
      simp only [BlockTree.tokens, List.forall_mem_cons,
        List.forall_mem_append] at spelled
      exact statements.writable separated spelled.2.1 plain

theorem StatementsTree.writable (tree : StatementsTree)
    {behind : TokenKind} (separated : tree.Separated behind)
    (spelled : ∀ token ∈ tree.tokens, token.Spelled)
    (plain : ∀ value ∈ Statement.textsAll tree.statements,
      Unescaped value) :
    Statement.AllWritable tree.statements := by
  match tree with
  | .none =>
      exact trivial
  | .more first others =>
      rcases separated with ⟨firstSeparated, precedes, othersSeparated⟩
      simp only [StatementsTree.tokens, List.forall_mem_append] at spelled
      simp only [StatementsTree.statements, Statement.textsAll,
        List.forall_mem_append] at plain
      exact ⟨StatementsTree.ended_of_returns precedes,
        first.writable firstSeparated spelled.1 plain.1,
        others.writable othersSeparated spelled.2 plain.2⟩

end

private theorem FunctionTree.writable (tree : FunctionTree)
    (separated : tree.body.Separated)
    (spelled : ∀ token ∈ tree.tokens, token.Spelled)
    (plain : ∀ value ∈ Statement.textsAll tree.body.block,
      Unescaped value) :
    tree.function.Writable := by
  simp only [tokens, List.forall_mem_cons, List.forall_mem_append]
    at spelled
  rcases spelled with ⟨_, named, _, inParameters, _, _, inBody⟩
  constructor
  · exact named.name tree.name.property
  · intro parameter member
    cases listed : tree.parameters with
    | none =>
        rw [function, listed] at member
        cases member
    | some parameters =>
        rw [function, listed] at member
        rw [listed] at inParameters
        exact parameters.writable inParameters parameter member
  · exact tree.body.writable separated inBody plain

/-- Whatever is read from tokens of source texts can be written, if its strings
can. -/
theorem Contract.writable_of_read {tokens : List Token} {contract : Contract}
    (scanned : ∀ token ∈ tokens, ∃ source, token ∈ tokenize source)
    (read : (readContract (.ofTokens tokens)).outcome.1 = .ok contract)
    (plain : ∀ value ∈ contract.texts, Unescaped value) :
    contract.Writable := by
  rcases contract_derived
    (Reading.gives_iff_outcome.mpr (Prod.ext read rfl)) with
    ⟨tree, tokensEq, rfl, separated⟩
  have spelled : ∀ token ∈ tree.tokens, token.Spelled := by
    intro token member
    rw [tokensEq] at member
    rcases scanned token (List.takeWhile_subset _ member) with
      ⟨source, found⟩
    exact tokensFrom_spelled .start source.toList token found
  intro function member
  rcases List.mem_map.mp member with ⟨functionTree, inside, rfl⟩
  apply functionTree.writable (separated functionTree inside)
  · intro token tokenMember
    apply spelled token
    have among : token ∈ tree.functions.flatMap FunctionTree.tokens :=
      List.mem_flatMap.mpr ⟨functionTree, inside, tokenMember⟩
    simp [ContractTree.tokens, among]
  · intro value valueMember
    exact plain value
      (List.mem_flatMap.mpr ⟨functionTree.function, member, valueMember⟩)

end ContractCompiler
