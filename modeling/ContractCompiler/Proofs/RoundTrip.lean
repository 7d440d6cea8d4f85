/-
What is written down is read back.

Every list of tokens that spells the lexemes of a contract has a derivation of
that contract.  All operators stand between parentheses there, no expression
starts with an operator, and a return without a value ends its block, so the
places where statements end are where they were.
-/

import ContractCompiler.Proofs.PlaceIndependence
import ContractCompiler.Proofs.Rendering
import ContractCompiler.Text.Identifier

namespace ContractCompiler

def Spelling (tokens : List Token) (lexemes : List Lexeme) : Prop :=
  tokens.map Token.lexeme = lexemes

namespace Spelling

variable {tokens : List Token} {lexemes others : List Lexeme}

theorem nil (spelling : Spelling tokens []) : tokens = [] :=
  List.map_eq_nil_iff.mp spelling

theorem cons {lexeme : Lexeme}
    (spelling : Spelling tokens (lexeme :: lexemes)) :
    ∃ token rest, tokens = token :: rest ∧ token.lexeme = lexeme ∧
      Spelling rest lexemes := by
  rcases List.map_eq_cons_iff.mp spelling with
    ⟨token, rest, whole, first, remaining⟩
  exact ⟨token, rest, whole, first, remaining⟩

theorem append (spelling : Spelling tokens (lexemes ++ others)) :
    ∃ first second, tokens = first ++ second ∧ Spelling first lexemes ∧
      Spelling second others := by
  rcases List.map_eq_append_iff.mp spelling with
    ⟨first, second, whole, left, right⟩
  exact ⟨first, second, whole, left, right⟩

/-- A fixed lexeme is spelled by a token of its kind. -/
theorem fixed {kind : TokenKind}
    (spelling : Spelling tokens (.fixed kind :: lexemes)) :
    ∃ (terminal : Terminal kind) (rest : List Token),
      tokens = terminal.val :: rest ∧ Spelling rest lexemes := by
  rcases spelling.cons with ⟨token, rest, whole, same, remaining⟩
  exact ⟨⟨token, congrArg Lexeme.kind same⟩, rest, whole, remaining⟩

private theorem identifier {name : String}
    (spelling : Spelling tokens (⟨.identifier, name.toList⟩ :: lexemes)) :
    ∃ (terminal : Terminal .identifier) (rest : List Token),
      tokens = terminal.val :: rest ∧ terminal.val.literal = name ∧
        Spelling rest lexemes := by
  rcases spelling.cons with ⟨token, rest, whole, same, remaining⟩
  have literal : token.literal = name :=
    String.toList_inj.mp (congrArg Lexeme.text same)
  exact ⟨⟨token, congrArg Lexeme.kind same⟩, rest, whole, literal,
    remaining⟩

end Spelling

/-! ### Operands -/

private theorem readDigits_toDigits (value : Nat) :
    readDigits (Nat.toDigits 10 value) = some value := by
  have number : (Nat.toDigits 10 value).foldl
      (fun value digit => 10 * value + digitValue digit) 0 = value :=
    Nat.ofDigitChars_toDigits (by decide) (by decide)
  rw [readDigits, if_pos, number]
  rw [Bool.and_eq_true, List.all_eq_true]
  constructor
  · simp [Nat.toDigits_ne_nil]
  · exact fun _ => isDigit_of_mem_toDigits

private theorem readInt64_toDigits {value : Int} (natural : 0 ≤ value)
    (fits : value < 0x8000000000000000) :
    readInt64 (Nat.toDigits 10 value.natAbs) = some value := by
  rw [readInt64_of_digits (readDigits_toDigits value.natAbs), if_pos (by omega),
    Int.natAbs_of_nonneg natural]

private theorem Quotation.resolve_eq_self {text : List Char}
    (noEscape : '\\' ∉ text) : resolve text = text := by
  induction text with
  | nil =>
      rfl
  | cons character rest inductionHypothesis =>
      simp only [List.mem_cons, not_or] at noEscape
      rw [resolve, inductionHypothesis noEscape.2]
      · exact fun escape => absurd escape.symm noEscape.1
      · exact fun _ _ escape => absurd escape.symm noEscape.1

private theorem Quotation.value_unescaped {value : String}
    (plain : Unescaped value) :
    Quotation.value (String.ofList ('"' :: (value.toList ++ ['"']))) =
      value := by
  have inside : body ('"' :: (value.toList ++ ['"'])) = value.toList := by
    simp [body]
  rw [Quotation.value, String.toList_ofList, inside,
    resolve_eq_self plain.2, String.ofList_toList]

/-! ### Expressions -/

private theorem Operator.joins_kind {operator : Operator}
    (proper : operator ≠ .not) :
    operator.Joins operator.kind operator.kind.precedence := by
  apply joins_iff.mpr
  constructor
  · cases operator with
    | not => exact absurd rfl proper
    | _ => rfl
  · rfl

/-- An expression in parentheses. -/
theorem ExpressionTree.exists_parentheses {level : Nat}
    (opening : Terminal .leftParen) (tree : ExpressionTree level)
    (closing : Terminal .rightParen) :
    ∃ whole : ExpressionTree 7,
      whole.tokens = opening.val :: (tree.tokens ++ [closing.val]) ∧
        whole.expression = tree.expression := by
  have bounds := tree.level_bounds
  rcases tree.exists_looser 1 (by omega) (by omega) with
    ⟨inner, tokensEq, expressionEq⟩
  refine ⟨.parentheses opening inner closing, ?_, expressionEq⟩
  rw [tokens, tokensEq]

private theorem Expression.lexemes_head (expression : Expression) :
    ∃ first rest, expression.lexemes = first :: rest ∧
      first.kind.precedence = 0 := by
  cases expression with
  | boolean value => cases value <;> exact ⟨_, _, rfl, rfl⟩
  | _ => exact ⟨_, _, rfl, rfl⟩

private theorem ValueType.exists_tree {type : ValueType}
    (proper : type ≠ .void) {tokens : List Token}
    (spelling : Spelling tokens type.lexemes) :
    ∃ tree : TypeTree, tree.tokens = tokens ∧ tree.type = type := by
  cases type with
  | void =>
      exact absurd rfl proper
  | int =>
      rcases spelling.fixed with ⟨word, _, rfl, remaining⟩
      rw [remaining.nil]
      exact ⟨.int word, rfl, rfl⟩
  | string =>
      rcases spelling.fixed with ⟨word, _, rfl, remaining⟩
      rw [remaining.nil]
      exact ⟨.string word, rfl, rfl⟩
  | bool =>
      rcases spelling.fixed with ⟨word, _, rfl, remaining⟩
      rw [remaining.nil]
      exact ⟨.bool word, rfl, rfl⟩

private theorem Spelling.braced {tokens : List Token} {lexemes : List Lexeme}
    (spelling : Spelling tokens (Lexeme.braced lexemes)) :
    ∃ (opening : Terminal .leftBrace) (inner : List Token)
      (closing : Terminal .rightBrace),
      tokens = opening.val :: (inner ++ [closing.val]) ∧
        Spelling inner lexemes := by
  rcases spelling.fixed with ⟨opening, _, rfl, behind⟩
  rcases behind.append with ⟨inner, _, rfl, inside, ending⟩
  rcases ending.fixed with ⟨closing, _, rfl, remaining⟩
  rw [remaining.nil]
  exact ⟨opening, inner, closing, rfl, inside⟩

private theorem BlockTree.separated_braces (opening : Terminal .leftBrace)
    {statements : StatementsTree} (closing : Terminal .rightBrace)
    (separated : statements.Separated .rightBrace) :
    (BlockTree.braces opening statements closing).Separated := by
  rw [BlockTree.Separated, closing.property]
  exact separated

section

variable [IdentifierCharacters]

private theorem Expression.exists_tree {expression : Expression}
    (writable : expression.Writable) {tokens : List Token}
    (spelling : Spelling tokens expression.lexemes) :
    ∃ tree : ExpressionTree 7, tree.tokens = tokens ∧
      tree.expression = expression := by
  induction expression generalizing tokens with
  | identifier name =>
      rcases spelling.identifier with ⟨token, rest, rfl, rfl, remaining⟩
      rw [remaining.nil]
      exact ⟨.primary token.val _ (.identifier token.property), rfl, rfl⟩
  | integer value =>
      rcases spelling.cons with ⟨token, rest, rfl, same, remaining⟩
      have fits : readInt64 token.literal.toList = some value := by
        rw [show token.literal.toList = _ from congrArg Lexeme.text same]
        exact readInt64_toDigits writable.1 writable.2
      rw [remaining.nil]
      exact ⟨.primary token _ (.integer (congrArg Lexeme.kind same) fits),
        rfl, rfl⟩
  | text value =>
      rcases spelling.cons with ⟨token, rest, rfl, same, remaining⟩
      have literal : Quotation.value token.literal = value := by
        have spelled := congrArg (fun lexeme => String.ofList lexeme.text)
          same
        rw [Token.lexeme, String.ofList_toList] at spelled
        rw [spelled]
        exact Quotation.value_unescaped writable
      rw [remaining.nil]
      refine ⟨.primary token _ (.text (congrArg Lexeme.kind same)), rfl, ?_⟩
      rw [ExpressionTree.expression, literal]
  | boolean value =>
      cases value with
      | true =>
          rcases spelling.fixed with ⟨token, rest, rfl, remaining⟩
          rw [remaining.nil]
          exact ⟨.primary token.val _ (.truth token.property), rfl, rfl⟩
      | false =>
          rcases spelling.fixed with ⟨token, rest, rfl, remaining⟩
          rw [remaining.nil]
          exact ⟨.primary token.val _ (.falsehood token.property), rfl, rfl⟩
  | binary operator left right leftHypothesis rightHypothesis =>
      rcases writable with ⟨proper, leftWritable, rightWritable⟩
      rcases spelling.fixed with ⟨opening, _, rfl, operands⟩
      rcases operands.append with ⟨_, _, rfl, leftSpelling, behindLeft⟩
      rcases behindLeft.fixed with ⟨sign, _, rfl, behindSign⟩
      rcases behindSign.append with ⟨_, _, rfl, rightSpelling, behindRight⟩
      rcases behindRight.fixed with ⟨closing, _, rfl, remaining⟩
      rcases leftHypothesis leftWritable leftSpelling with
        ⟨leftTree, rfl, rfl⟩
      rcases rightHypothesis rightWritable rightSpelling with
        ⟨rightTree, rfl, rfl⟩
      have joins : operator.Joins sign.val.kind
          operator.kind.precedence := by
        rw [sign.property]
        exact Operator.joins_kind proper
      -- Both operands are closed, so they fit at every level.
      have bounds := joins.bounds
      rcases leftTree.exists_looser operator.kind.precedence (by omega)
          (by omega) with
        ⟨leftInner, leftTokens, leftSame⟩
      rcases rightTree.exists_looser (operator.kind.precedence + 1)
          (by omega) (by omega) with
        ⟨rightInner, rightTokens, rightSame⟩
      rcases ExpressionTree.exists_parentheses opening
          (.joined leftInner sign.val operator joins rightInner)
          closing with
        ⟨whole, tokensEq, expressionEq⟩
      refine ⟨whole, ?_, ?_⟩
      · rw [tokensEq, remaining.nil, ExpressionTree.tokens, leftTokens,
          rightTokens, List.append_assoc, List.cons_append]
      · rw [expressionEq, ExpressionTree.expression, leftSame, rightSame]
  | unary operator operand inductionHypothesis =>
      rcases writable with ⟨position, operandWritable⟩
      rcases spelling.fixed with ⟨opening, _, rfl, signed⟩
      rcases signed.fixed with ⟨sign, _, rfl, behindSign⟩
      rcases behindSign.append with
        ⟨_, _, rfl, operandSpelling, behindOperand⟩
      rcases behindOperand.fixed with ⟨closing, _, rfl, remaining⟩
      rcases inductionHypothesis operandWritable operandSpelling with
        ⟨operandTree, rfl, rfl⟩
      have leads : operator.Leads sign.val.kind := by
        rw [sign.property]
        rcases position with rfl | rfl
        · exact .minus
        · exact .not
      rcases ExpressionTree.exists_parentheses opening
          (.signed sign.val operator leads operandTree) closing with
        ⟨whole, tokensEq, expressionEq⟩
      refine ⟨whole, ?_, expressionEq⟩
      rw [tokensEq, remaining.nil]
      rfl

private theorem Expression.exists_loose_tree {expression : Expression}
    (writable : expression.Writable) {tokens : List Token}
    (spelling : Spelling tokens expression.lexemes) :
    ∃ tree : ExpressionTree 1, tree.tokens = tokens ∧
      tree.expression = expression := by
  rcases exists_tree writable spelling with ⟨tree, rfl, rfl⟩
  exact tree.exists_looser 1 (by omega) (by omega)

/-! ### Statements -/

/-- No statement starts with an operator between operands. -/
theorem Statement.lexemes_head {statement : Statement}
    (writable : statement.Writable) :
    ∃ first rest, statement.lexemes = first :: rest ∧
      first.kind.precedence = 0 := by
  cases statement with
  | returns value => cases value <;> exact ⟨_, _, rfl, rfl⟩
  | assigns type name value =>
      cases type with
      | void => exact absurd rfl writable.1
      | _ => exact ⟨_, _, rfl, rfl⟩
  | ifThen condition consequence => exact ⟨_, _, rfl, rfl⟩
  | ifThenElse condition consequence alternative => exact ⟨_, _, rfl, rfl⟩
  | evaluates value => exact value.lexemes_head

/-- What follows a statement of a block goes on with no operator. -/
theorem Spelling.nextKind_not_infix {block : Block} {tokens : List Token}
    (writable : Statement.AllWritable block)
    (spelling : Spelling tokens (Statement.lexemesAll block)) :
    ¬ (nextKind tokens .rightBrace).IsInfix := by
  apply TokenKind.not_isInfix_iff.mpr
  cases block with
  | nil =>
      rw [spelling.nil]
      exact Nat.le_refl 0
  | cons statement rest =>
      rcases Statement.lexemes_head writable.2.1 with
        ⟨first, others, starts, flat⟩
      rw [Statement.lexemesAll, starts, List.cons_append] at spelling
      rcases spelling.cons with ⟨token, _, rfl, same, _⟩
      rw [← same] at flat
      exact Nat.le_of_eq flat

/-- The condition of a branch, between the tokens around it. -/
theorem Spelling.conditional {condition : Expression}
    (writable : condition.Writable) {tokens : List Token}
    {lexemes : List Lexeme}
    (spelling : Spelling tokens (.fixed .ifWord :: .fixed .leftParen ::
      (condition.lexemes ++ .fixed .rightParen :: lexemes))) :
    ∃ (word : Terminal .ifWord) (opening : Terminal .leftParen)
      (tree : ExpressionTree 1) (closing : Terminal .rightParen)
      (rest : List Token),
      tokens = word.val :: opening.val ::
          (tree.tokens ++ closing.val :: rest) ∧
        tree.expression = condition ∧ Spelling rest lexemes := by
  rcases spelling.fixed with ⟨word, _, rfl, behindWord⟩
  rcases behindWord.fixed with ⟨opening, _, rfl, behindOpening⟩
  rcases behindOpening.append with ⟨_, _, rfl, inside, behindCondition⟩
  rcases behindCondition.fixed with ⟨closing, rest, rfl, behindClosing⟩
  rcases Expression.exists_loose_tree writable inside with
    ⟨tree, rfl, same⟩
  exact ⟨word, opening, tree, closing, rest, rfl, same, behindClosing⟩

mutual

theorem Statement.exists_tree (statement : Statement)
    (writable : statement.Writable) {tokens : List Token}
    (spelling : Spelling tokens statement.lexemes) :
    ∃ tree : StatementTree, tree.tokens = tokens ∧
      tree.statement = statement ∧ tree.Separated ∧
      ∀ next : TokenKind, ¬ next.IsInfix →
        (statement = .returns none → next = .rightBrace) →
          tree.MayPrecede next := by
  match statement with
  | .returns none =>
      rcases spelling.fixed with ⟨word, _, rfl, remaining⟩
      rw [remaining.nil]
      exact ⟨.returnsNothing word, rfl, rfl, trivial,
        fun _ _ ended => ended rfl⟩
  | .returns (some value) =>
      rcases spelling.fixed with ⟨word, _, rfl, behind⟩
      rcases Expression.exists_loose_tree writable behind with
        ⟨tree, rfl, rfl⟩
      exact ⟨.returnsValue word tree, rfl, rfl, trivial,
        fun _ plain _ => plain⟩
  | .assigns type name value =>
      rcases writable with ⟨proper, _, valued⟩
      rcases spelling.append with ⟨_, _, rfl, typeSpelling, behindType⟩
      rcases behindType.identifier with ⟨target, _, rfl, rfl, behindName⟩
      rcases behindName.fixed with ⟨sign, _, rfl, behindSign⟩
      rcases ValueType.exists_tree proper typeSpelling with
        ⟨typeTree, rfl, rfl⟩
      rcases Expression.exists_loose_tree valued behindSign with
        ⟨tree, rfl, rfl⟩
      exact ⟨.assigns typeTree target sign tree, rfl, rfl, trivial,
        fun _ plain _ => plain⟩
  | .ifThen condition consequence =>
      rcases spelling.conditional writable.1 with
        ⟨word, opening, conditionTree, closing, _, rfl, rfl, behind⟩
      rcases behind.braced with ⟨left, _, right, rfl, inside⟩
      rcases Statement.exists_statements consequence writable.2 inside with
        ⟨tree, rfl, rfl, separated⟩
      exact ⟨.ifThen word opening conditionTree closing
        (.braces left tree right), rfl, rfl,
        BlockTree.separated_braces left right separated,
        fun _ _ _ => trivial⟩
  | .ifThenElse condition consequence alternative =>
      rcases spelling.conditional writable.1 with
        ⟨word, opening, conditionTree, closing, _, rfl, rfl, branches⟩
      rcases branches.append with ⟨_, _, rfl, first, behind⟩
      rcases behind.fixed with ⟨otherwise, _, rfl, second⟩
      rcases first.braced with ⟨left, _, right, rfl, inside⟩
      rcases second.braced with ⟨leftToo, _, rightToo, rfl, insideToo⟩
      rcases Statement.exists_statements consequence writable.2.1
          inside with
        ⟨tree, rfl, rfl, separated⟩
      rcases Statement.exists_statements alternative writable.2.2
          insideToo with
        ⟨treeToo, rfl, rfl, separatedToo⟩
      exact ⟨.ifThenElse word opening conditionTree closing
        (.braces left tree right) otherwise
        (.braces leftToo treeToo rightToo), rfl, rfl,
        ⟨BlockTree.separated_braces left right separated,
          BlockTree.separated_braces leftToo rightToo separatedToo⟩,
        fun _ _ _ => trivial⟩
  | .evaluates value =>
      rcases Expression.exists_loose_tree writable spelling with
        ⟨tree, rfl, rfl⟩
      exact ⟨.evaluates tree, rfl, rfl, trivial, fun _ plain _ => plain⟩

theorem Statement.exists_statements (block : Block)
    (writable : Statement.AllWritable block) {tokens : List Token}
    (spelling : Spelling tokens (Statement.lexemesAll block)) :
    ∃ tree : StatementsTree, tree.tokens = tokens ∧
      tree.statements = block ∧ tree.Separated .rightBrace := by
  match block with
  | [] =>
      rw [spelling.nil]
      exact ⟨.none, rfl, rfl, trivial⟩
  | statement :: rest =>
      rcases writable with ⟨ended, first, others⟩
      rcases spelling.append with ⟨_, later, rfl, firstSpelling, behind⟩
      -- The statement ends here: no operator follows, and a closing brace
      -- does if nothing is returned.
      have plain := behind.nextKind_not_infix others
      have last : statement = .returns none →
          nextKind later .rightBrace = .rightBrace := by
        intro returns
        rw [ended returns] at behind
        rw [behind.nil]
        rfl
      rcases Statement.exists_tree statement first firstSpelling with
        ⟨tree, rfl, rfl, separated, precedes⟩
      rcases Statement.exists_statements rest others behind with
        ⟨treeToo, rfl, rfl, separatedToo⟩
      exact ⟨.more tree treeToo, rfl, rfl, separated,
        precedes _ plain last, separatedToo⟩

end

/-! ### Functions and contracts -/

private theorem Parameter.exists_tree {parameters : List Parameter}
    (some : parameters ≠ [])
    (writable : ∀ parameter ∈ parameters,
      Identifies parameter.name ∧ parameter.type ≠ .void)
    {tokens : List Token}
    (spelling : Spelling tokens (Parameter.lexemesAll parameters)) :
    ∃ tree : ParametersTree, tree.tokens = tokens ∧
      tree.parameters = parameters := by
  induction parameters generalizing tokens with
  | nil =>
      exact absurd rfl some
  | cons parameter rest inductionHypothesis =>
      rcases parameter with ⟨name, type⟩
      rw [List.forall_mem_cons] at writable
      rcases writable with ⟨⟨_, proper⟩, others⟩
      cases rest with
      | nil =>
          rcases spelling.identifier with ⟨word, _, rfl, rfl, behind⟩
          rcases ValueType.exists_tree proper behind with
            ⟨typeTree, rfl, rfl⟩
          exact ⟨.last word typeTree, rfl, rfl⟩
      | cons next later =>
          rcases spelling.append with ⟨_, _, rfl, first, behind⟩
          rcases first.identifier with ⟨word, _, rfl, rfl, typed⟩
          rcases ValueType.exists_tree proper typed with
            ⟨typeTree, rfl, rfl⟩
          rcases behind.fixed with ⟨comma, _, rfl, remaining⟩
          rcases inductionHypothesis (List.cons_ne_nil _ _) others
              remaining with
            ⟨tree, rfl, same⟩
          refine ⟨.more word typeTree comma tree, rfl, ?_⟩
          rw [ParametersTree.parameters, same]

private theorem Function.exists_tree {function : Function}
    (writable : function.Writable) {tokens : List Token}
    (spelling : Spelling tokens function.lexemes) :
    ∃ tree : FunctionTree, tree.tokens = tokens ∧
      tree.function = function ∧ tree.body.Separated := by
  rcases function with ⟨name, parameters, returnType, body⟩
  rcases spelling.fixed with ⟨word, _, rfl, behindWord⟩
  rcases behindWord.identifier with ⟨named, _, rfl, rfl, behindName⟩
  rcases behindName.fixed with ⟨opening, _, rfl, behindOpening⟩
  rcases behindOpening.append with
    ⟨listed, _, rfl, inParameters, behindParameters⟩
  rcases behindParameters.fixed with ⟨closing, _, rfl, behindClosing⟩
  rcases behindClosing.append with ⟨typed, _, rfl, inType, inBody⟩
  rcases inBody.braced with ⟨left, _, right, rfl, inside⟩
  rcases Statement.exists_statements body writable.body inside with
    ⟨statements, rfl, rfl, separated⟩
  have parameterTree : ∃ tree : Option ParametersTree,
      tree.elim [] ParametersTree.tokens = listed ∧
        tree.elim [] ParametersTree.parameters = parameters := by
    cases parameters with
    | nil =>
        exact ⟨none, inParameters.nil.symm, rfl⟩
    | cons parameter rest =>
        rcases Parameter.exists_tree (List.cons_ne_nil _ _)
            writable.parameters inParameters with
          ⟨tree, tokensEq, same⟩
        exact ⟨some tree, tokensEq, same⟩
  have typeTree : ∃ tree : Option TypeTree,
      tree.elim [] TypeTree.tokens = typed ∧
        tree.elim .void TypeTree.type = returnType := by
    by_cases void : returnType = .void
    · subst void
      exact ⟨none, inType.nil.symm, rfl⟩
    · rcases ValueType.exists_tree void inType with ⟨tree, tokensEq, same⟩
      exact ⟨some tree, tokensEq, same⟩
  rcases parameterTree with ⟨parametersTree, rfl, rfl⟩
  rcases typeTree with ⟨returnTree, rfl, rfl⟩
  exact ⟨⟨word, named, opening, parametersTree, closing, returnTree,
    .braces left statements right⟩, rfl, rfl,
    BlockTree.separated_braces left right separated⟩

private theorem Function.exists_trees {functions : List Function}
    (writable : ∀ function ∈ functions, function.Writable)
    {tokens : List Token}
    (spelling : Spelling tokens (functions.flatMap Function.lexemes)) :
    ∃ trees : List FunctionTree,
      trees.flatMap FunctionTree.tokens = tokens ∧
        trees.map FunctionTree.function = functions ∧
        ∀ tree ∈ trees, tree.body.Separated := by
  induction functions generalizing tokens with
  | nil =>
      exact ⟨[], spelling.nil.symm, rfl, List.forall_mem_nil _⟩
  | cons function rest inductionHypothesis =>
      rw [List.forall_mem_cons] at writable
      rw [List.flatMap_cons] at spelling
      rcases spelling.append with ⟨_, _, rfl, first, behind⟩
      rcases Function.exists_tree writable.1 first with
        ⟨tree, rfl, rfl, separated⟩
      rcases inductionHypothesis writable.2 behind with
        ⟨trees, rfl, rfl, others⟩
      refine ⟨tree :: trees, List.flatMap_cons, List.map_cons, ?_⟩
      rw [List.forall_mem_cons]
      exact ⟨separated, others⟩

private theorem Contract.exists_tree {contract : Contract}
    (writable : contract.Writable) {tokens : List Token}
    (spelling : Spelling tokens contract.lexemes) :
    ∃ tree : ContractTree, tree.tokens = tokens ∧
      tree.contract = contract ∧ tree.Separated := by
  rcases contract with ⟨functions⟩
  rcases spelling.fixed with ⟨word, _, rfl, behind⟩
  rcases behind.braced with ⟨opening, _, closing, rfl, inside⟩
  rcases Function.exists_trees writable inside with
    ⟨trees, rfl, rfl, separated⟩
  exact ⟨⟨word, opening, trees, closing⟩, rfl, rfl, separated⟩

/-! ### Reading back -/

/-- Leaving out the semicolons among the tokens leaves them out among the
lexemes. -/
theorem upcoming_of_filtered (source : String) :
    Spelling
      (TokenStream.ofTokens ((tokenize source).filter
        fun token => token.literal != ";")).upcoming
      (properLexemes source.toList) := by
  have kept : (fun token : Token => token.literal != ";") =
      (fun lexeme : Lexeme => lexeme.text != [';']) ∘ Token.lexeme := by
    funext token
    rw [Bool.eq_iff_iff, bne_iff_ne, Function.comp_apply, bne_iff_ne,
      Token.lexeme]
    exact not_congr String.toList_inj.symm
  have inside : ∀ lexeme ∈ properLexemes source.toList,
      (!(lexeme.kind == .endOfInput)) = true := by
    intro lexeme member
    simpa using proper_of_mem_lexemesOf (List.mem_of_mem_filter member)
  calc (TokenStream.ofTokens ((tokenize source).filter
        fun token => token.literal != ";")).upcoming.map Token.lexeme
      = (((tokenize source).map Token.lexeme).filter
          fun lexeme => lexeme.text != [';']).takeWhile
            fun lexeme => !(lexeme.kind == .endOfInput) := by
        rw [TokenStream.lexemes_upcoming, kept, ← List.filter_map]
    _ = properLexemes source.toList := by
        rw [tokenize, lexemes_tokensFrom, List.filter_append,
          ← properLexemes, List.takeWhile_append_of_pos inside]
        simp

/-- A contract that is read from tokens of source texts, with strings that can
be written as they are, is read back from its own text once the semicolons are
left out. -/
theorem readContract_render {tokens : List Token} {contract : Contract}
    (scanned : ∀ token ∈ tokens, ∃ source, token ∈ tokenize source)
    (read : (readContract (.ofTokens tokens)).outcome.1 = .ok contract)
    (plain : ∀ value ∈ contract.texts,
      '"' ∉ value.toList ∧ '\\' ∉ value.toList) :
    (readContract (.ofTokens ((tokenize contract.render).filter
      fun token => token.literal != ";"))).outcome.1 = .ok contract := by
  have writable := contract.writable_of_read scanned read plain
  have lexemes : properLexemes contract.render.toList =
      contract.lexemes := by
    have spells := Contract.spells writable [] Apart.nil
    rw [List.append_nil, properLexemes_nil, List.append_nil] at spells
    exact spells
  have spelling := upcoming_of_filtered contract.render
  rw [lexemes] at spelling
  rcases Contract.exists_tree writable spelling with
    ⟨tree, tokensEq, same, separated⟩
  rcases contract_read tree tokensEq separated with ⟨rest, given⟩
  rw [same] at given
  rw [Reading.gives_iff_outcome.mp given]

end

/-- Statements touch each other, operators stand in front of operands, and a
string holds a semicolon and a line end. -/
def tangledSource : String :=
  "contract\x7bfunc f(a int,b string)bool\x7bif(!(a<0-07))\x7b" ++
    "string s=\"x;\n\"return true\x7delse\x7b\x7d-a(b)" ++
    "return a==3||false\x7dfunc g()\x7b1 return\x7d\x7d"

open IdentifierTables

theorem readContract_render_tangled :
    ∃ contract,
      (readContract (.ofTokens (tokenize tangledSource))).outcome.1 =
        .ok contract ∧
      contract.texts = ["x;\n"] ∧
      (readContract (.ofTokens ((tokenize contract.render).filter
        fun token => token.literal != ";"))).outcome.1 = .ok contract := by
  have read :
      (readContract (.ofTokens (tokenize tangledSource))).outcome.1 = .ok
      ⟨[⟨"f", [⟨"a", .int⟩, ⟨"b", .string⟩], .bool,
          [.ifThenElse
              (.unary .not (.binary .less (.identifier "a")
                (.binary .minus (.integer 0) (.integer 7))))
              [.assigns .string "s" (.text "x;\n"),
                .returns (some (.boolean true))] [],
            .evaluates (.unary .minus (.identifier "a")),
            .evaluates (.identifier "b"),
            .returns (some (.binary .or
              (.binary .equal (.identifier "a") (.integer 3))
              (.boolean false)))]⟩,
        ⟨"g", [], .void,
          [.evaluates (.integer 1), .returns none]⟩]⟩ := by
    decide +kernel
  refine ⟨_, read, rfl, readContract_render ?_ read ?_⟩
  · intro token member
    exact ⟨tangledSource, member⟩
  · intro value member
    have only : value = "x;\n" := List.mem_singleton.mp member
    rw [only]
    decide +kernel

end ContractCompiler
