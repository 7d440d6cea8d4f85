/-
The grammar of contracts.

A derivation is a tree with a token at each of its leaves.  Reading the leaves
from left to right gives the tokens that are derived, and each tree stands for
a contract or a part of one.

Expressions are stratified.  A level from one to six is either the next level,
or the same level, an operator of that level and the next level, so operators
of a level associate to the left.  The seventh level holds the operands.

Nothing separates two statements.  Where one ends is settled by two conditions
on the token behind it, which are stated apart from the trees.
-/

import ContractCompiler.Contract.Reading
import ContractCompiler.Text.Numeral
import ContractCompiler.Token

namespace ContractCompiler

/-! ### Operators -/

inductive Operator.Joins : Operator → TokenKind → Nat → Prop where
  | or : Joins .or .logicalOr 1
  | and : Joins .and .logicalAnd 2
  | equal : Joins .equal .equal 3
  | notEqual : Joins .notEqual .notEqual 3
  | less : Joins .less .less 4
  | greater : Joins .greater .greater 4
  | lessEqual : Joins .lessEqual .lessEqual 4
  | greaterEqual : Joins .greaterEqual .greaterEqual 4
  | plus : Joins .plus .plus 5
  | minus : Joins .minus .minus 5
  | times : Joins .times .star 6
  | divide : Joins .divide .slash 6
  | modulo : Joins .modulo .percent 6

inductive Operator.Leads : Operator → TokenKind → Prop where
  | minus : Leads .minus .minus
  | not : Leads .not .bang

def TokenKind.IsInfix (kind : TokenKind) : Prop :=
  ∃ operator level, Operator.Joins operator kind level

/-! ### Operands -/

/-- A token is an operand on its own and stands for an expression.  A numeral
stands for one only when it fits in 64 bits. -/
inductive Token.StandsFor : Token → Expression → Prop where
  | identifier {token : Token} (kind : token.kind = .identifier) :
      StandsFor token (.identifier token.literal)
  | integer {token : Token} {value : Int} (kind : token.kind = .integer)
      (fits : readInt64 token.literal.toList = some value) :
      StandsFor token (.integer value)
  | text {token : Token} (kind : token.kind = .text) :
      StandsFor token (.text (Quotation.value token.literal))
  | truth {token : Token} (kind : token.kind = .trueWord) :
      StandsFor token (.boolean true)
  | falsehood {token : Token} (kind : token.kind = .falseWord) :
      StandsFor token (.boolean false)

/-! ### Trees -/

abbrev Terminal (kind : TokenKind) := { token : Token // token.kind = kind }

/-- A derivation of an expression from a level. -/
inductive ExpressionTree : Nat → Type where
  | primary (token : Token) (expression : Expression)
      (stands : token.StandsFor expression) : ExpressionTree 7
  | parentheses (opening : Terminal .leftParen) (inner : ExpressionTree 1)
      (closing : Terminal .rightParen) : ExpressionTree 7
  | signed (sign : Token) (operator : Operator)
      (leads : operator.Leads sign.kind) (operand : ExpressionTree 7) :
      ExpressionTree 7
  | tighter {level : Nat} (infixLevel : 1 ≤ level ∧ level ≤ 6)
      (inner : ExpressionTree (level + 1)) : ExpressionTree level
  | joined {level : Nat} (left : ExpressionTree level) (sign : Token)
      (operator : Operator) (joins : operator.Joins sign.kind level)
      (right : ExpressionTree (level + 1)) : ExpressionTree level

inductive TypeTree where
  | int (word : Terminal .intType)
  | string (word : Terminal .stringType)
  | bool (word : Terminal .boolType)

inductive ParametersTree where
  | last (name : Terminal .identifier) (type : TypeTree)
  | more (name : Terminal .identifier) (type : TypeTree)
      (comma : Terminal .comma) (others : ParametersTree)

mutual

inductive StatementTree where
  | returnsNothing (word : Terminal .returnWord)
  | returnsValue (word : Terminal .returnWord) (value : ExpressionTree 1)
  | assigns (type : TypeTree) (name : Terminal .identifier)
      (sign : Terminal .assign) (value : ExpressionTree 1)
  | ifThen (word : Terminal .ifWord) (opening : Terminal .leftParen)
      (condition : ExpressionTree 1) (closing : Terminal .rightParen)
      (consequence : BlockTree)
  | ifThenElse (word : Terminal .ifWord) (opening : Terminal .leftParen)
      (condition : ExpressionTree 1) (closing : Terminal .rightParen)
      (consequence : BlockTree) (otherwise : Terminal .elseWord)
      (alternative : BlockTree)
  | evaluates (value : ExpressionTree 1)

inductive BlockTree where
  | braces (opening : Terminal .leftBrace) (statements : StatementsTree)
      (closing : Terminal .rightBrace)

inductive StatementsTree where
  | none
  | more (first : StatementTree) (others : StatementsTree)

end

structure FunctionTree where
  word : Terminal .function
  name : Terminal .identifier
  opening : Terminal .leftParen
  parameters : Option ParametersTree
  closing : Terminal .rightParen
  returnType : Option TypeTree
  body : BlockTree

structure ContractTree where
  word : Terminal .contract
  opening : Terminal .leftBrace
  functions : List FunctionTree
  closing : Terminal .rightBrace

/-! ### What is derived -/

def ExpressionTree.tokens {level : Nat} : ExpressionTree level → List Token
  | .primary token _ _ => [token]
  | .parentheses opening inner closing =>
      opening.val :: (inner.tokens ++ [closing.val])
  | .signed sign _ _ operand => sign :: operand.tokens
  | .tighter _ inner => inner.tokens
  | .joined left sign _ _ right => left.tokens ++ sign :: right.tokens

def TypeTree.tokens : TypeTree → List Token
  | .int word => [word.val]
  | .string word => [word.val]
  | .bool word => [word.val]

def ParametersTree.tokens : ParametersTree → List Token
  | .last name type => name.val :: type.tokens
  | .more name type comma others =>
      name.val :: (type.tokens ++ comma.val :: others.tokens)

mutual

def StatementTree.tokens : StatementTree → List Token
  | .returnsNothing word => [word.val]
  | .returnsValue word value => word.val :: value.tokens
  | .assigns type name sign value =>
      type.tokens ++ name.val :: sign.val :: value.tokens
  | .ifThen word opening condition closing consequence =>
      word.val :: opening.val ::
        (condition.tokens ++ closing.val :: consequence.tokens)
  | .ifThenElse word opening condition closing consequence otherwise
      alternative =>
      word.val :: opening.val ::
        (condition.tokens ++ closing.val ::
          (consequence.tokens ++ otherwise.val :: alternative.tokens))
  | .evaluates value => value.tokens

def BlockTree.tokens : BlockTree → List Token
  | .braces opening statements closing =>
      opening.val :: (statements.tokens ++ [closing.val])

def StatementsTree.tokens : StatementsTree → List Token
  | .none => []
  | .more first others => first.tokens ++ others.tokens

end

def FunctionTree.tokens (tree : FunctionTree) : List Token :=
  tree.word.val :: tree.name.val :: tree.opening.val ::
    (tree.parameters.elim [] ParametersTree.tokens ++ tree.closing.val ::
      (tree.returnType.elim [] TypeTree.tokens ++ tree.body.tokens))

def ContractTree.tokens (tree : ContractTree) : List Token :=
  tree.word.val :: tree.opening.val ::
    (tree.functions.flatMap FunctionTree.tokens ++ [tree.closing.val])

/-! ### What a derivation stands for -/

def ExpressionTree.expression {level : Nat} :
    ExpressionTree level → Expression
  | .primary _ expression _ => expression
  | .parentheses _ inner _ => inner.expression
  | .signed _ operator _ operand => .unary operator operand.expression
  | .tighter _ inner => inner.expression
  | .joined left _ operator _ right =>
      .binary operator left.expression right.expression

def TypeTree.type : TypeTree → ValueType
  | .int _ => .int
  | .string _ => .string
  | .bool _ => .bool

def ParametersTree.parameters : ParametersTree → List Parameter
  | .last name type => [⟨name.val.literal, type.type⟩]
  | .more name type _ others =>
      ⟨name.val.literal, type.type⟩ :: others.parameters

mutual

def StatementTree.statement : StatementTree → Statement
  | .returnsNothing _ => .returns none
  | .returnsValue _ value => .returns (some value.expression)
  | .assigns type name _ value =>
      .assigns type.type name.val.literal value.expression
  | .ifThen _ _ condition _ consequence =>
      .ifThen condition.expression consequence.block
  | .ifThenElse _ _ condition _ consequence _ alternative =>
      .ifThenElse condition.expression consequence.block alternative.block
  | .evaluates value => .evaluates value.expression

def BlockTree.block : BlockTree → Block
  | .braces _ statements _ => statements.statements

def StatementsTree.statements : StatementsTree → Block
  | .none => []
  | .more first others => first.statement :: others.statements

end

/-- The function of a tree.  Without a type it returns nothing. -/
def FunctionTree.function (tree : FunctionTree) : Function where
  name := tree.name.val.literal
  parameters := tree.parameters.elim [] ParametersTree.parameters
  returnType := tree.returnType.elim .void TypeTree.type
  body := tree.body.block

def ContractTree.contract (tree : ContractTree) : Contract :=
  ⟨tree.functions.map FunctionTree.function⟩

/-! ### Where statements end -/

/-- What may stand behind a statement: a brace behind a return without a value,
and no operator behind an expression at the end of a statement. -/
def StatementTree.MayPrecede : StatementTree → TokenKind → Prop
  | .returnsNothing _, next => next = .rightBrace
  | .returnsValue _ _, next => ¬ next.IsInfix
  | .assigns _ _ _ _, next => ¬ next.IsInfix
  | .ifThen _ _ _ _ _, _ => True
  | .ifThenElse _ _ _ _ _ _ _, _ => True
  | .evaluates _, next => ¬ next.IsInfix

def nextKind (tokens : List Token) (behind : TokenKind) : TokenKind :=
  match tokens with
  | [] => behind
  | token :: _ => token.kind

mutual

def StatementTree.Separated : StatementTree → Prop
  | .returnsNothing _ => True
  | .returnsValue _ _ => True
  | .assigns _ _ _ _ => True
  | .ifThen _ _ _ _ consequence => consequence.Separated
  | .ifThenElse _ _ _ _ consequence _ alternative =>
      consequence.Separated ∧ alternative.Separated
  | .evaluates _ => True

def BlockTree.Separated : BlockTree → Prop
  | .braces _ statements closing => statements.Separated closing.val.kind

def StatementsTree.Separated : StatementsTree → TokenKind → Prop
  | .none, _ => True
  | .more first others, behind =>
      first.Separated ∧ first.MayPrecede (nextKind others.tokens behind) ∧
        others.Separated behind

end

def ContractTree.Separated (tree : ContractTree) : Prop :=
  ∀ function ∈ tree.functions, function.body.Separated

end ContractCompiler
