/-
Tokens of contract source text.

A token has a kind, the spelling it was cut from, and the place where that
spelling starts.  The end of the input is a token as well, with an empty
spelling.
-/

namespace ContractCompiler

inductive TokenKind where
  | illegal
  | endOfInput
  | identifier
  | integer
  | text
  | contract
  | function
  | intType
  | stringType
  | boolType
  | trueWord
  | falseWord
  | ifWord
  | elseWord
  | returnWord
  | assign
  | plus
  | minus
  | bang
  | star
  | slash
  | percent
  | less
  | greater
  | equal
  | notEqual
  | lessEqual
  | greaterEqual
  | logicalAnd
  | logicalOr
  | comma
  | leftParen
  | rightParen
  | leftBrace
  | rightBrace
  deriving DecidableEq, Repr

namespace TokenKind

/-- The name under which messages and tables show a kind.  Keywords,
operators and delimiters are shown as they are spelled. -/
def name : TokenKind → String
  | illegal => "ILLEGAL"
  | endOfInput => "EOS"
  | identifier => "IDENT"
  | integer => "INT"
  | text => "STRING"
  | contract => "contract"
  | function => "func"
  | intType => "int"
  | stringType => "string"
  | boolType => "bool"
  | trueWord => "true"
  | falseWord => "false"
  | ifWord => "if"
  | elseWord => "else"
  | returnWord => "return"
  | assign => "="
  | plus => "+"
  | minus => "-"
  | bang => "!"
  | star => "*"
  | slash => "/"
  | percent => "%"
  | less => "<"
  | greater => ">"
  | equal => "=="
  | notEqual => "!="
  | lessEqual => "<="
  | greaterEqual => ">="
  | logicalAnd => "&&"
  | logicalOr => "||"
  | comma => ","
  | leftParen => "("
  | rightParen => ")"
  | leftBrace => "\x7b"
  | rightBrace => "\x7d"

def all : List TokenKind :=
  [illegal, endOfInput, identifier, integer, text, contract, function,
   intType, stringType, boolType, trueWord, falseWord, ifWord, elseWord,
   returnWord, assign, plus, minus, bang, star, slash, percent, less,
   greater, equal, notEqual, lessEqual, greaterEqual, logicalAnd,
   logicalOr, comma, leftParen, rightParen, leftBrace, rightBrace]

def ofName? (name : String) : Option TokenKind :=
  all.find? fun kind => kind.name == name

def keywords : List TokenKind :=
  [contract, function, intType, stringType, boolType, trueWord, falseWord,
   ifWord, elseWord, returnWord]

def keyword? (word : String) : Option TokenKind :=
  keywords.find? fun kind => kind.name == word

def isType : TokenKind → Bool
  | intType | stringType | boolType => true
  | _ => false

/-- How tightly a kind binds between two operands, from `1` for the loosest
operator to `6` for the tightest; `0` for kinds that are no such operator. -/
def precedence : TokenKind → Nat
  | logicalOr => 1
  | logicalAnd => 2
  | equal | notEqual => 3
  | less | greater | lessEqual | greaterEqual => 4
  | plus | minus => 5
  | star | slash | percent => 6
  | _ => 0

end TokenKind

/-- The precedence of an operator in front of its operand.  It binds tighter
than every operator between two operands. -/
def signPrecedence : Nat := 7

/-- A piece of source text with its kind, its byte position and its line. -/
structure Token where
  kind : TokenKind
  literal : String
  position : Nat
  line : Nat
  deriving DecidableEq, Repr

namespace Token

def endOfInput (position line : Nat) : Token :=
  ⟨.endOfInput, "", position, line⟩

def isEnd (token : Token) : Bool :=
  token.kind == .endOfInput

def describe (token : Token) : String :=
  if token.isEnd then "end of input"
  else token.kind.name ++ " '" ++ token.literal ++ "'"

end Token

end ContractCompiler
