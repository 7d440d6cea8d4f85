/-
Errors in the syntax of a contract.

An error is placed at the token that could not be read.  Its cause tells
whether that token is no token of the language at all, an integer out of
range, or merely out of place.
-/

import ContractCompiler.Text.Numeral
import ContractCompiler.Token

namespace ContractCompiler

inductive Expectation where
  | token (kind : TokenKind)
  | type
  | expression
  deriving DecidableEq, Repr

def Expectation.name : Expectation → String
  | token kind => kind.name
  | type => "type"
  | expression => "expression"

inductive SyntaxError.Cause where
  | unexpected (expected : Expectation) (found : Token)
  | illegal (literal : String)
  | invalidInteger (literal : String)
  deriving DecidableEq, Repr

structure SyntaxError where
  cause : SyntaxError.Cause
  line : Nat
  position : Nat
  deriving DecidableEq, Repr

namespace SyntaxError

def Cause.message : Cause → String
  | unexpected expected found =>
      "expected " ++ expected.name ++ ", found " ++ found.describe
  | illegal literal => "illegal token '" ++ literal ++ "'"
  | invalidInteger literal => "invalid integer literal '" ++ literal ++ "'"

def message (error : SyntaxError) : String :=
  "line " ++ decimal error.line ++ ", position " ++
    decimal error.position ++ ": " ++ error.cause.message

def atToken (token : Token) (cause : Cause) : SyntaxError :=
  ⟨cause, token.line, token.position⟩

def unexpected (expected : Expectation) (token : Token) : SyntaxError :=
  .atToken token
    (if token.kind = .illegal then .illegal token.literal
      else .unexpected expected token)

end SyntaxError

end ContractCompiler
