/-
Contracts as text.

The text of a contract shows its structure without doubt: every operator is
written with parentheses around it and its operands, and statements are
separated by semicolons.  The value of a string is written as it is.
-/

import ContractCompiler.Contract
import ContractCompiler.Text.Numeral

namespace ContractCompiler

def Expression.render : Expression → String
  | .identifier name => name
  | .integer value => signedDecimal value
  | .text value => "\"" ++ value ++ "\""
  | .boolean value => if value then "true" else "false"
  | .binary operator left right =>
      "(" ++ left.render ++ " " ++ operator.symbol ++ " " ++
        right.render ++ ")"
  | .unary operator operand =>
      "(" ++ operator.symbol ++ operand.render ++ ")"

def separated (separator : String) : List String → String
  | [] => ""
  | [last] => last
  | first :: rest => first ++ separator ++ separated separator rest

/-- Texts between braces; no blank stands in an empty block. -/
def braced : List String → String
  | [] => "\x7b\x7d"
  | texts => "\x7b " ++ separated "; " texts ++ " \x7d"

mutual

def Statement.render : Statement → String
  | .returns none => "return"
  | .returns (some value) => "return " ++ value.render
  | .assigns type name value =>
      type.name ++ " " ++ name ++ " = " ++ value.render
  | .ifThen condition consequence =>
      "if (" ++ condition.render ++ ") " ++
        braced (Statement.renderAll consequence)
  | .ifThenElse condition consequence alternative =>
      "if (" ++ condition.render ++ ") " ++
        braced (Statement.renderAll consequence) ++ " else " ++
        braced (Statement.renderAll alternative)
  | .evaluates value => value.render

def Statement.renderAll : List Statement → List String
  | [] => []
  | statement :: rest => statement.render :: Statement.renderAll rest

end

def renderBlock (block : Block) : String :=
  braced (Statement.renderAll block)

def Parameter.render (parameter : Parameter) : String :=
  parameter.name ++ " " ++ parameter.type.name

/-- The text of a function.  The type `void` is left out. -/
def Function.render (function : Function) : String :=
  "func " ++ function.name ++ "(" ++
    separated ", " (function.parameters.map Parameter.render) ++ ")" ++
    (if function.returnType = .void then ""
      else " " ++ function.returnType.name) ++
    " " ++ renderBlock function.body

def Contract.render (contract : Contract) : String :=
  "contract \x7b" ++
    String.join (contract.functions.map fun function =>
      " " ++ function.render) ++
    " \x7d"

end ContractCompiler
