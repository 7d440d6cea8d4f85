/-
Types and sizes of expressions.
-/

import ContractCompiler.Code.Environment
import ContractCompiler.Text.Bytes

namespace ContractCompiler

def requireType (expected found : ValueType) : Except CodeError Unit :=
  if expected = found then .ok ()
  else .error (.typeMismatch expected found)

def Operator.resultBetween (operator : Operator) (left right : ValueType) :
    Except CodeError ValueType :=
  match operator with
  | .plus | .minus | .times | .divide | .modulo => do
      requireType .int left
      requireType .int right
      return .int
  | .less | .greater | .lessEqual | .greaterEqual => do
      requireType .int left
      requireType .int right
      return .bool
  | .equal | .notEqual => do
      requireType left right
      if left = .string then
        throw (.unsupportedOperator operator left)
      return .bool
  | .and | .or | .not => do
      requireType .bool left
      requireType .bool right
      return .bool

def Operator.typeBefore : Operator → ValueType
  | .minus => .int
  | _ => .bool

def Expression.typeIn (environment : Environment) :
    Expression → Except CodeError ValueType
  | .integer _ => .ok .int
  | .text _ => .ok .string
  | .boolean _ => .ok .bool
  | .identifier name => do
      let (type, _) ← environment.binding name
      return type
  | .unary operator operand => do
      let found ← operand.typeIn environment
      requireType operator.typeBefore found
      return operator.typeBefore
  | .binary operator left right => do
      let leftType ← left.typeIn environment
      let rightType ← right.typeIn environment
      operator.resultBetween leftType rightType

def wordSize : Nat := 4

def Expression.sizeIn (environment : Environment) :
    Expression → Except CodeError Nat
  | .text value => .ok (utf8Length value.toList)
  | .identifier name => do
      let (_, location) ← environment.binding name
      match location with
      | .parameter _ => return wordSize
      | .memory id => do
          let entry ← environment.entry id
          return entry.size
  | _ => .ok wordSize

/-- The number of words that a value of some bytes takes on the stack. -/
def stackWords (size : Nat) : Nat :=
  max 1 ((size + 3) / wordSize)

end ContractCompiler
