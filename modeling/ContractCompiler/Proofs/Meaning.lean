/-
What a function means.

Expressions have values: words, truth values and texts.  Both operands of an
operator are evaluated, the left one first.  A name stands for the value that
the innermost scope binds to it.  Statements are run in order until one of
them returns; a nested block binds its names in a scope of its own.
-/

import ContractCompiler.Contract
import ContractCompiler.Text.Bytes
import ContractCompiler.Proofs.Machine
import ContractCompiler.Proofs.Scoping

namespace ContractCompiler

/-! ### Values -/

inductive Value where
  | number (word : Word)
  | truth (value : Bool)
  | text (bytes : List UInt8)

namespace Value

def type : Value → ValueType
  | number _ => .int
  | truth _ => .bool
  | text _ => .string

def words : Value → List Word
  | number word => [word]
  | truth value => [.ofTruth value]
  | text bytes => packed bytes.length fun index => bytes.getD index 0

def returned : Option Value → List Word
  | none => []
  | some value => value.words

/-- The value that a word stands for where a type is expected.  A word holds a
text of four bytes. -/
def ofArgument (type : ValueType) (word : Word) : Value :=
  match type with
  | .bool => .truth (word != 0)
  | .string => .text word.bytes
  | _ => .number word

end Value

/-- Why a piece of a body has no value: two words cannot be divided, or the
piece makes no sense. -/
inductive Fault where
  | division
  | nonsense

/-! ### Expressions -/

def Operator.apply (call : Call) (operator : Operator)
    (left right : Value) : Except Fault Value :=
  match operator, left, right with
  | .plus, .number left, .number right => .ok (.number (left + right))
  | .minus, .number left, .number right => .ok (.number (left - right))
  | .times, .number left, .number right => .ok (.number (left * right))
  | .divide, .number left, .number right =>
      match call.quotient left right with
      | some word => .ok (.number word)
      | none => .error .division
  | .modulo, .number left, .number right =>
      match call.remainder left right with
      | some word => .ok (.number word)
      | none => .error .division
  | .less, .number left, .number right => .ok (.truth (left.slt right))
  | .greater, .number left, .number right => .ok (.truth (right.slt left))
  | .lessEqual, .number left, .number right =>
      .ok (.truth (left.sle right))
  | .greaterEqual, .number left, .number right =>
      .ok (.truth (right.sle left))
  | .equal, .number left, .number right => .ok (.truth (left == right))
  | .equal, .truth left, .truth right => .ok (.truth (left == right))
  | .notEqual, .number left, .number right => .ok (.truth (left != right))
  | .notEqual, .truth left, .truth right => .ok (.truth (left != right))
  | .and, .truth left, .truth right => .ok (.truth (left && right))
  | .or, .truth left, .truth right => .ok (.truth (left || right))
  | _, _, _ => .error .nonsense

def Operator.applyBefore (operator : Operator) (operand : Value) :
    Except Fault Value :=
  match operator, operand with
  | .minus, .number word => .ok (.number (-word))
  | .not, .truth value => .ok (.truth (!value))
  | _, _ => .error .nonsense

def Expression.evaluate (call : Call)
    (scopes : List (List (String × Value))) :
    Expression → Except Fault Value
  | .identifier name =>
      match findName scopes name with
      | some value => .ok value
      | none => .error .nonsense
  | .integer value => .ok (.number (BitVec.ofInt 32 value))
  | .text value => .ok (.text (utf8Bytes value.toList))
  | .boolean value => .ok (.truth value)
  | .unary operator operand => do
      let value ← operand.evaluate call scopes
      operator.applyBefore value
  | .binary operator left right => do
      let leftValue ← left.evaluate call scopes
      let rightValue ← right.evaluate call scopes
      operator.apply call leftValue rightValue

/-! ### Statements -/

/-- How statements end: control goes on behind them with some scopes, or the
function returns. -/
inductive Ending where
  | continues (scopes : List (List (String × Value)))
  | returns (value : Option Value)

def Ending.outside (scopes : List (List (String × Value))) :
    Ending → Ending
  | continues _ => continues scopes
  | returns value => returns value

def bindName (scopes : List (List (String × Value))) (name : String)
    (value : Value) : List (List (String × Value)) :=
  match scopes with
  | [] => [[(name, value)]]
  | inner :: outer => (inner ++ [(name, value)]) :: outer

mutual

def Statement.run (call : Call) (scopes : List (List (String × Value))) :
    Statement → Except Fault Ending
  | .evaluates value => do
      let _ ← value.evaluate call scopes
      return .continues scopes
  | .returns none => .ok (.returns none)
  | .returns (some value) => do
      let value ← value.evaluate call scopes
      return .returns (some value)
  | .assigns _ name value => do
      let value ← value.evaluate call scopes
      return .continues (bindName scopes name value)
  | .ifThen condition consequence => do
      match ← condition.evaluate call scopes with
      | .truth true =>
          let ending ← Statement.runAll call ([] :: scopes) consequence
          return ending.outside scopes
      | .truth false => return .continues scopes
      | _ => throw .nonsense
  | .ifThenElse condition consequence alternative => do
      match ← condition.evaluate call scopes with
      | .truth true =>
          let ending ← Statement.runAll call ([] :: scopes) consequence
          return ending.outside scopes
      | .truth false =>
          let ending ← Statement.runAll call ([] :: scopes) alternative
          return ending.outside scopes
      | _ => throw .nonsense

def Statement.runAll (call : Call)
    (scopes : List (List (String × Value))) :
    List Statement → Except Fault Ending
  | [] => .ok (.continues scopes)
  | statement :: others => do
      match ← statement.run call scopes with
      | .continues scopes => Statement.runAll call scopes others
      | .returns value => return .returns value

end

/-! ### Functions -/

/-- The words of a call are enough for some parameters, and truth values among
them are zero or one. -/
def Call.Covers (call : Call) (parameters : List Parameter) : Prop :=
  parameters.length ≤ call.arguments.length ∧
    ∀ given ∈ parameters.zip call.arguments,
      given.1.type = .bool → given.2 = 0 ∨ given.2 = 1

def Function.boundParameters (function : Function) (call : Call) :
    List (String × Value) :=
  (function.parameters.zip call.arguments).map fun (parameter, word) =>
    (parameter.name, .ofArgument parameter.type word)

def Function.run (function : Function) (call : Call) :
    Except Fault (Option Value) := do
  match ← Statement.runAll call [function.boundParameters call]
      function.body with
  | .continues _ => return none
  | .returns value => return value

end ContractCompiler
