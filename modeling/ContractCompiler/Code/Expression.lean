/-
Code of expressions.

The code of an expression leaves the words of its value on the stack: one
for a number or a truth value, and one for each started group of four bytes
of a string, but at least one.
-/

import ContractCompiler.Assembly
import ContractCompiler.Code.Typing

namespace ContractCompiler

/-- The words of a byte string, filled up with zeros to whole words. -/
def wordsOf : List UInt8 → List Word
  | first :: second :: third :: fourth :: next :: rest =>
      Word.ofBytes first second third fourth :: wordsOf (next :: rest)
  | [first, second, third, fourth] =>
      [Word.ofBytes first second third fourth]
  | [first, second, third] => [Word.ofBytes first second third 0]
  | [first, second] => [Word.ofBytes first second 0 0]
  | [first] => [Word.ofBytes first 0 0 0]
  | [] => [Word.ofBytes 0 0 0 0]

def pushAddress (value : Nat) : Except CodeError Instruction :=
  match Word.address value with
  | .ok word => .ok (.push word)
  | .error error => .error (.assembly error)

def Operator.code : Operator → List Instruction
  | .plus => [.plain .add]
  | .minus => [.plain .sub]
  | .times => [.plain .mul]
  | .divide => [.plain .div]
  | .modulo => [.plain .mod]
  | .less => [.plain .lt]
  | .greater => [.plain .gt]
  | .lessEqual => [.plain .gt, .plain .not]
  | .greaterEqual => [.plain .lt, .plain .not]
  | .equal => [.plain .eq]
  | .notEqual => [.plain .eq, .plain .not]
  | .and => [.plain .and]
  | .or => [.plain .or]
  | .not => [.plain .not]

def Location.code (environment : Environment) :
    Location → Except CodeError (List Instruction)
  | .parameter index => do
      let index ← pushAddress index
      return [index, .plain .loadArgument]
  | .memory id => do
      let entry ← environment.entry id
      let offset ← pushAddress entry.offset
      let size ← pushAddress entry.size
      return [offset, size, .plain .memoryLoad]

def Expression.code (environment : Environment) :
    Expression → Except CodeError (List Instruction)
  | .integer value =>
      match Word.ofInteger? value with
      | some word => .ok [.push word]
      | none => .error (.integerOverflow value)
  | .boolean value => .ok [.push (if value then 1 else 0)]
  | .text value =>
      .ok ((wordsOf (utf8Bytes value.toList)).map Instruction.push)
  | .identifier name => do
      let (_, location) ← environment.binding name
      location.code environment
  | .binary operator left right => do
      let leftCode ← left.code environment
      let rightCode ← right.code environment
      return leftCode ++ rightCode ++ operator.code
  | .unary .minus operand => do
      let operandCode ← operand.code environment
      return .push 0 :: operandCode ++ [.plain .sub]
  | .unary _ operand => do
      let operandCode ← operand.code environment
      return operandCode ++ [.plain .not]

end ContractCompiler
