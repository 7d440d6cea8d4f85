/-
Code of the stack machine as a list of units.

A unit is one operation or one operand, each with its bytes and its text.
Keeping them apart lets one operand be replaced without touching anything
else.  Editing a piece of code either succeeds or leaves an error; it never
leaves the code half changed.
-/

import ContractCompiler.Assembly.Word

namespace ContractCompiler

/-- A unit of code: its bytes and the text that listings show. -/
structure CodeUnit where
  bytes : List UInt8
  text : String
  deriving DecidableEq, Repr

namespace CodeUnit

def ofOpcode (opcode : Opcode) : CodeUnit :=
  ⟨[opcode.byte], opcode.mnemonic⟩

def ofWord (word : Word) : CodeUnit :=
  ⟨word.bytes, word.render⟩

def isOperand (unit : CodeUnit) : Bool :=
  unit.bytes.length == 4

def opcode? (unit : CodeUnit) : Option Opcode :=
  match unit.bytes with
  | [byte] => Opcode.ofByte? byte
  | _ => none

def word? (unit : CodeUnit) : Option Word :=
  match unit.bytes with
  | [first, second, third, fourth] =>
      some (Word.ofBytes first second third fourth)
  | _ => none

end CodeUnit

/-- An operation with exactly the operands it takes. -/
structure Instruction where
  opcode : Opcode
  operands : List Word
  complete : operands.length = opcode.operandCount

namespace Instruction

def make (opcode : Opcode) (operands : List Word) :
    Except AssemblyError Instruction :=
  if complete : operands.length = opcode.operandCount then
    .ok ⟨opcode, operands, complete⟩
  else
    .error (.operandCount opcode opcode.operandCount operands.length)

/-- An operation on its own.  The operands that it takes, if any, are
zero. -/
def plain (opcode : Opcode) : Instruction :=
  ⟨opcode, List.replicate opcode.operandCount 0, List.length_replicate⟩

def push (word : Word) : Instruction :=
  ⟨.push, [word], rfl⟩

def units (instruction : Instruction) : List CodeUnit :=
  .ofOpcode instruction.opcode :: instruction.operands.map .ofWord

end Instruction

structure Assembly where
  units : List CodeUnit
  deriving DecidableEq, Repr

namespace Assembly

def empty : Assembly := ⟨[]⟩

def ofInstructions (instructions : List Instruction) : Assembly :=
  ⟨instructions.flatMap Instruction.units⟩

/-! ### Views -/

def length (code : Assembly) : Nat :=
  code.units.length

def bytes (code : Assembly) : List UInt8 :=
  code.units.flatMap CodeUnit.bytes

def sizeOfUnits (units : List CodeUnit) : Nat :=
  units.foldr (fun unit size => unit.bytes.length + size) 0

def byteLength (code : Assembly) : Nat :=
  sizeOfUnits code.units

/-- The number of bytes before a unit.  The place behind the last unit counts
as one. -/
def byteOffset? (code : Assembly) (index : Nat) : Option Nat :=
  if index ≤ code.length then some (sizeOfUnits (code.units.take index))
  else none

def operandAt? (code : Assembly) (index : Nat) : Option Word :=
  code.units[index]?.bind CodeUnit.word?

def render (code : Assembly) : String :=
  "[" ++ " ".intercalate (code.units.map CodeUnit.text) ++ "]"

/-! ### Building and editing -/

def append (first second : Assembly) : Assembly :=
  ⟨first.units ++ second.units⟩

def emit (code : Assembly) (opcode : Opcode) (operands : List Word) :
    Except AssemblyError Assembly := do
  let instruction ← Instruction.make opcode operands
  return ⟨code.units ++ instruction.units⟩

def emitByte (code : Assembly) (byte : UInt8) (operands : List Word) :
    Except AssemblyError Assembly :=
  match Opcode.ofByte? byte with
  | some opcode => code.emit opcode operands
  | none => .error (.unknownOpcode byte)

def insertAt (code : Assembly) (index : Nat) (opcode : Opcode)
    (operands : List Word) : Except AssemblyError Assembly :=
  if index ≤ code.length then do
    let instruction ← Instruction.make opcode operands
    return ⟨code.units.take index ++ instruction.units ++
      code.units.drop index⟩
  else
    .error (.outOfBounds index code.length)

def replaceOperand (code : Assembly) (index : Nat) (word : Word) :
    Except AssemblyError Assembly :=
  match code.units[index]? with
  | none => .error (.outOfBounds index code.length)
  | some unit =>
      if unit.isOperand then .ok ⟨code.units.set index (.ofWord word)⟩
      else .error (.notAnOperand index)

/-- Replaces the operation at an index by one that takes as many operands. -/
def replaceOpcode (code : Assembly) (index : Nat) (opcode : Opcode) :
    Except AssemblyError Assembly :=
  match code.units[index]? with
  | none => .error (.outOfBounds index code.length)
  | some unit =>
      match unit.opcode? with
      | none => .error (.notAnOpcode index)
      | some old =>
          if old.operandCount = opcode.operandCount then
            .ok ⟨code.units.set index (.ofOpcode opcode)⟩
          else
            .error (.operandCount opcode opcode.operandCount
              old.operandCount)

end Assembly

end ContractCompiler
