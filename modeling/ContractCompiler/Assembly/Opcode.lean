/-
Operation codes of the stack machine.

Every operation is one byte.  Only `push` carries an operand.
-/

namespace ContractCompiler

inductive Opcode where
  | add
  | mul
  | sub
  | div
  | mod
  | lt
  | gt
  | eq
  | not
  | and
  | or
  | pop
  | push
  | memoryLoad
  | memoryStore
  | loadArgument
  | jump
  | jumpIf
  | jumpTarget
  | returning
  deriving DecidableEq, Repr

namespace Opcode

def byte : Opcode → UInt8
  | add => 0x01
  | mul => 0x02
  | sub => 0x03
  | div => 0x04
  | mod => 0x05
  | lt => 0x10
  | gt => 0x11
  | eq => 0x12
  | not => 0x13
  | and => 0x14
  | or => 0x15
  | pop => 0x20
  | push => 0x21
  | memoryLoad => 0x22
  | memoryStore => 0x23
  | loadArgument => 0x24
  | jump => 0x30
  | jumpIf => 0x31
  | jumpTarget => 0x32
  | returning => 0x50

def mnemonic : Opcode → String
  | add => "ADD"
  | mul => "MUL"
  | sub => "SUB"
  | div => "DIV"
  | mod => "MOD"
  | lt => "LT"
  | gt => "GT"
  | eq => "EQ"
  | not => "NOT"
  | and => "AND"
  | or => "OR"
  | pop => "POP"
  | push => "PUSH"
  | memoryLoad => "MLOAD"
  | memoryStore => "MSTORE"
  | loadArgument => "LOADARGS"
  | jump => "JUMP"
  | jumpIf => "JUMPI"
  | jumpTarget => "JUMPDEST"
  | returning => "RETURNING"

def all : List Opcode :=
  [add, mul, sub, div, mod, lt, gt, eq, not, and, or, pop, push,
   memoryLoad, memoryStore, loadArgument, jump, jumpIf, jumpTarget,
   returning]

def operandCount : Opcode → Nat
  | push => 1
  | _ => 0

def ofByte? (byte : UInt8) : Option Opcode :=
  all.find? fun opcode => opcode.byte == byte

def ofMnemonic? (name : String) : Option Opcode :=
  all.find? fun opcode => opcode.mnemonic == name

theorem ofByte_byte (opcode : Opcode) :
    ofByte? opcode.byte = some opcode := by
  cases opcode <;> rfl

end Opcode

end ContractCompiler
