/-
The stack machine.

A program is a list of bytes.  The machine has a counter, a stack of words and
a memory of bytes.  Which quotients and remainders there are is left open: a
machine comes with two partial functions.  A step that would need a word that
is not there, a place that is no jump target, or a truth value other than zero
and one is no step.
-/

import Mathlib.Logic.Relation
import ContractCompiler.Proofs.Layout

namespace ContractCompiler

/-! ### Words and bytes -/

def Word.ofTruth (value : Bool) : Word :=
  if value then 1 else 0

def wordCount (size : Nat) : Nat :=
  max 1 ((size + 3) / 4)

def filled (size : Nat) (byteAt : Nat → UInt8) (index : Nat) : UInt8 :=
  if index < size then byteAt index else 0

def wordFrom (byteAt : Nat → UInt8) (index : Nat) : Word :=
  Word.ofBytes (byteAt index) (byteAt (index + 1)) (byteAt (index + 2))
    (byteAt (index + 3))

def packed (size : Nat) (byteAt : Nat → UInt8) : List Word :=
  (List.range (wordCount size)).map fun index =>
    wordFrom (filled size byteAt) (4 * index)

abbrev Memory := Nat → UInt8

def Memory.store (memory : Memory) (offset size : Nat)
    (words : List Word) : Memory :=
  fun address =>
    if offset ≤ address ∧ address < offset + size then
      (words.flatMap Word.bytes).getD (address - offset) 0
    else
      memory address

/-! ### Steps -/

/-- What a function is called with, and how the machine divides. -/
structure Call where
  arguments : List Word
  quotient : Word → Word → Option Word
  remainder : Word → Word → Option Word

/-- What an operation computes from the two words on top of the stack, the
topmost being the second. -/
def Opcode.between (call : Call) (left right : Word) :
    Opcode → Option Word
  | .add => some (left + right)
  | .mul => some (left * right)
  | .sub => some (left - right)
  | .div => call.quotient left right
  | .mod => call.remainder left right
  | .lt => some (.ofTruth (left.slt right))
  | .gt => some (.ofTruth (right.slt left))
  | .eq => some (.ofTruth (left == right))
  | .and =>
      if left ≤ 1 ∧ right ≤ 1 then some (left &&& right) else none
  | .or =>
      if left ≤ 1 ∧ right ≤ 1 then some (left ||| right) else none
  | _ => none

/-- A state of the machine.  The top of the stack comes first. -/
structure Machine where
  counter : Nat
  stack : List Word
  memory : Memory

namespace Machine

def operationAt? (code : List UInt8) (address : Nat) : Option Opcode :=
  code[address]?.bind Opcode.ofByte?

def wordAt? (code : List UInt8) (address : Nat) : Option Word :=
  match code.drop address with
  | first :: second :: third :: fourth :: _ =>
      some (Word.ofBytes first second third fourth)
  | _ => none

def next (machine : Machine) (stack : List Word) : Machine :=
  ⟨machine.counter + 1, stack, machine.memory⟩

def jump? (machine : Machine) (code : List UInt8) (target : Word)
    (stack : List Word) : Option Machine :=
  if operationAt? code target.toNat = some .jumpTarget then
    some ⟨target.toNat, stack, machine.memory⟩
  else
    none

/-- One step.  There is none behind a return. -/
def step (call : Call) (code : List UInt8) (machine : Machine) :
    Option Machine :=
  match operationAt? code machine.counter, machine.stack with
  | some .push, stack =>
      (wordAt? code (machine.counter + 1)).map fun word =>
        ⟨machine.counter + 5, word :: stack, machine.memory⟩
  | some .pop, _ :: stack => some (machine.next stack)
  | some .not, word :: stack =>
      some (machine.next (.ofTruth (word == 0) :: stack))
  | some .loadArgument, index :: stack =>
      call.arguments[index.toNat]?.map fun word =>
        machine.next (word :: stack)
  | some .memoryLoad, size :: offset :: stack =>
      some (machine.next
        ((packed size.toNat fun index =>
          machine.memory (offset.toNat + index)).reverse ++ stack))
  | some .memoryStore, size :: offset :: stack =>
      if wordCount size.toNat ≤ stack.length then
        some
          { machine.next (stack.drop (wordCount size.toNat)) with
            memory := machine.memory.store offset.toNat size.toNat
              (stack.take (wordCount size.toNat)).reverse }
      else
        none
  | some .jumpTarget, stack => some (machine.next stack)
  | some .jump, target :: stack => machine.jump? code target stack
  | some .jumpIf, target :: condition :: stack =>
      if condition = 0 then some (machine.next stack)
      else machine.jump? code target stack
  | some opcode, right :: left :: stack =>
      (opcode.between call left right).map fun word =>
        machine.next (word :: stack)
  | _, _ => none

def Reaches (call : Call) (code : List UInt8) : Machine → Machine → Prop :=
  Relation.ReflTransGen fun machine later =>
    machine.step call code = some later

def Undivided (call : Call) (code : List UInt8) (machine : Machine) :
    Prop :=
  ∃ left right stack, machine.stack = right :: left :: stack ∧
    (operationAt? code machine.counter = some .div ∧
        call.quotient left right = none ∨
      operationAt? code machine.counter = some .mod ∧
        call.remainder left right = none)

end Machine

end ContractCompiler
