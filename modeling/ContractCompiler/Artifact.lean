/-
Linked programs.

Linking puts the code of functions one behind another.  Addresses inside a
function count from its start, so each is moved by the number of bytes in
front of the function.
-/

import ContractCompiler.Code.Function

namespace ContractCompiler

structure FunctionEntry where
  name : String
  offset : Nat
  deriving DecidableEq, Repr

structure Artifact where
  code : Assembly
  functions : List FunctionEntry
  deriving DecidableEq, Repr

namespace Artifact

def empty : Artifact := ⟨.empty, []⟩

def functionOffset? (artifact : Artifact) (name : String) : Option Nat :=
  (artifact.functions.find? fun entry => entry.name == name).map
    FunctionEntry.offset

/-- Moves the addresses at some units by a number of bytes. -/
def relocate (base : Nat) (code : Assembly) :
    List Nat → Except AssemblyError Assembly
  | [] => .ok code
  | site :: rest =>
      match code.operandAt? site with
      | none => .error (.notAnOperand site)
      | some relative =>
          match Word.address (base + relative.toNat) with
          | .error error => .error error
          | .ok absolute =>
              match code.replaceOperand site absolute with
              | .error error => .error error
              | .ok code => relocate base code rest

def addFunction (artifact : Artifact) (function : FunctionCode) :
    Except AssemblyError Artifact :=
  let base := artifact.code.byteLength
  match relocate base function.code function.jumpSites with
  | .error error => .error error
  | .ok code =>
      .ok ⟨artifact.code.append code,
        artifact.functions ++ [⟨function.name, base⟩]⟩

def addFunctions (artifact : Artifact) :
    List FunctionCode → Except AssemblyError Artifact
  | [] => .ok artifact
  | function :: rest =>
      match artifact.addFunction function with
      | .error error => .error error
      | .ok artifact => artifact.addFunctions rest

def link (functions : List FunctionCode) : Except AssemblyError Artifact :=
  empty.addFunctions functions

end Artifact

end ContractCompiler
