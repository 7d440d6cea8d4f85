/-
Code of statements.

A function is generated from its first unit to its last.  A jump is emitted
with a placeholder for its address, and patched once its target is reached.
The units that were patched are listed, in that order, so that the addresses in
them can be moved when functions are put one behind another.

The environment behind a statement is given also when the statement has no
code: variables bound before the error stay bound.
-/

import ContractCompiler.Code.Expression

namespace ContractCompiler

/-- The outcome for a piece of a body, with the environment behind it. -/
abbrev Generated (α : Type) := Except CodeError α × Environment

def Expression.evaluationCode (environment : Environment)
    (value : Expression) : Except CodeError (List Instruction) := do
  let _ ← value.typeIn environment
  let size ← value.sizeIn environment
  let code ← value.code environment
  return code ++ List.replicate (stackWords size) (.plain .pop)

def returnCode (environment : Environment) :
    Option Expression → Except CodeError (List Instruction)
  | none => do
      requireType environment.returnType .void
      return [.plain .returning]
  | some value => do
      let found ← value.typeIn environment
      requireType environment.returnType found
      let code ← value.code environment
      return code ++ [.plain .returning]

def initialCode (environment : Environment) (type : ValueType)
    (value : Expression) : Except CodeError (List Instruction × Nat) := do
  let found ← value.typeIn environment
  requireType type found
  let size ← value.sizeIn environment
  let code ← value.code environment
  return (code, size)

def storeCode (entry : MemoryEntry) :
    Except CodeError (List Instruction) := do
  let offset ← pushAddress entry.offset
  let size ← pushAddress entry.size
  return [offset, size, .plain .memoryStore]

/-- The code of a new variable.  The value is computed before the variable is
bound. -/
def assignCode (environment : Environment) (type : ValueType)
    (name : String) (value : Expression) : Generated (List Instruction) :=
  match initialCode environment type value with
  | .error error => (.error error, environment)
  | .ok (code, size) =>
      match environment.define name type with
      | .error error => (.error error, environment)
      | .ok environment =>
          let (entry, environment) := environment.allocate name size
          match storeCode entry with
          | .error error => (.error error, environment)
          | .ok store => (.ok (code ++ store), environment)

/-- The code of a condition, with the test that jumps when it fails still
open. -/
def conditionCode (environment : Environment) (condition : Expression) :
    Except CodeError (List Instruction) := do
  let found ← condition.typeIn environment
  requireType .bool found
  let code ← condition.code environment
  return code ++ [.plain .not]

/-! ### Emission -/

structure Emission where
  code : Assembly := .empty
  sites : List Nat := []
  environment : Environment

namespace Emission

def enter (state : Emission) : Emission :=
  { state with environment := state.environment.enter }

def leave (state : Emission) : Emission :=
  { state with environment := state.environment.leave }

end Emission

/-- A part of a function that is being generated.  What there was before an
error stays known behind it. -/
abbrev Emitter := ExceptT CodeError (StateM Emission)

namespace Emitter

def environment : Emitter Environment :=
  return (← get).environment

def setEnvironment (environment : Environment) : Emitter Unit :=
  modify fun state => { state with environment := environment }

def ofAssembly {α : Type} : Except AssemblyError α → Emitter α
  | .ok value => pure value
  | .error error => throw (.assembly error)

def emit (opcode : Opcode) (operands : List Word) : Emitter Unit := do
  let code ← ofAssembly ((← get).code.emit opcode operands)
  modify fun state => { state with code := code }

def emitAll (instructions : List Instruction) : Emitter Unit :=
  modify fun state =>
    { state with code := state.code.append (.ofInstructions instructions) }

/-- Pushes a word that is patched later, and gives the index of its unit. -/
def emitPlaceholder : Emitter Nat := do
  emit .push [.placeholder]
  return (← get).code.length - 1

/-- Emits a jump, and gives the index of the unit for its address. -/
def emitJump (opcode : Opcode) : Emitter Nat := do
  let site ← emitPlaceholder
  emit opcode []
  return site

/-- Emits a jump target, and points the operand at an index to it. -/
def patchJump (site : Nat) : Emitter Unit := do
  let target := (← get).code.byteLength
  emit .jumpTarget []
  let word ← ofAssembly (Word.address target)
  let code ← ofAssembly ((← get).code.replaceOperand site word)
  modify fun state =>
    { state with code := code, sites := state.sites ++ [site] }

/-- Generates a block in a scope of its own, which is left also behind an
error. -/
def nested (block : Emitter Unit) : Emitter Unit := .mk do
  modify Emission.enter
  let outcome ← block.run
  modify Emission.leave
  return outcome

end Emitter

mutual

def Statement.emit : Statement → Emitter Unit
  | .evaluates value => do
      Emitter.emitAll (← value.evaluationCode (← Emitter.environment))
  | .returns value => do
      Emitter.emitAll (← returnCode (← Emitter.environment) value)
  | .assigns type name value => do
      let (outcome, environment) :=
        assignCode (← Emitter.environment) type name value
      Emitter.setEnvironment environment
      Emitter.emitAll (← outcome)
  | .ifThen condition consequence => do
      Emitter.emitAll (← conditionCode (← Emitter.environment) condition)
      let site ← Emitter.emitJump .jumpIf
      Emitter.nested (Statement.emitAll consequence)
      Emitter.patchJump site
  | .ifThenElse condition consequence alternative => do
      Emitter.emitAll (← conditionCode (← Emitter.environment) condition)
      let site ← Emitter.emitJump .jumpIf
      Emitter.nested (Statement.emitAll consequence)
      let ending ← Emitter.emitJump .jump
      Emitter.patchJump site
      Emitter.nested (Statement.emitAll alternative)
      Emitter.patchJump ending

def Statement.emitAll : List Statement → Emitter Unit
  | [] => pure ()
  | statement :: rest => do
      statement.emit
      Statement.emitAll rest

end

end ContractCompiler
