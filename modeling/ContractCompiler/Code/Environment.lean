/-
What is known at a point of a function's body, and why a function has no
code.

The parameters and the variables of the body's own block are bound in the
scope of the function.  Every nested block that is open at the point has a
frame of its own.  Blocks are numbered in the order in which they are
entered, starting from one; the body itself is block zero.  A variable that
is no parameter has a place in memory, under its name and its block.
-/

import ContractCompiler.Assembly.Word
import ContractCompiler.MemoryTable
import ContractCompiler.Scope.Symbol

namespace ContractCompiler

/-! ### Errors -/

inductive CodeError where
  | undefined (name : String)
  | notAValue (name : String)
  | binding (error : BindingError)
  | entry (missing : MissingEntry)
  | typeMismatch (expected found : ValueType)
  | unsupportedOperator (operator : Operator) (operand : ValueType)
  | integerOverflow (value : Int)
  | assembly (error : AssemblyError)
  deriving DecidableEq, Repr

def CodeError.message : CodeError → String
  | undefined name => "undefined symbol '" ++ name ++ "'"
  | notAValue name => "'" ++ name ++ "' is a function, not a value"
  | binding error => error.message
  | entry missing => missing.message
  | typeMismatch expected found =>
      "type mismatch: expected " ++ expected.name ++ ", found " ++
        found.name
  | unsupportedOperator operator operand =>
      "operator '" ++ operator.symbol ++ "' is not defined for " ++
        operand.name
  | integerOverflow value =>
      "integer literal " ++ signedDecimal value ++
        " does not fit in 32 bits"
  | assembly error => error.message

structure FunctionError where
  function : String
  error : CodeError
  deriving DecidableEq, Repr

def FunctionError.message (failure : FunctionError) : String :=
  "func " ++ failure.function ++ ": " ++ failure.error.message

/-! ### Environments -/

structure Frame where
  block : Nat
  locals : List (String × ValueType) := []

/-- What is known at a point of a body: the function's parameters, the type
it returns, the names bound around the function, the variables of its own
scope, the open nested blocks from the inside out, the number of blocks
entered so far, and the memory handed out. -/
structure Environment where
  parameters : List String
  returnType : ValueType
  outside : List String
  locals : List (String × ValueType)
  frames : List Frame := []
  entered : Nat := 0
  memory : MemoryTable := .empty

inductive Location where
  | parameter (index : Nat)
  | memory (id : String)
  deriving DecidableEq, Repr

/-- The name under which a variable of a block has its memory. -/
def memoryId (name : String) (block : Nat) : String :=
  if block = 0 then name else name ++ "@" ++ decimal block

namespace Environment

def currentBlock (environment : Environment) : Nat :=
  match environment.frames with
  | [] => 0
  | frame :: _ => frame.block

def enter (environment : Environment) : Environment :=
  { environment with
    entered := environment.entered + 1
    frames := { block := environment.entered + 1 } :: environment.frames }

def leave (environment : Environment) : Environment :=
  { environment with frames := environment.frames.tail }

/-- Looks a name up in open blocks, from the inside out. -/
def lookupFrames (name : String) : List Frame → Option (Nat × ValueType)
  | [] => none
  | frame :: rest =>
      match frame.locals.lookup name with
      | some type => some (frame.block, type)
      | none => lookupFrames name rest

def lookup? (environment : Environment) (name : String) :
    Option (Nat × ValueType) :=
  match lookupFrames name environment.frames with
  | some found => some found
  | none => (environment.locals.lookup name).map fun type => (0, type)

def binding (environment : Environment) (name : String) :
    Except CodeError (ValueType × Location) :=
  match environment.lookup? name with
  | none =>
      if environment.outside.contains name then .error (.notAValue name)
      else .error (.undefined name)
  | some (block, type) =>
      match environment.parameters.idxOf? name with
      | some index =>
          if block = 0 then .ok (type, .parameter index)
          else .ok (type, .memory (memoryId name block))
      | none => .ok (type, .memory (memoryId name block))

def entry (environment : Environment) (id : String) :
    Except CodeError MemoryEntry :=
  match environment.memory.entry id with
  | .ok entry => .ok entry
  | .error missing => .error (.entry missing)

def define (environment : Environment) (name : String)
    (type : ValueType) : Except CodeError Environment :=
  match Symbol.ofType type name with
  | .error error => .error (.binding error)
  | .ok _ =>
      match environment.frames with
      | [] =>
          if (environment.locals.lookup name).isSome then
            .error (.binding (.redefined name))
          else
            .ok { environment with
              locals := environment.locals ++ [(name, type)] }
      | frame :: rest =>
          if (frame.locals.lookup name).isSome then
            .error (.binding (.redefined name))
          else
            .ok { environment with
              frames :=
                { frame with
                  locals := frame.locals ++ [(name, type)] } ::
                  rest }

def allocate (environment : Environment) (name : String) (size : Nat) :
    MemoryEntry × Environment :=
  let (entry, memory) :=
    environment.memory.define (memoryId name environment.currentBlock) size
  (entry, { environment with memory := memory })

end Environment

end ContractCompiler
