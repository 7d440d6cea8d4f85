/-
Code with its addresses in place.

A fragment of code knows where it starts, because jumps inside it hold
addresses counted from the start of the function.  So the code of a statement
can be given at once, without placeholders.  The units that hold addresses are
listed in the order in which their targets are reached.
-/

import ContractCompiler.Code.Statement

namespace ContractCompiler

structure Extent where
  units : Nat
  bytes : Nat
  deriving DecidableEq, Repr

namespace Extent

def ofInstruction (instruction : Instruction) : Extent :=
  ⟨1 + instruction.operands.length, 1 + 4 * instruction.operands.length⟩

def add (first second : Extent) : Extent :=
  ⟨first.units + second.units, first.bytes + second.bytes⟩

def ofCode : List Instruction → Extent
  | [] => ⟨0, 0⟩
  | instruction :: rest => (ofInstruction instruction).add (ofCode rest)

def past (start : Extent) (code : List Instruction) : Extent :=
  start.add (ofCode code)

end Extent

/-- Code with the units in it that hold addresses. -/
structure Fragment where
  code : List Instruction
  sites : List Nat := []

def targetWord (target : Extent) : Except CodeError Word :=
  match Word.address target.bytes with
  | .ok word => .ok word
  | .error error => .error (.assembly error)

def jumpCode (opcode : Opcode) (target : Word) : List Instruction :=
  [.push target, .plain opcode]

def jumpExtent : Extent := ⟨3, 6⟩

def targetExtent : Extent := ⟨1, 1⟩

mutual

def Statement.code (start : Extent) (environment : Environment) :
    Statement → Generated Fragment
  | .evaluates value =>
      match value.evaluationCode environment with
      | .error error => (.error error, environment)
      | .ok code => (.ok ⟨code, []⟩, environment)
  | .returns value =>
      match returnCode environment value with
      | .error error => (.error error, environment)
      | .ok code => (.ok ⟨code, []⟩, environment)
  | .assigns type name value =>
      match assignCode environment type name value with
      | (.error error, environment) => (.error error, environment)
      | (.ok code, environment) => (.ok ⟨code, []⟩, environment)
  | .ifThen condition consequence =>
      match conditionCode environment condition with
      | .error error => (.error error, environment)
      | .ok test =>
          let jumpStart := start.past test
          match Statement.codeAll (jumpStart.add jumpExtent)
              environment.enter consequence with
          | (.error error, environment) =>
              (.error error, environment.leave)
          | (.ok body, environment) =>
              let stop := (jumpStart.add jumpExtent).past body.code
              match targetWord stop with
              | .error error => (.error error, environment.leave)
              | .ok target =>
                  (.ok
                    ⟨test ++ jumpCode .jumpIf target ++ body.code ++
                        [.plain .jumpTarget],
                      body.sites ++ [jumpStart.units + 1]⟩,
                    environment.leave)
  | .ifThenElse condition consequence alternative =>
      match conditionCode environment condition with
      | .error error => (.error error, environment)
      | .ok test =>
          let jumpStart := start.past test
          match Statement.codeAll (jumpStart.add jumpExtent)
              environment.enter consequence with
          | (.error error, environment) =>
              (.error error, environment.leave)
          | (.ok body, environment) =>
              let skipStart := (jumpStart.add jumpExtent).past body.code
              let otherwise := skipStart.add jumpExtent
              match targetWord otherwise with
              | .error error => (.error error, environment.leave)
              | .ok target =>
                  match Statement.codeAll (otherwise.add targetExtent)
                      environment.leave.enter alternative with
                  | (.error error, environment) =>
                      (.error error, environment.leave)
                  | (.ok other, environment) =>
                      let stop :=
                        (otherwise.add targetExtent).past other.code
                      match targetWord stop with
                      | .error error => (.error error, environment.leave)
                      | .ok ending =>
                          (.ok
                            ⟨test ++ jumpCode .jumpIf target ++
                                body.code ++ jumpCode .jump ending ++
                                [.plain .jumpTarget] ++ other.code ++
                                [.plain .jumpTarget],
                              body.sites ++ [jumpStart.units + 1] ++
                                other.sites ++ [skipStart.units + 1]⟩,
                            environment.leave)

def Statement.codeAll (start : Extent) (environment : Environment) :
    List Statement → Generated Fragment
  | [] => (.ok ⟨[], []⟩, environment)
  | statement :: rest =>
      match Statement.code start environment statement with
      | (.error error, environment) => (.error error, environment)
      | (.ok first, environment) =>
          match Statement.codeAll (start.past first.code) environment
              rest with
          | (.error error, environment) => (.error error, environment)
          | (.ok others, environment) =>
              (.ok ⟨first.code ++ others.code, first.sites ++ others.sites⟩,
                environment)

end

end ContractCompiler
