/-
From source text to a linked program.

Functions are compiled independently of each other: in parallel, every one
starts from the declarations; in sequence, each starts from what the one
before it has left.  All errors of the functions are reported together, and
linking is tried only when there is none.
-/

import ContractCompiler.Artifact
import ContractCompiler.Contract.Reading
import ContractCompiler.Token.Tokenize

namespace ContractCompiler

variable [IdentifierCharacters]

/-- How to compile: how many tokens may wait between cutting and reading
them, and whether functions are compiled in parallel. -/
structure Config where
  queueCapacity : Nat := 2
  parallel : Bool := true
  deriving DecidableEq, Repr

inductive CompileFailure where
  | syntactic (error : SyntaxError)
  | declaration (error : BindingError)
  | functions (errors : List FunctionError)
  | linking (error : AssemblyError)
  deriving DecidableEq, Repr

def CompileFailure.message : CompileFailure → String
  | syntactic error => "syntax error: " ++ error.message
  | declaration error => "declaration error: " ++ error.message
  | functions errors =>
      decimal errors.length ++ " function(s) failed to compile" ++
        String.join (errors.map fun error => "\n  " ++ error.message)
  | linking error => "link error: " ++ error.message

def Contract.parse (source : String) : Except CompileFailure Contract :=
  match (readContract (.ofTokens (tokenize source))).outcome.1 with
  | .ok contract => .ok contract
  | .error error => .error (.syntactic error)

namespace Declarations

def compileInSequence (declarations : Declarations) :
    List Function → List (Except FunctionError FunctionCode)
  | [] => []
  | function :: rest =>
      let (outcome, declarations) := declarations.compileFunction function
      outcome :: declarations.compileInSequence rest

def compileInParallel (declarations : Declarations)
    (functions : List Function) :
    List (Except FunctionError FunctionCode) :=
  functions.map fun function => (declarations.compileFunction function).1

end Declarations

def errorsOf {ε α : Type} (outcomes : List (Except ε α)) : List ε :=
  outcomes.filterMap fun outcome =>
    match outcome with
    | .error error => some error
    | .ok _ => none

def valuesOf {ε α : Type} (outcomes : List (Except ε α)) : List α :=
  outcomes.filterMap Except.toOption

def Contract.compile (parallel : Bool) (contract : Contract) :
    Except CompileFailure Artifact :=
  match contract.declare with
  | .error error => .error (.declaration error)
  | .ok declarations =>
      let outcomes :=
        if parallel then declarations.compileInParallel contract.functions
        else declarations.compileInSequence contract.functions
      if (errorsOf outcomes).isEmpty then
        match Artifact.link (valuesOf outcomes) with
        | .ok artifact => .ok artifact
        | .error error => .error (.linking error)
      else
        .error (.functions (errorsOf outcomes))

def compile (config : Config) (source : String) :
    Except CompileFailure Artifact :=
  match Contract.parse source with
  | .error failure => .error failure
  | .ok contract => contract.compile config.parallel

end ContractCompiler
