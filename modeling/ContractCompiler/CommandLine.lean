/-
The command line.

Options may be given before and behind the name of a subcommand.  Most of
them are known on both sides, and then the one behind wins.  The value of an
option is only looked at when the next option, the next plain argument or the
end is reached, so an unknown option is reported before a bad value in front
of it.  Behind `--` every argument is plain.
-/

import ContractCompiler.Compile

namespace ContractCompiler

namespace CommandLine

/-- The part of the command line that is read: in front of a subcommand, or
behind one. -/
inductive Level where
  | top
  | compile
  | tokens
  deriving DecidableEq, Repr

inductive Switch where
  | verbose
  | log
  | sequential
  | queueCapacity
  | eval
  | hex
  | asm
  | help
  | version
  deriving DecidableEq, Repr

namespace Switch

def longName : Switch → String
  | verbose => "verbose"
  | log => "log"
  | sequential => "sequential"
  | queueCapacity => "queue-capacity"
  | eval => "eval"
  | hex => "hex"
  | asm => "asm"
  | help => "help"
  | version => "version"

def letter? : Switch → Option Char
  | verbose => some 'v'
  | eval => some 'e'
  | help => some 'h'
  | version => some 'V'
  | _ => none

def takesValue : Switch → Bool
  | log | queueCapacity | eval => true
  | _ => false

end Switch

namespace Level

def switches : Level → List Switch
  | top =>
      [.verbose, .log, .sequential, .queueCapacity, .eval, .help, .version]
  | compile =>
      [.verbose, .log, .sequential, .queueCapacity, .hex, .asm, .help,
       .version]
  | tokens =>
      [.verbose, .log, .sequential, .queueCapacity, .help, .version]

def long? (level : Level) (name : String) : Option Switch :=
  level.switches.find? fun switch => switch.longName == name

def short? (level : Level) (letter : Char) : Option Switch :=
  level.switches.find? fun switch => switch.letter? == some letter

def programName : Level → String
  | top => "koa"
  | compile => "koa-compile"
  | tokens => "koa-tokens"

end Level

inductive Subcommand where
  | level (level : Level)
  | help
  deriving DecidableEq, Repr

/-- The subcommand that a word names in front of any other. -/
def subcommand? : String → Option Subcommand
  | "compile" => some (.level .compile)
  | "c" => some (.level .compile)
  | "tokens" => some (.level .tokens)
  | "help" => some .help
  | _ => none

/-- Why there is nothing to run.  Asking for help or for the version counts
as such a reason. -/
inductive UsageError where
  | unknownArgument
  | invalidValue
  | valueValidation
  | argumentConflict
  | invalidSubcommand
  | missingArgument
  | tooManyValues
  | help (level : Level)
  | version (level : Level)
  deriving DecidableEq, Repr

structure Given where
  verbose : Option Nat := none
  log : Option String := none
  sequential : Bool := false
  queueCapacity : Option Nat := none
  eval : Option String := none
  hex : Bool := false
  asm : Bool := false
  file : Option String := none

namespace Given

/-- Takes an option without a value.  Only `verbose` may be repeated; its
count stops at 255. -/
def raise (given : Given) (level : Level) :
    Switch → Except UsageError Given
  | .verbose =>
      .ok { given with verbose := some (min 255 (given.verbose.getD 0 + 1)) }
  | .sequential =>
      if given.sequential then .error .argumentConflict
      else .ok { given with sequential := true }
  | .hex =>
      if given.hex then .error .argumentConflict
      else .ok { given with hex := true }
  | .asm =>
      if given.asm then .error .argumentConflict
      else .ok { given with asm := true }
  | .help => .error (.help level)
  | .version => .error (.version level)
  | _ => .ok given

def set (given : Given) (value : String) :
    Switch → Except UsageError Given
  | .log =>
      if given.log.isSome then .error .argumentConflict
      else .ok { given with log := some value }
  | .eval =>
      if given.eval.isSome then .error .argumentConflict
      else .ok { given with eval := some value }
  | .queueCapacity =>
      if given.queueCapacity.isSome then .error .argumentConflict
      else
        match readSize value.toList with
        | some capacity =>
            .ok { given with queueCapacity := some capacity }
        | none => .error .valueValidation
  | _ => .ok given

end Given

/-- An argument that has been read but not yet looked at. -/
inductive Pending where
  | nothing
  | option (switch : Switch) (value : Option String)
  | file (path : String)
  deriving DecidableEq, Repr

structure Progress where
  given : Given := {}
  pending : Pending := .nothing

namespace Progress

def settle (progress : Progress) : Except UsageError Progress :=
  match progress.pending with
  | .nothing => .ok progress
  | .option _ none => .error .invalidValue
  | .option switch (some value) => do
      let given ← progress.given.set value switch
      return { given := given }
  | .file path =>
      if path.isEmpty then .error .invalidValue
      else .ok { given := { progress.given with file := some path } }

def awaited? (progress : Progress) : Option Switch :=
  match progress.pending with
  | .option switch none => some switch
  | _ => none

def hasFile (progress : Progress) : Bool :=
  match progress.pending with
  | .file _ => true
  | _ => progress.given.file.isSome

def setValue (progress : Progress) (switch : Switch) (value : String) :
    Except UsageError Progress := do
  let progress ← progress.settle
  let given ← progress.given.set value switch
  return { given := given }

def await (progress : Progress) (switch : Switch) :
    Except UsageError Progress := do
  let progress ← progress.settle
  return { progress with pending := .option switch none }

def raise (progress : Progress) (level : Level) (switch : Switch) :
    Except UsageError Progress := do
  let progress ← progress.settle
  let given ← progress.given.raise level switch
  return { given := given }

def takeLong (progress : Progress) (level : Level) (text : List Char) :
    Except UsageError Progress :=
  let name := text.takeWhile fun character => character != '='
  let attached := text.dropWhile fun character => character != '='
  match level.long? (String.ofList name), attached with
  | none, _ => .error .unknownArgument
  | some switch, [] =>
      if switch.takesValue then progress.await switch
      else progress.raise level switch
  | some switch, _ :: value =>
      if switch.takesValue then
        progress.setValue switch (String.ofList value)
      else
        .error .tooManyValues

/-- Takes the letters behind one dash.  The letter of an option with a value
ends them: the value follows at once, or is the next argument. -/
def takeLetters (progress : Progress) (level : Level) :
    List Char → Except UsageError Progress
  | [] => .ok progress
  | letter :: rest =>
      match level.short? letter with
      | none => .error .unknownArgument
      | some switch =>
          if switch.takesValue then
            match rest with
            | [] => progress.await switch
            | '=' :: value => progress.setValue switch (String.ofList value)
            | value => progress.setValue switch (String.ofList value)
          else
            match progress.raise level switch with
            | .error error => .error error
            | .ok progress => progress.takeLetters level rest

def takePlain (progress : Progress) (level : Level) (trailing : Bool)
    (argument : String) : Except UsageError Progress :=
  match level with
  | .top =>
      if trailing && (subcommand? argument).isSome then
        .error .unknownArgument
      else
        .error .invalidSubcommand
  | _ =>
      if progress.hasFile then .error .unknownArgument
      else do
        let progress ← progress.settle
        return { progress with pending := .file argument }

end Progress

def helpOn : List String → UsageError
  | [] => .help .top
  | [word] =>
      match subcommand? word with
      | some (.level level) => .help level
      | some .help => .help .top
      | none => .invalidSubcommand
  | _ => .invalidSubcommand

/-- What follows the arguments of a level: a subcommand with its
arguments. -/
abbrev Continuation := Option (Level × List String)

def scan (level : Level) (trailing : Bool) (progress : Progress) :
    List String → Except UsageError (Progress × Continuation)
  | [] => .ok (progress, none)
  | argument :: rest =>
      if trailing then
        match progress.takePlain level true argument with
        | .error error => .error error
        | .ok progress => scan level true progress rest
      else
        match (if level = .top ∧ progress.awaited?.isNone then
            subcommand? argument else none) with
        | some (.level next) => .ok (progress, some (next, rest))
        | some .help => .error (helpOn rest)
        | none =>
            match argument.toList with
            | ['-', '-'] => scan level true progress rest
            | '-' :: '-' :: text =>
                match progress.takeLong level text with
                | .error error => .error error
                | .ok progress => scan level false progress rest
            | '-' :: letter :: letters =>
                match progress.takeLetters level (letter :: letters) with
                | .error error => .error error
                | .ok progress => scan level false progress rest
            | _ =>
                match progress.awaited? with
                | some switch =>
                    scan level false
                      { progress with
                        pending := .option switch (some argument) }
                      rest
                | none =>
                    match progress.takePlain level false argument with
                    | .error error => .error error
                    | .ok progress => scan level false progress rest

def finish (level : Level) (progress : Progress) :
    Except UsageError Given := do
  let progress ← progress.settle
  let given := progress.given
  if given.hex && given.asm then
    throw .argumentConflict
  else if level ≠ .top ∧ given.file.isNone then
    throw .missingArgument
  else
    return given

inductive Request where
  | compile (file : String) (hex asm : Bool)
  | tokens (file : String)
  deriving DecidableEq, Repr

structure Arguments where
  verbose : Nat := 0
  log : Option String := none
  sequential : Bool := false
  queueCapacity : Nat := 2
  eval : Option String := none
  request : Option Request := none

namespace Arguments

def config (arguments : Arguments) : Config :=
  ⟨arguments.queueCapacity, !arguments.sequential⟩

/-- Which log messages are wanted: those asked for by name, else by the count
of `verbose`. -/
def logFilter (arguments : Arguments) : String :=
  match arguments.log with
  | some filter => filter
  | none =>
      match arguments.verbose with
      | 0 => "warn"
      | 1 => "koa=debug,koa_compiler=debug"
      | _ => "koa=trace,koa_compiler=trace"

end Arguments

/-- Puts together what was given in front of a subcommand and behind it. -/
def combine (environmentLog : Option String) (outer inner : Given)
    (request : Option Request) : Arguments where
  verbose := (inner.verbose <|> outer.verbose).getD 0
  log := inner.log <|> outer.log <|> environmentLog
  sequential := inner.sequential || outer.sequential
  queueCapacity := (inner.queueCapacity <|> outer.queueCapacity).getD 2
  eval := outer.eval
  request := request

def requestOf (level : Level) (given : Given) : Option Request :=
  match level, given.file with
  | .compile, some file => some (.compile file given.hex given.asm)
  | .tokens, some file => some (.tokens file)
  | _, _ => none

/-- Reads a command line.  The log filter of the environment holds unless one
is given. -/
def parse (environmentLog : Option String) (arguments : List String) :
    Except UsageError Arguments := do
  let (outer, continuation) ← scan .top false {} arguments
  match continuation with
  | none => do
      let given ← finish .top outer
      return combine environmentLog given {} none
  | some (level, rest) => do
      let (inner, _) ← scan level false {} rest
      let inner ← finish level inner
      let outer ← finish .top outer
      return combine environmentLog outer inner (requestOf level inner)

end CommandLine

end ContractCompiler
