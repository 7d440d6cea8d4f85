/-
The texts on the use of the command line.

Help lists the options of a level with their descriptions in two columns.
-/

import ContractCompiler.CommandLine
import ContractCompiler.Text.Numeral

namespace ContractCompiler

namespace CommandLine

def Switch.valueName? : Switch → Option String
  | log => some "LOG"
  | queueCapacity => some "QUEUE_CAPACITY"
  | eval => some "CODE"
  | _ => none

def Switch.description : Switch → String
  | verbose => "Raise log verbosity (-v debug, -vv trace)"
  | log => "Log filter [env: KOA_LOG=]"
  | sequential => "Compile functions one at a time"
  | queueCapacity => "Capacity of the lexer's token queue [default: 2]"
  | eval => "Compile a contract given on the command line"
  | hex => "Print raw bytecode as hex"
  | asm => "Print the disassembly (default)"
  | help => "Print help"
  | version => "Print version"

def Switch.usage (switch : Switch) : String :=
  (match switch.letter? with
    | some letter => "-" ++ String.singleton letter ++ ", "
    | none => "    ") ++
  "--" ++ switch.longName ++
  (match switch.valueName? with
    | some value => " <" ++ value ++ ">"
    | none => "") ++
  (if switch = .verbose then "..." else "")

def columns (rows : List (String × String)) : String :=
  let width := (rows.map fun row => row.1.length).foldl max 0
  String.join (rows.map fun row =>
    "  " ++ String.ofList (padRight width ' ' row.1.toList) ++ "  " ++
      row.2 ++ "\n")

namespace Level

def usage : Level → String
  | top => "Usage: koa [OPTIONS] [COMMAND]"
  | compile => "Usage: koa compile [OPTIONS] <FILE>"
  | tokens => "Usage: koa tokens [OPTIONS] <FILE>"

def description : Level → String
  | top => "koa - compiler for the koa smart-contract language"
  | compile => "Compile a contract file to bytecode"
  | tokens => "Print the tokens of a source file"

def operands : Level → String
  | top =>
      "Commands:\n" ++
        columns
          [("compile", description .compile),
           ("tokens", description .tokens),
           ("help",
            "Print this message or the help of the given subcommand(s)")]
  | compile => "Arguments:\n" ++ columns [("<FILE>", "Contract source file")]
  | tokens => "Arguments:\n" ++ columns [("<FILE>", "Source file")]

def helpText (level : Level) : String :=
  level.description ++ "\n\n" ++ level.usage ++ "\n\n" ++
    level.operands ++ "\nOptions:\n" ++
    columns (level.switches.map fun switch =>
      (switch.usage, switch.description))

end Level

def UsageError.message : UsageError → String
  | unknownArgument => "unexpected argument found"
  | invalidValue => "a value is required but none was supplied"
  | valueValidation => "invalid value"
  | argumentConflict => "an argument cannot be used with another"
  | invalidSubcommand => "unrecognized subcommand"
  | missingArgument => "a required argument was not provided"
  | tooManyValues => "unexpected value for an option"
  | help level => level.helpText
  | version level => level.programName

end CommandLine

end ContractCompiler
