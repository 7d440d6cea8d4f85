/-
Whole runs of the program.

A run ends with an exit code and the text of two output channels.  The code
is zero on success, one when a text cannot be read or compiled, and two when
the command line is wrong.
-/

import ContractCompiler.CommandLine.Usage
import ContractCompiler.Console.Session

namespace ContractCompiler

variable [IdentifierCharacters]

structure Outcome where
  code : Nat
  output : Output

namespace Program

/-- What a command line asks for: nothing that needs reading, the contents of
a file, or a session. -/
inductive Task where
  | done (outcome : Outcome)
  | compileFile (path : String) (config : Config) (format : OutputFormat)
  | listTokens (path : String)
  | session (config : Config)

def compileSource (config : Config) (format : OutputFormat)
    (source : String) : Outcome :=
  match Console.compileAndShow config format source with
  | .ok output => ⟨0, output⟩
  | .error output => ⟨1, output⟩

/-- The end of a run whose command line asks for nothing that can be
compiled.  Help and version are answers; all else is wrong use. -/
def answerUsage : CommandLine.UsageError → Outcome
  | .help level => ⟨0, { out := level.helpText }⟩
  | .version level => ⟨0, .line (level.programName ++ " " ++ versionText)⟩
  | error =>
      ⟨2, .complaint
        ("error: " ++ error.message ++
          "\n\nFor more information, try '--help'.")⟩

def plan (environmentLog : Option String) (arguments : List String) :
    Task :=
  match CommandLine.parse environmentLog arguments with
  | .error error => .done (answerUsage error)
  | .ok parsed =>
      match parsed.eval, parsed.request with
      | some source, _ =>
          .done (compileSource parsed.config .assembly source)
      | none, some (.compile file hex _) =>
          .compileFile file parsed.config
            (if hex then .hexadecimal else .assembly)
      | none, some (.tokens file) => .listTokens file
      | none, none => .session parsed.config

def unreadableFile (path : String) (error : FileError) : Outcome :=
  ⟨1, .complaint
    (Console.errorLabel ++ ": cannot read '" ++ Style.cyan.paint path ++
      "': " ++ error.message)⟩

def finishCompile (path : String) (config : Config)
    (format : OutputFormat) : Except FileError String → Outcome
  | .ok source => compileSource config format source
  | .error error => unreadableFile path error

def finishTokens (path : String) : Except FileError String → Outcome
  | .ok source => ⟨0, { out := Token.table (tokenize source) }⟩
  | .error error => unreadableFile path error

def linesOf : List UInt8 → List (List UInt8)
  | [] => []
  | byte :: rest =>
      if byte = 10 then [byte] :: linesOf rest
      else
        match linesOf rest with
        | [] => [[byte]]
        | line :: lines => (byte :: line) :: lines

def runSession (directory : Directory) (config : Config)
    (input : List UInt8) : Outcome :=
  let lines := (linesOf input).map textOfBytes?
  ⟨0, (Console.banner.append
    (Console.Session.run directory { config := config } [] lines)).append
      (.line "")⟩

def run (directory : Directory) (environmentLog : Option String)
    (arguments : List String) (input : List UInt8) : Outcome :=
  match plan environmentLog arguments with
  | .done outcome => outcome
  | .compileFile path config format =>
      finishCompile path config format (directory.read path)
  | .listTokens path => finishTokens path (directory.read path)
  | .session config => runSession directory config input

end Program

end ContractCompiler
