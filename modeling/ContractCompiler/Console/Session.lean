/-
Sessions on the console.

A session reads entries and answers each: a command is carried out, and any
other entry is compiled and shown.  Reading a file is left to the caller,
which hands back what it found.
-/

import ContractCompiler.Artifact.Listing
import ContractCompiler.Compile
import ContractCompiler.Console.Command
import ContractCompiler.Console.Entry
import ContractCompiler.Files
import ContractCompiler.Text.Grapheme
import ContractCompiler.Text.Numeral
import ContractCompiler.Text.Style

namespace ContractCompiler

structure Output where
  out : String := ""
  err : String := ""

namespace Output

def append (first second : Output) : Output :=
  ⟨first.out ++ second.out, first.err ++ second.err⟩

def line (text : String) : Output := { out := text ++ "\n" }

def complaint (text : String) : Output := { err := text ++ "\n" }

end Output

def versionText : String := "0.1.0"

/-! ### Tables of tokens -/

namespace Token

def paintKind (token : Token) : String :=
  let name := String.ofList (padRight 8 ' ' token.kind.name.toList)
  match token.kind with
  | .illegal => Style.red.paintBold name
  | .endOfInput => Style.dim.paint name
  | _ => Style.cyan.paint name

def row (token : Token) : String :=
  let place := decimal token.line ++ ":" ++ decimal token.position
  Style.dim.paint (String.ofList (padLeft 8 ' ' place.toList)) ++ "  " ++
    token.paintKind ++ "  " ++ token.literal ++ "\n"

def table (tokens : List Token) : String :=
  String.join (tokens.map row)

end Token

namespace Console

def errorLabel : String := Style.red.paintBold "Error"

/-- A failure to compile: what stands before the first colon is shown bold
and red. -/
def failureText (failure : CompileFailure) : String :=
  let text := failure.message.toList
  let label := text.takeWhile fun character => character != ':'
  let rest := text.dropWhile fun character => character != ':'
  if rest.isEmpty then Style.red.paint (String.ofList label)
  else Style.red.paintBold (String.ofList label) ++ String.ofList rest

/-! ### Reading entries -/

def splitLineEnd (text : List Char) : List Char × List Char :=
  match text.reverse with
  | '\n' :: '\r' :: rest => (rest.reverse, ['\r', '\n'])
  | '\n' :: rest => (rest.reverse, ['\n'])
  | _ => (text, [])

/-- An entry that has to go on, or one that is done. -/
inductive EntryProgress where
  | unfinished (draft : List Char)
  | finished (entry : List Char)

def extendEntry (draft line : List Char) : EntryProgress :=
  let (body, lineEnd) := splitLineEnd (draft ++ line)
  let body := eraseBackspaces body
  if isIncomplete body then .unfinished (body ++ lineEnd)
  else .finished body

/-- An entry is taken as it was typed, without its line end, once it need not
go on. -/
theorem extendEntry_of_finished {draft line entry : List Char}
    (typed : eraseBackspaces (splitLineEnd (draft ++ line)).1 = entry)
    (finished : isIncomplete entry = false) :
    extendEntry draft line = .finished entry := by
  rw [← typed] at finished ⊢
  simp [extendEntry, finished]

/-! ### Answers -/

structure Session where
  config : Config
  format : OutputFormat := .assembly

inductive Reply where
  | shown (session : Session) (output : Output)
  | load (path : String)
  | quit

def banner : Output where
  out :=
    "\n  " ++ Style.white.paintBold "koa contract compiler" ++ " " ++
      Style.dim.paint "v" ++ " " ++ Style.brightYellow.paint versionText ++
      "\n  " ++ Style.dim.paint "Type" ++ " " ++
      Style.cyan.paint ".help" ++ " " ++
      Style.dim.paint "for available commands" ++ "\n\n"

def helpText : String :=
  "\n" ++ Style.white.paintBold "REPL Commands:" ++ "\n\n" ++
    String.join (Command.descriptions.map fun (usage, description) =>
      "  " ++
        Style.cyan.paint
          (String.ofList (padRight 16 ' ' usage.toList)) ++
        " " ++ Style.dim.paint description ++ "\n") ++
    "\n" ++ Style.white.paintBold "Input:" ++ "\n\n  " ++
    Style.dim.paint
      "contract \x7b func f(a int) int \x7b return a \x7d \x7d" ++
    "\n  " ++
    Style.dim.paint "func f(a int) int \x7b return a \x7d" ++ "\n\n"

def missingArgument (command description : String) : Output :=
  .complaint
    (errorLabel ++ ": " ++ Style.cyan.paint command ++ " " ++
      Style.dim.paint description)

variable [IdentifierCharacters]

def compileAndShow (config : Config) (format : OutputFormat)
    (source : String) : Except Output Output :=
  match compile config source with
  | .ok artifact =>
      .ok (.line
        (String.ofList (trimEnd (artifact.display format).toList)))
  | .error failure => .error (.complaint (failureText failure))

namespace Session

def compileEntry (session : Session) (entry : List Char) : Output :=
  match compileAndShow session.config session.format
      (String.ofList (asContract entry)) with
  | .ok output => output
  | .error output => output

def execute (session : Session) (command : Command)
    (argument : Option String) : Reply :=
  match command, argument with
  | .help, _ => .shown session { out := helpText }
  | .exit, _ => .quit
  | .clear, _ => .shown session { out := "\x1b[2J\x1b[H" }
  | .version, _ =>
      .shown session
        (.line (Style.brightCyan.paintBold "koa" ++ ": " ++
          Style.yellow.paint versionText))
  | .load, some path => .load path
  | .load, none =>
      .shown session (missingArgument ".load" "requires a file path")
  | .tokens, some code =>
      .shown session { out := Token.table (tokenize code) }
  | .tokens, none =>
      .shown session (missingArgument ".tokens" "requires some code")
  | .hex, _ =>
      let session := { session with format := session.format.toggle }
      .shown session
        (.line (Style.dim.paint "output:" ++ " " ++ session.format.name))

def reply (session : Session) (entry : List Char) : Reply :=
  let trimmed := trimBlanks entry
  if trimmed.isEmpty then .shown session {}
  else
    match Command.parse trimmed with
    | some (command, argument) => session.execute command argument
    | none => .shown session (session.compileEntry trimmed)

def loaded (session : Session) (path : String) :
    Except FileError String → Output
  | .ok source => session.compileEntry source.toList
  | .error error =>
      .complaint
        (errorLabel ++ ": " ++ Style.cyan.paint path ++ ": " ++
          error.message)

def endOfInput : Output := .line (Style.dim.paint "^D")

def unreadable : Output :=
  .complaint
    (errorLabel ++ ": Io(Error \x7b kind: InvalidData, message: " ++
      "\"stream did not contain valid UTF-8\" \x7d)")

/-- Reads lines to their end.  The lines are texts, or nothing where the
input is no text; files are read from a directory. -/
def run (directory : Directory) (session : Session) (draft : List Char) :
    List (Option String) → Output
  | [] => endOfInput
  | none :: _ => unreadable
  | some line :: rest =>
      match extendEntry draft line.toList with
      | .unfinished draft => run directory session draft rest
      | .finished entry =>
          match session.reply entry with
          | .quit => {}
          | .load path =>
              (session.loaded path (directory.read path)).append
                (run directory session [] rest)
          | .shown session output =>
              output.append (run directory session [] rest)

end Session

end Console

end ContractCompiler
