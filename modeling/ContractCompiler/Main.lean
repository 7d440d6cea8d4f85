/-
The command line program.

Files and standard input are read here; all that is decided about them is
decided by the pure part.
-/

import ContractCompiler.Program
import ContractCompiler.Text.Identifier

namespace ContractCompiler

open IdentifierTables

namespace Program

/-- The number of a system error, which some calls give with a sign. -/
def systemCode (code : UInt32) : Nat :=
  if code.toNat < 0x80000000 then code.toNat
  else 0x100000000 - code.toNat

def fileErrorOf (error : IO.Error) : FileError :=
  match error with
  | .noFileOrDirectory .. => .notFound
  | .permissionDenied .. => .permissionDenied
  | .inappropriateType _ code _ =>
      if systemCode code = 20 then .notADirectory else .isADirectory
  | .invalidArgument _ code _ =>
      if systemCode code = 36 then .nameTooLong
      else .other error.toString
  | _ => .other error.toString

def readFile (path : String) : IO (Except FileError String) := do
  if path.toList.contains '\x00' then
    return .error .nameHoldsNull
  else
    try
      let bytes ← IO.FS.readBinFile path
      match String.fromUTF8? bytes with
      | some source => return .ok source
      | none => return .error .notText
    catch error =>
      return .error (fileErrorOf error)

def write (output : Output) : IO Unit := do
  let out ← IO.getStdout
  out.putStr output.out
  out.flush
  (← IO.getStderr).putStr output.err

/-- Reads the bytes of a line with its end. -/
partial def readLine (input : IO.FS.Stream) (line : ByteArray) :
    IO ByteArray := do
  let next ← input.read 1
  if next.isEmpty then
    return line
  else
    let line := line ++ next
    if next.data.contains 10 then return line else readLine input line

/-- Answers lines until the input or the session ends. -/
partial def converse (input : IO.FS.Stream) (session : Console.Session)
    (draft : List Char) : IO Unit := do
  let line ← readLine input ByteArray.empty
  if line.isEmpty then
    write Console.Session.endOfInput
  else
    match String.fromUTF8? line with
    | none => write Console.Session.unreadable
    | some line =>
        match Console.extendEntry draft line.toList with
        | .unfinished draft => converse input session draft
        | .finished entry =>
            match session.reply entry with
            | .quit => return
            | .load path =>
                write (session.loaded path (← readFile path))
                converse input session []
            | .shown session output =>
                write output
                converse input session []

def perform : Task → IO Outcome
  | .done outcome => return outcome
  | .compileFile path config format =>
      return finishCompile path config format (← readFile path)
  | .listTokens path => return finishTokens path (← readFile path)
  | .session config => do
      write Console.banner
      converse (← IO.getStdin) { config := config } []
      return ⟨0, .line ""⟩

def start (arguments : List String) : IO UInt32 := do
  let environmentLog ← IO.getEnv "KOA_LOG"
  let outcome ← perform (plan environmentLog arguments)
  write outcome.output
  return UInt32.ofNat outcome.code

end Program

end ContractCompiler

def main (arguments : List String) : IO UInt32 :=
  ContractCompiler.Program.start arguments
