/-
Completing words on the console.

The word at the cursor starts one byte behind the start of the last
character that cannot be part of a word.  Offsets count bytes, so behind a
wider character the start of the word falls inside that character, and no
word can be cut out there.
-/

import ContractCompiler.Console.Command
import ContractCompiler.Text.Alphanumeric
import ContractCompiler.Text.Bytes
import ContractCompiler.Text.Style

namespace ContractCompiler

namespace Console

def keywords : List String :=
  ["contract", "func", "if", "else", "return", "int", "string", "bool"]

def literals : List String :=
  ["true", "false"]

def vocabulary : List String :=
  keywords ++ literals ++
    Command.descriptions.map fun (usage, _) =>
      String.ofList (usage.toList.takeWhile fun character =>
        character != ' ')

def isWordPart (character : Char) : Bool :=
  isAlphanumeric character || character == '_' || character == '.'

/-- The byte offset at which the last word of a line starts. -/
def wordStart (line : List Char) : Nat :=
  match line.reverse.dropWhile isWordPart with
  | [] => 0
  | _ :: before => utf8Length before + 1

/-- A byte offset inside a character or past the end. -/
structure MisplacedOffset where
  offset : Nat
  deriving DecidableEq, Repr

def cutAt (text : List Char) (offset : Nat) :
    Except MisplacedOffset (List Char × List Char) :=
  match splitAtByte text offset with
  | some parts => .ok parts
  | none => .error ⟨offset⟩

def lastWord (line : List Char) : Except MisplacedOffset (List Char) := do
  let (_, word) ← cutAt line (wordStart line)
  return word

def missing? (start : List Char) (word : String) : Option String :=
  if start.isPrefixOf word.toList then
    some (String.ofList (word.toList.drop start.length))
  else
    none

structure Candidate where
  word : String
  rest : String
  deriving DecidableEq, Repr

def complete (line : List Char) (offset : Nat) :
    Except MisplacedOffset (List Candidate) := do
  let (before, _) ← cutAt line offset
  let start ← lastWord before
  if start.isEmpty then
    return []
  else
    return vocabulary.filterMap fun word =>
      (missing? start word).map fun rest => ⟨word, rest⟩

/-- What is missing of the first longer word that starts like the last word
of a line, if that has at least two bytes and the cursor is at the end. -/
def hint (line : List Char) (offset : Nat) :
    Except MisplacedOffset (Option String) :=
  if offset < utf8Length line then .ok none
  else do
    let start ← lastWord line
    if utf8Length start < 2 then
      return none
    else
      return vocabulary.findSome? fun word =>
        match missing? start word with
        | some rest =>
            if rest.isEmpty then none else some (Style.dim.paint rest)
        | none => none

end Console

end ContractCompiler
