/-
Commands of the console.

A command is a line that starts with a dot.  Its name is compared without
regard to case, and the rest of the line is its argument.
-/

import ContractCompiler.Text.Character

namespace ContractCompiler

namespace Console

inductive Command where
  | help
  | exit
  | clear
  | version
  | load
  | tokens
  | hex
  deriving DecidableEq, Repr

namespace Command

def names : List (String × Command) :=
  [("help", help), ("h", help), ("?", help),
   ("exit", exit), ("quit", exit), ("q", exit),
   ("clear", clear), ("cls", clear),
   ("version", version), ("v", version),
   ("load", load), ("l", load),
   ("tokens", tokens), ("t", tokens),
   ("hex", hex)]

def descriptions : List (String × String) :=
  [(".help", "Show this help message"),
   (".exit", "Exit the REPL"),
   (".clear", "Clear the screen"),
   (".version", "Show version information"),
   (".load <file>", "Compile a contract file"),
   (".tokens <code>", "Show the tokens of some code"),
   (".hex", "Toggle between disassembly and hex output")]

/-- The lower case of a character of a name.  Names are ASCII, so only the
characters that have an ASCII lower case matter: the capitals and the Kelvin
sign. -/
def lower (character : Char) : Char :=
  if 'A' ≤ character && character ≤ 'Z' then
    Char.ofNat (character.toNat + 32)
  else if character.toNat = 0x212A then 'k'
  else character

def parse (line : List Char) : Option (Command × Option String) :=
  match trimBlanks line with
  | '.' :: rest =>
      let word := rest.takeWhile fun character => !isBlank character
      let argument :=
        trimBlanks
          ((rest.dropWhile fun character => !isBlank character).drop 1)
      (names.lookup (String.ofList (word.map lower))).map fun command =>
        (command,
          if argument.isEmpty then none
          else some (String.ofList argument))
  | _ => none

end Command

end Console

end ContractCompiler
