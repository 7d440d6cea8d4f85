/-
Scanning in steps.

A scanner keeps a window of characters that it has read but not yet cut.  It
is always in one of five modes; a step in a mode reads some characters, hands
out at most one token, and names the mode of the next step.  Tokens are
handed to a consumer that may refuse further ones, which ends the run.
-/

import ContractCompiler.Token.Tokenize

namespace ContractCompiler

variable [IdentifierCharacters]

/-- A scanner: the characters of the open window, the place where the window
starts, and the characters still unread. -/
structure Scanner where
  window : List Char
  start : Place
  unread : List Char

namespace Scanner

def ofText (text : List Char) : Scanner :=
  ⟨[], .start, text⟩

def place (scanner : Scanner) : Place :=
  scanner.start.past scanner.window

def take (scanner : Scanner) (count : Nat) : Scanner :=
  { scanner with
    window := scanner.window ++ scanner.unread.take count
    unread := scanner.unread.drop count }

def discard (scanner : Scanner) : Scanner :=
  ⟨[], scanner.place, scanner.unread⟩

def cut (scanner : Scanner) (kind : TokenKind) : Token × Scanner :=
  (⟨kind, String.ofList scanner.window, scanner.start.position,
      scanner.start.line⟩, scanner.discard)

inductive Mode where
  | start
  | number
  | quoted
  | word
  | operator
  deriving DecidableEq, Repr

/-- The result of a step: a token if one was cut, the mode to go on with if
there is more to do, and the scanner behind the step. -/
structure Step where
  token : Option Token
  next : Option Mode
  scanner : Scanner

def emit (scanner : Scanner) (lexeme : Lexeme) : Step :=
  let (token, scanner) := (scanner.take lexeme.text.length).cut lexeme.kind
  ⟨some token, some .start, scanner⟩

def Mode.of (first : Char) : Mode :=
  if isDigit first then .number
  else if first == '"' then .quoted
  else if isIdentifierStart first then .word
  else .operator

/-- One step in a mode.  The start mode skips blanks and only looks at the
next character.  The other modes read what the text starts with, whatever it
is; at the end of the text they cut an empty token, except for operators. -/
def step (scanner : Scanner) : Mode → Step
  | .start =>
      let blanks := scanner.unread.takeWhile isBlank
      let scanner := (scanner.take blanks.length).discard
      match scanner.unread with
      | [] =>
          let (token, scanner) := scanner.cut .endOfInput
          ⟨some token, none, scanner⟩
      | first :: _ => ⟨none, some (.of first), scanner⟩
  | .number => scanner.emit (Lexeme.number scanner.unread)
  | .quoted => scanner.emit (Lexeme.quoted scanner.unread)
  | .word => scanner.emit (Lexeme.word scanner.unread)
  | .operator =>
      match scanner.unread with
      | [] => ⟨none, some .start, scanner⟩
      | first :: rest => scanner.emit (Lexeme.operator first rest)

/-- Takes at most `steps` steps and lists the tokens handed out.  After each
token the consumer is asked whether it goes on, given how many tokens it
holds then. -/
def run (accepts : Nat → Bool) :
    (steps : Nat) → Option Mode → (held : Nat) → Scanner → List Token
  | 0, _, _, _ => []
  | _ + 1, none, _, _ => []
  | steps + 1, some mode, held, scanner =>
      let result := scanner.step mode
      match result.token with
      | none => run accepts steps result.next held result.scanner
      | some token =>
          token ::
            if accepts (held + 1) then
              run accepts steps result.next (held + 1) result.scanner
            else
              []

/-- A number of steps that is enough for a text: one step in the start mode
before each lexeme and one to read it, and one at the end. -/
def stepBound (text : List Char) : Nat :=
  2 * text.length + 1

def tokens (accepts : Nat → Bool) (source : String) : List Token :=
  run accepts (stepBound source.toList) (some .start) 0
    (ofText source.toList)

end Scanner

end ContractCompiler
