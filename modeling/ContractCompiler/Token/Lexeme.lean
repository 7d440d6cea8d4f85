/-
Lexemes: the first token's spelling at the front of a text.

A lexeme is a run of digits, a quoted string, a word, or an operator.  A
string may run over line ends, and a backslash in it takes the next character
along, so an escaped quote does not close it.  A string that is never closed
takes the whole rest of the text and is illegal, as is any character that
starts nothing else.
-/

import ContractCompiler.Text.Character
import ContractCompiler.Text.Numeral
import ContractCompiler.Token

namespace ContractCompiler

structure Lexeme where
  kind : TokenKind
  text : List Char

namespace Lexeme

/-- The spelling of a string behind its opening quote, up to and including
the closing one. -/
def stringTail : List Char → Option (List Char)
  | [] => none
  | '"' :: _ => some ['"']
  | '\\' :: [] => none
  | '\\' :: escaped :: rest =>
      (stringTail rest).map fun tail => '\\' :: escaped :: tail
  | character :: rest =>
      (stringTail rest).map fun tail => character :: tail

def pairKind? : Char → Char → Option TokenKind
  | '=', '=' => some .equal
  | '!', '=' => some .notEqual
  | '<', '=' => some .lessEqual
  | '>', '=' => some .greaterEqual
  | '&', '&' => some .logicalAnd
  | '|', '|' => some .logicalOr
  | _, _ => none

/-- The operators and delimiters of one character.  All other characters are
illegal on their own. -/
def singleKind : Char → TokenKind
  | '=' => .assign
  | '+' => .plus
  | '-' => .minus
  | '!' => .bang
  | '*' => .star
  | '/' => .slash
  | '%' => .percent
  | '<' => .less
  | '>' => .greater
  | ',' => .comma
  | '(' => .leftParen
  | ')' => .rightParen
  | '\x7b' => .leftBrace
  | '\x7d' => .rightBrace
  | _ => .illegal

/-- The digits at the front of a text, which may be none. -/
def number (text : List Char) : Lexeme :=
  ⟨.integer, text.takeWhile isDigit⟩

theorem number_of_digit {first : Char} (digit : isDigit first = true)
    (rest : List Char) :
    number (first :: rest) =
      ⟨.integer, first :: rest.takeWhile isDigit⟩ := by
  rw [number, List.takeWhile_cons_of_pos digit]

def quoted : List Char → Lexeme
  | [] => ⟨.illegal, []⟩
  | quote :: rest =>
      match stringTail rest with
      | some tail => ⟨.text, quote :: tail⟩
      | none => ⟨.illegal, quote :: rest⟩

def wordKind (spelling : List Char) : TokenKind :=
  (TokenKind.keyword? (String.ofList spelling)).getD .identifier

variable [IdentifierCharacters]

def word : List Char → Lexeme
  | [] => ⟨wordKind [], []⟩
  | first :: rest =>
      let spelling := first :: rest.takeWhile isIdentifierPart
      ⟨wordKind spelling, spelling⟩

/-- An operator; two characters are preferred to one. -/
def operator (first : Char) : List Char → Lexeme
  | [] => ⟨singleKind first, [first]⟩
  | second :: _ =>
      match pairKind? first second with
      | some kind => ⟨kind, [first, second]⟩
      | none => ⟨singleKind first, [first]⟩

def read (first : Char) (rest : List Char) : Lexeme :=
  if isDigit first then number (first :: rest)
  else if first == '"' then quoted (first :: rest)
  else if isIdentifierStart first then word (first :: rest)
  else operator first rest

def behind (lexeme : Lexeme) (text : List Char) : List Char :=
  text.drop lexeme.text.length

/-- Each way of reading takes at least the character that it was chosen
for. -/
theorem head?_read (first : Char) (rest : List Char) :
    (read first rest).text.head? = some first := by
  unfold read
  split
  · next digit => rw [number_of_digit digit, List.head?_cons]
  · split
    · rw [quoted]
      split <;> rfl
    · split
      · rfl
      · cases rest with
        | nil =>
            rfl
        | cons second rest =>
            rw [operator]
            split <;> rfl

end Lexeme

end ContractCompiler
