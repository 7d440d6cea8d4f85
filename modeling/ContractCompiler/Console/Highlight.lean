/-
Colouring a line on the console.

Runs of alphanumeric characters and underscores are words.  Keywords, truth
values and numbers have colours, and so have brackets, operators and quotes.
Dots are coloured on lines that start with one.
-/

import ContractCompiler.Console.Completion
import ContractCompiler.Text.Numeral

namespace ContractCompiler

namespace Console

def highlightWord (word : List Char) : String :=
  let text := String.ofList word
  if keywords.contains text then Style.magenta.paintBold text
  else if literals.contains text then Style.blue.paint text
  else if word.all isDigit then Style.yellow.paint text
  else text

def highlightSymbol (dotted : Bool) (character : Char) : String :=
  let text := String.ofList [character]
  if "()\x7b\x7d".toList.contains character then Style.yellow.paint text
  else if "+-*/%=<>!&|".toList.contains character then
    Style.cyan.paint text
  else if character == '"' then Style.green.paint text
  else if character == '.' && dotted then Style.magenta.paint text
  else text

/-- The pieces of a line, given the word that is open before it. -/
def highlightPieces (dotted : Bool) :
    (word : List Char) → List Char → List String
  | [], [] => []
  | word, [] => [highlightWord word]
  | word, character :: rest =>
      if isAlphanumeric character || character == '_' then
        highlightPieces dotted (word ++ [character]) rest
      else
        (if word.isEmpty then [] else [highlightWord word]) ++
          highlightSymbol dotted character ::
            highlightPieces dotted [] rest

def highlight (line : List Char) : String :=
  String.join (highlightPieces (line.head? == some '.') [] line)

end Console

end ContractCompiler
