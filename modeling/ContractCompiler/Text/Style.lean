/-
Colours and weights of text on a terminal.

A style puts one control sequence before a text and one behind it.  Styles
nest: the outer one is applied last.
-/

namespace ContractCompiler

inductive Style where
  | red
  | green
  | yellow
  | blue
  | magenta
  | cyan
  | white
  | brightYellow
  | brightCyan
  | bold
  | dim
  deriving DecidableEq, Repr

namespace Style

def onCode : Style → String
  | red => "31"
  | green => "32"
  | yellow => "33"
  | blue => "34"
  | magenta => "35"
  | cyan => "36"
  | white => "37"
  | brightYellow => "93"
  | brightCyan => "96"
  | bold => "1"
  | dim => "2"

/-- The number that switches a style off: colours return to the default one,
and weights reset everything. -/
def offCode : Style → String
  | bold => "0"
  | dim => "0"
  | _ => "39"

def sequence (code : String) : String :=
  "\x1b[" ++ code ++ "m"

def paint (style : Style) (text : String) : String :=
  sequence style.onCode ++ text ++ sequence style.offCode

def paintBold (color : Style) (text : String) : String :=
  bold.paint (color.paint text)

end Style

end ContractCompiler
