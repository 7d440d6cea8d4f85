/-
Reading the tokens of a source text one by one.

A reader hands out the tokens of its text in order.  Past the end it repeats
the end of the input for as long as it is asked.  The same reader can be
drawn as a finite sequence, which stops behind the end of the input; the end
of the sequence is remembered apart from the end of the text.
-/

import ContractCompiler.Token.Tokenize

namespace ContractCompiler

variable [IdentifierCharacters]

class TokenSource (σ : Type) where
  next : σ → Token × σ

/-- A list of tokens, followed by the end of the input at position zero of
line zero. -/
instance : TokenSource (List Token) where
  next
    | [] => (Token.endOfInput 0 0, [])
    | token :: rest => (token, rest)

/-- A reader: the tokens that are still to come, the end of the input once it
was handed out, whether the sequence has stopped, and the place behind the
last token. -/
structure TokenReader where
  upcoming : List Token
  ended : Option Token := none
  stopped : Bool := false
  last : Place := .start

namespace TokenReader

def ofSource (source : String) : TokenReader :=
  { upcoming := tokenize source }

def receive (reader : TokenReader) (token : Token) (rest : List Token) :
    Token × TokenReader :=
  (token,
    { reader with
      upcoming := rest
      ended := if token.isEnd then some token else reader.ended
      last :=
        ⟨token.position + utf8Length token.literal.toList, token.line⟩ })

/-- The next token.  Should no token be left before an end of the input was
seen, one is made up behind the last token. -/
def next (reader : TokenReader) : Token × TokenReader :=
  match reader.ended with
  | some ending => (ending, reader)
  | none =>
      match reader.upcoming with
      | token :: rest => reader.receive token rest
      | [] =>
          reader.receive
            (Token.endOfInput reader.last.position reader.last.line) []

/-- The next item of the sequence, which stops behind the end of the
input. -/
def item (reader : TokenReader) : Option Token × TokenReader :=
  if reader.stopped then (none, reader)
  else
    let (token, reader) := reader.next
    (some token, { reader with stopped := token.isEnd })

/-- Every item that is left, given a number that is at least that of the
tokens to come. -/
def itemsUpTo : Nat → TokenReader → List Token
  | 0, _ => []
  | count + 1, reader =>
      match reader.item with
      | (none, _) => []
      | (some token, reader) => token :: itemsUpTo count reader

def items (reader : TokenReader) : List Token :=
  itemsUpTo (reader.upcoming.length + 1) reader

def describe (reader : TokenReader) : String :=
  "Lexer \x7b finished: " ++
    (if reader.ended.isSome then "true" else "false") ++ " \x7d"

instance : TokenSource TokenReader where
  next := TokenReader.next

end TokenReader

end ContractCompiler
