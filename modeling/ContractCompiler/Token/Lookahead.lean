/-
Looking ahead in a source of tokens.

Tokens are drawn only when they are asked for.  Once the source has given an
end of the input, it is not drawn from again, and that token is repeated.
-/

import ContractCompiler.Token.Reader

namespace ContractCompiler

/-- A source of tokens with the tokens that were drawn but not yet consumed,
and the end of the input once it was drawn. -/
structure Lookahead (σ : Type) where
  source : σ
  drawn : List Token := []
  ended : Option Token := none

namespace Lookahead

variable {σ : Type} [TokenSource σ]

def ofSource (source : σ) : Lookahead σ :=
  { source := source }

def draw (buffer : Lookahead σ) : Token × Lookahead σ :=
  match buffer.ended with
  | some ending => (ending, buffer)
  | none =>
      let (token, source) := TokenSource.next buffer.source
      (token,
        { buffer with
          source := source
          ended := if token.isEnd then some token else none })

def fill : Nat → Lookahead σ → Lookahead σ
  | 0, buffer => buffer
  | count + 1, buffer =>
      let (token, buffer) := buffer.draw
      fill count { buffer with drawn := buffer.drawn ++ [token] }

/-- The token `distance` places ahead; the current one is zero places
ahead. -/
def ahead (buffer : Lookahead σ) (distance : Nat) : Token × Lookahead σ :=
  let buffer := fill (distance + 1 - buffer.drawn.length) buffer
  (buffer.drawn.getD distance (Token.endOfInput 0 0), buffer)

def current (buffer : Lookahead σ) : Token × Lookahead σ :=
  buffer.ahead 0

def peek (buffer : Lookahead σ) : Token × Lookahead σ :=
  buffer.ahead 1

def next (buffer : Lookahead σ) : Token × Lookahead σ :=
  match buffer.drawn with
  | token :: rest => (token, { buffer with drawn := rest })
  | [] => buffer.draw

end Lookahead

end ContractCompiler
