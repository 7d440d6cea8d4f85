/-
Cutting a source text into tokens.

Blanks are skipped, then the longest lexeme at the front is cut off, until
the text is used up.  The last token is the end of the input.
-/

import ContractCompiler.Text.Character
import ContractCompiler.Text.Bytes
import ContractCompiler.Token.Lexeme

namespace ContractCompiler

/-- A place in a source text: the byte offset, and the line counted from
one. -/
structure Place where
  position : Nat
  line : Nat
  deriving DecidableEq, Repr

namespace Place

def start : Place := ⟨0, 1⟩

def past (place : Place) (text : List Char) : Place :=
  ⟨place.position + utf8Length text, place.line + text.count '\n'⟩

theorem past_nil (place : Place) : place.past [] = place := by
  simp [past]

theorem past_append (place : Place) (left right : List Char) :
    place.past (left ++ right) = (place.past left).past right := by
  simp [past, Nat.add_assoc]

end Place

def Lexeme.token (lexeme : Lexeme) (place : Place) : Token :=
  ⟨lexeme.kind, String.ofList lexeme.text, place.position, place.line⟩

theorem length_dropWhile_le {α : Type} (skipped : α → Bool)
    (items : List α) :
    (items.dropWhile skipped).length ≤ items.length :=
  (List.dropWhile_sublist skipped).length_le

variable [IdentifierCharacters]

theorem Lexeme.length_behind_read_lt (first : Char) (rest : List Char) :
    ((read first rest).behind (first :: rest)).length <
      (first :: rest).length := by
  have spelled : 0 < (read first rest).text.length :=
    List.length_pos_of_mem (List.mem_of_head? (head?_read first rest))
  rw [Lexeme.behind, List.length_drop, List.length_cons]
  omega

/-- Cutting off the lexeme that follows the blanks shortens a text. -/
theorem Lexeme.length_behind_lt {text : List Char} {first : Char}
    {rest : List Char} (found : text.dropWhile isBlank = first :: rest) :
    ((read first rest).behind (first :: rest)).length < text.length := by
  have shorter := length_dropWhile_le isBlank text
  rw [found] at shorter
  exact Nat.lt_of_lt_of_le (length_behind_read_lt first rest) shorter

def tokensFrom (place : Place) (text : List Char) : List Token :=
  let blanks := text.takeWhile isBlank
  let here := place.past blanks
  match _ : text.dropWhile isBlank with
  | [] => [Token.endOfInput here.position here.line]
  | first :: rest =>
      let lexeme := Lexeme.read first rest
      lexeme.token here ::
        tokensFrom (here.past lexeme.text) (lexeme.behind (first :: rest))
termination_by text.length
decreasing_by exact Lexeme.length_behind_lt (by assumption)

/-- The tokens of a source text, the end of the input included. -/
def tokenize (source : String) : List Token :=
  tokensFrom .start source.toList

end ContractCompiler
