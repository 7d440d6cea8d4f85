/-
Text as bytes.

Positions in a source text are byte offsets of its UTF-8 form.  A text is
handled as a list of characters, and offsets are measured on it, so an offset
that falls inside a character is a case of its own.
-/

namespace ContractCompiler

def utf8Length (text : List Char) : Nat :=
  text.foldr (fun character length => character.utf8Size + length) 0

def utf8Bytes (text : List Char) : List UInt8 :=
  text.flatMap String.utf8EncodeChar

/-- The text before and behind a byte offset.  There is no such cut inside a
character or past the end. -/
def splitAtByte : List Char → Nat → Option (List Char × List Char)
  | text, 0 => some ([], text)
  | [], _ + 1 => none
  | character :: rest, offset + 1 =>
      if character.utf8Size ≤ offset + 1 then
        (splitAtByte rest (offset + 1 - character.utf8Size)).map
          fun (before, behind) => (character :: before, behind)
      else
        none

@[simp]
theorem utf8Length_nil : utf8Length [] = 0 := rfl

@[simp]
theorem utf8Length_cons (character : Char) (rest : List Char) :
    utf8Length (character :: rest) =
      character.utf8Size + utf8Length rest := rfl

@[simp]
theorem utf8Length_append (left right : List Char) :
    utf8Length (left ++ right) = utf8Length left + utf8Length right := by
  induction left with
  | nil => simp
  | cons character rest inductionHypothesis =>
      rw [List.cons_append, utf8Length_cons, inductionHypothesis,
        utf8Length_cons, Nat.add_assoc]

theorem length_utf8Bytes (text : List Char) :
    (utf8Bytes text).length = utf8Length text := by
  induction text with
  | nil => rfl
  | cons character rest inductionHypothesis =>
      simpa [utf8Bytes] using inductionHypothesis

end ContractCompiler
