/-
Classes of characters.

A set of characters is a table of closed intervals of code points in
increasing order.  Membership is decided by one walk that stops as soon as an
interval starts behind the character.

Blanks are the characters with the property `White_Space`.  They separate
tokens, and they are what trimming removes from the ends of a line.

Which characters identifiers are made of is settled outside of the language.
The language itself relies on a few facts about them, which are part of the
class `IdentifierCharacters`.
-/

namespace ContractCompiler

abbrev CodePoints := List (Nat × Nat)

namespace CodePoints

def covers : CodePoints → Nat → Bool
  | [], _ => false
  | (first, last) :: rest, code =>
      if code < first then false
      else if code ≤ last then true
      else covers rest code

def contains (table : CodePoints) (character : Char) : Bool :=
  table.covers character.toNat

theorem exists_of_contains {table : CodePoints} {character : Char}
    (inside : table.contains character = true) :
    ∃ interval ∈ table, interval.1 ≤ character.toNat ∧
      character.toNat ≤ interval.2 := by
  induction table with
  | nil =>
      cases inside
  | cons interval rest inductionHypothesis =>
      unfold contains covers at inside
      split at inside
      · cases inside
      · split at inside
        · exact ⟨interval, List.mem_cons_self, by omega, by omega⟩
        · rcases inductionHypothesis inside with ⟨found, member, bounds⟩
          exact ⟨found, List.mem_cons_of_mem _ member, bounds⟩

/-- A property of the characters of a table is checked code point by code
point. -/
theorem holds_of_checked {table : CodePoints} (property : Char → Bool)
    (checked : (table.all fun interval =>
      (List.range' interval.1 (interval.2 + 1 - interval.1)).all fun code =>
        property (Char.ofNat code)) = true)
    {character : Char} (inside : table.contains character = true) :
    property character = true := by
  rcases exists_of_contains inside with ⟨interval, member, low, high⟩
  rw [List.all_eq_true] at checked
  have codes := checked interval member
  rw [List.all_eq_true] at codes
  have found := codes character.toNat (by
    rw [List.mem_range'_1]
    omega)
  rw [Char.ofNat_toNat] at found
  exact found

end CodePoints

theorem holds_of_ascii (property : Char → Bool)
    (checked : ((List.range 0x80).all fun code =>
      property (Char.ofNat code)) = true)
    (character : Char) (ascii : character.toNat < 0x80) :
    property character = true := by
  have found := List.all_eq_true.mp checked character.toNat
    (List.mem_range.mpr ascii)
  rwa [Char.ofNat_toNat] at found

/-! ### Blanks -/

def blankTable : CodePoints :=
  [(0x9, 0xD), (0x20, 0x20), (0x85, 0x85), (0xA0, 0xA0), (0x1680, 0x1680),
   (0x2000, 0x200A), (0x2028, 0x2029), (0x202F, 0x202F), (0x205F, 0x205F),
   (0x3000, 0x3000)]

def isBlank (character : Char) : Bool :=
  blankTable.contains character

def trimStart (text : List Char) : List Char :=
  text.dropWhile isBlank

def trimEnd (text : List Char) : List Char :=
  (text.reverse.dropWhile isBlank).reverse

def trimBlanks (text : List Char) : List Char :=
  trimEnd (trimStart text)

/-! ### Identifiers -/

/-- The characters of identifiers: those that may start one, and those that
may stand behind its first one.  Among the characters of ASCII these are the
letters, and the letters, digits and the underscore; no blank is among
them. -/
class IdentifierCharacters where
  starts : Char → Bool
  continues : Char → Bool
  starts_ascii : ∀ character : Char, character.toNat < 0x80 →
    starts character = character.isAlpha
  continues_ascii : ∀ character : Char, character.toNat < 0x80 →
    continues character = (character.isAlphanum || character == '_')
  continues_of_starts : ∀ character, starts character = true →
    continues character = true
  not_continues_of_blank : ∀ character, isBlank character = true →
    continues character = false

theorem not_isAlphanum_of_isBlank (character : Char)
    (blank : isBlank character = true) :
    (character.isAlphanum || character == '_') = false := by
  have checked := CodePoints.holds_of_checked
    (fun character => !(character.isAlphanum || character == '_'))
    (by decide +kernel) blank
  rwa [Bool.not_eq_true'] at checked

theorem isAlphanum_of_isAlpha (character : Char)
    (letter : character.isAlpha = true) :
    (character.isAlphanum || character == '_') = true := by
  rw [Char.isAlphanum, letter, Bool.true_or, Bool.true_or]

abbrev asciiIdentifiers : IdentifierCharacters where
  starts := Char.isAlpha
  continues character := character.isAlphanum || character == '_'
  starts_ascii _ _ := rfl
  continues_ascii _ _ := rfl
  continues_of_starts := isAlphanum_of_isAlpha
  not_continues_of_blank := not_isAlphanum_of_isBlank

section

variable [IdentifierCharacters]

def isIdentifierStart (character : Char) : Bool :=
  character == '_' || IdentifierCharacters.starts character

def isIdentifierPart (character : Char) : Bool :=
  character == '_' || IdentifierCharacters.continues character

theorem isIdentifierPart_of_start {character : Char}
    (starts : isIdentifierStart character = true) :
    isIdentifierPart character = true := by
  rcases Bool.or_eq_true_iff.mp starts with underscore | starts
  · rw [isIdentifierPart, underscore, Bool.true_or]
  · rw [isIdentifierPart,
      IdentifierCharacters.continues_of_starts character starts,
      Bool.or_true]

theorem isIdentifierStart_of_ascii {character : Char}
    (ascii : character.toNat < 0x80) :
    isIdentifierStart character =
      @isIdentifierStart asciiIdentifiers character := by
  rw [isIdentifierStart, IdentifierCharacters.starts_ascii character ascii]
  rfl

theorem isIdentifierPart_of_ascii {character : Char}
    (ascii : character.toNat < 0x80) :
    isIdentifierPart character =
      @isIdentifierPart asciiIdentifiers character := by
  rw [isIdentifierPart,
    IdentifierCharacters.continues_ascii character ascii]
  rfl

theorem not_isIdentifierPart_of_isBlank {character : Char}
    (blank : isBlank character = true) :
    isIdentifierPart character = false := by
  have other : (character == '_') = false := by
    rw [beq_eq_false_iff_ne]
    rintro rfl
    exact Bool.noConfusion blank
  rw [isIdentifierPart, other,
    IdentifierCharacters.not_continues_of_blank character blank,
    Bool.or_false]

end

end ContractCompiler
