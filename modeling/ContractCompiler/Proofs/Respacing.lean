/-
Layout does not change a program.

The literals of a text can be written out again with other blanks around them.
A lexeme never runs into the blank behind it, so the same lexemes come out,
except for a string that is never closed: it takes all that follows, but
nothing follows the last literal.
-/

import ContractCompiler.Proofs.PlaceIndependence
import ContractCompiler.Text.Identifier

namespace ContractCompiler

/-- Pieces in order, with at least one blank between neighbours and nothing
behind the last. -/
inductive Laid : List (List Char) → List Char → Prop where
  | none : Laid [] []
  | last (piece : List Char) : Laid [piece] piece
  | more (piece gap : List Char) {next : List Char}
      {others : List (List Char)} {text : List Char} (wide : gap ≠ [])
      (blank : ∀ character ∈ gap, isBlank character = true)
      (laid : Laid (next :: others) text) :
      Laid (piece :: next :: others) (piece ++ gap ++ text)

/-- A text starts with the first of the pieces that are laid in it. -/
theorem Laid.cons_cases {piece text : List Char}
    {others : List (List Char)} (laid : Laid (piece :: others) text) :
    (others = [] ∧ text = piece) ∨
      ∃ gap rest, others ≠ [] ∧ gap ≠ [] ∧
        (∀ character ∈ gap, isBlank character = true) ∧
        Laid others rest ∧ text = piece ++ (gap ++ rest) := by
  cases laid with
  | last =>
      left
      exact ⟨rfl, rfl⟩
  | @more _ gap next others rest wide blank laid =>
      right
      exact ⟨gap, rest, List.cons_ne_nil _ _, wide, blank, laid,
        List.append_assoc _ _ _⟩

section

variable [IdentifierCharacters]

def literalsOf (source : String) : List (List Char) :=
  ((tokenize source).filter fun token => !token.isEnd).map
    fun token => token.literal.toList

def Respaced (source layout : String) : Prop :=
  ∃ leading text, layout.toList = leading ++ text ∧
    (∀ character ∈ leading, isBlank character = true) ∧
    Laid (literalsOf source) text

private theorem literalsOf_eq (source : String) :
    literalsOf source = (lexemesOf source.toList).map Lexeme.text := by
  have kept : ∀ lexeme ∈ lexemesOf source.toList,
      (!(lexeme.kind == .endOfInput)) = true := by
    intro lexeme member
    simpa using proper_of_mem_lexemesOf member
  have lexemes : ((tokenize source).filter fun token => !token.isEnd).map
      Token.lexeme = lexemesOf source.toList := by
    calc ((tokenize source).filter fun token => !token.isEnd).map
          Token.lexeme
        = ((tokenize source).map Token.lexeme).filter
            fun lexeme => !(lexeme.kind == .endOfInput) := by
          rw [List.filter_map]
          rfl
      _ = lexemesOf source.toList := by
          rw [tokenize, lexemes_tokensFrom, List.filter_append,
            List.filter_eq_self.mpr kept]
          simp
  rw [← lexemes, List.map_map]
  rfl

private theorem Apart.of_blanks {gap : List Char} (wide : gap ≠ [])
    (blank : ∀ character ∈ gap, isBlank character = true)
    (text : List Char) : Apart (gap ++ text) := by
  cases gap with
  | nil =>
      exact absurd rfl wide
  | cons first rest =>
      exact Apart.cons (separates_of_isBlank (blank first (by simp)))

/-- The lexemes of a text are those of every layout of them. -/
theorem lexemesOf_laid (source : List Char) {text : List Char}
    (laid : Laid ((lexemesOf source).map Lexeme.text) text) :
    lexemesOf text = lexemesOf source := by
  fun_induction lexemesOf source generalizing text with
  | case1 source used =>
      cases laid
      exact lexemesOf_nil
  | case2 source first rest found inductionHypothesis =>
      have shown : isBlank first = false := by
        have head := List.head?_dropWhile_not isBlank source
        rw [found] at head
        simpa using head
      rw [List.map_cons] at laid
      rcases laid.cons_cases with
        ⟨none, rfl⟩ | ⟨gap, others, some, wide, blank, inner, rfl⟩
      · -- The last lexeme is read again with nothing behind it.
        have alone : (Lexeme.read first rest).Precedes [] := by
          rcases Lexeme.read_precedes shown rest with
            everywhere | ⟨_, atEnd⟩
          · exact everywhere [] Apart.nil
          · exact atEnd
        have whole := alone.lexemesOf_append
        rw [List.append_nil, lexemesOf_nil] at whole
        rw [whole, List.map_eq_nil_iff.mp none]
      · rcases Lexeme.read_precedes shown rest with
          everywhere | ⟨ended, _⟩
        · have precedes := everywhere (gap ++ others)
            (Apart.of_blanks wide blank others)
          rw [precedes.lexemesOf_append, lexemesOf_blanks blank,
            inductionHypothesis inner]
        · rw [ended, lexemesOf_nil] at some
          exact absurd rfl some

private theorem lexemes_respaced {source layout : String}
    (respaced : Respaced source layout) :
    (tokenize layout).map Token.lexeme =
      (tokenize source).map Token.lexeme := by
  rcases respaced with ⟨leading, text, whole, blank, laid⟩
  rw [literalsOf_eq] at laid
  rw [tokenize, tokenize, lexemes_tokensFrom, lexemes_tokensFrom, whole,
    lexemesOf_blanks blank, lexemesOf_laid _ laid]

/-- Two texts are the same program: they have the same kinds and literals, and
compile to the same artifact or fail with the same error, places apart. -/
structure SameProgram (first second : String) : Prop where
  tokens :
    ((tokenize first).map fun token => (token.kind, token.literal)) =
      (tokenize second).map fun token => (token.kind, token.literal)
  compiled : ∀ config,
    (compile config first).mapError CompileFailure.unplaced =
      (compile config second).mapError CompileFailure.unplaced
  messages : ∀ config error other,
    compile config first = .error (.syntactic error) →
      compile config second = .error (.syntactic other) →
        error.cause.message = other.cause.message

theorem layout_preserves_program {source layout : String}
    (respaced : Respaced source layout) : SameProgram layout source := by
  have lexemes := lexemes_respaced respaced
  constructor
  · have spelled : (fun token : Token => (token.kind, token.literal)) =
        (fun lexeme => (lexeme.kind, String.ofList lexeme.text)) ∘
          Token.lexeme := by
      funext token
      simp [Token.lexeme]
    rw [spelled, ← List.map_map, lexemes, List.map_map]
  · intro config
    exact compile_alike config lexemes
  · intro config error other failed failedToo
    have same := compile_alike config lexemes
    rw [failed, failedToo] at same
    have causes : error.cause.unplaced = other.cause.unplaced := by
      injection same with same
      injection same with same
      exact congrArg SyntaxError.cause same
    rw [← error.cause.message_unplaced, causes, other.cause.message_unplaced]

end

/-- Two operators touch, and a string is never closed. -/
def crowdedSource : String :=
  "contract\x7bx<=-\"a b"

def spreadSource : String :=
  "\n contract\t\x7b\u3000x \n<= - \"a b"

open IdentifierTables

theorem layout_preserves_crowded :
    Respaced crowdedSource spreadSource ∧
      SameProgram spreadSource crowdedSource := by
  have literals : literalsOf crowdedSource =
      ["contract".toList, ['\x7b'], ['x'], ['<', '='], ['-'],
        "\"a b".toList] := by
    decide +kernel
  have blank : isBlank '\n' = true ∧ isBlank ' ' = true ∧
      isBlank '\t' = true ∧ isBlank '\u3000' = true := by
    simp [isBlank, blankTable, CodePoints.contains, CodePoints.covers]
  have laid : Laid (literalsOf crowdedSource)
      ("contract".toList ++ ['\t'] ++ (['\x7b'] ++ ['\u3000'] ++
        (['x'] ++ [' ', '\n'] ++ (['<', '='] ++ [' '] ++
          (['-'] ++ [' '] ++ "\"a b".toList))))) := by
    rw [literals]
    apply Laid.more _ _ (by simp) (by simp [blank])
    apply Laid.more _ _ (by simp) (by simp [blank])
    apply Laid.more _ _ (by simp) (by simp [blank])
    apply Laid.more _ _ (by simp) (by simp [blank])
    apply Laid.more _ _ (by simp) (by simp [blank])
    exact Laid.last _
  have respaced : Respaced crowdedSource spreadSource :=
    ⟨['\n', ' '], _, by decide +kernel, by simp [blank], laid⟩
  exact ⟨respaced, layout_preserves_program respaced⟩

end ContractCompiler
