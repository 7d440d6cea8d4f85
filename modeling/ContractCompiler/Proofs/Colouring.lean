/-
Colouring a line changes none of its characters.

A line falls into words, each as long as it can be, and single characters
between them.  Colouring goes over the line once and keeps the word that is
open, so what it puts out are these segments in their order, each in its
colour.  Without the colours they make up the line.
-/

import ContractCompiler.Console.Highlight
import ContractCompiler.Proofs.Unstyled

namespace ContractCompiler

namespace Console

/-! ### The segments of a line -/

/-- A word of a line, or a character outside of its words. -/
inductive Segment where
  | word (characters : List Char)
  | symbol (character : Char)

namespace Segment

def text : Segment → List Char
  | .word characters => characters
  | .symbol character => [character]

def coloured (dotted : Bool) : Segment → String
  | .word characters => highlightWord characters
  | .symbol character => highlightSymbol dotted character

end Segment

def isWordLetter (character : Char) : Bool :=
  isAlphanumeric character || character == '_'

/-- A line falls into segments.  Behind a word comes another character or the
end, so no word could be longer. -/
inductive Segmented : List Char → List Segment → Prop where
  | nil : Segmented [] []
  | word {characters : List Char} (nonempty : characters ≠ [])
      (letters : ∀ character ∈ characters, isWordLetter character = true) :
      Segmented characters [.word characters]
  | symbol {character : Char} {line : List Char} {segments : List Segment}
      (separates : isWordLetter character = false)
      (rest : Segmented line segments) :
      Segmented (character :: line) (.symbol character :: segments)
  | wordSymbol {characters : List Char} {character : Char}
      {line : List Char} {segments : List Segment}
      (nonempty : characters ≠ [])
      (letters : ∀ character ∈ characters, isWordLetter character = true)
      (separates : isWordLetter character = false)
      (rest : Segmented line segments) :
      Segmented (characters ++ character :: line)
        (.word characters :: .symbol character :: segments)

private theorem Segmented.text_eq {line : List Char} {segments : List Segment}
    (segmented : Segmented line segments) :
    segments.flatMap Segment.text = line := by
  induction segmented with
  | nil =>
      rfl
  | word nonempty letters =>
      exact List.append_nil _
  | symbol separates rest inductionHypothesis =>
      rw [List.flatMap_cons, inductionHypothesis]
      rfl
  | wordSymbol nonempty letters separates rest inductionHypothesis =>
      rw [List.flatMap_cons, List.flatMap_cons, inductionHypothesis]
      rfl

/-- The pieces put out behind an open word are the segments of that word and
the line, in their colours. -/
theorem highlightPieces_segmented (dotted : Bool) (word line : List Char)
    (letters : ∀ character ∈ word, isWordLetter character = true) :
    ∃ segments, Segmented (word ++ line) segments ∧
      highlightPieces dotted word line =
        segments.map (Segment.coloured dotted) := by
  fun_induction highlightPieces dotted word line with
  | case1 =>
      exact ⟨[], .nil, rfl⟩
  | case2 word nonempty =>
      rw [List.append_nil]
      exact ⟨[.word word], .word (fun empty => nonempty empty) letters, rfl⟩
  | case3 word character rest letter inductionHypothesis =>
      have longer : ∀ other ∈ word ++ [character],
          isWordLetter other = true := by
        intro other member
        rcases List.mem_append.mp member with before | last
        · exact letters other before
        · rw [List.mem_singleton.mp last]
          exact letter
      obtain ⟨segments, segmented, pieces⟩ := inductionHypothesis longer
      rw [List.append_assoc] at segmented
      exact ⟨segments, segmented, pieces⟩
  | case4 word character rest other inductionHypothesis =>
      have separates : isWordLetter character = false :=
        Bool.eq_false_iff.mpr other
      obtain ⟨segments, segmented, pieces⟩ :=
        inductionHypothesis (List.forall_mem_nil _)
      rw [pieces]
      cases word with
      | nil =>
          exact ⟨.symbol character :: segments,
            .symbol separates segmented, rfl⟩
      | cons first others =>
          exact ⟨.word (first :: others) :: .symbol character :: segments,
            .wordSymbol (List.cons_ne_nil _ _) letters separates segmented,
            rfl⟩

/-! ### Colours add no text -/

private theorem shows_ite {condition : Prop} [Decidable condition]
    {first second plain : String} (shown : Shows first plain)
    (otherwise : Shows second plain) :
    Shows (if condition then first else second) plain := by
  split
  · exact shown
  · exact otherwise

private theorem shows_highlightWord {word : List Char}
    (clean : '\x1b' ∉ word) :
    Shows (highlightWord word) (String.ofList word) := by
  have plain : Shows (String.ofList word) (String.ofList word) :=
    .of_clean (by rw [String.toList_ofList]; exact clean)
  apply shows_ite (plain.paintBold .magenta)
  apply shows_ite (plain.paint .blue)
  exact shows_ite (plain.paint .yellow) plain

private theorem shows_highlightSymbol {dotted : Bool} {character : Char}
    (clean : '\x1b' ∉ [character]) :
    Shows (highlightSymbol dotted character)
      (String.ofList [character]) := by
  have plain : Shows (String.ofList [character])
      (String.ofList [character]) :=
    .of_clean (by rw [String.toList_ofList]; exact clean)
  apply shows_ite (plain.paint .yellow)
  apply shows_ite (plain.paint .cyan)
  apply shows_ite (plain.paint .green)
  exact shows_ite (plain.paint .magenta) plain

private theorem Segment.shows_coloured {dotted : Bool} {segment : Segment}
    (clean : '\x1b' ∉ segment.text) :
    Shows (segment.coloured dotted) (String.ofList segment.text) := by
  cases segment with
  | word characters => exact shows_highlightWord clean
  | symbol character => exact shows_highlightSymbol clean

private theorem shows_segments {dotted : Bool} {segments : List Segment}
    (clean : '\x1b' ∉ segments.flatMap Segment.text) :
    Shows (String.join (segments.map (Segment.coloured dotted)))
      (String.ofList (segments.flatMap Segment.text)) := by
  induction segments with
  | nil =>
      exact .empty
  | cons segment rest inductionHypothesis =>
      rw [List.flatMap_cons, List.mem_append, not_or] at clean
      rw [List.map_cons, String.join_cons, List.flatMap_cons,
        String.ofList_append]
      exact (Segment.shows_coloured clean.1).append
        (inductionHypothesis clean.2)

/-- A coloured line without its control sequences is the line, when that has
no escape character of its own.  What is coloured are its words and the single
characters between them. -/
theorem highlight_keeps_text (line : List Char) (clean : '\x1b' ∉ line) :
    unstyled (highlight line) = String.ofList line ∧
      ∃ segments, Segmented line segments ∧
        highlight line = String.join
          (segments.map (Segment.coloured (line.head? == some '.'))) := by
  obtain ⟨segments, segmented, pieces⟩ :=
    highlightPieces_segmented (line.head? == some '.') [] line
      (List.forall_mem_nil _)
  have joined : highlight line = String.join
      (segments.map (Segment.coloured (line.head? == some '.'))) := by
    rw [highlight, pieces]
  have text : segments.flatMap Segment.text = line := segmented.text_eq
  refine ⟨?_, segments, segmented, joined⟩
  rw [← text] at clean
  rw [joined, (shows_segments clean).unstyled_eq, text]

/-- Words next to symbols and to the end of the line, one of them coloured by
two nested styles. -/
theorem highlight_keeps_branch :
    '\x1b' ∉ ".x if(a_1<20)".toList ∧
      unstyled (highlight ".x if(a_1<20)".toList) = ".x if(a_1<20)" ∧
      highlight "if(1".toList =
        "\x1b[1m\x1b[35mif\x1b[39m\x1b[0m\x1b[33m(\x1b[39m\x1b[33m1\x1b[39m" :=
  ⟨by decide, (highlight_keeps_text ".x if(a_1<20)".toList (by decide)).1,
    by decide +kernel⟩

end Console

end ContractCompiler
