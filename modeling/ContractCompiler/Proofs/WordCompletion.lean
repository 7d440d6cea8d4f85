/-
Which words are completed.

The word at the cursor is the longest end of the text before it that is made
of characters of words.  It is found from the start of the character in front
of it, one byte further on.  So the word is cut out wherever that character is
one byte wide or there is none, and everywhere else the cut falls inside the
character and nothing is offered.
-/

import Mathlib.Data.List.Induction
import ContractCompiler.Console.Completion
import ContractCompiler.Proofs.Tiling

namespace ContractCompiler

private theorem utf8Length_reverse (text : List Char) :
    utf8Length text.reverse = utf8Length text := by
  induction text with
  | nil =>
      rfl
  | cons character rest inductionHypothesis =>
      rw [List.reverse_cons, utf8Length_append, inductionHypothesis,
        utf8Length_cons, utf8Length_cons, utf8Length_nil, Nat.add_zero,
        Nat.add_comm]

/-- There is no cut between the bytes of a character. -/
theorem splitAtByte_inside {front rest : List Char} {character : Char}
    {offset : Nat} (behind : utf8Length front < offset)
    (before : offset < utf8Length front + character.utf8Size) :
    splitAtByte (front ++ character :: rest) offset = none := by
  rw [Option.eq_none_iff_forall_ne_some]
  rintro ⟨left, right⟩ cut
  obtain ⟨pieces, length⟩ := splitAtByte_eq_some_iff.mp cut
  rcases List.append_eq_append_iff.mp pieces with
    ⟨between, rfl, others⟩ | ⟨between, rfl, others⟩
  · -- The cut lies behind `front`, and so behind the whole character.
    rw [utf8Length_append] at length
    cases between with
    | nil =>
        rw [utf8Length_nil] at length
        omega
    | cons first inner =>
        cases others
        rw [utf8Length_cons] at length
        omega
  · rw [utf8Length_append] at behind
    omega

namespace Console

/-! ### The word at the end of a text -/

/-- A word ends a text, and every longer end of the text holds a character
that is no part of a word. -/
structure EndsIn (text word : List Char) : Prop where
  suffix : word <:+ text
  parts : ∀ character ∈ word, isWordPart character = true
  longest : ∀ other, other <:+ text →
    (∀ character ∈ other, isWordPart character = true) →
      other.length ≤ word.length

def Narrow (text word : List Char) : Prop :=
  ∀ front separator, text = front ++ separator :: word →
    separator.utf8Size = 1

inductive Parted : List Char → List Char → Prop where
  | whole {word : List Char}
      (parts : ∀ character ∈ word, isWordPart character = true) :
      Parted word word
  | behind {front word : List Char} {separator : Char}
      (parts : ∀ character ∈ word, isWordPart character = true)
      (separates : isWordPart separator = false) :
      Parted (front ++ separator :: word) word

namespace Parted

variable {text word : List Char}

private theorem concat {character : Char} (parted : Parted text word)
    (part : isWordPart character = true) :
    Parted (text ++ [character]) (word ++ [character]) := by
  cases parted with
  | whole parts =>
      apply Parted.whole
      rw [List.forall_mem_append, List.forall_mem_singleton]
      exact ⟨parts, part⟩
  | behind parts separates =>
      rw [List.append_assoc, List.cons_append]
      apply Parted.behind _ separates
      rw [List.forall_mem_append, List.forall_mem_singleton]
      exact ⟨parts, part⟩

private theorem exists_word (text : List Char) : ∃ word, Parted text word := by
  induction text using List.reverseRecOn with
  | nil =>
      exact ⟨[], .whole (List.forall_mem_nil _)⟩
  | append_singleton text character inductionHypothesis =>
      cases part : isWordPart character with
      | true =>
          obtain ⟨word, parted⟩ := inductionHypothesis
          exact ⟨word ++ [character], parted.concat part⟩
      | false =>
          exact ⟨[], .behind (List.forall_mem_nil _) part⟩

private theorem endsIn (parted : Parted text word) : EndsIn text word := by
  cases parted with
  | whole parts =>
      exact ⟨List.suffix_refl _, parts, fun other ends _ => ends.length_le⟩
  | @behind front word separator parts separates =>
      have ended : separator :: word <:+ front ++ separator :: word :=
        List.suffix_append _ _
      refine ⟨(List.suffix_cons _ _).trans ended, parts, ?_⟩
      intro other ends partsToo
      by_contra longer
      have reaches : separator :: word <:+ other := by
        apply List.suffix_of_suffix_length_le ended ends
        rw [List.length_cons]
        omega
      have part := partsToo separator (reaches.subset List.mem_cons_self)
      rw [separates] at part
      cases part

private theorem narrow_behind {front : List Char} {separator : Char} :
    Narrow (front ++ separator :: word) word ↔ separator.utf8Size = 1 := by
  constructor
  · intro narrow
    exact narrow front separator rfl
  · intro width other character same
    obtain ⟨rfl, others⟩ := List.append_inj' same rfl
    cases others
    exact width

private theorem narrow_whole (word : List Char) : Narrow word word := by
  intro front separator same
  have length := congrArg List.length same
  rw [List.length_append, List.length_cons] at length
  omega

private theorem wordStart_whole
    (parts : ∀ character ∈ word, isWordPart character = true) :
    wordStart word = 0 := by
  have none : word.reverse.dropWhile isWordPart = [] := by
    rw [List.dropWhile_eq_nil_iff]
    intro character member
    exact parts character (List.mem_reverse.mp member)
  rw [wordStart, none]

private theorem wordStart_behind {front : List Char} {separator : Char}
    (parts : ∀ character ∈ word, isWordPart character = true)
    (separates : isWordPart separator = false) :
    wordStart (front ++ separator :: word) = utf8Length front + 1 := by
  have rest : (front ++ separator :: word).reverse.dropWhile isWordPart =
      separator :: front.reverse := by
    rw [List.reverse_append, List.reverse_cons, List.append_assoc,
      List.dropWhile_append_of_pos, List.singleton_append,
      List.dropWhile_cons_of_neg]
    · rw [separates]
      exact Bool.false_ne_true
    · intro character member
      exact parts character (List.mem_reverse.mp member)
  rw [wordStart, rest]
  simp only [utf8Length_reverse]

/-- The last word is cut out exactly where the character in front of it is
narrow. -/
theorem lastWord_of_narrow (parted : Parted text word)
    (narrow : Narrow text word) : lastWord text = .ok word := by
  cases parted with
  | whole parts =>
      have cut : splitAtByte text 0 = some ([], text) :=
        splitAtByte_eq_some_iff.mpr ⟨rfl, rfl⟩
      rw [lastWord, wordStart_whole parts, cutAt, cut]
      rfl
  | @behind front word separator parts separates =>
      have width := narrow_behind.mp narrow
      have cut : splitAtByte (front ++ separator :: word)
          (utf8Length front + 1) = some (front ++ [separator], word) := by
        rw [splitAtByte_eq_some_iff, utf8Length_append, utf8Length_cons,
          width, List.append_assoc]
        exact ⟨rfl, rfl⟩
      rw [lastWord, wordStart_behind parts separates, cutAt, cut]
      rfl

private theorem lastWord_of_wide (parted : Parted text word)
    (wide : ¬ Narrow text word) :
    lastWord text = .error ⟨wordStart text⟩ := by
  cases parted with
  | whole parts =>
      exact absurd (narrow_whole text) wide
  | @behind front word separator parts separates =>
      rw [narrow_behind] at wide
      have positive := separator.utf8Size_pos
      have inside : splitAtByte (front ++ separator :: word)
          (utf8Length front + 1) = none :=
        splitAtByte_inside (by omega) (by omega)
      rw [lastWord, wordStart_behind parts separates, cutAt, inside]
      rfl

private theorem eq_of_lastWord (parted : Parted text word) {start : List Char}
    (found : lastWord text = .ok start) : start = word := by
  by_cases narrow : Narrow text word
  · rw [parted.lastWord_of_narrow narrow] at found
    cases found
    rfl
  · rw [parted.lastWord_of_wide narrow] at found
    cases found

private theorem exists_lastWord (parted : Parted text word) :
    (∃ start, lastWord text = .ok start) ↔ Narrow text word := by
  constructor
  · rintro ⟨start, found⟩
    by_contra wide
    rw [parted.lastWord_of_wide wide] at found
    cases found
  · intro narrow
    exact ⟨word, parted.lastWord_of_narrow narrow⟩

end Parted

/-! ### What is offered -/

private theorem map_eq_ok {ε α β : Type} {outcome : Except ε α}
    {change : α → β} {value : β} :
    outcome.map change = .ok value ↔
      ∃ found, outcome = .ok found ∧ change found = value := by
  cases outcome <;> simp [Except.map]

private theorem exists_map_eq_ok {ε α β : Type} {outcome : Except ε α}
    {change : α → β} :
    (∃ value, outcome.map change = .ok value) ↔
      ∃ found, outcome = .ok found := by
  cases outcome <;> simp [Except.map]

private theorem missing_eq_some {start : List Char} {word rest : String} :
    missing? start word = some rest ↔
      word.toList = start ++ rest.toList := by
  unfold missing?
  constructor
  · intro found
    split at found
    next starts =>
      cases found
      obtain ⟨others, same⟩ := List.isPrefixOf_iff_prefix.mp starts
      rw [← same, List.drop_left, String.toList_ofList]
    next => cases found
  · intro same
    have starts : start.isPrefixOf word.toList = true := by
      rw [List.isPrefixOf_iff_prefix, same]
      exact List.prefix_append _ _
    rw [if_pos starts, same, List.drop_left, String.ofList_toList]

def offers (start : List Char) : List Candidate :=
  if start.isEmpty then []
  else
    vocabulary.filterMap fun word =>
      (missing? start word).map fun rest => ⟨word, rest⟩

def preview (start : List Char) : Option String :=
  if utf8Length start < 2 then none
  else
    vocabulary.findSome? fun word =>
      match missing? start word with
      | some rest =>
          if rest.isEmpty then none else some (Style.dim.paint rest)
      | none => none

private theorem mem_offers {start : List Char} {candidate : Candidate} :
    candidate ∈ offers start ↔
      start ≠ [] ∧ candidate.word ∈ vocabulary ∧
        candidate.word.toList = start ++ candidate.rest.toList := by
  unfold offers
  cases start with
  | nil =>
      simp
  | cons first others =>
      simp only [List.isEmpty_cons, Bool.false_eq_true, if_false,
        List.mem_filterMap, Option.map_eq_some_iff, missing_eq_some]
      constructor
      · rintro ⟨word, listed, rest, same, rfl⟩
        exact ⟨List.cons_ne_nil _ _, listed, same⟩
      · rintro ⟨_, listed, same⟩
        exact ⟨candidate.word, listed, candidate.rest, same, rfl⟩

private theorem preview_eq_some {start : List Char} {text : String}
    (shown : preview start = some text) :
    2 ≤ utf8Length start ∧ ∃ word ∈ vocabulary, ∃ rest : String,
      word.toList = start ++ rest.toList ∧ rest ≠ "" ∧
        text = Style.dim.paint rest := by
  unfold preview at shown
  split at shown
  next => cases shown
  next enough =>
    refine ⟨Nat.le_of_not_lt enough, ?_⟩
    obtain ⟨word, listed, found⟩ := List.exists_of_findSome?_eq_some shown
    refine ⟨word, listed, ?_⟩
    split at found
    next rest continued =>
      split at found
      next => cases found
      next filled =>
        cases found
        refine ⟨rest, missing_eq_some.mp continued, ?_, rfl⟩
        rintro rfl
        exact filled rfl
    next => cases found

theorem complete_append (before after : List Char) :
    complete (before ++ after) (utf8Length before) =
      (lastWord before).map offers := by
  have cut : splitAtByte (before ++ after) (utf8Length before) =
      some (before, after) := splitAtByte_eq_some_iff.mpr ⟨rfl, rfl⟩
  rw [complete, cutAt, cut]
  simp only [bind, Except.bind]
  cases lastWord before with
  | error misplaced => rfl
  | ok start => cases start <;> rfl

theorem hint_append (before after : List Char) :
    hint (before ++ after) (utf8Length before) =
      if after = [] then (lastWord before).map preview
      else .ok none := by
  unfold hint
  by_cases last : after = []
  · rw [if_pos last, last, List.append_nil, if_neg (Nat.lt_irrefl _)]
    cases lastWord before with
    | error misplaced => rfl
    | ok start =>
        unfold preview
        by_cases few : utf8Length start < 2
        · simp only [bind, Except.bind, if_pos few, Except.map]
          rfl
        · simp only [bind, Except.bind, if_neg few, Except.map]
          rfl
  · have more : utf8Length before < utf8Length (before ++ after) := by
      rw [utf8Length_append]
      have filled : utf8Length after ≠ 0 :=
        fun empty => last (utf8Length_eq_zero empty)
      omega
    rw [if_pos more, if_neg last]

/-- The word at a cursor is completed exactly when the character in front of it
is one byte wide or there is none; a hint needs that at the end of a line only.
What is offered are the known words that start like it, each with what is
missing. -/
theorem completion_behind_narrow (before after : List Char) :
    ∃ word, EndsIn before word ∧
      ((∃ candidates, complete (before ++ after) (utf8Length before) =
        .ok candidates) ↔ Narrow before word) ∧
      ((∃ shown, hint (before ++ after) (utf8Length before) =
        .ok shown) ↔ after ≠ [] ∨ Narrow before word) ∧
      (∀ candidates, complete (before ++ after) (utf8Length before) =
          .ok candidates →
        ∀ candidate, candidate ∈ candidates ↔
          word ≠ [] ∧ candidate.word ∈ vocabulary ∧
            candidate.word.toList = word ++ candidate.rest.toList) ∧
      ∀ text, hint (before ++ after) (utf8Length before) =
          .ok (some text) →
        after = [] ∧ 2 ≤ utf8Length word ∧
          ∃ whole ∈ vocabulary, ∃ rest : String,
            whole.toList = word ++ rest.toList ∧ rest ≠ "" ∧
              text = Style.dim.paint rest := by
  obtain ⟨word, parted⟩ := Parted.exists_word before
  refine ⟨word, parted.endsIn, ?_, ?_, ?_, ?_⟩
  · rw [complete_append, exists_map_eq_ok]
    exact parted.exists_lastWord
  · rw [hint_append]
    by_cases last : after = []
    · rw [if_pos last, exists_map_eq_ok, parted.exists_lastWord]
      exact ⟨Or.inr, fun either => either.resolve_left (absurd last)⟩
    · rw [if_neg last]
      exact ⟨fun _ => Or.inl last, fun _ => ⟨none, rfl⟩⟩
  · intro candidates completed candidate
    rw [complete_append] at completed
    obtain ⟨start, found, rfl⟩ := map_eq_ok.mp completed
    rw [parted.eq_of_lastWord found]
    exact mem_offers
  · intro text shown
    rw [hint_append] at shown
    split at shown
    next last =>
      obtain ⟨start, found, previewed⟩ := map_eq_ok.mp shown
      rw [parted.eq_of_lastWord found] at previewed
      exact ⟨last, preview_eq_some previewed⟩
    next => cases shown

/-- Behind a blank the start of a keyword is completed, whatever wide
characters stand further in front. -/
theorem completion_behind_blank :
    complete ['→', ' ', 'c', 'o'] 6 = .ok [⟨"contract", "ntract"⟩] ∧
      ∃ word, EndsIn ['→', ' ', 'c', 'o'] word ∧
        Narrow ['→', ' ', 'c', 'o'] word := by
  have completed : complete ['→', ' ', 'c', 'o'] 6 =
      .ok [⟨"contract", "ntract"⟩] := by
    decide +kernel
  obtain ⟨word, ends, completes, _⟩ :=
    completion_behind_narrow ['→', ' ', 'c', 'o'] []
  exact ⟨completed, word, ends, completes.mp ⟨_, completed⟩⟩

/-- Right behind an arrow the cut falls inside it, so that neither a word nor a
hint comes back at the end of the line. -/
theorem completion_inside_arrow :
    utf8Length ['→', 'c', 'o'] = 5 ∧
      complete ['→', 'c', 'o'] 5 = .error ⟨1⟩ ∧
      hint ['→', 'c', 'o'] 5 = .error ⟨1⟩ := by
  refine ⟨?_, ?_, ?_⟩ <;> decide +kernel

end Console

end ContractCompiler
