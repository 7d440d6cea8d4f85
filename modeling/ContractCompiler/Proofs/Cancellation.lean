/-
Runs of the scanner that are called off.

A run calls one mode after another until a mode names no successor or the
consumer refuses a token.  Every mode but the start mode reads a character, and
the start mode is never followed by itself.  So a run is over after at most two
calls for each character and one more, and what it has handed out by then are
the first tokens of the text.
-/

import ContractCompiler.Proofs.Scanning
import ContractCompiler.Text.Identifier

namespace ContractCompiler

namespace Scanner

/-! ### Calls -/

structure Call where
  mode : Mode
  scanner : Scanner

section

variable [IdentifierCharacters]

def Call.Reads (call : Call) : Prop :=
  (call.scanner.step call.mode).scanner.unread.length <
    call.scanner.unread.length

/-- The calls of a run from a mode on, and the tokens that they hand out.  The
consumer answers each token, and the first refusal ends the run. -/
inductive Trace (accepts : Nat → Bool) : Option Mode → Nat → Scanner →
    List Call → List Token → Prop where
  | ended {held : Nat} {scanner : Scanner} :
      Trace accepts none held scanner [] []
  | moved {mode : Mode} {next : Option Mode} {held : Nat}
      {scanner behind : Scanner} {calls : List Call} {tokens : List Token}
      (stepped : scanner.step mode = ⟨none, next, behind⟩)
      (rest : Trace accepts next held behind calls tokens) :
      Trace accepts (some mode) held scanner (⟨mode, scanner⟩ :: calls)
        tokens
  | taken {mode : Mode} {next : Option Mode} {held : Nat}
      {scanner behind : Scanner} {calls : List Call} {token : Token}
      {tokens : List Token}
      (stepped : scanner.step mode = ⟨some token, next, behind⟩)
      (answer : accepts (held + 1) = true)
      (rest : Trace accepts next (held + 1) behind calls tokens) :
      Trace accepts (some mode) held scanner (⟨mode, scanner⟩ :: calls)
        (token :: tokens)
  | refused {mode : Mode} {next : Option Mode} {held : Nat}
      {scanner behind : Scanner} {token : Token}
      (stepped : scanner.step mode = ⟨some token, next, behind⟩)
      (answer : accepts (held + 1) = false) :
      Trace accepts (some mode) held scanner [⟨mode, scanner⟩] [token]

namespace Trace

variable {accepts : Nat → Bool} {mode : Option Mode} {held : Nat}
  {scanner : Scanner} {calls others : List Call} {tokens emitted : List Token}

private theorem unique (trace : Trace accepts mode held scanner calls tokens)
    (other : Trace accepts mode held scanner others emitted) :
    others = calls ∧ emitted = tokens := by
  induction trace generalizing others emitted with
  | ended =>
      cases other
      exact ⟨rfl, rfl⟩
  | moved stepped rest inductionHypothesis =>
      cases other with
      | moved steppedToo restToo =>
          cases stepped.symm.trans steppedToo
          obtain ⟨rfl, rfl⟩ := inductionHypothesis restToo
          exact ⟨rfl, rfl⟩
      | taken steppedToo => cases stepped.symm.trans steppedToo
      | refused steppedToo => cases stepped.symm.trans steppedToo
  | taken stepped answer rest inductionHypothesis =>
      cases other with
      | moved steppedToo => cases stepped.symm.trans steppedToo
      | taken steppedToo answerToo restToo =>
          cases stepped.symm.trans steppedToo
          obtain ⟨rfl, rfl⟩ := inductionHypothesis restToo
          exact ⟨rfl, rfl⟩
      | refused steppedToo answerToo => cases answer.symm.trans answerToo
  | refused stepped answer =>
      cases other with
      | moved steppedToo => cases stepped.symm.trans steppedToo
      | taken steppedToo answerToo => cases answer.symm.trans answerToo
      | refused steppedToo =>
          cases stepped.symm.trans steppedToo
          exact ⟨rfl, rfl⟩

/-- As many steps as there are calls make the whole run. -/
theorem run_eq (trace : Trace accepts mode held scanner calls tokens)
    {steps : Nat} (enough : calls.length ≤ steps) :
    run accepts steps mode held scanner = tokens := by
  induction trace generalizing steps with
  | ended =>
      exact run_none accepts steps _ _
  | moved stepped rest inductionHypothesis =>
      cases steps with
      | zero => cases enough
      | succ steps =>
          rw [run_of_move stepped]
          exact inductionHypothesis (Nat.le_of_succ_le_succ enough)
  | taken stepped answer rest inductionHypothesis =>
      cases steps with
      | zero => cases enough
      | succ steps =>
          rw [run_of_token stepped, if_pos answer,
            inductionHypothesis (Nat.le_of_succ_le_succ enough)]
  | refused stepped answer =>
      cases steps with
      | zero => cases enough
      | succ steps =>
          rw [run_of_token stepped, answer]
          rfl

end Trace

/-! ### Runs over a text -/

/-- The mode of a character reads at least that character. -/
theorem reads_of_first (place : Place) (first : Char) (rest : List Char) :
    Call.Reads ⟨.of first, ⟨[], place, first :: rest⟩⟩ := by
  rw [Call.Reads, step_of_first, emit_read]
  exact Lexeme.length_behind_read_lt first rest

/-- A run over a text ends, with two calls for each lexeme and one more. -/
theorem exists_trace (accepts : Nat → Bool) (place : Place)
    (text : List Char) (held : Nat) :
    ∃ calls, Trace accepts (some .start) held ⟨[], place, text⟩ calls
        (accepted accepts held (tokensFrom place text)) ∧
      calls.length ≤ stepBound text ∧
      ∀ call ∈ calls, call.mode ≠ .start → call.Reads := by
  fun_induction tokensFrom place text generalizing held with
  | case1 place text blanks here used =>
      obtain ⟨behind, stepped⟩ := @step_start_of_used place text _ used
      refine ⟨[⟨.start, ⟨[], place, text⟩⟩], ?_, ?_, ?_⟩
      · cases answer : accepts (held + 1) with
        | false =>
            rw [accepted, answer]
            exact .refused stepped answer
        | true =>
            rw [accepted, answer]
            exact .taken stepped answer .ended
      · exact Nat.le_add_left _ _
      · intro call member started
        rw [List.mem_singleton.mp member] at started
        exact absurd rfl started
  | case2 place text blanks here first rest found lexeme
      inductionHypothesis =>
      have shorter : (lexeme.behind (first :: rest)).length < text.length :=
        Lexeme.length_behind_lt found
      have cut := (step_of_first here first rest).trans
        (emit_read here first rest)
      obtain ⟨calls, trace, bounded, progress⟩ :=
        inductionHypothesis (held + 1)
      -- A refusal of this lexeme's token leaves the two calls alone.
      cases answer : accepts (held + 1) with
      | false =>
          refine ⟨[⟨.start, ⟨[], place, text⟩⟩,
            ⟨.of first, ⟨[], here, first :: rest⟩⟩], ?_, ?_, ?_⟩
          · rw [accepted, answer]
            exact .moved (step_start_of_found found) (.refused cut answer)
          · unfold stepBound
            simp only [List.length_cons, List.length_nil]
            omega
          · intro call member started
            rcases List.mem_cons.mp member with rfl | member
            · exact absurd rfl started
            · rw [List.mem_singleton.mp member]
              exact reads_of_first here first rest
      | true =>
          refine ⟨⟨.start, ⟨[], place, text⟩⟩ ::
            ⟨.of first, ⟨[], here, first :: rest⟩⟩ :: calls, ?_, ?_, ?_⟩
          · rw [accepted, answer]
            exact .moved (step_start_of_found found)
              (.taken cut answer trace)
          · unfold stepBound at bounded ⊢
            simp only [List.length_cons]
            omega
          · intro call member started
            rcases List.mem_cons.mp member with rfl | member
            · exact absurd rfl started
            · rcases List.mem_cons.mp member with rfl | member
              · exact reads_of_first here first rest
              · exact progress call member started

end

/-! ### Refusals -/

def RefusesFirst (accepts : Nat → Bool) : Option Nat → Prop
  | none => ∀ number, 0 < number → accepts number = true
  | some limit =>
      0 < limit ∧
        (∀ number, 0 < number → number < limit → accepts number = true) ∧
        accepts limit = false

variable {accepts : Nat → Bool}

private theorem accepted_of_none (first : RefusesFirst accepts none)
    (held : Nat) (tokens : List Token) :
    accepted accepts held tokens = tokens := by
  induction tokens generalizing held with
  | nil =>
      rfl
  | cons token rest inductionHypothesis =>
      rw [accepted, if_pos (first (held + 1) (Nat.succ_pos held)),
        inductionHypothesis]

private theorem accepted_of_some {limit : Nat}
    (first : RefusesFirst accepts (some limit)) {held : Nat}
    (before : held < limit) (tokens : List Token) :
    accepted accepts held tokens = tokens.take (limit - held) := by
  obtain ⟨_, accepting, refusing⟩ := first
  induction tokens generalizing held with
  | nil =>
      rw [accepted, List.take_nil]
  | cons token rest inductionHypothesis =>
      obtain ⟨left, same⟩ : ∃ left, limit - held = left + 1 :=
        ⟨limit - held - 1, by omega⟩
      rw [accepted, same, List.take_succ_cons]
      by_cases last : held + 1 = limit
      · have none : left = 0 := by omega
        rw [last, refusing, none, List.take_zero]
        rfl
      · have inside : held + 1 < limit := by omega
        have fewer : limit - (held + 1) = left := by omega
        rw [if_pos (accepting _ (Nat.succ_pos held) inside),
          inductionHypothesis inside, fewer]

def upTo (tokens : List Token) : Option Nat → List Token
  | none => tokens
  | some limit => tokens.take limit

private theorem accepted_eq_upTo {refusal : Option Nat}
    (first : RefusesFirst accepts refusal) (tokens : List Token) :
    accepted accepts 0 tokens = upTo tokens refusal := by
  cases refusal with
  | none => exact accepted_of_none first 0 tokens
  | some limit => exact accepted_of_some first first.1 tokens

section

variable [IdentifierCharacters]

/-- Whenever the consumer refuses a token, the run over a text has come to an
end after at most two calls for each character and one more, and has handed out
the tokens up to the refused one.  Every call of a mode other than the start
mode reads a character. -/
theorem run_ends_at_refusal {refusal : Option Nat}
    (first : RefusesFirst accepts refusal) (source : String) :
    ∃ calls,
      Trace accepts (some .start) 0 (ofText source.toList) calls
        (tokens accepts source) ∧
      (∀ others emitted,
        Trace accepts (some .start) 0 (ofText source.toList) others
            emitted →
          others = calls ∧ emitted = tokens accepts source) ∧
      tokens accepts source = upTo (tokenize source) refusal ∧
      calls.length ≤ 2 * source.length + 1 ∧
      ∀ call ∈ calls, call.mode ≠ .start → call.Reads := by
  obtain ⟨calls, trace, bounded, progress⟩ :=
    exists_trace accepts .start source.toList 0
  have whole : tokens accepts source =
      accepted accepts 0 (tokenize source) := trace.run_eq bounded
  have same : accepted accepts 0 (tokensFrom .start source.toList) =
      tokens accepts source := whole.symm
  rw [same] at trace
  refine ⟨calls, trace, ?_, ?_, ?_, progress⟩
  · intro others emitted other
    exact trace.unique other
  · rw [whole, accepted_eq_upTo first]
  · rw [stepBound, String.length_toList] at bounded
    exact bounded

end

open IdentifierTables

/-- A consumer that refuses its second token gets a word and the number behind
it, and nothing of what follows. -/
theorem run_ends_at_number :
    RefusesFirst (fun number => decide (number < 2)) (some 2) ∧
      ∃ calls,
        Trace (fun number => decide (number < 2)) (some .start) 0
          (ofText "a 1 # b".toList) calls
          [⟨.identifier, "a", 0, 1⟩, ⟨.integer, "1", 2, 1⟩] ∧
        calls.length ≤ 15 := by
  have first : RefusesFirst (fun number => decide (number < 2))
      (some 2) := by
    refine ⟨by decide, ?_, by decide⟩
    intro number _ below
    exact decide_eq_true below
  refine ⟨first, ?_⟩
  obtain ⟨calls, trace, _, emitted, bounded, _⟩ :=
    run_ends_at_refusal first "a 1 # b"
  have two : upTo (tokenize "a 1 # b") (some 2) =
      [⟨.identifier, "a", 0, 1⟩, ⟨.integer, "1", 2, 1⟩] := by
    decide +kernel
  rw [emitted, two] at trace
  exact ⟨calls, trace, bounded⟩

end Scanner

end ContractCompiler
