/-
Scanning in steps cuts a text into its tokens.

A step in the start mode finds the next lexeme and a step in the mode of that
lexeme cuts it off.  So two steps hand out one token of the text, and the
steps that are allowed are enough for all of them.
-/

import ContractCompiler.Proofs.Lexemes
import ContractCompiler.Token.Scanner

namespace ContractCompiler

namespace Scanner

def accepted (accepts : Nat → Bool) : Nat → List Token → List Token
  | _, [] => []
  | held, token :: rest =>
      token ::
        if accepts (held + 1) then accepted accepts (held + 1) rest else []

private theorem accepted_all (held : Nat) (tokens : List Token) :
    accepted (fun _ => true) held tokens = tokens := by
  induction tokens generalizing held with
  | nil =>
      rfl
  | cons token rest inductionHypothesis =>
      simp only [accepted, if_true, inductionHypothesis]

/-! ### One step -/

variable {place : Place} {text : List Char}

/-- Taking as many characters as a piece in front has takes that piece. -/
theorem take_front {front back : List Char} (pieces : front ++ back = text) :
    (⟨[], place, text⟩ : Scanner).take front.length =
      ⟨front, place, back⟩ := by
  rw [← pieces, take, List.take_left, List.drop_left, List.nil_append]

private theorem skip_blanks (place : Place) (text : List Char) :
    ((⟨[], place, text⟩ : Scanner).take
        (text.takeWhile isBlank).length).discard =
      ⟨[], place.past (text.takeWhile isBlank),
        text.dropWhile isBlank⟩ := by
  rw [take_front List.takeWhile_append_dropWhile]
  rfl

variable [IdentifierCharacters]

theorem step_start_of_used (used : text.dropWhile isBlank = []) :
    ∃ behind, (⟨[], place, text⟩ : Scanner).step .start =
      ⟨some (Token.endOfInput
          (place.past (text.takeWhile isBlank)).position
          (place.past (text.takeWhile isBlank)).line), none, behind⟩ := by
  simp only [step, skip_blanks, used]
  exact ⟨_, rfl⟩

theorem step_start_of_found {first : Char} {rest : List Char}
    (found : text.dropWhile isBlank = first :: rest) :
    (⟨[], place, text⟩ : Scanner).step .start =
      ⟨none, some (.of first),
        ⟨[], place.past (text.takeWhile isBlank), first :: rest⟩⟩ := by
  simp only [step, skip_blanks, found]

theorem emit_read (place : Place) (first : Char) (rest : List Char) :
    (⟨[], place, first :: rest⟩ : Scanner).emit (Lexeme.read first rest) =
      ⟨some ((Lexeme.read first rest).token place), some .start,
        ⟨[], place.past (Lexeme.read first rest).text,
          (Lexeme.read first rest).behind (first :: rest)⟩⟩ := by
  rw [emit, take_front (Lexeme.text_append_behind first rest)]
  rfl

/-- The mode of a character reads the lexeme that starts with it. -/
theorem step_of_first (place : Place) (first : Char) (rest : List Char) :
    (⟨[], place, first :: rest⟩ : Scanner).step (.of first) =
      (⟨[], place, first :: rest⟩ : Scanner).emit
        (Lexeme.read first rest) := by
  unfold Mode.of Lexeme.read
  split
  · rfl
  · split
    · rfl
    · split <;> rfl

/-! ### Whole runs -/

theorem run_none (accepts : Nat → Bool) (steps held : Nat)
    (scanner : Scanner) : run accepts steps none held scanner = [] := by
  cases steps <;> rfl

theorem run_of_token {accepts : Nat → Bool} {scanner next : Scanner}
    {mode : Mode} {after : Option Mode} {token : Token}
    (stepped : scanner.step mode = ⟨some token, after, next⟩)
    (steps held : Nat) :
    run accepts (steps + 1) (some mode) held scanner =
      token ::
        if accepts (held + 1) then run accepts steps after (held + 1) next
        else [] := by
  rw [run, stepped]

theorem run_of_move {accepts : Nat → Bool} {scanner next : Scanner}
    {mode : Mode} {after : Option Mode}
    (stepped : scanner.step mode = ⟨none, after, next⟩)
    (steps held : Nat) :
    run accepts (steps + 1) (some mode) held scanner =
      run accepts steps after held next := by
  rw [run, stepped]

/-- A run hands out the tokens of its text for as long as they are
accepted. -/
theorem run_eq_accepted (accepts : Nat → Bool) (place : Place)
    (text : List Char) :
    ∀ held steps, stepBound text ≤ steps →
      run accepts steps (some .start) held ⟨[], place, text⟩ =
        accepted accepts held (tokensFrom place text) := by
  fun_induction tokensFrom place text with
  | case1 place text blanks here used =>
      intro held steps enough
      unfold stepBound at enough
      obtain ⟨steps, rfl⟩ : ∃ fewer, steps = fewer + 1 :=
        ⟨steps - 1, by omega⟩
      rcases @step_start_of_used place text _ used with ⟨behind, stepped⟩
      rw [run_of_token stepped, run_none]
      rfl
  | case2 place text blanks here first rest found lexeme
      inductionHypothesis =>
      intro held steps enough
      have shorter : (lexeme.behind (first :: rest)).length < text.length :=
        Lexeme.length_behind_lt found
      unfold stepBound at enough
      obtain ⟨steps, rfl⟩ : ∃ fewer, steps = fewer + 2 :=
        ⟨steps - 2, by omega⟩
      have remaining :
          stepBound (lexeme.behind (first :: rest)) ≤ steps := by
        unfold stepBound
        omega
      rw [run_of_move (step_start_of_found found),
        run_of_token ((step_of_first _ first rest).trans (emit_read _ _ _)),
        inductionHypothesis (held + 1) steps remaining]
      rfl

/-- A scanner hands out the tokens of its text to a consumer that refuses
none. -/
theorem tokens_all (source : String) :
    tokens (fun _ => true) source = tokenize source := by
  rw [tokens, ofText, run_eq_accepted _ _ _ _ _ (Nat.le_refl _),
    accepted_all, tokenize]

end Scanner

end ContractCompiler
