/-
Text without its control sequences.

A control sequence runs from an escape character to the next letter `m`.  A
piece of text shows some plain text when leaving out its sequences gives that
text, whatever follows.  Pieces put one behind another show what they show one
behind another, and a style shows what is painted in it.
-/

import ContractCompiler.Text.Style

namespace ContractCompiler

def unstyledFrom (inside : Bool) : List Char → List Char
  | [] => []
  | character :: rest =>
      if inside then unstyledFrom (character != 'm') rest
      else if character = '\x1b' then unstyledFrom true rest
      else character :: unstyledFrom false rest

def unstyled (text : String) : String :=
  String.ofList (unstyledFrom false text.toList)

private theorem unstyledFrom_inside {body : List Char} (unclosed : 'm' ∉ body)
    (rest : List Char) :
    unstyledFrom true (body ++ 'm' :: rest) = unstyledFrom false rest := by
  induction body with
  | nil =>
      rfl
  | cons character others inductionHypothesis =>
      rw [List.mem_cons, not_or] at unclosed
      have other : (character != 'm') = true :=
        bne_iff_ne.mpr (Ne.symm unclosed.1)
      rw [List.cons_append, unstyledFrom, if_pos rfl, other]
      exact inductionHypothesis unclosed.2

private theorem unstyledFrom_outside {text : List Char} (clean : '\x1b' ∉ text)
    (rest : List Char) :
    unstyledFrom false (text ++ rest) =
      text ++ unstyledFrom false rest := by
  induction text with
  | nil =>
      rfl
  | cons character others inductionHypothesis =>
      rw [List.mem_cons, not_or] at clean
      rw [List.cons_append, unstyledFrom, if_neg Bool.false_ne_true,
        if_neg (Ne.symm clean.1), inductionHypothesis clean.2,
        List.cons_append]

def Shows (styled plain : String) : Prop :=
  ∀ rest, unstyledFrom false (styled.toList ++ rest) =
    plain.toList ++ unstyledFrom false rest

namespace Shows

variable {styled other plain second : String}

theorem unstyled_eq (shown : Shows styled plain) :
    unstyled styled = plain := by
  have whole := shown []
  rw [List.append_nil, unstyledFrom, List.append_nil] at whole
  rw [unstyled, whole, String.ofList_toList]

theorem empty : Shows "" "" :=
  fun _ => rfl

theorem append (first : Shows styled plain) (behind : Shows other second) :
    Shows (styled ++ other) (plain ++ second) := by
  intro rest
  rw [String.toList_append, List.append_assoc, first, behind,
    String.toList_append, List.append_assoc]

/-- A text without escape characters shows itself. -/
theorem of_clean (clean : '\x1b' ∉ plain.toList) : Shows plain plain :=
  fun rest => unstyledFrom_outside clean rest

private theorem sequence {code : String} (unclosed : 'm' ∉ code.toList) :
    Shows (Style.sequence code) "" := by
  intro rest
  have letters : 'm' ∉ '[' :: code.toList := by
    rw [List.mem_cons, not_or]
    exact ⟨by decide, unclosed⟩
  have spelled : (Style.sequence code).toList ++ rest =
      '\x1b' :: (('[' :: code.toList) ++ 'm' :: rest) := by
    rw [Style.sequence, String.toList_append, String.toList_append,
      List.append_assoc, List.append_assoc]
    rfl
  rw [spelled, unstyledFrom, if_neg Bool.false_ne_true, if_pos rfl]
  exact unstyledFrom_inside letters rest

/-- A style shows what is painted in it. -/
theorem paint (style : Style) (shown : Shows styled plain) :
    Shows (style.paint styled) plain := by
  have on : 'm' ∉ style.onCode.toList := by
    cases style <;> decide
  have off : 'm' ∉ style.offCode.toList := by
    cases style <;> decide
  have whole := ((sequence on).append shown).append (sequence off)
  rw [String.empty_append, String.append_empty] at whole
  exact whole

theorem paintBold (color : Style) (shown : Shows styled plain) :
    Shows (color.paintBold styled) plain :=
  (shown.paint color).paint .bold

end Shows

end ContractCompiler
