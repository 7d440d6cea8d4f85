/-
Names of variables and names of their memory.

The memory of a variable in a nested block goes under its name, a separator
and the number of the block.  No identifier holds the separator, so no two
variables of different blocks share their memory.
-/

import Mathlib.Data.List.Basic
import ContractCompiler.Compile
import ContractCompiler.Proofs.Regularity

namespace ContractCompiler

def Plain (name : String) : Prop :=
  '@' ∉ name.toList

/-! ### Identifiers -/

namespace Lexeme

private theorem singleKind_ne {kind : TokenKind}
    (other : kind ∈ [.identifier, .integer, .endOfInput])
    (character : Char) : singleKind character ≠ kind := by
  intro same
  subst same
  revert other
  unfold singleKind
  split <;> decide

private theorem pairKind_ne {kind : TokenKind}
    (other : kind ∈ [.identifier, .integer, .endOfInput])
    (first second : Char) : pairKind? first second ≠ some kind := by
  intro found
  unfold pairKind? at found
  split at found <;> cases found <;> exact absurd other (by decide)

/-- An operator is no identifier, no number and not the end of the input. -/
theorem operator_ne {kind : TokenKind}
    (other : kind ∈ [.identifier, .integer, .endOfInput])
    (first : Char) (rest : List Char) :
    (operator first rest).kind ≠ kind := by
  cases rest with
  | nil =>
      exact singleKind_ne other first
  | cons second rest =>
      rw [operator]
      split
      next paired found =>
        intro same
        rw [show paired = kind from same] at found
        exact pairKind_ne other first second found
      next => exact singleKind_ne other first

private theorem quoted_ne_identifier (text : List Char) :
    (quoted text).kind ≠ .identifier := by
  unfold quoted
  split
  · exact nofun
  · split <;> exact nofun

variable [IdentifierCharacters]

/-- An identifier is spelled with characters of identifiers. -/
theorem part_of_mem_identifier {first : Char} {rest : List Char}
    (named : (read first rest).kind = .identifier) :
    ∀ character ∈ (read first rest).text,
      isIdentifierPart character = true := by
  unfold read at named ⊢
  split at named
  next => cases named
  next noDigit =>
    rw [if_neg noDigit]
    split at named
    next => exact absurd named (quoted_ne_identifier _)
    next noQuote =>
      rw [if_neg noQuote]
      split at named
      next starts =>
        rw [if_pos starts]
        intro character member
        rcases List.mem_cons.mp member with rfl | inside
        · exact isIdentifierPart_of_start starts
        · exact List.all_eq_true.mp List.all_takeWhile character inside
      next => exact absurd named (operator_ne (by decide) first rest)

end Lexeme

section

variable [IdentifierCharacters]

private theorem not_isIdentifierPart_separator :
    isIdentifierPart '@' = false :=
  isIdentifierPart_of_ascii (by decide)

theorem tokensFrom_named (place : Place) (text : List Char) :
    Named Plain (tokensFrom place text) := by
  fun_induction tokensFrom place text with
  | case1 place text blanks here used =>
      intro token member named
      rw [List.mem_singleton.mp member] at named
      cases named
  | case2 place text blanks here first rest found lexeme
      inductionHypothesis =>
      intro token member named
      rcases List.mem_cons.mp member with rfl | member
      · intro separator
        have inside : '@' ∈ lexeme.text := by
          rw [Lexeme.token, String.toList_ofList] at separator
          exact separator
        have part := Lexeme.part_of_mem_identifier named '@' inside
        rw [not_isIdentifierPart_separator] at part
        contradiction
      · exact inductionHypothesis token member named

/-- Whatever is read from a source text has plain names. -/
theorem Contract.regular_of_parse {source : String} {contract : Contract}
    (parsed : Contract.parse source = .ok contract) :
    contract.Regular Plain := by
  unfold Contract.parse at parsed
  split at parsed
  next found read =>
    cases parsed
    refine readContract_regular read ?_
    intro token member
    exact tokensFrom_named .start source.toList token
      (List.takeWhile_subset _ member)
  next => cases parsed

end

/-! ### Memory -/

private theorem decimal_injective {first second : Nat}
    (same : decimal first = decimal second) : first = second := by
  have digits : Nat.toDigits 10 first = Nat.toDigits 10 second :=
    String.ofList_injective same
  have read : ∀ value,
      Nat.ofDigitChars 10 (Nat.toDigits 10 value) 0 = value :=
    fun value => Nat.ofDigitChars_toDigits (by decide) (by decide)
  rw [← read first, digits, read second]

theorem toList_memoryId (name : String) (block : Nat) :
    (memoryId name block).toList =
      if block = 0 then name.toList
      else name.toList ++ '@' :: (decimal block).toList := by
  unfold memoryId
  split
  · rfl
  · rw [String.toList_append, String.toList_append, List.append_assoc]
    rfl

theorem toList_decimal (value : Nat) :
    (decimal value).toList = Nat.toDigits 10 value :=
  String.toList_ofList

private theorem plain_decimal (value : Nat) : Plain (decimal value) := by
  intro separator
  rw [toList_decimal] at separator
  have digit := Nat.isDigit_of_mem_toDigits (by decide) (by decide) separator
  cases digit

/-- Variables with different names or in different blocks have different
memory. -/
theorem memoryId_injective {first second : String} {block other : Nat}
    (plain : Plain first) (plainToo : Plain second)
    (same : memoryId first block = memoryId second other) :
    first = second ∧ block = other := by
  have spelled := congrArg String.toList same
  rw [toList_memoryId, toList_memoryId] at spelled
  split at spelled
  next own =>
    split at spelled
    next ownToo =>
      exact ⟨String.toList_inj.mp spelled, own.trans ownToo.symm⟩
    next nested =>
      refine absurd ?_ plain
      rw [spelled]
      exact List.mem_append_right _ List.mem_cons_self
  next nested =>
    split at spelled
    next own =>
      refine absurd ?_ plainToo
      rw [← spelled]
      exact List.mem_append_right _ List.mem_cons_self
    next nestedToo =>
      rcases (List.append_cons_inj_of_notMem plain (plain_decimal block)).mp
          spelled with ⟨names, _, numbers⟩
      exact ⟨String.toList_inj.mp names,
        decimal_injective (String.toList_inj.mp numbers)⟩

end ContractCompiler
