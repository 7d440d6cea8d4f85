/-
The lexemes of a contract that is written down.

Semicolons between statements are no tokens of the language, so they are left
out here.  What remains is listed along the parts of a contract, and the text
of each part is shown to spell its lexemes in front of any text that goes on
with none of them.
-/

import Mathlib.Data.List.TakeWhile
import ContractCompiler.Contract.Render
import ContractCompiler.Proofs.Writable

namespace ContractCompiler

/-! ### Texts of expressions -/

private theorem Expression.toList_integer {value : Int} (natural : 0 ≤ value) :
    (Expression.integer value).render.toList =
      Nat.toDigits 10 value.natAbs := by
  rw [render, signedDecimal, if_neg (by omega)]
  exact toList_decimal _

private theorem Expression.toList_text (value : String) :
    (Expression.text value).render.toList =
      '"' :: (value.toList ++ ['"']) := by
  rw [render, String.toList_append, String.toList_append]
  rfl

private theorem Expression.toList_binary (operator : Operator)
    (left right : Expression) :
    (Expression.binary operator left right).render.toList =
      '(' :: (left.render.toList ++ ' ' :: (operator.symbol.toList ++
        ' ' :: (right.render.toList ++ [')']))) := by
  simp only [render, String.toList_append, List.append_assoc]
  rfl

private theorem Expression.toList_unary (operator : Operator)
    (operand : Expression) :
    (Expression.unary operator operand).render.toList =
      '(' :: (operator.symbol.toList ++
        (operand.render.toList ++ [')'])) := by
  simp only [render, String.toList_append, List.append_assoc]
  rfl

theorem isDigit_of_mem_toDigits {value : Nat} {character : Char}
    (member : character ∈ Nat.toDigits 10 value) :
    isDigit character = true :=
  Nat.isDigit_of_mem_toDigits (by decide) (by decide) member

/-- A string without quotes and escapes is closed by the first quote behind
it. -/
theorem Lexeme.stringTail_unescaped {text : List Char}
    (noQuote : '"' ∉ text) (noEscape : '\\' ∉ text)
    (behind : List Char) :
    stringTail (text ++ '"' :: behind) = some (text ++ ['"']) := by
  induction text with
  | nil =>
      rfl
  | cons character rest inductionHypothesis =>
      simp only [List.mem_cons, not_or] at noQuote noEscape
      rw [List.cons_append, stringTail,
        inductionHypothesis noQuote.2 noEscape.2]
      · rfl
      · exact fun quote => noQuote.1 quote.symm
      · exact fun escape => absurd escape.symm noEscape.1
      · exact fun _ _ escape => absurd escape.symm noEscape.1

/-! ### Fixed spellings -/

def TokenKind.isFixed : TokenKind → Bool
  | .illegal | .endOfInput | .identifier | .integer | .text => false
  | _ => true

def Lexeme.fixed (kind : TokenKind) : Lexeme :=
  ⟨kind, kind.name.toList⟩

private theorem TokenKind.mem_all (kind : TokenKind) : kind ∈ all := by
  cases kind <;> decide

def TokenKind.isReadBack (kind : TokenKind) : Bool :=
  match kind.name.toList with
  | [] => false
  | first :: rest =>
      let lexeme := @Lexeme.read asciiIdentifiers first (rest ++ [' '])
      (first :: rest).all (fun character => character.toNat < 0x80) &&
        !isBlank first && first != ';' && lexeme.kind == kind &&
        lexeme.text == first :: rest

private theorem TokenKind.isReadBack_of_isFixed {kind : TokenKind}
    (fixed : kind.isFixed = true) : kind.isReadBack = true := by
  have checked : (all.all fun kind =>
      !kind.isFixed || kind.isReadBack) = true := by
    decide +kernel
  have known := List.all_eq_true.mp checked kind kind.mem_all
  rw [fixed] at known
  exact known

variable [IdentifierCharacters]

private theorem Lexeme.fixed_read {kind : TokenKind}
    (fixed : kind.isFixed = true) :
    ∃ first rest, kind.name.toList = first :: rest ∧
      isBlank first = false ∧ first ≠ ';' ∧
      read first (rest ++ [' ']) = Lexeme.fixed kind := by
  have back := TokenKind.isReadBack_of_isFixed fixed
  unfold TokenKind.isReadBack at back
  split at back
  next =>
    cases back
  next first rest spelled =>
    simp only [Bool.and_eq_true, Bool.not_eq_true', bne_iff_ne,
      beq_iff_eq, List.all_eq_true, decide_eq_true_eq] at back
    rcases back with ⟨⟨⟨⟨ascii, shown⟩, other⟩, kinds⟩, texts⟩
    refine ⟨first, rest, spelled, shown, other, ?_⟩
    have spaced : ∀ character ∈ first :: (rest ++ [' ']),
        character.toNat < 0x80 := by
      rw [← List.cons_append, List.forall_mem_append]
      exact ⟨ascii, List.forall_mem_singleton.mpr (by decide)⟩
    rw [read_of_ascii spaced, Lexeme.fixed, spelled, ← kinds, ← texts]

theorem Lexeme.fixed_precedes {kind : TokenKind}
    (fixed : kind.isFixed = true) {behind : List Char}
    (apart : Apart behind) : (Lexeme.fixed kind).Precedes behind := by
  rcases Lexeme.fixed_read fixed with
    ⟨first, rest, spelled, shown, _, same⟩
  rcases Lexeme.read_precedes shown (rest ++ [' ']) with
    everywhere | ⟨ended, _⟩
  · rw [same] at everywhere
    exact everywhere behind apart
  · -- A lexeme that takes all that follows would have taken the blank.
    rw [same, Lexeme.behind, Lexeme.fixed, spelled, List.length_cons,
      List.drop_succ_cons, List.drop_left] at ended
    cases ended

/-! ### Lexemes without semicolons -/

def properLexemes (text : List Char) : List Lexeme :=
  (lexemesOf text).filter fun lexeme => lexeme.text != [';']

theorem properLexemes_nil : properLexemes [] = [] := by
  rw [properLexemes, lexemesOf_nil, List.filter_nil]

private theorem Lexeme.Precedes.proper {lexeme : Lexeme} {behind : List Char}
    (precedes : lexeme.Precedes behind) (proper : lexeme.text ≠ [';']) :
    properLexemes (lexeme.text ++ behind) =
      lexeme :: properLexemes behind := by
  unfold properLexemes
  rw [precedes.lexemesOf_append, List.filter_cons_of_pos]
  simpa using proper

private theorem Lexeme.isMark_of_mem {character : Char}
    (member : character ∈ [';', '(', '-', '!', '=']) :
    isMark character = true := by
  have checked : [';', '(', '-', '!', '='].all (fun character =>
      decide (character.toNat < 0x80) &&
        @isMark asciiIdentifiers character) = true := by
    decide
  have known := List.all_eq_true.mp checked character member
  rw [Bool.and_eq_true, decide_eq_true_eq] at known
  rw [isMark_of_ascii known.1]
  exact known.2

private theorem Lexeme.not_start_of_isMark {character : Char}
    (mark : isMark character = true) :
    isIdentifierStart character = false := by
  simp only [isMark, Bool.and_eq_true, Bool.not_eq_true'] at mark
  exact mark.2

private theorem properLexemes_semicolon (behind : List Char) :
    properLexemes (';' :: behind) = properLexemes behind := by
  have precedes : Lexeme.Precedes ⟨.illegal, [';']⟩ behind :=
    Lexeme.single_precedes (Lexeme.isMark_of_mem (by simp)) fun _ _ => rfl
  have whole := precedes.lexemesOf_append
  rw [List.singleton_append] at whole
  unfold properLexemes
  rw [whole]
  rfl

private theorem properLexemes_blank (behind : List Char) :
    properLexemes (' ' :: behind) = properLexemes behind := by
  have skipped := @lexemesOf_blanks _ [' '] (by simp; decide) behind
  unfold properLexemes
  rw [← skipped]
  rfl

/-- Blanks and delimiters go on with no lexeme. -/
theorem Apart.delimiter (character : Char) (text : List Char)
    (delimits : character ∈ [' ', ';', ',', '(', ')', '\x7b', '\x7d']) :
    Apart (character :: text) := by
  have checked : [' ', ';', ',', '(', ')', '\x7b', '\x7d'].all
      (fun character => decide (character.toNat < 0x80) &&
        @separates asciiIdentifiers character) = true := by
    decide
  have known := List.all_eq_true.mp checked character delimits
  rw [Bool.and_eq_true, decide_eq_true_eq] at known
  apply Apart.cons
  rw [separates_of_ascii known.1]
  exact known.2

theorem Apart.append {first second : List Char} (apart : Apart first)
    (apartToo : Apart second) : Apart (first ++ second) := by
  cases first with
  | nil => exact apartToo
  | cons character rest => exact Apart.cons (apart character rfl)

/-- A text spells lexemes in front of every text that goes on with none of
them. -/
def Spells (text : List Char) (lexemes : List Lexeme) : Prop :=
  ∀ behind, Apart behind →
    properLexemes (text ++ behind) = lexemes ++ properLexemes behind

namespace Spells

variable {first second : List Char} {lexemes others : List Lexeme}

theorem nil : Spells [] [] := fun _ _ => rfl

/-- Nothing spells no lexeme. -/
theorem eq_nil (spells : Spells [] lexemes) : lexemes = [] := by
  have empty := spells [] Apart.nil
  simpa using empty

/-- A lexeme in front of a text, which may stand close to it. -/
theorem cons {lexeme : Lexeme} (proper : lexeme.text ≠ [';'])
    (precedes : ∀ behind, Apart behind → lexeme.Precedes (second ++ behind))
    (spells : Spells second others) :
    Spells (lexeme.text ++ second) (lexeme :: others) := by
  intro behind apart
  rw [List.append_assoc, (precedes behind apart).proper proper,
    spells behind apart, List.cons_append]

private theorem of_precedes {lexeme : Lexeme} (proper : lexeme.text ≠ [';'])
    (precedes : ∀ behind, Apart behind → lexeme.Precedes behind) :
    Spells lexeme.text [lexeme] := by
  have spells := @cons _ [] [] lexeme proper precedes nil
  rw [List.append_nil] at spells
  exact spells

private theorem fixed (kind : TokenKind) (fixed : kind.isFixed = true) :
    Spells kind.name.toList [Lexeme.fixed kind] := by
  apply @of_precedes _ (Lexeme.fixed kind)
  · intro semicolon
    rcases Lexeme.fixed_read fixed with ⟨_, _, spelled, _, other, _⟩
    rw [Lexeme.fixed, spelled] at semicolon
    exact other (List.cons.inj semicolon).1
  · intro behind apart
    exact Lexeme.fixed_precedes fixed apart

private theorem blank (spells : Spells second others) :
    Spells (' ' :: second) others := by
  intro behind apart
  rw [List.cons_append, properLexemes_blank]
  exact spells behind apart

private theorem semicolon (spells : Spells second others) :
    Spells (';' :: second) others := by
  intro behind apart
  rw [List.cons_append, properLexemes_semicolon]
  exact spells behind apart

/-- One text behind another that goes on with none of its lexemes. -/
theorem append (spells : Spells first lexemes) (apart : Apart second)
    (spellsToo : Spells second others) :
    Spells (first ++ second) (lexemes ++ others) := by
  intro behind apartToo
  rw [List.append_assoc, spells _ (apart.append apartToo),
    spellsToo behind apartToo, List.append_assoc]

private theorem spaced (spells : Spells first lexemes)
    (spellsToo : Spells second others) :
    Spells (first ++ ' ' :: second) (lexemes ++ others) :=
  spells.append (Apart.delimiter ' ' _ (by simp)) spellsToo.blank

private theorem opened (spells : Spells second others) :
    Spells ('(' :: second) (.fixed .leftParen :: others) := by
  apply @cons _ _ _ (.fixed .leftParen) (by decide) _ spells
  intro behind _
  exact @Lexeme.single_precedes _ '(' _ (Lexeme.isMark_of_mem (by simp))
    fun _ _ => rfl

private theorem closed (spells : Spells first lexemes) :
    Spells (first ++ [')']) (lexemes ++ [Lexeme.fixed .rightParen]) :=
  spells.append (Apart.delimiter ')' _ (by simp)) (fixed .rightParen rfl)

private theorem identifier {name : String} (identifies : Identifies name) :
    Spells name.toList [⟨.identifier, name.toList⟩] := by
  rcases identifies with ⟨first, rest, spelled, starts, parts, unreserved⟩
  apply @of_precedes _ ⟨.identifier, name.toList⟩
  · intro semicolon
    have same : name.toList = [';'] := semicolon
    rw [spelled] at same
    cases same
    have mark : isIdentifierStart ';' = false :=
      Lexeme.not_start_of_isMark (Lexeme.isMark_of_mem (by simp))
    rw [mark] at starts
    cases starts
  · intro behind apart
    have precedes := Lexeme.word_precedes starts rest apart.not_part
    have whole : rest.takeWhile isIdentifierPart = rest :=
      List.takeWhile_eq_self_iff.mpr parts
    rw [Lexeme.word, whole, ← spelled, Lexeme.wordKind,
      String.ofList_toList, unreserved] at precedes
    exact precedes

private theorem numeral (value : Nat) :
    Spells (Nat.toDigits 10 value) [⟨.integer, Nat.toDigits 10 value⟩] := by
  have digits : ∀ character ∈ Nat.toDigits 10 value,
      isDigit character = true := fun _ => isDigit_of_mem_toDigits
  apply @of_precedes _ ⟨.integer, Nat.toDigits 10 value⟩
  · intro semicolon
    have same : Nat.toDigits 10 value = [';'] := semicolon
    rw [same] at digits
    have mark := digits ';' (List.mem_singleton_self _)
    cases mark
  · intro behind apart
    cases spelled : Nat.toDigits 10 value with
    | nil =>
        exact absurd spelled Nat.toDigits_ne_nil
    | cons first rest =>
        rw [spelled] at digits
        exact Lexeme.numeral_precedes (digits first List.mem_cons_self)
          (fun character member =>
            digits character (List.mem_cons_of_mem _ member))
          apart.not_digit

private theorem quotation {value : String} (plain : Unescaped value) :
    Spells ('"' :: (value.toList ++ ['"']))
      [⟨.text, '"' :: (value.toList ++ ['"'])⟩] := by
  apply @of_precedes _ ⟨.text, '"' :: (value.toList ++ ['"'])⟩
  · intro semicolon
    cases semicolon
  · intro behind _
    apply Lexeme.quoted_precedes
    intro behind
    rw [List.append_assoc, List.singleton_append]
    exact Lexeme.stringTail_unescaped plain.1 plain.2 behind

end Spells

/-! ### Expressions -/

def Operator.kind : Operator → TokenKind
  | .plus => .plus
  | .minus => .minus
  | .times => .star
  | .divide => .slash
  | .modulo => .percent
  | .not => .bang
  | .less => .less
  | .greater => .greater
  | .lessEqual => .lessEqual
  | .greaterEqual => .greaterEqual
  | .equal => .equal
  | .notEqual => .notEqual
  | .and => .logicalAnd
  | .or => .logicalOr

private theorem Operator.spells (operator : Operator) :
    Spells operator.symbol.toList [.fixed operator.kind] := by
  have same : operator.symbol = operator.kind.name := by
    cases operator <;> rfl
  rw [same]
  apply Spells.fixed
  cases operator <;> rfl

def Expression.lexemes : Expression → List Lexeme
  | .identifier name => [⟨.identifier, name.toList⟩]
  | .integer value => [⟨.integer, Nat.toDigits 10 value.natAbs⟩]
  | .text value => [⟨.text, '"' :: (value.toList ++ ['"'])⟩]
  | .boolean value => [.fixed (if value then .trueWord else .falseWord)]
  | .binary operator left right =>
      .fixed .leftParen :: (left.lexemes ++ .fixed operator.kind ::
        (right.lexemes ++ [.fixed .rightParen]))
  | .unary operator operand =>
      .fixed .leftParen :: .fixed operator.kind ::
        (operand.lexemes ++ [.fixed .rightParen])

/-- No expression starts with the second half of an operator. -/
theorem Expression.render_head {expression : Expression}
    (writable : expression.Writable) :
    ∃ first rest, expression.render.toList = first :: rest ∧
      first ≠ '=' := by
  cases expression with
  | identifier name =>
      rcases writable with ⟨first, rest, spelled, starts, _⟩
      refine ⟨first, rest, spelled, ?_⟩
      intro same
      have mark : isIdentifierStart '=' = false :=
        Lexeme.not_start_of_isMark (Lexeme.isMark_of_mem (by simp))
      rw [← same, starts] at mark
      cases mark
  | integer value =>
      rw [toList_integer writable.1]
      cases spelled : Nat.toDigits 10 value.natAbs with
      | nil =>
          exact absurd spelled Nat.toDigits_ne_nil
      | cons first rest =>
          refine ⟨first, rest, rfl, ?_⟩
          intro same
          have member : '=' ∈ Nat.toDigits 10 value.natAbs := by
            simp [spelled, same]
          have digit := isDigit_of_mem_toDigits member
          cases digit
  | text value =>
      exact ⟨_, _, toList_text value, by decide⟩
  | boolean value =>
      cases value with
      | true => exact ⟨_, _, rfl, by decide⟩
      | false => exact ⟨_, _, rfl, by decide⟩
  | binary operator left right =>
      exact ⟨_, _, toList_binary operator left right, by decide⟩
  | unary operator operand =>
      exact ⟨_, _, toList_unary operator operand, by decide⟩

/-- An operator in front of an expression. -/
theorem Spells.signed {operator : Operator} {first : Char}
    {rest : List Char} {lexemes : List Lexeme}
    (position : operator = .minus ∨ operator = .not) (other : first ≠ '=')
    (spells : Spells (first :: rest) lexemes) :
    Spells (operator.symbol.toList ++ first :: rest)
      (.fixed operator.kind :: lexemes) := by
  rcases position with rfl | rfl
  · apply @Spells.cons _ _ _ (.fixed .minus) (by decide) _ spells
    intro behind _
    exact @Lexeme.single_precedes _ '-' _ (Lexeme.isMark_of_mem (by simp))
      fun _ _ => rfl
  · have alone : Lexeme.pairKind? '!' first = none := by
      unfold Lexeme.pairKind?
      split <;> simp_all
    apply @Spells.cons _ _ _ (.fixed .bang) (by decide) _ spells
    intro behind _
    apply @Lexeme.single_precedes _ '!' _ (Lexeme.isMark_of_mem (by simp))
    intro character member
    cases member
    exact alone

private theorem Expression.spells {expression : Expression}
    (writable : expression.Writable) :
    Spells expression.render.toList expression.lexemes := by
  induction expression with
  | identifier name =>
      exact Spells.identifier writable
  | integer value =>
      rw [toList_integer writable.1]
      exact Spells.numeral value.natAbs
  | text value =>
      rw [toList_text]
      exact Spells.quotation writable
  | boolean value =>
      cases value with
      | true => exact Spells.fixed .trueWord rfl
      | false => exact Spells.fixed .falseWord rfl
  | binary operator left right leftHypothesis rightHypothesis =>
      rw [toList_binary]
      exact ((leftHypothesis writable.2.1).spaced
        (operator.spells.spaced
          (rightHypothesis writable.2.2).closed)).opened
  | unary operator operand inductionHypothesis =>
      -- The sign touches its operand, which must not go on with it.
      rcases render_head writable.2 with ⟨first, rest, inner, other⟩
      have spells := (inductionHypothesis writable.2).closed
      rw [inner, List.cons_append] at spells
      rw [toList_unary, inner, List.cons_append]
      exact (spells.signed writable.1 other).opened

/-! ### Statements -/

/-- The lexemes of a type.  The type `void` is not written. -/
def ValueType.lexemes : ValueType → List Lexeme
  | .void => []
  | .int => [.fixed .intType]
  | .string => [.fixed .stringType]
  | .bool => [.fixed .boolType]

private theorem ValueType.spells {type : ValueType} (proper : type ≠ .void) :
    Spells type.name.toList type.lexemes := by
  cases type with
  | void => exact absurd rfl proper
  | int => exact Spells.fixed .intType rfl
  | string => exact Spells.fixed .stringType rfl
  | bool => exact Spells.fixed .boolType rfl

def Lexeme.braced (lexemes : List Lexeme) : List Lexeme :=
  .fixed .leftBrace :: (lexemes ++ [.fixed .rightBrace])

mutual

def Statement.lexemes : Statement → List Lexeme
  | .returns none => [.fixed .returnWord]
  | .returns (some value) => .fixed .returnWord :: value.lexemes
  | .assigns type name value =>
      type.lexemes ++ ⟨.identifier, name.toList⟩ :: .fixed .assign ::
        value.lexemes
  | .ifThen condition consequence =>
      .fixed .ifWord :: .fixed .leftParen ::
        (condition.lexemes ++ .fixed .rightParen ::
          Lexeme.braced (Statement.lexemesAll consequence))
  | .ifThenElse condition consequence alternative =>
      .fixed .ifWord :: .fixed .leftParen ::
        (condition.lexemes ++ .fixed .rightParen ::
          (Lexeme.braced (Statement.lexemesAll consequence) ++
            .fixed .elseWord ::
              Lexeme.braced (Statement.lexemesAll alternative)))
  | .evaluates value => value.lexemes

def Statement.lexemesAll : List Statement → List Lexeme
  | [] => []
  | statement :: rest => statement.lexemes ++ Statement.lexemesAll rest

end

namespace Spells

private theorem separated {text : String} {texts : List String}
    {lexemes others : List Lexeme} (spells : Spells text.toList lexemes)
    (spellsToo : Spells (separated "; " texts).toList others) :
    Spells (ContractCompiler.separated "; " (text :: texts)).toList
      (lexemes ++ others) := by
  cases texts with
  | nil =>
      rw [spellsToo.eq_nil, List.append_nil]
      exact spells
  | cons next rest =>
      have spelled : (ContractCompiler.separated "; "
          (text :: next :: rest)).toList =
          text.toList ++ ';' :: ' ' ::
            (ContractCompiler.separated "; " (next :: rest)).toList := by
        simp only [ContractCompiler.separated, String.toList_append,
          List.append_assoc]
        rfl
      rw [spelled]
      exact spells.append (Apart.delimiter ';' _ (by simp))
        spellsToo.blank.semicolon

private theorem braced {texts : List String} {lexemes : List Lexeme}
    (spells : Spells (ContractCompiler.separated "; " texts).toList
      lexemes) :
    Spells (ContractCompiler.braced texts).toList
      (Lexeme.braced lexemes) := by
  cases texts with
  | nil =>
      rw [spells.eq_nil]
      exact (fixed .leftBrace rfl).append (Apart.delimiter '\x7d' _ (by simp))
        (fixed .rightBrace rfl)
  | cons text rest =>
      have spelled : (ContractCompiler.braced (text :: rest)).toList =
          ['\x7b'] ++ ' ' ::
            ((ContractCompiler.separated "; " (text :: rest)).toList ++
              ' ' :: ['\x7d']) := by
        simp only [ContractCompiler.braced, String.toList_append,
          List.append_assoc]
        rfl
      rw [spelled]
      exact (fixed .leftBrace rfl).spaced
        (spells.spaced (fixed .rightBrace rfl))

end Spells

/-- A condition and what depends on it. -/
theorem Spells.conditional {condition : Expression} {text : List Char}
    {lexemes : List Lexeme} (writable : condition.Writable)
    (spells : Spells text lexemes) :
    Spells
      (TokenKind.ifWord.name.toList ++ ' ' ::
        ('(' :: (condition.render.toList ++
          (TokenKind.rightParen.name.toList ++ ' ' :: text))))
      (.fixed .ifWord :: .fixed .leftParen ::
        (condition.lexemes ++ .fixed .rightParen :: lexemes)) := by
  have behind := (Spells.fixed .rightParen rfl).spaced spells
  have inside := (condition.spells writable).append
    (Apart.delimiter ')' _ (by simp)) behind
  exact (Spells.fixed .ifWord rfl).spaced inside.opened

mutual

theorem Statement.spells (statement : Statement)
    (writable : statement.Writable) :
    Spells statement.render.toList statement.lexemes := by
  match statement with
  | .returns none =>
      exact Spells.fixed .returnWord rfl
  | .returns (some value) =>
      have spelled : (Statement.returns (some value)).render.toList =
          TokenKind.returnWord.name.toList ++
            ' ' :: value.render.toList := by
        rw [Statement.render, String.toList_append]
        rfl
      rw [spelled]
      exact (Spells.fixed .returnWord rfl).spaced (value.spells writable)
  | .assigns type name value =>
      have spelled : (Statement.assigns type name value).render.toList =
          type.name.toList ++ ' ' :: (name.toList ++
            ' ' :: (TokenKind.assign.name.toList ++
              ' ' :: value.render.toList)) := by
        simp only [Statement.render, String.toList_append,
          List.append_assoc]
        rfl
      rcases writable with ⟨proper, identifies, valued⟩
      rw [spelled]
      exact (type.spells proper).spaced
        ((Spells.identifier identifies).spaced
          ((Spells.fixed .assign rfl).spaced (value.spells valued)))
  | .ifThen condition consequence =>
      have spelled : (Statement.ifThen condition consequence).render.toList =
          TokenKind.ifWord.name.toList ++ ' ' ::
            ('(' :: (condition.render.toList ++
              (TokenKind.rightParen.name.toList ++ ' ' ::
                (ContractCompiler.braced
                  (Statement.renderAll consequence)).toList))) := by
        simp only [Statement.render, String.toList_append,
          List.append_assoc]
        rfl
      rw [spelled]
      exact Spells.conditional writable.1
        (Statement.spellsAll consequence writable.2).braced
  | .ifThenElse condition consequence alternative =>
      have spelled :
          (Statement.ifThenElse condition consequence
            alternative).render.toList =
          TokenKind.ifWord.name.toList ++ ' ' ::
            ('(' :: (condition.render.toList ++
              (TokenKind.rightParen.name.toList ++ ' ' ::
                ((ContractCompiler.braced
                    (Statement.renderAll consequence)).toList ++ ' ' ::
                  (TokenKind.elseWord.name.toList ++ ' ' ::
                    (ContractCompiler.braced
                      (Statement.renderAll alternative)).toList))))) := by
        simp only [Statement.render, String.toList_append,
          List.append_assoc]
        rfl
      have first := (Statement.spellsAll consequence writable.2.1).braced
      have second := (Statement.spellsAll alternative writable.2.2).braced
      rw [spelled]
      exact Spells.conditional writable.1
        (first.spaced ((Spells.fixed .elseWord rfl).spaced second))
  | .evaluates value =>
      exact value.spells writable

theorem Statement.spellsAll (block : Block)
    (writable : Statement.AllWritable block) :
    Spells (ContractCompiler.separated "; "
      (Statement.renderAll block)).toList (Statement.lexemesAll block) := by
  match block with
  | [] =>
      exact Spells.nil
  | statement :: rest =>
      exact (Statement.spells statement writable.2.1).separated
        (Statement.spellsAll rest writable.2.2)

end

/-! ### Functions and contracts -/

def Parameter.lexemes (parameter : Parameter) : List Lexeme :=
  ⟨.identifier, parameter.name.toList⟩ :: parameter.type.lexemes

def Parameter.lexemesAll : List Parameter → List Lexeme
  | [] => []
  | [last] => last.lexemes
  | first :: rest =>
      first.lexemes ++ .fixed .comma :: Parameter.lexemesAll rest

def Function.lexemes (function : Function) : List Lexeme :=
  .fixed .function :: ⟨.identifier, function.name.toList⟩ ::
    .fixed .leftParen :: (Parameter.lexemesAll function.parameters ++
      .fixed .rightParen :: (function.returnType.lexemes ++
        Lexeme.braced (Statement.lexemesAll function.body)))

def Contract.lexemes (contract : Contract) : List Lexeme :=
  .fixed .contract ::
    Lexeme.braced (contract.functions.flatMap Function.lexemes)

private theorem Parameter.spells {parameter : Parameter}
    (identifies : Identifies parameter.name)
    (proper : parameter.type ≠ .void) :
    Spells parameter.render.toList parameter.lexemes := by
  have spelled : parameter.render.toList =
      parameter.name.toList ++ ' ' :: parameter.type.name.toList := by
    simp only [render, String.toList_append, List.append_assoc]
    rfl
  rw [spelled]
  exact (Spells.identifier identifies).spaced
    (parameter.type.spells proper)

private theorem Parameter.spellsAll {parameters : List Parameter}
    (writable : ∀ parameter ∈ parameters,
      Identifies parameter.name ∧ parameter.type ≠ .void) :
    Spells (separated ", " (parameters.map Parameter.render)).toList
      (Parameter.lexemesAll parameters) := by
  induction parameters with
  | nil =>
      exact Spells.nil
  | cons parameter rest inductionHypothesis =>
      rw [List.forall_mem_cons] at writable
      have spells := Parameter.spells writable.1.1 writable.1.2
      cases rest with
      | nil =>
          exact spells
      | cons next others =>
          have spelled : (separated ", " ((parameter :: next ::
              others).map Parameter.render)).toList =
              parameter.render.toList ++ (TokenKind.comma.name.toList ++
                ' ' :: (separated ", " ((next :: others).map
                  Parameter.render)).toList) := by
            simp only [List.map_cons, separated, String.toList_append,
              List.append_assoc]
            rfl
          rw [spelled]
          exact spells.append (Apart.delimiter ',' _ (by simp))
            ((Spells.fixed .comma rfl).spaced
              (inductionHypothesis writable.2))

/-- A text behind a return type, which is not written if it is `void`. -/
theorem Spells.returned (type : ValueType) {text : List Char}
    {lexemes : List Lexeme} (spells : Spells text lexemes) :
    ∃ rest, (if type = .void then "" else " " ++ type.name).toList ++
        ' ' :: text = ' ' :: rest ∧
      Spells rest (type.lexemes ++ lexemes) := by
  by_cases void : type = .void
  · rw [if_pos void, void]
    exact ⟨text, rfl, spells⟩
  · rw [if_neg void, String.toList_append]
    exact ⟨_, rfl, (type.spells void).spaced spells⟩

private theorem Function.spells {function : Function}
    (writable : function.Writable) :
    Spells function.render.toList function.lexemes := by
  have body := (Statement.spellsAll function.body writable.body).braced
  rcases body.returned function.returnType with ⟨ending, returned, behind⟩
  have spelled : function.render.toList =
      TokenKind.function.name.toList ++ ' ' :: (function.name.toList ++
        '(' :: ((separated ", "
          (function.parameters.map Parameter.render)).toList ++
          (TokenKind.rightParen.name.toList ++ ' ' :: ending))) := by
    rw [← returned]
    simp only [render, String.toList_append, List.append_assoc]
    rfl
  have closed := (Spells.fixed .rightParen rfl).spaced behind
  have listed := (Parameter.spellsAll writable.parameters).append
    (Apart.delimiter ')' _ (by simp)) closed
  have named := (Spells.identifier writable.name).append
    (Apart.delimiter '(' _ (by simp)) listed.opened
  rw [spelled]
  exact (Spells.fixed .function rfl).spaced named

/-- The functions of a contract up to its closing brace.  Every one of them
stands behind a blank, and so does the brace. -/
def functionsText (functions : List Function) : List Char :=
  (functions.flatMap fun function => ' ' :: function.render.toList) ++
    [' ', '\x7d']

private theorem functionsText_apart (functions : List Function) :
    Apart (functionsText functions) := by
  cases functions with
  | nil => exact Apart.delimiter ' ' _ (by simp)
  | cons function rest => exact Apart.delimiter ' ' _ (by simp)

private theorem functionsText_spells {functions : List Function}
    (writable : ∀ function ∈ functions, function.Writable) :
    Spells (functionsText functions)
      (functions.flatMap Function.lexemes ++ [Lexeme.fixed .rightBrace]) := by
  induction functions with
  | nil =>
      exact (Spells.fixed .rightBrace rfl).blank
  | cons function rest inductionHypothesis =>
      rw [List.forall_mem_cons] at writable
      have spelled : functionsText (function :: rest) =
          ' ' :: (function.render.toList ++ functionsText rest) := by
        simp [functionsText]
      rw [spelled, List.flatMap_cons, List.append_assoc]
      exact ((Function.spells writable.1).append (functionsText_apart rest)
        (inductionHypothesis writable.2)).blank

/-- A contract that can be written spells its lexemes. -/
theorem Contract.spells {contract : Contract}
    (writable : contract.Writable) :
    Spells contract.render.toList contract.lexemes := by
  have spelled : contract.render.toList =
      TokenKind.contract.name.toList ++ ' ' ::
        (TokenKind.leftBrace.name.toList ++
          functionsText contract.functions) := by
    simp only [render, functionsText, String.toList_append,
      String.toList_join, List.flatMap_map, List.append_assoc]
    rfl
  rw [spelled]
  exact (Spells.fixed .contract rfl).spaced
    ((Spells.fixed .leftBrace rfl).append
      (functionsText_apart contract.functions)
      (functionsText_spells writable))

end ContractCompiler
