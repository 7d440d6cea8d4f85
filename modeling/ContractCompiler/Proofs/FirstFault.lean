/-
An error points at the first impossible token.

What is left of an agenda can always be closed by a few more tokens, so
whatever has been read is the beginning of some contract.  The token at which
an agenda fails is different: no contract goes on with it.
-/

import ContractCompiler.Proofs.Agenda
import ContractCompiler.Proofs.ExpressionReading
import ContractCompiler.Proofs.Tiling
import ContractCompiler.Proofs.Writable
import ContractCompiler.Text.Identifier

namespace ContractCompiler

/-! ### Operands -/

/-- Only a numeral that is too large is no operand for a reason of its own. -/
theorem Expression.ofToken_error {token : Token} {error : SyntaxError}
    (failed : ofToken? token = .error error) :
    token.kind = .integer ∧ readInt64 token.literal.toList = none ∧
      error = .atToken token (.invalidInteger token.literal) := by
  unfold ofToken? at failed
  split at failed
  case h_2 integer =>
    split at failed
    · cases failed
    next large =>
      cases failed
      exact ⟨integer, large, rfl⟩
  all_goals cases failed

/-- Whether a token is no operand on its own is told by its kind. -/
theorem Expression.ofToken_none {first second : Token}
    (same : second.kind = first.kind) (none : ofToken? first = .ok none) :
    ofToken? second = .ok .none := by
  unfold ofToken? at none ⊢
  rw [same]
  split at none
  case h_2 integer =>
    split at none <;> cases none
  case h_6 =>
    rfl
  all_goals cases none

/-! ### Closing an agenda -/

/-- Whether phrases that may be missing are missing in front of a kind of
token: it is no operator, and no parameter and no alternative follow. -/
def TokenKind.isNeutral (kind : TokenKind) : Bool :=
  kind.precedence == 0 && kind != .comma && kind != .elseWord

def Token.sample (kind : TokenKind) : Token :=
  ⟨kind, if kind = .integer then "0" else kind.name, 0, 0⟩

namespace Phrase

def isInner : Phrase → Bool
  | .token kind => kind.isNeutral && kind != .endOfInput
  | .finish => false
  | _ => true

def closing : Phrase → List TokenKind
  | .token kind => [kind]
  | .type => [.intType]
  | .operand | .statement | .value => [.integer]
  | .parameters => [.rightParen]
  | .body => [.leftBrace, .rightBrace]
  | .statements | .functions => [.rightBrace]
  | .operators _ | .moreParameters | .alternative | .finish => []

/-- What a token does to an operand: it is one or starts one, it is a numeral
that is too large, or it is out of place like every token of its kind. -/
theorem operand_cases (found : Token) :
    (∃ parts, operand.move found = .takes parts ∧
        parts.all isInner = true) ∨
      (found.kind = .integer ∧ readInt64 found.literal.toList = none ∧
        operand.move found =
          .fails (.atToken found (.invalidInteger found.literal))) ∨
      ∀ other, other.kind = found.kind →
        operand.move other = .fails (.unexpected .expression other) := by
  simp only [move]
  cases read : Expression.ofToken? found with
  | error error =>
      rcases Expression.ofToken_error read with ⟨integer, large, rfl⟩
      exact .inr (.inl ⟨integer, large, rfl⟩)
  | ok operand =>
      cases operand with
      | some expression => exact .inl ⟨_, rfl, rfl⟩
      | none =>
          cases leads : Operator.before? found.kind with
          | some operator => exact .inl ⟨_, rfl, rfl⟩
          | none =>
              by_cases opens : found.kind = .leftParen
              · exact .inl ⟨_, if_pos opens, rfl⟩
              · refine .inr (.inr fun other same => ?_)
                simp only [Expression.ofToken_none same read, same, leads]
                exact if_neg opens

private theorem closing_neutral {phrase : Phrase}
    (inner : phrase.isInner = true) : ∀ kind ∈ phrase.closing,
      kind.isNeutral = true ∧ kind ≠ .endOfInput := by
  cases phrase with
  | token kind =>
      intro other member
      rw [List.mem_singleton.mp member]
      simpa [isInner] using inner
  | operators power =>
      intro kind member
      cases member
  | _ =>
      decide

/-- A phrase is replaced by phrases inside a contract. -/
theorem inner_of_moves {phrase : Phrase} {found : Token} {parts : Agenda}
    (moves : phrase.move found = .takes parts ∨
      phrase.move found = .leaves parts) :
    parts.all isInner = true := by
  cases phrase with
  | operand =>
      rcases operand_cases found with
        ⟨others, same, inner⟩ | ⟨_, _, same⟩ | fails
      · rw [same] at moves
        rcases moves with moves | moves <;> cases moves
        exact inner
      · rw [same] at moves
        rcases moves with moves | moves <;> cases moves
      · rw [fails found rfl] at moves
        rcases moves with moves | moves <;> cases moves
  | statement =>
      simp only [move] at moves
      split at moves
      · rcases moves with moves | moves <;> cases moves
        rfl
      · split at moves
        · rcases moves with moves | moves <;> cases moves
          rfl
        · split at moves <;> rcases moves with moves | moves <;>
            cases moves <;> rfl
  | _ =>
      simp only [move] at moves
      split at moves <;> rcases moves with moves | moves <;> cases moves <;>
        rfl

/-- A phrase is read from the tokens that close it, in front of a token that
goes on with nothing. -/
theorem closing_reads {phrase : Phrase} (inner : phrase.isInner = true)
    (others : Agenda) {behind : Token}
    (neutral : behind.kind.isNeutral = true) :
    Agenda.Reads (phrase :: others) (phrase.closing.map Token.sample) behind
      others := by
  simp only [TokenKind.isNeutral, Bool.and_eq_true, beq_iff_eq,
    bne_iff_ne] at neutral
  rcases neutral with ⟨⟨flat, last⟩, single⟩
  have spare : ∀ power, (Phrase.operators power).move behind =
      .leaves [] := fun power => if_pos (by omega)
  cases phrase with
  | token kind =>
      exact .take (if_pos rfl) (.stop _ _)
  | type =>
      exact .take rfl (.stop _ _)
  | operand =>
      exact .take rfl (.stop _ _)
  | operators power =>
      exact .leave (spare power) (.stop _ _)
  | parameters =>
      exact .leave rfl (.take rfl (.stop _ _))
  | moreParameters =>
      exact .leave (if_neg last) (.stop _ _)
  | body =>
      exact .leave rfl (.take rfl (.leave rfl (.take rfl (.stop _ _))))
  | statement =>
      exact .leave rfl (.take rfl (.leave (spare 0) (.stop _ _)))
  | statements =>
      exact .leave rfl (.take rfl (.stop _ _))
  | value =>
      exact .leave rfl (.take rfl (.leave (spare 0) (.stop _ _)))
  | alternative =>
      exact .leave (if_neg single) (.stop _ _)
  | functions =>
      exact .leave rfl (.take rfl (.stop _ _))
  | finish =>
      cases inner

end Phrase

namespace Agenda

def closing (agenda : Agenda) : List Token :=
  (agenda.flatMap Phrase.closing).map Token.sample

private theorem closing_neutral {agenda : Agenda}
    (inner : agenda.all Phrase.isInner = true) :
    ∀ token ∈ agenda.closing,
      token.kind.isNeutral = true ∧ token.isEnd = false := by
  intro token member
  rcases List.mem_map.mp member with ⟨kind, found, rfl⟩
  rcases List.mem_flatMap.mp found with ⟨phrase, within, closes⟩
  have known := Phrase.closing_neutral
    (List.all_eq_true.mp inner phrase within) kind closes
  exact ⟨known.1, by simpa [Token.isEnd, Token.sample] using known.2⟩

private theorem closing_reads {agenda : Agenda}
    (inner : agenda.all Phrase.isInner = true) (others : Agenda)
    {behind : Token} (neutral : behind.kind.isNeutral = true) :
    Reads (agenda ++ others) agenda.closing behind others := by
  induction agenda with
  | nil =>
      exact .stop _ _
  | cons phrase rest inductionHypothesis =>
      rw [List.all_cons, Bool.and_eq_true] at inner
      have ahead : ((closing rest).headD behind).kind.isNeutral = true := by
        have known := closing_neutral inner.2
        cases shape : closing rest with
        | nil =>
            exact neutral
        | cons token tokens =>
            exact (known token (by simp [shape])).1
      have whole : closing (phrase :: rest) =
          phrase.closing.map Token.sample ++ closing rest := by
        simp [closing]
      rw [whole]
      exact (Phrase.closing_reads inner.1 _ ahead).append
        (inductionHypothesis inner.2)

/-- Only the end of the input is missing behind the phrases inside a contract,
unless nothing is left at all. -/
def Closable (agenda : Agenda) : Prop :=
  agenda = [] ∨ ∃ inner, agenda = inner ++ [.finish] ∧
    inner.all Phrase.isInner = true

private theorem closable_contract : contract.Closable :=
  .inr ⟨[.token .contract, .token .leftBrace, .functions], rfl, rfl⟩

private theorem Closable.moves {phrase : Phrase} {others parts : Agenda}
    {found : Token} (closable : Closable (phrase :: others))
    (moves : phrase.move found = .takes parts ∨
      phrase.move found = .leaves parts) :
    Closable (parts ++ others) := by
  have added := Phrase.inner_of_moves moves
  rcases closable with none | ⟨inner, whole, known⟩
  · cases none
  · cases inner with
    | nil =>
        cases whole
        refine .inl ?_
        simp only [Phrase.move] at moves
        split at moves <;> rcases moves with moves | moves <;> cases moves
        rfl
    | cons first rest =>
        cases whole
        rw [List.all_cons, Bool.and_eq_true] at known
        refine .inr ⟨parts ++ rest, (List.append_assoc _ _ _).symm, ?_⟩
        rw [List.all_append, added, known.2]
        rfl

private theorem Reads.closable {agenda remaining : Agenda}
    {tokens : List Token} {behind : Token}
    (reads : Reads agenda tokens behind remaining)
    (closable : agenda.Closable) : remaining.Closable := by
  induction reads with
  | stop => exact closable
  | take moves _ inductionHypothesis =>
      exact inductionHypothesis (closable.moves (.inl moves))
  | leave moves _ inductionHypothesis =>
      exact inductionHypothesis (closable.moves (.inr moves))

theorem Reads.of_nil {tokens : List Token} {behind : Token}
    {remaining : Agenda} (reads : Reads [] tokens behind remaining) :
    remaining = [] := by
  cases reads
  rfl

/-- What some tokens lead to before the token behind them is looked at. -/
theorem Reads.settled {agenda remaining : Agenda} {tokens : List Token}
    {behind : Token} (reads : Reads agenda tokens behind remaining) :
    ∃ middle, (∀ other, Reads agenda tokens other middle) ∧
      Reads middle [] behind remaining := by
  induction reads with
  | stop agenda behind =>
      exact ⟨agenda, fun other => .stop agenda other, .stop agenda behind⟩
  | take moves _ inductionHypothesis =>
      rcases inductionHypothesis with ⟨middle, everywhere, onward⟩
      exact ⟨middle, fun other => .take moves (everywhere other), onward⟩
  | @leave phrase parts others remaining behind tokens moves onward
      inductionHypothesis =>
      cases tokens with
      | nil =>
          exact ⟨phrase :: others, fun other => .stop _ other,
            .leave moves onward⟩
      | cons token rest =>
          rcases inductionHypothesis with ⟨middle, everywhere, onward⟩
          exact ⟨middle, fun other => .leave moves (everywhere other),
            onward⟩

/-- The token behind some tokens can be exchanged for one in front of which
the same phrases are replaced. -/
theorem Reads.exchange {agenda remaining : Agenda} {tokens : List Token}
    {behind other : Token} (reads : Reads agenda tokens behind remaining)
    (alike : ∀ phrase parts, Phrase.move phrase behind = .leaves parts →
      phrase.move other = .leaves parts) :
    Reads agenda tokens other remaining := by
  induction reads with
  | stop agenda =>
      exact .stop agenda other
  | take moves _ inductionHypothesis =>
      exact .take moves (inductionHypothesis alike)
  | @leave phrase parts others remaining behind tokens moves onward
      inductionHypothesis =>
      refine .leave ?_ (inductionHypothesis alike)
      cases tokens with
      | nil => exact alike phrase parts moves
      | cons token rest => exact moves

end Agenda

/-! ### Beginnings of contracts -/

def Readable (tokens : List Token) : Prop :=
  ∃ contract, (readContract (.ofTokens tokens)).outcome.1 = .ok contract

/-- Some tokens can be continued to a contract. -/
def Viable (tokens : List Token) : Prop :=
  ∃ more, (∀ token ∈ more, token.isEnd = false) ∧
    Readable (tokens ++ more)

/-- An expression may start behind some tokens: whatever is an expression on
its own may stand there. -/
def ExpressionMayStart (tokens : List Token) : Prop :=
  ∀ token expression, Token.StandsFor token expression →
    Viable (tokens ++ [token])

private theorem reads_of_readable {tokens : List Token}
    (readable : Readable tokens) :
    Agenda.contract.Reads (TokenStream.ofTokens tokens).upcoming
      (TokenStream.endingOf tokens) [] := by
  rcases readable with ⟨contract, read⟩
  obtain ⟨rest, given⟩ :
      ∃ rest, (readContract (.ofTokens tokens)).Gives contract rest :=
    ⟨_, Reading.gives_iff_outcome.mpr (Prod.ext read rfl)⟩
  have used : rest.upcoming = [] := by
    rcases readContract_gives.mp given with ⟨_, _, middle, _, _, ends, rfl⟩
    rw [TokenStream.upcoming_advance, TokenStream.upcoming_eq_nil ends]
    rfl
  have explained := readContract_explained (.ofTokens tokens)
  rw [Reading.gives_iff_outcome.mp given] at explained
  cases explained with
  | ok passes reads =>
      rw [TokenStream.current_eq_headD, used, passes.ending] at reads
      rw [passes.upcoming, used, List.append_nil]
      exact reads

private theorem upcoming_of_proper {tokens : List Token}
    (proper : ∀ token ∈ tokens, token.isEnd = false) (others : List Token) :
    (TokenStream.ofTokens (tokens ++ others)).upcoming =
      tokens ++ (TokenStream.ofTokens others).upcoming := by
  apply List.takeWhile_append_of_pos
  intro token member
  rw [proper token member]
  rfl

/-- What an agenda reads up to the end is readable. -/
theorem readable_of_reads {tokens : List Token}
    (proper : ∀ token ∈ tokens, token.isEnd = false)
    (reads : ∀ ending : Token, ending.kind = .endOfInput →
      Agenda.contract.Reads tokens ending []) : Readable tokens := by
  have explained := readContract_explained (.ofTokens tokens)
  unfold Readable
  generalize (readContract (.ofTokens tokens)).outcome = reading at explained
  obtain ⟨outcome, stopped⟩ := reading
  cases explained with
  | ok passes readsToo =>
      exact ⟨_, rfl⟩
  | @error error _ before stuck passes readsToo fails =>
      have whole := upcoming_of_proper proper []
      rw [List.append_nil, passes.upcoming] at whole
      have tokensEq : before ++ stopped.upcoming = tokens :=
        whole.trans (List.append_nil tokens)
      have ended : stopped.ending.kind = .endOfInput := by
        simpa [Token.isEnd] using stopped.ending_isEnd
      have beyond := reads stopped.ending ended
      rw [← tokensEq] at beyond
      have left := readsToo.not_beyond fails
        stopped.current_eq_headD.symm beyond
      exact absurd rfl left.2

/-- Whatever leads to an agenda of which something is left is viable. -/
theorem viable_of_reads {tokens : List Token} {agenda : Agenda}
    (proper : ∀ token ∈ tokens, token.isEnd = false)
    (reads : ∀ behind, Agenda.contract.Reads tokens behind agenda)
    (left : agenda ≠ []) : Viable tokens := by
  have closable := (reads (.sample .endOfInput)).closable
    Agenda.closable_contract
  rcases closable with none | ⟨inner, rfl, known⟩
  · exact absurd none left
  · refine ⟨Agenda.closing inner, fun token member =>
      (Agenda.closing_neutral known token member).2, ?_⟩
    apply readable_of_reads
    · exact List.forall_mem_append.mpr ⟨proper, fun token member =>
        (Agenda.closing_neutral known token member).2⟩
    · intro ending ends
      have neutral : ending.kind.isNeutral = true := by
        rw [ends]
        rfl
      have closed := Agenda.closing_reads known [.finish] neutral
      have finished : Agenda.Reads [.finish] [] ending [] :=
        .leave (if_pos ends) (.stop _ _)
      have whole := (reads _).append (closed.append finished)
      rw [List.append_nil] at whole
      exact whole

/-! ### Faults -/

namespace Phrase

variable {phrase : Phrase} {found : Token} {error : SyntaxError}

/-- A phrase fails at a token that is out of place, as it does at every token
of the same kind, or at a numeral that is too large for an operand. -/
theorem fails_cases (fails : phrase.move found = .fails error) :
    (phrase = .operand ∧ found.kind = .integer ∧
        readInt64 found.literal.toList = none ∧
        error = .atToken found (.invalidInteger found.literal)) ∨
      ∃ expected, error = .unexpected expected found ∧
        ∀ other, other.kind = found.kind →
          phrase.move other = .fails (.unexpected expected other) := by
  cases phrase with
  | operand =>
      rcases operand_cases found with
        ⟨_, same, _⟩ | ⟨integer, large, same⟩ | alike
      · rw [same] at fails
        cases fails
      · rw [same] at fails
        cases fails
        exact .inl ⟨rfl, integer, large, rfl⟩
      · rw [alike found rfl] at fails
        cases fails
        exact .inr ⟨_, rfl, alike⟩
  | token | type | finish =>
      simp only [move] at fails
      split at fails
      · cases fails
      next missing =>
        cases fails
        refine .inr ⟨_, rfl, fun other same => ?_⟩
        rw [← same] at missing
        exact if_neg missing
  | statement =>
      simp only [move] at fails
      split at fails
      · cases fails
      · split at fails
        · cases fails
        · split at fails <;> cases fails
  | _ =>
      simp only [move] at fails
      split at fails <;> cases fails

/-- In front of every operand that is one token, the same phrases are replaced
as in front of a numeral. -/
theorem leaves_of_stands {numeral token : Token} {expression : Expression}
    {parts : Agenda} (integer : numeral.kind = .integer)
    (stands : token.StandsFor expression)
    (leaves : phrase.move numeral = .leaves parts) :
    phrase.move token = .leaves parts := by
  have kinds : token.kind = .identifier ∨ token.kind = .integer ∨
      token.kind = .text ∨ token.kind = .trueWord ∨
      token.kind = .falseWord := by
    cases stands <;> simp [*]
  cases phrase with
  | operand =>
      rcases operand_cases numeral with
        ⟨_, same, _⟩ | ⟨_, _, same⟩ | fails
      · rw [same] at leaves
        cases leaves
      · rw [same] at leaves
        cases leaves
      · rw [fails numeral rfl] at leaves
        cases leaves
  | token | type =>
      simp only [move] at leaves
      split at leaves <;> cases leaves
  | finish =>
      simp only [move, integer] at leaves
      cases leaves
  | _ =>
      simp only [move] at leaves ⊢
      rw [integer] at leaves
      rcases kinds with kind | kind | kind | kind | kind <;>
        rw [kind] <;> exact leaves

end Phrase

section Faults

variable {tokens : List Token} {found : Token} {stuck : Agenda}
  {error : SyntaxError}

private theorem not_readable_of_fails
    (proper : ∀ token ∈ tokens, token.isEnd = false)
    (inside : found.isEnd = false)
    (reads : Agenda.contract.Reads tokens found stuck)
    (fails : stuck.FailsAt found error) (more : List Token) :
    ¬ Readable (tokens ++ found :: more) := by
  intro readable
  have beyond := reads_of_readable readable
  have properToo : ∀ token ∈ tokens ++ [found], token.isEnd = false :=
    List.forall_mem_append.mpr
      ⟨proper, List.forall_mem_singleton.mpr inside⟩
  have whole := upcoming_of_proper properToo more
  rw [List.append_assoc, List.singleton_append] at whole
  rw [whole, List.append_assoc, List.singleton_append] at beyond
  have stopped := reads.not_beyond fails rfl beyond
  exact absurd stopped.1 (List.cons_ne_nil _ _)

private theorem viable_of_fails
    (proper : ∀ token ∈ tokens, token.isEnd = false)
    (reads : Agenda.contract.Reads tokens found stuck)
    (fails : stuck.FailsAt found error) : Viable tokens := by
  -- In front of another token other phrases may be missing, so what is closed
  -- is the agenda before the failing token was looked at.
  rcases reads.settled with ⟨middle, everywhere, onward⟩
  refine viable_of_reads proper everywhere ?_
  rintro rfl
  rcases fails with ⟨phrase, others, rfl, _⟩
  cases onward.of_nil

/-- An expression may start where an operand is still to be read. -/
theorem expressionMayStart_of_operand {others : Agenda}
    (proper : ∀ token ∈ tokens, token.isEnd = false)
    (integer : found.kind = .integer)
    (reads : Agenda.contract.Reads tokens found (.operand :: others)) :
    ExpressionMayStart tokens := by
  intro token expression stands
  have read := Token.standsFor_iff.mp stands
  have takes : Phrase.operand.move token = .takes [] := by
    simp only [Phrase.move, read]
  have here : Agenda.contract.Reads tokens token (.operand :: others) :=
    reads.exchange fun phrase parts => Phrase.leaves_of_stands integer stands
  have onward : ∀ behind,
      Agenda.contract.Reads (tokens ++ [token]) behind others :=
    fun behind => .append here (.take takes (.stop others behind))
  refine viable_of_reads ?_ onward ?_
  · exact List.forall_mem_append.mpr ⟨proper,
      List.forall_mem_singleton.mpr (Expression.inside_of_ofToken read)⟩
  · rintro rfl
    rcases here.closable Agenda.closable_contract with none | ⟨inner, same, _⟩
    · cases none
    · cases inner with
      | nil => cases same
      | cons first rest => simp at same

/-- No expression may start where a numeral is out of place. -/
theorem not_expressionMayStart
    (proper : ∀ token ∈ tokens, token.isEnd = false)
    (integer : found.kind = .integer)
    (reads : Agenda.contract.Reads tokens found stuck)
    {phrase : Phrase} {others : Agenda} (front : stuck = phrase :: others)
    {expected : Expectation}
    (fails : ∀ other, other.kind = found.kind →
      phrase.move other = .fails (.unexpected expected other)) :
    ¬ ExpressionMayStart tokens := by
  intro starts
  -- A numeral that fits would fail here as well.
  have stands : (Token.sample .integer).StandsFor (.integer 0) :=
    .integer rfl (by decide +kernel)
  rcases starts _ _ stands with ⟨more, _, readable⟩
  have here : Agenda.contract.Reads tokens (.sample .integer) stuck :=
    reads.exchange fun phrase parts => Phrase.leaves_of_stands integer stands
  rw [List.append_assoc, List.singleton_append] at readable
  exact not_readable_of_fails proper rfl here
    ⟨phrase, others, front, fails _ integer.symm⟩ more readable

end Faults

/-- An error points at a token and tells what is wrong with it.  What stands in
front of the token can be continued to a contract, but not with the token. -/
structure SyntaxError.PointsAt (error : SyntaxError) (earlier : List Token)
    (token : Token) : Prop where
  line : error.line = token.line
  position : error.position = token.position
  viable : Viable earlier
  impossible : token.isEnd = false →
    ∀ more, ¬ Readable (earlier ++ token :: more)
  invalidInteger : error.cause = .invalidInteger token.literal ↔
    token.kind = .integer ∧ readInt64 token.literal.toList = none ∧
      ExpressionMayStart earlier
  /-- A numeral is refused for its number alone, from `2 ^ 63` on. -/
  bound : token.kind = .integer →
    ∃ number, readDigits token.literal.toList = some number ∧
      (readInt64 token.literal.toList = none ↔
        0x8000000000000000 ≤ number)
  illegal : error.cause = .illegal token.literal ↔ token.kind = .illegal
  cause : error.cause = .invalidInteger token.literal ∨
    error.cause = .illegal token.literal ∨
    ∃ expected, error.cause = .unexpected expected token

private theorem pointsAt_of_fails {tokens : List Token} {found : Token}
    {stuck : Agenda} {error : SyntaxError}
    (proper : ∀ token ∈ tokens, token.isEnd = false)
    (numeral : found.kind = .integer →
      ∃ number, readDigits found.literal.toList = some number)
    (reads : Agenda.contract.Reads tokens found stuck)
    (fails : stuck.FailsAt found error) : error.PointsAt tokens found := by
  have viable := viable_of_fails proper reads fails
  have bound : found.kind = .integer →
      ∃ number, readDigits found.literal.toList = some number ∧
        (readInt64 found.literal.toList = none ↔
          0x8000000000000000 ≤ number) := by
    intro integer
    obtain ⟨number, digits⟩ := numeral integer
    exact ⟨number, digits, readInt64_eq_none_iff digits⟩
  have impossible : found.isEnd = false →
      ∀ more, ¬ Readable (tokens ++ found :: more) :=
    fun inside => not_readable_of_fails proper inside reads fails
  rcases fails with ⟨phrase, others, rfl, fails⟩
  rcases Phrase.fails_cases fails with
    ⟨rfl, integer, large, rfl⟩ | ⟨expected, rfl, alike⟩
  · have starts := expressionMayStart_of_operand proper integer reads
    refine ⟨rfl, rfl, viable, impossible,
      ⟨fun _ => ⟨integer, large, starts⟩, fun _ => rfl⟩, bound, ⟨?_, ?_⟩,
      .inl rfl⟩
    · intro illegal
      cases illegal
    · intro illegal
      rw [integer] at illegal
      cases illegal
  · by_cases illegal : found.kind = .illegal
    · have cause : (SyntaxError.unexpected expected found).cause =
          .illegal found.literal := if_pos illegal
      refine ⟨rfl, rfl, viable, impossible, ⟨?_, ?_⟩, bound,
        ⟨fun _ => illegal, fun _ => cause⟩, .inr (.inl cause)⟩
      · intro invalid
        rw [cause] at invalid
        cases invalid
      · rintro ⟨integer, _⟩
        rw [illegal] at integer
        cases integer
    · have cause : (SyntaxError.unexpected expected found).cause =
          .unexpected expected found := if_neg illegal
      refine ⟨rfl, rfl, viable, impossible, ⟨?_, ?_⟩, bound,
        ⟨?_, fun other => absurd other illegal⟩, .inr (.inr ⟨_, cause⟩)⟩
      · intro invalid
        rw [cause] at invalid
        cases invalid
      · rintro ⟨integer, _, starts⟩
        exact absurd starts
          (not_expressionMayStart proper integer reads rfl alike)
      · intro other
        rw [cause] at other
        cases other

section

variable [IdentifierCharacters]

/-- The tokens of a text are those that come up in their stream, and the end
of the input. -/
theorem tokenize_eq_upcoming (source : String) :
    tokenize source =
      (TokenStream.ofTokens (tokenize source)).upcoming ++
        [(TokenStream.ofTokens (tokenize source)).ending] := by
  have tiles : Tiles [] source.toList (tokenize source) :=
    tokensFrom_tiles .start source.toList [] (Place.past_nil _).symm
  rcases tiles.ended with ⟨proper, line, whole, known⟩
  have inside : ∀ token ∈ proper, token.isEnd = false :=
    fun token member => (known token member).1
  have upcoming := upcoming_of_proper inside
    [Token.endOfInput (utf8Length ([] ++ source.toList)) line]
  have none : proper.find? Token.isEnd = .none :=
    List.find?_eq_none.mpr fun token member => by simp [inside token member]
  have ending : TokenStream.endingOf (tokenize source) =
      Token.endOfInput (utf8Length ([] ++ source.toList)) line := by
    rw [TokenStream.endingOf, whole, List.find?_append, none]
    rfl
  rw [← whole] at upcoming
  rw [upcoming]
  change tokenize source =
    proper ++ [] ++ [TokenStream.endingOf (tokenize source)]
  rw [ending, List.append_nil]
  exact whole

/-- A contract that cannot be read is refused at the first of its tokens that
no contract goes on with. -/
theorem readContract_points_at_fault {source : String} {error : SyntaxError}
    (failed : (readContract (.ofTokens (tokenize source))).outcome.1 =
      .error error) :
    ∃ earlier token later, tokenize source = earlier ++ token :: later ∧
      error.PointsAt earlier token := by
  have whole := tokenize_eq_upcoming source
  have proper := (TokenStream.ofTokens (tokenize source)).upcoming_not_end
  have explained := readContract_explained (.ofTokens (tokenize source))
  generalize (readContract (.ofTokens (tokenize source))).outcome = reading
    at failed explained
  obtain ⟨outcome, stopped⟩ := reading
  cases explained with
  | ok =>
      cases failed
  | @error error _ earlier stuck passes reads fails =>
      cases failed
      rw [passes.upcoming] at whole proper
      rw [← passes.ending, List.append_assoc] at whole
      obtain ⟨later, found⟩ : ∃ later, stopped.upcoming ++
          [stopped.ending] = stopped.current :: later := by
        rw [TokenStream.current_eq_headD]
        cases stopped.upcoming with
        | nil => exact ⟨_, rfl⟩
        | cons token rest => exact ⟨_, rfl⟩
      rw [found] at whole
      have listed : stopped.current ∈ tokenize source := by
        rw [whole]
        exact List.mem_append_right _ List.mem_cons_self
      have spelled := tokensFrom_spelled .start source.toList _ listed
      exact ⟨earlier, _, later, whole, pointsAt_of_fails
        (fun token member => proper token (List.mem_append_left _ member))
        spelled.number reads fails⟩

end

open IdentifierTables

/-- A number stands where a parenthesis is missing. -/
theorem readContract_points_at_number :
    ∃ earlier token later,
      tokenize "contract\x7bfunc f()\x7bif(!(a<3)\n2" =
        earlier ++ token :: later ∧
      SyntaxError.PointsAt
        ⟨.unexpected (.token .rightParen) ⟨.integer, "2", 28, 2⟩, 2, 28⟩
        earlier token := by
  apply readContract_points_at_fault
  decide +kernel

end ContractCompiler
