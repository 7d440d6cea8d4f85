/-
Reading does not depend on places.

A reader decides by the kinds of tokens and takes names and values from their
spellings.  Two streams of the same lexemes are read alike: with the same
result, or with the same error at tokens that differ in their places only.

Programs that do the same when they are shown the same lexemes run alike on such
streams, and the program of every reader is alike to itself.
-/

import ContractCompiler.Compile
import ContractCompiler.Proofs.Lexemes
import ContractCompiler.Proofs.Progress

namespace ContractCompiler

/-! ### Errors without places -/

def Token.unplaced (token : Token) : Token :=
  { token with position := 0, line := 0 }

def SyntaxError.Cause.unplaced : SyntaxError.Cause → SyntaxError.Cause
  | .unexpected expected found => .unexpected expected found.unplaced
  | cause => cause

def SyntaxError.unplaced (error : SyntaxError) : SyntaxError :=
  ⟨error.cause.unplaced, 0, 0⟩

/-- The text of a cause tells no place either way. -/
theorem SyntaxError.Cause.message_unplaced (cause : SyntaxError.Cause) :
    cause.unplaced.message = cause.message := by
  cases cause with
  | unexpected expected found => rfl
  | illegal literal => rfl
  | invalidInteger literal => rfl

theorem Token.lexeme_eq_iff {first second : Token} :
    first.lexeme = second.lexeme ↔
      first.kind = second.kind ∧ first.literal = second.literal := by
  simp only [lexeme, Lexeme.mk.injEq, String.toList_inj]

private theorem SyntaxError.unplaced_unexpected {first second : Token}
    (alike : first.lexeme = second.lexeme) (expected : Expectation) :
    (unexpected expected first).unplaced =
      (unexpected expected second).unplaced := by
  rcases Token.lexeme_eq_iff.mp alike with ⟨kinds, literals⟩
  unfold unexpected
  rw [kinds]
  split <;>
    simp [unplaced, atToken, Cause.unplaced, Token.unplaced, kinds, literals]

/-! ### Streams of the same lexemes -/

namespace TokenStream

structure Alike (first second : TokenStream) : Prop where
  upcoming : first.upcoming.map Token.lexeme =
    second.upcoming.map Token.lexeme
  ending : first.ending.lexeme = second.ending.lexeme

variable {first second : TokenStream}

private theorem Alike.current (alike : first.Alike second) :
    first.current.lexeme = second.current.lexeme := by
  have same := alike.upcoming
  unfold TokenStream.current
  cases left : first.upcoming with
  | nil =>
      cases right : second.upcoming with
      | nil => exact alike.ending
      | cons token rest => simp [left, right] at same
  | cons token rest =>
      cases right : second.upcoming with
      | nil => simp [left, right] at same
      | cons other others =>
          rw [left, right, List.map_cons, List.map_cons] at same
          exact (List.cons.inj same).1

private theorem Alike.advance (alike : first.Alike second) :
    first.advance.Alike second.advance := by
  constructor
  · rw [upcoming_advance, upcoming_advance, List.map_tail, List.map_tail,
      alike.upcoming]
  · rw [ending_advance, ending_advance]
    exact alike.ending

end TokenStream

/-- What two tokens stand for as operands is the same, or their errors
are. -/
theorem Expression.ofToken_alike {first second : Token}
    (alike : first.lexeme = second.lexeme) :
    (∃ error another, ofToken? first = .error error ∧
      ofToken? second = .error another ∧
      error.unplaced = another.unplaced) ∨
    ∃ operand, ofToken? first = .ok operand ∧
      ofToken? second = .ok operand := by
  rcases Token.lexeme_eq_iff.mp alike with ⟨kinds, literals⟩
  unfold ofToken?
  rw [kinds, literals]
  cases second.kind with
  | integer =>
      cases fits : readInt64 second.literal.toList with
      | none =>
          left
          exact ⟨_, _, rfl, rfl, rfl⟩
      | some value =>
          right
          exact ⟨_, rfl, rfl⟩
  | _ =>
      right
      exact ⟨_, rfl, rfl⟩

/-! ### Programs that do the same -/

namespace Reader

variable {α β : Type}

/-- Two programs do the same as long as they are shown the same lexemes.  Their
errors may lie at other places. -/
inductive Program.Alike (same : α → α → Prop) :
    Program α → Program α → Prop where
  | done {value found : α} (values : same value found) :
      Alike same (.done value) (.done found)
  | fail {error another : SyntaxError}
      (errors : error.unplaced = another.unplaced) :
      Alike same (.fail error) (.fail another)
  | look {next following : Token → Program α}
      (onward : ∀ token other, token.lexeme = other.lexeme →
        Alike same (next token) (following other)) :
      Alike same (.look next) (.look following)
  | advance {next following : Token → Program α}
      (onward : ∀ token other, token.lexeme = other.lexeme →
        Alike same (next token) (following other)) :
      Alike same (.advance next) (.advance following)
  | invoke (call : Call) {next following : call.Result → Program α}
      (onward : ∀ value, Alike same (next value) (following value)) :
      Alike same (.invoke call next) (.invoke call following)

private theorem Program.Alike.bind {same : α → α → Prop}
    {sameToo : β → β → Prop} {first second : Program α}
    {next following : α → Program β} (alike : first.Alike same second)
    (onward : ∀ value found, same value found →
      (next value).Alike sameToo (following found)) :
    (first >>= next).Alike sameToo (second >>= following) := by
  induction alike with
  | done values => exact onward _ _ values
  | fail errors => exact .fail errors
  | look _ inductionHypothesis => exact .look inductionHypothesis
  | advance _ inductionHypothesis => exact .advance inductionHypothesis
  | invoke call _ inductionHypothesis =>
      exact .invoke call inductionHypothesis

inductive Agree (same : α → α → Prop) :
    Except SyntaxError α → Except SyntaxError α → Prop where
  | ok {value found : α} (values : same value found) :
      Agree same (.ok value) (.ok found)
  | error {error another : SyntaxError}
      (errors : error.unplaced = another.unplaced) :
      Agree same (.error error) (.error another)

/-! ### Readers depend on lexemes only -/

section Parts

variable {same : α → α → Prop} {program : Program α}

private theorem alike_current {next : Token → Program α}
    (onward : ∀ token other, token.lexeme = other.lexeme →
      token.kind = other.kind → (next token).Alike same (next other)) :
    (current >>= next).Alike same (current >>= next) :=
  .look fun token other lexemes =>
    onward token other lexemes (Token.lexeme_eq_iff.mp lexemes).1

private theorem alike_advance (alike : program.Alike same program) :
    (advance >>= fun _ => program).Alike same (advance >>= fun _ => program) :=
  .advance fun _ _ _ => alike

private theorem alike_call {call : Call} {next : call.Result → Program α}
    (onward : ∀ value, (next value).Alike same (next value)) :
    (Reader.call call >>= next).Alike same (Reader.call call >>= next) :=
  .invoke call onward

private theorem alike_unexpected {expected : Expectation} {token other : Token}
    (lexemes : token.lexeme = other.lexeme) :
    (Program.fail (.unexpected expected token)).Alike same
      (.fail (.unexpected expected other)) :=
  .fail (SyntaxError.unplaced_unexpected lexemes expected)

private theorem alike_expect (kind : TokenKind) :
    (expect kind).Alike (fun token other => token.lexeme = other.lexeme)
      (expect kind) := by
  apply alike_current
  intro token other lexemes kinds
  rw [kinds]
  split
  · exact .advance fun _ _ same => .done same
  · exact alike_unexpected lexemes

/-- The token that is expected plays no part behind it. -/
theorem alike_passing {kind : TokenKind} (alike : program.Alike same program) :
    (expect kind >>= fun _ => program).Alike same
      (expect kind >>= fun _ => program) :=
  (alike_expect kind).bind fun _ _ _ => alike

private theorem alike_name : name.Alike Eq name := by
  apply (alike_expect .identifier).bind
  intro token other lexemes
  exact .done (Token.lexeme_eq_iff.mp lexemes).2

private theorem alike_typeName : typeName.Alike Eq typeName := by
  apply alike_current
  intro token other lexemes kinds
  rw [kinds]
  split
  · exact alike_advance (.done rfl)
  · exact alike_unexpected lexemes

private theorem alike_typedName : typedName.Alike Eq typedName := by
  apply alike_name.bind
  rintro name _ rfl
  apply alike_typeName.bind
  rintro type _ rfl
  exact .done rfl

private theorem alike_parameterList :
    parameterList.Alike Eq parameterList := by
  apply alike_current
  intro token other lexemes kinds
  rw [kinds]
  split
  · exact .done rfl
  · exact .invoke .parameters fun _ => .done rfl

private theorem alike_returnType : returnType.Alike Eq returnType := by
  apply alike_current
  intro token other lexemes kinds
  rw [kinds]
  split
  · exact alike_typeName
  · exact .done rfl

private theorem alike_operand : (body .operand).Alike Eq (body .operand) := by
  apply alike_current
  intro token other lexemes kinds
  rcases Expression.ofToken_alike lexemes with
    ⟨error, another, failed, failedToo, errors⟩ | ⟨operand, found, foundToo⟩
  · rw [failed, failedToo]
    exact .fail errors
  · rw [found, foundToo, kinds]
    cases operand with
    | some expression => exact alike_advance (.done rfl)
    | none =>
        dsimp only
        split
        next => exact alike_advance (alike_call fun _ => .done rfl)
        next =>
          split
          next =>
            apply alike_advance
            apply alike_call
            intro expression
            exact alike_passing (.done rfl)
          next => exact alike_unexpected lexemes

private theorem alike_statement :
    (body .statement).Alike Eq (body .statement) := by
  apply alike_current
  intro token other lexemes kinds
  rw [kinds]
  split
  next =>
    apply alike_advance
    apply alike_current
    intro token other lexemes kinds
    rw [kinds]
    split
    next => exact .done rfl
    next => exact alike_call fun _ => .done rfl
  next =>
    split
    next =>
      apply alike_advance
      apply alike_passing
      apply alike_call
      intro condition
      apply alike_passing
      apply alike_call
      intro consequence
      apply alike_current
      intro token other lexemes kinds
      rw [kinds]
      split
      next => exact alike_advance (alike_call fun _ => .done rfl)
      next => exact .done rfl
    next =>
      split
      next =>
        apply alike_typeName.bind
        rintro type _ rfl
        apply alike_name.bind
        rintro name _ rfl
        apply alike_passing
        exact alike_call fun _ => .done rfl
      next => exact alike_call fun _ => .done rfl

/-- What a reader does depends on the lexemes only. -/
theorem alike_body (call : Call) : (body call).Alike Eq (body call) := by
  cases call with
  | contract =>
      apply alike_passing
      apply alike_passing
      apply alike_call
      intro functions
      apply alike_passing
      exact alike_passing (.done rfl)
  | functions | statements =>
      apply alike_current
      intro token other lexemes kinds
      rw [kinds]
      split
      next => exact .done rfl
      next => exact alike_call fun _ => alike_call fun _ => .done rfl
  | function =>
      apply alike_passing
      apply alike_name.bind
      rintro name _ rfl
      apply alike_passing
      apply alike_parameterList.bind
      rintro parameters _ rfl
      apply alike_passing
      apply alike_returnType.bind
      rintro type _ rfl
      exact alike_call fun _ => .done rfl
  | parameters =>
      apply alike_call
      rintro ⟨parameter, more⟩
      cases more with
      | true => exact alike_call fun _ => .done rfl
      | false => exact .done rfl
  | parameter =>
      apply alike_typedName.bind
      rintro parameter _ rfl
      apply alike_current
      intro token other lexemes kinds
      rw [kinds]
      split
      next => exact alike_advance (.done rfl)
      next => exact .done rfl
  | block =>
      apply alike_passing
      apply alike_call
      intro statements
      exact alike_passing (.done rfl)
  | statement => exact alike_statement
  | expression power =>
      exact alike_call fun left =>
        .invoke (.operators power left) fun _ => .done rfl
  | operators power left =>
      apply alike_current
      intro token other lexemes kinds
      rw [kinds]
      split
      next => exact .done rfl
      next =>
        split
        next => exact .done rfl
        next operator _ =>
          exact alike_call fun combined =>
            .invoke (.operators power combined) fun _ => .done rfl
  | operation operator left power =>
      exact alike_advance (alike_call fun _ => .done rfl)
  | operand => exact alike_operand

end Parts

/-! ### Runs on streams of the same lexemes -/

/-- Programs that do the same run alike on streams of the same lexemes. -/
theorem Program.Runs.alike {same : α → α → Prop} {program other : Program α}
    {stream another rest : TokenStream} {consumed : List Token}
    {records : List Record} {outcome : Except SyntaxError α}
    (runs : program.Runs stream consumed records outcome rest)
    (alike : program.Alike same other) (streams : stream.Alike another) :
    ∃ passed calls result remaining,
      other.Runs another passed calls result remaining ∧
        Agree same outcome result ∧ rest.Alike remaining := by
  induction runs generalizing another with
  | done =>
      cases alike with
      | done values => exact ⟨_, _, _, _, .done, .ok values, streams⟩
  | fail =>
      cases alike with
      | fail errors => exact ⟨_, _, _, _, .fail, .error errors, streams⟩
  | look _ inductionHypothesis =>
      cases alike with
      | look onward =>
          obtain ⟨_, _, _, _, second, agree, rests⟩ :=
            inductionHypothesis (onward _ _ streams.current) streams
          exact ⟨_, _, _, _, .look second, agree, rests⟩
  | advance _ inductionHypothesis =>
      cases alike with
      | advance onward =>
          obtain ⟨_, _, _, _, second, agree, rests⟩ :=
            inductionHypothesis (onward _ _ streams.current) streams.advance
          exact ⟨_, _, _, _, .advance second, agree, rests⟩
  | @returned _ call _ _ _ _ _ _ _ _ _ _ _ _ innerHypothesis
      inductionHypothesis =>
      cases alike with
      | invoke _ onward =>
          obtain ⟨_, _, _, _, inner, agree, middles⟩ :=
            innerHypothesis (alike_body call) streams
          cases agree with
          | ok values =>
              cases values
              obtain ⟨_, _, _, _, second, agree, rests⟩ :=
                inductionHypothesis (onward _) middles
              exact ⟨_, _, _, _, .returned inner second, agree, rests⟩
  | @failed _ call _ _ _ _ _ _ _ innerHypothesis =>
      cases alike with
      | invoke _ onward =>
          obtain ⟨_, _, _, _, inner, agree, rests⟩ :=
            innerHypothesis (alike_body call) streams
          cases agree with
          | error errors =>
              exact ⟨_, _, _, _, .failed inner, .error errors, rests⟩

end Reader

/-- Streams of the same lexemes are read as the same contract. -/
theorem readContract_alike {first second : TokenStream}
    (streams : first.Alike second) :
    Reader.Agree Eq (readContract first).outcome.1
      (readContract second).outcome.1 := by
  obtain ⟨_, _, runs⟩ := runsAs_readContract.runs
  obtain ⟨_, _, result, _, runsToo, agree, _⟩ :=
    runs.alike (.invoke .contract fun _ => .done rfl) streams
  rw [runsAs_readContract.outcome_eq runsToo]
  exact agree

/-! ### Lists of tokens -/

theorem TokenStream.lexemes_upcoming (tokens : List Token) :
    (ofTokens tokens).upcoming.map Token.lexeme =
      (tokens.map Token.lexeme).takeWhile
        fun lexeme => !(lexeme.kind == .endOfInput) := by
  rw [List.takeWhile_map]
  rfl

private theorem TokenStream.lexeme_ending (tokens : List Token) :
    (ofTokens tokens).ending.lexeme =
      ((tokens.map Token.lexeme).find?
        fun lexeme => lexeme.kind == .endOfInput).getD
          (Token.endOfInput 0 0).lexeme := by
  rw [List.find?_map, Option.getD_map]
  rfl

private theorem TokenStream.ofTokens_alike {first second : List Token}
    (lexemes : first.map Token.lexeme = second.map Token.lexeme) :
    (ofTokens first).Alike (ofTokens second) := by
  constructor
  · rw [lexemes_upcoming, lexemes_upcoming, lexemes]
  · rw [lexeme_ending, lexeme_ending, lexemes]

def CompileFailure.unplaced : CompileFailure → CompileFailure
  | .syntactic error => .syntactic error.unplaced
  | failure => failure

variable [IdentifierCharacters]

/-- Texts with the same lexemes are compiled alike. -/
theorem compile_alike {first second : String} (config : Config)
    (lexemes : (tokenize first).map Token.lexeme =
      (tokenize second).map Token.lexeme) :
    (compile config first).mapError CompileFailure.unplaced =
      (compile config second).mapError CompileFailure.unplaced := by
  have agree := readContract_alike (TokenStream.ofTokens_alike lexemes)
  unfold compile Contract.parse
  revert agree
  generalize (readContract (.ofTokens (tokenize first))).outcome.1 = outcome
  generalize (readContract (.ofTokens (tokenize second))).outcome.1 = result
  intro agree
  cases agree with
  | ok values =>
      cases values
      rfl
  | error errors =>
      simp only [Except.mapError, CompileFailure.unplaced, errors]

end ContractCompiler
