/-
What is still to be read.

In the middle of a contract, an agenda lists the phrases that are still to
come.  The token at the front decides what becomes of the first of them: the
token is taken, the phrase is replaced without taking anything, or reading
fails.  Nothing else is looked at, so an agenda is worked off in one way, and
only as far as the tokens go.

Every reader works off the agenda of its phrase.  When it fails, the token
where it stands is one that the agenda fails at.  Both are said of the programs
of the readers, call by call, and hold of the readers because they run as these
programs do.
-/

import ContractCompiler.Proofs.Progress

namespace ContractCompiler

/-- A phrase that is still to be read.  Parameters, statements and functions
are listed together with the token that closes them. -/
inductive Phrase where
  | token (kind : TokenKind)
  | type
  | operand
  | operators (power : Nat)
  | parameters
  | moreParameters
  | body
  | statement
  | statements
  | value
  | alternative
  | functions
  | finish

abbrev Agenda := List Phrase

namespace Agenda

def expression (power : Nat) : Agenda :=
  [.operand, .operators power]

def block : Agenda :=
  [.token .leftBrace, .statements]

def parameter : Agenda :=
  [.token .identifier, .type, .moreParameters]

def condition : Agenda :=
  .token .leftParen :: (expression 0 ++ [.token .rightParen])

def assignment : Agenda :=
  .token .identifier :: .token .assign :: expression 0

def function : Agenda :=
  [.token .function, .token .identifier, .token .leftParen, .parameters,
    .body]

def contract : Agenda :=
  [.token .contract, .token .leftBrace, .functions, .finish]

end Agenda

inductive Phrase.Move where
  | takes (parts : Agenda)
  | leaves (parts : Agenda)
  | fails (error : SyntaxError)

def Phrase.move : Phrase → Token → Move
  | .token kind, found =>
      if found.kind = kind then .takes []
      else .fails (.unexpected (.token kind) found)
  | .type, found =>
      if found.kind.isType then .takes []
      else .fails (.unexpected .type found)
  | .operand, found =>
      match Expression.ofToken? found with
      | .error error => .fails error
      | .ok (some _) => .takes []
      | .ok none =>
          match Operator.before? found.kind with
          | some _ => .takes (.expression signPrecedence)
          | none =>
              if found.kind = .leftParen then
                .takes (Agenda.expression 0 ++ [.token .rightParen])
              else
                .fails (.unexpected .expression found)
  | .operators power, found =>
      if found.kind.precedence ≤ power then .leaves []
      else
        .takes (Agenda.expression found.kind.precedence ++ [.operators power])
  | .parameters, found =>
      if found.kind = .rightParen then .leaves [.token .rightParen]
      else .leaves (Agenda.parameter ++ [.token .rightParen])
  | .moreParameters, found =>
      if found.kind = .comma then .takes .parameter else .leaves []
  | .body, found =>
      if found.kind.isType then .takes .block else .leaves .block
  | .statement, found =>
      if found.kind = .returnWord then .takes [.value]
      else if found.kind = .ifWord then
        .takes (Agenda.condition ++ Agenda.block ++ [.alternative])
      else if found.kind.isType then .takes .assignment
      else .leaves (.expression 0)
  | .statements, found =>
      if found.kind = .rightBrace ∨ found.kind = .endOfInput then
        .leaves [.token .rightBrace]
      else
        .leaves [.statement, .statements]
  | .value, found =>
      if found.kind = .rightBrace then .leaves []
      else .leaves (.expression 0)
  | .alternative, found =>
      if found.kind = .elseWord then .takes .block else .leaves []
  | .functions, found =>
      if found.kind = .rightBrace ∨ found.kind = .endOfInput then
        .leaves [.token .rightBrace]
      else
        .leaves (Agenda.function ++ [.functions])
  | .finish, found =>
      if found.kind = .endOfInput then .leaves []
      else .fails (.unexpected (.token .endOfInput) found)

/-! ### Working off an agenda -/

/-- Reading some tokens, with one more token behind them, an agenda is worked
off up to another one. -/
inductive Agenda.Reads : Agenda → List Token → Token → Agenda → Prop where
  | stop (agenda : Agenda) (behind : Token) : Reads agenda [] behind agenda
  | take {phrase : Phrase} {parts others remaining : Agenda}
      {found behind : Token} {tokens : List Token}
      (moves : phrase.move found = .takes parts)
      (onward : Reads (parts ++ others) tokens behind remaining) :
      Reads (phrase :: others) (found :: tokens) behind remaining
  | leave {phrase : Phrase} {parts others remaining : Agenda}
      {behind : Token} {tokens : List Token}
      (moves : phrase.move (tokens.headD behind) = .leaves parts)
      (onward : Reads (parts ++ others) tokens behind remaining) :
      Reads (phrase :: others) tokens behind remaining

/-- An agenda fails at a token, which its first phrase cannot start with. -/
def Agenda.FailsAt (agenda : Agenda) (found : Token)
    (error : SyntaxError) : Prop :=
  ∃ phrase others, agenda = phrase :: others ∧
    phrase.move found = .fails error

namespace Agenda

variable {agenda middle remaining : Agenda}

theorem headD_append (first second : List Token) (behind : Token) :
    (first ++ second).headD behind = first.headD (second.headD behind) := by
  cases first <;> rfl

theorem Reads.append {first second : List Token} {behind : Token}
    (reads : Reads agenda first (second.headD behind) middle)
    (onward : Reads middle second behind remaining) :
    Reads agenda (first ++ second) behind remaining := by
  generalize ahead : second.headD behind = next at reads
  induction reads with
  | stop =>
      exact onward
  | take moves _ inductionHypothesis =>
      exact .take moves (inductionHypothesis onward ahead)
  | @leave phrase parts others remaining next tokens moves _
      inductionHypothesis =>
      refine .leave ?_ (inductionHypothesis onward ahead)
      rw [headD_append, ahead]
      exact moves

/-- Behind an agenda that fails no token is read, and some of it is left. -/
theorem Reads.not_beyond {tokens more : List Token} {found behind : Token}
    {error : SyntaxError} (reads : Reads agenda tokens found middle)
    (fails : middle.FailsAt found error)
    (ahead : more.headD behind = found)
    (beyond : Reads agenda (tokens ++ more) behind remaining) :
    more = [] ∧ remaining ≠ [] := by
  induction reads with
  | stop agenda found =>
      rcases fails with ⟨phrase, others, rfl, fails⟩
      cases beyond with
      | stop =>
          exact ⟨rfl, List.cons_ne_nil _ _⟩
      | take moves onward =>
          rw [List.headD_cons] at ahead
          rw [ahead, fails] at moves
          cases moves
      | leave moves onward =>
          rw [List.nil_append, ahead, fails] at moves
          cases moves
  | @take phrase parts others middle next found tokens moves onward
      inductionHypothesis =>
      cases beyond with
      | take movesToo onwardToo =>
          rw [moves] at movesToo
          cases movesToo
          exact inductionHypothesis fails ahead onwardToo
      | leave movesToo onwardToo =>
          rw [List.cons_append, List.headD_cons, moves] at movesToo
          cases movesToo
  | @leave phrase parts others middle found tokens moves onward
      inductionHypothesis =>
      rw [← ahead, ← headD_append] at moves
      generalize whole : tokens ++ more = all at beyond moves
      cases beyond with
      | stop =>
          rcases List.append_eq_nil_iff.mp whole with ⟨rfl, rfl⟩
          exact ⟨rfl, List.cons_ne_nil _ _⟩
      | take movesToo onwardToo =>
          rw [List.headD_cons, movesToo] at moves
          cases moves
      | leave movesToo onwardToo =>
          rw [moves] at movesToo
          cases movesToo
          rw [← whole] at onwardToo
          exact inductionHypothesis fails ahead onwardToo

end Agenda

/-! ### Places of a stream -/

namespace TokenStream

structure Passes (stream : TokenStream) (tokens : List Token)
    (rest : TokenStream) : Prop where
  upcoming : stream.upcoming = tokens ++ rest.upcoming
  ending : rest.ending = stream.ending

theorem Passes.refl (stream : TokenStream) : stream.Passes [] stream :=
  ⟨rfl, rfl⟩

theorem Passes.trans {stream middle rest : TokenStream}
    {first second : List Token} (passes : stream.Passes first middle)
    (onward : middle.Passes second rest) :
    stream.Passes (first ++ second) rest := by
  constructor
  · rw [passes.upcoming, onward.upcoming, List.append_assoc]
  · rw [onward.ending, passes.ending]

private theorem Passes.current {stream rest : TokenStream}
    {tokens : List Token} (passes : stream.Passes tokens rest) :
    tokens.headD rest.current = stream.current := by
  rw [current_eq_headD, current_eq_headD, passes.upcoming, passes.ending,
    Agenda.headD_append]

private theorem passes_advance {stream : TokenStream}
    (inside : stream.current.isEnd = false) :
    stream.Passes [stream.current] stream.advance :=
  ⟨upcoming_eq_cons inside, ending_advance stream⟩

/-- The end of the input can be passed without passing a token. -/
theorem passes_end {stream : TokenStream}
    (ends : stream.kind = .endOfInput) :
    stream.Passes [] stream.advance := by
  refine ⟨?_, ending_advance stream⟩
  rw [List.nil_append, upcoming_advance, upcoming_eq_nil ends]
  rfl

end TokenStream

/-- An agenda explains an outcome: it is worked off up to another one, or up to
a token where it fails. -/
inductive Agenda.Explains {α : Type} (agenda : Agenda) (stream : TokenStream)
    (next : α → Agenda) : Except SyntaxError α → TokenStream → Prop where
  | ok {value : α} {rest : TokenStream} {tokens : List Token}
      (passes : stream.Passes tokens rest)
      (reads : agenda.Reads tokens rest.current (next value)) :
      Explains agenda stream next (.ok value) rest
  | error {error : SyntaxError} {rest : TokenStream} {tokens : List Token}
      {stuck : Agenda} (passes : stream.Passes tokens rest)
      (reads : agenda.Reads tokens rest.current stuck)
      (fails : stuck.FailsAt rest.current error) :
      Explains agenda stream next (.error error) rest

private theorem Agenda.Explains.after {α : Type} {agenda middle : Agenda}
    {stream onward rest : TokenStream} {next : α → Agenda}
    {outcome : Except SyntaxError α} {tokens : List Token}
    (explains : middle.Explains onward next outcome rest)
    (passes : stream.Passes tokens onward)
    (reads : agenda.Reads tokens onward.current middle) :
    agenda.Explains stream next outcome rest := by
  cases explains with
  | ok passesToo readsToo =>
      rw [← passesToo.current] at reads
      exact .ok (passes.trans passesToo) (reads.append readsToo)
  | error passesToo readsToo fails =>
      rw [← passesToo.current] at reads
      exact .error (passes.trans passesToo) (reads.append readsToo) fails

/-! ### Programs work off agendas -/

namespace Reader

/-- What a call works off, and what is on the agenda once it has returned.
Functions and statements stop in front of the brace that closes them.  A round
of parameters takes the comma behind it, and a round of operators starts at the
operator. -/
inductive Call.Covers (stream : TokenStream) :
    (call : Call) → Agenda → (call.Result → Agenda) → Prop where
  | contract : Covers stream .contract .contract fun _ => []
  | functions (others : Agenda) :
      Covers stream .functions (.functions :: others)
        fun _ => .token .rightBrace :: others
  | function (others : Agenda) :
      Covers stream .function (.function ++ others) fun _ => others
  | parameters (others : Agenda) :
      Covers stream .parameters (.parameter ++ others) fun _ => others
  | parameter (others : Agenda) :
      Covers stream .parameter (.parameter ++ others)
        fun round => if round.2 then .parameter ++ others else others
  | block (others : Agenda) :
      Covers stream .block (.block ++ others) fun _ => others
  | statements (others : Agenda) :
      Covers stream .statements (.statements :: others)
        fun _ => .token .rightBrace :: others
  | statement (others : Agenda) :
      Covers stream .statement (.statement :: others) fun _ => others
  | expression (power : Nat) (others : Agenda) :
      Covers stream (.expression power) (.expression power ++ others)
        fun _ => others
  | operators (power : Nat) (left : Expression) (others : Agenda) :
      Covers stream (.operators power left) (.operators power :: others)
        fun _ => others
  | operation {power : Nat} {operator : Operator} (left : Expression)
      (others : Agenda) (tight : ¬ stream.kind.precedence ≤ power)
      (found : Operator.between? stream.kind = some operator) :
      Covers stream (.operation operator left stream.kind.precedence)
        (.operators power :: others) fun _ => .operators power :: others
  | operand (others : Agenda) :
      Covers stream .operand (.operand :: others) fun _ => others

variable {α β : Type}

/-- A program works off an agenda from a place of a stream, if the programs that
it calls do. -/
def Program.Follows :
    Program α → TokenStream → Agenda → (α → Agenda) → Prop
  | .done value, stream, agenda, next =>
      agenda.Reads [] stream.current (next value)
  | .fail error, stream, agenda, _ =>
      ∃ stuck, agenda.Reads [] stream.current stuck ∧
        stuck.FailsAt stream.current error
  | .look continued, stream, agenda, next =>
      (continued stream.current).Follows stream agenda next
  | .advance continued, stream, agenda, next =>
      ∃ tokens middle, stream.Passes tokens stream.advance ∧
        agenda.Reads tokens stream.advance.current middle ∧
        (continued stream.current).Follows stream.advance middle next
  | .invoke call continued, stream, agenda, next =>
      ∃ middle after, agenda.Reads [] stream.current middle ∧
        call.Covers stream middle after ∧
        ∀ value rest, (continued value).Follows rest (after value) next

section Rules

variable {program : Program α} {stream : TokenStream}
  {agenda middle others parts : Agenda} {next : α → Agenda}

/-- Phrases may be replaced before anything is read. -/
theorem Program.Follows.after
    (follows : program.Follows stream middle next)
    (reads : agenda.Reads [] stream.current middle) :
    program.Follows stream agenda next := by
  induction program with
  | done value => exact .append reads follows
  | fail error =>
      obtain ⟨stuck, onward, fails⟩ := follows
      exact ⟨stuck, .append reads onward, fails⟩
  | look continued inductionHypothesis =>
      exact inductionHypothesis _ follows
  | advance continued =>
      obtain ⟨tokens, behind, passes, onward, follows⟩ := follows
      rw [← passes.current] at reads
      exact ⟨tokens, behind, passes, .append reads onward, follows⟩
  | invoke call continued =>
      obtain ⟨front, after, onward, covers, follows⟩ := follows
      exact ⟨front, after, .append reads onward, covers, follows⟩

private theorem Program.Follows.leave (phrase : Phrase)
    (moves : phrase.move stream.current = .leaves parts)
    (follows : program.Follows stream (parts ++ others) next) :
    program.Follows stream (phrase :: others) next :=
  follows.after (.leave moves (.stop _ _))

private theorem Program.Follows.bind {following : α → Program β}
    {behind : α → Agenda} {last : β → Agenda}
    (follows : program.Follows stream agenda behind)
    (onward : ∀ value rest,
      (following value).Follows rest (behind value) last) :
    (program >>= following).Follows stream agenda last := by
  induction program generalizing stream agenda with
  | done value => exact (onward value stream).after follows
  | fail error => exact follows
  | look continued inductionHypothesis =>
      exact inductionHypothesis _ follows
  | advance continued inductionHypothesis =>
      obtain ⟨tokens, middle, passes, reads, follows⟩ := follows
      exact ⟨tokens, middle, passes, reads, inductionHypothesis _ follows⟩
  | invoke call continued inductionHypothesis =>
      obtain ⟨middle, after, reads, covers, follows⟩ := follows
      exact ⟨middle, after, reads, covers,
        fun value rest => inductionHypothesis value (follows value rest)⟩

private theorem follows_pure {value : α} :
    (pure value : Program α).Follows stream agenda fun _ => agenda :=
  .stop _ _

private theorem follows_look {following : Token → Program α}
    (follows : (following stream.current).Follows stream agenda next) :
    (current >>= following).Follows stream agenda next :=
  follows

private theorem follows_fail {error : SyntaxError} (phrase : Phrase)
    (moves : phrase.move stream.current = .fails error) :
    (Program.fail error).Follows stream (phrase :: others) next :=
  ⟨_, .stop _ _, phrase, others, rfl, moves⟩

/-- A token is taken by the first phrase. -/
theorem follows_take {following : Token → Program α} (phrase : Phrase)
    (inside : stream.current.isEnd = false)
    (moves : phrase.move stream.current = .takes parts)
    (follows : (following stream.current).Follows stream.advance
      (parts ++ others) next) :
    (advance >>= following).Follows stream (phrase :: others) next :=
  ⟨_, _, TokenStream.passes_advance inside, .take moves (.stop _ _), follows⟩

private theorem follows_call {call : Call}
    {following : call.Result → Program α} {after : call.Result → Agenda}
    (covers : call.Covers stream agenda after)
    (onward : ∀ value rest,
      (following value).Follows rest (after value) next) :
    (Reader.call call >>= following).Follows stream agenda next :=
  ⟨_, _, .stop _ _, covers, onward⟩

private theorem follows_expect (kind : TokenKind)
    (proper : kind ≠ .endOfInput := by decide) :
    (expect kind).Follows stream (.token kind :: others)
      fun _ => others := by
  apply follows_look
  split
  next found =>
    have inside := TokenStream.inside_of_kind found proper
    exact ⟨_, _, TokenStream.passes_advance inside,
      .take (if_pos found) (.stop _ _), .stop _ _⟩
  next missing => exact follows_fail (.token kind) (if_neg missing)

end Rules

/-! ### Readers work off agendas -/

section Readers

variable {stream : TokenStream} (others : Agenda)

private theorem follows_name :
    name.Follows stream (.token .identifier :: others) fun _ => others :=
  (follows_expect .identifier).bind fun _ _ => follows_pure

/-- The name of a type is taken by whichever phrase stands first. -/
theorem follows_typeName_of_isType {parts : Agenda} (phrase : Phrase)
    (declares : stream.kind.isType = true)
    (moves : phrase.move stream.current = .takes parts) :
    typeName.Follows stream (phrase :: others) fun _ => parts ++ others := by
  apply follows_look
  split
  next type found =>
    have inside := ValueType.inside_of_ofKind found
    exact follows_take phrase inside moves follows_pure
  next missing =>
    rcases ValueType.isType_iff.mp declares with ⟨type, found⟩
    cases missing.symm.trans found

private theorem follows_typeName :
    typeName.Follows stream (.type :: others) fun _ => others := by
  by_cases declares : stream.kind.isType = true
  · exact follows_typeName_of_isType others .type declares (if_pos declares)
  · apply follows_look
    split
    next type found =>
      exact absurd (ValueType.isType_iff.mpr ⟨type, found⟩) declares
    next => exact follows_fail .type (if_neg declares)

private theorem follows_typedName :
    typedName.Follows stream (.parameter ++ others)
      fun _ => .moreParameters :: others := by
  apply (follows_name _).bind
  intro name rest
  exact (follows_typeName _).bind fun _ _ => follows_pure

private theorem follows_parameterList :
    parameterList.Follows stream (.parameters :: others)
      fun _ => .token .rightParen :: others := by
  apply follows_look
  split
  next empty => exact .leave .parameters (if_pos empty) follows_pure
  next some =>
    apply Program.Follows.leave .parameters (if_neg some)
    exact follows_call (.parameters _) fun _ _ => follows_pure

private theorem follows_returnType :
    returnType.Follows stream (.body :: others)
      fun _ => .block ++ others := by
  apply follows_look
  split
  next declares =>
    exact follows_typeName_of_isType others .body declares (if_pos declares)
  next untyped => exact .leave .body (if_neg untyped) follows_pure

private theorem follows_operand :
    (body .operand).Follows stream (.operand :: others)
      fun _ => others := by
  apply follows_look
  cases found : Expression.ofToken? stream.current with
  | error error =>
      apply follows_fail .operand
      simp only [Phrase.move, found]
  | ok operand =>
      cases operand with
      | some expression =>
          have moves : Phrase.operand.move stream.current = .takes [] := by
            simp only [Phrase.move, found]
          exact follows_take .operand (Expression.inside_of_ofToken found)
            moves follows_pure
      | none =>
          cases leads : Operator.before? stream.current.kind with
          | some operator =>
              have moves : Phrase.operand.move stream.current =
                  .takes (.expression signPrecedence) := by
                simp only [Phrase.move, found, leads]
              apply follows_take .operand (Operator.inside_of_before leads)
                moves
              exact follows_call (.expression _ _) fun _ _ => follows_pure
          | none =>
              have moves : Phrase.operand.move stream.current =
                  if stream.current.kind = .leftParen then
                    .takes (Agenda.expression 0 ++
                      [Phrase.token .rightParen])
                  else
                    .fails (.unexpected .expression stream.current) := by
                simp only [Phrase.move, found, leads]
              dsimp only
              split
              next opens =>
                apply follows_take .operand
                  (TokenStream.inside_of_kind opens (by decide))
                  (moves.trans (if_pos opens))
                rw [List.append_assoc]
                apply follows_call (.expression _ _)
                intro expression rest
                exact (follows_expect .rightParen).bind fun _ _ =>
                  follows_pure
              next closed =>
                exact follows_fail .operand (moves.trans (if_neg closed))

private theorem follows_statement :
    (body .statement).Follows stream (.statement :: others)
      fun _ => others := by
  apply follows_look
  split
  next returning =>
    apply follows_take .statement
      (TokenStream.inside_of_kind returning (by decide)) (if_pos returning)
    apply follows_look
    split
    next closed => exact .leave .value (if_pos closed) follows_pure
    next valued =>
      apply Program.Follows.leave .value (if_neg valued)
      exact follows_call (.expression 0 _) fun _ _ => follows_pure
  next noReturn =>
    split
    next branching =>
      apply follows_take .statement
        (TokenStream.inside_of_kind branching (by decide))
        ((if_neg noReturn).trans (if_pos branching))
      simp only [Agenda.condition, List.cons_append, List.append_assoc]
      apply (follows_expect .leftParen).bind
      intro _ rest
      apply follows_call (.expression 0 _)
      intro condition rest
      apply (follows_expect .rightParen).bind
      intro _ rest
      apply follows_call (.block _)
      intro consequence rest
      apply follows_look
      split
      next otherwise =>
        apply follows_take .alternative
          (TokenStream.inside_of_kind otherwise (by decide))
          (if_pos otherwise)
        exact follows_call (.block _) fun _ _ => follows_pure
      next last => exact .leave .alternative (if_neg last) follows_pure
    next straight =>
      split
      next declares =>
        -- The word for the type is taken together with the statement.
        have moves : Phrase.statement.move stream.current =
            .takes .assignment :=
          ((if_neg noReturn).trans (if_neg straight)).trans (if_pos declares)
        apply (follows_typeName_of_isType others .statement declares
          moves).bind
        intro type rest
        apply (follows_name _).bind
        intro name rest
        apply (follows_expect .assign).bind
        intro _ rest
        exact follows_call (.expression 0 _) fun _ _ => follows_pure
      next untyped =>
        have moves : Phrase.statement.move stream.current =
            .leaves (.expression 0) :=
          ((if_neg noReturn).trans (if_neg straight)).trans (if_neg untyped)
        apply Program.Follows.leave .statement moves
        exact follows_call (.expression 0 _) fun _ _ => follows_pure

/-- The end of the input is passed without passing a token. -/
theorem follows_finish {contract : Contract} :
    (expect .endOfInput >>= fun _ => pure contract).Follows stream [.finish]
      fun _ => [] := by
  apply follows_look
  change ((if stream.current.kind = .endOfInput then advance
    else .fail (.unexpected (.token .endOfInput) stream.current)) >>=
      fun _ => pure contract).Follows stream [.finish] fun _ => []
  split
  next ends =>
    apply Program.Follows.leave .finish (if_pos ends)
    exact ⟨[], [], TokenStream.passes_end ends, .stop _ _, .stop _ _⟩
  next more => exact follows_fail .finish (if_neg more)

end Readers

/-- Every call works off what it covers. -/
theorem Call.Covers.follows {call : Call} {stream : TokenStream}
    {agenda : Agenda} {after : call.Result → Agenda}
    (covers : call.Covers stream agenda after) :
    (body call).Follows stream agenda after := by
  cases covers with
  | contract =>
      apply (follows_expect .contract).bind
      intro _ rest
      apply (follows_expect .leftBrace).bind
      intro _ rest
      apply follows_call (.functions _)
      intro functions rest
      apply (follows_expect .rightBrace).bind
      intro _ rest
      exact follows_finish
  | functions others =>
      apply follows_look
      split
      next closed => exact .leave .functions (if_pos closed) follows_pure
      next goesOn =>
        apply Program.Follows.leave .functions (if_neg goesOn)
        rw [List.append_assoc]
        apply follows_call (.function _)
        intro function rest
        exact follows_call (.functions others) fun _ _ => follows_pure
  | function others =>
      apply (follows_expect .function).bind
      intro _ rest
      apply (follows_name _).bind
      intro name rest
      apply (follows_expect .leftParen).bind
      intro _ rest
      apply (follows_parameterList _).bind
      intro parameters rest
      apply (follows_expect .rightParen).bind
      intro _ rest
      apply (follows_returnType others).bind
      intro type rest
      exact follows_call (.block others) fun _ _ => follows_pure
  | parameters others =>
      apply follows_call (.parameter others)
      rintro ⟨parameter, more⟩ rest
      cases more with
      | true => exact follows_call (.parameters others) fun _ _ => follows_pure
      | false => exact follows_pure
  | parameter others =>
      apply (follows_typedName others).bind
      intro parameter rest
      apply follows_look
      split
      next more =>
        exact follows_take .moreParameters
          (TokenStream.inside_of_kind more (by decide)) (if_pos more)
          (.stop _ _)
      next last => exact .leave .moreParameters (if_neg last) (.stop _ _)
  | block others =>
      apply (follows_expect .leftBrace).bind
      intro _ rest
      apply follows_call (.statements others)
      intro statements rest
      exact (follows_expect .rightBrace).bind fun _ _ => follows_pure
  | statements others =>
      apply follows_look
      split
      next closed => exact .leave .statements (if_pos closed) follows_pure
      next goesOn =>
        apply Program.Follows.leave .statements (if_neg goesOn)
        apply follows_call (.statement _)
        intro statement rest
        exact follows_call (.statements others) fun _ _ => follows_pure
  | statement others => exact follows_statement others
  | expression power others =>
      apply follows_call (.operand _)
      intro left rest
      exact follows_call (.operators power left others) fun _ _ =>
        follows_pure
  | operators power left others =>
      apply follows_look
      split
      next loose =>
        exact .leave (.operators power) (if_pos loose) follows_pure
      next tight =>
        split
        next missing =>
          have flat := Operator.between_none_iff.mp missing
          omega
        next operator found =>
          apply follows_call (.operation left others tight found)
          intro combined rest
          exact follows_call (.operators power combined others) fun _ _ =>
            follows_pure
  | @operation power operator left others tight found =>
      apply follows_take (.operators power)
        (Operator.inside_of_between found) (if_neg tight)
      rw [List.append_assoc]
      exact follows_call (.expression _ _) fun _ _ => follows_pure
  | operand others => exact follows_operand others

/-- A run is explained by the agenda that its program works off. -/
theorem Program.Runs.explained {program : Program α}
    {stream rest : TokenStream} {consumed : List Token}
    {records : List Record} {outcome : Except SyntaxError α}
    {agenda : Agenda} {next : α → Agenda}
    (runs : program.Runs stream consumed records outcome rest)
    (follows : program.Follows stream agenda next) :
    agenda.Explains stream next outcome rest := by
  induction runs generalizing agenda with
  | done => exact .ok (.refl _) follows
  | fail =>
      obtain ⟨stuck, reads, fails⟩ := follows
      exact .error (.refl _) reads fails
  | look _ inductionHypothesis => exact inductionHypothesis follows
  | advance _ inductionHypothesis =>
      obtain ⟨tokens, middle, passes, reads, follows⟩ := follows
      exact (inductionHypothesis follows).after passes reads
  | returned _ _ innerHypothesis inductionHypothesis =>
      obtain ⟨middle, after, reads, covers, follows⟩ := follows
      have inner := innerHypothesis covers.follows
      cases inner with
      | ok passesToo readsToo =>
          have onward := (inductionHypothesis (follows _ _)).after passesToo
            readsToo
          exact onward.after (.refl _) reads
  | failed _ innerHypothesis =>
      obtain ⟨middle, after, reads, covers, follows⟩ := follows
      have inner := innerHypothesis covers.follows
      cases inner with
      | error passesToo readsToo fails =>
          exact .after (.error passesToo readsToo fails) (.refl _) reads

end Reader

/-- Reading a contract works off the agenda of contracts. -/
theorem readContract_explained (stream : TokenStream) :
    Agenda.contract.Explains stream (fun _ => [])
      (readContract stream).outcome.1 (readContract stream).outcome.2 := by
  obtain ⟨_, _, runs⟩ := runsAs_readContract.runs
  exact runs.explained ⟨_, _, .stop _ _, .contract, fun _ _ => .stop _ _⟩

end ContractCompiler
