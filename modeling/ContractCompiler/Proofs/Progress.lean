/-
Readers always make progress.

Every reader runs to its end on every stream, with the outcome that it is
defined to have.  Along the run each round of a loop consumes a token, so do
all readers that succeed, and the end of the input stays where it is until a
whole contract was read.

The argument follows the readers.  Each of them is built from a few
combinators, and each combinator keeps what a run is to have consumed.  What
else there is to say about the readers is said about their programs.
-/

import ContractCompiler.Proofs.ReaderPrograms

namespace ContractCompiler

namespace Reader

/-! ### What calls consume -/

/-- Whether a call may return without having consumed a token.  Only loops may
that can end before their first round. -/
def Call.mayRest : Call → Bool
  | .functions => true
  | .statements => true
  | .operators _ _ => true
  | _ => false

/-- How often a call consumes the end of the input if it returns. -/
def Call.ends : Call → Nat
  | .contract => 1
  | _ => 0

/-- A call has consumed the end of the input once if it has read a contract,
and never otherwise.  If it has returned, it has consumed another token,
unless it is a loop that may rest. -/
structure Record.Progresses (record : Record) : Prop where
  ends : record.consumed.countP Token.isEnd =
    if record.returned then record.call.ends else 0
  moves : record.returned = true → record.call.mayRest = false →
    ∃ token ∈ record.consumed, token.isEnd = false

end Reader

/-! ### Readings as runs -/

namespace Reading

open Reader (Program Record)

variable {α β : Type}

/-- A reading is what a program comes to.  The program consumes the end of the
input as often as `ends` says, or never when it fails, and its calls make
progress. -/
inductive RunsAs (program : Program α) (stream : TokenStream) (ends : Nat)
    {bound : Nat} : Reading α bound → Prop where
  | ok {value : α} {rest : TokenStream} {shorter : rest.left < bound}
      {consumed : List Token} {records : List Record}
      (runs : program.Runs stream consumed records (.ok value) rest)
      (ended : consumed.countP Token.isEnd = ends)
      (progress : ∀ record ∈ records, record.Progresses) :
      RunsAs program stream ends (.ok (value, ⟨rest, shorter⟩))
  | error {failure : ReadFailure} {consumed : List Token}
      {records : List Record}
      (runs : program.Runs stream consumed records (.error failure.error)
        failure.stream)
      (ended : consumed.countP Token.isEnd = 0)
      (progress : ∀ record ∈ records, record.Progresses) :
      RunsAs program stream ends (.error failure)

variable {program : Program α} {stream : TokenStream} {ends bound : Nat}

private theorem RunsAs.andThen {first : Reading α bound}
    {next : α → (rest : TokenStream) → rest.left < bound →
      Reading β bound} {following : α → Program β}
    (runsAs : first.RunsAs program stream 0)
    (onward : ∀ value rest shorter,
      (next value rest shorter).RunsAs (following value) rest ends) :
    (first.andThen next).RunsAs (program >>= following) stream ends := by
  cases runsAs with
  | error runs ended progress =>
      exact .error runs.bind_error ended progress
  | @ok value rest shorter consumed records runs ended progress =>
      have continued := onward value rest shorter
      rw [Reading.andThen]
      generalize next value rest shorter = second at continued
      cases continued with
      | ok runsToo endedToo progressToo =>
          refine .ok (runs.bind_ok runsToo) ?_
            (List.forall_mem_append.mpr ⟨progress, progressToo⟩)
          rw [List.countP_append, ended, endedToo, Nat.zero_add]
      | error runsToo endedToo progressToo =>
          refine .error (runs.bind_ok runsToo) ?_
            (List.forall_mem_append.mpr ⟨progress, progressToo⟩)
          rw [List.countP_append, ended, endedToo]

private theorem RunsAs.loosen {reading : Reading α bound} {large : Nat}
    {le : bound ≤ large} (runsAs : reading.RunsAs program stream ends) :
    (reading.loosen le).RunsAs program stream ends := by
  cases runsAs with
  | ok runs ended progress => exact .ok runs ended progress
  | error runs ended progress => exact .error runs ended progress

private theorem RunsAs.map {reading : Reading α bound} {change : α → β}
    {following : α → Program β} (runsAs : reading.RunsAs program stream ends)
    (returns : ∀ value, following value = pure (change value)) :
    (reading.map change).RunsAs (program >>= following) stream ends := by
  cases runsAs with
  | error runs ended progress =>
      exact .error runs.bind_error ended progress
  | @ok value rest shorter consumed records runs ended progress =>
      have finished : (following value).Runs rest [] []
          (.ok (change value)) rest := by
        rw [returns]
        exact .done
      have whole := runs.bind_ok finished
      rw [List.append_nil, List.append_nil] at whole
      exact .ok whole ended progress

/-- A program that looks at the current token goes on with it. -/
theorem RunsAs.look {reading : Reading α bound}
    {following : Token → Program α}
    (runsAs : reading.RunsAs (following stream.current) stream ends) :
    reading.RunsAs (Reader.current >>= following) stream ends := by
  cases runsAs with
  | ok runs ended progress => exact .ok (.look runs) ended progress
  | error runs ended progress => exact .error (.look runs) ended progress

section Branches

variable {reading : Reading α bound} {first second : Program α}
  {condition : Prop} [Decidable condition]

private theorem RunsAs.of_pos (holds : condition)
    (runsAs : reading.RunsAs first stream ends) :
    reading.RunsAs (if condition then first else second) stream ends := by
  rw [if_pos holds]
  exact runsAs

private theorem RunsAs.of_neg (fails : ¬ condition)
    (runsAs : reading.RunsAs second stream ends) :
    reading.RunsAs (if condition then first else second) stream ends := by
  rw [if_neg fails]
  exact runsAs

end Branches

private theorem runsAs_ok {value : α} {shorter : stream.left < bound} :
    RunsAs (pure value) stream 0
      (.ok (value, ⟨stream, shorter⟩) : Reading α bound) :=
  .ok .done rfl (List.forall_mem_nil _)

private theorem runsAs_error {error : SyntaxError} :
    RunsAs (.fail error) stream ends
      (.error ⟨error, stream⟩ : Reading α bound) :=
  .error .fail rfl (List.forall_mem_nil _)

/-- The outcome is that of a run. -/
theorem RunsAs.runs {reading : Reading α bound}
    (runsAs : reading.RunsAs program stream ends) :
    ∃ consumed records, program.Runs stream consumed records
      reading.outcome.1 reading.outcome.2 := by
  cases runsAs with
  | ok runs => exact ⟨_, _, runs⟩
  | error runs => exact ⟨_, _, runs⟩

theorem RunsAs.outcome_eq {reading : Reading α bound} {rest : TokenStream}
    {consumed : List Token} {records : List Record}
    {outcome : Except SyntaxError α}
    (runsAs : reading.RunsAs program stream ends)
    (runs : program.Runs stream consumed records outcome rest) :
    reading.outcome = (outcome, rest) := by
  obtain ⟨_, _, own⟩ := runsAs.runs
  obtain ⟨_, _, rfl, rfl⟩ := own.unique runs
  rfl

/-- A run that leaves fewer tokens has consumed one of them. -/
theorem exists_consumed {outcome : Except SyntaxError α}
    {rest : TokenStream} {consumed : List Token} {records : List Record}
    (runs : program.Runs stream consumed records outcome rest)
    (shorter : rest.left < stream.left) :
    ∃ token ∈ consumed, token.isEnd = false := by
  by_contra none
  apply Nat.ne_of_lt shorter
  apply runs.left_eq
  intro token member
  cases ends : token.isEnd with
  | true => rfl
  | false => exact absurd ⟨token, member, ends⟩ none

/-- A call comes to what its body comes to, and is a record of its own. -/
theorem RunsAs.called {call : Reader.Call} {reading : Reading call.Result bound}
    (runsAs : reading.RunsAs (Reader.body call) stream call.ends)
    (shortens : call.mayRest = true ∨ bound ≤ stream.left) :
    reading.RunsAs (Reader.call call) stream call.ends := by
  cases runsAs with
  | @error failure consumed records runs ended progress =>
      have failed : Record.Progresses ⟨call, consumed, false⟩ :=
        ⟨ended, fun returned => absurd returned Bool.false_ne_true⟩
      exact .error (.failed runs) ended
        (List.forall_mem_cons.mpr ⟨failed, progress⟩)
  | @ok value rest shorter consumed records runs ended progress =>
      have whole : (Reader.call call).Runs stream (consumed ++ [])
          (⟨call, consumed, true⟩ :: (records ++ [])) (.ok value) rest :=
        .returned runs .done
      rw [List.append_nil, List.append_nil] at whole
      have returned : Record.Progresses ⟨call, consumed, true⟩ := by
        refine ⟨ended, ?_⟩
        intro _ moves
        rcases shortens with rests | below
        · exact absurd (moves.symm.trans rests) Bool.false_ne_true
        · exact exists_consumed runs (Nat.lt_of_lt_of_le shorter below)
      exact .ok whole ended
        (List.forall_mem_cons.mpr ⟨returned, progress⟩)

end Reading

namespace TokenStream

variable {stream : TokenStream}

private theorem runsAs_take {inside : stream.current.isEnd = false} :
    (stream.take inside).RunsAs Reader.advance stream 0 := by
  refine .ok (.advance .done) ?_ (List.forall_mem_nil _)
  rw [List.countP_cons, inside]
  rfl

private theorem runsAs_expect {kind : TokenKind}
    {proper : kind ≠ .endOfInput} :
    (stream.expect kind proper).RunsAs (Reader.expect kind) stream 0 := by
  apply Reading.RunsAs.look
  unfold expect
  by_cases found : stream.kind = kind
  · rw [dif_pos found]
    exact .of_pos found runsAs_take
  · rw [dif_neg found]
    exact .of_neg found Reading.runsAs_error

theorem le_of_shorter {rest : TokenStream}
    (shorter : rest.left < stream.left) : rest.left ≤ stream.left :=
  Nat.le_of_lt shorter

theorem inside_of_comma (found : stream.kind = .comma) :
    stream.current.isEnd = false :=
  inside_of_kind found (by decide)

end TokenStream

/-! ### Expressions -/

section Operands

variable {stream : TokenStream}

private theorem readOperand_of_error {error : SyntaxError}
    (failed : Expression.ofToken? stream.current = .error error) :
    readOperand stream = .error ⟨error, stream⟩ := by
  rw [readOperand]
  split
  next same => rw [failed] at same; cases same; rfl
  next same => rw [failed] at same; cases same
  next same => rw [failed] at same; cases same

private theorem readOperand_of_token {expression : Expression}
    (token : Expression.ofToken? stream.current = .ok (some expression)) :
    readOperand stream =
      (stream.take (Expression.inside_of_ofToken token)).map
        fun _ => expression := by
  rw [readOperand]
  split
  next same => rw [token] at same; cases same
  next same => rw [token] at same; cases same; rfl
  next same => rw [token] at same; cases same

private theorem readOperand_of_before {operator : Operator}
    (none : Expression.ofToken? stream.current = .ok none)
    (leads : Operator.before? stream.kind = some operator) :
    readOperand stream =
      (stream.take (Operator.inside_of_before leads)).andThen
        fun _ rest shorter =>
          ((readExpression signPrecedence rest).map
              (Expression.unary operator)).loosen
            (Nat.le_of_lt shorter) := by
  rw [readOperand]
  split
  next same => rw [none] at same; cases same
  next same => rw [none] at same; cases same
  next =>
    split
    next same => rw [leads] at same; cases same; rfl
    next same => rw [leads] at same; cases same

private theorem readOperand_of_leftParen (opens : stream.kind = .leftParen) :
    readOperand stream =
      (stream.take (TokenStream.inside_of_kind opens (by decide))).andThen
        fun _ rest shorter =>
          (readExpression 0 rest).loosen (Nat.le_of_lt shorter)
            |>.andThen fun expression rest shorter =>
              ((rest.expect .rightParen).map
                  fun _ => expression).loosen (Nat.le_of_lt shorter) := by
  have none : Expression.ofToken? stream.current = .ok none := by
    unfold TokenStream.kind at opens
    simp only [Expression.ofToken?, opens]
  rw [readOperand]
  split
  next same => rw [none] at same; cases same
  next same => rw [none] at same; cases same
  next =>
    split
    next same => rw [opens] at same; cases same
    next => rw [dif_pos opens]

private theorem readOperand_of_other
    (none : Expression.ofToken? stream.current = .ok none)
    (unsigned : Operator.before? stream.kind = .none)
    (closed : stream.kind ≠ .leftParen) :
    readOperand stream = .refuse .expression stream := by
  rw [readOperand]
  split
  next same => rw [none] at same; cases same
  next same => rw [none] at same; cases same
  next =>
    split
    next same => rw [unsigned] at same; cases same
    next => rw [dif_neg closed]

end Operands

private theorem readOperators_of_loose {power : Nat} {left : Expression}
    {stream : TokenStream} (loose : stream.kind.precedence ≤ power) :
    readOperators power left stream = .done left stream := by
  rw [readOperators, if_pos loose]

private theorem readOperators_of_tight {power : Nat} {left : Expression}
    {stream : TokenStream} {operator : Operator}
    (tight : ¬ stream.kind.precedence ≤ power)
    (found : Operator.between? stream.kind = some operator) :
    readOperators power left stream =
      ((stream.take (Operator.inside_of_between found)).andThen
        fun _ rest shorter =>
          ((readExpression stream.kind.precedence rest).loosen
              (Nat.le_of_lt shorter)).andThen fun right rest shorter =>
            (readOperators power (.binary operator left right)
                rest).loosen shorter).loosen (Nat.le_succ _) := by
  rw [readOperators, if_neg tight]
  split
  next same => rw [found] at same; cases same
  next same => rw [found] at same; cases same; rfl

section Expressions

variable {stream : TokenStream}

def readOperation (operator : Operator) (left : Expression)
    (stream : TokenStream) (inside : stream.current.isEnd = false) :
    Reading Expression stream.left :=
  (stream.take inside).andThen fun _ rest shorter =>
    ((readExpression stream.kind.precedence rest).map
      (Expression.binary operator left)).loosen
        (TokenStream.le_of_shorter shorter)

private theorem readOperators_of_round {power : Nat} {left : Expression}
    {operator : Operator} (tight : ¬ stream.kind.precedence ≤ power)
    (found : Operator.between? stream.kind = some operator) :
    readOperators power left stream =
      ((readOperation operator left stream
          (Operator.inside_of_between found)).andThen
        fun combined rest shorter =>
          (readOperators power combined rest).loosen shorter).loosen
        (Nat.le_succ _) := by
  rw [readOperators_of_tight tight found, readOperation, TokenStream.take,
    Reading.andThen, Reading.andThen]
  cases readExpression stream.kind.precedence stream.advance with
  | error failure => rfl
  | ok result => rfl

structure ExpressionsRun (size : Nat) : Prop where
  expression : ∀ power {stream : TokenStream}, stream.left < size →
    (readExpression power stream).RunsAs (Reader.call (.expression power))
      stream 0
  operators : ∀ power left {stream : TokenStream}, stream.left < size →
    (readOperators power left stream).RunsAs
      (Reader.call (.operators power left)) stream 0

variable {size : Nat}

private theorem ExpressionsRun.operand (run : ExpressionsRun size)
    (inside : stream.left < size + 1) :
    (readOperand stream).RunsAs (Reader.call .operand) stream 0 := by
  apply Reading.RunsAs.called _ (Or.inr (Nat.le_refl _))
  apply Reading.RunsAs.look
  cases found : Expression.ofToken? stream.current with
  | error error =>
      rw [readOperand_of_error found]
      exact Reading.runsAs_error
  | ok operand =>
      cases operand with
      | some expression =>
          rw [readOperand_of_token found]
          exact TokenStream.runsAs_take.map fun _ => rfl
      | none =>
          cases leads : Operator.before? stream.current.kind with
          | some operator =>
              rw [readOperand_of_before found leads]
              apply TokenStream.runsAs_take.andThen
              intro _ rest shorter
              exact ((run.expression _ (by omega)).map fun _ => rfl).loosen
          | none =>
              by_cases opens : stream.kind = .leftParen
              · rw [readOperand_of_leftParen opens]
                apply Reading.RunsAs.of_pos opens
                apply TokenStream.runsAs_take.andThen
                intro _ rest shorter
                apply (run.expression 0 (by omega)).loosen.andThen
                intro expression rest shorter
                exact (TokenStream.runsAs_expect.map fun _ => rfl).loosen
              · rw [readOperand_of_other found leads opens]
                exact .of_neg opens Reading.runsAs_error

private theorem ExpressionsRun.operation (run : ExpressionsRun size)
    {operator : Operator} {left : Expression}
    {inside : stream.current.isEnd = false} (small : stream.left < size + 1) :
    (readOperation operator left stream inside).RunsAs
      (Reader.call (.operation operator left stream.kind.precedence))
      stream 0 := by
  apply Reading.RunsAs.called _ (Or.inr (Nat.le_refl _))
  apply TokenStream.runsAs_take.andThen
  intro _ rest shorter
  exact ((run.expression _ (by omega)).map fun _ => rfl).loosen

private theorem ExpressionsRun.step (run : ExpressionsRun size) :
    ExpressionsRun (size + 1) := by
  constructor
  · intro power stream inside
    apply Reading.RunsAs.called _ (Or.inr (Nat.le_refl _))
    rw [readExpression]
    apply (run.operand inside).andThen
    intro left rest shorter
    exact (run.operators power left (by omega)).loosen
  · intro power left stream inside
    apply Reading.RunsAs.called _ (Or.inl rfl)
    apply Reading.RunsAs.look
    by_cases loose : stream.kind.precedence ≤ power
    · rw [readOperators_of_loose loose]
      exact .of_pos loose Reading.runsAs_ok
    · apply Reading.RunsAs.of_neg loose
      cases found : Operator.between? stream.current.kind with
      | none =>
          have flat : stream.kind.precedence = 0 :=
            Operator.between_none_iff.mp found
          omega
      | some operator =>
          rw [readOperators_of_round loose found]
          apply Reading.RunsAs.loosen
          apply (run.operation inside).andThen
          intro combined rest shorter
          exact (run.operators power combined (by omega)).loosen

private theorem expressionsRun (size : Nat) : ExpressionsRun size := by
  induction size with
  | zero =>
      constructor
      · intro power stream inside
        omega
      · intro power left stream inside
        omega
  | succ size inductionHypothesis =>
      exact inductionHypothesis.step

theorem runsAs_readExpression (power : Nat) :
    (readExpression power stream).RunsAs (Reader.call (.expression power))
      stream 0 :=
  (expressionsRun (stream.left + 1)).expression power (Nat.lt_succ_self _)

theorem runsAs_readOperators (power : Nat) (left : Expression) :
    (readOperators power left stream).RunsAs
      (Reader.call (.operators power left)) stream 0 :=
  (expressionsRun (stream.left + 1)).operators power left
    (Nat.lt_succ_self _)

theorem runsAs_readOperand :
    (readOperand stream).RunsAs (Reader.call .operand) stream 0 :=
  (expressionsRun stream.left).operand (Nat.lt_succ_self _)

end Expressions

/-! ### Types and parameters -/

section Parts

variable {stream : TokenStream}

theorem runsAs_readType :
    (readType stream).RunsAs Reader.typeName stream 0 := by
  apply Reading.RunsAs.look
  unfold readType
  split
  next type found =>
    split
    next other same =>
      cases found.symm.trans same
      exact TokenStream.runsAs_take.map fun _ => rfl
    next missing => cases found.symm.trans missing
  next missing =>
    split
    next type found => cases missing.symm.trans found
    next => exact Reading.runsAs_error

theorem runsAs_readName : (readName stream).RunsAs Reader.name stream 0 :=
  TokenStream.runsAs_expect.map fun _ => rfl

def readRound (stream : TokenStream) :
    Reading (Parameter × Bool) stream.left :=
  (readParameter stream).andThen fun parameter rest shorter =>
    if more : rest.kind = .comma then
      ((rest.take (TokenStream.inside_of_comma more)).map
        fun _ => (parameter, true)).loosen
          (TokenStream.le_of_shorter shorter)
    else
      .ok ((parameter, false), ⟨rest, shorter⟩)

private theorem readParameters_of_round :
    readParameters stream =
      (readRound stream).andThen fun round rest shorter =>
        if round.2 then
          ((readParameters rest).map fun others =>
            round.1 :: others).loosen (Nat.le_of_lt shorter)
        else
          .ok ([round.1], ⟨rest, shorter⟩) := by
  rw [readParameters, readRound]
  cases readParameter stream with
  | error failure => rfl
  | ok result =>
      obtain ⟨parameter, rest, shorter⟩ := result
      simp only [Reading.andThen]
      by_cases more : rest.kind = .comma
      · rw [dif_pos more, dif_pos more]
        rfl
      · rw [dif_neg more, dif_neg more]
        rfl

theorem runsAs_readParameter :
    (readParameter stream).RunsAs Reader.typedName stream 0 := by
  apply runsAs_readName.andThen
  intro name rest shorter
  exact (runsAs_readType.map fun _ => rfl).loosen

private theorem runsAs_readRound :
    (readRound stream).RunsAs (Reader.call .parameter) stream 0 := by
  apply Reading.RunsAs.called _ (Or.inr (Nat.le_refl _))
  apply runsAs_readParameter.andThen
  intro parameter rest shorter
  apply Reading.RunsAs.look
  by_cases more : rest.kind = .comma
  · rw [dif_pos more]
    apply Reading.RunsAs.of_pos more
    exact (TokenStream.runsAs_take.map fun _ => rfl).loosen
  · rw [dif_neg more]
    exact .of_neg more Reading.runsAs_ok

theorem runsAs_readParameters {stream : TokenStream} :
    (readParameters stream).RunsAs (Reader.call .parameters) stream 0 := by
  apply Reading.RunsAs.called _ (Or.inr (Nat.le_refl _))
  rw [readParameters_of_round]
  apply runsAs_readRound.andThen
  intro round rest shorter
  obtain ⟨parameter, more⟩ := round
  cases more with
  | true =>
      rw [if_pos rfl]
      exact (runsAs_readParameters.map fun _ => rfl).loosen
  | false =>
      rw [if_neg Bool.false_ne_true]
      exact Reading.runsAs_ok
termination_by stream.left

end Parts

/-! ### Statements -/

def BlocksRun (size : Nat) : Prop :=
  ∀ stream : TokenStream, stream.left < size →
    (readBlock stream).RunsAs (Reader.call .block) stream 0

section Statements

variable {size : Nat} {stream : TokenStream}

private theorem BlocksRun.statement (run : BlocksRun size)
    (inside : stream.left < size + 1) :
    (readStatement stream).RunsAs (Reader.call .statement) stream 0 := by
  apply Reading.RunsAs.called _ (Or.inr (Nat.le_refl _))
  apply Reading.RunsAs.look
  rw [readStatement]
  by_cases returning : stream.kind = .returnWord
  · rw [dif_pos returning]
    apply Reading.RunsAs.of_pos returning
    apply TokenStream.runsAs_take.andThen
    intro _ rest shorter
    apply Reading.RunsAs.look
    by_cases closed : rest.kind = .rightBrace
    · rw [if_pos closed]
      exact .of_pos closed Reading.runsAs_ok
    · rw [if_neg closed]
      apply Reading.RunsAs.of_neg closed
      exact ((runsAs_readExpression 0).map fun _ => rfl).loosen
  rw [dif_neg returning]
  apply Reading.RunsAs.of_neg returning
  by_cases branching : stream.kind = .ifWord
  · rw [dif_pos branching]
    apply Reading.RunsAs.of_pos branching
    apply TokenStream.runsAs_take.andThen
    intro _ rest shorter
    apply TokenStream.runsAs_expect.loosen.andThen
    intro _ rest shorter
    apply (runsAs_readExpression 0).loosen.andThen
    intro condition rest shorter
    apply TokenStream.runsAs_expect.loosen.andThen
    intro _ rest shorter
    apply (run _ (by omega)).loosen.andThen
    intro consequence rest shorter
    apply Reading.RunsAs.look
    by_cases otherwise : rest.kind = .elseWord
    · rw [dif_pos otherwise]
      apply Reading.RunsAs.of_pos otherwise
      apply TokenStream.runsAs_take.loosen.andThen
      intro _ rest shorter
      exact ((run _ (by omega)).map fun _ => rfl).loosen
    · rw [dif_neg otherwise]
      exact .of_neg otherwise Reading.runsAs_ok
  rw [dif_neg branching]
  apply Reading.RunsAs.of_neg branching
  by_cases declares : stream.kind.isType = true
  · rw [if_pos declares]
    apply Reading.RunsAs.of_pos declares
    apply runsAs_readType.andThen
    intro type rest shorter
    apply runsAs_readName.loosen.andThen
    intro name rest shorter
    apply TokenStream.runsAs_expect.loosen.andThen
    intro _ rest shorter
    exact ((runsAs_readExpression 0).map fun _ => rfl).loosen
  · rw [if_neg declares]
    apply Reading.RunsAs.of_neg declares
    exact (runsAs_readExpression 0).map fun _ => rfl

private theorem BlocksRun.statements (run : BlocksRun size)
    {stream : TokenStream} (inside : stream.left < size + 1) :
    (readStatements stream).RunsAs (Reader.call .statements) stream 0 := by
  apply Reading.RunsAs.called _ (Or.inl rfl)
  apply Reading.RunsAs.look
  rw [readStatements]
  by_cases closed : stream.kind = .rightBrace ∨ stream.kind = .endOfInput
  · rw [if_pos closed]
    exact .of_pos closed Reading.runsAs_ok
  · rw [if_neg closed]
    apply Reading.RunsAs.of_neg closed
    apply Reading.RunsAs.loosen
    apply (run.statement inside).andThen
    intro statement rest shorter
    exact ((run.statements (by omega)).map fun _ => rfl).loosen
termination_by stream.left

private theorem blocksRun (size : Nat) : BlocksRun size := by
  induction size with
  | zero =>
      intro stream inside
      omega
  | succ size inductionHypothesis =>
      intro stream inside
      apply Reading.RunsAs.called _ (Or.inr (Nat.le_refl _))
      rw [readBlock]
      apply TokenStream.runsAs_expect.andThen
      intro _ rest shorter
      apply (inductionHypothesis.statements (by omega)).loosen.andThen
      intro statements rest shorter
      exact (TokenStream.runsAs_expect.map fun _ => rfl).loosen

theorem runsAs_readBlock :
    (readBlock stream).RunsAs (Reader.call .block) stream 0 :=
  blocksRun (stream.left + 1) stream (Nat.lt_succ_self _)

theorem runsAs_readStatements :
    (readStatements stream).RunsAs (Reader.call .statements) stream 0 :=
  (blocksRun stream.left).statements (Nat.lt_succ_self _)

theorem runsAs_readStatement :
    (readStatement stream).RunsAs (Reader.call .statement) stream 0 :=
  (blocksRun stream.left).statement (Nat.lt_succ_self _)

end Statements

/-! ### Functions and contracts -/

section Functions

variable {stream : TokenStream}

theorem runsAs_readFunction :
    (readFunction stream).RunsAs (Reader.call .function) stream 0 := by
  apply Reading.RunsAs.called _ (Or.inr (Nat.le_refl _))
  unfold readFunction
  apply TokenStream.runsAs_expect.andThen
  intro _ rest shorter
  apply runsAs_readName.loosen.andThen
  intro name rest shorter
  apply TokenStream.runsAs_expect.loosen.andThen
  intro _ rest shorter
  have listed : Reading.RunsAs Reader.parameterList rest 0
      (if rest.kind = .rightParen then Reading.done [] rest
        else (readParameters rest).loosen (Nat.le_succ _)) := by
    apply Reading.RunsAs.look
    by_cases empty : rest.kind = .rightParen
    · rw [if_pos empty]
      exact .of_pos empty Reading.runsAs_ok
    · rw [if_neg empty]
      exact .of_neg empty runsAs_readParameters.loosen
  apply listed.loosen.andThen
  intro parameters rest shorter
  apply TokenStream.runsAs_expect.loosen.andThen
  intro _ rest shorter
  have typed : Reading.RunsAs Reader.returnType rest 0
      (if rest.kind.isType then (readType rest).loosen (Nat.le_succ _)
        else Reading.done .void rest) := by
    apply Reading.RunsAs.look
    by_cases declares : rest.kind.isType = true
    · rw [if_pos declares]
      exact .of_pos declares runsAs_readType.loosen
    · rw [if_neg declares]
      exact .of_neg declares Reading.runsAs_ok
  apply typed.loosen.andThen
  intro type rest shorter
  exact (runsAs_readBlock.map fun _ => rfl).loosen

theorem runsAs_readFunctions {stream : TokenStream} :
    (readFunctions stream).RunsAs (Reader.call .functions) stream 0 := by
  apply Reading.RunsAs.called _ (Or.inl rfl)
  apply Reading.RunsAs.look
  rw [readFunctions]
  by_cases closed : stream.kind = .rightBrace ∨ stream.kind = .endOfInput
  · rw [if_pos closed]
    exact .of_pos closed Reading.runsAs_ok
  · rw [if_neg closed]
    apply Reading.RunsAs.of_neg closed
    apply Reading.RunsAs.loosen
    apply runsAs_readFunction.andThen
    intro function rest shorter
    exact (runsAs_readFunctions.map fun _ => rfl).loosen
termination_by stream.left

/-- Behind the last brace of a contract the end of the input is consumed. -/
theorem runsAs_readContract :
    (readContract stream).RunsAs (Reader.call .contract) stream 1 := by
  apply Reading.RunsAs.called _ (Or.inr (Nat.le_refl _))
  unfold readContract
  apply TokenStream.runsAs_expect.andThen
  intro _ rest shorter
  apply TokenStream.runsAs_expect.loosen.andThen
  intro _ rest shorter
  apply runsAs_readFunctions.loosen.andThen
  intro functions rest shorter
  apply TokenStream.runsAs_expect.loosen.andThen
  intro _ rest shorter
  by_cases ends : rest.kind = .endOfInput
  · have atEnd : rest.current.isEnd = true := beq_iff_eq.mpr ends
    rw [if_pos ends]
    refine .ok ((Reader.expect_runs ends).bind_ok .done) ?_
      (List.forall_mem_nil _)
    rw [List.append_nil, List.countP_cons, atEnd]
    rfl
  · rw [if_neg ends]
    exact .error (Reader.expect_fails ends).bind_error rfl
      (List.forall_mem_nil _)

end Functions

/-! ### All readers -/

namespace Reader

inductive Entry where
  | contract
  | function
  | block
  | statement
  | expression (power : Nat)

namespace Entry

def call : Entry → Call
  | .contract => .contract
  | .function => .function
  | .block => .block
  | .statement => .statement
  | .expression power => .expression power

def read : (entry : Entry) → TokenStream →
    Except SyntaxError entry.call.Result × TokenStream
  | .contract, stream => (readContract stream).outcome
  | .function, stream => (readFunction stream).outcome
  | .block, stream => (readBlock stream).outcome
  | .statement, stream => (readStatement stream).outcome
  | .expression power, stream => (readExpression power stream).outcome

end Entry

structure Progress (call : Call) (stream : TokenStream)
    (answer : Except SyntaxError call.Result × TokenStream)
    (consumed : List Token) (records : List Record) : Prop where
  runs : (Reader.call call).Runs stream consumed records answer.1 answer.2
  /-- The first record is that of the call itself. -/
  own : records.head? = some ⟨call, consumed, answer.1.isOk⟩
  consumes : answer.2 = TokenStream.advance^[consumed.length] stream
  progresses : ∀ record ∈ records, record.Progresses

private theorem own_record {call : Call} {stream rest : TokenStream}
    {consumed : List Token} {records : List Record}
    {outcome : Except SyntaxError call.Result}
    (runs : (Reader.call call).Runs stream consumed records outcome rest) :
    records.head? = some ⟨call, consumed, outcome.isOk⟩ := by
  cases runs with
  | returned inner onward =>
      cases onward
      rw [List.append_nil, List.append_nil]
      rfl
  | failed inner => rfl

private theorem exists_progress {call : Call} {stream : TokenStream}
    {bound : Nat} {reading : Reading call.Result bound}
    (runsAs : reading.RunsAs (Reader.call call) stream call.ends) :
    ∃ consumed records,
      Progress call stream reading.outcome consumed records := by
  cases runsAs with
  | ok runs ended progress =>
      exact ⟨_, _, runs, own_record runs, runs.rest_eq, progress⟩
  | error runs ended progress =>
      exact ⟨_, _, runs, own_record runs, runs.rest_eq, progress⟩

private theorem Entry.exists_progress (entry : Entry) (stream : TokenStream) :
    ∃ consumed records,
      Progress entry.call stream (entry.read stream) consumed records := by
  cases entry with
  | contract => exact Reader.exists_progress runsAs_readContract
  | function => exact Reader.exists_progress runsAs_readFunction
  | block => exact Reader.exists_progress runsAs_readBlock
  | statement => exact Reader.exists_progress runsAs_readStatement
  | expression power =>
      exact Reader.exists_progress (runsAs_readExpression power)

/-- On every stream every reader runs to its end, in one way.  Each round of
its loops, and each reader that it calls, consumes a token or fails, and the
end of the input is consumed only by a contract that was read. -/
theorem readers_make_progress (entry : Entry) (stream : TokenStream) :
    ∃ consumed records,
      Progress entry.call stream (entry.read stream) consumed records ∧
      ∀ others more outcome rest,
        (Reader.call entry.call).Runs stream others more outcome rest →
          others = consumed ∧ more = records ∧
            (outcome, rest) = entry.read stream := by
  obtain ⟨consumed, records, progress⟩ := entry.exists_progress stream
  refine ⟨consumed, records, progress, ?_⟩
  intro others more outcome rest runs
  obtain ⟨rfl, rfl, rfl, rfl⟩ := progress.runs.unique runs
  exact ⟨rfl, rfl, rfl⟩

end Reader

end ContractCompiler
