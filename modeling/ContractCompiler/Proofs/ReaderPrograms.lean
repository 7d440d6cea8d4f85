/-
Readers as programs that could run for ever.

A program looks at the current token, consumes it, or calls another program.
Nothing keeps programs that call each other from going on without end: that a
program ends means that it has a run.  A run tells which tokens were consumed
and which calls were made, so it tells what each round of a loop consumed.

The programs below are the readers without the bounds on the tokens that are
left.
-/

import Mathlib.Logic.Function.Iterate
import ContractCompiler.Contract.Reading

namespace ContractCompiler

namespace Reader

/-! ### Programs -/

/-- What can be called.  A loop is a call that goes on by a call of itself:
`functions`, `parameters`, `statements` and `operators`.  What one round of it
does is a call as well: `function`, `parameter`, `statement` and
`operation`. -/
inductive Call where
  | contract
  | functions
  | function
  | parameters
  | parameter
  | block
  | statements
  | statement
  | expression (power : Nat)
  | operators (power : Nat) (left : Expression)
  | operation (operator : Operator) (left : Expression) (power : Nat)
  | operand

/-- What a call returns.  A parameter comes with whether a comma was behind
it. -/
abbrev Call.Result : Call → Type
  | .contract => Contract
  | .functions => List Function
  | .function => Function
  | .parameters => List Parameter
  | .parameter => Parameter × Bool
  | .block => Block
  | .statements => Block
  | .statement => Statement
  | .expression _ => Expression
  | .operators _ _ => Expression
  | .operation _ _ _ => Expression
  | .operand => Expression

inductive Program (α : Type) where
  | done (value : α)
  | fail (error : SyntaxError)
  | look (next : Token → Program α)
  | advance (next : Token → Program α)
  | invoke (call : Call) (next : call.Result → Program α)

namespace Program

variable {α β : Type}

def bind (program : Program α) (following : α → Program β) : Program β :=
  match program with
  | .done value => following value
  | .fail error => .fail error
  | .look next => .look fun token => (next token).bind following
  | .advance next => .advance fun token => (next token).bind following
  | .invoke call next => .invoke call fun value => (next value).bind following

instance : Monad Program where
  pure := .done
  bind := .bind

end Program

def current : Program Token :=
  .look .done

def advance : Program Token :=
  .advance .done

def call (call : Call) : Program call.Result :=
  .invoke call .done

def expect (kind : TokenKind) : Program Token := do
  let found ← current
  if found.kind = kind then advance
  else .fail (.unexpected (.token kind) found)

def name : Program String := do
  let found ← expect .identifier
  return found.literal

def typeName : Program ValueType := do
  let found ← current
  match ValueType.ofKind? found.kind with
  | some type => do
      let _ ← advance
      return type
  | none => .fail (.unexpected .type found)

def typedName : Program Parameter := do
  let name ← name
  let type ← typeName
  return ⟨name, type⟩

/-! ### Readers -/

def parameterList : Program (List Parameter) := do
  let found ← current
  if found.kind = .rightParen then return [] else call .parameters

def returnType : Program ValueType := do
  let found ← current
  if found.kind.isType then typeName else return .void

def body : (call : Call) → Program call.Result
  | .contract => do
      let _ ← expect .contract
      let _ ← expect .leftBrace
      let functions ← call .functions
      let _ ← expect .rightBrace
      let _ ← expect .endOfInput
      return ⟨functions⟩
  | .functions => do
      let found ← current
      if found.kind = .rightBrace ∨ found.kind = .endOfInput then
        return []
      else do
        let function ← call .function
        let others ← call .functions
        return function :: others
  | .function => do
      let _ ← expect .function
      let name ← name
      let _ ← expect .leftParen
      let parameters ← parameterList
      let _ ← expect .rightParen
      let type ← returnType
      let block ← call .block
      return ⟨name, parameters, type, block⟩
  | .parameters => do
      let (parameter, more) ← call .parameter
      if more then do
        let others ← call .parameters
        return parameter :: others
      else
        return [parameter]
  | .parameter => do
      let parameter ← typedName
      let found ← current
      if found.kind = .comma then do
        let _ ← advance
        return (parameter, true)
      else
        return (parameter, false)
  | .block => do
      let _ ← expect .leftBrace
      let statements ← call .statements
      let _ ← expect .rightBrace
      return statements
  | .statements => do
      let found ← current
      if found.kind = .rightBrace ∨ found.kind = .endOfInput then
        return []
      else do
        let statement ← call .statement
        let others ← call .statements
        return statement :: others
  | .statement => do
      let found ← current
      if found.kind = .returnWord then do
        let _ ← advance
        let behind ← current
        if behind.kind = .rightBrace then
          return .returns none
        else do
          let value ← call (.expression 0)
          return .returns (some value)
      else if found.kind = .ifWord then do
        let _ ← advance
        let _ ← expect .leftParen
        let condition ← call (.expression 0)
        let _ ← expect .rightParen
        let consequence ← call .block
        let behind ← current
        if behind.kind = .elseWord then do
          let _ ← advance
          let alternative ← call .block
          return .ifThenElse condition consequence alternative
        else
          return .ifThen condition consequence
      else if found.kind.isType then do
        let type ← typeName
        let name ← name
        let _ ← expect .assign
        let value ← call (.expression 0)
        return .assigns type name value
      else do
        let value ← call (.expression 0)
        return .evaluates value
  | .expression power => do
      let left ← call .operand
      call (.operators power left)
  | .operators power left => do
      let found ← current
      if found.kind.precedence ≤ power then
        return left
      else
        match Operator.between? found.kind with
        | none => return left
        | some operator => do
            let combined ←
              call (.operation operator left found.kind.precedence)
            call (.operators power combined)
  | .operation operator left power => do
      let _ ← advance
      let right ← call (.expression power)
      return .binary operator left right
  | .operand => do
      let found ← current
      match Expression.ofToken? found with
      | .error error => .fail error
      | .ok (some expression) => do
          let _ ← advance
          return expression
      | .ok none =>
          match Operator.before? found.kind with
          | some operator => do
              let _ ← advance
              let operand ← call (.expression signPrecedence)
              return .unary operator operand
          | none =>
              if found.kind = .leftParen then do
                let _ ← advance
                let expression ← call (.expression 0)
                let _ ← expect .rightParen
                return expression
              else
                .fail (.unexpected .expression found)

/-! ### Runs -/

/-- A call that was made: what was consumed until it returned or failed, and
whether it returned. -/
structure Record where
  call : Call
  consumed : List Token
  returned : Bool

/-- A program runs to its end on a stream: the tokens that it consumes, the
calls that it makes, what comes out and the stream that is left. -/
inductive Program.Runs : {α : Type} → Program α → TokenStream →
    List Token → List Record → Except SyntaxError α → TokenStream →
    Prop where
  | done {α : Type} {value : α} {stream : TokenStream} :
      Runs (.done value) stream [] [] (.ok value) stream
  | fail {α : Type} {error : SyntaxError} {stream : TokenStream} :
      Runs (.fail error : Program α) stream [] [] (.error error) stream
  | look {α : Type} {next : Token → Program α} {stream rest : TokenStream}
      {consumed : List Token} {records : List Record}
      {outcome : Except SyntaxError α}
      (onward : Runs (next stream.current) stream consumed records outcome
        rest) :
      Runs (.look next) stream consumed records outcome rest
  | advance {α : Type} {next : Token → Program α}
      {stream rest : TokenStream} {consumed : List Token}
      {records : List Record} {outcome : Except SyntaxError α}
      (onward : Runs (next stream.current) stream.advance consumed records
        outcome rest) :
      Runs (.advance next) stream (stream.current :: consumed) records
        outcome rest
  | returned {α : Type} {call : Call} {next : call.Result → Program α}
      {stream middle rest : TokenStream} {value : call.Result}
      {consumed others : List Token} {records more : List Record}
      {outcome : Except SyntaxError α}
      (inner : Runs (body call) stream consumed records (.ok value) middle)
      (onward : Runs (next value) middle others more outcome rest) :
      Runs (.invoke call next) stream (consumed ++ others)
        (⟨call, consumed, true⟩ :: (records ++ more)) outcome rest
  | failed {α : Type} {call : Call} {next : call.Result → Program α}
      {stream rest : TokenStream} {consumed : List Token}
      {records : List Record} {error : SyntaxError}
      (inner : Runs (body call) stream consumed records (.error error) rest) :
      Runs (.invoke call next) stream consumed
        (⟨call, consumed, false⟩ :: records) (.error error) rest

namespace Program.Runs

variable {α β : Type} {program : Program α} {following : α → Program β}
  {stream middle rest remaining : TokenStream}
  {consumed others : List Token} {records more : List Record}

/-- A run goes on with the program behind it. -/
theorem bind_ok {value : α} {outcome : Except SyntaxError β}
    (runs : program.Runs stream consumed records (.ok value) middle)
    (onward : (following value).Runs middle others more outcome rest) :
    (program >>= following).Runs stream (consumed ++ others)
      (records ++ more) outcome rest := by
  generalize returns : Except.ok value = result at runs
  induction runs generalizing β with
  | done =>
      cases returns
      exact onward
  | fail =>
      cases returns
  | look _ inductionHypothesis =>
      exact .look (inductionHypothesis onward returns)
  | advance _ inductionHypothesis =>
      exact .advance (inductionHypothesis onward returns)
  | returned inner _ _ inductionHypothesis =>
      rw [List.append_assoc, List.cons_append, List.append_assoc]
      exact .returned inner (inductionHypothesis onward returns)
  | failed =>
      cases returns

theorem bind_error {error : SyntaxError}
    (runs : program.Runs stream consumed records (.error error) rest) :
    (program >>= following).Runs stream consumed records (.error error)
      rest := by
  generalize fails : Except.error error = result at runs
  induction runs generalizing β with
  | done =>
      cases fails
  | fail =>
      cases fails
      exact .fail
  | look _ inductionHypothesis =>
      exact .look (inductionHypothesis fails)
  | advance _ inductionHypothesis =>
      exact .advance (inductionHypothesis fails)
  | returned inner _ _ inductionHypothesis =>
      exact .returned inner (inductionHypothesis fails)
  | failed inner =>
      cases fails
      exact .failed inner

/-- A program has one run. -/
theorem unique {outcome result : Except SyntaxError α}
    (runs : program.Runs stream consumed records outcome rest)
    (other : program.Runs stream others more result remaining) :
    others = consumed ∧ more = records ∧ result = outcome ∧
      remaining = rest := by
  induction runs generalizing others more remaining with
  | done =>
      cases other
      exact ⟨rfl, rfl, rfl, rfl⟩
  | fail =>
      cases other
      exact ⟨rfl, rfl, rfl, rfl⟩
  | look _ inductionHypothesis =>
      cases other with
      | look onward => exact inductionHypothesis onward
  | advance _ inductionHypothesis =>
      cases other with
      | advance onward =>
          obtain ⟨rfl, rfl, rfl, rfl⟩ := inductionHypothesis onward
          exact ⟨rfl, rfl, rfl, rfl⟩
  | returned _ _ innerHypothesis inductionHypothesis =>
      cases other with
      | returned inner onward =>
          obtain ⟨rfl, rfl, same, rfl⟩ := innerHypothesis inner
          cases same
          obtain ⟨rfl, rfl, rfl, rfl⟩ := inductionHypothesis onward
          exact ⟨rfl, rfl, rfl, rfl⟩
      | failed inner =>
          obtain ⟨_, _, clash, _⟩ := innerHypothesis inner
          cases clash
  | failed _ innerHypothesis =>
      cases other with
      | returned inner =>
          obtain ⟨_, _, clash, _⟩ := innerHypothesis inner
          cases clash
      | failed inner =>
          obtain ⟨rfl, rfl, same, rfl⟩ := innerHypothesis inner
          cases same
          exact ⟨rfl, rfl, rfl, rfl⟩

/-- What is left lies as many tokens further on as were consumed. -/
theorem rest_eq {outcome : Except SyntaxError α}
    (runs : program.Runs stream consumed records outcome rest) :
    rest = TokenStream.advance^[consumed.length] stream := by
  induction runs with
  | done => rfl
  | fail => rfl
  | look _ inductionHypothesis => exact inductionHypothesis
  | advance _ inductionHypothesis => exact inductionHypothesis
  | returned _ _ innerHypothesis inductionHypothesis =>
      rw [inductionHypothesis, innerHypothesis, List.length_append,
        Nat.add_comm, Function.iterate_add_apply]
  | failed _ innerHypothesis => exact innerHypothesis

/-- As long as nothing but the end of the input is consumed, the tokens in
front of it stay. -/
theorem left_eq {outcome : Except SyntaxError α}
    (runs : program.Runs stream consumed records outcome rest)
    (ended : ∀ token ∈ consumed, token.isEnd = true) :
    rest.left = stream.left := by
  induction runs with
  | done => rfl
  | fail => rfl
  | look _ inductionHypothesis => exact inductionHypothesis ended
  | @advance _ _ stream _ _ _ _ _ inductionHypothesis =>
      rw [List.forall_mem_cons] at ended
      have atEnd : stream.kind = .endOfInput := eq_of_beq ended.1
      rw [inductionHypothesis ended.2, TokenStream.left,
        TokenStream.upcoming_advance, TokenStream.left,
        TokenStream.upcoming_eq_nil atEnd]
      rfl
  | returned _ _ innerHypothesis inductionHypothesis =>
      rw [List.forall_mem_append] at ended
      rw [inductionHypothesis ended.2, innerHypothesis ended.1]
  | failed _ innerHypothesis => exact innerHypothesis ended

end Program.Runs

section Tokens

variable {stream : TokenStream} {kind : TokenKind}

theorem expect_runs (found : stream.kind = kind) :
    (expect kind).Runs stream [stream.current] [] (.ok stream.current)
      stream.advance := by
  have taken : (if stream.current.kind = kind then advance
      else .fail (.unexpected (.token kind) stream.current)).Runs stream
        [stream.current] [] (.ok stream.current) stream.advance := by
    rw [if_pos (show stream.current.kind = kind from found)]
    exact .advance .done
  exact .look taken

theorem expect_fails (missing : stream.kind ≠ kind) :
    (expect kind).Runs stream [] []
      (.error (.unexpected (.token kind) stream.current)) stream := by
  have refused : (if stream.current.kind = kind then advance
      else .fail (.unexpected (.token kind) stream.current)).Runs stream
        [] [] (.error (.unexpected (.token kind) stream.current))
        stream := by
    rw [if_neg (show stream.current.kind ≠ kind from missing)]
    exact .fail
  exact .look refused

end Tokens

/-! ### What programs return -/

def Program.Returns {α : Type} (program : Program α) (stream : TokenStream)
    (value : α) (rest : TokenStream) : Prop :=
  ∃ consumed records,
    program.Runs stream consumed records (.ok value) rest

section Returns

variable {α β : Type} {stream rest : TokenStream}

@[simp]
theorem returns_pure {value found : α} :
    (pure value : Program α).Returns stream found rest ↔
      found = value ∧ rest = stream := by
  constructor
  · rintro ⟨_, _, runs⟩
    cases runs
    exact ⟨rfl, rfl⟩
  · rintro ⟨rfl, rfl⟩
    exact ⟨_, _, .done⟩

@[simp]
theorem returns_fail {error : SyntaxError} {value : α} :
    ¬ (Program.fail error).Returns stream value rest := by
  rintro ⟨_, _, runs⟩
  cases runs

@[simp]
theorem returns_bind {program : Program α} {following : α → Program β}
    {value : β} :
    (program >>= following).Returns stream value rest ↔
      ∃ found middle, program.Returns stream found middle ∧
        (following found).Returns middle value rest := by
  constructor
  · rintro ⟨consumed, records, runs⟩
    induction program generalizing stream consumed records with
    | done found =>
        exact ⟨found, stream, ⟨_, _, .done⟩, _, _, runs⟩
    | fail error =>
        cases runs
    | look next inductionHypothesis =>
        cases runs with
        | look onward =>
            obtain ⟨found, middle, ⟨_, _, first⟩, second⟩ :=
              inductionHypothesis _ _ _ onward
            exact ⟨found, middle, ⟨_, _, .look first⟩, second⟩
    | advance next inductionHypothesis =>
        cases runs with
        | advance onward =>
            obtain ⟨found, middle, ⟨_, _, first⟩, second⟩ :=
              inductionHypothesis _ _ _ onward
            exact ⟨found, middle, ⟨_, _, .advance first⟩, second⟩
    | invoke call next inductionHypothesis =>
        cases runs with
        | returned inner onward =>
            obtain ⟨found, middle, ⟨_, _, first⟩, second⟩ :=
              inductionHypothesis _ _ _ onward
            exact ⟨found, middle, ⟨_, _, .returned inner first⟩, second⟩
  · rintro ⟨found, middle, ⟨_, _, first⟩, _, _, second⟩
    exact ⟨_, _, first.bind_ok second⟩

@[simp]
theorem returns_current {found : Token} :
    current.Returns stream found rest ↔
      found = stream.current ∧ rest = stream := by
  constructor
  · rintro ⟨_, _, runs⟩
    cases runs with
    | look onward =>
        cases onward
        exact ⟨rfl, rfl⟩
  · rintro ⟨rfl, rfl⟩
    exact ⟨_, _, .look .done⟩

/-- A program that looks at the current token goes on with it. -/
theorem returns_look {following : Token → Program α} {value : α} :
    (current >>= following).Returns stream value rest ↔
      (following stream.current).Returns stream value rest := by
  simp [and_assoc]

@[simp]
theorem returns_advance {found : Token} :
    advance.Returns stream found rest ↔
      found = stream.current ∧ rest = stream.advance := by
  constructor
  · rintro ⟨_, _, runs⟩
    cases runs with
    | advance onward =>
        cases onward
        exact ⟨rfl, rfl⟩
  · rintro ⟨rfl, rfl⟩
    exact ⟨_, _, .advance .done⟩

/-- A call returns what its body returns. -/
theorem returns_call {call : Call} {value : call.Result} :
    (Reader.call call).Returns stream value rest ↔
      (body call).Returns stream value rest := by
  constructor
  · rintro ⟨_, _, runs⟩
    cases runs with
    | returned inner onward =>
        cases onward
        exact ⟨_, _, inner⟩
  · rintro ⟨_, _, inner⟩
    exact ⟨_, _, .returned inner .done⟩

@[simp]
theorem returns_ite {condition : Prop} [Decidable condition]
    {first second : Program α} {value : α} :
    (if condition then first else second).Returns stream value rest ↔
      condition ∧ first.Returns stream value rest ∨
        ¬ condition ∧ second.Returns stream value rest := by
  split
  next holds => simp only [holds, true_and, not_true_eq_false, false_and, or_false]
  next fails => simp only [fails, false_and, not_false_eq_true, true_and, false_or]

@[simp]
theorem returns_expect {kind : TokenKind} {found : Token} :
    (expect kind).Returns stream found rest ↔
      stream.kind = kind ∧ found = stream.current ∧
        rest = stream.advance := by
  simp [expect, TokenStream.kind, and_assoc]

/-- A token that is taken plays no part behind it. -/
theorem returns_skipping {next : Program α} {value : α} :
    (advance >>= fun _ => next).Returns stream value rest ↔
      next.Returns stream.advance value rest := by
  simp [and_assoc]

theorem returns_passing {kind : TokenKind} {next : Program α} {value : α} :
    (expect kind >>= fun _ => next).Returns stream value rest ↔
      stream.kind = kind ∧ next.Returns stream.advance value rest := by
  simp [and_assoc]

/-- What a program returns is used behind the token that closes it. -/
theorem returns_closed {program : Program α} {kind : TokenKind}
    {next : α → Program β} {value : β} :
    (program >>= fun found => expect kind >>= fun _ => next found).Returns
        stream value rest ↔
      ∃ found middle, program.Returns stream found middle ∧
        middle.kind = kind ∧
        (next found).Returns middle.advance value rest := by
  rw [returns_bind]
  simp only [← returns_passing]

theorem returns_named {next : String → Program α} {value : α} :
    (name >>= next).Returns stream value rest ↔
      stream.kind = .identifier ∧
        (next stream.current.literal).Returns stream.advance value rest := by
  simp [name, and_assoc]

end Returns

end Reader

end ContractCompiler
