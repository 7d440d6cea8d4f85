/-
Reading contracts from a stream of tokens.

Statements are recognised by their first token.  Expressions are read by
climbing precedences: behind an operand, operators are taken for as long as
they bind tighter than the operator to the left of the operand.

Each phrase that is read leaves fewer tokens behind, which is part of the
type of a reading, so every repetition ends.  When reading fails, the stream
stands at the token that caused the failure.

The value of a quoted string is its text without the quotes at both ends and
with its escapes resolved: `\n`, `\t`, `\r` and `\0` stand for control
characters, and a backslash in front of any other character stands for that
character.
-/

import ContractCompiler.Contract
import ContractCompiler.Contract.SyntaxError
import ContractCompiler.Text.Numeral
import ContractCompiler.Token.Stream

namespace ContractCompiler

/-! ### Quoted strings -/

namespace Quotation

/-- The text between a quote at the start and a quote at the end.  A text
without both is left as it is. -/
def body (literal : List Char) : List Char :=
  match literal with
  | '"' :: rest =>
      if rest.getLast? = some '"' then rest.dropLast else literal
  | _ => literal

def escaped : Char → Char
  | 'n' => '\n'
  | 't' => '\t'
  | 'r' => '\r'
  | '0' => '\x00'
  | other => other

/-- Resolves the escapes of a text.  A backslash at the very end stands for
itself. -/
def resolve : List Char → List Char
  | [] => []
  | '\\' :: [] => ['\\']
  | '\\' :: character :: rest => escaped character :: resolve rest
  | character :: rest => character :: resolve rest

def value (literal : String) : String :=
  String.ofList (resolve (body literal.toList))

end Quotation

/-! ### Readings -/

/-- An error together with the stream at the token that caused it. -/
structure ReadFailure where
  error : SyntaxError
  stream : TokenStream

/-- The outcome of reading a phrase: a failure, or a value and the rest of
the stream, in which fewer than `bound` tokens are left. -/
abbrev Reading (α : Type) (bound : Nat) :=
  Except ReadFailure (α × { rest : TokenStream // rest.left < bound })

namespace Reading

variable {α β : Type}

def done (value : α) (stream : TokenStream) : Reading α (stream.left + 1) :=
  .ok (value, ⟨stream, Nat.lt_succ_self _⟩)

def refuse {bound : Nat} (expected : Expectation) (stream : TokenStream) :
    Reading α bound :=
  .error ⟨.unexpected expected stream.current, stream⟩

def andThen {bound : Nat} (first : Reading α bound)
    (next : α → (rest : TokenStream) → rest.left < bound →
      Reading β bound) : Reading β bound :=
  match first with
  | .error failure => .error failure
  | .ok (value, ⟨rest, shorter⟩) => next value rest shorter

/-- Forgets that more tokens have been read. -/
def loosen {small large : Nat} (reading : Reading α small)
    (le : small ≤ large) : Reading α large :=
  match reading with
  | .error failure => .error failure
  | .ok (value, ⟨rest, shorter⟩) =>
      .ok (value, ⟨rest, Nat.lt_of_lt_of_le shorter le⟩)

def map {bound : Nat} (change : α → β) (reading : Reading α bound) :
    Reading β bound :=
  match reading with
  | .error failure => .error failure
  | .ok (value, rest) => .ok (change value, rest)

def outcome {bound : Nat} (reading : Reading α bound) :
    Except SyntaxError α × TokenStream :=
  match reading with
  | .error failure => (.error failure.error, failure.stream)
  | .ok (value, ⟨rest, _⟩) => (.ok value, rest)

end Reading

namespace TokenStream

/-- A current token of a kind other than the end of the input is no end. -/
theorem inside_of_kind {stream : TokenStream} {kind : TokenKind}
    (found : stream.kind = kind) (proper : kind ≠ .endOfInput) :
    stream.current.isEnd = false := by
  unfold TokenStream.kind at found
  simp [Token.isEnd, found, proper]

/-- Takes the current token, which is not the end of the input. -/
def take (stream : TokenStream) (inside : stream.current.isEnd = false) :
    Reading Token stream.left :=
  .ok (stream.current, ⟨stream.advance, stream.left_advance_lt inside⟩)

def expect (stream : TokenStream) (kind : TokenKind)
    (proper : kind ≠ .endOfInput := by decide) :
    Reading Token stream.left :=
  if found : stream.kind = kind then
    stream.take (inside_of_kind found proper)
  else
    .refuse (.token kind) stream

end TokenStream

/-! ### Expressions -/

def Operator.between? : TokenKind → Option Operator
  | .plus => some .plus
  | .minus => some .minus
  | .star => some .times
  | .slash => some .divide
  | .percent => some .modulo
  | .less => some .less
  | .greater => some .greater
  | .lessEqual => some .lessEqual
  | .greaterEqual => some .greaterEqual
  | .equal => some .equal
  | .notEqual => some .notEqual
  | .logicalAnd => some .and
  | .logicalOr => some .or
  | _ => none

def Operator.before? : TokenKind → Option Operator
  | .minus => some .minus
  | .bang => some .not
  | _ => none

/-- The value of a token that is an operand on its own.  An integer has to
fit in 64 bits; of the other kinds, `none` is the answer for those that are no
operand. -/
def Expression.ofToken? (token : Token) :
    Except SyntaxError (Option Expression) :=
  match token.kind with
  | .identifier => .ok (some (.identifier token.literal))
  | .integer =>
      match readInt64 token.literal.toList with
      | some value => .ok (some (.integer value))
      | none => .error (.atToken token (.invalidInteger token.literal))
  | .text => .ok (some (.text (Quotation.value token.literal)))
  | .trueWord => .ok (some (.boolean true))
  | .falseWord => .ok (some (.boolean false))
  | _ => .ok none

theorem Expression.inside_of_ofToken {token : Token}
    {expression : Expression}
    (found : Expression.ofToken? token = .ok (some expression)) :
    token.isEnd = false := by
  cases token with
  | mk kind literal position line =>
      cases kind <;> first | rfl | simp [Expression.ofToken?] at found

theorem Operator.inside_of_before {stream : TokenStream}
    {operator : Operator}
    (found : Operator.before? stream.kind = some operator) :
    stream.current.isEnd = false := by
  apply TokenStream.inside_of_kind rfl
  intro atEnd
  rw [atEnd] at found
  simp [Operator.before?] at found

theorem Operator.inside_of_between {stream : TokenStream}
    {operator : Operator}
    (found : Operator.between? stream.kind = some operator) :
    stream.current.isEnd = false := by
  apply TokenStream.inside_of_kind rfl
  intro atEnd
  rw [atEnd] at found
  simp [Operator.between?] at found

/-- A kind stands for an operator between operands exactly when it has a
precedence. -/
theorem Operator.between_none_iff {kind : TokenKind} :
    Operator.between? kind = none ↔ kind.precedence = 0 := by
  cases kind <;> decide

mutual

/-- Reads an expression whose operators all bind tighter than `power`. -/
def readExpression (power : Nat) (stream : TokenStream) :
    Reading Expression stream.left :=
  (readOperand stream).andThen fun left rest shorter =>
    (readOperators power left rest).loosen shorter
termination_by 2 * stream.left + 1

/-- Goes on behind the operand `left` with operators that bind tighter than
`power` and their right operands. -/
def readOperators (power : Nat) (left : Expression)
    (stream : TokenStream) : Reading Expression (stream.left + 1) :=
  if stream.kind.precedence ≤ power then
    .done left stream
  else
    match found : Operator.between? stream.kind with
    | none => .done left stream
    | some operator =>
        have inside := Operator.inside_of_between found
        ((stream.take inside).andThen fun _ rest shorter =>
          ((readExpression stream.kind.precedence rest).loosen
              (Nat.le_of_lt shorter)).andThen fun right rest shorter =>
            (readOperators power (.binary operator left right)
                rest).loosen shorter).loosen (Nat.le_succ _)
termination_by 2 * stream.left

def readOperand (stream : TokenStream) : Reading Expression stream.left :=
  match token : Expression.ofToken? stream.current with
  | .error error => .error ⟨error, stream⟩
  | .ok (some expression) =>
      (stream.take (Expression.inside_of_ofToken token)).map
        fun _ => expression
  | .ok none =>
      match found : Operator.before? stream.kind with
      | some operator =>
          have inside := Operator.inside_of_before found
          (stream.take inside).andThen fun _ rest shorter =>
            ((readExpression signPrecedence rest).map
                (Expression.unary operator)).loosen (Nat.le_of_lt shorter)
      | none =>
          if opens : stream.kind = .leftParen then
            (stream.take
                (TokenStream.inside_of_kind opens (by decide))).andThen
              fun _ rest shorter =>
                (readExpression 0 rest).loosen (Nat.le_of_lt shorter)
                  |>.andThen fun expression rest shorter =>
                    ((rest.expect .rightParen).map
                        fun _ => expression).loosen (Nat.le_of_lt shorter)
          else
            .refuse .expression stream
termination_by 2 * stream.left

end

/-! ### Types and parameters -/

def ValueType.ofKind? : TokenKind → Option ValueType
  | .intType => some .int
  | .stringType => some .string
  | .boolType => some .bool
  | _ => none

theorem ValueType.inside_of_ofKind {stream : TokenStream}
    {type : ValueType} (found : ValueType.ofKind? stream.kind = some type) :
    stream.current.isEnd = false := by
  apply TokenStream.inside_of_kind rfl
  intro atEnd
  rw [atEnd] at found
  simp [ValueType.ofKind?] at found

/-- A kind names a type exactly when there is a type that it names. -/
theorem ValueType.isType_iff {kind : TokenKind} :
    kind.isType = true ↔ ∃ type, ValueType.ofKind? kind = some type := by
  cases kind <;> simp [TokenKind.isType, ValueType.ofKind?]

def readType (stream : TokenStream) : Reading ValueType stream.left :=
  match found : ValueType.ofKind? stream.kind with
  | some type =>
      (stream.take (ValueType.inside_of_ofKind found)).map fun _ => type
  | none => .refuse .type stream

def readName (stream : TokenStream) : Reading String stream.left :=
  (stream.expect .identifier).map fun token => token.literal

def readParameter (stream : TokenStream) : Reading Parameter stream.left :=
  (readName stream).andThen fun name rest shorter =>
    ((readType rest).map fun type => ⟨name, type⟩).loosen
      (Nat.le_of_lt shorter)

def readParameters (stream : TokenStream) :
    Reading (List Parameter) stream.left :=
  (readParameter stream).andThen fun parameter rest shorter =>
    if more : rest.kind = .comma then
      (rest.take (TokenStream.inside_of_kind more (by decide))).loosen
          (Nat.le_of_lt shorter)
        |>.andThen fun _ rest shorter =>
          ((readParameters rest).map fun others =>
            parameter :: others).loosen (Nat.le_of_lt shorter)
    else
      .ok ([parameter], ⟨rest, shorter⟩)
termination_by stream.left

/-! ### Statements -/

mutual

def readStatement (stream : TokenStream) : Reading Statement stream.left :=
  if returning : stream.kind = .returnWord then
    (stream.take (TokenStream.inside_of_kind returning (by decide))).andThen
      fun _ rest shorter =>
        if rest.kind = .rightBrace then
          .ok (.returns none, ⟨rest, shorter⟩)
        else
          ((readExpression 0 rest).map fun value =>
            .returns (some value)).loosen (Nat.le_of_lt shorter)
  else if branching : stream.kind = .ifWord then
    (stream.take (TokenStream.inside_of_kind branching (by decide))).andThen
      fun _ rest shorter =>
        ((rest.expect .leftParen).loosen (Nat.le_of_lt shorter)).andThen
          fun _ rest shorter =>
        ((readExpression 0 rest).loosen (Nat.le_of_lt shorter)).andThen
          fun condition rest shorter =>
        ((rest.expect .rightParen).loosen (Nat.le_of_lt shorter)).andThen
          fun _ rest shorter =>
        ((readBlock rest).loosen (Nat.le_of_lt shorter)).andThen
          fun consequence rest shorter =>
        if otherwise : rest.kind = .elseWord then
          ((rest.take
              (TokenStream.inside_of_kind otherwise (by decide))).loosen
                (Nat.le_of_lt shorter)).andThen fun _ rest shorter =>
            ((readBlock rest).map fun alternative =>
              .ifThenElse condition consequence alternative).loosen
                (Nat.le_of_lt shorter)
        else
          .ok (.ifThen condition consequence, ⟨rest, shorter⟩)
  else if stream.kind.isType then
    (readType stream).andThen fun type rest shorter =>
      ((readName rest).loosen (Nat.le_of_lt shorter)).andThen
        fun name rest shorter =>
      ((rest.expect .assign).loosen (Nat.le_of_lt shorter)).andThen
        fun _ rest shorter =>
      ((readExpression 0 rest).map fun value =>
        .assigns type name value).loosen (Nat.le_of_lt shorter)
  else
    (readExpression 0 stream).map .evaluates
termination_by 2 * stream.left

/-- Reads statements up to a closing brace or the end of the input. -/
def readStatements (stream : TokenStream) :
    Reading Block (stream.left + 1) :=
  if stream.kind = .rightBrace ∨ stream.kind = .endOfInput then
    .done [] stream
  else
    ((readStatement stream).andThen fun statement rest shorter =>
      ((readStatements rest).map fun others =>
        statement :: others).loosen shorter).loosen (Nat.le_succ _)
termination_by 2 * stream.left + 1

def readBlock (stream : TokenStream) : Reading Block stream.left :=
  (stream.expect .leftBrace).andThen fun _ rest shorter =>
    ((readStatements rest).loosen shorter).andThen
      fun statements rest shorter =>
    ((rest.expect .rightBrace).map fun _ => statements).loosen
      (Nat.le_of_lt shorter)
termination_by 2 * stream.left

end

/-! ### Functions and contracts -/

def readFunction (stream : TokenStream) : Reading Function stream.left :=
  (stream.expect .function).andThen fun _ rest shorter =>
    ((readName rest).loosen (Nat.le_of_lt shorter)).andThen
      fun name rest shorter =>
    ((rest.expect .leftParen).loosen (Nat.le_of_lt shorter)).andThen
      fun _ rest shorter =>
    ((if rest.kind = .rightParen then .done [] rest
        else (readParameters rest).loosen (Nat.le_succ _)).loosen
      shorter).andThen fun parameters rest shorter =>
    ((rest.expect .rightParen).loosen (Nat.le_of_lt shorter)).andThen
      fun _ rest shorter =>
    ((if rest.kind.isType then (readType rest).loosen (Nat.le_succ _)
        else .done .void rest).loosen shorter).andThen
      fun returnType rest shorter =>
    ((readBlock rest).map fun body =>
      ⟨name, parameters, returnType, body⟩).loosen (Nat.le_of_lt shorter)

def readFunctions (stream : TokenStream) :
    Reading (List Function) (stream.left + 1) :=
  if stream.kind = .rightBrace ∨ stream.kind = .endOfInput then
    .done [] stream
  else
    ((readFunction stream).andThen fun function rest shorter =>
      ((readFunctions rest).map fun others =>
        function :: others).loosen shorter).loosen (Nat.le_succ _)
termination_by stream.left

/-- Reads a contract, behind which the input has to end. -/
def readContract (stream : TokenStream) : Reading Contract stream.left :=
  (stream.expect .contract).andThen fun _ rest shorter =>
    ((rest.expect .leftBrace).loosen (Nat.le_of_lt shorter)).andThen
      fun _ rest shorter =>
    ((readFunctions rest).loosen shorter).andThen
      fun functions rest shorter =>
    ((rest.expect .rightBrace).loosen (Nat.le_of_lt shorter)).andThen
      fun _ rest shorter =>
    if rest.kind = .endOfInput then
      .ok (⟨functions⟩, ⟨rest.advance, by
        rw [TokenStream.left_advance]; omega⟩)
    else
      .refuse (.token .endOfInput) rest

end ContractCompiler
