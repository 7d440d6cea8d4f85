/-
What it means for a reading to succeed.

A reader succeeds with what its program returns.  Here the program of every
reader is opened once: a success of the whole is described by successes of its
parts.  What is proved about the readers later rests on these descriptions
alone.
-/

import ContractCompiler.Proofs.Progress

namespace ContractCompiler

namespace Reading

variable {α : Type}

def Gives {bound : Nat} (reading : Reading α bound) (value : α)
    (rest : TokenStream) : Prop :=
  ∃ shorter : rest.left < bound, reading = .ok (value, ⟨rest, shorter⟩)

theorem gives_iff_outcome {bound : Nat} {reading : Reading α bound}
    {value : α} {rest : TokenStream} :
    reading.Gives value rest ↔ reading.outcome = (.ok value, rest) := by
  constructor
  · rintro ⟨shorter, rfl⟩
    rfl
  · intro outcomeEq
    cases reading with
    | error failure =>
        simp only [outcome, Prod.mk.injEq, reduceCtorEq, false_and]
          at outcomeEq
    | ok result =>
        rcases result with ⟨found, remaining, shorter⟩
        simp only [outcome, Prod.mk.injEq, Except.ok.injEq] at outcomeEq
        rcases outcomeEq with ⟨rfl, rfl⟩
        exact ⟨shorter, rfl⟩

theorem Gives.unique {bound : Nat} {reading : Reading α bound}
    {value other : α} {rest remaining : TokenStream}
    (first : reading.Gives value rest)
    (second : reading.Gives other remaining) :
    value = other ∧ rest = remaining := by
  rcases first with ⟨_, rfl⟩
  rcases second with ⟨_, same⟩
  simp only [Except.ok.injEq, Prod.mk.injEq, Subtype.mk.injEq] at same
  exact same

/-- A success leaves fewer tokens than the bound. -/
theorem Gives.left_lt {bound : Nat} {reading : Reading α bound}
    {value : α} {rest : TokenStream} (given : reading.Gives value rest) :
    rest.left < bound := by
  rcases given with ⟨shorter, _⟩
  exact shorter

/-- A reading succeeds with what its program returns. -/
theorem RunsAs.returns_iff {program : Reader.Program α}
    {stream rest : TokenStream} {ends bound : Nat}
    {reading : Reading α bound} {value : α}
    (runsAs : reading.RunsAs program stream ends) :
    program.Returns stream value rest ↔ reading.Gives value rest := by
  constructor
  · rintro ⟨consumed, records, returns⟩
    cases runsAs with
    | @ok found remaining shorter _ _ runs =>
        obtain ⟨_, _, same, rfl⟩ := runs.unique returns
        cases same
        exact ⟨shorter, rfl⟩
    | error runs =>
        obtain ⟨_, _, clash, _⟩ := runs.unique returns
        cases clash
  · rintro ⟨shorter, rfl⟩
    cases runsAs with
    | ok runs => exact ⟨_, _, runs⟩

end Reading

namespace Reader

variable {stream rest : TokenStream}

@[simp]
theorem returns_expression {power : Nat} {expression : Expression} :
    @Program.Returns Expression (call (.expression power)) stream expression
        rest ↔
      (readExpression power stream).Gives expression rest :=
  (runsAs_readExpression power).returns_iff

@[simp]
theorem returns_operators {power : Nat} {left expression : Expression} :
    @Program.Returns Expression (call (.operators power left)) stream
        expression rest ↔
      (readOperators power left stream).Gives expression rest :=
  (runsAs_readOperators power left).returns_iff

@[simp]
theorem returns_operation {operator : Operator} {left expression : Expression}
    {power : Nat} :
    @Program.Returns Expression (call (.operation operator left power)) stream
        expression rest ↔
      ∃ right, (readExpression power stream.advance).Gives right rest ∧
        expression = .binary operator left right :=
  returns_call.trans (by simp [body, and_assoc])

@[simp]
theorem returns_operand {expression : Expression} :
    @Program.Returns Expression (call .operand) stream expression rest ↔
      (readOperand stream).Gives expression rest :=
  runsAs_readOperand.returns_iff

@[simp]
theorem returns_typeName {type : ValueType} :
    typeName.Returns stream type rest ↔ (readType stream).Gives type rest :=
  runsAs_readType.returns_iff

@[simp]
theorem returns_name {text : String} :
    name.Returns stream text rest ↔ (readName stream).Gives text rest :=
  runsAs_readName.returns_iff

@[simp]
theorem returns_typedName {parameter : Parameter} :
    typedName.Returns stream parameter rest ↔
      (readParameter stream).Gives parameter rest :=
  runsAs_readParameter.returns_iff

@[simp]
theorem returns_parameters {parameters : List Parameter} :
    @Program.Returns (List Parameter) (call .parameters) stream parameters
        rest ↔
      (readParameters stream).Gives parameters rest :=
  runsAs_readParameters.returns_iff

@[simp]
theorem returns_block {block : Block} :
    @Program.Returns Block (call .block) stream block rest ↔
      (readBlock stream).Gives block rest :=
  runsAs_readBlock.returns_iff

@[simp]
theorem returns_statements {block : Block} :
    @Program.Returns Block (call .statements) stream block rest ↔
      (readStatements stream).Gives block rest :=
  runsAs_readStatements.returns_iff

@[simp]
theorem returns_statement {statement : Statement} :
    @Program.Returns Statement (call .statement) stream statement rest ↔
      (readStatement stream).Gives statement rest :=
  runsAs_readStatement.returns_iff

@[simp]
theorem returns_function {function : Function} :
    @Program.Returns Function (call .function) stream function rest ↔
      (readFunction stream).Gives function rest :=
  runsAs_readFunction.returns_iff

@[simp]
theorem returns_functions {functions : List Function} :
    @Program.Returns (List Function) (call .functions) stream functions
        rest ↔
      (readFunctions stream).Gives functions rest :=
  runsAs_readFunctions.returns_iff

/-- An element, and the others behind it. -/
theorem returns_each {α : Type} {element : Program α}
    {elements : Program (List α)} {values : List α} :
    (do
      let value ← element
      let others ← elements
      return value :: others).Returns stream values rest ↔
      ∃ value others middle, element.Returns stream value middle ∧
        elements.Returns middle others rest ∧ values = value :: others := by
  simp only [returns_bind, returns_pure]
  constructor
  · rintro ⟨value, middle, first, others, _, second, rfl, rfl⟩
    exact ⟨value, others, middle, first, second, rfl⟩
  · rintro ⟨value, others, middle, first, second, rfl⟩
    exact ⟨value, middle, first, others, _, second, rfl, rfl⟩

end Reader

/-! ### Expressions -/

section Expressions

open Reader

variable {stream rest : TokenStream} {expression : Expression}

theorem readExpression_gives {power : Nat} :
    (readExpression power stream).Gives expression rest ↔
      ∃ left middle, (readOperand stream).Gives left middle ∧
        (readOperators power left middle).Gives expression rest := by
  rw [← returns_expression, returns_call]
  simp only [body, returns_bind, returns_operand, returns_operators]

/-- Without an operator that binds tighter, the operand stands alone. -/
theorem readOperators_gives_of_le {power : Nat} {left : Expression}
    (loose : stream.kind.precedence ≤ power) :
    (readOperators power left stream).Gives expression rest ↔
      expression = left ∧ rest = stream := by
  rw [← returns_operators, returns_call, body, returns_look,
    TokenStream.current_kind, if_pos loose, returns_pure]

/-- An operator that binds tighter is taken with its right operand. -/
theorem readOperators_gives_of_lt {power : Nat} {left : Expression}
    (tight : power < stream.kind.precedence) :
    (readOperators power left stream).Gives expression rest ↔
      ∃ operator right middle,
        Operator.between? stream.kind = some operator ∧
          (readExpression stream.kind.precedence stream.advance).Gives
            right middle ∧
          (readOperators power (.binary operator left right) middle).Gives
            expression rest := by
  rw [← returns_operators, returns_call, body, returns_look,
    TokenStream.current_kind, if_neg (Nat.not_le_of_lt tight)]
  cases found : Operator.between? stream.kind with
  | none =>
      have flat := Operator.between_none_iff.mp found
      omega
  | some operator =>
      simp only [returns_bind, returns_operation, returns_operators]
      constructor
      · rintro ⟨_, middle, ⟨right, operand, rfl⟩, operators⟩
        exact ⟨operator, right, middle, rfl, operand, operators⟩
      · rintro ⟨_, right, middle, same, operand, operators⟩
        cases same
        exact ⟨_, middle, ⟨right, operand, rfl⟩, operators⟩

/-- A token that is an operand on its own. -/
theorem readOperand_gives_of_token {found : Expression}
    (token : Expression.ofToken? stream.current = .ok (some found)) :
    (readOperand stream).Gives expression rest ↔
      expression = found ∧ rest = stream.advance := by
  rw [← returns_operand, returns_call, body, returns_look]
  simp [token, and_assoc]

/-- An operator in front of an operand. -/
theorem readOperand_gives_of_before {operator : Operator}
    (leads : Operator.before? stream.kind = some operator) :
    (readOperand stream).Gives expression rest ↔
      ∃ operand,
        (readExpression signPrecedence stream.advance).Gives operand rest ∧
          expression = .unary operator operand := by
  have noOperand : Expression.ofToken? stream.current = .ok none := by
    unfold TokenStream.kind at leads
    unfold Expression.ofToken?
    cases kind : stream.current.kind <;> rw [kind] at leads <;>
      first | rfl | cases leads
  rw [← returns_operand, returns_call, body, returns_look]
  simp [noOperand, TokenStream.current_kind, leads, and_assoc]

/-- An expression in parentheses. -/
theorem readOperand_gives_of_leftParen (opens : stream.kind = .leftParen) :
    (readOperand stream).Gives expression rest ↔
      ∃ middle, (readExpression 0 stream.advance).Gives expression middle ∧
        middle.kind = .rightParen ∧ rest = middle.advance := by
  unfold TokenStream.kind at opens
  have noOperand : Expression.ofToken? stream.current = .ok none := by
    simp only [Expression.ofToken?, opens]
  have noSign : Operator.before? stream.current.kind = none := by
    rw [opens]
    rfl
  rw [← returns_operand, returns_call, body, returns_look]
  simp only [noOperand, noSign]
  rw [if_pos opens, returns_skipping, returns_closed]
  simp only [returns_expression, returns_pure]
  constructor
  · rintro ⟨_, middle, given, closes, rfl, rfl⟩
    exact ⟨middle, given, closes, rfl⟩
  · rintro ⟨middle, given, closes, rfl⟩
    exact ⟨expression, middle, given, closes, rfl, rfl⟩

/-- An operand starts with a token that is one, with an operator in front of
another or with a parenthesis. -/
theorem readOperand_gives_cases
    (given : (readOperand stream).Gives expression rest) :
    (∃ found, Expression.ofToken? stream.current = .ok (some found)) ∨
      (∃ operator, Operator.before? stream.kind = some operator) ∨
      stream.kind = .leftParen := by
  rw [← returns_operand, returns_call, body, returns_look] at given
  split at given
  next => exact absurd given returns_fail
  next found token => exact .inl ⟨found, token⟩
  next =>
    split at given
    next operator leads => exact .inr (.inl ⟨operator, leads⟩)
    next =>
      split at given
      next opens => exact .inr (.inr opens)
      next => exact absurd given returns_fail

end Expressions

/-! ### Types and parameters -/

section Parts

open Reader

variable {stream rest : TokenStream}

theorem readType_gives {type : ValueType} :
    (readType stream).Gives type rest ↔
      ValueType.ofKind? stream.kind = some type ∧
        rest = stream.advance := by
  rw [← returns_typeName, typeName, returns_look, TokenStream.current_kind]
  cases ValueType.ofKind? stream.kind with
  | none => simp
  | some found => simp [and_assoc, eq_comm]

private theorem readName_gives {name : String} :
    (readName stream).Gives name rest ↔
      stream.kind = .identifier ∧ name = stream.current.literal ∧
        rest = stream.advance := by
  rw [← returns_name]
  simp [Reader.name, and_assoc]

theorem readParameter_gives {parameter : Parameter} :
    (readParameter stream).Gives parameter rest ↔
      stream.kind = .identifier ∧
        parameter.name = stream.current.literal ∧
        (readType stream.advance).Gives parameter.type rest := by
  rw [← returns_typedName, typedName, returns_named]
  simp only [returns_bind, returns_typeName, returns_pure]
  constructor
  · rintro ⟨named, type, _, given, rfl, rfl⟩
    exact ⟨named, rfl, given⟩
  · rintro ⟨named, same, given⟩
    exact ⟨named, parameter.type, rest, given, by rw [← same], rfl⟩

/-- One round of the loop over parameters takes the comma as well. -/
theorem Reader.returns_parameter {round : Parameter × Bool} :
    @Program.Returns (Parameter × Bool) (call .parameter) stream round rest ↔
      ∃ parameter middle, (readParameter stream).Gives parameter middle ∧
        (middle.kind = .comma ∧ round = (parameter, true) ∧
            rest = middle.advance ∨
          middle.kind ≠ .comma ∧ round = (parameter, false) ∧
            rest = middle) := by
  rw [returns_call, body]
  simp [TokenStream.current_kind, and_assoc]

theorem readParameters_gives {parameters : List Parameter} :
    (readParameters stream).Gives parameters rest ↔
      ∃ parameter middle,
        (readParameter stream).Gives parameter middle ∧
          ((middle.kind ≠ .comma ∧ parameters = [parameter] ∧
              rest = middle) ∨
            (middle.kind = .comma ∧ ∃ others,
              (readParameters middle.advance).Gives others rest ∧
                parameters = parameter :: others)) := by
  rw [← returns_parameters, returns_call, body]
  simp only [returns_bind, returns_parameter]
  constructor
  · rintro ⟨_, _, ⟨parameter, middle, given,
      ⟨more, rfl, rfl⟩ | ⟨last, rfl, rfl⟩⟩, onward⟩
    · simp only [if_true, returns_bind, returns_parameters, returns_pure]
        at onward
      rcases onward with ⟨others, _, deeper, rfl, rfl⟩
      exact ⟨parameter, middle, given, .inr ⟨more, others, deeper, rfl⟩⟩
    · exact ⟨parameter, _, given, .inl ⟨last, returns_pure.mp onward⟩⟩
  · rintro ⟨parameter, middle, given,
      ⟨last, rfl, rfl⟩ | ⟨more, others, deeper, rfl⟩⟩
    · exact ⟨_, _, ⟨parameter, _, given, .inr ⟨last, rfl, rfl⟩⟩,
        returns_pure.mpr ⟨rfl, rfl⟩⟩
    · refine ⟨_, _, ⟨parameter, middle, given, .inl ⟨more, rfl, rfl⟩⟩, ?_⟩
      simp only [if_true, returns_bind, returns_parameters, returns_pure]
      exact ⟨others, _, deeper, rfl, rfl⟩

end Parts

/-! ### Statements -/

section Statements

open Reader

variable {stream rest : TokenStream} {block : Block} {statement : Statement}

theorem readBlock_gives :
    (readBlock stream).Gives block rest ↔
      stream.kind = .leftBrace ∧ ∃ middle,
        (readStatements stream.advance).Gives block middle ∧
          middle.kind = .rightBrace ∧ rest = middle.advance := by
  rw [← returns_block, returns_call, body, returns_passing, returns_closed]
  simp only [returns_statements, returns_pure]
  constructor
  · rintro ⟨opens, _, middle, given, closes, rfl, rfl⟩
    exact ⟨opens, middle, given, closes, rfl⟩
  · rintro ⟨opens, middle, given, closes, rfl⟩
    exact ⟨opens, block, middle, given, closes, rfl, rfl⟩

theorem readStatements_gives :
    (readStatements stream).Gives block rest ↔
      ((stream.kind = .rightBrace ∨ stream.kind = .endOfInput) ∧
          block = [] ∧ rest = stream) ∨
        (¬ (stream.kind = .rightBrace ∨ stream.kind = .endOfInput) ∧
          ∃ statement others middle,
            (readStatement stream).Gives statement middle ∧
              (readStatements middle).Gives others rest ∧
              block = statement :: others) := by
  rw [← returns_statements, returns_call, body, returns_look,
    TokenStream.current_kind, returns_ite, returns_pure, returns_each]
  simp only [returns_statement, returns_statements]

theorem readStatement_gives_of_return
    (returning : stream.kind = .returnWord) :
    (readStatement stream).Gives statement rest ↔
      (stream.advance.kind = .rightBrace ∧ statement = .returns none ∧
          rest = stream.advance) ∨
        (stream.advance.kind ≠ .rightBrace ∧ ∃ value,
          (readExpression 0 stream.advance).Gives value rest ∧
            statement = .returns (some value)) := by
  rw [← returns_statement, returns_call, body, returns_look,
    TokenStream.current_kind, if_pos returning]
  simp [TokenStream.current_kind, and_assoc]

theorem readStatement_gives_of_if (branching : stream.kind = .ifWord) :
    (readStatement stream).Gives statement rest ↔
      stream.advance.kind = .leftParen ∧
        ∃ condition middle consequence behind,
          (readExpression 0 stream.advance.advance).Gives condition
              middle ∧
            middle.kind = .rightParen ∧
            (readBlock middle.advance).Gives consequence behind ∧
            ((behind.kind ≠ .elseWord ∧
                statement = .ifThen condition consequence ∧
                rest = behind) ∨
              (behind.kind = .elseWord ∧ ∃ alternative,
                (readBlock behind.advance).Gives alternative rest ∧
                  statement =
                    .ifThenElse condition consequence alternative)) := by
  have noReturn : stream.kind ≠ .returnWord := by
    rw [branching]
    decide
  rw [← returns_statement, returns_call, body, returns_look,
    TokenStream.current_kind, if_neg noReturn, if_pos branching]
  simp [TokenStream.current_kind, and_assoc, or_comm]

theorem readStatement_gives_of_type (declares : stream.kind.isType = true) :
    (readStatement stream).Gives statement rest ↔
      ∃ type value, ValueType.ofKind? stream.kind = some type ∧
        stream.advance.kind = .identifier ∧
        stream.advance.advance.kind = .assign ∧
        (readExpression 0 stream.advance.advance.advance).Gives value
          rest ∧
        statement =
          .assigns type stream.advance.current.literal value := by
  have noReturn : stream.kind ≠ .returnWord := by
    intro returning
    rw [returning] at declares
    cases declares
  have noIf : stream.kind ≠ .ifWord := by
    intro branching
    rw [branching] at declares
    cases declares
  rw [← returns_statement, returns_call, body, returns_look,
    TokenStream.current_kind, if_neg noReturn, if_neg noIf, if_pos declares]
  simp [readType_gives, readName_gives, and_assoc]

theorem readStatement_gives_of_expression
    (noReturn : stream.kind ≠ .returnWord) (noIf : stream.kind ≠ .ifWord)
    (noType : stream.kind.isType = false) :
    (readStatement stream).Gives statement rest ↔
      ∃ value, (readExpression 0 stream).Gives value rest ∧
        statement = .evaluates value := by
  rw [← returns_statement, returns_call, body, returns_look,
    TokenStream.current_kind, if_neg noReturn, if_neg noIf, noType]
  simp

end Statements

/-! ### Functions and contracts -/

section Functions

open Reader

variable {stream rest : TokenStream}

private theorem Reader.returns_parameterList {parameters : List Parameter} :
    parameterList.Returns stream parameters rest ↔
      (stream.kind = .rightParen ∧ parameters = [] ∧ rest = stream) ∨
        (stream.kind ≠ .rightParen ∧
          (readParameters stream).Gives parameters rest) := by
  rw [parameterList, returns_look, TokenStream.current_kind, returns_ite,
    returns_pure, returns_parameters]

private theorem Reader.returns_returnType {type : ValueType} :
    returnType.Returns stream type rest ↔
      (stream.kind.isType = false ∧ type = .void ∧ rest = stream) ∨
        (readType stream).Gives type rest := by
  rw [returnType, returns_look, TokenStream.current_kind, returns_ite,
    returns_pure, returns_typeName, Bool.not_eq_true]
  constructor
  · rintro (⟨_, given⟩ | missing)
    · exact .inr given
    · exact .inl missing
  · rintro (missing | given)
    · exact .inr missing
    · exact .inl ⟨ValueType.isType_iff.mpr ⟨_, (readType_gives.mp given).1⟩,
        given⟩

theorem readFunction_gives {function : Function} :
    (readFunction stream).Gives function rest ↔
      stream.kind = .function ∧ stream.advance.kind = .identifier ∧
        stream.advance.advance.kind = .leftParen ∧
        function.name = stream.advance.current.literal ∧
        ∃ middle behind,
          ((stream.advance.advance.advance.kind = .rightParen ∧
              function.parameters = [] ∧
              middle = stream.advance.advance.advance) ∨
            (stream.advance.advance.advance.kind ≠ .rightParen ∧
              (readParameters stream.advance.advance.advance).Gives
                function.parameters middle)) ∧
          middle.kind = .rightParen ∧
          ((middle.advance.kind.isType = false ∧
              function.returnType = .void ∧ behind = middle.advance) ∨
            (readType middle.advance).Gives function.returnType behind) ∧
          (readBlock behind).Gives function.body rest := by
  rw [← returns_function, returns_call, body, returns_passing, returns_named,
    returns_passing, returns_closed]
  simp only [returns_bind, returns_parameterList, returns_returnType,
    returns_block, returns_pure]
  constructor
  · rintro ⟨starts, named, opens, parameters, middle, listed, closes, type,
      behind, typed, block, _, given, rfl, rfl⟩
    exact ⟨starts, named, opens, rfl, middle, behind, listed, closes, typed,
      given⟩
  · rintro ⟨starts, named, opens, same, middle, behind, listed, closes, typed,
      given⟩
    exact ⟨starts, named, opens, _, middle, listed, closes, _, behind, typed,
      _, rest, given, by rw [← same], rfl⟩

theorem readFunctions_gives {functions : List Function} :
    (readFunctions stream).Gives functions rest ↔
      ((stream.kind = .rightBrace ∨ stream.kind = .endOfInput) ∧
          functions = [] ∧ rest = stream) ∨
        (¬ (stream.kind = .rightBrace ∨ stream.kind = .endOfInput) ∧
          ∃ function others middle,
            (readFunction stream).Gives function middle ∧
              (readFunctions middle).Gives others rest ∧
              functions = function :: others) := by
  rw [← returns_functions, returns_call, body, returns_look,
    TokenStream.current_kind, returns_ite, returns_pure, returns_each]
  simp only [returns_function, returns_functions]

theorem readContract_gives {contract : Contract} :
    (readContract stream).Gives contract rest ↔
      stream.kind = .contract ∧ stream.advance.kind = .leftBrace ∧
        ∃ middle,
          (readFunctions stream.advance.advance).Gives contract.functions
              middle ∧
            middle.kind = .rightBrace ∧
            middle.advance.kind = .endOfInput ∧
            rest = middle.advance.advance := by
  rw [← runsAs_readContract.returns_iff, returns_call, body, returns_passing,
    returns_passing, returns_closed]
  simp only [returns_passing, returns_functions, returns_pure]
  constructor
  · rintro ⟨starts, opens, functions, middle, given, closes, ends, rfl, rfl⟩
    exact ⟨starts, opens, middle, given, closes, ends, rfl⟩
  · rintro ⟨starts, opens, middle, given, closes, ends, rfl⟩
    exact ⟨starts, opens, _, middle, given, closes, ends, rfl, rfl⟩

end Functions

end ContractCompiler
