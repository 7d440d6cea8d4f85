/-
The machine follows the meaning of expressions.

Running the code of an expression leaves the words of its value on top of the
stack, and nothing else changes.  Where the expression has no value because two
words cannot be divided, the machine stops at that division.
-/

import ContractCompiler.Proofs.Agreement
import ContractCompiler.Proofs.Execution
import ContractCompiler.Proofs.TypeChecking

namespace ContractCompiler

/-- The machine follows an outcome from a state on: it reaches a state that
belongs to the value, or it stops in a region at a division without a
result. -/
inductive Follows (call : Call) (region : Region) (start : Machine)
    {α : Type} (finish : α → Machine → Prop) : Except Fault α → Prop where
  | reaches {value : α} {final : Machine}
      (run : Machine.Reaches call region.code start final)
      (finished : finish value final) :
      Follows call region start finish (.ok value)
  | divides {final : Machine}
      (run : Machine.Reaches call region.code start final)
      (undivided : final.Undivided call region.code)
      (inside : region.Contains final.counter) :
      Follows call region start finish (.error .division)

namespace Follows

variable {call : Call} {region : Region} {start middle : Machine}
  {α β : Type} {finish : β → Machine → Prop}

theorem after {outcome : Except Fault β}
    (run : Machine.Reaches call region.code start middle)
    (follows : Follows call region middle finish outcome) :
    Follows call region start finish outcome := by
  cases follows with
  | reaches later finished => exact .reaches (run.trans later) finished
  | divides later undivided inside =>
      exact .divides (run.trans later) undivided inside

theorem bind {between : α → Machine → Prop} {outcome : Except Fault α}
    {next : α → Except Fault β}
    (first : Follows call region start between outcome)
    (second : ∀ value machine, outcome = .ok value →
      between value machine →
      Follows call region machine finish (next value)) :
    Follows call region start finish (outcome >>= next) := by
  cases first with
  | reaches run finished => exact .after run (second _ _ rfl finished)
  | divides run undivided inside => exact .divides run undivided inside

end Follows

def Pushed (place : Nat) (stack : List Word) (memory : Memory)
    (type : ValueType) (value : Value) (machine : Machine) : Prop :=
  value.type = type ∧
    machine = ⟨place, value.words.reverse ++ stack, memory⟩

variable {call : Call} {region : Region} {start : Extent}
  {stack : List Word} {memory : Memory}

/-! ### Variables and literals -/

private theorem Machine.reaches_pushes (words : List Word)
    (held : region.Holds start (words.map Instruction.push)) :
    Reaches call region.code ⟨start.bytes, stack, memory⟩
      ⟨(start.past (words.map Instruction.push)).bytes,
        words.reverse ++ stack, memory⟩ := by
  induction words generalizing start stack with
  | nil =>
      exact .refl
  | cons word rest inductionHypothesis =>
      rw [List.map_cons] at held
      have pushed := @inductionHypothesis _ (word :: stack) held.tail
      rw [List.reverse_cons, List.append_assoc, List.map_cons,
        Extent.past_cons]
      exact (reaches_push held).trans pushed

private theorem Location.reaches_value {environment : Environment}
    {location : Location} {value : Value} {code : List Instruction}
    (stored : environment.memory.Stores call memory value location)
    (coded : location.code environment = .ok code)
    (held : region.Holds start code) :
    Machine.Reaches call region.code ⟨start.bytes, stack, memory⟩
      ⟨(start.past code).bytes, value.words.reverse ++ stack, memory⟩ := by
  cases location with
  | parameter index =>
      rcases code_parameter.mp coded with ⟨address, fits, rfl⟩
      rcases stored with ⟨word, given, words, _⟩
      rw [← Word.address_eq_ok fits] at given
      rw [words]
      exact (Machine.reaches_push held).trans
        (Machine.reaches_loadArgument held.tail given)
  | memory id =>
      rcases code_memory.mp coded with
        ⟨entry, offset, size, known, placed, sized, rfl⟩
      rcases stored with ⟨range, found, length, _, same⟩
      rw [known] at found
      cases found
      have loaded : packed size.toNat
          (fun index => memory (offset.toNat + index)) = value.words := by
        rw [Word.address_eq_ok placed, Word.address_eq_ok sized,
          value.words_eq_packed, ← length]
        exact packed_congr same
      rw [← loaded]
      exact ((Machine.reaches_push held).trans
        (Machine.reaches_push held.tail)).trans
          (Machine.reaches_memoryLoad held.tail.tail)

/-! ### Operators -/

private theorem Value.eq_number {value : Value} (type : value.type = .int) :
    ∃ word, value = .number word := by
  cases value with
  | number word => exact ⟨word, rfl⟩
  | truth value => cases type
  | text bytes => cases type

theorem Value.eq_truth {value : Value} (type : value.type = .bool) :
    ∃ truth, value = .truth truth := by
  cases value with
  | number word => cases type
  | truth value => exact ⟨value, rfl⟩
  | text bytes => cases type

theorem Value.length_bytes {value : Value} (noText : value.type ≠ .string) :
    value.bytes.length = wordSize := by
  cases value with
  | number word => rfl
  | truth value => rfl
  | text bytes => exact absurd rfl noText

namespace Operator

variable {operator : Operator} {left right : Word}

/-- One instruction computes a number. -/
theorem follows_number {opcode : Opcode} {word : Word}
    (held : region.Holds start [.plain opcode])
    (computed : opcode.between call left right = some word) :
    Follows call region ⟨start.bytes, right :: left :: stack, memory⟩
      (Pushed (start.past [.plain opcode]).bytes stack memory .int)
      (.ok (.number word)) :=
  .reaches (Machine.reaches_between held computed) ⟨rfl, rfl⟩

/-- One instruction computes a truth value. -/
theorem follows_truth {opcode : Opcode} {truth : Bool}
    (held : region.Holds start [.plain opcode])
    (computed : opcode.between call left right = some (.ofTruth truth)) :
    Follows call region ⟨start.bytes, right :: left :: stack, memory⟩
      (Pushed (start.past [.plain opcode]).bytes stack memory .bool)
      (.ok (.truth truth)) :=
  .reaches (Machine.reaches_between held computed) ⟨rfl, rfl⟩

/-- Two instructions compute a truth value and negate it. -/
theorem follows_negated {opcode : Opcode} {truth : Bool}
    (held : region.Holds start [.plain opcode, .plain .not])
    (computed : opcode.between call left right = some (.ofTruth truth)) :
    Follows call region ⟨start.bytes, right :: left :: stack, memory⟩
      (Pushed (start.past [.plain opcode, .plain .not]).bytes stack memory
        .bool)
      (.ok (.truth (!truth))) := by
  refine .reaches ((Machine.reaches_between held computed).trans
    (Machine.reaches_not held.tail)) ⟨rfl, ?_⟩
  rw [Extent.past_cons]
  rfl

private theorem ofTruth_beq (left right : Bool) :
    (Word.ofTruth left == Word.ofTruth right) = (left == right) := by
  cases left <;> cases right <;> rfl

private theorem between_and (left right : Bool) :
    Opcode.between call (.ofTruth left) (.ofTruth right) .and =
      some (.ofTruth (left && right)) := by
  cases left <;> cases right <;> rfl

private theorem between_or (left right : Bool) :
    Opcode.between call (.ofTruth left) (.ofTruth right) .or =
      some (.ofTruth (left || right)) := by
  cases left <;> cases right <;> rfl

private theorem follows_arithmetic (computes : operator.IsArithmetic)
    (held : region.Holds start operator.code) :
    Follows call region ⟨start.bytes, right :: left :: stack, memory⟩
      (Pushed (start.past operator.code).bytes stack memory .int)
      (operator.apply call (.number left) (.number right)) := by
  rcases computes with rfl | rfl | rfl | rfl | rfl
  · exact follows_number held rfl
  · exact follows_number held rfl
  · exact follows_number held rfl
  · rw [apply]
    cases divided : call.quotient left right with
    | some word => exact follows_number held divided
    | none =>
        refine .divides .refl ⟨left, right, stack, rfl, ?_⟩ held.contains
        exact Or.inl ⟨held.operation, divided⟩
  · rw [apply]
    cases divided : call.remainder left right with
    | some word => exact follows_number held divided
    | none =>
        refine .divides .refl ⟨left, right, stack, rfl, ?_⟩ held.contains
        exact Or.inr ⟨held.operation, divided⟩

private theorem follows_ordering (compares : operator.IsOrdering)
    (held : region.Holds start operator.code) :
    Follows call region ⟨start.bytes, right :: left :: stack, memory⟩
      (Pushed (start.past operator.code).bytes stack memory .bool)
      (operator.apply call (.number left) (.number right)) := by
  rcases compares with rfl | rfl | rfl | rfl
  · exact follows_truth held rfl
  · exact follows_truth held rfl
  · rw [apply, BitVec.sle_eq_not_slt]
    exact follows_negated held rfl
  · rw [apply, BitVec.sle_eq_not_slt]
    exact follows_negated held rfl

private theorem follows_equality_number
    (tests : operator = .equal ∨ operator = .notEqual)
    (held : region.Holds start operator.code) :
    Follows call region ⟨start.bytes, right :: left :: stack, memory⟩
      (Pushed (start.past operator.code).bytes stack memory .bool)
      (operator.apply call (.number left) (.number right)) := by
  rcases tests with rfl | rfl
  · exact follows_truth held rfl
  · exact follows_negated held rfl

private theorem follows_equality_truth {left right : Bool}
    (tests : operator = .equal ∨ operator = .notEqual)
    (held : region.Holds start operator.code) :
    Follows call region
      ⟨start.bytes, .ofTruth right :: .ofTruth left :: stack, memory⟩
      (Pushed (start.past operator.code).bytes stack memory .bool)
      (operator.apply call (.truth left) (.truth right)) := by
  rcases tests with rfl | rfl
  · rw [apply, ← ofTruth_beq]
    exact follows_truth held rfl
  · rw [apply, bne, ← ofTruth_beq]
    exact follows_negated held rfl

private theorem follows_logic {left right : Bool}
    (connects : operator = .and ∨ operator = .or)
    (held : region.Holds start operator.code) :
    Follows call region
      ⟨start.bytes, .ofTruth right :: .ofTruth left :: stack, memory⟩
      (Pushed (start.past operator.code).bytes stack memory .bool)
      (operator.apply call (.truth left) (.truth right)) := by
  rcases connects with rfl | rfl
  · exact follows_truth held (between_and left right)
  · exact follows_truth held (between_or left right)

end Operator

/-! ### Expressions -/

/-- Wherever a region holds the code of an expression, the machine follows the
value of the expression. -/
def Expression.Computed (call : Call) (region : Region)
    (environment : Environment) (scopes : List (List (String × Value)))
    (memory : Memory) (expression : Expression) (type : ValueType) : Prop :=
  ∀ {code : List Instruction} {start : Extent} {stack : List Word},
    expression.code environment = .ok code → region.Holds start code →
    Follows call region ⟨start.bytes, stack, memory⟩
      (Pushed (start.past code).bytes stack memory type)
      (expression.evaluate call scopes)

section

variable {environment : Environment}
  {scopes : List (List (String × Value))} {type leftType rightType : ValueType}

private theorem Expression.computed_identifier {name : String}
    (agrees : environment.Agrees call scopes memory)
    (found : findName environment.scopes name = some type) :
    (Expression.identifier name).Computed call region environment scopes
      memory type := by
  intro code start stack coded held
  rcases code_identifier.mp coded with ⟨_, location, bound, located⟩
  rcases Environment.binding_eq_ok.mp bound with ⟨number, lookedUp, rfl⟩
  rcases agrees.lookup lookedUp with ⟨value, given, typed, stored⟩
  rw [environment.findName_scopes, lookedUp] at found
  cases found
  rw [evaluate, given]
  exact .reaches (Location.reaches_value stored located held) ⟨typed, rfl⟩

private theorem Expression.computed_binary {operator : Operator}
    {left right : Expression}
    (onLeft : left.Computed call region environment scopes memory leftType)
    (onRight : right.Computed call region environment scopes memory
      rightType)
    (applied : ∀ (leftValue rightValue : Value) {start : Extent}
      {stack : List Word}, leftValue.type = leftType →
      rightValue.type = rightType → region.Holds start operator.code →
      Follows call region
        ⟨start.bytes, rightValue.words.reverse ++
          (leftValue.words.reverse ++ stack), memory⟩
        (Pushed (start.past operator.code).bytes stack memory type)
        (operator.apply call leftValue rightValue)) :
    (Expression.binary operator left right).Computed call region environment
      scopes memory type := by
  intro code start stack coded held
  rcases code_binary.mp coded with
    ⟨leftCode, rightCode, leftCoded, rightCoded, rfl⟩
  rw [evaluate, Extent.past_append, Extent.past_append]
  refine (onLeft leftCoded held.left.left).bind ?_
  rintro leftValue _ _ ⟨leftTyped, rfl⟩
  refine (onRight rightCoded held.left.right).bind ?_
  rintro rightValue _ _ ⟨rightTyped, rfl⟩
  have behind := held.right
  rw [Extent.past_append] at behind
  exact applied leftValue rightValue leftTyped rightTyped behind

private theorem Expression.computed_negative {operand : Expression}
    (number : operand.Computed call region environment scopes memory .int) :
    (Expression.unary .minus operand).Computed call region environment scopes
      memory .int := by
  intro code start stack coded held
  rcases code_minus.mp coded with ⟨operandCode, operandCoded, rfl⟩
  have operandHeld : region.Holds (start.past [.push 0]) operandCode :=
    held.left.tail
  have pushed : region.Holds start (.push 0 :: operandCode) := held.left
  rw [evaluate, Extent.past_append, Extent.past_cons start]
  refine .after (Machine.reaches_push pushed) ?_
  refine (number operandCoded operandHeld).bind ?_
  rintro value _ _ ⟨typed, rfl⟩
  rcases Value.eq_number typed with ⟨word, rfl⟩
  have behind := held.right
  rw [Extent.past_cons start] at behind
  refine Operator.follows_number behind ?_
  exact congrArg some (BitVec.zero_sub word)

private theorem Expression.computed_negation {operand : Expression}
    (truth : operand.Computed call region environment scopes memory .bool) :
    (Expression.unary .not operand).Computed call region environment scopes
      memory .bool := by
  intro code start stack coded held
  rcases (code_unary (by decide)).mp coded with
    ⟨operandCode, operandCoded, rfl⟩
  rw [evaluate, Extent.past_append]
  refine (truth operandCoded held.left).bind ?_
  rintro value _ _ ⟨typed, rfl⟩
  rcases Value.eq_truth typed with ⟨value, rfl⟩
  exact .reaches (Machine.reaches_not held.right) ⟨rfl, rfl⟩

/-- The machine follows the value of an expression that has a type. -/
theorem Expression.HasType.computed {expression : Expression}
    (typed : expression.HasType environment.scopes type)
    (agrees : environment.Agrees call scopes memory) :
    expression.Computed call region environment scopes memory type := by
  -- What is proved of an operand holds above any stack, since the words of
  -- the first operand lie below those of the second.
  induction typed with
  | identifier found =>
      exact computed_identifier agrees found
  | integer fits =>
      intro code start stack coded held
      rcases code_integer.mp coded with ⟨word, known, rfl⟩
      rcases Word.ofInteger_eq_some.mp known with ⟨_, rfl⟩
      exact .reaches (Machine.reaches_push held) ⟨rfl, rfl⟩
  | text value =>
      intro code start stack coded held
      cases coded
      refine .reaches (Machine.reaches_pushes _ held) ⟨rfl, ?_⟩
      rw [wordsOf_eq_packed]
      rfl
  | boolean value =>
      intro code start stack coded held
      cases coded
      exact .reaches (Machine.reaches_push held) ⟨rfl, rfl⟩
  | negative number inductionHypothesis =>
      exact computed_negative inductionHypothesis
  | negation truth inductionHypothesis =>
      exact computed_negation inductionHypothesis
  | arithmetic computes onLeft onRight leftHypothesis rightHypothesis =>
      refine computed_binary leftHypothesis rightHypothesis ?_
      intro left right start stack leftTyped rightTyped held
      rcases Value.eq_number leftTyped with ⟨left, rfl⟩
      rcases Value.eq_number rightTyped with ⟨right, rfl⟩
      exact Operator.follows_arithmetic computes held
  | ordering compares onLeft onRight leftHypothesis rightHypothesis =>
      refine computed_binary leftHypothesis rightHypothesis ?_
      intro left right start stack leftTyped rightTyped held
      rcases Value.eq_number leftTyped with ⟨left, rfl⟩
      rcases Value.eq_number rightTyped with ⟨right, rfl⟩
      exact Operator.follows_ordering compares held
  | equality tests comparable onLeft onRight leftHypothesis
      rightHypothesis =>
      refine computed_binary leftHypothesis rightHypothesis ?_
      intro left right start stack leftTyped rightTyped held
      rcases comparable with rfl | rfl
      · rcases Value.eq_number leftTyped with ⟨left, rfl⟩
        rcases Value.eq_number rightTyped with ⟨right, rfl⟩
        exact Operator.follows_equality_number tests held
      · rcases Value.eq_truth leftTyped with ⟨left, rfl⟩
        rcases Value.eq_truth rightTyped with ⟨right, rfl⟩
        exact Operator.follows_equality_truth tests held
  | logic connects onLeft onRight leftHypothesis rightHypothesis =>
      refine computed_binary leftHypothesis rightHypothesis ?_
      intro left right start stack leftTyped rightTyped held
      rcases Value.eq_truth leftTyped with ⟨left, rfl⟩
      rcases Value.eq_truth rightTyped with ⟨right, rfl⟩
      exact Operator.follows_logic connects held

/-- The size of an expression is the number of bytes of its value. -/
theorem Expression.HasType.length_bytes {expression : Expression}
    {size : Nat} {value : Value}
    (typed : expression.HasType environment.scopes type)
    (agrees : environment.Agrees call scopes memory)
    (sized : expression.sizeIn environment = .ok size)
    (evaluated : expression.evaluate call scopes = .ok value)
    (valued : value.type = type) : value.bytes.length = size := by
  -- Only a text, or a variable that holds one, takes more than a word.
  have single : type ≠ .string →
      Except.ok wordSize = (.ok size : Except CodeError Nat) →
      value.bytes.length = size := by
    rintro noText ⟨⟩
    exact Value.length_bytes (valued ▸ noText)
  cases typed with
  | identifier found =>
      simp only [Expression.sizeIn, bind_eq_ok, Prod.exists] at sized
      rcases sized with ⟨_, location, bound, sized⟩
      rcases Environment.binding_eq_ok.mp bound with ⟨number, lookedUp, rfl⟩
      rcases agrees.lookup lookedUp with ⟨other, given, _, stored⟩
      rw [evaluate, given] at evaluated
      cases evaluated
      revert stored sized
      cases environment.locationOf _ number with
      | parameter index =>
          rintro ⟨⟩ ⟨word, _, _, length⟩
          exact length
      | memory id =>
          intro sized
          rcases bind_eq_ok.mp sized with ⟨range, known, ⟨⟩⟩
          rintro ⟨entry, found, length, _⟩
          rw [Environment.entry_eq_ok.mp known] at found
          cases found
          exact length.symm
  | integer fits => exact single nofun sized
  | text value =>
      cases evaluated
      cases sized
      exact length_utf8Bytes _
  | boolean value => exact single nofun sized
  | negative number => exact single nofun sized
  | negation truth => exact single nofun sized
  | arithmetic computes onLeft onRight => exact single nofun sized
  | ordering compares onLeft onRight => exact single nofun sized
  | equality tests comparable onLeft onRight => exact single nofun sized
  | logic connects onLeft onRight => exact single nofun sized

end

end ContractCompiler
