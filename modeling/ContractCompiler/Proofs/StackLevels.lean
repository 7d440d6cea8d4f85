/-
How deep the stack is, read off the code.

Every operation takes a number of words from the stack and puts a number of
words there.  Reading code from front to back gives the depth at each
instruction.  Generated code passes this reading although it has branches:
where control splits or meets, nothing is left on the stack, so it does not
matter which way control came.
-/

import ContractCompiler.Proofs.Jumps
import ContractCompiler.Proofs.Sizes

namespace ContractCompiler

structure StackEffect where
  pops : Nat
  pushes : Nat
  deriving DecidableEq, Repr

/-- The effect of an operation.  How many words a memory operation moves is
said by the constant pushed right before it. -/
def Opcode.effect? (constant : Option Word) : Opcode → Option StackEffect
  | .push => some ⟨0, 1⟩
  | .pop => some ⟨1, 0⟩
  | .not | .loadArgument => some ⟨1, 1⟩
  | .add | .mul | .sub | .div | .mod | .lt | .gt | .eq | .and | .or =>
      some ⟨2, 1⟩
  | .memoryLoad =>
      constant.map fun size => ⟨2, wordCount size.toNat⟩
  | .memoryStore =>
      constant.map fun size => ⟨2 + wordCount size.toNat, 0⟩
  | .jump => some ⟨1, 0⟩
  | .jumpIf => some ⟨2, 0⟩
  | .jumpTarget | .returning => some ⟨0, 0⟩

def Opcode.IsCrossing (opcode : Opcode) : Prop :=
  opcode = .jump ∨ opcode = .jumpIf ∨ opcode = .jumpTarget

instance (opcode : Opcode) : Decidable opcode.IsCrossing :=
  inferInstanceAs (Decidable (_ ∨ _))

/-- What is known in front of an instruction: the constant pushed right before
it, if any, and the depth of the stack. -/
structure Level where
  constant : Option Word
  depth : Nat

namespace Level

/-- The level behind an instruction.  There is none when the stack is too
small, or when a crossing would leave words on it.  Behind a return the stack
is empty again, for whatever comes next is entered by another way. -/
def behind? (level : Level) (instruction : Instruction) : Option Level :=
  (instruction.opcode.effect? level.constant).bind fun effect =>
    if effect.pops ≤ level.depth ∧
        (instruction.opcode.IsCrossing → level.depth = effect.pops) then
      some ⟨instruction.operands.getLast?,
        if instruction.opcode = .returning then 0
        else level.depth - effect.pops + effect.pushes⟩
    else
      none

def past? (level : Level) (code : List Instruction) : Option Level :=
  code.foldlM behind? level

theorem past_cons (level : Level) (instruction : Instruction)
    (rest : List Instruction) :
    level.past? (instruction :: rest) =
      (level.behind? instruction).bind fun next => next.past? rest :=
  List.foldlM_cons

theorem past_append (level : Level) (first second : List Instruction) :
    level.past? (first ++ second) =
      (level.past? first).bind fun next => next.past? second :=
  List.foldlM_append

variable {level next : Level} {instruction : Instruction}

theorem behind_eq_some :
    level.behind? instruction = some next ↔
      ∃ effect, instruction.opcode.effect? level.constant = some effect ∧
        effect.pops ≤ level.depth ∧
        (instruction.opcode.IsCrossing → level.depth = effect.pops) ∧
        next = ⟨instruction.operands.getLast?,
          if instruction.opcode = .returning then 0
          else level.depth - effect.pops + effect.pushes⟩ := by
  unfold behind?
  rw [Option.bind_eq_some_iff]
  constructor
  · rintro ⟨effect, found, given⟩
    split at given
    next fits =>
      exact ⟨effect, found, fits.1, fits.2, (Option.some.inj given).symm⟩
    next => cases given
  · rintro ⟨effect, found, enough, crossing, rfl⟩
    exact ⟨effect, found, if_pos ⟨enough, crossing⟩⟩

end Level

/-- Some code takes the stack from one depth to another, whatever was pushed
right before it. -/
def Carries (depth : Nat) (code : List Instruction) (result : Nat) : Prop :=
  ∀ constant, ∃ last,
    Level.past? ⟨constant, depth⟩ code = some ⟨last, result⟩

namespace Carries

variable {first second : List Instruction} {depth between rest : Nat}

theorem nil (depth : Nat) : Carries depth [] depth :=
  fun constant => ⟨constant, rfl⟩

theorem append {result : Nat} (carries : Carries depth first between)
    (carriesToo : Carries between second result) :
    Carries depth (first ++ second) result := by
  intro constant
  obtain ⟨middle, passed⟩ := carries constant
  obtain ⟨last, passedToo⟩ := carriesToo middle
  refine ⟨last, ?_⟩
  rw [Level.past_append, passed]
  exact passedToo

/-- An instruction whose effect does not depend on what was pushed. -/
theorem single {instruction : Instruction} {opcode : Opcode}
    (rest pops pushes : Nat) (named : instruction.opcode = opcode)
    (fixed : ∀ constant, opcode.effect? constant = some ⟨pops, pushes⟩)
    (crossing : opcode.IsCrossing → rest = 0)
    (continues : opcode ≠ .returning) :
    Carries (rest + pops) [instruction] (rest + pushes) := by
  intro constant
  subst named
  have passed : Level.behind? ⟨constant, rest + pops⟩ instruction =
      some ⟨instruction.operands.getLast?, rest + pushes⟩ := by
    refine Level.behind_eq_some.mpr ⟨⟨pops, pushes⟩, fixed constant,
      Nat.le_add_left _ _, ?_, ?_⟩
    · intro crosses
      simp only [crossing crosses, Nat.zero_add]
    · rw [if_neg continues, Nat.add_sub_cancel]
  refine ⟨instruction.operands.getLast?, ?_⟩
  rw [Level.past_cons, passed]
  rfl

private theorem push (depth : Nat) (word : Word) :
    Carries depth [.push word] (depth + 1) :=
  @single (.push word) .push depth 0 1 rfl (fun _ => rfl)
    (fun crosses => absurd crosses (by decide)) (by decide)

/-- An instruction whose effect depends on the constant in front of it. -/
theorem sized {word : Word} {opcode : Opcode} (rest taken pushes : Nat)
    (known : opcode.effect? (some word) = some ⟨taken + 1, pushes⟩)
    (ordinary : ¬ opcode.IsCrossing) (continues : opcode ≠ .returning) :
    Carries (rest + taken) [.push word, .plain opcode] (rest + pushes) := by
  intro constant
  have pushed : Level.behind? ⟨constant, rest + taken⟩ (.push word) =
      some ⟨some word, rest + (taken + 1)⟩ := by
    refine Level.behind_eq_some.mpr ⟨⟨0, 1⟩, rfl, Nat.zero_le _, ?_, rfl⟩
    intro crosses
    rcases crosses with crosses | crosses | crosses <;> cases crosses
  have passed : Level.behind? ⟨some word, rest + (taken + 1)⟩
      (.plain opcode) =
        some ⟨(Instruction.plain opcode).operands.getLast?,
          rest + pushes⟩ := by
    refine Level.behind_eq_some.mpr ⟨_, known, Nat.le_add_left _ _, ?_, ?_⟩
    · intro crosses
      exact absurd crosses ordinary
    · have continuesToo : (Instruction.plain opcode).opcode ≠ .returning :=
        continues
      rw [if_neg continuesToo, Nat.add_sub_cancel]
  refine ⟨(Instruction.plain opcode).operands.getLast?, ?_⟩
  rw [Level.past_cons, pushed, Option.bind_some, Level.past_cons, passed]
  rfl

private theorem pushes (depth : Nat) (words : List Word) :
    Carries depth (words.map Instruction.push) (depth + words.length) := by
  induction words generalizing depth with
  | nil =>
      exact nil depth
  | cons word rest inductionHypothesis =>
      have later := inductionHypothesis (depth + 1)
      rw [Nat.add_right_comm, Nat.add_assoc] at later
      exact (push depth word).append later

private theorem pops (count : Nat) :
    Carries (depth + count) (List.replicate count (.plain .pop)) depth := by
  induction count with
  | zero =>
      exact nil depth
  | succ count inductionHypothesis =>
      have first : Carries (depth + count + 1) [.plain .pop]
          (depth + count) :=
        single (depth + count) 1 0 rfl (fun _ => rfl)
          (fun crosses => absurd crosses (by decide)) (by decide)
      exact first.append inductionHypothesis

/-- An operation that takes words and gives one. -/
theorem computes {opcode : Opcode} {taken : Nat}
    (fixed : ∀ constant, opcode.effect? constant = some ⟨taken, 1⟩)
    (ordinary : ¬ opcode.IsCrossing) (continues : opcode ≠ .returning) :
    Carries (depth + taken) [.plain opcode] (depth + 1) :=
  single depth taken 1 rfl fixed (fun crosses => absurd crosses ordinary)
    continues

private theorem not (depth : Nat) :
    Carries (depth + 1) [.plain .not] (depth + 1) :=
  computes (fun _ => rfl) (by decide) (by decide)

theorem jumpTarget : Carries 0 [.plain .jumpTarget] 0 :=
  single 0 0 0 rfl (fun _ => rfl) (fun _ => rfl) (by decide)

theorem jumpIf (target : Word) : Carries 1 (jumpCode .jumpIf target) 0 :=
  (push 1 target).append
    (single 0 2 0 rfl (fun _ => rfl) (fun _ => rfl) (by decide))

theorem jump (target : Word) : Carries 0 (jumpCode .jump target) 0 :=
  (push 0 target).append
    (single 0 1 0 rfl (fun _ => rfl) (fun _ => rfl) (by decide))

theorem returning (depth : Nat) : Carries depth [.plain .returning] 0 := by
  intro constant
  have passed : Level.behind? ⟨constant, depth⟩ (.plain .returning) =
      some ⟨none, 0⟩ := by
    refine Level.behind_eq_some.mpr ⟨⟨0, 0⟩, rfl, Nat.zero_le _, ?_, rfl⟩
    intro crosses
    exact absurd crosses (by decide)
  refine ⟨none, ?_⟩
  rw [Level.past_cons, passed]
  rfl

end Carries

/-! ### Expressions -/

private theorem Operator.code_carries {operator : Operator}
    (between : operator ≠ .not) (depth : Nat) :
    Carries (depth + 2) operator.code (depth + 1) := by
  have alone : ∀ {opcode : Opcode},
      (∀ constant, opcode.effect? constant = some ⟨2, 1⟩) →
      ¬ opcode.IsCrossing → opcode ≠ .returning →
      Carries (depth + 2) [.plain opcode] (depth + 1) := Carries.computes
  cases operator with
  | plus | minus | times | divide | modulo | less | greater | equal | and
  | or => exact alone (fun _ => rfl) (by decide) (by decide)
  | lessEqual | greaterEqual | notEqual =>
      exact (alone (fun _ => rfl) (by decide) (by decide)).append
        (.not depth)
  | not => exact absurd rfl between

section

variable {environment next : Environment} {call : Call} {memory : Memory}
  {scopes : List (List (String × Value))} {expression : Expression}
  {type : ValueType} {code : List Instruction}

private theorem Location.code_carries {location : Location} {value : Value}
    (stored : environment.memory.Stores call memory value location)
    (coded : location.code environment = .ok code) (depth : Nat) :
    Carries depth code (depth + wordCount value.bytes.length) := by
  cases location with
  | parameter index =>
      obtain ⟨index, _, rfl⟩ := code_parameter.mp coded
      obtain ⟨_, _, _, length⟩ := stored
      rw [length]
      exact (Carries.push depth index).append
        (.computes (fun _ => rfl) (by decide) (by decide))
  | memory id =>
      obtain ⟨entry, offset, size, found, _, sized, rfl⟩ :=
        code_memory.mp coded
      obtain ⟨range, known, length, _⟩ := stored
      rw [found] at known
      cases known
      rw [← length, ← Word.address_eq_ok sized]
      exact (Carries.push depth offset).append
        (.sized depth 1 (wordCount size.toNat) rfl (by decide) (by decide))

def Expression.Lifts (environment : Environment)
    (sizes : List (List (String × Nat))) (expression : Expression) : Prop :=
  ∀ code, expression.code environment = .ok code →
    ∃ size, expression.width? sizes = some size ∧
      ∀ depth, Carries depth code (depth + wordCount size)

private theorem Expression.Lifts.word
    (lifts : expression.Lifts environment (sizesOf scopes))
    (typed : expression.HasType environment.scopes type)
    (agrees : environment.Agrees call scopes memory) (single : type ≠ .string)
    (coded : expression.code environment = .ok code) (depth : Nat) :
    Carries depth code (depth + 1) := by
  obtain ⟨size, known, carries⟩ := lifts code coded
  obtain ⟨width, same, word⟩ := typed.width agrees
  rw [known] at same
  cases same
  rw [word single] at carries
  exact carries depth

private theorem Expression.lifts_binary {operator : Operator}
    {left right : Expression} (infixed : operator ≠ .not)
    (single : type ≠ .string) (agrees : environment.Agrees call scopes memory)
    (onLeft : left.HasType environment.scopes type)
    (onRight : right.HasType environment.scopes type)
    (leftLifts : left.Lifts environment (sizesOf scopes))
    (rightLifts : right.Lifts environment (sizesOf scopes)) :
    (binary operator left right).Lifts environment (sizesOf scopes) := by
  intro code coded
  obtain ⟨leftCode, rightCode, leftCoded, rightCoded, rfl⟩ :=
    code_binary.mp coded
  refine ⟨wordSize, rfl, ?_⟩
  intro depth
  have first := leftLifts.word onLeft agrees single leftCoded depth
  have second := rightLifts.word onRight agrees single rightCoded (depth + 1)
  exact (first.append second).append (operator.code_carries infixed depth)

private theorem Expression.HasType.lifts
    (typed : expression.HasType environment.scopes type)
    (agrees : environment.Agrees call scopes memory) :
    expression.Lifts environment (sizesOf scopes) := by
  induction typed with
  | @identifier name type found =>
      intro code coded
      obtain ⟨number, value, lookedUp, given, _, stored⟩ :=
        agrees.found found
      obtain ⟨_, location, bound, located⟩ := code_identifier.mp coded
      obtain ⟨numberToo, lookedUpToo, rfl⟩ :=
        Environment.binding_eq_ok.mp bound
      rw [lookedUp] at lookedUpToo
      cases lookedUpToo
      refine ⟨value.bytes.length, ?_, Location.code_carries stored located⟩
      rw [width?, findName_sizesOf, given]
      rfl
  | integer fits =>
      intro code coded
      obtain ⟨word, _, rfl⟩ := code_integer.mp coded
      exact ⟨wordSize, rfl, fun depth => .push depth word⟩
  | text value =>
      intro code coded
      cases coded
      refine ⟨_, rfl, ?_⟩
      intro depth
      rw [← length_utf8Bytes, ← length_packed, ← wordsOf_eq_packed]
      exact .pushes depth _
  | boolean value =>
      intro code coded
      cases coded
      exact ⟨wordSize, rfl, fun depth => .push depth _⟩
  | negative number inductionHypothesis =>
      intro code coded
      obtain ⟨operandCode, operandCoded, rfl⟩ := code_minus.mp coded
      refine ⟨wordSize, rfl, ?_⟩
      intro depth
      have operand := inductionHypothesis.word number agrees (by decide)
        operandCoded (depth + 1)
      have subtracts : Carries (depth + 2) [.plain .sub] (depth + 1) :=
        .computes (fun _ => rfl) (by decide) (by decide)
      exact ((Carries.push depth 0).append operand).append subtracts
  | negation truth inductionHypothesis =>
      intro code coded
      obtain ⟨operandCode, operandCoded, rfl⟩ :=
        (code_unary (by decide)).mp coded
      refine ⟨wordSize, rfl, ?_⟩
      intro depth
      have operand := inductionHypothesis.word truth agrees (by decide)
        operandCoded depth
      exact operand.append (.not depth)
  | arithmetic computes onLeft onRight leftHypothesis rightHypothesis =>
      apply lifts_binary _ _ agrees onLeft onRight leftHypothesis
        rightHypothesis
      · rintro rfl
        rcases computes with same | same | same | same | same <;> cases same
      · decide
  | ordering compares onLeft onRight leftHypothesis rightHypothesis =>
      apply lifts_binary _ _ agrees onLeft onRight leftHypothesis
        rightHypothesis
      · rintro rfl
        rcases compares with same | same | same | same <;> cases same
      · decide
  | equality tests comparable onLeft onRight leftHypothesis
      rightHypothesis =>
      apply lifts_binary _ _ agrees onLeft onRight leftHypothesis
        rightHypothesis
      · rintro rfl
        rcases tests with same | same <;> cases same
      · rcases comparable with rfl | rfl <;> decide
  | logic connects onLeft onRight leftHypothesis rightHypothesis =>
      apply lifts_binary _ _ agrees onLeft onRight leftHypothesis
        rightHypothesis
      · rintro rfl
        rcases connects with same | same <;> cases same
      · decide

/-! ### Statements -/

/-- The code of an expression that passes the checks. -/
theorem Environment.Agrees.lifts
    (agrees : environment.Agrees call scopes memory)
    (regular : expression.Regular)
    (typed : expression.typeIn environment = .ok type)
    (coded : expression.code environment = .ok code) :
    ∃ size, expression.width? (sizesOf scopes) = some size ∧
      ∀ depth, Carries depth code (depth + wordCount size) :=
  (Expression.hasType_of_code regular agrees.proper typed coded).lifts agrees
    code coded

private theorem Expression.evaluationCode_carries
    (agrees : environment.Agrees call scopes memory)
    (regular : expression.Regular)
    (compiled : expression.evaluationCode environment = .ok code) :
    Carries 0 code 0 := by
  obtain ⟨type, size, valueCode, typed, sized, coded, rfl⟩ :=
    evaluationCode_eq_ok.mp compiled
  obtain ⟨width, known, carries⟩ := agrees.lifts regular typed coded
  rw [expression.width_of_sizeIn agrees sized] at known
  cases known
  exact (carries 0).append (.pops (stackWords size))

def returnedWords? (sizes : List (List (String × Nat))) :
    Option Expression → Option Nat
  | none => some 0
  | some value => (value.width? sizes).map wordCount

theorem returnCode_carries {value : Option Expression}
    (agrees : environment.Agrees call scopes memory)
    (regular : (Statement.returns value).Regular Plain)
    (compiled : returnCode environment value = .ok code) :
    ∃ front depth, code = front ++ [Instruction.plain .returning] ∧
      returnedWords? (sizesOf scopes) value = some depth ∧
      Carries 0 front depth := by
  cases value with
  | none =>
      exact ⟨[], 0, (returnCode_none.mp compiled).2, rfl, .nil 0⟩
  | some value =>
      obtain ⟨front, typed, coded, rfl⟩ := returnCode_some.mp compiled
      obtain ⟨size, known, carries⟩ := agrees.lifts regular typed coded
      refine ⟨front, wordCount size, rfl, ?_, ?_⟩
      · rw [returnedWords?, known]
        rfl
      · have whole := carries 0
        rw [Nat.zero_add] at whole
        exact whole

private theorem assignCode_carries {name : String}
    (agrees : environment.Agrees call scopes memory)
    (regular : expression.Regular)
    (compiled : assignCode environment type name expression =
      (.ok code, next)) : Carries 0 code 0 := by
  obtain ⟨valueCode, size, defined, storing, typed, sized, coded, bound,
    stored, rfl, rfl⟩ := assignCode_eq_ok.mp compiled
  obtain ⟨width, known, carries⟩ := agrees.lifts regular typed coded
  rw [expression.width_of_sizeIn agrees sized] at known
  cases known
  obtain ⟨offset, length, _, fits, rfl⟩ := storeCode_eq_ok.mp stored
  have same : length.toNat = size := Word.address_eq_ok fits
  have moves : Opcode.memoryStore.effect? (some length) =
      some ⟨wordCount size + 1 + 1, 0⟩ := by
    rw [Opcode.effect?, Option.map_some, same, Nat.add_comm]
  have stores : Carries (0 + (wordCount size + 1))
      [.push length, .plain .memoryStore] 0 :=
    .sized 0 (wordCount size + 1) 0 moves (by decide) (by decide)
  exact (carries 0).append ((Carries.push _ offset).append stores)

theorem conditionCode_carries
    (agrees : environment.Agrees call scopes memory)
    (regular : expression.Regular)
    (compiled : conditionCode environment expression = .ok code) :
    Carries 0 code 1 := by
  obtain ⟨test, typed, coded, rfl⟩ := conditionCode_eq_ok.mp compiled
  have checked :=
    Expression.hasType_of_code regular agrees.proper typed coded
  exact ((checked.lifts agrees).word checked agrees (by decide) coded
    0).append (.not 0)

private theorem Statement.Straight.carries {statement : Statement}
    (compiled : statement.Straight environment code next)
    (regular : statement.Regular Plain)
    (agrees : environment.Agrees call scopes memory) :
    Carries 0 code 0 := by
  cases compiled with
  | evaluates compiled =>
      exact Expression.evaluationCode_carries agrees regular compiled
  | returns compiled =>
      obtain ⟨front, depth, rfl, _, carries⟩ :=
        returnCode_carries agrees regular compiled
      exact carries.append (.returning depth)
  | assigns compiled =>
      exact assignCode_carries agrees regular.2.2 compiled

end

/-- The code of a block takes the empty stack to the empty stack. -/
theorem Block.Generates.carries {start : Extent}
    {environment final : Environment} {block : Block} {fragment : Fragment}
    {call : Call} {scopes : List (List (String × Value))} {memory : Memory}
    (generated : Block.Generates start environment block fragment final)
    (regular : Statement.AllRegular Plain block)
    (agrees : environment.Agrees call scopes memory) :
    Carries 0 fragment.code 0 := by
  induction generated generalizing scopes memory with
  | nil =>
      exact .nil 0
  | straight compiled rest inductionHypothesis =>
      obtain ⟨later, memory, agreesThen, _⟩ :=
        compiled.agrees regular.1 agrees
      exact (compiled.carries regular.1 agrees).append
        (inductionHypothesis regular.2 agreesThen)
  | @ifThen start environment inside final condition consequence others test
      target body tail tested inner reached rest innerHypothesis
      restHypothesis =>
      have skipped := agrees.skip inner.grows (inner.spares regular.1.2)
      have tests := conditionCode_carries agrees regular.1.1 tested
      have consequence := innerHypothesis regular.1.2 agrees.enter
      exact (((tests.append (.jumpIf target)).append consequence).append
        .jumpTarget).append (restHypothesis regular.2 skipped)
  | @ifThenElse start environment inside between final condition consequence
      alternative others test target ending body other tail tested inner
      reached innerToo reachedToo rest innerHypothesis innerHypothesisToo
      restHypothesis =>
      have skipped := agrees.skip inner.grows (inner.spares regular.1.2.1)
      have skippedToo :=
        skipped.skip innerToo.grows (innerToo.spares regular.1.2.2)
      have tests := conditionCode_carries agrees regular.1.1 tested
      have consequence := innerHypothesis regular.1.2.1 agrees.enter
      have alternative := innerHypothesisToo regular.1.2.2 skipped.enter
      have head := ((tests.append (.jumpIf target)).append
        consequence).append (.jump ending)
      exact (((head.append .jumpTarget).append alternative).append
        .jumpTarget).append (restHypothesis regular.2 skippedToo)

end ContractCompiler
