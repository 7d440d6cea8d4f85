/-
The machine follows the meaning of statements.

The stack is the same before and behind every statement.  The values of the
variables in scope agree with the memory there, so the code of the statements
behind it can be run in turn.
-/

import ContractCompiler.Proofs.ExpressionSimulation

namespace ContractCompiler

/-- The machine has come as far as statements that end in some way: to the
place behind them, where the values agree with the memory and nothing around
the innermost scope has changed, or to a return with the words of its value on
the stack. -/
def Ending.Reached (call : Call) (region : Region) (stack : List Word)
    (place : Nat) (environment : Environment)
    (outer : List (List (String × Value))) : Ending → Machine → Prop
  | .continues scopes, machine =>
      machine.counter = place ∧ machine.stack = stack ∧
        scopes.tail = outer ∧ environment.Agrees call scopes machine.memory
  | .returns value, machine =>
      Machine.operationAt? region.code machine.counter = some .returning ∧
        region.Contains machine.counter ∧
        machine.stack = (Value.returned value).reverse ++ stack

variable {call : Call} {region : Region} {start : Extent}
  {stack : List Word} {memory : Memory}
  {environment next final : Environment}
  {scopes : List (List (String × Value))}

private theorem Follows.onward {α : Type} {machine : Machine}
    {between finish : α → Machine → Prop} {outcome : Except Fault α}
    (follows : Follows call region machine between outcome)
    (onward : ∀ value middle, between value middle →
      ∃ later, Machine.Reaches call region.code middle later ∧
        finish value later) :
    Follows call region machine finish outcome := by
  cases follows with
  | reaches run finished =>
      rcases onward _ _ finished with ⟨later, further, reached⟩
      exact .reaches (run.trans further) reached
  | divides run undivided inside => exact .divides run undivided inside

/-- Values have proper types, so variables do. -/
theorem Environment.Agrees.proper
    (agrees : environment.Agrees call scopes memory) :
    ProperScopes environment.scopes := by
  intro scope member entry inside
  rcases List.mem_map.mp member with ⟨block, listed, rfl⟩
  rcases exists_of_forall₂ agrees.bound block listed with ⟨_, _, paired⟩
  rcases exists_of_forall₂ paired entry inside with
    ⟨⟨_, value⟩, _, _, type, _⟩
  rw [← type]
  cases value <;> exact nofun

/-- The machine follows an expression that is checked and has code. -/
theorem Environment.Agrees.computed
    (agrees : environment.Agrees call scopes memory)
    {expression : Expression} {type : ValueType} {code : List Instruction}
    (regular : expression.Regular)
    (typed : expression.typeIn environment = .ok type)
    (coded : expression.code environment = .ok code)
    (held : region.Holds start code) :
    Follows call region ⟨start.bytes, stack, memory⟩
      (Pushed (start.past code).bytes stack memory type)
      (expression.evaluate call scopes) :=
  (Expression.hasType_of_code regular agrees.proper typed coded).computed
    agrees coded held

private theorem Environment.Agrees.length_bytes
    (agrees : environment.Agrees call scopes memory) {expression : Expression}
    {type : ValueType} {code : List Instruction} {size : Nat} {value : Value}
    (regular : expression.Regular)
    (typed : expression.typeIn environment = .ok type)
    (coded : expression.code environment = .ok code)
    (sized : expression.sizeIn environment = .ok size)
    (evaluated : expression.evaluate call scopes = .ok value)
    (valued : value.type = type) : value.bytes.length = size :=
  (Expression.hasType_of_code regular agrees.proper typed
    coded).length_bytes agrees sized evaluated valued

/-! ### Statements without nested blocks -/

private theorem Expression.follows_evaluation {value : Expression}
    {code : List Instruction} (agrees : environment.Agrees call scopes memory)
    (regular : value.Regular)
    (compiled : value.evaluationCode environment = .ok code)
    (held : region.Holds start code) :
    Follows call region ⟨start.bytes, stack, memory⟩
      (Ending.Reached call region stack (start.past code).bytes environment
        scopes.tail)
      ((Statement.evaluates value).run call scopes) := by
  rcases evaluationCode_eq_ok.mp compiled with
    ⟨type, size, valueCode, typed, sized, coded, rfl⟩
  rw [Statement.run, Extent.past_append]
  refine (agrees.computed regular typed coded held.left).bind ?_
  rintro result _ evaluated ⟨valued, rfl⟩
  have length := agrees.length_bytes regular typed coded sized evaluated
    valued
  have count : stackWords size = result.words.reverse.length := by
    rw [List.length_reverse, result.length_words, length]
    rfl
  have popping := held.right
  rw [count] at popping ⊢
  exact .reaches (Machine.reaches_pops _ popping) ⟨rfl, rfl, rfl, agrees⟩

private theorem follows_return {value : Option Expression}
    {code : List Instruction} (agrees : environment.Agrees call scopes memory)
    (regular : (Statement.returns value).Regular Plain)
    (compiled : returnCode environment value = .ok code)
    (held : region.Holds start code) (place : Nat) :
    Follows call region ⟨start.bytes, stack, memory⟩
      (Ending.Reached call region stack place environment scopes.tail)
      ((Statement.returns value).run call scopes) := by
  cases value with
  | none =>
      rcases returnCode_none.mp compiled with ⟨_, rfl⟩
      exact .reaches .refl ⟨held.operation, held.contains, rfl⟩
  | some value =>
      rcases returnCode_some.mp compiled with ⟨valueCode, typed, coded, rfl⟩
      rw [Statement.run]
      refine (agrees.computed regular typed coded held.left).bind ?_
      rintro result _ _ ⟨_, rfl⟩
      exact .reaches .refl
        ⟨held.right.operation, held.right.contains, rfl⟩

private theorem Machine.reaches_store {entry : MemoryEntry} {value : Value}
    {code : List Instruction} (stored : storeCode entry = .ok code)
    (size : entry.size = value.bytes.length)
    (held : region.Holds start code) :
    Reaches call region.code
      ⟨start.bytes, value.words.reverse ++ stack, memory⟩
      ⟨(start.past code).bytes, stack,
        memory.store entry.offset entry.size value.words⟩ := by
  rcases storeCode_eq_ok.mp stored with ⟨offset, width, placed, fits, rfl⟩
  have count : value.words.length = wordCount width.toNat := by
    rw [Word.address_eq_ok fits, size, value.length_words]
  rw [← Word.address_eq_ok placed, ← Word.address_eq_ok fits]
  exact ((reaches_push held).trans (reaches_push held.tail)).trans
    (reaches_memoryStore held.tail.tail count)

private theorem follows_assignment {type : ValueType} {name : String}
    {value : Expression} {code : List Instruction}
    (agrees : environment.Agrees call scopes memory)
    (regular : (Statement.assigns type name value).Regular Plain)
    (compiled : assignCode environment type name value = (.ok code, next))
    (held : region.Holds start code) :
    Follows call region ⟨start.bytes, stack, memory⟩
      (Ending.Reached call region stack (start.past code).bytes next
        scopes.tail)
      ((Statement.assigns type name value).run call scopes) := by
  rcases assignCode_eq_ok.mp compiled with
    ⟨valueCode, size, defined, storing, typed, sized, coded, bound, stored,
      rfl, rfl⟩
  rcases Environment.define_eq_ok.mp bound with ⟨_, fresh, rfl⟩
  rw [Statement.run, Extent.past_append]
  refine (agrees.computed regular.2.2 typed coded held.left).bind ?_
  rintro result _ evaluated ⟨rfl, rfl⟩
  cases agrees.length_bytes regular.2.2 typed coded sized evaluated rfl
  refine .reaches (Machine.reaches_store stored rfl held.right)
    ⟨rfl, rfl, ?_, ?_⟩
  · cases scopes <;> rfl
  · have assigned := agrees.assign result regular.2.1 fresh stored
    rw [← environment.memory_declare [(name, result.type)]] at assigned
    exact assigned

private theorem Statement.Straight.follows {statement : Statement}
    {code : List Instruction}
    (compiled : statement.Straight environment code next)
    (regular : statement.Regular Plain)
    (agrees : environment.Agrees call scopes memory)
    (held : region.Holds start code) :
    Follows call region ⟨start.bytes, stack, memory⟩
      (Ending.Reached call region stack (start.past code).bytes next
        scopes.tail)
      (statement.run call scopes) := by
  cases compiled with
  | evaluates compiled =>
      exact Expression.follows_evaluation agrees regular compiled held
  | returns compiled =>
      exact follows_return agrees regular compiled held _
  | assigns compiled =>
      exact follows_assignment agrees regular compiled held

/-! ### Blocks -/

theorem Statement.follows_cons {statement : Statement} {others : Block}
    {machine : Machine} {place stop : Nat}
    {outer : List (List (String × Value))}
    (first : Follows call region machine
      (Ending.Reached call region stack place next outer)
      (statement.run call scopes))
    (rest : ∀ later memory, later.tail = outer →
      next.Agrees call later memory →
      Follows call region ⟨place, stack, memory⟩
        (Ending.Reached call region stack stop final outer)
        (Statement.runAll call later others)) :
    Follows call region machine
      (Ending.Reached call region stack stop final outer)
      (Statement.runAll call scopes (statement :: others)) := by
  rw [runAll]
  refine first.bind ?_
  intro ending machine _ reached
  cases ending with
  | continues later =>
      rcases machine with ⟨_, _, memory⟩
      rcases reached with ⟨rfl, rfl, same, agrees⟩
      exact rest later memory same agrees
  | returns value =>
      exact .reaches .refl reached

/-- The machine follows a nested block, and goes on behind it. -/
theorem Statement.follows_nested {body : Block} {machine : Machine}
    {place stop : Nat} {inside : Environment}
    (nested : Follows call region machine
      (Ending.Reached call region stack place inside scopes)
      (Statement.runAll call ([] :: scopes) body))
    (orderly : environment.Orderly)
    (grown : environment.enter.Grows inside)
    (onward : ∀ memory, inside.leave.Agrees call scopes memory →
      Machine.Reaches call region.code ⟨place, stack, memory⟩
        ⟨stop, stack, memory⟩ ∧ next.Agrees call scopes memory) :
    Follows call region machine
      (Ending.Reached call region stack stop next scopes.tail)
      (Statement.runAll call ([] :: scopes) body >>= fun ending =>
        pure (ending.outside scopes)) := by
  refine nested.bind ?_
  intro ending machine _ reached
  cases ending with
  | continues later =>
      rcases machine with ⟨_, _, memory⟩
      rcases reached with ⟨rfl, rfl, same, agrees⟩
      cases later with
      | nil =>
          have none := agrees.bound
          rw [inside.blocks_eq] at none
          cases none
      | cons scope around =>
          cases same
          rcases onward memory (agrees.leave orderly grown) with
            ⟨run, agreesThere⟩
          exact .reaches run ⟨rfl, rfl, rfl, agreesThere⟩
  | returns value =>
      exact .reaches .refl reached

/-! ### Branches -/

section

variable {condition : Expression} {consequence alternative : Block}
  {test body other : List Instruction} {target ending : Word}
  {inside between : Environment}

/-- A condition is computed, and where it fails the machine jumps. -/
theorem follows_condition {place : Extent} {behind : List Instruction}
    (agrees : environment.Agrees call scopes memory)
    (regular : condition.Regular)
    (tested : conditionCode environment condition = .ok test)
    (held : region.Holds start (test ++ jumpCode .jumpIf target))
    (reached : targetWord place = .ok target)
    (there : region.Holds place (.plain .jumpTarget :: behind)) :
    Follows call region ⟨start.bytes, stack, memory⟩
      (fun value machine => ∃ truth, value = .truth truth ∧
        machine = ⟨if truth then
            (start.past (test ++ jumpCode .jumpIf target)).bytes
          else place.bytes, stack, memory⟩)
      (condition.evaluate call scopes) := by
  rcases conditionCode_eq_ok.mp tested with ⟨valueCode, typed, coded, rfl⟩
  have negating := held.left
  have jumping := held.right
  rw [Extent.past_append] at jumping
  refine (agrees.computed regular typed coded negating.left).onward ?_
  rintro value _ ⟨valued, rfl⟩
  rcases Value.eq_truth valued with ⟨truth, rfl⟩
  refine ⟨_, (Machine.reaches_not negating.right).trans
    (Machine.reaches_jumpIf jumping reached there), truth, rfl, ?_⟩
  rw [Extent.past_append, Extent.past_append]
  cases truth <;> rfl

private theorem Statement.follows_ifThen
    (agrees : environment.Agrees call scopes memory)
    (regular : condition.Regular)
    (tested : conditionCode environment condition = .ok test)
    (grown : environment.enter.Grows inside)
    (spared : environment.enter.Spares inside)
    (reached : targetWord (start.past
      (test ++ jumpCode .jumpIf target ++ body)) = .ok target)
    (held : region.Holds start (branchCode test target body))
    (nested : Follows call region
      ⟨(start.past (test ++ jumpCode .jumpIf target)).bytes, stack, memory⟩
      (Ending.Reached call region stack
        (start.past (test ++ jumpCode .jumpIf target ++ body)).bytes inside
        scopes)
      (Statement.runAll call ([] :: scopes) consequence)) :
    Follows call region ⟨start.bytes, stack, memory⟩
      (Ending.Reached call region stack
        (start.past (branchCode test target body)).bytes inside.leave
        scopes.tail)
      ((Statement.ifThen condition consequence).run call scopes) := by
  have stop : (start.past (branchCode test target body)).bytes =
      (start.past (test ++ jumpCode .jumpIf target ++ body)).bytes + 1 := by
    rw [branchCode, Extent.past_append]
    rfl
  rw [Statement.run, stop]
  refine (follows_condition agrees regular tested held.left.left reached
    held.right).bind ?_
  rintro _ _ _ ⟨truth, rfl, rfl⟩
  cases truth with
  | true =>
      refine follows_nested nested agrees.orderly grown ?_
      intro memory agreesThere
      exact ⟨Machine.reaches_jumpTarget held.right, agreesThere⟩
  | false =>
      exact .reaches (Machine.reaches_jumpTarget held.right)
        ⟨rfl, rfl, rfl, agrees.skip grown spared⟩

private theorem Statement.follows_ifThenElse
    (agrees : environment.Agrees call scopes memory)
    (regular : condition.Regular)
    (tested : conditionCode environment condition = .ok test)
    (grown : environment.enter.Grows inside)
    (spared : environment.enter.Spares inside)
    (grownToo : inside.leave.enter.Grows between)
    (sparedToo : inside.leave.enter.Spares between)
    (reached : targetWord (start.past
      (choiceHead test target body ending)) = .ok target)
    (reachedToo : targetWord (start.past
      (choiceHead test target body ending ++
        [Instruction.plain .jumpTarget] ++ other)) = .ok ending)
    (held : region.Holds start (choiceCode test target body ending other))
    (nested : Follows call region
      ⟨(start.past (test ++ jumpCode .jumpIf target)).bytes, stack, memory⟩
      (Ending.Reached call region stack
        (start.past (test ++ jumpCode .jumpIf target ++ body)).bytes inside
        scopes)
      (Statement.runAll call ([] :: scopes) consequence))
    (nestedToo : Follows call region
      ⟨(start.past (choiceHead test target body ending ++
        [Instruction.plain .jumpTarget])).bytes, stack, memory⟩
      (Ending.Reached call region stack
        (start.past (choiceHead test target body ending ++
          [Instruction.plain .jumpTarget] ++ other)).bytes between scopes)
      (Statement.runAll call ([] :: scopes) alternative)) :
    Follows call region ⟨start.bytes, stack, memory⟩
      (Ending.Reached call region stack
        (start.past (choiceCode test target body ending other)).bytes
        between.leave scopes.tail)
      ((Statement.ifThenElse condition consequence alternative).run call
        scopes) := by
  have stop : (start.past (choiceCode test target body ending other)).bytes =
      (start.past (choiceHead test target body ending ++
        [Instruction.plain .jumpTarget] ++ other)).bytes + 1 := by
    rw [choiceCode, Extent.past_append]
    rfl
  have head : region.Holds start (test ++ jumpCode .jumpIf target ++ body ++
    jumpCode .jump ending) := held.left.left.left
  have otherwise := held.left.left.right
  have skipped := agrees.skip grown spared
  rw [Statement.run, stop]
  refine (follows_condition agrees regular tested head.left.left reached
    otherwise).bind ?_
  rintro _ _ _ ⟨truth, rfl, rfl⟩
  cases truth with
  | true =>
      refine follows_nested nested agrees.orderly grown ?_
      intro memory agreesThere
      exact ⟨(Machine.reaches_jump head.right reachedToo held.right).trans
        (Machine.reaches_jumpTarget held.right),
          agreesThere.skip grownToo sparedToo⟩
  | false =>
      rw [Extent.past_append] at nestedToo
      refine .after (Machine.reaches_jumpTarget otherwise) ?_
      refine follows_nested nestedToo skipped.orderly grownToo ?_
      intro memory agreesThere
      exact ⟨Machine.reaches_jumpTarget held.right, agreesThere⟩

end

/-- The machine follows the statements of a block. -/
theorem Block.Generates.follows {block : Block} {fragment : Fragment}
    (generated : Block.Generates start environment block fragment final)
    (regular : Statement.AllRegular Plain block)
    (agrees : environment.Agrees call scopes memory)
    (held : region.Holds start fragment.code) :
    Follows call region ⟨start.bytes, stack, memory⟩
      (Ending.Reached call region stack (start.past fragment.code).bytes
        final scopes.tail)
      (Statement.runAll call scopes block) := by
  -- Scopes and memory vary, since a statement may bind a variable before the
  -- others run.  The stack does not: every statement leaves it as it was.
  induction generated generalizing scopes memory with
  | nil =>
      exact .reaches .refl ⟨rfl, rfl, rfl, agrees⟩
  | straight compiled rest inductionHypothesis =>
      rw [Extent.past_append]
      refine Statement.follows_cons
        (compiled.follows regular.1 agrees held.left) ?_
      intro later memory same agreesThere
      rw [← same]
      exact inductionHypothesis regular.2 agreesThere held.right
  | ifThen tested inner reached rest innerHypothesis restHypothesis =>
      rcases regular with ⟨⟨conditionRegular, bodyRegular⟩, othersRegular⟩
      have nested := innerHypothesis bodyRegular agrees.enter
        held.left.left.right
      rw [← Extent.past_append] at nested
      rw [Extent.past_append]
      refine Statement.follows_cons
        (Statement.follows_ifThen agrees conditionRegular tested inner.grows
          (inner.spares bodyRegular) reached held.left nested) ?_
      intro later memory same agreesThere
      rw [← same]
      exact restHypothesis othersRegular agreesThere held.right
  | ifThenElse tested inner reached innerToo reachedToo rest innerHypothesis
      innerHypothesisToo restHypothesis =>
      rcases regular with
        ⟨⟨conditionRegular, bodyRegular, otherRegular⟩, othersRegular⟩
      have spared := inner.spares bodyRegular
      have head := held.left.left.left.left
      have nested := innerHypothesis bodyRegular agrees.enter head.left.right
      have nestedToo := innerHypothesisToo otherRegular
        (agrees.skip inner.grows spared).enter held.left.left.right
      rw [← Extent.past_append] at nested nestedToo
      rw [Extent.past_append]
      refine Statement.follows_cons
        (Statement.follows_ifThenElse agrees conditionRegular tested
          inner.grows spared innerToo.grows (innerToo.spares otherRegular)
          reached reachedToo held.left nested nestedToo) ?_
      intro later memory same agreesThere
      rw [← same]
      exact restHypothesis othersRegular agreesThere held.right

end ContractCompiler
