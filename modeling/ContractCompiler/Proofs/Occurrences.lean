/-
Where the statements of a block are in its code.

A statement of a block, or of a block nested in it, is met at a point: the
place where its code starts and what is known there.  The code of a block is
made of the codes of the statements met in it and of the jumps around them, so
only a return statement has a return in its code.
-/

import ContractCompiler.Proofs.StackLevels

namespace ContractCompiler

/-! ### Generated code is the code of statements -/

section

variable {start : Extent} {environment inside between final : Environment}
  {test : List Instruction} {target ending : Word} {body other : Fragment}
  {condition : Expression} {consequence alternative others : Block}
  {statement : Statement}

private theorem Statement.Straight.code_eq {code : List Instruction}
    {next : Environment} (compiled : statement.Straight environment code next)
    (start : Extent) :
    Statement.code start environment statement = (.ok ⟨code, []⟩, next) := by
  cases compiled with
  | evaluates compiled => rw [Statement.code, compiled]
  | returns compiled => rw [Statement.code, compiled]
  | assigns compiled => rw [Statement.code, compiled]

private theorem Statement.code_ifThen
    (tested : conditionCode environment condition = .ok test)
    (inner : Statement.codeAll
      (start.past (test ++ jumpCode .jumpIf target)) environment.enter
      consequence = (.ok body, inside))
    (reached : targetWord (start.past
      (test ++ jumpCode .jumpIf target ++ body.code)) = .ok target) :
    Statement.code start environment (.ifThen condition consequence) =
      (.ok ⟨branchCode test target body.code,
        body.sites ++ [(start.past test).units + 1]⟩, inside.leave) := by
  rw [Extent.past_append, Extent.past_jumpIf] at reached
  rw [Extent.past_jumpIf] at inner
  rw [Statement.code, tested]
  simp only [inner, reached]
  rfl

private theorem Statement.code_ifThenElse
    (tested : conditionCode environment condition = .ok test)
    (inner : Statement.codeAll
      (start.past (test ++ jumpCode .jumpIf target)) environment.enter
      consequence = (.ok body, inside))
    (reached : targetWord (start.past
      (choiceHead test target body.code ending)) = .ok target)
    (innerToo : Statement.codeAll (start.past
        (choiceHead test target body.code ending ++
          [Instruction.plain .jumpTarget]))
      inside.leave.enter alternative = (.ok other, between))
    (reachedToo : targetWord (start.past
      (choiceHead test target body.code ending ++
        [Instruction.plain .jumpTarget] ++ other.code)) = .ok ending) :
    Statement.code start environment
        (.ifThenElse condition consequence alternative) =
      (.ok ⟨choiceCode test target body.code ending other.code,
        body.sites ++ [(start.past test).units + 1] ++ other.sites ++
          [(start.past (test ++ jumpCode .jumpIf target ++
            body.code)).units + 1]⟩, between.leave) := by
  rw [Extent.past_append, Extent.past_choiceTarget] at reachedToo
  rw [Extent.past_choiceTarget] at innerToo
  rw [Extent.past_choiceHead] at reached
  rw [Extent.past_jumpIf] at inner
  rw [Extent.past_append, Extent.past_jumpIf, Statement.code, tested]
  simp only [inner, reached, innerToo, reachedToo]
  rfl

end

theorem Block.Generates.codeAll_eq {start : Extent}
    {environment final : Environment} {block : Block} {fragment : Fragment}
    (generated : Block.Generates start environment block fragment final) :
    Statement.codeAll start environment block = (.ok fragment, final) := by
  induction generated with
  | nil =>
      rw [Statement.codeAll]
  | straight compiled rest inductionHypothesis =>
      rw [Statement.codeAll, compiled.code_eq]
      simp only [inductionHypothesis, List.nil_append]
  | ifThen tested inner reached rest innerHypothesis restHypothesis =>
      rw [Statement.codeAll,
        Statement.code_ifThen tested innerHypothesis reached]
      simp only [restHypothesis]
  | ifThenElse tested inner reached innerToo reachedToo rest innerHypothesis
      innerHypothesisToo restHypothesis =>
      rw [Statement.codeAll, Statement.code_ifThenElse tested innerHypothesis
        reached innerHypothesisToo reachedToo]
      simp only [restHypothesis, List.append_assoc]

/-- The code of a block starts with the code of its first statement. -/
theorem Block.Generates.head {start : Extent}
    {environment final : Environment} {statement : Statement}
    {others : Block} {fragment : Fragment}
    (generated : Block.Generates start environment (statement :: others)
      fragment final) :
    ∃ piece next tail,
      Statement.code start environment statement = (.ok piece, next) ∧
      Block.Generates (start.past piece.code) next others tail final ∧
      fragment.code = piece.code ++ tail.code := by
  cases generated with
  | straight compiled rest =>
      exact ⟨_, _, _, compiled.code_eq start, rest, rfl⟩
  | ifThen tested inner reached rest =>
      exact ⟨_, _, _, Statement.code_ifThen tested inner.codeAll_eq reached,
        rest, rfl⟩
  | ifThenElse tested inner reached innerToo reachedToo rest =>
      exact ⟨_, _, _, Statement.code_ifThenElse tested inner.codeAll_eq
        reached innerToo.codeAll_eq reachedToo, rest, rfl⟩

/-! ### Statements of a block -/

/-- A point in front of a statement: the place of its code, the environment,
and the sizes of the variables in scope. -/
structure Point where
  place : Extent
  environment : Environment
  sizes : List (List (String × Nat))

/-- A statement is met at a point on the way through a block and the blocks
nested in it. -/
inductive Block.Meets : Point → Block → Point → Statement → Prop where
  | first {point : Point} {statement : Statement} {others : Block} :
      Meets point (statement :: others) point statement
  | later {point inner : Point} {statement other : Statement}
      {others : Block} {piece : Fragment} {next : Environment}
      (coded : Statement.code point.place point.environment other =
        (.ok piece, next))
      (met : Meets ⟨point.place.past piece.code, next,
        other.sizesBehind point.sizes⟩ others inner statement) :
      Meets point (other :: others) inner statement
  | consequence {point inner : Point} {statement : Statement}
      {condition : Expression} {consequence others : Block}
      {test : List Instruction}
      (tested : conditionCode point.environment condition = .ok test)
      (met : Meets ⟨(point.place.past test).add jumpExtent,
        point.environment.enter, [] :: point.sizes⟩ consequence inner
          statement) :
      Meets point (.ifThen condition consequence :: others) inner statement
  | choice {point inner : Point} {statement : Statement}
      {condition : Expression} {consequence alternative others : Block}
      {test : List Instruction}
      (tested : conditionCode point.environment condition = .ok test)
      (met : Meets ⟨(point.place.past test).add jumpExtent,
        point.environment.enter, [] :: point.sizes⟩ consequence inner
          statement) :
      Meets point (.ifThenElse condition consequence alternative :: others)
        inner statement
  | alternative {point inner : Point} {statement : Statement}
      {condition : Expression} {consequence alternative others : Block}
      {test : List Instruction} {body : Fragment} {inside : Environment}
      (tested : conditionCode point.environment condition = .ok test)
      (coded : Statement.codeAll ((point.place.past test).add jumpExtent)
        point.environment.enter consequence = (.ok body, inside))
      (met : Meets ⟨((((point.place.past test).add jumpExtent).past
          body.code).add jumpExtent).add targetExtent,
        inside.leave.enter, [] :: point.sizes⟩ alternative inner
          statement) :
      Meets point (.ifThenElse condition consequence alternative :: others)
        inner statement

theorem Block.Meets.returnType {point inner : Point} {block : Block}
    {statement : Statement}
    (met : Block.Meets point block inner statement) :
    inner.environment.returnType = point.environment.returnType := by
  induction met with
  | first =>
      rfl
  | later coded met inductionHypothesis =>
      obtain ⟨whole, generated⟩ := Statement.generates_of_code coded
      exact inductionHypothesis.trans generated.grows.returnType
  | consequence tested met inductionHypothesis =>
      exact inductionHypothesis
  | choice tested met inductionHypothesis =>
      exact inductionHypothesis
  | alternative tested coded met inductionHypothesis =>
      have generated := Block.generates_of_codeAll _ coded
      exact inductionHypothesis.trans generated.grows.returnType

def Point.Sound (point : Point) : Prop :=
  ∃ call scopes memory, point.environment.Agrees call scopes memory ∧
    sizesOf scopes = point.sizes

private theorem Point.Sound.enter {point : Point} (sound : point.Sound)
    (place : Extent) :
    Point.Sound ⟨place, point.environment.enter, [] :: point.sizes⟩ := by
  obtain ⟨call, scopes, memory, agrees, sized⟩ := sound
  exact ⟨call, [] :: scopes, memory, agrees.enter, congrArg _ sized⟩

private theorem Point.Sound.skip {point : Point} {start : Extent}
    {block : Block} {fragment : Fragment} {inside : Environment}
    (sound : point.Sound)
    (generated : Block.Generates start point.environment.enter block
      fragment inside)
    (regular : Statement.AllRegular Plain block) (place : Extent) :
    Point.Sound ⟨place, inside.leave, point.sizes⟩ := by
  obtain ⟨call, scopes, memory, agrees, sized⟩ := sound
  exact ⟨call, scopes, memory,
    agrees.skip generated.grows (generated.spares regular), sized⟩

private theorem Point.Sound.behind {point : Point} {statement : Statement}
    {piece : Fragment} {next : Environment} (sound : point.Sound)
    (coded : Statement.code point.place point.environment statement =
      (.ok piece, next))
    (regular : statement.Regular Plain) (place : Extent) :
    Point.Sound ⟨place, next, statement.sizesBehind point.sizes⟩ := by
  obtain ⟨call, scopes, memory, agrees, sized⟩ := sound
  obtain ⟨later, written, agreesThen, sizedThen⟩ :=
    Statement.agrees_behind coded regular agrees
  rw [sized] at sizedThen
  exact ⟨call, later, written, agreesThen, sizedThen⟩

private theorem Point.Sound.tests {point : Point} {condition : Expression}
    {test : List Instruction} (sound : point.Sound)
    (tested : conditionCode point.environment condition = .ok test)
    (regular : condition.Regular) : Carries 0 test 1 := by
  obtain ⟨call, scopes, memory, agrees, _⟩ := sound
  exact conditionCode_carries agrees regular tested

theorem Point.Sound.carries {point : Point} {start : Extent} {block : Block}
    {fragment : Fragment} {final : Environment} (sound : point.Sound)
    (generated : Block.Generates start point.environment block fragment
      final)
    (regular : Statement.AllRegular Plain block) :
    Carries 0 fragment.code 0 := by
  obtain ⟨call, scopes, memory, agrees, _⟩ := sound
  exact generated.carries regular agrees

theorem Point.Sound.statement_carries {point : Point}
    {statement : Statement} {piece : Fragment} {next : Environment}
    (sound : point.Sound)
    (coded : Statement.code point.place point.environment statement =
      (.ok piece, next))
    (regular : statement.Regular Plain) : Carries 0 piece.code 0 := by
  have alone := statement.generates_cons coded .nil
  rw [← List.append_nil piece.code]
  exact sound.carries alone ⟨regular, ⟨⟩⟩

theorem Statement.returnCode_of_code {start : Extent}
    {environment next : Environment} {value : Option Expression}
    {piece : Fragment}
    (coded : Statement.code start environment (.returns value) =
      (.ok piece, next)) : returnCode environment value = .ok piece.code := by
  rw [Statement.code] at coded
  cases returned : returnCode environment value with
  | error error =>
      rw [returned] at coded
      cases coded
  | ok code =>
      rw [returned] at coded
      cases coded
      rfl

theorem Point.Sound.return_carries {point : Point}
    {value : Option Expression} {piece : Fragment} {next : Environment}
    (sound : point.Sound)
    (coded : Statement.code point.place point.environment (.returns value) =
      (.ok piece, next))
    (regular : (Statement.returns value).Regular Plain) :
    ∃ front depth, piece.code = front ++ [Instruction.plain .returning] ∧
      returnedWords? point.sizes value = some depth ∧
      Carries 0 front depth := by
  obtain ⟨call, scopes, memory, agrees, sized⟩ := sound
  rw [← sized]
  exact returnCode_carries agrees regular (Statement.returnCode_of_code coded)

/-! ### The code of a met statement -/

structure Statement.Located (start : Extent) (code : List Instruction)
    (inner : Point) (statement : Statement) (before : List Instruction)
    (piece : Fragment) : Prop where
  whole : ∃ after, code = before ++ piece.code ++ after
  place : inner.place = start.past before
  coded : ∃ next, Statement.code inner.place inner.environment statement =
    (.ok piece, next)
  regular : statement.Regular Plain
  sound : inner.Sound
  level : Carries 0 before 0

private theorem Statement.Located.within {start middle : Extent}
    {code whole front back before : List Instruction} {inner : Point}
    {statement : Statement} {piece : Fragment}
    (located : statement.Located middle code inner before piece)
    (placed : middle = start.past front) (level : Carries 0 front 0)
    (shape : whole = front ++ (code ++ back)) :
    statement.Located start whole inner (front ++ before) piece where
  whole := by
    obtain ⟨after, rfl⟩ := located.whole
    refine ⟨after ++ back, ?_⟩
    rw [shape]
    simp only [List.append_assoc]
  place := by rw [located.place, placed, Extent.past_append]
  coded := located.coded
  regular := located.regular
  sound := located.sound
  level := level.append located.level

theorem Block.Meets.located {point inner : Point} {block : Block}
    {statement : Statement} {fragment : Fragment} {final : Environment}
    (met : Block.Meets point block inner statement)
    (generated : Block.Generates point.place point.environment block
      fragment final)
    (regular : Statement.AllRegular Plain block) (sound : point.Sound) :
    ∃ before piece,
      statement.Located point.place fragment.code inner before piece := by
  induction met generalizing fragment final with
  | first =>
      obtain ⟨piece, next, tail, coded, rest, whole⟩ := generated.head
      exact ⟨[], piece, ⟨tail.code, whole⟩, rfl, ⟨next, coded⟩, regular.1,
        sound, .nil 0⟩
  | @later point inner statement other others piece next coded met
      inductionHypothesis =>
      obtain ⟨pieceToo, nextToo, tail, codedToo, rest, whole⟩ :=
        generated.head
      rw [coded] at codedToo
      cases codedToo
      obtain ⟨before, found, located⟩ := inductionHypothesis rest regular.2
        (sound.behind coded regular.1 _)
      have level := sound.statement_carries coded regular.1
      have shape : fragment.code = piece.code ++ (tail.code ++ []) := by
        rw [whole, List.append_nil]
      exact ⟨_, _, located.within rfl level shape⟩
  | @consequence point inner statement condition consequence others test
      tested met inductionHypothesis =>
      cases generated with
      | straight compiled rest => cases compiled
      | @ifThen _ _ inside _ _ _ _ testToo target body tail testedToo
          generated reached rest =>
          rw [tested] at testedToo
          cases testedToo
          have start := Extent.past_jumpIf point.place test target
          rw [start] at generated
          obtain ⟨before, piece, located⟩ := inductionHypothesis generated
            regular.1.2 (sound.enter _)
          have level := (sound.tests tested regular.1.1).append
            (.jumpIf target)
          have shape : branchCode test target body.code ++ tail.code =
              (test ++ jumpCode .jumpIf target) ++ (body.code ++
                ([Instruction.plain .jumpTarget] ++ tail.code)) := by
            simp only [branchCode, List.append_assoc]
          exact ⟨_, piece, located.within start.symm level shape⟩
  | @choice point inner statement condition consequence alternative others
      test tested met inductionHypothesis =>
      cases generated with
      | straight compiled rest => cases compiled
      | @ifThenElse _ _ inside between _ _ _ _ _ testToo target ending body
          other tail testedToo generated reached generatedToo reachedToo
          rest =>
          rw [tested] at testedToo
          cases testedToo
          have start := Extent.past_jumpIf point.place test target
          rw [start] at generated
          obtain ⟨before, piece, located⟩ := inductionHypothesis generated
            regular.1.2.1 (sound.enter _)
          have level := (sound.tests tested regular.1.1).append
            (.jumpIf target)
          have shape : choiceCode test target body.code ending other.code ++
              tail.code = (test ++ jumpCode .jumpIf target) ++ (body.code ++
                (jumpCode .jump ending ++ [Instruction.plain .jumpTarget] ++
                  other.code ++ [Instruction.plain .jumpTarget] ++
                  tail.code)) := by
            simp only [choiceCode, choiceHead, List.append_assoc]
          exact ⟨_, piece, located.within start.symm level shape⟩
  | @alternative point inner statement condition consequence alternative
      others test body inside tested coded met inductionHypothesis =>
      cases generated with
      | straight compiled rest => cases compiled
      | @ifThenElse _ _ insideToo between _ _ _ _ _ testToo target ending
          bodyToo other tail testedToo generated reached generatedToo
          reachedToo rest =>
          rw [tested] at testedToo
          cases testedToo
          -- The point was reached with the code of this consequence.
          have first := generated.codeAll_eq
          rw [Extent.past_jumpIf, coded] at first
          cases first
          have start :=
            Extent.past_choiceTarget point.place test target body.code ending
          rw [start] at generatedToo
          have skipped := sound.skip generated regular.1.2.1 point.place
          obtain ⟨before, piece, located⟩ := inductionHypothesis generatedToo
            regular.1.2.2 (skipped.enter _)
          have level := ((((sound.tests tested regular.1.1).append
            (.jumpIf target)).append ((sound.enter point.place).carries
              generated regular.1.2.1)).append (.jump ending)).append
                .jumpTarget
          have shape : choiceCode test target body.code ending other.code ++
              tail.code = (choiceHead test target body.code ending ++
                [Instruction.plain .jumpTarget]) ++ (other.code ++
                  ([Instruction.plain .jumpTarget] ++ tail.code)) := by
            simp only [choiceCode, List.append_assoc]
          exact ⟨_, piece, located.within start.symm level shape⟩

/-! ### Returns -/

def ReturnFree (code : List Instruction) : Prop :=
  ∀ instruction ∈ code, instruction.opcode ≠ .returning

theorem Onward.returnFree {code : List Instruction} (onward : Onward code) :
    ReturnFree code :=
  fun instruction member => (onward instruction member).2

theorem ReturnFree.append {first second : List Instruction}
    (free : ReturnFree first) (freeToo : ReturnFree second) :
    ReturnFree (first ++ second) := by
  intro instruction member
  rcases List.mem_append.mp member with member | member
  · exact free instruction member
  · exact freeToo instruction member

private theorem returnFree_jumpCode (opcode : Opcode) (target : Word)
    (jumping : opcode ≠ .returning) : ReturnFree (jumpCode opcode target) := by
  intro instruction member
  rcases List.mem_pair.mp member with rfl | rfl
  · exact nofun
  · exact jumping

private theorem ReturnFree.continues {code before after : List Instruction}
    {instruction : Instruction} (free : ReturnFree code)
    (shape : code = before ++ instruction :: after) :
    instruction.opcode ≠ .returning := by
  apply free instruction
  rw [shape]
  exact List.mem_append_right _ List.mem_cons_self

/-- A return lies behind code that has none. -/
theorem ReturnFree.behind {first second before after : List Instruction}
    {instruction : Instruction} (free : ReturnFree first)
    (shape : first ++ second = before ++ instruction :: after)
    (returning : instruction.opcode = .returning) :
    ∃ inside, before = first ++ inside ∧
      second = inside ++ instruction :: after := by
  rcases append_eq_append_cons shape with ⟨inside, whole, rfl⟩ | behind
  · exact absurd returning (free.continues whole)
  · exact behind

/-- A return in the code of a statement without branches ends the code of a
return statement. -/
theorem Statement.Straight.ends_of_returning
    {environment next : Environment} {statement : Statement}
    {code before after : List Instruction} {instruction : Instruction}
    (compiled : statement.Straight environment code next)
    (shape : code = before ++ instruction :: after)
    (returning : instruction.opcode = .returning) :
    (∃ value, statement = .returns value) ∧ after = [] := by
  cases compiled with
  | evaluates compiled =>
      have free := (Expression.evaluationCode_onward compiled).returnFree
      exact absurd returning (free.continues shape)
  | assigns compiled =>
      have free := (assignCode_onward compiled).returnFree
      exact absurd returning (free.continues shape)
  | @returns value code compiled =>
      obtain ⟨front, rfl, onward⟩ := returnCode_onward compiled
      obtain ⟨nothing, _, last⟩ := onward.returnFree.behind shape returning
      rcases List.singleton_eq_append_iff.mp last with
        ⟨_, same⟩ | ⟨_, empty⟩
      · exact ⟨⟨value, rfl⟩, (List.cons.inj same).2⟩
      · cases empty

def Block.Returns (point : Point) (block : Block)
    (code : List Instruction) : Prop :=
  ∃ inner value piece next, Block.Meets point block inner (.returns value) ∧
    Statement.code inner.place inner.environment (.returns value) =
      (.ok piece, next) ∧
    inner.place.past piece.code = point.place.past code

private theorem Block.Returns.within {point middle : Point}
    {block outer : Block} {front code : List Instruction}
    (returns : Block.Returns middle block code)
    (nested : ∀ {inner statement},
      Block.Meets middle block inner statement →
      Block.Meets point outer inner statement)
    (placed : middle.place = point.place.past front) :
    Block.Returns point outer (front ++ code) := by
  obtain ⟨inner, value, piece, next, met, coded, place⟩ := returns
  refine ⟨inner, value, piece, next, nested met, coded, ?_⟩
  rw [place, placed, Extent.past_append]

private theorem Block.Returns.behind {start : Extent}
    {environment next : Environment} {sizes : List (List (String × Nat))}
    {statement : Statement} {others : Block} {piece : Fragment}
    {code : List Instruction}
    (coded : Statement.code start environment statement = (.ok piece, next))
    (returns : Block.Returns ⟨start.past piece.code, next,
      statement.sizesBehind sizes⟩ others code) :
    Block.Returns ⟨start, environment, sizes⟩ (statement :: others)
      (piece.code ++ code) :=
  returns.within (fun met => .later coded met) rfl

/-- Every return in the code of a block ends the code of a statement that
returns. -/
theorem Block.Generates.returns {start : Extent}
    {environment final : Environment} {block : Block} {fragment : Fragment}
    (generated : Block.Generates start environment block fragment final)
    (sizes : List (List (String × Nat)))
    {before after : List Instruction} {instruction : Instruction}
    (shape : fragment.code = before ++ instruction :: after)
    (returning : instruction.opcode = .returning) :
    Block.Returns ⟨start, environment, sizes⟩ block
      (before ++ [instruction]) := by
  induction generated generalizing sizes before after with
  | nil =>
      exact absurd (congrArg List.length shape) (by simp)
  | @straight start environment next final statement others code tail
      compiled rest inductionHypothesis =>
      rcases append_eq_append_cons shape with
        ⟨inside, whole, rfl⟩ | ⟨inside, rfl, behind⟩
      · obtain ⟨⟨value, rfl⟩, rfl⟩ :=
          compiled.ends_of_returning whole returning
        refine ⟨_, value, _, next, .first, compiled.code_eq start, ?_⟩
        rw [whole]
      · have later := inductionHypothesis (statement.sizesBehind sizes) behind
        rw [List.append_assoc]
        exact .behind (compiled.code_eq start) later
  | @ifThen start environment inside final condition consequence others test
      target body tail tested inner reached rest innerHypothesis
      restHypothesis =>
      have coded := Statement.code_ifThen tested inner.codeAll_eq reached
      have free := (conditionCode_onward tested).returnFree.append
        (returnFree_jumpCode .jumpIf target (by decide))
      have parts : (test ++ jumpCode .jumpIf target) ++ (body.code ++
          ([Instruction.plain .jumpTarget] ++ tail.code)) =
            before ++ instruction :: after := by
        rw [← shape]
        simp only [branchCode, List.append_assoc]
      -- The test and the jump have no return, so it is in the consequence or
      -- behind the statement.
      obtain ⟨past, rfl, behind⟩ := free.behind parts returning
      rcases append_eq_append_cons behind with
        ⟨_, nested, rfl⟩ | ⟨past, rfl, behindBody⟩
      · have found := innerHypothesis ([] :: sizes) nested
        rw [Extent.past_jumpIf] at found
        rw [List.append_assoc]
        exact found.within (fun met => .consequence tested met)
          (start.past_jumpIf test target).symm
      · obtain ⟨past, rfl, later⟩ :=
          onward_target.returnFree.behind behindBody returning
        have found := Block.Returns.behind coded (restHypothesis sizes later)
        simpa only [branchCode, List.append_assoc] using found
  | @ifThenElse start environment inside between final condition consequence
      alternative others test target ending body other tail tested inner
      reached innerToo reachedToo rest innerHypothesis innerHypothesisToo
      restHypothesis =>
      have coded := Statement.code_ifThenElse tested inner.codeAll_eq reached
        innerToo.codeAll_eq reachedToo
      have freeTest := (conditionCode_onward tested).returnFree.append
        (returnFree_jumpCode .jumpIf target (by decide))
      have freeJump := (returnFree_jumpCode .jump ending (by decide)).append
        onward_target.returnFree
      have parts : (test ++ jumpCode .jumpIf target) ++ (body.code ++
          ((jumpCode .jump ending ++ [Instruction.plain .jumpTarget]) ++
            (other.code ++ ([Instruction.plain .jumpTarget] ++
              tail.code)))) =
              before ++ instruction :: after := by
        rw [← shape]
        simp only [choiceCode, choiceHead, List.append_assoc]
      obtain ⟨past, rfl, behind⟩ := freeTest.behind parts returning
      rcases append_eq_append_cons behind with
        ⟨_, nested, rfl⟩ | ⟨past, rfl, behindBody⟩
      · have found := innerHypothesis ([] :: sizes) nested
        rw [Extent.past_jumpIf] at found
        rw [List.append_assoc]
        exact found.within (fun met => .choice tested met)
          (start.past_jumpIf test target).symm
      obtain ⟨past, rfl, behindJump⟩ :=
        freeJump.behind behindBody returning
      rcases append_eq_append_cons behindJump with
        ⟨_, nested, rfl⟩ | ⟨past, rfl, behindOther⟩
      · have first := inner.codeAll_eq
        rw [Extent.past_jumpIf] at first
        have found := innerHypothesisToo ([] :: sizes) nested
        rw [Extent.past_choiceTarget] at found
        have whole : Block.Returns ⟨start, environment, sizes⟩
            (.ifThenElse condition consequence alternative :: others)
            ((choiceHead test target body.code ending ++
              [Instruction.plain .jumpTarget]) ++ (past ++ [instruction])) :=
          found.within (fun met => .alternative tested first met)
            (start.past_choiceTarget test target body.code ending).symm
        simpa only [choiceHead, List.append_assoc] using whole
      · obtain ⟨past, rfl, later⟩ :=
          onward_target.returnFree.behind behindOther returning
        have found := Block.Returns.behind coded (restHypothesis sizes later)
        simpa only [choiceCode, choiceHead, List.append_assoc] using found

end ContractCompiler
