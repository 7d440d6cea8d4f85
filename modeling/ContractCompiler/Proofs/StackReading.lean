/-
How deep the stack is along every path.

A reading follows control through a program and counts the words on the stack.
Along every path through a function it stays at the depth that reading the code
from front to back gives, so no operation lacks a word, places where paths meet
are reached with an empty stack, and a return is reached with the words of the
returned value.
-/

import ContractCompiler.Proofs.Occurrences
import ContractCompiler.Proofs.Preservation
import ContractCompiler.Proofs.ProgramLayout
import ContractCompiler.Proofs.Successors
import ContractCompiler.Text.Identifier

namespace ContractCompiler

/-! ### Readings -/

def Assembly.effectAt? (code : Assembly) (index : Nat) :
    Option StackEffect :=
  (code.opcodeAt? index).bind
    (Opcode.effect? (code.operandAt? (index - 1)))

structure DepthReading where
  index : Nat
  depth : Nat

/-- One step of a reading: control goes on, and the words that the operation
takes are there. -/
inductive Assembly.Reads (code : Assembly) :
    DepthReading → DepthReading → Prop where
  | step {index next depth : Nat} {effect : StackEffect}
      (flows : code.Flows index next)
      (effected : code.effectAt? index = some effect)
      (enough : effect.pops ≤ depth) :
      Reads code ⟨index, depth⟩ ⟨next, depth - effect.pops + effect.pushes⟩

/-! ### Readings of levelled code -/

/-- Code in a program whose jumps lead forward, whose levels are known, and
which ends with a return. -/
structure Assembly.Levelled (code : Assembly)
    (earlier inner : List Instruction) : Prop where
  held : code.Holds earlier inner
  forward : JumpsForward (Extent.ofCode earlier).bytes inner
  level : Carries 0 inner 0
  ends : ∃ front, inner = front ++ [.plain .returning]

namespace Assembly.Levelled

variable {code : Assembly} {earlier inner before after : List Instruction}
  {instruction : Instruction} {level : Level}

def past? (code : Assembly) (earlier before : List Instruction) :
    Option Level :=
  Level.past? ⟨code.operandAt? ((Extent.ofCode earlier).units - 1), 0⟩ before

theorem opcodeAt (levelled : code.Levelled earlier inner)
    (split : inner = before ++ instruction :: after) :
    code.opcodeAt? (Extent.ofCode (earlier ++ before)).units =
      some instruction.opcode :=
  (levelled.held.middle split).opcodeAt

private theorem constant (levelled : code.Levelled earlier inner)
    (split : inner = before ++ after)
    (passed : past? code earlier before = some level) :
    level.constant =
      code.operandAt? ((Extent.ofCode (earlier ++ before)).units - 1) := by
  rcases List.eq_nil_or_concat before with rfl | ⟨front, last, rfl⟩
  · cases passed
    rw [List.append_nil]
  · have held := levelled.held
    rw [split] at held
    rw [held.right.operandAt]
    rw [past?, List.concat_eq_append, Level.past_append,
      Option.bind_eq_some_iff] at passed
    obtain ⟨between, _, passed⟩ := passed
    rw [Level.past_cons, Option.bind_eq_some_iff] at passed
    obtain ⟨next, stepped, passed⟩ := passed
    obtain ⟨effect, _, _, _, rfl⟩ := Level.behind_eq_some.mp stepped
    cases passed
    rw [List.concat_eq_append, ← List.append_assoc, List.getLast?_concat]
    rfl

private theorem exists_level (levelled : code.Levelled earlier inner)
    (split : inner = before ++ after) :
    ∃ level, past? code earlier before = some level := by
  obtain ⟨last, passed⟩ := levelled.level
    (code.operandAt? ((Extent.ofCode earlier).units - 1))
  rw [split, Level.past_append, Option.bind_eq_some_iff] at passed
  obtain ⟨level, reached, _⟩ := passed
  exact ⟨level, reached⟩

/-- Every instruction has an effect at the level in front of it, and there is
enough on the stack. -/
theorem known (levelled : code.Levelled earlier inner)
    (split : inner = before ++ instruction :: after)
    (passed : past? code earlier before = some level) :
    ∃ effect, instruction.opcode.effect? level.constant = some effect ∧
      code.effectAt? (Extent.ofCode (earlier ++ before)).units =
        some effect ∧
      effect.pops ≤ level.depth ∧
      (instruction.opcode.IsCrossing → level.depth = effect.pops) ∧
      past? code earlier (before ++ [instruction]) =
        some ⟨instruction.operands.getLast?,
          if instruction.opcode = .returning then 0
          else level.depth - effect.pops + effect.pushes⟩ := by
  have splitToo : inner = (before ++ [instruction]) ++ after := by
    rw [split, List.append_assoc]
    rfl
  obtain ⟨next, reached⟩ := levelled.exists_level splitToo
  have stepped : level.behind? instruction = some next := by
    rw [past?] at passed reached
    rw [Level.past_append, passed, Option.bind_some, Level.past_cons,
      Option.bind_eq_some_iff] at reached
    obtain ⟨_, stepped, same⟩ := reached
    cases same
    exact stepped
  obtain ⟨effect, effected, enough, crossing, rfl⟩ :=
    Level.behind_eq_some.mp stepped
  refine ⟨effect, effected, ?_, enough, crossing, reached⟩
  rw [effectAt?, levelled.opcodeAt split, Option.bind_some,
    ← levelled.constant split passed]
  exact effected

private theorem level_unique {next : Level}
    (split : inner = before ++ after) {front rest : List Instruction}
    (splitToo : inner = front ++ rest)
    (same : (Extent.ofCode (earlier ++ before)).units =
      (Extent.ofCode (earlier ++ front)).units)
    (passed : past? code earlier before = some level)
    (passedToo : past? code earlier front = some next) : level = next := by
  rw [Extent.units_append, Extent.units_append] at same
  have equal := prefix_unique (split.symm.trans splitToo)
    (Nat.add_left_cancel same)
  subst equal
  exact Option.some.inj (passed.symm.trans passedToo)

def Stands (code : Assembly) (earlier inner : List Instruction)
    (reading : DepthReading) : Prop :=
  ∃ before instruction after level,
    inner = before ++ instruction :: after ∧
    past? code earlier before = some level ∧
    reading = ⟨(Extent.ofCode (earlier ++ before)).units, level.depth⟩

private theorem following (levelled : code.Levelled earlier inner)
    (split : inner = before ++ instruction :: after)
    (continues : instruction.opcode ≠ .returning) :
    ∃ following others, after = following :: others := by
  cases after with
  | cons following others =>
      exact ⟨following, others, rfl⟩
  | nil =>
      obtain ⟨front, last⟩ := levelled.ends
      have same := congrArg List.getLast? (split.symm.trans last)
      rw [List.getLast?_concat, List.getLast?_concat] at same
      rw [Option.some.inj same] at continues
      exact absurd rfl continues

/-- A step of a reading keeps to the levels. -/
theorem stands_of_reads (levelled : code.Levelled earlier inner)
    {reading next : DepthReading} (stands : Stands code earlier inner reading)
    (reads : code.Reads reading next) : Stands code earlier inner next := by
  obtain ⟨before, instruction, after, level, split, passed, rfl⟩ := stands
  obtain ⟨effect, moves, effected, enough, crossing, behind⟩ :=
    levelled.known split passed
  cases reads with
  | @step _ target _ effectToo flows effectedToo enoughToo =>
  rw [effected] at effectedToo
  cases effectedToo
  have continues : instruction.opcode ≠ .returning := by
    intro returning
    exact not_flows_of_returning (levelled.held.middle split) returning flows
  rw [if_neg continues] at behind
  have onward : Stands code earlier inner ⟨(Extent.ofCode (earlier ++
      (before ++ [instruction]))).units,
        level.depth - effect.pops + effect.pushes⟩ := by
    obtain ⟨following, others, rfl⟩ := levelled.following split continues
    refine ⟨before ++ [instruction], following, others, _, ?_, behind, rfl⟩
    rw [split, List.append_assoc]
    rfl
  by_cases jumps : instruction.IsJump
  · obtain ⟨between, back, whole, reached⟩ :=
      levelled.held.flows_iff_of_forward levelled.forward split jumps
    rcases (reached target).mp flows with ⟨_, rfl⟩ | rfl
    · exact onward
    · -- Nothing is on the stack behind the jump, nor at the target.
      obtain ⟨there, passedToo⟩ := levelled.exists_level whole
      obtain ⟨_, movesToo, _, _, crossingToo, _⟩ :=
        levelled.known whole passedToo
      have empty : there.depth = 0 := by
        cases movesToo
        exact crossingToo (Or.inr (Or.inr rfl))
      have spent : level.depth - effect.pops + effect.pushes = 0 := by
        have pops := crossing (jumps.imp_right Or.inl)
        have pushes : effect.pushes = 0 := by
          rcases jumps with jumps | jumps <;> rw [jumps] at moves <;>
            cases moves <;> rfl
        omega
      rw [spent]
      exact ⟨_, _, back, there, whole, passedToo, by rw [empty]⟩
  · have held := levelled.held.middle split
    rw [flows_iff_of_onward held jumps continues] at flows
    rw [flows, List.append_assoc]
    exact onward

theorem enough (levelled : code.Levelled earlier inner)
    {reading : DepthReading} (stands : Stands code earlier inner reading) :
    ∃ effect, code.effectAt? reading.index = some effect ∧
      effect.pops ≤ reading.depth := by
  obtain ⟨before, instruction, after, level, split, passed, rfl⟩ := stands
  obtain ⟨effect, _, effected, enough, _, _⟩ := levelled.known split passed
  exact ⟨effect, effected, enough⟩

/-- A reading follows control wherever it goes. -/
theorem reads_of_flows (levelled : code.Levelled earlier inner)
    {reading : DepthReading} (stands : Stands code earlier inner reading)
    {next : Nat} (flows : code.Flows reading.index next) :
    ∃ depth, code.Reads reading ⟨next, depth⟩ := by
  obtain ⟨effect, effected, enough⟩ := levelled.enough stands
  exact ⟨_, .step flows effected enough⟩

theorem continues (levelled : code.Levelled earlier inner)
    {reading : DepthReading}
    (stands : Stands code earlier inner reading) :
    code.opcodeAt? reading.index = some .returning ∨
      ∃ next, code.Reads reading next := by
  have found := stands
  obtain ⟨before, instruction, after, level, split, _, rfl⟩ := found
  by_cases returning : instruction.opcode = .returning
  · rw [levelled.opcodeAt split, returning]
    exact Or.inl rfl
  · refine Or.inr ?_
    by_cases jumps : instruction.IsJump
    · obtain ⟨between, back, _, reached⟩ :=
        levelled.held.flows_iff_of_forward levelled.forward split jumps
      obtain ⟨depth, reads⟩ := levelled.reads_of_flows stands
        ((reached _).mpr (Or.inr rfl))
      exact ⟨_, reads⟩
    · have held := levelled.held.middle split
      obtain ⟨depth, reads⟩ := levelled.reads_of_flows stands
        ((flows_iff_of_onward held jumps returning).mpr rfl)
      exact ⟨_, reads⟩

private theorem depth_at_target (levelled : code.Levelled earlier inner)
    {reading : DepthReading} (stands : Stands code earlier inner reading)
    (target : code.opcodeAt? reading.index = some .jumpTarget) :
    reading.depth = 0 := by
  obtain ⟨before, instruction, after, level, split, passed, rfl⟩ := stands
  obtain ⟨effect, moves, _, _, crossing, _⟩ := levelled.known split passed
  have named := Option.some.inj ((levelled.opcodeAt split).symm.trans target)
  rw [named] at moves crossing
  cases moves
  exact crossing (Or.inr (Or.inr rfl))

private theorem reads_jump (levelled : code.Levelled earlier inner)
    {reading : DepthReading} {opcode : Opcode}
    (stands : Stands code earlier inner reading)
    (found : code.opcodeAt? reading.index = some opcode)
    (jumping : opcode = .jump ∨ opcode = .jumpIf) :
    ∃ target, code.opcodeAt? target = some .jumpTarget ∧
      code.Reads reading ⟨target, 0⟩ := by
  have held := stands
  obtain ⟨before, instruction, after, level, split, _, rfl⟩ := held
  have named := Option.some.inj ((levelled.opcodeAt split).symm.trans found)
  subst named
  obtain ⟨between, back, whole, reached⟩ :=
    levelled.held.flows_iff_of_forward levelled.forward split jumping
  have target : code.opcodeAt? (Extent.ofCode (earlier ++ (before ++
      instruction :: between))).units = some .jumpTarget :=
    levelled.opcodeAt whole
  obtain ⟨depth, reads⟩ := levelled.reads_of_flows stands
    ((reached _).mpr (Or.inr rfl))
  have empty := levelled.depth_at_target
    (levelled.stands_of_reads stands reads) target
  cases empty
  exact ⟨_, target, reads⟩

theorem stands_of_path (levelled : code.Levelled earlier inner)
    {reading final : DepthReading}
    (stands : Stands code earlier inner reading)
    (path : Relation.ReflTransGen code.Reads reading final) :
    Stands code earlier inner final := by
  induction path with
  | refl =>
      exact stands
  | tail _ reads inductionHypothesis =>
      exact levelled.stands_of_reads inductionHypothesis reads

/-- A reading may start with an empty stack wherever the level is empty. -/
theorem stands_at (code : Assembly) (earlier : List Instruction)
    (split : inner = before ++ after) (filled : after ≠ [])
    (level : Carries 0 before 0) :
    Stands code earlier inner
      ⟨(Extent.ofCode (earlier ++ before)).units, 0⟩ := by
  obtain ⟨instruction, rest, rfl⟩ := List.exists_cons_of_ne_nil filled
  obtain ⟨last, passed⟩ := level
    (code.operandAt? ((Extent.ofCode earlier).units - 1))
  exact ⟨before, instruction, rest, _, split, passed, rfl⟩

/-- The depth at a place is the one that the code in front of it gives. -/
theorem depth_at {depth : Nat} {reading : DepthReading}
    (stands : Stands code earlier inner reading)
    (split : inner = before ++ after) (level : Carries 0 before depth)
    (place : reading.index = (Extent.ofCode (earlier ++ before)).units) :
    reading.depth = depth := by
  obtain ⟨front, instruction, rest, found, splitToo, passed, rfl⟩ := stands
  obtain ⟨last, passedToo⟩ := level
    (code.operandAt? ((Extent.ofCode earlier).units - 1))
  rw [level_unique splitToo split place passed passedToo]

end Assembly.Levelled

/-! ### Functions -/

/-- At the start of a function, variables have the sizes of parameters. -/
theorem Function.exists_agrees {function : Function}
    (regular : function.Regular Plain)
    (names : (function.parameters.map Parameter.name).Nodup)
    (outside : List String) :
    ∃ call scopes memory, (function.entry outside).Agrees call scopes memory ∧
      sizesOf scopes = [function.parameterSizes] := by
  let zeros : Call :=
    ⟨List.replicate function.parameters.length 0, fun _ _ => none,
      fun _ _ => none⟩
  have count : zeros.arguments.length = function.parameters.length :=
    List.length_replicate
  have covered : zeros.Covers function.parameters := by
    constructor
    · exact Nat.le_of_eq count.symm
    · intro given member _
      exact Or.inl (List.eq_of_mem_replicate (List.of_mem_zip member).2)
  refine ⟨zeros, _, fun _ => 0,
    agrees_entry regular names covered outside _, ?_⟩
  have parameters := List.map_fst_zip (Nat.le_of_eq count.symm)
  rw [parameterSizes]
  conv => rhs; rw [← parameters]
  simp only [sizesOf, boundParameters, List.map_cons, List.map_nil,
    List.map_map, Function.comp_def, Value.length_ofArgument]

def Function.start (function : Function) (outside : List String)
    (offset : Nat) : Point :=
  ⟨targetExtent.raise offset, function.entry outside,
    [function.parameterSizes]⟩

/-- A reading is taken of a function: from its first unit, or from the first
unit of a statement in it, with an empty stack. -/
def Function.IsRead (function : Function) (outside : List String)
    (code : Assembly) (first offset : Nat) (reading : DepthReading) : Prop :=
  ∃ origin,
    (origin = first ∨ ∃ inner statement,
      Block.Meets (function.start outside offset) function.body inner
        statement ∧ origin = first + inner.place.units) ∧
    Relation.ReflTransGen code.Reads ⟨origin, 0⟩ reading

def Assembly.HoldsAt (code : Assembly) (index : Nat)
    (instructions : List Instruction) : Prop :=
  ∃ before, code.Holds before instructions ∧
    index = (Extent.ofCode before).units

structure Function.Stands (function : Function) (outside : List String)
    (code : Assembly) (earlier body : List Instruction) : Prop where
  held : code.Holds earlier (functionCode body)
  generated : ∃ sites final,
    Block.Generates (targetExtent.raise (Extent.ofCode earlier).bytes)
      (function.entry outside) function.body ⟨body, sites⟩ final
  regular : function.Regular Plain
  sound : (function.start outside (Extent.ofCode earlier).bytes).Sound

namespace Function.Stands

variable {function : Function} {outside : List String} {code : Assembly}
  {earlier body : List Instruction}

theorem carries (stands : function.Stands outside code earlier body) :
    Carries 0 body 0 := by
  obtain ⟨sites, final, generated⟩ := stands.generated
  exact stands.sound.carries generated stands.regular.body

theorem levelled (stands : function.Stands outside code earlier body) :
    code.Levelled earlier (functionCode body) where
  held := stands.held
  forward := by
    obtain ⟨sites, final, generated⟩ := stands.generated
    exact Function.Placed.jumpsForward
      ⟨body, sites, final, rfl, generated⟩
  level := (Carries.jumpTarget.append stands.carries).append (.returning 0)
  ends := ⟨.plain .jumpTarget :: body, rfl⟩

theorem located (stands : function.Stands outside code earlier body)
    {inner : Point} {statement : Statement}
    (met : Block.Meets (function.start outside
      (Extent.ofCode earlier).bytes) function.body inner statement) :
    ∃ before piece, statement.Located
      (targetExtent.raise (Extent.ofCode earlier).bytes) body inner before
        piece := by
  obtain ⟨sites, final, generated⟩ := stands.generated
  exact met.located generated stands.regular.body stands.sound

end Function.Stands

theorem functionCode_append (first second : List Instruction) :
    functionCode (first ++ second) =
      (.plain .jumpTarget :: first) ++
        (second ++ [Instruction.plain .returning]) := by
  simp only [functionCode, List.cons_append, List.append_assoc]

/-- The units in front of a place in the body of a function. -/
theorem Extent.units_in_body (earlier before : List Instruction)
    (offset : Nat) :
    (Extent.ofCode earlier).units +
        ((targetExtent.raise offset).past before).units =
      (Extent.ofCode (earlier ++ .plain .jumpTarget :: before)).units := by
  rw [Extent.units_append]
  rfl

namespace Function.Stands

variable {function : Function} {outside : List String} {code : Assembly}
  {earlier body : List Instruction} {reading : DepthReading}
  {inner : Point} {statement : Statement}

theorem stands_of_read
    (stands : function.Stands outside code earlier body)
    (read : function.IsRead outside code (Extent.ofCode earlier).units
      (Extent.ofCode earlier).bytes reading) :
    Assembly.Levelled.Stands code earlier (functionCode body) reading := by
  obtain ⟨origin, starts, path⟩ := read
  refine stands.levelled.stands_of_path ?_ path
  rcases starts with rfl | ⟨inner, statement, met, rfl⟩
  · have first := Assembly.Levelled.stands_at code earlier
      (List.nil_append (functionCode body)).symm (List.cons_ne_nil _ _)
      (.nil 0)
    rw [List.append_nil] at first
    exact first
  · obtain ⟨before, piece, located⟩ := stands.located met
    obtain ⟨after, whole⟩ := located.whole
    rw [located.place, Extent.units_in_body]
    have split := functionCode_append before (piece.code ++ after)
    rw [← List.append_assoc before, ← whole] at split
    exact Assembly.Levelled.stands_at code earlier split
      (List.append_ne_nil_of_right_ne_nil _ (List.cons_ne_nil _ _))
      (Carries.jumpTarget.append located.level)

/-- In front of a statement and behind it nothing is on the stack. -/
theorem depth_around
    (stands : function.Stands outside code earlier body)
    (met : Block.Meets (function.start outside
      (Extent.ofCode earlier).bytes) function.body inner statement) :
    ∃ piece next,
      Statement.code inner.place inner.environment statement =
        (.ok piece, next) ∧
      code.HoldsAt ((Extent.ofCode earlier).units + inner.place.units)
        piece.code ∧
      ∀ reading : DepthReading, Assembly.Levelled.Stands code earlier
        (functionCode body) reading →
        reading.index =
            (Extent.ofCode earlier).units + inner.place.units ∨
          reading.index = (Extent.ofCode earlier).units +
            (inner.place.past piece.code).units →
        reading.depth = 0 := by
  obtain ⟨before, piece, located⟩ := stands.located met
  obtain ⟨after, whole⟩ := located.whole
  obtain ⟨next, coded⟩ := located.coded
  have level := Carries.jumpTarget.append located.level
  have levelToo := level.append
    (located.sound.statement_carries coded located.regular)
  have back := functionCode_append (before ++ piece.code) after
  have front := functionCode_append before (piece.code ++ after)
  rw [← List.append_assoc before, ← whole] at front
  rw [← whole] at back
  refine ⟨piece, next, coded, ?_, ?_⟩
  · refine ⟨earlier ++ .plain .jumpTarget :: before, ?_, ?_⟩
    · have held := stands.held
      rw [front, List.append_assoc] at held
      exact held.right.left
    · rw [located.place, Extent.units_in_body]
  · intro reading held place
    rw [located.place, ← Extent.past_append, Extent.units_in_body,
      Extent.units_in_body] at place
    rcases place with place | place
    · exact Assembly.Levelled.depth_at held front level place
    · exact Assembly.Levelled.depth_at held back levelToo place

theorem depth_at_return
    (stands : function.Stands outside code earlier body)
    (held : Assembly.Levelled.Stands code earlier (functionCode body)
      reading)
    (returning : code.opcodeAt? reading.index = some .returning) :
    (reading.index + 1 = (Extent.ofCode (earlier ++
        functionCode body)).units ∧ reading.depth = 0) ∨
      ∃ inner value piece next,
        Block.Meets (function.start outside (Extent.ofCode earlier).bytes)
          function.body inner (.returns value) ∧
        Statement.code inner.place inner.environment (.returns value) =
          (.ok piece, next) ∧
        reading.index + 1 = (Extent.ofCode earlier).units +
          (inner.place.past piece.code).units ∧
        returnedWords? inner.sizes value = some reading.depth := by
  obtain ⟨before, instruction, after, level, split, passed, rfl⟩ := held
  have named := Option.some.inj
    ((stands.levelled.opcodeAt split).symm.trans returning)
  have index := Extent.units_behind (earlier ++ before) instruction
  rw [named, List.append_assoc] at index
  have held : Assembly.Levelled.Stands code earlier (functionCode body)
      ⟨(Extent.ofCode (earlier ++ before)).units, level.depth⟩ :=
    ⟨before, instruction, after, level, split, passed, rfl⟩
  have shape : [Instruction.plain .jumpTarget] ++
      (body ++ [Instruction.plain .returning]) =
        before ++ instruction :: after := split
  obtain ⟨inside, rfl, behind⟩ :=
    onward_target.returnFree.behind shape named
  rcases append_eq_append_cons behind with
    ⟨rest, whole, rfl⟩ | ⟨nothing, rfl, last⟩
  · obtain ⟨sites, final, generated⟩ := stands.generated
    obtain ⟨inner, value, piece, next, met, coded, place⟩ :=
      generated.returns [function.parameterSizes] whole named
    obtain ⟨front, found, located⟩ := stands.located met
    obtain ⟨tail, wholeToo⟩ := located.whole
    obtain ⟨nextToo, codedToo⟩ := located.coded
    rw [coded] at codedToo
    cases codedToo
    obtain ⟨evaluation, depth, ends, words, level⟩ :=
      located.sound.return_carries coded located.regular
    -- The statement that was met ends with this very return.
    have same : front ++ piece.code = inside ++ [instruction] := by
      have parts : (front ++ piece.code) ++ tail =
          (inside ++ [instruction]) ++ rest := by
        rw [← wholeToo, List.append_assoc]
        exact whole
      refine prefix_unique parts ?_
      have units := congrArg Extent.units place
      rw [located.place, ← Extent.past_append] at units
      exact Nat.add_left_cancel units
    rw [ends, ← List.append_assoc] at same
    obtain ⟨rfl, _⟩ := List.append_inj' same rfl
    have known := Assembly.Levelled.depth_at held split
      ((Carries.jumpTarget.append located.level).append level) rfl
    refine Or.inr ⟨inner, value, piece, next, met, coded, ?_, ?_⟩
    · rw [place]
      have body := Extent.units_in_body earlier
        (front ++ evaluation ++ [instruction]) (Extent.ofCode earlier).bytes
      exact index.symm.trans body.symm
    · rw [words, ← known]
  · obtain ⟨rfl, same⟩ | ⟨_, empty⟩ :=
      List.singleton_eq_append_iff.mp last
    case inr => cases empty
    cases same
    rw [List.append_nil] at held index split ⊢
    refine Or.inl ⟨index.symm, ?_⟩
    exact Assembly.Levelled.depth_at held split
      (Carries.jumpTarget.append stands.carries) rfl

end Function.Stands

/-! ### Compiled contracts -/

/-- A function of a program keeps count of the words on the stack.  Its first
unit has an index, and it stands behind a number of bytes. -/
structure Function.KeepsCount (function : Function) (outside : List String)
    (artifact : Artifact) (number first offset : Nat) : Prop where
  -- No operation takes more words than there are.
  enough : ∀ reading,
    function.IsRead outside artifact.code first offset reading →
    ∃ effect, artifact.code.effectAt? reading.index = some effect ∧
      effect.pops ≤ reading.depth
  -- A reading goes on to a return, and it follows every jump.
  continues : ∀ reading,
    function.IsRead outside artifact.code first offset reading →
    artifact.code.opcodeAt? reading.index = some .returning ∨
      ∃ next, artifact.code.Reads reading next
  jumps : ∀ reading opcode,
    function.IsRead outside artifact.code first offset reading →
    artifact.code.opcodeAt? reading.index = some opcode →
    opcode = .jump ∨ opcode = .jumpIf →
    ∃ target, artifact.code.opcodeAt? target = some .jumpTarget ∧
      artifact.code.Reads reading ⟨target, 0⟩
  targets : ∀ reading,
    function.IsRead outside artifact.code first offset reading →
    artifact.code.opcodeAt? reading.index = some .jumpTarget →
    reading.depth = 0
  -- Statements start and end with an empty stack.
  statements : ∀ inner statement,
    Block.Meets (function.start outside offset) function.body inner
      statement →
    ∃ piece next,
      Statement.code inner.place inner.environment statement =
        (.ok piece, next) ∧
      artifact.code.HoldsAt (first + inner.place.units) piece.code ∧
      ∀ reading,
        function.IsRead outside artifact.code first offset reading →
        reading.index = first + inner.place.units ∨
          reading.index = first + (inner.place.past piece.code).units →
        reading.depth = 0
  -- A return ends the function or a statement, whose words are there.
  returns : ∀ reading,
    function.IsRead outside artifact.code first offset reading →
    artifact.code.opcodeAt? reading.index = some .returning →
    (artifact.code.byteOffset? (reading.index + 1) =
        some (artifact.stopOf number) ∧ reading.depth = 0) ∨
      ∃ inner value piece next,
        Block.Meets (function.start outside offset) function.body inner
          (.returns value) ∧
        Statement.code inner.place inner.environment (.returns value) =
          (.ok piece, next) ∧
        reading.index + 1 = first + (inner.place.past piece.code).units ∧
        returnedWords? inner.sizes value = some reading.depth

section

variable [IdentifierCharacters]

/-- The code of every function of a contract stands in the program. -/
theorem Contract.stands_of_compiled {source : String} {contract : Contract}
    {artifact : Artifact} {parallel : Bool} {function : Function}
    (parsed : Contract.parse source = .ok contract)
    (compiled : contract.compile parallel = .ok artifact)
    (member : function ∈ contract.functions) :
    ∃ number earlier body,
      function.Stands contract.functionNames artifact.code earlier body ∧
      artifact.functions[number]? =
        some ⟨function.name, (Extent.ofCode earlier).bytes⟩ ∧
      artifact.code.byteOffset? (Extent.ofCode earlier).units =
        some (Extent.ofCode earlier).bytes ∧
      artifact.code.byteOffset? (Extent.ofCode (earlier ++
        functionCode body)).units = some (artifact.stopOf number) := by
  have regular := regular_of_parse parsed function member
  obtain ⟨declarable, codes, linked, whole⟩ := linked_of_compiled compiled
  obtain ⟨number, earlier, code, later, span⟩ := linked.span_of_mem member
  obtain ⟨starts, stops, _⟩ := span.stretch whole
  have entry := span.starts
  obtain ⟨body, sites, final, rfl, generated⟩ := span.placed
  rw [Nat.zero_add] at entry generated
  refine ⟨number, earlier, body, ?_, entry, starts, stops⟩
  have names := declarable.parameters function member
  constructor
  · refine ⟨later, ?_⟩
    rw [whole, span.whole]
  · exact ⟨sites, final, generated⟩
  · exact regular
  · exact Function.exists_agrees regular names contract.functionNames

/-- Along every path, the functions of a compiled contract keep count of the
words on the stack. -/
theorem Contract.functions_keep_count {source : String}
    {contract : Contract} {artifact : Artifact} {parallel : Bool}
    {function : Function}
    (parsed : Contract.parse source = .ok contract)
    (compiled : contract.compile parallel = .ok artifact)
    (member : function ∈ contract.functions) :
    ∃ number first offset,
      artifact.functions[number]? = some ⟨function.name, offset⟩ ∧
      artifact.code.byteOffset? first = some offset ∧
      function.KeepsCount contract.functionNames artifact number first
        offset := by
  obtain ⟨number, earlier, body, stands, entry, starts, stops⟩ :=
    stands_of_compiled parsed compiled member
  refine ⟨number, _, _, entry, starts, ?_⟩
  have levelled := stands.levelled
  constructor
  · intro reading read
    exact levelled.enough (stands.stands_of_read read)
  · intro reading read
    exact levelled.continues (stands.stands_of_read read)
  · intro reading opcode read found jumping
    exact levelled.reads_jump (stands.stands_of_read read) found jumping
  · intro reading read target
    exact levelled.depth_at_target (stands.stands_of_read read) target
  · intro inner statement met
    obtain ⟨piece, next, coded, holds, depth⟩ := stands.depth_around met
    refine ⟨piece, next, coded, holds, ?_⟩
    intro reading read
    exact depth reading (stands.stands_of_read read)
  · intro reading read returning
    rcases stands.depth_at_return (stands.stands_of_read read) returning with
      ⟨last, empty⟩ | returned
    · rw [last]
      exact Or.inl ⟨stops, empty⟩
    · exact Or.inr returned

end

/-- A string is copied and returned on one way, and dropped on the other. -/
def copying : Function :=
  ⟨"f", [⟨"b", .bool⟩], .string,
    [.assigns .string "s" (.text "hello"),
      .ifThenElse (.identifier "b")
        [.assigns .string "t" (.identifier "s"),
          .returns (some (.identifier "t"))]
        [.evaluates (.identifier "s")],
      .returns (some (.text "x"))]⟩

def copyingSource : String :=
  "contract\x7bfunc f(b bool)string\x7bstring s=\"hello\" if(b)" ++
    "\x7bstring t=s return t\x7delse\x7bs\x7dreturn \"x\"\x7d\x7d"

open IdentifierTables

theorem Contract.parse_copying :
    Contract.parse copyingSource = .ok ⟨[copying]⟩ := by
  decide +kernel

theorem Contract.exists_compile_copying :
    ∃ artifact, (⟨[copying]⟩ : Contract).compile true = .ok artifact := by
  have accepted : ((⟨[copying]⟩ : Contract).compile true).isOk = true := by
    decide +kernel
  cases compiled : (⟨[copying]⟩ : Contract).compile true with
  | error error =>
      rw [compiled] at accepted
      cases accepted
  | ok artifact => exact ⟨artifact, rfl⟩

theorem Contract.copying_keeps_count :
    ∃ artifact,
      Contract.parse copyingSource = .ok ⟨[copying]⟩ ∧
      (⟨[copying]⟩ : Contract).compile true = .ok artifact ∧
      ∃ number first offset,
        artifact.functions[number]? = some ⟨copying.name, offset⟩ ∧
        artifact.code.byteOffset? first = some offset ∧
        copying.KeepsCount ["f"] artifact number first offset := by
  obtain ⟨artifact, compiled⟩ := Contract.exists_compile_copying
  exact ⟨artifact, Contract.parse_copying, compiled,
    Contract.functions_keep_count Contract.parse_copying compiled
      List.mem_cons_self⟩

end ContractCompiler
