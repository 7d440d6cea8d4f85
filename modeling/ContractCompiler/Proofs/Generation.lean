/-
How the code of a block comes about.

The code of a block is described by rules, one for a statement without nested
blocks and one for each kind of branch.  A rule says where the parts of a
branch start, as places behind the code in front of them.
-/

import ContractCompiler.Proofs.Layout

namespace ContractCompiler

/-- The code of a branch without an alternative: when the condition fails, its
consequence is skipped. -/
def branchCode (test : List Instruction) (target : Word)
    (body : List Instruction) : List Instruction :=
  test ++ jumpCode .jumpIf target ++ body ++ [.plain .jumpTarget]

def choiceHead (test : List Instruction) (target : Word)
    (body : List Instruction) (ending : Word) : List Instruction :=
  test ++ jumpCode .jumpIf target ++ body ++ jumpCode .jump ending

/-- The code of a branch with an alternative: behind the consequence, the
alternative is skipped. -/
def choiceCode (test : List Instruction) (target : Word)
    (body : List Instruction) (ending : Word)
    (other : List Instruction) : List Instruction :=
  choiceHead test target body ending ++ [.plain .jumpTarget] ++ other ++
    [.plain .jumpTarget]

theorem Extent.past_choiceHead (start : Extent) (test : List Instruction)
    (target : Word) (body : List Instruction) (ending : Word) :
    start.past (choiceHead test target body ending) =
      (((start.past test).add jumpExtent).past body).add jumpExtent := by
  rw [choiceHead, past_append, past_append, past_jumpIf]
  rfl

/-- The place of an alternative. -/
theorem Extent.past_choiceTarget (start : Extent) (test : List Instruction)
    (target : Word) (body : List Instruction) (ending : Word) :
    start.past (choiceHead test target body ending ++
        [Instruction.plain .jumpTarget]) =
      ((((start.past test).add jumpExtent).past body).add jumpExtent).add
        targetExtent := by
  rw [past_append, past_choiceHead]
  rfl

inductive Statement.Straight (environment : Environment) :
    Statement → List Instruction → Environment → Prop where
  | evaluates {value : Expression} {code : List Instruction}
      (compiled : value.evaluationCode environment = .ok code) :
      Straight environment (.evaluates value) code environment
  | returns {value : Option Expression} {code : List Instruction}
      (compiled : returnCode environment value = .ok code) :
      Straight environment (.returns value) code environment
  | assigns {type : ValueType} {name : String} {value : Expression}
      {code : List Instruction} {next : Environment}
      (compiled : assignCode environment type name value =
        (.ok code, next)) :
      Straight environment (.assigns type name value) code next

/-- The code of a block that starts at a place, the units in it that hold
addresses, and the environment behind it. -/
inductive Block.Generates :
    Extent → Environment → Block → Fragment → Environment → Prop where
  | nil {start : Extent} {environment : Environment} :
      Generates start environment [] ⟨[], []⟩ environment
  | straight {start : Extent} {environment next final : Environment}
      {statement : Statement} {others : Block} {code : List Instruction}
      {tail : Fragment}
      (compiled : statement.Straight environment code next)
      (rest : Generates (start.past code) next others tail final) :
      Generates start environment (statement :: others)
        ⟨code ++ tail.code, tail.sites⟩ final
  | ifThen {start : Extent} {environment inside final : Environment}
      {condition : Expression} {consequence others : Block}
      {test : List Instruction} {target : Word} {body tail : Fragment}
      (tested : conditionCode environment condition = .ok test)
      (inner : Generates (start.past (test ++ jumpCode .jumpIf target))
        environment.enter consequence body inside)
      (reached : targetWord (start.past
        (test ++ jumpCode .jumpIf target ++ body.code)) = .ok target)
      (rest : Generates (start.past (branchCode test target body.code))
        inside.leave others tail final) :
      Generates start environment (.ifThen condition consequence :: others)
        ⟨branchCode test target body.code ++ tail.code,
          body.sites ++ [(start.past test).units + 1] ++ tail.sites⟩ final
  | ifThenElse {start : Extent}
      {environment inside between final : Environment}
      {condition : Expression} {consequence alternative others : Block}
      {test : List Instruction} {target ending : Word}
      {body other tail : Fragment}
      (tested : conditionCode environment condition = .ok test)
      (inner : Generates (start.past (test ++ jumpCode .jumpIf target))
        environment.enter consequence body inside)
      (reached : targetWord (start.past
        (choiceHead test target body.code ending)) = .ok target)
      (innerToo : Generates (start.past
          (choiceHead test target body.code ending ++ [.plain .jumpTarget]))
        inside.leave.enter alternative other between)
      (reachedToo : targetWord (start.past
        (choiceHead test target body.code ending ++ [.plain .jumpTarget] ++
          other.code)) = .ok ending)
      (rest : Generates (start.past
          (choiceCode test target body.code ending other.code))
        between.leave others tail final) :
      Generates start environment
        (.ifThenElse condition consequence alternative :: others)
        ⟨choiceCode test target body.code ending other.code ++ tail.code,
          body.sites ++ [(start.past test).units + 1] ++
            (other.sites ++ [(start.past (test ++ jumpCode .jumpIf target ++
              body.code)).units + 1] ++ tail.sites)⟩ final

/-! ### Generated code follows the rules -/

mutual

theorem Statement.generates_cons (statement : Statement) {start : Extent}
    {environment next final : Environment} {first tail : Fragment}
    {others : Block}
    (compiled : Statement.code start environment statement =
      (.ok first, next))
    (rest : Block.Generates (start.past first.code) next others tail final) :
    Block.Generates start environment (statement :: others)
      ⟨first.code ++ tail.code, first.sites ++ tail.sites⟩ final := by
  match statement with
  | .evaluates value =>
      rw [Statement.code] at compiled
      cases evaluated : value.evaluationCode environment with
      | error error =>
          rw [evaluated] at compiled
          cases compiled
      | ok code =>
          rw [evaluated] at compiled
          cases compiled
          exact .straight (.evaluates evaluated) rest
  | .returns value =>
      rw [Statement.code] at compiled
      cases returned : returnCode environment value with
      | error error =>
          rw [returned] at compiled
          cases compiled
      | ok code =>
          rw [returned] at compiled
          cases compiled
          exact .straight (.returns returned) rest
  | .assigns type name value =>
      rw [Statement.code] at compiled
      split at compiled
      · cases compiled
      · next code following assigned =>
          cases compiled
          exact .straight (.assigns assigned) rest
  | .ifThen condition consequence =>
      rw [Statement.code] at compiled
      split at compiled
      · cases compiled
      next test tested =>
      simp only at compiled
      split at compiled
      · cases compiled
      next body inside inner =>
      split at compiled
      · cases compiled
      next target reached =>
      cases compiled
      have bodyStart := Extent.past_jumpIf start test target
      rw [← bodyStart, ← Extent.past_append] at reached
      rw [← bodyStart] at inner
      exact .ifThen tested (Block.generates_of_codeAll consequence inner)
        reached rest
  | .ifThenElse condition consequence alternative =>
      rw [Statement.code] at compiled
      split at compiled
      · cases compiled
      next test tested =>
      simp only at compiled
      split at compiled
      · cases compiled
      next body inside inner =>
      split at compiled
      · cases compiled
      next target reached =>
      split at compiled
      · cases compiled
      next other between innerToo =>
      split at compiled
      · cases compiled
      next ending reachedToo =>
      cases compiled
      -- Every place is now a sum of extents; the rule wants it behind code.
      have bodyStart := Extent.past_jumpIf start test target
      have otherStart :=
        start.past_choiceTarget test target body.code ending
      rw [← otherStart, ← Extent.past_append] at reachedToo
      rw [← otherStart] at innerToo
      rw [← start.past_choiceHead test target body.code ending] at reached
      rw [← bodyStart, ← Extent.past_append] at rest ⊢
      rw [← bodyStart] at inner
      have generated := Block.Generates.ifThenElse tested
        (Block.generates_of_codeAll consequence inner) reached
        (Block.generates_of_codeAll alternative innerToo) reachedToo rest
      simp only [← List.append_assoc] at generated
      exact generated

theorem Block.generates_of_codeAll (block : Block) {start : Extent}
    {environment final : Environment} {fragment : Fragment}
    (compiled : Statement.codeAll start environment block =
      (.ok fragment, final)) :
    Block.Generates start environment block fragment final := by
  match block with
  | [] =>
      rw [Statement.codeAll] at compiled
      cases compiled
      exact .nil
  | statement :: others =>
      rw [Statement.codeAll] at compiled
      split at compiled
      · cases compiled
      next first next firstCompiled =>
      split at compiled
      · cases compiled
      next tail following othersCompiled =>
      cases compiled
      exact Statement.generates_cons statement firstCompiled
        (Block.generates_of_codeAll others othersCompiled)

end

theorem Statement.generates_of_code {statement : Statement}
    {start : Extent} {environment next : Environment} {fragment : Fragment}
    (compiled : Statement.code start environment statement =
      (.ok fragment, next)) :
    ∃ whole, Block.Generates start environment [statement] whole next :=
  ⟨_, statement.generates_cons compiled .nil⟩

end ContractCompiler
