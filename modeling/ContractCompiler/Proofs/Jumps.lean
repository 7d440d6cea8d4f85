/-
Where jumps lead.

Only branches have jumps.  A jump has its address right in front of it, and
the address is that of a jump target behind the jump in the same function.
-/

import ContractCompiler.Proofs.CodeConditions
import ContractCompiler.Proofs.Linking

namespace ContractCompiler

/-! ### Code without jumps -/

def Instruction.IsJump (instruction : Instruction) : Prop :=
  instruction.opcode = .jump ∨ instruction.opcode = .jumpIf

instance (instruction : Instruction) : Decidable instruction.IsJump :=
  inferInstanceAs (Decidable (_ ∨ _))

def JumpFree (code : List Instruction) : Prop :=
  ∀ instruction ∈ code, ¬ instruction.IsJump

theorem JumpFree.append {first second : List Instruction}
    (firstFree : JumpFree first) (secondFree : JumpFree second) :
    JumpFree (first ++ second) := by
  intro instruction member
  rcases List.mem_append.mp member with member | member
  · exact firstFree instruction member
  · exact secondFree instruction member

def Onward (code : List Instruction) : Prop :=
  ∀ instruction ∈ code,
    ¬ instruction.IsJump ∧ instruction.opcode ≠ .returning

theorem Onward.jumpFree {code : List Instruction} (onward : Onward code) :
    JumpFree code :=
  fun instruction member => (onward instruction member).1

theorem Onward.append {first second : List Instruction}
    (firstOnward : Onward first) (secondOnward : Onward second) :
    Onward (first ++ second) := by
  intro instruction member
  rcases List.mem_append.mp member with member | member
  · exact firstOnward instruction member
  · exact secondOnward instruction member

theorem onward_pushes (words : List Word) :
    Onward (words.map Instruction.push) := by
  intro instruction member
  rcases List.mem_map.mp member with ⟨word, _, rfl⟩
  refine ⟨?_, nofun⟩
  rintro (jumps | jumps) <;> cases jumps

private theorem onward_plain {opcode : Opcode}
    (proper : ¬ (Instruction.plain opcode).IsJump)
    (properToo : opcode ≠ .returning) : Onward [.plain opcode] := by
  intro instruction member
  rw [List.mem_singleton.mp member]
  exact ⟨proper, properToo⟩

theorem onward_target : Onward [.plain .jumpTarget] :=
  onward_plain (by decide) (by decide)

theorem jumpFree_target : JumpFree [.plain .jumpTarget] :=
  onward_target.jumpFree

private theorem jumpFree_returning : JumpFree [.plain .returning] := by
  intro instruction member
  rw [List.mem_singleton.mp member]
  decide

private theorem Operator.code_onward (operator : Operator) :
    Onward operator.code := by
  unfold Onward
  cases operator <;> decide

private theorem Location.code_onward {location : Location}
    {environment : Environment} {code : List Instruction}
    (coded : location.code environment = .ok code) : Onward code := by
  cases location with
  | parameter index =>
      rcases code_parameter.mp coded with ⟨word, _, rfl⟩
      exact (onward_pushes [word]).append
        (onward_plain (by decide) (by decide))
  | memory id =>
      rcases code_memory.mp coded with ⟨_, offset, size, _, _, _, rfl⟩
      exact (onward_pushes [offset, size]).append
        (onward_plain (by decide) (by decide))

private theorem Expression.code_onward {expression : Expression}
    {environment : Environment} {code : List Instruction}
    (coded : expression.code environment = .ok code) : Onward code := by
  induction expression generalizing code with
  | identifier name =>
      rcases code_identifier.mp coded with ⟨_, location, _, located⟩
      exact Location.code_onward located
  | integer value =>
      rcases code_integer.mp coded with ⟨word, _, rfl⟩
      exact onward_pushes [word]
  | text value =>
      cases coded
      exact onward_pushes _
  | boolean value =>
      cases coded
      exact onward_pushes [_]
  | binary operator left right leftHypothesis rightHypothesis =>
      rcases code_binary.mp coded with
        ⟨leftCode, rightCode, onLeft, onRight, rfl⟩
      exact ((leftHypothesis onLeft).append (rightHypothesis onRight)).append
        operator.code_onward
  | unary operator operand inductionHypothesis =>
      by_cases negative : operator = .minus
      · subst negative
        rcases code_minus.mp coded with ⟨operandCode, inner, rfl⟩
        exact ((onward_pushes [0]).append (inductionHypothesis inner)).append
          (onward_plain (by decide) (by decide))
      · rcases (code_unary negative).mp coded with ⟨operandCode, inner, rfl⟩
        exact (inductionHypothesis inner).append
          (onward_plain (by decide) (by decide))

theorem Expression.evaluationCode_onward {value : Expression}
    {environment : Environment} {code : List Instruction}
    (compiled : value.evaluationCode environment = .ok code) :
    Onward code := by
  rcases evaluationCode_eq_ok.mp compiled with
    ⟨_, size, valueCode, _, _, coded, rfl⟩
  refine (code_onward coded).append ?_
  intro instruction member
  rw [List.eq_of_mem_replicate member]
  decide

theorem assignCode_onward {environment next : Environment}
    {type : ValueType} {name : String} {value : Expression}
    {code : List Instruction}
    (compiled : assignCode environment type name value = (.ok code, next)) :
    Onward code := by
  rcases assignCode_eq_ok.mp compiled with
    ⟨valueCode, _, _, storing, _, _, coded, _, stored, rfl, _⟩
  rcases storeCode_eq_ok.mp stored with ⟨offset, size, _, _, rfl⟩
  exact (Expression.code_onward coded).append
    ((onward_pushes [offset, size]).append
      (onward_plain (by decide) (by decide)))

/-- The code of a return runs on up to its last instruction. -/
theorem returnCode_onward {environment : Environment}
    {value : Option Expression} {code : List Instruction}
    (compiled : returnCode environment value = .ok code) :
    ∃ front, code = front ++ [Instruction.plain .returning] ∧
      Onward front := by
  cases value with
  | none =>
      exact ⟨[], (returnCode_none.mp compiled).2, List.forall_mem_nil _⟩
  | some value =>
      rcases returnCode_some.mp compiled with ⟨front, _, coded, rfl⟩
      exact ⟨front, rfl, Expression.code_onward coded⟩

theorem conditionCode_onward {environment : Environment}
    {condition : Expression} {code : List Instruction}
    (tested : conditionCode environment condition = .ok code) :
    Onward code := by
  rcases conditionCode_eq_ok.mp tested with ⟨test, _, coded, rfl⟩
  exact (Expression.code_onward coded).append
    (onward_plain (by decide) (by decide))

theorem Statement.Straight.jumpFree {environment next : Environment}
    {statement : Statement} {code : List Instruction}
    (compiled : statement.Straight environment code next) :
    JumpFree code := by
  cases compiled with
  | evaluates compiled =>
      exact (Expression.evaluationCode_onward compiled).jumpFree
  | returns compiled =>
      rcases returnCode_onward compiled with ⟨front, rfl, onward⟩
      exact onward.jumpFree.append jumpFree_returning
  | assigns compiled => exact (assignCode_onward compiled).jumpFree

/-! ### Jumps lead forward -/

/-- A place in code that is put together of two parts lies in one of them. -/
theorem append_eq_append_cons {α : Type} {first second before after : List α}
    {item : α} (shape : first ++ second = before ++ item :: after) :
    (∃ inside, first = before ++ item :: inside ∧
        after = inside ++ second) ∨
      ∃ inside, before = first ++ inside ∧
        second = inside ++ item :: after := by
  rcases List.append_eq_append_iff.mp shape with
    ⟨inside, rfl, rfl⟩ | ⟨inside, rfl, afterEq⟩
  · exact Or.inr ⟨inside, rfl, rfl⟩
  · cases inside with
    | nil =>
        refine Or.inr ⟨[], ?_, ?_⟩
        · rw [List.append_nil, List.append_nil]
        · exact afterEq.symm
    | cons _ inside =>
        cases afterEq
        exact Or.inl ⟨inside, rfl, rfl⟩

/-- A jump in the middle of code that starts at an address has its own
address right in front of it, and that is the address of a jump target behind
it. -/
def LeadsForward (start : Nat) (before : List Instruction)
    (instruction : Instruction) (after : List Instruction) : Prop :=
  ∃ front word between back, before = front ++ [.push word] ∧
    after = between ++ .plain .jumpTarget :: back ∧
    word.toNat =
      start + (Extent.ofCode (before ++ instruction :: between)).bytes

def JumpsForward (start : Nat) (code : List Instruction) : Prop :=
  ∀ before instruction after, code = before ++ instruction :: after →
    instruction.IsJump → LeadsForward start before instruction after

namespace LeadsForward

variable {start : Nat} {before after : List Instruction}
  {instruction : Instruction}

private theorem behind (first : List Instruction)
    (leads : LeadsForward (start + (Extent.ofCode first).bytes) before
      instruction after) :
    LeadsForward start (first ++ before) instruction after := by
  rcases leads with ⟨front, word, between, back, rfl, rfl, reached⟩
  refine ⟨first ++ front, word, between, back, ?_, rfl, ?_⟩
  · rw [List.append_assoc]
  · rw [reached, List.append_assoc first, Extent.ofCode_append first,
      Extent.add, Nat.add_assoc]

private theorem inFront (second : List Instruction)
    (leads : LeadsForward start before instruction after) :
    LeadsForward start before instruction (after ++ second) := by
  rcases leads with ⟨front, word, between, back, rfl, rfl, reached⟩
  refine ⟨front, word, between, back ++ second, rfl, ?_, reached⟩
  rw [List.append_assoc, List.cons_append]

end LeadsForward

namespace JumpsForward

variable {start : Nat} {first second : List Instruction}

theorem of_jumpFree (free : JumpFree first) : JumpsForward start first := by
  intro before instruction after shape jumps
  refine absurd jumps (free instruction ?_)
  rw [shape]
  exact List.mem_append_right _ List.mem_cons_self

theorem append (forward : JumpsForward start first)
    (forwardToo : JumpsForward (start + (Extent.ofCode first).bytes) second) :
    JumpsForward start (first ++ second) := by
  intro before instruction after shape jumps
  rcases append_eq_append_cons shape with
    ⟨inside, rfl, rfl⟩ | ⟨inside, rfl, rfl⟩
  · exact (forward before instruction inside rfl jumps).inFront second
  · exact (forwardToo inside instruction after rfl jumps).behind first

/-- A jump over some code to a jump target behind it. -/
theorem jump {opcode : Opcode} {target : Word}
    {middle rest : List Instruction}
    (leads : target.toNat =
      start + (Extent.ofCode (jumpCode opcode target ++ middle)).bytes)
    (forward : JumpsForward
      (start + (Extent.ofCode (jumpCode opcode target)).bytes)
      (middle ++ .plain .jumpTarget :: rest)) :
    JumpsForward start
      (jumpCode opcode target ++ (middle ++ .plain .jumpTarget :: rest)) := by
  intro before instruction after shape jumps
  rcases append_eq_append_cons shape with
    ⟨inside, coded, rfl⟩ | ⟨inside, rfl, behind⟩
  · -- The jump is the second of the two instructions; the first one pushes.
    cases before with
    | nil =>
        cases coded
        rcases jumps with jumps | jumps <;> cases jumps
    | cons pushes others =>
        cases others with
        | nil =>
            cases coded
            exact ⟨[], target, middle, rest, rfl, rfl, leads⟩
        | cons _ _ =>
            exact absurd (congrArg List.length coded) (by simp [jumpCode])
  · exact (forward inside instruction after behind jumps).behind _

end JumpsForward

/-- Every jump in the code of a block leads forward. -/
theorem Block.Generates.jumpsForward {start : Extent}
    {environment final : Environment} {block : Block} {fragment : Fragment}
    (generated : Block.Generates start environment block fragment final) :
    JumpsForward start.bytes fragment.code := by
  -- A jump is put in front of code that holds its target, so what it jumps
  -- over is cut off behind the target first.
  induction generated with
  | nil =>
      exact .of_jumpFree (List.forall_mem_nil _)
  | straight compiled rest inductionHypothesis =>
      exact (JumpsForward.of_jumpFree compiled.jumpFree).append
        inductionHypothesis
  | @ifThen start environment inside final condition consequence others test
      target body tail tested inner reached rest innerHypothesis
      restHypothesis =>
      have leads := Word.address_eq_ok (targetWord_eq_ok.mp reached)
      simp only [branchCode, List.append_assoc] at reached ⊢
      simp only [branchCode, Extent.past_append, Extent.past_bytes]
        at leads innerHypothesis restHypothesis
      have free := (conditionCode_onward tested).jumpFree
      refine (JumpsForward.of_jumpFree free).append (.jump ?_ ?_)
      · rw [leads, Extent.ofCode_append, Extent.add]
        simp only [Nat.add_assoc]
      · exact innerHypothesis.append
          ((JumpsForward.of_jumpFree jumpFree_target).append restHypothesis)
  | @ifThenElse start environment inside between final condition consequence
      alternative others test target ending body other tail tested inner
      reached innerToo reachedToo rest innerHypothesis innerHypothesisToo
      restHypothesis =>
      have leads := Word.address_eq_ok (targetWord_eq_ok.mp reached)
      have leadsToo := Word.address_eq_ok (targetWord_eq_ok.mp reachedToo)
      have shape : choiceCode test target body.code ending other.code ++
          tail.code =
          test ++ (jumpCode .jumpIf target ++
            ((body.code ++ jumpCode .jump ending) ++ .plain .jumpTarget ::
              (other.code ++ .plain .jumpTarget :: tail.code))) := by
        simp only [choiceCode, choiceHead, List.append_assoc]
        rfl
      simp only [choiceCode, choiceHead, Extent.past_append,
        Extent.past_bytes]
        at leads leadsToo innerHypothesis innerHypothesisToo restHypothesis
      rw [shape]
      have free := (conditionCode_onward tested).jumpFree
      refine (JumpsForward.of_jumpFree free).append (.jump ?_ ?_)
      · rw [leads, Extent.ofCode_append, Extent.ofCode_append, Extent.add,
          Extent.add]
        simp only [Nat.add_assoc]
      · rw [List.append_assoc]
        have skips : JumpsForward
            (start.bytes + (Extent.ofCode test).bytes +
              (Extent.ofCode (jumpCode .jumpIf target)).bytes +
              (Extent.ofCode body.code).bytes)
            (jumpCode .jump ending ++
              (([Instruction.plain .jumpTarget] ++ other.code) ++
                .plain .jumpTarget :: tail.code)) := by
          refine .jump ?_ ?_
          · rw [leadsToo, Extent.ofCode_append, Extent.ofCode_append,
              Extent.add, Extent.add]
            simp only [Nat.add_assoc]
          · rw [List.append_assoc]
            exact (JumpsForward.of_jumpFree jumpFree_target).append
              (innerHypothesisToo.append
                ((JumpsForward.of_jumpFree jumpFree_target).append
                  restHypothesis))
        exact innerHypothesis.append skips

theorem Function.Placed.jumpsForward {function : Function}
    {outside : List String} {base : Nat} {code : List Instruction}
    (placed : function.Placed outside base code) :
    JumpsForward base code := by
  rcases placed with ⟨body, sites, final, rfl, generated⟩
  exact (JumpsForward.of_jumpFree jumpFree_target).append
    (generated.jumpsForward.append
      (.of_jumpFree jumpFree_returning))

end ContractCompiler
