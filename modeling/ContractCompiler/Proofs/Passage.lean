/-
Which blocks can be run through.

A block can be run through when none of its statements is sure to return.  This
is what control does: there is a path from the start of the block's code to its
end exactly when the block can be run through.
-/

import ContractCompiler.Proofs.Successors

namespace ContractCompiler

mutual

def Statement.passes : Statement → Bool
  | .returns _ => false
  | .ifThenElse _ consequence alternative =>
      Statement.passesAll consequence || Statement.passesAll alternative
  | .ifThen _ _ => true
  | .assigns _ _ _ => true
  | .evaluates _ => true

def Statement.passesAll : List Statement → Bool
  | [] => true
  | statement :: rest => statement.passes && Statement.passesAll rest

end

/-! ### Paths -/

namespace Assembly

def Leads (code : Assembly) (first second : List Instruction) : Prop :=
  Relation.ReflTransGen code.Flows (Extent.ofCode first).units
    (Extent.ofCode second).units

variable {code : Assembly} {before piece more landing final :
  List Instruction} {target : Word}

theorem Leads.trans {first second third : List Instruction}
    (leads : code.Leads first second) (leadsToo : code.Leads second third) :
    code.Leads first third :=
  Relation.ReflTransGen.trans leads leadsToo

theorem Holds.leads_onward (held : code.Holds before piece)
    (onward : Onward piece) : code.Leads before (before ++ piece) := by
  induction piece generalizing before with
  | nil =>
      rw [List.append_nil]
      exact .refl
  | cons instruction rest inductionHypothesis =>
      have parts : code.Holds before ([instruction] ++ rest) := held
      obtain ⟨stays, continues⟩ := onward instruction List.mem_cons_self
      have first := (flows_iff_of_onward parts.left stays continues).mpr rfl
      have others := inductionHypothesis parts.right
        (fun other member => onward other (List.mem_cons_of_mem _ member))
      rw [List.append_assoc] at others
      exact .head first others

/-- Control goes forward in code whose jumps lead forward, and gets no
further than right behind it. -/
theorem Holds.flows_inside {front rest : List Instruction}
    {instruction : Instruction} {next : Nat}
    (held : code.Holds before piece)
    (forward : JumpsForward (Extent.ofCode before).bytes piece)
    (split : piece = front ++ instruction :: rest)
    (flows : code.Flows (Extent.ofCode (before ++ front)).units next) :
    ∃ past left, piece = (front ++ instruction :: past) ++ left ∧
      next = (Extent.ofCode
        (before ++ (front ++ instruction :: past))).units := by
  have here := held.middle split
  have behind : piece = (front ++ [instruction]) ++ rest := by
    rw [split, List.append_assoc]
    rfl
  by_cases jumps : instruction.IsJump
  · obtain ⟨between, back, whole, reached⟩ :=
      held.flows_iff_of_forward forward split jumps
    rcases (reached next).mp flows with ⟨_, rfl⟩ | rfl
    · exact ⟨[], _, behind, rfl⟩
    · exact ⟨between, .plain .jumpTarget :: back, whole, rfl⟩
  · by_cases returning : instruction.opcode = .returning
    · exact absurd flows (not_flows_of_returning here returning)
    · rw [flows_iff_of_onward here jumps returning] at flows
      rw [flows, List.append_assoc]
      exact ⟨[], _, behind, rfl⟩

/-- A path that gets behind code whose jumps lead forward comes by its end. -/
theorem Holds.path_leaves (held : code.Holds before piece)
    (forward : JumpsForward (Extent.ofCode before).bytes piece)
    {index last : Nat}
    (path : Relation.ReflTransGen code.Flows index last)
    (inside : ∃ front rest, piece = front ++ rest ∧
      index = (Extent.ofCode (before ++ front)).units)
    (beyond : (Extent.ofCode (before ++ piece)).units ≤ last) :
    Relation.ReflTransGen code.Flows index
        (Extent.ofCode (before ++ piece)).units ∧
      Relation.ReflTransGen code.Flows
        (Extent.ofCode (before ++ piece)).units last := by
  -- Until it is right behind the code, the path takes its next step inside.
  induction path using Relation.ReflTransGen.head_induction_on with
  | refl =>
      obtain ⟨front, rest, rfl, rfl⟩ := inside
      have same : (Extent.ofCode (before ++ (front ++ rest))).units =
          (Extent.ofCode (before ++ front)).units := by
        rw [← List.append_assoc, Extent.units_append] at beyond ⊢
        omega
      rw [same]
      exact ⟨.refl, .refl⟩
  | @head index next flows path inductionHypothesis =>
      obtain ⟨front, rest, split, rfl⟩ := inside
      cases rest with
      | nil =>
          rw [List.append_nil] at split
          rw [split]
          exact ⟨.refl, .head flows path⟩
      | cons instruction rest =>
          obtain ⟨past, left, splitToo, place⟩ :=
            held.flows_inside forward split flows
          obtain ⟨arrives, leaves⟩ := inductionHypothesis
            ⟨_, left, splitToo, place⟩
          exact ⟨.head flows arrives, leaves⟩

theorem Leads.through (leads : code.Leads before (before ++ (piece ++ more)))
    (held : code.Holds before piece)
    (forward : JumpsForward (Extent.ofCode before).bytes piece) :
    code.Leads before (before ++ piece) ∧
      code.Leads (before ++ piece) (before ++ (piece ++ more)) := by
  refine held.path_leaves forward leads ⟨[], piece, rfl, ?_⟩ ?_
  · rw [List.append_nil]
  · rw [← List.append_assoc, Extent.units_append (before ++ piece)]
    exact Nat.le_add_right _ _

/-- No path gets behind a return. -/
theorem Holds.not_leads_returning {front : List Instruction}
    (held : code.Holds before (front ++ [Instruction.plain .returning]))
    (onward : Onward front) :
    ¬ code.Leads before
      (before ++ (front ++ [Instruction.plain .returning])) := by
  intro leads
  obtain ⟨_, stuck⟩ := leads.through held.left
    (.of_jumpFree onward.jumpFree)
  rcases Relation.ReflTransGen.cases_head stuck with same | ⟨next, flows, _⟩
  · have behind := Extent.units_behind (before ++ front) (.plain .returning)
    rw [List.append_assoc, ← same] at behind
    omega
  · exact not_flows_of_returning held.right rfl flows

/-- From a test, control falls through to the code behind it or goes to the
place that the jump names. -/
theorem Holds.flows_test {test rest : List Instruction}
    (held : code.Holds before (test ++ jumpCode .jumpIf target))
    (lands : code.Holds landing rest)
    (names : target.toNat = (Extent.ofCode landing).bytes) (next : Nat) :
    code.Flows (Extent.ofCode
        (before ++ (test ++ [Instruction.push target]))).units next ↔
      next = (Extent.ofCode
          (before ++ (test ++ jumpCode .jumpIf target))).units ∨
        next = (Extent.ofCode landing).units := by
  have flows := @flows_iff_of_jump code _ next _ _ _ _ held.right
    (Or.inr rfl) lands names
  rw [List.append_assoc, List.append_assoc] at flows
  rw [flows]
  simp only [true_and]

private theorem Holds.leads_test {test rest : List Instruction}
    (held : code.Holds before (test ++ jumpCode .jumpIf target))
    (onward : Onward test) (lands : code.Holds landing rest)
    (names : target.toNat = (Extent.ofCode landing).bytes) :
    code.Leads before (before ++ (test ++ jumpCode .jumpIf target)) ∧
      code.Leads before landing := by
  have parts : code.Holds before ((test ++ [Instruction.push target]) ++
      [Instruction.plain .jumpIf]) := by
    rw [List.append_assoc]
    exact held
  have arrives := parts.left.leads_onward
    (onward.append (onward_pushes [target]))
  have flows := held.flows_test lands names
  exact ⟨.tail arrives ((flows _).mpr (Or.inl rfl)),
    .tail arrives ((flows _).mpr (Or.inr rfl))⟩

private theorem Leads.behind_test {test rest : List Instruction}
    (leads : code.Leads before
      (before ++ (test ++ jumpCode .jumpIf target ++ more)))
    (held : code.Holds before (test ++ jumpCode .jumpIf target))
    (onward : Onward test) (lands : code.Holds landing rest)
    (names : target.toNat = (Extent.ofCode landing).bytes) :
    code.Leads (before ++ (test ++ jumpCode .jumpIf target))
        (before ++ (test ++ jumpCode .jumpIf target ++ more)) ∨
      code.Leads landing
        (before ++ (test ++ jumpCode .jumpIf target ++ more)) := by
  have whole : test ++ jumpCode .jumpIf target ++ more =
      (test ++ [Instruction.push target]) ++ (.plain .jumpIf :: more) := by
    simp only [jumpCode, List.append_assoc, List.cons_append,
      List.nil_append]
  have parts : code.Holds before ((test ++ [Instruction.push target]) ++
      [Instruction.plain .jumpIf]) := by
    rw [List.append_assoc]
    exact held
  rw [whole] at leads
  obtain ⟨_, further⟩ := leads.through parts.left
    (.of_jumpFree (onward.append (onward_pushes [target])).jumpFree)
  rw [← whole] at further
  rcases Relation.ReflTransGen.cases_head further with
    same | ⟨next, flows, path⟩
  · have behind := Extent.units_append
      (before ++ (test ++ [Instruction.push target]))
      (.plain .jumpIf :: more)
    rw [List.append_assoc before, ← whole, ← same] at behind
    have filled := Extent.units_pos (.plain .jumpIf) more
    omega
  · rcases (held.flows_test lands names next).mp flows with rfl | rfl
    · exact Or.inl path
    · exact Or.inr path

private theorem Holds.leads_jump {rest : List Instruction}
    (held : code.Holds before (jumpCode .jump target))
    (lands : code.Holds landing rest)
    (names : target.toNat = (Extent.ofCode landing).bytes) :
    code.Leads before landing := by
  have parts : code.Holds before
      ([Instruction.push target] ++ [Instruction.plain .jump]) := held
  have arrives := parts.left.leads_onward (onward_pushes [target])
  exact .tail arrives ((flows_iff_of_jump held (Or.inl rfl) lands names).mpr
    (Or.inr rfl))

private theorem Holds.leads_branch {test body : List Instruction}
    (held : code.Holds before (branchCode test target body))
    (onward : Onward test)
    (names : target.toNat = (Extent.ofCode
      (before ++ (test ++ jumpCode .jumpIf target ++ body))).bytes) :
    code.Leads before (before ++ branchCode test target body) := by
  have skips := held.left.left.leads_test onward held.right names
  have lands := held.right.leads_onward onward_target
  rw [List.append_assoc before] at lands
  exact skips.2.trans lands

/-- A path leads through a choice exactly when one leads through its
consequence or through its alternative. -/
theorem Holds.leads_choice_iff {test body other : List Instruction}
    {ending : Word}
    (held : code.Holds before (choiceCode test target body ending other))
    (onward : Onward test)
    (names : target.toNat = (Extent.ofCode
      (before ++ choiceHead test target body ending)).bytes)
    (namesToo : ending.toNat = (Extent.ofCode (before ++
      (choiceHead test target body ending ++
        [Instruction.plain .jumpTarget] ++ other))).bytes)
    (forward : JumpsForward (Extent.ofCode
      (before ++ (test ++ jumpCode .jumpIf target))).bytes body)
    (forwardToo : JumpsForward (Extent.ofCode (before ++
      (choiceHead test target body ending ++
        [Instruction.plain .jumpTarget]))).bytes other) :
    code.Leads before (before ++ choiceCode test target body ending other) ↔
      code.Leads (before ++ (test ++ jumpCode .jumpIf target))
          (before ++ (test ++ jumpCode .jumpIf target) ++ body) ∨
        code.Leads (before ++ (choiceHead test target body ending ++
            [Instruction.plain .jumpTarget]))
          (before ++ (choiceHead test target body ending ++
            [Instruction.plain .jumpTarget]) ++ other) := by
  have last := held.right
  have alternative := held.left.right
  have landing := held.left.left.right
  have jump := held.left.left.left.right
  have consequence := held.left.left.left.left.right
  have tests := held.left.left.left.left.left
  have ends := last.leads_onward onward_target
  have enters := landing.leads_onward onward_target
  rw [List.append_assoc before] at ends enters ⊢
  constructor
  · intro leads
    have whole : choiceCode test target body ending other =
        test ++ jumpCode .jumpIf target ++ (body ++ (jumpCode .jump ending ++
          [Instruction.plain .jumpTarget] ++ other ++
          [Instruction.plain .jumpTarget])) := by
      simp only [choiceCode, choiceHead, List.append_assoc]
    have wholeToo : choiceCode test target body ending other =
        choiceHead test target body ending ++
          ([Instruction.plain .jumpTarget] ++
            (other ++ [Instruction.plain .jumpTarget])) := by
      simp only [choiceCode, List.append_assoc]
    rw [whole] at leads
    rcases leads.behind_test tests onward landing names with falls | jumps
    · rw [← List.append_assoc before (test ++ _)] at falls
      have inside := (falls.through consequence forward).1
      rw [List.append_assoc before] at inside
      exact Or.inl inside
    · rw [← whole, wholeToo, ← List.append_assoc before] at jumps
      have inside := (jumps.through landing
        (.of_jumpFree jumpFree_target)).2
      rw [← List.append_assoc _ [_], List.append_assoc before] at inside
      exact Or.inr (inside.through alternative forwardToo).1
  · rintro (through | through)
    · have starts := (tests.leads_test onward landing names).1
      have skips := jump.leads_jump last namesToo
      exact ((starts.trans through).trans skips).trans ends
    · have starts := (tests.leads_test onward landing names).2
      rw [List.append_assoc before] at through
      exact ((starts.trans enters).trans through).trans ends

end Assembly

/-! ### Blocks -/

private theorem Extent.bytes_past {start : Extent} {before : List Instruction}
    (placed : start.bytes = (Extent.ofCode before).bytes)
    (piece : List Instruction) :
    (start.past piece).bytes = (Extent.ofCode (before ++ piece)).bytes := by
  rw [Extent.past_bytes, Extent.bytes_append, placed]

/-- The address of a jump target is the number of bytes before it. -/
theorem targetWord_names {start : Extent} {before piece : List Instruction}
    {target : Word} (reached : targetWord (start.past piece) = .ok target)
    (placed : start.bytes = (Extent.ofCode before).bytes) :
    target.toNat = (Extent.ofCode (before ++ piece)).bytes := by
  rw [← Extent.bytes_past placed]
  exact Word.address_eq_ok (targetWord_eq_ok.mp reached)

private theorem Statement.passes_of_leads {environment next : Environment}
    {statement : Statement} {piece before : List Instruction}
    {code : Assembly}
    (compiled : statement.Straight environment piece next)
    (held : code.Holds before piece)
    (leads : code.Leads before (before ++ piece)) :
    statement.passes = true := by
  cases compiled with
  | evaluates compiled => rfl
  | assigns compiled => rfl
  | returns compiled =>
      obtain ⟨front, rfl, onward⟩ := returnCode_onward compiled
      exact absurd leads (held.not_leads_returning onward)

private theorem Statement.leads_of_passes {environment next : Environment}
    {statement : Statement} {piece before : List Instruction}
    {code : Assembly}
    (compiled : statement.Straight environment piece next)
    (held : code.Holds before piece) (passes : statement.passes = true) :
    code.Leads before (before ++ piece) := by
  cases compiled with
  | evaluates compiled =>
      exact held.leads_onward (Expression.evaluationCode_onward compiled)
  | assigns compiled => exact held.leads_onward (assignCode_onward compiled)
  | returns compiled => cases passes

section

variable {start : Extent} {environment final : Environment} {block : Block}
  {fragment : Fragment} {code : Assembly} {before : List Instruction}

/-- There is a path through the code of a block that can be run through. -/
theorem Block.Generates.leads_of_passes
    (generated : Block.Generates start environment block fragment final)
    (held : code.Holds before fragment.code)
    (placed : start.bytes = (Extent.ofCode before).bytes)
    (passes : Statement.passesAll block = true) :
    code.Leads before (before ++ fragment.code) := by
  induction generated generalizing before with
  | nil =>
      rw [List.append_nil]
      exact .refl
  | straight compiled rest inductionHypothesis =>
      rw [Statement.passesAll, Bool.and_eq_true] at passes
      have first := Statement.leads_of_passes compiled held.left passes.1
      have others := inductionHypothesis held.right
        (Extent.bytes_past placed _) passes.2
      rw [List.append_assoc] at others
      exact first.trans others
  | ifThen tested inner reached rest innerHypothesis restHypothesis =>
      rw [Statement.passesAll, Bool.and_eq_true] at passes
      have first := held.left.leads_branch (conditionCode_onward tested)
        (targetWord_names reached placed)
      have others := restHypothesis held.right (Extent.bytes_past placed _)
        passes.2
      rw [List.append_assoc] at others
      exact first.trans others
  | ifThenElse tested inner reached innerToo reachedToo rest innerHypothesis
      innerHypothesisToo restHypothesis =>
      rw [Statement.passesAll, Bool.and_eq_true, Statement.passes,
        Bool.or_eq_true] at passes
      have forward := inner.jumpsForward
      have forwardToo := innerToo.jumpsForward
      rw [Extent.bytes_past placed] at forward forwardToo
      have either := passes.1.imp
        (innerHypothesis held.left.left.left.left.left.right
          (Extent.bytes_past placed _))
        (innerHypothesisToo held.left.left.right
          (Extent.bytes_past placed _))
      have first := (held.left.leads_choice_iff (conditionCode_onward tested)
        (targetWord_names reached placed)
        (targetWord_names reachedToo placed) forward forwardToo).mpr either
      have others := restHypothesis held.right (Extent.bytes_past placed _)
        passes.2
      rw [List.append_assoc] at others
      exact first.trans others

/-- A block with a path through its code can be run through. -/
theorem Block.Generates.passes_of_leads
    (generated : Block.Generates start environment block fragment final)
    (held : code.Holds before fragment.code)
    (placed : start.bytes = (Extent.ofCode before).bytes)
    (leads : code.Leads before (before ++ fragment.code)) :
    Statement.passesAll block = true := by
  induction generated generalizing before with
  | nil =>
      rw [Statement.passesAll]
  | straight compiled rest inductionHypothesis =>
      obtain ⟨first, others⟩ := leads.through held.left
        (.of_jumpFree compiled.jumpFree)
      rw [← List.append_assoc] at others
      rw [Statement.passesAll, Bool.and_eq_true]
      exact ⟨Statement.passes_of_leads compiled held.left first,
        inductionHypothesis held.right (Extent.bytes_past placed _) others⟩
  | ifThen tested inner reached rest innerHypothesis restHypothesis =>
      have whole := (Block.Generates.ifThen tested inner reached
        .nil).jumpsForward
      rw [List.append_nil, placed] at whole
      obtain ⟨_, others⟩ := leads.through held.left whole
      rw [← List.append_assoc] at others
      rw [Statement.passesAll, Statement.passes, Bool.true_and]
      exact restHypothesis held.right (Extent.bytes_past placed _) others
  | ifThenElse tested inner reached innerToo reachedToo rest innerHypothesis
      innerHypothesisToo restHypothesis =>
      have whole := (Block.Generates.ifThenElse tested inner reached innerToo
        reachedToo .nil).jumpsForward
      rw [List.append_nil, placed] at whole
      obtain ⟨first, others⟩ := leads.through held.left whole
      rw [← List.append_assoc] at others
      have forward := inner.jumpsForward
      have forwardToo := innerToo.jumpsForward
      rw [Extent.bytes_past placed] at forward forwardToo
      have either := (held.left.leads_choice_iff
        (conditionCode_onward tested) (targetWord_names reached placed)
        (targetWord_names reachedToo placed) forward forwardToo).mp first
      rw [Statement.passesAll, Bool.and_eq_true, Statement.passes,
        Bool.or_eq_true]
      refine ⟨either.imp ?_ ?_, ?_⟩
      · exact innerHypothesis held.left.left.left.left.left.right
          (Extent.bytes_past placed _)
      · exact innerHypothesisToo held.left.left.right
          (Extent.bytes_past placed _)
      · exact restHypothesis held.right (Extent.bytes_past placed _) others

end

end ContractCompiler
