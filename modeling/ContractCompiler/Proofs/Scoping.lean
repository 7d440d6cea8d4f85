/-
The scopes of a body and how they change.

The open blocks at a point of a body are scopes, the innermost first; the last
one holds the parameters and the variables of the body's own block.  Generating
code for a block adds variables to the innermost scope only, and leaves the
scopes as they were once the block is left.
-/

import Mathlib.Data.List.Infix
import ContractCompiler.Proofs.CodeConditions
import ContractCompiler.Proofs.Declaring

namespace ContractCompiler

/-- What a name stands for: the innermost scope that binds it decides. -/
def findName {α : Type} (scopes : List (List (String × α)))
    (name : String) : Option α :=
  scopes.findSome? (List.lookup name)

namespace Environment

variable {environment next final : Environment} {name : String}
  {type : ValueType}

def blocks (environment : Environment) :
    List (Nat × List (String × ValueType)) :=
  environment.frames.map (fun frame => (frame.block, frame.locals)) ++
    [(0, environment.locals)]

def scopes (environment : Environment) : List (List (String × ValueType)) :=
  environment.blocks.map Prod.snd

def locationOf (environment : Environment) (name : String) (block : Nat) :
    Location :=
  match environment.parameters.idxOf? name with
  | some index =>
      if block = 0 then .parameter index else .memory (memoryId name block)
  | none => .memory (memoryId name block)

/-! ### Looking names up -/

theorem lookup_eq_findSome (environment : Environment) (name : String) :
    environment.lookup? name =
      environment.blocks.findSome? fun block =>
        (block.2.lookup name).map fun type => (block.1, type) := by
  have framed : ∀ frames : List Frame, lookupFrames name frames =
      (frames.map fun frame => (frame.block, frame.locals)).findSome?
        fun block => (block.2.lookup name).map fun type =>
          (block.1, type) := by
    intro frames
    induction frames with
    | nil =>
        rfl
    | cons frame rest inductionHypothesis =>
        rw [lookupFrames, inductionHypothesis, List.map_cons,
          List.findSome?_cons]
        cases frame.locals.lookup name <;> rfl
  rw [lookup?, framed, blocks, List.findSome?_append]
  cases List.findSome? _ _ with
  | none =>
      simp only [Option.none_or, List.findSome?_cons, List.findSome?_nil]
      cases environment.locals.lookup name <;> rfl
  | some found =>
      rfl

theorem findName_scopes (environment : Environment) (name : String) :
    findName environment.scopes name =
      (environment.lookup? name).map Prod.snd := by
  rw [lookup_eq_findSome, findName, scopes, List.findSome?_map]
  induction environment.blocks with
  | nil =>
      rfl
  | cons block rest inductionHypothesis =>
      simp only [List.findSome?_cons, Function.comp_apply]
      cases block.2.lookup name with
      | none => exact inductionHypothesis
      | some found => rfl

theorem binding_eq_ok {location : Location} :
    environment.binding name = .ok (type, location) ↔
      ∃ block, environment.lookup? name = some (block, type) ∧
        location = environment.locationOf name block := by
  unfold binding locationOf
  cases environment.lookup? name with
  | none =>
      simp only [reduceCtorEq, false_and, exists_false, iff_false]
      split <;> exact nofun
  | some found =>
      rcases found with ⟨block, found⟩
      cases environment.parameters.idxOf? name with
      | none =>
          simp only [Except.ok.injEq, Prod.mk.injEq, Option.some.injEq]
          constructor
          · rintro ⟨rfl, rfl⟩
            exact ⟨block, ⟨rfl, rfl⟩, rfl⟩
          · rintro ⟨_, ⟨rfl, rfl⟩, rfl⟩
            exact ⟨rfl, rfl⟩
      | some index =>
          simp only [Option.some.injEq, Prod.mk.injEq]
          constructor
          · intro bound
            split at bound
            · next own =>
                cases bound
                exact ⟨block, ⟨rfl, rfl⟩, (if_pos own).symm⟩
            · next nested =>
                cases bound
                exact ⟨block, ⟨rfl, rfl⟩, (if_neg nested).symm⟩
          · rintro ⟨_, ⟨rfl, rfl⟩, rfl⟩
            split <;> rfl

/-! ### Binding names -/

def innermost (environment : Environment) : List (String × ValueType) :=
  match environment.frames with
  | [] => environment.locals
  | frame :: _ => frame.locals

def around (environment : Environment) :
    List (List (String × ValueType)) :=
  environment.scopes.tail

def declare (environment : Environment)
    (more : List (String × ValueType)) : Environment :=
  match environment.frames with
  | [] => { environment with locals := environment.locals ++ more }
  | frame :: rest =>
      { environment with
        frames := { frame with locals := frame.locals ++ more } :: rest }

theorem scopes_eq (environment : Environment) :
    environment.scopes = environment.innermost :: environment.around := by
  unfold around scopes blocks innermost
  cases environment.frames <;> rfl

theorem scopes_declare (environment : Environment)
    (more : List (String × ValueType)) :
    (environment.declare more).scopes =
      (environment.innermost ++ more) :: environment.around := by
  unfold around scopes blocks innermost declare
  cases environment.frames <;> rfl

theorem blocks_eq (environment : Environment) :
    environment.blocks =
      (environment.currentBlock, environment.innermost) ::
        environment.blocks.tail := by
  unfold blocks innermost currentBlock
  cases environment.frames <;> rfl

theorem blocks_declare (environment : Environment)
    (more : List (String × ValueType)) :
    (environment.declare more).blocks =
      (environment.currentBlock, environment.innermost ++ more) ::
        environment.blocks.tail := by
  unfold blocks innermost declare currentBlock
  cases environment.frames <;> rfl

theorem currentBlock_declare (environment : Environment)
    (more : List (String × ValueType)) :
    (environment.declare more).currentBlock = environment.currentBlock := by
  unfold declare currentBlock
  cases environment.frames <;> rfl

theorem parameters_declare (environment : Environment)
    (more : List (String × ValueType)) :
    (environment.declare more).parameters = environment.parameters := by
  unfold declare
  cases environment.frames <;> rfl

theorem memory_declare (environment : Environment)
    (more : List (String × ValueType)) :
    (environment.declare more).memory = environment.memory := by
  unfold declare
  cases environment.frames <;> rfl

theorem declare_nil (environment : Environment) :
    environment.declare [] = environment := by
  rcases environment with ⟨_, _, _, _, frames, _, _⟩
  cases frames with
  | nil =>
      simp only [declare, List.append_nil]
  | cons frame rest =>
      rcases frame with ⟨_, _⟩
      simp only [declare, List.append_nil]

private theorem declare_declare (environment : Environment)
    (first second : List (String × ValueType)) :
    (environment.declare first).declare second =
      environment.declare (first ++ second) := by
  rcases environment with ⟨_, _, _, _, frames, _, _⟩
  cases frames with
  | nil => simp only [declare, List.append_assoc]
  | cons frame rest => simp only [declare, List.append_assoc]

theorem define_eq_ok :
    environment.define name type = .ok next ↔
      type ≠ .void ∧ name ∉ environment.innermost.map Prod.fst ∧
        next = environment.declare [(name, type)] := by
  have isSome_iff : ∀ names : List (String × ValueType),
      (names.lookup name).isSome = true ↔ name ∈ names.map Prod.fst := by
    intro names
    rw [← not_iff_not, Bool.not_eq_true, Option.isSome_eq_false_iff,
      Option.isNone_iff_eq_none]
    exact lookup_eq_none_iff_not_mem
  by_cases proper : type = .void
  · subst proper
    constructor
    · intro defined
      cases defined
    · intro given
      exact absurd rfl given.1
  · rcases Symbol.ofType_eq_ok name proper with ⟨symbol, made, _⟩
    unfold define innermost declare
    simp only [made]
    cases environment.frames with
    | nil =>
        simp only [isSome_iff]
        split
        · next taken =>
            constructor
            · intro defined
              cases defined
            · intro given
              exact absurd taken given.2.1
        · next free =>
            simp only [Except.ok.injEq, ne_eq, proper, not_false_eq_true,
              free, true_and]
            exact eq_comm
    | cons frame rest =>
        simp only [isSome_iff]
        split
        · next taken =>
            constructor
            · intro defined
              cases defined
            · intro given
              exact absurd taken given.2.1
        · next free =>
            simp only [Except.ok.injEq, ne_eq, proper, not_false_eq_true,
              free, true_and]
            exact eq_comm

/-! ### Growing -/

/-- An environment has more variables in the innermost open block, and more
memory handed out, than another one; nothing else is different. -/
structure Grows (environment final : Environment) : Prop where
  changed : ∃ more, final =
    { environment.declare more with
      entered := final.entered
      memory := final.memory }
  entered : environment.entered ≤ final.entered
  memory : environment.memory.entries <:+ final.memory.entries

theorem Grows.refl (environment : Environment) :
    environment.Grows environment where
  changed := ⟨[], by rw [declare_nil]⟩
  entered := Nat.le_refl _
  memory := List.suffix_rfl

private theorem declare_with (environment : Environment)
    (more : List (String × ValueType)) (entered : Nat) (memory : MemoryTable) :
    { environment with entered := entered, memory := memory }.declare more =
      { environment.declare more with
        entered := entered
        memory := memory } := by
  rcases environment with ⟨_, _, _, _, frames, _, _⟩
  cases frames <;> rfl

theorem Grows.trans (first : environment.Grows next)
    (second : next.Grows final) : environment.Grows final where
  changed := by
    rcases first.changed with ⟨more, changed⟩
    rcases second.changed with ⟨others, changedToo⟩
    refine ⟨more ++ others, ?_⟩
    rw [changed, declare_with, declare_declare] at changedToo
    exact changedToo
  entered := Nat.le_trans first.entered second.entered
  memory := first.memory.trans second.memory

/-- Once a nested block is left, only the counter and the memory differ. -/
theorem Grows.leave_eq {inside : Environment}
    (grown : environment.enter.Grows inside) :
    inside.leave =
      { environment with
        entered := inside.entered
        memory := inside.memory } := by
  rcases grown.changed with ⟨more, changed⟩
  rw [changed]
  rfl

theorem Grows.leave {inside : Environment}
    (grown : environment.enter.Grows inside) :
    environment.Grows inside.leave where
  changed := by
    refine ⟨[], ?_⟩
    rw [grown.leave_eq, declare_nil]
  entered := Nat.le_trans (Nat.le_succ _) grown.entered
  memory := grown.memory

theorem Grows.scopes_leave {inside : Environment}
    (grown : environment.enter.Grows inside) :
    inside.leave.scopes = environment.scopes := by
  rw [grown.leave_eq]
  rfl

theorem Grows.returnType (grown : environment.Grows final) :
    final.returnType = environment.returnType := by
  rcases grown.changed with ⟨more, changed⟩
  rw [changed]
  unfold declare
  cases environment.frames <;> rfl

/-- A new variable with its memory. -/
theorem allocate_eq (environment : Environment) (name : String)
    (size : Nat) :
    environment.allocate name size =
      (⟨environment.memory.used, size⟩,
        { environment with
          memory :=
            ⟨(memoryId name environment.currentBlock,
                ⟨environment.memory.used, size⟩) ::
              environment.memory.entries,
              (environment.memory.used + size) %
                MemoryTable.counterRange⟩ }) := rfl

theorem used_allocate {name : String} {size : Nat}
    {storing : List Instruction}
    (stored : storeCode (environment.allocate name size).1 = .ok storing) :
    (environment.allocate name size).2.memory.used =
      environment.memory.used + size :=
  Nat.mod_eq_of_lt (room_of_storeCode stored)

theorem declare_grows (environment : Environment)
    (more : List (String × ValueType)) :
    environment.Grows (environment.declare more) where
  changed := ⟨more, rfl⟩
  entered := by
    unfold declare
    cases environment.frames <;> exact Nat.le_refl _
  memory := by
    unfold declare
    cases environment.frames <;> exact List.suffix_rfl

theorem allocate_grows (environment : Environment) (name : String)
    (size : Nat) :
    environment.Grows (environment.allocate name size).2 where
  changed := ⟨[], by rw [declare_nil]; rfl⟩
  entered := Nat.le_refl _
  memory := List.suffix_cons _ _

end Environment

theorem Statement.Straight.grows {environment next : Environment}
    {statement : Statement} {code : List Instruction}
    (compiled : statement.Straight environment code next) :
    environment.Grows next := by
  cases compiled with
  | evaluates compiled => exact .refl environment
  | returns compiled => exact .refl environment
  | @assigns type name value code next compiled =>
      rcases assignCode_eq_ok.mp compiled with
        ⟨_, size, defined, _, _, _, _, bound, _, _, rfl⟩
      rcases Environment.define_eq_ok.mp bound with ⟨_, _, rfl⟩
      exact (environment.declare_grows _).trans
        (Environment.allocate_grows _ name size)

/-- Generating the code of a block adds variables to the innermost open block
only. -/
theorem Block.Generates.grows {start : Extent}
    {environment final : Environment} {block : Block} {fragment : Fragment}
    (generated : Block.Generates start environment block fragment final) :
    environment.Grows final := by
  induction generated with
  | nil =>
      exact .refl _
  | straight compiled rest inductionHypothesis =>
      exact compiled.grows.trans inductionHypothesis
  | ifThen tested inner reached rest innerHypothesis restHypothesis =>
      exact innerHypothesis.leave.trans restHypothesis
  | ifThenElse tested inner reached innerToo reachedToo rest
      innerHypothesis innerHypothesisToo restHypothesis =>
      exact (innerHypothesis.leave.trans innerHypothesisToo.leave).trans
        restHypothesis

end ContractCompiler
