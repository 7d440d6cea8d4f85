/-
Code does not depend on names.

The environments behind a contract and behind the same contract with other
names have the same shape: what is bound under a name in one is bound under its
new name in the other, and memory that goes under a name and a block goes under
the new name and that block.  So both contracts have the same code, and errors
differ in the names that they hold.
-/

import ContractCompiler.Proofs.Correspondence
import ContractCompiler.Proofs.DeclarationFailures
import ContractCompiler.Proofs.Outcomes

namespace ContractCompiler

/-! ### Environments with other names -/

def renameEntries {α : Type} (change : String → String)
    (entries : List (String × α)) : List (String × α) :=
  entries.map fun entry => (change entry.1, entry.2)

def Frame.rename (naming : String → String) (frame : Frame) : Frame :=
  { frame with locals := renameEntries naming frame.locals }

def Environment.rename (naming : String → String)
    (environment : Environment) : Environment :=
  { environment with
    parameters := environment.parameters.map naming
    outside := environment.outside.map naming
    locals := renameEntries naming environment.locals
    frames := environment.frames.map (Frame.rename naming)
    memory :=
      { environment.memory with
        entries :=
          renameEntries (renameId naming) environment.memory.entries } }

structure Environment.NamesOnly (named : String → Prop)
    (environment : Environment) : Prop where
  parameters : ∀ name ∈ environment.parameters, named name
  outside : ∀ name ∈ environment.outside, named name
  locals : ∀ entry ∈ environment.locals, named entry.1
  frames : ∀ frame ∈ environment.frames, ∀ entry ∈ frame.locals,
    named entry.1
  memory : ∀ entry ∈ environment.memory.entries, ∃ name block,
    named name ∧ entry.1 = memoryId name block

namespace Faithful

variable {named : String → Prop} {naming : String → String}
  {environment : Environment} {name : String}

private theorem lookup_locals (faithful : Faithful named naming)
    {locals : List (String × ValueType)}
    (known : ∀ entry ∈ locals, named entry.1) (own : named name) :
    (renameEntries naming locals).lookup (naming name) =
      locals.lookup name := by
  apply lookup_map
  intro entry member
  exact faithful.injective name entry.1 own (known entry member)

private theorem lookupFrames_rename (faithful : Faithful named naming)
    {frames : List Frame}
    (known : ∀ frame ∈ frames, ∀ entry ∈ frame.locals, named entry.1)
    (own : named name) :
    Environment.lookupFrames (naming name)
        (frames.map (Frame.rename naming)) =
      Environment.lookupFrames name frames := by
  induction frames with
  | nil =>
      rfl
  | cons frame rest inductionHypothesis =>
      have here := faithful.lookup_locals
        (known frame List.mem_cons_self) own
      have around := inductionHypothesis fun other member =>
        known other (List.mem_cons_of_mem frame member)
      rw [List.map_cons, Environment.lookupFrames,
        Environment.lookupFrames, around]
      rw [Frame.rename]
      simp only [here]

private theorem lookup_rename (faithful : Faithful named naming)
    (known : environment.NamesOnly named) (own : named name) :
    (environment.rename naming).lookup? (naming name) =
      environment.lookup? name := by
  rw [Environment.lookup?, Environment.lookup?, Environment.rename]
  simp only
  rw [faithful.lookupFrames_rename known.frames own,
    faithful.lookup_locals known.locals own]

/-- A name stands for the same variable as before. -/
theorem binding_rename (faithful : Faithful named naming)
    (known : environment.NamesOnly named) (own : named name) :
    (∃ error, environment.binding name = .error error ∧
      (environment.rename naming).binding (naming name) =
        .error (error.rename naming)) ∨
    (∃ type index,
      environment.binding name = .ok (type, .parameter index) ∧
      (environment.rename naming).binding (naming name) =
        .ok (type, .parameter index)) ∨
    ∃ type block,
      environment.binding name =
        .ok (type, .memory (memoryId name block)) ∧
      (environment.rename naming).binding (naming name) =
        .ok (type, .memory (memoryId (naming name) block)) := by
  have outside : (environment.rename naming).outside.contains
      (naming name) = environment.outside.contains name :=
    faithful.contains_map known.outside own
  have parameters : (environment.rename naming).parameters.idxOf?
      (naming name) = environment.parameters.idxOf? name :=
    faithful.idxOf_map known.parameters own
  unfold Environment.binding
  rw [faithful.lookup_rename known own, outside, parameters]
  cases environment.lookup? name with
  | none =>
      left
      by_cases function : environment.outside.contains name = true
      · simp only [function, if_true]
        exact ⟨_, rfl, rfl⟩
      · simp only [function]
        exact ⟨_, rfl, rfl⟩
  | some found =>
      right
      cases environment.parameters.idxOf? name with
      | none =>
          right
          exact ⟨_, _, rfl, rfl⟩
      | some index =>
          by_cases outermost : found.1 = 0
          · left
            simp only [outermost, if_true]
            exact ⟨_, _, rfl, rfl⟩
          · right
            simp only [outermost, if_false]
            exact ⟨_, _, rfl, rfl⟩

private theorem entry_rename (faithful : Faithful named naming)
    (known : environment.NamesOnly named) (own : named name) (block : Nat) :
    (environment.rename naming).entry (memoryId (naming name) block) =
      (environment.entry (memoryId name block)).mapError
        (CodeError.rename naming) := by
  have spelled := renameId_memoryId naming (faithful.plain name own) block
  have found : (environment.rename naming).memory.entry?
      (memoryId (naming name) block) =
      environment.memory.entry? (memoryId name block) := by
    rw [← spelled]
    apply lookup_map
    intro entry member same
    obtain ⟨other, place, otherNamed, held⟩ := known.memory entry member
    rw [held] at same ⊢
    exact faithful.renameId_injective own otherNamed same
  rw [Environment.entry, Environment.entry, MemoryTable.entry,
    MemoryTable.entry, found]
  cases environment.memory.entry? (memoryId name block) with
  | some entry => rfl
  | none =>
      simp only [Except.mapError, CodeError.rename, spelled]

end Faithful

/-! ### Variables with other names -/

namespace Environment

variable {named : String → Prop} {naming : String → String}
  {environment : Environment} {name : String}

private theorem NamesOnly.enter (known : environment.NamesOnly named) :
    environment.enter.NamesOnly named where
  parameters := known.parameters
  outside := known.outside
  locals := known.locals
  frames := by
    intro frame member entry inside
    rcases List.mem_cons.mp member with rfl | member
    · cases inside
    · exact known.frames frame member entry inside
  memory := known.memory

private theorem NamesOnly.leave (known : environment.NamesOnly named) :
    environment.leave.NamesOnly named where
  parameters := known.parameters
  outside := known.outside
  locals := known.locals
  frames := by
    intro frame member
    exact known.frames frame (List.mem_of_mem_tail member)
  memory := known.memory

private theorem NamesOnly.allocate (known : environment.NamesOnly named)
    (own : named name) (size : Nat) :
    (environment.allocate name size).2.NamesOnly named where
  parameters := known.parameters
  outside := known.outside
  locals := known.locals
  frames := known.frames
  memory := by
    intro entry member
    rcases List.mem_cons.mp member with rfl | member
    · exact ⟨name, environment.currentBlock, own, rfl⟩
    · exact known.memory entry member

private theorem enter_rename :
    (environment.rename naming).enter =
      environment.enter.rename naming :=
  rfl

private theorem leave_rename :
    (environment.rename naming).leave =
      environment.leave.rename naming := by
  simp only [leave, rename, List.map_tail]

private theorem currentBlock_rename :
    (environment.rename naming).currentBlock =
      environment.currentBlock := by
  unfold currentBlock rename
  cases environment.frames <;> rfl

private theorem allocate_rename (environment : Environment)
    (naming : String → String) (plain : Plain name) (size : Nat) :
    (environment.rename naming).allocate (naming name) size =
      ((environment.allocate name size).1,
        (environment.allocate name size).2.rename naming) := by
  have spelled :=
    renameId_memoryId naming plain environment.currentBlock
  unfold allocate
  rw [currentBlock_rename, ← spelled]
  rfl

/-- A variable is bound under its new name, or it is not bound for the same
reason. -/
theorem define_rename (faithful : Faithful named naming)
    (known : environment.NamesOnly named) (own : named name)
    (type : ValueType) :
    (∃ error, environment.define name type = .error error ∧
      (environment.rename naming).define (naming name) type =
        .error (error.rename naming)) ∨
    ∃ next, environment.define name type = .ok next ∧
      (environment.rename naming).define (naming name) type =
        .ok (next.rename naming) ∧ next.NamesOnly named := by
  by_cases void : type = .void
  · left
    subst void
    exact ⟨_, rfl, rfl⟩
  have symbol : ∀ name, ∃ symbol, Symbol.ofType type name = .ok symbol := by
    intro name
    cases type with
    | void => exact absurd rfl void
    | _ => exact ⟨_, rfl⟩
  obtain ⟨here, made⟩ := symbol name
  obtain ⟨there, madeThere⟩ := symbol (naming name)
  have added : ∀ locals : List (String × ValueType),
      (∀ entry ∈ locals, named entry.1) →
      ∀ entry ∈ locals ++ [(name, type)], named entry.1 := by
    intro locals names entry member
    rcases List.mem_append.mp member with older | newest
    · exact names entry older
    · rw [List.mem_singleton.mp newest]
      exact own
  unfold define
  rw [made, madeThere]
  simp only
  cases frames : environment.frames with
  | nil =>
      have found := faithful.lookup_locals known.locals own
      simp only [rename, frames, List.map_nil, found]
      by_cases taken : (environment.locals.lookup name).isSome = true
      · left
        simp only [taken, if_true]
        exact ⟨_, rfl, rfl⟩
      · right
        simp only [taken]
        refine ⟨_, rfl, ?_, ⟨known.parameters, known.outside,
          added _ known.locals, ?_, known.memory⟩⟩
        · simp [renameEntries]
        · intro frame member
          cases member
  | cons frame rest =>
      have inside : ∀ entry ∈ frame.locals, named entry.1 := by
        apply known.frames
        rw [frames]
        exact List.mem_cons_self
      have found := faithful.lookup_locals inside own
      simp only [rename, frames, List.map_cons, Frame.rename, found]
      by_cases taken : (frame.locals.lookup name).isSome = true
      · left
        simp only [taken, if_true]
        exact ⟨_, rfl, rfl⟩
      · right
        simp only [taken]
        refine ⟨_, rfl, ?_, ⟨known.parameters, known.outside,
          known.locals, ?_, known.memory⟩⟩
        · simp [renameEntries, Frame.rename]
        · intro other member
          rcases List.mem_cons.mp member with rfl | member
          · exact added _ inside
          · apply known.frames
            rw [frames]
            exact List.mem_cons_of_mem frame member

end Environment

/-! ### Statements -/

def Generated.Renames {α : Type} (named : String → Prop)
    (naming : String → String) (first second : Generated α) : Prop :=
  ∃ outcome next, first = (outcome, next) ∧
    second = (outcome.mapError (CodeError.rename naming),
      next.rename naming) ∧ next.NamesOnly named

namespace Faithful

variable {named : String → Prop} {naming : String → String}

private theorem finds (faithful : Faithful named naming)
    {environment : Environment} (known : environment.NamesOnly named)
    {name : String} (own : named name) :
    Environment.Finds (CodeError.rename naming) environment
      (environment.rename naming) (environment.binding name)
      ((environment.rename naming).binding (naming name)) := by
  rcases faithful.binding_rename known own with
    ⟨error, here, there⟩ | ⟨type, index, here, there⟩ |
    ⟨type, block, here, there⟩
  · rw [here, there]
    exact .nothing error
  · rw [here, there]
    exact .bound (.parameter index)
  · rw [here, there]
    exact .bound (.memory (faithful.entry_rename known own block))

/-- An environment answers as it did when its names are others. -/
theorem correspondence (faithful : Faithful named naming) :
    Correspondence named naming (CodeError.rename naming)
      fun environment renamed =>
        environment.NamesOnly named ∧
          renamed = environment.rename naming where
  nameless :=
    ⟨fun _ _ => rfl, fun _ _ => rfl, fun _ => rfl, fun _ => rfl⟩
  returnType := by
    rintro environment _ ⟨_, rfl⟩
    rfl
  binding := by
    rintro environment _ name ⟨known, rfl⟩ own
    exact faithful.finds known own
  enter := by
    rintro environment _ ⟨known, rfl⟩
    exact ⟨known.enter, Environment.enter_rename⟩
  leave := by
    rintro environment _ ⟨known, rfl⟩
    exact ⟨known.leave, Environment.leave_rename⟩
  define := by
    rintro environment _ name ⟨known, rfl⟩ own type
    rcases environment.define_rename faithful known own type with
      ⟨error, here, there⟩ | ⟨next, here, there, knownNext⟩
    · exact Or.inl ⟨error, here, there⟩
    · exact Or.inr ⟨next, _, here, there, knownNext, rfl⟩
  allocate := by
    rintro environment _ name ⟨known, rfl⟩ own size
    rw [environment.allocate_rename naming (faithful.plain name own) size]
    exact ⟨rfl, known.allocate own size, rfl⟩

end Faithful

/-- The code of a block is the same under other names. -/
theorem Statement.codeAll_renames {named : String → Prop}
    {naming : String → String} (faithful : Faithful named naming)
    (block : Block) (start : Extent) {environment : Environment}
    (known : environment.NamesOnly named)
    (own : ∀ name ∈ Statement.namesAll block, named name) :
    Generated.Renames named naming
      (Statement.codeAll start environment block)
      (Statement.codeAll start (environment.rename naming)
        (Statement.renameAll naming block)) := by
  obtain ⟨outcome, next, _, here, there, knownNext, rfl⟩ :=
    faithful.correspondence.block_code block own start ⟨known, rfl⟩
  exact ⟨outcome, next, here, there, knownNext⟩

end ContractCompiler
