/-
Agreement between the values of variables and a memory.

At every point of a body the values of the variables in scope are found where
the generator of code will look for them: among the arguments of the call, or
in the part of memory that was handed out.  A new variable gets memory that no
other variable in scope uses.
-/

import ContractCompiler.Proofs.Naming
import ContractCompiler.Proofs.Values

namespace ContractCompiler

namespace Environment

variable {environment next final inside : Environment}

/-! ### Numbers of blocks -/

/-- The numbers of the open blocks fall from the inside out, names are plain,
and the parameters belong to the outermost block. -/
structure Orderly (environment : Environment) : Prop where
  falling : (environment.blocks.map Prod.fst).Pairwise (· > ·)
  entered : environment.currentBlock ≤ environment.entered
  plain : ∀ block ∈ environment.blocks, ∀ bound ∈ block.2, Plain bound.1
  parameters : ∀ name ∈ environment.parameters,
    name ∈ environment.locals.map Prod.fst

namespace Orderly

theorem lt_current (orderly : environment.Orderly) :
    ∀ block ∈ environment.blocks.tail, block.1 < environment.currentBlock := by
  intro block member
  have falling := orderly.falling
  rw [environment.blocks_eq, List.map_cons] at falling
  exact (List.pairwise_cons.mp falling).1 _ (List.mem_map_of_mem member)

private theorem le_entered (orderly : environment.Orderly) :
    ∀ block ∈ environment.blocks, block.1 ≤ environment.entered := by
  intro block member
  rw [environment.blocks_eq] at member
  rcases List.mem_cons.mp member with rfl | member
  · exact orderly.entered
  · exact Nat.le_trans (Nat.le_of_lt (orderly.lt_current block member))
      orderly.entered

theorem enter (orderly : environment.Orderly) :
    environment.enter.Orderly where
  falling := by
    refine List.pairwise_cons.mpr ⟨?_, orderly.falling⟩
    intro number member
    rcases List.mem_map.mp member with ⟨block, inside, rfl⟩
    exact Nat.lt_succ_of_le (orderly.le_entered block inside)
  entered := Nat.le_refl _
  plain := by
    intro block member bound inside
    rcases List.mem_cons.mp member with rfl | member
    · cases inside
    · exact orderly.plain block member bound inside
  parameters := orderly.parameters

theorem more (orderly : environment.Orderly) {entered : Nat}
    (memory : MemoryTable) (larger : environment.entered ≤ entered) :
    { environment with entered := entered, memory := memory }.Orderly where
  falling := orderly.falling
  entered := Nat.le_trans orderly.entered larger
  plain := orderly.plain
  parameters := orderly.parameters

theorem declare (orderly : environment.Orderly) {name : String}
    (type : ValueType) (plain : Plain name) :
    (environment.declare [(name, type)]).Orderly where
  falling := by
    have falling := orderly.falling
    rw [environment.blocks_eq] at falling
    rw [blocks_declare]
    exact falling
  entered := by
    rw [currentBlock_declare]
    exact Nat.le_trans orderly.entered
      (environment.declare_grows [(name, type)]).entered
  plain := by
    have known := orderly.plain
    rw [environment.blocks_eq] at known
    rw [blocks_declare]
    intro block member bound inside
    rcases List.mem_cons.mp member with rfl | member
    · rcases List.mem_append.mp inside with inside | inside
      · exact known _ List.mem_cons_self bound inside
      · rw [List.mem_singleton.mp inside]
        exact plain
    · exact known block (List.mem_cons_of_mem _ member) bound inside
  parameters := by
    have known := orderly.parameters
    intro name listed
    rw [parameters_declare] at listed
    unfold Environment.declare
    cases environment.frames with
    | nil =>
        rw [List.map_append]
        exact List.mem_append_left _ (known name listed)
    | cons frame rest => exact known name listed

end Orderly

/-! ### Memory that is left alone -/

/-- Between two points the memory of variables in blocks other than the
innermost one stays where it is. -/
structure Spares (environment final : Environment) : Prop where
  used : environment.memory.used ≤ final.memory.used
  entries : ∀ name number, Plain name → number ≤ environment.entered →
    number ≠ environment.currentBlock →
    final.memory.entry? (memoryId name number) =
      environment.memory.entry? (memoryId name number)

private theorem Grows.currentBlock (grown : environment.Grows final) :
    final.currentBlock = environment.currentBlock := by
  rcases grown.changed with ⟨more, changed⟩
  rw [changed, ← environment.currentBlock_declare more]
  rfl

theorem Spares.refl (environment : Environment) :
    environment.Spares environment :=
  ⟨Nat.le_refl _, fun _ _ _ _ _ => rfl⟩

theorem Spares.trans (first : environment.Spares next)
    (grown : environment.Grows next) (second : next.Spares final) :
    environment.Spares final where
  used := Nat.le_trans first.used second.used
  entries := by
    intro name number plain entered other
    rw [second.entries name number plain
        (Nat.le_trans entered grown.entered) (grown.currentBlock ▸ other),
      first.entries name number plain entered other]

private theorem Spares.leave (spared : environment.enter.Spares inside) :
    environment.Spares inside.leave where
  used := spared.used
  entries := by
    intro name number plain entered _
    exact spared.entries name number plain (Nat.le_succ_of_le entered)
      (Nat.ne_of_lt (Nat.lt_succ_of_le entered))

private theorem allocate_entry (environment : Environment)
    {name other : String} {number : Nat} (size : Nat) (plain : Plain name)
    (plainToo : Plain other)
    (different : other ≠ name ∨ number ≠ environment.currentBlock) :
    (environment.allocate name size).2.memory.entry?
        (memoryId other number) =
      environment.memory.entry? (memoryId other number) := by
  have distinct :
      (memoryId other number ==
        memoryId name environment.currentBlock) = false := by
    refine beq_false_of_ne ?_
    intro same
    rcases memoryId_injective plainToo plain same with ⟨names, numbers⟩
    rcases different with different | different
    · exact different names
    · exact different numbers
  rw [allocate_eq, MemoryTable.entry?, List.lookup_cons, distinct]
  rfl

end Environment

private theorem Statement.Straight.spares {environment next : Environment}
    {statement : Statement} {code : List Instruction}
    (compiled : statement.Straight environment code next)
    (regular : statement.Regular Plain) : environment.Spares next := by
  cases compiled with
  | evaluates compiled => exact .refl environment
  | returns compiled => exact .refl environment
  | @assigns type name value code next compiled =>
      rcases assignCode_eq_ok.mp compiled with
        ⟨_, size, defined, _, _, _, _, bound, stored, _, rfl⟩
      rcases Environment.define_eq_ok.mp bound with ⟨_, _, rfl⟩
      constructor
      · rw [Environment.used_allocate stored, environment.memory_declare]
        exact Nat.le_add_right _ _
      · intro other number plain _ different
        rw [Environment.allocate_entry _ size regular.2.1 plain,
          environment.memory_declare]
        rw [environment.currentBlock_declare]
        exact Or.inr different

/-- Generating the code of a block leaves the memory of the variables around
it alone. -/
theorem Block.Generates.spares {start : Extent}
    {environment final : Environment} {block : Block} {fragment : Fragment}
    (generated : Block.Generates start environment block fragment final)
    (regular : Statement.AllRegular Plain block) :
    environment.Spares final := by
  induction generated with
  | nil =>
      exact .refl _
  | straight compiled rest inductionHypothesis =>
      exact (compiled.spares regular.1).trans compiled.grows
        (inductionHypothesis regular.2)
  | ifThen tested inner reached rest innerHypothesis restHypothesis =>
      exact (innerHypothesis regular.1.2).leave.trans inner.grows.leave
        (restHypothesis regular.2)
  | ifThenElse tested inner reached innerToo reachedToo rest
      innerHypothesis innerHypothesisToo restHypothesis =>
      have spared := (innerHypothesis regular.1.2.1).leave.trans
        inner.grows.leave (innerHypothesisToo regular.1.2.2).leave
      exact spared.trans (inner.grows.leave.trans innerToo.grows.leave)
        (restHypothesis regular.2)

/-! ### Values of variables -/

/-- A value is found at a location: as an argument of the call, or in the
memory handed out. -/
def MemoryTable.Stores (table : MemoryTable) (call : Call) (memory : Memory)
    (value : Value) : Location → Prop
  | .parameter index =>
      ∃ word, call.arguments[index]? = some word ∧ value.words = [word] ∧
        value.bytes.length = wordSize
  | .memory id =>
      ∃ entry, table.entry? id = some entry ∧
        entry.size = value.bytes.length ∧
        entry.offset + entry.size ≤ table.used ∧
        ∀ index < entry.size,
          memory (entry.offset + index) = value.bytes.getD index 0

namespace Environment

variable {environment inside : Environment} {call : Call}
  {memory : Memory} {scopes : List (List (String × Value))}

def Binds (environment : Environment) (call : Call) (memory : Memory)
    (number : Nat) (bound : String × ValueType) (given : String × Value) :
    Prop :=
  given.1 = bound.1 ∧ given.2.type = bound.2 ∧
    environment.memory.Stores call memory given.2
      (environment.locationOf bound.1 number)

/-- The variables in scope have the values that scopes give them. -/
structure Agrees (environment : Environment) (call : Call)
    (scopes : List (List (String × Value))) (memory : Memory) : Prop where
  orderly : environment.Orderly
  bound : List.Forall₂
    (fun block scope =>
      List.Forall₂ (environment.Binds call memory block.1) block.2 scope)
    environment.blocks scopes

private theorem lookup_of_forall₂ {α : Type}
    {related : String × ValueType → String × α → Prop}
    {first : List (String × ValueType)} {second : List (String × α)}
    (named : ∀ bound given, related bound given → given.1 = bound.1)
    (paired : List.Forall₂ related first second) (name : String) :
    Option.Rel (fun type value => related (name, type) (name, value))
      (first.lookup name) (second.lookup name) := by
  induction paired with
  | nil =>
      exact .none
  | @cons bound given _ _ head tail inductionHypothesis =>
      rcases bound with ⟨boundName, type⟩
      rcases given with ⟨givenName, value⟩
      cases named _ _ head
      rw [List.lookup_cons, List.lookup_cons]
      cases same : name == boundName with
      | false => exact inductionHypothesis
      | true =>
          cases eq_of_beq same
          exact .some head

/-- Where scopes belong to the open blocks one by one, the innermost variable
with a name belongs to what the scopes hold under that name. -/
theorem findName_of_forall₂ {α : Type}
    {related : Nat → String × ValueType → String × α → Prop}
    {scopes : List (List (String × α))}
    (named : ∀ number bound given,
      related number bound given → given.1 = bound.1)
    (paired : List.Forall₂
      (fun block scope => List.Forall₂ (related block.1) block.2 scope)
      environment.blocks scopes)
    {name : String} {number : Nat} {type : ValueType}
    (found : environment.lookup? name = some (number, type)) :
    ∃ value, findName scopes name = some value ∧
      related number (name, type) (name, value) := by
  rw [lookup_eq_findSome] at found
  generalize environment.blocks = blocks at found paired
  revert found
  induction paired with
  | nil =>
      exact nofun
  | @cons block scope _ _ head tail inductionHypothesis =>
      have here := lookup_of_forall₂ (named block.1) head name
      rw [List.findSome?_cons, findName, List.findSome?_cons]
      revert here
      cases block.2.lookup name with
      | none =>
          intro here
          cases missing : scope.lookup name with
          | none => exact inductionHypothesis
          | some value =>
              rw [missing] at here
              cases here
      | some first =>
          intro here found
          cases found
          cases there : scope.lookup name with
          | none =>
              rw [there] at here
              cases here
          | some value =>
              rw [there] at here
              cases here with
              | some binds => exact ⟨value, rfl, binds⟩

/-- The value of the innermost variable with a name is found where the
variable is located. -/
theorem Agrees.lookup (agrees : environment.Agrees call scopes memory)
    {name : String} {number : Nat} {type : ValueType}
    (found : environment.lookup? name = some (number, type)) :
    ∃ value, findName scopes name = some value ∧ value.type = type ∧
      environment.memory.Stores call memory value
        (environment.locationOf name number) := by
  obtain ⟨value, seen, _, typed, stored⟩ := findName_of_forall₂
    (fun _ _ _ binds => binds.1) agrees.bound found
  exact ⟨value, seen, typed, stored⟩

/-! ### How agreement is kept -/

private theorem locationOf_cases (environment : Environment) (name : String)
    (number : Nat) :
    (∃ index, environment.locationOf name number = .parameter index) ∨
      environment.locationOf name number =
        .memory (memoryId name number) := by
  unfold locationOf
  cases environment.parameters.idxOf? name with
  | none => exact Or.inr rfl
  | some index =>
      by_cases own : number = 0
      · exact Or.inl ⟨index, if_pos own⟩
      · exact Or.inr (if_neg own)

/-- A value stays where it is when its memory is kept and nothing below the
end of the memory handed out is overwritten. -/
theorem Binds.kept {final : Environment} {later : Memory} {number : Nat}
    {bound : String × ValueType} {given : String × Value}
    (binds : environment.Binds call memory number bound given)
    (parameters : final.parameters = environment.parameters)
    (used : environment.memory.used ≤ final.memory.used)
    (entry : final.memory.entry? (memoryId bound.1 number) =
      environment.memory.entry? (memoryId bound.1 number))
    (below : ∀ address < environment.memory.used,
      later address = memory address) :
    final.Binds call later number bound given := by
  rcases binds with ⟨name, type, stored⟩
  refine ⟨name, type, ?_⟩
  have located : final.locationOf bound.1 number =
      environment.locationOf bound.1 number := by
    rw [locationOf, parameters, locationOf]
  rw [located]
  rcases environment.locationOf_cases bound.1 number with
    ⟨index, place⟩ | place
  · rw [place] at stored ⊢
    exact stored
  · rw [place] at stored ⊢
    rcases stored with ⟨range, known, size, inside, same⟩
    refine ⟨range, entry.trans known, size, Nat.le_trans inside used, ?_⟩
    intro index small
    rw [below _ (by omega)]
    exact same index small

theorem Agrees.enter (agrees : environment.Agrees call scopes memory) :
    environment.enter.Agrees call ([] :: scopes) memory where
  orderly := agrees.orderly.enter
  bound := .cons .nil agrees.bound

/-- A nested block is left: the values around it are still found. -/
theorem Agrees.leave {scope : List (String × Value)}
    (orderly : environment.Orderly)
    (grown : environment.enter.Grows inside)
    (agrees : inside.Agrees call (scope :: scopes) memory) :
    inside.leave.Agrees call scopes memory := by
  rcases grown.changed with ⟨more, changed⟩
  have bound := agrees.bound
  rw [changed] at bound
  have entered := Nat.le_trans (Nat.le_succ _) grown.entered
  rw [grown.leave_eq]
  exact ⟨orderly.more _ entered, (List.forall₂_cons.mp bound).2⟩

private theorem Agrees.boundIn (agrees : environment.Agrees call scopes memory)
    (final : Environment) (later : Memory)
    (parameters : final.parameters = environment.parameters)
    (used : environment.memory.used ≤ final.memory.used)
    (entries : ∀ block ∈ environment.blocks, ∀ bound ∈ block.2,
      final.memory.entry? (memoryId bound.1 block.1) =
        environment.memory.entry? (memoryId bound.1 block.1))
    (below : ∀ address < environment.memory.used,
      later address = memory address) :
    List.Forall₂
      (fun block scope =>
        List.Forall₂ (final.Binds call later block.1) block.2 scope)
      environment.blocks scopes := by
  have blocks := (List.forall₂_and_left _ _).mpr
    ⟨fun block member => member, agrees.bound⟩
  refine blocks.imp ?_
  rintro block scope ⟨member, paired⟩
  have variablesOf := (List.forall₂_and_left _ _).mpr
    ⟨fun bound member => member, paired⟩
  refine variablesOf.imp ?_
  rintro bound given ⟨inside, binds⟩
  exact binds.kept parameters used (entries block member bound inside) below

/-- A nested block is skipped: its memory is handed out, but the values around
it are still found. -/
theorem Agrees.skip (agrees : environment.Agrees call scopes memory)
    (grown : environment.enter.Grows inside)
    (spared : environment.enter.Spares inside) :
    inside.leave.Agrees call scopes memory := by
  have orderly := agrees.orderly
  have entered := Nat.le_trans (Nat.le_succ _) grown.entered
  rw [grown.leave_eq]
  refine ⟨orderly.more _ entered,
    agrees.boundIn _ memory rfl spared.used ?_ ?_⟩
  · intro block member bound inside
    have number := orderly.le_entered block member
    exact spared.entries bound.1 block.1
      (orderly.plain block member bound inside) (Nat.le_succ_of_le number)
      (Nat.ne_of_lt (Nat.lt_succ_of_le number))
  · intro address _
    rfl

/-- A variable that is new in the innermost block is no parameter. -/
theorem Orderly.locationOf_fresh (orderly : environment.Orderly)
    {name : String} (fresh : name ∉ environment.innermost.map Prod.fst) :
    environment.locationOf name environment.currentBlock =
      .memory (memoryId name environment.currentBlock) := by
  have nested : environment.parameters.idxOf? name ≠ none →
      environment.currentBlock ≠ 0 := by
    intro listed
    have parameter : name ∈ environment.parameters := by
      by_contra absent
      exact listed (List.idxOf?_eq_none_iff.mpr absent)
    have own := orderly.parameters name parameter
    have falling := orderly.falling
    unfold innermost at fresh
    unfold blocks at falling
    unfold currentBlock
    cases frames : environment.frames with
    | nil =>
        rw [frames] at fresh
        exact absurd own fresh
    | cons frame rest =>
        rw [frames] at falling
        have above := (List.pairwise_cons.mp falling).1 0
          (List.mem_map_of_mem (List.mem_append_right _ List.mem_cons_self))
        exact Nat.ne_of_gt above
  unfold locationOf
  cases found : environment.parameters.idxOf? name with
  | none => rfl
  | some index => exact if_neg (nested (by rw [found]; exact nofun))

/-- A new variable takes no memory from the variables in scope. -/
theorem Orderly.entries_kept (orderly : environment.Orderly)
    {name : String} (type : ValueType) (size : Nat) (plain : Plain name)
    (fresh : name ∉ environment.innermost.map Prod.fst) :
    ∀ block ∈ environment.blocks, ∀ bound ∈ block.2,
      ((environment.declare [(name, type)]).allocate name
          size).2.memory.entry? (memoryId bound.1 block.1) =
        environment.memory.entry? (memoryId bound.1 block.1) := by
  intro block member bound inside
  have plainToo := orderly.plain block member bound inside
  rw [allocate_entry _ size plain plainToo, memory_declare]
  rw [currentBlock_declare]
  rw [environment.blocks_eq] at member
  rcases List.mem_cons.mp member with rfl | member
  · refine Or.inl ?_
    rintro rfl
    exact fresh (List.mem_map_of_mem inside)
  · exact Or.inr (Nat.ne_of_lt (orderly.lt_current block member))

/-- The value of a new variable is found in the memory it was given. -/
theorem Orderly.stores_new (orderly : environment.Orderly) {name : String}
    (value : Value) (fresh : name ∉ environment.innermost.map Prod.fst)
    {storing : List Instruction}
    (stored : storeCode ((environment.declare [(name, value.type)]).allocate
      name value.bytes.length).1 = .ok storing)
    (call : Call) (memory : Memory) :
    ((environment.declare [(name, value.type)]).allocate name
        value.bytes.length).2.memory.Stores call
      (memory.store environment.memory.used value.bytes.length value.words)
      value
      (((environment.declare [(name, value.type)]).allocate name
        value.bytes.length).2.locationOf name
          environment.currentBlock) := by
  have parameters := environment.parameters_declare [(name, value.type)]
  have handed := environment.memory_declare [(name, value.type)]
  have located : ((environment.declare [(name, value.type)]).allocate name
      value.bytes.length).2.locationOf name environment.currentBlock =
        .memory (memoryId name environment.currentBlock) := by
    rw [← orderly.locationOf_fresh fresh, locationOf, locationOf,
      ← parameters]
    rfl
  rw [located]
  refine ⟨⟨environment.memory.used, value.bytes.length⟩, ?_, rfl, ?_, ?_⟩
  · rw [allocate_eq, MemoryTable.entry?, currentBlock_declare,
      List.lookup_cons, beq_self_eq_true, handed]
  · rw [used_allocate stored, handed]
  · intro index small
    exact memory.store_words value small

/-- A new variable is given the memory behind the one in use. -/
theorem Agrees.assign (agrees : environment.Agrees call scopes memory)
    {name : String} (value : Value) (plain : Plain name)
    (fresh : name ∉ environment.innermost.map Prod.fst)
    {storing : List Instruction}
    (stored : storeCode ((environment.declare [(name, value.type)]).allocate
      name value.bytes.length).1 = .ok storing) :
    ((environment.declare [(name, value.type)]).allocate name
        value.bytes.length).2.Agrees call (bindName scopes name value)
      (memory.store environment.memory.used value.bytes.length
        value.words) := by
  have orderly := agrees.orderly
  have handed := environment.memory_declare [(name, value.type)]
  -- The other variables are found where they were: nothing below the memory
  -- in use is written, and no entry of theirs is replaced.
  have kept := agrees.boundIn
    ((environment.declare [(name, value.type)]).allocate name
      value.bytes.length).2
    (memory.store environment.memory.used value.bytes.length value.words)
    (environment.parameters_declare [(name, value.type)])
    (by rw [used_allocate stored, handed]; exact Nat.le_add_right _ _)
    (orderly.entries_kept value.type value.bytes.length plain fresh)
    (fun address below => memory.store_below below)
  refine ⟨(orderly.declare value.type plain).more _ (Nat.le_refl _), ?_⟩
  rw [environment.blocks_eq] at kept
  cases kept with
  | @cons _ scope _ outer inner others =>
      change List.Forall₂ _ (environment.declare _).blocks _
      rw [environment.blocks_declare [(name, value.type)]]
      have added := orderly.stores_new value fresh stored call memory
      exact .cons (List.rel_append inner (.cons ⟨rfl, rfl, added⟩ .nil))
        others

end Environment

end ContractCompiler
