/-
What is well typed has code.

A variable that is no parameter has memory from the moment it is bound, so the
memory of every variable in scope is found.  Then nothing but the size of an
address can keep a well-typed block from having code.
-/

import ContractCompiler.Proofs.TypeChecking

namespace ContractCompiler

def Accepted {α : Type} (outcome : Except CodeError α) : Prop :=
  (∃ value, outcome = .ok value) ∨
    ∃ address, outcome = .error (.assembly (.addressOverflow address))

namespace Accepted

variable {α β : Type} {outcome : Except CodeError α}

private theorem ok (value : α) : Accepted (.ok value) :=
  Or.inl ⟨value, rfl⟩

private theorem of_error {error : CodeError} (accepted : Accepted outcome)
    (failed : outcome = .error error) :
    Accepted (.error error : Except CodeError β) := by
  rw [failed] at accepted
  rcases accepted with ⟨value, impossible⟩ | ⟨address, same⟩
  · cases impossible
  · cases same
    exact Or.inr ⟨address, rfl⟩

private theorem bind (accepted : Accepted outcome)
    {next : α → Except CodeError β}
    (follows : ∀ value, outcome = .ok value → Accepted (next value)) :
    Accepted (outcome >>= next) := by
  rcases accepted with ⟨value, rfl⟩ | ⟨address, rfl⟩
  · exact follows value rfl
  · exact Or.inr ⟨address, rfl⟩

private theorem after {value : α} (found : outcome = .ok value)
    {next : α → Except CodeError β} (accepted : Accepted (next value)) :
    Accepted (outcome >>= next) := by
  rw [found]
  exact accepted

private theorem pushAddress (value : Nat) :
    Accepted (ContractCompiler.pushAddress value) := by
  unfold ContractCompiler.pushAddress
  cases fits : Word.address value with
  | ok word => exact .ok _
  | error error =>
      rw [Word.address_error fits]
      exact Or.inr ⟨value, rfl⟩

private theorem targetWord (target : Extent) :
    Accepted (ContractCompiler.targetWord target) := by
  unfold ContractCompiler.targetWord
  cases fits : Word.address target.bytes with
  | ok word => exact .ok _
  | error error =>
      rw [Word.address_error fits]
      exact Or.inr ⟨_, rfl⟩

private theorem requireType {expected found : ValueType}
    (same : expected = found) :
    Accepted (ContractCompiler.requireType expected found) := by
  rw [requireType_eq_ok.mpr same]
  exact .ok ⟨⟩

end Accepted

/-! ### Memory of variables -/

namespace Environment

variable {environment next final : Environment}

def Recorded (environment : Environment) : Prop :=
  ∀ block ∈ environment.blocks, ∀ entry ∈ block.2,
    (block.1 = 0 ∧ entry.1 ∈ environment.parameters) ∨
      ∃ range, environment.memory.entry? (memoryId entry.1 block.1) =
        some range

private theorem mem_blocks_of_lookup {name : String} {block : Nat}
    {type : ValueType}
    (found : environment.lookup? name = some (block, type)) :
    ∃ scope, (block, scope) ∈ environment.blocks ∧ (name, type) ∈ scope := by
  rw [lookup_eq_findSome] at found
  rcases List.exists_of_findSome?_eq_some found with
    ⟨⟨number, scope⟩, member, here⟩
  rcases Option.map_eq_some_iff.mp here with ⟨_, bound, same⟩
  cases same
  exact ⟨scope, member, mem_of_lookup bound⟩

/-- The variable of a name has a parameter's index or memory. -/
theorem Recorded.locationOf (recorded : environment.Recorded) {name : String}
    {block : Nat} {type : ValueType}
    (found : environment.lookup? name = some (block, type)) :
    (∃ index, environment.locationOf name block = .parameter index) ∨
      ∃ id range, environment.locationOf name block = .memory id ∧
        environment.memory.entry? id = some range := by
  rcases mem_blocks_of_lookup found with ⟨scope, inside, member⟩
  unfold Environment.locationOf
  cases indexed : environment.parameters.idxOf? name with
  | none =>
      have absent : name ∉ environment.parameters :=
        List.idxOf?_eq_none_iff.mp indexed
      rcases recorded _ inside _ member with ⟨_, listed⟩ | ⟨range, known⟩
      · exact absurd listed absent
      · exact Or.inr ⟨_, range, rfl, known⟩
  | some index =>
      by_cases own : block = 0
      · exact Or.inl ⟨index, if_pos own⟩
      · rcases recorded _ inside _ member with ⟨zero, _⟩ | ⟨range, known⟩
        · exact absurd zero own
        · exact Or.inr ⟨_, range, if_neg own, known⟩

private theorem entry_of_suffix {memory larger : MemoryTable} {id : String}
    {range : MemoryEntry} (suffix : memory.entries <:+ larger.entries)
    (known : memory.entry? id = some range) :
    ∃ other, larger.entry? id = some other := by
  rcases suffix with ⟨newer, same⟩
  unfold MemoryTable.entry? at known ⊢
  rw [← same, List.lookup_append, known]
  cases newer.lookup id with
  | none => exact ⟨range, rfl⟩
  | some other => exact ⟨other, rfl⟩

private theorem Recorded.enter (recorded : environment.Recorded) :
    environment.enter.Recorded := by
  intro block member entry inside
  rcases List.mem_cons.mp member with rfl | member
  · cases inside
  · exact recorded block member entry inside

/-- More memory keeps what is known. -/
theorem Recorded.more (recorded : environment.Recorded) (entered : Nat)
    {memory : MemoryTable}
    (suffix : environment.memory.entries <:+ memory.entries) :
    { environment with entered := entered, memory := memory }.Recorded := by
  intro block member entry inside
  rcases recorded block member entry inside with own | ⟨range, known⟩
  · exact Or.inl own
  · exact Or.inr (entry_of_suffix suffix known)

private theorem Recorded.leave {inside : Environment}
    (recorded : environment.Recorded)
    (grown : environment.enter.Grows inside) : inside.leave.Recorded := by
  rw [grown.leave_eq]
  exact recorded.more _ grown.memory

/-- A new variable with its memory. -/
theorem Recorded.allocate (recorded : environment.Recorded) (name : String)
    (type : ValueType) (size : Nat) :
    ((environment.declare [(name, type)]).allocate name size).2.Recorded := by
  have grown : environment.memory.entries <:+
      ((environment.declare [(name, type)]).allocate name
        size).2.memory.entries := by
    rw [← environment.memory_declare [(name, type)]]
    exact (allocate_grows _ name size).memory
  intro block member entry inside
  change block ∈ (environment.declare [(name, type)]).blocks at member
  have kept : ∀ block ∈ environment.blocks, ∀ entry ∈ block.2,
      (block.1 = 0 ∧ entry.1 ∈ (environment.declare
        [(name, type)]).parameters) ∨
        ∃ range, ((environment.declare [(name, type)]).allocate name
          size).2.memory.entry? (memoryId entry.1 block.1) = some range := by
    intro block member entry inside
    rw [parameters_declare]
    rcases recorded block member entry inside with own | ⟨range, known⟩
    · exact Or.inl own
    · exact Or.inr (entry_of_suffix grown known)
  rw [blocks_declare] at member
  rw [environment.blocks_eq] at kept
  rcases List.mem_cons.mp member with rfl | member
  · rcases List.mem_append.mp inside with inside | inside
    · exact kept _ List.mem_cons_self entry inside
    · rw [List.mem_singleton.mp inside]
      refine Or.inr ⟨⟨environment.memory.used, size⟩, ?_⟩
      rw [allocate_eq, MemoryTable.entry?, currentBlock_declare,
        List.lookup_cons, beq_self_eq_true, memory_declare]
  · exact kept _ (List.mem_cons_of_mem _ member) entry inside

end Environment

/-! ### Expressions -/

namespace Expression.HasType

variable {environment : Environment} {expression : Expression}
  {type : ValueType}

private theorem typeIn (typed : expression.HasType environment.scopes type) :
    expression.typeIn environment = .ok type := by
  induction typed with
  | identifier found =>
      exact typeIn_identifier.mpr found
  | integer fits => rfl
  | text value => rfl
  | boolean value => rfl
  | negative number inductionHypothesis =>
      exact typeIn_unary.mpr ⟨inductionHypothesis, rfl⟩
  | negation truth inductionHypothesis =>
      exact typeIn_unary.mpr ⟨inductionHypothesis, rfl⟩
  | arithmetic computes onLeft onRight leftHypothesis rightHypothesis =>
      exact typeIn_binary.mpr ⟨_, _, leftHypothesis, rightHypothesis,
        Operator.resultBetween_eq_ok.mpr
          (Or.inl ⟨computes, rfl, rfl, rfl⟩)⟩
  | ordering compares onLeft onRight leftHypothesis rightHypothesis =>
      exact typeIn_binary.mpr ⟨_, _, leftHypothesis, rightHypothesis,
        Operator.resultBetween_eq_ok.mpr
          (Or.inr (Or.inl ⟨compares, rfl, rfl, rfl⟩))⟩
  | equality tests comparable onLeft onRight leftHypothesis
      rightHypothesis =>
      refine typeIn_binary.mpr ⟨_, _, leftHypothesis, rightHypothesis,
        Operator.resultBetween_eq_ok.mpr
          (Or.inr (Or.inr (Or.inl ⟨tests, rfl, ?_, rfl⟩)))⟩
      rcases comparable with rfl | rfl <;> decide
  | logic connects onLeft onRight leftHypothesis rightHypothesis =>
      refine typeIn_binary.mpr ⟨_, _, leftHypothesis, rightHypothesis,
        Operator.resultBetween_eq_ok.mpr
          (Or.inr (Or.inr (Or.inr ⟨?_, rfl, rfl, rfl⟩)))⟩
      rcases connects with rfl | rfl
      · exact Or.inl rfl
      · exact Or.inr (Or.inl rfl)

/-- The variable of a name in scope is found. -/
theorem bound {name : String}
    (found : findName environment.scopes name = some type) :
    ∃ block, environment.lookup? name = some (block, type) ∧
      environment.binding name =
        .ok (type, environment.locationOf name block) := by
  rw [environment.findName_scopes] at found
  rcases Option.map_eq_some_iff.mp found with ⟨⟨block, _⟩, here, rfl⟩
  exact ⟨block, here, Environment.binding_eq_ok.mpr ⟨block, here, rfl⟩⟩

private theorem sizeIn (typed : expression.HasType environment.scopes type)
    (recorded : environment.Recorded) :
    ∃ size, expression.sizeIn environment = .ok size := by
  cases typed with
  | identifier found =>
      rcases bound found with ⟨block, here, binds⟩
      rw [Expression.sizeIn, binds]
      rcases recorded.locationOf here with
        ⟨index, located⟩ | ⟨id, range, located, known⟩
      · rw [located]
        exact ⟨_, rfl⟩
      · rw [located]
        refine ⟨range.size, bind_eq_ok.mpr ⟨_, rfl, ?_⟩⟩
        exact bind_eq_ok.mpr
          ⟨range, Environment.entry_eq_ok.mpr known, rfl⟩
  | text value => exact ⟨_, rfl⟩
  | integer fits => exact ⟨_, rfl⟩
  | boolean value => exact ⟨_, rfl⟩
  | negative number => exact ⟨_, rfl⟩
  | negation truth => exact ⟨_, rfl⟩
  | arithmetic computes onLeft onRight => exact ⟨_, rfl⟩
  | ordering compares onLeft onRight => exact ⟨_, rfl⟩
  | equality tests comparable onLeft onRight => exact ⟨_, rfl⟩
  | logic connects onLeft onRight => exact ⟨_, rfl⟩

private theorem binary_accepted {operator : Operator} {left right : Expression}
    (onLeft : Accepted (left.code environment))
    (onRight : Accepted (right.code environment)) :
    Accepted ((binary operator left right).code environment) :=
  onLeft.bind fun _ _ => onRight.bind fun _ _ => .ok _

private theorem code (typed : expression.HasType environment.scopes type)
    (recorded : environment.Recorded) :
    Accepted (expression.code environment) := by
  induction typed with
  | identifier found =>
      rcases bound found with ⟨block, here, binds⟩
      rw [Expression.code, binds]
      rcases recorded.locationOf here with
        ⟨index, located⟩ | ⟨id, range, located, known⟩
      · rw [located]
        exact (Accepted.pushAddress index).bind fun _ _ => .ok _
      · rw [located]
        exact .after rfl (.after (Environment.entry_eq_ok.mpr known)
          ((Accepted.pushAddress _).bind fun _ _ =>
            (Accepted.pushAddress _).bind fun _ _ => .ok _))
  | integer fits =>
      refine Or.inl ⟨_, code_integer.mpr
        ⟨_, Word.ofInteger_eq_some.mpr ⟨fits, rfl⟩, rfl⟩⟩
  | text value => exact .ok _
  | boolean value => exact .ok _
  | negative number inductionHypothesis =>
      exact inductionHypothesis.bind fun _ _ => .ok _
  | negation truth inductionHypothesis =>
      exact inductionHypothesis.bind fun _ _ => .ok _
  | arithmetic computes onLeft onRight leftHypothesis rightHypothesis =>
      exact binary_accepted leftHypothesis rightHypothesis
  | ordering compares onLeft onRight leftHypothesis rightHypothesis =>
      exact binary_accepted leftHypothesis rightHypothesis
  | equality tests comparable onLeft onRight leftHypothesis
      rightHypothesis =>
      exact binary_accepted leftHypothesis rightHypothesis
  | logic connects onLeft onRight leftHypothesis rightHypothesis =>
      exact binary_accepted leftHypothesis rightHypothesis

private theorem evaluationCode
    (typed : expression.HasType environment.scopes type)
    (recorded : environment.Recorded) :
    Accepted (expression.evaluationCode environment) := by
  rcases typed.sizeIn recorded with ⟨size, sized⟩
  exact .after typed.typeIn (.after sized
    ((typed.code recorded).bind fun _ _ => .ok _))

private theorem conditionCode
    (typed : expression.HasType environment.scopes .bool)
    (recorded : environment.Recorded) :
    Accepted (ContractCompiler.conditionCode environment expression) :=
  .after typed.typeIn ((Accepted.requireType rfl).bind fun _ _ =>
    (typed.code recorded).bind fun _ _ => .ok _)

private theorem returnCode
    (typed : expression.HasType environment.scopes environment.returnType)
    (recorded : environment.Recorded) :
    Accepted (ContractCompiler.returnCode environment
      (some expression)) :=
  .after typed.typeIn ((Accepted.requireType rfl).bind fun _ _ =>
    (typed.code recorded).bind fun _ _ => .ok _)

private theorem assignCode {name : String}
    (typed : expression.HasType environment.scopes type)
    (recorded : environment.Recorded) (valued : type ≠ .void)
    (fresh : name ∉ environment.innermost.map Prod.fst) :
    Accepted (ContractCompiler.assignCode environment type name
      expression).1 := by
  rcases typed.sizeIn recorded with ⟨size, sized⟩
  have initial : Accepted (initialCode environment type expression) :=
    .after typed.typeIn ((Accepted.requireType rfl).bind fun _ _ =>
      .after sized ((typed.code recorded).bind fun _ _ => .ok _))
  have defined := Environment.define_eq_ok.mpr ⟨valued, fresh, rfl⟩
  have stored : ∀ entry, Accepted (storeCode entry) := fun entry =>
    (Accepted.pushAddress entry.offset).bind fun _ _ =>
      (Accepted.pushAddress entry.size).bind fun _ _ => .ok _
  unfold ContractCompiler.assignCode
  rcases initial with ⟨⟨code, bytes⟩, made⟩ | ⟨address, overflows⟩
  · simp only [made, defined]
    rcases stored ((environment.declare [(name, type)]).allocate name
      bytes).1 with ⟨storing, made⟩ | ⟨address, overflows⟩
    · rw [made]
      exact .ok _
    · rw [overflows]
      exact Or.inr ⟨address, rfl⟩
  · rw [overflows]
    exact Or.inr ⟨address, rfl⟩

end Expression.HasType

/-! ### Blocks -/

section

variable {start : Extent} {environment : Environment}
  {statement : Statement} {condition : Expression}
  {consequence alternative others : Block}

private theorem codeAll_accepted
    (first : Accepted (Statement.code start environment statement).1)
    (rest : ∀ fragment next,
      Statement.code start environment statement = (.ok fragment, next) →
      Accepted (Statement.codeAll (start.past fragment.code) next
        others).1) :
    Accepted (Statement.codeAll start environment
      (statement :: others)).1 := by
  rw [Statement.codeAll]
  split
  next error next failed =>
    exact first.of_error (congrArg Prod.fst failed)
  next fragment next compiled =>
    split
    next error final failed =>
      exact (rest fragment next compiled).of_error (congrArg Prod.fst failed)
    next tail final compiledToo =>
      exact .ok _

/-- A statement that leaves the environment as it is, and what follows. -/
theorem plain_accepted {coded : Except CodeError (List Instruction)}
    (shape : Statement.code start environment statement =
      (coded.map fun code => ⟨code, []⟩, environment))
    (accepted : Accepted coded)
    (rest : ∀ place,
      Accepted (Statement.codeAll place environment others).1) :
    Accepted (Statement.codeAll start environment
      (statement :: others)).1 := by
  refine codeAll_accepted ?_ ?_
  · rw [shape]
    rcases accepted with ⟨code, rfl⟩ | ⟨address, rfl⟩
    · exact .ok _
    · exact Or.inr ⟨address, rfl⟩
  · intro fragment next compiled
    rw [shape] at compiled
    rw [← (Prod.mk.inj compiled).2]
    exact rest _

private theorem evaluates_accepted {value : Expression}
    (coded : Accepted (value.evaluationCode environment))
    (rest : ∀ place,
      Accepted (Statement.codeAll place environment others).1) :
    Accepted (Statement.codeAll start environment
      (.evaluates value :: others)).1 := by
  refine plain_accepted ?_ coded rest
  rw [Statement.code]
  cases value.evaluationCode environment <;> rfl

private theorem returns_accepted {value : Option Expression}
    (coded : Accepted (returnCode environment value))
    (rest : ∀ place,
      Accepted (Statement.codeAll place environment others).1) :
    Accepted (Statement.codeAll start environment
      (.returns value :: others)).1 := by
  refine plain_accepted ?_ coded rest
  rw [Statement.code]
  cases returnCode environment value <;> rfl

private theorem assigns_accepted {type : ValueType} {name : String}
    {value : Expression}
    (coded : Accepted (assignCode environment type name value).1)
    (rest : ∀ place code next,
      assignCode environment type name value = (.ok code, next) →
      Accepted (Statement.codeAll place next others).1) :
    Accepted (Statement.codeAll start environment
      (.assigns type name value :: others)).1 := by
  refine codeAll_accepted ?_ ?_
  · rw [Statement.code]
    split
    next error next failed =>
      exact coded.of_error (congrArg Prod.fst failed)
    next code _ =>
      exact .ok _
  · intro fragment next compiled
    rw [Statement.code] at compiled
    split at compiled
    · cases compiled
    next code _ assigned =>
      cases compiled
      exact rest _ code next assigned

private theorem branch_accepted
    (tested : Accepted (conditionCode environment condition))
    (inner : ∀ place, Accepted (Statement.codeAll place environment.enter
      consequence).1) :
    Accepted (Statement.code start environment
      (.ifThen condition consequence)).1 := by
  rw [Statement.code]
  split
  next error failed =>
    exact tested.of_error failed
  next test _ =>
  simp only
  split
  next error inside failed =>
    exact (inner _).of_error (congrArg Prod.fst failed)
  next body inside _ =>
  split
  next error failed =>
    exact (Accepted.targetWord _).of_error failed
  next target _ =>
    exact .ok _

private theorem choice_accepted
    (tested : Accepted (conditionCode environment condition))
    (inner : ∀ place, Accepted (Statement.codeAll place environment.enter
      consequence).1)
    (innerToo : ∀ place inside, environment.enter.Grows inside →
      Accepted (Statement.codeAll place inside.leave.enter alternative).1) :
    Accepted (Statement.code start environment
      (.ifThenElse condition consequence alternative)).1 := by
  rw [Statement.code]
  split
  next error failed =>
    exact tested.of_error failed
  next test _ =>
  simp only
  split
  next error inside failed =>
    exact (inner _).of_error (congrArg Prod.fst failed)
  next body inside compiled =>
  have grown := (Block.generates_of_codeAll _ compiled).grows
  split
  next error failed =>
    exact (Accepted.targetWord _).of_error failed
  next target _ =>
  split
  next error between failed =>
    exact (innerToo _ inside grown).of_error (congrArg Prod.fst failed)
  next other between _ =>
  split
  next error failed =>
    exact (Accepted.targetWord _).of_error failed
  next ending _ =>
    exact .ok _

/-- The environment behind a branch. -/
theorem branch_leaves {fragment : Fragment} {next : Environment}
    (compiled : Statement.code start environment
      (.ifThen condition consequence) = (.ok fragment, next)) :
    ∃ inside, environment.enter.Grows inside ∧ next = inside.leave := by
  rcases Statement.generates_of_code compiled with ⟨whole, generated⟩
  cases generated with
  | straight compiled rest =>
      cases compiled
  | ifThen tested inner reached rest =>
      cases rest
      exact ⟨_, inner.grows, rfl⟩

/-- The environment behind a branch with an alternative. -/
theorem choice_leaves {fragment : Fragment} {next : Environment}
    (compiled : Statement.code start environment
      (.ifThenElse condition consequence alternative) =
        (.ok fragment, next)) :
    ∃ inside between, environment.enter.Grows inside ∧
      inside.leave.enter.Grows between ∧ next = between.leave := by
  rcases Statement.generates_of_code compiled with ⟨whole, generated⟩
  cases generated with
  | straight compiled rest =>
      cases compiled
  | ifThenElse tested inner reached innerToo reachedToo rest =>
      cases rest
      exact ⟨_, _, inner.grows, innerToo.grows, rfl⟩

end

/-- A well-typed block has code, unless an address is too large. -/
theorem Block.WellTyped.accepted {returned : ValueType}
    {scopes : List (List (String × ValueType))} {block : Block}
    (typed : Block.WellTyped returned scopes block)
    (proper : ProperScopes scopes) (start : Extent)
    {environment : Environment} (scopesEq : environment.scopes = scopes)
    (returnedEq : environment.returnType = returned)
    (recorded : environment.Recorded) :
    Accepted (Statement.codeAll start environment block).1 := by
  -- The rules fix the scopes; which environment has these scopes, and where
  -- its code starts, is only known when the statements before have code.
  induction typed generalizing start environment with
  | nil =>
      exact .ok _
  | evaluates typed rest inductionHypothesis =>
      subst scopesEq
      exact evaluates_accepted (typed.evaluationCode recorded)
        fun place => inductionHypothesis proper place rfl returnedEq recorded
  | returnsNothing nothing rest inductionHypothesis =>
      refine returns_accepted ?_ fun place =>
        inductionHypothesis proper place scopesEq returnedEq recorded
      exact (Accepted.requireType (returnedEq.trans nothing)).bind
        fun _ _ => .ok _
  | returnsValue typed rest inductionHypothesis =>
      subst scopesEq returnedEq
      exact returns_accepted (typed.returnCode recorded)
        fun place => inductionHypothesis proper place rfl rfl recorded
  | @assigns inner outer type name value others typed fresh rest
      inductionHypothesis =>
      have shape := environment.scopes_eq
      rw [scopesEq, List.cons.injEq] at shape
      rcases shape with ⟨rfl, rfl⟩
      have valued := typed.ne_void proper
      rw [← scopesEq] at typed
      refine assigns_accepted
        (typed.assignCode recorded valued fresh) ?_
      intro place code next compiled
      rcases scopes_of_assigned compiled with ⟨_, _, sameReturn, sameScopes⟩
      refine inductionHypothesis (proper.declare valued) place sameScopes
        (sameReturn.trans returnedEq) ?_
      rcases assignCode_eq_ok.mp compiled with
        ⟨_, size, defined, _, _, _, _, bound, _, _, rfl⟩
      rcases Environment.define_eq_ok.mp bound with ⟨_, _, rfl⟩
      exact recorded.allocate name type size
  | @ifThen scopes condition consequence others typed taken rest
      takenHypothesis restHypothesis =>
      subst scopesEq
      refine codeAll_accepted
        (branch_accepted (typed.conditionCode recorded) ?_) ?_
      · intro place
        exact takenHypothesis proper.enter place rfl returnedEq
          recorded.enter
      · intro fragment next compiled
        rcases branch_leaves compiled with ⟨inside, grown, rfl⟩
        exact restHypothesis proper _ grown.scopes_leave
          (grown.leave.returnType.trans returnedEq) (recorded.leave grown)
  | @ifThenElse scopes condition consequence alternative others typed taken
      skipped rest takenHypothesis skippedHypothesis restHypothesis =>
      subst scopesEq
      refine codeAll_accepted
        (choice_accepted (typed.conditionCode recorded) ?_ ?_) ?_
      · intro place
        exact takenHypothesis proper.enter place rfl returnedEq
          recorded.enter
      · intro place inside grown
        exact skippedHypothesis proper.enter place
          (congrArg (List.cons []) grown.scopes_leave)
          (grown.leave.returnType.trans returnedEq)
          (recorded.leave grown).enter
      · intro fragment next compiled
        rcases choice_leaves compiled with
          ⟨inside, between, grown, grownToo, rfl⟩
        have sameReturn :=
          grownToo.leave.returnType.trans grown.leave.returnType
        exact restHypothesis proper _
          (grownToo.scopes_leave.trans grown.scopes_leave)
          (sameReturn.trans returnedEq)
          ((recorded.leave grown).leave grownToo)

end ContractCompiler
