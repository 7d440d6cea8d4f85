/-
Names are resolved as the source says.

At every point of a body, the declaration that a name refers to is the one that
the generator of code finds through its open blocks, and the memory handed out
for an assignment is the range that follows from the sizes of the earlier ones.
Memory goes under the name of a variable and the number of its block.  The
number is new for every block that is entered, so no name of memory is given
twice.
-/

import ContractCompiler.Proofs.Occurrences
import ContractCompiler.Proofs.Outline
import ContractCompiler.Proofs.Preservation
import ContractCompiler.Text.Identifier

namespace ContractCompiler

namespace Environment

variable {environment inside : Environment} {outline : Outline}

/-! ### Declarations and open blocks -/

/-- A variable of a block is the one that was declared: the parameter with an
index, or the variable that was given the memory of an assignment. -/
def Refers (environment : Environment) (sizes : List Nat) (number : Nat)
    (bound : String × ValueType) (given : String × Referent) : Prop :=
  given.1 = bound.1 ∧
    match given.2 with
    | .parameter index =>
        environment.locationOf bound.1 number = .parameter index
    | .assignment assigned =>
        environment.locationOf bound.1 number =
          .memory (memoryId bound.1 number) ∧
        ∃ range, (rangesOf sizes)[assigned]? = some range ∧
          environment.memory.entry? (memoryId bound.1 number) = some range

/-- Memory was handed out under the name of a variable in a block.  While that
block is open, the variable is bound in it. -/
def Owns (environment : Environment) (id : String) : Prop :=
  ∃ name number, Plain name ∧ id = memoryId name number ∧
    number ≤ environment.entered ∧
    ∀ block ∈ environment.blocks, block.1 = number →
      name ∈ block.2.map Prod.fst

structure Outlined (environment : Environment) (outline : Outline) :
    Prop where
  orderly : environment.Orderly
  visible : List.Forall₂
    (fun block scope => List.Forall₂
      (environment.Refers outline.sizes block.1) block.2 scope)
    environment.blocks outline.visible
  used : environment.memory.used = totalSize outline.sizes
  ranges : environment.memory.entries.map Prod.snd =
    (rangesOf outline.sizes).reverse
  owned : ∀ entry ∈ environment.memory.entries, environment.Owns entry.1
  distinct : (environment.memory.entries.map Prod.fst).Nodup

private theorem Outlined.enter (outlined : environment.Outlined outline) :
    environment.enter.Outlined outline.enter where
  orderly := outlined.orderly.enter
  visible := .cons .nil outlined.visible
  used := outlined.used
  ranges := outlined.ranges
  owned := by
    intro entry member
    obtain ⟨name, number, plain, named, entered, bound⟩ :=
      outlined.owned entry member
    refine ⟨name, number, plain, named, Nat.le_succ_of_le entered, ?_⟩
    intro block listed same
    rcases List.mem_cons.mp listed with rfl | listed
    · have newest : environment.entered + 1 = number := same
      omega
    · exact bound block listed same
  distinct := outlined.distinct

/-- A nested block is left: the blocks around it are as before. -/
theorem Outlined.leave (orderly : environment.Orderly)
    (grown : environment.enter.Grows inside)
    (outlined : inside.Outlined outline) :
    inside.leave.Outlined outline.leave := by
  obtain ⟨more, changed⟩ := grown.changed
  have entered := Nat.le_trans (Nat.le_succ _) grown.entered
  have blocks : inside.blocks =
      (environment.entered + 1, more) :: environment.blocks := by
    rw [changed]
    rfl
  rw [grown.leave_eq]
  refine ⟨orderly.more _ entered, ?_, outlined.used, outlined.ranges, ?_,
    outlined.distinct⟩
  · have visible := outlined.visible
    rw [changed] at visible
    cases shown : outline.visible with
    | nil =>
        rw [shown] at visible
        cases visible
    | cons scope outer =>
        rw [shown] at visible
        rw [Outline.leave, shown]
        exact (List.forall₂_cons.mp visible).2
  · intro entry member
    obtain ⟨name, number, plain, named, below, bound⟩ :=
      outlined.owned entry member
    refine ⟨name, number, plain, named, below, ?_⟩
    intro block listed same
    apply bound block _ same
    rw [blocks]
    exact List.mem_cons_of_mem _ listed

/-! ### Expressions -/

private theorem Outlined.lookup (outlined : environment.Outlined outline)
    {name : String} {number : Nat} {type : ValueType}
    (found : environment.lookup? name = some (number, type)) :
    ∃ referent, outline.referent? name = some referent ∧
      environment.Refers outline.sizes number (name, type)
        (name, referent) :=
  findName_of_forall₂ (fun _ _ _ refers => refers.1) outlined.visible found

/-- The code of an expression loads every name from its declaration. -/
theorem Outlined.resolves (outlined : environment.Outlined outline)
    {sizes : List Nat} (grown : outline.sizes <+: sizes)
    {value : Expression} {code : List Instruction}
    (coded : value.code environment = .ok code) :
    value.Resolves (rangesOf sizes) outline code := by
  induction value generalizing code with
  | identifier name =>
      obtain ⟨type, location, bound, loaded⟩ :=
        Expression.code_identifier.mp coded
      obtain ⟨number, found, rfl⟩ := binding_eq_ok.mp bound
      obtain ⟨referent, seen, _, refers⟩ := outlined.lookup found
      cases referent with
      | parameter index =>
          rw [show environment.locationOf name number = _ from refers]
            at loaded
          obtain ⟨word, fits, rfl⟩ := Location.code_parameter.mp loaded
          exact .parameter seen fits
      | assignment assigned =>
          obtain ⟨located, range, kept, held⟩ := refers
          rw [located] at loaded
          obtain ⟨entry, offset, size, known, starts, takes, rfl⟩ :=
            Location.code_memory.mp loaded
          rw [held] at known
          cases known
          exact .assignment seen (rangesOf_grown grown kept) starts takes
  | integer value =>
      obtain ⟨word, fits, rfl⟩ := Expression.code_integer.mp coded
      exact .integer fits
  | text value =>
      cases coded
      exact .text value
  | boolean value =>
      cases coded
      exact .boolean value
  | binary operator left right leftHypothesis rightHypothesis =>
      obtain ⟨leftCode, rightCode, onLeft, onRight, rfl⟩ :=
        Expression.code_binary.mp coded
      exact .binary (leftHypothesis onLeft) (rightHypothesis onRight)
  | unary operator operand inductionHypothesis =>
      by_cases minus : operator = .minus
      · subst minus
        obtain ⟨inner, inside, rfl⟩ := Expression.code_minus.mp coded
        exact .minus (inductionHypothesis inside)
      · obtain ⟨inner, inside, rfl⟩ :=
          (Expression.code_unary minus).mp coded
        exact .unary minus (inductionHypothesis inside)

/-- The size that is looked up in memory is the one told from the source. -/
theorem Outlined.bytesOf (outlined : environment.Outlined outline)
    {value : Expression} {size : Nat}
    (sized : value.sizeIn environment = .ok size) :
    outline.bytesOf value = size := by
  cases value with
  | identifier name =>
      simp only [Expression.sizeIn, bind_eq_ok, Prod.exists] at sized
      obtain ⟨type, location, bound, sized⟩ := sized
      obtain ⟨number, found, rfl⟩ := binding_eq_ok.mp bound
      obtain ⟨referent, seen, _, refers⟩ := outlined.lookup found
      rw [Outline.bytesOf, seen]
      cases referent with
      | parameter index =>
          rw [show environment.locationOf name number = _ from refers]
            at sized
          exact Except.ok.inj sized
      | assignment assigned =>
          obtain ⟨located, range, kept, held⟩ := refers
          rw [located] at sized
          obtain ⟨entry, known, same⟩ := bind_eq_ok.mp sized
          rw [entry_eq_ok.mp known] at held
          cases held
          cases same
          rw [getElem?_rangesOf] at kept
          obtain ⟨size, listed, rfl⟩ := Option.map_eq_some_iff.mp kept
          simp only [List.getD_eq_getElem?_getD, listed]
          rfl
  | integer value => exact Except.ok.inj sized
  | text value => exact Except.ok.inj sized
  | boolean value => exact Except.ok.inj sized
  | binary operator left right => exact Except.ok.inj sized
  | unary operator operand => exact Except.ok.inj sized

/-! ### Assignments -/

/-- A declaration stays what it was when its memory is kept. -/
theorem Refers.kept {final : Environment} {sizes more : List Nat}
    {number : Nat} {bound : String × ValueType} {given : String × Referent}
    (refers : environment.Refers sizes number bound given)
    (parameters : final.parameters = environment.parameters)
    (entry : final.memory.entry? (memoryId bound.1 number) =
      environment.memory.entry? (memoryId bound.1 number))
    (grown : sizes <+: more) : final.Refers more number bound given := by
  have located : final.locationOf bound.1 number =
      environment.locationOf bound.1 number := by
    rw [locationOf, parameters, locationOf]
  obtain ⟨name, referent⟩ := given
  obtain ⟨same, refers⟩ := refers
  refine ⟨same, ?_⟩
  cases referent with
  | parameter index => exact located.trans refers
  | assignment assigned =>
      obtain ⟨place, range, kept, held⟩ := refers
      exact ⟨located.trans place, range, rangesOf_grown grown kept,
        entry.trans held⟩

/-- A variable that is new in its block has a name for its memory that was not
given before. -/
theorem Outlined.fresh_id (outlined : environment.Outlined outline)
    {name : String} (plain : Plain name)
    (fresh : name ∉ environment.innermost.map Prod.fst) :
    memoryId name environment.currentBlock ∉
      environment.memory.entries.map Prod.fst := by
  intro given
  obtain ⟨entry, member, same⟩ := List.mem_map.mp given
  obtain ⟨other, number, plainToo, named, _, bound⟩ :=
    outlined.owned entry member
  rw [named] at same
  obtain ⟨rfl, rfl⟩ := memoryId_injective plainToo plain same
  apply fresh
  apply bound (environment.currentBlock, environment.innermost) _ rfl
  rw [environment.blocks_eq]
  exact List.mem_cons_self

section

variable {name : String} {type : ValueType} {value : Expression}

/-- The declarations in scope are what they were, and the new one is an
assignment with the number of the earlier ones. -/
theorem Outlined.visible_assign (outlined : environment.Outlined outline)
    (plain : Plain name)
    (fresh : name ∉ environment.innermost.map Prod.fst) :
    List.Forall₂
      (fun block scope => List.Forall₂
        (((environment.declare [(name, type)]).allocate name
            (outline.bytesOf value)).2.Refers
          (outline.assign name value).sizes block.1) block.2 scope)
      (environment.declare [(name, type)]).blocks
      (outline.assign name value).visible := by
  have orderly := outlined.orderly
  have parameters := environment.parameters_declare [(name, type)]
  have handed := environment.memory_declare [(name, type)]
  have entries := orderly.entries_kept type (outline.bytesOf value) plain
    fresh
  have kept : List.Forall₂
      (fun block scope => List.Forall₂
        (((environment.declare [(name, type)]).allocate name
            (outline.bytesOf value)).2.Refers
          (outline.assign name value).sizes block.1) block.2 scope)
      environment.blocks outline.visible := by
    have blocks := (List.forall₂_and_left _ _).mpr
      ⟨fun block member => member, outlined.visible⟩
    apply blocks.imp
    intro block scope here
    obtain ⟨member, paired⟩ := here
    have inBlock := (List.forall₂_and_left _ _).mpr
      ⟨fun bound member => member, paired⟩
    apply inBlock.imp
    intro bound given here
    obtain ⟨listed, refers⟩ := here
    exact refers.kept parameters (entries block member bound listed)
      (List.prefix_append _ _)
  rw [environment.blocks_eq] at kept
  rw [blocks_declare]
  cases shown : outline.visible with
  | nil =>
      rw [shown] at kept
      cases kept
  | cons scope outer =>
      rw [shown] at kept
      obtain ⟨inner, others⟩ := List.forall₂_cons.mp kept
      have located : ((environment.declare [(name, type)]).allocate name
          (outline.bytesOf value)).2.locationOf name
            environment.currentBlock =
          .memory (memoryId name environment.currentBlock) := by
        rw [← orderly.locationOf_fresh fresh, locationOf, locationOf,
          ← parameters]
        rfl
      have added : ((environment.declare [(name, type)]).allocate name
          (outline.bytesOf value)).2.Refers
            (outline.assign name value).sizes environment.currentBlock
            (name, type) (name, .assignment outline.sizes.length) := by
        refine ⟨rfl, located, ⟨environment.memory.used,
          outline.bytesOf value⟩, ?_, ?_⟩
        · rw [outlined.used]
          exact getElem?_rangesOf_append outline.sizes _
        · rw [allocate_eq, MemoryTable.entry?, currentBlock_declare,
            List.lookup_cons, beq_self_eq_true, handed]
      simp only [Outline.assign, shown]
      exact .cons (List.rel_append inner (.cons added .nil)) others

private theorem Outlined.owned_assign (outlined : environment.Outlined outline)
    (plain : Plain name) (size : Nat) :
    ∀ entry ∈ ((environment.declare [(name, type)]).allocate name
        size).2.memory.entries,
      ((environment.declare [(name, type)]).allocate name size).2.Owns
        entry.1 := by
  have blocks : ((environment.declare [(name, type)]).allocate name
      size).2.blocks =
      (environment.currentBlock, environment.innermost ++ [(name, type)]) ::
        environment.blocks.tail :=
    environment.blocks_declare [(name, type)]
  have entered : ((environment.declare [(name, type)]).allocate name
      size).2.entered = environment.entered := by
    rw [allocate_eq, declare]
    cases environment.frames <;> rfl
  intro entry member
  rw [allocate_eq, memory_declare, currentBlock_declare] at member
  unfold Owns
  rw [blocks, entered]
  rcases List.mem_cons.mp member with rfl | member
  · refine ⟨name, environment.currentBlock, plain, rfl,
      outlined.orderly.entered, ?_⟩
    intro block listed same
    rcases List.mem_cons.mp listed with rfl | listed
    · rw [List.map_append]
      exact List.mem_append_right _ List.mem_cons_self
    · have below := outlined.orderly.lt_current block listed
      omega
  · obtain ⟨other, number, plainToo, named, below, bound⟩ :=
      outlined.owned entry member
    rw [environment.blocks_eq] at bound
    refine ⟨other, number, plainToo, named, below, ?_⟩
    intro block listed same
    rcases List.mem_cons.mp listed with rfl | listed
    · rw [List.map_append]
      exact List.mem_append_left _ (bound _ List.mem_cons_self same)
    · exact bound block (List.mem_cons_of_mem _ listed) same

private theorem Outlined.assign (outlined : environment.Outlined outline)
    (plain : Plain name) (fresh : name ∉ environment.innermost.map Prod.fst)
    {storing : List Instruction}
    (stored : storeCode ((environment.declare [(name, type)]).allocate name
      (outline.bytesOf value)).1 = .ok storing) :
    ((environment.declare [(name, type)]).allocate name
      (outline.bytesOf value)).2.Outlined (outline.assign name value) where
  orderly := (outlined.orderly.declare type plain).more _ (Nat.le_refl _)
  visible := outlined.visible_assign plain fresh
  used := by
    rw [used_allocate stored, memory_declare, Outline.assign,
      totalSize_append, ← outlined.used]
    rfl
  ranges := by
    rw [allocate_eq, memory_declare, Outline.assign, rangesOf_append,
      List.reverse_append, ← outlined.ranges, ← outlined.used]
    rfl
  owned := outlined.owned_assign plain _
  distinct := by
    rw [allocate_eq, memory_declare, currentBlock_declare, List.map_cons,
      List.nodup_cons]
    exact ⟨outlined.fresh_id plain fresh, outlined.distinct⟩

end

end Environment

/-! ### Blocks -/

private theorem Statement.Straight.resolves {environment next : Environment}
    {statement : Statement} {code : List Instruction} {outline : Outline}
    {sizes : List Nat}
    (compiled : statement.Straight environment code next)
    (regular : statement.Regular Plain)
    (outlined : environment.Outlined outline)
    (grown : (statement.outline outline).sizes <+: sizes) :
    statement.Resolves (rangesOf sizes) outline code ∧
      next.Outlined (statement.outline outline) := by
  have earlier := (statement.sizes_outline outline).trans grown
  cases compiled with
  | @evaluates value code compiled =>
      obtain ⟨type, size, valueCode, _, sized, coded, rfl⟩ :=
        Expression.evaluationCode_eq_ok.mp compiled
      rw [← outlined.bytesOf sized]
      exact ⟨.evaluates (outlined.resolves earlier coded), outlined⟩
  | @returns value code compiled =>
      cases value with
      | none =>
          obtain ⟨_, rfl⟩ := returnCode_none.mp compiled
          exact ⟨.returnsNothing, outlined⟩
      | some value =>
          obtain ⟨valueCode, _, coded, rfl⟩ := returnCode_some.mp compiled
          exact ⟨.returns (outlined.resolves earlier coded), outlined⟩
  | @assigns type name value code next compiled =>
      obtain ⟨valueCode, size, defined, storing, _, sized, coded, bound,
        stored, rfl, rfl⟩ := assignCode_eq_ok.mp compiled
      obtain ⟨_, fresh, rfl⟩ := Environment.define_eq_ok.mp bound
      obtain ⟨offset, taken, starts, takes, rfl⟩ :=
        storeCode_eq_ok.mp stored
      cases outlined.bytesOf sized
      rw [Environment.allocate_eq, environment.memory_declare,
        outlined.used] at starts takes
      have kept := rangesOf_grown grown
        (getElem?_rangesOf_append outline.sizes (outline.bytesOf value))
      exact ⟨.assigns (outlined.resolves earlier coded) kept starts takes,
        outlined.assign regular.2.1 fresh stored⟩

private theorem Block.Generates.resolves {start : Extent}
    {environment final : Environment} {block : Block} {fragment : Fragment}
    {outline : Outline} {sizes : List Nat}
    (generated : Block.Generates start environment block fragment final)
    (regular : Statement.AllRegular Plain block)
    (outlined : environment.Outlined outline)
    (grown : (Statement.outlineAll outline block).sizes <+: sizes) :
    Block.Resolves (rangesOf sizes) outline block fragment.code ∧
      final.Outlined (Statement.outlineAll outline block) := by
  induction generated generalizing outline with
  | nil =>
      exact ⟨.nil, outlined⟩
  | @straight _ _ _ _ statement others _ _ compiled rest
      inductionHypothesis =>
      have first := (Statement.sizes_outlineAll others
        (statement.outline outline)).trans grown
      obtain ⟨resolved, outlinedNext⟩ :=
        compiled.resolves regular.1 outlined first
      obtain ⟨remaining, outlinedLast⟩ :=
        inductionHypothesis regular.2 outlinedNext grown
      exact ⟨.straight resolved remaining, outlinedLast⟩
  | @ifThen _ _ _ _ condition consequence others _ _ _ _ tested inner
      reached rest innerHypothesis restHypothesis =>
      have first := (Statement.sizes_outlineAll others
        (Statement.outline outline
          (.ifThen condition consequence))).trans grown
      have earlier := (Statement.sizes_outline
        (.ifThen condition consequence) outline).trans first
      obtain ⟨test, _, coded, rfl⟩ := conditionCode_eq_ok.mp tested
      obtain ⟨resolved, outlinedInside⟩ :=
        innerHypothesis regular.1.2 outlined.enter first
      obtain ⟨remaining, outlinedLast⟩ := restHypothesis regular.2
        (outlinedInside.leave outlined.orderly inner.grows) grown
      exact ⟨.ifThen (outlined.resolves earlier coded) resolved remaining,
        outlinedLast⟩
  | @ifThenElse _ _ _ _ _ condition consequence alternative others _ _ _ _
      _ _ tested inner reached innerToo reachedToo rest innerHypothesis
      innerHypothesisToo restHypothesis =>
      have whole := (Statement.sizes_outlineAll others
        (Statement.outline outline
          (.ifThenElse condition consequence alternative))).trans grown
      have first := (Statement.sizes_outlineAll alternative
        (Statement.outlineAll outline.enter
          consequence).leave.enter).trans whole
      have earlier := (Statement.sizes_outline
        (.ifThenElse condition consequence alternative) outline).trans whole
      obtain ⟨test, _, coded, rfl⟩ := conditionCode_eq_ok.mp tested
      obtain ⟨resolved, outlinedInside⟩ :=
        innerHypothesis regular.1.2.1 outlined.enter first
      have outlinedBetween :=
        outlinedInside.leave outlined.orderly inner.grows
      obtain ⟨resolvedToo, outlinedInsideToo⟩ :=
        innerHypothesisToo regular.1.2.2 outlinedBetween.enter whole
      obtain ⟨remaining, outlinedLast⟩ := restHypothesis regular.2
        (outlinedInsideToo.leave outlinedBetween.orderly innerToo.grows)
        grown
      exact ⟨.ifThenElse (outlined.resolves earlier coded) resolved
        resolvedToo remaining, outlinedLast⟩

/-! ### Functions -/

/-- In front of a body its parameters are declared, and no memory is handed
out. -/
theorem Function.outlined_entry {function : Function}
    (regular : function.Regular Plain)
    (names : (function.parameters.map Parameter.name).Nodup)
    (outside : List String) :
    (function.entry outside).Outlined function.outline := by
  refine ⟨orderly_entry regular, .cons ?_ .nil, rfl, rfl, ?_,
    List.nodup_nil⟩
  · apply List.forall₂_iff_get.mpr
    constructor
    · simp only [entry, environment, typedParameters, List.length_map,
        List.length_mapIdx]
    · intro index inside listed
      have insideToo : index < function.parameters.length := by
        simpa only [List.length_mapIdx] using listed
      have located := locationOf_parameter names outside insideToo
      simp only [entry, environment, typedParameters, List.get_eq_getElem,
        List.getElem_map, List.getElem_mapIdx]
      exact ⟨rfl, located⟩
  · intro entry member
    cases member

/-- The code of a function on its own hands out the memory that its source
says, under different names. -/
theorem Function.memory_of_outcome {function : Function}
    {outside : List String} {code : FunctionCode}
    (regular : function.Regular Plain)
    (names : (function.parameters.map Parameter.name).Nodup)
    (compiled : function.outcome outside = .ok code) :
    (function.code (function.entry outside)).2.Outlined
      (Statement.outlineAll function.outline function.body) := by
  obtain ⟨body, final, generated, _⟩ := outcome_eq_ok compiled
  have last : (function.code (function.entry outside)).2 = final := by
    rw [Function.code_eq, generated.codeAll_eq]
  rw [last]
  exact (generated.resolves regular.body
    (outlined_entry regular names outside) List.prefix_rfl).2

section

variable [IdentifierCharacters]

/-- Every name in a function of a compiled contract is loaded from the
innermost declaration that is visible, and every assignment has memory of its
own behind that of the earlier ones. -/
theorem Contract.names_resolve_lexically {source : String}
    {contract : Contract} {artifact : Artifact} {parallel : Bool}
    {function : Function}
    (parsed : Contract.parse source = .ok contract)
    (compiled : contract.compile parallel = .ok artifact)
    (member : function ∈ contract.functions) :
    ∃ (number : Nat) (earlier body later : List Instruction)
        (final : Environment),
      artifact.code =
        .ofInstructions (earlier ++ functionCode body ++ later) ∧
      artifact.functions[number]? =
        some ⟨function.name, (Extent.ofCode earlier).bytes⟩ ∧
      Block.Resolves function.ranges function.outline function.body body ∧
      (function.ranges.Pairwise fun first second =>
        first.offset + first.size ≤ second.offset) ∧
      (function.code (function.entry contract.functionNames)).2 = final ∧
      final.memory.entries.map Prod.snd = function.ranges.reverse ∧
      (final.memory.entries.map Prod.fst).Nodup := by
  have regular := regular_of_parse parsed function member
  obtain ⟨declarable, codes, linked, whole⟩ := linked_of_compiled compiled
  obtain ⟨number, earlier, code, later, span⟩ := linked.span_of_mem member
  have names := declarable.parameters function member
  obtain ⟨_, outcomes, coded, _⟩ := compile_eq_ok compiled
  obtain ⟨alone, _, outcome⟩ := exists_of_forall₂ coded function member
  have outlined := Function.memory_of_outcome regular names outcome
  have found := span.starts
  have flattened := span.whole
  obtain ⟨body, sites, final, rfl, generated⟩ := span.placed
  obtain ⟨resolved, _⟩ := generated.resolves regular.body
    (function.outlined_entry regular names _) List.prefix_rfl
  rw [Nat.zero_add] at found
  rw [flattened] at whole
  exact ⟨number, earlier, body, later, _, whole, found, resolved,
    rangesOf_pairwise _, rfl, outlined.ranges, outlined.distinct⟩

end

/-- A string hides the parameter in one branch and is copied there, the other
branch and the body have variables of the same name as the copy. -/
def layered : Function :=
  ⟨"f", [⟨"x", .int⟩], .void,
    [.ifThenElse (.binary .less (.identifier "x") (.integer 3))
      [.assigns .string "x" (.text "abcde"),
        .assigns .string "y" (.identifier "x")]
      [.assigns .int "y" (.identifier "x")],
      .assigns .int "y" (.integer 7), .evaluates (.identifier "y")]⟩

def layeredSource : String :=
  "contract\x7bfunc f(x int)\x7bif(x<3)\x7bstring x=\"abcde\" string y=x\x7d" ++
    "else\x7bint y=x\x7d int y=7 y\x7d\x7d"

open IdentifierTables

theorem Contract.names_resolve_layered :
    ∃ artifact earlier body later,
      Contract.parse layeredSource = .ok ⟨[layered]⟩ ∧
      (⟨[layered]⟩ : Contract).compile true = .ok artifact ∧
      artifact.code =
        .ofInstructions (earlier ++ functionCode body ++ later) ∧
      layered.ranges = [⟨0, 5⟩, ⟨5, 5⟩, ⟨10, 4⟩, ⟨14, 4⟩] ∧
      Block.Resolves layered.ranges layered.outline layered.body body := by
  have parsed : Contract.parse layeredSource = .ok ⟨[layered]⟩ := by
    decide +kernel
  have compiles : ((⟨[layered]⟩ : Contract).compile
      true).toOption.isSome = true := by
    decide +kernel
  cases compiled : (⟨[layered]⟩ : Contract).compile true with
  | error failure =>
      rw [compiled] at compiles
      cases compiles
  | ok artifact =>
      obtain ⟨_, earlier, body, later, _, code, _, resolved, _⟩ :=
        names_resolve_lexically parsed compiled List.mem_cons_self
      exact ⟨artifact, earlier, body, later, parsed, rfl, code,
        by decide +kernel, resolved⟩

end ContractCompiler
