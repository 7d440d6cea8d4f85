/-
Two environments side by side.

The generator of code sees an environment through the variables that names
stand for, their memory and the type that is returned.  Where two environments
answer alike, one of them perhaps under other names, and go on doing so while
blocks are entered and left and variables are bound, the same code comes out of
both.  So does the same error, changed as its names are.
-/

import ContractCompiler.Proofs.Fragments
import ContractCompiler.Proofs.Renaming

namespace ContractCompiler

/-! ### Errors without names -/

private theorem mapError_bind {α β : Type} (first : Except CodeError α)
    (next : α → Except CodeError β) (change : CodeError → CodeError) :
    (first >>= next).mapError change =
      first.mapError change >>= fun value =>
        (next value).mapError change := by
  cases first <;> rfl

theorem mapError_pure {α : Type} (value : α)
    (change : CodeError → CodeError) :
    (pure value : Except CodeError α).mapError change = pure value :=
  rfl

structure KeepsNameless (change : CodeError → CodeError) : Prop where
  typeMismatch : ∀ expected found,
    change (.typeMismatch expected found) = .typeMismatch expected found
  unsupportedOperator : ∀ operator operand,
    change (.unsupportedOperator operator operand) =
      .unsupportedOperator operator operand
  integerOverflow : ∀ value,
    change (.integerOverflow value) = .integerOverflow value
  assembly : ∀ error, change (.assembly error) = .assembly error

namespace KeepsNameless

variable {change : CodeError → CodeError}

private theorem requireType (nameless : KeepsNameless change)
    (expected found : ValueType) :
    (ContractCompiler.requireType expected found).mapError change =
      ContractCompiler.requireType expected found := by
  unfold ContractCompiler.requireType
  split
  · rfl
  · exact congrArg Except.error (nameless.typeMismatch expected found)

private theorem pushAddress (nameless : KeepsNameless change) (value : Nat) :
    (ContractCompiler.pushAddress value).mapError change =
      ContractCompiler.pushAddress value := by
  unfold ContractCompiler.pushAddress
  split
  · rfl
  · exact congrArg Except.error (nameless.assembly _)

private theorem error_of_storeCode (nameless : KeepsNameless change)
    {entry : MemoryEntry} {error : CodeError}
    (failed : storeCode entry = .error error) : change error = error := by
  have same : (storeCode entry).mapError change = storeCode entry := by
    simp only [storeCode, mapError_bind, mapError_pure, nameless.pushAddress]
  rw [failed] at same
  exact Except.error.inj same

private theorem error_of_targetWord (nameless : KeepsNameless change)
    {target : Extent} {error : CodeError}
    (failed : targetWord target = .error error) : change error = error := by
  unfold targetWord at failed
  split at failed
  · cases failed
  · cases failed
    exact nameless.assembly _

private theorem resultBetween (nameless : KeepsNameless change)
    (operator : Operator) (left right : ValueType) :
    (operator.resultBetween left right).mapError change =
      operator.resultBetween left right := by
  have refused : ∀ operand,
      (throw (.unsupportedOperator operator operand) :
        Except CodeError PUnit).mapError change =
      throw (.unsupportedOperator operator operand) := fun operand =>
    congrArg Except.error (nameless.unsupportedOperator operator operand)
  unfold Operator.resultBetween
  cases operator <;>
    simp only [mapError_bind, mapError_pure, nameless.requireType]
  all_goals
    congr 1
    funext _
    split
    · exact congrArg (· >>= _) (refused left)
    · rfl

end KeepsNameless

/-! ### Corresponding environments -/

inductive Location.Corresponds (change : CodeError → CodeError)
    (first second : Environment) : Location → Location → Prop where
  | parameter (index : Nat) :
      Corresponds change first second (.parameter index) (.parameter index)
  | memory {id other : String}
      (kept : second.entry other = (first.entry id).mapError change) :
      Corresponds change first second (.memory id) (.memory other)

/-- What names stand for in two environments: variables of one type in
corresponding locations, or nothing for the same reason. -/
inductive Environment.Finds (change : CodeError → CodeError)
    (first second : Environment) :
    Except CodeError (ValueType × Location) →
      Except CodeError (ValueType × Location) → Prop where
  | nothing (error : CodeError) :
      Finds change first second (.error error) (.error (change error))
  | bound {type : ValueType} {here there : Location}
      (located : here.Corresponds change first second there) :
      Finds change first second (.ok (type, here)) (.ok (type, there))

def Generated.Corresponds {α : Type} (change : CodeError → CodeError)
    (related : Environment → Environment → Prop)
    (first second : Generated α) : Prop :=
  ∃ outcome next following, first = (outcome, next) ∧
    second = (outcome.mapError change, following) ∧ related next following

private theorem Generated.Corresponds.kept {α : Type}
    {change : CodeError → CodeError}
    {related : Environment → Environment → Prop} {error : CodeError}
    {next following : Environment} (same : change error = error)
    (holds : related next following) :
    Generated.Corresponds change related
      ((.error error, next) : Generated α) (.error error, following) := by
  refine ⟨.error error, next, following, rfl, ?_, holds⟩
  rw [Except.mapError, same]

/-- Blocks whose codes correspond wherever they start, in all environments that
are related. -/
def Block.Corresponds (change : CodeError → CodeError)
    (related : Environment → Environment → Prop)
    (block other : Block) : Prop :=
  ∀ start {first second}, related first second →
    Generated.Corresponds change related
      (Statement.codeAll start first block)
      (Statement.codeAll start second other)

/-- Related environments answer alike, for names with a property that go by
other names in the second one, and stay related. -/
structure Correspondence (named : String → Prop) (naming : String → String)
    (change : CodeError → CodeError)
    (related : Environment → Environment → Prop) : Prop where
  nameless : KeepsNameless change
  returnType : ∀ {first second}, related first second →
    second.returnType = first.returnType
  binding : ∀ {first second name}, related first second → named name →
    Environment.Finds change first second (first.binding name)
      (second.binding (naming name))
  enter : ∀ {first second}, related first second →
    related first.enter second.enter
  leave : ∀ {first second}, related first second →
    related first.leave second.leave
  define : ∀ {first second name}, related first second → named name →
    ∀ type,
      (∃ error, first.define name type = .error error ∧
        second.define (naming name) type = .error (change error)) ∨
      ∃ next following, first.define name type = .ok next ∧
        second.define (naming name) type = .ok following ∧
        related next following
  allocate : ∀ {first second name}, related first second → named name →
    ∀ size,
      (second.allocate (naming name) size).1 =
          (first.allocate name size).1 ∧
        related (first.allocate name size).2
          (second.allocate (naming name) size).2

namespace Correspondence

variable {named : String → Prop} {naming : String → String}
  {change : CodeError → CodeError}
  {related : Environment → Environment → Prop}
  {first second : Environment}

/-! ### Expressions -/

private theorem typeIn (alike : Correspondence named naming change related)
    (holds : related first second) {value : Expression}
    (own : ∀ name ∈ value.names, named name) :
    (value.rename naming).typeIn second =
      (value.typeIn first).mapError change := by
  induction value with
  | identifier name =>
      have found := alike.binding holds (own name List.mem_cons_self)
      rw [Expression.rename, Expression.typeIn, Expression.typeIn]
      generalize first.binding name = here at found ⊢
      generalize second.binding (naming name) = there at found ⊢
      cases found <;> rfl
  | integer value => rfl
  | text value => rfl
  | boolean value => rfl
  | binary operator left right leftHypothesis rightHypothesis =>
      obtain ⟨leftOwn, rightOwn⟩ := List.forall_mem_append.mp own
      rw [Expression.rename, Expression.typeIn, Expression.typeIn,
        leftHypothesis leftOwn, rightHypothesis rightOwn]
      simp only [mapError_bind, alike.nameless.resultBetween]
  | unary operator operand inductionHypothesis =>
      rw [Expression.rename, Expression.typeIn, Expression.typeIn,
        inductionHypothesis own]
      simp only [mapError_bind, mapError_pure, alike.nameless.requireType]

private theorem sizeIn (alike : Correspondence named naming change related)
    (holds : related first second) {value : Expression}
    (own : ∀ name ∈ value.names, named name) :
    (value.rename naming).sizeIn second =
      (value.sizeIn first).mapError change := by
  cases value with
  | identifier name =>
      have found := alike.binding holds (own name List.mem_cons_self)
      rw [Expression.rename, Expression.sizeIn, Expression.sizeIn]
      generalize first.binding name = here at found ⊢
      generalize second.binding (naming name) = there at found ⊢
      cases found with
      | nothing error => rfl
      | bound located =>
          cases located with
          | parameter index => rfl
          | @memory id other kept =>
              rw [mapError_bind]
              simp only [Except.mapError, Except.bind, bind]
              rw [kept]
              cases first.entry id <;> rfl
  | _ => rfl

private theorem locationCode
    (alike : Correspondence named naming change related)
    {here there : Location}
    (located : here.Corresponds change first second there) :
    there.code second = (here.code first).mapError change := by
  cases located with
  | parameter index =>
      simp only [Location.code, mapError_bind, mapError_pure,
        alike.nameless.pushAddress]
  | memory kept =>
      simp only [Location.code, mapError_bind, mapError_pure,
        alike.nameless.pushAddress, kept]

private theorem code (alike : Correspondence named naming change related)
    (holds : related first second) {value : Expression}
    (own : ∀ name ∈ value.names, named name) :
    (value.rename naming).code second =
      (value.code first).mapError change := by
  induction value with
  | identifier name =>
      have found := alike.binding holds (own name List.mem_cons_self)
      rw [Expression.rename, Expression.code, Expression.code]
      generalize first.binding name = here at found ⊢
      generalize second.binding (naming name) = there at found ⊢
      cases found with
      | nothing error => rfl
      | bound located => exact alike.locationCode located
  | integer value =>
      rw [Expression.rename, Expression.code, Expression.code]
      split
      · rfl
      · exact congrArg Except.error
          (alike.nameless.integerOverflow value).symm
  | text value => rfl
  | boolean value => rfl
  | binary operator left right leftHypothesis rightHypothesis =>
      obtain ⟨leftOwn, rightOwn⟩ := List.forall_mem_append.mp own
      rw [Expression.rename, Expression.code, Expression.code,
        leftHypothesis leftOwn, rightHypothesis rightOwn]
      simp only [mapError_bind, mapError_pure]
  | unary operator operand inductionHypothesis =>
      cases operator <;>
        simp only [Expression.rename, Expression.code,
          inductionHypothesis own, mapError_bind, mapError_pure]

private theorem evaluationCode
    (alike : Correspondence named naming change related)
    (holds : related first second) {value : Expression}
    (own : ∀ name ∈ value.names, named name) :
    (value.rename naming).evaluationCode second =
      (value.evaluationCode first).mapError change := by
  simp only [Expression.evaluationCode, alike.typeIn holds own,
    alike.sizeIn holds own, alike.code holds own, mapError_bind,
    mapError_pure]

private theorem returnCode (alike : Correspondence named naming change related)
    (holds : related first second) {value : Option Expression}
    (own : ∀ name ∈ (Statement.returns value).names, named name) :
    ContractCompiler.returnCode second
        (value.map (Expression.rename naming)) =
      (ContractCompiler.returnCode first value).mapError change := by
  cases value with
  | none =>
      simp only [Option.map_none, ContractCompiler.returnCode,
        alike.returnType holds, mapError_bind, mapError_pure,
        alike.nameless.requireType]
  | some value =>
      simp only [Option.map_some, ContractCompiler.returnCode,
        alike.returnType holds, alike.typeIn holds own,
        alike.code holds own, mapError_bind, mapError_pure,
        alike.nameless.requireType]

private theorem initialCode
    (alike : Correspondence named naming change related)
    (holds : related first second) {value : Expression}
    (own : ∀ name ∈ value.names, named name) (type : ValueType) :
    ContractCompiler.initialCode second type (value.rename naming) =
      (ContractCompiler.initialCode first type value).mapError change := by
  simp only [ContractCompiler.initialCode, alike.typeIn holds own,
    alike.sizeIn holds own, alike.code holds own, mapError_bind,
    mapError_pure, alike.nameless.requireType]

private theorem conditionCode
    (alike : Correspondence named naming change related)
    (holds : related first second) {condition : Expression}
    (own : ∀ name ∈ condition.names, named name) :
    ContractCompiler.conditionCode second (condition.rename naming) =
      (ContractCompiler.conditionCode first condition).mapError change := by
  simp only [ContractCompiler.conditionCode, alike.typeIn holds own,
    alike.code holds own, mapError_bind, mapError_pure,
    alike.nameless.requireType]

/-! ### Statements -/

private theorem assignCode (alike : Correspondence named naming change related)
    (holds : related first second) {name : String} {value : Expression}
    (own : ∀ other ∈ name :: value.names, named other) (type : ValueType) :
    Generated.Corresponds change related
      (ContractCompiler.assignCode first type name value)
      (ContractCompiler.assignCode second type (naming name)
        (value.rename naming)) := by
  obtain ⟨ownName, ownValue⟩ := List.forall_mem_cons.mp own
  unfold ContractCompiler.assignCode
  rw [alike.initialCode holds ownValue]
  cases ContractCompiler.initialCode first type value with
  | error error => exact ⟨_, _, _, rfl, rfl, holds⟩
  | ok made =>
      rcases alike.define holds ownName type with
        ⟨error, here, there⟩ | ⟨next, following, here, there, holdsThen⟩
      · simp only [Except.mapError, here, there]
        exact ⟨_, _, _, rfl, rfl, holds⟩
      · obtain ⟨entries, behind⟩ := alike.allocate holdsThen ownName made.2
        simp only [Except.mapError, here, there, entries]
        cases stored : storeCode (next.allocate name made.2).1 with
        | error error =>
            exact .kept (alike.nameless.error_of_storeCode stored) behind
        | ok code => exact ⟨_, _, _, rfl, rfl, behind⟩

private theorem code_ifThen
    (alike : Correspondence named naming change related)
    (holds : related first second) {condition : Expression}
    (own : ∀ name ∈ condition.names, named name) {consequence renamed : Block}
    (inner : Block.Corresponds change related consequence renamed)
    (start : Extent) :
    Generated.Corresponds change related
      (Statement.code start first (.ifThen condition consequence))
      (Statement.code start second
        (.ifThen (condition.rename naming) renamed)) := by
  rw [Statement.code, Statement.code, alike.conditionCode holds own]
  cases ContractCompiler.conditionCode first condition with
  | error error => exact ⟨_, _, _, rfl, rfl, holds⟩
  | ok test =>
      simp only [Except.mapError]
      obtain ⟨outcome, next, following, here, there, behind⟩ :=
        inner ((start.past test).add jumpExtent) (alike.enter holds)
      rw [here, there]
      cases outcome with
      | error error => exact ⟨_, _, _, rfl, rfl, alike.leave behind⟩
      | ok body =>
          simp only [Except.mapError]
          cases aimed : targetWord
              (((start.past test).add jumpExtent).past body.code) with
          | error error =>
              exact .kept (alike.nameless.error_of_targetWord aimed)
                (alike.leave behind)
          | ok target => exact ⟨_, _, _, rfl, rfl, alike.leave behind⟩

private theorem code_ifThenElse
    (alike : Correspondence named naming change related)
    (holds : related first second) {condition : Expression}
    (own : ∀ name ∈ condition.names, named name)
    {consequence renamed alternative renamedToo : Block}
    (inner : Block.Corresponds change related consequence renamed)
    (innerToo : Block.Corresponds change related alternative renamedToo)
    (start : Extent) :
    Generated.Corresponds change related
      (Statement.code start first
        (.ifThenElse condition consequence alternative))
      (Statement.code start second
        (.ifThenElse (condition.rename naming) renamed renamedToo)) := by
  rw [Statement.code, Statement.code, alike.conditionCode holds own]
  cases ContractCompiler.conditionCode first condition with
  | error error => exact ⟨_, _, _, rfl, rfl, holds⟩
  | ok test =>
      simp only [Except.mapError]
      obtain ⟨outcome, next, following, here, there, between⟩ :=
        inner ((start.past test).add jumpExtent) (alike.enter holds)
      rw [here, there]
      cases outcome with
      | error error => exact ⟨_, _, _, rfl, rfl, alike.leave between⟩
      | ok body =>
          simp only [Except.mapError]
          generalize (((start.past test).add jumpExtent).past
            body.code).add jumpExtent = otherwise
          cases aimed : targetWord otherwise with
          | error error =>
              exact .kept (alike.nameless.error_of_targetWord aimed)
                (alike.leave between)
          | ok target =>
              simp only
              obtain ⟨outcome, last, lastToo, here, there, behind⟩ :=
                innerToo (otherwise.add targetExtent)
                  (alike.enter (alike.leave between))
              rw [here, there]
              cases outcome with
              | error error =>
                  exact ⟨_, _, _, rfl, rfl, alike.leave behind⟩
              | ok other =>
                  simp only [Except.mapError]
                  cases aimed : targetWord
                      ((otherwise.add targetExtent).past other.code) with
                  | error error =>
                      exact .kept (alike.nameless.error_of_targetWord aimed)
                        (alike.leave behind)
                  | ok ending =>
                      exact ⟨_, _, _, rfl, rfl, alike.leave behind⟩

mutual

theorem statement_code (alike : Correspondence named naming change related)
    (statement : Statement) (start : Extent) {first second : Environment}
    (holds : related first second)
    (own : ∀ name ∈ statement.names, named name) :
    Generated.Corresponds change related
      (Statement.code start first statement)
      (Statement.code start second (statement.rename naming)) := by
  match statement with
  | .evaluates value =>
      rw [Statement.rename, Statement.code, Statement.code,
        alike.evaluationCode holds own]
      cases value.evaluationCode first with
      | error error => exact ⟨_, _, _, rfl, rfl, holds⟩
      | ok code => exact ⟨_, _, _, rfl, rfl, holds⟩
  | .returns value =>
      rw [Statement.rename_returns, Statement.code, Statement.code,
        alike.returnCode holds own]
      cases ContractCompiler.returnCode first value with
      | error error => exact ⟨_, _, _, rfl, rfl, holds⟩
      | ok code => exact ⟨_, _, _, rfl, rfl, holds⟩
  | .assigns type name value =>
      rw [Statement.rename, Statement.code, Statement.code]
      obtain ⟨outcome, next, following, here, there, behind⟩ :=
        alike.assignCode holds own type
      rw [here, there]
      cases outcome with
      | error error => exact ⟨_, _, _, rfl, rfl, behind⟩
      | ok code => exact ⟨_, _, _, rfl, rfl, behind⟩
  | .ifThen condition consequence =>
      obtain ⟨ownTest, ownInner⟩ := List.forall_mem_append.mp own
      rw [Statement.rename]
      exact alike.code_ifThen holds ownTest
        (alike.block_code consequence ownInner) start
  | .ifThenElse condition consequence alternative =>
      obtain ⟨ownTest, ownBranches⟩ := List.forall_mem_append.mp own
      obtain ⟨ownInner, ownInnerToo⟩ :=
        List.forall_mem_append.mp ownBranches
      rw [Statement.rename]
      exact alike.code_ifThenElse holds ownTest
        (alike.block_code consequence ownInner)
        (alike.block_code alternative ownInnerToo) start

/-- The code of a block and that of the block with other names correspond. -/
theorem block_code (alike : Correspondence named naming change related)
    (block : Block) (own : ∀ name ∈ Statement.namesAll block, named name) :
    Block.Corresponds change related block
      (Statement.renameAll naming block) := by
  intro start first second holds
  match block with
  | [] =>
      rw [Statement.renameAll, Statement.codeAll, Statement.codeAll]
      exact ⟨_, _, _, rfl, rfl, holds⟩
  | statement :: rest =>
      obtain ⟨ownFirst, ownRest⟩ := List.forall_mem_append.mp own
      rw [Statement.renameAll, Statement.codeAll, Statement.codeAll]
      obtain ⟨outcome, next, following, here, there, between⟩ :=
        alike.statement_code statement start holds ownFirst
      rw [here, there]
      cases outcome with
      | error error => exact ⟨_, _, _, rfl, rfl, between⟩
      | ok fragment =>
          simp only [Except.mapError]
          obtain ⟨outcome, last, lastToo, here, there, behind⟩ :=
            alike.block_code rest ownRest (start.past fragment.code) between
          rw [here, there]
          cases outcome with
          | error error => exact ⟨_, _, _, rfl, rfl, behind⟩
          | ok others => exact ⟨_, _, _, rfl, rfl, behind⟩

end

end Correspondence

end ContractCompiler
