/-
Code and the names around a function.

All that code takes from the functions around it is which names are theirs: a
name without a variable is reported as no value when a function has it, and as
undefined otherwise.  So the code of a function, or its error, is the same
whenever the same names are declared, in whatever order.
-/

import ContractCompiler.Proofs.Correspondence
import ContractCompiler.Proofs.Outcomes

namespace ContractCompiler

/-- Environments that differ at most in how the same names around the function
are listed. -/
inductive Environment.Similar : Environment → Environment → Prop where
  | intro (environment : Environment) (names : List String)
      (same : ∀ name,
        environment.outside.contains name = names.contains name) :
      Similar environment { environment with outside := names }

variable {first second : Environment}

namespace Environment.Similar

private theorem binding (similar : first.Similar second) (name : String) :
    second.binding name = first.binding name := by
  cases similar with
  | intro names same =>
      simp only [Environment.binding, lookup?, same]

private theorem entry (similar : first.Similar second) (id : String) :
    second.entry id = first.entry id := by
  cases similar
  rfl

private theorem returnType (similar : first.Similar second) :
    second.returnType = first.returnType := by
  cases similar
  rfl

private theorem enter (similar : first.Similar second) :
    first.enter.Similar second.enter := by
  cases similar with
  | intro names same => exact .intro _ names same

private theorem leave (similar : first.Similar second) :
    first.leave.Similar second.leave := by
  cases similar with
  | intro names same => exact .intro _ names same

private theorem allocate (similar : first.Similar second) (name : String)
    (size : Nat) :
    (second.allocate name size).1 = (first.allocate name size).1 ∧
      (first.allocate name size).2.Similar
        (second.allocate name size).2 := by
  cases similar with
  | intro names same => exact ⟨rfl, .intro _ names same⟩

private theorem define (similar : first.Similar second) (name : String)
    (type : ValueType) :
    (∃ error, first.define name type = .error error ∧
      second.define name type = .error error) ∨
    ∃ next following, first.define name type = .ok next ∧
      second.define name type = .ok following ∧ next.Similar following := by
  cases similar with
  | intro names same =>
      unfold Environment.define
      cases Symbol.ofType type name with
      | error error =>
          left
          exact ⟨_, rfl, rfl⟩
      | ok symbol =>
          cases frames : first.frames with
          | nil =>
              by_cases taken : (first.locals.lookup name).isSome = true
              · left
                simp only [taken, if_true]
                exact ⟨_, rfl, rfl⟩
              · right
                simp only [taken]
                exact ⟨_, _, rfl, rfl, .intro _ names same⟩
          | cons frame rest =>
              by_cases taken : (frame.locals.lookup name).isSome = true
              · left
                simp only [taken, if_true]
                exact ⟨_, rfl, rfl⟩
              · right
                simp only [taken]
                exact ⟨_, _, rfl, rfl, .intro _ names same⟩

private theorem finds (similar : first.Similar second)
    (found : Except CodeError (ValueType × Location)) :
    Environment.Finds id first second found found := by
  rcases found with error | ⟨type, index | name⟩
  · exact .nothing error
  · exact .bound (.parameter index)
  · have kept : second.entry name = (first.entry name).mapError id := by
      rw [similar.entry]
      cases first.entry name <;> rfl
    exact .bound (.memory kept)

/-- Similar environments answer alike under the same names. -/
theorem correspondence :
    Correspondence (fun _ => True) id id Environment.Similar where
  nameless :=
    ⟨fun _ _ => rfl, fun _ _ => rfl, fun _ => rfl, fun _ => rfl⟩
  returnType := fun similar => similar.returnType
  binding := by
    intro first second name similar _
    rw [id, similar.binding]
    exact similar.finds (first.binding name)
  enter := fun similar => similar.enter
  leave := fun similar => similar.leave
  define := fun similar _ type => similar.define _ type
  allocate := fun similar _ size => similar.allocate _ size

end Environment.Similar

/-! ### Statements -/

def Generated.Alike {α : Type} (first second : Generated α) : Prop :=
  ∃ outcome next following, first = (outcome, next) ∧
    second = (outcome, following) ∧ next.Similar following

private theorem Statement.codeAll_alike (block : Block) (start : Extent)
    {first second : Environment} (similar : first.Similar second) :
    Generated.Alike (Statement.codeAll start first block)
      (Statement.codeAll start second block) := by
  have coded := Environment.Similar.correspondence.block_code block
    (fun _ _ => trivial) start similar
  rw [Statement.renameAll_id] at coded
  obtain ⟨outcome, next, following, made, madeToo, behind⟩ := coded
  refine ⟨outcome, next, following, made, ?_, behind⟩
  rw [madeToo]
  cases outcome <;> rfl

/-- What comes out for a function depends on which names are declared, not on
how they are listed. -/
theorem Function.outcome_congr (function : Function)
    {names others : List String}
    (same : ∀ name, name ∈ names ↔ name ∈ others) :
    function.outcome names = function.outcome others := by
  have listed : ∀ name, names.contains name = others.contains name := by
    intro name
    rw [Bool.eq_iff_iff, List.contains_iff_mem, List.contains_iff_mem]
    exact same name
  have similar : (function.entry names).Similar (function.entry others) :=
    .intro (function.entry names) others listed
  rcases Statement.codeAll_alike function.body targetExtent similar with
    ⟨outcome, next, following, made, madeToo, _⟩
  rw [Function.outcome, Function.outcome, Function.code_eq,
    Function.code_eq, made, madeToo]
  cases outcome with
  | error error => rfl
  | ok fragment => rfl

end ContractCompiler
