/-
What a linked program looks like.

A linked program is the code of its functions, one behind another.  Each
function has the code that its body has when it starts where the function was
put, between a jump target and a return.
-/

import ContractCompiler.Proofs.Outcomes
import ContractCompiler.Proofs.Relocation

namespace ContractCompiler

def functionCode (body : List Instruction) : List Instruction :=
  .plain .jumpTarget :: body ++ [.plain .returning]

def Function.Placed (function : Function) (outside : List String)
    (base : Nat) (code : List Instruction) : Prop :=
  ∃ body sites final, code = functionCode body ∧
    Block.Generates (targetExtent.raise base) (function.entry outside)
      function.body ⟨body, sites⟩ final

inductive Linked (outside : List String) : Nat → List Function →
    List (List Instruction) → List FunctionEntry → Prop where
  | nil {base : Nat} : Linked outside base [] [] []
  | cons {base : Nat} {function : Function} {functions : List Function}
      {code : List Instruction} {codes : List (List Instruction)}
      {entries : List FunctionEntry}
      (placed : function.Placed outside base code)
      (rest : Linked outside (base + (Extent.ofCode code).bytes) functions
        codes entries) :
      Linked outside base (function :: functions) (code :: codes)
        (⟨function.name, base⟩ :: entries)

/-! ### Linking -/

theorem Function.outcome_eq_ok {function : Function} {outside : List String}
    {code : FunctionCode} (compiled : function.outcome outside = .ok code) :
    ∃ body final,
      Block.Generates targetExtent (function.entry outside) function.body
        body final ∧
      code = ⟨function.name, .ofInstructions (functionCode body.code),
        body.sites⟩ := by
  rw [outcome, Function.code_eq] at compiled
  split at compiled
  · cases compiled
  next found generated =>
  cases compiled
  split at generated
  · cases generated
  next body final bodyCompiled =>
  cases generated
  exact ⟨body, final, Block.generates_of_codeAll _ bodyCompiled, rfl⟩

/-- Moving the code of a function either fails for an address that is too
large, or gives its code at another place. -/
theorem Function.relocate_code {function : Function} {outside : List String}
    {code : FunctionCode} (compiled : function.outcome outside = .ok code)
    (base : Nat) :
    Overflows (Artifact.relocate base code.code code.jumpSites) ∨
      ∃ placed, function.Placed outside base placed ∧
        Artifact.relocate base code.code code.jumpSites =
          .ok ⟨unitsOf placed⟩ := by
  rcases outcome_eq_ok compiled with ⟨body, final, generated, rfl⟩
  have shape : ∀ inner, unitsOf (functionCode inner) =
      unitsOf [Instruction.plain .jumpTarget] ++ unitsOf inner ++
        unitsOf [.plain .returning] := by
    intro inner
    rw [← unitsOf_append, ← unitsOf_append]
    rfl
  have whole : Assembly.ofInstructions (functionCode body.code) =
      ⟨unitsOf (functionCode body.code)⟩ := rfl
  simp only [whole, shape]
  rcases generated.relocatable base (unitsOf [.plain .jumpTarget])
      (unitsOf [.plain .returning]) rfl with
    overflows | ⟨moved, generatedThere, _, relocated⟩
  · exact Or.inl overflows
  · refine Or.inr ⟨functionCode moved,
      ⟨moved, body.sites, final, rfl, generatedThere⟩, ?_⟩
    rw [relocated, shape]

namespace Artifact

variable {outside : List String}

private theorem addFunction_of_compiled (artifact : Artifact)
    {function : Function} {code : FunctionCode}
    (compiled : function.outcome outside = .ok code) :
    Overflows (artifact.addFunction code) ∨
      ∃ placed,
        function.Placed outside artifact.code.byteLength placed ∧
        artifact.addFunction code =
          .ok ⟨⟨artifact.code.units ++ unitsOf placed⟩,
            artifact.functions ++
              [⟨function.name, artifact.code.byteLength⟩]⟩ := by
  have named : code.name = function.name := by
    rcases Function.outcome_eq_ok compiled with ⟨_, _, _, rfl⟩
    rfl
  unfold addFunction
  rcases Function.relocate_code compiled artifact.code.byteLength with
    ⟨address, overflows⟩ | ⟨placed, there, relocated⟩
  · simp only [overflows]
    exact Or.inl ⟨address, rfl⟩
  · simp only [relocated, named]
    exact Or.inr ⟨placed, there, rfl⟩

/-- Adding functions behind a program either fails for an address that is too
large, or puts their codes one behind another. -/
theorem addFunctions_of_compiled (artifact : Artifact)
    {functions : List Function} {codes : List FunctionCode}
    (compiled : List.Forall₂
      (fun function code => function.outcome outside = .ok code)
      functions codes) :
    Overflows (artifact.addFunctions codes) ∨
      ∃ placed entries,
        Linked outside artifact.code.byteLength functions placed entries ∧
        artifact.addFunctions codes =
          .ok ⟨⟨artifact.code.units ++ unitsOf placed.flatten⟩,
            artifact.functions ++ entries⟩ := by
  -- Each function starts where the program so far ends.
  induction compiled generalizing artifact with
  | nil =>
      refine Or.inr ⟨[], [], .nil, ?_⟩
      rw [addFunctions, List.flatten_nil]
      simp only [unitsOf, Assembly.ofInstructions, List.flatMap_nil,
        List.append_nil]
  | @cons function code functions codes first rest inductionHypothesis =>
      rw [addFunctions]
      rcases artifact.addFunction_of_compiled first with
        ⟨address, overflows⟩ | ⟨placed, there, added⟩
      · rw [overflows]
        exact Or.inl ⟨address, rfl⟩
      · rw [added]
        simp only
        rcases inductionHypothesis ⟨⟨artifact.code.units ++ unitsOf placed⟩,
            artifact.functions ++
              [⟨function.name, artifact.code.byteLength⟩]⟩ with
          overflows | ⟨others, entries, linked, addedToo⟩
        · exact Or.inl overflows
        · have length : (⟨artifact.code.units ++ unitsOf placed⟩ :
              Assembly).byteLength =
              artifact.code.byteLength + (Extent.ofCode placed).bytes := by
            rw [Assembly.byteLength, Assembly.sizeOfUnits_append,
              sizeOfUnits_unitsOf]
            rfl
          rw [length] at linked
          refine Or.inr ⟨placed :: others, _, .cons there linked, ?_⟩
          rw [addedToo, List.flatten_cons, unitsOf_append]
          simp only [List.append_assoc]
          rfl

end Artifact

/-- A contract that compiles is linked from the codes of its functions. -/
theorem Contract.linked_of_compiled {contract : Contract} {parallel : Bool}
    {artifact : Artifact}
    (compiled : contract.compile parallel = .ok artifact) :
    Declarable contract.functions ∧ ∃ codes,
      Linked contract.functionNames 0 contract.functions codes
        artifact.functions ∧
      artifact.code = ⟨unitsOf codes.flatten⟩ := by
  rcases compile_eq_ok compiled with ⟨declarable, codes, coded, linked⟩
  refine ⟨declarable, ?_⟩
  rcases Artifact.addFunctions_of_compiled .empty coded with
    ⟨address, overflows⟩ | ⟨placed, entries, chained, added⟩
  · rw [Artifact.link, overflows] at linked
    cases linked
  · rw [Artifact.link, added] at linked
    cases linked
    exact ⟨placed, chained, rfl⟩

/-! ### Functions in a program -/

def Artifact.stopOf (artifact : Artifact) (number : Nat) : Nat :=
  match artifact.functions[number + 1]? with
  | some next => next.offset
  | none => artifact.code.byteLength

structure Span (outside : List String) (base : Nat)
    (codes : List (List Instruction)) (entries : List FunctionEntry)
    (number : Nat) (function : Function)
    (earlier code later : List Instruction) : Prop where
  whole : codes.flatten = earlier ++ code ++ later
  starts : entries[number]? =
    some ⟨function.name, base + (Extent.ofCode earlier).bytes⟩
  stops : (entries[number + 1]?.map FunctionEntry.offset).getD
      (base + (Extent.ofCode codes.flatten).bytes) =
    base + (Extent.ofCode (earlier ++ code)).bytes
  placed : function.Placed outside (base + (Extent.ofCode earlier).bytes)
    code

section

variable {outside : List String} {base number : Nat}
  {functions : List Function} {function : Function}
  {codes : List (List Instruction)} {entries : List FunctionEntry}
  {earlier code later : List Instruction}

theorem Linked.starts
    (linked : Linked outside base functions codes entries) :
    (entries[0]?.map FunctionEntry.offset).getD
      (base + (Extent.ofCode codes.flatten).bytes) = base := by
  cases linked with
  | nil => rfl
  | cons placed rest => rfl

/-- The first function starts where the program does. -/
theorem Span.first (placed : function.Placed outside base code)
    (rest : Linked outside (base + (Extent.ofCode code).bytes) functions
      codes entries) :
    Span outside base (code :: codes) (⟨function.name, base⟩ :: entries) 0
      function [] code codes.flatten where
  whole := rfl
  starts := rfl
  stops := by
    have next := rest.starts
    rw [List.getElem?_cons_succ, List.flatten_cons, Extent.ofCode_append,
      Extent.add, ← Nat.add_assoc]
    exact next
  placed := placed

/-- A function keeps its place behind one more function. -/
theorem Span.behind (first : List Instruction) (entry : FunctionEntry)
    (span : Span outside (base + (Extent.ofCode first).bytes) codes entries
      number function earlier code later) :
    Span outside base (first :: codes) (entry :: entries) (number + 1)
      function (first ++ earlier) code later where
  whole := by
    rw [List.flatten_cons, span.whole]
    simp only [List.append_assoc]
  starts := by
    rw [List.getElem?_cons_succ, span.starts, Extent.ofCode_append,
      Extent.add, Nat.add_assoc]
  stops := by
    rw [List.getElem?_cons_succ, List.flatten_cons, List.append_assoc,
      Extent.ofCode_append, Extent.ofCode_append first]
    simp only [Extent.add, ← Nat.add_assoc]
    exact span.stops
  placed := by
    rw [Extent.ofCode_append, Extent.add, ← Nat.add_assoc]
    exact span.placed

/-- Every function has its place in a program. -/
theorem Linked.span_of_mem
    (linked : Linked outside base functions codes entries)
    (member : function ∈ functions) :
    ∃ number earlier code later, Span outside base codes entries number
      function earlier code later := by
  induction linked with
  | nil =>
      cases member
  | cons placed rest inductionHypothesis =>
      rcases List.mem_cons.mp member with rfl | member
      · exact ⟨_, _, _, _, .first placed rest⟩
      · rcases inductionHypothesis member with
          ⟨_, _, _, _, span⟩
        exact ⟨_, _, _, _, span.behind _ _⟩

theorem Span.stopOf {artifact : Artifact}
    (linked : artifact.code = ⟨unitsOf codes.flatten⟩)
    (span : Span outside 0 codes artifact.functions number function earlier
      code later) :
    artifact.stopOf number = (Extent.ofCode (earlier ++ code)).bytes := by
  have stops := span.stops
  rw [← sizeOfUnits_unitsOf, Nat.zero_add, Nat.zero_add] at stops
  rw [← stops, Artifact.stopOf, linked]
  cases artifact.functions[number + 1]? <;> rfl

end

end ContractCompiler
