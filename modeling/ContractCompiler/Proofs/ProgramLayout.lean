/-
The layout of a compiled contract.

Functions stand in the order of their declaration, without gaps.  Each starts
with a jump target and ends with a return, so the stretches of code between
two entries are closed under control flow.  Bytes alone are enough to read the
whole program back.
-/

import Mathlib.Data.List.Nodup
import ContractCompiler.Proofs.ControlFlow
import ContractCompiler.Proofs.Preservation
import ContractCompiler.Proofs.WireFormat

namespace ContractCompiler

/-! ### Entries -/

section

variable {outside : List String} {base : Nat} {functions : List Function}
  {codes : List (List Instruction)} {entries : List FunctionEntry}

theorem Function.Placed.bytes_pos {function : Function}
    {code : List Instruction} (placed : function.Placed outside base code) :
    0 < (Extent.ofCode code).bytes := by
  obtain ⟨body, sites, final, rfl, generated⟩ := placed
  simp only [functionCode, List.cons_append, Extent.ofCode, Extent.add,
    Extent.ofInstruction]
  omega

theorem Linked.le_offset
    (linked : Linked outside base functions codes entries) :
    ∀ entry ∈ entries, base ≤ entry.offset := by
  induction linked with
  | nil =>
      intro entry member
      cases member
  | cons placed rest inductionHypothesis =>
      intro entry member
      rcases List.mem_cons.mp member with rfl | member
      · exact Nat.le_refl _
      · have behind := inductionHypothesis entry member
        omega

private theorem Linked.increasing
    (linked : Linked outside base functions codes entries) :
    (entries.map FunctionEntry.offset).Pairwise (· < ·) := by
  induction linked with
  | nil =>
      exact List.Pairwise.nil
  | cons placed rest inductionHypothesis =>
      rw [List.map_cons, List.pairwise_cons]
      constructor
      · intro offset member
        obtain ⟨entry, listed, rfl⟩ := List.mem_map.mp member
        have behind := rest.le_offset entry listed
        have filled := placed.bytes_pos
        exact Nat.lt_of_lt_of_le (Nat.lt_add_of_pos_right filled) behind
      · exact inductionHypothesis

private theorem Linked.span_of_getElem
    (linked : Linked outside base functions codes entries) {number : Nat}
    {entry : FunctionEntry} (found : entries[number]? = some entry) :
    ∃ function earlier code later, Span outside base codes entries number
      function earlier code later := by
  induction linked generalizing number with
  | nil =>
      cases found
  | @cons base function functions code codes entries placed rest
      inductionHypothesis =>
      cases number with
      | zero =>
          exact ⟨function, [], code, codes.flatten, .first placed rest⟩
      | succ number =>
          obtain ⟨owner, earlier, inside, later, span⟩ :=
            inductionHypothesis found
          exact ⟨owner, code ++ earlier, inside, later, span.behind code _⟩

end

namespace Artifact

variable {artifact : Artifact}

theorem functionOffset_eq_some_iff
    (distinct : (artifact.functions.map FunctionEntry.name).Nodup)
    {name : String} {offset : Nat} :
    artifact.functionOffset? name = some offset ↔
      ⟨name, offset⟩ ∈ artifact.functions := by
  constructor
  · intro found
    obtain ⟨entry, first, rfl⟩ := Option.map_eq_some_iff.mp found
    have named := List.find?_some first
    rw [← eq_of_beq named]
    exact List.mem_of_find?_eq_some first
  · intro member
    obtain ⟨number, inside, same⟩ := List.mem_iff_getElem.mp member
    exact functionOffset_eq_some distinct
      ((List.getElem?_eq_getElem inside).trans (congrArg some same))

/-- A function ends before the later ones start. -/
theorem stopOf_le
    (increasing : (artifact.functions.map FunctionEntry.offset).Pairwise
      (· < ·)) {number other : Nat} {entry : FunctionEntry}
    (before : number < other)
    (found : artifact.functions[other]? = some entry) :
    artifact.stopOf number ≤ entry.offset := by
  obtain ⟨inside, rfl⟩ := List.getElem?_eq_some_iff.mp found
  have next : number + 1 < artifact.functions.length := by omega
  rw [stopOf, List.getElem?_eq_getElem next]
  by_cases same : number + 1 = other
  · subst same
    exact Nat.le_refl _
  · exact Nat.le_of_lt (List.pairwise_iff_getElem.mp
      (List.pairwise_map.mp increasing) (number + 1) other next inside
      (by omega))

private theorem Contains.unique
    (increasing : (artifact.functions.map FunctionEntry.offset).Pairwise
      (· < ·)) {number other index : Nat}
    (first : artifact.Contains number index)
    (second : artifact.Contains other index) : number = other := by
  obtain ⟨entry, offset, found, placed, starts, stops⟩ := first
  obtain ⟨entryToo, offsetToo, foundToo, placedToo, startsToo, stopsToo⟩ :=
    second
  rw [placed] at placedToo
  cases placedToo
  rcases Nat.lt_trichotomy number other with before | same | behind
  · have apart := stopOf_le increasing before foundToo
    omega
  · exact same
  · have apart := stopOf_le increasing behind found
    omega

/-! ### The layout -/

structure LaidOut (artifact : Artifact) (functions : List Function) :
    Prop where
  -- The bytes of the program are enough to read it back.
  decodes : Assembly.disassemble artifact.code.bytes = .ok artifact.code
  -- The entries are those of the functions, in order and without gaps.
  names : artifact.functions.map FunctionEntry.name =
    functions.map Function.name
  starts : ∀ entry, artifact.functions[0]? = some entry → entry.offset = 0
  increasing : (artifact.functions.map FunctionEntry.offset).Pairwise
    (· < ·)
  -- Between an entry and the next one stands code from a jump target to a
  -- return.
  stretches : ∀ number entry, artifact.functions[number]? = some entry →
    ∃ first past inner,
      artifact.code.byteOffset? first = some entry.offset ∧
      artifact.code.byteOffset? past = some (artifact.stopOf number) ∧
      artifact.code.opcodeAt? first = some .jumpTarget ∧
      (artifact.code.units.take past).drop first =
        .ofOpcode .jumpTarget :: inner ++ [.ofOpcode .returning]
  -- Control does not leave the stretch it is in.
  closed : ∀ number index next, artifact.Contains number index →
    artifact.code.Flows index next → artifact.Contains number next
  -- A name finds the entry of the only function that has it.
  distinct : (functions.map Function.name).Nodup
  found : ∀ name offset, artifact.functionOffset? name = some offset ↔
    ⟨name, offset⟩ ∈ artifact.functions

end Artifact

private theorem unitsOf_functionCode (body : List Instruction) :
    unitsOf (functionCode body) =
      .ofOpcode .jumpTarget :: unitsOf body ++
        [CodeUnit.ofOpcode .returning] := by
  rw [functionCode, unitsOf_append]
  rfl

/-- The stretch of a program that a function has. -/
theorem Span.stretch {outside : List String} {artifact : Artifact}
    {codes : List (List Instruction)} {number : Nat} {function : Function}
    {earlier code later : List Instruction}
    (linked : artifact.code = ⟨unitsOf codes.flatten⟩)
    (span : Span outside 0 codes artifact.functions number function earlier
      code later) :
    artifact.code.byteOffset? (Extent.ofCode earlier).units =
        some (Extent.ofCode earlier).bytes ∧
      artifact.code.byteOffset? (Extent.ofCode (earlier ++ code)).units =
        some (artifact.stopOf number) ∧
      (artifact.code.units.take (Extent.ofCode (earlier ++ code)).units).drop
          (Extent.ofCode earlier).units = unitsOf code := by
  rw [span.stopOf linked, linked, span.whole]
  refine ⟨?_, Assembly.byteOffset_of_split, ?_⟩
  · rw [List.append_assoc]
    exact Assembly.byteOffset_of_split
  · simp only
    rw [← length_unitsOf, ← length_unitsOf, unitsOf_append (earlier ++ code),
      List.take_left, unitsOf_append, List.drop_left]

/-- A compiled contract is laid out in the order of its declarations. -/
theorem Contract.compiled_laidOut {contract : Contract} {parallel : Bool}
    {artifact : Artifact}
    (compiled : contract.compile parallel = .ok artifact) :
    artifact.LaidOut contract.functions := by
  obtain ⟨declarable, codes, linked, whole⟩ := linked_of_compiled compiled
  have named := linked.names
  have increasing := linked.increasing
  have distinct := declarable.names
  constructor
  · rw [Assembly.disassemble_eq_ok]
    exact ⟨⟨codes.flatten, whole⟩, rfl⟩
  · exact named
  · intro entry found
    obtain ⟨function, earlier, code, later, span⟩ :=
      linked.span_of_getElem found
    have first := linked.starts
    rw [found] at first
    exact first
  · exact increasing
  · intro number entry found
    obtain ⟨function, earlier, code, later, span⟩ :=
      linked.span_of_getElem found
    have starts := span.starts
    rw [found, Nat.zero_add] at starts
    cases starts
    obtain ⟨first, past, stretch⟩ := span.stretch whole
    obtain ⟨body, sites, final, rfl, generated⟩ := span.placed
    rw [unitsOf_functionCode] at stretch
    refine ⟨_, _, _, first, past, ?_, stretch⟩
    rw [whole, span.whole, functionCode, List.append_assoc]
    exact Assembly.opcodeAt_of_split (.plain .jumpTarget)
  · intro number index next inside flows
    obtain ⟨forward, owner, owned, reached⟩ := flows_within compiled flows
    rw [Artifact.Contains.unique increasing inside owned]
    exact reached
  · exact distinct
  · intro name offset
    rw [← named] at distinct
    exact Artifact.functionOffset_eq_some_iff distinct

theorem Contract.choosing_laidOut :
    ∃ artifact, choosing.compile true = .ok artifact ∧
      artifact.LaidOut choosing.functions ∧
      artifact.functions = [⟨"none", 0⟩, ⟨"sign", 2⟩] := by
  have known : (choosing.compile true).map Artifact.functions =
      .ok [⟨"none", 0⟩, ⟨"sign", 2⟩] := by
    decide +kernel
  obtain ⟨artifact, compiled, functions⟩ := exists_of_map_eq_ok known
  exact ⟨artifact, compiled, compiled_laidOut compiled, functions⟩

end ContractCompiler
