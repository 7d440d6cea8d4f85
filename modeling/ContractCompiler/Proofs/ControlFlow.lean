/-
How control flows through a linked program.

Every unit belongs to one function.  A jump leads to a jump target further on
in the same function, and the last instruction of a function returns.  So
control never leaves the function it entered, and it never comes back to where
it has been.
-/

import Mathlib.Logic.Relation
import ContractCompiler.Proofs.Jumps

namespace ContractCompiler

/-! ### Functions in a program -/

namespace Artifact

def Contains (artifact : Artifact) (number index : Nat) : Prop :=
  ∃ entry offset, artifact.functions[number]? = some entry ∧
    artifact.code.byteOffset? index = some offset ∧
    entry.offset ≤ offset ∧ offset < artifact.stopOf number

end Artifact

/-- Every instruction of a program belongs to a function. -/
theorem Linked.span_of_split {outside : List String} {base : Nat}
    {functions : List Function} {codes : List (List Instruction)}
    {entries : List FunctionEntry}
    (linked : Linked outside base functions codes entries)
    {before after : List Instruction} {instruction : Instruction}
    (shape : codes.flatten = before ++ instruction :: after) :
    ∃ number function earlier inside rest later,
      Span outside base codes entries number function earlier
        (inside ++ instruction :: rest) later ∧
      before = earlier ++ inside ∧ after = rest ++ later := by
  induction linked generalizing before with
  | nil =>
      exact absurd (congrArg List.length shape) (by simp)
  | @cons base function functions code codes entries placed others
      inductionHypothesis =>
      rw [List.flatten_cons] at shape
      rcases append_eq_append_cons shape with
        ⟨rest, rfl, rfl⟩ | ⟨inside, rfl, behind⟩
      · exact ⟨0, function, [], before, rest, codes.flatten,
          .first placed others, rfl, rfl⟩
      · rcases inductionHypothesis behind with
          ⟨number, owner, earlier, inner, rest, later, span, rfl, rfl⟩
        refine ⟨number + 1, owner, code ++ earlier, inner, rest, later,
          span.behind code _, ?_, rfl⟩
        rw [List.append_assoc]

/-! ### Units of a function -/

section

variable {outside : List String} {artifact : Artifact}
  {codes : List (List Instruction)} {number : Nat} {function : Function}
  {earlier inside rest later : List Instruction} {instruction : Instruction}

/-- An instruction in the middle of a function's code lies in that
function. -/
theorem Span.contains (linked : artifact.code = ⟨unitsOf codes.flatten⟩)
    (span : Span outside 0 codes artifact.functions number function earlier
      (inside ++ instruction :: rest) later) :
    artifact.Contains number (Extent.ofCode (earlier ++ inside)).units := by
  have whole : codes.flatten =
      (earlier ++ inside) ++ (instruction :: rest ++ later) := by
    rw [span.whole]
    simp only [List.append_assoc]
  refine ⟨_, (Extent.ofCode (earlier ++ inside)).bytes, span.starts, ?_, ?_,
    ?_⟩
  · rw [linked, whole]
    exact Assembly.byteOffset_of_split
  · rw [Extent.ofCode_append]
    simp only [Extent.add]
    omega
  · rw [span.stopOf linked, ← List.append_assoc,
      Extent.ofCode_append _ (_ :: _)]
    simp only [Extent.add, Extent.ofCode, Extent.ofInstruction]
    omega

/-- Behind an instruction of a function that does not return comes another
one. -/
theorem Function.Placed.next {base : Nat}
    (placed : function.Placed outside base (inside ++ instruction :: rest))
    (continues : instruction.opcode ≠ .returning) :
    ∃ next others, rest = next :: others := by
  cases rest with
  | cons next others =>
      exact ⟨next, others, rfl⟩
  | nil =>
      rcases placed with ⟨body, _, _, shape, _⟩
      have last := congrArg List.getLast? shape
      rw [List.getLast?_concat, functionCode, List.getLast?_concat] at last
      rw [Option.some.inj last] at continues
      exact absurd rfl continues

end

/-! ### Control flow -/

/-- Control may go from one unit with an operation to another: behind the
instruction, unless it jumps or returns, or to the address in front of a
jump. -/
inductive Assembly.Flows (code : Assembly) : Nat → Nat → Prop where
  | behind {index : Nat} {opcode : Opcode}
      (found : code.opcodeAt? index = some opcode)
      (stays : opcode ≠ .jump) (continues : opcode ≠ .returning) :
      Flows code index (index + 1 + opcode.operandCount)
  | jumps {index target : Nat} {opcode : Opcode} {word : Word}
      (found : code.opcodeAt? (index + 1) = some opcode)
      (jumping : opcode = .jump ∨ opcode = .jumpIf)
      (operand : code.operandAt? index = some word)
      (leads : code.byteOffset? target = some word.toNat) :
      Flows code (index + 1) target

/-- A unit with a jump is preceded by a push, and the pushed word is the
address of a jump target further on in the same function. -/
structure Artifact.JumpsTo (artifact : Artifact) (number index target : Nat) :
    Prop where
  pushed : ∃ front word, index = front + 2 ∧
    artifact.code.opcodeAt? front = some .push ∧
    artifact.code.operandAt? (front + 1) = some word ∧
    artifact.code.byteOffset? target = some word.toNat
  landing : artifact.code.opcodeAt? target = some .jumpTarget
  forward : index < target
  source : artifact.Contains number index
  destination : artifact.Contains number target

section

variable {contract : Contract} {parallel : Bool} {artifact : Artifact}

/-- Every operation of a compiled contract belongs to a function. -/
theorem Contract.span_of_opcodeAt
    (compiled : contract.compile parallel = .ok artifact) {index : Nat}
    {opcode : Opcode}
    (found : artifact.code.opcodeAt? index = some opcode) :
    ∃ codes number function earlier inside, ∃ instruction : Instruction,
      ∃ rest later,
      artifact.code = ⟨unitsOf codes.flatten⟩ ∧
      Span contract.functionNames 0 codes artifact.functions number function
        earlier (inside ++ instruction :: rest) later ∧
      index = (Extent.ofCode (earlier ++ inside)).units ∧
      instruction.opcode = opcode := by
  rcases linked_of_compiled compiled with ⟨_, codes, linked, whole⟩
  rw [whole] at found
  rcases Assembly.split_of_opcodeAt found with
    ⟨before, instruction, after, shape, rfl, named⟩
  rcases linked.span_of_split shape with
    ⟨number, function, earlier, inside, rest, later, span, rfl, rfl⟩
  exact ⟨codes, number, function, earlier, inside, instruction, rest, later,
    whole, span, rfl, named⟩

private theorem Contract.jumpsTo_of_compiled
    (compiled : contract.compile parallel = .ok artifact) {index : Nat}
    {opcode : Opcode}
    (found : artifact.code.opcodeAt? index = some opcode)
    (jumping : opcode = .jump ∨ opcode = .jumpIf) :
    ∃ number target, artifact.JumpsTo number index target := by
  rcases span_of_opcodeAt compiled found with
    ⟨codes, number, function, earlier, inside, instruction, rest, later,
      whole, span, rfl, rfl⟩
  rcases span.placed.jumpsForward inside instruction rest rfl jumping with
    ⟨front, word, between, back, rfl, rfl, leads⟩
  -- The program is cut at the push in front of the jump, and again at the
  -- target.
  let target := earlier ++
    (front ++ [Instruction.push word] ++ instruction :: between)
  have pushes : codes.flatten = (earlier ++ front) ++ .push word ::
      (instruction :: (between ++ .plain .jumpTarget :: back) ++ later) := by
    rw [span.whole]
    simp only [List.append_assoc, List.cons_append, List.nil_append]
  have lands : codes.flatten = target ++ .plain .jumpTarget ::
      (back ++ later) := by
    rw [span.whole]
    simp only [target, List.append_assoc, List.cons_append,
      List.nil_append]
  have spanToo : Span contract.functionNames 0 codes artifact.functions
      number function earlier ((front ++ [Instruction.push word] ++
        instruction :: between) ++ .plain .jumpTarget :: back) later := by
    simpa only [List.append_assoc, List.cons_append] using span
  refine ⟨number, (Extent.ofCode target).units, ⟨?_, ?_, ?_, ?_, ?_⟩⟩
  · refine ⟨(Extent.ofCode (earlier ++ front)).units, word, ?_, ?_, ?_, ?_⟩
    · rw [← List.append_assoc, Extent.units_append]
      rfl
    · rw [whole, pushes]
      exact Assembly.opcodeAt_of_split (.push word)
    · rw [whole, pushes]
      exact Assembly.operandAt_of_split word
    · rw [whole, lands, Assembly.byteOffset_of_split, leads,
        Extent.bytes_append, Nat.zero_add]
  · rw [whole, lands]
    exact Assembly.opcodeAt_of_split (.plain .jumpTarget)
  · simp only [target, Extent.units_append, Extent.ofCode, Extent.add,
      Extent.ofInstruction]
    omega
  · exact span.contains whole
  · exact spanToo.contains whole

/-- Control goes forward and stays in its function. -/
theorem Contract.flows_within
    (compiled : contract.compile parallel = .ok artifact)
    {index next : Nat} (flows : artifact.code.Flows index next) :
    index < next ∧ ∃ number, artifact.Contains number index ∧
      artifact.Contains number next := by
  cases flows with
  | @behind _ opcode found stays continues =>
      rcases span_of_opcodeAt compiled found with
        ⟨codes, number, function, earlier, inside, instruction, rest, later,
          whole, span, rfl, rfl⟩
      rcases span.placed.next continues with ⟨following, others, rfl⟩
      have spanToo : Span contract.functionNames 0 codes artifact.functions
          number function earlier ((inside ++ [instruction]) ++
            following :: others) later := by
        simpa only [List.append_assoc, List.cons_append,
          List.nil_append] using span
      have place : (Extent.ofCode (earlier ++ (inside ++
          [instruction]))).units = (Extent.ofCode (earlier ++ inside)).units +
            1 + instruction.opcode.operandCount := by
        rw [← List.append_assoc, Extent.units_append _ [instruction],
          ← instruction.complete]
        simp only [Extent.ofCode, Extent.add, Extent.ofInstruction]
        omega
      refine ⟨by omega, number, span.contains whole, ?_⟩
      rw [← place]
      exact spanToo.contains whole
  | @jumps index _ opcode word found jumping operand leads =>
      rcases jumpsTo_of_compiled compiled found jumping with
        ⟨number, target, reached⟩
      rcases reached.pushed with
        ⟨front, pushed, place, _, operandToo, leadsToo⟩
      have same : index = front + 1 := by omega
      rw [← same, operand] at operandToo
      cases operandToo
      rcases linked_of_compiled compiled with ⟨_, codes, _, whole⟩
      rw [whole] at leads leadsToo
      rw [Assembly.byteOffset_injective leads leadsToo]
      exact ⟨reached.forward, number, reached.source, reached.destination⟩

/-- Every jump of a compiled contract has the address of a later jump target
of the same function right in front of it.  Control stays in the function it
entered, and never comes back to a place where it has been. -/
theorem Contract.jumps_lead_forward
    (compiled : contract.compile parallel = .ok artifact) :
    (∀ index opcode, artifact.code.opcodeAt? index = some opcode →
        opcode = .jump ∨ opcode = .jumpIf →
        ∃ number target, artifact.JumpsTo number index target) ∧
      (∀ index next, artifact.code.Flows index next →
        ∃ number, artifact.Contains number index ∧
          artifact.Contains number next) ∧
      ∀ index, ¬ Relation.TransGen artifact.code.Flows index index := by
  refine ⟨?_, ?_, ?_⟩
  · intro index opcode found jumping
    exact jumpsTo_of_compiled compiled found jumping
  · intro index next flows
    exact (flows_within compiled flows).2
  · intro index cycle
    have forward : ∀ {first last : Nat},
        Relation.TransGen artifact.code.Flows first last → first < last := by
      intro first last path
      induction path with
      | single flows =>
          exact (flows_within compiled flows).1
      | tail _ flows inductionHypothesis =>
          exact Nat.lt_trans inductionHypothesis
            (flows_within compiled flows).1
    exact Nat.lt_irrefl index (forward cycle)

def choosing : Contract :=
  ⟨[⟨"none", [], .void, []⟩,
    ⟨"sign", [⟨"x", .int⟩], .int,
      [.ifThenElse (.binary .less (.identifier "x") (.integer 0))
        [.returns (some (.unary .minus (.integer 1)))]
        [.returns (some (.integer 1))]]⟩]⟩

theorem Contract.jumps_lead_forward_in_choosing :
    ∃ artifact, choosing.compile false = .ok artifact ∧
      (∃ number target, artifact.JumpsTo number 12 target) ∧
      (∃ number, artifact.Contains number 13 ∧
        artifact.Contains number 15) ∧
      ∀ index, ¬ Relation.TransGen artifact.code.Flows index index := by
  have known : (choosing.compile false).map (fun artifact =>
      (artifact.code.opcodeAt? 12, artifact.code.opcodeAt? 13)) =
        .ok (some .jumpIf, some .push) := by
    decide +kernel
  obtain ⟨artifact, compiled, operations⟩ := exists_of_map_eq_ok known
  obtain ⟨jump, push⟩ := Prod.mk.inj operations
  rcases jumps_lead_forward compiled with ⟨jumps, flows, acyclic⟩
  exact ⟨artifact, compiled, jumps 12 .jumpIf jump (Or.inr rfl),
    flows 13 15 (@Assembly.Flows.behind _ 13 .push push nofun nofun),
    acyclic⟩

end

end ContractCompiler
