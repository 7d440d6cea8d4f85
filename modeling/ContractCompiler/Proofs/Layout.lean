/-
Where the parts of code lie.

Every instruction takes as many units and bytes as its extent says, so the
place of an instruction follows from the instructions in front of it.  A unit
that holds an operation is the first unit of an instruction.
-/

import ContractCompiler.Proofs.Fragments

namespace ContractCompiler

/-! ### Extents -/

namespace Extent

private theorem add_assoc (first second third : Extent) :
    (first.add second).add third = first.add (second.add third) := by
  simp only [add, Nat.add_assoc]

theorem ofCode_append (first second : List Instruction) :
    ofCode (first ++ second) = (ofCode first).add (ofCode second) := by
  induction first with
  | nil =>
      simp only [List.nil_append, ofCode, add, Nat.zero_add]
  | cons instruction rest inductionHypothesis =>
      rw [List.cons_append, ofCode, inductionHypothesis, ofCode, add_assoc]

theorem bytes_append (first second : List Instruction) :
    (ofCode (first ++ second)).bytes =
      (ofCode first).bytes + (ofCode second).bytes := by
  rw [ofCode_append, add]

theorem units_append (first second : List Instruction) :
    (ofCode (first ++ second)).units =
      (ofCode first).units + (ofCode second).units := by
  rw [ofCode_append, add]

theorem past_append (start : Extent) (first second : List Instruction) :
    start.past (first ++ second) = (start.past first).past second := by
  rw [past, ofCode_append, past, past, add_assoc]

theorem past_cons (start : Extent) (instruction : Instruction)
    (rest : List Instruction) :
    start.past (instruction :: rest) = (start.past [instruction]).past rest :=
  past_append start [instruction] rest

theorem past_bytes (start : Extent) (code : List Instruction) :
    (start.past code).bytes = start.bytes + (ofCode code).bytes := rfl

theorem past_units (start : Extent) (code : List Instruction) :
    (start.past code).units = start.units + (ofCode code).units := rfl

/-- The place behind a jump does not depend on where it leads. -/
theorem past_jumpIf (start : Extent) (test : List Instruction)
    (target : Word) :
    start.past (test ++ jumpCode .jumpIf target) =
      (start.past test).add jumpExtent :=
  past_append start test (jumpCode .jumpIf target)

end Extent

/-! ### Units -/

def unitsOf (code : List Instruction) : List CodeUnit :=
  (Assembly.ofInstructions code).units

theorem unitsOf_cons (instruction : Instruction)
    (rest : List Instruction) :
    unitsOf (instruction :: rest) = instruction.units ++ unitsOf rest := rfl

theorem unitsOf_append (first second : List Instruction) :
    unitsOf (first ++ second) = unitsOf first ++ unitsOf second :=
  List.flatMap_append

theorem Assembly.sizeOfUnits_append (first second : List CodeUnit) :
    sizeOfUnits (first ++ second) =
      sizeOfUnits first + sizeOfUnits second := by
  induction first with
  | nil =>
      simp only [List.nil_append, sizeOfUnits, List.foldr_nil, Nat.zero_add]
  | cons unit rest inductionHypothesis =>
      simp only [sizeOfUnits, List.cons_append, List.foldr_cons]
        at inductionHypothesis ⊢
      rw [inductionHypothesis, Nat.add_assoc]

theorem Assembly.sizeOfUnits_words (words : List Word) :
    sizeOfUnits (words.map CodeUnit.ofWord) = 4 * words.length := by
  induction words with
  | nil =>
      rfl
  | cons word rest inductionHypothesis =>
      simp only [sizeOfUnits, List.map_cons, List.foldr_cons]
        at inductionHypothesis ⊢
      rw [inductionHypothesis, CodeUnit.ofWord, Word.length_bytes,
        List.length_cons]
      omega

theorem length_unitsOf (code : List Instruction) :
    (unitsOf code).length = (Extent.ofCode code).units := by
  induction code with
  | nil =>
      rfl
  | cons instruction rest inductionHypothesis =>
      rw [unitsOf_cons, List.length_append, inductionHypothesis,
        Instruction.units, List.length_cons, List.length_map]
      simp only [Extent.ofCode, Extent.add, Extent.ofInstruction]
      omega

theorem sizeOfUnits_unitsOf (code : List Instruction) :
    Assembly.sizeOfUnits (unitsOf code) = (Extent.ofCode code).bytes := by
  induction code with
  | nil =>
      rfl
  | cons instruction rest inductionHypothesis =>
      rw [unitsOf_cons, Assembly.sizeOfUnits_append, inductionHypothesis]
      show 1 + Assembly.sizeOfUnits (instruction.operands.map .ofWord) + _ = _
      rw [Assembly.sizeOfUnits_words]
      rfl

/-! ### Places -/

@[simp]
theorem CodeUnit.word_ofWord (word : Word) :
    (CodeUnit.ofWord word).word? = some word := by
  have read := Word.ofSlice_bytes word
  simp only [Word.bytes, Word.ofSlice, Except.ok.injEq] at read
  simp only [word?, ofWord, Word.bytes, read]

namespace Assembly

def opcodeAt? (code : Assembly) (index : Nat) : Option Opcode :=
  code.units[index]?.bind CodeUnit.opcode?

variable {before after : List Instruction}

/-- The place behind some instructions. -/
theorem byteOffset_of_split :
    (⟨unitsOf (before ++ after)⟩ : Assembly).byteOffset?
      (Extent.ofCode before).units = some (Extent.ofCode before).bytes := by
  rw [byteOffset?, unitsOf_append, length, ← length_unitsOf, if_pos,
    List.take_left, sizeOfUnits_unitsOf]
  rw [List.length_append]
  exact Nat.le_add_right _ _

theorem opcodeAt_of_split (instruction : Instruction) :
    (⟨unitsOf (before ++ instruction :: after)⟩ : Assembly).opcodeAt?
      (Extent.ofCode before).units = some instruction.opcode := by
  rw [opcodeAt?, unitsOf_append, ← length_unitsOf,
    List.getElem?_append_right (Nat.le_refl _), Nat.sub_self]
  exact Opcode.ofByte_byte instruction.opcode

theorem operandAt_of_split (word : Word) :
    (⟨unitsOf (before ++ .push word :: after)⟩ : Assembly).operandAt?
      ((Extent.ofCode before).units + 1) = some word := by
  rw [operandAt?, unitsOf_append, ← length_unitsOf,
    List.getElem?_append_right (Nat.le_add_right _ _),
    Nat.add_sub_cancel_left]
  exact CodeUnit.word_ofWord word

/-- A unit with an operation is the first unit of an instruction. -/
theorem split_of_opcodeAt {code : List Instruction} {index : Nat}
    {opcode : Opcode}
    (found : (⟨unitsOf code⟩ : Assembly).opcodeAt? index = some opcode) :
    ∃ before, ∃ instruction : Instruction, ∃ after,
      code = before ++ instruction :: after ∧
      index = (Extent.ofCode before).units ∧
      instruction.opcode = opcode := by
  induction code generalizing index with
  | nil =>
      cases found
  | cons instruction rest inductionHypothesis =>
      cases index with
      | zero =>
          refine ⟨[], instruction, rest, rfl, rfl, ?_⟩
          have first : Opcode.ofByte? instruction.opcode.byte =
            some opcode := found
          rw [Opcode.ofByte_byte] at first
          exact Option.some.inj first
      | succ index =>
          have behind : ((instruction.operands.map CodeUnit.ofWord ++
              unitsOf rest)[index]?).bind CodeUnit.opcode? =
                some opcode := found
          have count : (instruction.operands.map CodeUnit.ofWord).length =
            instruction.operands.length := List.length_map _
          by_cases operand : index < instruction.operands.length
          · rw [List.getElem?_append_left (count ▸ operand),
              List.getElem?_map, List.getElem?_eq_getElem operand] at behind
            cases behind
          · have past := Nat.le_of_not_lt operand
            rw [List.getElem?_append_right (count ▸ past), count] at behind
            rcases inductionHypothesis behind with
              ⟨before, holder, after, rfl, same, named⟩
            refine ⟨instruction :: before, holder, after, rfl, ?_, named⟩
            simp only [Extent.ofCode, Extent.add, Extent.ofInstruction]
            omega

theorem bytes_ne_nil {code : List Instruction} {unit : CodeUnit}
    (member : unit ∈ unitsOf code) : unit.bytes ≠ [] := by
  rcases List.mem_flatMap.mp member with ⟨instruction, _, inside⟩
  rcases List.mem_cons.mp inside with rfl | operand
  · exact nofun
  · rcases List.mem_map.mp operand with ⟨word, _, rfl⟩
    exact nofun

private theorem sizeOfUnits_pos {units : List CodeUnit} (nonempty : units ≠ [])
    (filled : ∀ unit ∈ units, unit.bytes ≠ []) : 0 < sizeOfUnits units := by
  cases units with
  | nil =>
      exact absurd rfl nonempty
  | cons unit rest =>
      exact Nat.add_pos_left
        (List.length_pos_iff.mpr (filled unit List.mem_cons_self)) _

/-- Places further on have more bytes before them. -/
theorem sizeOfUnits_take_lt {code : List Instruction} {first second : Nat}
    (before : first < second) (inside : second ≤ (unitsOf code).length) :
    sizeOfUnits ((unitsOf code).take first) <
      sizeOfUnits ((unitsOf code).take second) := by
  have split : (unitsOf code).take second =
      (unitsOf code).take first ++
        ((unitsOf code).take second).drop first := by
    conv => lhs; rw [← List.take_append_drop first
      ((unitsOf code).take second), List.take_take,
      Nat.min_eq_left (Nat.le_of_lt before)]
  rw [split, sizeOfUnits_append]
  refine Nat.lt_add_of_pos_right (sizeOfUnits_pos ?_ ?_)
  · intro empty
    have length := congrArg List.length empty
    rw [List.length_drop, List.length_take, Nat.min_eq_left inside] at length
    exact absurd length (Nat.sub_ne_zero_of_lt before)
  · intro unit member
    exact bytes_ne_nil
      (List.mem_of_mem_take (List.mem_of_mem_drop member))

/-- No two places have the same number of bytes before them. -/
theorem byteOffset_injective {code : List Instruction} {first second : Nat}
    {offset : Nat}
    (found : (⟨unitsOf code⟩ : Assembly).byteOffset? first = some offset)
    (foundToo : (⟨unitsOf code⟩ : Assembly).byteOffset? second =
      some offset) : first = second := by
  unfold byteOffset? at found foundToo
  split at found
  next inside =>
    split at foundToo
    next insideToo =>
      have same := (Option.some.inj found).trans
        (Option.some.inj foundToo).symm
      rcases Nat.lt_trichotomy first second with before | equal | behind
      · exact absurd same (Nat.ne_of_lt (sizeOfUnits_take_lt before insideToo))
      · exact equal
      · exact absurd same (Nat.ne_of_gt (sizeOfUnits_take_lt behind inside))
    next => cases foundToo
  next => cases found

end Assembly

end ContractCompiler
