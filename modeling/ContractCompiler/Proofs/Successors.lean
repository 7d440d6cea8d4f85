/-
Where control goes from an instruction.

An instruction that neither jumps nor returns leads to the one behind it and
nowhere else.  A jump leads to the place with the address in front of it.
Nothing comes after a return.
-/

import ContractCompiler.Proofs.ControlFlow

namespace ContractCompiler

theorem Extent.units_pos (instruction : Instruction)
    (rest : List Instruction) :
    0 < (Extent.ofCode (instruction :: rest)).units := by
  simp only [Extent.ofCode, Extent.add, Extent.ofInstruction]
  omega

/-- The instructions in front of a place are known from their number of
units. -/
theorem prefix_unique {first second before after : List Instruction}
    (shape : first ++ second = before ++ after)
    (same : (Extent.ofCode first).units = (Extent.ofCode before).units) :
    first = before := by
  have nothing : ∀ {code more : List Instruction},
      (Extent.ofCode code).units = (Extent.ofCode (code ++ more)).units →
      more = [] := by
    intro code more equal
    cases more with
    | nil => rfl
    | cons instruction rest =>
        have filled := Extent.units_pos instruction rest
        rw [Extent.units_append] at equal
        omega
  rcases List.append_eq_append_iff.mp shape with
    ⟨more, rfl, _⟩ | ⟨more, rfl, _⟩
  · rw [nothing same, List.append_nil]
  · rw [nothing same.symm, List.append_nil]

private theorem Instruction.eq_plain {instruction : Instruction}
    {opcode : Opcode} (named : instruction.opcode = opcode)
    (alone : opcode.operandCount = 0) : instruction = .plain opcode := by
  obtain ⟨found, operands, complete⟩ := instruction
  subst named
  have empty : operands = [] := by
    rw [alone] at complete
    exact List.eq_nil_of_length_eq_zero complete
  subst empty
  simp only [plain, alone, List.replicate_zero]

theorem Extent.units_behind (before : List Instruction)
    (instruction : Instruction) :
    (Extent.ofCode (before ++ [instruction])).units =
      (Extent.ofCode before).units + 1 + instruction.opcode.operandCount := by
  rw [Extent.units_append, ← instruction.complete]
  simp only [Extent.ofCode, Extent.add, Extent.ofInstruction]
  omega

private theorem Instruction.word_of_last_unit (instruction : Instruction) :
    instruction.units[instruction.operands.length]?.bind CodeUnit.word? =
      instruction.operands.getLast? := by
  unfold units
  cases instruction.operands with
  | nil =>
      rfl
  | cons word words =>
      rw [List.length_cons, List.getElem?_cons_succ, List.getElem?_map,
        List.getLast?_eq_getElem?, List.length_cons, Nat.add_sub_cancel]
      cases (word :: words)[words.length]? with
      | none => rfl
      | some last => exact CodeUnit.word_ofWord last

namespace Assembly

def Holds (code : Assembly) (before piece : List Instruction) : Prop :=
  ∃ after, code = ⟨unitsOf (before ++ piece ++ after)⟩

namespace Holds

variable {code : Assembly} {before first second : List Instruction}

theorem left (held : code.Holds before (first ++ second)) :
    code.Holds before first := by
  obtain ⟨after, rfl⟩ := held
  refine ⟨second ++ after, ?_⟩
  simp only [List.append_assoc]

theorem right (held : code.Holds before (first ++ second)) :
    code.Holds (before ++ first) second := by
  obtain ⟨after, rfl⟩ := held
  refine ⟨after, ?_⟩
  simp only [List.append_assoc]

theorem middle {front rest : List Instruction} {instruction : Instruction}
    (held : code.Holds before first)
    (split : first = front ++ instruction :: rest) :
    code.Holds (before ++ front) [instruction] := by
  rw [split] at held
  have parts : code.Holds (before ++ front) ([instruction] ++ rest) :=
    held.right
  exact parts.left

theorem opcodeAt {instruction : Instruction}
    (held : code.Holds before [instruction]) :
    code.opcodeAt? (Extent.ofCode before).units =
      some instruction.opcode := by
  obtain ⟨after, rfl⟩ := held
  rw [List.append_assoc]
  exact opcodeAt_of_split instruction

private theorem byteOffset (held : code.Holds before first) :
    code.byteOffset? (Extent.ofCode before).units =
      some (Extent.ofCode before).bytes := by
  obtain ⟨after, rfl⟩ := held
  rw [List.append_assoc]
  exact byteOffset_of_split

/-- The word of the last unit in front of a place is the operand of the
instruction there. -/
theorem operandAt (held : code.Holds before first) :
    code.operandAt? ((Extent.ofCode before).units - 1) =
      before.getLast?.bind fun instruction =>
        instruction.operands.getLast? := by
  obtain ⟨after, rfl⟩ := held
  rw [List.append_assoc]
  generalize first ++ after = rest
  rcases List.eq_nil_or_concat before with rfl | ⟨front, last, rfl⟩
  · cases rest with
    | nil => rfl
    | cons instruction rest => rfl
  · have index : (Extent.ofCode (front ++ [last])).units - 1 =
        (unitsOf front).length + last.operands.length := by
      rw [Extent.units_behind, length_unitsOf, last.complete]
      omega
    have whole : unitsOf (front ++ [last] ++ rest) =
        unitsOf front ++ (last.units ++ unitsOf rest) := by
      rw [List.append_assoc, unitsOf_append]
      rfl
    have inside : last.operands.length < last.units.length := by
      rw [Instruction.units, List.length_cons, List.length_map]
      exact Nat.lt_succ_self _
    rw [List.concat_eq_append, index, operandAt?, whole,
      List.getElem?_append_right (Nat.le_add_right _ _),
      Nat.add_sub_cancel_left, List.getElem?_append_left inside,
      List.getLast?_concat, last.word_of_last_unit]
    rfl

end Holds

/-! ### Successors -/

variable {code : Assembly} {before : List Instruction}
  {instruction : Instruction} {next : Nat}

theorem flows_iff_of_onward (held : code.Holds before [instruction])
    (onward : ¬ instruction.IsJump)
    (continues : instruction.opcode ≠ .returning) :
    code.Flows (Extent.ofCode before).units next ↔
      next = (Extent.ofCode (before ++ [instruction])).units := by
  have here := held.opcodeAt
  rw [Extent.units_behind]
  constructor
  · intro flows
    generalize (Extent.ofCode before).units = index at here flows ⊢
    cases flows with
    | behind found stays continues =>
        rw [here] at found
        cases found
        rfl
    | jumps found jumping operand leads =>
        rw [here] at found
        cases found
        exact absurd jumping onward
  · rintro rfl
    exact .behind here (fun jumps => onward (Or.inl jumps)) continues

theorem not_flows_of_opcode {index : Nat}
    (returning : code.opcodeAt? index = some .returning) :
    ¬ code.Flows index next := by
  intro flows
  cases flows with
  | behind found stays continues =>
      rw [returning] at found
      cases found
      exact continues rfl
  | jumps found jumping operand leads =>
      rw [returning] at found
      cases found
      rcases jumping with jumping | jumping <;> cases jumping

theorem not_flows_of_returning (held : code.Holds before [instruction])
    (returning : instruction.opcode = .returning) :
    ¬ code.Flows (Extent.ofCode before).units next := by
  have here := held.opcodeAt
  rw [returning] at here
  exact not_flows_of_opcode here

/-- A jump leads to the place whose address is pushed in front of it; a
conditional one may also go on. -/
theorem flows_iff_of_jump {opcode : Opcode} {target : Word}
    {landing rest : List Instruction}
    (held : code.Holds before (jumpCode opcode target))
    (jumping : opcode = .jump ∨ opcode = .jumpIf)
    (lands : code.Holds landing rest)
    (leads : target.toNat = (Extent.ofCode landing).bytes) :
    code.Flows (Extent.ofCode
        (before ++ [Instruction.push target])).units next ↔
      opcode = .jumpIf ∧
          next = (Extent.ofCode (before ++ jumpCode opcode target)).units ∨
        next = (Extent.ofCode landing).units := by
  have parts : code.Holds before
      ([Instruction.push target] ++ [Instruction.plain opcode]) := held
  have jumps := parts.right
  have here := jumps.opcodeAt
  have pushed := jumps.operandAt
  have found := lands.byteOffset
  rw [List.getLast?_concat] at pushed
  rw [← leads] at found
  have index : (Extent.ofCode (before ++ [Instruction.push target])).units =
      (Extent.ofCode before).units + 1 + 1 := Extent.units_behind _ _
  have behind : (Extent.ofCode (before ++ jumpCode opcode target)).units =
      (Extent.ofCode before).units + 1 + 1 + 1 + opcode.operandCount := by
    have whole : before ++ jumpCode opcode target =
        (before ++ [Instruction.push target]) ++
          [Instruction.plain opcode] := by
      rw [List.append_assoc]
      rfl
    rw [whole, Extent.units_behind, index]
    rfl
  rw [index] at here pushed ⊢
  rw [behind]
  constructor
  · intro flows
    generalize place : (Extent.ofCode before).units + 1 + 1 = index
      at here flows ⊢
    cases flows with
    | behind foundToo stays continues =>
        rw [here] at foundToo
        cases foundToo
        rcases jumping with rfl | rfl
        · exact absurd rfl stays
        · exact Or.inl ⟨rfl, rfl⟩
    | jumps foundToo jumpingToo operand leadsToo =>
        cases Nat.succ.inj place
        rw [Nat.add_sub_cancel] at pushed
        rw [pushed] at operand
        cases operand
        -- No other place has this address.
        obtain ⟨after, whole⟩ := lands
        rw [whole] at leadsToo found
        exact Or.inr (byteOffset_injective leadsToo found)
  · rintro (⟨rfl, rfl⟩ | rfl)
    · exact .behind here (by decide) (by decide)
    · exact .jumps here jumping pushed found

/-- Where a jump leads, in code whose jumps lead forward. -/
theorem Holds.flows_iff_of_forward {piece front rest : List Instruction}
    (held : code.Holds before piece)
    (forward : JumpsForward (Extent.ofCode before).bytes piece)
    (split : piece = front ++ instruction :: rest)
    (jumps : instruction.IsJump) :
    ∃ between back,
      piece = (front ++ instruction :: between) ++
        Instruction.plain .jumpTarget :: back ∧
      ∀ next, code.Flows (Extent.ofCode (before ++ front)).units next ↔
        instruction.opcode = .jumpIf ∧ next = (Extent.ofCode
            (before ++ (front ++ [instruction]))).units ∨
          next = (Extent.ofCode
            (before ++ (front ++ instruction :: between))).units := by
  obtain ⟨head, word, between, back, rfl, rfl, leads⟩ :=
    forward front instruction rest split jumps
  have whole : piece =
      (head ++ [Instruction.push word] ++ instruction :: between) ++
        .plain .jumpTarget :: back := by
    rw [split]
    simp only [List.append_assoc, List.cons_append]
  refine ⟨between, back, whole, ?_⟩
  intro next
  have alone : instruction.opcode.operandCount = 0 := by
    rcases jumps with jumps | jumps <;> rw [jumps] <;> rfl
  have plain := Instruction.eq_plain rfl alone
  have pushes : code.Holds before
      (head ++ ([Instruction.push word, instruction] ++
        (between ++ .plain .jumpTarget :: back))) := by
    rw [split] at held
    simpa only [List.append_assoc, List.cons_append, List.nil_append]
      using held
  have lands := held
  rw [whole] at lands
  have jumpsThere := pushes.right.left
  rw [plain] at jumpsThere
  rw [← Extent.bytes_append] at leads
  have flows := @flows_iff_of_jump code _ next _ _ _ _ jumpsThere jumps
    lands.right leads
  rw [jumpCode, ← plain] at flows
  simpa only [List.append_assoc, List.cons_append, List.nil_append]
    using flows

end Assembly

end ContractCompiler
