/-
Editing pieces of code.

Edits work on single units, yet they keep whole instructions whole: an operand
takes the place of an operand, an operation that of one with as many operands,
and an instruction is put in front of another one.  The only edit that can
break code is one that puts an instruction between an operation and its
operands, and that always breaks it.
-/

import ContractCompiler.Proofs.WireFormat

namespace ContractCompiler

/-! ### Units of whole instructions -/

theorem CodeUnit.opcode_ofOpcode (opcode : Opcode) :
    (ofOpcode opcode).opcode? = some opcode :=
  Opcode.ofByte_byte opcode

namespace Assembly

variable {code edited : Assembly} {index : Nat} {unit : CodeUnit}
  {opcode : Opcode} {operands : List Word}

/-- A unit of whole instructions is the operation of one of them or one of its
operands. -/
theorem unit_cases {instructions : List Instruction}
    (found : (unitsOf instructions)[index]? = some unit) :
    ∃ before, ∃ instruction : Instruction, ∃ after,
      instructions = before ++ instruction :: after ∧
        (index = (unitsOf before).length ∧
            unit = .ofOpcode instruction.opcode ∨
          ∃ position word,
            index = (unitsOf before).length + (position + 1) ∧
              instruction.operands[position]? = some word ∧
              unit = .ofWord word) := by
  induction instructions generalizing index with
  | nil =>
      cases found
  | cons instruction rest inductionHypothesis =>
      rw [unitsOf_cons] at found
      by_cases inside : index < instruction.units.length
      · rw [List.getElem?_append_left inside] at found
        refine ⟨[], instruction, rest, rfl, ?_⟩
        cases index with
        | zero =>
            cases found
            exact Or.inl ⟨rfl, rfl⟩
        | succ position =>
            rw [Instruction.units, List.getElem?_cons_succ,
              List.getElem?_map] at found
            obtain ⟨word, held, same⟩ := Option.map_eq_some_iff.mp found
            exact Or.inr ⟨position, word, (Nat.zero_add _).symm, held,
              same.symm⟩
      · have beyond : instruction.units.length ≤ index := by omega
        rw [List.getElem?_append_right beyond] at found
        obtain ⟨before, other, after, same, place⟩ :=
          inductionHypothesis found
        refine ⟨instruction :: before, other, after, ?_, ?_⟩
        · rw [same]
          rfl
        · rw [unitsOf_cons, List.length_append]
          rcases place with ⟨start, operation⟩ | ⟨position, word, inner,
            held, operand⟩
          · exact Or.inl ⟨by omega, operation⟩
          · exact Or.inr ⟨position, word, by omega, held, operand⟩

private theorem unitsOf_around (before : List Instruction)
    (instruction : Instruction) (after : List Instruction) :
    unitsOf (before ++ instruction :: after) =
      unitsOf before ++ (instruction.units ++ unitsOf after) := by
  rw [unitsOf_append, unitsOf_cons]

theorem exists_of_opcode_cons {rest : List CodeUnit}
    {others : List Instruction}
    (same : .ofOpcode opcode :: rest = unitsOf others) :
    ∃ (words : List Word) (after : List Instruction),
      words.length = opcode.operandCount ∧
        rest = words.map .ofWord ++ unitsOf after := by
  cases others with
  | nil =>
      cases same
  | cons other after =>
      rw [unitsOf_cons, Instruction.units, List.cons_append,
        List.cons.injEq] at same
      have read := congrArg CodeUnit.opcode? same.1
      rw [CodeUnit.opcode_ofOpcode, CodeUnit.opcode_ofOpcode] at read
      refine ⟨other.operands, after, ?_, same.2⟩
      rw [other.complete, Option.some.inj read]

/-- What is left of whole instructions behind whole instructions is whole. -/
theorem exists_of_unitsOf_append {before others : List Instruction}
    {rest : List CodeUnit}
    (same : unitsOf before ++ rest = unitsOf others) :
    ∃ after, rest = unitsOf after := by
  induction before generalizing others with
  | nil =>
      exact ⟨others, same⟩
  | cons instruction before inductionHypothesis =>
      rw [unitsOf_cons, Instruction.units, List.cons_append,
        List.cons_append, List.append_assoc] at same
      obtain ⟨words, after, length, behind⟩ := exists_of_opcode_cons same
      have sameLength : (instruction.operands.map CodeUnit.ofWord).length =
          (words.map CodeUnit.ofWord).length := by
        rw [List.length_map, List.length_map, length, instruction.complete]
      exact inductionHypothesis (List.append_inj behind sameLength).2

/-! ### One edit -/

theorem wellFormed_iff {units : List CodeUnit} :
    WellFormed ⟨units⟩ ↔
      ∃ instructions, units = unitsOf instructions := by
  constructor
  · intro wellFormed
    obtain ⟨instructions, same⟩ := wellFormed
    exact ⟨instructions, congrArg Assembly.units same⟩
  · intro whole
    obtain ⟨instructions, rfl⟩ := whole
    exact ⟨instructions, rfl⟩

private theorem append_wellFormed {other : Assembly} (first : code.WellFormed)
    (second : other.WellFormed) : (code.append other).WellFormed := by
  obtain ⟨units⟩ := code
  obtain ⟨others⟩ := other
  obtain ⟨instructions, rfl⟩ := wellFormed_iff.mp first
  obtain ⟨more, rfl⟩ := wellFormed_iff.mp second
  exact wellFormed_iff.mpr
    ⟨instructions ++ more, (unitsOf_append instructions more).symm⟩

private theorem emit_wellFormed (wellFormed : code.WellFormed)
    (emitted : code.emit opcode operands = .ok edited) :
    edited.WellFormed := by
  obtain ⟨instruction, _, done⟩ := bind_eq_ok.mp emitted
  cases done
  have single : WellFormed ⟨instruction.units⟩ :=
    wellFormed_iff.mpr ⟨[instruction], (List.append_nil _).symm⟩
  exact append_wellFormed wellFormed single

private theorem emitByte_wellFormed {byte : UInt8}
    (wellFormed : code.WellFormed)
    (emitted : code.emitByte byte operands = .ok edited) :
    edited.WellFormed := by
  unfold emitByte at emitted
  split at emitted
  · exact emit_wellFormed wellFormed emitted
  · cases emitted

private theorem insertAt_eq_ok
    (inserted : code.insertAt index opcode operands = .ok edited) :
    ∃ instruction : Instruction, instruction.opcode = opcode ∧
      edited.units = code.units.take index ++
        (instruction.units ++ code.units.drop index) := by
  unfold insertAt at inserted
  split at inserted
  · obtain ⟨instruction, made, done⟩ := bind_eq_ok.mp inserted
    cases done
    refine ⟨instruction, ?_, List.append_assoc ..⟩
    unfold Instruction.make at made
    split at made
    · cases made
      rfl
    · cases made
  · cases inserted

def OpensAt (code : Assembly) (index : Nat) : Prop :=
  index = code.length ∨
    ∃ unit opcode, code.units[index]? = some unit ∧
      unit.opcode? = some opcode

private theorem insertAt_wellFormed (wellFormed : code.WellFormed)
    (opens : code.OpensAt index)
    (inserted : code.insertAt index opcode operands = .ok edited) :
    edited.WellFormed := by
  obtain ⟨units⟩ := code
  obtain ⟨instructions, rfl⟩ := wellFormed_iff.mp wellFormed
  obtain ⟨instruction, _, units⟩ := insertAt_eq_ok inserted
  refine wellFormed_iff.mpr ?_
  rw [units]
  rcases opens with rfl | ⟨unit, old, found, operation⟩
  · refine ⟨instructions ++ [instruction], ?_⟩
    rw [length, List.take_length, List.drop_length, unitsOf_append]
    rfl
  · obtain ⟨before, other, after, rfl, place⟩ := unit_cases found
    rcases place with ⟨rfl, _⟩ | ⟨_, _, _, _, rfl⟩
    · refine ⟨before ++ instruction :: other :: after, ?_⟩
      rw [unitsOf_append, List.take_left, List.drop_left, unitsOf_around]
    · cases operation

/-- An instruction between an operation and its operands leaves units that are
not those of whole instructions. -/
theorem insertAt_operand_not_wellFormed (wellFormed : code.WellFormed)
    (found : code.units[index]? = some unit)
    (operand : unit.isOperand = true)
    (inserted : code.insertAt index opcode operands = .ok edited) :
    ¬ edited.WellFormed := by
  obtain ⟨units⟩ := code
  obtain ⟨instructions, rfl⟩ := wellFormed_iff.mp wellFormed
  obtain ⟨instruction, _, units⟩ := insertAt_eq_ok inserted
  obtain ⟨before, other, after, rfl, place⟩ := unit_cases found
  rcases place with ⟨_, rfl⟩ | ⟨position, word, rfl, held, rfl⟩
  · cases operand
  · intro whole
    obtain ⟨others, same⟩ := wellFormed_iff.mp whole
    rw [units, unitsOf_around, List.take_length_add_append,
      List.drop_length_add_append, List.append_assoc] at same
    obtain ⟨rest, cut⟩ := exists_of_unitsOf_append same
    have inside : position < other.operands.length :=
      (List.getElem?_eq_some_iff.mp held).1
    have front : (other.units ++ unitsOf after).take (position + 1) =
        .ofOpcode other.opcode ::
          (other.operands.take position).map .ofWord := by
      rw [Instruction.units, List.cons_append, List.take_succ_cons,
        List.take_append_of_le_length (by rw [List.length_map]; omega),
        List.map_take]
    rw [front, List.cons_append] at cut
    obtain ⟨words, tail, length, behind⟩ := exists_of_opcode_cons cut
    -- Where the inserted operation stands, the old one still asks for a word.
    have taken :
        ((other.operands.take position).map CodeUnit.ofWord).length =
          position := by
      rw [List.length_map, List.length_take]
      omega
    have asked : position < (words.map CodeUnit.ofWord).length := by
      rw [List.length_map, length, ← other.complete]
      exact inside
    have clash := congrArg (fun units => units[position]?) behind
    simp only [List.getElem?_append_right (Nat.le_of_eq taken), taken,
      Nat.sub_self, List.getElem?_append_left asked, List.getElem?_map,
      Instruction.units, List.cons_append, List.getElem?_cons_zero]
      at clash
    obtain ⟨word, _, sameUnit⟩ := Option.map_eq_some_iff.mp clash.symm
    cases congrArg CodeUnit.isOperand sameUnit

private theorem replaceOperand_wellFormed {word : Word}
    (wellFormed : code.WellFormed)
    (replaced : code.replaceOperand index word = .ok edited) :
    edited.WellFormed := by
  obtain ⟨units⟩ := code
  obtain ⟨instructions, rfl⟩ := wellFormed_iff.mp wellFormed
  unfold replaceOperand at replaced
  split at replaced
  next => cases replaced
  next unit found =>
    split at replaced
    next operand =>
      cases replaced
      obtain ⟨before, other, after, rfl, place⟩ := unit_cases found
      rcases place with ⟨_, rfl⟩ | ⟨position, old, rfl, held, rfl⟩
      · cases operand
      · have inside : position < other.operands.length :=
          (List.getElem?_eq_some_iff.mp held).1
        refine wellFormed_iff.mpr ⟨before ++
          ⟨other.opcode, other.operands.set position word, by
            rw [List.length_set, other.complete]⟩ :: after, ?_⟩
        rw [unitsOf_around, unitsOf_around,
          List.set_append_right _ _ (Nat.le_add_right _ _),
          Nat.add_sub_cancel_left, Instruction.units, List.cons_append,
          List.set_cons_succ,
          List.set_append_left _ _ (by rw [List.length_map]; exact inside),
          ← List.map_set]
        rfl
    next => cases replaced

private theorem replaceOpcode_wellFormed (wellFormed : code.WellFormed)
    (replaced : code.replaceOpcode index opcode = .ok edited) :
    edited.WellFormed := by
  obtain ⟨units⟩ := code
  obtain ⟨instructions, rfl⟩ := wellFormed_iff.mp wellFormed
  unfold replaceOpcode at replaced
  split at replaced
  next => cases replaced
  next unit found =>
    split at replaced
    next => cases replaced
    next old operation =>
      split at replaced
      next sameCount =>
        cases replaced
        obtain ⟨before, other, after, rfl, place⟩ := unit_cases found
        rcases place with ⟨rfl, rfl⟩ | ⟨_, _, _, _, rfl⟩
        · rw [CodeUnit.opcode_ofOpcode, Option.some.injEq] at operation
          subst operation
          refine wellFormed_iff.mpr ⟨before ++
            ⟨opcode, other.operands, other.complete.trans sameCount⟩ ::
              after, ?_⟩
          rw [unitsOf_around, unitsOf_around,
            List.set_append_right _ _ (Nat.le_refl _), Nat.sub_self]
          rfl
        · cases operation
      next => cases replaced

end Assembly

/-! ### Any number of edits -/

inductive Edit where
  | emit (opcode : Opcode) (operands : List Word)
  | emitByte (byte : UInt8) (operands : List Word)
  | insertAt (index : Nat) (opcode : Opcode) (operands : List Word)
  | replaceOperand (index : Nat) (word : Word)
  | replaceOpcode (index : Nat) (opcode : Opcode)

namespace Edit

def perform (code : Assembly) : Edit → Except AssemblyError Assembly
  | .emit opcode operands => code.emit opcode operands
  | .emitByte byte operands => code.emitByte byte operands
  | .insertAt index opcode operands => code.insertAt index opcode operands
  | .replaceOperand index word => code.replaceOperand index word
  | .replaceOpcode index opcode => code.replaceOpcode index opcode

/-- No instruction comes between an operation and its operands.  An insertion
that fails puts nothing anywhere. -/
def Fits (code : Assembly) : Edit → Prop
  | .insertAt index opcode operands =>
      ∀ edited, code.insertAt index opcode operands = .ok edited →
        code.OpensAt index
  | .emit _ _ => True
  | .emitByte _ _ => True
  | .replaceOperand _ _ => True
  | .replaceOpcode _ _ => True

private theorem perform_wellFormed {code edited : Assembly} {edit : Edit}
    (wellFormed : code.WellFormed) (fits : edit.Fits code)
    (performed : edit.perform code = .ok edited) : edited.WellFormed := by
  cases edit with
  | emit opcode operands =>
      exact Assembly.emit_wellFormed wellFormed performed
  | emitByte byte operands =>
      exact Assembly.emitByte_wellFormed wellFormed performed
  | insertAt index opcode operands =>
      exact Assembly.insertAt_wellFormed wellFormed
        (fits edited performed) performed
  | replaceOperand index word =>
      exact Assembly.replaceOperand_wellFormed wellFormed performed
  | replaceOpcode index opcode =>
      exact Assembly.replaceOpcode_wellFormed wellFormed performed

end Edit

abbrev Workbench := String → Assembly

namespace Workbench

def start : Workbench :=
  fun _ => .empty

def put (bench : Workbench) (name : String) (code : Assembly) : Workbench :=
  fun other => if other = name then code else bench other

/-- An edit of the piece under a name, or a move of all that is under another
name behind it. -/
inductive Step where
  | edit (name : String) (edit : Edit)
  | append (name other : String)

/-- The pieces behind a step.  An edit that fails leaves them as they were. -/
def after (bench : Workbench) : Step → Workbench
  | .edit name edit =>
      match edit.perform (bench name) with
      | .ok code => bench.put name code
      | .error _ => bench
  | .append name other =>
      (bench.put other .empty).put name ((bench name).append (bench other))

def run (bench : Workbench) : List Step → Workbench
  | [] => bench
  | step :: rest => (bench.after step).run rest

def Careful (bench : Workbench) : List Step → Prop
  | [] => True
  | .edit name edit :: rest =>
      edit.Fits (bench name) ∧ (bench.after (.edit name edit)).Careful rest
  | .append name other :: rest =>
      (bench.after (.append name other)).Careful rest

def WellFormed (bench : Workbench) : Prop :=
  ∀ name, (bench name).WellFormed

variable {bench : Workbench}

private theorem WellFormed.put {code : Assembly}
    (wellFormed : bench.WellFormed) (name : String) (whole : code.WellFormed) :
    (bench.put name code).WellFormed := by
  intro other
  unfold Workbench.put
  split
  · exact whole
  · exact wellFormed other

private theorem WellFormed.start : Workbench.start.WellFormed :=
  fun _ => ⟨[], rfl⟩

private theorem WellFormed.edit {name : String} {edit : Edit}
    (wellFormed : bench.WellFormed) (fits : edit.Fits (bench name)) :
    (bench.after (.edit name edit)).WellFormed := by
  rw [after]
  split
  next code performed =>
    exact wellFormed.put name
      (Edit.perform_wellFormed (wellFormed name) fits performed)
  next => exact wellFormed

theorem WellFormed.append (wellFormed : bench.WellFormed)
    (name other : String) :
    (bench.after (.append name other)).WellFormed :=
  (wellFormed.put other ⟨[], rfl⟩).put name
    (Assembly.append_wellFormed (wellFormed name) (wellFormed other))

private theorem WellFormed.run {steps : List Step}
    (wellFormed : bench.WellFormed)
    (careful : bench.Careful steps) : (bench.run steps).WellFormed := by
  induction steps generalizing bench with
  | nil =>
      exact wellFormed
  | cons step rest inductionHypothesis =>
      cases step with
      | edit name edit =>
          exact inductionHypothesis (wellFormed.edit careful.1) careful.2
      | append name other =>
          exact inductionHypothesis (wellFormed.append name other) careful

/-- Edits that put no instruction between an operation and its operands leave
code that is read back from its bytes, whether they succeed or fail.  One that
does leaves code that is not. -/
theorem edits_stay_decodable :
    (∀ steps, Workbench.start.Careful steps → ∀ name,
        (Workbench.start.run steps name).WellFormed ∧
          Assembly.disassemble (Workbench.start.run steps name).bytes =
            .ok (Workbench.start.run steps name)) ∧
      ∀ (code : Assembly) (index : Nat) (unit : CodeUnit)
        (opcode : Opcode) (operands : List Word), code.WellFormed →
        code.units[index]? = some unit → unit.isOperand = true →
        operands.length = opcode.operandCount →
        ∃ edited, code.insertAt index opcode operands = .ok edited ∧
          Assembly.disassemble edited.bytes ≠ .ok edited := by
  constructor
  · intro steps careful name
    have whole := WellFormed.start.run careful name
    exact ⟨whole, Assembly.disassemble_eq_ok.mpr ⟨whole, rfl⟩⟩
  · intro code index unit opcode operands wellFormed found operand complete
    have inside : index ≤ code.length :=
      Nat.le_of_lt (List.getElem?_eq_some_iff.mp found).1
    have inserted : ∃ edited,
        code.insertAt index opcode operands = .ok edited := by
      rw [Assembly.insertAt, if_pos inside, Instruction.make,
        dif_pos complete]
      exact ⟨_, rfl⟩
    obtain ⟨edited, done⟩ := inserted
    refine ⟨edited, done, ?_⟩
    intro read
    exact Assembly.insertAt_operand_not_wellFormed wellFormed found operand
      done (Assembly.disassemble_eq_ok.mp read).1

/-- Edits of two pieces, two of which fail: one for a missing operand and one
for a byte that is no operation. -/
def mending : List Step :=
  [.edit "a" (.emit .push [5]),
   .edit "a" (.insertAt 0 .jumpTarget []),
   .edit "a" (.insertAt 2 .push []),
   .edit "a" (.replaceOperand 2 9),
   .edit "a" (.replaceOpcode 0 .returning),
   .edit "b" (.emitByte 0x01 []),
   .edit "b" (.emitByte 0xff []),
   .append "a" "b"]

private theorem mending_careful : Workbench.start.Careful mending := by
  refine ⟨trivial, ?_, ?_, trivial, trivial, trivial, trivial, trivial⟩
  · intro edited inserted
    exact Or.inr ⟨_, _, rfl, rfl⟩
  · intro edited inserted
    cases inserted

theorem mending_stays_decodable :
    Workbench.start.Careful mending ∧
      Assembly.disassemble (Workbench.start.run mending "a").bytes =
        .ok (Workbench.start.run mending "a") ∧
      (Workbench.start.run mending "a").length = 4 ∧
      ∃ edited,
        (Assembly.ofInstructions [.push 5]).insertAt 1 .add [] =
            .ok edited ∧
          Assembly.disassemble edited.bytes ≠ .ok edited :=
  ⟨mending_careful,
    (edits_stay_decodable.1 mending mending_careful "a").2, by decide,
    edits_stay_decodable.2 (.ofInstructions [.push 5]) 1 _ .add []
      ⟨_, rfl⟩ rfl rfl rfl⟩

end Workbench

end ContractCompiler
