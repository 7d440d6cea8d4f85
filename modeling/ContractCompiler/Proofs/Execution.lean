/-
What the instructions of a program do.

The code of a function is a region of a program.  Where a region holds an
instruction, the machine finds its operation and its operand, so each
instruction is a step from its place to the place behind it.
-/

import ContractCompiler.Proofs.Machine
import ContractCompiler.Proofs.Relocation

namespace ContractCompiler

/-! ### Bytes of code -/

def bytesOf (code : List Instruction) : List UInt8 :=
  (⟨unitsOf code⟩ : Assembly).bytes

theorem bytesOf_append (first second : List Instruction) :
    bytesOf (first ++ second) = bytesOf first ++ bytesOf second := by
  rw [bytesOf, unitsOf_append]
  exact List.flatMap_append

theorem Assembly.length_bytes (code : Assembly) :
    code.bytes.length = code.byteLength := by
  rcases code with ⟨units⟩
  induction units with
  | nil =>
      rfl
  | cons unit rest inductionHypothesis =>
      simp only [bytes, byteLength, sizeOfUnits, List.flatMap_cons,
        List.length_append, List.foldr_cons] at inductionHypothesis ⊢
      rw [inductionHypothesis]

theorem length_bytesOf (code : List Instruction) :
    (bytesOf code).length = (Extent.ofCode code).bytes := by
  rw [bytesOf, Assembly.length_bytes, Assembly.byteLength,
    sizeOfUnits_unitsOf]

theorem bytesOf_cons (instruction : Instruction)
    (rest : List Instruction) :
    ∃ operands, bytesOf (instruction :: rest) =
      instruction.opcode.byte :: operands :=
  ⟨_, rfl⟩

/-! ### Regions -/

/-- The bytes of a program, and the addresses at which a part of it starts and
stops. -/
structure Region where
  code : List UInt8
  first : Nat
  past : Nat

namespace Region

def Contains (region : Region) (address : Nat) : Prop :=
  region.first ≤ address ∧ address < region.past

structure Holds (region : Region) (start : Extent)
    (instructions : List Instruction) : Prop where
  starts : region.first ≤ start.bytes
  stops : (start.past instructions).bytes ≤ region.past
  written : ∃ before after,
    region.code = before ++ bytesOf instructions ++ after ∧
      before.length = start.bytes

variable {region : Region} {start : Extent} {first second : List Instruction}

theorem Holds.left (held : region.Holds start (first ++ second)) :
    region.Holds start first where
  starts := held.starts
  stops := by
    have stops := held.stops
    rw [Extent.past_append, Extent.past_bytes] at stops
    omega
  written := by
    rcases held.written with ⟨before, after, shape, length⟩
    refine ⟨before, bytesOf second ++ after, ?_, length⟩
    rw [shape, bytesOf_append]
    simp only [List.append_assoc]

theorem Holds.right (held : region.Holds start (first ++ second)) :
    region.Holds (start.past first) second where
  starts := by
    rw [Extent.past_bytes]
    exact Nat.le_add_right_of_le held.starts
  stops := by
    rw [← Extent.past_append]
    exact held.stops
  written := by
    rcases held.written with ⟨before, after, shape, length⟩
    refine ⟨before ++ bytesOf first, after, ?_, ?_⟩
    · rw [shape, bytesOf_append]
      simp only [List.append_assoc]
    · rw [List.length_append, length_bytesOf, length, Extent.past_bytes]

theorem Holds.tail {instruction : Instruction}
    (held : region.Holds start (instruction :: second)) :
    region.Holds (start.past [instruction]) second := by
  rw [← List.singleton_append] at held
  exact held.right

theorem Holds.contains {instruction : Instruction}
    (held : region.Holds start (instruction :: second)) :
    region.Contains start.bytes := by
  refine ⟨held.starts, ?_⟩
  have stops := held.stops
  simp only [Extent.past_bytes, Extent.ofCode, Extent.add,
    Extent.ofInstruction] at stops
  omega

theorem Holds.operation {instruction : Instruction}
    (held : region.Holds start (instruction :: second)) :
    Machine.operationAt? region.code start.bytes =
      some instruction.opcode := by
  rcases held.written with ⟨before, after, shape, length⟩
  rcases bytesOf_cons instruction second with ⟨operands, bytes⟩
  rw [Machine.operationAt?, shape, ← length, bytes, List.append_assoc,
    List.getElem?_append_right (Nat.le_refl _), Nat.sub_self]
  exact Opcode.ofByte_byte instruction.opcode

private theorem Holds.operand {word : Word}
    (held : region.Holds start (.push word :: second)) :
    Machine.wordAt? region.code (start.bytes + 1) = some word := by
  rcases held.written with ⟨before, after, shape, length⟩
  have operand := CodeUnit.word_ofWord word
  rw [Machine.wordAt?, shape, ← length, List.append_assoc,
    List.drop_append, List.drop_of_length_le (Nat.le_add_right _ _),
    Nat.add_sub_cancel_left]
  exact operand

end Region

/-! ### Instructions -/

namespace Machine

variable {call : Call} {region : Region} {start : Extent}
  {rest : List Instruction} {stack : List Word} {memory : Memory}

theorem reaches_push {word : Word}
    (held : region.Holds start (.push word :: rest)) :
    Reaches call region.code ⟨start.bytes, stack, memory⟩
      ⟨start.bytes + 5, word :: stack, memory⟩ := by
  refine .single ?_
  rw [step, held.operation]
  simp only [Instruction.push, held.operand, Option.map_some]

private theorem reaches_pop {word : Word}
    (held : region.Holds start (.plain .pop :: rest)) :
    Reaches call region.code ⟨start.bytes, word :: stack, memory⟩
      ⟨start.bytes + 1, stack, memory⟩ := by
  refine .single ?_
  rw [step, held.operation]
  rfl

private theorem ofTruth_beq_zero (truth : Bool) :
    (Word.ofTruth truth == 0) = !truth := by
  cases truth <;> rfl

theorem reaches_not {truth : Bool}
    (held : region.Holds start (.plain .not :: rest)) :
    Reaches call region.code ⟨start.bytes, .ofTruth truth :: stack, memory⟩
      ⟨start.bytes + 1, .ofTruth (!truth) :: stack, memory⟩ := by
  refine .single ?_
  rw [step, held.operation, ← ofTruth_beq_zero]
  rfl

theorem reaches_loadArgument {index word : Word}
    (held : region.Holds start (.plain .loadArgument :: rest))
    (given : call.arguments[index.toNat]? = some word) :
    Reaches call region.code ⟨start.bytes, index :: stack, memory⟩
      ⟨start.bytes + 1, word :: stack, memory⟩ := by
  refine .single ?_
  rw [step, held.operation]
  simp only [Instruction.plain, given, Option.map_some]
  rfl

theorem reaches_memoryLoad {size offset : Word}
    (held : region.Holds start (.plain .memoryLoad :: rest)) :
    Reaches call region.code
      ⟨start.bytes, size :: offset :: stack, memory⟩
      ⟨start.bytes + 1,
        (packed size.toNat fun index =>
          memory (offset.toNat + index)).reverse ++ stack,
        memory⟩ := by
  refine .single ?_
  rw [step, held.operation]
  rfl

theorem reaches_memoryStore {size offset : Word} {words : List Word}
    (held : region.Holds start (.plain .memoryStore :: rest))
    (count : words.length = wordCount size.toNat) :
    Reaches call region.code
      ⟨start.bytes, size :: offset :: (words.reverse ++ stack), memory⟩
      ⟨start.bytes + 1, stack,
        memory.store offset.toNat size.toNat words⟩ := by
  have length : words.reverse.length = wordCount size.toNat := by
    rw [List.length_reverse, count]
  refine .single ?_
  rw [step, held.operation]
  simp only [Instruction.plain]
  rw [if_pos, ← length, List.drop_left, List.take_left, List.reverse_reverse]
  · rfl
  · rw [List.length_append, length]
    exact Nat.le_add_right _ _

theorem reaches_jumpTarget
    (held : region.Holds start (.plain .jumpTarget :: rest)) :
    Reaches call region.code ⟨start.bytes, stack, memory⟩
      ⟨start.bytes + 1, stack, memory⟩ := by
  refine .single ?_
  rw [step, held.operation]
  rfl

private theorem jump_eq_some {machine : Machine} {target : Word}
    {place : Extent} (reached : targetWord place = .ok target)
    (held : region.Holds place (.plain .jumpTarget :: rest)) :
    machine.jump? region.code target stack =
      some ⟨place.bytes, stack, machine.memory⟩ := by
  have address := Word.address_eq_ok (targetWord_eq_ok.mp reached)
  rw [jump?, address, held.operation]
  rfl

theorem reaches_jump {target : Word} {place : Extent}
    {behind : List Instruction}
    (held : region.Holds start (jumpCode .jump target))
    (reached : targetWord place = .ok target)
    (there : region.Holds place (.plain .jumpTarget :: behind)) :
    Reaches call region.code ⟨start.bytes, stack, memory⟩
      ⟨place.bytes, stack, memory⟩ := by
  refine (reaches_push held).trans (.single ?_)
  have jumping : operationAt? region.code (start.bytes + 5) = some .jump :=
    held.tail.operation
  rw [step, jumping]
  exact jump_eq_some reached there

theorem reaches_jumpIf {target : Word} {place : Extent} {truth : Bool}
    {behind : List Instruction}
    (held : region.Holds start (jumpCode .jumpIf target))
    (reached : targetWord place = .ok target)
    (there : region.Holds place (.plain .jumpTarget :: behind)) :
    Reaches call region.code
      ⟨start.bytes, .ofTruth truth :: stack, memory⟩
      ⟨if truth then place.bytes else start.bytes + 6, stack, memory⟩ := by
  refine (reaches_push held).trans (.single ?_)
  have jumping : operationAt? region.code (start.bytes + 5) =
    some .jumpIf := held.tail.operation
  rw [step, jumping]
  cases truth with
  | false => rfl
  | true => exact jump_eq_some reached there

theorem reaches_between {opcode : Opcode} {left right word : Word}
    (held : region.Holds start (.plain opcode :: rest))
    (computed : opcode.between call left right = some word) :
    Reaches call region.code ⟨start.bytes, right :: left :: stack, memory⟩
      ⟨(start.past [.plain opcode]).bytes, word :: stack, memory⟩ := by
  refine .single ?_
  have found := held.operation
  rw [step]
  cases opcode <;>
    first
      | cases computed
        done
      | simp only [found, Instruction.plain, computed, Option.map_some]
        rfl

/-- The words on top of the stack are taken off one by one. -/
theorem reaches_pops (words : List Word)
    (held : region.Holds start
      (List.replicate words.length (.plain .pop))) :
    Reaches call region.code ⟨start.bytes, words ++ stack, memory⟩
      ⟨(start.past (List.replicate words.length (.plain .pop))).bytes,
        stack, memory⟩ := by
  induction words generalizing start with
  | nil =>
      exact .refl
  | cons word others inductionHypothesis =>
      rw [List.length_cons, List.replicate_succ] at held ⊢
      rw [Extent.past_cons]
      exact (reaches_pop held).trans (inductionHypothesis held.tail)

end Machine

end ContractCompiler
