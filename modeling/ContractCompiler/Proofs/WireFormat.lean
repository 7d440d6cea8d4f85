/-
Code and its bytes.

The wire format has no separators: an operation decides how many words follow
it.  Reading bytes back gives code exactly when they are those of whole
instructions, and then it gives the code that has these bytes.
-/

import ContractCompiler.Assembly.Disassembly
import ContractCompiler.Proofs.Execution
import ContractCompiler.Proofs.Values

namespace ContractCompiler

private theorem Opcode.byte_of_ofByte {byte : UInt8} {opcode : Opcode}
    (found : ofByte? byte = some opcode) : opcode.byte = byte := by
  have same := List.find?_some found
  exact eq_of_beq same

private theorem Word.exists_of_bytes (word : Word) :
    ∃ first second third fourth,
      word.bytes = [first, second, third, fourth] ∧
        ofBytes first second third fourth = word := by
  refine ⟨_, _, _, _, rfl, ?_⟩
  have read := ofSlice_bytes word
  rw [bytes, ofSlice] at read
  exact Except.ok.inj read

namespace Assembly

def WellFormed (code : Assembly) : Prop :=
  ∃ instructions : List Instruction, code = ofInstructions instructions

/-! ### Words -/

private theorem takeWords_words (words : List Word) (position : Nat)
    (rest : List UInt8) :
    takeWords words.length position (words.flatMap Word.bytes ++ rest) =
      .ok (words, rest) := by
  induction words generalizing position with
  | nil =>
      rfl
  | cons word others inductionHypothesis =>
      obtain ⟨first, second, third, fourth, spelled, read⟩ :=
        word.exists_of_bytes
      rw [List.flatMap_cons, spelled, List.length_cons]
      simp only [List.cons_append, List.nil_append, takeWords]
      rw [inductionHypothesis, read]
      rfl

private theorem takeWords_eq_ok {count position : Nat}
    {bytes rest : List UInt8} {words : List Word} :
    takeWords count position bytes = .ok (words, rest) ↔
      words.length = count ∧ bytes = words.flatMap Word.bytes ++ rest := by
  constructor
  · intro taken
    induction count generalizing position bytes words with
    | zero =>
        cases taken
        exact ⟨rfl, rfl⟩
    | succ count inductionHypothesis =>
        unfold takeWords at taken
        split at taken
        next => contradiction
        next less place first second third fourth tail same =>
          cases same
          rw [bind_eq_ok] at taken
          obtain ⟨⟨others, remaining⟩, deeper, done⟩ := taken
          cases done
          obtain ⟨length, spelled⟩ := inductionHypothesis deeper
          constructor
          · rw [List.length_cons, length]
          · rw [List.flatMap_cons, Word.bytes_ofBytes, spelled]
            rfl
        next => cases taken
  · rintro ⟨rfl, rfl⟩
    exact takeWords_words words position rest

/-! ### Instructions -/

private theorem bytesOf_cons_eq (instruction : Instruction)
    (rest : List Instruction) :
    bytesOf (instruction :: rest) =
      instruction.opcode.byte ::
        (instruction.operands.flatMap Word.bytes ++ bytesOf rest) := by
  rw [bytesOf, unitsOf_cons, Instruction.units, bytes]
  simp only [List.flatMap_append, List.flatMap_cons, List.flatMap_map]
  rfl

private theorem decode_bytesOf (instructions : List Instruction)
    (position : Nat) :
    decode position (bytesOf instructions) = .ok (unitsOf instructions) := by
  induction instructions generalizing position with
  | nil =>
      rw [bytesOf, unitsOf, ofInstructions, bytes]
      simp only [List.flatMap_nil]
      rw [decode]
  | cons instruction rest inductionHypothesis =>
      have taken := takeWords_words instruction.operands (position + 1)
        (bytesOf rest)
      rw [instruction.complete] at taken
      rw [bytesOf_cons_eq, decode]
      simp only [Opcode.ofByte_byte]
      split
      next error failed =>
        rw [taken] at failed
        cases failed
      next words remaining found =>
        rw [taken] at found
        cases found
        rw [inductionHypothesis, unitsOf_cons]
        rfl

private theorem exists_of_decode {position : Nat} {bytes : List UInt8}
    {units : List CodeUnit} (decoded : decode position bytes = .ok units) :
    ∃ instructions, units = unitsOf instructions ∧
      bytes = bytesOf instructions := by
  fun_induction decode position bytes generalizing units with
  | case1 position =>
      cases decoded
      exact ⟨[], rfl, rfl⟩
  | case2 => cases decoded
  | case3 => cases decoded
  | case4 => cases decoded
  | case5 position byte rest opcode found words remaining taken others read
      inductionHypothesis =>
      cases decoded
      obtain ⟨instructions, rfl, rfl⟩ := inductionHypothesis read
      obtain ⟨length, rfl⟩ := takeWords_eq_ok.mp taken
      refine ⟨⟨opcode, words, length⟩ :: instructions, rfl, ?_⟩
      rw [bytesOf_cons_eq, Opcode.byte_of_ofByte found]

/-- Reading bytes gives the code of whole instructions that has them. -/
theorem disassemble_eq_ok {bytes : List UInt8} {code : Assembly} :
    disassemble bytes = .ok code ↔
      code.WellFormed ∧ code.bytes = bytes := by
  constructor
  · intro read
    unfold disassemble at read
    split at read
    next => cases read
    next units decoded =>
      cases read
      obtain ⟨instructions, rfl, rfl⟩ := exists_of_decode decoded
      exact ⟨⟨instructions, rfl⟩, rfl⟩
  · rintro ⟨⟨instructions, rfl⟩, rfl⟩
    have decoded := decode_bytesOf instructions 0
    unfold disassemble
    rw [bytesOf, unitsOf] at decoded
    rw [decoded]

/-- Writing code as bytes and reading bytes as code undo each other: on the
code of whole instructions, and on the bytes that can be read.  Bytes that no
such code has are refused, and no others. -/
theorem disassemble_inverts_bytes :
    (∀ code : Assembly, code.WellFormed →
        disassemble code.bytes = .ok code) ∧
      (∀ bytes code, disassemble bytes = .ok code →
        code.WellFormed ∧ code.bytes = bytes) ∧
      ∀ bytes, (∃ error, disassemble bytes = .error error) ↔
        ¬ ∃ code : Assembly, code.WellFormed ∧ code.bytes = bytes := by
  refine ⟨?_, ?_, ?_⟩
  · intro code wellFormed
    exact disassemble_eq_ok.mpr ⟨wellFormed, rfl⟩
  · intro bytes code read
    exact disassemble_eq_ok.mp read
  · intro bytes
    simp only [← disassemble_eq_ok]
    cases disassemble bytes with
    | error error => simp
    | ok code => simp

end Assembly

end ContractCompiler
