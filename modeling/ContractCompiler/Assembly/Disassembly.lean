/-
Reading code back from bytes.
-/

import ContractCompiler.Assembly

namespace ContractCompiler

namespace Assembly

def takeWords : Nat → (position : Nat) → List UInt8 →
    Except AssemblyError (List Word × List UInt8)
  | 0, _, bytes => .ok ([], bytes)
  | count + 1, position, first :: second :: third :: fourth :: rest => do
      let (words, rest) ← takeWords count (position + 4) rest
      return (Word.ofBytes first second third fourth :: words, rest)
  | _ + 1, position, _ => .error (.truncated position)

theorem length_takeWords_le {count position : Nat} {bytes rest : List UInt8}
    {words : List Word}
    (taken : takeWords count position bytes = .ok (words, rest)) :
    rest.length ≤ bytes.length := by
  induction count generalizing position bytes words with
  | zero =>
      simp only [takeWords, Except.ok.injEq, Prod.mk.injEq] at taken
      simp [taken.2]
  | succ count inductionHypothesis =>
      match bytes, taken with
      | first :: second :: third :: fourth :: tail, taken =>
          simp only [takeWords] at taken
          cases deeper : takeWords count (position + 4) tail with
          | error error =>
              rw [deeper] at taken
              contradiction
          | ok result =>
              rw [deeper] at taken
              simp only [bind, Except.bind, pure, Except.pure,
                Except.ok.injEq, Prod.mk.injEq] at taken
              have shorter := inductionHypothesis
                (deeper.trans (by rw [← taken.2]))
              simp only [List.length_cons]
              omega

def decode (position : Nat) (bytes : List UInt8) :
    Except AssemblyError (List CodeUnit) :=
  match bytes with
  | [] => .ok []
  | byte :: rest =>
      match Opcode.ofByte? byte with
      | none => .error (.unknownOpcode byte)
      | some opcode =>
          match _ : takeWords opcode.operandCount (position + 1) rest with
          | .error error => .error error
          | .ok (words, remaining) =>
              match decode (position + 1 + 4 * words.length) remaining with
              | .error error => .error error
              | .ok units =>
                  .ok (.ofOpcode opcode :: words.map .ofWord ++ units)
termination_by bytes.length
decreasing_by
  have shorter := length_takeWords_le (by assumption)
  simp only [List.length_cons]
  omega

def disassemble (bytes : List UInt8) : Except AssemblyError Assembly :=
  match decode 0 bytes with
  | .error error => .error error
  | .ok units => .ok ⟨units⟩

end Assembly

end ContractCompiler
