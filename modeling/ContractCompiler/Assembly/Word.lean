/-
Words of the stack machine, and why a piece of code is refused.

A word has 32 bits.  In code it is written as four bytes, the most
significant first.
-/

import ContractCompiler.Assembly.Opcode
import ContractCompiler.Text.Numeral

namespace ContractCompiler

inductive AssemblyError where
  | unknownOpcode (byte : UInt8)
  | operandWidth (length : Nat)
  | operandCount (opcode : Opcode) (expected found : Nat)
  | outOfBounds (index length : Nat)
  | notAnOperand (index : Nat)
  | notAnOpcode (index : Nat)
  | truncated (position : Nat)
  | addressOverflow (address : Nat)
  deriving DecidableEq, Repr

def AssemblyError.message : AssemblyError → String
  | unknownOpcode byte =>
      "unknown opcode 0x" ++ String.ofList (hexByte byte)
  | operandWidth length =>
      "operand must be 4 bytes, got " ++ decimal length
  | operandCount opcode expected found =>
      opcode.mnemonic ++ " takes " ++ decimal expected ++
        " operand(s), got " ++ decimal found
  | outOfBounds index length =>
      "index " ++ decimal index ++ " out of bounds for " ++
        decimal length ++ " units"
  | notAnOperand index => "unit " ++ decimal index ++ " is not an operand"
  | notAnOpcode index => "unit " ++ decimal index ++ " is not an opcode"
  | truncated position =>
      "operand truncated at byte " ++ decimal position
  | addressOverflow address =>
      "address " ++ decimal address ++ " does not fit in an operand"

abbrev Word := BitVec 32

namespace Word

/-- The four bytes of a word, the most significant first. -/
def bytes (word : Word) : List UInt8 :=
  [UInt8.ofNat (word.toNat / 16777216),
   UInt8.ofNat (word.toNat / 65536 % 256),
   UInt8.ofNat (word.toNat / 256 % 256),
   UInt8.ofNat (word.toNat % 256)]

def ofBytes (first second third fourth : UInt8) : Word :=
  BitVec.ofNat 32
    (16777216 * first.toNat + 65536 * second.toNat + 256 * third.toNat +
      fourth.toNat)

def ofSlice : List UInt8 → Except AssemblyError Word
  | [first, second, third, fourth] =>
      .ok (ofBytes first second third fourth)
  | bytes => .error (.operandWidth bytes.length)

/-- What stands for an address that is not known yet. -/
def placeholder : Word := 0

def address (value : Nat) : Except AssemblyError Word :=
  if value < 0x100000000 then .ok (BitVec.ofNat 32 value)
  else .error (.addressOverflow value)

/-- The word that holds a signed integer, which has to fit in 32 bits. -/
def ofInteger? (value : Int) : Option Word :=
  if -0x80000000 ≤ value ∧ value < 0x80000000 then
    some (BitVec.ofInt 32 value)
  else
    none

def render (word : Word) : String :=
  hexBytes word.bytes

theorem address_eq_ok {value : Nat} {word : Word}
    (fits : address value = .ok word) : word.toNat = value := by
  unfold address at fits
  split at fits
  · next bound =>
      cases fits
      exact Nat.mod_eq_of_lt bound
  · cases fits

theorem address_error {value : Nat} {error : AssemblyError}
    (overflows : address value = .error error) :
    error = .addressOverflow value := by
  unfold address at overflows
  split at overflows
  · cases overflows
  · cases overflows
    rfl

theorem length_bytes (word : Word) : word.bytes.length = 4 := rfl

theorem ofSlice_bytes (word : Word) : ofSlice word.bytes = .ok word := by
  have bound := word.isLt
  simp only [bytes, ofSlice, ofBytes, UInt8.toNat_ofNat',
    Except.ok.injEq]
  apply BitVec.eq_of_toNat_eq
  simp only [BitVec.toNat_ofNat]
  omega

end Word

end ContractCompiler
