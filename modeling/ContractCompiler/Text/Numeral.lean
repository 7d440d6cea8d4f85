/-
Numbers as text: decimal numerals, hexadecimal numerals of fixed width, and
the reading of both.
-/

namespace ContractCompiler

/-! ### Writing -/

def decimal (value : Nat) : String :=
  String.ofList (Nat.toDigits 10 value)

/-- The decimal numeral of an integer; a minus sign marks negative ones. -/
def signedDecimal (value : Int) : String :=
  if value < 0 then "-" ++ decimal value.natAbs else decimal value.natAbs

def padLeft (width : Nat) (filler : Char) (text : List Char) : List Char :=
  List.replicate (width - text.length) filler ++ text

def padRight (width : Nat) (filler : Char) (text : List Char) : List Char :=
  text ++ List.replicate (width - text.length) filler

def hexadecimal (width value : Nat) : String :=
  String.ofList (padLeft width '0' (Nat.toDigits 16 value))

def hexByte (byte : UInt8) : List Char :=
  [Nat.digitChar (byte.toNat / 16), Nat.digitChar (byte.toNat % 16)]

def hexBytes (bytes : List UInt8) : String :=
  String.ofList (bytes.flatMap hexByte)

/-! ### Reading -/

def isDigit (character : Char) : Bool :=
  '0' ≤ character && character ≤ '9'

def digitValue (character : Char) : Nat :=
  character.toNat - '0'.toNat

/-- The number that a text of ASCII digits denotes.  Other texts and the
empty text denote none. -/
def readDigits (text : List Char) : Option Nat :=
  if !text.isEmpty && text.all isDigit then
    some (text.foldl (fun value digit => 10 * value + digitValue digit) 0)
  else
    none

def readSigned : List Char → Option Int
  | '-' :: digits => (readDigits digits).map fun value => -(value : Int)
  | '+' :: digits => (readDigits digits).map fun value => (value : Int)
  | digits => (readDigits digits).map fun value => (value : Int)

def readInt64 (text : List Char) : Option Int :=
  (readSigned text).filter fun value =>
    decide (-0x8000000000000000 ≤ value ∧ value < 0x8000000000000000)

/-- The unsigned 64-bit integer that a text of an optional plus sign and
ASCII digits denotes, if there is one. -/
def readSize (text : List Char) : Option Nat :=
  let digits :=
    match text with
    | '+' :: digits => digits
    | digits => digits
  (readDigits digits).filter fun value => decide (value < 0x10000000000000000)

def hexDigitValue (character : Char) : Option Nat :=
  if '0' ≤ character && character ≤ '9' then
    some (character.toNat - '0'.toNat)
  else if 'a' ≤ character && character ≤ 'f' then
    some (character.toNat - 'a'.toNat + 10)
  else if 'A' ≤ character && character ≤ 'F' then
    some (character.toNat - 'A'.toNat + 10)
  else
    none

def readHexBytes : List Char → Option (List UInt8)
  | [] => some []
  | [_] => none
  | high :: low :: rest => do
      let high ← hexDigitValue high
      let low ← hexDigitValue low
      let rest ← readHexBytes rest
      return UInt8.ofNat (16 * high + low) :: rest

end ContractCompiler
