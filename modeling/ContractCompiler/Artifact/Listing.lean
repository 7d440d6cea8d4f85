/-
Linked programs as text.

A listing has a line for every instruction with its address, and a header in
front of every function.  The hexadecimal form shows the bytes alone.
-/

import ContractCompiler.Artifact
import ContractCompiler.Text.Style
import ContractCompiler.Token.Tokenize

namespace ContractCompiler

inductive OutputFormat where
  | assembly
  | hexadecimal
  deriving DecidableEq, Repr

namespace OutputFormat

def name : OutputFormat → String
  | assembly => "Asm"
  | hexadecimal => "Hex"

def toggle : OutputFormat → OutputFormat
  | assembly => hexadecimal
  | hexadecimal => assembly

end OutputFormat

namespace Artifact

def header (entry : FunctionEntry) : String :=
  Style.magenta.paintBold "func" ++ " " ++
    Style.white.paintBold entry.name ++ " " ++
    Style.dim.paint ("@ 0x" ++ hexadecimal 4 entry.offset) ++ "\n"

/-- The headers of the next functions that start at an offset, and the
functions behind them.  A blank line stands before a header unless nothing
has been written yet. -/
def headersAt (offset : Nat) (written : Bool) :
    List FunctionEntry → List String × List FunctionEntry
  | [] => ([], [])
  | entry :: rest =>
      if entry.offset = offset then
        let (headers, later) := headersAt offset true rest
        (((if written then "\n" else "") ++ header entry) :: headers,
          later)
      else
        ([], entry :: rest)

def instructionLine (offset : Nat) (first : CodeUnit)
    (operands : List CodeUnit) : String :=
  "  " ++ Style.dim.paint (hexadecimal 4 offset) ++ "  " ++
    Style.cyan.paint first.text ++
    String.join (operands.map fun operand =>
      " " ++ Style.yellow.paint operand.text) ++
    "\n"

def listingFrom (offset : Nat) (written : Bool)
    (functions : List FunctionEntry) (units : List CodeUnit) :
    List String :=
  match units with
  | [] => []
  | first :: rest =>
      let (headers, later) := headersAt offset written functions
      let operands := rest.takeWhile CodeUnit.isOperand
      headers ++ instructionLine offset first operands ::
        listingFrom
          (offset + Assembly.sizeOfUnits (first :: operands)) true later
          (rest.dropWhile CodeUnit.isOperand)
termination_by units.length
decreasing_by
  have shorter := length_dropWhile_le CodeUnit.isOperand rest
  simp only [List.length_cons]
  omega

def listing (artifact : Artifact) : String :=
  String.join
    (listingFrom 0 false artifact.functions artifact.code.units)

def display (format : OutputFormat) (artifact : Artifact) : String :=
  match format with
  | .assembly => artifact.listing
  | .hexadecimal => hexBytes artifact.code.bytes

end Artifact

end ContractCompiler
