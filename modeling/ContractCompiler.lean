import ContractCompiler.Text.Character
import ContractCompiler.Text.Alphanumeric
import ContractCompiler.Text.Bytes
import ContractCompiler.Text.Numeral
import ContractCompiler.Token
import ContractCompiler.Token.Lexeme
import ContractCompiler.Token.Tokenize
import ContractCompiler.Token.Scanner
import ContractCompiler.Token.Reader
import ContractCompiler.Token.Lookahead
import ContractCompiler.Token.Stream
import ContractCompiler.Contract
import ContractCompiler.Contract.Render
import ContractCompiler.Contract.SyntaxError
import ContractCompiler.Contract.Reading
import ContractCompiler.Assembly.Opcode
import ContractCompiler.Assembly.Word
import ContractCompiler.Assembly
import ContractCompiler.Assembly.Disassembly
import ContractCompiler.MemoryTable
import ContractCompiler.Scope.Symbol
import ContractCompiler.Scope.Store
import ContractCompiler.Scope.Declare
import ContractCompiler.Code.Environment
import ContractCompiler.Code.Typing
import ContractCompiler.Code.Expression
import ContractCompiler.Code.Statement
import ContractCompiler.Code.Function
import ContractCompiler.Artifact
import ContractCompiler.Compile
import ContractCompiler.Text.Style
import ContractCompiler.Artifact.Listing
import ContractCompiler.Console.Command
import ContractCompiler.Console.Completion
import ContractCompiler.Console.Highlight
import ContractCompiler.Console.Entry
import ContractCompiler.CommandLine
import ContractCompiler.Files
import ContractCompiler.Text.GraphemeClass
import ContractCompiler.Text.Grapheme
import ContractCompiler.Console.Session
import ContractCompiler.CommandLine.Usage
import ContractCompiler.Program
import ContractCompiler.Main
import ContractCompiler.Proofs.Reading
import ContractCompiler.Proofs.Grammar
import ContractCompiler.Proofs.ExpressionReading
import ContractCompiler.Proofs.ContractReading
import ContractCompiler.Proofs.Unambiguity
import ContractCompiler.Proofs.Regularity
import ContractCompiler.Proofs.Fragments
import ContractCompiler.Proofs.Layout
import ContractCompiler.Proofs.Generation
import ContractCompiler.Proofs.Emission
import ContractCompiler.Proofs.Relocation
import ContractCompiler.Proofs.Declaring
import ContractCompiler.Proofs.Outcomes
import ContractCompiler.Proofs.Linking
import ContractCompiler.Proofs.CodeConditions
import ContractCompiler.Proofs.Jumps
import ContractCompiler.Proofs.ControlFlow
import ContractCompiler.Proofs.Scoping
import ContractCompiler.Proofs.TypeRules
import ContractCompiler.Proofs.TypeChecking
import ContractCompiler.Proofs.Acceptance
import ContractCompiler.Proofs.Diagnosis
import ContractCompiler.Proofs.Naming
import ContractCompiler.Proofs.Machine
import ContractCompiler.Proofs.Execution
import ContractCompiler.Proofs.Meaning
import ContractCompiler.Proofs.Values
import ContractCompiler.Proofs.Agreement
import ContractCompiler.Proofs.ExpressionSimulation
import ContractCompiler.Proofs.Simulation
import ContractCompiler.Proofs.Preservation
import ContractCompiler.Proofs.WireFormat
import ContractCompiler.Proofs.ProgramLayout
import ContractCompiler.Proofs.Sizes
import ContractCompiler.Proofs.StackLevels
import ContractCompiler.Proofs.Occurrences
import ContractCompiler.Proofs.Successors
import ContractCompiler.Proofs.StackReading
import ContractCompiler.Proofs.Passage
import ContractCompiler.Proofs.ReturnPaths
import ContractCompiler.Proofs.Lexemes
import ContractCompiler.Proofs.Scanning
import ContractCompiler.Proofs.Tiling
import ContractCompiler.Proofs.PlaceIndependence
import ContractCompiler.Proofs.Respacing
import ContractCompiler.Proofs.Independence
import ContractCompiler.Proofs.Writable
import ContractCompiler.Proofs.Rendering
import ContractCompiler.Proofs.RoundTrip
import ContractCompiler.Proofs.JumpSites
import ContractCompiler.Proofs.DeclarationFailures
import ContractCompiler.Proofs.Renaming
import ContractCompiler.Proofs.RenamedCode
import ContractCompiler.Proofs.NameIndependence
import ContractCompiler.Proofs.Pipeline
import ContractCompiler.Proofs.Delivery
import ContractCompiler.Proofs.Outline
import ContractCompiler.Proofs.LexicalScoping
import ContractCompiler.Proofs.Agenda
import ContractCompiler.Proofs.FirstFault
import ContractCompiler.Proofs.LongestMatch
import ContractCompiler.Proofs.OperatorBinding
import ContractCompiler.Proofs.Quotations
import ContractCompiler.Proofs.Editing
import ContractCompiler.Proofs.LookingAhead
import ContractCompiler.Proofs.Bracketing
import ContractCompiler.Proofs.FinishedEntries
import ContractCompiler.Proofs.Ownership
import ContractCompiler.Proofs.ScopeOperations
import ContractCompiler.Proofs.ScopeChains
import ContractCompiler.Proofs.DeclaredScopes
import ContractCompiler.Proofs.Unstyled
import ContractCompiler.Proofs.Listing
import ContractCompiler.Proofs.WordCompletion
import ContractCompiler.Proofs.Cancellation
import ContractCompiler.Proofs.Colouring
import ContractCompiler.Proofs.Allocation
import ContractCompiler.Proofs.Backpatching
import ContractCompiler.Proofs.Progress
