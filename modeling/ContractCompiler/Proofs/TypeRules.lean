/-
Which contracts are well typed.

The rules speak of scopes, the innermost first, and of nothing that the
generator of code keeps.  A variable is in scope from the statement behind its
declaration to the end of its block.
-/

import ContractCompiler.Proofs.Scoping

namespace ContractCompiler

def Operator.IsArithmetic (operator : Operator) : Prop :=
  operator = .plus ∨ operator = .minus ∨ operator = .times ∨
    operator = .divide ∨ operator = .modulo

def Operator.IsOrdering (operator : Operator) : Prop :=
  operator = .less ∨ operator = .greater ∨ operator = .lessEqual ∨
    operator = .greaterEqual

inductive Expression.HasType (scopes : List (List (String × ValueType))) :
    Expression → ValueType → Prop where
  | identifier {name : String} {type : ValueType}
      (found : findName scopes name = some type) :
      HasType scopes (.identifier name) type
  | integer {value : Int}
      (fits : -0x80000000 ≤ value ∧ value < 0x80000000) :
      HasType scopes (.integer value) .int
  | text (value : String) : HasType scopes (.text value) .string
  | boolean (value : Bool) : HasType scopes (.boolean value) .bool
  | negative {operand : Expression} (number : HasType scopes operand .int) :
      HasType scopes (.unary .minus operand) .int
  | negation {operand : Expression} (truth : HasType scopes operand .bool) :
      HasType scopes (.unary .not operand) .bool
  | arithmetic {operator : Operator} {left right : Expression}
      (computes : operator.IsArithmetic)
      (onLeft : HasType scopes left .int)
      (onRight : HasType scopes right .int) :
      HasType scopes (.binary operator left right) .int
  | ordering {operator : Operator} {left right : Expression}
      (compares : operator.IsOrdering)
      (onLeft : HasType scopes left .int)
      (onRight : HasType scopes right .int) :
      HasType scopes (.binary operator left right) .bool
  | equality {operator : Operator} {left right : Expression}
      {type : ValueType} (tests : operator = .equal ∨ operator = .notEqual)
      (comparable : type = .int ∨ type = .bool)
      (onLeft : HasType scopes left type)
      (onRight : HasType scopes right type) :
      HasType scopes (.binary operator left right) .bool
  | logic {operator : Operator} {left right : Expression}
      (connects : operator = .and ∨ operator = .or)
      (onLeft : HasType scopes left .bool)
      (onRight : HasType scopes right .bool) :
      HasType scopes (.binary operator left right) .bool

/-- The statements of a block are well typed in a function that returns a
type.  The first scope is that of the block itself. -/
inductive Block.WellTyped (returned : ValueType) :
    List (List (String × ValueType)) → Block → Prop where
  | nil {scopes : List (List (String × ValueType))} :
      WellTyped returned scopes []
  | evaluates {scopes : List (List (String × ValueType))}
      {value : Expression} {type : ValueType} {others : Block}
      (typed : value.HasType scopes type)
      (rest : WellTyped returned scopes others) :
      WellTyped returned scopes (.evaluates value :: others)
  | returnsNothing {scopes : List (List (String × ValueType))}
      {others : Block} (nothing : returned = .void)
      (rest : WellTyped returned scopes others) :
      WellTyped returned scopes (.returns none :: others)
  | returnsValue {scopes : List (List (String × ValueType))}
      {value : Expression} {others : Block}
      (typed : value.HasType scopes returned)
      (rest : WellTyped returned scopes others) :
      WellTyped returned scopes (.returns (some value) :: others)
  | assigns {inner : List (String × ValueType)}
      {outer : List (List (String × ValueType))} {type : ValueType}
      {name : String} {value : Expression} {others : Block}
      (typed : value.HasType (inner :: outer) type)
      (fresh : name ∉ inner.map Prod.fst)
      (rest : WellTyped returned ((inner ++ [(name, type)]) :: outer)
        others) :
      WellTyped returned (inner :: outer)
        (.assigns type name value :: others)
  | ifThen {scopes : List (List (String × ValueType))}
      {condition : Expression} {consequence others : Block}
      (typed : condition.HasType scopes .bool)
      (taken : WellTyped returned ([] :: scopes) consequence)
      (rest : WellTyped returned scopes others) :
      WellTyped returned scopes (.ifThen condition consequence :: others)
  | ifThenElse {scopes : List (List (String × ValueType))}
      {condition : Expression} {consequence alternative others : Block}
      (typed : condition.HasType scopes .bool)
      (taken : WellTyped returned ([] :: scopes) consequence)
      (skipped : WellTyped returned ([] :: scopes) alternative)
      (rest : WellTyped returned scopes others) :
      WellTyped returned scopes
        (.ifThenElse condition consequence alternative :: others)

/-- The body of a function is well typed.  Its parameters belong to the block
of the body. -/
def Function.WellTyped (function : Function) : Prop :=
  Block.WellTyped function.returnType [function.typedParameters]
    function.body

/-- No two functions of a contract have the same name, no two parameters of a
function have the same name, and every function is well typed. -/
structure Contract.WellTyped (contract : Contract) : Prop where
  names : (contract.functions.map Function.name).Nodup
  parameters : ∀ function ∈ contract.functions,
    (function.parameters.map Parameter.name).Nodup
  bodies : ∀ function ∈ contract.functions, function.WellTyped

end ContractCompiler
