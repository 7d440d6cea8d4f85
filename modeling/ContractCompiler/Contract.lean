/-
Contracts and their parts.

A contract is a list of functions.  A function has typed parameters, a type
for what it returns, and a block of statements.  Operators are shared by both
positions: in front of an operand and between two operands.
-/

namespace ContractCompiler

/-- The type of a value, or `void` for a function that returns none. -/
inductive ValueType where
  | void
  | int
  | string
  | bool
  deriving DecidableEq, Repr

namespace ValueType

def name : ValueType → String
  | void => "void"
  | int => "int"
  | string => "string"
  | bool => "bool"

end ValueType

inductive Operator where
  | plus
  | minus
  | times
  | divide
  | modulo
  | not
  | less
  | greater
  | lessEqual
  | greaterEqual
  | equal
  | notEqual
  | and
  | or
  deriving DecidableEq, Repr

namespace Operator

def symbol : Operator → String
  | plus => "+"
  | minus => "-"
  | times => "*"
  | divide => "/"
  | modulo => "%"
  | not => "!"
  | less => "<"
  | greater => ">"
  | lessEqual => "<="
  | greaterEqual => ">="
  | equal => "=="
  | notEqual => "!="
  | and => "&&"
  | or => "||"

def all : List Operator :=
  [plus, minus, times, divide, modulo, not, less, greater, lessEqual,
   greaterEqual, equal, notEqual, and, or]

def ofSymbol? (text : String) : Option Operator :=
  all.find? fun operator => operator.symbol == text

end Operator

inductive Expression where
  | identifier (name : String)
  | integer (value : Int)
  | text (value : String)
  | boolean (value : Bool)
  | binary (operator : Operator) (left right : Expression)
  | unary (operator : Operator) (operand : Expression)
  deriving DecidableEq, Repr

inductive Statement where
  | returns (value : Option Expression)
  | assigns (type : ValueType) (name : String) (value : Expression)
  | ifThen (condition : Expression) (consequence : List Statement)
  | ifThenElse (condition : Expression)
      (consequence alternative : List Statement)
  | evaluates (value : Expression)
  deriving Repr

mutual

def Statement.same : Statement → Statement → Bool
  | .returns value, .returns other => value == other
  | .assigns type name value, .assigns otherType otherName other =>
      type == otherType && name == otherName && value == other
  | .ifThen condition consequence, .ifThen other otherConsequence =>
      condition == other && Statement.sameAll consequence otherConsequence
  | .ifThenElse condition consequence alternative,
      .ifThenElse other otherConsequence otherAlternative =>
      condition == other && Statement.sameAll consequence otherConsequence &&
        Statement.sameAll alternative otherAlternative
  | .evaluates value, .evaluates other => value == other
  | _, _ => false

def Statement.sameAll : List Statement → List Statement → Bool
  | [], [] => true
  | statement :: rest, other :: others =>
      statement.same other && Statement.sameAll rest others
  | _, _ => false

end

mutual

theorem Statement.same_iff (first second : Statement) :
    first.same second = true ↔ first = second := by
  cases first with
  | returns value => cases second <;> simp [Statement.same]
  | assigns type name value =>
      cases second <;> simp [Statement.same, and_assoc]
  | ifThen condition consequence =>
      cases second <;>
        simp [Statement.same, Statement.sameAll_iff consequence]
  | ifThenElse condition consequence alternative =>
      cases second <;>
        simp [Statement.same, Statement.sameAll_iff consequence,
          Statement.sameAll_iff alternative, and_assoc]
  | evaluates value => cases second <;> simp [Statement.same]

theorem Statement.sameAll_iff (first second : List Statement) :
    Statement.sameAll first second = true ↔ first = second := by
  cases first with
  | nil => cases second <;> simp [Statement.sameAll]
  | cons statement rest =>
      cases second with
      | nil => simp [Statement.sameAll]
      | cons other others =>
          simp [Statement.sameAll, Statement.same_iff statement,
            Statement.sameAll_iff rest]

end

instance : DecidableEq Statement := fun first second =>
  decidable_of_iff _ (Statement.same_iff first second)

abbrev Block := List Statement

structure Parameter where
  name : String
  type : ValueType
  deriving DecidableEq, Repr

structure Function where
  name : String
  parameters : List Parameter
  returnType : ValueType
  body : Block
  deriving DecidableEq, Repr

structure Contract where
  functions : List Function
  deriving DecidableEq, Repr

end ContractCompiler
