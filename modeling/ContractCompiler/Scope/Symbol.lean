/-
Symbols: what a name is bound to.

A symbol is a variable with the type of its values, or a function with the
scope of its own.
-/

import ContractCompiler.Contract

namespace ContractCompiler

abbrev ScopeId := Nat

abbrev SymbolId := Nat

inductive BindingError where
  | redefined (name : String)
  | voidBinding (name : String)
  deriving DecidableEq, Repr

def BindingError.message : BindingError → String
  | redefined name => "'" ++ name ++ "' is already defined in this scope"
  | voidBinding name => "'" ++ name ++ "' cannot have type void"

inductive Symbol.Sort where
  | integer
  | text
  | boolean
  | function (scope : ScopeId)
  deriving DecidableEq, Repr

structure Symbol where
  sort : Symbol.Sort
  name : String
  deriving DecidableEq, Repr

namespace Symbol

/-- A variable of a type.  No variable holds `void`. -/
def ofType (type : ValueType) (name : String) :
    Except BindingError Symbol :=
  match type with
  | .int => .ok ⟨.integer, name⟩
  | .string => .ok ⟨.text, name⟩
  | .bool => .ok ⟨.boolean, name⟩
  | .void => .error (.voidBinding name)

def sortName (symbol : Symbol) : String :=
  match symbol.sort with
  | .integer => "INTEGER"
  | .text => "STRING"
  | .boolean => "BOOLEAN"
  | .function _ => "FUNCTION"

def valueType? (symbol : Symbol) : Option ValueType :=
  match symbol.sort with
  | .integer => some .int
  | .text => some .string
  | .boolean => some .bool
  | .function _ => none

def scope? (symbol : Symbol) : Option ScopeId :=
  match symbol.sort with
  | .function scope => some scope
  | _ => none

def display (symbol : Symbol) : String :=
  match symbol.sort with
  | .function _ => "func " ++ symbol.name
  | _ => symbol.name

end Symbol

end ContractCompiler
