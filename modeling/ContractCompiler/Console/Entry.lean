/-
Entries on the console.

An entry may run over several lines.  It goes on while brackets or a string
are open, or while it ends in an operator that asks for more.  A closing
bracket that matches nothing ends the entry at once, so that the error can be
reported.
-/

import ContractCompiler.Text.Character

namespace ContractCompiler

namespace Console

/-- Whether a text leaves no bracket and no string open, given the closing
brackets that are awaited and whether a string is open before it. -/
def balancedFrom : (awaited : List Char) → (quoted : Bool) →
    List Char → Bool
  | awaited, false, [] => awaited.isEmpty
  | _, true, [] => false
  | _, true, ['\\'] => false
  | awaited, true, '\\' :: _ :: rest => balancedFrom awaited true rest
  | awaited, true, character :: rest =>
      balancedFrom awaited (character != '"') rest
  | awaited, false, character :: rest =>
      if character == '"' then balancedFrom awaited true rest
      else if character == '(' then
        balancedFrom (')' :: awaited) false rest
      else if character == '\x7b' then
        balancedFrom ('\x7d' :: awaited) false rest
      else if character == ')' || character == '\x7d' then
        match awaited with
        | [] => true
        | expected :: others =>
            if expected == character then balancedFrom others false rest
            else true
      else
        balancedFrom awaited false rest

/-- Whether a text leaves no bracket and no string open, or closes a bracket
that does not match. -/
def isBalanced (text : List Char) : Bool :=
  balancedFrom [] false text

/-- The characters behind which an entry goes on. -/
def continuing : List Char :=
  "+-*/%=,\x7b(&|<>".toList

def isIncomplete (text : List Char) : Bool :=
  !isBalanced text ||
    match (trimBlanks text).getLast? with
    | some last => continuing.contains last
    | none => false

/-- An entry as a contract: a function on its own is put into one. -/
def asContract (entry : List Char) : List Char :=
  if "func".toList.isPrefixOf (trimStart entry) then
    "contract \x7b ".toList ++ entry ++ " \x7d".toList
  else
    entry

end Console

end ContractCompiler
