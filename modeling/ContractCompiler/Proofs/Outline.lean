/-
Which declaration a name refers to, and where its value is kept.

Both are told from the source alone.  Assignments are numbered in the order in
which they stand.  A name refers to the innermost declaration in front of it, an
assignment or a parameter.  Every assignment has memory behind that of the
earlier ones, as much as its value takes; and the code of an expression loads
each name from where its declaration has put the value.
-/

import Mathlib.Data.List.Basic
import ContractCompiler.Proofs.Scoping

namespace ContractCompiler

/-! ### Declarations in front of a point -/

/-- A declaration of a function: a parameter by its position, or an assignment
by the number of those in front of it. -/
inductive Referent where
  | parameter (index : Nat)
  | assignment (number : Nat)
  deriving DecidableEq, Repr

/-- What is declared in front of a point: the visible declarations, innermost
block first, and the sizes of all assignments. -/
structure Outline where
  visible : List (List (String × Referent))
  sizes : List Nat

namespace Outline

def referent? (outline : Outline) (name : String) : Option Referent :=
  findName outline.visible name

/-- The bytes that the value of an expression takes: those of a literal string,
those of a variable that is copied, and one word for anything else. -/
def bytesOf (outline : Outline) : Expression → Nat
  | .text value => utf8Length value.toList
  | .identifier name =>
      match outline.referent? name with
      | some (.assignment number) => outline.sizes.getD number wordSize
      | _ => wordSize
  | _ => wordSize

def enter (outline : Outline) : Outline :=
  { outline with visible := [] :: outline.visible }

def leave (outline : Outline) : Outline :=
  { outline with visible := outline.visible.tail }

def assign (outline : Outline) (name : String) (value : Expression) :
    Outline where
  visible :=
    (outline.visible.headD [] ++
      [(name, .assignment outline.sizes.length)]) :: outline.visible.tail
  sizes := outline.sizes ++ [outline.bytesOf value]

end Outline

mutual

def Statement.outline (outline : Outline) : Statement → Outline
  | .assigns _ name value => outline.assign name value
  | .ifThen _ consequence =>
      (Statement.outlineAll outline.enter consequence).leave
  | .ifThenElse _ consequence alternative =>
      (Statement.outlineAll
        (Statement.outlineAll outline.enter consequence).leave.enter
        alternative).leave
  | _ => outline

def Statement.outlineAll (outline : Outline) : List Statement → Outline
  | [] => outline
  | statement :: rest =>
      Statement.outlineAll (statement.outline outline) rest

end

def Function.outline (function : Function) : Outline where
  visible :=
    [function.parameters.mapIdx fun index parameter =>
      (parameter.name, .parameter index)]
  sizes := []

def Function.sizes (function : Function) : List Nat :=
  (Statement.outlineAll function.outline function.body).sizes

/-! ### Memory -/

def totalSize (sizes : List Nat) : Nat :=
  sizes.foldr (· + ·) 0

/-- The memory of assignments of some sizes: each starts behind all earlier
ones. -/
def rangesOf (sizes : List Nat) : List MemoryEntry :=
  sizes.mapIdx fun number size => ⟨totalSize (sizes.take number), size⟩

def Function.ranges (function : Function) : List MemoryEntry :=
  rangesOf function.sizes

/-! ### Code -/

inductive Expression.Resolves (ranges : List MemoryEntry)
    (outline : Outline) : Expression → List Instruction → Prop where
  | integer {value : Int} {word : Word}
      (fits : Word.ofInteger? value = some word) :
      Resolves ranges outline (.integer value) [.push word]
  | boolean (value : Bool) :
      Resolves ranges outline (.boolean value)
        [.push (if value then 1 else 0)]
  | text (value : String) :
      Resolves ranges outline (.text value)
        ((wordsOf (utf8Bytes value.toList)).map Instruction.push)
  | parameter {name : String} {index : Nat} {word : Word}
      (refers : outline.referent? name = some (.parameter index))
      (fits : Word.address index = .ok word) :
      Resolves ranges outline (.identifier name)
        [.push word, .plain .loadArgument]
  | assignment {name : String} {number : Nat} {range : MemoryEntry}
      {offset size : Word}
      (refers : outline.referent? name = some (.assignment number))
      (kept : ranges[number]? = some range)
      (starts : Word.address range.offset = .ok offset)
      (takes : Word.address range.size = .ok size) :
      Resolves ranges outline (.identifier name)
        [.push offset, .push size, .plain .memoryLoad]
  | binary {operator : Operator} {left right : Expression}
      {leftCode rightCode : List Instruction}
      (onLeft : Resolves ranges outline left leftCode)
      (onRight : Resolves ranges outline right rightCode) :
      Resolves ranges outline (.binary operator left right)
        (leftCode ++ rightCode ++ operator.code)
  | minus {operand : Expression} {code : List Instruction}
      (inside : Resolves ranges outline operand code) :
      Resolves ranges outline (.unary .minus operand)
        (.push 0 :: code ++ [.plain .sub])
  | unary {operator : Operator} {operand : Expression}
      {code : List Instruction} (other : operator ≠ .minus)
      (inside : Resolves ranges outline operand code) :
      Resolves ranges outline (.unary operator operand)
        (code ++ [.plain .not])

/-- The code of a statement without nested blocks.  An assignment stores its
value in the memory of its number. -/
inductive Statement.Resolves (ranges : List MemoryEntry)
    (outline : Outline) : Statement → List Instruction → Prop where
  | evaluates {value : Expression} {code : List Instruction}
      (resolved : value.Resolves ranges outline code) :
      Resolves ranges outline (.evaluates value)
        (code ++ List.replicate (stackWords (outline.bytesOf value))
          (.plain .pop))
  | returnsNothing :
      Resolves ranges outline (.returns none) [.plain .returning]
  | returns {value : Expression} {code : List Instruction}
      (resolved : value.Resolves ranges outline code) :
      Resolves ranges outline (.returns (some value))
        (code ++ [.plain .returning])
  | assigns {type : ValueType} {name : String} {value : Expression}
      {code : List Instruction} {range : MemoryEntry} {offset size : Word}
      (resolved : value.Resolves ranges outline code)
      (kept : ranges[outline.sizes.length]? = some range)
      (starts : Word.address range.offset = .ok offset)
      (takes : Word.address range.size = .ok size) :
      Resolves ranges outline (.assigns type name value)
        (code ++ [.push offset, .push size, .plain .memoryStore])

/-- The code of a block.  Where jumps lead is left open. -/
inductive Block.Resolves (ranges : List MemoryEntry) :
    Outline → Block → List Instruction → Prop where
  | nil {outline : Outline} : Resolves ranges outline [] []
  | straight {outline : Outline} {statement : Statement} {others : Block}
      {code tail : List Instruction}
      (resolved : statement.Resolves ranges outline code)
      (rest : Resolves ranges (statement.outline outline) others tail) :
      Resolves ranges outline (statement :: others) (code ++ tail)
  | ifThen {outline : Outline} {condition : Expression}
      {consequence others : Block} {test body tail : List Instruction}
      {target : Word} (tested : condition.Resolves ranges outline test)
      (inner : Resolves ranges outline.enter consequence body)
      (rest : Resolves ranges
        (Statement.outline outline (.ifThen condition consequence)) others
        tail) :
      Resolves ranges outline (.ifThen condition consequence :: others)
        (branchCode (test ++ [.plain .not]) target body ++ tail)
  | ifThenElse {outline : Outline} {condition : Expression}
      {consequence alternative others : Block}
      {test body other tail : List Instruction} {target ending : Word}
      (tested : condition.Resolves ranges outline test)
      (inner : Resolves ranges outline.enter consequence body)
      (innerToo : Resolves ranges
        (Statement.outlineAll outline.enter consequence).leave.enter
        alternative other)
      (rest : Resolves ranges
        (Statement.outline outline
          (.ifThenElse condition consequence alternative)) others tail) :
      Resolves ranges outline
        (.ifThenElse condition consequence alternative :: others)
        (choiceCode (test ++ [.plain .not]) target body ending other ++
          tail)

/-! ### Ranges of memory -/

theorem totalSize_append (first second : List Nat) :
    totalSize (first ++ second) = totalSize first + totalSize second := by
  induction first with
  | nil =>
      exact (Nat.zero_add _).symm
  | cons size rest inductionHypothesis =>
      change size + totalSize (rest ++ second) =
        size + totalSize rest + totalSize second
      omega

theorem length_rangesOf (sizes : List Nat) :
    (rangesOf sizes).length = sizes.length := by
  rw [rangesOf, List.length_mapIdx]

theorem getElem?_rangesOf (sizes : List Nat) (number : Nat) :
    (rangesOf sizes)[number]? =
      sizes[number]?.map fun size =>
        ⟨totalSize (sizes.take number), size⟩ := by
  rw [rangesOf, List.getElem?_mapIdx]

/-- More assignments do not move the memory of the earlier ones. -/
theorem rangesOf_grown {sizes more : List Nat} (grown : sizes <+: more)
    {number : Nat} {range : MemoryEntry}
    (kept : (rangesOf sizes)[number]? = some range) :
    (rangesOf more)[number]? = some range := by
  obtain ⟨others, rfl⟩ := grown
  rw [getElem?_rangesOf] at kept ⊢
  obtain ⟨size, found, rfl⟩ := Option.map_eq_some_iff.mp kept
  have inside : number < sizes.length :=
    (List.getElem?_eq_some_iff.mp found).1
  rw [List.getElem?_append_left inside, found,
    List.take_append_of_le_length (Nat.le_of_lt inside)]
  rfl

theorem rangesOf_append (sizes : List Nat) (size : Nat) :
    rangesOf (sizes ++ [size]) =
      rangesOf sizes ++ [⟨totalSize sizes, size⟩] := by
  apply List.ext_getElem?
  intro number
  have length := length_rangesOf sizes
  by_cases inside : number < sizes.length
  · have insideToo : number < (rangesOf sizes).length := by
      omega
    rw [List.getElem?_append_left insideToo, getElem?_rangesOf,
      getElem?_rangesOf, List.getElem?_append_left inside,
      List.take_append_of_le_length (Nat.le_of_lt inside)]
  · have behind : sizes.length ≤ number := Nat.le_of_not_lt inside
    rw [List.getElem?_append_right (by omega), getElem?_rangesOf,
      List.getElem?_append_right behind, length]
    by_cases next : number = sizes.length
    · rw [next, Nat.sub_self, List.take_left]
      rfl
    · rw [List.getElem?_eq_none (by rw [List.length_singleton]; omega),
        List.getElem?_eq_none (by rw [List.length_singleton]; omega)]
      rfl

/-- The memory of one more assignment. -/
theorem getElem?_rangesOf_append (sizes : List Nat) (size : Nat) :
    (rangesOf (sizes ++ [size]))[sizes.length]? =
      some ⟨totalSize sizes, size⟩ := by
  rw [rangesOf_append, ← length_rangesOf sizes]
  exact List.getElem?_concat_length

theorem rangesOf_le_total {sizes : List Nat} {range : MemoryEntry}
    (member : range ∈ rangesOf sizes) :
    range.offset + range.size ≤ totalSize sizes := by
  induction sizes using List.reverseRecOn with
  | nil =>
      cases member
  | append_singleton sizes size inductionHypothesis =>
      rw [rangesOf_append] at member
      rw [totalSize_append]
      rcases List.mem_append.mp member with earlier | last
      · exact Nat.le_add_right_of_le (inductionHypothesis earlier)
      · rw [List.mem_singleton.mp last]
        exact Nat.le_refl _

/-- No two assignments share memory. -/
theorem rangesOf_pairwise (sizes : List Nat) :
    (rangesOf sizes).Pairwise fun first second =>
      first.offset + first.size ≤ second.offset := by
  induction sizes using List.reverseRecOn with
  | nil =>
      exact .nil
  | append_singleton sizes size inductionHypothesis =>
      rw [rangesOf_append, List.pairwise_append]
      refine ⟨inductionHypothesis, List.pairwise_singleton _ _, ?_⟩
      intro first earlier second last
      rw [List.mem_singleton.mp last]
      exact rangesOf_le_total earlier

/-! ### Assignments are added behind earlier ones -/

mutual

theorem Statement.sizes_outline (statement : Statement)
    (outline : Outline) :
    outline.sizes <+: (statement.outline outline).sizes := by
  match statement with
  | .evaluates value => exact List.prefix_rfl
  | .returns value => exact List.prefix_rfl
  | .assigns type name value => exact List.prefix_append _ _
  | .ifThen condition consequence =>
      exact Statement.sizes_outlineAll consequence outline.enter
  | .ifThenElse condition consequence alternative =>
      exact (Statement.sizes_outlineAll consequence outline.enter).trans
        (Statement.sizes_outlineAll alternative
          (Statement.outlineAll outline.enter consequence).leave.enter)

theorem Statement.sizes_outlineAll (block : Block) (outline : Outline) :
    outline.sizes <+: (Statement.outlineAll outline block).sizes := by
  match block with
  | [] => exact List.prefix_rfl
  | statement :: rest =>
      exact (Statement.sizes_outline statement outline).trans
        (Statement.sizes_outlineAll rest _)

end

end ContractCompiler
