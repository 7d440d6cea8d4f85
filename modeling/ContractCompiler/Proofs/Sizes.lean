/-
How many bytes values take, told from the source.

A number and a truth value take one word, and so does a parameter.  A string
takes the bytes of the literal it was made from, however often it was copied.
These sizes follow from the declarations in scope; the memory handed out has
room for exactly as many bytes.
-/

import ContractCompiler.Proofs.Simulation

namespace ContractCompiler

/-- The number of bytes of an expression's value, where the variables in scope
have values of some sizes. -/
def Expression.width? (sizes : List (List (String × Nat))) :
    Expression → Option Nat
  | .identifier name => findName sizes name
  | .text value => some (utf8Length value.toList)
  | _ => some wordSize

def bindSize (sizes : List (List (String × Nat))) (name : String)
    (size : Nat) : List (List (String × Nat)) :=
  match sizes with
  | [] => [[(name, size)]]
  | inner :: outer => (inner ++ [(name, size)]) :: outer

def Statement.sizesBehind (sizes : List (List (String × Nat))) :
    Statement → List (List (String × Nat))
  | .assigns _ name value =>
      match value.width? sizes with
      | some size => bindSize sizes name size
      | none => sizes
  | _ => sizes

def Function.parameterSizes (function : Function) : List (String × Nat) :=
  function.parameters.map fun parameter => (parameter.name, wordSize)

/-! ### Sizes of values -/

def sizesOf (scopes : List (List (String × Value))) :
    List (List (String × Nat)) :=
  scopes.map fun scope =>
    scope.map fun given => (given.1, given.2.bytes.length)

theorem findName_sizesOf (scopes : List (List (String × Value)))
    (name : String) :
    findName (sizesOf scopes) name =
      (findName scopes name).map fun value => value.bytes.length := by
  have looked : ∀ scope : List (String × Value),
      (scope.map fun given =>
        (given.1, given.2.bytes.length)).lookup name =
        (scope.lookup name).map fun value => value.bytes.length := by
    intro scope
    induction scope with
    | nil =>
        rfl
    | cons given rest inductionHypothesis =>
        rw [List.map_cons, List.lookup_cons, List.lookup_cons,
          inductionHypothesis]
        cases name == given.1 <;> rfl
  induction scopes with
  | nil =>
      rfl
  | cons scope rest inductionHypothesis =>
      unfold findName sizesOf at inductionHypothesis ⊢
      rw [List.map_cons, List.findSome?_cons, List.findSome?_cons, looked,
        inductionHypothesis]
      cases scope.lookup name <;> rfl

private theorem sizesOf_bindName (scopes : List (List (String × Value)))
    (name : String) (value : Value) :
    sizesOf (bindName scopes name value) =
      bindSize (sizesOf scopes) name value.bytes.length := by
  cases scopes with
  | nil =>
      rfl
  | cons inner outer =>
      simp only [sizesOf, bindName, bindSize, List.map_cons, List.map_append,
        List.map_nil]

theorem Value.exists_of_size {type : ValueType} {size : Nat}
    (proper : type ≠ .void) (single : type ≠ .string → size = wordSize) :
    ∃ value : Value, value.type = type ∧ value.bytes.length = size := by
  cases type with
  | void => exact absurd rfl proper
  | int => exact ⟨.number 0, rfl, (single (by decide)).symm⟩
  | bool => exact ⟨.truth false, rfl, (single (by decide)).symm⟩
  | string =>
      exact ⟨.text (List.replicate size 0), rfl, List.length_replicate⟩

/-! ### Sizes of expressions -/

section

variable {environment next : Environment} {call : Call} {memory : Memory}
  {scopes : List (List (String × Value))} {expression : Expression}
  {type : ValueType}

/-- The value that a variable in scope agrees with. -/
theorem Environment.Agrees.found
    (agrees : environment.Agrees call scopes memory) {name : String}
    (found : findName environment.scopes name = some type) :
    ∃ number value,
      environment.lookup? name = some (number, type) ∧
      findName scopes name = some value ∧ value.type = type ∧
      environment.memory.Stores call memory value
        (environment.locationOf name number) := by
  rw [environment.findName_scopes] at found
  obtain ⟨⟨number, known⟩, lookedUp, rfl⟩ := Option.map_eq_some_iff.mp found
  obtain ⟨value, given, typed, stored⟩ := agrees.lookup lookedUp
  exact ⟨number, value, lookedUp, given, typed, stored⟩

theorem Expression.HasType.width
    (typed : expression.HasType environment.scopes type)
    (agrees : environment.Agrees call scopes memory) :
    ∃ size, expression.width? (sizesOf scopes) = some size ∧
      (type ≠ .string → size = wordSize) := by
  cases typed with
  | identifier found =>
      obtain ⟨number, value, _, given, rfl, _⟩ := agrees.found found
      refine ⟨value.bytes.length, ?_, Value.length_bytes⟩
      rw [width?, findName_sizesOf, given]
      rfl
  | text value =>
      exact ⟨_, rfl, fun other => absurd rfl other⟩
  | integer fits => exact ⟨wordSize, rfl, fun _ => rfl⟩
  | boolean value => exact ⟨wordSize, rfl, fun _ => rfl⟩
  | negative number => exact ⟨wordSize, rfl, fun _ => rfl⟩
  | negation truth => exact ⟨wordSize, rfl, fun _ => rfl⟩
  | arithmetic computes onLeft onRight =>
      exact ⟨wordSize, rfl, fun _ => rfl⟩
  | ordering compares onLeft onRight => exact ⟨wordSize, rfl, fun _ => rfl⟩
  | equality tests comparable onLeft onRight =>
      exact ⟨wordSize, rfl, fun _ => rfl⟩
  | logic connects onLeft onRight => exact ⟨wordSize, rfl, fun _ => rfl⟩

/-- The size that is looked up in the memory handed out is the one that the
declarations give. -/
theorem Expression.width_of_sizeIn
    (agrees : environment.Agrees call scopes memory) {size : Nat}
    (sized : expression.sizeIn environment = .ok size) :
    expression.width? (sizesOf scopes) = some size := by
  cases expression with
  | identifier name =>
      simp only [sizeIn, bind_eq_ok, Prod.exists] at sized
      obtain ⟨type, location, bound, sized⟩ := sized
      obtain ⟨number, lookedUp, rfl⟩ := Environment.binding_eq_ok.mp bound
      obtain ⟨value, given, typed, stored⟩ := agrees.lookup lookedUp
      rw [width?, findName_sizesOf, given]
      apply congrArg some
      cases located : environment.locationOf name number with
      | parameter index =>
          rw [located] at stored sized
          obtain ⟨word, _, _, length⟩ := stored
          cases sized
          exact length
      | memory id =>
          rw [located] at stored sized
          obtain ⟨range, found, length, _⟩ := stored
          obtain ⟨entry, known, same⟩ := bind_eq_ok.mp sized
          rw [Environment.entry_eq_ok.mp known] at found
          cases found
          cases same
          exact length.symm
  | integer value => exact congrArg some (Except.ok.inj sized)
  | text value => exact congrArg some (Except.ok.inj sized)
  | boolean value => exact congrArg some (Except.ok.inj sized)
  | binary operator left right =>
      exact congrArg some (Except.ok.inj sized)
  | unary operator operand => exact congrArg some (Except.ok.inj sized)

/-! ### Sizes behind statements -/

theorem Statement.Straight.agrees {statement : Statement}
    {code : List Instruction}
    (compiled : statement.Straight environment code next)
    (regular : statement.Regular Plain)
    (agrees : environment.Agrees call scopes memory) :
    ∃ later memory, next.Agrees call later memory ∧
      sizesOf later = statement.sizesBehind (sizesOf scopes) := by
  cases compiled with
  | evaluates compiled => exact ⟨scopes, memory, agrees, rfl⟩
  | returns compiled => exact ⟨scopes, memory, agrees, rfl⟩
  | @assigns type name value code next compiled =>
      obtain ⟨valueCode, size, defined, storing, typed, sized, coded, bound,
        stored, rfl, rfl⟩ := assignCode_eq_ok.mp compiled
      obtain ⟨proper, fresh, rfl⟩ := Environment.define_eq_ok.mp bound
      have known := value.width_of_sizeIn agrees sized
      obtain ⟨width, same, single⟩ :=
        (Expression.hasType_of_code regular.2.2 agrees.proper typed
          coded).width agrees
      rw [known] at same
      cases same
      -- Any value of this type and size will do: only its size is kept.
      obtain ⟨given, rfl, rfl⟩ := Value.exists_of_size proper single
      refine ⟨_, _, agrees.assign given regular.2.1 fresh stored, ?_⟩
      rw [sizesOf_bindName, sizesBehind, known]

theorem Statement.agrees_behind {statement : Statement} {start : Extent}
    {piece : Fragment}
    (compiled : Statement.code start environment statement =
      (.ok piece, next))
    (regular : statement.Regular Plain)
    (agrees : environment.Agrees call scopes memory) :
    ∃ later memory, next.Agrees call later memory ∧
      sizesOf later = statement.sizesBehind (sizesOf scopes) := by
  obtain ⟨whole, generated⟩ := Statement.generates_of_code compiled
  cases generated with
  | straight straight rest =>
      cases rest
      exact straight.agrees regular agrees
  | ifThen tested inner reached rest =>
      cases rest
      exact ⟨scopes, memory,
        agrees.skip inner.grows (inner.spares regular.2), rfl⟩
  | ifThenElse tested inner reached innerToo reachedToo rest =>
      cases rest
      have skipped := agrees.skip inner.grows (inner.spares regular.2.1)
      exact ⟨scopes, memory,
        skipped.skip innerToo.grows (innerToo.spares regular.2.2), rfl⟩

end

end ContractCompiler
