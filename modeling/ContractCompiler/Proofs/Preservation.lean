/-
Compiling preserves meaning.

The machine is started at the entry of a function of a linked program.  It
stops in the code of that function, at a return with the words of what the
function means on the stack, or at a division that has no result in the meaning
either.
-/

import ContractCompiler.Proofs.Simulation
import ContractCompiler.Text.Identifier

namespace ContractCompiler

/-! ### Arguments -/

namespace Value

variable {type : ValueType} {word : Word}

private theorem type_ofArgument (proper : type ≠ .void) :
    (ofArgument type word).type = type := by
  cases type with
  | void => exact absurd rfl proper
  | int => rfl
  | string => rfl
  | bool => rfl

private theorem words_ofArgument (truth : type = .bool → word = 0 ∨ word = 1) :
    (ofArgument type word).words = [word] := by
  cases type with
  | void => rfl
  | int => rfl
  | string => exact packed_bytes_word word
  | bool => rcases truth rfl with rfl | rfl <;> rfl

theorem length_ofArgument (type : ValueType) (word : Word) :
    (ofArgument type word).bytes.length = wordSize := by
  cases type <;> rfl

end Value

section

variable {function : Function} {call : Call} {outside : List String}

theorem Function.orderly_entry (regular : function.Regular Plain) :
    (function.entry outside).Orderly where
  falling := List.pairwise_singleton _ _
  entered := Nat.le_refl 0
  plain := by
    intro block member bound inside
    rw [List.mem_singleton.mp member] at inside
    rcases List.mem_map.mp inside with ⟨parameter, listed, rfl⟩
    exact (regular.parameters parameter listed).2
  parameters := by
    intro name listed
    rcases List.mem_map.mp listed with ⟨parameter, inside, rfl⟩
    exact List.mem_map.mpr ⟨_, List.mem_map_of_mem inside, rfl⟩

/-- A parameter is located at its index. -/
theorem Function.locationOf_parameter
    (names : (function.parameters.map Parameter.name).Nodup)
    (outside : List String) {index : Nat}
    (inside : index < function.parameters.length) :
    (function.entry outside).locationOf function.parameters[index].name 0 =
      .parameter index := by
  have listed : index < (function.parameters.map Parameter.name).length := by
    rw [List.length_map]
    exact inside
  have named : (function.parameters.map Parameter.name)[index] =
    function.parameters[index].name := List.getElem_map _
  have first : (function.parameters.map Parameter.name).idxOf?
      function.parameters[index].name = some index := by
    refine List.idxOf?_eq_some_iff.mpr ⟨listed, named, ?_⟩
    intro other before same
    exact absurd ((List.Nodup.getElem_inj_iff names).mp
      (same.trans named.symm)) (Nat.ne_of_lt before)
  rw [Environment.locationOf, entry, environment, first]
  rfl

/-- A parameter has the value of the argument at its index. -/
theorem Function.binds_parameter (regular : function.Regular Plain)
    (names : (function.parameters.map Parameter.name).Nodup)
    (covered : call.Covers function.parameters) (outside : List String)
    (memory : Memory) {index : Nat} (inside : index < function.parameters.length)
    (given : index < call.arguments.length) :
    (function.entry outside).Binds call memory 0
      (function.parameters[index].name, function.parameters[index].type)
      (function.parameters[index].name,
        .ofArgument function.parameters[index].type
          call.arguments[index]) := by
  have paired : index < (function.parameters.zip call.arguments).length := by
    rw [List.length_zip]
    omega
  have truth := covered.2 _ (List.getElem_mem paired)
  rw [List.getElem_zip] at truth
  have located := locationOf_parameter names outside inside
  refine ⟨rfl, Value.type_ofArgument
    (regular.parameters _ (List.getElem_mem inside)).1, ?_⟩
  rw [located]
  exact ⟨call.arguments[index], List.getElem?_eq_getElem given,
    Value.words_ofArgument truth, Value.length_ofArgument _ _⟩

/-- At the start of a function its parameters have the values of the call. -/
theorem Function.agrees_entry (regular : function.Regular Plain)
    (names : (function.parameters.map Parameter.name).Nodup)
    (covered : call.Covers function.parameters) (outside : List String)
    (memory : Memory) :
    (function.entry outside).Agrees call [function.boundParameters call]
      memory := by
  refine ⟨orderly_entry regular, .cons ?_ .nil⟩
  have enough := covered.1
  refine List.forall₂_iff_get.mpr ⟨?_, ?_⟩
  · simp only [entry, environment, typedParameters, boundParameters,
      List.length_map, List.length_zip]
    omega
  · intro index inside given
    have insideToo : index < function.parameters.length := by
      simpa only [entry, environment, typedParameters, List.length_map]
        using inside
    have bound := binds_parameter regular names covered outside memory
      insideToo (Nat.lt_of_lt_of_le insideToo enough)
    simpa only [entry, environment, typedParameters, boundParameters,
      List.get_eq_getElem, List.getElem_map, List.getElem_zip] using bound

/-! ### Runs of functions -/

/-- The machine has stopped as the outcome of a function says: at a return
with the words of the returned value on the stack, or at a division without a
result. -/
def Machine.Ends (call : Call) (code : List UInt8) (machine : Machine) :
    Except Fault (Option Value) → Prop
  | .ok value =>
      operationAt? code machine.counter = some .returning ∧
        machine.stack = (Value.returned value).reverse
  | .error .division => machine.Undivided call code
  | .error .nonsense => False

private theorem Machine.Ends.step {code : List UInt8} {machine : Machine}
    {outcome : Except Fault (Option Value)}
    (ends : machine.Ends call code outcome) :
    machine.step call code = none := by
  rw [Machine.step]
  cases outcome with
  | ok value =>
      rcases ends with ⟨returning, _⟩
      rw [returning]
      rcases machine.stack with _ | ⟨_, _ | ⟨_, _⟩⟩ <;> rfl
  | error fault =>
      cases fault with
      | nonsense => cases ends
      | division =>
          rcases ends with ⟨left, right, stack, shape, divides⟩
          rw [shape]
          rcases divides with ⟨operation, undefined⟩ | ⟨operation, undefined⟩
          · rw [operation]
            exact congrArg (Option.map _) undefined
          · rw [operation]
            exact congrArg (Option.map _) undefined

/-- The machine follows a function from its entry on. -/
theorem Function.Placed.follows {region : Region} {base : Nat}
    {code : List Instruction}
    (placed : function.Placed outside base code)
    (regular : function.Regular Plain)
    (names : (function.parameters.map Parameter.name).Nodup)
    (covered : call.Covers function.parameters)
    (held : region.Holds ⟨0, base⟩ code) (memory : Memory) :
    Follows call region ⟨base, [], memory⟩
      (fun value machine => region.Contains machine.counter ∧
        machine.Ends call region.code (.ok value))
      (function.run call) := by
  rcases placed with ⟨body, sites, last, rfl, generated⟩
  have agrees := function.agrees_entry regular names covered outside memory
  have entered : region.Holds (targetExtent.raise base)
    (body ++ [Instruction.plain .returning]) := held.tail
  have returning := entered.right
  rw [Function.run]
  refine .after (Machine.reaches_jumpTarget held) ?_
  refine (generated.follows regular.body agrees entered.left).bind ?_
  intro ending machine _ reached
  cases ending with
  | continues scopes =>
      rcases machine with ⟨_, _, later⟩
      rcases reached with ⟨rfl, rfl, _⟩
      exact .reaches .refl
        ⟨returning.contains, returning.operation, rfl⟩
  | returns value =>
      rcases reached with ⟨operation, inside, stack⟩
      rw [List.append_nil] at stack
      exact .reaches .refl ⟨inside, operation, stack⟩

/-! ### Linked programs -/

theorem Linked.names {base : Nat} {functions : List Function}
    {codes : List (List Instruction)} {entries : List FunctionEntry}
    (linked : Linked outside base functions codes entries) :
    entries.map FunctionEntry.name = functions.map Function.name := by
  induction linked with
  | nil =>
      rfl
  | cons placed rest inductionHypothesis =>
      rw [List.map_cons, List.map_cons, inductionHypothesis]

/-- Where names are distinct, the entry with a name is the only one. -/
theorem Artifact.functionOffset_eq_some {artifact : Artifact}
    {number : Nat} {entry : FunctionEntry}
    (distinct : (artifact.functions.map FunctionEntry.name).Nodup)
    (found : artifact.functions[number]? = some entry) :
    artifact.functionOffset? entry.name = some entry.offset := by
  rcases List.getElem?_eq_some_iff.mp found with ⟨inside, same⟩
  have first : (artifact.functions.find? fun other =>
      other.name == entry.name) = some entry := by
    refine List.find?_eq_some_iff_getElem.mpr
      ⟨beq_self_eq_true _, number, inside, same, ?_⟩
    intro index before
    rw [Bool.not_eq_true', beq_eq_false_iff_ne, ← same]
    exact List.pairwise_iff_getElem.mp (List.pairwise_map.mp distinct) index
      number _ inside before
  rw [functionOffset?, first]
  rfl

/-- The code of a function is a region of the program. -/
theorem Span.holds {codes : List (List Instruction)}
    {artifact : Artifact} {number : Nat}
    {earlier code later : List Instruction}
    (linked : artifact.code = ⟨unitsOf codes.flatten⟩)
    (span : Span outside 0 codes artifact.functions number function earlier
      code later) :
    Region.Holds
      ⟨artifact.code.bytes, (Extent.ofCode earlier).bytes,
        artifact.stopOf number⟩
      ⟨0, (Extent.ofCode earlier).bytes⟩ code where
  starts := Nat.le_refl _
  stops := by
    rw [span.stopOf linked, Extent.bytes_append]
    exact Nat.le_refl _
  written := by
    refine ⟨bytesOf earlier, bytesOf later, ?_, length_bytesOf earlier⟩
    rw [linked, ← bytesOf_append, ← bytesOf_append, ← span.whole]
    rfl

section

variable [IdentifierCharacters]

/-- A function of a compiled contract does what it means: the machine, started
at its entry with an empty stack and memory, stops in its code, at a return
with the words of the returned value or at a division without a result. -/
theorem Contract.compile_preserves_meaning {source : String}
    {contract : Contract} {artifact : Artifact} {parallel : Bool}
    (parsed : Contract.parse source = .ok contract)
    (compiled : contract.compile parallel = .ok artifact)
    (member : function ∈ contract.functions)
    (covered : call.Covers function.parameters) :
    ∃ number offset final,
      artifact.functions[number]? = some ⟨function.name, offset⟩ ∧
      artifact.functionOffset? function.name = some offset ∧
      Machine.Reaches call artifact.code.bytes ⟨offset, [], fun _ => 0⟩
        final ∧
      final.step call artifact.code.bytes = none ∧
      offset ≤ final.counter ∧ final.counter < artifact.stopOf number ∧
      final.Ends call artifact.code.bytes (function.run call) := by
  have regular := regular_of_parse parsed function member
  rcases linked_of_compiled compiled with ⟨declarable, codes, linked, whole⟩
  rcases linked.span_of_mem member with
    ⟨number, earlier, code, later, span⟩
  have names := declarable.parameters function member
  have found := span.starts
  rw [Nat.zero_add] at found
  have placed := span.placed
  rw [Nat.zero_add] at placed
  have offset := Artifact.functionOffset_eq_some
    (linked.names ▸ declarable.names) found
  have follows := placed.follows regular names covered (span.holds whole)
    fun _ => 0
  refine ⟨number, (Extent.ofCode earlier).bytes, ?_⟩
  generalize function.run call = outcome at follows ⊢
  cases follows with
  | reaches run finished =>
      exact ⟨_, found, offset, run, finished.2.step, finished.1.1,
        finished.1.2, finished.2⟩
  | divides run undivided inside =>
      have ends : Machine.Ends call artifact.code.bytes _
        (.error .division) := undivided
      exact ⟨_, found, offset, run, ends.step, inside.1, inside.2, ends⟩

end

open IdentifierTables

def halving : Function :=
  ⟨"f", [⟨"x", .int⟩], .int,
    [.ifThen (.binary .less (.identifier "x") (.integer 9))
      [.assigns .int "x" (.binary .divide (.identifier "x") (.integer 2)),
        .returns (some (.identifier "x"))]]⟩

def halvingSeven : Call :=
  ⟨[7], fun left right => if right = 0 then none else some (left / right),
    fun _ _ => none⟩

def halvingSource : String :=
  "contract\x7bfunc f(x int)int\x7bif(x<9)\x7bint x=x/2 return x\x7d\x7d\x7d"

theorem Contract.compile_preserves_halving :
    ∃ artifact final,
      Contract.parse halvingSource = .ok ⟨[halving]⟩ ∧
      (⟨[halving]⟩ : Contract).compile true = .ok artifact ∧
      halvingSeven.Covers halving.parameters ∧
      Machine.Reaches halvingSeven artifact.code.bytes
        ⟨0, [], fun _ => 0⟩ final ∧ final.stack = [3] := by
  have parsed : Contract.parse halvingSource = .ok ⟨[halving]⟩ := by
    decide +kernel
  have known : ((⟨[halving]⟩ : Contract).compile true).map
      (fun artifact => artifact.functionOffset? "f") = .ok (some 0) := by
    decide +kernel
  obtain ⟨artifact, compiled, entry⟩ := exists_of_map_eq_ok known
  have covered : halvingSeven.Covers halving.parameters := by
    refine ⟨Nat.le_refl 1, ?_⟩
    intro given member truth
    rw [List.mem_singleton.mp member] at truth
    cases truth
  have returned : halving.run halvingSeven = .ok (some (.number 3)) := rfl
  rcases compile_preserves_meaning parsed compiled List.mem_cons_self
    covered with ⟨_, offset, final, _, found, run, _, _, _, ends⟩
  rw [show halving.name = "f" from rfl, entry] at found
  cases found
  rw [returned] at ends
  exact ⟨artifact, final, parsed, compiled, covered, run, ends.2⟩

end

end ContractCompiler
