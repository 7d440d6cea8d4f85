/-
Patching code moves nothing.

A patch puts one unit in the place of another: an operand in that of an
operand, or an operation in that of one with as many operands.  Both are as
wide as what they replace.  So after any patches every unit still starts at
its byte, and only the bytes of units that were replaced can be others.
-/

import ContractCompiler.Proofs.Editing
import ContractCompiler.Proofs.Execution

namespace ContractCompiler

/-! ### Patches -/

inductive Patch where
  | operand (index : Nat) (word : Word)
  | opcode (index : Nat) (opcode : Opcode)

namespace Patch

def index : Patch → Nat
  | .operand index _ => index
  | .opcode index _ => index

def unit : Patch → CodeUnit
  | .operand _ word => .ofWord word
  | .opcode _ operation => .ofOpcode operation

def perform (code : Assembly) : Patch → Except AssemblyError Assembly
  | .operand index word => code.replaceOperand index word
  | .opcode index operation => code.replaceOpcode index operation

end Patch

/-- What a unit has in common with all that can take its place: the number of
its bytes, and how many operands its operation takes. -/
def CodeUnit.shape (unit : CodeUnit) : Nat × Option Nat :=
  (unit.bytes.length, unit.opcode?.map Opcode.operandCount)

def Patch.fits : Patch → CodeUnit → Bool
  | .operand _ _, unit => unit.isOperand
  | .opcode _ operation, unit =>
      unit.opcode?.map Opcode.operandCount == some operation.operandCount

def Patch.lands (code : Assembly) (patch : Patch) : Bool :=
  code.units[patch.index]?.any patch.fits

namespace CodeUnit

variable {unit : CodeUnit}

private theorem width_of_opcode {opcode : Opcode}
    (operation : unit.opcode? = some opcode) : unit.bytes.length = 1 := by
  unfold opcode? at operation
  split at operation
  next byte single =>
    rw [single]
    rfl
  next => cases operation

private theorem opcode_of_operand (operand : unit.isOperand = true) :
    unit.opcode? = none := by
  rw [Option.eq_none_iff_forall_ne_some]
  intro opcode operation
  have width : unit.bytes.length = 4 := eq_of_beq operand
  rw [width_of_opcode operation] at width
  cases width

end CodeUnit

namespace Patch

variable {patch : Patch} {unit : CodeUnit}

private theorem shape_of_fits (fits : patch.fits unit = true) :
    patch.unit.shape = unit.shape := by
  cases patch with
  | operand index word =>
      have width : unit.bytes.length = 4 := eq_of_beq fits
      rw [CodeUnit.shape, CodeUnit.shape, width,
        CodeUnit.opcode_of_operand fits]
      rfl
  | opcode index operation =>
      have counts : unit.opcode?.map Opcode.operandCount =
          some operation.operandCount := eq_of_beq fits
      obtain ⟨old, found, _⟩ := Option.map_eq_some_iff.mp counts
      rw [CodeUnit.shape, CodeUnit.shape, counts,
        CodeUnit.width_of_opcode found, Patch.unit,
        CodeUnit.opcode_ofOpcode]
      rfl

private theorem fits_of_shape {other : CodeUnit}
    (same : unit.shape = other.shape) :
    patch.fits unit = patch.fits other := by
  obtain ⟨width, count⟩ := Prod.mk.inj same
  cases patch with
  | operand index word =>
      exact congrArg (· == 4) width
  | opcode index operation =>
      exact congrArg (· == some operation.operandCount) count

/-- A patch sets one unit when it fits that unit, and fails otherwise. -/
theorem perform_cases (patch : Patch) (code : Assembly) :
    (∃ unit, code.units[patch.index]? = some unit ∧
        patch.fits unit = true ∧
        patch.perform code =
          .ok ⟨code.units.set patch.index patch.unit⟩) ∨
      (patch.lands code = false ∧
        ∃ error, patch.perform code = .error error) := by
  cases patch with
  | operand position word =>
      simp only [Patch.index, lands, perform, Assembly.replaceOperand]
      cases code.units[position]? with
      | none =>
          exact Or.inr ⟨rfl, _, rfl⟩
      | some unit =>
          cases operand : unit.isOperand with
          | false =>
              refine Or.inr ⟨operand, .notAnOperand position, ?_⟩
              simp only [operand, Bool.false_eq_true, if_false]
          | true =>
              exact Or.inl ⟨unit, rfl, operand, if_pos operand⟩
  | opcode position operation =>
      simp only [Patch.index, lands, perform, Assembly.replaceOpcode]
      cases code.units[position]? with
      | none =>
          exact Or.inr ⟨rfl, _, rfl⟩
      | some unit =>
          cases known : unit.opcode? with
          | none =>
              refine Or.inr ⟨?_, .notAnOpcode position, ?_⟩
              · rw [Option.any_some, fits, known]
                rfl
              · simp only [known]
          | some old =>
              by_cases same : old.operandCount = operation.operandCount
              · refine Or.inl ⟨unit, rfl, ?_, ?_⟩
                · rw [fits, known, Option.map_some, same]
                  exact beq_self_eq_true _
                · simp only [known]
                  exact if_pos same
              · refine Or.inr ⟨?_, .operandCount operation
                  operation.operandCount old.operandCount, ?_⟩
                · rw [Option.any_some, fits, known, Option.map_some]
                  exact beq_false_of_ne
                    fun equal => same (Option.some.inj equal)
                · simp only [known]
                  exact if_neg same

end Patch

namespace Assembly

/-- The code behind some patches.  A patch that fails leaves it as it was. -/
def patchAll (code : Assembly) : List Patch → Assembly
  | [] => code
  | patch :: rest =>
      match patch.perform code with
      | .ok edited => edited.patchAll rest
      | .error _ => code.patchAll rest

def landed (code : Assembly) : List Patch → List Patch
  | [] => []
  | patch :: rest =>
      match patch.perform code with
      | .ok edited => patch :: edited.landed rest
      | .error _ => code.landed rest

section Steps

variable {code edited : Assembly} {patch : Patch} {error : AssemblyError}
  (rest : List Patch)

private theorem patchAll_of_ok (performed : patch.perform code = .ok edited) :
    code.patchAll (patch :: rest) = edited.patchAll rest ∧
      code.landed (patch :: rest) = patch :: edited.landed rest := by
  rw [patchAll, landed, performed]
  exact ⟨rfl, rfl⟩

private theorem patchAll_of_error
    (failed : patch.perform code = .error error) :
    code.patchAll (patch :: rest) = code.patchAll rest ∧
      code.landed (patch :: rest) = code.landed rest := by
  rw [patchAll, landed, failed]
  exact ⟨rfl, rfl⟩

end Steps

/-! ### Shapes -/

def shapes (code : Assembly) : List (Nat × Option Nat) :=
  code.units.map CodeUnit.shape

private theorem sizeOfUnits_eq (units : List CodeUnit) :
    sizeOfUnits units =
      (units.map CodeUnit.shape).foldr (fun shape size => shape.1 + size)
        0 := by
  rw [sizeOfUnits, List.foldr_map]
  rfl

section Shapes

variable {code other : Assembly}

private theorem length_of_shapes (same : other.shapes = code.shapes) :
    other.length = code.length := by
  have lengths := congrArg List.length same
  rw [shapes, shapes, List.length_map, List.length_map] at lengths
  exact lengths

private theorem byteLength_of_shapes (same : other.shapes = code.shapes) :
    other.byteLength = code.byteLength := by
  rw [byteLength, byteLength, sizeOfUnits_eq, sizeOfUnits_eq]
  exact congrArg _ same

private theorem byteOffset_of_shapes (same : other.shapes = code.shapes)
    (index : Nat) : other.byteOffset? index = code.byteOffset? index := by
  have front := congrArg (List.take index) same
  rw [shapes, shapes, ← List.map_take, ← List.map_take] at front
  rw [byteOffset?, byteOffset?, length_of_shapes same, sizeOfUnits_eq,
    sizeOfUnits_eq, front]

/-- The same patches fit code of the same shapes. -/
theorem lands_of_shapes (same : other.shapes = code.shapes)
    (patch : Patch) : patch.lands other = patch.lands code := by
  unfold Patch.lands
  have unit := congrArg (fun shapes => shapes[patch.index]?) same
  simp only [shapes, List.getElem?_map] at unit
  cases found : code.units[patch.index]? with
  | none =>
      rw [found, Option.map_none, Option.map_eq_none_iff] at unit
      rw [unit]
  | some old =>
      rw [found] at unit
      obtain ⟨new, foundToo, shape⟩ := Option.map_eq_some_iff.mp unit
      rw [foundToo]
      exact Patch.fits_of_shape shape

end Shapes

private theorem shapes_set {code : Assembly} {patch : Patch} {unit : CodeUnit}
    (found : code.units[patch.index]? = some unit)
    (fits : patch.fits unit = true) :
    shapes ⟨code.units.set patch.index patch.unit⟩ = code.shapes := by
  obtain ⟨inside, rfl⟩ := List.getElem?_eq_some_iff.mp found
  rw [shapes, List.map_set, Patch.shape_of_fits fits, ← List.map_set,
    List.set_getElem_self, shapes]

private theorem shapes_patchAll (code : Assembly) (patches : List Patch) :
    (code.patchAll patches).shapes = code.shapes := by
  induction patches generalizing code with
  | nil =>
      rfl
  | cons patch rest inductionHypothesis =>
      rcases patch.perform_cases code with
        ⟨unit, found, fits, performed⟩ | ⟨_, error, failed⟩
      · rw [(patchAll_of_ok rest performed).1, inductionHypothesis,
          shapes_set found fits]
      · rw [(patchAll_of_error rest failed).1, inductionHypothesis]

/-- Which patches succeed is settled by the code in front of all of them. -/
theorem landed_eq_filter (code : Assembly) (patches : List Patch) :
    code.landed patches = patches.filter (Patch.lands code) := by
  induction patches generalizing code with
  | nil =>
      rfl
  | cons patch rest inductionHypothesis =>
      rcases patch.perform_cases code with
        ⟨unit, found, fits, performed⟩ | ⟨unfit, error, failed⟩
      · have lands : patch.lands code = true := by
          rw [Patch.lands, found]
          exact fits
        have same : Patch.lands ⟨code.units.set patch.index patch.unit⟩ =
            Patch.lands code :=
          funext (lands_of_shapes (shapes_set found fits))
        rw [(patchAll_of_ok rest performed).2, inductionHypothesis, same,
          List.filter_cons_of_pos lands]
      · rw [(patchAll_of_error rest failed).2, inductionHypothesis,
          List.filter_cons_of_neg (Bool.not_eq_true _ |>.mpr unfit)]

/-! ### Units -/

/-- A unit that no patch replaces stays. -/
theorem units_patchAll_of_apart {code : Assembly} {patches : List Patch}
    {index : Nat}
    (apart : ∀ patch ∈ code.landed patches, patch.index ≠ index) :
    (code.patchAll patches).units[index]? = code.units[index]? := by
  induction patches generalizing code with
  | nil =>
      rfl
  | cons patch rest inductionHypothesis =>
      rcases patch.perform_cases code with
        ⟨unit, found, fits, performed⟩ | ⟨_, error, failed⟩
      · obtain ⟨behind, landed⟩ := patchAll_of_ok rest performed
        rw [landed] at apart
        rw [behind, inductionHypothesis
          fun other member => apart other (List.mem_cons_of_mem _ member)]
        exact List.getElem?_set_ne (apart patch List.mem_cons_self)
      · obtain ⟨behind, landed⟩ := patchAll_of_error rest failed
        rw [landed] at apart
        rw [behind, inductionHypothesis apart]

/-- The last of the patches that replace a unit decides about it. -/
theorem units_patchAll_of_last {code : Assembly} {patches : List Patch}
    {before after : List Patch} {patch : Patch}
    (landed : code.landed patches = before ++ patch :: after)
    (last : ∀ later ∈ after, later.index ≠ patch.index) :
    (code.patchAll patches).units[patch.index]? = some patch.unit := by
  induction patches generalizing code before with
  | nil =>
      cases (List.append_eq_nil_iff.mp landed.symm).2
  | cons first rest inductionHypothesis =>
      rcases first.perform_cases code with
        ⟨unit, found, fits, performed⟩ | ⟨_, error, failed⟩
      · obtain ⟨behind, landedToo⟩ := patchAll_of_ok rest performed
        rw [landedToo] at landed
        rw [behind]
        cases before with
        | cons other others =>
            exact inductionHypothesis (List.cons.inj landed).2
        | nil =>
            obtain ⟨rfl, rfl⟩ := List.cons.inj landed
            rw [units_patchAll_of_apart last]
            exact List.getElem?_set_self
              (List.getElem?_eq_some_iff.mp found).1
      · obtain ⟨behind, landedToo⟩ := patchAll_of_error rest failed
        rw [landedToo] at landed
        rw [behind, inductionHypothesis landed]

/-! ### Windows -/

structure Window (code : Assembly) (index start stop : Nat) : Prop where
  starts : code.byteOffset? index = some start
  stops : code.byteOffset? (index + 1) = some stop

private theorem Window.of_shapes {code other : Assembly}
    {index start stop : Nat} (same : other.shapes = code.shapes)
    (window : other.Window index start stop) :
    code.Window index start stop := by
  constructor
  · rw [← byteOffset_of_shapes same, window.starts]
  · rw [← byteOffset_of_shapes same, window.stops]

private theorem Window.unique {code : Assembly}
    {index start stop other another : Nat}
    (window : code.Window index start stop)
    (second : code.Window index other another) :
    start = other ∧ stop = another := by
  constructor
  · exact Option.some.inj (window.starts.symm.trans second.starts)
  · exact Option.some.inj (window.stops.symm.trans second.stops)

/-- The window of a unit starts behind the units before it, is as wide as the
unit, and holds its bytes. -/
theorem window_of_split {code : Assembly} {before after : List CodeUnit}
    {unit : CodeUnit} (split : code.units = before ++ unit :: after) :
    code.Window before.length (sizeOfUnits before)
        (sizeOfUnits before + unit.bytes.length) ∧
      (code.bytes.drop (sizeOfUnits before)).take unit.bytes.length =
        unit.bytes := by
  have around : code.units = (before ++ [unit]) ++ after := by
    rw [split, List.append_assoc]
    rfl
  have length : code.length = before.length + 1 + after.length := by
    rw [Assembly.length, around]
    simp only [List.length_append, List.length_singleton]
  have front : (before.flatMap CodeUnit.bytes).length =
      sizeOfUnits before :=
    length_bytes ⟨before⟩
  refine ⟨⟨?_, ?_⟩, ?_⟩
  · rw [byteOffset?, if_pos (by omega), split, List.take_left]
  · have next : code.units.take (before.length + 1) = before ++ [unit] := by
      rw [around]
      exact List.take_left' List.length_append
    rw [byteOffset?, if_pos (by omega), next, sizeOfUnits_append]
    rfl
  · rw [bytes, split, List.flatMap_append, List.flatMap_cons, ← front,
      List.drop_left, List.take_left]

private theorem exists_split {code : Assembly} {index : Nat} {unit : CodeUnit}
    (found : code.units[index]? = some unit) :
    ∃ before after, code.units = before ++ unit :: after ∧
      before.length = index := by
  obtain ⟨inside, rfl⟩ := List.getElem?_eq_some_iff.mp found
  refine ⟨code.units.take index, code.units.drop (index + 1), ?_, ?_⟩
  · rw [List.getElem_cons_drop, List.take_append_drop]
  · exact List.length_take_of_le (Nat.le_of_lt inside)

private theorem Window.bytes_eq {code : Assembly} {index start stop : Nat}
    {unit : CodeUnit} (window : code.Window index start stop)
    (found : code.units[index]? = some unit) :
    (code.bytes.drop start).take (stop - start) = unit.bytes := by
  obtain ⟨before, after, split, rfl⟩ := exists_split found
  obtain ⟨placed, held⟩ := window_of_split split
  obtain ⟨rfl, rfl⟩ := window.unique placed
  rw [Nat.add_sub_cancel_left]
  exact held

/-- In two pieces of code, the same unit in the same window has the same
bytes. -/
theorem Window.byte_eq {code other : Assembly} {index start stop : Nat}
    {unit : CodeUnit} {address : Nat}
    (window : code.Window index start stop)
    (windowToo : other.Window index start stop)
    (found : code.units[index]? = some unit)
    (foundToo : other.units[index]? = some unit)
    (behind : start ≤ address) (ahead : address < stop) :
    other.bytes[address]? = code.bytes[address]? := by
  have within : address - start < stop - start := by
    omega
  have inner := congrArg (fun bytes => bytes[address - start]?)
    ((windowToo.bytes_eq foundToo).trans (window.bytes_eq found).symm)
  simp only [List.getElem?_take_of_lt within, List.getElem?_drop,
    Nat.add_sub_of_le behind] at inner
  exact inner

/-- Every byte lies in the window of a unit. -/
theorem exists_split_at {units : List CodeUnit} {address : Nat}
    (below : address < sizeOfUnits units) :
    ∃ before, ∃ unit : CodeUnit, ∃ after,
      units = before ++ unit :: after ∧
      sizeOfUnits before ≤ address ∧
      address < sizeOfUnits before + unit.bytes.length := by
  induction units generalizing address with
  | nil =>
      cases below
  | cons first rest inductionHypothesis =>
      have size : sizeOfUnits (first :: rest) =
          first.bytes.length + sizeOfUnits rest := rfl
      by_cases inside : address < first.bytes.length
      · refine ⟨[], first, rest, rfl, Nat.zero_le _, ?_⟩
        exact Nat.lt_add_left _ inside
      · obtain ⟨before, unit, after, rfl, behind, ahead⟩ :=
          inductionHypothesis
            (show address - first.bytes.length < sizeOfUnits rest by omega)
        have front : sizeOfUnits (first :: before) =
            first.bytes.length + sizeOfUnits before := rfl
        exact ⟨first :: before, unit, after, rfl, by omega, by omega⟩

private theorem exists_unit_at {code : Assembly} {address : Nat}
    (below : address < code.byteLength) :
    ∃ index unit start stop, code.units[index]? = some unit ∧
      code.Window index start stop ∧ start ≤ address ∧ address < stop := by
  obtain ⟨before, unit, after, split, behind, ahead⟩ :=
    exists_split_at below
  have found : code.units[before.length]? = some unit := by
    rw [split, List.getElem?_append_right (Nat.le_refl _), Nat.sub_self]
    rfl
  exact ⟨before.length, unit, _, _, found, (window_of_split split).1,
    behind, ahead⟩

/-! ### Patched code -/

/-- What some patches have done to a piece of code, where `landed` are those
that succeeded. -/
structure PatchedInPlace (code : Assembly) (patches landed : List Patch)
    (patched : Assembly) : Prop where
  length : patched.length = code.length
  byteLength : patched.byteLength = code.byteLength
  offsets : ∀ index, patched.byteOffset? index = code.byteOffset? index
  /-- Whether a patch succeeds depends on none of the patches before it. -/
  successes : landed = patches.filter (Patch.lands code)
  /-- Outside the windows of replaced units no byte has changed. -/
  outside : ∀ address,
    (∀ patch ∈ landed, ∀ start stop,
      code.Window patch.index start stop →
        ¬ (start ≤ address ∧ address < stop)) →
    patched.bytes[address]? = code.bytes[address]?
  /-- A window holds the bytes of its last replacement. -/
  inside : ∀ before (patch : Patch) after,
    landed = before ++ patch :: after →
    (∀ later ∈ after, later.index ≠ patch.index) →
    ∃ start stop, code.Window patch.index start stop ∧
      (patched.bytes.drop start).take (stop - start) = patch.unit.bytes

private theorem byte_patchAll_of_outside {code : Assembly}
    {patches : List Patch} {address : Nat}
    (outside : ∀ patch ∈ code.landed patches, ∀ start stop,
      code.Window patch.index start stop →
        ¬ (start ≤ address ∧ address < stop)) :
    (code.patchAll patches).bytes[address]? = code.bytes[address]? := by
  have same := (shapes_patchAll code patches).symm
  have lengths := byteLength_of_shapes same
  by_cases below : address < code.byteLength
  · obtain ⟨index, unit, start, stop, found, window, behind, ahead⟩ :=
      exists_unit_at below
    have apart : ∀ patch ∈ code.landed patches, patch.index ≠ index := by
      intro patch member here
      rw [← here] at window
      exact outside patch member start stop window ⟨behind, ahead⟩
    have kept := (units_patchAll_of_apart apart).trans found
    exact window.byte_eq (window.of_shapes same) found kept behind ahead
  · have beyond : code.bytes.length ≤ address := by
      rw [length_bytes]
      exact Nat.le_of_not_lt below
    have beyondToo : (code.patchAll patches).bytes.length ≤ address := by
      rw [length_bytes, ← lengths]
      exact Nat.le_of_not_lt below
    rw [List.getElem?_eq_none beyond, List.getElem?_eq_none beyondToo]

/-- Patches, whether they succeed or fail, move no unit and no byte, and
change only the units that they replace. -/
theorem patches_move_nothing (code : Assembly) (patches : List Patch) :
    code.PatchedInPlace patches (code.landed patches)
      (code.patchAll patches) := by
  have same := shapes_patchAll code patches
  refine ⟨length_of_shapes same, byteLength_of_shapes same,
    byteOffset_of_shapes same, landed_eq_filter code patches,
    fun address outside => byte_patchAll_of_outside outside, ?_⟩
  intro before patch after landed last
  have put := units_patchAll_of_last landed last
  obtain ⟨front, back, split, position⟩ := exists_split put
  have window := (window_of_split split).1
  rw [position] at window
  exact ⟨_, _, window.of_shapes same, window.bytes_eq put⟩

def unevenJump : Assembly :=
  ⟨[.ofOpcode .push, .ofWord 1, ⟨[7, 8], "?"⟩, .ofOpcode .jump]⟩

/-- Patches of which four fail: an operand for an operation, an operation
with another number of operands, one for a unit that is no operation, and an
operand behind the end. -/
def jumpPatches : List Patch :=
  [.operand 1 5, .operand 0 9, .opcode 3 .jumpIf, .operand 1 6,
   .opcode 0 .pop, .opcode 2 .add, .operand 4 1]

theorem jumpPatches_move_nothing :
    unevenJump.landed jumpPatches =
        [.operand 1 5, .opcode 3 .jumpIf, .operand 1 6] ∧
      (unevenJump.patchAll jumpPatches).bytes =
        [0x21, 0, 0, 0, 6, 7, 8, 0x31] ∧
      ∃ start stop, unevenJump.Window 1 start stop ∧
        ((unevenJump.patchAll jumpPatches).bytes.drop start).take
          (stop - start) = [0, 0, 0, 6] :=
  ⟨rfl, by decide,
    (patches_move_nothing unevenJump jumpPatches).inside
      [.operand 1 5, .opcode 3 .jumpIf] (.operand 1 6) [] rfl
      (List.forall_mem_nil _)⟩

end Assembly

end ContractCompiler
