/-
Linking moves every jump site once, and nothing else.

A function is linked behind the functions in front of it.  Each of its jump
sites holds four bytes that spell an address, and the number of bytes in front
of the function is added to it.  Linking fails at the first site that has no
address, or whose address grows too large for four bytes.
-/

import Mathlib.Data.List.Basic
import ContractCompiler.Artifact
import ContractCompiler.Proofs.Layout

namespace ContractCompiler

/-! ### Addresses in units -/

def numberOf (bytes : List UInt8) : Nat :=
  bytes.foldl (fun number byte => 256 * number + byte.toNat) 0

private theorem numberOf_bytes (word : Word) :
    numberOf word.bytes = word.toNat := by
  have bound := word.isLt
  simp only [numberOf, Word.bytes, List.foldl_cons, List.foldl_nil,
    UInt8.toNat_ofNat']
  omega

private theorem toNat_ofBytes (first second third fourth : UInt8) :
    (Word.ofBytes first second third fourth).toNat =
      numberOf [first, second, third, fourth] := by
  have firstBound := first.toNat_lt
  have secondBound := second.toNat_lt
  have thirdBound := third.toNat_lt
  have fourthBound := fourth.toNat_lt
  simp only [Word.ofBytes, BitVec.toNat_ofNat, numberOf, List.foldl_cons,
    List.foldl_nil]
  omega

namespace CodeUnit

private theorem word_of_width {unit : CodeUnit}
    (width : unit.bytes.length = 4) :
    ∃ word, unit.word? = some word ∧ word.toNat = numberOf unit.bytes := by
  rcases unit with ⟨bytes, text⟩
  rcases bytes with _ | ⟨first, _ | ⟨second, _ | ⟨third, _ | ⟨fourth,
    _ | ⟨fifth, rest⟩⟩⟩⟩⟩
  · cases width
  · cases width
  · cases width
  · cases width
  · exact ⟨_, rfl, toNat_ofBytes first second third fourth⟩
  · simp only [List.length_cons] at width
    omega

private theorem word_of_other_width {unit : CodeUnit}
    (width : unit.bytes.length ≠ 4) : unit.word? = none := by
  unfold word?
  split
  next first second third fourth spelled =>
    rw [spelled] at width
    exact absurd rfl width
  next => rfl

end CodeUnit

namespace Assembly

/-- Why the address at a unit cannot be moved by a number of bytes: the unit
is missing or is not four bytes wide, or the sum does not fit. -/
def fault? (base : Nat) (code : Assembly) (site : Nat) :
    Option AssemblyError :=
  match code.units[site]? with
  | none => some (.notAnOperand site)
  | some unit =>
      if unit.bytes.length = 4 then
        if base + numberOf unit.bytes < 0x100000000 then none
        else some (.addressOverflow (base + numberOf unit.bytes))
      else some (.notAnOperand site)

def shift (base : Nat) (code : Assembly) (site : Nat) : Assembly :=
  ⟨code.units.modify site fun unit =>
    .ofWord (BitVec.ofNat 32 (base + numberOf unit.bytes))⟩

variable {base site : Nat} {code : Assembly}

private theorem fault_eq_none :
    code.fault? base site = none ↔
      ∃ unit, code.units[site]? = some unit ∧ unit.bytes.length = 4 ∧
        base + numberOf unit.bytes < 0x100000000 := by
  unfold fault?
  cases code.units[site]? with
  | none => simp
  | some unit =>
      by_cases width : unit.bytes.length = 4
      · by_cases fits : base + numberOf unit.bytes < 0x100000000
        · simp [width, fits]
        · simp [width, fits]
      · simp [width]

/-- Whether an address can be moved depends on its unit only. -/
theorem fault_congr {other : Assembly}
    (same : other.units[site]? = code.units[site]?) :
    other.fault? base site = code.fault? base site := by
  unfold fault?
  rw [same]

private theorem units_shift_of_ne {other : Nat} (apart : other ≠ site) :
    (code.shift base site).units[other]? = code.units[other]? := by
  simp only [shift, List.getElem?_modify, if_neg apart.symm,
    Option.map_eq_map, Option.map_id']

/-- Moving one address leaves the others as they are. -/
theorem fault_shift_of_mem {other : Nat} {rest : List Nat}
    (absent : site ∉ rest) (member : other ∈ rest) :
    (code.shift base site).fault? base other = code.fault? base other := by
  apply fault_congr
  apply units_shift_of_ne
  intro same
  subst same
  exact absent member

private theorem length_shift :
    (code.shift base site).units.length = code.units.length :=
  List.length_modify ..

end Assembly

structure CodeUnit.Moved (base : Nat) (old new : CodeUnit) : Prop where
  width : new.bytes.length = 4
  value : numberOf new.bytes = base + numberOf old.bytes
  text : new.text = hexBytes new.bytes

private theorem Assembly.unit_shift {base site : Nat} {code : Assembly}
    (fine : code.fault? base site = none) :
    ∃ old new, code.units[site]? = some old ∧
      (code.shift base site).units[site]? = some new ∧
      old.Moved base new := by
  obtain ⟨unit, found, _, fits⟩ := fault_eq_none.mp fine
  refine ⟨unit, .ofWord (BitVec.ofNat 32 (base + numberOf unit.bytes)),
    found, ?_, ?_⟩
  · simp only [shift, List.getElem?_modify, if_true, found,
      Option.map_eq_map, Option.map_some]
  · constructor
    · exact Word.length_bytes _
    · show numberOf (Word.bytes _) = _
      rw [numberOf_bytes, BitVec.toNat_ofNat]
      exact Nat.mod_eq_of_lt fits
    · rfl

/-! ### Moving the sites of a function -/

structure FunctionCode.Moved (function : FunctionCode) (base : Nat)
    (units : List CodeUnit) : Prop where
  length : units.length = function.code.units.length
  sites : ∀ site ∈ function.jumpSites, ∃ old new,
    function.code.units[site]? = some old ∧ units[site]? = some new ∧
      old.Moved base new
  others : ∀ index, index ∉ function.jumpSites →
    units[index]? = function.code.units[index]?

namespace Artifact

variable {base : Nat}

theorem relocate_cons (code : Assembly) (site : Nat) (rest : List Nat) :
    relocate base code (site :: rest) =
      match code.fault? base site with
      | some error => .error error
      | none => relocate base (code.shift base site) rest := by
  rw [relocate]
  unfold Assembly.operandAt? Assembly.fault?
  cases found : code.units[site]? with
  | none =>
      rfl
  | some unit =>
      by_cases width : unit.bytes.length = 4
      · obtain ⟨word, read, value⟩ := CodeUnit.word_of_width width
        have operand : unit.isOperand = true := by
          simp [CodeUnit.isOperand, width]
        simp only [Option.bind_some, read, value, if_pos width]
        unfold Word.address Assembly.replaceOperand Assembly.shift
        by_cases fits : base + numberOf unit.bytes < 0x100000000
        · simp only [fits, if_true, found, operand]
          rw [List.modify_eq_set_getElem?, found]
          rfl
        · simp only [fits, if_false]
      · simp only [Option.bind_some, CodeUnit.word_of_other_width width,
          if_neg width]

/-- Sites that differ are moved independently of each other. -/
theorem relocate_eq (code : Assembly) {sites : List Nat}
    (distinct : sites.Nodup) :
    relocate base code sites =
      match sites.findSome? (code.fault? base) with
      | some error => .error error
      | none => .ok (sites.foldl (Assembly.shift base) code) := by
  induction sites generalizing code with
  | nil =>
      rfl
  | cons site rest inductionHypothesis =>
      obtain ⟨absent, others⟩ := List.nodup_cons.mp distinct
      have unchanged : rest.findSome? ((code.shift base site).fault? base) =
          rest.findSome? (code.fault? base) := by
        rw [← List.head?_filterMap, ← List.head?_filterMap]
        refine congrArg _ (List.filterMap_congr ?_)
        intro other member
        exact Assembly.fault_shift_of_mem absent member
      rw [relocate_cons, List.findSome?_cons, List.foldl_cons]
      cases code.fault? base site with
      | some error =>
          rfl
      | none =>
          simp only
          rw [inductionHypothesis _ others, unchanged]

end Artifact

namespace Assembly

private theorem sizeOfUnits_modify {units : List CodeUnit} {index : Nat}
    {change : CodeUnit → CodeUnit}
    (kept : ∀ unit, units[index]? = some unit →
      (change unit).bytes.length = unit.bytes.length) :
    sizeOfUnits (units.modify index change) = sizeOfUnits units := by
  induction units generalizing index with
  | nil =>
      rw [List.modify_nil]
  | cons unit rest inductionHypothesis =>
      cases index with
      | zero =>
          have same := kept unit rfl
          simp only [List.modify_zero_cons, sizeOfUnits, List.foldr_cons]
          rw [same]
      | succ index =>
          have same := @inductionHypothesis index kept
          simp only [List.modify_succ_cons, sizeOfUnits, List.foldr_cons]
            at same ⊢
          rw [same]

private theorem byteLength_shift {base site : Nat} {code : Assembly}
    (fine : code.fault? base site = none) :
    (code.shift base site).byteLength = code.byteLength := by
  apply sizeOfUnits_modify
  intro unit found
  obtain ⟨known, foundToo, width, _⟩ := fault_eq_none.mp fine
  rw [found] at foundToo
  cases foundToo
  rw [width]
  exact Word.length_bytes _

variable {base : Nat} {sites : List Nat}

private theorem units_shifts_of_not_mem (code : Assembly) {index : Nat}
    (absent : index ∉ sites) :
    (sites.foldl (shift base) code).units[index]? = code.units[index]? := by
  induction sites generalizing code with
  | nil =>
      rfl
  | cons site rest inductionHypothesis =>
      have apart : index ≠ site := List.ne_of_not_mem_cons absent
      have others : index ∉ rest := List.not_mem_of_not_mem_cons absent
      rw [List.foldl_cons, inductionHypothesis _ others,
        units_shift_of_ne apart]

private theorem length_shifts (code : Assembly) :
    (sites.foldl (shift base) code).units.length = code.units.length := by
  induction sites generalizing code with
  | nil =>
      rfl
  | cons site rest inductionHypothesis =>
      rw [List.foldl_cons, inductionHypothesis, length_shift]

private theorem byteLength_shifts {code : Assembly} (distinct : sites.Nodup)
    (fine : ∀ site ∈ sites, code.fault? base site = none) :
    (sites.foldl (shift base) code).byteLength = code.byteLength := by
  induction sites generalizing code with
  | nil =>
      rfl
  | cons site rest inductionHypothesis =>
      obtain ⟨absent, others⟩ := List.nodup_cons.mp distinct
      rw [List.foldl_cons, inductionHypothesis others,
        byteLength_shift (fine site List.mem_cons_self)]
      intro other member
      rw [fault_shift_of_mem absent member]
      exact fine other (List.mem_cons_of_mem site member)

/-- Every one of some sites is moved, and moved once. -/
theorem unit_shifts {code : Assembly} (distinct : sites.Nodup)
    (fine : ∀ site ∈ sites, code.fault? base site = none) :
    ∀ site ∈ sites, ∃ old new, code.units[site]? = some old ∧
      (sites.foldl (shift base) code).units[site]? = some new ∧
      old.Moved base new := by
  induction sites generalizing code with
  | nil =>
      intro site member
      cases member
  | cons first rest inductionHypothesis =>
      obtain ⟨absent, others⟩ := List.nodup_cons.mp distinct
      intro site member
      rw [List.foldl_cons]
      by_cases same : site = first
      · -- The sites behind it leave the first one as it is.
        subst same
        obtain ⟨old, new, found, there, moved⟩ :=
          unit_shift (fine site List.mem_cons_self)
        rw [units_shifts_of_not_mem _ absent]
        exact ⟨old, new, found, there, moved⟩
      · have later := (List.mem_cons.mp member).resolve_left same
        have fineLater : ∀ other ∈ rest,
            (code.shift base first).fault? base other = none := by
          intro other inside
          rw [fault_shift_of_mem absent inside]
          exact fine other (List.mem_cons_of_mem first inside)
        obtain ⟨old, new, found, there, moved⟩ :=
          inductionHypothesis others fineLater site later
        rw [units_shift_of_ne same] at found
        exact ⟨old, new, found, there, moved⟩

end Assembly

private theorem FunctionCode.moved_shifts {function : FunctionCode}
    {base : Nat} (distinct : function.jumpSites.Nodup)
    (fine : ∀ site ∈ function.jumpSites,
      function.code.fault? base site = none) :
    function.Moved base
      (function.jumpSites.foldl (Assembly.shift base)
        function.code).units where
  length := Assembly.length_shifts _
  sites := Assembly.unit_shifts distinct fine
  others _ absent := Assembly.units_shifts_of_not_mem _ absent

/-! ### Functions one behind another -/

/-- Functions are put one behind another, the first behind a number of bytes:
their units, and their entries. -/
inductive Joined : Nat → List FunctionCode → List (List CodeUnit) →
    List FunctionEntry → Prop where
  | nil {base : Nat} : Joined base [] [] []
  | cons {base : Nat} {function : FunctionCode}
      {functions : List FunctionCode} {units : List CodeUnit}
      {pieces : List (List CodeUnit)} {entries : List FunctionEntry}
      (fine : ∀ site ∈ function.jumpSites,
        function.code.fault? base site = none)
      (moved : function.Moved base units)
      (rest : Joined (base + function.code.byteLength) functions pieces
        entries) :
      Joined base (function :: functions) (units :: pieces)
        (⟨function.name, base⟩ :: entries)

inductive Stuck : Nat → List FunctionCode → AssemblyError → Prop where
  | here {base site : Nat} {function : FunctionCode}
      {functions : List FunctionCode} {before after : List Nat}
      {error : AssemblyError}
      (sites : function.jumpSites = before ++ site :: after)
      (fine : ∀ other ∈ before, function.code.fault? base other = none)
      (faulty : function.code.fault? base site = some error) :
      Stuck base (function :: functions) error
  | later {base : Nat} {function : FunctionCode}
      {functions : List FunctionCode} {error : AssemblyError}
      (fine : ∀ site ∈ function.jumpSites,
        function.code.fault? base site = none)
      (rest : Stuck (base + function.code.byteLength) functions error) :
      Stuck base (function :: functions) error

namespace Artifact

private theorem addFunction_of_fine (artifact : Artifact)
    {function : FunctionCode} (distinct : function.jumpSites.Nodup)
    (fine : ∀ site ∈ function.jumpSites,
      function.code.fault? artifact.code.byteLength site = none) :
    ∃ units, function.Moved artifact.code.byteLength units ∧
      Assembly.sizeOfUnits units = function.code.byteLength ∧
      artifact.addFunction function =
        .ok ⟨⟨artifact.code.units ++ units⟩, artifact.functions ++
          [⟨function.name, artifact.code.byteLength⟩]⟩ := by
  refine ⟨_, FunctionCode.moved_shifts distinct fine,
    Assembly.byteLength_shifts distinct fine, ?_⟩
  have none := List.findSome?_eq_none_iff.mpr fine
  simp only [addFunction, relocate_eq _ distinct, none]
  rfl

private theorem addFunction_of_faulty (artifact : Artifact)
    {function : FunctionCode} {error : AssemblyError}
    (distinct : function.jumpSites.Nodup)
    (found : function.jumpSites.findSome?
      (function.code.fault? artifact.code.byteLength) = some error) :
    artifact.addFunction function = .error error := by
  simp only [addFunction, relocate_eq _ distinct, found]

/-- Adding functions behind a program either joins all of them, or gets stuck
at the first site that cannot be moved. -/
theorem addFunctions_outcome (artifact : Artifact)
    {functions : List FunctionCode}
    (distinct : ∀ function ∈ functions, function.jumpSites.Nodup) :
    (∃ pieces entries,
      Joined artifact.code.byteLength functions pieces entries ∧
      artifact.addFunctions functions =
        .ok ⟨⟨artifact.code.units ++ pieces.flatten⟩,
          artifact.functions ++ entries⟩) ∨
    ∃ error, Stuck artifact.code.byteLength functions error ∧
      artifact.addFunctions functions = .error error := by
  induction functions generalizing artifact with
  | nil =>
      left
      refine ⟨[], [], .nil, ?_⟩
      rw [addFunctions, List.flatten_nil, List.append_nil, List.append_nil]
  | cons function rest inductionHypothesis =>
      have own := distinct function List.mem_cons_self
      have others : ∀ other ∈ rest, other.jumpSites.Nodup :=
        fun other member => distinct other (List.mem_cons_of_mem _ member)
      rw [addFunctions]
      cases found : function.jumpSites.findSome?
          (function.code.fault? artifact.code.byteLength) with
      | some error =>
          obtain ⟨before, site, after, sites, faulty, fine⟩ :=
            List.findSome?_eq_some_iff.mp found
          right
          rw [artifact.addFunction_of_faulty own found]
          exact ⟨error, .here sites fine faulty, rfl⟩
      | none =>
          have fine := List.findSome?_eq_none_iff.mp found
          obtain ⟨units, moved, size, added⟩ :=
            artifact.addFunction_of_fine own fine
          -- The next function starts behind the units that were added.
          have length :
              (⟨artifact.code.units ++ units⟩ : Assembly).byteLength =
                artifact.code.byteLength + function.code.byteLength := by
            unfold Assembly.byteLength at size ⊢
            rw [Assembly.sizeOfUnits_append, size]
          rw [added]
          simp only
          have behind := inductionHypothesis
            ⟨⟨artifact.code.units ++ units⟩, artifact.functions ++
              [⟨function.name, artifact.code.byteLength⟩]⟩ others
          rw [length] at behind
          rcases behind with
            ⟨pieces, entries, joined, done⟩ | ⟨error, stuck, failed⟩
          · left
            refine ⟨units :: pieces, _, .cons fine moved joined, ?_⟩
            rw [done, List.flatten_cons]
            simp only [List.append_assoc, List.cons_append, List.nil_append]
          · right
            exact ⟨error, .later fine stuck, failed⟩

end Artifact

/-! ### Functions by their numbers -/

def sizeOfFunctions (functions : List FunctionCode) : Nat :=
  functions.foldr (fun function size => function.code.byteLength + size) 0

def startOf (functions : List FunctionCode) (number : Nat) : Nat :=
  sizeOfFunctions (functions.take number)

private theorem startOf_zero (functions : List FunctionCode) :
    startOf functions 0 = 0 := rfl

private theorem startOf_succ (function : FunctionCode)
    (functions : List FunctionCode) (number : Nat) :
    startOf (function :: functions) (number + 1) =
      function.code.byteLength + startOf functions number := rfl

def FineBelow (functions : List FunctionCode) (number : Nat) : Prop :=
  ∀ earlier < number, ∀ function : FunctionCode,
    functions[earlier]? = some function → ∀ site ∈ function.jumpSites,
      function.code.fault? (startOf functions earlier) site = none

def FirstFault (functions : List FunctionCode) (error : AssemblyError) :
    Prop :=
  ∃ (number : Nat) (function : FunctionCode) (before : List Nat)
      (site : Nat) (after : List Nat),
    functions[number]? = some function ∧
      function.jumpSites = before ++ site :: after ∧
      function.code.fault? (startOf functions number) site = some error ∧
      (∀ other ∈ before,
        function.code.fault? (startOf functions number) other = none) ∧
      FineBelow functions number

/-- A program is made of the units of its functions in order, with every jump
site moved by the number of bytes in front of its function, and lists where
the functions start. -/
structure Artifact.Joins (artifact : Artifact)
    (functions : List FunctionCode) : Prop where
  code : ∃ pieces : List (List CodeUnit),
    artifact.code.units = pieces.flatten ∧
      pieces.length = functions.length ∧
      ∀ (number : Nat) (function : FunctionCode) (piece : List CodeUnit),
        functions[number]? = some function →
          pieces[number]? = some piece →
            function.Moved (startOf functions number) piece
  entries : artifact.functions = functions.mapIdx fun number function =>
    ⟨function.name, startOf functions number⟩

section

variable {base : Nat} {functions : List FunctionCode}
  {pieces : List (List CodeUnit)} {entries : List FunctionEntry}

private theorem Joined.length_eq
    (joined : Joined base functions pieces entries) :
    pieces.length = functions.length := by
  induction joined with
  | nil =>
      rfl
  | cons fine moved rest inductionHypothesis =>
      rw [List.length_cons, List.length_cons, inductionHypothesis]

private theorem Joined.fine_and_moved
    (joined : Joined base functions pieces entries) :
    ∀ (number : Nat) (function : FunctionCode),
      functions[number]? = some function →
        (∀ site ∈ function.jumpSites, function.code.fault?
          (base + startOf functions number) site = none) ∧
        ∀ piece, pieces[number]? = some piece →
          function.Moved (base + startOf functions number) piece := by
  induction joined with
  | nil =>
      intro number function found
      cases found
  | @cons base first rest units pieces entries fine moved joined
      inductionHypothesis =>
      intro number function found
      cases number with
      | zero =>
          cases found
          rw [startOf_zero, Nat.add_zero]
          refine ⟨fine, ?_⟩
          intro piece same
          cases same
          exact moved
      | succ number =>
          rw [startOf_succ, ← Nat.add_assoc]
          exact inductionHypothesis number function found

private theorem Joined.entries_eq
    (joined : Joined base functions pieces entries) :
    entries = functions.mapIdx fun number function =>
      ⟨function.name, base + startOf functions number⟩ := by
  induction joined with
  | nil =>
      rfl
  | @cons base first rest units pieces entries fine moved joined
      inductionHypothesis =>
      rw [List.mapIdx_cons, startOf_zero, Nat.add_zero, inductionHypothesis]
      simp only [startOf_succ, Nat.add_assoc]

private theorem Stuck.exists_first {error : AssemblyError}
    (stuck : Stuck base functions error) :
    ∃ (number : Nat) (function : FunctionCode) (before : List Nat)
        (site : Nat) (after : List Nat),
      functions[number]? = some function ∧
        function.jumpSites = before ++ site :: after ∧
        function.code.fault? (base + startOf functions number) site =
          some error ∧
        (∀ other ∈ before, function.code.fault?
          (base + startOf functions number) other = none) ∧
        ∀ earlier < number, ∀ function : FunctionCode,
          functions[earlier]? = some function →
            ∀ site ∈ function.jumpSites, function.code.fault?
              (base + startOf functions earlier) site = none := by
  induction stuck with
  | @here base site function functions before after error sites fine
      faulty =>
      refine ⟨0, function, before, site, after, rfl, sites, ?_, ?_, ?_⟩
      · rw [startOf_zero, Nat.add_zero]
        exact faulty
      · rw [startOf_zero, Nat.add_zero]
        exact fine
      · intro earlier below
        omega
  | @later base first rest error fine stuck inductionHypothesis =>
      obtain ⟨number, function, before, site, after, found, sites, faulty,
        fineBefore, fineBelow⟩ := inductionHypothesis
      refine ⟨number + 1, function, before, site, after, found, sites, ?_,
        ?_, ?_⟩
      · rw [startOf_succ, ← Nat.add_assoc]
        exact faulty
      · rw [startOf_succ, ← Nat.add_assoc]
        exact fineBefore
      · intro earlier below other foundToo
        cases earlier with
        | zero =>
            cases foundToo
            rw [startOf_zero, Nat.add_zero]
            exact fine
        | succ earlier =>
            rw [startOf_succ, ← Nat.add_assoc]
            exact fineBelow earlier (by omega) other foundToo

private theorem FirstFault.not_fine {error : AssemblyError}
    (first : FirstFault functions error) :
    ¬ FineBelow functions functions.length := by
  obtain ⟨number, function, before, site, after, found, sites, faulty, _⟩ :=
    first
  intro fine
  have inside : number < functions.length :=
    (List.getElem?_eq_some_iff.mp found).1
  have member : site ∈ function.jumpSites := by
    rw [sites]
    simp
  rw [fine number inside function found site member] at faulty
  cases faulty

theorem fineBelow_length_iff (functions : List FunctionCode) :
    FineBelow functions functions.length ↔
      ∀ (number : Nat) (function : FunctionCode),
        functions[number]? = some function →
          ∀ site ∈ function.jumpSites, ∃ unit,
            function.code.units[site]? = some unit ∧
              unit.bytes.length = 4 ∧
              startOf functions number + numberOf unit.bytes <
                0x100000000 := by
  simp only [FineBelow, Assembly.fault_eq_none]
  constructor
  · intro fine number function found
    exact fine number (List.getElem?_eq_some_iff.mp found).1 function found
  · intro fine number _ function found
    exact fine number function found

end

namespace Artifact

/-- Linking joins the functions, or fails for the first jump site that cannot
be moved. -/
theorem link_outcome {functions : List FunctionCode}
    (distinct : ∀ function ∈ functions, function.jumpSites.Nodup) :
    (∃ artifact, link functions = .ok artifact ∧
      artifact.Joins functions ∧ FineBelow functions functions.length) ∨
    ∃ error, link functions = .error error ∧
      FirstFault functions error := by
  rcases empty.addFunctions_outcome distinct with
    ⟨pieces, entries, joined, added⟩ | ⟨error, stuck, failed⟩
  · left
    have start : empty.code.byteLength = 0 := rfl
    rw [start] at joined
    have parts := joined.fine_and_moved
    have listed := joined.entries_eq
    simp only [Nat.zero_add] at parts listed
    refine ⟨_, added, ⟨⟨pieces, rfl, joined.length_eq, ?_⟩, listed⟩, ?_⟩
    · intro number function piece found
      exact (parts number function found).2 piece
    · intro number _ function found
      exact (parts number function found).1
  · right
    have first := stuck.exists_first
    have start : empty.code.byteLength = 0 := rfl
    simp only [start, Nat.zero_add] at first
    exact ⟨error, failed, first⟩

/-- Linking succeeds exactly when every jump site is a unit of four bytes whose
number, moved by the bytes in front of its function, still fits in four bytes.
Then each of them is moved once, everything else is kept, and the functions
are entered where they start.  Otherwise the first site in order that cannot
be moved is reported. -/
theorem link_moves_sites (functions : List FunctionCode)
    (distinct : ∀ function ∈ functions, function.jumpSites.Nodup) :
    ((∃ artifact, link functions = .ok artifact) ↔
      ∀ (number : Nat) (function : FunctionCode),
        functions[number]? = some function →
          ∀ site ∈ function.jumpSites, ∃ unit,
            function.code.units[site]? = some unit ∧
              unit.bytes.length = 4 ∧
              startOf functions number + numberOf unit.bytes <
                0x100000000) ∧
      (∀ artifact, link functions = .ok artifact →
        artifact.Joins functions) ∧
      ∀ error, link functions = .error error →
        FirstFault functions error := by
  rw [← fineBelow_length_iff]
  rcases link_outcome distinct with
    ⟨artifact, linked, joins, fine⟩ | ⟨error, failed, first⟩
  · refine ⟨⟨fun _ => fine, fun _ => ⟨artifact, linked⟩⟩, ?_, ?_⟩
    · intro other same
      rw [linked] at same
      cases same
      exact joins
    · intro error failed
      rw [linked] at failed
      cases failed
  · refine ⟨⟨?_, fun fine => absurd fine first.not_fine⟩, ?_, ?_⟩
    · intro linked
      obtain ⟨artifact, linked⟩ := linked
      rw [failed] at linked
      cases linked
    · intro artifact linked
      rw [failed] at linked
      cases linked
    · intro other same
      rw [failed] at same
      cases same
      exact first

/-- A function without code stands between two others.  The third one has an
operand that looks like an address but is no jump site. -/
def relayFunctions : List FunctionCode :=
  [⟨"first", .ofInstructions [.push 6, .plain .jump, .plain .jumpTarget],
      [1]⟩,
    ⟨"second", .empty, []⟩,
    ⟨"third", .ofInstructions
        [.push 11, .push 11, .plain .jumpIf, .plain .jumpTarget], [3]⟩]

def farFunction : FunctionCode :=
  ⟨"far", .ofInstructions [.push 0xffffffff, .plain .jump], [1]⟩

theorem link_moves_sites_relayed :
    (∃ artifact, link relayFunctions = .ok artifact ∧
      artifact.Joins relayFunctions ∧
      artifact.functions = [⟨"first", 0⟩, ⟨"second", 7⟩, ⟨"third", 7⟩] ∧
      artifact.code = .ofInstructions
        [.push 6, .plain .jump, .plain .jumpTarget, .push 11, .push 18,
          .plain .jumpIf, .plain .jumpTarget]) ∧
    link (relayFunctions ++ [farFunction]) =
        .error (.addressOverflow 0x100000012) ∧
      FirstFault (relayFunctions ++ [farFunction])
        (.addressOverflow 0x100000012) := by
  have distinct : ∀ function ∈ relayFunctions ++ [farFunction],
      function.jumpSites.Nodup := by
    decide
  have linked := link_moves_sites relayFunctions fun function member =>
    distinct function (List.mem_append_left _ member)
  have failed : link (relayFunctions ++ [farFunction]) =
      .error (.addressOverflow 0x100000012) := by
    rfl
  exact ⟨⟨_, rfl, linked.2.1 _ rfl, rfl, rfl⟩, failed,
    (link_moves_sites _ distinct).2.2 _ failed⟩

end Artifact

end ContractCompiler
