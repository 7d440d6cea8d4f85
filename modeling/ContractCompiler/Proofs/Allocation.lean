/-
Memory is handed out from the bottom up.

However often names are defined, and whether they are new or not, each range
starts where the one before it ends, as far as the counter goes.  So the ranges
handed out fill the memory that is taken, and no two of them share a byte, for
as long as there are less than two to the power of 64 bytes in all.  Behind
that the counter starts from zero again and ranges are handed out twice.  The
table remembers the last range of a name; the bytes of its earlier ranges stay
taken.
-/

import ContractCompiler.MemoryTable
import ContractCompiler.Proofs.Outline

namespace ContractCompiler

/-! ### Any number of definitions -/

def MemoryEntry.Holds (entry : MemoryEntry) (address : Nat) : Prop :=
  entry.offset ≤ address ∧ address < entry.offset + entry.size

def LastAt (names : List String) (id : String) (position : Nat) : Prop :=
  names[position]? = some id ∧
    ∀ later, position < later → names[later]? ≠ some id

section Names

variable {names : List String} {name id : String} {position : Nat}

private theorem lastAt_append_self :
    LastAt (names ++ [name]) name names.length := by
  refine ⟨List.getElem?_concat_length, ?_⟩
  intro later behind
  have beyond : (names ++ [name]).length ≤ later := by
    rw [List.length_append, List.length_singleton]
    exact behind
  rw [List.getElem?_eq_none beyond]
  exact Option.some_ne_none name |>.symm

private theorem LastAt.append_other (last : LastAt names id position)
    (other : name ≠ id) : LastAt (names ++ [name]) id position := by
  obtain ⟨found, latest⟩ := last
  have inside : position < names.length :=
    (List.getElem?_eq_some_iff.mp found).1
  refine ⟨(List.getElem?_append_left inside).trans found, ?_⟩
  intro later behind
  by_cases before : later < names.length
  · rw [List.getElem?_append_left before]
    exact latest later behind
  · intro again
    rw [List.getElem?_append_right (Nat.le_of_not_lt before)] at again
    exact other (List.mem_singleton.mp (List.mem_of_getElem? again)).symm

end Names

namespace MemoryTable

structure Request where
  id : String
  size : Nat

def defineAll (table : MemoryTable) :
    List Request → List MemoryEntry × MemoryTable
  | [] => ([], table)
  | request :: rest =>
      let made := table.define request.id request.size
      let others := made.2.defineAll rest
      (made.1 :: others.1, others.2)

theorem defineAll_append (table : MemoryTable) (requests : List Request)
    (request : Request) :
    table.defineAll (requests ++ [request]) =
      let earlier := table.defineAll requests
      let made := earlier.2.define request.id request.size
      (earlier.1 ++ [made.1], made.2) := by
  induction requests generalizing table with
  | nil =>
      rfl
  | cons first rest inductionHypothesis =>
      rw [List.cons_append, defineAll, inductionHypothesis]
      rfl

/-- One more definition takes the next bytes under its name. -/
theorem entry_define (table : MemoryTable) (request : Request) (id : String) :
    entry? (table.define request.id request.size).2 id =
      if request.id = id then some ⟨table.used, request.size⟩
      else table.entry? id := by
  rw [define, entry?, List.lookup_cons]
  by_cases same : request.id = id
  · rw [if_pos same, same, beq_self_eq_true]
  · rw [if_neg same, beq_false_of_ne (Ne.symm same)]
    rfl

/-! ### Ranges -/

/-- The range that is handed out in place of one that may start behind all
numbers of the counter. -/
def wrapped (entry : MemoryEntry) : MemoryEntry :=
  ⟨entry.offset % counterRange, entry.size⟩

def bytesAsked (requests : List Request) : Nat :=
  totalSize (requests.map Request.size)

private theorem defineAll_ranges (requests : List Request) :
    (empty.defineAll requests).1 =
        (rangesOf (requests.map Request.size)).map wrapped ∧
      (empty.defineAll requests).2.used =
        bytesAsked requests % counterRange := by
  induction requests using List.reverseRecOn with
  | nil =>
      exact ⟨rfl, rfl⟩
  | append_singleton requests request inductionHypothesis =>
      obtain ⟨ranges, used⟩ := inductionHypothesis
      rw [defineAll_append, bytesAsked, List.map_append, List.map_singleton,
        rangesOf_append, totalSize_append, List.map_append, ← ranges]
      simp only [define, used]
      exact ⟨rfl, Nat.mod_add_mod _ _ _⟩

private theorem length_defineAll (requests : List Request) :
    (empty.defineAll requests).1.length = requests.length := by
  rw [(defineAll_ranges requests).1, List.length_map, length_rangesOf,
    List.length_map]

private theorem map_wrapped_rangesOf {sizes : List Nat}
    (small : totalSize sizes < counterRange) :
    (rangesOf sizes).map wrapped = rangesOf sizes := by
  refine (List.map_congr_left ?_).trans (List.map_id _)
  intro entry member
  have inside := rangesOf_le_total member
  have offset : entry.offset % counterRange = entry.offset :=
    Nat.mod_eq_of_lt (by omega)
  rw [wrapped, offset]
  rfl

/-- The counter is the sum of all sizes for as long as it holds that sum. -/
theorem used_eq_bytesAsked_iff (requests : List Request) :
    (empty.defineAll requests).2.used = bytesAsked requests ↔
      bytesAsked requests < counterRange := by
  rw [(defineAll_ranges requests).2]
  constructor
  · intro same
    rw [← same]
    exact Nat.mod_lt _ (by decide)
  · exact Nat.mod_eq_of_lt

end MemoryTable

/-- The bytes below the total are those of the ranges. -/
theorem rangesOf_covers (sizes : List Nat) (address : Nat) :
    address < totalSize sizes ↔
      ∃ entry ∈ rangesOf sizes, entry.Holds address := by
  constructor
  · intro below
    induction sizes using List.reverseRecOn with
    | nil =>
        cases below
    | append_singleton sizes size inductionHypothesis =>
        rw [rangesOf_append]
        rw [totalSize_append] at below
        by_cases earlier : address < totalSize sizes
        · obtain ⟨entry, member, holds⟩ := inductionHypothesis earlier
          exact ⟨entry, List.mem_append_left _ member, holds⟩
        · exact ⟨⟨totalSize sizes, size⟩,
            List.mem_append_right _ List.mem_cons_self,
            Nat.le_of_not_lt earlier, below⟩
  · intro covered
    obtain ⟨entry, member, _, inside⟩ := covered
    exact Nat.lt_of_lt_of_le inside (rangesOf_le_total member)

private theorem rangesOf_disjoint (sizes : List Nat) :
    (rangesOf sizes).Pairwise fun first second =>
      ∀ address, ¬ (first.Holds address ∧ second.Holds address) := by
  apply (rangesOf_pairwise sizes).imp
  intro first second before address shared
  obtain ⟨⟨_, inFirst⟩, inSecond, _⟩ := shared
  omega

/-! ### Names -/

namespace MemoryTable

/-- A name has the range of its last definition, or none when it was never
defined. -/
theorem entry_defineAll (requests : List Request) (id : String) :
    (id ∉ requests.map Request.id ∧
        entry? (empty.defineAll requests).2 id = none) ∨
      ∃ position entry, LastAt (requests.map Request.id) id position ∧
        (empty.defineAll requests).1[position]? = some entry ∧
        entry? (empty.defineAll requests).2 id = some entry := by
  induction requests using List.reverseRecOn with
  | nil =>
      exact Or.inl ⟨List.not_mem_nil, rfl⟩
  | append_singleton requests request inductionHypothesis =>
      have length : (empty.defineAll requests).1.length =
          (requests.map Request.id).length := by
        rw [length_defineAll, List.length_map]
      rw [defineAll_append, List.map_append, List.map_singleton]
      simp only [entry_define]
      by_cases same : request.id = id
      · subst same
        refine Or.inr ⟨_, _, lastAt_append_self, ?_, if_pos rfl⟩
        rw [← length]
        exact List.getElem?_concat_length
      · rw [if_neg same]
        rcases inductionHypothesis with ⟨absent, none⟩ |
          ⟨position, entry, last, found, known⟩
        · left
          rw [List.mem_append, List.mem_singleton]
          exact ⟨fun member => member.elim absent (Ne.symm same), none⟩
        · right
          have inside := (List.getElem?_eq_some_iff.mp found).1
          exact ⟨position, entry, last.append_other same,
            (List.getElem?_append_left inside).trans found, known⟩

theorem entry_eq_none_iff (requests : List Request) (id : String) :
    entry? (empty.defineAll requests).2 id = none ↔
      id ∉ requests.map Request.id := by
  rcases entry_defineAll requests id with ⟨absent, unknown⟩ |
    ⟨position, entry, last, _, known⟩
  · exact iff_of_true unknown absent
  · have defined : id ∈ requests.map Request.id :=
      List.mem_of_getElem? last.1
    rw [known]
    exact iff_of_false (Option.some_ne_none entry) (not_not_intro defined)

section Getters

variable {table : MemoryTable} {id : String} {view : MemoryEntry → Nat}

private theorem map_entry_of_some {entry : MemoryEntry}
    (known : table.entry? id = some entry) :
    (table.entry id).map view = .ok (view entry) := by
  rw [MemoryTable.entry, known]
  rfl

private theorem map_entry_eq_error {error : MissingEntry} :
    (table.entry id).map view = .error error ↔
      error = ⟨id⟩ ∧ table.entry? id = none := by
  rw [MemoryTable.entry]
  cases table.entry? id with
  | none => simp [Except.map, eq_comm]
  | some entry => simp [Except.map]

end Getters

/-! ### Definitions with a checked counter -/

def define? (table : MemoryTable) (id : String) (size : Nat) :
    Option (MemoryEntry × MemoryTable) :=
  if table.used + size < counterRange then some (table.define id size)
  else none

def defineAll? (table : MemoryTable) :
    List Request → Option (List MemoryEntry × MemoryTable)
  | [] => some ([], table)
  | request :: rest => do
      let made ← table.define? request.id request.size
      let others ← made.2.defineAll? rest
      return (made.1 :: others.1, others.2)

private theorem defineAll?_eq {table : MemoryTable}
    (small : table.used < counterRange) (requests : List Request) :
    table.defineAll? requests =
      if table.used + bytesAsked requests < counterRange then
        some (table.defineAll requests)
      else none := by
  induction requests generalizing table with
  | nil =>
      exact (if_pos small).symm
  | cons request rest inductionHypothesis =>
      have asked : bytesAsked (request :: rest) =
          request.size + bytesAsked rest := rfl
      rw [defineAll?, define?]
      by_cases room : table.used + request.size < counterRange
      · have counted : (table.define request.id request.size).2.used =
            table.used + request.size := Nat.mod_eq_of_lt room
        rw [if_pos room, Option.bind_eq_bind, Option.bind_some,
          inductionHypothesis (by rw [counted]; exact room), counted, asked,
          ← Nat.add_assoc]
        split <;> rfl
      · rw [if_neg room, if_neg (by omega)]
        rfl

/-! ### Any definitions -/

structure Allocated (requests : List Request) (entries : List MemoryEntry)
    (table : MemoryTable) : Prop where
  /-- Offsets and the counter are sums of sizes, up to the counter's range. -/
  used : table.used = bytesAsked requests % counterRange
  ranges : entries = (rangesOf (requests.map Request.size)).map wrapped
  counted : table.used = bytesAsked requests ↔
    bytesAsked requests < counterRange
  /-- Each range starts behind all earlier ones. -/
  consecutive : bytesAsked requests < counterRange →
    entries = rangesOf (requests.map Request.size)
  covered : bytesAsked requests < counterRange →
    ∀ address, address < table.used ↔
      ∃ entry ∈ entries, entry.Holds address
  disjoint : bytesAsked requests < counterRange →
    entries.Pairwise fun first second =>
      ∀ address, ¬ (first.Holds address ∧ second.Holds address)
  /-- A checked counter stops the run exactly where the sum does not fit. -/
  checked : empty.defineAll? requests =
    if bytesAsked requests < counterRange then some (entries, table)
    else none
  found : ∀ id ∈ requests.map Request.id, ∃ position entry,
    LastAt (requests.map Request.id) id position ∧
      entries[position]? = some entry ∧
      table.entry? id = some entry ∧
      table.entryOffset id = .ok entry.offset ∧
      table.entrySize id = .ok entry.size
  unknown : ∀ id, table.entry? id = none ↔ id ∉ requests.map Request.id
  missing : ∀ id error,
    (table.entryOffset id = .error error ↔
        error = ⟨id⟩ ∧ id ∉ requests.map Request.id) ∧
      (table.entrySize id = .error error ↔
        error = ⟨id⟩ ∧ id ∉ requests.map Request.id)

/-- Any definitions, of new names or known ones, hand out consecutive ranges
that fill the memory taken, as long as the counter holds the number of all
their bytes.  Every name has its last range. -/
theorem defineAll_allocates (requests : List Request) :
    Allocated requests (empty.defineAll requests).1
      (empty.defineAll requests).2 := by
  obtain ⟨ranges, used⟩ := defineAll_ranges requests
  have consecutive : bytesAsked requests < counterRange →
      (empty.defineAll requests).1 =
        rangesOf (requests.map Request.size) :=
    fun small => ranges.trans (map_wrapped_rangesOf small)
  refine ⟨used, ranges, used_eq_bytesAsked_iff requests, consecutive, ?_, ?_,
    ?_, ?_, entry_eq_none_iff requests, ?_⟩
  · intro small address
    rw [(used_eq_bytesAsked_iff requests).mpr small, consecutive small]
    exact rangesOf_covers _ address
  · intro small
    rw [consecutive small]
    exact rangesOf_disjoint _
  · have checked := @defineAll?_eq empty (by decide) requests
    rw [show empty.used = 0 from rfl, Nat.zero_add] at checked
    exact checked
  · intro id defined
    rcases entry_defineAll requests id with ⟨absent, _⟩ |
      ⟨position, entry, last, found, known⟩
    · exact absurd defined absent
    · exact ⟨position, entry, last, found, known, map_entry_of_some known,
        map_entry_of_some known⟩
  · intro id error
    rw [← entry_eq_none_iff]
    exact ⟨map_entry_eq_error, map_entry_eq_error⟩

/-- A range without bytes starts where the next one does. -/
example : (empty.defineAll [⟨"x", 4⟩, ⟨"y", 0⟩, ⟨"x", 2⟩]).1 =
    [⟨0, 4⟩, ⟨4, 0⟩, ⟨4, 2⟩] := by
  decide

/-! ### A counter that starts again -/

private theorem bytesAsked_replicate (count : Nat) (request : Request) :
    bytesAsked (List.replicate count request) = count * request.size := by
  induction count with
  | zero =>
      rw [Nat.zero_mul]
      rfl
  | succ count inductionHypothesis =>
      rw [List.replicate_succ, Nat.succ_mul, ← inductionHypothesis,
        Nat.add_comm]
      rfl

theorem bytesAsked_append (first second : List Request) :
    bytesAsked (first ++ second) = bytesAsked first + bytesAsked second := by
  rw [bytesAsked, List.map_append, totalSize_append]
  rfl

/-- Requests that take all numbers of the counter leave none for the next one,
which is given the first bytes once more. -/
theorem reused_of_full {requests : List Request}
    (full : bytesAsked requests = counterRange) (request : Request) :
    (empty.defineAll (requests ++ [request])).2.used =
        request.size % counterRange ∧
      (empty.defineAll (requests ++ [request])).1[requests.length]? =
        some ⟨0, request.size⟩ := by
  constructor
  · rw [(defineAll_ranges _).2, bytesAsked_append, full, Nat.add_mod_left]
    rfl
  · have counter : (empty.defineAll requests).2.used = 0 := by
      rw [(defineAll_ranges requests).2, full, Nat.mod_self]
    rw [defineAll_append, ← length_defineAll requests]
    simp only [List.getElem?_concat_length, define, counter]

/-- A name is defined again and again with 32 GiB, and then another one with
four bytes. -/
def wrapping : List Request :=
  List.replicate 0x20000000 ⟨"a", 0x800000000⟩ ++ [⟨"b", 4⟩]

/-- The counter is behind the sum, and the last range lies in the first one. -/
theorem defineAll_wraps :
    bytesAsked wrapping = 0x10000000000000004 ∧
      (empty.defineAll wrapping).2.used = 4 ∧
      (empty.defineAll wrapping).1[0]? = some ⟨0, 0x800000000⟩ ∧
      (empty.defineAll wrapping).1[0x20000000]? = some ⟨0, 4⟩ := by
  have full : bytesAsked
      (List.replicate 0x20000000 ⟨"a", 0x800000000⟩) = counterRange :=
    bytesAsked_replicate _ _
  obtain ⟨used, last⟩ := reused_of_full full ⟨"b", 4⟩
  rw [List.length_replicate] at last
  refine ⟨?_, used, rfl, last⟩
  rw [wrapping, bytesAsked_append, full]
  rfl

end MemoryTable

end ContractCompiler
