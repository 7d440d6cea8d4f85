/-
The memory layout of a function's locals.

Memory is handed out from the bottom up and never given back.  A name that
is defined again moves to its new place; the old one stays taken.

The bytes taken are counted in 64 bits.  Behind the last number that fits, the
counter starts again from zero.
-/

namespace ContractCompiler

structure MemoryEntry where
  offset : Nat
  size : Nat
  deriving DecidableEq, Repr

/-- The ranges handed out, the latest first, and the counter of the bytes
taken. -/
structure MemoryTable where
  entries : List (String × MemoryEntry) := []
  used : Nat := 0

structure MissingEntry where
  id : String
  deriving DecidableEq, Repr

def MissingEntry.message (missing : MissingEntry) : String :=
  "[" ++ missing.id ++ "] definition doesn't exist"

namespace MemoryTable

def empty : MemoryTable := {}

def counterRange : Nat := 0x10000000000000000

def define (table : MemoryTable) (id : String) (size : Nat) :
    MemoryEntry × MemoryTable :=
  let entry : MemoryEntry := ⟨table.used, size⟩
  (entry, ⟨(id, entry) :: table.entries,
    (table.used + size) % counterRange⟩)

/-- The range that was last handed out under a name. -/
def entry? (table : MemoryTable) (id : String) : Option MemoryEntry :=
  table.entries.lookup id

def entry (table : MemoryTable) (id : String) :
    Except MissingEntry MemoryEntry :=
  match table.entry? id with
  | some entry => .ok entry
  | none => .error ⟨id⟩

def entryOffset (table : MemoryTable) (id : String) :
    Except MissingEntry Nat :=
  (table.entry id).map MemoryEntry.offset

def entrySize (table : MemoryTable) (id : String) :
    Except MissingEntry Nat :=
  (table.entry id).map MemoryEntry.size

end MemoryTable

end ContractCompiler
