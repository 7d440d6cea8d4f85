/-
When a piece of a body has code, and which.

Every function that generates code gives up at the first error.  Each of them
is described here by what has to succeed and by what then comes out.
-/

import ContractCompiler.Proofs.Generation

namespace ContractCompiler

theorem bind_eq_ok {ε α β : Type} {outcome : Except ε α}
    {next : α → Except ε β} {result : β} :
    (outcome >>= next) = .ok result ↔
      ∃ value, outcome = .ok value ∧ next value = .ok result := by
  cases outcome with
  | error error => exact ⟨nofun, nofun⟩
  | ok value =>
      refine ⟨fun given => ⟨value, rfl, given⟩, ?_⟩
      rintro ⟨_, same, given⟩
      cases same
      exact given

theorem exists_of_map_eq_ok {ε α β : Type} {outcome : Except ε α}
    {view : α → β} {result : β} (known : outcome.map view = .ok result) :
    ∃ value, outcome = .ok value ∧ view value = result := by
  cases outcome with
  | error error => cases known
  | ok value => exact ⟨value, rfl, Except.ok.inj known⟩

theorem pure_eq_ok {ε α : Type} {value result : α} :
    (pure value : Except ε α) = .ok result ↔ result = value := by
  constructor
  · rintro ⟨⟩
    rfl
  · rintro rfl
    rfl

theorem requireType_eq_ok {expected found : ValueType} {done : Unit} :
    requireType expected found = .ok done ↔ expected = found := by
  unfold requireType
  split
  · next same => exact ⟨fun _ => same, fun _ => rfl⟩
  · next different => exact ⟨nofun, fun same => absurd same different⟩

theorem requireType_bind_eq_ok {α : Type} {expected found : ValueType}
    {next : Unit → Except CodeError α} {result : α} :
    (requireType expected found >>= next) = .ok result ↔
      found = expected ∧ next ⟨⟩ = .ok result := by
  rw [bind_eq_ok]
  simp only [requireType_eq_ok]
  constructor
  · rintro ⟨_, rfl, given⟩
    exact ⟨rfl, given⟩
  · rintro ⟨rfl, given⟩
    exact ⟨⟨⟩, rfl, given⟩

/-! ### Variables -/

private theorem pushAddress_eq_ok {value : Nat} {instruction : Instruction} :
    pushAddress value = .ok instruction ↔
      ∃ word, Word.address value = .ok word ∧ instruction = .push word := by
  unfold pushAddress
  cases Word.address value with
  | error error => exact ⟨nofun, nofun⟩
  | ok word =>
      simp only [Except.ok.injEq, exists_eq_left']
      exact eq_comm

theorem Environment.entry_eq_ok {environment : Environment} {id : String}
    {entry : MemoryEntry} :
    environment.entry id = .ok entry ↔
      environment.memory.entry? id = some entry := by
  unfold Environment.entry MemoryTable.entry
  cases environment.memory.entry? id with
  | none => exact ⟨nofun, nofun⟩
  | some found => simp only [Except.ok.injEq, Option.some.injEq]

theorem Location.code_parameter {environment : Environment} {index : Nat}
    {code : List Instruction} :
    (Location.parameter index).code environment = .ok code ↔
      ∃ word, Word.address index = .ok word ∧
        code = [.push word, .plain .loadArgument] := by
  simp only [Location.code, bind_eq_ok, pure_eq_ok, pushAddress_eq_ok]
  constructor
  · rintro ⟨_, ⟨word, fits, rfl⟩, rfl⟩
    exact ⟨word, fits, rfl⟩
  · rintro ⟨word, fits, rfl⟩
    exact ⟨_, ⟨word, fits, rfl⟩, rfl⟩

theorem Location.code_memory {environment : Environment} {id : String}
    {code : List Instruction} :
    (Location.memory id).code environment = .ok code ↔
      ∃ entry offset size, environment.memory.entry? id = some entry ∧
        Word.address entry.offset = .ok offset ∧
        Word.address entry.size = .ok size ∧
        code = [.push offset, .push size, .plain .memoryLoad] := by
  simp only [Location.code, bind_eq_ok, pure_eq_ok, pushAddress_eq_ok,
    Environment.entry_eq_ok]
  constructor
  · rintro ⟨entry, found, _, ⟨offset, placed, rfl⟩, _, ⟨size, sized, rfl⟩,
      rfl⟩
    exact ⟨entry, offset, size, found, placed, sized, rfl⟩
  · rintro ⟨entry, offset, size, found, placed, sized, rfl⟩
    exact ⟨entry, found, _, ⟨offset, placed, rfl⟩, _, ⟨size, sized, rfl⟩,
      rfl⟩

/-! ### Expressions -/

namespace Expression

variable {environment : Environment} {code : List Instruction}

theorem code_integer {value : Int} :
    (integer value).code environment = .ok code ↔
      ∃ word, Word.ofInteger? value = some word ∧ code = [.push word] := by
  rw [Expression.code]
  cases Word.ofInteger? value with
  | none => exact ⟨nofun, nofun⟩
  | some word =>
      simp only [Except.ok.injEq, Option.some.injEq, exists_eq_left']
      exact eq_comm

theorem code_identifier {name : String} :
    (identifier name).code environment = .ok code ↔
      ∃ type location, environment.binding name = .ok (type, location) ∧
        location.code environment = .ok code := by
  simp only [Expression.code, bind_eq_ok, Prod.exists]

theorem code_binary {operator : Operator} {left right : Expression} :
    (binary operator left right).code environment = .ok code ↔
      ∃ leftCode rightCode, left.code environment = .ok leftCode ∧
        right.code environment = .ok rightCode ∧
        code = leftCode ++ rightCode ++ operator.code := by
  simp only [Expression.code, bind_eq_ok, pure_eq_ok]
  constructor
  · rintro ⟨leftCode, onLeft, rightCode, onRight, rfl⟩
    exact ⟨leftCode, rightCode, onLeft, onRight, rfl⟩
  · rintro ⟨leftCode, rightCode, onLeft, onRight, rfl⟩
    exact ⟨leftCode, onLeft, rightCode, onRight, rfl⟩

theorem code_minus {operand : Expression} :
    (unary .minus operand).code environment = .ok code ↔
      ∃ operandCode, operand.code environment = .ok operandCode ∧
        code = .push 0 :: operandCode ++ [Instruction.plain .sub] := by
  simp only [Expression.code, bind_eq_ok, pure_eq_ok]

theorem code_unary {operator : Operator} {operand : Expression}
    (other : operator ≠ .minus) :
    (unary operator operand).code environment = .ok code ↔
      ∃ operandCode, operand.code environment = .ok operandCode ∧
        code = operandCode ++ [Instruction.plain .not] := by
  rw [Expression.code]
  · simp only [bind_eq_ok, pure_eq_ok]
  · exact other

theorem evaluationCode_eq_ok {value : Expression} :
    value.evaluationCode environment = .ok code ↔
      ∃ type size valueCode, value.typeIn environment = .ok type ∧
        value.sizeIn environment = .ok size ∧
        value.code environment = .ok valueCode ∧
        code = valueCode ++
          List.replicate (stackWords size) (Instruction.plain .pop) := by
  simp only [evaluationCode, bind_eq_ok, pure_eq_ok]
  constructor
  · rintro ⟨type, typed, size, sized, valueCode, coded, rfl⟩
    exact ⟨type, size, valueCode, typed, sized, coded, rfl⟩
  · rintro ⟨type, size, valueCode, typed, sized, coded, rfl⟩
    exact ⟨type, typed, size, sized, valueCode, coded, rfl⟩

end Expression

/-! ### Statements -/

variable {environment : Environment} {code : List Instruction}

theorem returnCode_none :
    returnCode environment none = .ok code ↔
      environment.returnType = .void ∧ code = [.plain .returning] := by
  simp only [returnCode, bind_eq_ok, pure_eq_ok, requireType_eq_ok,
    exists_const]

theorem returnCode_some {value : Expression} :
    returnCode environment (some value) = .ok code ↔
      ∃ valueCode,
        value.typeIn environment = .ok environment.returnType ∧
        value.code environment = .ok valueCode ∧
        code = valueCode ++ [Instruction.plain .returning] := by
  simp only [returnCode, bind_eq_ok, pure_eq_ok, requireType_eq_ok]
  constructor
  · rintro ⟨_, typed, _, rfl, valueCode, coded, rfl⟩
    exact ⟨valueCode, typed, coded, rfl⟩
  · rintro ⟨valueCode, typed, coded, rfl⟩
    exact ⟨_, typed, ⟨⟩, rfl, valueCode, coded, rfl⟩

theorem conditionCode_eq_ok {condition : Expression} :
    conditionCode environment condition = .ok code ↔
      ∃ test, condition.typeIn environment = .ok .bool ∧
        condition.code environment = .ok test ∧
        code = test ++ [Instruction.plain .not] := by
  simp only [conditionCode, bind_eq_ok, pure_eq_ok, requireType_eq_ok]
  constructor
  · rintro ⟨_, typed, _, rfl, test, coded, rfl⟩
    exact ⟨test, typed, coded, rfl⟩
  · rintro ⟨test, typed, coded, rfl⟩
    exact ⟨_, typed, ⟨⟩, rfl, test, coded, rfl⟩

private theorem initialCode_eq_ok {type : ValueType} {value : Expression}
    {size : Nat} :
    initialCode environment type value = .ok (code, size) ↔
      value.typeIn environment = .ok type ∧
        value.sizeIn environment = .ok size ∧
        value.code environment = .ok code := by
  simp only [initialCode, bind_eq_ok, pure_eq_ok, requireType_eq_ok,
    Prod.mk.injEq]
  constructor
  · rintro ⟨_, typed, _, rfl, _, sized, _, coded, rfl, rfl⟩
    exact ⟨typed, sized, coded⟩
  · rintro ⟨typed, sized, coded⟩
    exact ⟨_, typed, ⟨⟩, rfl, _, sized, _, coded, rfl, rfl⟩

theorem storeCode_eq_ok {entry : MemoryEntry} :
    storeCode entry = .ok code ↔
      ∃ offset size, Word.address entry.offset = .ok offset ∧
        Word.address entry.size = .ok size ∧
        code = [.push offset, .push size, .plain .memoryStore] := by
  simp only [storeCode, bind_eq_ok, pure_eq_ok, pushAddress_eq_ok]
  constructor
  · rintro ⟨_, ⟨offset, placed, rfl⟩, _, ⟨size, sized, rfl⟩, rfl⟩
    exact ⟨offset, size, placed, sized, rfl⟩
  · rintro ⟨offset, size, placed, sized, rfl⟩
    exact ⟨_, ⟨offset, placed, rfl⟩, _, ⟨size, sized, rfl⟩, rfl⟩

/-- Memory with addresses ends before the counter does. -/
theorem room_of_storeCode {entry : MemoryEntry}
    (stored : storeCode entry = .ok code) :
    entry.offset + entry.size < MemoryTable.counterRange := by
  obtain ⟨offset, size, placed, sized, _⟩ := storeCode_eq_ok.mp stored
  rw [← Word.address_eq_ok placed, ← Word.address_eq_ok sized,
    MemoryTable.counterRange]
  have first := offset.isLt
  have second := size.isLt
  omega

theorem assignCode_eq_ok {type : ValueType} {name : String}
    {value : Expression} {next : Environment} :
    assignCode environment type name value = (.ok code, next) ↔
      ∃ valueCode size defined storing,
        value.typeIn environment = .ok type ∧
        value.sizeIn environment = .ok size ∧
        value.code environment = .ok valueCode ∧
        environment.define name type = .ok defined ∧
        storeCode (defined.allocate name size).1 = .ok storing ∧
        code = valueCode ++ storing ∧
        next = (defined.allocate name size).2 := by
  unfold assignCode
  constructor
  · intro compiled
    split at compiled
    · cases compiled
    next valueCode size initial =>
    split at compiled
    · cases compiled
    next defined bound =>
    simp only at compiled
    split at compiled
    · cases compiled
    next storing stored =>
    cases compiled
    rcases initialCode_eq_ok.mp initial with ⟨typed, sized, coded⟩
    exact ⟨valueCode, size, defined, storing, typed, sized, coded, bound,
      stored, rfl, rfl⟩
  · rintro ⟨valueCode, size, defined, storing, typed, sized, coded, bound,
      stored, rfl, rfl⟩
    rw [initialCode_eq_ok.mpr ⟨typed, sized, coded⟩]
    simp only [bound, stored]

end ContractCompiler
