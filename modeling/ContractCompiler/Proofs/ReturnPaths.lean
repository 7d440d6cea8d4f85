/-
What a function has on the stack when it returns.

Control reaches a return from the entry of a function whichever way it takes.
In a function with a return type the words of a value are then on the stack,
unless control got to the end of the body, where the stack is empty.  It gets
there exactly when the body can be run through.
-/

import ContractCompiler.Proofs.Passage
import ContractCompiler.Proofs.StackReading
import ContractCompiler.Text.Identifier

namespace ContractCompiler

/-- Every path from a reading comes to a return, and at the first one it comes
to a goal is met. -/
inductive Assembly.Inevitable (code : Assembly)
    (goal : DepthReading → Prop) : DepthReading → Prop where
  | returns {reading : DepthReading}
      (returning : code.opcodeAt? reading.index = some .returning)
      (met : goal reading) : Inevitable code goal reading
  | continues {index depth : Nat} {effect : StackEffect}
      (effected : code.effectAt? index = some effect)
      (enough : effect.pops ≤ depth)
      (leads : ∃ next, code.Flows index next)
      (everywhere : ∀ next, code.Flows index next →
        Inevitable code goal
          ⟨next, depth - effect.pops + effect.pushes⟩) :
      Inevitable code goal ⟨index, depth⟩

def Function.HasReturned (function : Function) (reading : DepthReading) :
    Prop :=
  ∃ value : Value, value.type = function.returnType ∧
    reading.depth = value.words.length

namespace Assembly

variable {code : Assembly} {goal : DepthReading → Prop}
  {reading final : DepthReading}

/-- What is inevitable stays so on the way. -/
theorem Inevitable.along (inevitable : code.Inevitable goal reading)
    (path : Relation.ReflTransGen code.Reads reading final) :
    code.Inevitable goal final := by
  induction path with
  | refl =>
      exact inevitable
  | tail _ reads inductionHypothesis =>
      cases reads with
      | step flows effected enough =>
          cases inductionHypothesis with
          | returns returning met =>
              exact absurd flows (not_flows_of_opcode returning)
          | continues effectedToo enoughToo leads everywhere =>
              rw [effected] at effectedToo
              cases effectedToo
              exact everywhere _ flows

private theorem Inevitable.met (inevitable : code.Inevitable goal reading)
    (returning : code.opcodeAt? reading.index = some .returning) :
    goal reading := by
  cases inevitable with
  | returns _ met => exact met
  | continues effected enough leads everywhere =>
      obtain ⟨next, flows⟩ := leads
      exact absurd flows (not_flows_of_opcode returning)

namespace Levelled

variable {earlier inner : List Instruction}

private theorem flows_forward (levelled : code.Levelled earlier inner)
    (stands : Stands code earlier inner reading) {next : Nat}
    (flows : code.Flows reading.index next) :
    reading.index < next ∧ next ≤ (Extent.ofCode (earlier ++ inner)).units := by
  obtain ⟨front, instruction, rest, level, split, _, rfl⟩ := stands
  obtain ⟨past, left, whole, rfl⟩ :=
    levelled.held.flows_inside levelled.forward split flows
  have filled := Extent.units_pos instruction past
  simp only [whole, Extent.units_append]
  omega

/-- Control gets to a return sooner or later, for it only goes forward. -/
theorem inevitable (levelled : code.Levelled earlier inner)
    (stands : Stands code earlier inner reading)
    (met : ∀ final, Relation.ReflTransGen code.Reads reading final →
      code.opcodeAt? final.index = some .returning → goal final) :
    code.Inevitable goal reading := by
  -- Every step leaves fewer units to the end of the code.
  induction left : (Extent.ofCode (earlier ++ inner)).units - reading.index
    using Nat.strong_induction_on generalizing reading with
  | _ left inductionHypothesis =>
  rcases levelled.continues stands with returning | ⟨next, reads⟩
  · exact .returns returning (met reading .refl returning)
  · obtain ⟨effect, effected, enough⟩ := levelled.enough stands
    refine .continues effected enough ?_ ?_
    · cases reads with
      | step flows _ _ => exact ⟨_, flows⟩
    · intro next flows
      have reads := Reads.step flows effected enough
      have forward := levelled.flows_forward stands flows
      refine inductionHypothesis _ ?_
        (levelled.stands_of_reads stands reads) ?_ rfl
      · simp only
        omega
      · intro final path returning
        exact met final (.head reads path) returning

private theorem reads_of_path (levelled : code.Levelled earlier inner)
    (stands : Stands code earlier inner reading) {last : Nat}
    (path : Relation.ReflTransGen code.Flows reading.index last) :
    ∃ depth, Relation.ReflTransGen code.Reads reading ⟨last, depth⟩ := by
  induction path with
  | refl =>
      exact ⟨reading.depth, .refl⟩
  | tail _ flows inductionHypothesis =>
      obtain ⟨depth, path⟩ := inductionHypothesis
      obtain ⟨after, reads⟩ := levelled.reads_of_flows
        (levelled.stands_of_path stands path) flows
      exact ⟨after, path.tail reads⟩

end Levelled

private theorem flows_of_reads
    (path : Relation.ReflTransGen code.Reads reading final) :
    Relation.ReflTransGen code.Flows reading.index final.index := by
  induction path with
  | refl =>
      exact .refl
  | tail _ reads inductionHypothesis =>
      cases reads with
      | step flows _ _ => exact inductionHypothesis.tail flows

end Assembly

/-! ### Functions -/

private theorem Value.words_pos (value : Value) : 0 < value.words.length := by
  rw [value.length_words, wordCount]
  omega

/-- A statement that returns from a function with a return type leaves the
words of a value of this type. -/
theorem Point.Sound.returned {point : Point} {value : Option Expression}
    {piece : Fragment} {next : Environment} {depth : Nat}
    (sound : point.Sound)
    (coded : Statement.code point.place point.environment (.returns value) =
      (.ok piece, next))
    (regular : (Statement.returns value).Regular Plain)
    (valued : point.environment.returnType ≠ .void)
    (words : returnedWords? point.sizes value = some depth) :
    ∃ result : Value, result.type = point.environment.returnType ∧
      depth = result.words.length := by
  obtain ⟨call, scopes, memory, agrees, sized⟩ := sound
  have compiled := Statement.returnCode_of_code coded
  cases value with
  | none =>
      exact absurd (returnCode_none.mp compiled).1 valued
  | some value =>
      obtain ⟨front, typed, evaluated, _⟩ := returnCode_some.mp compiled
      obtain ⟨size, known, single⟩ := (Expression.hasType_of_code regular
        agrees.proper typed evaluated).width agrees
      obtain ⟨result, type, length⟩ := Value.exists_of_size valued single
      refine ⟨result, type, ?_⟩
      rw [result.length_words, length]
      rw [returnedWords?, ← sized, known] at words
      exact (Option.some.inj words).symm

namespace Function.Stands

variable {function : Function} {outside : List String} {code : Assembly}
  {earlier body : List Instruction} {reading : DepthReading}

/-- At a return, a value was returned or the end of the body is reached. -/
theorem returned_or_ended
    (stands : function.Stands outside code earlier body)
    (valued : function.returnType ≠ .void)
    (held : Assembly.Levelled.Stands code earlier (functionCode body)
      reading)
    (returning : code.opcodeAt? reading.index = some .returning) :
    function.HasReturned reading ∨
      reading.index + 1 = (Extent.ofCode (earlier ++
        functionCode body)).units ∧ reading.depth = 0 := by
  rcases stands.depth_at_return held returning with
    ended | ⟨inner, value, piece, next, met, coded, _, words⟩
  · exact Or.inr ended
  · obtain ⟨before, found, located⟩ := stands.located met
    have same := met.returnType
    have valuedToo : inner.environment.returnType ≠ .void := by
      rw [same]
      exact valued
    obtain ⟨result, type, length⟩ :=
      located.sound.returned coded located.regular valuedToo words
    exact Or.inl ⟨result, type.trans same, length⟩

/-- Control gets from the entry of a function to the end of its body exactly
when the body can be run through. -/
theorem leads_iff_passes
    (stands : function.Stands outside code earlier body) :
    code.Leads earlier (earlier ++ .plain .jumpTarget :: body) ↔
      Statement.passesAll function.body = true := by
  obtain ⟨sites, final, generated⟩ := stands.generated
  have held : code.Holds earlier ([Instruction.plain .jumpTarget] ++ body) :=
    stands.held.left
  have placed : (targetExtent.raise (Extent.ofCode earlier).bytes).bytes =
      (Extent.ofCode (earlier ++ [Instruction.plain .jumpTarget])).bytes := by
    rw [Extent.bytes_append]
    rfl
  constructor
  · intro leads
    have parts : code.Leads earlier
      (earlier ++ ([Instruction.plain .jumpTarget] ++ body)) := leads
    have inside := (parts.through held.left
      (.of_jumpFree jumpFree_target)).2
    rw [← List.append_assoc] at inside
    exact generated.passes_of_leads held.right placed inside
  · intro passes
    have enters := held.left.leads_onward onward_target
    have inside := generated.leads_of_passes held.right placed passes
    rw [List.append_assoc] at inside
    exact enters.trans inside

private theorem stands_at_entry
    (stands : function.Stands outside code earlier body) :
    Assembly.Levelled.Stands code earlier (functionCode body)
      ⟨(Extent.ofCode earlier).units, 0⟩ :=
  stands.stands_of_read ⟨_, Or.inl rfl, .refl⟩

/-- All paths return a value exactly when none gets to the end of the body. -/
theorem inevitable_iff
    (stands : function.Stands outside code earlier body)
    (valued : function.returnType ≠ .void) :
    code.Inevitable function.HasReturned
        ⟨(Extent.ofCode earlier).units, 0⟩ ↔
      Statement.passesAll function.body = false := by
  have levelled := stands.levelled
  have entry := stands.stands_at_entry
  have last : functionCode body =
      (.plain .jumpTarget :: body) ++ [Instruction.plain .returning] := rfl
  rw [← Bool.not_eq_true, ← stands.leads_iff_passes]
  constructor
  · intro inevitable leads
    obtain ⟨depth, path⟩ := levelled.reads_of_path entry leads
    have empty := Assembly.Levelled.depth_at
      (levelled.stands_of_path entry path) last
      (Carries.jumpTarget.append stands.carries) rfl
    cases empty
    obtain ⟨value, _, words⟩ := (inevitable.along path).met
      (levelled.opcodeAt last)
    have filled := value.words_pos
    rw [← words] at filled
    exact Nat.lt_irrefl 0 filled
  · intro closed
    refine levelled.inevitable entry ?_
    intro final path returning
    have held := levelled.stands_of_path entry path
    rcases stands.returned_or_ended valued held returning with
      returned | ⟨place, _⟩
    · exact returned
    · have behind := Extent.units_behind
        (earlier ++ .plain .jumpTarget :: body) (.plain .returning)
      rw [List.append_assoc, ← last, ← place] at behind
      have same := Nat.succ.inj behind
      have flows := Assembly.flows_of_reads path
      rw [same] at flows
      exact absurd flows closed

end Function.Stands

/-! ### Compiled contracts -/

section

variable [IdentifierCharacters]

/-- From the entry of a function with a return type, every path comes to a
return, with the words of a value of this type on the stack or, at the end of
the body, with an empty stack.  The latter is ruled out exactly when the body
cannot be run through. -/
theorem Contract.valued_functions_return {source : String}
    {contract : Contract} {artifact : Artifact} {parallel : Bool}
    {function : Function}
    (parsed : Contract.parse source = .ok contract)
    (compiled : contract.compile parallel = .ok artifact)
    (member : function ∈ contract.functions)
    (valued : function.returnType ≠ .void) :
    ∃ number first offset,
      artifact.functions[number]? = some ⟨function.name, offset⟩ ∧
      artifact.code.byteOffset? first = some offset ∧
      artifact.code.Inevitable
        (fun reading => function.HasReturned reading ∨
          artifact.code.byteOffset? (reading.index + 1) =
            some (artifact.stopOf number) ∧ reading.depth = 0)
        ⟨first, 0⟩ ∧
      (artifact.code.Inevitable function.HasReturned ⟨first, 0⟩ ↔
        Statement.passesAll function.body = false) := by
  obtain ⟨number, earlier, body, stands, entry, starts, stops⟩ :=
    stands_of_compiled parsed compiled member
  refine ⟨number, _, _, entry, starts, ?_, stands.inevitable_iff valued⟩
  have levelled := stands.levelled
  refine levelled.inevitable stands.stands_at_entry ?_
  intro final path returning
  have held := levelled.stands_of_path stands.stands_at_entry path
  rcases stands.returned_or_ended valued held returning with
    returned | ⟨place, empty⟩
  · exact Or.inl returned
  · rw [place]
    exact Or.inr ⟨stops, empty⟩

end

open IdentifierTables

theorem Contract.copying_returns_value :
    ∃ artifact,
      Contract.parse copyingSource = .ok ⟨[copying]⟩ ∧
      (⟨[copying]⟩ : Contract).compile true = .ok artifact ∧
      copying.returnType ≠ .void ∧
      ∃ number first offset : Nat,
        artifact.functions[number]? = some ⟨copying.name, offset⟩ ∧
        artifact.code.byteOffset? first = some offset ∧
        artifact.code.Inevitable copying.HasReturned ⟨first, 0⟩ := by
  obtain ⟨artifact, compiled⟩ := Contract.exists_compile_copying
  have parsed := Contract.parse_copying
  have valued : copying.returnType ≠ .void := by decide
  obtain ⟨number, first, offset, entry, starts, _, returned⟩ :=
    Contract.valued_functions_return parsed compiled List.mem_cons_self valued
  exact ⟨artifact, parsed, compiled, valued, number, first, offset, entry,
    starts, returned.mpr rfl⟩

def silent : Function :=
  ⟨"f", [], .int, []⟩

def silentSource : String :=
  "contract\x7bfunc f()int\x7b\x7d\x7d"

/-- A function with a return type may return nothing. -/
theorem Contract.silent_returns_nothing :
    ∃ artifact,
      Contract.parse silentSource = .ok ⟨[silent]⟩ ∧
      (⟨[silent]⟩ : Contract).compile true = .ok artifact ∧
      silent.returnType ≠ .void ∧
      artifact.functions = [⟨silent.name, 0⟩] ∧
      artifact.code.Reads ⟨0, 0⟩ ⟨1, 0⟩ ∧
      artifact.code.opcodeAt? 1 = some .returning ∧
      ¬ artifact.code.Inevitable silent.HasReturned ⟨0, 0⟩ := by
  have parsed : Contract.parse silentSource = .ok ⟨[silent]⟩ := by
    decide +kernel
  let artifact : Artifact :=
    ⟨⟨[.ofOpcode .jumpTarget, .ofOpcode .returning]⟩, [⟨"f", 0⟩]⟩
  have flows : artifact.code.Flows 0 1 :=
    @Assembly.Flows.behind artifact.code 0 .jumpTarget rfl (by decide)
      (by decide)
  have reads : artifact.code.Reads ⟨0, 0⟩ ⟨1, 0⟩ :=
    @Assembly.Reads.step artifact.code 0 1 0 ⟨0, 0⟩ flows rfl
      (Nat.le_refl 0)
  refine ⟨artifact, parsed, rfl, by decide, rfl, reads, rfl, ?_⟩
  intro inevitable
  obtain ⟨value, _, words⟩ := (inevitable.along (.single reads)).met rfl
  have filled := value.words_pos
  rw [← words] at filled
  exact Nat.lt_irrefl 0 filled

end ContractCompiler
