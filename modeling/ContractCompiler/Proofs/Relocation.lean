/-
Moving code is generating it elsewhere.

Linking moves the addresses inside a function by the number of bytes in front
of it.  What comes out is the code that the same block has when it starts
behind those bytes, so nothing that is proved about generated code has to be
proved again for linked code.
-/

import ContractCompiler.Artifact
import ContractCompiler.Proofs.Generation

namespace ContractCompiler

/-! ### Moving single addresses -/

theorem targetWord_eq_ok {target : Extent} {word : Word} :
    targetWord target = .ok word ↔ Word.address target.bytes = .ok word := by
  unfold targetWord
  cases Word.address target.bytes with
  | error error => exact ⟨nofun, nofun⟩
  | ok found => simp only [Except.ok.injEq]

namespace Artifact

theorem relocate_append (base : Nat) (code : Assembly)
    (first second : List Nat) :
    relocate base code (first ++ second) =
      (relocate base code first).bind fun moved =>
        relocate base moved second := by
  induction first generalizing code with
  | nil =>
      rfl
  | cons site rest inductionHypothesis =>
      simp only [List.cons_append, relocate]
      cases code.operandAt? site with
      | none =>
          rfl
      | some relative =>
          simp only
          cases Word.address (base + relative.toNat) with
          | error error =>
              rfl
          | ok absolute =>
              simp only
              cases code.replaceOperand site absolute with
              | error error =>
                  rfl
              | ok changed =>
                  exact inductionHypothesis changed

/-- Moving the address at one unit changes that unit only. -/
theorem relocate_site (base : Nat) (before after : List CodeUnit)
    (relative : Word) {site : Nat} (placed : before.length = site) :
    relocate base ⟨before ++ .ofWord relative :: after⟩ [site] =
      (Word.address (base + relative.toNat)).map fun absolute =>
        ⟨before ++ .ofWord absolute :: after⟩ := by
  have found : (before ++ CodeUnit.ofWord relative :: after)[site]? =
      some (.ofWord relative) := by
    rw [← placed, List.getElem?_append_right (Nat.le_refl _), Nat.sub_self]
    rfl
  have operand : (CodeUnit.ofWord relative).isOperand = true := rfl
  simp only [relocate, Assembly.operandAt?, Assembly.replaceOperand, found,
    Option.bind_some, CodeUnit.word_ofWord, operand, if_true]
  cases Word.address (base + relative.toNat) with
  | error error =>
      rfl
  | ok absolute =>
      subst placed
      simp only [Except.map, List.set_append_right _ _ (Nat.le_refl _),
        Nat.sub_self, List.set_cons_zero]

end Artifact

/-! ### Moving the code of a block -/

namespace Extent

def raise (base : Nat) (start : Extent) : Extent :=
  ⟨start.units, base + start.bytes⟩

private theorem past_raise (base : Nat) (start : Extent)
    (code : List Instruction) :
    (start.raise base).past code = (start.past code).raise base := by
  simp only [past, add, raise, Nat.add_assoc]

private theorem past_congr (start : Extent) {first second : List Instruction}
    (same : ofCode first = ofCode second) :
    start.past first = start.past second := by
  rw [past, past, same]

/-- Where the jump of a branch leads does not change its extent. -/
theorem ofCode_branchHead (test : List Instruction)
    {body moved : List Instruction} (target word : Word)
    (same : ofCode moved = ofCode body) :
    ofCode (test ++ jumpCode .jumpIf target ++ body) =
      ofCode (test ++ jumpCode .jumpIf word ++ moved) := by
  simp only [ofCode_append, same]
  rfl

private theorem ofCode_choiceHead (test : List Instruction)
    {body moved : List Instruction} (target word ending endingWord : Word)
    (same : ofCode moved = ofCode body) :
    ofCode (choiceHead test target body ending) =
      ofCode (choiceHead test word moved endingWord) := by
  simp only [choiceHead, ofCode_append, same]
  rfl

end Extent

def Overflows {α : Type} (outcome : Except AssemblyError α) : Prop :=
  ∃ address, outcome = .error (.addressOverflow address)

private theorem Overflows.bind {α β : Type} {outcome : Except AssemblyError α}
    (overflows : Overflows outcome) (next : α → Except AssemblyError β) :
    Overflows (outcome.bind next) := by
  rcases overflows with ⟨address, rfl⟩
  exact ⟨address, rfl⟩

/-- Wherever units stand around some code, moving the addresses at some of
its units either fails for an address that is too large, or gives code of the
same extent with a property. -/
def Relocatable (base : Nat) (start : Extent) (code : List Instruction)
    (sites : List Nat) (property : List Instruction → Prop) : Prop :=
  ∀ before after : List CodeUnit, before.length = start.units →
    Overflows (Artifact.relocate base
        ⟨before ++ unitsOf code ++ after⟩ sites) ∨
      ∃ moved, property moved ∧
        Extent.ofCode moved = Extent.ofCode code ∧
        Artifact.relocate base ⟨before ++ unitsOf code ++ after⟩ sites =
          .ok ⟨before ++ unitsOf moved ++ after⟩

namespace Relocatable

variable {base : Nat} {start : Extent} {code : List Instruction}
  {sites : List Nat} {property : List Instruction → Prop}

private theorem weaken {weaker : List Instruction → Prop}
    (relocatable : Relocatable base start code sites property)
    (implied : ∀ moved, property moved →
      Extent.ofCode moved = Extent.ofCode code → weaker moved) :
    Relocatable base start code sites weaker := by
  intro before after placed
  rcases relocatable before after placed with
    overflows | ⟨moved, holds, same, done⟩
  · exact Or.inl overflows
  · exact Or.inr ⟨moved, implied moved holds same, same, done⟩

private theorem unmoved (holds : property code) :
    Relocatable base start code [] property := by
  intro before after placed
  exact Or.inr ⟨code, holds, rfl, rfl⟩

/-- Code that can be moved can be moved with other code around it. -/
theorem within (front back : List Instruction)
    (relocatable : Relocatable base (start.past front) code sites
      property) :
    Relocatable base start (front ++ code ++ back) sites fun whole =>
      ∃ moved, whole = front ++ moved ++ back ∧ property moved ∧
        Extent.ofCode moved = Extent.ofCode code := by
  intro before after placed
  have lengthEq : (before ++ unitsOf front).length =
      (start.past front).units := by
    rw [List.length_append, placed, length_unitsOf, Extent.past_units]
  have shape : ∀ middle,
      before ++ unitsOf (front ++ middle ++ back) ++ after =
        before ++ unitsOf front ++ unitsOf middle ++
          (unitsOf back ++ after) := by
    intro middle
    simp only [unitsOf_append, List.append_assoc]
  rw [shape]
  rcases relocatable (before ++ unitsOf front) (unitsOf back ++ after)
      lengthEq with
    overflows | ⟨moved, holds, same, done⟩
  · exact Or.inl overflows
  · refine Or.inr ⟨front ++ moved ++ back, ⟨moved, rfl, holds, same⟩, ?_, ?_⟩
    · simp only [Extent.ofCode_append, same]
    · rw [shape]
      exact done

private theorem behind (front : List Instruction)
    (relocatable : Relocatable base (start.past front) code sites
      property) :
    Relocatable base start (front ++ code) sites fun whole =>
      ∃ moved, whole = front ++ moved ∧ property moved := by
  have moving := relocatable.within front []
  rw [List.append_nil] at moving
  refine moving.weaken ?_
  rintro _ ⟨moved, rfl, holds, _⟩ _
  exact ⟨moved, List.append_nil _, holds⟩

/-- Code that can be moved at some units, and then at others, can be moved at
all of them. -/
theorem andThen {others : List Nat} {result : List Instruction → Prop}
    (first : Relocatable base start code sites property)
    (second : ∀ moved, property moved →
      Relocatable base start moved others result) :
    Relocatable base start code (sites ++ others) result := by
  intro before after placed
  rw [Artifact.relocate_append]
  rcases first before after placed with
    overflows | ⟨moved, holds, same, done⟩
  · exact Or.inl (overflows.bind _)
  · rw [done]
    rcases second moved holds before after placed with
      overflows | ⟨final, reached, sameToo, doneToo⟩
    · exact Or.inl overflows
    · exact Or.inr ⟨final, reached, sameToo.trans same, doneToo⟩

/-- The address of a jump can be moved. -/
theorem jump (base : Nat) (start : Extent) (opcode : Opcode)
    (target : Word) :
    Relocatable base start (jumpCode opcode target) [start.units + 1]
      fun moved => ∃ word, moved = jumpCode opcode word ∧
        Word.address (base + target.toNat) = .ok word := by
  intro before after placed
  have shape : ∀ word : Word,
      before ++ unitsOf (jumpCode opcode word) ++ after =
        (before ++ [CodeUnit.ofOpcode .push]) ++ .ofWord word ::
          (unitsOf [Instruction.plain opcode] ++ after) := by
    intro word
    simp only [List.append_assoc]
    rfl
  have lengthEq : (before ++ [CodeUnit.ofOpcode .push]).length =
      start.units + 1 := by
    rw [List.length_append, placed]
    rfl
  rw [shape, Artifact.relocate_site base _ _ target lengthEq]
  cases fits : Word.address (base + target.toNat) with
  | error error =>
      rw [Word.address_error fits]
      exact Or.inl ⟨_, rfl⟩
  | ok word =>
      refine Or.inr ⟨jumpCode opcode word, ⟨word, rfl, rfl⟩, rfl, ?_⟩
      rw [shape]
      rfl

/-- Code with a jump in front of it can be moved, and then the address of the
jump. -/
theorem overJump (front : List Instruction) (opcode : Opcode)
    (target : Word) (gap back : List Instruction)
    (relocatable : Relocatable base
      (start.past (front ++ jumpCode opcode target ++ gap)) code sites
      property) :
    Relocatable base start
      (front ++ jumpCode opcode target ++ gap ++ code ++ back)
      (sites ++ [(start.past front).units + 1]) fun whole =>
        ∃ word moved,
          whole = front ++ jumpCode opcode word ++ gap ++ moved ++ back ∧
            Word.address (base + target.toNat) = .ok word ∧
            property moved ∧ Extent.ofCode moved = Extent.ofCode code := by
  refine (relocatable.within _ back).andThen ?_
  rintro _ ⟨moved, rfl, holds, same⟩
  have jumpMoves := (jump base (start.past front) opcode target).within
    front (gap ++ moved ++ back)
  simp only [← List.append_assoc] at jumpMoves
  refine jumpMoves.weaken ?_
  rintro _ ⟨_, rfl, ⟨word, rfl, fits⟩, _⟩ _
  exact ⟨word, moved, rfl, fits, holds, same⟩

section

variable {test body other tail : List Instruction} {target ending : Word}
  {bodySites otherSites tailSites : List Nat}
  {inner second rest : List Instruction → Prop}

/-- The code of a branch can be moved, and then the code behind it. -/
theorem branch
    (bodyMoves : Relocatable base
      (start.past (test ++ jumpCode .jumpIf target)) body bodySites inner)
    (tailMoves : Relocatable base
      (start.past (branchCode test target body)) tail tailSites rest) :
    Relocatable base start (branchCode test target body ++ tail)
      (bodySites ++ [(start.past test).units + 1] ++ tailSites) fun whole =>
        ∃ word movedBody movedTail,
          whole = branchCode test word movedBody ++ movedTail ∧
            Word.address (base + target.toNat) = .ok word ∧
            Extent.ofCode movedBody = Extent.ofCode body ∧
            inner movedBody ∧ rest movedTail := by
  have headMoves := overJump test .jumpIf target []
    ([Instruction.plain .jumpTarget] ++ tail)
    (by rw [List.append_nil]; exact bodyMoves)
  simp only [List.append_nil, ← List.append_assoc] at headMoves
  refine headMoves.andThen ?_
  rintro _ ⟨word, movedBody, rfl, fits, bodyHolds, bodySame⟩
  have tailStart : start.past (branchCode test target body) =
      start.past (branchCode test word movedBody) := by
    rw [branchCode, Extent.past_append,
      start.past_congr (Extent.ofCode_branchHead test target word bodySame),
      ← Extent.past_append, branchCode]
  rw [tailStart] at tailMoves
  refine (tailMoves.behind _).weaken ?_
  rintro _ ⟨movedTail, rfl, tailHolds⟩ _
  exact ⟨word, movedBody, movedTail, rfl, fits, bodySame, bodyHolds,
    tailHolds⟩

/-- The code of a branch with an alternative can be moved, and then the code
behind it. -/
theorem choice
    (bodyMoves : Relocatable base
      (start.past (test ++ jumpCode .jumpIf target)) body bodySites inner)
    (otherMoves : Relocatable base
      (start.past (choiceHead test target body ending ++
        [Instruction.plain .jumpTarget])) other otherSites second)
    (tailMoves : Relocatable base
      (start.past (choiceCode test target body ending other)) tail tailSites
      rest) :
    Relocatable base start (choiceCode test target body ending other ++ tail)
      (bodySites ++ [(start.past test).units + 1] ++
        (otherSites ++ [(start.past (test ++ jumpCode .jumpIf target ++
          body)).units + 1] ++ tailSites)) fun whole =>
        ∃ word movedBody endingWord movedOther movedTail,
          whole = choiceCode test word movedBody endingWord movedOther ++
            movedTail ∧
            Word.address (base + target.toNat) = .ok word ∧
            Word.address (base + ending.toNat) = .ok endingWord ∧
            Extent.ofCode movedBody = Extent.ofCode body ∧
            Extent.ofCode movedOther = Extent.ofCode other ∧
            inner movedBody ∧ second movedOther ∧ rest movedTail := by
  have headMoves := overJump test .jumpIf target []
    (jumpCode .jump ending ++ [Instruction.plain .jumpTarget] ++ other ++
      [Instruction.plain .jumpTarget] ++ tail)
    (by rw [List.append_nil]; exact bodyMoves)
  simp only [List.append_nil, ← List.append_assoc] at headMoves
  refine headMoves.andThen ?_
  rintro _ ⟨word, movedBody, rfl, fits, bodyHolds, bodySame⟩
  -- The second jump stands behind the consequence that was moved.
  have headSame := start.past_congr
    (Extent.ofCode_choiceHead test target word ending ending bodySame)
  rw [Extent.past_append, headSame, ← Extent.past_append] at otherMoves
  have skipMoves := otherMoves.overJump _ .jump ending
    [.plain .jumpTarget] ([Instruction.plain .jumpTarget] ++ tail)
  simp only [← List.append_assoc] at skipMoves
  rw [start.past_congr
    (Extent.ofCode_branchHead test target word bodySame)]
  refine skipMoves.andThen ?_
  rintro _ ⟨endingWord, movedOther, rfl, fitsToo, otherHolds, otherSame⟩
  have tailStart : start.past
      (choiceCode test target body ending other) =
      start.past (choiceCode test word movedBody endingWord movedOther) :=
    start.past_congr
      (by simp only [choiceCode, Extent.ofCode_append, otherSame,
        Extent.ofCode_choiceHead test target word ending endingWord bodySame])
  rw [tailStart] at tailMoves
  refine (tailMoves.behind _).weaken ?_
  rintro _ ⟨movedTail, rfl, tailHolds⟩ _
  exact ⟨word, movedBody, endingWord, movedOther, movedTail, rfl, fits,
    fitsToo, bodySame, otherSame, bodyHolds, otherHolds, tailHolds⟩

end

end Relocatable

/-- The word of a target that is moved is the word of the place behind more
bytes. -/
theorem targetWord_raise {base : Nat} {target : Extent} {word moved : Word}
    (reached : targetWord target = .ok word)
    (fits : Word.address (base + word.toNat) = .ok moved) :
    targetWord (target.raise base) = .ok moved := by
  rw [targetWord_eq_ok] at reached ⊢
  rw [Word.address_eq_ok reached] at fits
  exact fits

/-- The code of a block, moved, is the code of the block behind more
bytes. -/
theorem Block.Generates.relocatable {start : Extent}
    {environment final : Environment} {block : Block} {fragment : Fragment}
    (generated : Block.Generates start environment block fragment final)
    (base : Nat) :
    Relocatable base start fragment.code fragment.sites fun moved =>
      Block.Generates (start.raise base) environment block
        ⟨moved, fragment.sites⟩ final := by
  -- Addresses that were moved leave all extents as they were, so the places
  -- behind them are the same before and after.
  induction generated with
  | nil =>
      exact .unmoved .nil
  | @straight start environment next final statement others code tail
      compiled rest inductionHypothesis =>
      refine (inductionHypothesis.behind code).weaken ?_
      rintro _ ⟨moved, rfl, generated⟩ _
      rw [← Extent.past_raise] at generated
      exact .straight compiled generated
  | @ifThen start environment inside final condition consequence others test
      target body tail tested inner reached rest innerHypothesis
      restHypothesis =>
      refine (innerHypothesis.branch restHypothesis).weaken ?_
      rintro _ ⟨word, movedBody, movedTail, rfl, fits, bodySame,
        bodyGenerated, tailGenerated⟩ _
      have headSame := start.past_congr
        (Extent.ofCode_branchHead test target word bodySame)
      have reachedThere := targetWord_raise reached fits
      rw [headSame, ← Extent.past_raise] at reachedThere
      rw [Extent.past_jumpIf, ← Extent.past_jumpIf _ _ word,
        ← Extent.past_raise] at bodyGenerated
      rw [branchCode, Extent.past_append, headSame, ← Extent.past_append,
        ← Extent.past_raise] at tailGenerated
      exact .ifThen tested bodyGenerated reachedThere tailGenerated
  | @ifThenElse start environment inside between final condition consequence
      alternative others test target ending body other tail tested inner
      reached innerToo reachedToo rest innerHypothesis innerHypothesisToo
      restHypothesis =>
      refine (innerHypothesis.choice innerHypothesisToo
        restHypothesis).weaken ?_
      rintro _ ⟨word, movedBody, endingWord, movedOther, movedTail, rfl, fits,
        fitsToo, bodySame, otherSame, bodyGenerated, otherGenerated,
        tailGenerated⟩ _
      have headExtent := Extent.ofCode_choiceHead test target word ending
        endingWord bodySame
      have endSame : start.past (choiceHead test target body.code ending ++
            [Instruction.plain .jumpTarget] ++ other.code) =
          start.past (choiceHead test word movedBody endingWord ++
            [Instruction.plain .jumpTarget] ++ movedOther) :=
        start.past_congr
          (by simp only [Extent.ofCode_append, headExtent, otherSame])
      have reachedThere := targetWord_raise reached fits
      have reachedTooThere := targetWord_raise reachedToo fitsToo
      rw [start.past_congr headExtent, ← Extent.past_raise] at reachedThere
      rw [endSame, ← Extent.past_raise] at reachedTooThere
      rw [Extent.past_jumpIf, ← Extent.past_jumpIf _ _ word,
        ← Extent.past_raise] at bodyGenerated
      rw [Extent.past_append, start.past_congr headExtent,
        ← Extent.past_append, ← Extent.past_raise] at otherGenerated
      rw [choiceCode, Extent.past_append, endSame, ← Extent.past_append,
        ← Extent.past_raise] at tailGenerated
      rw [start.past_congr
        (Extent.ofCode_branchHead test target word bodySame)]
      exact .ifThenElse tested bodyGenerated reachedThere otherGenerated
        reachedTooThere tailGenerated

end ContractCompiler
