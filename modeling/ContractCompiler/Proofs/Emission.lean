/-
Patched code has its addresses in place.

When a jump is patched, all that has been emitted since stays where it is, so
the units of the jump are those that the address would have given at first.
Emitting a statement therefore adds the code that it has at this place, and
comes to the same error when there is none.
-/

import ContractCompiler.Code.Function
import ContractCompiler.Proofs.Generation

namespace ContractCompiler

namespace Emission

variable {state : Emission} {environment next : Environment}

def place (state : Emission) : Extent :=
  ⟨state.code.length, state.code.byteLength⟩

def extend (state : Emission) (fragment : Fragment)
    (environment : Environment) : Emission :=
  ⟨state.code.append (.ofInstructions fragment.code),
    state.sites ++ fragment.sites, environment⟩

private theorem place_extend (state : Emission) (fragment : Fragment)
    (environment : Environment) :
    (state.extend fragment environment).place =
      state.place.past fragment.code := by
  have units : (state.code.units ++ unitsOf fragment.code).length =
      state.code.units.length + (Extent.ofCode fragment.code).units := by
    rw [List.length_append, length_unitsOf]
  have bytes : Assembly.sizeOfUnits
        (state.code.units ++ unitsOf fragment.code) =
      Assembly.sizeOfUnits state.code.units +
        (Extent.ofCode fragment.code).bytes := by
    rw [Assembly.sizeOfUnits_append, sizeOfUnits_unitsOf]
  rw [Extent.past, Extent.add, place]
  exact (Extent.mk.injEq ..).mpr ⟨units, bytes⟩

private theorem extend_extend (state : Emission) (first second : Fragment)
    (environment next : Environment) :
    (state.extend first environment).extend second next =
      state.extend
        ⟨first.code ++ second.code, first.sites ++ second.sites⟩ next := by
  simp only [extend, Assembly.append, Assembly.ofInstructions,
    List.flatMap_append, List.append_assoc]

end Emission

namespace Emitter

/-! ### Single steps -/

section Steps

variable {α β : Type} {state next : Emission}

private theorem run_bind_ok {first : Emitter α} {second : α → Emitter β}
    {value : α} (given : first.run state = (.ok value, next)) :
    (first >>= second).run state = (second value).run next := by
  change (first.run >>= ExceptT.bindCont second) state = _
  change (match first.run state with
    | (outcome, behind) => ExceptT.bindCont second outcome behind) = _
  rw [given]
  rfl

private theorem run_bind_error {first : Emitter α} {second : α → Emitter β}
    {error : CodeError} (failed : first.run state = (.error error, next)) :
    (first >>= second).run state = (.error error, next) := by
  change (match first.run state with
    | (outcome, behind) => ExceptT.bindCont second outcome behind) = _
  rw [failed]
  rfl

private theorem run_environment (state : Emission) :
    environment.run state = (.ok state.environment, state) := rfl

private theorem run_emitAll (state : Emission) (code : List Instruction) :
    (emitAll code).run state =
      (.ok (), state.extend ⟨code, []⟩ state.environment) := by
  rw [Emission.extend, List.append_nil]
  rfl

private theorem run_emit (state : Emission) (instruction : Instruction) :
    (emit instruction.opcode instruction.operands).run state =
      (.ok (), state.extend ⟨[instruction], []⟩ state.environment) := by
  have emitted : state.code.emit instruction.opcode instruction.operands =
      .ok (state.code.append (.ofInstructions [instruction])) := by
    rw [Assembly.emit, Instruction.make, dif_pos instruction.complete]
    simp only [Assembly.append, Assembly.ofInstructions,
      List.flatMap_singleton]
    rfl
  have stored : ofAssembly
        (state.code.emit instruction.opcode instruction.operands) =
      pure (state.code.append (.ofInstructions [instruction])) := by
    rw [emitted]
    rfl
  have step : (get : Emitter Emission).run state = (.ok state, state) := rfl
  rw [emit, run_bind_ok step, stored, Emission.extend, List.append_nil]
  rfl

private theorem run_emitPlaceholder (state : Emission) :
    emitPlaceholder.run state =
      (.ok (state.place.units + 1),
        state.extend ⟨[.push .placeholder], []⟩ state.environment) := by
  have pushed := run_emit state (.push .placeholder)
  have length := congrArg Extent.units
    (state.place_extend ⟨[.push .placeholder], []⟩ state.environment)
  refine (run_bind_ok pushed).trans ?_
  change (Except.ok ((Emission.extend _ _ _).place.units - 1), _) = _
  rw [length]
  rfl

private theorem run_nested (state : Emission) (block : Emitter Unit) :
    (nested block).run state =
      ((block.run state.enter).1, (block.run state.enter).2.leave) := rfl

end Steps

end Emitter

/-! ### Patches -/

private theorem Assembly.replaceOperand_push (code : Assembly)
    (before after : List Instruction) (old word : Word) :
    (code.append (.ofInstructions (before ++ .push old :: after))).replaceOperand
        (code.length + (Extent.ofCode before).units + 1) word =
      .ok (code.append (.ofInstructions (before ++ .push word :: after))) := by
  -- All units up to the operand, which then stands at their number.
  let front := code.units ++ unitsOf before ++ [CodeUnit.ofOpcode .push]
  have split : ∀ pushed : Word,
      code.append (.ofInstructions (before ++ .push pushed :: after)) =
        ⟨front ++ CodeUnit.ofWord pushed :: unitsOf after⟩ := by
    intro pushed
    have units := unitsOf_append before (.push pushed :: after)
    rw [unitsOf_cons] at units
    simp only [append, front, List.append_assoc]
    exact congrArg (fun more => Assembly.mk (code.units ++ more)) units
  have length : front.length =
      code.length + (Extent.ofCode before).units + 1 := by
    rw [List.length_append, List.length_append, length_unitsOf]
    rfl
  have found : (front ++ CodeUnit.ofWord old :: unitsOf after)[front.length]? =
      some (CodeUnit.ofWord old) := by
    rw [List.getElem?_append_right (Nat.le_refl _), Nat.sub_self]
    rfl
  have operand : (CodeUnit.ofWord old).isOperand = true := rfl
  rw [split old, split word, ← length, replaceOperand, found]
  change (if (CodeUnit.ofWord old).isOperand then _ else _) = _
  rw [if_pos operand, List.set_append_right _ _ (Nat.le_refl _),
    Nat.sub_self]
  rfl

namespace Emitter

/-- A patch puts the place that has been reached where the placeholder was. -/
theorem run_patchJump {state : Emission} {code before after : List Instruction}
    {opcode : Opcode} {old : Word} {stop : Extent}
    (shape : code = before ++ jumpCode opcode old ++ after)
    (reached : state.place.past code = stop)
    (sites : List Nat) (environment : Environment) :
    (patchJump ((state.place.past before).units + 1)).run
        (state.extend ⟨code, sites⟩ environment) =
      match targetWord stop with
      | .error error =>
          (.error error, state.extend ⟨code ++ [.plain .jumpTarget], sites⟩
            environment)
      | .ok word =>
          (.ok (), state.extend
            ⟨before ++ jumpCode opcode word ++ after ++
                [.plain .jumpTarget],
              sites ++ [(state.place.past before).units + 1]⟩
            environment) := by
  have looked : (get : Emitter Emission).run
        (state.extend ⟨code, sites⟩ environment) =
      (.ok (state.extend ⟨code, sites⟩ environment),
        state.extend ⟨code, sites⟩ environment) := rfl
  have marked : (emit .jumpTarget []).run
        (state.extend ⟨code, sites⟩ environment) =
      (.ok (), state.extend ⟨code ++ [.plain .jumpTarget], sites⟩
        environment) := by
    refine (run_emit _ (.plain .jumpTarget)).trans ?_
    rw [Emission.extend_extend, List.append_nil]
    rfl
  have patched : ∀ word, Assembly.replaceOperand
        (state.extend ⟨code ++ [.plain .jumpTarget], sites⟩ environment).code
        ((state.place.past before).units + 1) word =
      .ok (state.code.append (.ofInstructions
        (before ++ jumpCode opcode word ++ after ++
          [.plain .jumpTarget]))) := by
    intro word
    simp only [shape, jumpCode, List.append_assoc, List.cons_append]
    exact state.code.replaceOperand_push before _ old word
  have target := state.place_extend ⟨code, sites⟩ environment
  rw [patchJump, run_bind_ok looked, run_bind_ok marked, targetWord,
    ← target.trans reached]
  change (ofAssembly (Word.address (Emission.place _).bytes) >>= _).run _ = _
  cases Word.address (Emission.place _).bytes with
  | error error => rfl
  | ok word =>
      refine (run_bind_ok rfl).trans ((run_bind_ok rfl).trans ?_)
      rw [patched word]
      refine (run_bind_ok rfl).trans ?_
      simp only [Emission.extend, ← List.append_assoc]
      rfl

end Emitter

/-! ### Statements -/

/-- How an emission that started at a state has ended: a fragment was added, or
there was an error, and the environment is the one given. -/
def Emission.Yields (origin : Emission) :
    Generated Fragment → Except CodeError Unit × Emission → Prop
  | (.ok fragment, environment), result =>
      result = (.ok (), origin.extend fragment environment)
  | (.error error, environment), result =>
      ∃ left, result = (.error error, left) ∧ left.environment = environment

namespace Emitter

variable {state : Emission} {code : List Instruction} {sites : List Nat}
  {environment : Environment}

/-- A jump whose address is not known yet, behind a fragment. -/
theorem run_emitJump {opcode : Opcode} (alone : opcode.operandCount = 0) :
    (emitJump opcode).run (state.extend ⟨code, sites⟩ environment) =
      (.ok ((state.place.past code).units + 1),
        state.extend ⟨code ++ jumpCode opcode .placeholder, sites⟩
          environment) := by
  have placed := run_emitPlaceholder
    (state.extend ⟨code, sites⟩ environment)
  rw [Emission.place_extend, Emission.extend_extend] at placed
  have operands : (Instruction.plain opcode).operands = [] :=
    congrArg (List.replicate · 0) alone
  have emitted := run_emit (state.extend
    ⟨code ++ [.push .placeholder], sites ++ []⟩ environment) (.plain opcode)
  rw [operands, Emission.extend_extend] at emitted
  rw [emitJump, run_bind_ok placed]
  refine (run_bind_ok emitted).trans ?_
  simp only [List.append_nil, List.append_assoc]
  rfl

/-- A test with its open jump. -/
theorem run_test (state : Emission) (test : List Instruction)
    (next : Nat → Emitter Unit) :
    (do
        let code ← liftM (.ok test : Except CodeError (List Instruction))
        emitAll code
        let site ← emitJump .jumpIf
        next site : Emitter Unit).run state =
      (next ((state.place.past test).units + 1)).run
        (state.extend ⟨test ++ jumpCode .jumpIf .placeholder, []⟩
          state.environment) := by
  have given : (liftM (.ok test : Except CodeError (List Instruction)) :
      Emitter (List Instruction)).run state = (.ok test, state) := rfl
  rw [run_bind_ok given, run_bind_ok (run_emitAll state test),
    run_bind_ok (run_emitJump rfl)]

private theorem yields_straight (state : Emission)
    (outcome : Except CodeError (List Instruction)) :
    state.Yields
      (match outcome with
        | .error error => (.error error, state.environment)
        | .ok code => (.ok ⟨code, []⟩, state.environment))
      ((liftM outcome >>= emitAll).run state) := by
  cases outcome with
  | error error => exact ⟨state, rfl, rfl⟩
  | ok code => exact run_emitAll state code

/-- A nested block behind a fragment. -/
theorem run_nested_emitAll {block : Block} {start : Extent}
    (given : ∀ state : Emission,
      state.Yields (Statement.codeAll state.place state.environment block)
        ((Statement.emitAll block).run state))
    (reached : state.place.past code = start) :
    (∃ error inside left,
        Statement.codeAll start environment.enter block =
            (.error error, inside) ∧
          (nested (Statement.emitAll block)).run
              (state.extend ⟨code, sites⟩ environment) =
            (.error error, left) ∧
          left.environment = inside.leave) ∨
      ∃ body inside,
        Statement.codeAll start environment.enter block =
            (.ok body, inside) ∧
          (nested (Statement.emitAll block)).run
              (state.extend ⟨code, sites⟩ environment) =
            (.ok (), state.extend ⟨code ++ body.code, sites ++ body.sites⟩
              inside.leave) := by
  let entered := (state.extend ⟨code, sites⟩ environment).enter
  have place : entered.place = start :=
    (state.place_extend _ _).trans reached
  have inside : entered.environment = environment.enter := rfl
  have inner := given entered
  rw [place, inside] at inner
  rw [run_nested]
  generalize Statement.codeAll start environment.enter block = generated
    at inner ⊢
  rcases generated with ⟨error | body, inside⟩
  · obtain ⟨left, ran, same⟩ := inner
    refine Or.inl ⟨error, inside, left.leave, rfl, ?_, ?_⟩
    · rw [ran]
    · rw [← same]
      rfl
  · have ran : (Statement.emitAll block).run entered =
      (.ok (), entered.extend body inside) := inner
    refine Or.inr ⟨body, inside, rfl, ?_⟩
    rw [ran, ← state.extend_extend ⟨code, sites⟩ body environment]
    rfl

/-- A nested block, and behind it the target of a jump that skips it. -/
theorem yields_skipped {block : Block} {start : Extent}
    (head : List Instruction) (opcode : Opcode) (between : List Instruction)
    (given : ∀ state : Emission,
      state.Yields (Statement.codeAll state.place state.environment block)
        ((Statement.emitAll block).run state))
    (reached : state.place.past
      (head ++ jumpCode opcode .placeholder ++ between) = start) :
    state.Yields
      (match Statement.codeAll start environment.enter block with
        | (.error error, inside) => (.error error, inside.leave)
        | (.ok body, inside) =>
            match targetWord (start.past body.code) with
            | .error error => (.error error, inside.leave)
            | .ok target =>
                (.ok
                  ⟨head ++ jumpCode opcode target ++
                      (between ++ body.code) ++ [.plain .jumpTarget],
                    sites ++ body.sites ++
                      [(state.place.past head).units + 1]⟩,
                  inside.leave))
      ((nested (Statement.emitAll block) >>= fun _ =>
          patchJump ((state.place.past head).units + 1)).run
        (state.extend
          ⟨head ++ jumpCode opcode .placeholder ++ between, sites⟩
          environment)) := by
  rcases run_nested_emitAll given reached with
    ⟨error, inside, left, compiled, ran, same⟩ |
      ⟨body, inside, compiled, ran⟩
  · rw [compiled, run_bind_error ran]
    exact ⟨left, rfl, same⟩
  · have stop : state.place.past (head ++ jumpCode opcode .placeholder ++
          between ++ body.code) = start.past body.code := by
      rw [Extent.past_append, reached]
    rw [compiled, run_bind_ok ran,
      run_patchJump (List.append_assoc ..) stop]
    simp only
    cases targetWord _ with
    | error error => exact ⟨_, rfl, rfl⟩
    | ok target => rfl

end Emitter

section Branches

variable {condition : Expression} {consequence alternative : Block}
  {state : Emission}

private theorem Statement.yields_ifThen
    (inner : ∀ state : Emission,
      state.Yields (codeAll state.place state.environment consequence)
        ((emitAll consequence).run state)) :
    state.Yields (Statement.code state.place state.environment
        (.ifThen condition consequence))
      ((Statement.ifThen condition consequence).emit.run state) := by
  rw [Statement.code, Statement.emit,
    Emitter.run_bind_ok (Emitter.run_environment state)]
  cases conditionCode state.environment condition with
  | error error => exact ⟨state, rfl, rfl⟩
  | ok test =>
      have reached : state.place.past
            (test ++ jumpCode .jumpIf .placeholder ++ []) =
          (state.place.past test).add jumpExtent := by
        rw [List.append_nil, Extent.past_jumpIf]
      have skipped := @Emitter.yields_skipped state [] state.environment _ _
        test .jumpIf [] inner reached
      rw [List.append_nil] at skipped
      rw [Emitter.run_test]
      exact skipped

private theorem Statement.yields_ifThenElse
    (inner : ∀ state : Emission,
      state.Yields (codeAll state.place state.environment consequence)
        ((emitAll consequence).run state))
    (innerToo : ∀ state : Emission,
      state.Yields (codeAll state.place state.environment alternative)
        ((emitAll alternative).run state)) :
    state.Yields (Statement.code state.place state.environment
        (.ifThenElse condition consequence alternative))
      ((Statement.ifThenElse condition consequence alternative).emit.run
        state) := by
  rw [Statement.code, Statement.emit,
    Emitter.run_bind_ok (Emitter.run_environment state)]
  cases conditionCode state.environment condition with
  | error error => exact ⟨state, rfl, rfl⟩
  | ok test =>
      rw [Emitter.run_test]
      rcases Emitter.run_nested_emitAll inner
          (state.place.past_jumpIf test .placeholder) with
        ⟨error, inside, left, compiled, ran, same⟩ |
          ⟨body, inside, compiled, ran⟩
      · rw [Emitter.run_bind_error ran]
        simp only [compiled]
        exact ⟨left, rfl, same⟩
      have shape :
          test ++ jumpCode .jumpIf .placeholder ++ body.code ++
              jumpCode .jump .placeholder =
            test ++ jumpCode .jumpIf .placeholder ++
              (body.code ++ jumpCode .jump .placeholder) :=
        List.append_assoc ..
      have patched := Emitter.run_patchJump shape
        (state.place.past_choiceHead test .placeholder body.code
          .placeholder) ([] ++ body.sites) inside.leave
      have site : ∀ target, state.place.past
            (test ++ jumpCode .jumpIf target ++ body.code) =
          ((state.place.past test).add jumpExtent).past body.code := by
        intro target
        rw [Extent.past_append, Extent.past_jumpIf]
      rw [Emitter.run_bind_ok ran,
        Emitter.run_bind_ok (Emitter.run_emitJump rfl), site]
      simp only [compiled]
      cases reached : targetWord _ with
      | error error =>
          rw [reached] at patched
          exact ⟨_, Emitter.run_bind_error patched, rfl⟩
      | ok target =>
          rw [reached] at patched
          have skipped := @Emitter.yields_skipped state
            ([] ++ body.sites ++ [(state.place.past test).units + 1])
            inside.leave _ _
            (test ++ jumpCode .jumpIf target ++ body.code) .jump
            [.plain .jumpTarget] innerToo
            (state.place.past_choiceTarget test target body.code
              .placeholder)
          rw [site] at skipped
          rw [Emitter.run_bind_ok patched]
          simp only [List.append_assoc, List.nil_append] at skipped ⊢
          exact skipped

end Branches

mutual

/-- Emitting a statement adds the code that it has at this place. -/
theorem Statement.yields_emit (statement : Statement) (state : Emission) :
    state.Yields (Statement.code state.place state.environment statement)
      (statement.emit.run state) := by
  match statement with
  | .evaluates value =>
      rw [Statement.code, Statement.emit,
        Emitter.run_bind_ok (Emitter.run_environment state)]
      exact Emitter.yields_straight state _
  | .returns value =>
      rw [Statement.code, Statement.emit,
        Emitter.run_bind_ok (Emitter.run_environment state)]
      exact Emitter.yields_straight state _
  | .assigns type name value =>
      rw [Statement.code, Statement.emit,
        Emitter.run_bind_ok (Emitter.run_environment state)]
      rcases assignCode state.environment type name value with
        ⟨outcome, next⟩
      have written := Emitter.yields_straight
        { state with environment := next } outcome
      cases outcome <;> exact written
  | .ifThen condition consequence =>
      exact yields_ifThen (yields_emitAll consequence)
  | .ifThenElse condition consequence alternative =>
      exact yields_ifThenElse (yields_emitAll consequence)
        (yields_emitAll alternative)

theorem Statement.yields_emitAll (block : Block) (state : Emission) :
    state.Yields (Statement.codeAll state.place state.environment block)
      ((Statement.emitAll block).run state) := by
  match block with
  | [] =>
      rw [Statement.codeAll, Statement.emitAll]
      simp only [Emission.Yields, Emission.extend, Assembly.append,
        Assembly.ofInstructions, List.flatMap_nil, List.append_nil]
      rfl
  | statement :: rest =>
      have first := statement.yields_emit state
      rw [Statement.codeAll, Statement.emitAll]
      generalize Statement.code state.place state.environment statement =
        generated at first ⊢
      rcases generated with ⟨error | fragment, next⟩
      · obtain ⟨left, ran, same⟩ := first
        exact ⟨left, Emitter.run_bind_error ran, same⟩
      have ran : statement.emit.run state =
        (.ok (), state.extend fragment next) := first
      have others := yields_emitAll rest (state.extend fragment next)
      have behind : (state.extend fragment next).environment = next := rfl
      rw [Emission.place_extend, behind] at others
      rw [Emitter.run_bind_ok ran]
      simp only
      generalize Statement.codeAll (state.place.past fragment.code) next
        rest = generated at others ⊢
      rcases generated with ⟨error | tail, final⟩
      · exact others
      · simp only [Emission.Yields, Emission.extend_extend] at others ⊢
        exact others

end

/-- The code of a function is that of its body behind a jump target, with a
return at the end. -/
theorem Function.code_eq (function : Function) (environment : Environment) :
    function.code environment =
      match Statement.codeAll targetExtent environment function.body with
      | (.error error, environment) => (.error error, environment)
      | (.ok body, environment) =>
          (.ok
            ⟨function.name,
              .ofInstructions
                (.plain .jumpTarget :: body.code ++ [.plain .returning]),
              body.sites⟩,
            environment) := by
  let entered := Emission.extend ⟨.empty, [], environment⟩
    ⟨[.plain .jumpTarget], []⟩ environment
  have entry : (Emitter.emit .jumpTarget []).run ⟨.empty, [], environment⟩ =
      (.ok (), entered) :=
    Emitter.run_emit _ (.plain .jumpTarget)
  have place : entered.place = targetExtent := rfl
  have inside : entered.environment = environment := rfl
  have emitted := Statement.yields_emitAll function.body entered
  rw [place, inside] at emitted
  rw [code, emit, Emitter.run_bind_ok entry]
  generalize Statement.codeAll targetExtent environment function.body =
    generated at emitted ⊢
  rcases generated with ⟨error | body, final⟩
  · obtain ⟨left, ran, rfl⟩ := emitted
    rw [Emitter.run_bind_error ran]
  · have ran : (Statement.emitAll function.body).run entered =
      (.ok (), entered.extend body final) := emitted
    have finished : (Emitter.emit .returning []).run
        (entered.extend body final) =
          (.ok (), (entered.extend body final).extend
            ⟨[.plain .returning], []⟩ final) :=
      Emitter.run_emit _ (.plain .returning)
    rw [Emitter.run_bind_ok ran, finished, Emission.extend_extend,
      Emission.extend_extend, List.append_nil]
    rfl

end ContractCompiler
