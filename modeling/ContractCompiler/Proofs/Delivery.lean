/-
What is cut is what is read.

While the queue is open, the tokens that were handed out, those in the queue and
those that the scanner still has to cut make up the tokens of the text, in
order.  The scanner ends only behind the end of the input, so a reader that
waits for a token gets one.
-/

import Mathlib.Data.List.Basic
import ContractCompiler.Proofs.Pipeline
import ContractCompiler.Text.Identifier

namespace ContractCompiler

/-! ### Tokens still to be cut -/

section

variable [IdentifierCharacters]

inductive Producer.Yields : Producer → List Token → Prop where
  | starting (place : Place) (text : List Char) :
      Yields (.scanning (some .start) ⟨[], place, text⟩)
        (tokensFrom place text)
  | reading (place : Place) (first : Char) (rest : List Char) :
      Yields (.scanning (some (.of first)) ⟨[], place, first :: rest⟩)
        ((Lexeme.read first rest).token place ::
          tokensFrom (place.past (Lexeme.read first rest).text)
            ((Lexeme.read first rest).behind (first :: rest)))
  | sending {token : Token} {next : Option Scanner.Mode}
      {scanner : Scanner} {tokens : List Token}
      (later : Yields (.scanning next scanner) tokens) :
      Yields (.sending token next scanner) (token :: tokens)
  | ended (scanner : Scanner) : Yields (.scanning none scanner) []
  | gone : Yields .gone []

namespace Producer.Yields

variable {mode : Scanner.Mode} {next : Option Scanner.Mode}
  {scanner behind : Scanner} {tokens : List Token}

/-- A step without a token leaves the same tokens to be sent. -/
theorem move
    (yields : Producer.Yields (.scanning (some mode) scanner) tokens)
    (stepped : scanner.step mode = ⟨none, next, behind⟩) :
    Producer.Yields (.scanning next behind) tokens := by
  cases yields with
  | starting place text =>
      cases remaining : text.dropWhile isBlank with
      | nil =>
          obtain ⟨last, ending⟩ :=
            @Scanner.step_start_of_used place text _ remaining
          rw [ending] at stepped
          cases stepped
      | cons first rest =>
          rw [Scanner.step_start_of_found remaining] at stepped
          cases stepped
          rw [tokensFrom_of_found remaining]
          exact .reading _ first rest
  | reading place first rest =>
      rw [Scanner.step_of_first, Scanner.emit_read] at stepped
      cases stepped

/-- A step with a token cuts the first one. -/
theorem cut {token : Token}
    (yields : Producer.Yields (.scanning (some mode) scanner) tokens)
    (stepped : scanner.step mode = ⟨some token, next, behind⟩) :
    Producer.Yields (.sending token next behind) tokens := by
  cases yields with
  | starting place text =>
      cases remaining : text.dropWhile isBlank with
      | nil =>
          obtain ⟨last, ending⟩ :=
            @Scanner.step_start_of_used place text _ remaining
          rw [ending] at stepped
          cases stepped
          rw [tokensFrom_of_used remaining]
          exact .sending (.ended _)
      | cons first rest =>
          rw [Scanner.step_start_of_found remaining] at stepped
          cases stepped
  | reading place first rest =>
      rw [Scanner.step_of_first, Scanner.emit_read] at stepped
      cases stepped
      exact .sending (.starting _ _)

end Producer.Yields

end

/-! ### Answers -/

def handedOut (events : List Event) : List Token :=
  events.filterMap fun event =>
    match event with
    | .answered _ answer => answer
    | _ => none

def Concluded (events : List Event) : Prop :=
  ∃ token, Event.answered .item (some token) ∈ events ∧
    token.isEnd = true

/-- A request has no answer exactly when it asks for an item behind the one
that ended the sequence. -/
def AnswersInTurn (events : List Event) : Prop :=
  ∀ before request answer after,
    events = before ++ .answered request answer :: after →
    (answer = none ↔ request = .item ∧ Concluded before)

private theorem append_eq_split {α : Type} {items before after : List α}
    {last item : α} (split : items ++ [last] = before ++ item :: after) :
    (items = before ∧ last = item ∧ after = []) ∨
      ∃ between, items = before ++ item :: between ∧
        after = between ++ [last] := by
  rcases List.eq_nil_or_concat' after with rfl | ⟨between, final, rfl⟩
  · left
    obtain ⟨front, same⟩ := List.append_inj' split rfl
    exact ⟨front, List.singleton_inj.mp same, rfl⟩
  · right
    rw [← List.cons_append, ← List.append_assoc] at split
    obtain ⟨front, same⟩ := List.append_inj' split rfl
    rw [List.singleton_inj.mp same]
    exact ⟨between, front, rfl⟩

theorem handedOut_append (events : List Event) (event : Event) :
    handedOut (events ++ [event]) =
      handedOut events ++ handedOut [event] :=
  List.filterMap_append

def Event.Silent : Event → Prop
  | .answered _ _ => False
  | _ => True

section

variable {events : List Event} {event : Event}

private theorem Event.Silent.handedOut (silent : event.Silent) :
    handedOut (events ++ [event]) = ContractCompiler.handedOut events := by
  rw [handedOut_append]
  cases event with
  | answered request answer => exact absurd silent id
  | _ => exact List.append_nil _

private theorem Event.Silent.concluded (silent : event.Silent) :
    Concluded (events ++ [event]) ↔ Concluded events := by
  cases event with
  | answered request answer => exact absurd silent id
  | _ => simp [Concluded]

private theorem Event.Silent.answersInTurn (silent : event.Silent)
    (answers : AnswersInTurn events) :
    AnswersInTurn (events ++ [event]) := by
  intro before request answer after split
  rcases append_eq_split split with ⟨_, rfl, _⟩ | ⟨between, whole, _⟩
  · exact absurd silent id
  · exact answers before request answer between whole

private theorem concluded_answered {request : Request} {token : Token} :
    Concluded (events ++ [Event.answered request (some token)]) ↔
      Concluded events ∨ (request = .item ∧ token.isEnd = true) := by
  constructor
  · intro concluded
    obtain ⟨ending, member, ends⟩ := concluded
    rcases List.mem_append.mp member with earlier | now
    · exact Or.inl ⟨ending, earlier, ends⟩
    · cases List.mem_singleton.mp now
      exact Or.inr ⟨rfl, ends⟩
  · intro either
    rcases either with ⟨ending, member, ends⟩ | ⟨rfl, ends⟩
    · exact ⟨ending, List.mem_append_left _ member, ends⟩
    · exact ⟨token, List.mem_append_right _ List.mem_cons_self, ends⟩

private theorem AnswersInTurn.answered (answers : AnswersInTurn events)
    {request : Request} {answer : Option Token}
    (turn : answer = none ↔ request = .item ∧ Concluded events) :
    AnswersInTurn (events ++ [Event.answered request answer]) := by
  intro before asked given after split
  rcases append_eq_split split with ⟨rfl, same, _⟩ | ⟨between, whole, _⟩
  · cases same
    exact turn
  · exact answers before asked given between whole

end

/-! ### One request -/

def Request.stops (reader : TokenReader) (token : Token) : Request → Bool
  | .token => reader.stopped
  | .item => token.isEnd

private theorem Request.perform_of_stopped {reader : TokenReader}
    (stopped : reader.stopped = true) :
    Request.item.perform reader = (none, reader) := by
  rw [perform, TokenReader.item, if_pos stopped]

private theorem Request.perform_of_ended {reader : TokenReader}
    {ending : Token} {request : Request} (ended : reader.ended = some ending)
    (going : request = .item → reader.stopped = false) :
    request.perform reader =
      (some ending,
        { reader with stopped := request.stops reader ending }) := by
  have next : reader.next = (ending, reader) := by
    rw [TokenReader.next, ended]
  cases request with
  | token => rw [perform, next]; rfl
  | item =>
      rw [perform, TokenReader.item, going rfl, next]
      rfl

private theorem Request.perform_of_receives {reader : TokenReader}
    {request : Request} (receives : request.Receives reader)
    {token : Token} {rest : List Token}
    (waiting : reader.upcoming = token :: rest) :
    request.perform reader =
      (some token,
        { (reader.receive token rest).2 with
          stopped := request.stops reader token }) := by
  obtain ⟨opened, going⟩ := receives
  have next : reader.next = reader.receive token rest := by
    rw [TokenReader.next, opened, waiting]
  cases request with
  | token => rw [perform, next]; rfl
  | item =>
      rw [perform, TokenReader.item, going rfl, next]
      rfl

/-- What was handed out so far, for tokens in front of an end of the input,
when that end was or was not met and the sequence has or has not stopped. -/
structure Recorded (front : List Token) (ending : Token)
    (events : List Event) (ended : Option Token) (stopped : Bool) :
    Prop where
  before : ended = none → handedOut events <+: front
  behind : ∀ token, ended = some token → token = ending ∧
    ∃ count, handedOut events = front ++ List.replicate (count + 1) ending
  concluded : stopped = true ↔ Concluded events
  answers : AnswersInTurn events

namespace Recorded

variable {front : List Token} {ending : Token} {events : List Event}
  {reader : TokenReader} {request : Request}

private theorem silent {event : Event} {ended : Option Token} {stopped : Bool}
    (recorded : Recorded front ending events ended stopped)
    (quiet : event.Silent) :
    Recorded front ending (events ++ [event]) ended stopped := by
  constructor
  · rw [quiet.handedOut]
    exact recorded.before
  · rw [quiet.handedOut]
    exact recorded.behind
  · rw [quiet.concluded]
    exact recorded.concluded
  · exact quiet.answersInTurn recorded.answers

/-- Behind a token, the sequence has stopped when it was to. -/
theorem stops_iff
    (recorded : Recorded front ending events reader.ended reader.stopped)
    (going : request = .item → reader.stopped = false) (token : Token) :
    request.stops reader token = true ↔
      Concluded (events ++ [Event.answered request (some token)]) := by
  rw [concluded_answered, ← recorded.concluded]
  cases request with
  | token => simp [Request.stops]
  | item => simp [Request.stops, going rfl]

private theorem answers_token
    (recorded : Recorded front ending events reader.ended reader.stopped)
    (going : request = .item → reader.stopped = false) (token : Token) :
    AnswersInTurn (events ++ [Event.answered request (some token)]) := by
  apply recorded.answers.answered
  constructor
  · intro impossible
    cases impossible
  · intro turn
    have stopped := recorded.concluded.mpr turn.2
    rw [going turn.1] at stopped
    cases stopped

private theorem answered_of_stopped
    (recorded : Recorded front ending events reader.ended reader.stopped)
    (stopped : reader.stopped = true) :
    Recorded front ending (events ++ [Event.answered .item none])
      reader.ended reader.stopped := by
  have handed : handedOut (events ++ [Event.answered .item none]) =
      handedOut events := by
    rw [handedOut_append]
    exact List.append_nil _
  constructor
  · rw [handed]
    exact recorded.before
  · rw [handed]
    exact recorded.behind
  · rw [recorded.concluded]
    simp [Concluded]
  · apply recorded.answers.answered
    have concluded := recorded.concluded.mp stopped
    exact ⟨fun _ => ⟨rfl, concluded⟩, fun _ => rfl⟩

private theorem answered_of_ended
    (recorded : Recorded front ending events reader.ended reader.stopped)
    {token : Token} (ended : reader.ended = some token)
    (going : request = .item → reader.stopped = false) :
    Recorded front ending (events ++ [Event.answered request (some token)])
      reader.ended (request.stops reader token) := by
  obtain ⟨rfl, count, handed⟩ := recorded.behind token ended
  constructor
  · intro opened
    rw [ended] at opened
    cases opened
  · intro other same
    rw [ended] at same
    cases same
    refine ⟨rfl, count + 1, ?_⟩
    rw [handedOut_append, handed, List.append_assoc,
      List.replicate_succ' (n := count + 1)]
    rfl
  · exact recorded.stops_iff going token
  · exact recorded.answers_token going token

/-- The next of the tokens in front of an end of the input is that end or
stands in front of it. -/
theorem next_token {handed more : List Token} {token : Token}
    (whole : handed ++ token :: more = front ++ [ending]) :
    (handed ++ [token] <+: front) ∨
      (handed = front ∧ token = ending ∧ more = []) := by
  rcases List.eq_nil_or_concat' more with rfl | ⟨between, final, rfl⟩
  · right
    obtain ⟨same, last⟩ := List.append_inj' whole rfl
    exact ⟨same, List.singleton_inj.mp last, rfl⟩
  · left
    rw [← List.cons_append, ← List.append_assoc] at whole
    obtain ⟨same, _⟩ := List.append_inj' whole rfl
    rw [← same]
    exact ⟨between, (List.append_cons handed token between).symm⟩

private theorem answered_of_receives
    (recorded : Recorded front ending events reader.ended reader.stopped)
    (ends : ending.isEnd = true)
    (proper : ∀ token ∈ front, token.isEnd = false)
    (receives : request.Receives reader) {token : Token}
    (rest : List Token) {more : List Token}
    (whole : handedOut events ++ token :: more = front ++ [ending]) :
    Recorded front ending (events ++ [Event.answered request (some token)])
      (reader.receive token rest).2.ended
      (request.stops reader token) := by
  obtain ⟨opened, going⟩ := receives
  have handed : handedOut (events ++ [Event.answered request (some token)]) =
      handedOut events ++ [token] := handedOut_append _ _
  have ended : (reader.receive token rest).2.ended =
      if token.isEnd then some token else none := by
    rw [TokenReader.receive, opened]
  constructor
  · intro still
    rcases next_token whole with inside | ⟨_, rfl, _⟩
    · rw [handed]
      exact inside
    · rw [ended, ends] at still
      cases still
  · intro other same
    rcases next_token whole with inside | ⟨before, rfl, _⟩
    · have member : token ∈ front :=
        inside.subset (List.mem_append_right _ List.mem_cons_self)
      rw [ended, proper token member] at same
      cases same
    · rw [ended, ends] at same
      cases same
      exact ⟨rfl, 0, by rw [handed, before]; rfl⟩
  · exact recorded.stops_iff going token
  · exact recorded.answers_token going token

/-- A request that finds a token whenever it waits for one is recorded, and
what is left are the tokens behind those that were handed out. -/
theorem performed
    (recorded : Recorded front ending events reader.ended reader.stopped)
    (ends : ending.isEnd = true)
    (proper : ∀ token ∈ front, token.isEnd = false) {left : List Token}
    (whole : reader.ended = none →
      handedOut events ++ (reader.upcoming ++ left) = front ++ [ending])
    (ready : request.Receives reader → reader.upcoming ≠ []) :
    Recorded front ending
        (events ++ [Event.answered request (request.perform reader).1])
        (request.perform reader).2.ended
        (request.perform reader).2.stopped ∧
      ((request.perform reader).2.ended = none →
        handedOut (events ++
            [Event.answered request (request.perform reader).1]) ++
          ((request.perform reader).2.upcoming ++ left) =
            front ++ [ending]) := by
  by_cases halted : request = .item ∧ reader.stopped = true
  · obtain ⟨rfl, stopped⟩ := halted
    rw [Request.perform_of_stopped stopped]
    refine ⟨recorded.answered_of_stopped stopped, ?_⟩
    intro opened
    rw [handedOut_append, ← whole opened]
    exact congrArg (· ++ _) (List.append_nil _)
  have going : request = .item → reader.stopped = false := by
    intro asked
    cases stopped : reader.stopped with
    | false => rfl
    | true => exact absurd ⟨asked, stopped⟩ halted
  cases ended : reader.ended with
  | some token =>
      rw [Request.perform_of_ended ended going]
      refine ⟨recorded.answered_of_ended ended going, ?_⟩
      intro opened
      rw [ended] at opened
      cases opened
  | none =>
      have receives : request.Receives reader := ⟨ended, going⟩
      obtain ⟨token, rest, waiting⟩ :=
        List.exists_cons_of_ne_nil (ready receives)
      have split := whole ended
      rw [waiting, List.cons_append] at split
      rw [Request.perform_of_receives receives waiting]
      refine ⟨recorded.answered_of_receives ends proper receives rest split,
        ?_⟩
      intro opened
      rw [handedOut_append, List.append_assoc, ← split]
      rfl

private theorem prefix_forever {ended : Option Token} {stopped : Bool}
    (recorded : Recorded front ending events ended stopped) :
    handedOut events <+:
      front ++ List.replicate (handedOut events).length ending := by
  cases met : ended with
  | none => exact (recorded.before met).trans (List.prefix_append _ _)
  | some token =>
      obtain ⟨rfl, count, handed⟩ := recorded.behind token met
      refine ⟨List.replicate front.length token, ?_⟩
      rw [handed, List.append_assoc, List.replicate_append_replicate]
      simp only [List.length_append, List.length_replicate]
      rw [Nat.add_comm]

end Recorded

/-! ### Behind a drop -/

def Producer.cutsLeft : Producer → Nat
  | .scanning (some _) _ => 1
  | _ => 0

def Producer.sendsLeft : Producer → Nat
  | .scanning (some _) _ => 1
  | .sending _ _ _ => 1
  | _ => 0

private theorem Producer.cutsLeft_le_one (producer : Producer) :
    producer.cutsLeft ≤ 1 := by
  unfold cutsLeft
  split <;> omega

private theorem Producer.sendsLeft_le_one (producer : Producer) :
    producer.sendsLeft ≤ 1 := by
  unfold sendsLeft
  split <;> omega

structure Released (producer : Producer) (after : List Event) : Prop where
  accepted : Event.accepted ∉ after
  cuts : after.count .cut + producer.cutsLeft ≤ 1
  sends : after.count .refused + producer.sendsLeft ≤ 1

private theorem Released.start (producer : Producer) :
    Released producer [] where
  accepted := List.not_mem_nil
  cuts := by
    rw [List.count_nil, Nat.zero_add]
    exact producer.cutsLeft_le_one
  sends := by
    rw [List.count_nil, Nat.zero_add]
    exact producer.sendsLeft_le_one

private theorem Released.step {producer next : Producer} {after : List Event}
    {event : Event} (released : Released producer after)
    (proper : event ≠ .accepted)
    (cuts : [event].count .cut + next.cutsLeft ≤ producer.cutsLeft)
    (sends : [event].count .refused + next.sendsLeft ≤
      producer.sendsLeft) :
    Released next (after ++ [event]) where
  accepted := by
    intro member
    rcases List.mem_append.mp member with earlier | now
    · exact released.accepted earlier
    · exact proper (List.mem_singleton.mp now).symm
  cuts := by
    have before := released.cuts
    rw [List.count_append]
    omega
  sends := by
    have before := released.sends
    rw [List.count_append]
    omega

namespace Pipeline

section

variable [IdentifierCharacters]
variable {capacity : Nat} {pipeline next : Pipeline} {event : Event}

/-- Behind a drop, every step uses up what is left to be cut and sent. -/
theorem Step.released (stepped : Step capacity pipeline event next)
    (deaf : ¬ pipeline.consumer.Listens) {after : List Event}
    (released : Released pipeline.producer after) :
    ¬ next.consumer.Listens ∧
      Released next.producer (after ++ [event]) := by
  cases stepped with
  | accept listens room => exact absurd listens deaf
  | call request => exact absurd trivial deaf
  | answer ready => exact absurd trivial deaf
  | meet roomless empty receives => exact absurd trivial deaf
  | drop => exact absurd trivial deaf
  | @move mode following scanner behind reader consumer stepped =>
      have cuts := (Producer.scanning following behind).cutsLeft_le_one
      have sends := (Producer.scanning following behind).sendsLeft_le_one
      refine ⟨deaf, released.step (by decide) ?_ ?_⟩
      · rw [show [Event.moved].count .cut = 0 by decide, Nat.zero_add]
        exact cuts
      · rw [show [Event.moved].count .refused = 0 by decide, Nat.zero_add]
        exact sends
  | cut stepped =>
      exact ⟨deaf, released.step (by decide) (Nat.le_refl 1)
        (Nat.le_refl 1)⟩
  | refuse stillDeaf =>
      exact ⟨deaf, released.step (by decide) (Nat.le_refl 0)
        (Nat.le_refl 1)⟩
  | finish =>
      exact ⟨deaf, released.step (by decide) (Nat.le_refl 0)
        (Nat.le_refl 0)⟩
  | join =>
      exact ⟨id, released.step (by decide) (Nat.le_refl 0)
        (Nat.le_refl 0)⟩

/-! ### The whole pipeline -/

structure Consistent (front : List Token) (ending : Token)
    (events : List Event) (pipeline : Pipeline) : Prop where
  recorded : Recorded front ending events pipeline.reader.ended
    pipeline.reader.stopped
  supplied : ∃ rest, pipeline.producer.Yields rest ∧
    (pipeline.consumer.Listens → pipeline.reader.ended = none →
      handedOut events ++ (pipeline.reader.upcoming ++ rest) =
        front ++ [ending])
  released : ∀ before after, events = before ++ .dropped :: after →
    ¬ pipeline.consumer.Listens ∧ Released pipeline.producer after

variable {front : List Token} {ending : Token} {events : List Event}

/-- While the queue is open, the thread that cuts tokens is not gone before the
end of the input was met. -/
theorem Consistent.not_starved
    (consistent : Consistent front ending events pipeline) :
    ¬ pipeline.Starved := by
  intro starved
  obtain ⟨request, calling, receives, empty, gone⟩ := starved
  obtain ⟨rest, yields, whole⟩ := consistent.supplied
  have listens : pipeline.consumer.Listens := by
    rw [calling]
    trivial
  have handed := whole listens receives.1
  rw [gone] at yields
  cases yields
  rw [empty, List.append_nil, List.append_nil] at handed
  have short := (consistent.recorded.before receives.1).length_le
  have long := congrArg List.length handed
  simp only [List.length_append, List.length_cons, List.length_nil] at long
  omega

/-- The record of drops behind a step. -/
theorem Consistent.released_step
    (consistent : Consistent front ending events pipeline)
    (stepped : Step capacity pipeline event next) :
    ∀ before after, events ++ [event] = before ++ .dropped :: after →
      ¬ next.consumer.Listens ∧ Released next.producer after := by
  intro before after split
  rcases append_eq_split split with ⟨_, rfl, rfl⟩ | ⟨between, whole, rfl⟩
  · cases stepped with
    | drop => exact ⟨id, .start _⟩
  · obtain ⟨deaf, released⟩ := consistent.released before between whole
    exact stepped.released deaf released

private theorem Consistent.step
    (consistent : Consistent front ending events pipeline)
    (ends : ending.isEnd = true)
    (proper : ∀ token ∈ front, token.isEnd = false)
    (stepped : Step capacity pipeline event next) :
    Consistent front ending (events ++ [event]) next := by
  have released := consistent.released_step stepped
  have fed := consistent.not_starved
  have quiet := @Event.Silent.handedOut events event
  obtain ⟨recorded, ⟨rest, yields, whole⟩, _⟩ := consistent
  cases stepped with
  | move stepped =>
      refine ⟨recorded.silent trivial, ⟨rest, yields.move stepped, ?_⟩,
        released⟩
      rw [quiet trivial]
      exact whole
  | cut stepped =>
      refine ⟨recorded.silent trivial, ⟨rest, yields.cut stepped, ?_⟩,
        released⟩
      rw [quiet trivial]
      exact whole
  | accept listens room =>
      cases yields with
      | @sending token _ _ tokens later =>
          refine ⟨recorded.silent trivial, ⟨tokens, later, ?_⟩, released⟩
          intro listens opened
          rw [quiet trivial, ← whole listens opened]
          simp
  | refuse deaf =>
      refine ⟨recorded.silent trivial, ⟨[], .ended _, ?_⟩, released⟩
      intro listens
      exact absurd listens deaf
  | finish =>
      cases yields
      refine ⟨recorded.silent trivial, ⟨[], .gone, ?_⟩, released⟩
      rw [quiet trivial]
      exact whole
  | call request =>
      refine ⟨recorded.silent trivial, ⟨rest, yields, ?_⟩, released⟩
      rw [quiet trivial]
      exact whole
  | @answer request producer reader ready =>
      have filled : request.Receives reader → reader.upcoming ≠ [] := by
        intro receives empty
        rcases ready receives with filled | gone
        · exact filled empty
        · exact fed ⟨request, rfl, receives, empty, gone⟩
      obtain ⟨recordedThen, wholeThen⟩ :=
        recorded.performed ends proper (whole trivial) filled
      exact ⟨recordedThen, ⟨rest, yields, fun _ => wholeThen⟩, released⟩
  | @meet request token following scanner reader roomless empty receives =>
      cases yields with
      | @sending _ _ _ tokens later =>
          have split : reader.ended = none → handedOut events ++
              ([token] ++ tokens) = front ++ [ending] := by
            intro opened
            rw [← whole trivial opened, empty]
            rfl
          obtain ⟨recordedThen, wholeThen⟩ :=
            @Recorded.performed front ending events
              { reader with upcoming := [token] } request recorded ends
              proper tokens split fun _ => List.cons_ne_nil token []
          exact ⟨recordedThen, ⟨tokens, later, fun _ => wholeThen⟩,
            released⟩
  | drop =>
      refine ⟨recorded.silent trivial, ⟨rest, yields, ?_⟩, released⟩
      intro listens
      exact absurd listens id
  | join =>
      refine ⟨recorded.silent trivial, ⟨rest, yields, ?_⟩, released⟩
      intro listens
      exact absurd listens id

private theorem Run.consistent {source : String}
    (run : Run capacity source events pipeline)
    (whole : tokenize source = front ++ [ending]) (ends : ending.isEnd = true)
    (proper : ∀ token ∈ front, token.isEnd = false) :
    Consistent front ending events pipeline := by
  induction run with
  | start =>
      refine ⟨⟨fun _ => List.nil_prefix, ?_, ?_, ?_⟩,
        ⟨tokenize source, .starting .start source.toList, fun _ _ => whole⟩,
        ?_⟩
      · intro token ended
        cases ended
      · simp [Pipeline.start, Concluded]
      · intro before request answer after split
        simp at split
      · intro before after split
        simp at split
  | step before stepped inductionHypothesis =>
      exact inductionHypothesis.step ends proper stepped

/-- What holds behind any interleaving of the two threads.  The tokens of the
text are handed out in order, and behind them their last one, which is the end
of the input, again and again.  Behind a drop no token is taken, and at most
one is cut and at most one is refused. -/
structure Relays (capacity : Nat) (source : String)
    (events : List Event) (pipeline : Pipeline) : Prop where
  tokens : ∃ front ending, tokenize source = front ++ [ending] ∧
    ending.isEnd = true ∧ (∀ token ∈ front, token.isEnd = false) ∧
    handedOut events <+:
      front ++ List.replicate (handedOut events).length ending
  answers : AnswersInTurn events
  supplied : ¬ pipeline.Starved
  unblocked : ¬ (pipeline.ProducerBlocked capacity ∧
    pipeline.ConsumerBlocked capacity)
  proceeds : pipeline.ConsumerBlocked capacity →
    ∃ event after, Step capacity pipeline event after
  released : ∀ before after, events = before ++ .dropped :: after →
    .accepted ∉ after ∧ after.count .cut ≤ 1 ∧ after.count .refused ≤ 1

/-- Cutting and reading side by side hands out what cutting alone gives, in
every interleaving and with any room in the queue. -/
theorem Run.relays {source : String}
    (run : Run capacity source events pipeline) :
    pipeline.Relays capacity source events := by
  have tiles : Tiles [] source.toList (tokenize source) :=
    tokensFrom_tiles .start source.toList [] (Place.past_nil _).symm
  obtain ⟨front, line, whole, proper⟩ := tiles.ended
  have consistent := run.consistent whole rfl
    fun token member => (proper token member).1
  constructor
  · exact ⟨front, _, whole, rfl, fun token member => (proper token member).1,
      consistent.recorded.prefix_forever⟩
  · exact consistent.recorded.answers
  · exact consistent.not_starved
  · exact not_both_blocked capacity pipeline
  · intro blocked
    exact exists_step capacity blocked.1
  · intro before after split
    obtain ⟨_, accepted, cuts, sends⟩ :=
      consistent.released before after split
    exact ⟨accepted, by omega, by omega⟩

end

open IdentifierTables

/-- One number is read without any room in the queue. -/
theorem Run.relays_number :
    ∃ events pipeline, Run 0 "7" events pipeline ∧
      handedOut events = [⟨.integer, "7", 0, 1⟩, .endOfInput 1 1,
        .endOfInput 1 1] ∧
      pipeline.Relays 0 "7" events := by
  have begun : Run 0 "7" [] (.start "7") := .start
  have asked := begun.step (.call .token)
  have found := asked.step (.move rfl)
  have cut := found.step (.cut rfl)
  have met := cut.step (.meet rfl rfl ⟨rfl, fun same => by cases same⟩)
  have cutLast := met.step (.cut rfl)
  have askedItem := cutLast.step (.call .item)
  have metLast := askedItem.step (.meet rfl rfl ⟨rfl, fun _ => rfl⟩)
  have halted := (metLast.step (.call .item)).step
    (.answer fun receives => by cases receives.1)
  have repeated := (halted.step (.call .token)).step
    (.answer fun receives => by cases receives.1)
  have left := ((repeated.step .drop).step .finish).step .join
  exact ⟨_, _, left, rfl, left.relays⟩

end Pipeline

end ContractCompiler
