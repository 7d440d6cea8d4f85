/-
Cutting tokens and reading them side by side.

One thread runs the scanner and sends each token into a queue that holds at
most a number of tokens; another one asks a reader whose upcoming tokens are
that queue.  Without room in the queue a token is handed over only while the
reader waits for one.  The reader may go away between two questions; a token is
refused from then on, which ends the scanner, and the reader waits for that.
-/

import ContractCompiler.Proofs.Scanning
import ContractCompiler.Proofs.Tiling
import ContractCompiler.Token.Reader

namespace ContractCompiler

/-! ### Two threads and a queue -/

/-- The thread that cuts tokens: between two steps of the scanner, holding a
token that it sends before it goes on, or at its end. -/
inductive Producer where
  | scanning (mode : Option Scanner.Mode) (scanner : Scanner)
  | sending (token : Token) (next : Option Scanner.Mode) (scanner : Scanner)
  | gone

inductive Request where
  | token
  | item
  deriving DecidableEq

def Request.perform (reader : TokenReader) :
    Request → Option Token × TokenReader
  | .token => (some reader.next.1, reader.next.2)
  | .item => reader.item

def Request.Receives (reader : TokenReader) (request : Request) : Prop :=
  reader.ended = none ∧ (request = .item → reader.stopped = false)

/-- The thread that reads: between two requests, in one, behind the drop of
the queue and waiting for the other thread, or at its end. -/
inductive Consumer where
  | idle
  | calling (request : Request)
  | leaving
  | gone
  deriving DecidableEq

def Consumer.Listens : Consumer → Prop
  | .idle => True
  | .calling _ => True
  | .leaving => False
  | .gone => False

structure Pipeline where
  producer : Producer
  reader : TokenReader
  consumer : Consumer

inductive Event where
  | moved
  | cut
  | accepted
  | refused
  | finished
  | called (request : Request)
  | answered (request : Request) (answer : Option Token)
  | dropped
  | joined
  deriving DecidableEq

namespace Pipeline

def start (source : String) : Pipeline :=
  ⟨.scanning (some .start) (.ofText source.toList), { upcoming := [] },
    .idle⟩

variable [IdentifierCharacters]

inductive Step (capacity : Nat) : Pipeline → Event → Pipeline → Prop where
  | move {mode : Scanner.Mode} {next : Option Scanner.Mode}
      {scanner behind : Scanner} {reader : TokenReader}
      {consumer : Consumer}
      (stepped : scanner.step mode = ⟨none, next, behind⟩) :
      Step capacity ⟨.scanning (some mode) scanner, reader, consumer⟩
        .moved ⟨.scanning next behind, reader, consumer⟩
  | cut {mode : Scanner.Mode} {token : Token}
      {next : Option Scanner.Mode} {scanner behind : Scanner}
      {reader : TokenReader} {consumer : Consumer}
      (stepped : scanner.step mode = ⟨some token, next, behind⟩) :
      Step capacity ⟨.scanning (some mode) scanner, reader, consumer⟩
        .cut ⟨.sending token next behind, reader, consumer⟩
  | accept {token : Token} {next : Option Scanner.Mode}
      {scanner : Scanner} {reader : TokenReader} {consumer : Consumer}
      (listens : consumer.Listens)
      (room : reader.upcoming.length < capacity) :
      Step capacity ⟨.sending token next scanner, reader, consumer⟩
        .accepted
        ⟨.scanning next scanner,
          { reader with upcoming := reader.upcoming ++ [token] }, consumer⟩
  | refuse {token : Token} {next : Option Scanner.Mode}
      {scanner : Scanner} {reader : TokenReader} {consumer : Consumer}
      (deaf : ¬ consumer.Listens) :
      Step capacity ⟨.sending token next scanner, reader, consumer⟩
        .refused ⟨.scanning none scanner, reader, consumer⟩
  | finish {scanner : Scanner} {reader : TokenReader}
      {consumer : Consumer} :
      Step capacity ⟨.scanning none scanner, reader, consumer⟩
        .finished ⟨.gone, reader, consumer⟩
  | call (request : Request) {producer : Producer} {reader : TokenReader} :
      Step capacity ⟨producer, reader, .idle⟩ (.called request)
        ⟨producer, reader, .calling request⟩
  | answer {request : Request} {producer : Producer}
      {reader : TokenReader}
      (ready : request.Receives reader →
        reader.upcoming ≠ [] ∨ producer = .gone) :
      Step capacity ⟨producer, reader, .calling request⟩
        (.answered request (request.perform reader).1)
        ⟨producer, (request.perform reader).2, .idle⟩
  | meet {request : Request} {token : Token}
      {next : Option Scanner.Mode} {scanner : Scanner}
      {reader : TokenReader} (roomless : capacity = 0)
      (empty : reader.upcoming = [])
      (receives : request.Receives reader) :
      Step capacity
        ⟨.sending token next scanner, reader, .calling request⟩
        (.answered request
          (request.perform { reader with upcoming := [token] }).1)
        ⟨.scanning next scanner,
          (request.perform { reader with upcoming := [token] }).2, .idle⟩
  | drop {producer : Producer} {reader : TokenReader} :
      Step capacity ⟨producer, reader, .idle⟩ .dropped
        ⟨producer, reader, .leaving⟩
  | join {reader : TokenReader} :
      Step capacity ⟨.gone, reader, .leaving⟩ .joined
        ⟨.gone, reader, .gone⟩

inductive Run (capacity : Nat) (source : String) :
    List Event → Pipeline → Prop where
  | start : Run capacity source [] (.start source)
  | step {events : List Event} {event : Event}
      {pipeline next : Pipeline} (before : Run capacity source events pipeline)
      (stepped : Step capacity pipeline event next) :
      Run capacity source (events ++ [event]) next

/-! ### Waiting -/

/-- A token is held, and nothing that can happen next takes it. -/
def ProducerBlocked (capacity : Nat) (pipeline : Pipeline) : Prop :=
  (∃ token next scanner,
    pipeline.producer = .sending token next scanner) ∧
  ∀ event after, Step capacity pipeline event after →
    after.producer = pipeline.producer

/-- A request is open, or the end of the other thread is awaited, and nothing
that can happen next ends that. -/
def ConsumerBlocked (capacity : Nat) (pipeline : Pipeline) : Prop :=
  ((∃ request, pipeline.consumer = .calling request) ∨
    pipeline.consumer = .leaving) ∧
  ∀ event after, Step capacity pipeline event after →
    after.consumer = pipeline.consumer

/-- A token is waited for that never comes, so that the reader makes up an
end of the input. -/
def Starved (pipeline : Pipeline) : Prop :=
  ∃ request, pipeline.consumer = .calling request ∧
    request.Receives pipeline.reader ∧ pipeline.reader.upcoming = [] ∧
    pipeline.producer = .gone

/-- A thread that waits does so only while something can happen. -/
theorem exists_step (capacity : Nat) {pipeline : Pipeline}
    (waiting : (∃ request, pipeline.consumer = .calling request) ∨
      pipeline.consumer = .leaving) :
    ∃ event after, Step capacity pipeline event after := by
  obtain ⟨producer, reader, consumer⟩ := pipeline
  cases producer with
  | scanning next scanner =>
      cases next with
      | none => exact ⟨_, _, .finish⟩
      | some mode =>
          cases stepped : scanner.step mode with
          | mk token following behind =>
              cases token with
              | none => exact ⟨_, _, .move stepped⟩
              | some token => exact ⟨_, _, .cut stepped⟩
  | sending token next scanner =>
      rcases waiting with ⟨request, rfl⟩ | rfl
      · by_cases ready : request.Receives reader → reader.upcoming ≠ []
        · exact ⟨_, _, .answer fun receives => Or.inl (ready receives)⟩
        · obtain ⟨receives, filled⟩ := Classical.not_imp.mp ready
          have empty : reader.upcoming = [] := Classical.not_not.mp filled
          by_cases roomless : capacity = 0
          · exact ⟨_, _, .meet roomless empty receives⟩
          · have room : reader.upcoming.length < capacity := by
              rw [empty]
              exact Nat.pos_of_ne_zero roomless
            exact ⟨_, _, .accept trivial room⟩
      · exact ⟨_, _, .refuse id⟩
  | gone =>
      rcases waiting with ⟨request, rfl⟩ | rfl
      · exact ⟨_, _, .answer fun _ => Or.inr rfl⟩
      · exact ⟨_, _, .join⟩

/-- A token that is held while the other thread waits is taken, or the other
thread goes on. -/
theorem not_both_blocked (capacity : Nat) (pipeline : Pipeline) :
    ¬ (pipeline.ProducerBlocked capacity ∧
      pipeline.ConsumerBlocked capacity) := by
  intro blocked
  obtain ⟨⟨⟨token, next, scanner, holding⟩, producerStays⟩, waiting,
    consumerStays⟩ := blocked
  obtain ⟨event, after, stepped⟩ := exists_step capacity waiting
  have sameProducer := producerStays event after stepped
  have sameConsumer := consumerStays event after stepped
  rw [holding] at sameProducer
  cases stepped with
  | move stepped => cases holding
  | cut stepped => cases holding
  | accept listens room => cases sameProducer
  | refuse deaf => cases sameProducer
  | finish => cases holding
  | call request => cases sameConsumer
  | answer ready => cases sameConsumer
  | meet roomless empty receives => cases sameConsumer
  | drop => cases sameConsumer
  | join => cases holding

end Pipeline

end ContractCompiler
