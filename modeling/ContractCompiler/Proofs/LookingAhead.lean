/-
Looking ahead without moving.

However a buffer splits its tokens between those that were drawn, the end of
the input that it remembers and those that its source still holds, they make
up one endless stream.  Looking ahead leaves that stream as it is, and
consuming a token takes one off its front.
-/

import ContractCompiler.Proofs.Tiling
import ContractCompiler.Token.Lookahead
import ContractCompiler.Token.Stream

namespace ContractCompiler

/-! ### The stream of a source -/

def TokenStream.token (stream : TokenStream) (index : Nat) : Token :=
  stream.upcoming[index]?.getD stream.ending

section

variable {σ : Type} [TokenSource σ]

/-- The token at an index of what a source gives: its tokens up to the first
end of the input, and then that end for ever. -/
def endless (source : σ) : Nat → Token
  | 0 => (TokenSource.next source).1
  | index + 1 =>
      if (TokenSource.next source).1.isEnd then
        (TokenSource.next source).1
      else
        endless (TokenSource.next source).2 index

private theorem endless_of_isEnd {source : σ}
    (ends : (TokenSource.next source).1.isEnd = true) (index : Nat) :
    endless source index = (TokenSource.next source).1 := by
  cases index with
  | zero => rfl
  | succ index => rw [endless, if_pos ends]

private theorem endless_of_proper {source : σ}
    (proper : (TokenSource.next source).1.isEnd = false) (index : Nat) :
    endless source (index + 1) =
      endless (TokenSource.next source).2 index := by
  rw [endless, proper, if_neg Bool.false_ne_true]

end

private theorem TokenStream.token_of_isEnd {first : Token}
    (ends : first.isEnd = true) (rest : List Token) (index : Nat) :
    (ofTokens (first :: rest)).token index = first := by
  simp [token, ofTokens, endingOf, ends]

private theorem TokenStream.token_zero_of_proper {first : Token}
    (proper : first.isEnd = false) (rest : List Token) :
    (ofTokens (first :: rest)).token 0 = first := by
  simp [token, ofTokens, proper]

private theorem TokenStream.token_succ_of_proper {first : Token}
    (proper : first.isEnd = false) (rest : List Token) (index : Nat) :
    (ofTokens (first :: rest)).token (index + 1) =
      (ofTokens rest).token index := by
  simp [token, ofTokens, endingOf, proper]

/-- What stands behind the first end of the input is no part of a stream. -/
theorem TokenStream.token_ofTokens (stream : TokenStream)
    (others : List Token) (index : Nat) :
    (ofTokens (stream.upcoming ++ stream.ending :: others)).token index =
      stream.token index := by
  have front : (stream.upcoming ++ stream.ending :: others).takeWhile
      (fun token => !token.isEnd) = stream.upcoming := by
    apply takeWhile_eq_of_head
    · intro token member
      simp [stream.upcoming_not_end token member]
    · intro token member
      cases member
      simp [stream.ending_isEnd]
  have ending : endingOf (stream.upcoming ++ stream.ending :: others) =
      stream.ending := by
    have proper : stream.upcoming.find? Token.isEnd = none := by
      rw [List.find?_eq_none]
      intro token member
      simp [stream.upcoming_not_end token member]
    simp [endingOf, List.find?_append, proper, stream.ending_isEnd]
  simp only [token, ofTokens, front, ending]

/-- A source gives the stream of some tokens when each draw takes the first of
them, as long as that is not the end of the input. -/
theorem endless_eq_token {σ : Type} [TokenSource σ]
    (holds : σ → List Token → Prop)
    (last : ∀ source, holds source [] →
      (TokenSource.next source).1 = Token.endOfInput 0 0)
    (more : ∀ source first rest, holds source (first :: rest) →
      (TokenSource.next source).1 = first ∧
        (first.isEnd = false → holds (TokenSource.next source).2 rest))
    {source : σ} {tokens : List Token} (held : holds source tokens)
    (index : Nat) :
    endless source index =
      (TokenStream.ofTokens tokens).token index := by
  induction tokens generalizing source index with
  | nil =>
      have made := last source held
      have ends : (TokenSource.next source).1.isEnd = true := by
        rw [made]
        rfl
      rw [endless_of_isEnd ends, made]
      rfl
  | cons first rest inductionHypothesis =>
      obtain ⟨drawn, behind⟩ := more source first rest held
      cases ends : first.isEnd with
      | true =>
          rw [endless_of_isEnd (drawn ▸ ends), drawn,
            TokenStream.token_of_isEnd ends]
      | false =>
          cases index with
          | zero =>
              rw [TokenStream.token_zero_of_proper ends, endless, drawn]
          | succ index =>
              rw [TokenStream.token_succ_of_proper ends,
                endless_of_proper (drawn ▸ ends),
                inductionHypothesis (behind ends)]

private theorem endless_list (tokens : List Token) (index : Nat) :
    endless tokens index = (TokenStream.ofTokens tokens).token index := by
  refine endless_eq_token Eq ?_ ?_ rfl index
  · intro source used
    subst used
    rfl
  · intro source first rest same
    subst same
    exact ⟨rfl, fun _ => rfl⟩

/-- A reader has some tokens to come, and an end of the input among them. -/
structure TokenReader.Holds (reader : TokenReader) (tokens : List Token) :
    Prop where
  opened : reader.ended = none
  upcoming : reader.upcoming = tokens
  closed : ∃ token ∈ tokens, token.isEnd = true

section

variable [IdentifierCharacters]

private theorem TokenReader.holds_tokenize (source : String) :
    (ofSource source).Holds (tokenize source) := by
  obtain ⟨proper, line, same, _⟩ :=
    (tokensFrom_tiles .start source.toList [] (Place.past_nil _).symm).ended
  refine ⟨rfl, rfl, Token.endOfInput (utf8Length source.toList) line, ?_,
    rfl⟩
  rw [tokenize, same]
  exact List.mem_append_right _ List.mem_cons_self

private theorem endless_reader (source : String) (index : Nat) :
    endless (TokenReader.ofSource source) index =
      (TokenStream.ofTokens (tokenize source)).token index := by
  refine endless_eq_token TokenReader.Holds ?_ ?_
    (TokenReader.holds_tokenize source) index
  · intro reader held
    obtain ⟨token, member, _⟩ := held.closed
    cases member
  · intro reader first rest held
    have drawn : TokenSource.next reader = reader.receive first rest := by
      change reader.next = _
      rw [TokenReader.next, held.opened, held.upcoming]
    rw [drawn]
    refine ⟨rfl, ?_⟩
    intro proper
    refine ⟨?_, rfl, ?_⟩
    · simp [TokenReader.receive, proper, held.opened]
    · obtain ⟨token, member, ends⟩ := held.closed
      rcases List.mem_cons.mp member with rfl | member
      · rw [proper] at ends
        cases ends
      · exact ⟨token, member, ends⟩

end

/-! ### The stream of a buffer -/

namespace Lookahead

variable {σ : Type} [TokenSource σ]

def undrawn (buffer : Lookahead σ) (index : Nat) : Token :=
  match buffer.ended with
  | some ending => ending
  | none => endless buffer.source index

def contents (buffer : Lookahead σ) (index : Nat) : Token :=
  buffer.drawn[index]?.getD (buffer.undrawn (index - buffer.drawn.length))

private theorem contents_ofSource (source : σ) :
    (ofSource source).contents = endless source := by
  funext index
  rfl

private theorem draw_drawn (buffer : Lookahead σ) :
    buffer.draw.2.drawn = buffer.drawn := by
  unfold draw
  split <;> rfl

private theorem draw_token (buffer : Lookahead σ) :
    buffer.draw.1 = buffer.undrawn 0 := by
  unfold draw undrawn
  cases buffer.ended <;> rfl

private theorem draw_undrawn (buffer : Lookahead σ) (index : Nat) :
    buffer.draw.2.undrawn index = buffer.undrawn (index + 1) := by
  unfold draw
  cases ended : buffer.ended with
  | some ending =>
      simp only [undrawn, ended]
  | none =>
      simp only [undrawn, ended]
      cases ends : (TokenSource.next buffer.source).1.isEnd with
      | true =>
          rw [endless_of_isEnd ends]
          rfl
      | false =>
          rw [endless_of_proper ends]
          rfl

/-- A token that is drawn moves from one part of the stream to the other. -/
theorem contents_keep (buffer : Lookahead σ) :
    contents { buffer.draw.2 with drawn := buffer.drawn ++ [buffer.draw.1] } =
      buffer.contents := by
  funext index
  unfold contents
  rcases Nat.lt_trichotomy index buffer.drawn.length with
    inside | edge | beyond
  · rw [List.getElem?_append_left inside,
      List.getElem?_eq_getElem inside, Option.getD_some, Option.getD_some]
  · subst edge
    rw [List.getElem?_append_right (Nat.le_refl _), Nat.sub_self,
      List.getElem?_eq_none (Nat.le_refl _)]
    exact buffer.draw_token
  · have outside : (buffer.drawn ++ [buffer.draw.1]).length ≤ index := by
      rw [List.length_append, List.length_singleton]
      omega
    rw [List.getElem?_eq_none outside,
      List.getElem?_eq_none (Nat.le_of_lt beyond), Option.getD_none,
      Option.getD_none]
    have step := buffer.draw_undrawn
      (index - (buffer.drawn ++ [buffer.draw.1]).length)
    have place : index - (buffer.drawn ++ [buffer.draw.1]).length + 1 =
        index - buffer.drawn.length := by
      rw [List.length_append, List.length_singleton]
      omega
    rw [place] at step
    exact step

private theorem contents_fill (count : Nat) (buffer : Lookahead σ) :
    (fill count buffer).contents = buffer.contents := by
  induction count generalizing buffer with
  | zero =>
      rfl
  | succ count inductionHypothesis =>
      rw [fill, inductionHypothesis, draw_drawn]
      exact contents_keep buffer

private theorem length_fill (count : Nat) (buffer : Lookahead σ) :
    (fill count buffer).drawn.length = buffer.drawn.length + count := by
  induction count generalizing buffer with
  | zero =>
      rfl
  | succ count inductionHypothesis =>
      rw [fill, inductionHypothesis, List.length_append, draw_drawn,
        List.length_singleton]
      omega

private theorem ahead_token (buffer : Lookahead σ) (distance : Nat) :
    (buffer.ahead distance).1 = buffer.contents distance := by
  have filled := length_fill (distance + 1 - buffer.drawn.length) buffer
  have inside : distance <
      (fill (distance + 1 - buffer.drawn.length) buffer).drawn.length := by
    omega
  rw [ahead, ← contents_fill (distance + 1 - buffer.drawn.length) buffer,
    contents, List.getD_eq_getElem?_getD,
    List.getElem?_eq_getElem inside, Option.getD_some, Option.getD_some]

private theorem contents_ahead (buffer : Lookahead σ) (distance : Nat) :
    (buffer.ahead distance).2.contents = buffer.contents :=
  contents_fill _ buffer

private theorem next_token (buffer : Lookahead σ) :
    buffer.next.1 = buffer.contents 0 := by
  unfold next contents
  cases buffer.drawn with
  | nil => exact buffer.draw_token
  | cons token rest => rfl

private theorem contents_next (buffer : Lookahead σ) (index : Nat) :
    buffer.next.2.contents index = buffer.contents (index + 1) := by
  unfold next
  cases drawn : buffer.drawn with
  | nil =>
      simp only [contents, draw_drawn, drawn, List.getElem?_nil,
        Option.getD_none, List.length_nil, Nat.sub_zero]
      exact buffer.draw_undrawn index
  | cons token rest =>
      simp only [contents, drawn, List.getElem?_cons_succ,
        List.length_cons, Nat.add_sub_add_right]
      rfl

/-! ### Any number of calls -/

inductive Call where
  | current
  | peek
  | ahead (distance : Nat)
  | next
  deriving DecidableEq

namespace Call

def perform (buffer : Lookahead σ) : Call → Token × Lookahead σ
  | .current => buffer.current
  | .peek => buffer.peek
  | .ahead distance => buffer.ahead distance
  | .next => buffer.next

def distance : Call → Nat
  | .current => 0
  | .peek => 1
  | .ahead distance => distance
  | .next => 0

end Call

def after (buffer : Lookahead σ) : List Call → Lookahead σ
  | [] => buffer
  | call :: rest => (call.perform buffer).2.after rest

private theorem perform_token (buffer : Lookahead σ) (call : Call) :
    (call.perform buffer).1 = buffer.contents call.distance := by
  cases call with
  | current => exact buffer.ahead_token 0
  | peek => exact buffer.ahead_token 1
  | ahead distance => exact buffer.ahead_token distance
  | next => exact buffer.next_token

private theorem contents_perform (buffer : Lookahead σ) (call : Call)
    (index : Nat) :
    (call.perform buffer).2.contents index =
      buffer.contents (index + [call].count .next) := by
  cases call with
  | current => rw [Call.perform, current, contents_ahead]; rfl
  | peek => rw [Call.perform, peek, contents_ahead]; rfl
  | ahead distance => rw [Call.perform, contents_ahead]; rfl
  | next => exact buffer.contents_next index

private theorem contents_after (buffer : Lookahead σ) (calls : List Call)
    (index : Nat) :
    (buffer.after calls).contents index =
      buffer.contents (index + calls.count .next) := by
  induction calls generalizing buffer with
  | nil =>
      rfl
  | cons call rest inductionHypothesis =>
      have counted : (call :: rest).count .next =
          [call].count .next + rest.count .next := by
        rw [← List.count_append]
        rfl
      rw [after, inductionHypothesis, contents_perform, counted,
        Nat.add_assoc, Nat.add_comm (rest.count .next)]

/-- The answer to a call depends on how many tokens were consumed before it
and on nothing else. -/
theorem answer_eq (source : σ) (calls : List Call) (call : Call) :
    (call.perform ((ofSource source).after calls)).1 =
      endless source (calls.count .next + call.distance) := by
  rw [perform_token, contents_after, contents_ofSource, Nat.add_comm]

variable [IdentifierCharacters]

/-- A buffer answers as a cursor over the endless stream of its source, which
for a list of tokens and for a source text is that of its tokens up to the
first end of the input.  Looking ahead changes no later answer, and neither
does what stands behind that end. -/
theorem answers_follow_stream :
    (∀ {σ : Type} [TokenSource σ] (source : σ) (calls : List Call)
        (call : Call),
        (call.perform ((ofSource source).after calls)).1 =
          endless source (calls.count .next + call.distance)) ∧
      (∀ (tokens : List Token) (index : Nat),
        endless tokens index =
          (TokenStream.ofTokens tokens).token index) ∧
      (∀ (source : String) (index : Nat),
        endless (TokenReader.ofSource source) index =
          (TokenStream.ofTokens (tokenize source)).token index) ∧
      (∀ {σ : Type} [TokenSource σ] (source : σ)
        (calls later : List Call) (look call : Call), look ≠ .next →
        (call.perform ((ofSource source).after
            (calls ++ look :: later))).1 =
          (call.perform ((ofSource source).after (calls ++ later))).1) ∧
      ∀ (tokens others : List Token) (calls : List Call) (call : Call),
        (call.perform ((ofSource
            ((TokenStream.ofTokens tokens).upcoming ++
              (TokenStream.ofTokens tokens).ending :: others)).after
                calls)).1 =
          (call.perform ((ofSource tokens).after calls)).1 := by
  refine ⟨answer_eq, endless_list, endless_reader, ?_, ?_⟩
  · intro σ _ source calls later look call looking
    have counted : (calls ++ look :: later).count .next =
        (calls ++ later).count .next := by
      rw [List.count_append, List.count_append,
        List.count_cons_of_ne looking]
    rw [answer_eq, answer_eq, counted]
  · intro tokens others calls call
    rw [answer_eq, answer_eq, endless_list, endless_list,
      TokenStream.token_ofTokens]

end Lookahead

end ContractCompiler
