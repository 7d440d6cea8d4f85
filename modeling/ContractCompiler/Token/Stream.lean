/-
The endless stream of tokens that a contract is read from.

A stream is a finite list of tokens, none of them the end of the input,
followed by one end of the input for ever.  It counts how often the end was
consumed, so that nothing that is read goes unnoticed.
-/

import ContractCompiler.Token

namespace ContractCompiler

structure TokenStream where
  upcoming : List Token
  ending : Token
  overrun : Nat := 0
  upcoming_not_end : ∀ token ∈ upcoming, token.isEnd = false
  ending_isEnd : ending.isEnd = true

namespace TokenStream

/-- The first end of the input in a list of tokens, or one at position zero
of line zero. -/
def endingOf (tokens : List Token) : Token :=
  (tokens.find? Token.isEnd).getD (Token.endOfInput 0 0)

theorem endingOf_isEnd (tokens : List Token) :
    (endingOf tokens).isEnd = true := by
  unfold endingOf
  cases found : tokens.find? Token.isEnd with
  | none => rfl
  | some token => simpa using List.find?_some found

/-- The stream of a list of tokens: those before the first end of the input,
then that end for ever. -/
def ofTokens (tokens : List Token) : TokenStream where
  upcoming := tokens.takeWhile fun token => !token.isEnd
  ending := endingOf tokens
  upcoming_not_end token member := by
    have kept : (!token.isEnd) = true :=
      List.all_eq_true.mp List.all_takeWhile token member
    simpa using kept
  ending_isEnd := endingOf_isEnd tokens

def current (stream : TokenStream) : Token :=
  match stream.upcoming with
  | token :: _ => token
  | [] => stream.ending

def kind (stream : TokenStream) : TokenKind :=
  stream.current.kind

theorem current_kind (stream : TokenStream) :
    stream.current.kind = stream.kind :=
  rfl

def advance (stream : TokenStream) : TokenStream :=
  match shape : stream.upcoming with
  | _ :: rest =>
      { stream with
        upcoming := rest
        upcoming_not_end := fun token member =>
          stream.upcoming_not_end token
            (by rw [shape]; exact List.mem_cons_of_mem _ member) }
  | [] => { stream with overrun := stream.overrun + 1 }

def left (stream : TokenStream) : Nat :=
  stream.upcoming.length

theorem left_advance (stream : TokenStream) :
    stream.advance.left = stream.left - 1 := by
  unfold advance left
  split <;> simp_all

/-- A token that is not the end of the input leaves fewer tokens behind
it. -/
theorem left_advance_lt (stream : TokenStream)
    (inside : stream.current.isEnd = false) :
    stream.advance.left < stream.left := by
  have nonempty : stream.left ≠ 0 := by
    intro empty
    have none_left : stream.upcoming = [] := List.length_eq_zero_iff.mp empty
    have at_end : stream.current = stream.ending := by
      simp [current, none_left]
    rw [at_end, stream.ending_isEnd] at inside
    contradiction
  rw [left_advance]
  omega

theorem current_eq_headD (stream : TokenStream) :
    stream.current = stream.upcoming.headD stream.ending := by
  unfold current
  cases stream.upcoming <;> rfl

theorem upcoming_advance (stream : TokenStream) :
    stream.advance.upcoming = stream.upcoming.tail := by
  unfold advance
  split
  · rename_i shape
    simp only [shape, List.tail_cons]
  · rename_i shape
    simp only [shape, List.tail_nil]

theorem ending_advance (stream : TokenStream) :
    stream.advance.ending = stream.ending := by
  unfold advance
  split <;> rfl

/-- A stream inside the input starts with its current token. -/
theorem upcoming_eq_cons {stream : TokenStream}
    (inside : stream.current.isEnd = false) :
    stream.upcoming = stream.current :: stream.advance.upcoming := by
  rw [upcoming_advance]
  cases shape : stream.upcoming with
  | nil =>
      simp only [current, shape, stream.ending_isEnd, Bool.true_eq_false]
        at inside
  | cons token others =>
      simp only [current, shape, List.tail_cons]

theorem upcoming_eq_nil {stream : TokenStream}
    (ends : stream.kind = .endOfInput) : stream.upcoming = [] := by
  cases shape : stream.upcoming with
  | nil =>
      rfl
  | cons token others =>
      have inside := stream.upcoming_not_end token (by simp [shape])
      simp only [TokenStream.kind, current, shape] at ends
      simp only [Token.isEnd, ends, beq_self_eq_true,
        Bool.true_eq_false] at inside

end TokenStream

end ContractCompiler
