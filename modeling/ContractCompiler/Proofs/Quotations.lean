/-
What becomes of a string in quotes.

A value is written between quotes in many ways.  Whichever is chosen, it is cut
off as one token, read as the value, and pushed as words that hold the bytes of
the value.  All strings in a source text are of this form, so taking off their
quotes and resolving their escapes never meets a missing quote or a backslash
that stands in front of nothing.
-/

import ContractCompiler.Proofs.LongestMatch
import ContractCompiler.Proofs.OperatorBinding
import ContractCompiler.Proofs.Values
import ContractCompiler.Text.Identifier

namespace ContractCompiler

namespace Quotation

/-- A text between quotes denotes a value.  Characters stand for themselves,
on their own or behind a backslash, unless the one or the other means something
else. -/
inductive Denotes : List Char → List Char → Prop where
  | nil : Denotes [] []
  | plain {character : Char} {text value : List Char}
      (noQuote : character ≠ '"') (noEscape : character ≠ '\\')
      (others : Denotes text value) :
      Denotes (character :: text) (character :: value)
  | escaped {character : Char} {text value : List Char}
      (free : character ∉ ['n', 't', 'r', '0'])
      (others : Denotes text value) :
      Denotes ('\\' :: character :: text) (character :: value)
  | lineFeed {text value : List Char} (others : Denotes text value) :
      Denotes ('\\' :: 'n' :: text) ('\n' :: value)
  | tabulator {text value : List Char} (others : Denotes text value) :
      Denotes ('\\' :: 't' :: text) ('\t' :: value)
  | carriageReturn {text value : List Char} (others : Denotes text value) :
      Denotes ('\\' :: 'r' :: text) ('\r' :: value)
  | null {text value : List Char} (others : Denotes text value) :
      Denotes ('\\' :: '0' :: text) ('\x00' :: value)

/-- Whether resolving escapes ends at a backslash with nothing behind it. -/
def trails : List Char → Bool
  | [] => false
  | '\\' :: [] => true
  | '\\' :: _ :: rest => trails rest
  | _ :: rest => trails rest

/-! ### Texts between quotes -/

section Between

variable {text value : List Char}

private theorem Denotes.quotable (denotes : Denotes text value) :
    Lexeme.Quotable text := by
  induction denotes with
  | nil => exact .nil
  | plain noQuote noEscape _ inductionHypothesis =>
      exact .plain noQuote noEscape inductionHypothesis
  | _ => exact .escaped (by assumption)

private theorem escaped_of_free {character : Char}
    (free : character ∉ ['n', 't', 'r', '0']) :
    escaped character = character := by
  simp only [List.mem_cons, List.not_mem_nil, or_false, not_or] at free
  rcases free with ⟨noFeed, noTabulator, noReturn, noNull⟩
  unfold escaped
  split <;> first | rfl | contradiction

private theorem resolve_plain {character : Char} (noEscape : character ≠ '\\')
    (rest : List Char) :
    resolve (character :: rest) = character :: resolve rest := by
  rw [resolve]
  · exact fun escape => absurd escape noEscape
  · exact fun _ _ escape => absurd escape noEscape

private theorem Denotes.resolve_eq (denotes : Denotes text value) :
    resolve text = value := by
  induction denotes with
  | nil =>
      rfl
  | plain _ noEscape _ inductionHypothesis =>
      rw [resolve_plain noEscape, inductionHypothesis]
  | escaped free _ inductionHypothesis =>
      rw [resolve, escaped_of_free free, inductionHypothesis]
  | lineFeed _ inductionHypothesis =>
      rw [resolve, inductionHypothesis]
      rfl
  | tabulator _ inductionHypothesis =>
      rw [resolve, inductionHypothesis]
      rfl
  | carriageReturn _ inductionHypothesis =>
      rw [resolve, inductionHypothesis]
      rfl
  | null _ inductionHypothesis =>
      rw [resolve, inductionHypothesis]
      rfl

private theorem denotes_escaped (character : Char)
    (others : Denotes text value) :
    Denotes ('\\' :: character :: text) (escaped character :: value) := by
  by_cases free : character ∈ ['n', 't', 'r', '0']
  · simp only [List.mem_cons, List.not_mem_nil, or_false] at free
    rcases free with rfl | rfl | rfl | rfl
    · exact .lineFeed others
    · exact .tabulator others
    · exact .carriageReturn others
    · exact .null others
  · rw [escaped_of_free free]
    exact .escaped free others

/-- What can stand between quotes denotes what it is resolved to. -/
theorem denotes_resolve (quotable : Lexeme.Quotable text) :
    Denotes text (resolve text) := by
  induction quotable with
  | nil =>
      exact .nil
  | plain noQuote noEscape _ inductionHypothesis =>
      rw [resolve_plain noEscape]
      exact .plain noQuote noEscape inductionHypothesis
  | escaped _ inductionHypothesis =>
      rw [resolve]
      exact denotes_escaped _ inductionHypothesis

private theorem not_trails (quotable : Lexeme.Quotable text) :
    trails text = false := by
  induction quotable with
  | nil =>
      rfl
  | plain _ noEscape _ inductionHypothesis =>
      rw [trails, inductionHypothesis]
      · exact fun escape => absurd escape noEscape
      · exact fun _ _ escape => absurd escape noEscape
  | escaped _ inductionHypothesis =>
      rw [trails, inductionHypothesis]

private theorem body_quoted (text : List Char) :
    body ('"' :: (text ++ ['"'])) = text := by
  simp [body]

end Between

/-! ### Cutting and reading -/

def quote (text : List Char) : String :=
  String.ofList ('"' :: (text ++ ['"']))

variable [IdentifierCharacters]

private theorem tokenize_quote {text : List Char}
    (quotable : Lexeme.Quotable text) :
    ∃ line, tokenize (quote text) =
      [⟨.text, quote text, 0, 1⟩,
        Token.endOfInput (quote text).utf8ByteSize line] := by
  have closed : Lexeme.stringTail (text ++ ['"']) =
      some (text ++ ['"']) :=
    Lexeme.stringTail_eq_some_iff.mpr
      ⟨List.prefix_rfl, text, quotable, rfl⟩
  have read : Lexeme.read '"' (text ++ ['"']) =
      ⟨.text, '"' :: (text ++ ['"'])⟩ := by
    rw [Lexeme.read, if_neg (by decide), if_pos (by decide), Lexeme.quoted,
      closed]
  have first : ('"' :: (text ++ ['"'])).dropWhile isBlank =
      '"' :: (text ++ ['"']) :=
    List.dropWhile_cons_of_neg (by decide)
  have blanks : ('"' :: (text ++ ['"'])).takeWhile isBlank = [] :=
    List.takeWhile_cons_of_neg (by decide)
  have behind : Lexeme.behind ⟨.text, '"' :: (text ++ ['"'])⟩
      ('"' :: (text ++ ['"'])) = [] :=
    List.drop_length
  refine ⟨1 + ('"' :: (text ++ ['"'])).count '\n', ?_⟩
  rw [tokenize, quote, String.toList_ofList, tokensFrom_of_found first, read,
    blanks, Place.past_nil, behind, tokensFrom_of_used rfl,
    ← utf8Length_toList, String.toList_ofList]
  simp [Place.past, Place.start, Lexeme.token]

private theorem readsAs_quote {text value : List Char}
    (denotes : Denotes text value) (power : Nat) :
    (TokenStream.ofTokens (tokenize (quote text))).ReadsAs power
      [⟨.text, quote text, 0, 1⟩] (.text (String.ofList value)) := by
  rcases tokenize_quote denotes.quotable with ⟨line, cut⟩
  have read : Quotation.value (quote text) = String.ofList value := by
    rw [Quotation.value, quote, String.toList_ofList, body_quoted,
      denotes.resolve_eq]
  have derived : Derives 7 [⟨.text, quote text, 0, 1⟩]
      (.text (String.ofList value)) := by
    rw [← read]
    exact ⟨.primary ⟨.text, quote text, 0, 1⟩ _ (.text rfl), rfl, rfl⟩
  rw [TokenStream.readsAs_iff, TokenStream.stopsBehind_iff, cut]
  refine ⟨derived.looser ?_ ?_, ?_⟩
  · unfold levelAbove
    omega
  · unfold levelAbove
    omega
  · have upcoming : (TokenStream.ofTokens [⟨.text, quote text, 0, 1⟩,
        Token.endOfInput (quote text).utf8ByteSize line]).upcoming =
          [⟨.text, quote text, 0, 1⟩] ++ [] := rfl
    rcases TokenStream.consumes_of_upcoming upcoming with
      ⟨rest, consumed, used⟩
    refine ⟨rest, consumed, ?_⟩
    rw [TokenStream.kind_eq_endOfInput used]
    exact Nat.zero_le power

end Quotation

/-! ### Words -/

/-- The zeros behind some bytes that fill up the last word.  There is a word
even if there are no bytes. -/
def padding (size : Nat) : Nat :=
  if size = 0 then 4 else (4 - size % 4) % 4

private theorem length_wordsOf (bytes : List UInt8) :
    (wordsOf bytes).length = stackWords bytes.length := by
  fun_induction wordsOf bytes with
  | case1 first second third fourth next rest inductionHypothesis =>
      rw [List.length_cons, inductionHypothesis]
      simp only [stackWords, wordSize, List.length_cons]
      omega
  | _ => simp [stackWords, wordSize]

/-- The words of some bytes hold these bytes, filled up with zeros. -/
theorem flatMap_wordsOf (bytes : List UInt8) :
    (wordsOf bytes).flatMap Word.bytes =
      bytes ++ List.replicate (padding bytes.length) 0 := by
  fun_induction wordsOf bytes with
  | case1 first second third fourth next rest inductionHypothesis =>
      have same : padding (first :: second :: third :: fourth ::
          next :: rest).length = padding (next :: rest).length := by
        simp only [padding, List.length_cons, Nat.succ_ne_zero, if_false]
        omega
      rw [List.flatMap_cons, inductionHypothesis, Word.bytes_ofBytes, same]
      rfl
  | _ =>
      rw [List.flatMap_singleton, Word.bytes_ofBytes]
      simp [padding]

/-! ### Strings from source text to code -/

section

variable [IdentifierCharacters]

/-- What becomes of a literal that denotes a value: one token, an expression,
and pushes of the bytes of the value. -/
structure Quotation.Survives (literal value : String) : Prop where
  cut : ∃ line, tokenize literal =
    [⟨.text, literal, 0, 1⟩, Token.endOfInput literal.utf8ByteSize line]
  read : ∀ power, (TokenStream.ofTokens (tokenize literal)).ReadsAs power
    [⟨.text, literal, 0, 1⟩] (.text value)
  coded : ∀ environment, ∃ words : List Word,
    (Expression.text value).code environment =
      .ok (words.map Instruction.push) ∧
    words.length = stackWords value.utf8ByteSize ∧
    words.flatMap Word.bytes = utf8Bytes value.toList ++
      List.replicate (padding value.utf8ByteSize) 0

private theorem Quotation.Denotes.survives {text : List Char} {value : String}
    (denotes : Denotes text value.toList) :
    Survives (quote text) value := by
  have size : (utf8Bytes value.toList).length = value.utf8ByteSize := by
    rw [length_utf8Bytes, utf8Length_toList]
  refine ⟨tokenize_quote denotes.quotable, fun power => ?_,
    fun environment => ⟨_, rfl, ?_, ?_⟩⟩
  · have read := readsAs_quote denotes power
    rw [String.ofList_toList] at read
    exact read
  · rw [length_wordsOf, size]
  · rw [flatMap_wordsOf, size]

private theorem Lexeme.Legal.exists_quotable {text : List Char}
    (legal : Legal .text text) :
    ∃ inner, text = '"' :: (inner ++ ['"']) ∧ Quotable inner := by
  cases legal with
  | keyword reserved => exact absurd reserved (by decide)
  | string quotable => exact ⟨_, rfl, quotable⟩
  | mark listed => exact absurd listed (by decide)

/-- A string token stands between quotes. -/
theorem quotable_of_text {source : String} {token : Token}
    (member : token ∈ tokenize source) (string : token.kind = .text) :
    ∃ inner, token.literal.toList = '"' :: (inner ++ ['"']) ∧
      Lexeme.Quotable inner := by
  have proper : token.isEnd = false := by
    rw [Token.isEnd, string]
    rfl
  rcases exists_read_of_mem member proper with
    ⟨before, first, rest, _, rfl⟩
  have kind : (Lexeme.read first rest).kind = .text := string
  have shown : (Lexeme.read first rest).kind ≠ .illegal := by
    rw [kind]
    decide
  have legal := ((Lexeme.read_isLongest first rest).legal shown).1
  rw [kind] at legal
  rw [Lexeme.token, String.toList_ofList]
  exact legal.exists_quotable

/-- Whatever way a value is written between quotes, it is cut off as one token,
read as that value and pushed as its bytes.  Every string token has its quotes,
and no backslash is left over in it. -/
theorem quotations_survive :
    (∀ text value, Quotation.Denotes text (String.toList value) →
      Quotation.Survives (Quotation.quote text) value) ∧
    ∀ source, ∀ token ∈ tokenize source, token.kind = .text →
      ∃ inner, token.literal.toList = '"' :: (inner ++ ['"']) ∧
        Quotation.body token.literal.toList = inner ∧
        Quotation.trails inner = false ∧
        Quotation.Denotes inner (Quotation.value token.literal).toList := by
  refine ⟨fun text value denotes => denotes.survives, ?_⟩
  intro source token member string
  rcases quotable_of_text member string with ⟨inner, spelled, quotable⟩
  refine ⟨inner, spelled, ?_, Quotation.not_trails quotable, ?_⟩
  · rw [spelled, Quotation.body_quoted]
  · rw [Quotation.value, String.toList_ofList, spelled,
      Quotation.body_quoted]
    exact Quotation.denotes_resolve quotable

end

open IdentifierTables

/-- The quote behind a backslash does not close the string, and the next one
does. -/
theorem quotations_survive_escaped_quote :
    Quotation.Survives "\"a\\\"\"" "a\"" ∧
      ∃ inner, "\"a\\\"\"".toList = '"' :: (inner ++ ['"']) ∧
        Quotation.body "\"a\\\"\"".toList = inner ∧
        Quotation.trails inner = false ∧
        Quotation.Denotes inner
          (Quotation.value "\"a\\\"\"").toList := by
  have denotes : Quotation.Denotes ['a', '\\', '"'] "a\"".toList :=
    .plain (by decide) (by decide) (.escaped (by decide) .nil)
  have member : (⟨.text, "\"a\\\"\"", 0, 1⟩ : Token) ∈
      tokenize "\"a\\\"\" b" := by
    have cut : tokenize "\"a\\\"\" b" =
        [⟨.text, "\"a\\\"\"", 0, 1⟩, ⟨.identifier, "b", 6, 1⟩,
          Token.endOfInput 7 1] := by
      decide +kernel
    rw [cut]
    exact List.mem_cons_self
  exact ⟨quotations_survive.1 _ _ denotes,
    quotations_survive.2 _ _ member rfl⟩

end ContractCompiler
