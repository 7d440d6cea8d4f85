/-
Values as words and as bytes.

On the stack a value is a list of words, in memory a list of bytes.  Writing
the words to memory and reading them back gives the same words, and the words
of a string literal are those of its bytes.
-/

import ContractCompiler.Code.Expression
import ContractCompiler.Proofs.Meaning

namespace ContractCompiler

/-! ### Packing bytes -/

theorem Word.bytes_ofBytes (first second third fourth : UInt8) :
    (ofBytes first second third fourth).bytes =
      [first, second, third, fourth] := by
  have firstBound := first.toNat_lt
  have secondBound := second.toNat_lt
  have thirdBound := third.toNat_lt
  have fourthBound := fourth.toNat_lt
  simp only [bytes, ofBytes, BitVec.toNat_ofNat, List.cons.injEq,
    and_true]
  refine ⟨?_, ?_, ?_, ?_⟩ <;>
    · apply UInt8.toNat_inj.mp
      rw [UInt8.toNat_ofNat']
      omega

theorem length_packed (size : Nat) (byteAt : Nat → UInt8) :
    (packed size byteAt).length = wordCount size := by
  rw [packed, List.length_map, List.length_range]

theorem packed_congr {size : Nat} {first second : Nat → UInt8}
    (same : ∀ index < size, first index = second index) :
    packed size first = packed size second := by
  have filledEq : filled size first = filled size second := by
    funext index
    unfold filled
    split
    next inside => exact same index inside
    next => rfl
  rw [packed, filledEq]
  rfl

private theorem flatMap_bytes_range (byteAt : Nat → UInt8) (count : Nat) :
    ((List.range count).map fun index =>
        wordFrom byteAt (4 * index)).flatMap Word.bytes =
      (List.range (4 * count)).map byteAt := by
  induction count with
  | zero =>
      rfl
  | succ count inductionHypothesis =>
      rw [List.range_succ, List.map_append, List.flatMap_append,
        inductionHypothesis, Nat.mul_succ]
      simp only [List.range_succ, List.map_append, List.append_assoc,
        List.map_cons, List.map_nil, List.flatMap_cons, List.flatMap_nil,
        wordFrom, Word.bytes_ofBytes, List.cons_append, List.nil_append,
        List.append_nil]

/-- The bytes of packed words are those that were packed. -/
theorem getD_bytes_packed {size index : Nat} (byteAt : Nat → UInt8)
    (inside : index < size) :
    ((packed size byteAt).flatMap Word.bytes).getD index 0 =
      byteAt index := by
  have enough : index < 4 * wordCount size := by
    unfold wordCount
    omega
  rw [packed, flatMap_bytes_range, List.getD_eq_getElem?_getD,
    List.getElem?_map, List.getElem?_range enough]
  exact if_pos inside

private theorem packed_of_le {size : Nat} (byteAt : Nat → UInt8)
    (small : size ≤ 4) :
    packed size byteAt = [wordFrom (filled size byteAt) 0] := by
  have count : wordCount size = 1 := by
    unfold wordCount
    omega
  rw [packed, count]
  rfl

/-- The words of a byte string hold its bytes. -/
theorem wordsOf_eq_packed (bytes : List UInt8) :
    wordsOf bytes =
      packed bytes.length fun index => bytes.getD index 0 := by
  fun_induction wordsOf bytes with
  | case1 first second third fourth next rest inductionHypothesis =>
      have count : wordCount (next :: rest).length.succ.succ.succ.succ =
          wordCount (next :: rest).length + 1 := by
        simp only [wordCount, List.length_cons]
        omega
      rw [inductionHypothesis, packed, packed]
      simp only [List.length_cons] at count ⊢
      rw [count, List.range_succ_eq_map, List.map_cons, List.map_map]
      congr 1
      refine List.map_congr_left ?_
      intro index _
      simp only [Function.comp_apply, wordFrom, filled, Nat.succ_eq_add_one]
      have shift : ∀ place,
          (if place < rest.length + 1 then
            (next :: rest).getD place 0 else 0) =
          if place + 4 < rest.length + 1 + 1 + 1 + 1 + 1 then
            (first :: second :: third :: fourth :: next :: rest).getD
              (place + 4) 0
          else 0 := by
        intro place
        congr 1
        simp only [eq_iff_iff]
        omega
      rw [shift, shift, shift, shift]
      simp only [Nat.mul_add, Nat.mul_one, Nat.add_right_comm _ 4]
  | case2 first second third fourth =>
      simp [packed_of_le, wordFrom, filled]
  | case3 first second third => simp [packed_of_le, wordFrom, filled]
  | case4 first second => simp [packed_of_le, wordFrom, filled]
  | case5 first => simp [packed_of_le, wordFrom, filled]
  | case6 => rfl

/-! ### Values in memory -/

namespace Value

def bytes : Value → List UInt8
  | number word => word.bytes
  | truth value => (Word.ofTruth value).bytes
  | text bytes => bytes

theorem packed_bytes_word (word : Word) :
    packed 4 (fun index => word.bytes.getD index 0) = [word] := by
  have read := CodeUnit.word_ofWord word
  rw [packed_of_le _ (Nat.le_refl 4)]
  exact congrArg List.singleton (Option.some.inj read)

/-- The words of a value are its bytes, packed. -/
theorem words_eq_packed (value : Value) :
    value.words =
      packed value.bytes.length fun index => value.bytes.getD index 0 := by
  cases value with
  | number word => exact (packed_bytes_word word).symm
  | truth value => exact (packed_bytes_word (.ofTruth value)).symm
  | text bytes => rfl

theorem length_words (value : Value) :
    value.words.length = wordCount value.bytes.length := by
  rw [words_eq_packed, length_packed]

end Value

namespace Memory

variable (memory : Memory) {offset size address : Nat} {words : List Word}

theorem store_below (below : address < offset) :
    memory.store offset size words address = memory address :=
  if_neg fun inside => absurd inside.1 (Nat.not_le_of_lt below)

/-- A value that was written to memory is found there. -/
theorem store_words (value : Value) {index : Nat}
    (inside : index < value.bytes.length) :
    memory.store offset value.bytes.length value.words (offset + index) =
      value.bytes.getD index 0 := by
  rw [store, if_pos ⟨Nat.le_add_right _ _, Nat.add_lt_add_left inside _⟩,
    Nat.add_sub_cancel_left, value.words_eq_packed,
    getD_bytes_packed _ inside]

end Memory

end ContractCompiler
