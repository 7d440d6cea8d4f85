/-
Grapheme clusters: what a reader takes for one character.

A cluster is kept with its last character first.  Whether the next character
still belongs to it is decided by the characters at its end alone.
-/

import ContractCompiler.Text.Bytes
import ContractCompiler.Text.GraphemeClass

namespace ContractCompiler

/-- A part of a cluster, the last character first. -/
abbrev Cluster := List Char

namespace Cluster

/-- Whether a cluster ends in a pictograph, its marks and a joiner. -/
def endsJoined : Cluster → Bool
  | [] => false
  | last :: rest =>
      GraphemeClass.of last == .joiner &&
        (rest.dropWhile fun mark =>
          GraphemeClass.of mark == .extend).head?.any fun base =>
            GraphemeClass.of base == .pictographic

def isConjunctMark (character : Char) : Bool :=
  character != '\u200C' &&
    (GraphemeClass.of character == .extend ||
      GraphemeClass.of character == .joiner)

/-- Whether a cluster ends in a consonant and a mark that links it to the
next. -/
def endsLinked (cluster : Cluster) : Bool :=
  (cluster.takeWhile isConjunctMark).any conjunctLinkerTable.contains &&
    (cluster.dropWhile isConjunctMark).head?.any
      conjunctConsonantTable.contains

/-- Whether a cluster ends in an odd number of regional letters. -/
def endsUnpaired (cluster : Cluster) : Bool :=
  (cluster.takeWhile fun letter =>
    GraphemeClass.of letter == .regional).length % 2 == 1

def joins : GraphemeClass → GraphemeClass → Bool
  | .carriageReturn, .lineFeed => true
  | .carriageReturn, _ | .lineFeed, _ | .control, _ => false
  | _, .carriageReturn | _, .lineFeed | _, .control => false
  | _, .extend | _, .joiner | _, .spacingMark => true
  | .prepended, _ => true
  | .leadingConsonant, .leadingConsonant
  | .leadingConsonant, .vowel
  | .leadingConsonant, .openSyllable
  | .leadingConsonant, .closedSyllable => true
  | .openSyllable, .vowel | .openSyllable, .trailingConsonant => true
  | .vowel, .vowel | .vowel, .trailingConsonant => true
  | .closedSyllable, .trailingConsonant => true
  | .trailingConsonant, .trailingConsonant => true
  | _, _ => false

def continuesWith (cluster : Cluster) (next : Char) : Bool :=
  match cluster with
  | [] => true
  | last :: _ =>
      joins (GraphemeClass.of last) (GraphemeClass.of next) ||
        (conjunctConsonantTable.contains next && endsLinked cluster) ||
        (GraphemeClass.of next == .pictographic && endsJoined cluster) ||
        (GraphemeClass.of next == .regional && endsUnpaired cluster)

def clustersFrom (cluster : Cluster) : List Char → List Cluster
  | [] => if cluster.isEmpty then [] else [cluster]
  | next :: rest =>
      if continuesWith cluster next then clustersFrom (next :: cluster) rest
      else cluster :: clustersFrom [next] rest

end Cluster

def clusters (text : List Char) : List Cluster :=
  Cluster.clustersFrom [] text

/-! ### Backspaces -/

/-- The number of bytes that a backspace takes off for a cluster.  It is kept
in one byte, so a cluster of 256 bytes or more counts by its remainder. -/
def Cluster.erasedBytes (cluster : Cluster) : Nat :=
  utf8Length cluster % 256

/-- Takes bytes off the end of a text that is given with its last character
first.  A character of which a part is taken is taken whole. -/
def dropLastBytes : Nat → List Char → List Char
  | 0, text => text
  | _ + 1, [] => []
  | count + 1, last :: rest =>
      dropLastBytes (count + 1 - last.utf8Size) rest

/-- Carries out the backspaces among clusters, given the text kept so far,
its last character first, and what a backspace takes off for each cluster
before it. -/
def eraseFrom (kept : List Char) (sizes : List Nat) :
    List Cluster → List Char
  | [] => kept
  | cluster :: rest =>
      if cluster = ['\x08'] then
        eraseFrom (dropLastBytes (sizes.head?.getD 0) kept) sizes.tail rest
      else
        eraseFrom (cluster ++ kept) (cluster.erasedBytes :: sizes) rest

def eraseBackspaces (text : List Char) : List Char :=
  (eraseFrom [] [] (clusters text)).reverse

end ContractCompiler
