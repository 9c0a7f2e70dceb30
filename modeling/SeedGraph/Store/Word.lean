import SeedGraph.Store

/-!
# Identifiers as words

An identifier is held in a signed word of 32 bits, and the position of a seed in its list in an
unsigned word of 64 bits.  This module addresses the seeds of a store by such words: reading a seed,
changing a seed and listing all seeds, each of which finds its own way from words to positions.

A conversion to fewer bits drops the others, and sums and differences wrap around.  The store of a
session has unbounded indices instead; that both come to the same as long as fewer than `2 ^ 31`
seeds stand on either side of zero is proved, not assumed.

## Main definitions

* `Store.lowerWord`, `Store.upperWord`: the ends of the index space.
* `Store.readWord?`, `Store.modifyWord?`, `Store.listedWords`: access by words.
* `Store.overflowsAt`: does the addition that lists a seed leave the range of a word?
* `Store.givenWord`: the word that a pre-existing seed gets.
-/

namespace SeedGraph

namespace Store

variable {κ α : Type}

/-- The least stored word: minus the number of pre-existing seeds. -/
def lowerWord (store : Store κ) : Int32 :=
  -Int32.ofNat store.older.length

/-- The word of the seed that would be registered next. -/
def upperWord (store : Store κ) : Int32 :=
  Int32.ofNat store.newer.length

/-- The word of the pre-existing seed at position `k` of `count`. -/
def givenWord (count k : Nat) : Int32 :=
  Int32.ofNat k - Int32.ofNat count

/-- The position for which an offset stands, unless it is negative. -/
def position? (offset : Int64) : Option Nat :=
  if 0 ≤ offset then some offset.toUInt64.toNat else none

/-- The seed stored under a word.  A negative word is added to the number of pre-existing seeds,
with 64 bits. -/
def readWord? (store : Store κ) (word : Int32) : Option (Seed κ) :=
  if 0 ≤ word then
    store.newer[word.toInt64.toUInt64.toNat]?
  else
    (position? (Int64.ofNat store.older.length + word.toInt64)).bind fun k => store.older[k]?

/-- Change the element at a position, if there is one. -/
def modifyAt? (items : List α) (k : Nat) (change : α → α) : Option (List α) :=
  if k < items.length then some (items.modify k change) else none

/-- Change the seed stored under a word, if there is one. -/
def modifyWord? (store : Store κ) (word : Int32) (change : Seed κ → Seed κ) : Option (Store κ) :=
  if 0 ≤ word then
    (modifyAt? store.newer word.toInt64.toUInt64.toNat change).map fun newer =>
      { store with newer }
  else
    match position? (Int64.ofNat store.older.length + word.toInt64) with
    | some k => (modifyAt? store.older k change).map fun older => { store with older }
    | none => none

/-- All seeds with their words, the pre-existing ones first: the words count up from `lowerWord`. -/
def listedWords (store : Store κ) : List (Int32 × Seed κ) :=
  (store.older ++ store.newer).zipIdx.map fun (seed, k) =>
    (store.lowerWord + Int32.ofNat k, seed)

/-- Does the addition that lists the seed at position `k` leave the range of a word? -/
def overflowsAt (store : Store κ) (k : Nat) : Bool :=
  store.lowerWord.toBitVec.saddOverflow (Int32.ofNat k).toBitVec

end Store

end SeedGraph
