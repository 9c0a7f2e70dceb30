import Mathlib.Algebra.Group.Int.Defs
import Mathlib.Algebra.Group.Nat.Defs
import SeedGraph.Proofs.Referents
import SeedGraph.Store.Word

/-!
# Words and indices

The seeds of a store are read, changed and listed by words in three different ways.  `WordsAgree`
says that all of them do what the store does with unbounded indices, and `wordsAgree` that this is
so as long as fewer than `2 ^ 31` seeds stand on either side of zero.

Listing is the one place where words do wrap around.  The position of a seed is counted from the
first pre-existing one, so it need not fit into a word although the identifier does: this happens at
the positions from `2 ^ 31` on (`overflowsAt_iff`).  Two errors of `2 ^ 32` then cancel, and the
word that is listed is the right one all the same.
-/

namespace SeedGraph

namespace Store

variable {κ : Type} {store : Store κ}

/-! ### The ends of the index space -/

theorem lowerWord_eq (store : Store κ) : store.lowerWord = Int32.ofInt store.lower :=
  Int32.neg_ofNat

theorem toInt_lowerWord (few : store.preexisting < 2 ^ 31) :
    store.lowerWord.toInt = store.lower := by
  have hlower := store.lower_eq_preexisting
  rw [lowerWord_eq, Int32.toInt_ofInt_of_le (by omega) (by omega)]

theorem toInt_upperWord (many : store.registered < 2 ^ 31) :
    store.upperWord.toInt = store.upper :=
  Int32.toInt_ofNat_of_lt many

/-- The word that a pre-existing seed gets is the index under which it is stored. -/
theorem toInt_givenWord {count k : Nat} (few : count < 2 ^ 31) (hk : k < count) :
    (givenWord count k).toInt = (k : Int) - count := by
  rw [givenWord, Int32.toInt_sub, Int32.toInt_ofNat_of_lt (by omega), Int32.toInt_ofNat_of_lt few,
    Int.bmod_eq_of_le (by omega) (by omega)]

/-! ### Reading and changing -/

theorem position?_eq (offset : Int64) : position? offset = offset.toInt.toNat? := by
  unfold position?
  by_cases hsign : 0 ≤ offset
  · have hindex : 0 ≤ offset.toInt := by simpa using Int64.le_iff_toInt_le.1 hsign
    rw [if_pos hsign, Int64.toNat_toUInt64_of_le hsign]
    exact (Int.mem_toNat?.2 (Int.toNat_of_nonneg hindex).symm).symm
  · have hindex : ¬ 0 ≤ offset.toInt := fun h => hsign (Int64.le_iff_toInt_le.2 (by simpa using h))
    rw [if_neg hsign]
    cases hposition : offset.toInt.toNat? with
    | none => rfl
    | some k =>
      have hk := Int.mem_toNat?.1 hposition
      omega

/-- A word that is not negative is a position itself. -/
theorem toNat_word {word : Int32} (hsign : 0 ≤ word) :
    word.toInt64.toUInt64.toNat = word.toInt.toNat := by
  have hwide : 0 ≤ word.toInt64 := by
    rw [Int64.le_iff_toInt_le, Int32.toInt_toInt64]
    simpa using Int32.le_iff_toInt_le.1 hsign
  rw [Int64.toNat_toUInt64_of_le hwide]
  show word.toInt64.toInt.toNat = _
  rw [Int32.toInt_toInt64]

/-- With 64 bits, counting back from the end of the pre-existing seeds is exact. -/
theorem toInt_offset (few : store.preexisting < 2 ^ 31) (word : Int32) :
    (Int64.ofNat store.older.length + word.toInt64).toInt = store.older.length + word.toInt := by
  have hlow := word.le_toInt
  have hhigh := word.toInt_lt
  have hcount : store.older.length < 2 ^ 31 := few
  rw [Int64.toInt_add, Int64.toInt_ofNat_of_lt (by omega), Int32.toInt_toInt64,
    Int.bmod_eq_of_le (by omega) (by omega)]

theorem zero_le_word_iff (word : Int32) : 0 ≤ word ↔ 0 ≤ word.toInt := by
  simp [Int32.le_iff_toInt_le]

/-- **Reading by a word is reading by its index.** -/
theorem readWord?_eq (few : store.preexisting < 2 ^ 31) (word : Int32) :
    store.readWord? word = store.get? ⟨word.toInt⟩ := by
  unfold readWord? get?
  by_cases hsign : 0 ≤ word
  · rw [if_pos hsign, if_pos ((zero_le_word_iff word).1 hsign), toNat_word hsign]
  · rw [if_neg hsign, if_neg (fun h => hsign ((zero_le_word_iff word).2 h)), position?_eq,
      toInt_offset few]

theorem modifyAt?_eq {α : Type} (items : List α) (k : Nat) (change : α → α) :
    modifyAt? items k change = items[k]?.map fun item => items.set k (change item) := by
  unfold modifyAt?
  by_cases hk : k < items.length
  · rw [if_pos hk, List.getElem?_eq_getElem hk, Option.map_some,
      List.modify_eq_take_cons_drop hk, List.set_eq_take_append_cons_drop, if_pos hk]
  · rw [if_neg hk, List.getElem?_eq_none (Nat.le_of_not_lt hk), Option.map_none]

/-- **Changing by a word is replacing what is read.** -/
theorem modifyWord?_eq (few : store.preexisting < 2 ^ 31) (word : Int32)
    (change : Seed κ → Seed κ) :
    store.modifyWord? word change =
      (store.get? ⟨word.toInt⟩).map fun seed => store.set ⟨word.toInt⟩ (change seed) := by
  unfold modifyWord? get? set
  by_cases hsign : 0 ≤ word
  · have hindex := (zero_le_word_iff word).1 hsign
    simp only [if_pos hsign, if_pos hindex, toNat_word hsign, modifyAt?_eq, Option.map_map]
    rfl
  · have hindex : ¬ 0 ≤ word.toInt := fun h => hsign ((zero_le_word_iff word).2 h)
    simp only [if_neg hsign, if_neg hindex, position?_eq, toInt_offset few]
    cases (store.older.length + word.toInt).toNat? with
    | none => rfl
    | some k =>
      simp only [modifyAt?_eq, Option.map_map, Option.bind_some]
      rfl

/-! ### Listing -/

/-- The words that are listed are the last 32 bits of the indices, however many seeds there are. -/
theorem listedWords_eq (store : Store κ) :
    store.listedWords = store.entries.map fun entry => (Int32.ofInt entry.1.index, entry.2) := by
  unfold listedWords entries
  rw [List.map_map]
  refine List.map_congr_left fun entry _ => ?_
  show (_, entry.1) = (Int32.ofInt (store.lower + (entry.2 : Int)), entry.1)
  rw [lowerWord_eq, Int32.ofInt_add, Int32.ofInt_eq_ofNat]

/-- **The position of a seed leaves the range of a word from `2 ^ 31` on**, and from there on the
addition overflows. -/
theorem overflowsAt_iff (few : store.preexisting < 2 ^ 31) (many : store.registered < 2 ^ 31)
    {k : Nat} (hk : k < store.seeds.length) : store.overflowsAt k = true ↔ 2 ^ 31 ≤ k := by
  have hlength := store.length_seeds
  have hlower := store.lower_eq_preexisting
  have hoverflow : store.overflowsAt k = true ↔
      2 ^ 31 ≤ store.lower + (k : Int).bmod (2 ^ 32) ∨
        store.lower + (k : Int).bmod (2 ^ 32) < -2 ^ 31 := by
    unfold overflowsAt BitVec.saddOverflow
    rw [Int32.toInt_toBitVec, Int32.toInt_toBitVec, toInt_lowerWord few, ← Int32.ofInt_eq_ofNat,
      Int32.toInt_ofInt]
    simp
  rw [hoverflow]
  by_cases hword : k < 2 ^ 31
  · rw [Int.bmod_eq_of_le (by omega) (by omega)]
    omega
  · have hwrapped : (k : Int).bmod (2 ^ 32) = k - 2 ^ 32 := by
      rw [← Int.sub_bmod_right, Int.bmod_eq_of_le (by omega) (by omega)]
      rfl
    rw [hwrapped]
    omega

/-! ### Agreement -/

/-- Words do for a store what unbounded indices do. -/
structure WordsAgree (store : Store κ) : Prop where
  /-- The word of the lower end is the lower end. -/
  lower : store.lowerWord.toInt = store.lower
  /-- The word of the upper end is the upper end. -/
  upper : store.upperWord.toInt = store.upper
  /-- Just the words between the two ends can be read. -/
  inside : ∀ word, (store.readWord? word).isSome ↔
    store.lowerWord ≤ word ∧ word < store.upperWord
  /-- What is read is what is stored under the index. -/
  read : ∀ word, store.readWord? word = store.get? ⟨word.toInt⟩
  /-- A change reaches what can be read, and replaces it under the index. -/
  modify : ∀ word change, store.modifyWord? word change =
    (store.readWord? word).map fun seed => store.set ⟨word.toInt⟩ (change seed)
  /-- What is listed is what is stored under the indices, in order. -/
  listed : store.listedWords.map (fun entry => (⟨entry.1.toInt⟩, entry.2)) = store.entries
  /-- What is listed can be read under the same word. -/
  readBack : ∀ entry ∈ store.listedWords, store.readWord? entry.1 = some entry.2
  /-- Some addition of the listing overflows just if there are more than `2 ^ 31` seeds in all. -/
  overflow : (∃ k < store.seeds.length, store.overflowsAt k = true) ↔
    2 ^ 31 < store.seeds.length

theorem wordsAgree (few : store.preexisting < 2 ^ 31) (many : store.registered < 2 ^ 31) :
    store.WordsAgree := by
  have hlower := store.lower_eq_preexisting
  have hupper := store.upper_eq_registered
  -- Stored indices are words, so they survive being cut to 32 bits.
  have hword : ∀ entry ∈ store.entries, (Int32.ofInt entry.1.index).toInt = entry.1.index := by
    intro entry mem
    rw [entries_eq_zip] at mem
    obtain ⟨hlow, hhigh⟩ := (store.mem_ids_iff entry.1).1 (List.of_mem_zip mem).1
    exact Int32.toInt_ofInt_of_le (by omega) (by omega)
  refine {
    lower := toInt_lowerWord few
    upper := toInt_upperWord many
    inside := fun word => ?_
    read := readWord?_eq few
    modify := fun word change => by rw [modifyWord?_eq few, readWord?_eq few]
    listed := ?_
    readBack := fun entry mem => ?_
    overflow := ?_ }
  · rw [readWord?_eq few, get?_isSome_iff, Int32.le_iff_toInt_le, Int32.lt_iff_toInt_lt,
      toInt_lowerWord few, toInt_upperWord many]
  · rw [listedWords_eq, List.map_map]
    refine (List.map_congr_left fun entry mem => ?_).trans (List.map_id _)
    show (SeedId.mk (Int32.ofInt entry.1.index).toInt, entry.2) = entry
    rw [hword entry mem]
  · rw [listedWords_eq] at mem
    obtain ⟨stored, hstored, rfl⟩ := List.mem_map.1 mem
    rw [readWord?_eq few, hword stored hstored]
    exact (store.mem_entries_iff stored.1 stored.2).1 hstored
  · constructor
    · rintro ⟨k, hk, hoverflow⟩
      exact Nat.lt_of_le_of_lt ((overflowsAt_iff few many hk).1 hoverflow) hk
    · intro hmany
      exact ⟨2 ^ 31, hmany, (overflowsAt_iff few many hmany).2 (Nat.le_refl _)⟩

end Store

end SeedGraph
