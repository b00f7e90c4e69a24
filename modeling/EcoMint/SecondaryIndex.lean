import EcoMint.Storage

/-!
# Numbered records and their indexes

Records that are stored under the numbers 1, 2, 3 and so on as they come, and an
index that keeps, for every key, the numbers of the records with that key.

A new record is appended to the numbers of its key, which leaves them ascending
because its number is above all others (`Indexes.added`).  Rewriting records
needs no work on an index as long as every record keeps its key
(`Indexes.rewritten`).
-/

namespace Storage

variable {β κ : Type*} [DecidableEq κ]

/-- The numbers under a key. -/
def numbers (index : Storage κ (List Nat)) (k : κ) : List Nat := (index.get k).getD []

/-- The records have the numbers from one to `count`. -/
def Numbered (records : Storage Nat β) (count : Nat) : Prop :=
  ∀ n, (records.get n).isSome = true ↔ 1 ≤ n ∧ n ≤ count

/-- Under every key stand the numbers of the records with that key, in ascending
order and each once. -/
structure Indexes (records : Storage Nat β) (key : β → κ) (index : Storage κ (List Nat)) :
    Prop where
  ascending : ∀ k, (index.numbers k).Pairwise (· < ·)
  indexed : ∀ k n, n ∈ index.numbers k ↔ ∃ record, records.get n = some record ∧ key record = k

/-- Setting one key's list leaves every other list as it is. -/
theorem numbers_set (index : Storage κ (List Nat)) (k k' : κ) (l : List Nat) :
    (index.set k l).numbers k' = if k' = k then l else index.numbers k' := by
  rw [numbers, get_set]
  split <;> rfl

/-- A record that is replaced by one with the same image. -/
theorem map_get_set {γ : Type*} {records : Storage Nat β} {f : β → γ} {n : Nat} {old new : β}
    (hget : records.get n = some old) (hsame : f new = f old) (m : Nat) :
    ((records.set n new).get m).map f = (records.get m).map f := by
  rw [get_set]
  split
  · next heq => rw [heq, hget, Option.map_some, Option.map_some, hsame]
  · rfl

theorem numbered_empty : Numbered (∅ : Storage Nat β) 0 := by
  intro n
  rw [get_empty]
  simp
  omega

/-- Every number in use is within the count. -/
theorem Numbered.le {records : Storage Nat β} {count n : Nat} (h : Numbered records count)
    {record : β} (hget : records.get n = some record) : n ≤ count :=
  ((h n).mp (by rw [hget]; rfl)).2

/-- Rewriting records in place keeps them numbered. -/
theorem Numbered.rewritten {γ : Type*} {f : β → γ} {records records' : Storage Nat β}
    {count : Nat} (h : Numbered records count)
    (hsame : ∀ n, (records'.get n).map f = (records.get n).map f) : Numbered records' count := by
  intro n
  have hsome := congrArg Option.isSome (hsame n)
  rw [Option.isSome_map, Option.isSome_map] at hsome
  rw [hsome, h n]

/-- A record added at the next number keeps them numbered. -/
theorem Numbered.added {records : Storage Nat β} {count : Nat} (h : Numbered records count)
    (record : β) : Numbered (records.set (count + 1) record) (count + 1) := by
  intro n
  rw [get_set]
  split
  · next heq => simp [heq]
  · next hne =>
      rw [h n]
      omega

theorem indexes_empty (key : β → κ) : Indexes ∅ key ∅ where
  ascending k := by simp [numbers]
  indexed k n := by simp [numbers]

/-- **Rewriting records.**  An index stays as it is if every record keeps its
key. -/
theorem Indexes.rewritten {records records' : Storage Nat β} {key : β → κ}
    {index : Storage κ (List Nat)} (h : Indexes records key index)
    (hsame : ∀ n, (records'.get n).map key = (records.get n).map key) :
    Indexes records' key index where
  ascending := h.ascending
  indexed k n := by
    have hfound : ∀ records : Storage Nat β, (∃ record, records.get n = some record ∧
        key record = k) ↔ (records.get n).map key = some k := fun records =>
      Option.map_eq_some_iff.symm
    rw [h.indexed k n, hfound, hfound, hsame]

/-- **Adding a record.**  Its number is above all others. -/
theorem Indexes.added {records : Storage Nat β} {key : β → κ} {index : Storage κ (List Nat)}
    {number : Nat} (h : Indexes records key index)
    (hnew : ∀ n record, records.get n = some record → n < number) (record : β) :
    Indexes (records.set number record) key
      (index.set (key record) (index.numbers (key record) ++ [number])) where
  ascending k := by
    rw [numbers_set]
    split
    · refine List.pairwise_append.mpr ⟨h.ascending _, List.pairwise_singleton _ _, ?_⟩
      intro n hn m hm
      obtain ⟨old, hget, -⟩ := (h.indexed _ n).mp hn
      rw [List.mem_singleton.mp hm]
      exact hnew n old hget
    · exact h.ascending k
  indexed k n := by
    have hunused : n = number → n ∉ index.numbers k := by
      intro heq hn
      obtain ⟨old, hget, -⟩ := (h.indexed k n).mp hn
      exact Nat.lt_irrefl number (heq ▸ hnew n old hget)
    rw [numbers_set, get_set]
    by_cases hn : n = number
    · rw [if_pos hn]
      by_cases hk : k = key record
      · simp [hk, hn]
      · rw [if_neg hk]
        simp [hunused hn, Ne.symm hk]
    · rw [if_neg hn, ← h.indexed k n]
      by_cases hk : k = key record
      · simp [hk, hn]
      · rw [if_neg hk]

end Storage
