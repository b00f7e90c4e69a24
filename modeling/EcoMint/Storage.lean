import Mathlib.Data.List.AList
import Mathlib.Algebra.BigOperators.Group.List.Basic
import Mathlib.Algebra.Order.BigOperators.Group.List
import Mathlib.Algebra.Order.Group.Int
import Mathlib.Tactic.Abel

/-!
# Keyed storage with totals

A storage is a finite map from keys to values, kept as an association list
with distinct keys.  An absent key is readable through a default.  The library
has one reading rule, `get_set`, and one accounting rule, `sum_set`: writing
one key changes a total by the new entry minus the entry it replaces.
-/

/-- A finite keyed storage: at most one value under each key. -/
abbrev Storage (κ ν : Type*) := AList (fun _ : κ => ν)

namespace Storage

variable {κ ν M : Type*} [DecidableEq κ]

/-- The value stored under `k`, if any. -/
def get (s : Storage κ ν) (k : κ) : Option ν := s.lookup k

/-- Store `v` under `k`, replacing what was there. -/
def set (s : Storage κ ν) (k : κ) (v : ν) : Storage κ ν := s.insert k v

/-- The value stored under `k`, or zero. -/
def read [Zero M] (s : Storage κ M) (k : κ) : M := (s.get k).getD 0

@[simp] theorem get_empty (k : κ) : (∅ : Storage κ ν).get k = none :=
  AList.lookup_empty k

@[simp] theorem get_set_self (s : Storage κ ν) (k : κ) (v : ν) :
    (s.set k v).get k = some v :=
  AList.lookup_insert s

/-- A write leaves the other keys alone. -/
theorem get_set_ne (s : Storage κ ν) {k k' : κ} (v : ν) (h : k' ≠ k) :
    (s.set k v).get k' = s.get k' :=
  AList.lookup_insert_ne h

/-- What is found after a write. -/
theorem get_set (s : Storage κ ν) (k k' : κ) (v : ν) :
    (s.set k v).get k' = if k' = k then some v else s.get k' := by
  by_cases h : k' = k
  · subst h; simp
  · simp [h, get_set_ne s v h]

@[simp] theorem get_erase_self (s : Storage κ ν) (k : κ) :
    Storage.get (s.erase k) k = none :=
  AList.lookup_erase k s

/-- An erasure leaves the other keys alone. -/
theorem get_erase_ne (s : Storage κ ν) {k k' : κ} (h : k' ≠ k) :
    Storage.get (s.erase k) k' = s.get k' :=
  AList.lookup_erase_ne h

/-- What is found after an erasure was there before. -/
theorem get_erase_some {s : Storage κ ν} {k k' : κ} {v : ν}
    (h : Storage.get (s.erase k) k' = some v) : s.get k' = some v := by
  by_cases hkey : k' = k
  · rw [hkey, get_erase_self] at h
    cases h
  · rwa [get_erase_ne _ hkey] at h

@[simp] theorem read_empty [Zero M] (k : κ) : (∅ : Storage κ M).read k = 0 := by
  simp [read]

@[simp] theorem read_set_self [Zero M] (s : Storage κ M) (k : κ) (v : M) :
    (s.set k v).read k = v := by
  simp [read]

/-- The number at a key after a write. -/
theorem read_set [Zero M] (s : Storage κ M) (k k' : κ) (v : M) :
    (s.set k v).read k' = if k' = k then v else s.read k' := by
  simp only [read, get_set]
  split <;> rfl

/-- A write leaves the numbers at other keys alone. -/
theorem read_set_ne [Zero M] (s : Storage κ M) {k k' : κ} (v : M) (h : k' ≠ k) :
    (s.set k v).read k' = s.read k' := by
  simp [read_set, h]

/-- A value that is found is the number at its key. -/
theorem read_eq_of_get [Zero M] {s : Storage κ M} {k : κ} {v : M}
    (h : s.get k = some v) : s.read k = v := by
  simp [read, h]

/-- The entries of a storage are exactly what `get` finds. -/
theorem mem_entries_iff {s : Storage κ ν} {k : κ} {v : ν} :
    Sigma.mk k v ∈ s.entries ↔ s.get k = some v :=
  AList.mem_lookup_iff.symm

/-! ## Totals -/

/-- Total of `f` over all entries. -/
def sum [AddCommMonoid M] (s : Storage κ ν) (f : κ → ν → M) : M :=
  (s.entries.map fun e => f e.1 e.2).sum

omit [DecidableEq κ] in
@[simp] theorem sum_empty [AddCommMonoid M] (f : κ → ν → M) :
    (∅ : Storage κ ν).sum f = 0 := rfl

/-- **The accounting rule.**  Writing one key replaces that key's share of
the total and leaves every other share alone. -/
theorem sum_set [AddCommGroup M] (s : Storage κ ν) (k : κ) (v : ν) (f : κ → ν → M) :
    (s.set k v).sum f = s.sum f - (s.get k).elim 0 (f k) + f k v := by
  by_cases hk : k ∈ s
  · obtain ⟨old, left, right, hleft, hsplit, herase⟩ := List.exists_of_kerase hk
    have hget : s.get k = some old := by
      rw [← mem_entries_iff, hsplit]
      simp
    simp only [sum, set, AList.entries_insert, herase, hget, Option.elim_some,
      List.map_cons, List.map_append, List.sum_cons, List.sum_append]
    simp only [hsplit, List.map_cons, List.map_append, List.sum_cons, List.sum_append]
    abel
  · have hget : s.get k = none := AList.lookup_eq_none.mpr hk
    simp only [sum, set, AList.entries_insert_of_notMem hk, hget, Option.elim_none,
      List.map_cons, List.sum_cons]
    abel

theorem sum_nonneg {s : Storage κ ν} {f : κ → ν → Int}
    (h : ∀ k v, s.get k = some v → 0 ≤ f k v) : 0 ≤ s.sum f := by
  apply List.sum_nonneg
  intro x hx
  obtain ⟨e, he, rfl⟩ := List.mem_map.mp hx
  exact h e.1 e.2 (mem_entries_iff.mp he)

theorem sum_eq_zero [AddCommMonoid M] {s : Storage κ ν} {f : κ → ν → M}
    (h : ∀ k v, s.get k = some v → f k v = 0) : s.sum f = 0 := by
  apply List.sum_eq_zero
  intro x hx
  obtain ⟨e, he, rfl⟩ := List.mem_map.mp hx
  exact h e.1 e.2 (mem_entries_iff.mp he)

/-- One nonnegative share is at most the total of nonnegative shares. -/
theorem le_sum_of_get {s : Storage κ ν} {f : κ → ν → Int} {k : κ} {v : ν}
    (h : ∀ k v, s.get k = some v → 0 ≤ f k v) (hk : s.get k = some v) :
    f k v ≤ s.sum f := by
  apply List.single_le_sum
  · intro x hx
    obtain ⟨e, he, rfl⟩ := List.mem_map.mp hx
    exact h e.1 e.2 (mem_entries_iff.mp he)
  · exact List.mem_map.mpr ⟨⟨k, v⟩, mem_entries_iff.mpr hk, rfl⟩

/-- Total of the values whose key satisfies `p`. -/
def sumOn [AddCommMonoid M] (s : Storage κ M) (p : κ → Prop) [DecidablePred p] : M :=
  s.sum fun k v => if p k then v else 0

variable (p : κ → Prop) [DecidablePred p]

omit [DecidableEq κ] in
@[simp] theorem sumOn_empty [AddCommMonoid M] : (∅ : Storage κ M).sumOn p = 0 := rfl

/-- Writing one selected key moves the selected total by the change of that
key's value; writing any other key leaves it alone. -/
theorem sumOn_set [AddCommGroup M] (s : Storage κ M) (k : κ) (v : M) :
    (s.set k v).sumOn p = s.sumOn p + if p k then v - s.read k else 0 := by
  unfold sumOn
  rw [sum_set]
  by_cases hp : p k
  · cases hk : s.get k with
    | none => simp [read, hk, hp]
    | some old =>
        simp only [read, hk, hp, Option.elim_some, Option.getD_some, if_true]
        abel
  · cases hk : s.get k <;> simp [hp]

/-- Distinct selected keys together hold at most the selected total. -/
theorem sum_read_le_sumOn {s : Storage κ Int} (hpos : ∀ k, p k → 0 ≤ s.read k)
    {keys : List κ} (hnodup : keys.Nodup) (hkeys : ∀ k ∈ keys, p k) :
    (keys.map s.read).sum ≤ s.sumOn p := by
  induction keys generalizing s with
  | nil =>
      refine sum_nonneg fun k v hget => ?_
      split
      · next hp => simpa [read_eq_of_get hget] using hpos k hp
      · exact le_rfl
  | cons k rest ih =>
      obtain ⟨hfresh, hrest⟩ := List.nodup_cons.mp hnodup
      have hpos' : ∀ k', p k' → 0 ≤ (s.set k 0).read k' := by
        intro k' hp
        rw [read_set]
        split
        · exact le_rfl
        · exact hpos k' hp
      have hsame : rest.map (s.set k 0).read = rest.map s.read := by
        refine List.map_congr_left fun k' hk' => read_set_ne s 0 ?_
        rintro rfl
        exact hfresh hk'
      have hle := ih hpos' hrest fun k' hk' => hkeys k' (List.mem_cons_of_mem k hk')
      rw [hsame, sumOn_set, if_pos (hkeys k (List.mem_cons_self ..))] at hle
      rw [List.map_cons, List.sum_cons]
      omega

/-- Distinct selected keys that miss no value hold the selected total. -/
theorem sum_read_eq_sumOn {s : Storage κ Int} {keys : List κ} (hnodup : keys.Nodup)
    (hkeys : ∀ k ∈ keys, p k) (hall : ∀ k, p k → s.read k ≠ 0 → k ∈ keys) :
    (keys.map s.read).sum = s.sumOn p := by
  induction keys generalizing s with
  | nil =>
      refine (sum_eq_zero fun k v hget => ?_).symm
      split
      · next hp =>
          by_contra hne
          exact List.not_mem_nil (hall k hp (by rwa [read_eq_of_get hget]))
      · rfl
  | cons k rest ih =>
      obtain ⟨hfresh, hrest⟩ := List.nodup_cons.mp hnodup
      have hall' : ∀ k', p k' → (s.set k 0).read k' ≠ 0 → k' ∈ rest := by
        intro k' hp hne
        rw [read_set] at hne
        split at hne
        · exact absurd rfl hne
        · next hk => exact (List.mem_cons.mp (hall k' hp hne)).resolve_left hk
      have hsame : rest.map (s.set k 0).read = rest.map s.read := by
        refine List.map_congr_left fun k' hk' => read_set_ne s 0 ?_
        rintro rfl
        exact hfresh hk'
      have hsum := ih hrest (fun k' hk' => hkeys k' (List.mem_cons_of_mem k hk')) hall'
      rw [hsame, sumOn_set, if_pos (hkeys k (List.mem_cons_self ..))] at hsum
      rw [List.map_cons, List.sum_cons]
      omega

/-- A selected nonnegative value is at most the selected total. -/
theorem read_le_sumOn {s : Storage κ Int} (hpos : ∀ k, p k → 0 ≤ s.read k)
    {k : κ} (hk : p k) : s.read k ≤ s.sumOn p := by
  simpa using sum_read_le_sumOn p hpos (List.nodup_singleton k) (by simpa using hk)

/-- Where no selected value of one storage exceeds that of another, neither does
the selected total. -/
theorem sumOn_le_sumOn {s t : Storage κ Int} (hle : ∀ k, p k → s.read k ≤ t.read k)
    (hpos : ∀ k, p k → 0 ≤ t.read k) : s.sumOn p ≤ t.sumOn p := by
  have hnodup : (s.keys.filter p).Nodup := s.nodupKeys.filter _
  have hkeys : ∀ k ∈ s.keys.filter p, p k := by
    intro k hk
    simpa using (List.mem_filter.mp hk).2
  have hall : ∀ k, p k → s.read k ≠ 0 → k ∈ s.keys.filter p := by
    intro k hp hne
    have hmem : k ∈ s := by
      rw [← AList.lookup_isSome, Option.isSome_iff_ne_none]
      intro hnone
      exact hne (by simp [read, get, hnone])
    exact List.mem_filter.mpr ⟨AList.mem_keys.mp hmem, by simpa using hp⟩
  calc s.sumOn p = ((s.keys.filter p).map s.read).sum :=
        (sum_read_eq_sumOn p hnodup hkeys hall).symm
    _ ≤ ((s.keys.filter p).map t.read).sum := List.sum_le_sum fun k hk => hle k (hkeys k hk)
    _ ≤ t.sumOn p := sum_read_le_sumOn p hpos hnodup hkeys

/-! ## Accounts -/

/-- Add `a`, which may be negative, to the balance of account `k`. -/
def credit (s : Storage κ Int) (k : κ) (a : Int) : Storage κ Int := s.set k (s.read k + a)

/-- A credit is added at its key and nowhere else. -/
theorem read_credit (s : Storage κ Int) (k k' : κ) (a : Int) :
    (s.credit k a).read k' = s.read k' + if k' = k then a else 0 := by
  unfold credit
  rw [read_set]
  by_cases h : k' = k <;> simp [h]

@[simp] theorem read_credit_self (s : Storage κ Int) (k : κ) (a : Int) :
    (s.credit k a).read k = s.read k + a := by
  simp [read_credit]

/-- A credit leaves the other keys alone. -/
theorem read_credit_ne (s : Storage κ Int) {k k' : κ} (a : Int) (h : k' ≠ k) :
    (s.credit k a).read k' = s.read k' := by
  simp [read_credit, h]

/-- A credit moves a sum by its amount if its key belongs to it. -/
theorem sumOn_credit (s : Storage κ Int) (k : κ) (a : Int) :
    (s.credit k a).sumOn p = s.sumOn p + if p k then a else 0 := by
  unfold credit
  rw [sumOn_set]
  simp

/-- Credit every account of a list in turn. -/
def creditAll (s : Storage κ Int) (l : List (κ × Int)) : Storage κ Int :=
  l.foldl (fun s e => s.credit e.1 e.2) s

@[simp] theorem creditAll_nil (s : Storage κ Int) : s.creditAll [] = s := rfl

theorem creditAll_append (s : Storage κ Int) (l l' : List (κ × Int)) :
    s.creditAll (l ++ l') = (s.creditAll l).creditAll l' := by
  simp [creditAll]

/-- Each key gets the credits that name it. -/
theorem read_creditAll (s : Storage κ Int) (l : List (κ × Int)) (k : κ) :
    (s.creditAll l).read k = s.read k + (l.map fun e => if k = e.1 then e.2 else 0).sum := by
  induction l generalizing s with
  | nil => simp
  | cons e rest ih =>
      show ((s.credit e.1 e.2).creditAll rest).read k = _
      rw [ih, read_credit, List.map_cons, List.sum_cons]
      abel

/-- Credits leave alone a key that none of them names. -/
theorem read_creditAll_ne (s : Storage κ Int) {l : List (κ × Int)} {k : κ}
    (h : ∀ e ∈ l, k ≠ e.1) : (s.creditAll l).read k = s.read k := by
  rw [read_creditAll, List.sum_eq_zero, add_zero]
  intro x hx
  obtain ⟨e, he, rfl⟩ := List.mem_map.mp hx
  exact if_neg (h e he)

/-- Credits move a sum by the amounts whose keys belong to it. -/
theorem sumOn_creditAll (s : Storage κ Int) (l : List (κ × Int)) :
    (s.creditAll l).sumOn p = s.sumOn p + (l.map fun e => if p e.1 then e.2 else 0).sum := by
  induction l generalizing s with
  | nil => simp
  | cons e rest ih =>
      show ((s.credit e.1 e.2).creditAll rest).sumOn p = _
      rw [ih, sumOn_credit, List.map_cons, List.sum_cons]
      abel

end Storage
