import Mathlib.Algebra.Order.Floor.Div
import Mathlib.Data.List.Nodup
import Mathlib.Tactic.Ring

/-!
# Pages of numbered items

Items carry the numbers `1, …, count`, and page `k` holds those after the first
`k * size`.  The pages in order are the numbers in order, the pages from
`count ⌈/⌉ size` on are empty, and no earlier page is, so a reader that stops at
the first empty page has read every number once.
-/

namespace Paging

/-- The numbers on a page. -/
def page (size count k : Nat) : List Nat :=
  List.range' (k * size + 1) (min size (count - k * size))

variable {size count k : Nat}

/-- The pages from the `k`-th on: what is left after `k` pages. -/
def rest (size count k : Nat) : List Nat := List.range' (k * size + 1) (count - k * size)

/-- A page has the numbers from its first place to the next page's, as far as they are
in use. -/
theorem mem_page {id : Nat} : id ∈ page size count k ↔
    k * size < id ∧ id ≤ (k + 1) * size ∧ id ≤ count := by
  rw [page, List.mem_range'_1, Nat.succ_mul]
  omega

theorem rest_zero (size count : Nat) : rest size count 0 = List.range' 1 count := by
  simp [rest]

/-- What is left begins with the next page. -/
theorem page_append_rest (size count k : Nat) :
    page size count k ++ rest size count (k + 1) = rest size count k := by
  unfold page rest
  rw [Nat.succ_mul]
  rcases Nat.le_total size (count - k * size) with hfull | hlast
  · rw [Nat.min_eq_left hfull, Nat.add_right_comm, List.range'_append_1]
    congr 1
    omega
  · have hnone : count - (k * size + size) = 0 := by omega
    rw [Nat.min_eq_right hlast, hnone, List.range'_zero, List.append_nil]

/-- Nothing is left once the pages before have covered the count. -/
theorem rest_eq_nil_iff : rest size count k = [] ↔ count ≤ k * size := by
  rw [rest, List.range'_eq_nil_iff]
  omega

/-- A page is empty once the pages before it have covered the count. -/
theorem page_eq_nil_iff (hsize : 0 < size) : page size count k = [] ↔ count ≤ k * size := by
  rw [page, List.range'_eq_nil_iff]
  omega

/-- The first empty page. -/
theorem ceilDiv_le_iff (hsize : 0 < size) : count ⌈/⌉ size ≤ k ↔ count ≤ k * size := by
  rw [ceilDiv_le_iff_le_mul hsize, Nat.mul_comm]

/-- The first pages together. -/
theorem flatMap_page (size count k : Nat) :
    (List.range k).flatMap (page size count) ++ rest size count k = List.range' 1 count := by
  induction k with
  | zero => simpa using rest_zero size count
  | succ k ih =>
      rw [List.range_succ, List.flatMap_append, List.flatMap_singleton, List.append_assoc,
        page_append_rest, ih]

/-- All pages together. -/
theorem flatMap_pages (hsize : 0 < size) :
    (List.range (count ⌈/⌉ size)).flatMap (page size count) = List.range' 1 count := by
  have hnone : rest size count (count ⌈/⌉ size) = [] :=
    rest_eq_nil_iff.mpr ((ceilDiv_le_iff hsize).mp le_rfl)
  rw [← flatMap_page size count (count ⌈/⌉ size), hnone, List.append_nil]

/-- A reader of numbered pages stops at the first one that it does not want. -/
theorem takeWhile_range {p : Nat → Bool} {n k : Nat} (hk : k ≤ n) (hbefore : ∀ i, i < k → p i)
    (hstop : k < n → p k = false) : (List.range n).takeWhile p = List.range k := by
  obtain ⟨d, rfl⟩ := Nat.exists_eq_add_of_le hk
  rw [List.range_add, List.takeWhile_append_of_pos (fun i hi => hbefore i (List.mem_range.mp hi))]
  cases d with
  | zero => simp
  | succ d =>
      rw [List.range_succ_eq_map, List.map_cons,
        List.takeWhile_cons_of_neg (by simp [hstop (by omega)]), List.append_nil]

end Paging
