import Mathlib.Algebra.Order.BigOperators.Group.List
import Mathlib.Algebra.Order.Ring.Defs
import Mathlib.Data.List.Perm.Basic
import Mathlib.Order.Bounds.Basic
import Mathlib.Tactic.Linarith
import Mathlib.Tactic.Ring

/-!
# Filling a request from offers

A request for a quantity is filled from a list of offers, each with a price and
an amount, by taking from every offer in turn what is still wanted or all that is
there.  If the cheaper offers come first, no other way to take that much costs
less: what another way takes from a later offer, it could take from an earlier one
at no higher price.  The order in which the offers are given does not matter to
the ways there are.
-/

namespace GreedyFill

variable {α R : Type*} [CommRing R] [LinearOrder R] [IsStrictOrderedRing R]
  (price amount : α → R)

/-- Take from each offer in turn. -/
def greedy : R → List α → List (α × R)
  | _, [] => []
  | wanted, offer :: rest =>
      (offer, min wanted (amount offer)) :: greedy (wanted - min wanted (amount offer)) rest

/-- What is taken of each offer, from nothing to all of it. -/
structure IsAllocation (offers : List α) (takes : List (α × R)) : Prop where
  offers_eq : takes.map Prod.fst = offers
  bounds : ∀ take ∈ takes, 0 ≤ take.2 ∧ take.2 ≤ amount take.1

/-- What is taken in all. -/
def total (takes : List (α × R)) : R := (takes.map Prod.snd).sum

/-- What it costs. -/
def cost (takes : List (α × R)) : R := (takes.map fun take => price take.1 * take.2).sum

/-- All that is offered. -/
def depth (offers : List α) : R := (offers.map amount).sum

omit [LinearOrder R] [IsStrictOrderedRing R] in
@[simp] theorem total_cons (take : α × R) (takes : List (α × R)) :
    total (take :: takes) = take.2 + total takes := by
  simp [total]

omit [LinearOrder R] [IsStrictOrderedRing R] in
@[simp] theorem cost_cons (take : α × R) (takes : List (α × R)) :
    cost price (take :: takes) = price take.1 * take.2 + cost price takes := by
  simp [cost]

omit [LinearOrder R] [IsStrictOrderedRing R] in
@[simp] theorem depth_cons (offer : α) (offers : List α) :
    depth amount (offer :: offers) = amount offer + depth amount offers := by
  simp [depth]

variable {price amount}

omit [IsStrictOrderedRing R] in
/-- An allocation of one more offer. -/
theorem IsAllocation.cons_iff {offer : α} {offers : List α} {take : α × R}
    {takes : List (α × R)} :
    IsAllocation amount (offer :: offers) (take :: takes) ↔
      (take.1 = offer ∧ 0 ≤ take.2 ∧ take.2 ≤ amount take.1) ∧ IsAllocation amount offers takes := by
  constructor
  · rintro ⟨hoffers, hbounds⟩
    obtain ⟨hoffer, hrest⟩ := List.cons.inj hoffers
    obtain ⟨htake, htakes⟩ := List.forall_mem_cons.mp hbounds
    exact ⟨⟨hoffer, htake⟩, hrest, htakes⟩
  · rintro ⟨⟨hoffer, htake⟩, hrest, htakes⟩
    exact ⟨by rw [List.map_cons, hoffer, hrest], List.forall_mem_cons.mpr ⟨htake, htakes⟩⟩

theorem depth_nonneg {offers : List α} (h : ∀ offer ∈ offers, 0 ≤ amount offer) :
    0 ≤ depth amount offers := by
  induction offers with
  | nil => simp [depth]
  | cons offer rest ih =>
      obtain ⟨hoffer, hrest⟩ := List.forall_mem_cons.mp h
      rw [depth_cons]
      exact add_nonneg hoffer (ih hrest)

/-- No allocation takes more than there is. -/
theorem IsAllocation.total_le {offers : List α} {takes : List (α × R)}
    (h : IsAllocation amount offers takes) : 0 ≤ total takes ∧ total takes ≤ depth amount offers := by
  induction takes generalizing offers with
  | nil =>
      obtain rfl : [] = offers := h.offers_eq
      simp [total, depth]
  | cons take takes ih =>
      cases offers with
      | nil => cases h.offers_eq
      | cons offer rest =>
          obtain ⟨⟨rfl, hlow, hhigh⟩, hrest⟩ := IsAllocation.cons_iff.mp h
          obtain ⟨hnonneg, hle⟩ := ih hrest
          rw [total_cons, depth_cons]
          exact ⟨add_nonneg hlow hnonneg, add_le_add hhigh hle⟩

/-- Taking in turn is one way to take. -/
theorem isAllocation_greedy {offers : List α} (h : ∀ offer ∈ offers, 0 ≤ amount offer) {wanted : R}
    (hwanted : 0 ≤ wanted) : IsAllocation amount offers (greedy amount wanted offers) := by
  induction offers generalizing wanted with
  | nil => exact ⟨rfl, by simp [greedy]⟩
  | cons offer rest ih =>
      obtain ⟨hoffer, hrest⟩ := List.forall_mem_cons.mp h
      rw [greedy, IsAllocation.cons_iff]
      exact ⟨⟨rfl, le_min hwanted hoffer, min_le_right ..⟩,
        ih hrest (sub_nonneg.mpr (min_le_left ..))⟩

/-- It takes what is wanted, or everything. -/
theorem total_greedy {offers : List α} (h : ∀ offer ∈ offers, 0 ≤ amount offer) {wanted : R}
    (hwanted : 0 ≤ wanted) :
    total (greedy amount wanted offers) = min wanted (depth amount offers) := by
  induction offers generalizing wanted with
  | nil => simp [greedy, total, depth, hwanted]
  | cons offer rest ih =>
      obtain ⟨hoffer, hrest⟩ := List.forall_mem_cons.mp h
      have hdepth := depth_nonneg hrest
      rw [greedy, total_cons, depth_cons, ih hrest (sub_nonneg.mpr (min_le_left ..))]
      rcases le_total wanted (amount offer) with hle | hle
      · rw [min_eq_left hle, sub_self, min_eq_left hdepth, add_zero,
          min_eq_left (le_add_of_le_of_nonneg hle hdepth)]
      · rw [min_eq_right hle, ← min_add_add_left, add_sub_cancel]

/-- A request for everything or more takes all of every offer. -/
theorem greedy_all {offers : List α} (h : ∀ offer ∈ offers, 0 ≤ amount offer) {wanted : R}
    (hwanted : depth amount offers ≤ wanted) :
    greedy amount wanted offers = offers.map fun offer => (offer, amount offer) := by
  induction offers generalizing wanted with
  | nil => rfl
  | cons offer rest ih =>
      obtain ⟨hoffer, hrest⟩ := List.forall_mem_cons.mp h
      have hdepth := depth_nonneg hrest
      rw [depth_cons] at hwanted
      rw [greedy, min_eq_right (by linarith), ih hrest (by linarith), List.map_cons]

/-- What is beyond the book makes no difference. -/
theorem greedy_min_depth {offers : List α} (h : ∀ offer ∈ offers, 0 ≤ amount offer) (wanted : R) :
    greedy amount (min wanted (depth amount offers)) offers = greedy amount wanted offers := by
  rcases le_total wanted (depth amount offers) with hle | hle
  · rw [min_eq_left hle]
  · rw [min_eq_right hle, greedy_all h le_rfl, greedy_all h hle]

omit [IsStrictOrderedRing R] in
/-- A request for nothing takes nothing. -/
theorem greedy_zero {offers : List α} (h : ∀ offer ∈ offers, 0 ≤ amount offer) :
    greedy amount 0 offers = offers.map fun offer => (offer, 0) := by
  induction offers with
  | nil => rfl
  | cons offer rest ih =>
      obtain ⟨hoffer, hrest⟩ := List.forall_mem_cons.mp h
      rw [greedy, min_eq_left hoffer, sub_self, ih hrest, List.map_cons]

omit [IsStrictOrderedRing R] in
theorem cost_greedy_zero {offers : List α} (h : ∀ offer ∈ offers, 0 ≤ amount offer) :
    cost price (greedy amount 0 offers) = 0 := by
  simp [greedy_zero h, cost, Function.comp_def]

/-- Taking more costs at least the lowest price for what is more. -/
theorem cost_greedy_add {offers : List α} (h : ∀ offer ∈ offers, 0 ≤ amount offer) {lowest : R}
    (hlowest : ∀ offer ∈ offers, lowest ≤ price offer) {wanted more : R} (hwanted : 0 ≤ wanted)
    (hmore : 0 ≤ more) (hdepth : wanted + more ≤ depth amount offers) :
    cost price (greedy amount wanted offers) + lowest * more ≤
      cost price (greedy amount (wanted + more) offers) := by
  induction offers generalizing wanted more with
  | nil =>
      have hzero : more = 0 := by
        simp only [depth, List.map_nil, List.sum_nil] at hdepth
        linarith
      simp [greedy, hzero]
  | cons offer rest ih =>
      obtain ⟨hoffer, hrest⟩ := List.forall_mem_cons.mp h
      obtain ⟨hprice, hprices⟩ := List.forall_mem_cons.mp hlowest
      rw [depth_cons] at hdepth
      rw [greedy, greedy, cost_cons, cost_cons]
      dsimp only
      rcases le_total wanted (amount offer) with hle | hle
      · rcases le_total (wanted + more) (amount offer) with hle' | hle'
        · -- both requests end in this offer
          rw [min_eq_left hle, min_eq_left hle', sub_self, sub_self]
          have hdearer := mul_le_mul_of_nonneg_right hprice hmore
          linarith
        · -- the larger one goes on after it
          rw [min_eq_left hle, min_eq_right hle', sub_self]
          have hover : 0 ≤ wanted + more - amount offer := sub_nonneg.mpr hle'
          have hrest' := ih hrest hprices le_rfl hover (by linarith)
          rw [zero_add] at hrest'
          have hdearer := mul_le_mul_of_nonneg_right hprice (sub_nonneg.mpr hle)
          linarith
      · have hle' : amount offer ≤ wanted + more := le_trans hle (le_add_of_nonneg_right hmore)
        rw [min_eq_right hle, min_eq_right hle']
        have hrest' := ih hrest hprices (sub_nonneg.mpr hle) hmore (by linarith)
        have hsplit : wanted + more - amount offer = wanted - amount offer + more := by ring
        rw [hsplit]
        linarith

/-- No way to take as much from offers that are sorted by price costs less. -/
theorem cost_greedy_le {offers : List α} (h : ∀ offer ∈ offers, 0 ≤ amount offer)
    (hsorted : offers.Pairwise fun offer offer' => price offer ≤ price offer')
    {takes : List (α × R)} (htakes : IsAllocation amount offers takes) :
    cost price (greedy amount (total takes) offers) ≤ cost price takes := by
  induction takes generalizing offers with
  | nil =>
      obtain rfl : [] = offers := htakes.offers_eq
      simp [greedy]
  | cons take takes ih =>
      cases offers with
      | nil => cases htakes.offers_eq
      | cons offer rest =>
          obtain ⟨⟨rfl, hlow, hhigh⟩, hallocation⟩ := IsAllocation.cons_iff.mp htakes
          obtain ⟨hoffer, hrest⟩ := List.forall_mem_cons.mp h
          obtain ⟨hfirst, hsorted'⟩ := List.pairwise_cons.mp hsorted
          obtain ⟨hnonneg, hdepth⟩ := hallocation.total_le
          have hothers := ih hrest hsorted' hallocation
          rw [greedy, cost_cons, cost_cons, total_cons]
          dsimp only
          -- the turn takes at least as much of the first offer, and the rest pays for it
          rcases le_total (take.2 + total takes) (amount take.1) with hle | hle
          · rw [min_eq_left hle, sub_self]
            have hmore := cost_greedy_add hrest hfirst le_rfl hnonneg (by linarith)
            rw [zero_add] at hmore
            linarith
          · rw [min_eq_right hle]
            have hmore := cost_greedy_add hrest hfirst (sub_nonneg.mpr hle)
              (sub_nonneg.mpr hhigh) (by linarith)
            have hsplit : take.2 + total takes - amount take.1 + (amount take.1 - take.2) =
                total takes := by ring
            rw [hsplit] at hmore
            linarith

/-! ## Offers in any order -/

omit [IsStrictOrderedRing R] in
/-- An allocation of offers in another order. -/
theorem IsAllocation.exists_of_perm {offers offers' : List α} (hperm : offers.Perm offers')
    {takes : List (α × R)} (h : IsAllocation amount offers takes) :
    ∃ takes', IsAllocation amount offers' takes' ∧ takes'.Perm takes := by
  have hmap : offers'.Perm (takes.map Prod.fst) := by
    rw [h.offers_eq]
    exact hperm.symm
  have hcomp := congrFun₂ (List.eq_map_comp_perm (Prod.fst : α × R → α)) offers' takes
  obtain ⟨takes', hoffers, hperm'⟩ := hcomp.mpr hmap
  exact ⟨takes', ⟨hoffers.symm, fun take htake => h.bounds take (hperm'.subset htake)⟩, hperm'⟩

omit [LinearOrder R] [IsStrictOrderedRing R] in
/-- The total does not depend on the order. -/
theorem total_perm {takes takes' : List (α × R)} (h : takes.Perm takes') :
    total takes = total takes' := (h.map _).sum_eq

omit [LinearOrder R] [IsStrictOrderedRing R] in
/-- Neither does the cost. -/
theorem cost_perm {takes takes' : List (α × R)} (h : takes.Perm takes') :
    cost price takes = cost price takes' := (h.map _).sum_eq

omit [LinearOrder R] [IsStrictOrderedRing R] in
/-- Neither does the depth. -/
theorem depth_perm {offers offers' : List α} (h : offers.Perm offers') :
    depth amount offers = depth amount offers' := (h.map _).sum_eq

/-- **Filling in the order of prices is cheapest** among all ways to take as much
from the offers, in whatever order they are given. -/
theorem isLeast_cost {offers sorted : List α} (hperm : offers.Perm sorted)
    (hsorted : sorted.Pairwise fun offer offer' => price offer ≤ price offer')
    (h : ∀ offer ∈ offers, 0 ≤ amount offer) {wanted : R} (hwanted : 0 ≤ wanted) :
    IsLeast { c | ∃ takes, IsAllocation amount offers takes ∧
        total takes = min wanted (depth amount offers) ∧ cost price takes = c }
      (cost price (greedy amount wanted sorted)) := by
  have hsorted' : ∀ offer ∈ sorted, 0 ≤ amount offer := fun offer hoffer =>
    h offer (hperm.symm.subset hoffer)
  have htotal := total_greedy hsorted' hwanted
  rw [← depth_perm hperm] at htotal
  constructor
  · obtain ⟨takes, htakes, hperm'⟩ :=
      (isAllocation_greedy hsorted' hwanted).exists_of_perm hperm.symm
    exact ⟨takes, htakes, by rw [total_perm hperm', htotal], cost_perm hperm'⟩
  · rintro c ⟨takes, htakes, hamount, rfl⟩
    obtain ⟨takes', htakes', hperm'⟩ := htakes.exists_of_perm hperm
    have hle : cost price (greedy amount (total takes') sorted) ≤ cost price takes' :=
      cost_greedy_le hsorted' hsorted htakes'
    rwa [cost_perm hperm', total_perm hperm', hamount, depth_perm hperm,
      greedy_min_depth hsorted'] at hle

end GreedyFill
