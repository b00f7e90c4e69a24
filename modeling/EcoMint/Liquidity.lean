import EcoMint.DexService
import EcoMint.GreedyFill
import EcoMint.HalfEven
import EcoMint.PurchaseAuthorisation
import Mathlib.Data.Int.ConditionallyCompleteOrder
import Mathlib.Data.List.Sort

/-!
# Prices and slippage

`LiquidityService` answers three questions from the first hundred open orders of
a bond: the best and the average price, the cheapest order, and what a purchase
of some amount would cost.  The cost is that of filling the request from the
orders in the order of their prices, so it is the least there is.

Two of the numbers go wrong.  The best price is folded from zero, and listed
prices are positive, so it is zero.  The slippage compares the cost of what can
be filled with the ideal cost of what was asked for; when the book is too thin the
second is too high, and whole percents are lost.
-/

namespace EcoMint.Marketplace

open Storage GreedyFill
open DexRouter (Order)

/-! ## The price feed -/

/-- The smaller of two prices, as the fold takes it. -/
def smaller (a b : Int) : Int := if a < b then a else b

/-- The feed of one group of the map. -/
def priceFeedOf (id : Nat) (orders : List Order) : PriceFeedResponse :=
  let prices := orders.map fun order => order.pricePerToken
  let sumPrices := prices.foldl (· + ·) 0
  { bondId := id
    bestPrice := prices.foldl smaller 0
    averagePrice := if prices.length > 0 then sumPrices.tdiv prices.length else 0
    totalOrders := prices.length
    totalVolume := (orders.map fun order => order.amount * order.pricePerToken).foldl (· + ·) 0 }

/-- The feeds of the bonds that have open orders, in the order in which they come
up. -/
def priceFeeds (data : List Order) : List PriceFeedResponse :=
  let openOrders := data.filter fun order => order.status = .open
  (openOrders.map fun order => order.bondId).eraseDups.map fun id =>
    priceFeedOf id (openOrders.filter fun order => order.bondId = id)

/-- The first page of a hundred open orders; bond 0 stands for all. -/
def openOrdersKey (bondId : Nat) : ListKey := ⟨bondId, some .open, 1, 100⟩

/-- The price feed of a bond, from the cache or else from the first page of its open
orders. -/
def getPriceFeed (ledger : Ledger) (redis : Redis) (bondId : Nat) :
    List PriceFeedResponse × Redis :=
  match redis.priceFeed.get bondId with
  | some cached => (cached, redis)
  | none =>
      let (ordersResult, redis) := listOrders ledger redis (openOrdersKey bondId)
      let feeds := priceFeeds ordersResult.data
      (feeds, { redis with priceFeed := redis.priceFeed.set bondId feeds })

/-! ## The best price -/

/-- A price, with the amount that is offered at it. -/
structure PriceLevel where
  price : Int
  amount : Int
  total : Int
deriving DecidableEq, Repr

/-- Orders by their prices; orders of one price stay in their order. -/
def sortByPrice (orders : List Order) : List Order :=
  orders.mergeSort fun a b => a.pricePerToken ≤ b.pricePerToken

/-- The first of the open orders by price; zeros of none. -/
def getBestPrice (ledger : Ledger) (redis : Redis) (bondId : Nat) : PriceLevel × Redis :=
  let (ordersResult, redis) := listOrders ledger redis (openOrdersKey bondId)
  match sortByPrice ordersResult.data with
  | [] => (⟨0, 0, 0⟩, redis)
  | best :: _ => (⟨best.pricePerToken, best.amount, best.pricePerToken * best.amount⟩, redis)

/-! ## Slippage -/

/-- How much of a request the book can fill. -/
inductive FillabilityStatus
  | fullyFillable
  | partiallyFillable
  | unfillable
deriving DecidableEq, Repr

/-- `Number(n)` of a bigint: the nearest double. -/
def number (n : Int) : Int := HalfEven.roundInt 53 n

/-- The answer of `calculateSlippage`. -/
structure SlippageResponse where
  bondId : Nat
  requestedAmount : Int
  fillableAmount : Int
  unfilledAmount : Int
  averagePrice : Int
  estimatedTotal : Int
  slippagePercent : Int
  fillabilityStatus : FillabilityStatus
deriving DecidableEq, Repr

/-- The variables of the loop of `calculateSlippage`. -/
structure Sweep where
  remaining : Int
  totalCost : Int
  totalAmount : Int

/-- Orders are taken one after the other, as long as anything remains. -/
def sweep (s : Sweep) : List Order → Sweep
  | [] => s
  | order :: rest =>
      if s.remaining ≤ 0 then s
      else
        let take := if s.remaining < order.amount then s.remaining else order.amount
        sweep { remaining := s.remaining - take
                totalCost := s.totalCost + take * order.pricePerToken
                totalAmount := s.totalAmount + take } rest

/-- What `calculateSlippage` makes of the orders that it is given. -/
def slippageOf (data : List Order) (bondId : Nat) (amount : Int) : SlippageResponse :=
  let sorted := sortByPrice data
  let swept := sweep ⟨amount, 0, 0⟩ sorted
  let fillableAmount := amount - swept.remaining
  let unfilledAmount := swept.remaining
  let averagePrice :=
    if swept.totalAmount > 0 then swept.totalCost.tdiv swept.totalAmount else 0
  let idealCost :=
    match sorted with
    | [] => 0
    | best :: _ => if amount > 0 then amount * best.pricePerToken else 0
  let slippagePercent :=
    if idealCost > 0 then number (((swept.totalCost - idealCost) * 100).tdiv idealCost) else 0
  { bondId
    requestedAmount := amount
    fillableAmount
    unfilledAmount
    averagePrice
    estimatedTotal := swept.totalCost
    slippagePercent := max 0 slippagePercent
    fillabilityStatus :=
      if unfilledAmount = 0 then .fullyFillable
      else if fillableAmount > 0 then .partiallyFillable
      else .unfillable }

/-- The slippage of a request on the first page of the open orders. -/
def calculateSlippage (ledger : Ledger) (redis : Redis) (bondId : Nat) (amount : Int) :
    SlippageResponse × Redis :=
  let (ordersResult, redis) := listOrders ledger redis (openOrdersKey bondId)
  (slippageOf ordersResult.data bondId amount, redis)

/-! ## Orders by their prices -/

/-- Sorting keeps the orders. -/
theorem sortByPrice_perm (orders : List Order) : orders.Perm (sortByPrice orders) :=
  (List.mergeSort_perm _ _).symm

/-- The cheapest come first. -/
theorem sortByPrice_sorted (orders : List Order) :
    (sortByPrice orders).Pairwise fun a b => a.pricePerToken ≤ b.pricePerToken := by
  have htotal : Std.Total fun a b : Order => a.pricePerToken ≤ b.pricePerToken :=
    ⟨fun a b => le_total a.pricePerToken b.pricePerToken⟩
  have htrans : IsTrans Order fun a b => a.pricePerToken ≤ b.pricePerToken :=
    ⟨fun _ _ _ hab hbc => hab.trans hbc⟩
  exact List.pairwise_mergeSort' (fun a b : Order => a.pricePerToken ≤ b.pricePerToken) orders

/-- The first order has the lowest price. -/
theorem min?_price_of_sorted {orders : List Order} {best : Order}
    {rest : List Order} (h : sortByPrice orders = best :: rest) :
    (orders.map Order.pricePerToken).min? = some best.pricePerToken := by
  have hperm := sortByPrice_perm orders
  have hsorted := sortByPrice_sorted orders
  rw [h] at hperm hsorted
  rw [List.min?_eq_some_iff]
  constructor
  · exact List.mem_map_of_mem (hperm.symm.subset (List.mem_cons_self ..))
  · intro p hp
    obtain ⟨order, horder, rfl⟩ := List.mem_map.mp hp
    rcases List.mem_cons.mp (hperm.subset horder) with rfl | hrest
    · exact le_rfl
    · exact (List.pairwise_cons.mp hsorted).1 order hrest

/-! ## The loop fills the request -/

/-- The loop takes what the greedy filling takes. -/
theorem sweep_eq {orders : List Order} (h : ∀ order ∈ orders, 0 ≤ order.amount)
    {s : Sweep} (hs : 0 ≤ s.remaining) :
    sweep s orders =
      { remaining := s.remaining - total (greedy Order.amount s.remaining orders)
        totalCost := s.totalCost + cost Order.pricePerToken (greedy Order.amount s.remaining orders)
        totalAmount := s.totalAmount + total (greedy Order.amount s.remaining orders) } := by
  induction orders generalizing s with
  | nil => simp [sweep, greedy, total, cost]
  | cons order rest ih =>
      obtain ⟨horder, hrest⟩ := List.forall_mem_cons.mp h
      rw [sweep]
      split
      · next hdone =>
          -- the loop ends; the turn goes on and takes nothing
          obtain hzero : s.remaining = 0 := by omega
          rw [hzero, total_greedy h le_rfl, cost_greedy_zero h,
            min_eq_left (depth_nonneg h)]
          cases s
          simp_all
      · have htake : (if s.remaining < order.amount then s.remaining else order.amount) =
            min s.remaining order.amount := by
          rw [min_def]
          split_ifs <;> omega
        dsimp only
        rw [htake, ih hrest (sub_nonneg.mpr (min_le_left ..)), greedy, total_cons, cost_cons]
        dsimp only
        rw [Sweep.mk.injEq, Int.mul_comm (min s.remaining order.amount)]
        refine ⟨?_, ?_, ?_⟩ <;> ring

/-- What a request is filled with, and what it costs. -/
theorem slippageOf_filled {data : List Order} (h : ∀ order ∈ data, 0 ≤ order.amount)
    (bondId : Nat) {amount : Int} (hamount : 0 ≤ amount) :
    (slippageOf data bondId amount).fillableAmount = min amount (depth Order.amount data) ∧
      (slippageOf data bondId amount).unfilledAmount =
        amount - min amount (depth Order.amount data) ∧
      (slippageOf data bondId amount).estimatedTotal =
        cost Order.pricePerToken (greedy Order.amount amount (sortByPrice data)) := by
  have hsorted : ∀ order ∈ sortByPrice data, 0 ≤ order.amount := fun order horder =>
    h order ((sortByPrice_perm data).symm.subset horder)
  have htotal := total_greedy hsorted hamount
  rw [← depth_perm (sortByPrice_perm data)] at htotal
  have hswept := sweep_eq hsorted (s := ⟨amount, 0, 0⟩) hamount
  simp only [slippageOf, hswept, htotal]
  refine ⟨by omega, trivial, by omega⟩

/-- The orders that a request is computed from. -/
def fetchedOrders (ledger : Ledger) (redis : Redis) (bondId : Nat) : List Order :=
  (listOrders ledger redis (openOrdersKey bondId)).1.data

/-- **The estimate is the best there is** on the fetched orders: what can be filled
is filled, and no way to take as much from them costs less. -/
theorem slippage_optimal (ledger : Ledger) (redis : Redis) (bondId : Nat) (amount : Int)
    (hamount : 0 ≤ amount) (hpositive : ∀ order ∈ fetchedOrders ledger redis bondId,
      0 < order.amount ∧ 0 < order.pricePerToken) (response : SlippageResponse)
    (hresponse : (calculateSlippage ledger redis bondId amount).1 = response) :
    response.fillableAmount =
        min amount ((fetchedOrders ledger redis bondId).map Order.amount).sum ∧
      response.fillableAmount + response.unfilledAmount = amount ∧
      IsLeast { c | ∃ takes, IsAllocation Order.amount (fetchedOrders ledger redis bondId) takes ∧
        total takes = response.fillableAmount ∧ cost Order.pricePerToken takes = c }
        response.estimatedTotal ∧
      (response.fillabilityStatus = .fullyFillable ↔ response.unfilledAmount = 0) := by
  obtain rfl : slippageOf (fetchedOrders ledger redis bondId) bondId amount = response := hresponse
  have hamounts : ∀ order ∈ fetchedOrders ledger redis bondId, 0 ≤ order.amount :=
    fun order horder => (hpositive order horder).1.le
  obtain ⟨hfillable, hunfilled, hcost⟩ := slippageOf_filled hamounts bondId hamount
  refine ⟨hfillable, ?_, ?_, ?_⟩
  · rw [hfillable, hunfilled]
    omega
  · rw [hfillable, hcost]
    exact isLeast_cost (sortByPrice_perm _) (sortByPrice_sorted _) hamounts hamount
  · generalize fetchedOrders ledger redis bondId = data
    simp only [slippageOf]
    split_ifs with hfull hpartly
    · simp [hfull]
    · simp [hfull]
    · simp [hfull]

/-- 200 tokens at the price 5 and 200 at the price 10. -/
def twoLevels : Ledger :=
  ⟨(machine.run (deploy sampleDeployment) (offeredListing ++
    [sampleTx 3 1 (.dex (.listBondTokens 1 1 200 10 "USDC" 10 1))])).dex, 4000⟩

/-- The orders of the sample. -/
theorem fetchedOrders_twoLevels : fetchedOrders twoLevels Redis.empty 1 =
    [offeredOrder, { offeredOrder with id := 2, pricePerToken := 10 }] := by decide +kernel

/-- Their amounts and prices are positive. -/
theorem positive_twoLevels : ∀ order ∈ fetchedOrders twoLevels Redis.empty 1,
    0 < order.amount ∧ 0 < order.pricePerToken := by
  rw [fetchedOrders_twoLevels]
  decide

/-- They are sorted already. -/
theorem sortByPrice_twoLevels : sortByPrice (fetchedOrders twoLevels Redis.empty 1) =
    [offeredOrder, { offeredOrder with id := 2, pricePerToken := 10 }] := by
  rw [fetchedOrders_twoLevels]
  exact List.mergeSort_of_pairwise (by decide)

/-- The slippage of 300 tokens on them. -/
theorem calculateSlippage_twoLevels : (calculateSlippage twoLevels Redis.empty 1 300).1 =
    ⟨1, 300, 300, 0, 6, 2000, 33, .fullyFillable⟩ := by
  change slippageOf (fetchedOrders twoLevels Redis.empty 1) 1 300 = _
  rw [slippageOf, sortByPrice_twoLevels]
  decide +kernel

/-- 300 tokens cost 200 at the first price and 100 at the second. -/
theorem slippage_optimal_sample :
    (300 : Int) = min 300 ((fetchedOrders twoLevels Redis.empty 1).map Order.amount).sum ∧
      (300 : Int) + 0 = 300 ∧
      IsLeast { c | ∃ takes, IsAllocation Order.amount (fetchedOrders twoLevels Redis.empty 1) takes ∧
        total takes = 300 ∧ cost Order.pricePerToken takes = c } 2000 ∧
      (FillabilityStatus.fullyFillable = .fullyFillable ↔ (0 : Int) = 0) :=
  slippage_optimal twoLevels Redis.empty 1 300 (by decide) positive_twoLevels
    ⟨1, 300, 300, 0, 6, 2000, 33, .fullyFillable⟩ calculateSlippage_twoLevels

/-! ## Percents -/

/-- The cost is at least so many percent more than the base. -/
def PercentOver (cost base percent : Int) : Prop := (100 + percent) * base ≤ 100 * cost

instance (cost base percent : Int) : Decidable (PercentOver cost base percent) :=
  inferInstanceAs (Decidable (_ ≤ _))

@[simp] theorem number_zero : number 0 = 0 := rfl

/-- `Number` keeps the order. -/
theorem number_mono : Monotone number := fun _ _ h => HalfEven.roundInt_mono (by decide) h

theorem number_pos {n : Int} (h : 0 < n) : 0 < number n := HalfEven.roundInt_pos (by decide) h

/-- The clamp at zero can be made before or after. -/
theorem max_number (n : Int) : max 0 (number n) = number (max 0 n) := by
  rw [number_mono.map_max, number_zero]

/-- The quotient that is clamped at zero counts the percents that the cost is over
the ideal. -/
theorem le_percent_iff {cost ideal percent : Int} (hideal : 0 < ideal) (hpercent : 0 < percent) :
    percent ≤ max 0 (((cost - ideal) * 100).tdiv ideal) ↔ PercentOver cost ideal percent := by
  unfold PercentOver
  rcases le_or_gt ideal cost with hle | hlt
  · have hnonneg : 0 ≤ (cost - ideal) * 100 := by omega
    have hquotient := Int.ediv_nonneg hnonneg hideal.le
    rw [Int.tdiv_eq_ediv_of_nonneg hnonneg, max_eq_right hquotient,
      Int.le_ediv_iff_mul_le hideal]
    constructor <;> intro h <;> linarith
  · have hneg : ((cost - ideal) * 100).tdiv ideal ≤ 0 := by
      have hflip : (cost - ideal) * 100 = -((ideal - cost) * 100) := by ring
      rw [hflip, Int.neg_tdiv, Int.neg_nonpos_iff]
      exact Int.tdiv_nonneg (by omega) hideal.le
    rw [max_eq_left hneg]
    apply iff_of_false
    · omega
    · have hmore := Int.mul_pos hpercent hideal
      intro h
      linarith

/-- A whole percent is under the floor exactly if the cost is above the base by as much. -/
theorem le_floor_percent_iff {cost filled percent : Int} (hfilled : 0 < filled) :
    percent ≤ 100 * (cost - filled) / filled ↔ PercentOver cost filled percent := by
  rw [Int.le_ediv_iff_mul_le hfilled, PercentOver]
  constructor <;> intro h <;> linarith

/-- The percentages over two bases are the same number when the smaller base does
not bring a whole percent more that the number shows. -/
theorem percent_eq_iff {cost filled ideal : Int} (hfilled : 0 < filled) (hle : filled ≤ cost)
    (hideal : filled ≤ ideal) :
    max 0 (number (((cost - ideal) * 100).tdiv ideal)) =
        number (100 * (cost - filled) / filled) ↔
      ∀ percent > 0, PercentOver cost filled percent →
        ∃ percent', PercentOver cost ideal percent' ∧ number percent ≤ number percent' := by
  have hideal' : 0 < ideal := lt_of_lt_of_le hfilled hideal
  rw [max_number]
  have hreported (percent : Int) (hpercent : 0 < percent) :
      percent ≤ max 0 (((cost - ideal) * 100).tdiv ideal) ↔ PercentOver cost ideal percent :=
    le_percent_iff hideal' hpercent
  have hfloor (percent : Int) : percent ≤ 100 * (cost - filled) / filled ↔
      PercentOver cost filled percent := le_floor_percent_iff hfilled
  have hnonneg : 0 ≤ 100 * (cost - filled) / filled := Int.ediv_nonneg (by omega) hfilled.le
  have hclamped : 0 ≤ max 0 (((cost - ideal) * 100).tdiv ideal) := le_max_left ..
  generalize max 0 (((cost - ideal) * 100).tdiv ideal) = reported at hreported hclamped ⊢
  generalize 100 * (cost - filled) / filled = floor at hfloor hnonneg ⊢
  have hlower : reported ≤ floor := by
    rcases hclamped.eq_or_lt with rfl | hpos
    · exact hnonneg
    · have hover := (hreported reported hpos).mp le_rfl
      rw [hfloor]
      exact le_trans (mul_le_mul_of_nonneg_left hideal (by omega)) hover
  constructor
  · intro heq percent hpercent hover
    have hnumber : number percent ≤ number reported :=
      heq ▸ number_mono ((hfloor percent).mpr hover)
    have hpos : 0 < reported := by
      by_contra hzero
      have hflat := number_mono (not_lt.mp hzero)
      have hnumber' := number_pos hpercent
      rw [number_zero] at hflat
      omega
    exact ⟨reported, (hreported reported hpos).mp le_rfl, hnumber⟩
  · intro hall
    apply le_antisymm (number_mono hlower)
    rcases hnonneg.eq_or_lt with rfl | hpos
    · exact number_mono hclamped
    · obtain ⟨percent, hover, hnumber⟩ := hall floor hpos ((hfloor floor).mp le_rfl)
      apply le_trans hnumber (number_mono _)
      rcases le_or_gt percent 0 with hle' | hgt
      · exact le_trans hle' hclamped
      · exact (hreported percent hgt).mpr hover

/-! ## The reported percentage -/

/-- All that the orders offer. -/
def offered (orders : List Order) : Int := (orders.map Order.amount).sum

/-- What all of it costs. -/
def offeredCost (orders : List Order) : Int :=
  (orders.map fun order => order.pricePerToken * order.amount).sum

/-- Nothing more is taken once nothing remains. -/
theorem sweep_of_done {s : Sweep} (h : s.remaining ≤ 0) (orders : List Order) :
    sweep s orders = s := by
  cases orders with
  | nil => rfl
  | cons order rest => rw [sweep, if_pos h]

/-- What can be filled was asked for. -/
theorem amount_pos_of_fillable {data : List Order} {bondId : Nat} {amount : Int}
    (h : 0 < (slippageOf data bondId amount).fillableAmount) : 0 < amount := by
  by_contra hdone
  simp only [slippageOf, sweep_of_done (s := ⟨amount, 0, 0⟩) (not_lt.mp hdone)] at h
  omega

/-- What the whole book costs. -/
theorem estimatedTotal_of_thin {data : List Order} (h : ∀ order ∈ data, 0 ≤ order.amount)
    (bondId : Nat) {amount : Int} (hthin : depth Order.amount data ≤ amount) :
    (slippageOf data bondId amount).estimatedTotal = offeredCost data := by
  have hperm := sortByPrice_perm data
  rw [(slippageOf_filled h bondId (le_trans (depth_nonneg h) hthin)).2.2,
    greedy_all (fun order horder => h order (hperm.symm.subset horder))
      (by rwa [← depth_perm hperm])]
  simp only [cost, List.map_map, Function.comp_def]
  exact (hperm.symm.map _).sum_eq

/-- No fill costs less than its amount at the best price. -/
theorem best_le_estimatedTotal {data : List Order} (h : ∀ order ∈ data, 0 ≤ order.amount)
    {best : Int} (hbest : ∀ order ∈ data, best ≤ order.pricePerToken) (bondId : Nat)
    {amount : Int} (hamount : 0 ≤ amount) :
    (slippageOf data bondId amount).fillableAmount * best ≤
      (slippageOf data bondId amount).estimatedTotal := by
  have hperm := sortByPrice_perm data
  have hsorted : ∀ order ∈ sortByPrice data, 0 ≤ order.amount := fun order horder =>
    h order (hperm.symm.subset horder)
  obtain ⟨hfillable, -, htotal⟩ := slippageOf_filled h bondId hamount
  have hlowest : ∀ order ∈ sortByPrice data, best ≤ order.pricePerToken := fun order horder =>
    hbest order (hperm.symm.subset horder)
  have hcost := cost_greedy_add hsorted hlowest le_rfl
    (le_min hamount (depth_nonneg hsorted)) (by rw [zero_add]; exact min_le_right ..)
  rw [cost_greedy_zero hsorted, zero_add, zero_add, greedy_min_depth hsorted,
    ← depth_perm hperm] at hcost
  rw [hfillable, htotal, mul_comm]
  exact hcost

/-- The percentage is reported over the cost of all that was asked for at the best price. -/
theorem slippagePercent_eq {data : List Order} {best : Int}
    (hbest : (data.map Order.pricePerToken).min? = some best) (hpos : 0 < best) (bondId : Nat)
    {amount : Int} (hamount : 0 < amount) :
    (slippageOf data bondId amount).slippagePercent =
      max 0 (number ((((slippageOf data bondId amount).estimatedTotal - amount * best) *
        100).tdiv (amount * best))) := by
  cases hsorted : sortByPrice data with
  | nil =>
      have hnil := List.Perm.eq_nil ((sortByPrice_perm data).trans (hsorted ▸ List.Perm.refl _))
      rw [hnil] at hbest
      cases hbest
  | cons first rest =>
      obtain rfl : first.pricePerToken = best :=
        Option.some.inj ((min?_price_of_sorted hsorted).symm.trans hbest)
      have hideal : 0 < amount * first.pricePerToken := Int.mul_pos hamount hpos
      simp only [slippageOf, hsorted, if_pos hamount, if_pos hideal]

theorem best_pos {data : List Order} (hpositive : ∀ order ∈ data,
    0 < order.amount ∧ 0 < order.pricePerToken) {best : Int}
    (hbest : (data.map Order.pricePerToken).min? = some best) : 0 < best := by
  obtain ⟨order, horder, rfl⟩ := List.mem_map.mp (List.min?_eq_some_iff.mp hbest).1
  exact (hpositive order horder).2

/-- The reported percentage is right exactly if each whole percent of the book is
matched. -/
theorem slippageOf_percent_iff {data : List Order} (hpositive : ∀ order ∈ data,
    0 < order.amount ∧ 0 < order.pricePerToken) {best : Int}
    (hbest : (data.map Order.pricePerToken).min? = some best) (bondId : Nat) {amount : Int}
    (hfillable : 0 < (slippageOf data bondId amount).fillableAmount) :
    (slippageOf data bondId amount).slippagePercent =
        number (100 * ((slippageOf data bondId amount).estimatedTotal -
          (slippageOf data bondId amount).fillableAmount * best) /
            ((slippageOf data bondId amount).fillableAmount * best)) ↔
      ∀ percent > 0, PercentOver (offeredCost data) (offered data * best) percent →
        ∃ percent', PercentOver (offeredCost data) (amount * best) percent' ∧
          number percent ≤ number percent' := by
  have hamounts : ∀ order ∈ data, 0 ≤ order.amount := fun order horder =>
    (hpositive order horder).1.le
  have hamount := amount_pos_of_fillable hfillable
  have hlowest := (List.min?_eq_some_iff.mp hbest).2
  have hpos := best_pos hpositive hbest
  have hcost := best_le_estimatedTotal hamounts
    (fun order horder => hlowest _ (List.mem_map_of_mem horder)) bondId hamount.le
  have hfilled := Int.mul_pos hfillable hpos
  have hmin := (slippageOf_filled hamounts bondId hamount.le).1
  rw [slippagePercent_eq hbest hpos bondId hamount]
  rcases le_total amount (depth Order.amount data) with hfull | hthin
  · -- all is filled: both percentages are over one base
    rw [min_eq_left hfull] at hmin
    rw [hmin] at hcost hfilled ⊢
    apply iff_of_true
    · rw [percent_eq_iff hfilled hcost le_rfl]
      intro percent _ hover
      exact ⟨percent, hover, le_rfl⟩
    · intro percent hpercent hover
      refine ⟨percent, le_trans ?_ hover, le_rfl⟩
      exact mul_le_mul_of_nonneg_left (mul_le_mul_of_nonneg_right hfull hpos.le) (by omega)
  · rw [min_eq_right hthin] at hmin
    rw [estimatedTotal_of_thin hamounts bondId hthin, hmin] at hcost ⊢
    rw [hmin] at hfilled
    exact percent_eq_iff hfilled hcost (mul_le_mul_of_nonneg_right hthin hpos.le)

/-- A request for what another one can fill is filled at the same cost. -/
theorem slippageOf_fillable {data : List Order} (h : ∀ order ∈ data, 0 ≤ order.amount)
    (bondId : Nat) {amount : Int} (hamount : 0 ≤ amount) :
    (slippageOf data bondId (slippageOf data bondId amount).fillableAmount).fillableAmount =
        (slippageOf data bondId amount).fillableAmount ∧
      (slippageOf data bondId (slippageOf data bondId amount).fillableAmount).estimatedTotal =
        (slippageOf data bondId amount).estimatedTotal := by
  obtain ⟨hfillable, -, htotal⟩ := slippageOf_filled h bondId hamount
  have hperm := sortByPrice_perm data
  have hsorted : ∀ order ∈ sortByPrice data, 0 ≤ order.amount := fun order horder =>
    h order (hperm.symm.subset horder)
  have hnonneg : 0 ≤ min amount (depth Order.amount data) := le_min hamount (depth_nonneg h)
  obtain ⟨hfillable', -, htotal'⟩ := slippageOf_filled h bondId hnonneg
  rw [hfillable]
  constructor
  · rw [hfillable', min_assoc, min_self]
  · rw [htotal', htotal, depth_perm hperm, greedy_min_depth hsorted]

/-- **The percentage is that of what is filled** exactly when the book offers what
is asked for, or the rest of the request does not take away a whole percent that
shows in the number.  Under the same condition a request for what can be filled
reports the same. -/
theorem slippage_percent_iff (ledger : Ledger) (redis : Redis) (bondId : Nat) (amount best : Int)
    (hpositive : ∀ order ∈ fetchedOrders ledger redis bondId,
      0 < order.amount ∧ 0 < order.pricePerToken)
    (hbest : ((fetchedOrders ledger redis bondId).map Order.pricePerToken).min? = some best)
    (response : SlippageResponse)
    (hresponse : (calculateSlippage ledger redis bondId amount).1 = response)
    (hfillable : 0 < response.fillableAmount) :
    (response.slippagePercent = number (100 *
          (response.estimatedTotal - response.fillableAmount * best) /
            (response.fillableAmount * best)) ↔
        ∀ percent > 0, PercentOver (offeredCost (fetchedOrders ledger redis bondId))
            (offered (fetchedOrders ledger redis bondId) * best) percent →
          ∃ percent', PercentOver (offeredCost (fetchedOrders ledger redis bondId))
            (amount * best) percent' ∧ number percent ≤ number percent') ∧
      (response.slippagePercent = number (100 *
          (response.estimatedTotal - response.fillableAmount * best) /
            (response.fillableAmount * best)) ↔
        response.slippagePercent =
          (calculateSlippage ledger redis bondId response.fillableAmount).1.slippagePercent) := by
  obtain rfl : slippageOf (fetchedOrders ledger redis bondId) bondId amount = response := hresponse
  have hamounts : ∀ order ∈ fetchedOrders ledger redis bondId, 0 ≤ order.amount :=
    fun order horder => (hpositive order horder).1.le
  refine ⟨slippageOf_percent_iff hpositive hbest bondId hfillable, ?_⟩
  change _ ↔ _ = (slippageOf (fetchedOrders ledger redis bondId) bondId
    (slippageOf (fetchedOrders ledger redis bondId) bondId amount).fillableAmount).slippagePercent
  have hamount := amount_pos_of_fillable hfillable
  obtain ⟨hfillable', htotal'⟩ := slippageOf_fillable hamounts bondId hamount.le
  have hmin := (slippageOf_filled hamounts bondId hamount.le).1
  have hfilled := (slippageOf_percent_iff hpositive hbest bondId (hfillable'.symm ▸ hfillable)).mpr
    (by
      intro percent hpercent hover
      have hle : (slippageOf (fetchedOrders ledger redis bondId) bondId amount).fillableAmount ≤
          offered (fetchedOrders ledger redis bondId) := hmin.trans_le (min_le_right ..)
      refine ⟨percent, le_trans ?_ hover, le_rfl⟩
      exact mul_le_mul_of_nonneg_left
        (mul_le_mul_of_nonneg_right hle (best_pos hpositive hbest).le) (by omega))
  rw [hfillable', htotal'] at hfilled
  rw [hfilled]

/-- Of 800 tokens 400 can be filled, at half more than their best price. -/
theorem calculateSlippage_thin : (calculateSlippage twoLevels Redis.empty 1 800).1 =
    ⟨1, 800, 400, 400, 7, 3000, 0, .partiallyFillable⟩ := by
  change slippageOf (fetchedOrders twoLevels Redis.empty 1) 1 800 = _
  rw [slippageOf, sortByPrice_twoLevels]
  decide +kernel

/-- The best price of the sample is 5. -/
theorem min?_price_twoLevels :
    ((fetchedOrders twoLevels Redis.empty 1).map Order.pricePerToken).min? = some 5 := by
  rw [fetchedOrders_twoLevels]
  rfl

/-- A request for 300 is filled whole, and 33 percent is right. -/
theorem slippage_percent_iff_sample : (33 : Int) = number (100 * (2000 - 300 * 5) / (300 * 5)) := by
  refine (slippage_percent_iff twoLevels Redis.empty 1 300 5 positive_twoLevels
    min?_price_twoLevels ⟨1, 300, 300, 0, 6, 2000, 33, .fullyFillable⟩
    calculateSlippage_twoLevels (by decide)).1.mpr ?_
  rw [fetchedOrders_twoLevels]
  intro percent hpercent hover
  refine ⟨percent, ?_, le_rfl⟩
  change (100 + percent) * (400 * 5) ≤ 100 * 3000 at hover
  change (100 + percent) * (300 * 5) ≤ 100 * 3000
  omega

/-- A request for 800 reports no slippage, where 50 percent is paid. -/
theorem slippage_percent_lost :
    ¬ ∀ (ledger : Ledger) (redis : Redis) (bondId : Nat) (amount best : Int),
      (∀ order ∈ fetchedOrders ledger redis bondId, 0 < order.amount ∧ 0 < order.pricePerToken) →
      ((fetchedOrders ledger redis bondId).map Order.pricePerToken).min? = some best →
      ∀ response, (calculateSlippage ledger redis bondId amount).1 = response →
        0 < response.fillableAmount →
        response.slippagePercent = number (100 *
          (response.estimatedTotal - response.fillableAmount * best) /
            (response.fillableAmount * best)) := by
  intro h
  have hfloor := h twoLevels Redis.empty 1 800 5 positive_twoLevels min?_price_twoLevels _
    calculateSlippage_thin (by decide)
  exact absurd hfloor (by decide +kernel)

end EcoMint.Marketplace
