import EcoMint.CheckLoop
import EcoMint.DexService
import EcoMint.PurchaseAuthorisation

/-!
# Reconciliation of the marketplace with the ledger

`reconcile` compares what Redis holds with the ledger: the indexed quote balances
of the sampled wallets, the cached orders that are listed as open, the quote
balance of their sellers, and the orders that the listing leaves out.  `repair`
evicts what a report names.

A run changes Redis in one way only: it adds what it reads from the ledger.  So a
report is told by the caches before the run, and what it does not name agrees with
the ledger afterwards.  After a repair the second run finds the caches of the first
one either in order or gone.
-/

namespace EcoMint.Marketplace

open Storage
open Portfolio (OrdersResponse decodeOrder ids isActionable normalizeQuoteAssetSymbol)
open DexRouter (Order OrderStatus)

/-! ## The service -/

/-- What a reconciliation may report. -/
inductive Mismatch
  | balanceMismatch (walletAddress : Address) (asset : Symbol) (expected observed : Int)
  | staleOrderCache (orderId : Nat) (expected observed : OrderStatus)
  | missingOrder (orderId : Nat) (expected : OrderStatus)
  | orderEscrowInvariant (orderId : Nat) (walletAddress : Address) (asset : Symbol)
      (required observed : Int)
deriving DecidableEq, Repr

/-- The report of a reconciliation. -/
structure ReconciliationReport where
  sampledWallets : Nat
  checkedBalances : Nat
  checkedOrders : Nat
  mismatches : List Mismatch
  hasMismatches : Bool
deriving DecidableEq, Repr

/-- What the caller may choose. -/
structure ReconcileOptions where
  wallets : Option (List Address)
  assets : Option (List Symbol)
  maxOrderScan : Option Nat

/-- `reconcile()` -/
def ReconcileOptions.default : ReconcileOptions := ⟨none, none, none⟩

/-- The order can still be bought from. -/
def isOpenState (status : OrderStatus) : Bool := status = .open ∨ status = .partiallyFilled

/-- The page of two hundred open orders that stands for the index. -/
def openIndexKey : ListKey := ⟨0, some .open, 1, 200⟩

/-- The wallets that are given, or the configured ones and the sellers of the index. -/
def resolveWallets (configured : List Address) (ledger : Ledger) (redis : Redis)
    (override : Option (List Address)) : List Address × Redis :=
  match override with
  | some (wallet :: wallets) => ((wallet :: wallets).eraseDups, redis)
  | _ =>
      let (fromOrders, redis) := listOrders ledger redis openIndexKey
      ((configured ++ fromOrders.data.map fun order => order.seller).eraseDups, redis)

/-- A balance that is not indexed yet is seeded from the ledger. -/
def reconcileBalance (ledger : Ledger) (entry : Address × Symbol) (redis : Redis) :
    Option (List Mismatch) × Redis :=
  let (wallet, asset) := entry
  match getQuoteBalance ledger wallet asset with
  | none => (none, redis)
  | some onChain =>
      match getIndexedQuoteBalance redis wallet asset with
      | none => (some [], setIndexedQuoteBalance redis wallet asset onChain)
      | some indexed =>
          (some (if indexed ≠ onChain then [.balanceMismatch wallet asset onChain indexed] else []),
            redis)

/-- The seller must still hold enough quote asset. -/
def escrowInvariant (ledger : Ledger) (order : Order) : Option (List Mismatch) := do
  let escrowed ← getQuoteBalance ledger order.seller order.quoteAsset
  let required := order.pricePerToken * order.amount
  return if escrowed < required then
    [.orderEscrowInvariant order.id order.seller order.quoteAsset required escrowed] else []

/-- One round over the open orders: the order on chain beside the cached one, and the
seller's balance. -/
def reconcileOrder (ledger : Ledger) (order : Order) (redis : Redis) :
    Option (List Mismatch) × Redis :=
  match fetchOrderFromLedger ledger order.id with
  | none => (none, redis)
  | some onChain =>
      match getOrder ledger redis order.id with
      | none => (none, redis)
      | some (indexed, redis) =>
          let stale := if isOpenState indexed.status ∧ !isOpenState onChain.status then
            [.staleOrderCache order.id onChain.status indexed.status] else []
          match escrowInvariant ledger order with
          | none => (none, redis)
          | some underEscrowed => (some (stale ++ underEscrowed), redis)

/-- The walk over the ids on the ledger. -/
def missingOrders (ledger : Ledger) (openOrders : List Order) (maxOrderScan : Nat) :
    List Mismatch :=
  (ids (min (getOrderCount ledger) maxOrderScan)).filterMap fun id =>
    match fetchOrderFromLedger ledger id with
    | none => none
    | some onChain =>
        if isOpenState onChain.status ∧ id ∉ openOrders.map (fun order => order.id) then
          some (.missingOrder id onChain.status)
        else none

/-- The checks of the open orders, and the orders that the index misses. -/
def reconcileOrders (ledger : Ledger) (redis : Redis) (maxOrderScan : Nat) :
    Option (Nat × List Mismatch) × Redis :=
  let (openOrders, redis) := listOrders ledger redis openIndexKey
  match CheckLoop.run (reconcileOrder ledger) openOrders.data redis with
  | (none, redis) => (none, redis)
  | (some found, redis) =>
      (some (openOrders.data.length, found ++ missingOrders ledger openOrders.data maxOrderScan),
        redis)

/-- The wallets with the assets that are checked for them. -/
def balanceEntries (wallets : List Address) (assets : List Symbol) : List (Address × Symbol) :=
  wallets.flatMap fun wallet => assets.map fun asset => (wallet, asset)

/-- `none` where the run throws; Redis keeps what was written until then. -/
def reconcile (configured : List Address) (ledger : Ledger) (redis : Redis)
    (options : ReconcileOptions) : Option ReconciliationReport × Redis :=
  let (wallets, redis) := resolveWallets configured ledger redis options.wallets
  let entries := balanceEntries wallets (options.assets.getD supportedQuoteAssets)
  match CheckLoop.run (reconcileBalance ledger) entries redis with
  | (none, redis) => (none, redis)
  | (some balances, redis) =>
      match reconcileOrders ledger redis (options.maxOrderScan.getD 500) with
      | (none, redis) => (none, redis)
      | (some (checkedOrders, orders), redis) =>
          let mismatches := balances ++ orders
          (some { sampledWallets := wallets.length, checkedBalances := entries.length
                  checkedOrders, mismatches, hasMismatches := mismatches.length > 0 }, redis)

/-- The repair of one mismatch. -/
def repairMismatch (redis : Redis) : Mismatch → Redis
  | .balanceMismatch wallet asset expected _ =>
      delQuoteBalance (setIndexedQuoteBalance redis wallet asset expected) wallet asset
  | .staleOrderCache orderId _ _ => (redis.delOrder orderId).delOrders
  | .missingOrder _ _ => redis.delOrders
  | .orderEscrowInvariant _ _ _ _ _ => redis.delOrders

/-- The repairs, one after the other. -/
def repair (redis : Redis) (report : ReconciliationReport) : Redis :=
  report.mismatches.foldl repairMismatch redis

/-! ## Checks only add what they read -/

/-- What is in Redis afterwards was there, or agrees with the ledger. -/
structure Redis.GrowsTo (ledger : Ledger) (redis redis' : Redis) : Prop where
  quoteBalance : ∀ wallet asset balance, redis'.quoteBalance.get (wallet, asset) = some balance →
    redis.quoteBalance.get (wallet, asset) = some balance ∨
      getQuoteBalance ledger wallet asset = some balance
  order : ∀ id order, redis'.order.get id = some order →
    redis.order.get id = some order ∨ fetchOrderFromLedger ledger id = some order

theorem Redis.GrowsTo.refl (ledger : Ledger) (redis : Redis) : redis.GrowsTo ledger redis :=
  ⟨fun _ _ _ h => Or.inl h, fun _ _ h => Or.inl h⟩

theorem Redis.GrowsTo.trans {ledger : Ledger} {redis redis' redis'' : Redis}
    (h : redis.GrowsTo ledger redis') (h' : redis'.GrowsTo ledger redis'') :
    redis.GrowsTo ledger redis'' where
  quoteBalance wallet asset balance hget := by
    rcases h'.quoteBalance wallet asset balance hget with hbefore | hledger
    · exact h.quoteBalance wallet asset balance hbefore
    · exact Or.inr hledger
  order id order hget := by
    rcases h'.order id order hget with hbefore | hledger
    · exact h.order id order hbefore
    · exact Or.inr hledger

/-- A read through the cache lets it grow by the order alone. -/
theorem getOrder_grows {ledger : Ledger} {redis redis' : Redis} {id : Nat} {order : Order}
    (h : getOrder ledger redis id = some (order, redis')) :
    redis.GrowsTo ledger redis' ∧ redis'.orders = redis.orders ∧
      redis'.order.get id = some order := by
  unfold getOrder at h
  split at h
  · next cached hcached =>
      obtain ⟨rfl, rfl⟩ := Prod.mk.inj (Option.some.inj h)
      exact ⟨.refl ledger redis, rfl, hcached⟩
  · obtain ⟨fetched, hfetch, hpair⟩ := Option.map_eq_some_iff.mp h
    obtain ⟨rfl, rfl⟩ := Prod.mk.inj hpair
    refine ⟨⟨fun _ _ _ h => Or.inl h, ?_⟩, rfl, get_set_self ..⟩
    intro id' order hget
    dsimp only at hget
    rw [get_set] at hget
    split at hget
    · next heq =>
        obtain rfl := Option.some.inj hget
        exact Or.inr (heq ▸ hfetch)
    · exact Or.inl hget

/-- A balance check indexes its own entry at most, at what it reads. -/
theorem reconcileBalance_quoteBalance {ledger : Ledger} {entry entry' : Address × Symbol}
    {redis : Redis} {balance : Int}
    (h : (reconcileBalance ledger entry redis).2.quoteBalance.get entry' = some balance) :
    redis.quoteBalance.get entry' = some balance ∨
      entry' = entry ∧ getQuoteBalance ledger entry.1 entry.2 = some balance := by
  unfold reconcileBalance at h
  dsimp only at h
  split at h
  · exact Or.inl h
  next onChain hread =>
  split at h
  · dsimp only [setIndexedQuoteBalance] at h
    rw [get_set] at h
    split at h
    · next heq => exact Or.inr ⟨heq, hread.trans h⟩
    · exact Or.inl h
  · exact Or.inl h

/-- What a balance check does to Redis, however it ends. -/
theorem reconcileBalance_grows (ledger : Ledger) (entry : Address × Symbol) (redis : Redis) :
    redis.GrowsTo ledger (reconcileBalance ledger entry redis).2 ∧
      (reconcileBalance ledger entry redis).2.orders = redis.orders := by
  have hrest : (reconcileBalance ledger entry redis).2.order = redis.order ∧
      (reconcileBalance ledger entry redis).2.orders = redis.orders := by
    unfold reconcileBalance
    dsimp only
    split
    · exact ⟨rfl, rfl⟩
    · split
      · exact ⟨rfl, rfl⟩
      · exact ⟨rfl, rfl⟩
  refine ⟨⟨?_, ?_⟩, hrest.2⟩
  · intro wallet asset balance hget
    rcases reconcileBalance_quoteBalance hget with hbefore | ⟨rfl, hread⟩
    · exact Or.inl hbefore
    · exact Or.inr hread
  · intro id order hget
    rw [hrest.1] at hget
    exact Or.inl hget

/-- What a balance check says. -/
theorem reconcileBalance_spec {ledger : Ledger} {wallet : Address} {asset : Symbol}
    {redis redis' : Redis} {found : List Mismatch}
    (h : reconcileBalance ledger (wallet, asset) redis = (some found, redis')) :
    ∃ onChain, getQuoteBalance ledger wallet asset = some onChain ∧
      (redis'.quoteBalance.get (wallet, asset) = some onChain ∧ found = [] ∨
        ∃ indexed, redis.quoteBalance.get (wallet, asset) = some indexed ∧ onChain ≠ indexed ∧
          found = [.balanceMismatch wallet asset onChain indexed]) := by
  unfold reconcileBalance getIndexedQuoteBalance at h
  dsimp only at h
  cases hread : getQuoteBalance ledger wallet asset with
  | none =>
      rw [hread] at h
      cases h
  | some onChain =>
      rw [hread] at h
      cases hget : redis.quoteBalance.get (wallet, asset) with
      | none =>
          rw [hget] at h
          obtain ⟨hfound, rfl⟩ := Prod.mk.inj h
          obtain rfl := Option.some.inj hfound
          exact ⟨onChain, rfl, Or.inl ⟨get_set_self .., rfl⟩⟩
      | some indexed =>
          rw [hget] at h
          obtain ⟨hfound, rfl⟩ := Prod.mk.inj h
          obtain rfl := Option.some.inj hfound
          refine ⟨onChain, rfl, ?_⟩
          by_cases hsame : indexed = onChain
          · exact Or.inl ⟨hsame ▸ hget, if_neg (by simpa using hsame)⟩
          · exact Or.inr ⟨indexed, rfl, Ne.symm hsame, if_pos hsame⟩

/-- The cached order, if it looks open, is open on the ledger. -/
def NotStale (redis : Redis) (orderId : Nat) (onChain : Order) : Prop :=
  ∀ cached, redis.order.get orderId = some cached → isOpenState cached.status →
    isOpenState onChain.status

/-- What an order check does to Redis, however it ends. -/
theorem reconcileOrder_grows (ledger : Ledger) (order : Order) (redis : Redis) :
    redis.GrowsTo ledger (reconcileOrder ledger order redis).2 ∧
      (reconcileOrder ledger order redis).2.orders = redis.orders := by
  unfold reconcileOrder
  cases fetchOrderFromLedger ledger order.id with
  | none => exact ⟨.refl ledger redis, rfl⟩
  | some onChain =>
      cases hindexed : getOrder ledger redis order.id with
      | none => exact ⟨.refl ledger redis, rfl⟩
      | some result =>
          obtain ⟨hgrows, horders, -⟩ := getOrder_grows hindexed
          cases escrowInvariant ledger order with
          | none => exact ⟨hgrows, horders⟩
          | some underEscrowed => exact ⟨hgrows, horders⟩

/-- What an order check says. -/
theorem reconcileOrder_spec {ledger : Ledger} {order : Order} {redis redis' : Redis}
    {found : List Mismatch} (h : reconcileOrder ledger order redis = (some found, redis')) :
    ∃ onChain stale underEscrowed, fetchOrderFromLedger ledger order.id = some onChain ∧
      escrowInvariant ledger order = some underEscrowed ∧ found = stale ++ underEscrowed ∧
      (stale = [] ∧ NotStale redis' order.id onChain ∨
        ¬ NotStale redis order.id onChain ∧
          ∃ observed, stale = [.staleOrderCache order.id onChain.status observed]) := by
  unfold reconcileOrder at h
  split at h
  · cases h
  next onChain hfetch =>
  split at h
  · cases h
  next indexed middle hindexed =>
  dsimp only at h
  split at h
  · cases h
  next underEscrowed hescrow =>
  obtain ⟨hfound, rfl⟩ := Prod.mk.inj h
  obtain rfl := Option.some.inj hfound
  obtain ⟨hgrows, -, hcached⟩ := getOrder_grows hindexed
  refine ⟨onChain, _, underEscrowed, hfetch, hescrow, rfl, ?_⟩
  by_cases hstale : isOpenState indexed.status ∧ !isOpenState onChain.status
  · right
    rw [if_pos hstale]
    refine ⟨?_, indexed.status, rfl⟩
    intro hclean
    rcases hgrows.order order.id indexed hcached with hbefore | hledger
    · have hopen := hclean indexed hbefore hstale.1
      simp [hopen] at hstale
    · obtain rfl := Option.some.inj (hfetch.symm.trans hledger)
      simp at hstale
  · left
    refine ⟨if_neg hstale, ?_⟩
    intro cached hget hopen
    obtain rfl := Option.some.inj (hcached.symm.trans hget)
    by_contra hclosed
    exact hstale ⟨hopen, by simpa using hclosed⟩

/-! ## A run -/

/-- The open orders that a run looks at. -/
def openIndex (ledger : Ledger) (redis : Redis) : List Order :=
  (listOrders ledger redis openIndexKey).1.data

def sampledWallets (configured : List Address) (ledger : Ledger) (redis : Redis) : List Address :=
  (resolveWallets configured ledger redis none).1

/-- The list that was read is in the cache afterwards. -/
theorem get_orders_listOrders (ledger : Ledger) (redis : Redis) (key : ListKey) :
    (listOrders ledger redis key).2.orders.get key = some (listOrders ledger redis key).1 := by
  cases hcached : redis.orders.get key with
  | some page => rw [listOrders_data_of_cached hcached, hcached]
  | none =>
      rw [listOrders_of_absent hcached]
      exact get_set_self ..

/-- A list that is read lets the cache grow. -/
theorem listOrders_grows (ledger : Ledger) (redis : Redis) (key : ListKey) :
    redis.GrowsTo ledger (listOrders ledger redis key).2 := by
  cases hcached : redis.orders.get key with
  | some page =>
      rw [listOrders_data_of_cached hcached]
      exact .refl ledger redis
  | none =>
      rw [listOrders_of_absent hcached]
      exact ⟨fun _ _ _ h => Or.inl h, fun _ _ h => Or.inl h⟩

/-- The index is what the cache has of it. -/
theorem openIndex_of_cached {ledger : Ledger} {redis : Redis} {page : OrdersResponse}
    (h : redis.orders.get openIndexKey = some page) : openIndex ledger redis = page.data := by
  rw [openIndex, listOrders_data_of_cached h]

/-- The balance checks leave the listing where it is. -/
theorem listOrders_of_balances (ledger : Ledger) (redis : Redis)
    (entries : List (Address × Symbol)) {balances : Option (List Mismatch)} {middle : Redis}
    (h : CheckLoop.run (reconcileBalance ledger) entries
      (listOrders ledger redis openIndexKey).2 = (balances, middle)) :
    middle.orders.get openIndexKey = some (listOrders ledger redis openIndexKey).1 ∧
      listOrders ledger middle openIndexKey =
        ((listOrders ledger redis openIndexKey).1, middle) := by
  have hsame : (CheckLoop.run (reconcileBalance ledger) entries
      (listOrders ledger redis openIndexKey).2).2.orders =
        (listOrders ledger redis openIndexKey).2.orders := by
    refine CheckLoop.run_keeps (P := fun r : Redis => r.orders =
      (listOrders ledger redis openIndexKey).2.orders) ?_ rfl
    intro entry _ r hr
    rw [(reconcileBalance_grows ledger entry r).2, hr]
  rw [h] at hsame
  have hpage : middle.orders.get openIndexKey = some (listOrders ledger redis openIndexKey).1 := by
    rw [hsame]
    exact get_orders_listOrders ledger redis openIndexKey
  exact ⟨hpage, listOrders_data_of_cached hpage⟩

/-- The mismatches of a run, from its two loops and the walk over the ids. -/
def reportOf (configured : List Address) (ledger : Ledger) (redis : Redis)
    (balances orders : List Mismatch) : ReconciliationReport :=
  let mismatches := balances ++ (orders ++ missingOrders ledger (openIndex ledger redis) 500)
  { sampledWallets := (sampledWallets configured ledger redis).length
    checkedBalances := (balanceEntries (sampledWallets configured ledger redis)
      supportedQuoteAssets).length
    checkedOrders := (openIndex ledger redis).length
    mismatches, hasMismatches := mismatches.length > 0 }

/-- `reconcile()` is its two loops around the listing that they share. -/
theorem reconcile_eq_some_iff {configured : List Address} {ledger : Ledger}
    {redis redis' : Redis} {report : ReconciliationReport} :
    reconcile configured ledger redis .default = (some report, redis') ↔
      ∃ balances middle orders,
        CheckLoop.run (reconcileBalance ledger)
          (balanceEntries (sampledWallets configured ledger redis) supportedQuoteAssets)
          (listOrders ledger redis openIndexKey).2 = (some balances, middle) ∧
        CheckLoop.run (reconcileOrder ledger) (openIndex ledger redis) middle =
          (some orders, redis') ∧
        report = reportOf configured ledger redis balances orders := by
  constructor
  · intro h
    unfold reconcile at h
    dsimp only at h
    split at h
    · cases h
    next balances middle hbalances =>
    rw [reconcileOrders, (listOrders_of_balances ledger redis _ hbalances).2] at h
    dsimp only at h
    split at h
    · cases h
    next checked found last horders =>
    split at horders
    · cases horders
    next orders last' hloop =>
    obtain ⟨hfound, rfl⟩ := Prod.mk.inj horders
    obtain ⟨rfl, rfl⟩ := Prod.mk.inj (Option.some.inj hfound)
    obtain ⟨hreport, rfl⟩ := Prod.mk.inj h
    exact ⟨balances, middle, orders, hbalances, hloop, (Option.some.inj hreport).symm⟩
  · intro h
    obtain ⟨balances, middle, orders, hbalances, hloop, rfl⟩ := h
    have hlisted := (listOrders_of_balances ledger redis _ hbalances).2
    unfold reconcile reconcileOrders
    dsimp only [ReconcileOptions.default, Option.getD_none]
    rw [show resolveWallets configured ledger redis none =
      (sampledWallets configured ledger redis, (listOrders ledger redis openIndexKey).2) from rfl]
    dsimp only
    rw [hbalances]
    dsimp only
    rw [hlisted]
    dsimp only
    rw [show (listOrders ledger redis openIndexKey).1.data = openIndex ledger redis from rfl, hloop]
    rfl

/-- What a report says, told by Redis before the run. -/
def Mismatch.Found (ledger : Ledger) (redis : Redis) (wallets : List Address)
    (openOrders : List Order) : Mismatch → Prop
  | .balanceMismatch wallet asset expected observed =>
      (wallet, asset) ∈ balanceEntries wallets supportedQuoteAssets ∧
        getQuoteBalance ledger wallet asset = some expected ∧
        redis.quoteBalance.get (wallet, asset) = some observed ∧ expected ≠ observed
  | .staleOrderCache orderId _ _ => ∃ order ∈ openOrders, order.id = orderId ∧
      ∃ onChain, fetchOrderFromLedger ledger orderId = some onChain ∧
        ¬ NotStale redis orderId onChain
  | .missingOrder orderId expected =>
      .missingOrder orderId expected ∈ missingOrders ledger openOrders 500
  | .orderEscrowInvariant orderId wallet asset required observed => ∃ order ∈ openOrders,
      order.id = orderId ∧ order.seller = wallet ∧ order.quoteAsset = asset ∧
        order.pricePerToken * order.amount = required ∧
        getQuoteBalance ledger wallet asset = some observed ∧ observed < required

/-- The balance of a known asset can be read. -/
theorem getQuoteBalance_isSome {ledger : Ledger} {wallet : Address} {asset : Symbol}
    (h : (normalizeQuoteAssetSymbol asset).isSome) :
    ∃ balance, getQuoteBalance ledger wallet asset = some balance := by
  obtain ⟨normalizedAsset, hasset⟩ := Option.isSome_iff_exists.mp h
  exact ⟨_, by rw [getQuoteBalance, hasset, Option.map_some]⟩

/-- So can all that are sampled. -/
theorem getQuoteBalance_supported {ledger : Ledger} {wallets : List Address}
    {entry : Address × Symbol} (h : entry ∈ balanceEntries wallets supportedQuoteAssets) :
    ∃ balance, getQuoteBalance ledger entry.1 entry.2 = some balance := by
  obtain ⟨wallet, -, hentry⟩ := List.mem_flatMap.mp h
  obtain ⟨asset, hasset, rfl⟩ := List.mem_map.mp hentry
  apply getQuoteBalance_isSome
  have hall : ∀ asset ∈ supportedQuoteAssets, (normalizeQuoteAssetSymbol asset).isSome := by
    decide +kernel
  exact hall asset hasset

/-- A reported order has a seller with less than its notional. -/
theorem mem_escrowInvariant {ledger : Ledger} {order : Order} {underEscrowed : List Mismatch}
    (h : escrowInvariant ledger order = some underEscrowed) {m : Mismatch}
    (hm : m ∈ underEscrowed) : ∃ observed,
      getQuoteBalance ledger order.seller order.quoteAsset = some observed ∧
        observed < order.pricePerToken * order.amount ∧
        m = .orderEscrowInvariant order.id order.seller order.quoteAsset
          (order.pricePerToken * order.amount) observed := by
  obtain ⟨observed, hread, hlast⟩ := Option.bind_eq_some_iff.mp h
  obtain rfl := Option.some.inj hlast
  split at hm
  · next hunder => exact ⟨observed, hread, hunder, List.mem_singleton.mp hm⟩
  · cases hm

/-- Every order with such a seller is reported. -/
theorem mem_escrowInvariant_of_under {ledger : Ledger} {order : Order}
    {underEscrowed : List Mismatch} (h : escrowInvariant ledger order = some underEscrowed)
    {observed : Int}
    (hread : getQuoteBalance ledger order.seller order.quoteAsset = some observed)
    (hunder : observed < order.pricePerToken * order.amount) :
    .orderEscrowInvariant order.id order.seller order.quoteAsset
      (order.pricePerToken * order.amount) observed ∈ underEscrowed := by
  obtain ⟨observed', hread', hlast⟩ := Option.bind_eq_some_iff.mp h
  obtain rfl := Option.some.inj (hread.symm.trans hread')
  rw [← Option.some.inj hlast, if_pos hunder]
  exact List.mem_singleton_self _

/-- The check of an order with a known asset returns. -/
theorem escrowInvariant_isSome {ledger : Ledger} {order : Order}
    (h : (normalizeQuoteAssetSymbol order.quoteAsset).isSome) :
    ∃ underEscrowed, escrowInvariant ledger order = some underEscrowed := by
  have hread : ∃ balance, getQuoteBalance ledger order.seller order.quoteAsset = some balance :=
    getQuoteBalance_isSome h
  obtain ⟨balance, hbalance⟩ := hread
  exact ⟨_, Option.bind_eq_some_iff.mpr ⟨balance, hbalance, rfl⟩⟩

/-- The check of a balance returns where the balance can be read. -/
theorem reconcileBalance_isSome {ledger : Ledger} {entry : Address × Symbol} {onChain : Int}
    (h : getQuoteBalance ledger entry.1 entry.2 = some onChain) (redis : Redis) :
    ∃ found redis', reconcileBalance ledger entry redis = (some found, redis') := by
  unfold reconcileBalance
  dsimp only
  rw [h]
  cases getIndexedQuoteBalance redis entry.1 entry.2 with
  | none => exact ⟨_, _, rfl⟩
  | some indexed => exact ⟨_, _, rfl⟩

/-- An order that the chain has can be read through the cache. -/
theorem getOrder_isSome {ledger : Ledger} {id : Nat} {onChain : Order}
    (h : fetchOrderFromLedger ledger id = some onChain) (redis : Redis) :
    ∃ order redis', getOrder ledger redis id = some (order, redis') := by
  unfold getOrder
  cases redis.order.get id with
  | some cached => exact ⟨cached, redis, rfl⟩
  | none => exact ⟨onChain, _, by rw [h]; rfl⟩

/-- The round of an order returns where its reads do. -/
theorem reconcileOrder_isSome {ledger : Ledger} {order onChain : Order}
    {underEscrowed : List Mismatch} (hfetch : fetchOrderFromLedger ledger order.id = some onChain)
    (hescrow : escrowInvariant ledger order = some underEscrowed) (redis : Redis) :
    ∃ found redis', reconcileOrder ledger order redis = (some found, redis') := by
  obtain ⟨indexed, redis', hindexed⟩ := getOrder_isSome hfetch redis
  unfold reconcileOrder
  rw [hfetch]
  dsimp only
  rw [hindexed]
  dsimp only
  rw [hescrow]
  exact ⟨_, _, rfl⟩

/-- **A run ends** when the orders it lists are on the ledger in known assets, and
reports what there is to report. -/
theorem reconcile_total (configured : List Address) {ledger : Ledger} {redis : Redis}
    (h : ∀ order ∈ openIndex ledger redis, (∃ onChain,
      fetchOrderFromLedger ledger order.id = some onChain) ∧
        ∃ underEscrowed, escrowInvariant ledger order = some underEscrowed) :
    ∃ report redis', reconcile configured ledger redis .default = (some report, redis') ∧
      ∀ m ∈ report.mismatches, m.Found ledger redis (sampledWallets configured ledger redis)
        (openIndex ledger redis) := by
  have hbalance : ∀ entry ∈ balanceEntries (sampledWallets configured ledger redis)
      supportedQuoteAssets, ∀ r, redis.GrowsTo ledger r → ∃ found r',
        reconcileBalance ledger entry r = (some found, r') ∧ redis.GrowsTo ledger r' ∧
          ∀ m ∈ found, m.Found ledger redis (sampledWallets configured ledger redis)
            (openIndex ledger redis) := by
    intro entry hentry r hgrows
    obtain ⟨onChain, hread⟩ : ∃ balance, getQuoteBalance ledger entry.1 entry.2 = some balance :=
      getQuoteBalance_supported hentry
    obtain ⟨found, r', hcheck⟩ := reconcileBalance_isSome hread r
    obtain ⟨onChain, hread, hfound⟩ := reconcileBalance_spec hcheck
    have hgrows' := (reconcileBalance_grows ledger entry r).1
    rw [hcheck] at hgrows'
    refine ⟨found, r', hcheck, hgrows.trans hgrows', ?_⟩
    intro m hm
    rcases hfound with ⟨-, rfl⟩ | ⟨indexed, hget, hne, rfl⟩
    · cases hm
    · obtain rfl := List.mem_singleton.mp hm
      rcases hgrows.quoteBalance _ _ indexed hget with hbefore | hledger
      · exact ⟨hentry, hread, hbefore, hne⟩
      · exact absurd (Option.some.inj (hread.symm.trans hledger)) hne
  have horder : ∀ order ∈ openIndex ledger redis, ∀ r, redis.GrowsTo ledger r → ∃ found r',
      reconcileOrder ledger order r = (some found, r') ∧ redis.GrowsTo ledger r' ∧
        ∀ m ∈ found, m.Found ledger redis (sampledWallets configured ledger redis)
          (openIndex ledger redis) := by
    intro order horder r hgrows
    obtain ⟨⟨onChain, hfetch⟩, underEscrowed, hescrow⟩ := h order horder
    obtain ⟨found, r', hcheck⟩ := reconcileOrder_isSome hfetch hescrow r
    obtain ⟨onChain, stale, underEscrowed, hfetch, hescrow, rfl, hstale⟩ :=
      reconcileOrder_spec hcheck
    have hgrows' := (reconcileOrder_grows ledger order r).1
    rw [hcheck] at hgrows'
    refine ⟨stale ++ underEscrowed, r', hcheck, hgrows.trans hgrows', ?_⟩
    intro m hm
    rcases List.mem_append.mp hm with hm | hm
    · rcases hstale with ⟨rfl, -⟩ | ⟨hnot, observed, rfl⟩
      · cases hm
      · obtain rfl := List.mem_singleton.mp hm
        refine ⟨order, horder, rfl, onChain, hfetch, ?_⟩
        intro hclean
        apply hnot
        intro cached hget hopen
        rcases hgrows.order order.id cached hget with hbefore | hledger
        · exact hclean cached hbefore hopen
        · rwa [Option.some.inj (hfetch.symm.trans hledger)]
    · obtain ⟨observed, hread, hunder, rfl⟩ := mem_escrowInvariant hescrow hm
      exact ⟨order, horder, rfl, rfl, rfl, rfl, hread, hunder⟩
  obtain ⟨balances, middle, hbalances, hgrows, hfound⟩ :=
    CheckLoop.run_total hbalance (listOrders_grows ledger redis openIndexKey)
  obtain ⟨orders, redis', horders, -, hfound'⟩ := CheckLoop.run_total horder hgrows
  refine ⟨_, redis', reconcile_eq_some_iff.mpr ⟨balances, middle, orders, hbalances, horders, rfl⟩,
    ?_⟩
  intro m hm
  rcases List.mem_append.mp hm with hm | hm
  · exact hfound m hm
  rcases List.mem_append.mp hm with hm | hm
  · exact hfound' m hm
  · obtain ⟨id, -, hmissing⟩ := List.mem_filterMap.mp hm
    split at hmissing
    · cases hmissing
    · split at hmissing
      · obtain rfl := Option.some.inj hmissing
        exact hm
      · cases hmissing

/-- An entry that is not stale stays so while the cache grows. -/
theorem NotStale.grows {ledger : Ledger} {redis redis' : Redis} {id : Nat} {onChain : Order}
    (h : NotStale redis id onChain) (hgrows : redis.GrowsTo ledger redis')
    (hfetch : fetchOrderFromLedger ledger id = some onChain) : NotStale redis' id onChain := by
  intro cached hget hopen
  rcases hgrows.order id cached hget with hbefore | hledger
  · exact h cached hbefore hopen
  · rwa [Option.some.inj (hfetch.symm.trans hledger)]

/-- What a run does not report agrees with the ledger afterwards. -/
structure Reconciled (configured : List Address) (ledger : Ledger) (redis : Redis)
    (report : ReconciliationReport) (redis' : Redis) : Prop where
  page : redis'.orders.get openIndexKey = some (listOrders ledger redis openIndexKey).1
  balances : ∀ entry ∈ balanceEntries (sampledWallets configured ledger redis)
    supportedQuoteAssets, ∀ balance, redis'.quoteBalance.get entry = some balance →
      getQuoteBalance ledger entry.1 entry.2 = some balance ∨
        ∃ expected observed, .balanceMismatch entry.1 entry.2 expected observed ∈ report.mismatches
  orders : ∀ order ∈ openIndex ledger redis, ∃ onChain underEscrowed,
    fetchOrderFromLedger ledger order.id = some onChain ∧
      escrowInvariant ledger order = some underEscrowed ∧ underEscrowed ⊆ report.mismatches ∧
      ((∃ expected observed, .staleOrderCache order.id expected observed ∈ report.mismatches) ∨
        NotStale redis' order.id onChain)
  missing : missingOrders ledger (openIndex ledger redis) 500 ⊆ report.mismatches

/-- What a run that returned has done and found. -/
theorem reconciled {configured : List Address} {ledger : Ledger} {redis redis' : Redis}
    {report : ReconciliationReport}
    (h : reconcile configured ledger redis .default = (some report, redis')) :
    Reconciled configured ledger redis report redis' := by
  obtain ⟨balances, middle, orders, hbalances, horders, rfl⟩ := reconcile_eq_some_iff.mp h
  generalize hreport : reportOf configured ledger redis balances orders = report
  have hparts : balances ⊆ report.mismatches ∧ orders ⊆ report.mismatches ∧
      missingOrders ledger (openIndex ledger redis) 500 ⊆ report.mismatches := by
    rw [← hreport]
    simp [reportOf]
  obtain ⟨hsub, hsub', hsub''⟩ := hparts
  have hkeep : ∀ order ∈ openIndex ledger redis, ∀ r,
      middle.GrowsTo ledger r ∧ r.orders = middle.orders →
        middle.GrowsTo ledger (reconcileOrder ledger order r).2 ∧
          (reconcileOrder ledger order r).2.orders = middle.orders := by
    intro order _ r hr
    obtain ⟨hgrows, hsame⟩ := reconcileOrder_grows ledger order r
    exact ⟨hr.1.trans hgrows, hsame.trans hr.2⟩
  have hlast := CheckLoop.run_keeps hkeep ⟨.refl ledger middle, rfl⟩
  rw [horders] at hlast
  obtain ⟨hgrows, hsame⟩ := hlast
  refine ⟨?_, ?_, ?_, hsub''⟩
  · rw [hsame]
    exact (listOrders_of_balances ledger redis _ hbalances).1
  · have hagrees := CheckLoop.run_result
      (A := fun entry r => ∀ balance, r.quoteBalance.get entry = some balance →
        getQuoteBalance ledger entry.1 entry.2 = some balance ∨ ∃ expected observed,
          .balanceMismatch entry.1 entry.2 expected observed ∈ report.mismatches)
      (by
        intro entry s found s' hcheck hfound balance hget
        obtain ⟨onChain, hread, hentry⟩ := reconcileBalance_spec hcheck
        rcases hentry with ⟨hseeded, -⟩ | ⟨indexed, -, -, rfl⟩
        · exact Or.inl (hread.trans (hseeded.symm.trans hget))
        · exact Or.inr ⟨onChain, indexed, hfound (List.mem_singleton_self _)⟩)
      (by
        intro entry entry' s hentry balance hget
        rcases (reconcileBalance_grows ledger entry' s).1.quoteBalance _ _ balance hget with
          hbefore | hledger
        · exact hentry balance hbefore
        · exact Or.inl hledger) hbalances hsub
    intro entry hentry balance hget
    rcases hgrows.quoteBalance _ _ balance hget with hbefore | hledger
    · exact hagrees entry hentry balance hbefore
    · exact Or.inl hledger
  · exact CheckLoop.run_result
      (A := fun order r => ∃ onChain underEscrowed,
        fetchOrderFromLedger ledger order.id = some onChain ∧
          escrowInvariant ledger order = some underEscrowed ∧
          underEscrowed ⊆ report.mismatches ∧
          ((∃ expected observed,
              .staleOrderCache order.id expected observed ∈ report.mismatches) ∨
            NotStale r order.id onChain))
      (by
        intro order s found s' hcheck hfound
        obtain ⟨onChain, stale, underEscrowed, hfetch, hescrow, rfl, hstale⟩ :=
          reconcileOrder_spec hcheck
        have hsplit := List.append_subset.mp hfound
        refine ⟨onChain, underEscrowed, hfetch, hescrow, hsplit.2, ?_⟩
        rcases hstale with ⟨-, hclean⟩ | ⟨-, observed, rfl⟩
        · exact Or.inr hclean
        · exact Or.inl ⟨_, observed, hsplit.1 (List.mem_singleton_self _)⟩)
      (by
        intro order order' s hentry
        obtain ⟨onChain, underEscrowed, hfetch, hescrow, hsubset, hstale⟩ := hentry
        refine ⟨onChain, underEscrowed, hfetch, hescrow, hsubset, ?_⟩
        exact hstale.imp_right fun hclean =>
          hclean.grows (reconcileOrder_grows ledger order' s).1 hfetch)
      horders hsub'

/-! ## The repair -/

/-- The mismatch is about an order. -/
def Mismatch.AboutOrder : Mismatch → Prop
  | .balanceMismatch _ _ _ _ => False
  | _ => True

/-- A repair forgets the balance that a mismatch names, and changes no other. -/
theorem repairMismatch_quoteBalance {redis : Redis} {m : Mismatch} {entry : Address × Symbol}
    {balance : Int} (h : (repairMismatch redis m).quoteBalance.get entry = some balance) :
    redis.quoteBalance.get entry = some balance ∧ ∀ expected observed,
      m ≠ .balanceMismatch entry.1 entry.2 expected observed := by
  cases m with
  | balanceMismatch wallet asset expected observed =>
      have hget : Storage.get ((redis.quoteBalance.set (wallet, asset) expected).erase
        (wallet, asset)) entry = some balance := h
      have hne : entry ≠ (wallet, asset) := by
        rintro rfl
        rw [get_erase_self] at hget
        cases hget
      rw [get_erase_ne _ hne, get_set_ne _ _ hne] at hget
      refine ⟨hget, ?_⟩
      intro expected' observed' heq
      obtain ⟨rfl, rfl, -⟩ := Mismatch.balanceMismatch.inj heq
      exact hne rfl
  | staleOrderCache orderId expected observed => exact ⟨h, by simp⟩
  | missingOrder orderId expected => exact ⟨h, by simp⟩
  | orderEscrowInvariant orderId wallet asset required observed => exact ⟨h, by simp⟩

/-- A repair adds no balance to the index. -/
theorem repair_quoteBalance {redis : Redis} {mismatches : List Mismatch} {entry : Address × Symbol}
    {balance : Int} (h : (mismatches.foldl repairMismatch redis).quoteBalance.get entry =
      some balance) : redis.quoteBalance.get entry = some balance ∧ ∀ expected observed,
        Mismatch.balanceMismatch entry.1 entry.2 expected observed ∉ mismatches := by
  induction mismatches generalizing redis with
  | nil => exact ⟨h, by simp⟩
  | cons m rest ih =>
      obtain ⟨hmiddle, hrest⟩ := ih h
      obtain ⟨hbefore, hm⟩ := repairMismatch_quoteBalance hmiddle
      refine ⟨hbefore, ?_⟩
      intro expected observed hmem
      rcases List.mem_cons.mp hmem with heq | hmem
      · exact hm expected observed heq.symm
      · exact hrest expected observed hmem

/-- A repair adds no order to the cache. -/
theorem repair_order {redis : Redis} {mismatches : List Mismatch} {id : Nat} {order : Order}
    (h : (mismatches.foldl repairMismatch redis).order.get id = some order) :
    redis.order.get id = some order := by
  induction mismatches generalizing redis with
  | nil => exact h
  | cons m rest ih =>
      have hmiddle := ih h
      cases m with
      | balanceMismatch wallet asset expected observed => exact hmiddle
      | staleOrderCache orderId expected observed => exact get_erase_some hmiddle
      | missingOrder orderId expected => exact hmiddle
      | orderEscrowInvariant orderId wallet asset required observed => exact hmiddle

/-- One mismatch about an order is enough for all listings to be evicted. -/
theorem repair_orders (redis : Redis) (mismatches : List Mismatch) :
    (∃ m ∈ mismatches, m.AboutOrder) ∧ (mismatches.foldl repairMismatch redis).orders = ∅ ∨
      (∀ m ∈ mismatches, ¬ m.AboutOrder) ∧
        (mismatches.foldl repairMismatch redis).orders = redis.orders := by
  induction mismatches generalizing redis with
  | nil => exact Or.inr ⟨by simp, rfl⟩
  | cons m rest ih =>
      rcases ih (repairMismatch redis m) with ⟨⟨m', hm', habout⟩, hnone⟩ | ⟨hall, hsame⟩
      · exact Or.inl ⟨⟨m', List.mem_cons_of_mem m hm', habout⟩, hnone⟩
      · cases m with
        | balanceMismatch wallet asset expected observed =>
            refine Or.inr ⟨?_, hsame⟩
            rw [List.forall_mem_cons]
            exact ⟨id, hall⟩
        | staleOrderCache => exact Or.inl ⟨⟨_, List.mem_cons_self .., trivial⟩, hsame⟩
        | missingOrder => exact Or.inl ⟨⟨_, List.mem_cons_self .., trivial⟩, hsame⟩
        | orderEscrowInvariant => exact Or.inl ⟨⟨_, List.mem_cons_self .., trivial⟩, hsame⟩

/-! ## What is left to report -/

/-- The caches hold what the ledger says. -/
structure Redis.Coherent (ledger : Ledger) (redis : Redis) : Prop where
  orders : ∀ key page, redis.orders.get key = some page → page = computeOrders ledger key
  order : ∀ id order, redis.order.get id = some order →
    fetchOrderFromLedger ledger id = some order
  quoteBalance : ∀ wallet asset balance, redis.quoteBalance.get (wallet, asset) = some balance →
    getQuoteBalance ledger wallet asset = some balance

/-- The ledger at some time after some transactions. -/
def ledgerAfter (d : Deployment) (txs : List Tx) (now : Nat) : Ledger :=
  ⟨(machine.run (deploy d) txs).dex, now⟩

/-- The first two hundred open orders of the ledger. -/
def ledgerIndex (ledger : Ledger) : List Order := (computeOrders ledger openIndexKey).data

/-- The open and the partially filled orders of the ledger. -/
def openStateOrders (ledger : Ledger) : List Order :=
  (allOrders ledger).filter fun order => isOpenState order.status

/-- What a report may still say: that a seller's quote balance is below the price of
an open order, that a wallet's index is behind, or that the index leaves an order out. -/
def Mismatch.Expected (ledger : Ledger) (behind : Address → Prop) (leftOut : Order → Prop) :
    Mismatch → Prop
  | .balanceMismatch wallet _ _ _ => behind wallet
  | .staleOrderCache _ _ _ => False
  | .missingOrder orderId expected => ∃ order ∈ openStateOrders ledger,
      order.id = orderId ∧ order.status = expected ∧ leftOut order
  | .orderEscrowInvariant orderId wallet asset required observed => ∃ order ∈ ledgerIndex ledger,
      order.id = orderId ∧ order.seller = wallet ∧ order.quoteAsset = asset ∧
        order.pricePerToken * order.amount = required ∧
        getQuoteBalance ledger wallet asset = some observed ∧ observed < required

/-- The index from the ledger has the first two hundred open orders. -/
theorem ledgerIndex_eq (ledger : Ledger) :
    ledgerIndex ledger = ((allOrders ledger).filter fun order => order.status = .open).take 200 := by
  change ((((allOrders ledger).filter fun order => (0 : Nat) = 0 ∨ order.bondId = 0).filter
    fun order => some OrderStatus.open = none ∨ some OrderStatus.open = some order.status).drop
      0).take 200 = _
  rw [List.drop_zero, List.filter_filter]
  congr 2
  funext order
  simp [eq_comm]

/-- An order of the index is open. -/
theorem mem_ledgerIndex {ledger : Ledger} {order : Order} (h : order ∈ ledgerIndex ledger) :
    order ∈ allOrders ledger ∧ order.status = .open := by
  rw [ledgerIndex_eq] at h
  obtain ⟨hledger, hopen⟩ := List.mem_filter.mp (List.mem_of_mem_take h)
  exact ⟨hledger, of_decide_eq_true hopen⟩

/-- A short book is listed whole. -/
theorem mem_ledgerIndex_of_few {ledger : Ledger} (hfew : (openStateOrders ledger).length ≤ 200)
    {order : Order} (horder : order ∈ allOrders ledger) (hopen : order.status = .open) :
    order ∈ ledgerIndex ledger := by
  have hsublist : ((allOrders ledger).filter fun order => order.status = .open).Sublist
      (openStateOrders ledger) := by
    apply List.monotone_filter_right
    intro order h
    simp [isOpenState, of_decide_eq_true h]
  rw [ledgerIndex_eq, List.take_of_length_le (le_trans hsublist.length_le hfew)]
  exact List.mem_filter.mpr ⟨horder, decide_eq_true hopen⟩

/-- A missing order is one that the scan finds open and the index has not. -/
theorem mem_missingOrders {ledger : Ledger} {openOrders : List Order} {maxOrderScan id : Nat}
    {expected : OrderStatus}
    (h : Mismatch.missingOrder id expected ∈ missingOrders ledger openOrders maxOrderScan) :
    ∃ order, fetchOrderFromLedger ledger id = some order ∧ 1 ≤ id ∧ id ≤ getOrderCount ledger ∧
      order.status = expected ∧ isOpenState order.status ∧
        ∀ listed ∈ openOrders, listed.id ≠ id := by
  obtain ⟨id', hid, hmissing⟩ := List.mem_filterMap.mp h
  obtain ⟨index, hindex, rfl⟩ := List.mem_map.mp hid
  have hbound := List.mem_range.mp hindex
  split at hmissing
  · cases hmissing
  · next onChain hfetch =>
      split at hmissing
      · next hleft =>
          obtain ⟨rfl, rfl⟩ := Mismatch.missingOrder.inj (Option.some.inj hmissing)
          refine ⟨onChain, hfetch, by omega, by omega, rfl, hleft.1, ?_⟩
          intro listed hlisted heq
          exact hleft.2 (List.mem_map.mpr ⟨listed, hlisted, heq⟩)
      · cases hmissing

/-- A run over the listing of the ledger reports only what can be expected. -/
theorem Mismatch.Found.expected {ledger : Ledger} {redis : Redis} {wallets : List Address}
    {m : Mismatch} (hids : ∀ id order, ledger.dex.order.get id = some order → order.id = id)
    (h : m.Found ledger redis wallets (ledgerIndex ledger)) (behind : Address → Prop)
    (hbehind : ∀ wallet ∈ wallets, ∀ asset expected observed,
      (wallet, asset) ∈ balanceEntries wallets supportedQuoteAssets →
      redis.quoteBalance.get (wallet, asset) = some observed →
      getQuoteBalance ledger wallet asset = some expected → expected ≠ observed →
      behind wallet) :
    m.Expected ledger behind fun order => order ∉ ledgerIndex ledger := by
  cases m with
  | balanceMismatch wallet asset expected observed =>
      obtain ⟨hentry, hread, hget, hne⟩ := h
      obtain ⟨wallet', hwallet, hasset⟩ := List.mem_flatMap.mp hentry
      obtain ⟨asset', -, heq⟩ := List.mem_map.mp hasset
      obtain ⟨rfl, rfl⟩ := Prod.mk.inj heq
      exact hbehind _ hwallet _ expected observed hentry hget hread hne
  | staleOrderCache orderId expected observed =>
      obtain ⟨order, horder, rfl, onChain, hfetch, hstale⟩ := h
      -- a listed order is open on the ledger
      obtain ⟨hledger, hopen⟩ := mem_ledgerIndex horder
      obtain rfl := Option.some.inj (hfetch.symm.trans (fetch_of_mem_allOrders hids hledger))
      apply hstale
      intro _ _ _
      simp [isOpenState, hopen]
  | missingOrder orderId expected =>
      obtain ⟨order, hfetch, hpos, hle, hstatus, hopen, hleft⟩ := mem_missingOrders h
      have horder : order ∈ allOrders ledger := mem_allOrders_iff.mpr ⟨orderId, hpos, hle, hfetch⟩
      have hid : order.id = orderId := by
        obtain ⟨stored, hstored, rfl⟩ := fetchOrderFromLedger_eq_some_iff.mp hfetch
        exact hids orderId stored hstored
      refine ⟨order, List.mem_filter.mpr ⟨horder, hopen⟩, hid, hstatus, ?_⟩
      intro hlisted
      exact hleft order hlisted hid
  | orderEscrowInvariant orderId wallet asset required observed => exact h

theorem Mismatch.Expected.mono {ledger : Ledger} {behind behind' : Address → Prop}
    {leftOut leftOut' : Order → Prop} {m : Mismatch} (h : m.Expected ledger behind leftOut)
    (hbehind : ∀ wallet, behind wallet → behind' wallet)
    (hleftOut : ∀ order ∈ openStateOrders ledger, leftOut order → leftOut' order) :
    m.Expected ledger behind' leftOut' := by
  cases m with
  | balanceMismatch wallet asset expected observed => exact hbehind wallet h
  | staleOrderCache orderId expected observed => exact h
  | missingOrder orderId expected =>
      obtain ⟨order, horder, hid, hstatus, hleft⟩ := h
      exact ⟨order, horder, hid, hstatus, hleftOut order horder hleft⟩
  | orderEscrowInvariant orderId wallet asset required observed => exact h

/-- A coherent cache has the index of the ledger. -/
theorem openIndex_of_coherent {ledger : Ledger} {redis : Redis} (h : redis.Coherent ledger) :
    openIndex ledger redis = ledgerIndex ledger := by
  cases hcached : redis.orders.get openIndexKey with
  | some page =>
      rw [openIndex_of_cached hcached, h.orders openIndexKey page hcached]
      rfl
  | none =>
      rw [openIndex, listOrders_of_absent hcached]
      rfl

/-- So has a cache whose lists were evicted. -/
theorem openIndex_of_evicted {ledger : Ledger} {redis : Redis} (h : redis.orders = ∅) :
    openIndex ledger redis = ledgerIndex ledger := by
  have habsent : redis.orders.get openIndexKey = none := by rw [h, get_empty]
  rw [openIndex, listOrders_of_absent habsent]
  rfl

/-- The checks of the orders that the ledger lists end. -/
theorem ledgerIndex_checks {ledger : Ledger}
    (hids : ∀ id order, ledger.dex.order.get id = some order → order.id = id)
    (hassets : ∀ order ∈ ledgerIndex ledger, (normalizeQuoteAssetSymbol order.quoteAsset).isSome) :
    ∀ order ∈ ledgerIndex ledger,
      (∃ onChain, fetchOrderFromLedger ledger order.id = some onChain) ∧
        ∃ underEscrowed, escrowInvariant ledger order = some underEscrowed := by
  intro order horder
  exact ⟨⟨order, fetch_of_mem_allOrders hids (mem_ledgerIndex horder).1⟩,
    escrowInvariant_isSome (hassets order horder)⟩

/-- On a coherent cache the run returns. -/
theorem reconcile_of_coherent {configured : List Address} {ledger : Ledger} {redis : Redis}
    (hids : ∀ id order, ledger.dex.order.get id = some order → order.id = id)
    (hassets : ∀ order ∈ ledgerIndex ledger, (normalizeQuoteAssetSymbol order.quoteAsset).isSome)
    (hcoherent : redis.Coherent ledger) (hfew : (openStateOrders ledger).length ≤ 200) :
    ∃ report redis', reconcile configured ledger redis .default = (some report, redis') ∧
      (∀ m ∈ report.mismatches, m.Expected ledger (fun _ => False)
        fun order => order.status = .partiallyFilled) ∧
      ∀ order ∈ ledgerIndex ledger, ∀ observed,
        getQuoteBalance ledger order.seller order.quoteAsset = some observed →
        observed < order.pricePerToken * order.amount →
        .orderEscrowInvariant order.id order.seller order.quoteAsset
          (order.pricePerToken * order.amount) observed ∈ report.mismatches := by
  have hindex := openIndex_of_coherent hcoherent
  obtain ⟨report, redis', hrun, hfound⟩ := reconcile_total configured
    (hindex ▸ ledgerIndex_checks hids hassets)
  refine ⟨report, redis', hrun, ?_, ?_⟩
  · intro m hm
    have hexpected := (hindex ▸ hfound m hm).expected hids (fun _ => False) (by
      intro wallet _ asset expected observed _ hget hread hne
      exact hne (Option.some.inj (hread.symm.trans
        (hcoherent.quoteBalance wallet asset observed hget))))
    apply hexpected.mono (fun _ => id)
    intro order horder hleft
    obtain ⟨hledger, hopen⟩ := List.mem_filter.mp horder
    by_contra hstatus
    apply hleft
    apply mem_ledgerIndex_of_few hfew hledger
    cases hkind : order.status <;> simp_all [isOpenState]
  · intro order horder observed hread hunder
    obtain ⟨onChain, underEscrowed, -, hescrow, hsubset, -⟩ :=
      (reconciled hrun).orders order (hindex ▸ horder)
    exact hsubset (mem_escrowInvariant_of_under hescrow hread hunder)

/-- After a run and its repair, what is indexed for a sampled wallet is right. -/
theorem balance_of_repaired {configured : List Address} {ledger : Ledger} {redis redis' : Redis}
    {report : ReconciliationReport} (h : Reconciled configured ledger redis report redis')
    {entry : Address × Symbol} (hentry : entry ∈ balanceEntries
      (sampledWallets configured ledger redis) supportedQuoteAssets) {balance : Int}
    (hget : (repair redis' report).quoteBalance.get entry = some balance) :
    getQuoteBalance ledger entry.1 entry.2 = some balance := by
  obtain ⟨hbefore, hnone⟩ := repair_quoteBalance hget
  rcases h.balances entry hentry balance hbefore with hledger | ⟨expected, observed, hreported⟩
  · exact hledger
  · exact absurd hreported (hnone expected observed)

/-- If the first report is about balances only, the listing stays, and the second
report is empty. -/
theorem reconcile_repaired_same {configured : List Address} {ledger : Ledger}
    {redis redis' : Redis} {report : ReconciliationReport}
    (h : Reconciled configured ledger redis report redis')
    (hbalances : ∀ m ∈ report.mismatches, ¬ m.AboutOrder)
    (hsame : (repair redis' report).orders = redis'.orders) :
    ∃ report' redis'',
      reconcile configured ledger (repair redis' report) .default = (some report', redis'') ∧
        report'.mismatches = [] := by
  have hpage : (repair redis' report).orders.get openIndexKey =
      some (listOrders ledger redis openIndexKey).1 := by rw [hsame, h.page]
  have hindex : openIndex ledger (repair redis' report) = openIndex ledger redis :=
    openIndex_of_cached hpage
  have hwallets : sampledWallets configured ledger (repair redis' report) =
      sampledWallets configured ledger redis := by
    simp only [sampledWallets, resolveWallets, listOrders_data_of_cached hpage]
  obtain ⟨report', redis'', hrun, hfound⟩ := reconcile_total configured (by
    rw [hindex]
    intro order horder
    obtain ⟨onChain, underEscrowed, hfetch, hescrow, -⟩ := h.orders order horder
    exact ⟨⟨onChain, hfetch⟩, underEscrowed, hescrow⟩)
  rw [hindex, hwallets] at hfound
  refine ⟨report', redis'', hrun, List.eq_nil_iff_forall_not_mem.mpr ?_⟩
  intro m hm
  have hm := hfound m hm
  cases m with
  | balanceMismatch wallet asset expected observed =>
      obtain ⟨hentry, hread, hget, hne⟩ := hm
      exact hne (Option.some.inj (hread.symm.trans (balance_of_repaired h hentry hget)))
  | staleOrderCache orderId expected observed =>
      obtain ⟨order, horder, rfl, onChain, hfetch, hstale⟩ := hm
      obtain ⟨onChain', -, hfetch', -, -, hclean⟩ := h.orders order horder
      obtain rfl := Option.some.inj (hfetch.symm.trans hfetch')
      rcases hclean with ⟨_, _, hreported⟩ | hclean
      · exact hbalances _ hreported trivial
      · exact hstale fun cached hget => hclean cached (repair_order hget)
  | missingOrder orderId expected => exact hbalances _ (h.missing hm) trivial
  | orderEscrowInvariant orderId wallet asset required observed =>
      obtain ⟨order, horder, rfl, rfl, rfl, rfl, hread, hunder⟩ := hm
      obtain ⟨onChain, underEscrowed, -, hescrow, hsubset, -⟩ := h.orders order horder
      exact hbalances _ (hsubset (mem_escrowInvariant_of_under hescrow hread hunder)) trivial

/-- Otherwise the listing is evicted, and the second run lists the ledger. -/
theorem reconcile_repaired_evicted {configured : List Address} {ledger : Ledger}
    {redis redis' : Redis} {report : ReconciliationReport}
    (hids : ∀ id order, ledger.dex.order.get id = some order → order.id = id)
    (hassets : ∀ order ∈ ledgerIndex ledger, (normalizeQuoteAssetSymbol order.quoteAsset).isSome)
    (h : Reconciled configured ledger redis report redis')
    (hevicted : (repair redis' report).orders = ∅) :
    ∃ report' redis'',
      reconcile configured ledger (repair redis' report) .default = (some report', redis'') ∧
        ∀ m ∈ report'.mismatches, m.Expected ledger
          (fun wallet => wallet ∉ sampledWallets configured ledger redis)
          fun order => order ∉ ledgerIndex ledger := by
  have hindex : openIndex ledger (repair redis' report) = ledgerIndex ledger :=
    openIndex_of_evicted hevicted
  obtain ⟨report', redis'', hrun, hfound⟩ := reconcile_total configured
    (hindex ▸ ledgerIndex_checks hids hassets)
  refine ⟨report', redis'', hrun, ?_⟩
  intro m hm
  apply (hindex ▸ hfound m hm).expected hids
  intro wallet _ asset expected observed hentry hget hread hne hsampled
  -- an entry of a wallet that the first run sampled
  have hentry' : (wallet, asset) ∈ balanceEntries (sampledWallets configured ledger redis)
      supportedQuoteAssets := by
    obtain ⟨_, -, hasset⟩ := List.mem_flatMap.mp hentry
    obtain ⟨asset', hasset', heq⟩ := List.mem_map.mp hasset
    obtain ⟨rfl, rfl⟩ := Prod.mk.inj heq
    exact List.mem_flatMap.mpr ⟨_, hsampled, List.mem_map.mpr ⟨_, hasset', rfl⟩⟩
  exact hne (Option.some.inj (hread.symm.trans (balance_of_repaired h hentry' hget)))

/-- **Reconciliation settles.**  With caches in order it reports only sellers whose
quote balance is below the price of an open order, all of them, and partially filled
orders; after a repair only those, what lies past the first two hundred open orders,
and balances of wallets that the first run did not sample. -/
theorem reconciliation_settles (d : Deployment) (txs : List Tx) (now : Nat)
    (configured : List Address) (redis : Redis)
    (hassets : ∀ order ∈ ledgerIndex (ledgerAfter d txs now),
      (normalizeQuoteAssetSymbol order.quoteAsset).isSome) :
    (redis.Coherent (ledgerAfter d txs now) →
      (openStateOrders (ledgerAfter d txs now)).length ≤ 200 →
      ∃ report redis',
        reconcile configured (ledgerAfter d txs now) redis .default = (some report, redis') ∧
        (∀ m ∈ report.mismatches, m.Expected (ledgerAfter d txs now) (fun _ => False)
          fun order => order.status = .partiallyFilled) ∧
        ∀ order ∈ ledgerIndex (ledgerAfter d txs now), ∀ observed,
          getQuoteBalance (ledgerAfter d txs now) order.seller order.quoteAsset = some observed →
          observed < order.pricePerToken * order.amount →
          .orderEscrowInvariant order.id order.seller order.quoteAsset
            (order.pricePerToken * order.amount) observed ∈ report.mismatches) ∧
    ∀ report redis',
      reconcile configured (ledgerAfter d txs now) redis .default = (some report, redis') →
      ∃ report' redis'',
        reconcile configured (ledgerAfter d txs now) (repair redis' report) .default =
          (some report', redis'') ∧
        ∀ m ∈ report'.mismatches, m.Expected (ledgerAfter d txs now)
          (fun wallet => wallet ∉ sampledWallets configured (ledgerAfter d txs now) redis)
          fun order => order ∉ ledgerIndex (ledgerAfter d txs now) := by
  have hids : ∀ id order, (ledgerAfter d txs now).dex.order.get id = some order → order.id = id :=
    order_id d txs
  generalize ledgerAfter d txs now = ledger at hids hassets ⊢
  refine ⟨reconcile_of_coherent hids hassets, ?_⟩
  intro report redis' hrun
  have hfirst := reconciled hrun
  rcases repair_orders redis' report.mismatches with ⟨-, hevicted⟩ | ⟨hbalances, hsame⟩
  · exact reconcile_repaired_evicted hids hassets hfirst hevicted
  · obtain ⟨report', redis'', hrun', hnone⟩ :=
      reconcile_repaired_same hfirst hbalances hsame
    exact ⟨report', redis'', hrun', by simp [hnone]⟩

theorem coherent_empty (ledger : Ledger) : Redis.empty.Coherent ledger where
  orders key page h := by cases (get_empty key).symm.trans h
  order id order h := by cases (get_empty id).symm.trans h
  quoteBalance wallet asset balance h := by cases (get_empty (wallet, asset)).symm.trans h

/-- Account 1 has listed 200 of its tokens and brought no quote balance. -/
theorem reconciliation_settles_sample :
    ∃ report redis', reconcile [] (ledgerAfter sampleDeployment offeredListing 4000) Redis.empty
        .default = (some report, redis') ∧
      (∀ m ∈ report.mismatches, m.Expected (ledgerAfter sampleDeployment offeredListing 4000)
        (fun _ => False) fun order => order.status = .partiallyFilled) ∧
      ∀ order ∈ ledgerIndex (ledgerAfter sampleDeployment offeredListing 4000), ∀ observed,
        getQuoteBalance (ledgerAfter sampleDeployment offeredListing 4000) order.seller
          order.quoteAsset = some observed →
        observed < order.pricePerToken * order.amount →
        .orderEscrowInvariant order.id order.seller order.quoteAsset
          (order.pricePerToken * order.amount) observed ∈ report.mismatches :=
  (reconciliation_settles sampleDeployment offeredListing 4000 [] Redis.empty
    (by decide +kernel)).1 (coherent_empty _) (by decide +kernel)

/-- All 200 tokens are in escrow, and the order is reported because its seller holds
no quote balance. -/
theorem escrowed_order_reported :
    ¬ ∀ (d : Deployment) (txs : List Tx) (now : Nat) (configured : List Address) (redis : Redis),
      redis.Coherent (ledgerAfter d txs now) →
      (∀ order ∈ openStateOrders (ledgerAfter d txs now), order.amount ≤
        (ledgerAfter d txs now).dex.bondEscrow.read (order.bondId, order.seller)) →
      (openStateOrders (ledgerAfter d txs now)).length ≤ 200 →
      ∃ report redis', reconcile configured (ledgerAfter d txs now) redis .default =
        (some report, redis') ∧ report.mismatches = [] := by
  intro h
  obtain ⟨report, redis', hrun, hnone⟩ := h sampleDeployment offeredListing 4000 [] Redis.empty
    (coherent_empty _) (by decide +kernel) (by decide +kernel)
  have hreported : (reconcile [] (ledgerAfter sampleDeployment offeredListing 4000) Redis.empty
      .default).1.map (fun report => report.mismatches) =
        some [.orderEscrowInvariant 1 1 "USDC" 1000 0] := by decide +kernel
  rw [hrun, Option.map_some, hnone] at hreported
  cases hreported

end EcoMint.Marketplace
