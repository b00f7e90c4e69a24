import EcoMint.DexLedger
import EcoMint.PortfolioFreshness

/-!
# What the marketplace reads

The reading half of `DexService`: orders and quote balances come from simulated
calls of the router, and lists of orders, single orders and the indexed quote
balances are kept in Redis.  A method runs as a whole here; it sees one ledger at
one time of the clock and returns Redis as it leaves it.
-/

namespace EcoMint.Marketplace

open Portfolio (OrdersResponse decodeOrder ids isActionable normalizeQuoteAssetSymbol)
open Storage

/-- The router's storage, and `Date.now()`. -/
structure Ledger where
  dex : DexRouter.State
  now : Nat

/-- The parts of the key of a list of orders; bond 0 and no status stand for `all`. -/
structure ListKey where
  bondId : Nat
  status : Option DexRouter.OrderStatus
  page : Nat
  limit : Nat
deriving DecidableEq

/-- The prices of a bond in the feed. -/
structure PriceFeedResponse where
  bondId : Nat
  bestPrice : Int
  averagePrice : Int
  totalOrders : Nat
  totalVolume : Int
deriving DecidableEq, Repr

/-- The entries of the marketplace in Redis. -/
structure Redis where
  orders : Storage ListKey OrdersResponse
  order : Storage Nat DexRouter.Order
  quoteBalance : Storage (Address × Symbol) Int
  priceFeed : Storage Nat (List PriceFeedResponse)
deriving DecidableEq

/-- Nothing is there. -/
def Redis.empty : Redis := ⟨∅, ∅, ∅, ∅⟩

/-- `delPattern('orders:*')` -/
def Redis.delOrders (redis : Redis) : Redis := { redis with orders := ∅ }

/-- The entry of an order is deleted. -/
def Redis.delOrder (redis : Redis) (orderId : Nat) : Redis :=
  { redis with order := redis.order.erase orderId }

/-! ## Orders -/

/-- How many orders there are. -/
def getOrderCount (ledger : Ledger) : Nat := ledger.dex.orderCount

/-- The order with the status that the API derives; `none` where the call throws. -/
def fetchOrderFromLedger (ledger : Ledger) (orderId : Nat) : Option DexRouter.Order :=
  (DexRouter.getOrder ledger.dex orderId).toOption.map fun order => decodeOrder order ledger.now

/-- Every order on the ledger, in the order of the ids. -/
def allOrders (ledger : Ledger) : List DexRouter.Order :=
  (ids (getOrderCount ledger)).filterMap (fetchOrderFromLedger ledger)

/-- The page that `listOrders` computes when it is not in Redis. -/
def computeOrders (ledger : Ledger) (key : ListKey) : OrdersResponse :=
  let matchingOrders := ((allOrders ledger).filter fun order =>
    key.bondId = 0 ∨ order.bondId = key.bondId).filter fun order =>
      key.status = none ∨ key.status = some order.status
  let total := matchingOrders.length
  let start := (key.page - 1) * key.limit
  let totalPages := (total + key.limit - 1) / key.limit
  { data := (matchingOrders.drop start).take key.limit, page := key.page, limit := key.limit, total
    totalPages := if totalPages = 0 then 1 else totalPages }

/-- A list of orders from the cache, or else from the ledger and then into the cache. -/
def listOrders (ledger : Ledger) (redis : Redis) (key : ListKey) : OrdersResponse × Redis :=
  match redis.orders.get key with
  | some cached => (cached, redis)
  | none =>
      let result := computeOrders ledger key
      (result, { redis with orders := redis.orders.set key result })

/-- An order from the cache, or else from the ledger and then into the cache. -/
def getOrder (ledger : Ledger) (redis : Redis) (orderId : Nat) :
    Option (DexRouter.Order × Redis) :=
  match redis.order.get orderId with
  | some cached => some (cached, redis)
  | none =>
      (fetchOrderFromLedger ledger orderId).map fun order =>
        (order, { redis with order := redis.order.set orderId order })

/-! ## Quote balances -/

/-- The balance of an asset that the registry knows; `none` where it throws. -/
def getQuoteBalance (ledger : Ledger) (address : Address) (asset : Symbol) : Option Int :=
  (normalizeQuoteAssetSymbol asset).map fun normalizedAsset =>
    DexRouter.getQuoteBalance ledger.dex address normalizedAsset

/-- What the index says of a balance. -/
def getIndexedQuoteBalance (redis : Redis) (address : Address) (asset : Symbol) : Option Int :=
  redis.quoteBalance.get (address, asset)

/-- A balance is written to the index. -/
def setIndexedQuoteBalance (redis : Redis) (address : Address) (asset : Symbol) (balance : Int) :
    Redis := { redis with quoteBalance := redis.quoteBalance.set (address, asset) balance }

/-- A balance is deleted from the index. -/
def delQuoteBalance (redis : Redis) (address : Address) (asset : Symbol) : Redis :=
  { redis with quoteBalance := redis.quoteBalance.erase (address, asset) }

/-- `listSupportedQuoteAssets()`, the symbols of the registry. -/
def supportedQuoteAssets : List Symbol := ["USDC", "XLM"]

/-! ## Reading through Redis -/

@[simp] theorem listOrders_data_of_cached {ledger : Ledger} {redis : Redis} {key : ListKey}
    {cached : OrdersResponse} (h : redis.orders.get key = some cached) :
    listOrders ledger redis key = (cached, redis) := by
  rw [listOrders, h]

/-- A list that is not cached is computed and kept. -/
theorem listOrders_of_absent {ledger : Ledger} {redis : Redis} {key : ListKey}
    (h : redis.orders.get key = none) : listOrders ledger redis key =
      (computeOrders ledger key,
        { redis with orders := redis.orders.set key (computeOrders ledger key) }) := by
  rw [listOrders, h]

/-- All orders are those under the numbers given out. -/
theorem mem_allOrders_iff {ledger : Ledger} {order : DexRouter.Order} :
    order ∈ allOrders ledger ↔ ∃ id, 1 ≤ id ∧ id ≤ ledger.dex.orderCount ∧
      fetchOrderFromLedger ledger id = some order := by
  simp only [allOrders, getOrderCount, ids, List.mem_filterMap, List.mem_map, List.mem_range]
  constructor
  · rintro ⟨id, ⟨index, hindex, rfl⟩, hfetch⟩
    exact ⟨index + 1, by omega, by omega, hfetch⟩
  · rintro ⟨id, hpos, hle, hfetch⟩
    exact ⟨id, ⟨id - 1, by omega, by omega⟩, hfetch⟩

/-- An order that was fetched is a stored one, with the status that it has now. -/
theorem fetchOrderFromLedger_eq_some_iff {ledger : Ledger} {id : Nat} {order : DexRouter.Order} :
    fetchOrderFromLedger ledger id = some order ↔
      ∃ stored, ledger.dex.order.get id = some stored ∧ decodeOrder stored ledger.now = order := by
  unfold fetchOrderFromLedger DexRouter.getOrder
  cases ledger.dex.order.get id with
  | none => simp [Fallible.okOr, Except.toOption]
  | some stored => simp [Fallible.okOr, Except.toOption]

/-! ## Orders are stored under their ids -/

/-- A call of the router keeps every order under its own number. -/
theorem order_id_step {env : Env} {s s' : DexRouter.State} {call : DexRouter.Call}
    {out : DexRouter.Output} (h : DexRouter.RouterStep env s s' call out)
    (hs : ∀ id order, s.order.get id = some order → order.id = id) (id : Nat)
    (order : DexRouter.Order) (hget : s'.order.get id = some order) : order.id = id := by
  -- the listed order takes the next id; every other order keeps its own
  have hset : ∀ (key : Nat) (new : DexRouter.Order), new.id = key →
      s'.order = s.order.set key new → order.id = id := by
    intro key new hnew horder
    rw [horder, get_set] at hget
    split at hget
    · next heq =>
        obtain rfl := Option.some.inj hget
        exact hnew.trans heq.symm
    · exact hs id order hget
  cases h with
  | administered _ _ horder => exact hs id order (horder ▸ hget)
  | listed listing _ _ hlisted horder => exact hset _ listing hlisted.id_eq horder
  | cancelled _ key _ old hold _ horder =>
      exact hset key { old with status := .cancelled } (hs key old hold) horder
  | bought _ key _ amount _ old hold _ _ _ _ _ horder =>
      refine hset key _ ?_ horder
      rw [← hs key old hold]
      unfold DexRouter.Order.fill
      split <;> rfl
  | deposited _ _ _ _ _ horder => exact hs id order (horder ▸ hget)
  | withdrawn _ _ _ _ _ _ horder => exact hs id order (horder ▸ hget)
  | swept _ _ _ _ _ ids base hbase horder =>
      rw [horder] at hget
      rcases DexRouter.sweepOrders_get _ base ids 0 id with hsame | ⟨old, hold, -, hexpired⟩
      · exact hs id order (by rwa [hsame, hbase] at hget)
      · rw [hexpired] at hget
        obtain rfl := Option.some.inj hget
        exact hs id old (hbase ▸ hold)

/-- What a call of the router does to orders and balances. -/
theorem routerStep_of_exec {env : Env} {issuers : DexRouter.Issuers} {s s' : DexRouter.State}
    {issuer : Option BondIssuer.State} {call : DexRouter.Call} {out : DexRouter.Output}
    (h : DexRouter.exec env issuers s call = .ok (out, issuer, s')) :
    DexRouter.RouterStep env s s' call out := by
  have hfires : DexRouter.machine.Fires ⟨s, ⟨env, issuers, call⟩, out, s'⟩ := by
    simp [Machine.Fires, DexRouter.machine, h]
  exact DexRouter.routerStep_of_fires hfires

/-- A transaction takes a step of the router, or is for another contract. -/
theorem router_cases {w w' : World} {tx : Tx} {out : Output} (h : WorldStep w tx out w') :
    (∀ call, tx.call ≠ .dex call) ∧ w'.dex = w.dex ∨
      ∃ call o, tx.call = .dex call ∧
        DexRouter.RouterStep (tx.env w.dexAddress) w.dex w'.dex call o := by
  cases h with
  | dex call o issuer s hcall hout hexec hafter =>
      rw [hafter]
      exact Or.inr ⟨call, o, hcall, routerStep_of_exec hexec⟩
  | issuer _ _ _ hcall _ _ hafter => exact Or.inl ⟨by simp [hcall], by rw [hafter]⟩
  | oracle _ _ _ hcall _ _ hafter => exact Or.inl ⟨by simp [hcall], by rw [hafter]⟩
  | engine _ _ _ hcall _ _ hafter => exact Or.inl ⟨by simp [hcall], by rw [hafter]⟩
  | retirement _ _ _ hcall _ _ hafter => exact Or.inl ⟨by simp [hcall], by rw [hafter]⟩

/-- Every order of a run is under its own number. -/
theorem order_id (d : Deployment) (txs : List Tx) :
    ∀ id order, (machine.run (deploy d) txs).dex.order.get id = some order → order.id = id := by
  refine machine.invariant
    (P := fun w _ => ∀ id order, w.dex.order.get id = some order → order.id = id) ?_ ?_ txs
  · intro id order hget
    rw [show (deploy d).dex.order = ∅ from rfl, get_empty] at hget
    cases hget
  · intro _ e hfires hs
    rcases router_cases (worldStep_of_execute hfires) with ⟨-, hsame⟩ | ⟨call, o, -, hstep⟩
    · rwa [hsame]
    · exact order_id_step hstep hs

/-- An order of the ledger is fetched by its id. -/
theorem fetch_of_mem_allOrders {ledger : Ledger}
    (hids : ∀ id order, ledger.dex.order.get id = some order → order.id = id)
    {order : DexRouter.Order} (h : order ∈ allOrders ledger) :
    fetchOrderFromLedger ledger order.id = some order := by
  obtain ⟨id, -, -, hfetch⟩ := mem_allOrders_iff.mp h
  obtain ⟨stored, hstored, rfl⟩ := fetchOrderFromLedger_eq_some_iff.mp hfetch
  have hid : (decodeOrder stored ledger.now).id = id := hids id stored hstored
  rw [hid]
  exact hfetch

/-- A computed list has orders only. -/
theorem mem_computeOrders {ledger : Ledger} {key : ListKey} {order : DexRouter.Order}
    (h : order ∈ (computeOrders ledger key).data) : order ∈ allOrders ledger := by
  have hpage := List.mem_of_mem_drop (List.mem_of_mem_take h)
  exact (List.mem_filter.mp (List.mem_filter.mp hpage).1).1

end EcoMint.Marketplace
