import EcoMint.Liquidity

/-!
# The best price that is reported

Whatever transactions are executed and whatever the marketplace has answered and
forgotten before, every listed price is positive: on the ledger, and in the pages
of orders that Redis keeps.  The best price of a feed is folded from zero, so it is
zero.  It is therefore right only when there is no live order, and so nothing to
report.
-/

namespace EcoMint.Marketplace

open Storage
open DexRouter (Order)
open Portfolio (decodeOrder isActionable)

/-! ## Runs of the marketplace -/

/-- The contracts, the clock and Redis. -/
structure Market where
  world : World
  now : Nat
  redis : Redis

/-- The ledger as the price service reads it. -/
def Market.ledger (m : Market) : Ledger := ⟨m.world.dex, m.now⟩

/-- The market right after the contracts are deployed, with nothing cached. -/
def Market.opened (d : Deployment) : Market := ⟨deploy d, 0, Redis.empty⟩

/-- What happens between two answers: anyone's transactions, requests, and entries
that expire or are deleted.  `getBestPrice` and `calculateSlippage` leave behind
what `listOrders` does. -/
inductive MarketEvent
  | transaction (tx : Tx)
  | clock (now : Nat)
  | listOrders (key : ListKey)
  | getPriceFeed (bondId : Nat)
  | dropOrders (key : ListKey)
  | dropPriceFeed (bondId : Nat)

/-- What happens to the market at one event. -/
def Market.after (m : Market) : MarketEvent → Market
  | .transaction tx => { m with world := machine.step m.world tx }
  | .clock now => { m with now }
  | .listOrders key => { m with redis := (listOrders m.ledger m.redis key).2 }
  | .getPriceFeed bondId => { m with redis := (getPriceFeed m.ledger m.redis bondId).2 }
  | .dropOrders key =>
      { m with redis := { m.redis with orders := m.redis.orders.erase key } }
  | .dropPriceFeed bondId =>
      { m with redis := { m.redis with priceFeed := m.redis.priceFeed.erase bondId } }

/-- What happens to the market at a list of events, one after the other. -/
def Market.run (m : Market) (events : List MarketEvent) : Market := events.foldl Market.after m

/-- The open and partially filled orders of a bond that have not expired. -/
def liveOrders (ledger : Ledger) (bondId : Nat) : List Order :=
  (allOrders ledger).filter fun order => order.bondId = bondId ∧ isActionable order

/-- If there is a lowest price, both services report it. -/
def Market.ReportsBestPrice (m : Market) (bondId : Nat) : Prop :=
  ∀ best, ((liveOrders m.ledger bondId).map Order.pricePerToken).min? = some best →
    (∃ feed ∈ (getPriceFeed m.ledger m.redis bondId).1,
      feed.bondId = bondId ∧ feed.bestPrice = best) ∧
    (getBestPrice m.ledger m.redis bondId).1.price = best

/-! ## Listed prices are positive -/

/-- Every order has a positive price. -/
def Priced (orders : List Order) : Prop := ∀ order ∈ orders, 0 < order.pricePerToken

/-- The prices on the ledger and in the pages are positive, and the best prices in
the feeds are zero. -/
structure Market.Priced (m : Market) : Prop where
  stored : ∀ id order, m.world.dex.order.get id = some order → 0 < order.pricePerToken
  pages : ∀ key page, m.redis.orders.get key = some page → Marketplace.Priced page.data
  feeds : ∀ bondId feeds, m.redis.priceFeed.get bondId = some feeds →
    ∀ feed ∈ feeds, feed.bestPrice = 0

/-- In a priced market every order of the book has a positive price. -/
theorem Market.Priced.allOrders {m : Market} (h : m.Priced) :
    Marketplace.Priced (allOrders m.ledger) := by
  intro order horder
  obtain ⟨id, -, -, hfetch⟩ := mem_allOrders_iff.mp horder
  obtain ⟨stored, hstored, rfl⟩ := fetchOrderFromLedger_eq_some_iff.mp hfetch
  exact h.stored id stored hstored

/-- In a priced market every page of orders served has positive prices only. -/
theorem Market.Priced.page {m : Market} (h : m.Priced) (key : ListKey) :
    Marketplace.Priced (listOrders m.ledger m.redis key).1.data := by
  cases hcached : m.redis.orders.get key with
  | some page =>
      rw [listOrders_data_of_cached hcached]
      exact h.pages key page hcached
  | none =>
      rw [listOrders_of_absent hcached]
      intro order horder
      exact h.allOrders order (mem_computeOrders horder)

/-- Listing orders keeps a market priced. -/
theorem Market.Priced.listOrders {m : Market} (h : m.Priced) (key : ListKey) :
    ({ m with redis := (listOrders m.ledger m.redis key).2 } : Market).Priced := by
  have hpage := h.page key
  cases hcached : m.redis.orders.get key with
  | some page => rwa [listOrders_data_of_cached hcached]
  | none =>
      rw [listOrders_of_absent hcached] at hpage ⊢
      refine ⟨h.stored, ?_, h.feeds⟩
      intro key' page hget
      dsimp only at hget
      rw [get_set] at hget
      split at hget
      · obtain rfl := Option.some.inj hget
        exact hpage
      · exact h.pages key' page hget

/-! ## The fold starts from zero -/

theorem foldl_smaller_zero {prices : List Int} (h : ∀ price ∈ prices, 0 < price) :
    prices.foldl smaller 0 = 0 := by
  induction prices with
  | nil => rfl
  | cons price rest ih =>
      obtain ⟨hprice, hrest⟩ := List.forall_mem_cons.mp h
      rw [List.foldl_cons, smaller, if_pos hprice]
      exact ih hrest

/-- Over orders with positive prices every best price reported is zero. -/
theorem bestPrice_of_priced {data : List Order} (h : Priced data) {feed : PriceFeedResponse}
    (hfeed : feed ∈ priceFeeds data) : feed.bestPrice = 0 := by
  obtain ⟨id, -, rfl⟩ := List.mem_map.mp hfeed
  apply foldl_smaller_zero
  intro price hprice
  obtain ⟨order, horder, rfl⟩ := List.mem_map.mp hprice
  exact h order (List.mem_of_mem_filter (List.mem_of_mem_filter horder))

/-- In a priced market every best price served is zero. -/
theorem Market.Priced.feed {m : Market} (h : m.Priced) (bondId : Nat) :
    ∀ feed ∈ (getPriceFeed m.ledger m.redis bondId).1, feed.bestPrice = 0 := by
  unfold getPriceFeed
  cases hcached : m.redis.priceFeed.get bondId with
  | some feeds => exact h.feeds bondId feeds hcached
  | none =>
      intro feed hfeed
      exact bestPrice_of_priced (h.page (openOrdersKey bondId)) hfeed

/-- Serving a price feed keeps a market priced. -/
theorem Market.Priced.getPriceFeed {m : Market} (h : m.Priced) (bondId : Nat) :
    ({ m with redis := (getPriceFeed m.ledger m.redis bondId).2 } : Market).Priced := by
  have hfeed := h.feed bondId
  have hlisted := h.listOrders (openOrdersKey bondId)
  unfold Marketplace.getPriceFeed at hfeed ⊢
  cases hcached : m.redis.priceFeed.get bondId with
  | some feeds => exact h
  | none =>
      rw [hcached] at hfeed
      refine ⟨h.stored, hlisted.pages, ?_⟩
      intro bondId' feeds hget
      dsimp only at hget
      rw [get_set] at hget
      split at hget
      · obtain rfl := Option.some.inj hget
        exact hfeed
      · exact hlisted.feeds bondId' feeds hget

/-! ## Every run -/

/-- Every state the marketplace can be in. -/
theorem priced_run (d : Deployment) (events : List MarketEvent) :
    (∃ txs, ((Market.opened d).run events).world = machine.run (deploy d) txs) ∧
      ((Market.opened d).run events).Priced := by
  induction events using List.reverseRecOn with
  | nil =>
      refine ⟨⟨[], rfl⟩, (quoteInvariant d []).price_pos, ?_, ?_⟩
      · intro key page hget
        rw [show ((Market.opened d).run []).redis.orders = ∅ from rfl, get_empty] at hget
        cases hget
      · intro bondId feeds hget
        rw [show ((Market.opened d).run []).redis.priceFeed = ∅ from rfl, get_empty] at hget
        cases hget
  | append_singleton events event ih =>
      obtain ⟨⟨txs, hworld⟩, hpriced⟩ := ih
      rw [Market.run, List.foldl_append, List.foldl_cons, List.foldl_nil, ← Market.run]
      cases event with
      | transaction tx =>
          have hstep : machine.step ((Market.opened d).run events).world tx =
              machine.run (deploy d) (txs ++ [tx]) := by
            rw [hworld, Machine.run_snoc]
          refine ⟨⟨txs ++ [tx], hstep⟩, ?_, hpriced.pages, hpriced.feeds⟩
          intro id order hget
          apply (quoteInvariant d (txs ++ [tx])).price_pos id
          rw [← hstep]
          exact hget
      | clock now => exact ⟨⟨txs, hworld⟩, hpriced.stored, hpriced.pages, hpriced.feeds⟩
      | listOrders key => exact ⟨⟨txs, hworld⟩, hpriced.listOrders key⟩
      | getPriceFeed bondId => exact ⟨⟨txs, hworld⟩, hpriced.getPriceFeed bondId⟩
      | dropOrders key =>
          refine ⟨⟨txs, hworld⟩, hpriced.stored, ?_, hpriced.feeds⟩
          exact fun key' page hget => hpriced.pages key' page (get_erase_some hget)
      | dropPriceFeed bondId =>
          refine ⟨⟨txs, hworld⟩, hpriced.stored, hpriced.pages, ?_⟩
          exact fun bondId' feeds hget => hpriced.feeds bondId' feeds (get_erase_some hget)

/-- **The best price is reported only of a bond without live orders**, where there
is none. -/
theorem best_price_reported_iff (d : Deployment) (events : List MarketEvent) (bondId : Nat) :
    ((Market.opened d).run events).ReportsBestPrice bondId ↔
      liveOrders ((Market.opened d).run events).ledger bondId = [] := by
  have hpriced := (priced_run d events).2
  generalize (Market.opened d).run events = m at hpriced ⊢
  constructor
  · intro hreports
    by_contra hlive
    have hprices : (liveOrders m.ledger bondId).map Order.pricePerToken ≠ [] :=
      fun h => hlive (List.map_eq_nil_iff.mp h)
    obtain ⟨best, hbest⟩ := Option.isSome_iff_exists.mp (List.isSome_min?_of_ne_nil hprices)
    obtain ⟨⟨feed, hfeed, -, hreported⟩, -⟩ := hreports best hbest
    obtain ⟨order, horder, hprice⟩ := List.mem_map.mp (List.min?_eq_some_iff.mp hbest).1
    have hpos := hpriced.allOrders order (List.mem_of_mem_filter horder)
    rw [hprice, ← hreported, hpriced.feed bondId feed hfeed] at hpos
    exact lt_irrefl 0 hpos
  · intro hnone best hbest
    rw [hnone] at hbest
    cases hbest

/-- Account 1 has listed 200 tokens at the price 5, and the clock moves on. -/
def offeredMarket : List MarketEvent :=
  offeredListing.map .transaction ++ [.clock 4000]

/-- The tokens are offered at the price 5, and the feed says 0. -/
theorem best_price_lost :
    ¬ ∀ (d : Deployment) (events : List MarketEvent) (bondId : Nat),
      ((Market.opened d).run events).ReportsBestPrice bondId := by
  intro h
  have hreports := h sampleDeployment offeredMarket 1 5 (by decide +kernel)
  obtain ⟨feed, hfeed, -, hprice⟩ := hreports.1
  have hzero : ∀ feed ∈ (getPriceFeed ((Market.opened sampleDeployment).run offeredMarket).ledger
      ((Market.opened sampleDeployment).run offeredMarket).redis 1).1, feed.bestPrice = 0 := by
    decide +kernel
  rw [hzero feed hfeed] at hprice
  cases hprice

end EcoMint.Marketplace
