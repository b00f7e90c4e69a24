import EcoMint.PriceReports
import EcoMint.PurchaseSettlement
import EcoMint.Reconciliation

/-!
# The index of quote balances

`reconcile` seeds the index with what it reads from the ledger.  A deposit and a
withdrawal evict the entry of the balance that they move, and a repair leaves
nothing behind.  A purchase moves the balances of the buyer and of the seller and
evicts neither.

So the index agrees with the ledger for as long as no purchase goes through while
one of the two balances is indexed, and one such purchase is enough to part them.
The index is keyed by the asset as it is spelled; a run that reconciles other
spellings than the registry's indexes balances under names that no eviction knows.
-/

namespace EcoMint.Marketplace

open Storage
open Portfolio (isActionable normalizeQuoteAssetSymbol)
open DexRouter (Order)

/-! ## The operations -/

/-- What a call of the router carries besides its arguments: the nonce, whether the
simulation and the submission go through, and how the transaction is applied. -/
structure Submission where
  nonce : Nat
  accepted : Bool
  timestamp : Nat
  signers : List Address
  invoker : Option Address
  overflowChecks : Bool
  registries : BondIssuer.Registries

/-- A submission as a transaction with a call of the router. -/
def Submission.tx (submission : Submission) (call : DexRouter.Call) : Tx :=
  { timestamp := submission.timestamp, signers := submission.signers
    invoker := submission.invoker, overflowChecks := submission.overflowChecks
    registries := submission.registries, call := .dex call }

/-- `none` where the submission throws; an accepted transaction may still fail. -/
def invokeContractMethod (m : Market) (submission : Submission) (call : DexRouter.Call) :
    Option Market :=
  if submission.accepted then some { m with world := machine.step m.world (submission.tx call) }
  else none

/-- What a deposit or a withdrawal returns. -/
structure QuoteTransactionResponse where
  address : Address
  asset : Symbol
  amount : Int
deriving DecidableEq, Repr

/-- The entry of a balance is deleted, if the asset is known. -/
def invalidateQuoteBalanceIndex (redis : Redis) (address : Address) (assetSymbol : Symbol) :
    Option Redis :=
  (normalizeQuoteAssetSymbol assetSymbol).map (delQuoteBalance redis address)

/-- A deposit or a withdrawal: the call and the eviction after it. -/
def moveQuote (m : Market) (submission : Submission) (call : DexRouter.Call) (asset : Symbol)
    (amount : Int) (callerAddress : Address) : Option QuoteTransactionResponse × Market :=
  match invokeContractMethod m submission call with
  | none => (none, m)
  | some m =>
      match invalidateQuoteBalanceIndex m.redis callerAddress asset with
      | none => (none, m)
      | some redis => (some ⟨callerAddress, asset, amount⟩, { m with redis })

/-- A deposit through the API. -/
def depositQuote (m : Market) (submission : Submission) (asset : Symbol) (amount : Int)
    (callerAddress : Address) : Option QuoteTransactionResponse × Market :=
  moveQuote m submission (.depositQuote callerAddress asset amount submission.nonce) asset amount
    callerAddress

/-- A withdrawal through the API. -/
def withdrawQuote (m : Market) (submission : Submission) (asset : Symbol) (amount : Int)
    (callerAddress : Address) : Option QuoteTransactionResponse × Market :=
  moveQuote m submission (.withdrawQuote callerAddress asset amount submission.nonce) asset amount
    callerAddress

/-- The evictions after a mutation of an order. -/
def Market.evictOrder (m : Market) (orderId : Nat) : Market :=
  { m with redis := m.redis.delOrders.delOrder orderId }

/-- `return this.getOrder(orderId)` -/
def returnOrder (m : Market) (orderId : Nat) : Option Order × Market :=
  match getOrder m.ledger m.redis orderId with
  | none => (none, m)
  | some (order, redis) => (some order, { m with redis })

/-- A listing through the API; without a time it is good for a week. -/
def listBondTokens (m : Market) (submission : Submission) (bondId : Nat)
    (amount pricePerToken : Int) (quoteAsset : Symbol) (expiresAfterSeconds : Nat)
    (sellerAddress : Address) : Option Order × Market :=
  let expiresAfterSeconds := if expiresAfterSeconds = 0 then 604800 else expiresAfterSeconds
  -- the id that the simulation returns
  let orderId := getOrderCount m.ledger + 1
  match invokeContractMethod m submission (.listBondTokens sellerAddress bondId amount
    pricePerToken quoteAsset expiresAfterSeconds submission.nonce) with
  | none => (none, m)
  | some m => returnOrder (m.evictOrder orderId) orderId

/-- What `buyBondTokens` checks before it takes a nonce. -/
def checkPurchase (ledger : Ledger) (orderId : Nat) (maxPrice amount : Int)
    (buyerAddress : Address) : Bool :=
  match fetchOrderFromLedger ledger orderId with
  | none => false
  | some order =>
      if !isActionable order then false
      else if amount > order.amount then false
      else if maxPrice < order.pricePerToken then false
      else
        match getQuoteBalance ledger buyerAddress order.quoteAsset with
        | none => false
        | some balance => !(balance < order.pricePerToken * amount)

/-- A purchase through the API; no entry of a balance is deleted. -/
def buyBondTokens (m : Market) (submission : Submission) (orderId : Nat) (maxPrice amount : Int)
    (buyerAddress : Address) : Option Order × Market :=
  if checkPurchase m.ledger orderId maxPrice amount buyerAddress then
    match invokeContractMethod m submission (.executePurchase buyerAddress orderId maxPrice amount
      submission.nonce) with
    | none => (none, m)
    | some m => returnOrder (m.evictOrder orderId) orderId
  else (none, m)

/-- A cancellation through the API. -/
def cancelOrder (m : Market) (submission : Submission) (orderId : Nat)
    (callerAddress : Address) : Option Unit × Market :=
  match fetchOrderFromLedger m.ledger orderId with
  | none => (none, m)
  | some order =>
      if !isActionable order then (none, m)
      else
        match invokeContractMethod m submission (.cancelListing callerAddress orderId
          submission.nonce) with
        | none => (none, m)
        | some m => (some (), m.evictOrder orderId)

/-- The operations of the marketplace; between them transactions of the other
contracts, the clock, and entries that expire. -/
inductive Operation
  | depositQuote (submission : Submission) (asset : Symbol) (amount : Int)
      (callerAddress : Address)
  | withdrawQuote (submission : Submission) (asset : Symbol) (amount : Int)
      (callerAddress : Address)
  | buyBondTokens (submission : Submission) (orderId : Nat) (maxPrice amount : Int)
      (buyerAddress : Address)
  | listBondTokens (submission : Submission) (bondId : Nat) (amount pricePerToken : Int)
      (quoteAsset : Symbol) (expiresAfterSeconds : Nat) (sellerAddress : Address)
  | cancelOrder (submission : Submission) (orderId : Nat) (callerAddress : Address)
  | reconcile (configured : List Address) (options : ReconcileOptions)
  | repair (report : ReconciliationReport)
  | elsewhere (tx : Tx)
  | clock (now : Nat)
  | expired (wallet : Address) (asset : Symbol)

/-- The market after an operation. -/
def Market.perform (m : Market) : Operation → Market
  | .depositQuote submission asset amount callerAddress =>
      (depositQuote m submission asset amount callerAddress).2
  | .withdrawQuote submission asset amount callerAddress =>
      (withdrawQuote m submission asset amount callerAddress).2
  | .buyBondTokens submission orderId maxPrice amount buyerAddress =>
      (buyBondTokens m submission orderId maxPrice amount buyerAddress).2
  | .listBondTokens submission bondId amount pricePerToken quoteAsset expiresAfterSeconds
      sellerAddress =>
      (listBondTokens m submission bondId amount pricePerToken quoteAsset expiresAfterSeconds
        sellerAddress).2
  | .cancelOrder submission orderId callerAddress =>
      (cancelOrder m submission orderId callerAddress).2
  | .reconcile configured options =>
      { m with redis := (Marketplace.reconcile configured m.ledger m.redis options).2 }
  | .repair report => { m with redis := Marketplace.repair m.redis report }
  | .elsewhere tx =>
      match tx.call with
      | .dex _ => m
      | _ => { m with world := machine.step m.world tx }
  | .clock now => { m with now }
  | .expired wallet asset => { m with redis := delQuoteBalance m.redis wallet asset }

/-! ## Agreement with the ledger -/

/-- Every entry of the index is the balance of that wallet and asset on the ledger. -/
def Market.IndexCoherent (m : Market) : Prop :=
  ∀ wallet asset balance, getIndexedQuoteBalance m.redis wallet asset = some balance →
    balance = DexRouter.getQuoteBalance m.world.dex wallet asset

/-- The purchase is checked, submitted and applied. -/
structure Market.Buys (m : Market) (submission : Submission) (orderId : Nat)
    (maxPrice amount : Int) (buyerAddress : Address) : Prop where
  checked : checkPurchase m.ledger orderId maxPrice amount buyerAddress
  accepted : submission.accepted
  applied : ∃ out world, execute m.world (submission.tx (.executePurchase buyerAddress orderId
    maxPrice amount submission.nonce)) = .ok (out, world)

/-- Neither the buyer's nor the seller's balance is indexed. -/
def Market.Unindexed (m : Market) (orderId : Nat) (buyerAddress : Address) : Prop :=
  ∀ order, m.world.dex.order.get orderId = some order →
    getIndexedQuoteBalance m.redis buyerAddress order.quoteAsset = none ∧
      getIndexedQuoteBalance m.redis order.seller order.quoteAsset = none

/-- When an operation keeps the index in order: a purchase that goes through meets
no entry that it would have to evict, and a reconciliation names assets as the
registry spells them. -/
def Operation.KeepsIndex (m : Market) : Operation → Prop
  | .buyBondTokens submission orderId maxPrice amount buyerAddress =>
      m.Buys submission orderId maxPrice amount buyerAddress → m.Unindexed orderId buyerAddress
  | .reconcile _ options => ∀ asset ∈ options.assets.getD supportedQuoteAssets,
      ∀ symbol, normalizeQuoteAssetSymbol asset = some symbol → symbol = asset
  | _ => True

/-! ## What a call moves -/

/-- The quote balances that a successful call moves. -/
def movedKeys (s : DexRouter.State) : DexRouter.Call → List (Symbol × Address)
  | .depositQuote caller quoteAsset _ _ => [(quoteAsset, caller)]
  | .withdrawQuote caller quoteAsset _ _ => [(quoteAsset, caller)]
  | .executePurchase buyer orderId _ _ _ =>
      match s.order.get orderId with
      | none => []
      | some order => [(order.quoteAsset, buyer), (order.quoteAsset, order.seller)]
  | _ => []

/-- A call of the router moves no balance but those that it names. -/
theorem read_balance_of_routerStep {env : Env} {s s' : DexRouter.State} {call : DexRouter.Call}
    {out : DexRouter.Output} (h : DexRouter.RouterStep env s s' call out) {k : Symbol × Address}
    (hk : k ∉ movedKeys s call) : s'.balance.read k = s.balance.read k := by
  cases h with
  | administered _ _ _ _ hbalance => rw [hbalance]
  | listed _ _ _ _ _ _ hbalance => rw [hbalance]
  | cancelled _ _ _ _ _ _ _ _ hbalance => rw [hbalance]
  | bought buyer id _ amount _ order hget _ _ _ _ _ _ _ hbalance =>
      simp only [movedKeys, hget, List.mem_cons, List.not_mem_nil, or_false, not_or] at hk
      rw [hbalance, read_credit_ne _ _ hk.2, read_credit_ne _ _ hk.1]
  | deposited caller quoteAsset amount _ _ _ _ hbalance =>
      rw [hbalance, read_credit_ne _ _ (List.mem_singleton.not.mp hk)]
  | withdrawn caller quoteAsset amount _ _ _ _ _ hbalance =>
      rw [hbalance, read_credit_ne _ _ (List.mem_singleton.not.mp hk)]
  | swept _ _ _ _ _ _ _ _ _ _ hbalance => rw [hbalance]

/-- A transaction to the router is applied or changes nothing. -/
theorem dex_of_submission (w : World) (submission : Submission) (call : DexRouter.Call) :
    machine.step w (submission.tx call) = w ∨
      (∃ out world, execute w (submission.tx call) = .ok (out, world)) ∧
        ∀ k ∉ movedKeys w.dex call,
          (machine.step w (submission.tx call)).dex.balance.read k = w.dex.balance.read k := by
  cases hexecute : execute w (submission.tx call) with
  | error e =>
      left
      have hfails : machine.call w (submission.tx call) = .error e := hexecute
      rw [Machine.step, hfails]
  | ok result =>
      obtain ⟨out, world⟩ := result
      have hcall : machine.call w (submission.tx call) = .ok (out, world) := hexecute
      have hstep : machine.step w (submission.tx call) = world := by rw [Machine.step, hcall]
      refine Or.inr ⟨⟨out, world, rfl⟩, ?_⟩
      intro k hk
      rw [hstep]
      rcases router_cases (worldStep_of_execute hexecute) with
        ⟨hnone, -⟩ | ⟨inner, o, hinner, hrouter⟩
      · exact absurd rfl (hnone call)
      · obtain rfl := Call.dex.inj hinner
        exact read_balance_of_routerStep hrouter hk

/-- A purchase that was applied is of a positive amount. -/
theorem amount_pos_of_execute {w w' : World} {tx : Tx} {out : Output} {buyer : Address}
    {orderId : Nat} {maxPrice amount : Int} {nonce : Nat}
    (hcall : tx.call = .dex (.executePurchase buyer orderId maxPrice amount nonce))
    (h : execute w tx = .ok (out, w')) : 0 < amount := by
  rcases router_cases (worldStep_of_execute h) with ⟨hnone, -⟩ | ⟨inner, o, hinner, hrouter⟩
  · exact absurd hcall (hnone _)
  · obtain rfl := Call.dex.inj (hcall.symm.trans hinner)
    cases hrouter with
    | bought _ _ _ _ _ order hget hlive hdue hpos => exact hpos

/-! ## Every operation -/

/-- The index agrees with the ledger and names assets as the registry spells them. -/
structure Market.IndexInvariant (m : Market) : Prop where
  coherent : m.IndexCoherent
  spelled : ∀ wallet asset balance, getIndexedQuoteBalance m.redis wallet asset = some balance →
    normalizeQuoteAssetSymbol asset = some asset

/-- An operation keeps the invariant when the entries that it leaves were there and
their balances have not moved. -/
theorem Market.IndexInvariant.of_kept {m m' : Market} (h : m.IndexInvariant)
    (hkept : ∀ wallet asset balance, getIndexedQuoteBalance m'.redis wallet asset = some balance →
      getIndexedQuoteBalance m.redis wallet asset = some balance ∧
        (normalizeQuoteAssetSymbol asset = some asset →
          m'.world.dex.balance.read (asset, wallet) = m.world.dex.balance.read (asset, wallet))) :
    m'.IndexInvariant := by
  refine ⟨?_, ?_⟩
  · intro wallet asset balance hget
    obtain ⟨hbefore, hsame⟩ := hkept wallet asset balance hget
    rw [DexRouter.getQuoteBalance, hsame (h.spelled wallet asset balance hbefore)]
    exact h.coherent wallet asset balance hbefore
  · intro wallet asset balance hget
    exact h.spelled wallet asset balance (hkept wallet asset balance hget).1

/-- A read of an order leaves the index alone. -/
theorem getOrder_quoteBalance {ledger : Ledger} {redis redis' : Redis} {id : Nat} {order : Order}
    (h : getOrder ledger redis id = some (order, redis')) :
    redis'.quoteBalance = redis.quoteBalance := by
  unfold getOrder at h
  split at h
  · obtain ⟨-, rfl⟩ := Prod.mk.inj (Option.some.inj h)
    rfl
  · obtain ⟨fetched, -, hpair⟩ := Option.map_eq_some_iff.mp h
    obtain ⟨-, rfl⟩ := Prod.mk.inj hpair
    rfl

/-- What follows a mutation of an order leaves the index and the contracts alone. -/
theorem returnOrder_frame (m : Market) (orderId : Nat) :
    (returnOrder m orderId).2.redis.quoteBalance = m.redis.quoteBalance ∧
      (returnOrder m orderId).2.world = m.world := by
  unfold returnOrder
  cases horder : getOrder m.ledger m.redis orderId with
  | none => exact ⟨rfl, rfl⟩
  | some result => exact ⟨getOrder_quoteBalance horder, rfl⟩

/-- A call that moves no indexed balance. -/
theorem Market.IndexInvariant.of_call {m m' : Market} (h : m.IndexInvariant)
    (submission : Submission) (call : DexRouter.Call)
    (hredis : m'.redis.quoteBalance = m.redis.quoteBalance)
    (hworld : m'.world = machine.step m.world (submission.tx call))
    (hunmoved : (∃ out world, execute m.world (submission.tx call) = .ok (out, world)) →
      ∀ wallet asset balance, getIndexedQuoteBalance m.redis wallet asset = some balance →
        (asset, wallet) ∉ movedKeys m.world.dex call) : m'.IndexInvariant := by
  apply h.of_kept
  intro wallet asset balance hget
  unfold getIndexedQuoteBalance at hget
  rw [hredis] at hget
  refine ⟨hget, fun _ => ?_⟩
  rw [hworld]
  rcases dex_of_submission m.world submission call with hsame | ⟨happlied, hread⟩
  · rw [hsame]
  · exact hread _ (hunmoved happlied wallet asset balance hget)

/-- The same, with the order read back afterwards. -/
theorem Market.IndexInvariant.of_returned {m : Market} (h : m.IndexInvariant)
    (submission : Submission) (orderId : Nat) {call : DexRouter.Call}
    (hunmoved : (∃ out world, execute m.world (submission.tx call) = .ok (out, world)) →
      ∀ wallet asset balance, getIndexedQuoteBalance m.redis wallet asset = some balance →
        (asset, wallet) ∉ movedKeys m.world.dex call) :
    (returnOrder (Market.evictOrder { m with world := machine.step m.world (submission.tx call) }
      orderId) orderId).2.IndexInvariant := by
  obtain ⟨hredis, hworld⟩ := returnOrder_frame
    (Market.evictOrder { m with world := machine.step m.world (submission.tx call) } orderId)
    orderId
  exact h.of_call submission call hredis hworld hunmoved

/-- A deposit or a withdrawal keeps the index in agreement. -/
theorem Market.IndexInvariant.moveQuote {m : Market} (h : m.IndexInvariant)
    (submission : Submission) {call : DexRouter.Call} (asset : Symbol) (amount : Int)
    (callerAddress : Address) (hmoved : movedKeys m.world.dex call = [(asset, callerAddress)]) :
    (moveQuote m submission call asset amount callerAddress).2.IndexInvariant := by
  unfold Marketplace.moveQuote invokeContractMethod invalidateQuoteBalanceIndex
  cases submission.accepted with
  | false => exact h
  | true =>
      have hread : ∀ wallet asset', (asset', wallet) ≠ (asset, callerAddress) →
          (machine.step m.world (submission.tx call)).dex.balance.read (asset', wallet) =
            m.world.dex.balance.read (asset', wallet) := by
        intro wallet asset' hne
        rcases dex_of_submission m.world submission call with hsame | ⟨-, hread⟩
        · rw [hsame]
        · exact hread _ (by rw [hmoved]; exact List.mem_singleton.not.mpr hne)
      cases hasset : normalizeQuoteAssetSymbol asset with
      | none =>
          -- nothing is evicted; no entry has a name that the registry does not know
          apply h.of_kept
          intro wallet asset' balance hget
          refine ⟨hget, fun hspelled => hread wallet asset' ?_⟩
          intro heq
          obtain ⟨rfl, -⟩ := Prod.mk.inj heq
          cases hasset.symm.trans hspelled
      | some normalizedAsset =>
          apply h.of_kept
          intro wallet asset' balance hget
          refine ⟨get_erase_some hget, fun hspelled => hread wallet asset' ?_⟩
          intro heq
          have hkept : Storage.get (m.redis.quoteBalance.erase (callerAddress, normalizedAsset))
            (wallet, asset') = some balance := hget
          obtain ⟨rfl, rfl⟩ := Prod.mk.inj heq
          obtain rfl := Option.some.inj (hasset.symm.trans hspelled)
          rw [get_erase_self] at hkept
          cases hkept

/-- A purchase evicts no balance, so it must not move one that is indexed. -/
theorem Market.IndexInvariant.buyBondTokens {m : Market} (h : m.IndexInvariant)
    (submission : Submission) (orderId : Nat) (maxPrice amount : Int) (buyerAddress : Address)
    (hbuys : m.Buys submission orderId maxPrice amount buyerAddress →
      m.Unindexed orderId buyerAddress) :
    (buyBondTokens m submission orderId maxPrice amount buyerAddress).2.IndexInvariant := by
  unfold Marketplace.buyBondTokens invokeContractMethod
  by_cases hchecked : checkPurchase m.ledger orderId maxPrice amount buyerAddress
  · rw [if_pos hchecked]
    by_cases haccepted : submission.accepted
    · rw [if_pos haccepted]
      apply h.of_returned submission orderId
      intro happlied wallet asset balance hget hmoved
      have hunindexed := hbuys ⟨hchecked, haccepted, happlied⟩
      cases horder : m.world.dex.order.get orderId with
      | none =>
          rw [movedKeys, horder] at hmoved
          cases hmoved
      | some order =>
          rw [movedKeys, horder] at hmoved
          obtain ⟨hbuyer, hseller⟩ := hunindexed order horder
          rcases List.mem_cons.mp hmoved with heq | hmoved
          · obtain ⟨rfl, rfl⟩ := Prod.mk.inj heq
            cases hbuyer.symm.trans hget
          · obtain ⟨rfl, rfl⟩ := Prod.mk.inj (List.mem_singleton.mp hmoved)
            cases hseller.symm.trans hget
    · rw [if_neg haccepted]
      exact h
  · rw [if_neg hchecked]
    exact h

/-- A listing keeps the agreement of index and ledger. -/
theorem Market.IndexInvariant.listBondTokens {m : Market} (h : m.IndexInvariant)
    (submission : Submission) (bondId : Nat) (amount pricePerToken : Int) (quoteAsset : Symbol)
    (expiresAfterSeconds : Nat) (sellerAddress : Address) :
    (listBondTokens m submission bondId amount pricePerToken quoteAsset expiresAfterSeconds
      sellerAddress).2.IndexInvariant := by
  unfold Marketplace.listBondTokens invokeContractMethod
  dsimp only
  by_cases haccepted : submission.accepted
  · rw [if_pos haccepted]
    apply h.of_returned submission (getOrderCount m.ledger + 1)
    intro _ _ _ _ _
    exact List.not_mem_nil
  · rw [if_neg haccepted]
    exact h

/-- A cancellation keeps the agreement. -/
theorem Market.IndexInvariant.cancelOrder {m : Market} (h : m.IndexInvariant)
    (submission : Submission) (orderId : Nat) (callerAddress : Address) :
    (cancelOrder m submission orderId callerAddress).2.IndexInvariant := by
  unfold Marketplace.cancelOrder invokeContractMethod
  cases fetchOrderFromLedger m.ledger orderId with
  | none => exact h
  | some order =>
      dsimp only
      by_cases hactionable : !isActionable order
      · rw [if_pos hactionable]
        exact h
      · rw [if_neg hactionable]
        by_cases haccepted : submission.accepted
        · rw [if_pos haccepted]
          refine h.of_call submission (.cancelListing callerAddress orderId submission.nonce)
            ?_ ?_ ?_
          · rfl
          · rfl
          · intro _ _ _ _ _
            exact List.not_mem_nil
        · rw [if_neg haccepted]
          exact h

/-! ## Reconciliation -/

/-- A list that is read leaves the index alone. -/
theorem listOrders_quoteBalance (ledger : Ledger) (redis : Redis) (key : ListKey) :
    (listOrders ledger redis key).2.quoteBalance = redis.quoteBalance := by
  unfold listOrders
  cases redis.orders.get key with
  | none => rfl
  | some cached => rfl

/-- Finding the wallets leaves the index alone. -/
theorem resolveWallets_quoteBalance (configured : List Address) (ledger : Ledger) (redis : Redis)
    (override : Option (List Address)) :
    (resolveWallets configured ledger redis override).2.quoteBalance = redis.quoteBalance := by
  unfold resolveWallets
  split
  · rfl
  · exact listOrders_quoteBalance ledger redis openIndexKey

/-- The round of an order leaves the index alone. -/
theorem reconcileOrder_quoteBalance (ledger : Ledger) (order : Order) (redis : Redis) :
    (reconcileOrder ledger order redis).2.quoteBalance = redis.quoteBalance := by
  unfold reconcileOrder
  cases fetchOrderFromLedger ledger order.id with
  | none => rfl
  | some onChain =>
      cases hindexed : getOrder ledger redis order.id with
      | none => rfl
      | some result =>
          have hsame := getOrder_quoteBalance hindexed
          cases escrowInvariant ledger order with
          | none => exact hsame
          | some underEscrowed => exact hsame

/-- So do all rounds. -/
theorem reconcileOrders_quoteBalance (ledger : Ledger) (redis : Redis) (maxOrderScan : Nat) :
    (reconcileOrders ledger redis maxOrderScan).2.quoteBalance = redis.quoteBalance := by
  have hloop := CheckLoop.run_keeps (P := fun r : Redis => r.quoteBalance = redis.quoteBalance)
    (fun order (_ : order ∈ openIndex ledger redis) r hr =>
      (reconcileOrder_quoteBalance ledger order r).trans hr)
    (listOrders_quoteBalance ledger redis openIndexKey)
  unfold reconcileOrders
  dsimp only
  split
  · next hrun =>
      unfold openIndex at hloop
      rwa [hrun] at hloop
  · next hrun =>
      unfold openIndex at hloop
      rwa [hrun] at hloop

/-- A run indexes what it reads, under the names that it is given. -/
theorem reconcile_quoteBalance {configured : List Address} {ledger : Ledger} {redis : Redis}
    {options : ReconcileOptions} {wallet : Address} {asset : Symbol} {balance : Int}
    (h : getIndexedQuoteBalance (reconcile configured ledger redis options).2 wallet asset =
      some balance) :
    getIndexedQuoteBalance redis wallet asset = some balance ∨
      asset ∈ options.assets.getD supportedQuoteAssets ∧
        getQuoteBalance ledger wallet asset = some balance := by
  let Indexed (r : Redis) : Prop := ∀ wallet asset balance,
    getIndexedQuoteBalance r wallet asset = some balance →
      getIndexedQuoteBalance redis wallet asset = some balance ∨
        asset ∈ options.assets.getD supportedQuoteAssets ∧
          getQuoteBalance ledger wallet asset = some balance
  have hstart : Indexed (resolveWallets configured ledger redis options.wallets).2 := by
    intro wallet asset balance hget
    unfold getIndexedQuoteBalance at hget
    rw [resolveWallets_quoteBalance] at hget
    exact Or.inl hget
  have hcheck : ∀ entry ∈ balanceEntries (resolveWallets configured ledger redis options.wallets).1
      (options.assets.getD supportedQuoteAssets),
      ∀ r, Indexed r → Indexed (reconcileBalance ledger entry r).2 := by
    intro entry hentry r hr wallet asset balance hget
    rcases reconcileBalance_quoteBalance hget with hbefore | ⟨rfl, hread⟩
    · exact hr wallet asset balance hbefore
    · obtain ⟨_, -, hasset⟩ := List.mem_flatMap.mp hentry
      obtain ⟨asset', hasset', heq⟩ := List.mem_map.mp hasset
      obtain ⟨-, rfl⟩ := Prod.mk.inj heq
      exact Or.inr ⟨hasset', hread⟩
  have hbalances := CheckLoop.run_keeps hcheck hstart
  suffices hlast : Indexed (reconcile configured ledger redis options).2 from
    hlast wallet asset balance h
  unfold reconcile
  dsimp only
  split
  · next hrun => rwa [hrun] at hbalances
  · next balances middle hrun =>
      rw [hrun] at hbalances
      have horders := reconcileOrders_quoteBalance ledger middle (options.maxOrderScan.getD 500)
      have hkept : Indexed (reconcileOrders ledger middle (options.maxOrderScan.getD 500)).2 := by
        intro wallet asset balance hget
        unfold getIndexedQuoteBalance at hget
        rw [horders] at hget
        exact hbalances wallet asset balance hget
      split
      · next hchecked => rwa [hchecked] at hkept
      · next hchecked => rwa [hchecked] at hkept

/-! ## Every run -/

/-- A transaction for another contract leaves the router alone. -/
theorem dex_of_elsewhere (w : World) {tx : Tx} (h : ∀ call, tx.call ≠ .dex call) :
    (machine.step w tx).dex = w.dex := by
  unfold Machine.step
  split
  · next out world hcall =>
      have hexecute : execute w tx = .ok (out, world) := hcall
      rcases router_cases (worldStep_of_execute hexecute) with ⟨-, hsame⟩ | ⟨inner, o, hinner, -⟩
      · exact hsame
      · exact absurd hinner (h inner)
  · rfl

/-- A reconciliation that spells its assets as the registry does keeps the agreement. -/
theorem Market.IndexInvariant.reconcile {m : Market} (h : m.IndexInvariant)
    (configured : List Address) (options : ReconcileOptions)
    (hspelled : ∀ asset ∈ options.assets.getD supportedQuoteAssets,
      ∀ symbol, normalizeQuoteAssetSymbol asset = some symbol → symbol = asset) :
    ({ m with redis := (reconcile configured m.ledger m.redis options).2 } :
      Market).IndexInvariant := by
  refine ⟨?_, ?_⟩
  · intro wallet asset balance hget
    rcases reconcile_quoteBalance hget with hbefore | ⟨hasset, hread⟩
    · exact h.coherent wallet asset balance hbefore
    · obtain ⟨symbol, hsymbol, rfl⟩ := Option.map_eq_some_iff.mp hread
      rw [hspelled asset hasset symbol hsymbol]
      rfl
  · intro wallet asset balance hget
    rcases reconcile_quoteBalance hget with hbefore | ⟨hasset, hread⟩
    · exact h.spelled wallet asset balance hbefore
    · obtain ⟨symbol, hsymbol, -⟩ := Option.map_eq_some_iff.mp hread
      rw [hsymbol, hspelled asset hasset symbol hsymbol]

/-- Every operation that meets the condition keeps the agreement. -/
theorem Market.IndexInvariant.perform {m : Market} (h : m.IndexInvariant) {op : Operation}
    (hop : op.KeepsIndex m) : (m.perform op).IndexInvariant := by
  cases op with
  | depositQuote submission asset amount callerAddress =>
      exact h.moveQuote submission asset amount callerAddress rfl
  | withdrawQuote submission asset amount callerAddress =>
      exact h.moveQuote submission asset amount callerAddress rfl
  | buyBondTokens submission orderId maxPrice amount buyerAddress =>
      exact h.buyBondTokens submission orderId maxPrice amount buyerAddress hop
  | listBondTokens submission bondId amount pricePerToken quoteAsset expiresAfterSeconds
      sellerAddress =>
      exact h.listBondTokens submission bondId amount pricePerToken quoteAsset expiresAfterSeconds
        sellerAddress
  | cancelOrder submission orderId callerAddress =>
      exact h.cancelOrder submission orderId callerAddress
  | reconcile configured options => exact h.reconcile configured options hop
  | repair report =>
      apply h.of_kept
      intro wallet asset balance hget
      exact ⟨(repair_quoteBalance hget).1, fun _ => rfl⟩
  | elsewhere tx =>
      have hdex : (m.perform (.elsewhere tx)).world.dex = m.world.dex ∧
          (m.perform (.elsewhere tx)).redis = m.redis := by
        rw [Market.perform]
        split
        · exact ⟨rfl, rfl⟩
        · next hnone => exact ⟨dex_of_elsewhere m.world hnone, rfl⟩
      apply h.of_kept
      intro wallet asset balance hget
      rw [hdex.2] at hget
      exact ⟨hget, fun _ => by rw [hdex.1]⟩
  | clock now => exact ⟨h.coherent, h.spelled⟩
  | expired wallet asset =>
      apply h.of_kept
      intro wallet' asset' balance hget
      exact ⟨get_erase_some hget, fun _ => rfl⟩

/-- A run that is not told which assets to check takes those of the registry. -/
theorem keepsIndex_of_default (m : Market) (configured : List Address)
    (wallets : Option (List Address)) (maxOrderScan : Option Nat) :
    Operation.KeepsIndex m (.reconcile configured ⟨wallets, none, maxOrderScan⟩) := by
  intro asset hasset symbol hsymbol
  have hspelled : ∀ asset ∈ supportedQuoteAssets, normalizeQuoteAssetSymbol asset = some asset := by
    decide +kernel
  exact Option.some.inj (hsymbol.symm.trans (hspelled asset hasset))

/-- Every operation keeps the index in order where it is performed. -/
def Market.Keeps (m : Market) : List Operation → Prop
  | [] => True
  | op :: rest => op.KeepsIndex m ∧ (m.perform op).Keeps rest

/-- The market after some operations. -/
def Market.runOperations (m : Market) (ops : List Operation) : Market := ops.foldl Market.perform m

/-- The index agrees before the first operation. -/
theorem indexInvariant_opened (d : Deployment) : (Market.opened d).IndexInvariant := by
  have hnone : ∀ wallet asset, getIndexedQuoteBalance (Market.opened d).redis wallet asset = none :=
    fun wallet asset => get_empty (wallet, asset)
  refine ⟨?_, ?_⟩
  · intro wallet asset balance hget
    cases (hnone wallet asset).symm.trans hget
  · intro wallet asset balance hget
    cases (hnone wallet asset).symm.trans hget

/-- It agrees all along a run whose operations meet the condition. -/
theorem Market.IndexInvariant.run {m : Market} (h : m.IndexInvariant) {ops done : List Operation}
    (hops : m.Keeps ops) (hdone : done <+: ops) : (m.runOperations done).IndexInvariant := by
  induction done generalizing m ops with
  | nil => exact h
  | cons op done ih =>
      obtain ⟨rest, rfl⟩ := hdone
      obtain ⟨hop, hrest⟩ := hops
      exact ih (h.perform hop) hrest (List.prefix_append done rest)

/-- A purchase that goes through leaves what its transaction leaves, and every entry. -/
theorem Market.Buys.after {m : Market} {submission : Submission} {orderId : Nat}
    {maxPrice amount : Int} {buyerAddress : Address}
    (h : m.Buys submission orderId maxPrice amount buyerAddress) :
    ∃ out world, execute m.world (submission.tx (.executePurchase buyerAddress orderId maxPrice
        amount submission.nonce)) = .ok (out, world) ∧
      (m.perform (.buyBondTokens submission orderId maxPrice amount buyerAddress)).world = world ∧
      (m.perform (.buyBondTokens submission orderId maxPrice amount
        buyerAddress)).redis.quoteBalance = m.redis.quoteBalance := by
  obtain ⟨out, world, hexecute⟩ := h.applied
  have hcall : machine.call m.world (submission.tx (.executePurchase buyerAddress orderId maxPrice
    amount submission.nonce)) = .ok (out, world) := hexecute
  obtain ⟨hredis, hworld⟩ := returnOrder_frame (Market.evictOrder
    { m with world := machine.step m.world (submission.tx (.executePurchase buyerAddress orderId
      maxPrice amount submission.nonce)) } orderId) orderId
  rw [Market.perform, Marketplace.buyBondTokens, if_pos h.checked, invokeContractMethod,
    if_pos h.accepted]
  refine ⟨out, world, hexecute, hworld.trans ?_, hredis⟩
  change machine.step m.world _ = world
  rw [Machine.step, hcall]

/-- For a purchase the condition is exact: both balances move, so that an entry for
either is wrong afterwards. -/
theorem purchase_coherent_iff {m : Market} (h : m.IndexInvariant)
    (hprice : ∀ id order, m.world.dex.order.get id = some order → 0 < order.pricePerToken)
    (submission : Submission) (orderId : Nat) (maxPrice amount : Int) (buyerAddress : Address) :
    (m.perform (.buyBondTokens submission orderId maxPrice amount buyerAddress)).IndexCoherent ↔
      (m.Buys submission orderId maxPrice amount buyerAddress →
        m.Unindexed orderId buyerAddress) := by
  refine ⟨?_, fun hbuys => (h.buyBondTokens submission orderId maxPrice amount buyerAddress
    hbuys).coherent⟩
  intro hcoherent hbuys order horder
  obtain ⟨out, world, hexecute, hworld, hredis⟩ := hbuys.after
  obtain ⟨sold, hsettled⟩ := settled_of_execute rfl hexecute
  obtain rfl := Option.some.inj (horder.symm.trans hsettled.stored)
  have hpos : 0 < amount := amount_pos_of_execute rfl hexecute
  have hproceeds : 0 < order.pricePerToken * amount := mul_pos (hprice orderId order horder) hpos
  have hunmoved : ∀ wallet balance, getIndexedQuoteBalance m.redis wallet order.quoteAsset =
      some balance → world.dex.balance.read (order.quoteAsset, wallet) =
        m.world.dex.balance.read (order.quoteAsset, wallet) := by
    intro wallet balance hget
    have hbefore := h.coherent wallet order.quoteAsset balance hget
    have hlater := hcoherent wallet order.quoteAsset balance (by
      unfold getIndexedQuoteBalance
      rwa [hredis])
    rw [hworld] at hlater
    exact hlater.symm.trans hbefore
  refine ⟨?_, ?_⟩
  · cases hget : getIndexedQuoteBalance m.redis buyerAddress order.quoteAsset with
    | none => rfl
    | some balance =>
        have hsame := hunmoved buyerAddress balance hget
        have hpaid := hsettled.router.paid
        omega
  · cases hget : getIndexedQuoteBalance m.redis order.seller order.quoteAsset with
    | none => rfl
    | some balance =>
        have hsame := hunmoved order.seller balance hget
        have hearned := hsettled.router.earned
        omega

/-- **The index of quote balances agrees with the ledger** after every operation, in
every run in which no purchase goes through while the buyer's or the seller's
balance is indexed and every reconciliation spells assets as the registry does. -/
theorem quote_index_coherent (d : Deployment) (ops : List Operation)
    (h : (Market.opened d).Keeps ops) (done : List Operation) (hdone : done <+: ops) :
    ((Market.opened d).runOperations done).IndexCoherent :=
  ((indexInvariant_opened d).run h hdone).coherent

/-- A submission that goes through. -/
def sampleSubmission (nonce timestamp : Nat) (signers : List Address) : Submission :=
  ⟨nonce, true, timestamp, signers, none, false, fun _ => none⟩

/-- Account 1 offers 200 tokens for 5 each; account 2 deposits 1000. -/
def offeredOperations : List Operation := [
  .elsewhere (sampleTx 1 0 (.issuer (.issueBond 0 BondIssuer.sampleConfig 0))),
  .elsewhere (sampleTx 2 1 (.issuer (.subscribe 1 1 500 0))),
  .listBondTokens (sampleSubmission 0 3 [1]) 1 200 5 "USDC" 10 1,
  .depositQuote (sampleSubmission 0 3 [2]) "USDC" 1000 2]

/-- Account 2 buys 100 of them. -/
def boughtOperation : Operation := .buyBondTokens (sampleSubmission 1 4 [2, 1]) 1 5 100 2

/-- The index is seeded with the balance of account 2. -/
def seededOperation : Operation := .reconcile [] ⟨some [2], none, none⟩

/-- The purchase comes first, and what is indexed after it is right. -/
theorem quote_index_coherent_sample :
    ((Market.opened sampleDeployment).runOperations
      (offeredOperations ++ [boughtOperation, seededOperation])).IndexCoherent ∧
    getIndexedQuoteBalance ((Market.opened sampleDeployment).runOperations
      (offeredOperations ++ [boughtOperation, seededOperation])).redis 2 "USDC" = some 500 := by
  refine ⟨quote_index_coherent sampleDeployment
    (offeredOperations ++ [boughtOperation, seededOperation]) ?_ _ List.prefix_rfl, by
      decide +kernel⟩
  have hempty : ((Market.opened sampleDeployment).runOperations offeredOperations).redis.quoteBalance
      = ∅ := AList.ext (by decide +kernel)
  refine ⟨trivial, trivial, trivial, trivial, ?_, ?_, trivial⟩
  · intro _ order _
    have hnone : ∀ entry, Storage.get ((Market.opened sampleDeployment).runOperations
        offeredOperations).redis.quoteBalance entry = none := by
      intro entry
      rw [hempty, get_empty]
    exact ⟨hnone _, hnone _⟩
  · exact keepsIndex_of_default _ [] (some [2]) none

/-- Account 2's balance is indexed at 1000; the purchase leaves 500 on the ledger and
1000 in the index. -/
theorem quote_index_stale :
    ¬ ∀ (d : Deployment) (ops done : List Operation), done <+: ops →
      ((Market.opened d).runOperations done).IndexCoherent := by
  intro h
  have hcoherent := h sampleDeployment (offeredOperations ++ [seededOperation, boughtOperation]) _
    List.prefix_rfl 2 "USDC" 1000 (by decide +kernel)
  have hledger : DexRouter.getQuoteBalance ((Market.opened sampleDeployment).runOperations
      (offeredOperations ++ [seededOperation, boughtOperation])).world.dex 2 "USDC" = 500 := by
    decide +kernel
  rw [hledger] at hcoherent
  cases hcoherent

end EcoMint.Marketplace
