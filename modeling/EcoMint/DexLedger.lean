import EcoMint.DexRouter

/-!
# The router on its own, and its quote ledger

The DEX router called by anyone in any order, whatever bond issuer answers it.
`RouterStep` says once what a successful call does to the orders and to the
quote balances; every invariant of the router's runs is derived from it.

The first is that of the quote ledger.  A deposit and a withdrawal move one
balance, a purchase takes its price from one account and gives it to another,
and the price is positive because every listed order has a positive one.
-/

namespace EcoMint.DexRouter

open Fallible Storage IntRange

/-- A call with its environment and the issuers it may meet. -/
structure Tx where
  env : Env
  issuers : Issuers
  call : Call

/-- The router as a machine; what it does to the issuer stays outside. -/
def machine : Machine State Tx Output (Failure DEXError) where
  call s tx := do
    let (out, _, s) ← exec tx.env tx.issuers s tx.call
    return (out, s)

/-- A successful call, with the storages around it. -/
abbrev LogEntry := Event State Tx Output

/-- An order as it is listed. -/
structure Order.Listed (env : Env) (s : State) (order : Order) (expiresAfterSeconds : Nat) :
    Prop where
  id_eq : order.id = s.orderCount + 1
  status_eq : order.status = .open
  amount_pos : 0 < order.amount
  price_pos : 0 < order.pricePerToken
  createdAt_eq : order.createdAt = env.timestamp
  expiresAt_eq : order.expiresAt = env.timestamp + expiresAfterSeconds

/-- What a successful call does to the orders and to the quote balances. -/
inductive RouterStep (env : Env) (s s' : State) : Call → Output → Prop
  | administered (currentAdmin newAdmin : Address) (horder : s'.order = s.order)
      (hcount : s'.orderCount = s.orderCount) (hbalance : s'.balance = s.balance) :
      RouterStep env s s' (.setAdmin currentAdmin newAdmin) .done
  | listed (order : Order) (expiresAfterSeconds nonce : Nat)
      (hlisted : order.Listed env s expiresAfterSeconds)
      (horder : s'.order = s.order.set (s.orderCount + 1) order)
      (hcount : s'.orderCount = s.orderCount + 1) (hbalance : s'.balance = s.balance) :
      RouterStep env s s' (.listBondTokens order.seller order.bondId order.amount
        order.pricePerToken order.quoteAsset expiresAfterSeconds nonce)
        (.orderId (s.orderCount + 1))
  | cancelled (caller : Address) (id nonce : Nat) (order : Order)
      (hget : s.order.get id = some order) (hlive : order.Live)
      (horder : s'.order = s.order.set id { order with status := .cancelled })
      (hcount : s'.orderCount = s.orderCount) (hbalance : s'.balance = s.balance) :
      RouterStep env s s' (.cancelListing caller id nonce) .done
  | bought (buyer : Address) (id : Nat) (maxPrice amount : Int) (nonce : Nat) (order : Order)
      (hget : s.order.get id = some order) (hlive : order.Live)
      (hdue : env.timestamp < order.expiresAt) (hpos : 0 < amount) (hle : amount ≤ order.amount)
      (hfunds : amount * order.pricePerToken ≤ s.balance.read (order.quoteAsset, buyer))
      (horder : s'.order = s.order.set id (order.fill amount))
      (hcount : s'.orderCount = s.orderCount)
      (hbalance : s'.balance = (s.balance.credit (order.quoteAsset, buyer)
        (-(amount * order.pricePerToken))).credit (order.quoteAsset, order.seller)
          (amount * order.pricePerToken)) :
      RouterStep env s s' (.executePurchase buyer id maxPrice amount nonce) .done
  | deposited (caller : Address) (quoteAsset : Symbol) (amount : Int) (nonce : Nat)
      (hpos : 0 < amount) (horder : s'.order = s.order) (hcount : s'.orderCount = s.orderCount)
      (hbalance : s'.balance = s.balance.credit (quoteAsset, caller) amount) :
      RouterStep env s s' (.depositQuote caller quoteAsset amount nonce) .done
  | withdrawn (caller : Address) (quoteAsset : Symbol) (amount : Int) (nonce : Nat)
      (hpos : 0 < amount) (hfunds : amount ≤ s.balance.read (quoteAsset, caller))
      (horder : s'.order = s.order) (hcount : s'.orderCount = s.orderCount)
      (hbalance : s'.balance = s.balance.credit (quoteAsset, caller) (-amount)) :
      RouterStep env s s' (.withdrawQuote caller quoteAsset amount nonce) .done
  | swept (caller : Address) (startId limit nonce : Nat) (result : CleanExpiredResult)
      (ids : List Nat) (base : State) (hbase : base.order = s.order)
      (horder : s'.order = (sweepOrders env ids (0, base)).2.order)
      (hcount : s'.orderCount = s.orderCount) (hbalance : s'.balance = s.balance) :
      RouterStep env s s' (.cleanExpiredOrders caller startId limit nonce) (.cleaned result)

/-! ## Every successful call is a step -/

/-- Listing is a step of the router. -/
theorem routerStep_listBondTokens {env : Env} {issuers : Issuers} {s s' : State}
    {seller : Address} {bondId : Nat} {amount pricePerToken : Int} {quoteAsset : Symbol}
    {expiresAfterSeconds nonce id : Nat}
    (h : listBondTokens env issuers s seller bondId amount pricePerToken quoteAsset
      expiresAfterSeconds nonce = .ok (id, s')) :
    RouterStep env s s' (.listBondTokens seller bondId amount pricePerToken quoteAsset
      expiresAfterSeconds nonce) (.orderId id) := by
  simp only [listBondTokens, consumeNonce, bind_ok_iff, pure_ok_iff, okOr_ok_iff,
    rejectIf_ok_iff, checkedAdd, checked_eq_some, checkedAddNat_eq_some, not_or, not_le,
    Prod.mk.injEq] at h
  obtain ⟨_, _, _, ⟨_, _, rfl⟩, _, ⟨hamount, hprice⟩, _, _, _, _, _, _, expiresAt, ⟨_, hexpires⟩,
    rfl, rfl⟩ := h
  let order : Order :=
    { id := s.orderCount + 1, seller, bondId, amount, pricePerToken, quoteAsset, status := .open
      createdAt := env.timestamp, expiresAt }
  exact .listed order expiresAfterSeconds nonce ⟨rfl, rfl, hamount, hprice, rfl, hexpires.symm⟩
    rfl rfl rfl

/-- Cancelling is a step of the router. -/
theorem routerStep_cancelListing {env : Env} {s s' : State} {caller : Address}
    {orderId nonce : Nat} (h : cancelListing env s caller orderId nonce = .ok s') :
    RouterStep env s s' (.cancelListing caller orderId nonce) .done := by
  simp only [cancelListing, consumeNonce, bind_ok_iff, pure_ok_iff, okOr_ok_iff,
    rejectIf_ok_iff] at h
  obtain ⟨_, _, _, ⟨_, _, rfl⟩, order, hget, _, _, _, hlive, rfl⟩ := h
  exact .cancelled caller orderId nonce order hget (live_iff.mp hlive) rfl rfl rfl

/-- A purchase is a step of the router. -/
theorem routerStep_executePurchase {env : Env} {issuers : Issuers} {s s' : State}
    {issuer' : BondIssuer.State} {buyer : Address} {orderId : Nat} {maxPrice amount : Int}
    {nonce : Nat}
    (h : executePurchase env issuers s buyer orderId maxPrice amount nonce = .ok (issuer', s')) :
    RouterStep env s s' (.executePurchase buyer orderId maxPrice amount nonce) .done := by
  obtain ⟨order, hget, -, -, hlive, hne, hdue, hpos, hle, -, -, -, hfunds, -, -, -, -, -, -,
    rfl⟩ := executePurchase_ok_iff.mp h
  refine .bought buyer orderId maxPrice amount nonce order hget hlive hdue hpos hle hfunds rfl rfl
    ?_
  have hother : (order.quoteAsset, order.seller) ≠ (order.quoteAsset, buyer) := by
    simpa using hne.symm
  unfold State.purchased Storage.credit
  rw [read_set_ne _ _ hother, Int.sub_eq_add_neg]

/-- The sweep leaves the balances and the number of orders as they are. -/
theorem sweepOrders_balance (env : Env) (s : State) (ids : List Nat) (cleaned : Nat) :
    (sweepOrders env ids (cleaned, s)).2.balance = s.balance ∧
      (sweepOrders env ids (cleaned, s)).2.orderCount = s.orderCount := by
  induction ids generalizing s cleaned with
  | nil => exact ⟨rfl, rfl⟩
  | cons id rest ih =>
      unfold sweepOrders
      cases s.order.get id with
      | none => exact ih s cleaned
      | some order =>
          dsimp only
          split
          · exact ih (markOrderExpired s id order) (cleaned + 1)
          · exact ih s cleaned

/-- A sweep leaves an order alone or marks it expired. -/
theorem sweepOrders_get (env : Env) (s : State) (ids : List Nat) (cleaned id : Nat) :
    (sweepOrders env ids (cleaned, s)).2.order.get id = s.order.get id ∨
      ∃ order, s.order.get id = some order ∧ order.sweepable env ∧
        (sweepOrders env ids (cleaned, s)).2.order.get id =
          some { order with status := .expired } := by
  induction ids generalizing s cleaned with
  | nil => exact Or.inl rfl
  | cons first rest ih =>
      unfold sweepOrders
      cases hfirst : s.order.get first with
      | none => exact ih s cleaned
      | some old =>
          dsimp only
          split
          · next hsweep =>
              have hmarked : ∀ id', (markOrderExpired s first old).order.get id' =
                  if id' = first then some { old with status := .expired }
                  else s.order.get id' := get_set s.order first
                    (v := { old with status := .expired })
              rcases ih (markOrderExpired s first old) (cleaned + 1) with hsame | hexpired
              · rw [hsame, hmarked]
                by_cases hid : id = first
                · exact Or.inr ⟨old, hid ▸ hfirst, hsweep, if_pos hid⟩
                · exact Or.inl (if_neg hid)
              · obtain ⟨order, hget, horder, hafter⟩ := hexpired
                rw [hmarked] at hget
                by_cases hid : id = first
                · rw [if_pos hid] at hget
                  obtain rfl := Option.some.inj hget
                  -- an order that is already expired is not swept again
                  simp [Order.sweepable, Order.Live] at horder
                · rw [if_neg hid] at hget
                  exact Or.inr ⟨order, hget, horder, hafter⟩
          · exact ih s cleaned

/-- Cleaning expired orders is a step of the router. -/
theorem routerStep_cleanExpiredOrders {env : Env} {s s' : State} {caller : Address}
    {startId limit nonce : Nat} {result : CleanExpiredResult}
    (h : cleanExpiredOrders env s caller startId limit nonce = .ok (result, s')) :
    RouterStep env s s' (.cleanExpiredOrders caller startId limit nonce) (.cleaned result) := by
  simp only [cleanExpiredOrders, consumeNonce, bind_ok_iff, pure_ok_iff] at h
  obtain ⟨_, _, _, ⟨nonces, _, rfl⟩, _, _, _, _, h⟩ := h
  split at h
  · obtain ⟨-, rfl⟩ := Prod.mk.inj (pure_ok_iff.mp h)
    exact .swept caller startId limit nonce result [] { s with nonce := nonces } rfl rfl rfl rfl
  · obtain ⟨-, rfl⟩ := Prod.mk.inj (pure_ok_iff.mp h)
    obtain ⟨hbalance, hcount⟩ := sweepOrders_balance env { s with nonce := nonces }
      (sweepWindow s.orderCount startId limit) 0
    exact .swept caller startId limit nonce result (sweepWindow s.orderCount startId limit)
      { s with nonce := nonces } rfl rfl hcount hbalance

/-- **Step lemma.**  Every successful call is a `RouterStep`. -/
theorem routerStep_of_fires {e : LogEntry} (h : machine.Fires e) :
    RouterStep e.input.env e.before e.after e.input.call e.output := by
  obtain ⟨s, ⟨env, issuers, call⟩, out, s'⟩ := e
  simp only [Machine.Fires, machine, bind_ok_iff, pure_ok_iff, Prod.mk.injEq, Prod.exists] at h
  obtain ⟨_, issuer, _, h, rfl, rfl⟩ := h
  show RouterStep env s _ call _
  cases call with
  | setAdmin currentAdmin newAdmin =>
      simp only [exec, silent_ok_iff, setAdmin, bind_ok_iff, pure_ok_iff] at h
      obtain ⟨⟨_, _, _, _, rfl⟩, -, rfl⟩ := h
      exact .administered currentAdmin newAdmin rfl rfl rfl
  | listBondTokens seller bondId amount pricePerToken quoteAsset expiresAfterSeconds nonce =>
      simp only [exec, bind_ok_iff, pure_ok_iff, Prod.mk.injEq, Prod.exists] at h
      obtain ⟨id, s'', hlist, rfl, rfl, rfl⟩ := h
      exact routerStep_listBondTokens hlist
  | cancelListing caller orderId nonce =>
      simp only [exec, silent_ok_iff] at h
      obtain ⟨h, -, rfl⟩ := h
      exact routerStep_cancelListing h
  | executePurchase buyer orderId maxPrice amount nonce =>
      simp only [exec, bind_ok_iff, pure_ok_iff, Prod.mk.injEq, Prod.exists] at h
      obtain ⟨after, s'', hpurchase, rfl, rfl, rfl⟩ := h
      exact routerStep_executePurchase hpurchase
  | depositQuote caller quoteAsset amount nonce =>
      simp only [exec, silent_ok_iff, depositQuote, consumeNonce, bind_ok_iff, pure_ok_iff,
        okOr_ok_iff, rejectIf_ok_iff, checkedAdd, checked_eq_some, not_le] at h
      obtain ⟨⟨_, _, _, ⟨_, _, rfl⟩, _, hpos, _, ⟨_, rfl⟩, rfl⟩, -, rfl⟩ := h
      exact .deposited caller quoteAsset amount nonce hpos rfl rfl rfl
  | withdrawQuote caller quoteAsset amount nonce =>
      simp only [exec, silent_ok_iff, withdrawQuote, consumeNonce, bind_ok_iff, pure_ok_iff,
        rejectIf_ok_iff, not_le, not_lt] at h
      obtain ⟨⟨_, _, _, ⟨_, _, rfl⟩, _, hpos, _, hfunds, rfl⟩, -, rfl⟩ := h
      refine .withdrawn caller quoteAsset amount nonce hpos hfunds rfl rfl ?_
      unfold Storage.credit
      rw [← Int.sub_eq_add_neg]
  | cleanExpiredOrders caller startId limit nonce =>
      simp only [exec, bind_ok_iff, pure_ok_iff, Prod.mk.injEq, Prod.exists] at h
      obtain ⟨result, s'', hclean, rfl, rfl, rfl⟩ := h
      exact routerStep_cleanExpiredOrders hclean

/-! ## Conservation -/

/-- What a logged call deposited in an asset. -/
def LogEntry.depositedIn (quoteAsset : Symbol) (e : LogEntry) : Int :=
  match e.input.call with
  | .depositQuote _ asset amount _ => if asset = quoteAsset then amount else 0
  | _ => 0

/-- What a logged call withdrew of an asset. -/
def LogEntry.withdrawnOf (quoteAsset : Symbol) (e : LogEntry) : Int :=
  match e.input.call with
  | .withdrawQuote _ asset amount _ => if asset = quoteAsset then amount else 0
  | _ => 0

/-- All successful deposits of an asset. -/
def totalDeposited (quoteAsset : Symbol) (log : List LogEntry) : Int :=
  Machine.total (LogEntry.depositedIn quoteAsset) log

/-- All successful withdrawals of an asset. -/
def totalWithdrawn (quoteAsset : Symbol) (log : List LogEntry) : Int :=
  Machine.total (LogEntry.withdrawnOf quoteAsset) log

/-- The balances of an asset over all addresses. -/
def State.quoteTotal (s : State) (quoteAsset : Symbol) : Int :=
  s.balance.sumOn fun k => k.1 = quoteAsset

/-- The orders have positive prices, nobody owes the router, and its books say
what went in and out. -/
structure QuoteLedger (s : State) (log : List LogEntry) : Prop where
  price_pos : ∀ id order, s.order.get id = some order → 0 < order.pricePerToken
  balance_nonneg : ∀ k, 0 ≤ s.balance.read k
  conserved : ∀ quoteAsset, s.quoteTotal quoteAsset =
    totalDeposited quoteAsset log - totalWithdrawn quoteAsset log

theorem quoteLedger_constructor (admin bondIssuerAddress : Address) :
    QuoteLedger (constructor admin bondIssuerAddress) [] where
  price_pos id order hget := by simp [constructor] at hget
  balance_nonneg k := by simp [constructor]
  conserved quoteAsset := by
    simp [constructor, State.quoteTotal, totalDeposited, totalWithdrawn]

/-- Filling an order leaves its price as it is. -/
theorem Order.fill_pricePerToken (order : Order) (amount : Int) :
    (order.fill amount).pricePerToken = order.pricePerToken := by
  unfold Order.fill
  split <;> rfl

/-- Prices stay positive: only a listing sets one. -/
theorem price_pos_step {env : Env} {s s' : State} {call : Call} {out : Output}
    (h : RouterStep env s s' call out)
    (hs : ∀ id order, s.order.get id = some order → 0 < order.pricePerToken) (id : Nat)
    (order : Order) (hget : s'.order.get id = some order) : 0 < order.pricePerToken := by
  -- the listed order is new; a cancelled or filled order keeps its price
  have hset : ∀ (key : Nat) (new : Order), 0 < new.pricePerToken →
      s'.order = s.order.set key new → 0 < order.pricePerToken := by
    intro key new hnew horder
    rw [horder, get_set] at hget
    split at hget
    · obtain rfl := Option.some.inj hget
      exact hnew
    · exact hs id order hget
  cases h with
  | administered _ _ horder => exact hs id order (horder ▸ hget)
  | listed listing _ _ hlisted horder => exact hset _ listing hlisted.price_pos horder
  | cancelled _ key _ old hold _ horder =>
      exact hset key { old with status := .cancelled } (hs key old hold) horder
  | bought _ key _ amount _ old hold _ _ _ _ _ horder =>
      refine hset key _ ?_ horder
      rw [Order.fill_pricePerToken]
      exact hs key old hold
  | deposited _ _ _ _ _ horder => exact hs id order (horder ▸ hget)
  | withdrawn _ _ _ _ _ _ horder => exact hs id order (horder ▸ hget)
  | swept _ _ _ _ _ ids base hbase horder =>
      rw [horder] at hget
      rcases sweepOrders_get _ base ids 0 id with hsame | ⟨old, hold, -, hexpired⟩
      · exact hs id order (by rwa [hsame, hbase] at hget)
      · rw [hexpired] at hget
        obtain rfl := Option.some.inj hget
        exact hs id old (hbase ▸ hold)

/-- Taking what an account has and giving it elsewhere leaves no debt. -/
theorem balance_nonneg_credit {s : Storage (Symbol × Address) Int} {k : Symbol × Address}
    {a : Int} (hs : ∀ k, 0 ≤ s.read k) (ha : -a ≤ s.read k) (k' : Symbol × Address) :
    0 ≤ (s.credit k a).read k' := by
  have hk' := hs k'
  rw [read_credit]
  split
  · next heq =>
      subst heq
      omega
  · omega

/-- No step makes a balance negative. -/
theorem balance_nonneg_step {env : Env} {s s' : State} {call : Call} {out : Output}
    (h : RouterStep env s s' call out)
    (hprice : ∀ id order, s.order.get id = some order → 0 < order.pricePerToken)
    (hs : ∀ k, 0 ≤ s.balance.read k) (k : Symbol × Address) : 0 ≤ s'.balance.read k := by
  cases h with
  | administered _ _ _ _ hbalance => exact hbalance ▸ hs k
  | listed _ _ _ _ _ _ hbalance => exact hbalance ▸ hs k
  | cancelled _ _ _ _ _ _ _ _ hbalance => exact hbalance ▸ hs k
  | bought buyer id _ amount _ order hget _ _ hpos _ hfunds _ _ hbalance =>
      have hproceeds := Int.mul_pos hpos (hprice id order hget)
      have hpaid := balance_nonneg_credit (k := (order.quoteAsset, buyer))
        (a := -(amount * order.pricePerToken)) hs (by omega)
      have hseller := hpaid (order.quoteAsset, order.seller)
      rw [hbalance]
      exact balance_nonneg_credit hpaid (by omega) k
  | deposited caller quoteAsset amount _ hpos _ _ hbalance =>
      have hcaller := hs (quoteAsset, caller)
      rw [hbalance]
      exact balance_nonneg_credit hs (by omega) k
  | withdrawn caller quoteAsset amount _ hpos hfunds _ _ hbalance =>
      rw [hbalance]
      exact balance_nonneg_credit hs (by omega) k
  | swept _ _ _ _ _ _ _ _ _ _ hbalance => exact hbalance ▸ hs k

/-- A step changes the books of an asset by what it deposits less what it
withdraws: the price of a purchase is taken and given. -/
theorem quoteTotal_step {e : LogEntry} (h : machine.Fires e) (quoteAsset : Symbol) :
    e.after.quoteTotal quoteAsset = e.before.quoteTotal quoteAsset +
      e.depositedIn quoteAsset - e.withdrawnOf quoteAsset := by
  obtain ⟨s, ⟨env, issuers, call⟩, out, s'⟩ := e
  have hstep : RouterStep env s s' call out := routerStep_of_fires h
  unfold LogEntry.depositedIn LogEntry.withdrawnOf State.quoteTotal
  cases hstep with
  | administered _ _ _ _ hbalance =>
      rw [hbalance]
      simp
  | listed _ _ _ _ _ _ hbalance =>
      rw [hbalance]
      simp
  | cancelled _ _ _ _ _ _ _ _ hbalance =>
      rw [hbalance]
      simp
  | bought buyer id _ amount _ order _ _ _ _ _ _ _ _ hbalance =>
      rw [hbalance, sumOn_credit, sumOn_credit]
      split <;> simp
  | deposited caller asset amount _ _ _ _ hbalance =>
      rw [hbalance, sumOn_credit]
      simp
  | withdrawn caller asset amount _ _ _ _ _ hbalance =>
      rw [hbalance, sumOn_credit]
      by_cases hasset : asset = quoteAsset <;> simp [hasset, Int.sub_eq_add_neg]
  | swept _ _ _ _ _ _ _ _ _ _ hbalance =>
      rw [hbalance]
      simp

/-- The ledger holds along every run. -/
theorem quoteLedger_run (admin bondIssuerAddress : Address) (calls : List Tx) :
    QuoteLedger (machine.run (constructor admin bondIssuerAddress) calls)
      (machine.log (constructor admin bondIssuerAddress) calls) := by
  refine machine.invariant (quoteLedger_constructor admin bondIssuerAddress) ?_ calls
  intro log e hfires hledger
  have hstep := routerStep_of_fires hfires
  refine ⟨price_pos_step hstep hledger.price_pos,
    balance_nonneg_step hstep hledger.price_pos hledger.balance_nonneg, fun quoteAsset => ?_⟩
  rw [quoteTotal_step hfires, hledger.conserved, totalDeposited, totalDeposited, totalWithdrawn,
    totalWithdrawn, Machine.total_snoc, Machine.total_snoc]
  omega

/-- **Quote ledger conservation.**  After every run of the router the balances
of an asset add up to its deposits less its withdrawals, and none is negative. -/
theorem quote_ledger_conserved (admin bondIssuerAddress : Address) (calls : List Tx)
    (quoteAsset : Symbol) :
    let s := machine.run (constructor admin bondIssuerAddress) calls
    let log := machine.log (constructor admin bondIssuerAddress) calls
    s.quoteTotal quoteAsset = totalDeposited quoteAsset log - totalWithdrawn quoteAsset log ∧
      ∀ address, 0 ≤ getQuoteBalance s address quoteAsset := by
  obtain ⟨-, hnonneg, hconserved⟩ := quoteLedger_run admin bondIssuerAddress calls
  exact ⟨hconserved quoteAsset, fun address => hnonneg (quoteAsset, address)⟩

end EcoMint.DexRouter
