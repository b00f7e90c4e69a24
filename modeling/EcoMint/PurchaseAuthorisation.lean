import EcoMint.DexEscrow

/-!
# Whose signature a purchase needs

A purchase is authorised on two sides: the router asks for the buyer, and the
`transfer` it then calls on the issuer asks for the seller.  The caller of that
`transfer` is the router, so the buyer's signature says nothing there.  When
everything else about the purchase is in order, the seller's authorisation is
what decides.
-/

namespace EcoMint

open Fallible Storage IntRange

namespace DexRouter

/-! ## Prices and quote balances -/

/-- Every balance is a nonnegative value of its type. -/
def SoundBalances (balances : Storage (Symbol × Address) Int) : Prop :=
  ∀ k, 0 ≤ balances.read k ∧ i128.Fits (balances.read k)

/-- What every reachable router storage satisfies: listed prices are positive,
quote balances are sound, and the issuer the router talks to is the one it was
built with. -/
structure QuoteInvariant (address : Address) (s : State) : Prop where
  price_pos : ∀ id order, s.order.get id = some order → 0 < order.pricePerToken
  balances : SoundBalances s.balance
  issuer_eq : s.bondIssuerAddress = some address

theorem quoteInvariant_constructor (admin address : Address) :
    QuoteInvariant address (constructor admin address) where
  price_pos id order h := by simp [constructor] at h
  balances k := by simp only [constructor, read_empty]; decide
  issuer_eq := rfl

/-- Filling an order leaves its price as it is. -/
theorem fill_pricePerToken (order : Order) (amount : Int) :
    (order.fill amount).pricePerToken = order.pricePerToken := by
  unfold Order.fill
  split <;> rfl

/-- Writing an order at a positive price. -/
theorem price_pos_set {s : State} {address : Address} (hs : QuoteInvariant address s) {id : Nat}
    {order : Order} (hpos : 0 < order.pricePerToken) :
    ∀ id' order', (s.order.set id order).get id' = some order' → 0 < order'.pricePerToken := by
  intro id' order' hget
  rw [get_set] at hget
  split at hget
  · obtain rfl := Option.some.inj hget
    exact hpos
  · exact hs.price_pos id' order' hget

/-- Writing a balance that is a nonnegative value of its type. -/
theorem SoundBalances.set {balances : Storage (Symbol × Address) Int}
    (hs : SoundBalances balances) (k : Symbol × Address) {balance : Int} (hnonneg : 0 ≤ balance)
    (hfits : i128.Fits balance) : SoundBalances (balances.set k balance) := by
  intro k'
  rw [read_set]
  split
  · exact ⟨hnonneg, hfits⟩
  · exact hs k'

/-- Paying at most the whole balance of an account. -/
theorem SoundBalances.pay {balances : Storage (Symbol × Address) Int}
    (hs : SoundBalances balances) (k : Symbol × Address) {amount : Int} (hpos : 0 ≤ amount)
    (hle : amount ≤ balances.read k) : SoundBalances (balances.set k (balances.read k - amount)) := by
  have hnonneg : 0 ≤ balances.read k - amount := Int.sub_nonneg.mpr hle
  exact hs.set k hnonneg ((hs k).2.of_nonneg_of_le _ hnonneg (by omega))

/-- A call that writes at most one order, at a positive price, and leaves sound
balances. -/
theorem QuoteInvariant.rewrite {address : Address} {s s' : State} (hs : QuoteInvariant address s)
    (horder : s'.order = s.order ∨
      ∃ id order, 0 < order.pricePerToken ∧ s'.order = s.order.set id order)
    (hbalance : SoundBalances s'.balance)
    (hissuer : s'.bondIssuerAddress = s.bondIssuerAddress) : QuoteInvariant address s' := by
  refine ⟨?_, hbalance, hissuer.trans hs.issuer_eq⟩
  rcases horder with hsame | ⟨id, order, hpos, hset⟩
  · rw [hsame]
    exact hs.price_pos
  · rw [hset]
    exact price_pos_set hs hpos

/-- A sweep keeps prices and balances. -/
theorem QuoteInvariant.sweepOrders {env : Env} {address : Address} {s : State}
    (hs : QuoteInvariant address s) (ids : List Nat) (cleaned : Nat) :
    QuoteInvariant address (sweepOrders env ids (cleaned, s)).2 := by
  induction ids generalizing s cleaned with
  | nil => exact hs
  | cons id rest ih =>
      unfold DexRouter.sweepOrders
      cases hget : s.order.get id with
      | none => exact ih hs cleaned
      | some order =>
          dsimp only
          split
          · have hpos := hs.price_pos id order hget
            have hmarked : QuoteInvariant address (markOrderExpired s id order) :=
              hs.rewrite (Or.inr ⟨id, { order with status := .expired }, hpos, rfl⟩) hs.balances rfl
            exact ih hmarked (cleaned + 1)
          · exact ih hs cleaned

/-- Listing keeps the invariant of the offers. -/
theorem QuoteInvariant.listBondTokens {env : Env} {issuers : Issuers} {address : Address}
    {s s' : State} {seller : Address} {bondId : Nat} {amount pricePerToken : Int}
    {quoteAsset : Symbol} {expiresAfterSeconds nonce id : Nat} (hs : QuoteInvariant address s)
    (h : listBondTokens env issuers s seller bondId amount pricePerToken quoteAsset
      expiresAfterSeconds nonce = .ok (id, s')) : QuoteInvariant address s' := by
  simp only [DexRouter.listBondTokens, consumeNonce, bind_ok_iff, pure_ok_iff, rejectIf_ok_iff,
    not_or, not_le, Prod.mk.injEq] at h
  obtain ⟨_, _, _, ⟨_, _, rfl⟩, _, ⟨_, hprice⟩, _, _, _, _, _, _, _, _, _, rfl⟩ := h
  exact hs.rewrite (Or.inr ⟨_, _, hprice, rfl⟩) hs.balances rfl

/-- Cancelling keeps the invariant of the offers. -/
theorem QuoteInvariant.cancelListing {env : Env} {address : Address} {s s' : State}
    {caller : Address} {orderId nonce : Nat} (hs : QuoteInvariant address s)
    (h : cancelListing env s caller orderId nonce = .ok s') : QuoteInvariant address s' := by
  simp only [DexRouter.cancelListing, consumeNonce, bind_ok_iff, pure_ok_iff, okOr_ok_iff] at h
  obtain ⟨_, _, _, ⟨_, _, rfl⟩, order, hget, _, _, _, _, rfl⟩ := h
  have hpos := hs.price_pos orderId order hget
  exact hs.rewrite (Or.inr ⟨orderId, { order with status := .cancelled }, hpos, rfl⟩)
    hs.balances rfl

/-- A purchase keeps the invariant of the offers. -/
theorem QuoteInvariant.executePurchase {env : Env} {issuers : Issuers} {address : Address}
    {s s' : State} {issuer' : BondIssuer.State} {buyer : Address} {orderId : Nat}
    {maxPrice amount : Int} {nonce : Nat} (hs : QuoteInvariant address s)
    (h : executePurchase env issuers s buyer orderId maxPrice amount nonce = .ok (issuer', s')) :
    QuoteInvariant address s' := by
  obtain ⟨order, hget, -, -, -, -, -, hpos, -, -, -, -, hfunds, hnew, _, _, _, _, _, rfl⟩ :=
    executePurchase_ok_iff.mp h
  have hprice := hs.price_pos orderId order hget
  have hproceeds : 0 < amount * order.pricePerToken := Int.mul_pos hpos hprice
  have hpaid := hs.balances.pay (order.quoteAsset, buyer) hproceeds.le hfunds
  have hseller := (hs.balances (order.quoteAsset, order.seller)).1
  have hearned := hpaid.set (order.quoteAsset, order.seller)
    (Int.add_nonneg hseller hproceeds.le) hnew
  refine hs.rewrite (Or.inr ⟨orderId, order.fill amount, ?_, rfl⟩) hearned rfl
  rwa [fill_pricePerToken]

/-- The sweep keeps the invariant of the offers. -/
theorem QuoteInvariant.cleanExpiredOrders {env : Env} {address : Address} {s s' : State}
    {caller : Address} {startId limit nonce : Nat} {result : CleanExpiredResult}
    (hs : QuoteInvariant address s)
    (h : cleanExpiredOrders env s caller startId limit nonce = .ok (result, s')) :
    QuoteInvariant address s' := by
  simp only [DexRouter.cleanExpiredOrders, consumeNonce, bind_ok_iff, pure_ok_iff] at h
  obtain ⟨_, _, _, ⟨nonces, _, rfl⟩, _, _, _, _, h⟩ := h
  have hbase : QuoteInvariant address { s with nonce := nonces } :=
    hs.rewrite (Or.inl rfl) hs.balances rfl
  split at h
  · obtain ⟨-, rfl⟩ := Prod.mk.inj (pure_ok_iff.mp h)
    exact hbase
  · obtain ⟨-, rfl⟩ := Prod.mk.inj (pure_ok_iff.mp h)
    exact hbase.sweepOrders _ 0

/-- **Step lemma.**  Every successful router call keeps the invariant. -/
theorem QuoteInvariant.exec {env : Env} {issuers : Issuers} {address : Address} {s s' : State}
    {issuer' : Option BondIssuer.State} {call : Call} {out : Output}
    (hs : QuoteInvariant address s) (h : exec env issuers s call = .ok (out, issuer', s')) :
    QuoteInvariant address s' := by
  cases call with
  | listBondTokens seller bondId amount pricePerToken quoteAsset expiresAfterSeconds nonce =>
      simp only [DexRouter.exec, bind_ok_iff, pure_ok_iff, Prod.mk.injEq, Prod.exists] at h
      obtain ⟨id, s'', hlist, -, -, rfl⟩ := h
      exact hs.listBondTokens hlist
  | cancelListing caller orderId nonce => exact hs.cancelListing (silent_ok_iff.mp h).1
  | executePurchase buyer orderId maxPrice amount nonce =>
      simp only [DexRouter.exec, bind_ok_iff, pure_ok_iff, Prod.mk.injEq, Prod.exists] at h
      obtain ⟨issuer, s'', hpurchase, -, -, rfl⟩ := h
      exact hs.executePurchase hpurchase
  | cleanExpiredOrders caller startId limit nonce =>
      simp only [DexRouter.exec, bind_ok_iff, pure_ok_iff, Prod.mk.injEq, Prod.exists] at h
      obtain ⟨result, s'', hclean, -, -, rfl⟩ := h
      exact hs.cleanExpiredOrders hclean
  | setAdmin currentAdmin newAdmin =>
      simp only [DexRouter.exec, silent_ok_iff, setAdmin, bind_ok_iff, pure_ok_iff] at h
      obtain ⟨⟨_, _, _, _, rfl⟩, -⟩ := h
      exact hs.rewrite (Or.inl rfl) hs.balances rfl
  | depositQuote caller quoteAsset amount nonce =>
      simp only [DexRouter.exec, silent_ok_iff, depositQuote, consumeNonce, bind_ok_iff,
        pure_ok_iff, okOr_ok_iff, rejectIf_ok_iff, checkedAdd, checked_eq_some, not_le] at h
      obtain ⟨⟨_, _, _, ⟨_, _, rfl⟩, _, hpos, _, ⟨hfits, rfl⟩, rfl⟩, -⟩ := h
      have hbalance := (hs.balances (quoteAsset, caller)).1
      exact hs.rewrite (Or.inl rfl)
        (hs.balances.set _ (Int.add_nonneg hbalance hpos.le) hfits) rfl
  | withdrawQuote caller quoteAsset amount nonce =>
      simp only [DexRouter.exec, silent_ok_iff, withdrawQuote, consumeNonce, bind_ok_iff,
        pure_ok_iff, rejectIf_ok_iff, not_le, not_lt] at h
      obtain ⟨⟨_, _, _, ⟨_, _, rfl⟩, _, hpos, _, hfunds, rfl⟩, -⟩ := h
      exact hs.rewrite (Or.inl rfl) (hs.balances.pay (quoteAsset, caller) hpos.le hfunds) rfl

/-- A purchase from a given order goes through exactly if the buyer authorises
it, its terms are in order, and the issuer accepts the transfer. -/
theorem executePurchase_isOk_iff {env : Env} {issuers : Issuers} {s : State} {buyer : Address}
    {orderId : Nat} {maxPrice amount : Int} {nonce : Nat} {order : Order}
    (hget : s.order.get orderId = some order) :
    (∃ issuer' s', executePurchase env issuers s buyer orderId maxPrice amount nonce =
      .ok (issuer', s')) ↔
      env.Authorizes buyer ∧ nonce = s.nonce.read buyer ∧ order.Live ∧ buyer ≠ order.seller ∧
        env.timestamp < order.expiresAt ∧ 0 < amount ∧ amount ≤ order.amount ∧
        order.pricePerToken ≤ maxPrice ∧
        amount ≤ s.bondEscrow.read (order.bondId, order.seller) ∧
        i128.Fits (amount * order.pricePerToken) ∧
        amount * order.pricePerToken ≤ s.balance.read (order.quoteAsset, buyer) ∧
        i128.Fits (s.balance.read (order.quoteAsset, order.seller) +
          amount * order.pricePerToken) ∧
        ∃ after address, s.bondIssuerAddress = some address ∧
        ∃ issuer, issuers address = some issuer ∧
          BondIssuer.transfer (env.invoking address) issuer order.seller buyer
            order.bondId amount (BondIssuer.getNonce issuer order.seller) = .ok after := by
  constructor
  · intro h
    obtain ⟨issuer', s', hpurchase⟩ := h
    obtain ⟨order', hget', hauth, hnonce, hlive, hne, hdue, hpos, hle, hprice, hescrow, hproceeds,
      hfunds, hearned, address, haddress, issuer, hissuer, htransfer, -⟩ :=
      executePurchase_ok_iff.mp hpurchase
    obtain rfl : order = order' := by simpa [hget] using hget'
    exact ⟨hauth, hnonce, hlive, hne, hdue, hpos, hle, hprice, hescrow, hproceeds, hfunds, hearned,
      issuer', address, haddress, issuer, hissuer, htransfer⟩
  · intro h
    obtain ⟨hauth, hnonce, hlive, hne, hdue, hpos, hle, hprice, hescrow, hproceeds, hfunds, hearned,
      after, address, haddress, issuer, hissuer, htransfer⟩ := h
    exact ⟨after, _, executePurchase_ok_iff.mpr ⟨order, hget, hauth, hnonce, hlive, hne, hdue, hpos,
      hle, hprice, hescrow, hproceeds, hfunds, hearned, address, haddress, issuer, hissuer,
      htransfer, rfl⟩⟩

/-- The contract accepts a purchase exactly when the purchase itself goes through. -/
theorem exec_executePurchase_isOk_iff {env : Env} {issuers : Issuers} {s : State}
    {buyer : Address} {orderId : Nat} {maxPrice amount : Int} {nonce : Nat} :
    (∃ out effect, exec env issuers s (.executePurchase buyer orderId maxPrice amount nonce) =
      .ok (out, effect)) ↔
      ∃ issuer' s', executePurchase env issuers s buyer orderId maxPrice amount nonce =
        .ok (issuer', s') := by
  simpa [exec] using exists_comm

end DexRouter

/-! ## The transfer inside a purchase -/

namespace BondIssuer

/-- Nobody has more tokens of a bond than the most that a bond may have. -/
theorem SupplyInvariant.balance_le_max {s : State} (hs : SupplyInvariant s) {b : Nat}
    {config : BondConfig} (hconfig : s.bondConfig.get b = some config) (holder : Address) :
    s.holderBalance.read (b, holder) ≤ MAX_SUPPLY := by
  obtain ⟨hcap, hmax⟩ := hs.supply_le b config hconfig
  exact (hs.balance_le b holder).trans (hcap.trans hmax)

/-- Between two holders of an active, unmatured bond, a transfer of tokens the
sender has goes through exactly if the sender authorises it. -/
theorem transfer_isOk_iff {env : Env} {s : State} {sender recipient : Address} {b : Nat}
    {amount : Int} {config : BondConfig} {state : BondState} (hs : SupplyInvariant s)
    (hconfig : s.bondConfig.get b = some config) (hstate : s.bondState.get b = some state)
    (hactive : state.status = .active) (hunmatured : env.timestamp < config.maturityDate)
    (hne : recipient ≠ sender) (hpos : 0 < amount)
    (hheld : amount ≤ s.holderBalance.read (b, sender)) :
    (∃ s', transfer env s sender recipient b amount (getNonce s sender) = .ok s') ↔
      env.Authorizes sender := by
  constructor
  · intro h
    obtain ⟨s', htransfer⟩ := h
    exact (transfer_ok_iff.mp htransfer).1
  · intro hauth
    have hmax : MAX_SUPPLY + MAX_SUPPLY ≤ i128.hi := by decide
    have hlo : i128.lo ≤ 0 := by decide
    have hsender := hs.balance_le_max hconfig sender
    have hrecipient := hs.balance_le_max hconfig recipient
    have hrecipient_nonneg := hs.balance_nonneg (b, recipient)
    have htaken : i128.Fits (s.holderBalance.read (b, sender) - amount) :=
      ⟨by omega, by omega⟩
    have hkey : (b, recipient) ≠ (b, sender) := by simpa using hne
    have hgiven : i128.Fits ((s.holderBalance.credit (b, sender) (-amount)).read (b, recipient) +
        amount) := by
      rw [read_credit_ne _ _ hkey]
      exact ⟨by omega, by omega⟩
    exact ⟨_, transfer_ok_iff.mpr ⟨hauth, rfl, hne, hpos, config, hconfig, state, hstate, hactive,
      hunmatured, hheld, htaken, hgiven, rfl⟩⟩

end BondIssuer

/-! ## Purchases in the deployment -/

open DexRouter in
/-- The invariant of the offers holds in every reachable world. -/
theorem quoteInvariant (d : Deployment) (txs : List Tx) :
    QuoteInvariant d.issuerAddress (machine.run (deploy d) txs).dex := by
  refine machine.invariant (P := fun w _ => QuoteInvariant d.issuerAddress w.dex)
    (quoteInvariant_constructor d.dexAdmin d.issuerAddress) ?_ txs
  intro _ e hfires hs
  cases worldStep_of_execute hfires with
  | dex call o issuer s hcall hout hexec hafter =>
      rw [hafter]
      exact hs.exec hexec
  | issuer call o s hcall hout hexec hafter => rwa [hafter]
  | oracle call o s hcall hout hexec hafter => rwa [hafter]
  | engine call o s hcall hout hexec hafter => rwa [hafter]
  | retirement call o s hcall hout hexec hafter => rwa [hafter]

/-- The contracts of a deployment stay at their addresses. -/
theorem addresses_run (d : Deployment) (txs : List Tx) :
    (machine.run (deploy d) txs).issuerAddress = d.issuerAddress ∧
      (machine.run (deploy d) txs).dexAddress = d.dexAddress := by
  refine machine.invariant
    (P := fun w _ => w.issuerAddress = d.issuerAddress ∧ w.dexAddress = d.dexAddress)
    ⟨rfl, rfl⟩ ?_ txs
  intro _ e hfires hs
  cases worldStep_of_execute hfires with
  | dex call o issuer s hcall hout hexec hafter => rwa [hafter]
  | issuer call o s hcall hout hexec hafter => rwa [hafter]
  | oracle call o s hcall hout hexec hafter => rwa [hafter]
  | engine call o s hcall hout hexec hafter => rwa [hafter]
  | retirement call o s hcall hout hexec hafter => rwa [hafter]

/-- A live, unexpired order whose seller still holds the listed tokens, on an
active bond before its maturity date. -/
structure World.Offer (w : World) (now orderId : Nat) (order : DexRouter.Order) : Prop where
  stored : w.dex.order.get orderId = some order
  live : order.Live
  unexpired : now < order.expiresAt
  held : order.amount ≤ BondIssuer.getHolderBalance w.issuer order.bondId order.seller
  active : ∃ state, w.issuer.bondState.get order.bondId = some state ∧ state.status = .active
  unmatured : ∃ config, w.issuer.bondConfig.get order.bondId = some config ∧
    now < config.maturityDate

/-- A purchase of part or all of an order, at a price the buyer accepts and can
pay, with the buyer's next nonce. -/
structure World.Bid (w : World) (order : DexRouter.Order) (buyer : Address)
    (maxPrice amount : Int) (nonce : Nat) : Prop where
  nonce_eq : nonce = w.dex.nonce.read buyer
  amount_pos : 0 < amount
  amount_le : amount ≤ order.amount
  price_le : order.pricePerToken ≤ maxPrice
  funded : amount * order.pricePerToken ≤ DexRouter.getQuoteBalance w.dex buyer order.quoteAsset

/-- A transaction to the router succeeds exactly if the router's call does. -/
theorem execute_dex_isOk_iff {w : World} {tx : Tx} {call : DexRouter.Call}
    (hcall : tx.call = .dex call) :
    (∃ out w', execute w tx = .ok (out, w')) ↔
      ∃ out effect, DexRouter.exec (tx.env w.dexAddress) w.issuerAt w.dex call =
        .ok (out, effect) := by
  constructor
  · intro h
    obtain ⟨out, w', hexecute⟩ := h
    simp only [execute, hcall, bind_ok_iff, mapError_ok_iff, Prod.exists] at hexecute
    obtain ⟨o, issuer, s, hexec, -⟩ := hexecute
    exact ⟨o, (issuer, s), hexec⟩
  · intro h
    obtain ⟨o, effect, hexec⟩ := h
    simp only [execute, hcall]
    rw [hexec]
    exact ⟨_, _, rfl⟩

open DexRouter in
/-- **Purchases.**  In every reachable state, a purchase the buyer signed, of an
order and at terms that are in order, succeeds exactly if the seller authorises
the transfer too, by a signature or by being the router itself, the buyer is not
the seller, and the seller's quote balance can take the proceeds.  With the
buyer's signature alone that leaves the orders of the router itself. -/
theorem purchase_succeeds_iff (d : Deployment) (txs : List Tx) (tx : Tx) (buyer : Address)
    (orderId : Nat) (maxPrice amount : Int) (nonce : Nat) (order : Order)
    (hcall : tx.call = .dex (.executePurchase buyer orderId maxPrice amount nonce))
    (hbuyer : buyer ∈ tx.signers)
    (hoffer : (machine.run (deploy d) txs).Offer tx.timestamp orderId order)
    (hbid : (machine.run (deploy d) txs).Bid order buyer maxPrice amount nonce) :
    ((∃ out w', execute (machine.run (deploy d) txs) tx = .ok (out, w')) ↔
      (order.seller ∈ tx.signers ∨ order.seller = d.dexAddress) ∧ buyer ≠ order.seller ∧
        i128.Fits (getQuoteBalance (machine.run (deploy d) txs).dex order.seller
          order.quoteAsset + amount * order.pricePerToken)) ∧
    (tx.signers = [buyer] →
      ((∃ out w', execute (machine.run (deploy d) txs) tx = .ok (out, w')) ↔
        order.seller = d.dexAddress ∧ buyer ≠ order.seller ∧
          i128.Fits (getQuoteBalance (machine.run (deploy d) txs).dex order.seller
            order.quoteAsset + amount * order.pricePerToken))) := by
  have hsupply := supplyInvariant d txs
  have hquote := quoteInvariant d txs
  have hescrow := escrowInvariant d txs
  obtain ⟨hissuerAddress, hdexAddress⟩ := addresses_run d txs
  generalize machine.run (deploy d) txs = w at *
  obtain ⟨config, hconfig, hunmatured⟩ := hoffer.unmatured
  obtain ⟨state, hstate, hactive⟩ := hoffer.active
  have hissuer : w.issuerAt d.issuerAddress = some w.issuer := by
    simp [World.issuerAt, hissuerAddress]
  have hamount : amount ≤ w.dex.bondEscrow.read (order.bondId, order.seller) :=
    hbid.amount_le.trans (amount_le_escrow hescrow hoffer.stored hoffer.live)
  have hheld : amount ≤ w.issuer.holderBalance.read (order.bondId, order.seller) :=
    hbid.amount_le.trans hoffer.held
  have hproceeds : i128.Fits (amount * order.pricePerToken) :=
    (hquote.balances (order.quoteAsset, buyer)).2.of_nonneg_of_le _
      (Int.mul_pos hbid.amount_pos (hquote.price_pos orderId order hoffer.stored)).le hbid.funded
  have hauthorizes : (tx.env w.dexAddress).Authorizes buyer := Or.inl hbuyer
  -- the router is the caller of the transfer, so there the buyer counts for nothing
  have hseller : ((tx.env w.dexAddress).invoking d.issuerAddress).Authorizes order.seller ↔
      order.seller ∈ tx.signers ∨ order.seller = d.dexAddress := by
    simp [Env.Authorizes, Env.invoking, Tx.env, hdexAddress, eq_comm]
  have hgeneral : (∃ out w', execute w tx = .ok (out, w')) ↔
      (order.seller ∈ tx.signers ∨ order.seller = d.dexAddress) ∧ buyer ≠ order.seller ∧
        i128.Fits (getQuoteBalance w.dex order.seller order.quoteAsset +
          amount * order.pricePerToken) := by
    rw [execute_dex_isOk_iff hcall, exec_executePurchase_isOk_iff,
      executePurchase_isOk_iff hoffer.stored]
    constructor
    · intro h
      obtain ⟨-, -, -, hne, -, -, -, -, -, -, -, hearned, after, address, haddress, issuer, hat,
        htransfer⟩ := h
      obtain rfl : d.issuerAddress = address := by simpa [hquote.issuer_eq] using haddress
      obtain rfl := World.eq_issuer_of_issuerAt hat
      exact ⟨hseller.mp (BondIssuer.transfer_ok_iff.mp htransfer).1, hne, hearned⟩
    · intro h
      obtain ⟨hauthorised, hne, hearned⟩ := h
      obtain ⟨after, htransfer⟩ := (BondIssuer.transfer_isOk_iff hsupply hconfig hstate hactive
        hunmatured hne hbid.amount_pos hheld).mpr (hseller.mpr hauthorised)
      exact ⟨hauthorizes, hbid.nonce_eq, hoffer.live, hne, hoffer.unexpired, hbid.amount_pos,
        hbid.amount_le, hbid.price_le, hamount, hproceeds, hbid.funded, hearned, after,
        d.issuerAddress, hquote.issuer_eq, w.issuer, hissuer, htransfer⟩
  refine ⟨hgeneral, ?_⟩
  intro hsigners
  rw [hgeneral, hsigners, List.mem_singleton]
  constructor
  · intro h
    obtain ⟨hauthorised, hne, hearned⟩ := h
    rcases hauthorised with hsame | hrouter
    · exact absurd hsame.symm hne
    · exact ⟨hrouter, hne, hearned⟩
  · intro h
    obtain ⟨hrouter, hne, hearned⟩ := h
    exact ⟨Or.inr hrouter, hne, hearned⟩

/-- Account 1 lists 200 of its 500 tokens; account 2 brings a quote balance. -/
def offeredListing : List Tx := [
  sampleTx 1 0 (.issuer (.issueBond 0 BondIssuer.sampleConfig 0)),
  sampleTx 2 1 (.issuer (.subscribe 1 1 500 0)),
  sampleTx 3 1 (.dex (.listBondTokens 1 1 200 5 "USDC" 10 0)),
  sampleTx 3 2 (.dex (.depositQuote 2 "USDC" 1000 0))]

/-- The order account 1 placed. -/
def offeredOrder : DexRouter.Order :=
  ⟨1, 1, 1, 200, 5, "USDC", .open, 3, 13⟩

/-- The listed order is an offer that a purchase can take. -/
theorem offer_offeredListing :
    (machine.run (deploy sampleDeployment) offeredListing).Offer 4 1 offeredOrder where
  stored := by decide +kernel
  live := by decide
  unexpired := by decide
  held := by decide +kernel
  active := ⟨⟨500, .active, 1⟩, by decide +kernel, rfl⟩
  unmatured := ⟨BondIssuer.sampleConfig, by decide +kernel, by decide⟩

/-- The sample buyer's bid is one that the order accepts. -/
theorem bid_offeredListing :
    (machine.run (deploy sampleDeployment) offeredListing).Bid offeredOrder 2 5 100 1 where
  nonce_eq := by decide +kernel
  amount_pos := by decide
  amount_le := by decide
  price_le := by decide
  funded := by decide +kernel

/-- The purchase that both accounts sign goes through, the one that only the
buyer signs does not. -/
theorem purchase_succeeds_when_both_sign :
    ∃ out w', execute (machine.run (deploy sampleDeployment) offeredListing)
      ⟨4, [2, 1], none, false, fun _ => none, .dex (.executePurchase 2 1 5 100 1)⟩ =
        .ok (out, w') := by
  refine ((purchase_succeeds_iff sampleDeployment offeredListing
    ⟨4, [2, 1], none, false, fun _ => none, .dex (.executePurchase 2 1 5 100 1)⟩ 2 1 5 100 1
    offeredOrder rfl (by decide) offer_offeredListing bid_offeredListing).1).mpr ⟨?_, ?_, ?_⟩
  · exact Or.inl (by decide)
  · decide
  · decide +kernel

/-- Signed by the buyer alone, the same purchase traps in the issuer. -/
theorem purchase_fails_signed_by_buyer_alone :
    ¬ ∀ (d : Deployment) (txs : List Tx) (now : Nat) (buyer : Address) (orderId : Nat)
      (maxPrice amount : Int) (nonce : Nat) (order : DexRouter.Order),
      (machine.run (deploy d) txs).Offer now orderId order →
      (machine.run (deploy d) txs).Bid order buyer maxPrice amount nonce →
      ∃ out w', execute (machine.run (deploy d) txs)
        (sampleTx now buyer (.dex (.executePurchase buyer orderId maxPrice amount nonce))) =
          .ok (out, w') := by
  intro h
  obtain ⟨out, w', hexecute⟩ := h sampleDeployment offeredListing 4 2 1 5 100 1 offeredOrder
    offer_offeredListing bid_offeredListing
  have htrap : execute (machine.run (deploy sampleDeployment) offeredListing)
      (sampleTx 4 2 (.dex (.executePurchase 2 1 5 100 1))) = .error .trap := by decide +kernel
  rw [htrap] at hexecute
  cases hexecute

end EcoMint
