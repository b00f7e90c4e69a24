import EcoMint.PurchaseAuthorisation

/-!
# What a purchase settles

A purchase goes through two contracts: the router moves the price from the
buyer to the seller and releases the escrow, and the issuer moves the tokens the
other way, on the seller's nonce.  `Settled` says what each of them has changed
afterwards, and that nothing else has.
-/

namespace EcoMint

open Fallible IntRange Storage

/-- What a purchase of `amount` from an order changes in the router's storage. -/
structure DexRouter.State.Sold (s s' : DexRouter.State) (buyer : Address) (orderId : Nat)
    (order : DexRouter.Order) (amount : Int) : Prop where
  paid : s'.balance.read (order.quoteAsset, buyer) =
    s.balance.read (order.quoteAsset, buyer) - order.pricePerToken * amount
  earned : s'.balance.read (order.quoteAsset, order.seller) =
    s.balance.read (order.quoteAsset, order.seller) + order.pricePerToken * amount
  balances : ∀ k, k ≠ (order.quoteAsset, buyer) → k ≠ (order.quoteAsset, order.seller) →
    s'.balance.read k = s.balance.read k
  released : s'.bondEscrow.read (order.bondId, order.seller) =
    s.bondEscrow.read (order.bondId, order.seller) - amount
  escrows : ∀ k, k ≠ (order.bondId, order.seller) → s'.bondEscrow.read k = s.bondEscrow.read k
  filled : amount = order.amount →
    s'.order.get orderId = some { order with status := .filled }
  partly : amount ≠ order.amount → s'.order.get orderId =
    some { order with status := .partiallyFilled, amount := order.amount - amount }
  orders : ∀ id, id ≠ orderId → s'.order.get id = s.order.get id
  nonce : s'.nonce.read buyer = s.nonce.read buyer + 1
  nonces : ∀ addr, addr ≠ buyer → s'.nonce.read addr = s.nonce.read addr
  frame : s' = { s with
    balance := s'.balance, bondEscrow := s'.bondEscrow, order := s'.order, nonce := s'.nonce }

/-- What a transfer changes in the issuer's storage. -/
structure BondIssuer.State.Moved (s s' : BondIssuer.State) (bondId : Nat) (sender recipient : Address)
    (amount : Int) : Prop where
  sent : s'.holderBalance.read (bondId, sender) = s.holderBalance.read (bondId, sender) - amount
  received : s'.holderBalance.read (bondId, recipient) =
    s.holderBalance.read (bondId, recipient) + amount
  balances : ∀ k, k ≠ (bondId, sender) → k ≠ (bondId, recipient) →
    s'.holderBalance.read k = s.holderBalance.read k
  nonce : s'.nonce.read sender = s.nonce.read sender + 1
  nonces : ∀ addr, addr ≠ sender → s'.nonce.read addr = s.nonce.read addr
  frame : s' = { s with holderBalance := s'.holderBalance, nonce := s'.nonce }

/-- A settled purchase: the price is within the buyer's bound, the seller is
somebody else, and the router, the issuer and nothing else have moved. -/
structure World.Settled (w w' : World) (buyer : Address) (orderId : Nat)
    (order : DexRouter.Order) (maxPrice amount : Int) : Prop where
  stored : w.dex.order.get orderId = some order
  price : order.pricePerToken ≤ maxPrice
  seller : order.seller ≠ buyer
  router : w.dex.Sold w'.dex buyer orderId order amount
  issuer : w.issuer.Moved w'.issuer order.bondId order.seller buyer amount
  frame : w' = { w with issuer := w'.issuer, dex := w'.dex }

/-- What a purchase writes in the router is a sale, when nobody buys from themselves. -/
theorem DexRouter.sold_purchased (s : DexRouter.State) (orderId : Nat) (order : DexRouter.Order)
    {buyer : Address} (amount : Int) (hne : order.seller ≠ buyer) :
    s.Sold (s.purchased orderId order buyer amount) buyer orderId order amount := by
  have hother : (order.quoteAsset, buyer) ≠ (order.quoteAsset, order.seller) := by
    simpa using hne.symm
  have hprice : order.pricePerToken * amount = amount * order.pricePerToken := Int.mul_comm _ _
  unfold DexRouter.State.purchased
  constructor
  case paid => rw [hprice, read_set_ne _ _ hother, read_set_self]
  case earned => rw [hprice, read_set_self]
  case balances =>
    intro k hbuyer hseller
    rw [read_set_ne _ _ hseller, read_set_ne _ _ hbuyer]
  case released => exact read_set_self ..
  case escrows =>
    intro k hk
    exact read_set_ne _ _ hk
  case filled =>
    intro hall
    exact (get_set_self ..).trans (congrArg some (if_pos hall))
  case partly =>
    intro hpart
    exact (get_set_self ..).trans (congrArg some (if_neg hpart))
  case orders =>
    intro id hid
    exact get_set_ne _ _ hid
  case nonce => exact read_set_self ..
  case nonces =>
    intro addr haddr
    exact read_set_ne _ _ haddr
  case frame => rfl

/-- An accepted transfer moves the tokens and nothing else. -/
theorem BondIssuer.moved_of_transfer {env : Env} {s s' : BondIssuer.State}
    {sender recipient : Address} {bondId : Nat} {amount : Int} {nonce : Nat}
    (h : BondIssuer.transfer env s sender recipient bondId amount nonce = .ok s') :
    s.Moved s' bondId sender recipient amount := by
  obtain ⟨-, -, hne, -, config, -, state, -, -, -, -, -, -, rfl⟩ :=
    BondIssuer.transfer_ok_iff.mp h
  have hother : (bondId, sender) ≠ (bondId, recipient) := by simpa using hne.symm
  constructor
  case sent =>
    rw [read_credit_ne _ _ hother, read_credit_self, Int.sub_eq_add_neg]
  case received => rw [read_credit_self, read_credit_ne _ _ hother.symm]
  case balances =>
    intro k hsender hrecipient
    rw [read_credit_ne _ _ hrecipient, read_credit_ne _ _ hsender]
  case nonce => exact read_set_self ..
  case nonces =>
    intro addr haddr
    exact read_set_ne _ _ haddr
  case frame => rfl

/-- A purchase that succeeds settles its order. -/
theorem settled_of_execute {w w' : World} {tx : Tx} {out : Output} {buyer : Address}
    {orderId : Nat} {maxPrice amount : Int} {nonce : Nat}
    (hcall : tx.call = .dex (.executePurchase buyer orderId maxPrice amount nonce))
    (h : execute w tx = .ok (out, w')) :
    ∃ order, w.Settled w' buyer orderId order maxPrice amount := by
  cases worldStep_of_execute h with
  | dex call o issuer s hcall' hout hexec hafter =>
      obtain rfl := Call.dex.inj (hcall.symm.trans hcall')
      simp only [DexRouter.exec, bind_ok_iff, pure_ok_iff, Prod.mk.injEq, Prod.exists] at hexec
      obtain ⟨after, s', hpurchase, -, rfl, rfl⟩ := hexec
      obtain ⟨order, hget, -, -, -, hne, -, -, -, hprice, -, -, -, -, address, -, before, hbefore,
        htransfer, rfl⟩ := DexRouter.executePurchase_ok_iff.mp hpurchase
      obtain rfl := World.eq_issuer_of_issuerAt hbefore
      subst hafter
      exact ⟨order, hget, hprice, hne.symm, DexRouter.sold_purchased w.dex orderId order amount
        hne.symm, BondIssuer.moved_of_transfer htransfer, rfl⟩
  | issuer _ _ _ hcall' => cases hcall.symm.trans hcall'
  | oracle _ _ _ hcall' => cases hcall.symm.trans hcall'
  | engine _ _ _ hcall' => cases hcall.symm.trans hcall'
  | retirement _ _ _ hcall' => cases hcall.symm.trans hcall'

/-- **Purchase settlement.**  Whatever the storages of the two contracts are, a
purchase that succeeds settles its order at the order's price, and one that
fails changes nothing. -/
theorem purchase_settlement (w : World) (tx : Tx) (buyer : Address) (orderId : Nat)
    (maxPrice amount : Int) (nonce : Nat)
    (hcall : tx.call = .dex (.executePurchase buyer orderId maxPrice amount nonce)) :
    (∀ out w', execute w tx = .ok (out, w') →
      ∃ order, w.Settled w' buyer orderId order maxPrice amount) ∧
    ∀ e, execute w tx = .error e → machine.step w tx = w := by
  constructor
  · intro out w' h
    exact settled_of_execute hcall h
  · intro e h
    have hfails : machine.call w tx = .error e := h
    rw [Machine.step, hfails]

/-- Account 2 buys 100 tokens of the offered listing for 500. -/
def bothSign : Tx := ⟨4, [2, 1], none, false, fun _ => none, .dex (.executePurchase 2 1 5 100 1)⟩

/-- In the sample run the purchase is settled on both ledgers. -/
theorem purchase_settlement_sample :
    ∃ order, (machine.run (deploy sampleDeployment) offeredListing).Settled
      (machine.run (deploy sampleDeployment) (offeredListing ++ [bothSign])) 2 1 order 5 100 := by
  rcases machine.snoc_cases (deploy sampleDeployment) offeredListing bothSign with
    ⟨hrun, -⟩ | ⟨⟨before, input, out, after⟩, hfires, rfl, rfl, hrun, -⟩
  · have hused : DexRouter.getQuoteBalance
        (machine.run (deploy sampleDeployment) (offeredListing ++ [bothSign])).dex 1 "USDC" ≠
          DexRouter.getQuoteBalance
            (machine.run (deploy sampleDeployment) offeredListing).dex 1 "USDC" := by decide +kernel
    exact absurd (by rw [hrun]) hused
  · rw [hrun]
    exact (purchase_settlement (machine.run (deploy sampleDeployment) offeredListing) bothSign
      2 1 5 100 1 rfl).1 out after hfires

/-- In the deployment the plain subtractions of a purchase stay in their type:
listed prices are positive, so what is left of the balance and of the escrow is
between zero and what was there. -/
theorem purchase_in_range (d : Deployment) (txs : List Tx) {tx : Tx} {buyer : Address}
    {orderId : Nat} {maxPrice amount : Int} {nonce : Nat} {out : Output} {w' : World}
    (hcall : tx.call = .dex (.executePurchase buyer orderId maxPrice amount nonce))
    (h : execute (machine.run (deploy d) txs) tx = .ok (out, w')) :
    ∃ order, (machine.run (deploy d) txs).dex.order.get orderId = some order ∧
      0 < order.pricePerToken ∧
      i128.Fits ((machine.run (deploy d) txs).dex.balance.read (order.quoteAsset, buyer) -
        order.pricePerToken * amount) ∧
      i128.Fits ((machine.run (deploy d) txs).dex.bondEscrow.read (order.bondId, order.seller) -
        amount) := by
  obtain ⟨order, hsettled⟩ := settled_of_execute hcall h
  have hstep : machine.step (machine.run (deploy d) txs) tx = w' := by
    have hcalled : machine.call (machine.run (deploy d) txs) tx = .ok (out, w') := h
    rw [Machine.step, hcalled]
  have hafter : machine.run (deploy d) (txs ++ [tx]) = w' := by rw [machine.run_snoc, hstep]
  have hquotes := quoteInvariant d (txs ++ [tx])
  have hescrows := escrowInvariant d (txs ++ [tx])
  rw [hafter] at hquotes hescrows
  refine ⟨order, hsettled.stored, (quoteInvariant d txs).price_pos orderId order hsettled.stored,
    ?_, ?_⟩
  · rw [← hsettled.router.paid]
    exact (hquotes.balances _).2
  · rw [← hsettled.router.released]
    exact hescrows.fits _

end EcoMint
