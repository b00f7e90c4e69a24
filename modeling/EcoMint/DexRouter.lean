import EcoMint.BondIssuer

/-!
# The DEX router contract

The storage and entry points of `contracts/dex-router`: listings of bond tokens
against a quote asset, purchases that move the tokens through the bond issuer,
cancellation, quote balances, and the admin's sweep of expired orders.

Listed tokens stay with their seller; the router only counts them in a per-bond
escrow.  The second half says what each successful call does to one order and
to that counter.
-/

namespace EcoMint.DexRouter

open Fallible IntRange

/-- What has become of an order. -/
inductive OrderStatus
  | open
  | partiallyFilled
  | filled
  | cancelled
  | expired
deriving DecidableEq, Repr

/-- Tokens of a bond that a seller offers at a price, until a time. -/
structure Order where
  id : Nat
  seller : Address
  bondId : Nat
  amount : Int
  pricePerToken : Int
  quoteAsset : Symbol
  status : OrderStatus
  createdAt : Nat
  expiresAt : Nat
deriving DecidableEq, Repr

/-- What a sweep returns: how many orders it marked, and where the next one is to start. -/
structure CleanExpiredResult where
  cleaned : Nat
  nextStartId : Nat
deriving DecidableEq, Repr

/-- The most orders that one sweep looks at. -/
def MAX_CLEAN_BATCH : Nat := 100

/-- Contract storage, one field per `DataKey` that some entry point reads. -/
structure State where
  admin : Option Address
  order : Storage Nat Order
  orderCount : Nat
  sellerOrders : Storage Address (List Nat)
  bondOrders : Storage Nat (List Nat)
  bondIssuerAddress : Option Address
  balance : Storage (Symbol × Address) Int
  bondEscrow : Storage (Nat × Address) Int
  nonce : Storage Address Nat
deriving DecidableEq

/-- The bond issuer deployed at an address, if there is one. -/
abbrev Issuers := Address → Option BondIssuer.State

/-- The caller is the administrator. -/
def requireAdmin (s : State) (caller : Address) : Fallible DEXError Unit :=
  checkAdmin s.admin caller .notInitialized .unauthorized

/-- The nonce is the caller's next one, and is used up. -/
def consumeNonce (s : State) (addr : Address) (nonce : Nat) : Fallible DEXError State := do
  let nonces ← useNonce s.nonce addr nonce .invalidNonce
  return { s with nonce := nonces }

/-- The order can still be filled or cancelled. -/
def Order.Live (order : Order) : Prop :=
  order.status = .open ∨ order.status = .partiallyFilled

instance (order : Order) : Decidable order.Live := by
  unfold Order.Live; infer_instance

/-- The ledger has come to the end of the order. -/
def isOrderExpired (env : Env) (order : Order) : Prop := env.timestamp ≥ order.expiresAt

instance (env : Env) (order : Order) : Decidable (isOrderExpired env order) := by
  unfold isOrderExpired; infer_instance

/-- The order is stored as expired. -/
def markOrderExpired (s : State) (orderId : Nat) (order : Order) : State :=
  { s with order := s.order.set orderId { order with status := .expired } }

/-- The holder has as many tokens as are asked for, according to the bond issuer. -/
def verifyHolderBalance (issuers : Issuers) (s : State) (holder : Address) (bondId : Nat)
    (required : Int) : Fallible DEXError Unit := do
  let bondIssuer ← okOr s.bondIssuerAddress .notInitialized
  let issuer ← orTrap (issuers bondIssuer)
  let balance := BondIssuer.getHolderBalance issuer bondId holder
  rejectIf (balance < required) .insufficientBalance

/-! ## Entry points -/

/-- The router as it is deployed: an administrator and the address of the bond issuer. -/
def constructor (admin bondIssuerAddress : Address) : State where
  admin := some admin
  order := ∅
  orderCount := 0
  sellerOrders := ∅
  bondOrders := ∅
  bondIssuerAddress := some bondIssuerAddress
  balance := ∅
  bondEscrow := ∅
  nonce := ∅

/-- The administrator hands over to another one. -/
def setAdmin (env : Env) (s : State) (currentAdmin newAdmin : Address) :
    Fallible DEXError State := do
  env.requireAuth currentAdmin
  requireAdmin s currentAdmin
  return { s with admin := some newAdmin }

/-- A seller offers tokens. Its balance has to cover this order, whatever it has listed
before. -/
def listBondTokens (env : Env) (issuers : Issuers) (s : State) (seller : Address)
    (bondId : Nat) (amount pricePerToken : Int) (quoteAsset : Symbol)
    (expiresAfterSeconds nonce : Nat) : Fallible DEXError (Nat × State) := do
  env.requireAuth seller
  let s ← consumeNonce s seller nonce
  rejectIf (amount ≤ 0 ∨ pricePerToken ≤ 0) .zeroAmount
  rejectIf (expiresAfterSeconds = 0) .orderExpired
  verifyHolderBalance issuers s seller bondId amount
  let currentEscrow := s.bondEscrow.read (bondId, seller)
  let newEscrow ← okOr (i128.checkedAdd currentEscrow amount) .overflow
  let orderId := s.orderCount + 1
  let now := env.timestamp
  let expiresAt ← okOr (u64.checkedAddNat now expiresAfterSeconds) .orderExpired
  let order : Order :=
    { id := orderId, seller, bondId, amount, pricePerToken, quoteAsset, status := .open
      createdAt := now, expiresAt }
  return (orderId, { s with
    bondEscrow := s.bondEscrow.set (bondId, seller) newEscrow
    orderCount := orderId
    order := s.order.set orderId order
    sellerOrders := s.sellerOrders.set seller
      ((s.sellerOrders.get seller).getD [] ++ [orderId])
    bondOrders := s.bondOrders.set bondId ((s.bondOrders.get bondId).getD [] ++ [orderId]) })

/-- The seller takes a live order back, and its tokens leave the escrow. -/
def cancelListing (env : Env) (s : State) (caller : Address) (orderId nonce : Nat) :
    Fallible DEXError State := do
  env.requireAuth caller
  let s ← consumeNonce s caller nonce
  let order ← okOr (s.order.get orderId) .orderNotFound
  rejectIf (caller ≠ order.seller) .unauthorized
  rejectIf (order.status ≠ .open ∧ order.status ≠ .partiallyFilled) .orderAlreadyFilled
  let sellerEscrow := s.bondEscrow.read (order.bondId, order.seller)
  let newEscrow := (i128.checkedSub sellerEscrow order.amount).getD 0
  return { s with
    bondEscrow := s.bondEscrow.set (order.bondId, order.seller) newEscrow
    order := s.order.set orderId { order with status := .cancelled } }

/-- An order after `amount` of it was bought. -/
def Order.fill (order : Order) (amount : Int) : Order :=
  if amount = order.amount then { order with status := .filled }
  else { order with status := .partiallyFilled, amount := order.amount - amount }

/-- A purchase pays in the quote asset and moves the tokens with a call to the
issuer's `transfer`; it returns the issuer's new storage with the router's. -/
def executePurchase (env : Env) (issuers : Issuers) (s : State) (buyer : Address)
    (orderId : Nat) (maxPrice amount : Int) (nonce : Nat) :
    Fallible DEXError (BondIssuer.State × State) := do
  env.requireAuth buyer
  let s ← consumeNonce s buyer nonce
  let order ← okOr (s.order.get orderId) .orderNotFound
  rejectIf (order.status ≠ .open ∧ order.status ≠ .partiallyFilled) .orderAlreadyFilled
  rejectIf (buyer = order.seller) .selfBuyNotAllowed
  rejectIf (isOrderExpired env order) .orderExpired
  rejectIf (amount ≤ 0) .zeroAmount
  rejectIf (amount > order.amount) .insufficientBalance
  rejectIf (maxPrice < order.pricePerToken) .insufficientBalance
  let sellerEscrow := s.bondEscrow.read (order.bondId, order.seller)
  rejectIf (sellerEscrow < amount) .insufficientBalance
  let proceeds ← okOr (i128.checkedMul amount order.pricePerToken) .overflow
  let buyerBalance := s.balance.read (order.quoteAsset, buyer)
  rejectIf (buyerBalance < proceeds) .insufficientFunds
  let balances := s.balance.set (order.quoteAsset, buyer) (buyerBalance - proceeds)
  let sellerBalance := balances.read (order.quoteAsset, order.seller)
  let newSellerBalance ← okOr (i128.checkedAdd sellerBalance proceeds) .overflow
  let bondIssuer ← okOr s.bondIssuerAddress .notInitialized
  let issuer ← orTrap (issuers bondIssuer)
  let sellerBondNonce := BondIssuer.getNonce issuer order.seller
  let issuer ← invoke (BondIssuer.transfer (env.invoking bondIssuer) issuer order.seller buyer
    order.bondId amount sellerBondNonce)
  return (issuer, { s with
    balance := balances.set (order.quoteAsset, order.seller) newSellerBalance
    bondEscrow := s.bondEscrow.set (order.bondId, order.seller) (sellerEscrow - amount)
    order := s.order.set orderId (order.fill amount) })

/-- An account pays quote into the router. -/
def depositQuote (env : Env) (s : State) (caller : Address) (quoteAsset : Symbol)
    (amount : Int) (nonce : Nat) : Fallible DEXError State := do
  env.requireAuth caller
  let s ← consumeNonce s caller nonce
  rejectIf (amount ≤ 0) .zeroAmount
  let balance := s.balance.read (quoteAsset, caller)
  let newBalance ← okOr (i128.checkedAdd balance amount) .overflow
  return { s with balance := s.balance.set (quoteAsset, caller) newBalance }

/-- An account takes quote out of the router. -/
def withdrawQuote (env : Env) (s : State) (caller : Address) (quoteAsset : Symbol)
    (amount : Int) (nonce : Nat) : Fallible DEXError State := do
  env.requireAuth caller
  let s ← consumeNonce s caller nonce
  rejectIf (amount ≤ 0) .zeroAmount
  let balance := s.balance.read (quoteAsset, caller)
  rejectIf (balance < amount) .insufficientFunds
  return { s with balance := s.balance.set (quoteAsset, caller) (balance - amount) }

/-- The first order id a sweep looks at. -/
def sweepStart (startId : Nat) : Nat := if startId = 0 then 1 else startId

/-- The last order id a sweep looks at. -/
def sweepEnd (count startId limit : Nat) : Nat :=
  let batch := if limit > MAX_CLEAN_BATCH then MAX_CLEAN_BATCH else limit
  min (u64.saturatingAddNat (sweepStart startId) batch - 1) count

/-- The order ids a sweep scans, in order. -/
def sweepWindow (count startId limit : Nat) : List Nat :=
  if count = 0 ∨ sweepStart startId > count then []
  else
    List.range' (sweepStart startId)
      (sweepEnd count startId limit + 1 - sweepStart startId)

/-- The sweep will mark this order. -/
def Order.sweepable (env : Env) (order : Order) : Prop :=
  order.Live ∧ isOrderExpired env order

instance (env : Env) (order : Order) : Decidable (order.sweepable env) := by
  unfold Order.sweepable; infer_instance

/-- The loop of `clean_expired_orders`: the number marked, and the storage. -/
def sweepOrders (env : Env) : List Nat → Nat × State → Nat × State
  | [], acc => acc
  | id :: rest, (cleaned, s) =>
      match s.order.get id with
      | some order =>
          if order.sweepable env then
            sweepOrders env rest (cleaned + 1, markOrderExpired s id order)
          else sweepOrders env rest (cleaned, s)
      | none => sweepOrders env rest (cleaned, s)

/-- The administrator has expired orders marked, from a number on and at most a batch of
them. -/
def cleanExpiredOrders (env : Env) (s : State) (caller : Address) (startId limit nonce : Nat) :
    Fallible DEXError (CleanExpiredResult × State) := do
  env.requireAuth caller
  let s ← consumeNonce s caller nonce
  requireAdmin s caller
  rejectIf (limit = 0) .zeroAmount
  let count := s.orderCount
  if count = 0 ∨ sweepStart startId > count then
    return ({ cleaned := 0, nextStartId := 0 }, s)
  else
    let (cleaned, s) := sweepOrders env (sweepWindow count startId limit) (0, s)
    let last := sweepEnd count startId limit
    let nextStartId := if last ≥ count then 0 else last + 1
    return ({ cleaned, nextStartId }, s)

/-! ## Views -/

/-- The administrator. -/
def getAdmin (s : State) : Fallible DEXError Address := okOr s.admin .notInitialized

/-- The quote that an account has in the router. -/
def getQuoteBalance (s : State) (address : Address) (quoteAsset : Symbol) : Int :=
  s.balance.read (quoteAsset, address)

/-- The tokens of a bond that a seller has listed. -/
def getSellerBondEscrow (s : State) (seller : Address) (bondId : Nat) : Int :=
  s.bondEscrow.read (bondId, seller)

/-- An order. -/
def getOrder (s : State) (orderId : Nat) : Fallible DEXError Order :=
  okOr (s.order.get orderId) .orderNotFound

/-- The numbers of the orders on a bond, oldest first. -/
def getBondOrders (s : State) (bondId : Nat) : List Nat := (s.bondOrders.get bondId).getD []

/-- The numbers of a seller's orders, oldest first. -/
def getSellerOrders (s : State) (seller : Address) : List Nat :=
  (s.sellerOrders.get seller).getD []

/-! ## Calls -/

/-- A call of a state-changing entry point. -/
inductive Call
  | setAdmin (currentAdmin newAdmin : Address)
  | listBondTokens (seller : Address) (bondId : Nat) (amount pricePerToken : Int)
      (quoteAsset : Symbol) (expiresAfterSeconds nonce : Nat)
  | cancelListing (caller : Address) (orderId nonce : Nat)
  | executePurchase (buyer : Address) (orderId : Nat) (maxPrice amount : Int) (nonce : Nat)
  | depositQuote (caller : Address) (quoteAsset : Symbol) (amount : Int) (nonce : Nat)
  | withdrawQuote (caller : Address) (quoteAsset : Symbol) (amount : Int) (nonce : Nat)
  | cleanExpiredOrders (caller : Address) (startId limit nonce : Nat)
deriving DecidableEq

/-- What a call returns. -/
inductive Output
  | done
  | orderId (id : Nat)
  | cleaned (result : CleanExpiredResult)
deriving DecidableEq, Repr

/-- The issuer's new storage, when the call changed it, and the router's. -/
abbrev Effect := Option BondIssuer.State × State

/-- Run an entry point that returns nothing and calls nobody. -/
def silent (r : Fallible DEXError State) : Fallible DEXError (Output × Effect) := do
  let s ← r
  return (.done, none, s)

/-- A call of the contract, with what it returns and what it changes in both contracts. -/
def exec (env : Env) (issuers : Issuers) (s : State) :
    Call → Fallible DEXError (Output × Effect)
  | .setAdmin currentAdmin newAdmin => silent (setAdmin env s currentAdmin newAdmin)
  | .listBondTokens seller bondId amount pricePerToken quoteAsset expiresAfterSeconds nonce => do
      let (id, s) ← listBondTokens env issuers s seller bondId amount pricePerToken quoteAsset
        expiresAfterSeconds nonce
      return (.orderId id, none, s)
  | .cancelListing caller orderId nonce => silent (cancelListing env s caller orderId nonce)
  | .executePurchase buyer orderId maxPrice amount nonce => do
      let (issuer, s) ← executePurchase env issuers s buyer orderId maxPrice amount nonce
      return (.done, some issuer, s)
  | .depositQuote caller quoteAsset amount nonce =>
      silent (depositQuote env s caller quoteAsset amount nonce)
  | .withdrawQuote caller quoteAsset amount nonce =>
      silent (withdrawQuote env s caller quoteAsset amount nonce)
  | .cleanExpiredOrders caller startId limit nonce => do
      let (result, s) ← cleanExpiredOrders env s caller startId limit nonce
      return (.cleaned result, none, s)

/-! ## What a successful call does to the orders and the escrow -/

/-- The sweep of a call scans these order ids. -/
def sweptIds (s : State) : Call → List Nat
  | .cleanExpiredOrders _ startId limit _ => sweepWindow s.orderCount startId limit
  | _ => []

/-- What a call lists: the bond, the seller and the amount. -/
def listedBy : Call → Option (Nat × Address × Int)
  | .listBondTokens seller bondId amount _ _ _ _ => some (bondId, seller, amount)
  | _ => none

/-- One successful call: nothing about orders, one listing, one cancellation,
one purchase, or one sweep. -/
inductive OrderStep (env : Env) (issuers : Issuers) (s s' : State)
    (issuer' : Option BondIssuer.State) (call : Call) : Prop
  | idle (horder : s'.order = s.order) (hcount : s'.orderCount = s.orderCount)
      (hescrow : s'.bondEscrow = s.bondEscrow) (hissuer : issuer' = none)
      (hlists : listedBy call = none) (hswept : sweptIds s call = [])
  | listed (order : Order) (hstatus : order.status = .open) (hpos : 0 < order.amount)
      (hlists : listedBy call = some (order.bondId, order.seller, order.amount))
      (hswept : sweptIds s call = [])
      (hbacked : ∃ address issuer, s.bondIssuerAddress = some address ∧
        issuers address = some issuer ∧
        order.amount ≤ BondIssuer.getHolderBalance issuer order.bondId order.seller)
      (hfits : i128.Fits (s.bondEscrow.read (order.bondId, order.seller) + order.amount))
      (horder : s'.order = s.order.set (s.orderCount + 1) order)
      (hcount : s'.orderCount = s.orderCount + 1)
      (hescrow : s'.bondEscrow = s.bondEscrow.credit (order.bondId, order.seller) order.amount)
      (hissuer : issuer' = none)
  | cancelled (id : Nat) (order : Order) (hget : s.order.get id = some order)
      (hlive : order.Live) (horder : s'.order = s.order.set id { order with status := .cancelled })
      (hcount : s'.orderCount = s.orderCount)
      (hescrow : s'.bondEscrow = s.bondEscrow.set (order.bondId, order.seller)
        ((i128.checkedSub (s.bondEscrow.read (order.bondId, order.seller)) order.amount).getD 0))
      (hissuer : issuer' = none) (hlists : listedBy call = none) (hswept : sweptIds s call = [])
  | bought (id : Nat) (order : Order) (buyer : Address) (amount : Int)
      (hget : s.order.get id = some order) (hlive : order.Live)
      (hpos : 0 < amount) (hle : amount ≤ order.amount)
      (hescrowed : amount ≤ s.bondEscrow.read (order.bondId, order.seller))
      (htransfer : ∃ address issuer after, s.bondIssuerAddress = some address ∧
        issuers address = some issuer ∧ issuer' = some after ∧
        BondIssuer.transfer (env.invoking address) issuer order.seller buyer order.bondId amount
          (BondIssuer.getNonce issuer order.seller) = .ok after)
      (horder : s'.order = s.order.set id (order.fill amount))
      (hcount : s'.orderCount = s.orderCount)
      (hescrow : s'.bondEscrow = s.bondEscrow.credit (order.bondId, order.seller) (-amount))
      (hlists : listedBy call = none) (hswept : sweptIds s call = [])
  | swept (base : State) (horder : base.order = s.order)
      (hescrow : base.bondEscrow = s.bondEscrow) (hcount : base.orderCount = s.orderCount)
      (hafter : s' = (sweepOrders env (sweptIds s call) (0, base)).2) (hissuer : issuer' = none)
      (hlists : listedBy call = none)

/-- The balance check passes exactly if the issuer can be asked and names enough tokens. -/
theorem verifyHolderBalance_ok_iff {issuers : Issuers} {s : State} {holder : Address}
    {bondId : Nat} {required : Int} {u : Unit} :
    verifyHolderBalance issuers s holder bondId required = .ok u ↔
      ∃ address issuer, s.bondIssuerAddress = some address ∧ issuers address = some issuer ∧
        required ≤ BondIssuer.getHolderBalance issuer bondId holder := by
  simp [verifyHolderBalance]

/-- The two states in which an order can still be bought from. -/
theorem live_iff {order : Order} :
    ¬ (order.status ≠ .open ∧ order.status ≠ .partiallyFilled) ↔ order.Live := by
  unfold Order.Live
  cases order.status <;> simp

/-- An order is not expired before its end. -/
theorem not_expired_iff {env : Env} {order : Order} :
    ¬ isOrderExpired env order ↔ env.timestamp < order.expiresAt := by
  unfold isOrderExpired
  omega

/-- The storage after a purchase of `amount` from an order. -/
def State.purchased (s : State) (orderId : Nat) (order : Order) (buyer : Address)
    (amount : Int) : State :=
  { s with
    nonce := s.nonce.set buyer (s.nonce.read buyer + 1)
    balance := (s.balance.set (order.quoteAsset, buyer)
      (s.balance.read (order.quoteAsset, buyer) - amount * order.pricePerToken)).set
        (order.quoteAsset, order.seller)
        (s.balance.read (order.quoteAsset, order.seller) + amount * order.pricePerToken)
    bondEscrow := s.bondEscrow.set (order.bondId, order.seller)
      (s.bondEscrow.read (order.bondId, order.seller) - amount)
    order := s.order.set orderId (order.fill amount) }

/-- **A purchase goes through** exactly if the buyer authorises it, the order
can be filled at this price and time, the amounts fit, and the issuer accepts
the transfer. -/
theorem executePurchase_ok_iff {env : Env} {issuers : Issuers} {s s' : State}
    {issuer' : BondIssuer.State} {buyer : Address} {orderId : Nat} {maxPrice amount : Int}
    {nonce : Nat} :
    executePurchase env issuers s buyer orderId maxPrice amount nonce = .ok (issuer', s') ↔
      ∃ order, s.order.get orderId = some order ∧
        env.Authorizes buyer ∧ nonce = s.nonce.read buyer ∧ order.Live ∧ buyer ≠ order.seller ∧
        env.timestamp < order.expiresAt ∧ 0 < amount ∧ amount ≤ order.amount ∧
        order.pricePerToken ≤ maxPrice ∧
        amount ≤ s.bondEscrow.read (order.bondId, order.seller) ∧
        i128.Fits (amount * order.pricePerToken) ∧
        amount * order.pricePerToken ≤ s.balance.read (order.quoteAsset, buyer) ∧
        i128.Fits (s.balance.read (order.quoteAsset, order.seller) +
          amount * order.pricePerToken) ∧
        ∃ address, s.bondIssuerAddress = some address ∧
        ∃ issuer, issuers address = some issuer ∧
          BondIssuer.transfer (env.invoking address) issuer order.seller buyer
            order.bondId amount (BondIssuer.getNonce issuer order.seller) = .ok issuer' ∧
          s.purchased orderId order buyer amount = s' := by
  have hseller : ∀ (order : Order) (balance : Int), buyer ≠ order.seller →
      (s.balance.set (order.quoteAsset, buyer) balance).read (order.quoteAsset, order.seller) =
        s.balance.read (order.quoteAsset, order.seller) := by
    intro order balance hne
    exact Storage.read_set_ne _ _ (by simpa using hne.symm)
  simp only [executePurchase, consumeNonce, bind_ok_iff, pure_ok_iff, okOr_ok_iff,
    orTrap_ok_iff, invoke_ok_iff, rejectIf_ok_iff, Env.requireAuth_ok_iff, useNonce_ok_iff,
    checkedMul, checkedAdd, checked_eq_some, not_expired_iff, not_le, not_lt, gt_iff_lt,
    live_iff, Prod.mk.injEq]
  constructor
  · intro h
    obtain ⟨_, hauth, _, ⟨_, ⟨hnonce, rfl⟩, rfl⟩, order, hget, _, hlive, _, hne, _, hdue, _, hpos,
      _, hle, _, hprice, _, hescrow, _, ⟨hproceeds, rfl⟩, _, hfunds, _, ⟨hearned, rfl⟩, address,
      haddress, issuer, hissuer, after, htransfer, rfl, rfl⟩ := h
    dsimp only at hearned
    rw [hseller order _ hne] at hearned
    refine ⟨order, hget, hauth, hnonce, hlive, hne, hdue, hpos, hle, hprice, hescrow, hproceeds,
      hfunds, hearned, address, haddress, issuer, hissuer, htransfer, ?_⟩
    rw [State.purchased, hseller order _ hne]
  · intro h
    obtain ⟨order, hget, hauth, hnonce, hlive, hne, hdue, hpos, hle, hprice, hescrow, hproceeds,
      hfunds, hearned, address, haddress, issuer, hissuer, htransfer, rfl⟩ := h
    refine ⟨(), hauth, _, ⟨_, ⟨hnonce, rfl⟩, rfl⟩, order, hget, (), hlive, (), hne, (), hdue, (),
      hpos, (), hle, (), hprice, (), hescrow, _, ⟨hproceeds, rfl⟩, (), hfunds, _, ⟨?_, rfl⟩, address,
      haddress, issuer, hissuer, issuer', htransfer, rfl, ?_⟩
    · rw [hseller order _ hne]
      exact hearned
    · rw [State.purchased, hseller order _ hne]

/-- What listing does to the orders. -/
theorem orderStep_listBondTokens {env : Env} {issuers : Issuers} {s s' : State}
    {seller : Address} {bondId : Nat} {amount pricePerToken : Int} {quoteAsset : Symbol}
    {expiresAfterSeconds nonce id : Nat}
    (h : listBondTokens env issuers s seller bondId amount pricePerToken quoteAsset
      expiresAfterSeconds nonce = .ok (id, s')) :
    OrderStep env issuers s s' none (.listBondTokens seller bondId amount pricePerToken quoteAsset
      expiresAfterSeconds nonce) := by
  simp only [listBondTokens, consumeNonce, bind_ok_iff, pure_ok_iff, okOr_ok_iff,
    rejectIf_ok_iff, verifyHolderBalance_ok_iff, checkedAdd, checked_eq_some, not_or, not_le,
    Prod.mk.injEq] at h
  obtain ⟨_, _, _, ⟨_, _, rfl⟩, _, ⟨hpos, _⟩, _, _, _, hbacked, _, ⟨hfits, rfl⟩, _, _, -,
    rfl⟩ := h
  exact .listed _ rfl hpos rfl rfl hbacked hfits rfl rfl rfl rfl

/-- What cancelling does to the orders. -/
theorem orderStep_cancelListing {env : Env} {issuers : Issuers} {s s' : State}
    {caller : Address} {orderId nonce : Nat}
    (h : cancelListing env s caller orderId nonce = .ok s') :
    OrderStep env issuers s s' none (.cancelListing caller orderId nonce) := by
  simp only [cancelListing, consumeNonce, bind_ok_iff, pure_ok_iff, okOr_ok_iff,
    rejectIf_ok_iff] at h
  obtain ⟨_, _, _, ⟨_, _, rfl⟩, order, hget, _, _, _, hlive, rfl⟩ := h
  exact .cancelled orderId order hget (live_iff.mp hlive) rfl rfl rfl rfl rfl rfl

/-- What a purchase does to the orders. -/
theorem orderStep_executePurchase {env : Env} {issuers : Issuers} {s s' : State}
    {issuer' : BondIssuer.State} {buyer : Address} {orderId : Nat} {maxPrice amount : Int}
    {nonce : Nat}
    (h : executePurchase env issuers s buyer orderId maxPrice amount nonce = .ok (issuer', s')) :
    OrderStep env issuers s s' (some issuer')
      (.executePurchase buyer orderId maxPrice amount nonce) := by
  obtain ⟨order, hget, -, -, hlive, -, -, hpos, hle, -, hescrowed, -, -, -, address, haddress,
    issuer, hissuer, htransfer, rfl⟩ := executePurchase_ok_iff.mp h
  exact .bought orderId order buyer amount hget hlive hpos hle hescrowed
    ⟨address, issuer, _, haddress, hissuer, rfl, htransfer⟩ rfl rfl rfl rfl rfl

/-- What a sweep does to the orders. -/
theorem orderStep_cleanExpiredOrders {env : Env} {issuers : Issuers} {s s' : State}
    {caller : Address} {startId limit nonce : Nat} {result : CleanExpiredResult}
    (h : cleanExpiredOrders env s caller startId limit nonce = .ok (result, s')) :
    OrderStep env issuers s s' none (.cleanExpiredOrders caller startId limit nonce) := by
  simp only [cleanExpiredOrders, consumeNonce, bind_ok_iff, pure_ok_iff] at h
  obtain ⟨_, _, _, ⟨nonces, _, rfl⟩, _, _, _, _, h⟩ := h
  refine .swept { s with nonce := nonces } rfl rfl rfl ?_ rfl rfl
  split at h
  · next hnone =>
      obtain ⟨-, rfl⟩ := Prod.mk.inj (pure_ok_iff.mp h)
      simp only [sweptIds, sweepWindow]
      rw [if_pos hnone]
      rfl
  · obtain ⟨-, rfl⟩ := Prod.mk.inj (pure_ok_iff.mp h)
    rfl

/-- A silent call succeeds as the function under it does, and returns nothing. -/
theorem silent_ok_iff {r : Fallible DEXError State} {out : Output} {effect : Effect} :
    silent r = .ok (out, effect) ↔
      r = .ok effect.2 ∧ effect.1 = none ∧ out = .done := by
  obtain ⟨issuer, s⟩ := effect
  simp only [silent, bind_ok_iff, pure_ok_iff, Prod.mk.injEq]
  constructor
  · rintro ⟨s', hs, rfl, rfl, rfl⟩
    exact ⟨hs, rfl, rfl⟩
  · rintro ⟨hs, rfl, rfl⟩
    exact ⟨s, hs, rfl, rfl, rfl⟩

/-- **Step lemma.**  Every successful call is an `OrderStep`. -/
theorem orderStep_exec {env : Env} {issuers : Issuers} {s s' : State}
    {issuer' : Option BondIssuer.State} {call : Call} {out : Output}
    (h : exec env issuers s call = .ok (out, issuer', s')) :
    OrderStep env issuers s s' issuer' call := by
  cases call with
  | listBondTokens seller bondId amount pricePerToken quoteAsset expiresAfterSeconds nonce =>
      simp only [exec, bind_ok_iff, pure_ok_iff, Prod.mk.injEq, Prod.exists] at h
      obtain ⟨id, s'', hlist, -, rfl, rfl⟩ := h
      exact orderStep_listBondTokens hlist
  | cancelListing caller orderId nonce =>
      obtain ⟨hcancel, hissuer, -⟩ := silent_ok_iff.mp h
      obtain rfl : issuer' = none := hissuer
      exact orderStep_cancelListing hcancel
  | executePurchase buyer orderId maxPrice amount nonce =>
      simp only [exec, bind_ok_iff, pure_ok_iff, Prod.mk.injEq, Prod.exists] at h
      obtain ⟨issuer, s'', hpurchase, -, rfl, rfl⟩ := h
      exact orderStep_executePurchase hpurchase
  | cleanExpiredOrders caller startId limit nonce =>
      simp only [exec, bind_ok_iff, pure_ok_iff, Prod.mk.injEq, Prod.exists] at h
      obtain ⟨result, s'', hclean, -, rfl, rfl⟩ := h
      exact orderStep_cleanExpiredOrders hclean
  | setAdmin currentAdmin newAdmin =>
      simp only [exec, silent_ok_iff, setAdmin, bind_ok_iff, pure_ok_iff] at h
      obtain ⟨⟨_, _, _, _, rfl⟩, hissuer, -⟩ := h
      exact .idle rfl rfl rfl hissuer rfl rfl
  | depositQuote caller quoteAsset amount nonce =>
      simp only [exec, silent_ok_iff, depositQuote, consumeNonce, bind_ok_iff,
        pure_ok_iff] at h
      obtain ⟨⟨_, _, _, ⟨_, _, rfl⟩, _, _, _, _, rfl⟩, hissuer, -⟩ := h
      exact .idle rfl rfl rfl hissuer rfl rfl
  | withdrawQuote caller quoteAsset amount nonce =>
      simp only [exec, silent_ok_iff, withdrawQuote, consumeNonce, bind_ok_iff,
        pure_ok_iff] at h
      obtain ⟨⟨_, _, _, ⟨_, _, rfl⟩, _, _, _, _, rfl⟩, hissuer, -⟩ := h
      exact .idle rfl rfl rfl hissuer rfl rfl

end EcoMint.DexRouter
