import EcoMint.NonceAllocation
import EcoMint.ReadCache
import EcoMint.ScVal

/-!
# Fresh portfolios

`getPortfolio` aggregates what a wallet holds, offers and may claim, and caches
the answer under the wallet's key; it reads bonds and the order list through
caches of their own.  The services delete cache entries after the mutations they
send to the chain, but `buyBondTokens` only the buyer's, `distributeCoupon` none
at all, and some without waiting for the deletion; and a rebuild that was under
way puts older data back.

The methods are scripts in the source's order of waits, and the freshness rule
says what makes an answer as fresh as a mutation that returned before: every
entry on the way was refreshed since, and none was overwritten by older data.
-/

namespace EcoMint.Portfolio

open ReadCache

/-! ## Responses -/

/-- A bond as the portfolio sees it: still running, or past its maturity date. -/
inductive BondMaturityStatus
  | active
  | matured
deriving DecidableEq, Repr

/-- What the API says about a bond: its terms and state, and whether it has
matured by now. -/
structure BondResponse where
  id : Nat
  config : BondConfig
  state : BondIssuer.BondState
  maturityStatus : BondMaturityStatus
deriving DecidableEq

/-- A bond with the balance that the wallet has of it. -/
structure HeldBondResponse extends BondResponse where
  balance : Int
deriving DecidableEq

/-- A page of orders, each with the status that the API derives. -/
structure OrdersResponse where
  data : List DexRouter.Order
  page : Nat
  limit : Nat
  total : Nat
  totalPages : Nat
deriving DecidableEq

/-- A bond in a portfolio. -/
structure PortfolioBond where
  id : Nat
  balance : Int
  status : BondStatus
  maturityStatus : BondMaturityStatus
  maturityDate : Nat
deriving DecidableEq

/-- An order of the wallet in its portfolio. -/
structure PortfolioListing where
  id : Nat
  bondId : Nat
  amount : Int
  pricePerToken : Int
  quoteAsset : Symbol
  status : DexRouter.OrderStatus
  createdAt : Nat
deriving DecidableEq

/-- What the wallet could claim on a bond. -/
structure PortfolioClaimableCredit where
  bondId : Nat
  amount : Int
deriving DecidableEq

/-- What the wallet has retired. -/
structure PortfolioRetiredCredit where
  id : Nat
  bondId : Nat
  amount : Int
  creditType : CreditType
  retiredAt : Nat
deriving DecidableEq

/-- What there is for the wallet to do. -/
inductive PortfolioPendingActionType
  | couponClaim
  | maturity
  | openListing
deriving DecidableEq

/-- Something for the wallet to do, on a bond. -/
structure PortfolioPendingAction where
  type : PortfolioPendingActionType
  bondId : Nat
  detail : Option String
deriving DecidableEq

/-- The answer of `getPortfolio`. -/
structure PortfolioResponse where
  address : Address
  bondsHeld : List PortfolioBond
  openListings : List PortfolioListing
  claimableCredits : List PortfolioClaimableCredit
  retiredCredits : List PortfolioRetiredCredit
  pendingActions : List PortfolioPendingAction
  generatedAt : Nat
deriving DecidableEq

/-! ## The chain and the cache -/

/-- The simulated calls. -/
inductive Query : Type → Type
  | bondCount : Query Nat
  | getHolderBalance (bondId : Nat) (holder : Address) : Query Int
  | getBond (bondId : Nat) : Query BondConfig
  | getBondState (bondId : Nat) : Query BondIssuer.BondState
  | claimableCredits (bondId : Nat) (holder : Address) : Query Int
  | orderCount : Query Nat
  | getOrder (orderId : Nat) : Query DexRouter.Order
  | getQuoteBalance (address : Address) (quoteAsset : Symbol) : Query Int
  | totalRetirements : Query Nat
  | getRetirementRecord (retirementId : Nat) : Query CreditRetirement.RetirementRecord

/-- What the chain says to a question; `none` where the call fails. -/
def Query.answer (chain : Chain) : {α : Type} → Query α → Option α
  | _, .bondCount => some chain.world.issuer.bondCount
  | _, .getHolderBalance bondId holder =>
      some (BondIssuer.getHolderBalance chain.world.issuer bondId holder)
  | _, .getBond bondId => (BondIssuer.getBond chain.world.issuer bondId).toOption
  | _, .getBondState bondId => (BondIssuer.getBondState chain.world.issuer bondId).toOption
  | _, .claimableCredits bondId holder =>
      some (CouponEngine.claimableCredits chain.world.engine bondId holder)
  | _, .orderCount => some chain.world.dex.orderCount
  | _, .getOrder orderId => (DexRouter.getOrder chain.world.dex orderId).toOption
  | _, .getQuoteBalance address quoteAsset =>
      some (DexRouter.getQuoteBalance chain.world.dex address quoteAsset)
  | _, .totalRetirements => some (CreditRetirement.totalRetirements chain.world.retirement)
  | _, .getRetirementRecord retirementId =>
      (CreditRetirement.getRetirementRecord chain.world.retirement retirementId).toOption

/-- The keys in Redis; of the lists of orders only `orders:all:all:1:1000`. -/
inductive CacheKey
  | portfolio (address : Address)
  | orders
  | bond (id : Nat)
  | order (id : Nat)
deriving DecidableEq

/-- What the API keeps in Redis. -/
inductive CacheData
  | portfolio (response : PortfolioResponse)
  | orders (response : OrdersResponse)
  | bond (response : BondResponse)
  | order (order : DexRouter.Order)
deriving DecidableEq

/-- The chain, to which a request goes with a nonce.  The output is the number
of orders afterwards, which is the id that `list_bond_tokens` returns. -/
def backend : Backend Chain (TxContext × Nat) (TxContext × ChainCall) ApiRequest Nat Query where
  answer chain question := question.answer chain
  submit chain ctx request :=
    ((request.call ctx.2).bind fun call => (chain.execute ctx.1 call).toOption).map
      fun chain => (chain.world.dex.orderCount, chain)
  foreign chain tx := (chain.execute tx.1 tx.2).toOption

/-- A service method between its waits. -/
abbrev Service := Script CacheKey CacheData ApiRequest Nat Query

/-- A read of the ledger; `none` where it fails. -/
def simulateCall {α : Type} (question : Query α) : Service (Option α) := .query question .done

/-- A transaction; the ledger's time if it was accepted. -/
def invokeContractMethod (request : ApiRequest) : Service (Option Nat) := .submit request .done

/-- A call of another service that goes through or throws. -/
def callThrough : Service Bool := .attempt .done

/-- `Date.now()`, in milliseconds -/
def dateNow : Service Nat := .clock .done

/-- A read of the cache; nothing where it fails. -/
def redisGet (key : CacheKey) : Service (Option CacheData) := .find key .done

/-- A write to the cache, which may fail. -/
def redisSetEx (key : CacheKey) (data : CacheData) : Service Unit := .store key data (.done ())

/-- A deletion in the cache, which may fail. -/
def redisDel (key : CacheKey) : Service Unit := .delete key (.done ())

/-- `delPattern('orders:*')` -/
def redisDelOrders : Service Unit :=
  .scan .orders fun there => if there then redisDel .orders else .done ()

/-- The deletion is not waited for. -/
def invalidatePortfolio (address : Address) : Service Unit :=
  .detach (.portfolio address) (.done ())

/-- The ids from 1 to a count. -/
def ids (total : Nat) : List Nat := (List.range total).map (· + 1)

/-! ## Bonds -/

/-- A bond from the ledger, in two reads. -/
def buildBondResponse (id : Nat) : Service (Option BondResponse) := do
  match ← simulateCall (.getBond id) with
  | none => return none
  | some config =>
      match ← simulateCall (.getBondState id) with
      | none => return none
      | some state =>
          let now ← dateNow
          let maturityStatus :=
            if state.status = .matured ∨ now / 1000 ≥ config.maturityDate then
              BondMaturityStatus.matured
            else .active
          return some { id, config, state, maturityStatus }

/-- A bond from the cache, or else from the ledger and then into the cache. -/
def findOne (id : Nat) : Service (Option BondResponse) := do
  match ← redisGet (.bond id) with
  | some (.bond bond) => return some bond
  | _ =>
      match ← buildBondResponse id with
      | none => return none
      | some bond =>
          redisSetEx (.bond id) (.bond bond)
          return some bond

/-- One round of the loop of `findHeldByAddress`. -/
def findHeld (address : Address) (id : Nat) : Service (Option HeldBondResponse) := do
  match ← simulateCall (.getHolderBalance id address) with
  | none => return none
  | some balance =>
      if balance = 0 then return none
      else
        match ← findOne id with
        | none => return none
        | some bond => return some { bond with balance }

/-- The bonds of which the wallet holds any. -/
def findHeldByAddress (address : Address) : Service (List HeldBondResponse) := do
  match ← simulateCall .bondCount with
  | none => return []
  | some total => Script.collect (findHeld address) (ids total)

/-- One round of the loop of `getClaimableCredits`. -/
def claimableOn (address : Address) (bond : HeldBondResponse) :
    Service (Option PortfolioClaimableCredit) := do
  match ← simulateCall (.claimableCredits bond.id address) with
  | none => return none
  | some amount => return if amount = 0 then none else some ⟨bond.id, amount⟩

/-- What the wallet could claim, on the bonds that it holds. -/
def getClaimableCredits (address : Address) : Service (List PortfolioClaimableCredit) := do
  let held ← findHeldByAddress address
  Script.collect (claimableOn address) held

/-- One round of the loop of `getRetiredCredits`. -/
def retiredBy (address : Address) (id : Nat) : Service (Option PortfolioRetiredCredit) := do
  match ← simulateCall (.getRetirementRecord id) with
  | none => return none
  | some record =>
      return if record.holder ≠ address then none
        else some ⟨record.id, record.bondId, record.amount, record.creditType, record.retiredAt⟩

/-- The retirements of the wallet, among all there are. -/
def getRetiredCredits (address : Address) : Service (List PortfolioRetiredCredit) := do
  match ← simulateCall .totalRetirements with
  | none => return []
  | some total => Script.collect (retiredBy address) (ids total)

/-! ## Orders -/

/-- An open order counts as expired from its end on, by the clock of the API. -/
def deriveEffectiveStatus (rawStatus : DexRouter.OrderStatus) (expiresAtSeconds now : Nat) :
    DexRouter.OrderStatus :=
  let isOpenState := rawStatus = .open ∨ rawStatus = .partiallyFilled
  if isOpenState ∧ now / 1000 ≥ expiresAtSeconds then .expired else rawStatus

/-- The statuses of orders come back as numbers, as the tests of the order book have
them; of an array of a name every order would count as open. -/
def orderVariants : VariantForm := .numbered

/-- The position of a status in its enum. -/
def statusPosition : DexRouter.OrderStatus → Nat
  | .open => 0
  | .partiallyFilled => 1
  | .filled => 2
  | .cancelled => 3
  | .expired => 4

def orderStatusFromIndex : Option Nat → DexRouter.OrderStatus
  | some 1 => .partiallyFilled
  | some 2 => .filled
  | some 3 => .cancelled
  | some 4 => .expired
  | _ => .open

/-- The status that the client reads from what comes back for a status. -/
def decodeStatus (status : DexRouter.OrderStatus) : DexRouter.OrderStatus :=
  orderStatusFromIndex (orderVariants.number (statusPosition status))

/-- An order as the client decodes it. -/
def decodeOrder (order : DexRouter.Order) (now : Nat) : DexRouter.Order :=
  { order with status := deriveEffectiveStatus (decodeStatus order.status) order.expiresAt now }

/-- Every status is read back as itself. -/
theorem decodeStatus_eq (status : DexRouter.OrderStatus) : decodeStatus status = status := by
  cases status <;> rfl

/-- The client's order is the ledger's, but for the end of its time. -/
theorem decodeOrder_eq (order : DexRouter.Order) (now : Nat) : decodeOrder order now =
    { order with status := deriveEffectiveStatus order.status order.expiresAt now } := by
  rw [decodeOrder, decodeStatus_eq]

/-- An order from the ledger. -/
def fetchOrderFromLedger (orderId : Nat) : Service (Option DexRouter.Order) := do
  match ← simulateCall (.getOrder orderId) with
  | none => return none
  | some order =>
      let now ← dateNow
      return some (decodeOrder order now)

/-- An order from the cache, or else from the ledger and then into the cache. -/
def getOrder (orderId : Nat) : Service (Option DexRouter.Order) := do
  match ← redisGet (.order orderId) with
  | some (.order order) => return some order
  | _ =>
      match ← fetchOrderFromLedger orderId with
      | none => return none
      | some order =>
          redisSetEx (.order orderId) (.order order)
          return some order

/-- `listOrders(undefined, undefined, 1, 1000)` -/
def listOrders : Service (Option OrdersResponse) := do
  match ← redisGet .orders with
  | some (.orders response) => return some response
  | _ =>
      match ← simulateCall .orderCount with
      | none => return none
      | some count =>
          let orders ← Script.all ((ids count).map fetchOrderFromLedger)
          let matchingOrders := orders.reduceOption
          let total := matchingOrders.length
          let response : OrdersResponse :=
            { data := matchingOrders.take 1000, page := 1, limit := 1000, total
              totalPages := if total = 0 then 1 else (total + 999) / 1000 }
          redisSetEx .orders (.orders response)
          return some response

/-- The names that the registry of quote assets knows, in capitals. -/
def normalizeQuoteAssetSymbol (symbol : Symbol) : Option Symbol :=
  if symbol.toUpper = "USDC" ∨ symbol.toUpper = "XLM" then some symbol.toUpper else none

/-- `assertOrderIsActionable`: an order whose status is open or partially filled. -/
def isActionable (order : DexRouter.Order) : Bool :=
  order.status = .open ∨ order.status = .partiallyFilled

/-- What `buyBondTokens` checks before it takes a nonce. -/
def checkPurchase (orderId : Nat) (amount maxPrice : Int) (buyerAddress : Address) :
    Service Bool := do
  match ← fetchOrderFromLedger orderId with
  | none => return false
  | some order =>
      if !isActionable order then return false
      else if amount > order.amount then return false
      else if maxPrice < order.pricePerToken then return false
      else
        match normalizeQuoteAssetSymbol order.quoteAsset with
        | none => return false
        | some quoteAsset =>
            match ← simulateCall (.getQuoteBalance buyerAddress quoteAsset) with
            | none => return false
            | some balance => return !(balance < order.pricePerToken * amount)

/-- What `cancelOrder` checks before it takes a nonce. -/
def checkCancellation (orderId : Nat) : Service Bool := do
  match ← fetchOrderFromLedger orderId with
  | none => return false
  | some order => return isActionable order

/-! ## Mutations -/

/-- The mutations of a portfolio, with what they are called with; the holders of
a coupon come from the holder index. -/
inductive Mutation
  | subscribe (id : Nat) (investorAddress : Address) (amount : Int)
  | transfer (id : Nat) (fromAddress toAddress : Address) (amount : Int)
  | claimCredits (id : Nat) (investorAddress : Address)
  | distributeCoupon (adminAddress : Address) (id periodIndex : Nat)
      (holderAddresses : List Address) (reportId : Nat)
  | listBondTokens (sellerAddress : Address) (bondId : Nat) (amount pricePerToken : Int)
      (quoteAsset : Symbol) (expiresAfterSeconds : Nat)
  | buyBondTokens (buyerAddress : Address) (orderId : Nat) (maxPrice amount : Int)
  | cancelOrder (orderId : Nat) (callerAddress : Address)
deriving DecidableEq

/-- A mutation returns, or throws. -/
inductive Outcome
  | resolved
  | thrown
deriving DecidableEq, Repr

/-- Take a nonce and submit the request. -/
def invoke (request : ApiRequest) : Service (Option Nat) := do
  if ← callThrough then invokeContractMethod request else return none

/-- The wallet subscribes; the bond's entry and the wallet's are deleted. -/
def subscribe (id : Nat) (investorAddress : Address) (amount : Int) : Service Outcome := do
  match ← invoke (.subscribe id investorAddress amount) with
  | none => return .thrown
  | some _ =>
      redisDel (.bond id)
      -- the holder index
      if ← callThrough then
        invalidatePortfolio investorAddress
        return .resolved
      else return .thrown

/-- A transfer; the entries of both wallets are deleted. -/
def transfer (id : Nat) (fromAddress toAddress : Address) (amount : Int) : Service Outcome := do
  match ← invoke (.transfer id fromAddress toAddress amount) with
  | none => return .thrown
  | some _ =>
      if ← callThrough then
        invalidatePortfolio fromAddress
        invalidatePortfolio toAddress
        return .resolved
      else return .thrown

/-- The wallet claims; its entry is deleted. -/
def claimCredits (id : Nat) (investorAddress : Address) : Service Outcome := do
  match ← invoke (.claimCredits id investorAddress) with
  | none => return .thrown
  | some _ =>
      invalidatePortfolio investorAddress
      return .resolved

/-- The nonce, the holder index and the report come before the transaction, and
nothing comes after it. -/
def distributeCoupon (adminAddress : Address) (id periodIndex : Nat)
    (holderAddresses : List Address) (reportId : Nat) : Service Outcome := do
  if ← callThrough then
    if ← callThrough then
      if ← callThrough then
        let request := .distributeCoupon adminAddress id periodIndex holderAddresses reportId
        match ← invokeContractMethod request with
        | none => return .thrown
        | some _ => return .resolved
      else return .thrown
    else return .thrown
  else return .thrown

/-- The end of a mutation of an order: what it deletes. -/
def invalidateOrder (orderId : Nat) (address : Address) : Service Unit := do
  redisDelOrders
  redisDel (.order orderId)
  redisDel (.portfolio address)

/-- `return this.getOrder(orderId)` -/
def returnOrder (orderId : Nat) : Service Outcome := do
  match ← getOrder orderId with
  | none => return .thrown
  | some _ => return .resolved

/-- The wallet lists tokens; its entry and those of the orders are deleted. -/
def listBondTokens (sellerAddress : Address) (bondId : Nat) (amount pricePerToken : Int)
    (quoteAsset : Symbol) (expiresAfterSeconds : Nat) : Service Outcome := do
  let expiresAfterSeconds := if expiresAfterSeconds = 0 then 604800 else expiresAfterSeconds
  let request :=
    .listBondTokens sellerAddress bondId amount pricePerToken quoteAsset expiresAfterSeconds
  match ← invoke request with
  | none => return .thrown
  | some orderId =>
      invalidateOrder orderId sellerAddress
      returnOrder orderId

/-- The wallet buys; its entry and those of the order are deleted, not the seller's. -/
def buyBondTokens (buyerAddress : Address) (orderId : Nat) (maxPrice amount : Int) :
    Service Outcome := do
  if ← checkPurchase orderId amount maxPrice buyerAddress then
    match ← invoke (.buyBondTokens buyerAddress orderId maxPrice amount) with
    | none => return .thrown
    | some _ =>
        invalidateOrder orderId buyerAddress
        returnOrder orderId
  else return .thrown

/-- The wallet cancels; its entry and those of the order are deleted. -/
def cancelOrder (orderId : Nat) (callerAddress : Address) : Service Outcome := do
  if ← checkCancellation orderId then
    match ← invoke (.cancelOrder orderId callerAddress) with
    | none => return .thrown
    | some _ =>
        invalidateOrder orderId callerAddress
        return .resolved
  else return .thrown

/-- What each mutation does. -/
def Mutation.script : Mutation → Service Outcome
  | subscribe id investorAddress amount => Portfolio.subscribe id investorAddress amount
  | transfer id fromAddress toAddress amount => Portfolio.transfer id fromAddress toAddress amount
  | claimCredits id investorAddress => Portfolio.claimCredits id investorAddress
  | distributeCoupon adminAddress id periodIndex holderAddresses reportId =>
      Portfolio.distributeCoupon adminAddress id periodIndex holderAddresses reportId
  | listBondTokens sellerAddress bondId amount pricePerToken quoteAsset expiresAfterSeconds =>
      Portfolio.listBondTokens sellerAddress bondId amount pricePerToken quoteAsset
        expiresAfterSeconds
  | buyBondTokens buyerAddress orderId maxPrice amount =>
      Portfolio.buyBondTokens buyerAddress orderId maxPrice amount
  | cancelOrder orderId callerAddress => Portfolio.cancelOrder orderId callerAddress

/-! ## Portfolios -/

/-- A bond that is held, as a portfolio shows it. -/
def portfolioBond (bond : HeldBondResponse) : PortfolioBond where
  id := bond.id
  balance := bond.balance
  status := bond.state.status
  maturityStatus := bond.maturityStatus
  maturityDate := bond.config.maturityDate

/-- An order, as a portfolio shows it. -/
def portfolioListing (order : DexRouter.Order) : PortfolioListing where
  id := order.id
  bondId := order.bondId
  amount := order.amount
  pricePerToken := order.pricePerToken
  quoteAsset := order.quoteAsset
  status := order.status
  createdAt := order.createdAt

/-- What there is to do: claims, bonds that have come to maturity, and open listings. -/
def pendingActions (bondsHeld : List PortfolioBond) (openListings : List PortfolioListing)
    (claimableCredits : List PortfolioClaimableCredit) (now : Nat) :
    List PortfolioPendingAction :=
  (claimableCredits.map fun credit => ⟨.couponClaim, credit.bondId, none⟩) ++
  ((bondsHeld.filter fun bond =>
      bond.maturityStatus = .active ∧ bond.maturityDate * 1000 > now).map fun bond =>
    ⟨.maturity, bond.id, some "Bond approaching maturity"⟩) ++
  openListings.map fun listing =>
    ⟨.openListing, listing.bondId, some ("Listing #" ++ toString listing.id)⟩

/-- The aggregate of what the four services return, built at the time `now`. -/
def aggregate (address : Address) (held : List HeldBondResponse) (orders : List DexRouter.Order)
    (claimable : List PortfolioClaimableCredit) (retired : List PortfolioRetiredCredit)
    (now : Nat) : PortfolioResponse :=
  let bondsHeld := held.map portfolioBond
  let openListings := (orders.filter fun order =>
    order.seller = address ∧ isActionable order).map portfolioListing
  let claimableCredits := claimable.filter fun credit => credit.amount > 0
  { address, bondsHeld, openListings, claimableCredits, retiredCredits := retired
    pendingActions := pendingActions bondsHeld openListings claimableCredits now
    generatedAt := now }

/-- The rebuild: the four services side by side, and the answer is cached. -/
def rebuildPortfolio (address : Address) : Service PortfolioResponse := do
  let ((held, listings), claimable, retired) ←
    Script.pair (Script.pair (findHeldByAddress address) listOrders)
      (Script.pair (getClaimableCredits address) (getRetiredCredits address))
  let now ← dateNow
  let orders := (listings.map OrdersResponse.data).getD []
  let result := aggregate address held orders claimable retired now
  redisSetEx (.portfolio address) (.portfolio result)
  return result

/-- The portfolio from the cache unless it is asked for afresh, or else a new one. -/
def getPortfolio (address : Address) (force : Bool) : Service PortfolioResponse := do
  if force then rebuildPortfolio address
  else
    match ← redisGet (.portfolio address) with
    | some (.portfolio response) => return response
    | _ => rebuildPortfolio address

/-! ## The API -/

/-- What may be asked of the API. -/
inductive Request
  | getPortfolio (address : Address) (force : Bool)
  | mutate (mutation : Mutation)
deriving DecidableEq

/-- What each request returns. -/
def Request.Response : Request → Type
  | getPortfolio _ _ => PortfolioResponse
  | mutate _ => Outcome

/-- What each request does. -/
def Request.script : (request : Request) → Service request.Response
  | getPortfolio address force => Portfolio.getPortfolio address force
  | mutate mutation => mutation.script

/-- The API serving portfolios and mutations, while anybody may send
transactions of their own, entries expire, and deletions arrive. -/
def api := program backend Request.script

/-- A request under way. -/
abbrev ApiTask := Task Request.Response CacheKey CacheData ApiRequest Nat Query

/-- The requests under way, with the cache and the chain between them. -/
abbrev PortfolioPool := Pool (Cached Chain CacheKey CacheData) ApiTask

/-- A step of one request, a new request, or something from outside. -/
abbrev PortfolioAction :=
  PoolAction Request (Choice (TxContext × Nat)) (Outside CacheKey (TxContext × ChainCall))

/-- A step of the API as it was made. -/
abbrev PortfolioEvent := Event PortfolioPool PortfolioAction Unit

/-- The API after a schedule. -/
abbrev runApi (chain : Chain) (schedule : List PortfolioAction) : PortfolioPool :=
  api.run (.initial chain) schedule

/-- The steps of a schedule. -/
abbrev logApi (chain : Chain) (schedule : List PortfolioAction) : List PortfolioEvent :=
  api.log (.initial chain) schedule

/-- How a mutation ended. -/
def ApiTask.outcome : ApiTask → Option Outcome
  | ⟨.getPortfolio _ _, _⟩ => none
  | ⟨.mutate _, running⟩ => running.result.map Prod.fst

/-- What a portfolio call answered, with the versions at which the data in it was read. -/
def ApiTask.answer : ApiTask → Option (PortfolioResponse × List Nat)
  | ⟨.getPortfolio _ _, running⟩ => running.result
  | ⟨.mutate _, _⟩ => none

/-- The wallet's bonds, listings or claimable credits are different. -/
def Changes (wallet : Address) (before after : Chain) : Prop :=
  (∃ bondId, BondIssuer.getHolderBalance before.world.issuer bondId wallet ≠
      BondIssuer.getHolderBalance after.world.issuer bondId wallet) ∨
  (∃ orderId, ((before.world.dex.order.get orderId).filter fun order => order.seller = wallet) ≠
      (after.world.dex.order.get orderId).filter fun order => order.seller = wallet) ∨
  ∃ bondId, CouponEngine.claimableCredits before.world.engine bondId wallet ≠
      CouponEngine.claimableCredits after.world.engine bondId wallet

/-- A mutation has ended whose transaction changed the wallet, and took the chain
to version `n`. -/
def ReturnedChange (chain : Chain) (schedule : List PortfolioAction) (wallet : Address)
    (n : Nat) : Prop :=
  ∃ before id choice after, schedule = before ++ .resume id choice :: after ∧
    Changes wallet (runApi chain before).shared.world
      (runApi chain (before ++ [.resume id choice])).shared.world ∧
    (runApi chain (before ++ [.resume id choice])).shared.version = n ∧
    (((runApi chain schedule).tasks.get id).bind ApiTask.outcome).isSome

/-- The keys behind which a wallet's portfolio lies. -/
def CacheKey.Serves (wallet : Address) : CacheKey → Prop
  | portfolio address => address = wallet
  | orders => True
  | bond _ => True
  | order _ => False

instance (wallet : Address) : DecidablePred (CacheKey.Serves wallet) := by
  intro key
  cases key <;> unfold CacheKey.Serves <;> infer_instance

/-! ## Where a portfolio looks -/

section

open Script

variable {wallet : Address}

/-- A read of the ledger looks at no entry. -/
theorem finds_simulateCall {α : Type} (question : Query α) :
    (simulateCall question).Finds (CacheKey.Serves wallet) := fun _ => trivial

/-- A look at the clock looks at no entry. -/
theorem finds_dateNow : dateNow.Finds (CacheKey.Serves wallet) := fun _ => trivial

/-- A read of the cache looks at its entry alone. -/
theorem finds_redisGet {key : CacheKey} (h : key.Serves wallet) :
    (redisGet key).Finds (CacheKey.Serves wallet) := ⟨h, fun _ => trivial⟩

/-- A write to the cache looks at no entry. -/
theorem finds_redisSetEx (key : CacheKey) (data : CacheData) :
    (redisSetEx key data).Finds (CacheKey.Serves wallet) := trivial

/-- Building a bond looks at no entry. -/
theorem finds_buildBondResponse (id : Nat) :
    (buildBondResponse id).Finds (CacheKey.Serves wallet) := by
  refine finds_bind (finds_simulateCall _) fun config => ?_
  cases config with
  | none => exact finds_pure _
  | some config =>
      refine finds_bind (finds_simulateCall _) fun state => ?_
      cases state with
      | none => exact finds_pure _
      | some state => exact finds_bind finds_dateNow fun now => finds_pure _

/-- A bond comes from its own entry. -/
theorem finds_findOne (id : Nat) : (findOne id).Finds (CacheKey.Serves wallet) := by
  refine finds_bind (finds_redisGet trivial) fun cached => ?_
  have hbuild : (buildBondResponse id >>= fun bond =>
      match bond with
      | none => pure none
      | some bond => do
          redisSetEx (.bond id) (.bond bond)
          pure (some bond)).Finds (CacheKey.Serves wallet) := by
    refine finds_bind (finds_buildBondResponse id) fun bond => ?_
    cases bond with
    | none => exact finds_pure _
    | some bond => exact finds_bind (finds_redisSetEx _ _) fun _ => finds_pure _
  split
  · exact finds_pure _
  · exact hbuild

/-- The bonds that are held come from their own entries. -/
theorem finds_findHeldByAddress :
    (findHeldByAddress wallet).Finds (CacheKey.Serves wallet) := by
  refine finds_bind (finds_simulateCall _) fun total => ?_
  cases total with
  | none => exact finds_pure _
  | some total =>
      refine finds_collect fun id _ => finds_bind (finds_simulateCall _) fun balance => ?_
      cases balance with
      | none => exact finds_pure _
      | some balance =>
          dsimp only
          split
          · exact finds_pure _
          · refine finds_bind (finds_findOne id) fun bond => ?_
            cases bond <;> exact finds_pure _

/-- The list of orders comes from its own entry. -/
theorem finds_listOrders : listOrders.Finds (CacheKey.Serves wallet) := by
  refine finds_bind (finds_redisGet trivial) fun cached => ?_
  split
  · exact finds_pure _
  · refine finds_bind (finds_simulateCall _) fun count => ?_
    cases count with
    | none => exact finds_pure _
    | some count =>
        refine finds_bind (finds_all ?_) fun orders =>
          finds_bind (finds_redisSetEx _ _) fun _ => finds_pure _
        rw [List.forall_mem_map]
        intro id _
        refine finds_bind (finds_simulateCall _) fun order => ?_
        cases order with
        | none => exact finds_pure _
        | some order => exact finds_bind finds_dateNow fun now => finds_pure _

/-- The claims come from the entries of the bonds. -/
theorem finds_getClaimableCredits :
    (getClaimableCredits wallet).Finds (CacheKey.Serves wallet) := by
  refine finds_bind finds_findHeldByAddress fun held => finds_collect fun bond _ => ?_
  refine finds_bind (finds_simulateCall _) fun amount => ?_
  cases amount <;> exact finds_pure _

/-- The retirements come from no entry. -/
theorem finds_getRetiredCredits :
    (getRetiredCredits wallet).Finds (CacheKey.Serves wallet) := by
  refine finds_bind (finds_simulateCall _) fun total => ?_
  cases total with
  | none => exact finds_pure _
  | some total =>
      refine finds_collect fun id _ => finds_bind (finds_simulateCall _) fun record => ?_
      cases record <;> exact finds_pure _

/-- A portfolio is looked up under the wallet's own key, and rebuilt through the
order list and the bonds. -/
theorem finds_getPortfolio (force : Bool) :
    (getPortfolio wallet force).Finds (CacheKey.Serves wallet) := by
  have hrebuild : (rebuildPortfolio wallet).Finds (CacheKey.Serves wallet) := by
    refine finds_bind (finds_pair (finds_pair finds_findHeldByAddress finds_listOrders)
      (finds_pair finds_getClaimableCredits finds_getRetiredCredits)) fun parts => ?_
    exact finds_bind finds_dateNow fun now =>
      finds_bind (finds_redisSetEx _ _) fun _ => finds_pure _
  unfold getPortfolio
  split
  · exact hrebuild
  · refine finds_bind (finds_redisGet rfl) fun cached => ?_
    split
    · exact finds_pure _
    · exact hrebuild

end

/-! ## Whole runs -/

/-- A mutation that has returned changed the chain before now. -/
theorem ReturnedChange.le_version {chain : Chain} {schedule : List PortfolioAction}
    {wallet : Address} {n : Nat} (h : ReturnedChange chain schedule wallet n) :
    n ≤ (runApi chain schedule).shared.version := by
  obtain ⟨before, id, choice, after, hsplit, -, hversion, -⟩ := h
  have happend : schedule = (before ++ [.resume id choice]) ++ after := by
    rw [hsplit, List.append_assoc, List.singleton_append]
  rw [← hversion, happend]
  exact version_le_run (Cached.initial chain) _ after

/-- **A portfolio is never stale after a mutation whose effect on the cache has
come through.**  Suppose a mutation has returned that changed the wallet and took
the chain to version `n`, and a `getPortfolio` call starts.  If every entry the
call finds was refreshed since `n`, and no such entry of the wallet is
overwritten by older data, then nothing in its answer was read before `n`. -/
theorem fresh_after_refresh (chain : Chain) (pre later : List PortfolioAction) (id : Nat)
    (wallet : Address) (force : Bool) (n : Nat) (hchange : ReturnedChange chain pre wallet n)
    (hnew : (runApi chain pre).tasks.get id = none)
    (huses : ∀ e ∈ logApi chain (pre ++ .start id (.getPortfolio wallet force) :: later),
      UsesRefreshed (CacheKey.Serves wallet) id n e) :
    ∀ response reads,
      ((runApi chain (pre ++ .start id (.getPortfolio wallet force) :: later)).tasks.get id).bind
        ApiTask.answer = some (response, reads) → ∀ v ∈ reads, n ≤ v := by
  intro response reads hanswer v hv
  obtain ⟨running, hget, hfresh⟩ := reads_fresh chain pre later (finds_getPortfolio force)
    hchange.le_version hnew huses
  have hresult : running.result = some (response, reads) := by
    have hbind := congrArg (Option.bind · ApiTask.answer) hget
    exact hbind.symm.trans hanswer
  refine hfresh v ?_
  rwa [Running.allReads_of_result hresult]

/-- The protocol sample, before its coupon is distributed. -/
def sampleChain : Chain :=
  { launch sampleDeployment 106 0 with world := machine.run (deploy sampleDeployment) reportedBond }

def sampleReply : Reply (TxContext × Nat) := ⟨true, 5000, ⟨5, [0], none, false⟩, 1⟩

/-- As many steps of one part of a call as it takes. -/
def steps (id : Nat) (part : Choice (TxContext × Nat) → Choice (TxContext × Nat)) (count : Nat) :
    List PortfolioAction :=
  List.replicate count (.resume id (part (.own sampleReply)))

/-- The coupon of the sample's bond goes to account 1. -/
def couponDistributed (id : Nat) : List PortfolioAction :=
  .start id (.mutate (.distributeCoupon 0 1 0 [1] 1)) :: steps id (fun c => c) 4

/-- A rebuild, one part after the other. -/
def rebuilt (id : Nat) : List PortfolioAction :=
  steps id (fun c => c) 2 ++ steps id .left 1 ++ steps id .right 1 ++
    steps id (fun c => .left (.left c)) 12 ++ steps id (fun c => .left (.right c)) 12 ++
    steps id (fun c => .right (.left c)) 12 ++ steps id (fun c => .right (.right c)) 12 ++
    steps id .left 1 ++ steps id .right 1 ++ steps id (fun c => c) 4

/-- The coupon is distributed, and the portfolio is built for the first time. -/
theorem fresh_after_refresh_sample :
    ∃ response reads,
      ((runApi sampleChain (couponDistributed 0 ++ .start 1 (.getPortfolio 1 false) ::
        rebuilt 1)).tasks.get 1).bind ApiTask.answer = some (response, reads) ∧
      ∀ v ∈ reads, 1 ≤ v := by
  have hanswered : (((runApi sampleChain (couponDistributed 0 ++
      .start 1 (.getPortfolio 1 false) :: rebuilt 1)).tasks.get 1).bind
        ApiTask.answer).isSome = true := by
    decide +kernel
  obtain ⟨⟨response, reads⟩, hanswer⟩ := Option.isSome_iff_exists.mp hanswered
  refine ⟨response, reads, hanswer, fresh_after_refresh sampleChain (couponDistributed 0)
    (rebuilt 1) 1 1 false 1 ?_ (Option.isNone_iff_eq_none.mp (by decide +kernel))
    (by decide +kernel) response reads hanswer⟩
  exact ⟨(couponDistributed 0).take 4, 0, .own sampleReply, [], rfl,
    Or.inr (Or.inr ⟨1, by decide +kernel⟩), by decide +kernel, by decide +kernel⟩

/-- The portfolio of account 1 is cached, the coupon is distributed to it, and
the next call finds the cached portfolio, in which everything was read before. -/
theorem stale_after_coupon :
    ¬ ∀ (chain : Chain) (pre later : List PortfolioAction) (id : Nat) (wallet : Address)
      (force : Bool) (n : Nat), ReturnedChange chain pre wallet n →
      (runApi chain pre).tasks.get id = none →
      ∀ response reads,
        ((runApi chain (pre ++ .start id (.getPortfolio wallet force) :: later)).tasks.get id).bind
          ApiTask.answer = some (response, reads) → ∀ v ∈ reads, n ≤ v := by
  intro h
  have hcached := h sampleChain
    ((.start 1 (.getPortfolio 1 false) :: rebuilt 1) ++ couponDistributed 0)
    (steps 2 (fun c => c) 1) 2 1 false 1
    ⟨(.start 1 (.getPortfolio 1 false) :: rebuilt 1) ++ (couponDistributed 0).take 4, 0,
      .own sampleReply, [], rfl, Or.inr (Or.inr ⟨1, by decide +kernel⟩), by decide +kernel,
      by decide +kernel⟩ (Option.isNone_iff_eq_none.mp (by decide +kernel))
  have hreads : (((runApi sampleChain (((.start 1 (.getPortfolio 1 false) :: rebuilt 1) ++
      couponDistributed 0) ++ .start 2 (.getPortfolio 1 false) ::
        steps 2 (fun c => c) 1)).tasks.get 2).bind ApiTask.answer).map Prod.snd =
      some (List.replicate 13 0) := by
    decide +kernel
  obtain ⟨⟨response, reads⟩, hanswer, hzero⟩ := Option.map_eq_some_iff.mp hreads
  have hsame : reads = List.replicate 13 0 := hzero
  have hstale := hcached response reads hanswer 0 (by rw [hsame]; decide)
  omega

end EcoMint.Portfolio
