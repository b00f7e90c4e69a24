import EcoMint.BondIssuer
import EcoMint.OracleConsumer

/-!
# The coupon engine contract

The storage and entry points of `contracts/coupon-engine`.  The engine reads
bond configurations, balances and totals from the bond issuer and reports from
the oracle consumer, each at an address fixed when the engine was deployed.

A period of a bond is paid in batches.  One batch pays the holders at positions
`offset, …, offset + limit - 1` of the list passed with the call, and only a
numeric cursor connects it with the batch before.
-/

namespace EcoMint.CouponEngine

open Fallible IntRange

/-- The scale of the credits for each token. -/
def FIXED_POINT : Int := 10000000

/-- The carbon that makes one credit. -/
def CREDIT_DIVISOR : Int := 1000

/-- The minor units of a credit. -/
def CREDIT_MINOR_UNITS : Int := 1000000

/-- Minor units of credit for a unit of habitat. -/
def HABITAT_CREDIT_RATE : Int := 1000000

/-- Minor units of credit for a unit of species. -/
def SPECIES_CREDIT_RATE : Int := 100000

/-- Minor units of credit for a biodiversity unit. -/
def UNIT_CREDIT_RATE : Int := 1000000

/-- The most holders that one batch pays. -/
def MAX_COUPON_BATCH_SIZE : Nat := 100

/-- What is known about a period of a bond: its report, its credits and what of them
nobody got. -/
structure PeriodInfo where
  periodIndex : Nat
  startTime : Nat
  endTime : Nat
  totalCreditsEarned : Int
  distributed : Bool
  reportId : Nat
  undistributed : Int
deriving DecidableEq, Repr

/-- What a batch returns. -/
structure CouponResult where
  bondId : Nat
  periodIndex : Nat
  totalCredits : Int
  holderCount : Nat
  creditsPerToken : Int
deriving DecidableEq, Repr

/-- A part of the accrued credits, with the period and report that it comes from. -/
structure ClaimableCreditDetail where
  periodIndex : Nat
  reportId : Nat
  startTime : Nat
  endTime : Nat
  creditType : CreditType
  amount : Int
deriving DecidableEq, Repr

/-- Contract storage, one field per `DataKey` that some entry point reads. -/
structure State where
  admin : Option Address
  periodInfo : Storage (Nat × Nat) PeriodInfo
  periodBatchCursor : Storage (Nat × Nat) Nat
  periodCount : Storage Nat Nat
  accruedCredits : Storage (Nat × Address) Int
  accruedCreditsByType : Storage (Nat × Address × CreditType) Int
  bondProject : Storage Nat (BytesN 32)
  bondCreditType : Storage Nat CreditType
  undistributedTotal : Storage Nat Int
  bondIssuerAddress : Option Address
  oracleConsumerAddress : Option Address
  nonce : Storage Address Nat
  periodHolder : Storage (Nat × Nat × Address × CreditType) Int
deriving DecidableEq

/-- The contracts the engine can call: what is deployed at each address. -/
structure Peers where
  issuerAt : Address → Option BondIssuer.State
  oracleAt : Address → Option OracleConsumer.State

/-- The caller is the administrator. -/
def requireAdmin (s : State) (caller : Address) : Fallible BondError Unit :=
  checkAdmin s.admin caller .notInitialized .unauthorized

/-- The nonce is the caller's next one, and is used up. -/
def consumeNonce (s : State) (addr : Address) (nonce : Nat) : Fallible BondError State := do
  let nonces ← useNonce s.nonce addr nonce .invalidNonce
  return { s with nonce := nonces }

/-- The biodiversity credits of a report, with saturation where they are too many. -/
def computeBiodiversityCredits : BiodiversityMetrics → Int
  | .absent => 0
  | .present habitat species units =>
      i128.saturatingDiv
        (i128.saturatingMul
          (i128.saturatingAdd
            (i128.saturatingAdd
              (i128.saturatingMul habitat HABITAT_CREDIT_RATE)
              (i128.saturatingMul species SPECIES_CREDIT_RATE))
            (i128.saturatingMul units UNIT_CREDIT_RATE))
          CREDIT_MINOR_UNITS)
        HABITAT_CREDIT_RATE

/-- `value * multiplier / divisor`, refused where the divisor is not positive or a step
overflows. -/
def checkedRatio (value multiplier divisor : Int) : Fallible BondError Int := do
  rejectIf (divisor ≤ 0) .overflow
  let product ← okOr (i128.checkedMul value multiplier) .overflow
  okOr (i128.checkedDiv product divisor) .overflow

/-- The holder occurs in the list before position `endExclusive`. -/
def appearsBefore (holders : List Address) (holder : Address) (endExclusive : Nat) : Bool :=
  (holders.take endExclusive).contains holder

/-- A holder gets credits of one type for a period. -/
def accrueCredits (s : State) (bondId periodIndex : Nat) (holder : Address)
    (creditType : CreditType) (amount : Int) : Fallible BondError State := do
  let byType := s.accruedCreditsByType.read (bondId, holder, creditType)
  let byType ← okOr (i128.checkedAdd byType amount) .overflow
  let periodAmount := s.periodHolder.read (bondId, periodIndex, holder, creditType)
  let periodAmount ← okOr (i128.checkedAdd periodAmount amount) .overflow
  let combined := s.accruedCredits.read (bondId, holder)
  let combined ← okOr (i128.checkedAdd combined amount) .overflow
  return { s with
    accruedCreditsByType := s.accruedCreditsByType.set (bondId, holder, creditType) byType
    periodHolder := s.periodHolder.set (bondId, periodIndex, holder, creditType) periodAmount
    accruedCredits := s.accruedCredits.set (bondId, holder) combined }

/-- What a holder accrued in a period is forgotten. -/
def clearPeriodHolder (s : State) (bondId periodIndex : Nat) (holder : Address)
    (creditType : CreditType) : State :=
  { s with periodHolder := s.periodHolder.set (bondId, periodIndex, holder, creditType) 0 }

/-- What a holder accrued of a type is forgotten. -/
def clearAccrued (s : State) (bondId : Nat) (holder : Address) (creditType : CreditType) :
    State :=
  { s with
    accruedCreditsByType := s.accruedCreditsByType.set (bondId, holder, creditType) 0 }

/-! ## Distributing a batch -/

/-- What a report is worth for a credit type: carbon and biodiversity credits. -/
def creditTotals (creditType : CreditType) (report : OracleConsumer.Report) :
    Fallible BondError (Int × Int) := do
  let whole ← okOr (i128.checkedDiv report.carbonSequestered CREDIT_DIVISOR) .overflow
  let carbonTotal ← okOr (i128.checkedMul whole CREDIT_MINOR_UNITS) .overflow
  match creditType with
  | .carbon | .blueCarbon => return (carbonTotal, 0)
  | .biodiversity => do
      rejectIf (report.biodiversity = .absent) .invalidReport
      return (0, computeBiodiversityCredits report.biodiversity)
  | .basket => do
      rejectIf (report.biodiversity = .absent) .invalidReport
      return (carbonTotal, computeBiodiversityCredits report.biodiversity)

/-- Credits for one token, scaled by `FIXED_POINT`. -/
def perToken (total totalSubscribed : Int) : Fallible BondError Int :=
  if totalSubscribed > 0 ∧ total > 0 then checkedRatio total FIXED_POINT totalSubscribed
  else return 0

/-- The three scaled rates of a batch. -/
structure Rates where
  creditsPerToken : Int
  carbonPerToken : Int
  biodiversityPerToken : Int
deriving DecidableEq, Repr

/-- What the holder loop carries: the storage, the credits paid, the holders paid. -/
structure Payments where
  state : State
  totalHolderCredits : Int
  holderCount : Nat

/-- Pay a holder in one credit type. -/
def paySingle (bondId periodIndex : Nat) (holder : Address) (creditType : CreditType)
    (creditsPerToken balance : Int) (paid : Payments) : Fallible BondError Payments := do
  let holderCredits ← checkedRatio creditsPerToken balance FIXED_POINT
  if holderCredits > 0 then
    let total ← okOr (i128.checkedAdd paid.totalHolderCredits holderCredits) .overflow
    let state ← accrueCredits paid.state bondId periodIndex holder creditType holderCredits
    return ⟨state, total, paid.holderCount + 1⟩
  else return paid

/-- Accrue a part of a basket payment when there is one. -/
def accruePositive (s : State) (bondId periodIndex : Nat) (holder : Address)
    (creditType : CreditType) (amount : Int) : Fallible BondError State :=
  if amount > 0 then accrueCredits s bondId periodIndex holder creditType amount
  else return s

/-- Pay a holder both parts of a basket. -/
def payBasket (bondId periodIndex : Nat) (holder : Address)
    (carbonPerToken biodiversityPerToken balance : Int) (paid : Payments) :
    Fallible BondError Payments := do
  let carbonHolder ← checkedRatio carbonPerToken balance FIXED_POINT
  let biodiversityHolder ← checkedRatio biodiversityPerToken balance FIXED_POINT
  let holderCredits ← okOr (i128.checkedAdd carbonHolder biodiversityHolder) .overflow
  if holderCredits > 0 then
    let total ← okOr (i128.checkedAdd paid.totalHolderCredits holderCredits) .overflow
    let state ← accruePositive paid.state bondId periodIndex holder .carbon carbonHolder
    let state ←
      accruePositive state bondId periodIndex holder .biodiversity biodiversityHolder
    return ⟨state, total, paid.holderCount + 1⟩
  else return paid

/-- Pay one holder, by the credit type of the bond. -/
def payHolder (creditType : CreditType) (rates : Rates) (bondId periodIndex : Nat)
    (holder : Address) (balance : Int) (paid : Payments) : Fallible BondError Payments :=
  match creditType with
  | .carbon | .blueCarbon =>
      paySingle bondId periodIndex holder .carbon rates.creditsPerToken balance paid
  | .biodiversity =>
      paySingle bondId periodIndex holder .biodiversity rates.creditsPerToken balance paid
  | .basket =>
      payBasket bondId periodIndex holder rates.carbonPerToken rates.biodiversityPerToken
        balance paid

/-- Pay one holder, unless the holder has no tokens. -/
def payIfHolding (creditType : CreditType) (rates : Rates) (bondId periodIndex : Nat)
    (holder : Address) (balance : Int) (paid : Payments) : Fallible BondError Payments :=
  if balance > 0 then payHolder creditType rates bondId periodIndex holder balance paid
  else return paid

/-- The loop `while i < end`, with `remaining = end - i`. -/
def payHolders (issuer : BondIssuer.State) (creditType : CreditType) (rates : Rates)
    (bondId periodIndex : Nat) (holders : List Address) :
    (remaining i : Nat) → Payments → Fallible BondError Payments
  | 0, _, paid => return paid
  | remaining + 1, i, paid => do
      let holder ← okOr holders[i]? .overflow
      rejectIf (appearsBefore holders holder i = true) .overflow
      let balance := BondIssuer.getHolderBalance issuer bondId holder
      let paid ← payIfHolding creditType rates bondId periodIndex holder balance paid
      payHolders issuer creditType rates bondId periodIndex holders remaining (i + 1) paid

/-- The period of a batch must not be complete, nor be backed by another report. -/
def checkPeriod (existing : Option PeriodInfo) (reportId : Nat) : Fallible BondError Unit :=
  match existing with
  | none => return ()
  | some info => do
      rejectIf (info.distributed = true) .overflow
      rejectIf (info.reportId ≠ reportId) .invalidReport

/-- The batch must be the next slice of the list; returns its end. -/
def checkSlice (cursor offset limit holderLen : Nat) : Fallible BondError Nat := do
  rejectIf (limit > MAX_COUPON_BATCH_SIZE ∨ offset > holderLen) .overflow
  let end' ← okOr (u32.checkedAddNat offset limit) .overflow
  rejectIf (end' > holderLen) .overflow
  rejectIf (offset ≠ cursor) .overflow
  return end'

/-- What a period leaves undistributed: nothing before its last batch. -/
def undistributedRest (batchComplete : Bool) (totalCredits cumulativeHolderCredits : Int) :
    Fallible BondError Int :=
  if batchComplete then okOr (i128.checkedSub totalCredits cumulativeHolderCredits) .overflow
  else return 0

/-- Add what a complete period did not pay out to the bond's pool. -/
def poolUndistributed (s : State) (bondId : Nat) (undistributed : Int) :
    Fallible BondError State :=
  if undistributed > 0 then do
    let newTotal ←
      okOr (i128.checkedAdd (s.undistributedTotal.read bondId) undistributed) .overflow
    return { s with undistributedTotal := s.undistributedTotal.set bondId newTotal }
  else return s

/-- Record a batch that ended at position `end'`: the period, the cursor and,
once the whole list is paid, the undistributed rest and the period count. -/
def recordBatch (s : State) (bondId periodIndex : Nat) (report : OracleConsumer.Report)
    (reportId : Nat) (totalCredits paid : Int) (end' holderLen : Nat) :
    Fallible BondError (PeriodInfo × State) := do
  let existing := s.periodInfo.get (bondId, periodIndex)
  let previousCredits := (existing.map PeriodInfo.totalCreditsEarned).getD 0
  let cumulativeHolderCredits ← okOr (i128.checkedAdd previousCredits paid) .overflow
  let batchComplete := decide (end' = holderLen)
  let undistributed ← undistributedRest batchComplete totalCredits cumulativeHolderCredits
  let periodInfo : PeriodInfo :=
    { periodIndex, startTime := report.periodStart, endTime := report.periodEnd
      totalCreditsEarned := cumulativeHolderCredits, distributed := batchComplete
      reportId, undistributed }
  let s := { s with
    periodInfo := s.periodInfo.set (bondId, periodIndex) periodInfo
    periodBatchCursor := s.periodBatchCursor.set (bondId, periodIndex) end' }
  if batchComplete then
    let s ← poolUndistributed s bondId undistributed
    return (periodInfo,
      { s with periodCount := s.periodCount.set bondId (s.periodCount.read bondId + 1) })
  else
    return (periodInfo, s)

/-! ## Entry points -/

/-- The engine as it is deployed: an administrator and the addresses of the two
contracts that it asks. -/
def constructor (admin bondIssuerAddress oracleConsumerAddress : Address) : State where
  admin := some admin
  periodInfo := ∅
  periodBatchCursor := ∅
  periodCount := ∅
  accruedCredits := ∅
  accruedCreditsByType := ∅
  bondProject := ∅
  bondCreditType := ∅
  undistributedTotal := ∅
  bondIssuerAddress := some bondIssuerAddress
  oracleConsumerAddress := some oracleConsumerAddress
  nonce := ∅
  periodHolder := ∅

/-- The administrator enters a bond of the issuer with a project and the bond's credit
type. -/
def registerBond (env : Env) (peers : Peers) (s : State) (caller : Address) (bondId : Nat)
    (projectId : BytesN 32) (nonce : Nat) : Fallible BondError State := do
  env.requireAuth caller
  let s ← consumeNonce s caller nonce
  requireAdmin s caller
  let bondIssuer ← okOr s.bondIssuerAddress .notInitialized
  let issuer ← orTrap (peers.issuerAt bondIssuer)
  let config ← invoke (BondIssuer.getBond issuer bondId)
  return { s with
    bondProject := s.bondProject.set bondId projectId
    bondCreditType := s.bondCreditType.set bondId config.creditType }

/-- The administrator pays a slice of a holder list for a period, from where the last
batch of the period stopped. -/
def distributeCouponBatch (env : Env) (peers : Peers) (s : State) (caller : Address)
    (bondId periodIndex : Nat) (holders : List Address) (reportId offset limit nonce : Nat) :
    Fallible BondError (CouponResult × State) := do
  env.requireAuth caller
  let s ← consumeNonce s caller nonce
  requireAdmin s caller
  let projectId ← okOr (s.bondProject.get bondId) .bondNotFound
  let oracleConsumer ← okOr s.oracleConsumerAddress .notInitialized
  let oracle ← orTrap (peers.oracleAt oracleConsumer)
  let report ← invoke (OracleConsumer.getReport oracle reportId)
  rejectIf (report.status ≠ .verified) .reportNotVerified
  rejectIf (report.projectId ≠ projectId) .bondNotFound
  checkPeriod (s.periodInfo.get (bondId, periodIndex)) reportId
  let bondIssuer ← orTrap s.bondIssuerAddress
  let creditType ← okOr (s.bondCreditType.get bondId) .bondNotFound
  let (carbonTotal, biodiversityTotal) ← creditTotals creditType report
  let totalCredits ← okOr (i128.checkedAdd carbonTotal biodiversityTotal) .overflow
  let issuer ← orTrap (peers.issuerAt bondIssuer)
  let totalSubscribed ← invoke (BondIssuer.totalSubscribed issuer bondId)
  let creditsPerToken ← perToken totalCredits totalSubscribed
  let carbonPerToken ← perToken carbonTotal totalSubscribed
  let biodiversityPerToken ← perToken biodiversityTotal totalSubscribed
  let cursor := s.periodBatchCursor.read (bondId, periodIndex)
  let end' ← checkSlice cursor offset limit holders.length
  let paid ← payHolders issuer creditType ⟨creditsPerToken, carbonPerToken, biodiversityPerToken⟩
    bondId periodIndex holders (end' - offset) offset ⟨s, 0, 0⟩
  let (periodInfo, s) ← recordBatch paid.state bondId periodIndex report reportId totalCredits
    paid.totalHolderCredits end' holders.length
  return ({
    bondId, periodIndex, totalCredits := periodInfo.totalCreditsEarned
    holderCount := paid.holderCount, creditsPerToken }, s)

/-- The whole list in one batch. -/
def distributeCoupon (env : Env) (peers : Peers) (s : State) (caller : Address)
    (bondId periodIndex : Nat) (holders : List Address) (reportId nonce : Nat) :
    Fallible BondError (CouponResult × State) :=
  distributeCouponBatch env peers s caller bondId periodIndex holders reportId 0 holders.length
    nonce

/-- Clear what a claim pays out, by the credit type of the bond. -/
def clearByType (s : State) (bondId : Nat) (caller : Address) : State :=
  match s.bondCreditType.get bondId with
  | some .carbon | some .blueCarbon => clearAccrued s bondId caller .carbon
  | some .biodiversity => clearAccrued s bondId caller .biodiversity
  | some .basket =>
      clearAccrued (clearAccrued s bondId caller .carbon) bondId caller .biodiversity
  | none => s

/-- The loop over the bond's counted periods in `claim_credits`. -/
def clearPeriods (bondId : Nat) (caller : Address) (s : State) : List Nat → State
  | [] => s
  | periodIndex :: rest =>
      clearPeriods bondId caller
        (clearPeriodHolder (clearPeriodHolder s bondId periodIndex caller .carbon)
          bondId periodIndex caller .biodiversity) rest

/-- A holder takes what it has accrued on a bond. -/
def claimCredits (env : Env) (s : State) (caller : Address) (bondId nonce : Nat) :
    Fallible BondError (Int × State) := do
  env.requireAuth caller
  let s ← consumeNonce s caller nonce
  let accrued := s.accruedCredits.read (bondId, caller)
  let s := { s with accruedCredits := s.accruedCredits.set (bondId, caller) 0 }
  if accrued > 0 then
    return (accrued, clearPeriods bondId caller (clearByType s bondId caller)
      (List.range (s.periodCount.read bondId)))
  else
    return (accrued, s)

/-- The administrator takes what was left over on a bond. -/
def sweepUndistributed (env : Env) (s : State) (caller : Address) (bondId nonce : Nat) :
    Fallible BondError (Int × State) := do
  env.requireAuth caller
  let s ← consumeNonce s caller nonce
  requireAdmin s caller
  let total := s.undistributedTotal.read bondId
  return (total, { s with undistributedTotal := s.undistributedTotal.set bondId 0 })

/-- The administrator hands over to another one. -/
def setAdmin (env : Env) (s : State) (currentAdmin newAdmin : Address) (nonce : Nat) :
    Fallible BondError State := do
  env.requireAuth currentAdmin
  let s ← consumeNonce s currentAdmin nonce
  requireAdmin s currentAdmin
  return { s with admin := some newAdmin }

/-! ## Views -/

/-- What a holder has accrued on a bond. -/
def getAccruedCredits (s : State) (bondId : Nat) (holder : Address) : Int :=
  s.accruedCredits.read (bondId, holder)

/-- What a holder has accrued on a bond of one type. -/
def getAccruedCreditsByType (s : State) (bondId : Nat) (holder : Address)
    (creditType : CreditType) : Int :=
  s.accruedCreditsByType.read (bondId, holder, creditType)

/-- What a holder could claim now. -/
def claimableCredits (s : State) (bondId : Nat) (holder : Address) : Int :=
  getAccruedCredits s bondId holder

/-- One line of the itemised view, when the holder has credits there. -/
def claimableCreditDetail (s : State) (bondId : Nat) (holder : Address) (periodIndex : Nat)
    (creditType : CreditType) : Option ClaimableCreditDetail :=
  let amount := s.periodHolder.read (bondId, periodIndex, holder, creditType)
  if amount ≤ 0 then none
  else
    (s.periodInfo.get (bondId, periodIndex)).map fun info =>
      { periodIndex, reportId := info.reportId, startTime := info.startTime
        endTime := info.endTime, creditType, amount }

/-- What a holder could claim now, period by period and type by type. -/
def claimableCreditDetails (s : State) (bondId : Nat) (holder : Address) :
    List ClaimableCreditDetail :=
  (List.range (s.periodCount.read bondId)).flatMap fun periodIndex =>
    [CreditType.carbon, CreditType.biodiversity].filterMap
      (claimableCreditDetail s bondId holder periodIndex)

/-- The credit type of a bond that was entered. -/
def getBondCreditType (s : State) (bondId : Nat) : Fallible BondError CreditType :=
  okOr (s.bondCreditType.get bondId) .bondNotFound

/-- The record of a period. -/
def getPeriodInfo (s : State) (bondId periodIndex : Nat) : Fallible BondError PeriodInfo :=
  okOr (s.periodInfo.get (bondId, periodIndex)) .bondNotFound

/-- One more than the highest period paid. -/
def getPeriodCount (s : State) (bondId : Nat) : Nat := s.periodCount.read bondId

/-- What was left over on a bond. -/
def getUndistributedTotal (s : State) (bondId : Nat) : Int := s.undistributedTotal.read bondId

/-- The administrator. -/
def getAdmin (s : State) : Fallible BondError Address := okOr s.admin .notInitialized

/-! ## Calls -/

/-- A call of a state-changing entry point. -/
inductive Call
  | registerBond (caller : Address) (bondId : Nat) (projectId : BytesN 32) (nonce : Nat)
  | distributeCoupon (caller : Address) (bondId periodIndex : Nat) (holders : List Address)
      (reportId nonce : Nat)
  | distributeCouponBatch (caller : Address) (bondId periodIndex : Nat)
      (holders : List Address) (reportId offset limit nonce : Nat)
  | claimCredits (caller : Address) (bondId nonce : Nat)
  | sweepUndistributed (caller : Address) (bondId nonce : Nat)
  | setAdmin (currentAdmin newAdmin : Address) (nonce : Nat)
deriving DecidableEq

/-- What a call returns. -/
inductive Output
  | done
  | coupon (result : CouponResult)
  | amount (value : Int)
deriving DecidableEq, Repr

/-- Tag what an entry point returns. -/
def returning {α : Type} (tag : α → Output) (r : Fallible BondError (α × State)) :
    Fallible BondError (Output × State) := do
  let (value, s) ← r
  return (tag value, s)

/-- Run an entry point that returns nothing. -/
def silent (r : Fallible BondError State) : Fallible BondError (Output × State) := do
  let s ← r
  return (.done, s)

/-- A call of the contract, with what it returns and the state it leaves. -/
def exec (env : Env) (peers : Peers) (s : State) :
    Call → Fallible BondError (Output × State)
  | .registerBond caller bondId projectId nonce =>
      silent (registerBond env peers s caller bondId projectId nonce)
  | .distributeCoupon caller bondId periodIndex holders reportId nonce =>
      returning .coupon
        (distributeCoupon env peers s caller bondId periodIndex holders reportId nonce)
  | .distributeCouponBatch caller bondId periodIndex holders reportId offset limit nonce =>
      returning .coupon
        (distributeCouponBatch env peers s caller bondId periodIndex holders reportId offset
          limit nonce)
  | .claimCredits caller bondId nonce => returning .amount (claimCredits env s caller bondId nonce)
  | .sweepUndistributed caller bondId nonce =>
      returning .amount (sweepUndistributed env s caller bondId nonce)
  | .setAdmin currentAdmin newAdmin nonce => silent (setAdmin env s currentAdmin newAdmin nonce)

end EcoMint.CouponEngine
