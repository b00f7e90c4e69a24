import EcoMint.CouponEngine

/-!
# The credit retirement contract

The storage and entry points of `contracts/credit-retirement`.  Retiring reads
the holder's bond balance from the issuer and the accrued credits from the
coupon engine, and keeps its own total of what was retired on each bond.
-/

namespace EcoMint.CreditRetirement

open Fallible IntRange

/-- Credits that a holder has retired, and under which certificate. -/
structure RetirementRecord where
  id : Nat
  holder : Address
  bondId : Nat
  amount : Int
  creditType : CreditType
  retiredAt : Nat
  certificateIpfsHash : BytesN 32
deriving DecidableEq, Repr

/-- A retirement as its certificate shows it. -/
structure RetirementCertificate where
  recordId : Nat
  holder : Address
  bondId : Nat
  amount : Int
  creditType : CreditType
  retiredAt : Nat
  certificateHash : BytesN 32
deriving DecidableEq, Repr

/-- Contract storage, one field per `DataKey`. -/
structure State where
  admin : Option Address
  retirement : Storage Nat RetirementRecord
  retirementCount : Nat
  holderRetirements : Storage Address (List Nat)
  retiredCredits : Storage Address Int
  retiredPerBond : Storage (Nat × Address) Int
  bondIssuerAddress : Option Address
  couponEngineAddress : Option Address
  nonce : Storage Address Nat
deriving DecidableEq

/-- The contracts retirement can call: what is deployed at each address. -/
structure Peers where
  issuerAt : Address → Option BondIssuer.State
  engineAt : Address → Option CouponEngine.State

/-- The caller is the administrator. -/
def requireAdmin (s : State) (caller : Address) : Fallible CreditError Unit :=
  checkAdmin s.admin caller .notInitialized .unauthorized

/-- The nonce is the caller's next one, and is used up. -/
def consumeNonce (s : State) (addr : Address) (nonce : Nat) : Fallible CreditError State := do
  let nonces ← useNonce s.nonce addr nonce .invalidNonce
  return { s with nonce := nonces }

/-! ## Entry points -/

/-- The contract as it is deployed: an administrator and the addresses of the two
contracts that it asks. -/
def constructor (admin bondIssuerAddress couponEngineAddress : Address) : State where
  admin := some admin
  retirement := ∅
  retirementCount := 0
  holderRetirements := ∅
  retiredCredits := ∅
  retiredPerBond := ∅
  bondIssuerAddress := some bondIssuerAddress
  couponEngineAddress := some couponEngineAddress
  nonce := ∅

/-- A token holder retires credits that it has accrued and not retired before. -/
def retireCredits (env : Env) (peers : Peers) (s : State) (holder : Address) (bondId : Nat)
    (amount : Int) (creditType : CreditType) (certificateHash : BytesN 32) (nonce : Nat) :
    Fallible CreditError (Nat × State) := do
  env.requireAuth holder
  let s ← consumeNonce s holder nonce
  rejectIf (amount ≤ 0) .insufficientCredits
  rejectIf certificateHash.isZero .invalidCertificate
  let bondIssuer ← okOr s.bondIssuerAddress .notInitialized
  let issuer ← orTrap (peers.issuerAt bondIssuer)
  let balance := BondIssuer.getHolderBalance issuer bondId holder
  rejectIf (balance ≤ 0) .notAHolder
  let couponEngine ← okOr s.couponEngineAddress .notInitialized
  let engine ← orTrap (peers.engineAt couponEngine)
  let accrued := CouponEngine.getAccruedCredits engine bondId holder
  let alreadyRetired := s.retiredPerBond.read (bondId, holder)
  let remaining ← okOr (i128.checkedSub accrued alreadyRetired) .insufficientCredits
  rejectIf (amount > remaining) .insufficientCredits
  let retirementId := s.retirementCount + 1
  let record : RetirementRecord :=
    { id := retirementId, holder, bondId, amount, creditType, retiredAt := env.timestamp
      certificateIpfsHash := certificateHash }
  let retired := s.retiredCredits.read holder
  let newTotal ← okOr (i128.checkedAdd retired amount) .insufficientCredits
  return (retirementId, { s with
    retiredPerBond := s.retiredPerBond.set (bondId, holder) (alreadyRetired + amount)
    retirementCount := retirementId
    retirement := s.retirement.set retirementId record
    retiredCredits := s.retiredCredits.set holder newTotal
    holderRetirements := s.holderRetirements.set holder
      ((s.holderRetirements.get holder).getD [] ++ [retirementId]) })

/-- The administrator hands over to another one. -/
def setAdmin (env : Env) (s : State) (currentAdmin newAdmin : Address) (nonce : Nat) :
    Fallible CreditError State := do
  env.requireAuth currentAdmin
  let s ← consumeNonce s currentAdmin nonce
  requireAdmin s currentAdmin
  return { s with admin := some newAdmin }

/-! ## Views -/

/-- The record of a retirement. -/
def getRetirementRecord (s : State) (retirementId : Nat) :
    Fallible CreditError RetirementRecord :=
  okOr (s.retirement.get retirementId) .insufficientCredits

/-- The certificate of a retirement. -/
def getRetirementCertificate (s : State) (retirementId : Nat) :
    Fallible CreditError RetirementCertificate := do
  let record ← okOr (s.retirement.get retirementId) .insufficientCredits
  return {
    recordId := record.id, holder := record.holder, bondId := record.bondId
    amount := record.amount, creditType := record.creditType, retiredAt := record.retiredAt
    certificateHash := record.certificateIpfsHash }

/-- The numbers of an account's retirements, oldest first. -/
def getHolderRetirements (s : State) (holder : Address) : List Nat :=
  (s.holderRetirements.get holder).getD []

/-- What an account has retired in all. -/
def getTotalRetired (s : State) (holder : Address) : Int := s.retiredCredits.read holder

/-- How many retirements there are. -/
def totalRetirements (s : State) : Nat := s.retirementCount

/-- The administrator. -/
def getAdmin (s : State) : Fallible CreditError Address := okOr s.admin .notInitialized

/-! ## Calls -/

/-- A call of a state-changing entry point. -/
inductive Call
  | retireCredits (holder : Address) (bondId : Nat) (amount : Int) (creditType : CreditType)
      (certificateHash : BytesN 32) (nonce : Nat)
  | setAdmin (currentAdmin newAdmin : Address) (nonce : Nat)
deriving DecidableEq

/-- What a call returns: the new record's id for `retire_credits`. -/
abbrev Output := Option Nat

/-- A call of the contract, with what it returns and the state it leaves. -/
def exec (env : Env) (peers : Peers) (s : State) :
    Call → Fallible CreditError (Output × State)
  | .retireCredits holder bondId amount creditType certificateHash nonce => do
      let (retirementId, s) ←
        retireCredits env peers s holder bondId amount creditType certificateHash nonce
      return (some retirementId, s)
  | .setAdmin currentAdmin newAdmin nonce => do
      let s ← setAdmin env s currentAdmin newAdmin nonce
      return (none, s)

/-! ## What a successful call found and wrote -/

/-- What a successful retirement wrote: one record under the next id, and the
totals raised by its amount. -/
structure RetireWrote (env : Env) (s s' : State) (holder : Address) (bondId : Nat)
    (amount : Int) (creditType : CreditType) (certificateHash : BytesN 32) : Prop where
  count : s'.retirementCount = s.retirementCount + 1
  record : s'.retirement = s.retirement.set (s.retirementCount + 1)
    ⟨s.retirementCount + 1, holder, bondId, amount, creditType, env.timestamp, certificateHash⟩
  perBond : s'.retiredPerBond = s.retiredPerBond.credit (bondId, holder) amount
  total : s'.retiredCredits = s.retiredCredits.credit holder amount
  issuerAddress : s'.bondIssuerAddress = s.bondIssuerAddress
  engineAddress : s'.couponEngineAddress = s.couponEngineAddress

/-- What a successful retirement has checked, and the state it leaves. -/
theorem retireCredits_ok {env : Env} {peers : Peers} {s s' : State} {holder : Address}
    {bondId : Nat} {amount : Int} {creditType : CreditType} {certificateHash : BytesN 32}
    {nonce id : Nat}
    (h : retireCredits env peers s holder bondId amount creditType certificateHash nonce =
      .ok (id, s')) :
    0 < amount ∧
      (∃ address engine, s.couponEngineAddress = some address ∧
        peers.engineAt address = some engine ∧
        s.retiredPerBond.read (bondId, holder) + amount ≤
          CouponEngine.getAccruedCredits engine bondId holder) ∧
      RetireWrote env s s' holder bondId amount creditType certificateHash := by
  simp only [retireCredits, consumeNonce, bind_ok_iff, pure_ok_iff, okOr_ok_iff, orTrap_ok_iff,
    rejectIf_ok_iff, checkedSub, checkedAdd, checked_eq_some, not_le, gt_iff_lt, not_lt,
    Prod.mk.injEq] at h
  obtain ⟨_, _, _, ⟨_, _, rfl⟩, _, hpos, _, _, _, _, _, _, _, _, address, haddress, engine,
    hengine, _, ⟨_, rfl⟩, _, henough, _, ⟨_, rfl⟩, rfl, rfl⟩ := h
  refine ⟨hpos, ⟨address, engine, haddress, hengine, ?_⟩, ⟨rfl, rfl, rfl, rfl, rfl, rfl⟩⟩
  dsimp only at henough
  omega

/-- Every successful call wrote one retirement or changed the admin. -/
theorem exec_cases {env : Env} {peers : Peers} {s s' : State} {call : Call} {out : Output}
    (h : exec env peers s call = .ok (out, s')) :
    (∃ holder bondId amount creditType certificateHash nonce,
      call = .retireCredits holder bondId amount creditType certificateHash nonce ∧
      0 < amount ∧
      (∃ address engine, s.couponEngineAddress = some address ∧
        peers.engineAt address = some engine ∧
        s.retiredPerBond.read (bondId, holder) + amount ≤
          CouponEngine.getAccruedCredits engine bondId holder) ∧
      RetireWrote env s s' holder bondId amount creditType certificateHash) ∨
    (∃ currentAdmin newAdmin nonce, call = .setAdmin currentAdmin newAdmin nonce ∧
      s'.retirement = s.retirement ∧ s'.retirementCount = s.retirementCount ∧
      s'.retiredPerBond = s.retiredPerBond ∧
      s'.bondIssuerAddress = s.bondIssuerAddress ∧
      s'.couponEngineAddress = s.couponEngineAddress) := by
  cases call with
  | retireCredits holder bondId amount creditType certificateHash nonce =>
      simp only [exec, bind_ok_iff, pure_ok_iff, Prod.mk.injEq, Prod.exists] at h
      obtain ⟨id, s'', hretire, -, rfl⟩ := h
      obtain ⟨hpos, hengine, hwrote⟩ := retireCredits_ok hretire
      exact Or.inl ⟨holder, bondId, amount, creditType, certificateHash, nonce, rfl, hpos,
        hengine, hwrote⟩
  | setAdmin currentAdmin newAdmin nonce =>
      simp only [exec, setAdmin, consumeNonce, bind_ok_iff, pure_ok_iff, Prod.mk.injEq] at h
      obtain ⟨_, ⟨_, _, _, ⟨_, _, rfl⟩, _, _, rfl⟩, -, rfl⟩ := h
      exact Or.inr ⟨currentAdmin, newAdmin, nonce, rfl, rfl, rfl, rfl, rfl, rfl⟩

end EcoMint.CreditRetirement
