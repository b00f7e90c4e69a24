import EcoMint.Machine
import EcoMint.Shared

/-!
# The bond issuer contract

The storage and entry points of `contracts/bond-issuer`.  Every entry point
takes the current storage and returns the new one; an error returns no storage
at all, which is how the host reverts a failed call.  `issue_bond` may ask the
project registry two questions; the answers come from whatever contract is
deployed at the configured address.

After the definitions, each balance-changing entry point has one lemma saying
exactly what a successful call found and wrote.
-/

namespace EcoMint.BondIssuer

open Fallible IntRange

/-- The most tokens that a bond may have. -/
def MAX_SUPPLY : Int := 1000000000000000000

/-- How far a bond has come: the tokens placed, its status and when it was issued. -/
structure BondState where
  totalSubscribed : Int
  status : BondStatus
  createdAt : Nat
deriving DecidableEq, Repr

/-- Contract storage, one field per `DataKey`. -/
structure State where
  admin : Option Address
  bondConfig : Storage Nat BondConfig
  bondState : Storage Nat BondState
  holderBalance : Storage (Nat × Address) Int
  redemptionPool : Storage Nat Int
  bondCount : Nat
  nonce : Storage Address Nat
  projectRegistry : Option Address
deriving DecidableEq

/-- The two questions `issue_bond` asks a project registry. -/
structure RegistryView where
  hasApprovedProject : BytesN 32 → Bool
  getProjectMethodology : BytesN 32 → Symbol

/-- The project registry deployed at an address, if there is one. -/
abbrev Registries := Address → Option RegistryView

/-- The caller is the administrator. -/
def requireAdmin (s : State) (caller : Address) : Fallible BondError Unit :=
  checkAdmin s.admin caller .notInitialized .unauthorized

/-- The nonce is the caller's next one, and is used up. -/
def consumeNonce (s : State) (addr : Address) (nonce : Nat) : Fallible BondError State := do
  let nonces ← useNonce s.nonce addr nonce .invalidNonce
  return { s with nonce := nonces }

/-- Blue-carbon and biodiversity methodologies have credit types of their own, every
other one gives carbon credits, and a basket takes all. -/
def methodologyCompatible (methodology : Symbol) (creditType : CreditType) : Bool :=
  let isBlue := ["blue_carbon", "BLUE_CARBON", "BLUE"].contains methodology
  let isBiodiv := ["biodiversity", "BIODIVERSITY", "biodiv"].contains methodology
  match creditType with
  | .carbon => !isBlue && !isBiodiv
  | .blueCarbon => isBlue
  | .biodiversity => isBiodiv
  | .basket => true

/-! ## Entry points -/

/-- The issuer as it is deployed: an administrator and nothing else. -/
def constructor (admin : Address) : State where
  admin := some admin
  bondConfig := ∅
  bondState := ∅
  holderBalance := ∅
  redemptionPool := ∅
  bondCount := 0
  nonce := ∅
  projectRegistry := none

/-- The administrator hands over to another one. -/
def setAdmin (env : Env) (s : State) (currentAdmin newAdmin : Address) :
    Fallible BondError State := do
  env.requireAuth currentAdmin
  requireAdmin s currentAdmin
  return { s with admin := some newAdmin }

/-- The administrator says where the project registry is. -/
def setProjectRegistry (env : Env) (s : State) (caller registry : Address) (nonce : Nat) :
    Fallible BondError State := do
  env.requireAuth caller
  let s ← consumeNonce s caller nonce
  requireAdmin s caller
  return { s with projectRegistry := some registry }

/-- The registry half of `issue_bond`: skipped when no registry is configured,
a trap when nothing is deployed at the configured address. -/
def checkProject (registries : Registries) (s : State) (config : BondConfig) :
    Fallible BondError Unit :=
  match s.projectRegistry with
  | none => return ()
  | some address => do
      let registry ← orTrap (registries address)
      rejectIf (registry.hasApprovedProject config.projectId = false) .projectNotApproved
      let methodology := registry.getProjectMethodology config.projectId
      rejectIf (methodologyCompatible methodology config.creditType = false)
        .incompatibleMethodologyCreditType

/-- The administrator issues a bond with coupon dates before its maturity; where a
registry is set, the project has to be approved there. -/
def issueBond (env : Env) (registries : Registries) (s : State) (caller : Address)
    (config : BondConfig) (nonce : Nat) : Fallible BondError (Nat × State) := do
  env.requireAuth caller
  let s ← consumeNonce s caller nonce
  requireAdmin s caller
  rejectIf (config.faceValue ≤ 0) .zeroAmount
  rejectIf (config.totalSupply ≤ 0 ∨ config.totalSupply > MAX_SUPPLY) .invalidSupply
  rejectIf (config.maturityDate ≤ env.timestamp) .overflow
  rejectIf (config.couponSchedule.length = 0) .zeroAmount
  rejectIf (∃ couponDate ∈ config.couponSchedule, couponDate ≥ config.maturityDate) .zeroAmount
  checkProject registries s config
  let bondId := s.bondCount + 1
  let state : BondState :=
    { totalSubscribed := 0, status := .active, createdAt := env.timestamp }
  return (bondId, { s with
    bondCount := bondId
    bondConfig := s.bondConfig.set bondId config
    bondState := s.bondState.set bondId state })

/-- An investor takes tokens of an active bond, as far as there are any left. -/
def subscribe (env : Env) (s : State) (investor : Address) (bondId : Nat) (amount : Int)
    (nonce : Nat) : Fallible BondError State := do
  env.requireAuth investor
  let s ← consumeNonce s investor nonce
  rejectIf (amount ≤ 0) .zeroAmount
  let config ← okOr (s.bondConfig.get bondId) .bondNotFound
  let state ← okOr (s.bondState.get bondId) .bondNotFound
  rejectIf (state.status ≠ .active) .bondAlreadyMatured
  rejectIf (env.timestamp ≥ config.maturityDate) .bondAlreadyMatured
  let newTotal ← okOr (i128.checkedAdd state.totalSubscribed amount) .overflow
  rejectIf (newTotal > config.totalSupply) .insufficientSupply
  let currentBalance := s.holderBalance.read (bondId, investor)
  let newBalance ← okOr (i128.checkedAdd currentBalance amount) .overflow
  return { s with
    holderBalance := s.holderBalance.set (bondId, investor) newBalance
    bondState := s.bondState.set bondId { state with totalSubscribed := newTotal } }

/-- A holder passes tokens of an active bond on, before its maturity. -/
def transfer (env : Env) (s : State) (sender recipient : Address) (bondId : Nat) (amount : Int)
    (nonce : Nat) : Fallible BondError State := do
  env.requireAuth sender
  let s ← consumeNonce s sender nonce
  rejectIf (recipient = sender) .unauthorized
  rejectIf (amount ≤ 0) .zeroAmount
  let config ← okOr (s.bondConfig.get bondId) .bondNotFound
  let state ← okOr (s.bondState.get bondId) .bondNotFound
  rejectIf (state.status ≠ .active) .bondAlreadyMatured
  rejectIf (env.timestamp ≥ config.maturityDate) .bondAlreadyMatured
  let fromBalance := s.holderBalance.read (bondId, sender)
  rejectIf (fromBalance < amount) .insufficientSupply
  let newFromBalance ← okOr (i128.checkedSub fromBalance amount) .overflow
  let balances := s.holderBalance.set (bondId, sender) newFromBalance
  let toBalance := balances.read (bondId, recipient)
  let newToBalance ← okOr (i128.checkedAdd toBalance amount) .overflow
  return { s with holderBalance := balances.set (bondId, recipient) newToBalance }

/-- The administrator pays into the redemption pool of a bond. -/
def fundRedemption (env : Env) (s : State) (caller : Address) (bondId : Nat) (amount : Int)
    (nonce : Nat) : Fallible BondError State := do
  env.requireAuth caller
  let s ← consumeNonce s caller nonce
  requireAdmin s caller
  rejectIf (amount ≤ 0) .zeroAmount
  let _config ← okOr (s.bondConfig.get bondId) .bondNotFound
  let current := s.redemptionPool.read bondId
  let next ← okOr (i128.checkedAdd current amount) .overflow
  return { s with redemptionPool := s.redemptionPool.set bondId next }

/-- A holder gives tokens of a matured bond back and is paid their face value from the
pool. -/
def redeem (env : Env) (s : State) (holder : Address) (bondId : Nat) (amount : Int)
    (nonce : Nat) : Fallible BondError State := do
  env.requireAuth holder
  let s ← consumeNonce s holder nonce
  rejectIf (amount ≤ 0) .zeroAmount
  let state ← okOr (s.bondState.get bondId) .bondNotFound
  let config ← okOr (s.bondConfig.get bondId) .bondNotFound
  rejectIf (state.status ≠ .matured) .bondAlreadyMatured
  let currentBalance := s.holderBalance.read (bondId, holder)
  rejectIf (currentBalance < amount) .insufficientSupply
  let payout ← okOr (i128.checkedMul amount config.faceValue) .overflow
  let pool := s.redemptionPool.read bondId
  rejectIf (pool < payout) .redemptionUnderfunded
  let newBalance ← okOr (i128.checkedSub currentBalance amount) .overflow
  let newTotal ← okOr (i128.checkedSub state.totalSubscribed amount) .overflow
  return { s with
    redemptionPool := s.redemptionPool.set bondId (pool - payout)
    holderBalance := s.holderBalance.set (bondId, holder) newBalance
    bondState := s.bondState.set bondId { state with totalSubscribed := newTotal } }

/-- The administrator turns an active bond into a matured one, from its maturity date on. -/
def matureBond (env : Env) (s : State) (caller : Address) (bondId : Nat) (nonce : Nat) :
    Fallible BondError State := do
  env.requireAuth caller
  let s ← consumeNonce s caller nonce
  requireAdmin s caller
  let config ← okOr (s.bondConfig.get bondId) .bondNotFound
  let state ← okOr (s.bondState.get bondId) .bondNotFound
  rejectIf (state.status ≠ .active) .bondAlreadyMatured
  rejectIf (env.timestamp < config.maturityDate) .overflow
  return { s with bondState := s.bondState.set bondId { state with status := .matured } }

/-! ## Views -/

/-- The administrator. -/
def getAdmin (s : State) : Fallible BondError Address := okOr s.admin .notInitialized

/-- The terms of a bond. -/
def getBond (s : State) (bondId : Nat) : Fallible BondError BondConfig :=
  okOr (s.bondConfig.get bondId) .bondNotFound

/-- How far a bond has come. -/
def getBondState (s : State) (bondId : Nat) : Fallible BondError BondState :=
  okOr (s.bondState.get bondId) .bondNotFound

/-- The tokens of a bond that an account holds. -/
def getHolderBalance (s : State) (bondId : Nat) (holder : Address) : Int :=
  s.holderBalance.read (bondId, holder)

/-- What the redemption pool of a bond holds. -/
def getRedemptionPool (s : State) (bondId : Nat) : Int := s.redemptionPool.read bondId

/-- The nonce that the next call of an account has to bring. -/
def getNonce (s : State) (address : Address) : Nat := s.nonce.read address

/-- The tokens that a bond has in all. -/
def totalSupply (s : State) (bondId : Nat) : Fallible BondError Int := do
  let config ← okOr (s.bondConfig.get bondId) .bondNotFound
  return config.totalSupply

/-- The tokens of a bond that are placed. -/
def totalSubscribed (s : State) (bondId : Nat) : Fallible BondError Int := do
  let state ← okOr (s.bondState.get bondId) .bondNotFound
  return state.totalSubscribed

/-- What an account is owed for its tokens; nothing where it has none. -/
def holderRedemptionLiability (s : State) (bondId : Nat) (holder : Address) :
    Fallible BondError Int := do
  let balance := s.holderBalance.read (bondId, holder)
  if balance = 0 then
    return 0
  else
    let config ← orTrap (s.bondConfig.get bondId)
    return i128.saturatingMul balance config.faceValue

/-- What a bond owes beside what its pool holds, and the part that is covered in basis
points. -/
def redemptionCoverage (s : State) (bondId : Nat) : Fallible BondError RedemptionCoverage := do
  let config ← okOr (s.bondConfig.get bondId) .bondNotFound
  let state ← okOr (s.bondState.get bondId) .bondNotFound
  let totalPrincipalDue ←
    okOr (i128.checkedMul state.totalSubscribed config.faceValue) .overflow
  let fundedAmount := s.redemptionPool.read bondId
  let shortfall :=
    if totalPrincipalDue > fundedAmount then totalPrincipalDue - fundedAmount else 0
  let coverageFractionBps : Int :=
    if totalPrincipalDue = 0 then 10000
    else
      let numerator := u128.saturatingMul (u128.wrap fundedAmount) 10000
      min (numerator / u128.wrap totalPrincipalDue) 10000
  return {
    totalPrincipalDue, fundedAmount, shortfall
    coverageFractionBps := coverageFractionBps.toNat }

/-! ## Calls -/

/-- A call of a state-changing entry point. -/
inductive Call
  | setAdmin (currentAdmin newAdmin : Address)
  | setProjectRegistry (caller registry : Address) (nonce : Nat)
  | issueBond (caller : Address) (config : BondConfig) (nonce : Nat)
  | subscribe (investor : Address) (bondId : Nat) (amount : Int) (nonce : Nat)
  | transfer (sender recipient : Address) (bondId : Nat) (amount : Int) (nonce : Nat)
  | fundRedemption (caller : Address) (bondId : Nat) (amount : Int) (nonce : Nat)
  | redeem (holder : Address) (bondId : Nat) (amount : Int) (nonce : Nat)
  | matureBond (caller : Address) (bondId : Nat) (nonce : Nat)
deriving DecidableEq

/-- What a call returns: the new bond's id for `issue_bond`, nothing otherwise. -/
abbrev Output := Option Nat

/-- Run an entry point that returns nothing. -/
def silent (r : Fallible BondError State) : Fallible BondError (Output × State) := do
  let s ← r
  return (none, s)

/-- A call of the contract, with what it returns and the state it leaves. -/
def exec (env : Env) (registries : Registries) (s : State) :
    Call → Fallible BondError (Output × State)
  | .setAdmin currentAdmin newAdmin => silent (setAdmin env s currentAdmin newAdmin)
  | .setProjectRegistry caller registry nonce =>
      silent (setProjectRegistry env s caller registry nonce)
  | .issueBond caller config nonce => do
      let (bondId, s) ← issueBond env registries s caller config nonce
      return (some bondId, s)
  | .subscribe investor bondId amount nonce =>
      silent (subscribe env s investor bondId amount nonce)
  | .transfer sender recipient bondId amount nonce =>
      silent (transfer env s sender recipient bondId amount nonce)
  | .fundRedemption caller bondId amount nonce =>
      silent (fundRedemption env s caller bondId amount nonce)
  | .redeem holder bondId amount nonce => silent (redeem env s holder bondId amount nonce)
  | .matureBond caller bondId nonce => silent (matureBond env s caller bondId nonce)

/-- A transaction: the call, its environment, and the registries it can reach. -/
structure Tx where
  env : Env
  registries : Registries
  call : Call

/-- The issuer on its own, called by anyone in any order. -/
def machine : Machine State Tx Output (Failure BondError) where
  call s tx := exec tx.env tx.registries s tx.call

/-! ## What a successful call found and wrote -/

/-- The storage after `addr` used up its nonce. -/
def State.bump (s : State) (addr : Address) : State :=
  { s with nonce := s.nonce.set addr (s.nonce.read addr + 1) }

/-- A nonce is taken if it is the next one, and then one more is used. -/
theorem consumeNonce_ok_iff {s s' : State} {addr : Address} {nonce : Nat} :
    consumeNonce s addr nonce = .ok s' ↔ nonce = s.nonce.read addr ∧ s.bump addr = s' := by
  simp [consumeNonce, State.bump]

/-- Only the administrator passes. -/
theorem requireAdmin_ok_iff {s : State} {caller : Address} {u : Unit} :
    requireAdmin s caller = .ok u ↔ s.admin = some caller := by
  simp [requireAdmin]

/-- When `setAdmin` succeeds, and the state it leaves. -/
theorem setAdmin_ok_iff {env : Env} {s s' : State} {currentAdmin newAdmin : Address} :
    setAdmin env s currentAdmin newAdmin = .ok s' ↔
      env.Authorizes currentAdmin ∧ s.admin = some currentAdmin ∧
        { s with admin := some newAdmin } = s' := by
  simp [setAdmin, requireAdmin_ok_iff]

/-- When `setProjectRegistry` succeeds, and the state it leaves. -/
theorem setProjectRegistry_ok_iff {env : Env} {s s' : State} {caller registry : Address}
    {nonce : Nat} :
    setProjectRegistry env s caller registry nonce = .ok s' ↔
      env.Authorizes caller ∧ nonce = s.nonce.read caller ∧ s.admin = some caller ∧
        { s.bump caller with projectRegistry := some registry } = s' := by
  simp [setProjectRegistry, consumeNonce_ok_iff, requireAdmin_ok_iff, State.bump]

/-- The bond record `issue_bond` stores. -/
def freshBond (env : Env) : BondState :=
  { totalSubscribed := 0, status := .active, createdAt := env.timestamp }

/-- What a successful `issueBond` has checked, and the state it leaves. -/
theorem issueBond_ok {env : Env} {registries : Registries} {s s' : State} {caller : Address}
    {config : BondConfig} {nonce bondId : Nat}
    (h : issueBond env registries s caller config nonce = .ok (bondId, s')) :
    0 < config.faceValue ∧ 0 < config.totalSupply ∧ config.totalSupply ≤ MAX_SUPPLY ∧
      env.timestamp < config.maturityDate ∧ bondId = s.bondCount + 1 ∧
      { s.bump caller with
        bondCount := s.bondCount + 1
        bondConfig := s.bondConfig.set (s.bondCount + 1) config
        bondState := s.bondState.set (s.bondCount + 1) (freshBond env) } = s' := by
  simp only [issueBond, consumeNonce_ok_iff, requireAdmin_ok_iff, bind_ok_iff, pure_ok_iff,
    rejectIf_ok_iff, not_or, not_le, gt_iff_lt, not_lt, Prod.mk.injEq] at h
  obtain ⟨_, _, _, ⟨_, rfl⟩, _, _, _, hface, _, ⟨hpos, hmax⟩, _, hmaturity, _, _, _, _, _, _,
    rfl, rfl⟩ := h
  exact ⟨hface, hpos, hmax, hmaturity, rfl, rfl⟩

/-- When `subscribe` succeeds, and the state it leaves. -/
theorem subscribe_ok_iff {env : Env} {s s' : State} {investor : Address} {bondId : Nat}
    {amount : Int} {nonce : Nat} :
    subscribe env s investor bondId amount nonce = .ok s' ↔
      env.Authorizes investor ∧ nonce = s.nonce.read investor ∧ 0 < amount ∧
        ∃ config, s.bondConfig.get bondId = some config ∧
        ∃ state, s.bondState.get bondId = some state ∧ state.status = .active ∧
          env.timestamp < config.maturityDate ∧
          i128.Fits (state.totalSubscribed + amount) ∧
          state.totalSubscribed + amount ≤ config.totalSupply ∧
          i128.Fits (s.holderBalance.read (bondId, investor) + amount) ∧
          { s.bump investor with
            holderBalance := s.holderBalance.credit (bondId, investor) amount
            bondState := s.bondState.set bondId
              { state with totalSubscribed := state.totalSubscribed + amount } } = s' := by
  simp [subscribe, consumeNonce_ok_iff, checkedAdd, State.bump, Storage.credit]

/-- When `transfer` succeeds, and the state it leaves. -/
theorem transfer_ok_iff {env : Env} {s s' : State} {sender recipient : Address} {bondId : Nat}
    {amount : Int} {nonce : Nat} :
    transfer env s sender recipient bondId amount nonce = .ok s' ↔
      env.Authorizes sender ∧ nonce = s.nonce.read sender ∧ recipient ≠ sender ∧ 0 < amount ∧
        ∃ config, s.bondConfig.get bondId = some config ∧
        ∃ state, s.bondState.get bondId = some state ∧ state.status = .active ∧
          env.timestamp < config.maturityDate ∧
          amount ≤ s.holderBalance.read (bondId, sender) ∧
          i128.Fits (s.holderBalance.read (bondId, sender) - amount) ∧
          i128.Fits ((s.holderBalance.credit (bondId, sender) (-amount)).read
            (bondId, recipient) + amount) ∧
          { s.bump sender with
            holderBalance := (s.holderBalance.credit (bondId, sender) (-amount)).credit
              (bondId, recipient) amount } = s' := by
  simp [transfer, consumeNonce_ok_iff, checkedAdd, checkedSub, State.bump, Storage.credit,
    Int.sub_eq_add_neg]

/-- When `fundRedemption` succeeds, and the state it leaves. -/
theorem fundRedemption_ok_iff {env : Env} {s s' : State} {caller : Address} {bondId : Nat}
    {amount : Int} {nonce : Nat} :
    fundRedemption env s caller bondId amount nonce = .ok s' ↔
      env.Authorizes caller ∧ nonce = s.nonce.read caller ∧ s.admin = some caller ∧
        0 < amount ∧ (∃ config, s.bondConfig.get bondId = some config) ∧
        i128.Fits (s.redemptionPool.read bondId + amount) ∧
        { s.bump caller with redemptionPool := s.redemptionPool.credit bondId amount } = s' := by
  simp [fundRedemption, consumeNonce_ok_iff, requireAdmin_ok_iff, checkedAdd, State.bump,
    Storage.credit]

/-- When `redeem` succeeds, and the state it leaves. -/
theorem redeem_ok_iff {env : Env} {s s' : State} {holder : Address} {bondId : Nat}
    {amount : Int} {nonce : Nat} :
    redeem env s holder bondId amount nonce = .ok s' ↔
      env.Authorizes holder ∧ nonce = s.nonce.read holder ∧ 0 < amount ∧
        ∃ state, s.bondState.get bondId = some state ∧
        ∃ config, s.bondConfig.get bondId = some config ∧ state.status = .matured ∧
          amount ≤ s.holderBalance.read (bondId, holder) ∧
          i128.Fits (amount * config.faceValue) ∧
          amount * config.faceValue ≤ s.redemptionPool.read bondId ∧
          i128.Fits (s.holderBalance.read (bondId, holder) - amount) ∧
          i128.Fits (state.totalSubscribed - amount) ∧
          { s.bump holder with
            redemptionPool := s.redemptionPool.credit bondId (-(amount * config.faceValue))
            holderBalance := s.holderBalance.credit (bondId, holder) (-amount)
            bondState := s.bondState.set bondId
              { state with totalSubscribed := state.totalSubscribed - amount } } = s' := by
  simp [redeem, consumeNonce_ok_iff, checkedSub, checkedMul, State.bump, Storage.credit,
    Int.sub_eq_add_neg]

/-- When `matureBond` succeeds, and the state it leaves. -/
theorem matureBond_ok_iff {env : Env} {s s' : State} {caller : Address} {bondId nonce : Nat} :
    matureBond env s caller bondId nonce = .ok s' ↔
      env.Authorizes caller ∧ nonce = s.nonce.read caller ∧ s.admin = some caller ∧
        ∃ config, s.bondConfig.get bondId = some config ∧
        ∃ state, s.bondState.get bondId = some state ∧ state.status = .active ∧
          config.maturityDate ≤ env.timestamp ∧
          { s.bump caller with
            bondState := s.bondState.set bondId { state with status := .matured } } = s' := by
  simp [matureBond, consumeNonce_ok_iff, requireAdmin_ok_iff, State.bump]

/-- A silent call succeeds as the function under it does, and returns nothing. -/
theorem silent_ok_iff {r : Fallible BondError State} {out : Output} {s' : State} :
    silent r = .ok (out, s') ↔ r = .ok s' ∧ out = none := by
  simp [silent, eq_comm]

end EcoMint.BondIssuer
