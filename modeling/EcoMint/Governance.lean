import EcoMint.Machine
import EcoMint.Shared

/-!
# The governance contract

The storage and entry points of `contracts/governance`: a fixed set of signers
proposes calls of other contracts, votes on them, and lets anyone execute a
proposal once enough signers approved it and its timelock has run out.

Executing a proposal calls the target contract.  What the target does is not
governance's business, so `execute` takes the host's `invoke_contract` as an
argument and hands its result on; the target does not call back.
-/

namespace EcoMint.Governance

open Fallible IntRange

/-- Two days, unless the constructor sets another delay. -/
def DEFAULT_TIMELOCK_SECONDS : Nat := 172800

/-- A value as contracts pass it to each other. -/
inductive Val
  | void
  | bool (b : Bool)
  | u32 (n : Nat)
  | u64 (n : Nat)
  | i128 (x : Int)
  | symbol (s : Symbol)
  | address (a : Address)
  | bytes32 (b : BytesN 32)
  | vec (vs : List Val)
  | map (entries : List (Val × Val))

/-- What has become of a proposal. -/
inductive ProposalStatus
  | pending
  | queued
  | executed
  | rejected
  | cancelled
deriving DecidableEq, Repr

/-- A call that a signer proposes, with the votes on it. -/
structure Proposal where
  id : Nat
  proposer : Address
  target : Address
  method : Symbol
  args : List Val
  description : Symbol
  status : ProposalStatus
  approvalCount : Nat
  vetoCount : Nat
  createdAt : Nat
  queuedAt : Nat
  executedAt : Nat
  timelockSeconds : Nat

/-- Contract storage, one field per `DataKey`. -/
structure State where
  signers : Option (List Address)
  threshold : Option Nat
  timelockSeconds : Option Nat
  proposal : Storage Nat Proposal
  proposalCount : Nat
  vote : Storage (Nat × Address) Bool
  nonce : Storage Address Nat
  executionNonce : Storage Address Nat
  allowList : Storage (Address × Symbol) Bool

/-- The host's `invoke_contract`: call a method of a contract with arguments. -/
abbrev InvokeContract (ε ρ : Type) := Address → Symbol → List Val → Fallible ε ρ

/-- The nonce is the account's next one, and is used up. -/
def checkNonce (s : State) (addr : Address) (nonce : Nat) : Fallible GovernanceError State := do
  let nonces ← useNonce s.nonce addr nonce .invalidNonce
  return { s with nonce := nonces }

/-- The caller is one of the signers. -/
def requireSigner (s : State) (caller : Address) : Fallible GovernanceError Unit := do
  let signers ← okOr s.signers .notInitialized
  rejectIf (caller ∉ signers) .notSigner

/-- The method of the target is on the list of those that may be proposed. -/
abbrev isMethodAllowed (s : State) (target : Address) (method : Symbol) : Bool :=
  (s.allowList.get (target, method)).getD false

/-- A method of a target is put on the list, or taken off it. -/
def setMethodAllowed (s : State) (target : Address) (method : Symbol) (allowed : Bool) : State :=
  { s with allowList := s.allowList.set (target, method) allowed }

/-! ## Entry points -/

/-- The assertions of the constructor trap; its two loops compare all signers
with each other. -/
def constructor (signers : List Address) (threshold timelockSeconds : Nat) :
    Fallible GovernanceError State := do
  trapUnless (signers ≠ [])
  trapUnless (0 < threshold ∧ threshold ≤ signers.length)
  trapUnless signers.Nodup
  return {
    signers := some signers
    threshold := some threshold
    timelockSeconds := some timelockSeconds
    proposal := ∅
    proposalCount := 0
    vote := ∅
    nonce := ∅
    executionNonce := ∅
    allowList := ∅ }

/-- The common body of the two entry points for the allow-list. -/
def allowMethod (allowed : Bool) (env : Env) (s : State) (caller target : Address)
    (method : Symbol) (nonce : Nat) : Fallible GovernanceError State := do
  env.requireAuth caller
  let s ← checkNonce s caller nonce
  requireSigner s caller
  return setMethodAllowed s target method allowed

/-- A signer puts a method on the list. -/
def addToAllowList :
    Env → State → Address → Address → Symbol → Nat → Fallible GovernanceError State :=
  allowMethod true

/-- A signer takes a method off the list. -/
def removeFromAllowList :
    Env → State → Address → Address → Symbol → Nat → Fallible GovernanceError State :=
  allowMethod false

/-- A signer proposes a call of a method on the list. -/
def propose (env : Env) (s : State) (caller target : Address) (method : Symbol)
    (args : List Val) (description : Symbol) (nonce : Nat) :
    Fallible GovernanceError (Nat × State) := do
  env.requireAuth caller
  let s ← checkNonce s caller nonce
  requireSigner s caller
  rejectIf (isMethodAllowed s target method = false) .unauthorized
  let proposalId := s.proposalCount + 1
  let proposal : Proposal :=
    { id := proposalId, proposer := caller, target, method, args, description
      status := .pending, approvalCount := 0, vetoCount := 0, createdAt := env.timestamp
      queuedAt := 0, executedAt := 0
      timelockSeconds := s.timelockSeconds.getD DEFAULT_TIMELOCK_SECONDS }
  return (proposalId, { s with
    proposalCount := proposalId
    proposal := s.proposal.set proposalId proposal })

/-- How votes and cancellations start: a signer names a pending proposal. -/
def pendingProposal (env : Env) (s : State) (caller : Address) (proposalId nonce : Nat) :
    Fallible GovernanceError (State × Proposal) := do
  env.requireAuth caller
  let s ← checkNonce s caller nonce
  requireSigner s caller
  let proposal ← okOr (s.proposal.get proposalId) .proposalNotFound
  rejectIf (proposal.status ≠ .pending) .notPending
  return (s, proposal)

/-- One more approval, which may queue the proposal. -/
def Proposal.approve (proposal : Proposal) (env : Env) (threshold : Nat) : Proposal :=
  let proposal := { proposal with approvalCount := proposal.approvalCount + 1 }
  if proposal.approvalCount ≥ threshold then
    { proposal with status := .queued, queuedAt := env.timestamp }
  else proposal

/-- One more veto, which may reject the proposal. -/
def Proposal.veto (proposal : Proposal) (threshold : Nat) : Proposal :=
  let proposal := { proposal with vetoCount := proposal.vetoCount + 1 }
  if proposal.vetoCount ≥ threshold then { proposal with status := .rejected } else proposal

/-- A signer approves a pending proposal; with as many approvals as the threshold asks
for it is queued. -/
def voteApprove (env : Env) (s : State) (caller : Address) (proposalId nonce : Nat) :
    Fallible GovernanceError State := do
  let (s, proposal) ← pendingProposal env s caller proposalId nonce
  rejectIf ((s.vote.get (proposalId, caller)).getD false = true) .alreadyVoted
  let threshold := s.threshold.getD 1
  return { s with
    vote := s.vote.set (proposalId, caller) true
    proposal := s.proposal.set proposalId (proposal.approve env threshold) }

/-- A signer objects to a pending proposal; with as many vetoes as the threshold asks
for it is rejected. The vote is stored as `false`. -/
def voteVeto (env : Env) (s : State) (caller : Address) (proposalId nonce : Nat) :
    Fallible GovernanceError State := do
  let (s, proposal) ← pendingProposal env s caller proposalId nonce
  rejectIf ((s.vote.get (proposalId, caller)).getD false = true) .alreadyVoted
  let threshold := s.threshold.getD 1
  return { s with
    vote := s.vote.set (proposalId, caller) false
    proposal := s.proposal.set proposalId (proposal.veto threshold) }

/-- A signer cancels a pending proposal. -/
def cancel (env : Env) (s : State) (caller : Address) (proposalId nonce : Nat) :
    Fallible GovernanceError State := do
  let (s, proposal) ← pendingProposal env s caller proposalId nonce
  return { s with
    proposal := s.proposal.set proposalId { proposal with status := .cancelled } }

/-- The arguments the target is called with: governance itself first, the
execution nonce last. -/
def fullArgs (env : Env) (proposal : Proposal) (execNonce : Nat) : List Val :=
  .address env.contract :: proposal.args ++ [.u64 execNonce]

/-- Anyone may execute.  The host refuses a call back into the running contract. -/
def execute {ε ρ : Type} (env : Env) (invokeContract : InvokeContract ε ρ) (s : State)
    (caller : Address) (proposalId nonce : Nat) : Fallible GovernanceError (ρ × State) := do
  env.requireAuth caller
  let s ← checkNonce s caller nonce
  let proposal ← okOr (s.proposal.get proposalId) .proposalNotFound
  rejectIf (proposal.status ≠ .queued) .notQueued
  let now := env.timestamp
  rejectIf (now < u64.saturatingAddNat proposal.queuedAt proposal.timelockSeconds)
    .timelockNotElapsed
  let execNonce := s.executionNonce.read proposal.target
  trapUnless (proposal.target ≠ env.contract)
  let result ← invoke (invokeContract proposal.target proposal.method
    (fullArgs env proposal execNonce))
  return (result, { s with
    executionNonce := s.executionNonce.set proposal.target (execNonce + 1)
    proposal := s.proposal.set proposalId
      { proposal with status := .executed, executedAt := now } })

/-! ## Views -/

/-- A proposal. -/
def getProposal (s : State) (proposalId : Nat) : Fallible GovernanceError Proposal :=
  okOr (s.proposal.get proposalId) .proposalNotFound

/-- The stored vote of a signer; a veto and no vote look alike. -/
def getVote (s : State) (proposalId : Nat) (signer : Address) : Bool :=
  (s.vote.get (proposalId, signer)).getD false

/-- The signers. -/
def getSigners (s : State) : List Address := s.signers.getD []

/-- The votes that a decision needs. -/
def getThreshold (s : State) : Nat := s.threshold.getD 1

/-- The delay between the queueing of a proposal and its execution. -/
def getTimelock (s : State) : Nat := s.timelockSeconds.getD DEFAULT_TIMELOCK_SECONDS

/-- The address is that of a signer. -/
def isSigner (s : State) (address : Address) : Bool :=
  match s.signers with
  | some signers => signers.contains address
  | none => false

/-! ## Calls -/

/-- A call of a state-changing entry point. -/
inductive Call
  | addToAllowList (caller target : Address) (method : Symbol) (nonce : Nat)
  | removeFromAllowList (caller target : Address) (method : Symbol) (nonce : Nat)
  | propose (caller target : Address) (method : Symbol) (args : List Val)
      (description : Symbol) (nonce : Nat)
  | voteApprove (caller : Address) (proposalId nonce : Nat)
  | voteVeto (caller : Address) (proposalId nonce : Nat)
  | cancel (caller : Address) (proposalId nonce : Nat)
  | execute (caller : Address) (proposalId nonce : Nat)

/-- What a call returns: the new proposal's id for `propose`, nothing otherwise. -/
abbrev Output := Option Nat

/-- What the target's call came to, when there was one, and the new storage. -/
abbrev Effect (ρ : Type) := Option ρ × State

/-- Run an entry point that returns nothing and calls nobody. -/
def silent {ρ : Type} (r : Fallible GovernanceError State) :
    Fallible GovernanceError (Output × Effect ρ) := do
  let s ← r
  return (none, none, s)

/-- A call of the contract, with what it returns and what it changes here and in the
target. -/
def exec {ε ρ : Type} (env : Env) (invokeContract : InvokeContract ε ρ) (s : State) :
    Call → Fallible GovernanceError (Output × Effect ρ)
  | .addToAllowList caller target method nonce =>
      silent (addToAllowList env s caller target method nonce)
  | .removeFromAllowList caller target method nonce =>
      silent (removeFromAllowList env s caller target method nonce)
  | .propose caller target method args description nonce => do
      let (id, s) ← propose env s caller target method args description nonce
      return (some id, none, s)
  | .voteApprove caller proposalId nonce => silent (voteApprove env s caller proposalId nonce)
  | .voteVeto caller proposalId nonce => silent (voteVeto env s caller proposalId nonce)
  | .cancel caller proposalId nonce => silent (cancel env s caller proposalId nonce)
  | .execute caller proposalId nonce => do
      let (result, s) ← execute env invokeContract s caller proposalId nonce
      return (none, some result, s)

/-! ## Governance on its own -/

/-- A call governance made to a target. -/
structure Invocation where
  target : Address
  method : Symbol
  args : List Val

/-- A transaction: the call, its environment, and which calls of other contracts
would succeed. -/
structure Tx where
  env : Env
  succeeds : Address → Symbol → List Val → Bool
  call : Call

/-- The host of governance on its own: a call either fails or is recorded. -/
def Tx.invokeContract (tx : Tx) : InvokeContract Unit Invocation :=
  fun target method args => do
    trapUnless (tx.succeeds target method args = true)
    return ⟨target, method, args⟩

/-- Governance on its own, called by anyone in any order; its targets may do
anything but call back. -/
def machine : Machine State Tx (Output × Option Invocation) (Failure GovernanceError) where
  call s tx := do
    let (out, invocation, s) ← exec tx.env tx.invokeContract s tx.call
    return ((out, invocation), s)

/-! ## What a successful call found and wrote -/

/-- The storage after `addr` used up its nonce. -/
def State.bump (s : State) (addr : Address) : State :=
  { s with nonce := s.nonce.set addr (s.nonce.read addr + 1) }

/-- The caller authorised the call and gave the expected nonce. -/
def State.Admits (s : State) (env : Env) (caller : Address) (nonce : Nat) : Prop :=
  env.Authorizes caller ∧ nonce = s.nonce.read caller

/-- A nonce is taken if it is the next one, and then one more is used. -/
theorem checkNonce_ok_iff {s s' : State} {addr : Address} {nonce : Nat} :
    checkNonce s addr nonce = .ok s' ↔ nonce = s.nonce.read addr ∧ s.bump addr = s' := by
  simp [checkNonce, State.bump]

/-- Only signers pass. -/
theorem requireSigner_ok_iff {s : State} {caller : Address} {u : Unit} :
    requireSigner s caller = .ok u ↔ ∃ signers, s.signers = some signers ∧ caller ∈ signers := by
  simp [requireSigner]

/-- When the constructor succeeds, and the state it leaves. -/
theorem constructor_ok_iff {signers : List Address} {threshold timelockSeconds : Nat} {s : State} :
    constructor signers threshold timelockSeconds = .ok s ↔
      signers ≠ [] ∧ (0 < threshold ∧ threshold ≤ signers.length) ∧ signers.Nodup ∧
        { signers := some signers, threshold := some threshold
          timelockSeconds := some timelockSeconds, proposal := ∅, proposalCount := 0, vote := ∅
          nonce := ∅, executionNonce := ∅, allowList := ∅ } = s := by
  simp [constructor]

/-- When a change of the list succeeds, and the state it leaves. -/
theorem allowMethod_ok_iff {allowed : Bool} {env : Env} {s s' : State} {caller target : Address}
    {method : Symbol} {nonce : Nat} :
    allowMethod allowed env s caller target method nonce = .ok s' ↔
      s.Admits env caller nonce ∧ (∃ signers, s.signers = some signers ∧ caller ∈ signers) ∧
        setMethodAllowed (s.bump caller) target method allowed = s' := by
  simp [allowMethod, checkNonce_ok_iff, requireSigner_ok_iff, State.Admits, State.bump, and_assoc]

/-- The proposal `propose` stores. -/
def freshProposal (env : Env) (s : State) (caller target : Address) (method : Symbol)
    (args : List Val) (description : Symbol) : Proposal :=
  { id := s.proposalCount + 1, proposer := caller, target, method, args, description
    status := .pending, approvalCount := 0, vetoCount := 0, createdAt := env.timestamp
    queuedAt := 0, executedAt := 0
    timelockSeconds := s.timelockSeconds.getD DEFAULT_TIMELOCK_SECONDS }

/-- When `propose` succeeds, and the state it leaves. -/
theorem propose_ok_iff {env : Env} {s s' : State} {caller target : Address} {method : Symbol}
    {args : List Val} {description : Symbol} {nonce id : Nat} :
    propose env s caller target method args description nonce = .ok (id, s') ↔
      s.Admits env caller nonce ∧ (∃ signers, s.signers = some signers ∧ caller ∈ signers) ∧
        isMethodAllowed s target method = true ∧ s.proposalCount + 1 = id ∧
        { s.bump caller with
          proposalCount := s.proposalCount + 1
          proposal := s.proposal.set (s.proposalCount + 1)
            (freshProposal env s caller target method args description) } = s' := by
  simp [propose, checkNonce_ok_iff, requireSigner_ok_iff, State.Admits, State.bump, and_assoc,
    isMethodAllowed, freshProposal]

/-- When a vote or a cancellation may go on. -/
theorem pendingProposal_ok_iff {env : Env} {s s' : State} {caller : Address}
    {proposalId nonce : Nat} {proposal : Proposal} :
    pendingProposal env s caller proposalId nonce = .ok (s', proposal) ↔
      s.Admits env caller nonce ∧ (∃ signers, s.signers = some signers ∧ caller ∈ signers) ∧
        s.proposal.get proposalId = some proposal ∧ proposal.status = .pending ∧
        s.bump caller = s' := by
  simp only [pendingProposal, checkNonce_ok_iff, requireSigner_ok_iff, State.Admits, bind_ok_iff,
    pure_ok_iff, Env.requireAuth_ok_iff, okOr_ok_iff, rejectIf_ok_iff, not_not, Prod.mk.injEq]
  constructor
  · intro h
    obtain ⟨_, hauth, _, ⟨hnonce, rfl⟩, _, hsigner, _, hget, _, hpending, rfl, rfl⟩ := h
    exact ⟨⟨hauth, hnonce⟩, hsigner, hget, hpending, rfl⟩
  · intro h
    obtain ⟨⟨hauth, hnonce⟩, hsigner, hget, hpending, rfl⟩ := h
    exact ⟨(), hauth, _, ⟨hnonce, rfl⟩, (), hsigner, proposal, hget, (), hpending, rfl, rfl⟩

/-- A silent call succeeds as the function under it does, and returns nothing. -/
theorem silent_ok_iff {ρ : Type} {r : Fallible GovernanceError State} {out : Output}
    {effect : Effect ρ} :
    silent r = .ok (out, effect) ↔ r = .ok effect.2 ∧ effect.1 = none ∧ out = none := by
  obtain ⟨result, s⟩ := effect
  simp only [silent, bind_ok_iff, pure_ok_iff, Prod.mk.injEq]
  constructor
  · intro h
    obtain ⟨s', hs, rfl, rfl, rfl⟩ := h
    exact ⟨hs, rfl, rfl⟩
  · intro h
    obtain ⟨hs, rfl, rfl⟩ := h
    exact ⟨s, hs, rfl, rfl, rfl⟩

/-- The proposal as an execution leaves it. -/
def Proposal.executedNow (proposal : Proposal) (env : Env) : Proposal :=
  { proposal with status := .executed, executedAt := env.timestamp }

/-- When `execute` succeeds, what it passes to the target, and the state it leaves. -/
theorem execute_ok_iff {ε ρ : Type} {env : Env} {invokeContract : InvokeContract ε ρ}
    {s s' : State} {caller : Address} {proposalId nonce : Nat} {result : ρ} :
    execute env invokeContract s caller proposalId nonce = .ok (result, s') ↔
      s.Admits env caller nonce ∧
        ∃ proposal, s.proposal.get proposalId = some proposal ∧ proposal.status = .queued ∧
          u64.saturatingAddNat proposal.queuedAt proposal.timelockSeconds ≤ env.timestamp ∧
          proposal.target ≠ env.contract ∧
          invokeContract proposal.target proposal.method
            (fullArgs env proposal (s.executionNonce.read proposal.target)) = .ok result ∧
          { s.bump caller with
            executionNonce := s.executionNonce.set proposal.target
              (s.executionNonce.read proposal.target + 1)
            proposal := s.proposal.set proposalId (proposal.executedNow env) } = s' := by
  simp only [execute, checkNonce_ok_iff, State.Admits, bind_ok_iff, pure_ok_iff,
    Env.requireAuth_ok_iff, okOr_ok_iff, rejectIf_ok_iff, trapUnless_ok_iff, invoke_ok_iff,
    not_not, not_lt, Prod.mk.injEq]
  constructor
  · intro h
    obtain ⟨_, hauth, _, ⟨hnonce, rfl⟩, proposal, hget, _, hqueued, _, hdue, _, hother, _, hinvoke,
      rfl, rfl⟩ := h
    exact ⟨⟨hauth, hnonce⟩, proposal, hget, hqueued, hdue, hother, hinvoke, rfl⟩
  · intro h
    obtain ⟨⟨hauth, hnonce⟩, proposal, hget, hqueued, hdue, hother, hinvoke, rfl⟩ := h
    exact ⟨(), hauth, _, ⟨hnonce, rfl⟩, proposal, hget, (), hqueued, (), hdue, (), hother, result,
      hinvoke, rfl, rfl⟩

/-- **What a successful call does**: change the allow-list, propose, approve,
veto, cancel or execute. -/
inductive GovernanceStep {ε ρ : Type} (env : Env) (invokeContract : InvokeContract ε ρ)
    (s s' : State) (call : Call) (out : Output) (result : Option ρ) : Prop
  | allowListed (caller target : Address) (method : Symbol) (nonce : Nat) (allowed : Bool)
      (hcall : call = .addToAllowList caller target method nonce ∨
        call = .removeFromAllowList caller target method nonce)
      (hafter : s' = setMethodAllowed (s.bump caller) target method allowed)
      (hresult : result = none)
  | proposed (caller target : Address) (method : Symbol) (args : List Val) (description : Symbol)
      (nonce : Nat) (hcall : call = .propose caller target method args description nonce)
      (hallowed : isMethodAllowed s target method = true)
      (hout : out = some (s.proposalCount + 1))
      (hafter : s' = { s.bump caller with
        proposalCount := s.proposalCount + 1
        proposal := s.proposal.set (s.proposalCount + 1)
          (freshProposal env s caller target method args description) })
      (hresult : result = none)
  | approved (caller : Address) (id nonce : Nat) (proposal : Proposal) (signers : List Address)
      (hcall : call = .voteApprove caller id nonce)
      (hsigners : s.signers = some signers) (hsigner : caller ∈ signers)
      (hget : s.proposal.get id = some proposal) (hpending : proposal.status = .pending)
      (hvote : s.vote.get (id, caller) ≠ some true)
      (hafter : s' = { s.bump caller with
        vote := s.vote.set (id, caller) true
        proposal := s.proposal.set id (proposal.approve env (s.threshold.getD 1)) })
      (hresult : result = none)
  | vetoed (caller : Address) (id nonce : Nat) (proposal : Proposal) (signers : List Address)
      (hcall : call = .voteVeto caller id nonce)
      (hsigners : s.signers = some signers) (hsigner : caller ∈ signers)
      (hget : s.proposal.get id = some proposal) (hpending : proposal.status = .pending)
      (hvote : s.vote.get (id, caller) ≠ some true)
      (hafter : s' = { s.bump caller with
        vote := s.vote.set (id, caller) false
        proposal := s.proposal.set id (proposal.veto (s.threshold.getD 1)) })
      (hresult : result = none)
  | cancelled (caller : Address) (id nonce : Nat) (proposal : Proposal)
      (hcall : call = .cancel caller id nonce)
      (hget : s.proposal.get id = some proposal) (hpending : proposal.status = .pending)
      (hafter : s' = { s.bump caller with
        proposal := s.proposal.set id { proposal with status := .cancelled } })
      (hresult : result = none)
  | executed (caller : Address) (id nonce : Nat) (proposal : Proposal) (value : ρ)
      (hcall : call = .execute caller id nonce)
      (hget : s.proposal.get id = some proposal) (hqueued : proposal.status = .queued)
      (hdue : u64.saturatingAddNat proposal.queuedAt proposal.timelockSeconds ≤ env.timestamp)
      (hother : proposal.target ≠ env.contract)
      (hinvoke : invokeContract proposal.target proposal.method
        (fullArgs env proposal (s.executionNonce.read proposal.target)) = .ok value)
      (hafter : s' = { s.bump caller with
        executionNonce := s.executionNonce.set proposal.target
          (s.executionNonce.read proposal.target + 1)
        proposal := s.proposal.set id (proposal.executedNow env) })
      (hresult : result = some value)

/-- **Step lemma.**  Every successful call is a `GovernanceStep`. -/
theorem governanceStep_exec {ε ρ : Type} {env : Env} {invokeContract : InvokeContract ε ρ}
    {s s' : State} {call : Call} {out : Output} {result : Option ρ}
    (h : exec env invokeContract s call = .ok (out, result, s')) :
    GovernanceStep env invokeContract s s' call out result := by
  cases call with
  | addToAllowList caller target method nonce =>
      obtain ⟨hallow, hresult, -⟩ := silent_ok_iff.mp h
      obtain ⟨-, -, hafter⟩ := allowMethod_ok_iff.mp hallow
      exact .allowListed caller target method nonce true (Or.inl rfl) hafter.symm hresult
  | removeFromAllowList caller target method nonce =>
      obtain ⟨hallow, hresult, -⟩ := silent_ok_iff.mp h
      obtain ⟨-, -, hafter⟩ := allowMethod_ok_iff.mp hallow
      exact .allowListed caller target method nonce false (Or.inr rfl) hafter.symm hresult
  | propose caller target method args description nonce =>
      simp only [exec, bind_ok_iff, pure_ok_iff, Prod.mk.injEq, Prod.exists] at h
      obtain ⟨id, s'', hpropose, rfl, rfl, rfl⟩ := h
      obtain ⟨-, -, hallowed, rfl, hafter⟩ := propose_ok_iff.mp hpropose
      exact .proposed caller target method args description nonce rfl hallowed rfl hafter.symm rfl
  | voteApprove caller id nonce =>
      obtain ⟨hvote, hresult, -⟩ := silent_ok_iff.mp h
      simp only [voteApprove, bind_ok_iff, pure_ok_iff, rejectIf_ok_iff, Prod.exists] at hvote
      obtain ⟨_, proposal, hpending, _, hnew, hafter⟩ := hvote
      obtain ⟨-, ⟨signers, hsigners, hsigner⟩, hget, hstatus, rfl⟩ :=
        pendingProposal_ok_iff.mp hpending
      have hunvoted : s.vote.get (id, caller) ≠ some true := by
        intro htrue
        exact hnew (by simp [State.bump, htrue])
      exact .approved caller id nonce proposal signers rfl hsigners hsigner hget hstatus hunvoted
        hafter.symm hresult
  | voteVeto caller id nonce =>
      obtain ⟨hvote, hresult, -⟩ := silent_ok_iff.mp h
      simp only [voteVeto, bind_ok_iff, pure_ok_iff, rejectIf_ok_iff, Prod.exists] at hvote
      obtain ⟨_, proposal, hpending, _, hnew, hafter⟩ := hvote
      obtain ⟨-, ⟨signers, hsigners, hsigner⟩, hget, hstatus, rfl⟩ :=
        pendingProposal_ok_iff.mp hpending
      have hunvoted : s.vote.get (id, caller) ≠ some true := by
        intro htrue
        exact hnew (by simp [State.bump, htrue])
      exact .vetoed caller id nonce proposal signers rfl hsigners hsigner hget hstatus hunvoted
        hafter.symm hresult
  | cancel caller id nonce =>
      obtain ⟨hcancel, hresult, -⟩ := silent_ok_iff.mp h
      simp only [cancel, bind_ok_iff, pure_ok_iff, Prod.exists] at hcancel
      obtain ⟨_, proposal, hpending, hafter⟩ := hcancel
      obtain ⟨-, -, hget, hstatus, rfl⟩ := pendingProposal_ok_iff.mp hpending
      exact .cancelled caller id nonce proposal rfl hget hstatus hafter.symm hresult
  | execute caller id nonce =>
      simp only [exec, bind_ok_iff, pure_ok_iff, Prod.mk.injEq, Prod.exists] at h
      obtain ⟨value, s'', hexecute, rfl, rfl, rfl⟩ := h
      obtain ⟨-, proposal, hget, hqueued, hdue, hother, hinvoke, hafter⟩ :=
        execute_ok_iff.mp hexecute
      exact .executed caller id nonce proposal value rfl hget hqueued hdue hother hinvoke
        hafter.symm rfl

/-- What governance does depends on its targets only through whether their calls
succeed. -/
theorem exec_of_exec {ε ρ ε' ρ' : Type} {env : Env} {f : InvokeContract ε ρ}
    {g : InvokeContract ε' ρ'} {s s' : State} {call : Call} {out : Output} {result : Option ρ}
    (hfg : ∀ target method args value, f target method args = .ok value →
      ∃ value', g target method args = .ok value')
    (h : exec env f s call = .ok (out, result, s')) :
    ∃ result', exec env g s call = .ok (out, result', s') := by
  have hsilent : ∀ r : Fallible GovernanceError State,
      (silent r : Fallible GovernanceError (Output × Effect ρ)) = .ok (out, result, s') →
      ∃ result', (silent r : Fallible GovernanceError (Output × Effect ρ')) =
        .ok (out, result', s') := by
    intro r hr
    obtain ⟨hs, -, hout⟩ := silent_ok_iff.mp hr
    exact ⟨none, silent_ok_iff.mpr ⟨hs, rfl, hout⟩⟩
  cases call with
  | addToAllowList | removeFromAllowList | voteApprove | voteVeto | cancel => exact hsilent _ h
  | propose caller target method args description nonce =>
      simp only [exec, bind_ok_iff, pure_ok_iff, Prod.mk.injEq, Prod.exists] at h ⊢
      obtain ⟨id, s'', hpropose, hout, -, hs⟩ := h
      exact ⟨none, id, s'', hpropose, hout, rfl, hs⟩
  | execute caller id nonce =>
      simp only [exec, bind_ok_iff, pure_ok_iff, Prod.mk.injEq, Prod.exists] at h ⊢
      obtain ⟨value, s'', hexecute, hout, -, hs⟩ := h
      obtain ⟨hadmits, proposal, hget, hqueued, hdue, hother, hinvoke, hafter⟩ :=
        execute_ok_iff.mp hexecute
      obtain ⟨value', hinvoke'⟩ := hfg _ _ _ _ hinvoke
      exact ⟨some value', value', s'', execute_ok_iff.mpr
        ⟨hadmits, proposal, hget, hqueued, hdue, hother, hinvoke', hafter⟩, hout, rfl, hs⟩

end EcoMint.Governance
