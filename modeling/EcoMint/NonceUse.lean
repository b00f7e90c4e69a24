import EcoMint.Chain
import EcoMint.RegistryGuards

/-!
# Who uses up which nonce

Every contract counts, for each address, the calls it accepted from it, and a
call must name the next number.  A successful call uses up the nonce of one
address or of nobody, and `NonceMove` says so once for all contracts.  A
purchase is the exception: besides the buyer's nonce at the router it uses the
seller's nonce at the bond issuer, which the router looks up itself.
-/

namespace EcoMint

open Fallible

/-- How the nonces of a contract move when a call uses `use`, if anything: the
named nonce is the next one of its address, and becomes one more. -/
inductive NonceMove (nonces nonces' : Storage Address Nat) : Option (Address × Nat) → Prop
  | untouched (hafter : nonces' = nonces) : NonceMove nonces nonces' none
  | used (addr : Address) (hafter : nonces' = nonces.set addr (nonces.read addr + 1)) :
      NonceMove nonces nonces' (some (addr, nonces.read addr))

/-- The nonce is one of `addr`. -/
def TakesFrom (use : Option (Address × Nat)) (addr : Address) : Prop :=
  use.map Prod.fst = some addr

instance (use : Option (Address × Nat)) (addr : Address) : Decidable (TakesFrom use addr) := by
  unfold TakesFrom; infer_instance

/-- The nonces after a move. -/
theorem NonceMove.read {nonces nonces' : Storage Address Nat} {use : Option (Address × Nat)}
    (h : NonceMove nonces nonces' use) (addr : Address) :
    nonces'.read addr = nonces.read addr + if TakesFrom use addr then 1 else 0 := by
  cases h with
  | untouched hafter => simp [hafter, TakesFrom]
  | used user hafter =>
      subst hafter
      by_cases haddr : addr = user
      · subst haddr
        simp [TakesFrom]
      · rw [Storage.read_set_ne _ _ haddr, if_neg (by simpa [TakesFrom] using Ne.symm haddr)]
        rfl

/-- A nonce that was used has moved. -/
theorem NonceMove.of_used {nonces nonces' : Storage Address Nat} {addr : Address} {nonce : Nat}
    (hnonce : nonce = nonces.read addr)
    (hafter : nonces' = nonces.set addr (nonces.read addr + 1)) :
    NonceMove nonces nonces' (some (addr, nonce)) := by
  subst hnonce
  exact .used addr hafter

end EcoMint

/-! ## The bond issuer -/

namespace EcoMint.BondIssuer

open Fallible

/-- The address and the nonce a call takes. -/
def Call.nonceTaken : Call → Option (Address × Nat)
  | .setAdmin _ _ => none
  | .setProjectRegistry caller _ nonce => some (caller, nonce)
  | .issueBond caller _ nonce => some (caller, nonce)
  | .subscribe investor _ _ nonce => some (investor, nonce)
  | .transfer sender _ _ _ nonce => some (sender, nonce)
  | .fundRedemption caller _ _ nonce => some (caller, nonce)
  | .redeem holder _ _ nonce => some (holder, nonce)
  | .matureBond caller _ nonce => some (caller, nonce)

/-- A transfer takes the sender's nonce. -/
theorem nonceMove_transfer {env : Env} {s s' : State} {sender recipient : Address} {bondId : Nat}
    {amount : Int} {nonce : Nat}
    (h : transfer env s sender recipient bondId amount nonce = .ok s') :
    NonceMove s.nonce s'.nonce (some (sender, nonce)) := by
  obtain ⟨-, hnonce, -, -, config, -, state, -, -, -, -, -, -, rfl⟩ := transfer_ok_iff.mp h
  exact .of_used hnonce rfl

/-- A call of the issuer takes the nonce of its caller, if it takes one. -/
theorem nonceMove_exec {env : Env} {registries : Registries} {s s' : State} {call : Call}
    {out : Output} (h : exec env registries s call = .ok (out, s')) :
    NonceMove s.nonce s'.nonce call.nonceTaken := by
  cases call with
  | setAdmin currentAdmin newAdmin =>
      obtain ⟨-, -, rfl⟩ := setAdmin_ok_iff.mp (silent_ok_iff.mp h).1
      exact .untouched rfl
  | setProjectRegistry caller registry nonce =>
      obtain ⟨-, hnonce, -, rfl⟩ := setProjectRegistry_ok_iff.mp (silent_ok_iff.mp h).1
      exact .of_used hnonce rfl
  | issueBond caller config nonce =>
      simp only [exec, issueBond, consumeNonce_ok_iff, bind_ok_iff, pure_ok_iff,
        Prod.mk.injEq] at h
      obtain ⟨issued, ⟨_, _, _, ⟨hnonce, rfl⟩, _, _, _, _, _, _, _, _, _, _, _, _, _, _, rfl⟩, -,
        rfl⟩ := h
      exact .of_used hnonce rfl
  | subscribe investor bondId amount nonce =>
      obtain ⟨-, hnonce, -, config, -, state, -, -, -, -, -, -, rfl⟩ :=
        subscribe_ok_iff.mp (silent_ok_iff.mp h).1
      exact .of_used hnonce rfl
  | transfer sender recipient bondId amount nonce =>
      exact nonceMove_transfer (silent_ok_iff.mp h).1
  | fundRedemption caller bondId amount nonce =>
      obtain ⟨-, hnonce, -, -, -, -, rfl⟩ := fundRedemption_ok_iff.mp (silent_ok_iff.mp h).1
      exact .of_used hnonce rfl
  | redeem holder bondId amount nonce =>
      obtain ⟨-, hnonce, -, state, -, config, -, -, -, -, -, -, -, rfl⟩ :=
        redeem_ok_iff.mp (silent_ok_iff.mp h).1
      exact .of_used hnonce rfl
  | matureBond caller bondId nonce =>
      obtain ⟨-, hnonce, -, config, -, state, -, -, -, rfl⟩ :=
        matureBond_ok_iff.mp (silent_ok_iff.mp h).1
      exact .of_used hnonce rfl

end EcoMint.BondIssuer

/-! ## The coupon engine -/

namespace EcoMint.CouponEngine

open Fallible

/-- The address and the nonce a call takes. -/
def Call.nonceTaken : Call → Address × Nat
  | .registerBond caller _ _ nonce => (caller, nonce)
  | .distributeCoupon caller _ _ _ _ nonce => (caller, nonce)
  | .distributeCouponBatch caller _ _ _ _ _ _ nonce => (caller, nonce)
  | .claimCredits caller _ nonce => (caller, nonce)
  | .sweepUndistributed caller _ nonce => (caller, nonce)
  | .setAdmin currentAdmin _ nonce => (currentAdmin, nonce)

/-- Clearing by type takes no nonce. -/
theorem clearByType_nonce (s : State) (bondId : Nat) (caller : Address) :
    (clearByType s bondId caller).nonce = s.nonce := by
  obtain ⟨ledger, hledger, -⟩ := clearByType_eq s bondId caller
  rw [hledger]

/-- Clearing the periods takes no nonce. -/
theorem clearPeriods_nonce (bondId : Nat) (caller : Address) (s : State) (periods : List Nat) :
    (clearPeriods bondId caller s periods).nonce = s.nonce := by
  obtain ⟨ledger, hledger⟩ := clearPeriods_eq bondId caller s periods
  rw [hledger]

/-- A claim takes the caller's nonce. -/
theorem nonceMove_claimCredits {env : Env} {s s' : State} {caller : Address} {bondId nonce : Nat}
    {amount : Int} (h : claimCredits env s caller bondId nonce = .ok (amount, s')) :
    NonceMove s.nonce s'.nonce (some (caller, nonce)) := by
  simp only [claimCredits, consumeNonce_ok_iff, bind_ok_iff] at h
  obtain ⟨_, -, _, ⟨hnonce, rfl⟩, h⟩ := h
  split at h
  · obtain ⟨-, rfl⟩ := Prod.mk.inj (pure_ok_iff.mp h)
    exact .of_used hnonce (by rw [clearPeriods_nonce, clearByType_nonce]; rfl)
  · obtain ⟨-, rfl⟩ := Prod.mk.inj (pure_ok_iff.mp h)
    exact .of_used hnonce rfl

/-- A call of the engine takes the nonce of its caller. -/
theorem nonceMove_exec {env : Env} {peers : Peers} {s s' : State} {call : Call} {out : Output}
    (h : exec env peers s call = .ok (out, s')) :
    NonceMove s.nonce s'.nonce (some call.nonceTaken) := by
  cases call with
  | registerBond caller bondId projectId nonce =>
      simp only [exec, silent, bind_ok_iff, pure_ok_iff, Prod.mk.injEq] at h
      obtain ⟨_, hregister, -, rfl⟩ := h
      obtain ⟨-, hnonce, -, address, -, issuer, -, config, -, rfl⟩ :=
        registerBond_ok_iff.mp hregister
      exact .of_used hnonce rfl
  | distributeCoupon caller bondId periodIndex holders reportId nonce =>
      obtain ⟨result, hpaid, -⟩ := returning_ok_iff.mp h
      obtain ⟨f, -, -, -, hnonce, hafter⟩ := distributeCouponBatch_ok
        ⟨bondId, periodIndex, holders, reportId, 0, holders.length⟩ hpaid
      exact .of_used hnonce hafter
  | distributeCouponBatch caller bondId periodIndex holders reportId offset limit nonce =>
      obtain ⟨result, hpaid, -⟩ := returning_ok_iff.mp h
      obtain ⟨f, -, -, -, hnonce, hafter⟩ := distributeCouponBatch_ok
        ⟨bondId, periodIndex, holders, reportId, offset, limit⟩ hpaid
      exact .of_used hnonce hafter
  | claimCredits caller bondId nonce =>
      obtain ⟨amount, hclaim, -⟩ := returning_ok_iff.mp h
      exact nonceMove_claimCredits hclaim
  | sweepUndistributed caller bondId nonce =>
      obtain ⟨amount, hsweep, -⟩ := returning_ok_iff.mp h
      simp only [sweepUndistributed, consumeNonce_ok_iff, bind_ok_iff, pure_ok_iff,
        Prod.mk.injEq] at hsweep
      obtain ⟨_, -, _, ⟨hnonce, rfl⟩, _, -, -, rfl⟩ := hsweep
      exact .of_used hnonce rfl
  | setAdmin currentAdmin newAdmin nonce =>
      simp only [exec, silent, setAdmin, consumeNonce_ok_iff, bind_ok_iff, pure_ok_iff,
        Prod.mk.injEq] at h
      obtain ⟨_, ⟨_, -, _, ⟨hnonce, rfl⟩, _, -, rfl⟩, -, rfl⟩ := h
      exact .of_used hnonce rfl

end EcoMint.CouponEngine

/-! ## The oracle consumer -/

namespace EcoMint.OracleConsumer

open Fallible

/-- The address and the nonce a call takes. -/
def Call.nonceTaken : Call → Option (Address × Nat)
  | .setAdmin _ _ => none
  | .registerProvider caller _ _ nonce => some (caller, nonce)
  | .removeProvider caller _ nonce => some (caller, nonce)
  | .submitReport provider _ _ _ _ _ _ _ nonce => some (provider, nonce)
  | .verifyReport caller _ nonce => some (caller, nonce)
  | .challengeReport challenger _ _ nonce => some (challenger, nonce)
  | .resolveChallenge caller _ _ nonce => some (caller, nonce)
  | .setSignatureThreshold caller _ nonce => some (caller, nonce)
  | .setMinimumVerifierStake caller _ nonce => some (caller, nonce)
  | .addStake provider _ nonce => some (provider, nonce)
  | .withdrawStake provider _ nonce => some (provider, nonce)

/-- Every entry point that takes a nonce checks it before anything else. -/
theorem nonce_checked {env : Env} {s s' : State} {call : Call} {out : Output} {addr : Address}
    {nonce : Nat} (h : exec env s call = .ok (out, s'))
    (htaken : call.nonceTaken = some (addr, nonce)) : nonce = s.nonce.read addr := by
  cases call <;>
    simp only [Call.nonceTaken, Option.some.injEq, Prod.mk.injEq, reduceCtorEq] at htaken <;>
    obtain ⟨rfl, rfl⟩ := htaken <;>
    simp only [exec, silent, registerProvider, removeProvider, submitReport, verifyReport,
      challengeReport, resolveChallenge, setSignatureThreshold, setMinimumVerifierStake, addStake,
      withdrawStake, consumeNonce_ok_iff, bind_ok_iff] at h <;>
    grind

/-- What a successful call leaves of the nonces: the caller's is used up. -/
theorem OracleStep.nonce_eq {env : Env} {s s' : State} {call : Call}
    (h : OracleStep env s s' call) :
    s'.nonce = match call.nonceTaken with
      | some (addr, _) => (s.bump addr).nonce
      | none => s.nonce := by
  cases h with
  | managed hstep => cases hstep <;> simp_all [Call.nonceTaken, State.bump]
  | counted caller reportId nonce report hcall _ hafter _ =>
      obtain ⟨verifiers, counts, hrecorded⟩ := recordVerifier_frame (s.bump caller) caller reportId
      rw [hafter, hrecorded, hcall]
      rfl
  | verified caller reportId nonce report hcall _ hafter _ =>
      obtain ⟨verifiers, counts, hrecorded⟩ := recordVerifier_frame (s.bump caller) caller reportId
      rw [hafter, hrecorded, hcall]
      rfl
  | submitted _ _ _ hcall _ _ _ _ _ _ hafter => rw [hafter, hcall]; rfl
  | challenged _ _ _ _ _ hcall _ _ _ _ hafter => rw [hafter, hcall]; rfl
  | dismissed _ _ _ _ _ hcall _ _ _ hafter => rw [hafter, hcall]; rfl
  | upheld _ _ _ _ _ hcall _ _ _ _ hafter => rw [hafter, hcall]; rfl
  | rejected _ _ _ _ _ _ _ hcall _ _ _ _ _ _ hafter => rw [hafter, hcall]; rfl

/-- A call of the oracle takes the nonce of its caller, if it takes one. -/
theorem nonceMove_exec {env : Env} {s s' : State} {call : Call} {out : Output}
    (h : exec env s call = .ok (out, s')) : NonceMove s.nonce s'.nonce call.nonceTaken := by
  have hafter := (oracleStep_exec h).nonce_eq
  cases htaken : call.nonceTaken with
  | none =>
      rw [htaken] at hafter
      exact .untouched hafter
  | some use =>
      rw [htaken] at hafter
      exact .of_used (nonce_checked h htaken) hafter

end EcoMint.OracleConsumer

/-! ## The DEX router -/

namespace EcoMint.DexRouter

open Fallible

/-- The address and the nonce a call takes. -/
def Call.nonceTaken : Call → Option (Address × Nat)
  | .setAdmin _ _ => none
  | .listBondTokens seller _ _ _ _ _ nonce => some (seller, nonce)
  | .cancelListing caller _ nonce => some (caller, nonce)
  | .executePurchase buyer _ _ _ nonce => some (buyer, nonce)
  | .depositQuote caller _ _ nonce => some (caller, nonce)
  | .withdrawQuote caller _ _ nonce => some (caller, nonce)
  | .cleanExpiredOrders caller _ _ nonce => some (caller, nonce)

/-- The seller whose nonce at the bond issuer a call uses. -/
def Call.sellerTaken (s : State) : Call → Option Address
  | .executePurchase _ orderId _ _ _ => (s.order.get orderId).map Order.seller
  | _ => none

/-- Sweeping takes no nonce of its own. -/
theorem sweepOrders_nonce (env : Env) (ids : List Nat) (cleaned : Nat) (s : State) :
    (sweepOrders env ids (cleaned, s)).2.nonce = s.nonce := by
  induction ids generalizing cleaned s with
  | nil => rfl
  | cons id rest ih =>
      unfold sweepOrders
      split
      · split
        · rw [ih]; rfl
        · rw [ih]
      · exact ih cleaned s

/-- A call of the router takes its caller's nonce, and a purchase also the seller's in
the issuer. -/
theorem nonceMove_exec {env : Env} {issuers : Issuers} {s s' : State}
    {issuer' : Option BondIssuer.State} {call : Call} {out : Output}
    (h : exec env issuers s call = .ok (out, issuer', s')) :
    NonceMove s.nonce s'.nonce call.nonceTaken := by
  cases call with
  | setAdmin currentAdmin newAdmin =>
      simp only [exec, silent_ok_iff, setAdmin, bind_ok_iff, pure_ok_iff] at h
      obtain ⟨⟨_, _, _, _, rfl⟩, -, -⟩ := h
      exact .untouched rfl
  | listBondTokens seller bondId amount pricePerToken quoteAsset expiresAfterSeconds nonce =>
      simp only [exec, listBondTokens, consumeNonce, useNonce_ok_iff, bind_ok_iff, pure_ok_iff,
        Prod.mk.injEq] at h
      obtain ⟨_, ⟨_, -, _, ⟨_, ⟨hnonce, rfl⟩, rfl⟩, _, -, _, -, _, -, _, -, _, -, rfl⟩, -, -,
        rfl⟩ := h
      exact .of_used hnonce rfl
  | cancelListing caller orderId nonce =>
      simp only [exec, silent_ok_iff, cancelListing, consumeNonce, useNonce_ok_iff, bind_ok_iff,
        pure_ok_iff] at h
      obtain ⟨⟨_, -, _, ⟨_, ⟨hnonce, rfl⟩, rfl⟩, _, -, _, -, _, -, rfl⟩, -, -⟩ := h
      exact .of_used hnonce rfl
  | executePurchase buyer orderId maxPrice amount nonce =>
      simp only [exec, bind_ok_iff, pure_ok_iff, Prod.mk.injEq, Prod.exists] at h
      obtain ⟨issuer, s'', hpurchase, -, -, rfl⟩ := h
      obtain ⟨order, -, -, hnonce, -, -, -, -, -, -, -, -, -, -, address, -, issuer', -, -, rfl⟩ :=
        executePurchase_ok_iff.mp hpurchase
      exact .of_used hnonce rfl
  | depositQuote caller quoteAsset amount nonce =>
      simp only [exec, silent_ok_iff, depositQuote, consumeNonce, useNonce_ok_iff, bind_ok_iff,
        pure_ok_iff] at h
      obtain ⟨⟨_, -, _, ⟨_, ⟨hnonce, rfl⟩, rfl⟩, _, -, _, -, rfl⟩, -, -⟩ := h
      exact .of_used hnonce rfl
  | withdrawQuote caller quoteAsset amount nonce =>
      simp only [exec, silent_ok_iff, withdrawQuote, consumeNonce, useNonce_ok_iff, bind_ok_iff,
        pure_ok_iff] at h
      obtain ⟨⟨_, -, _, ⟨_, ⟨hnonce, rfl⟩, rfl⟩, _, -, _, -, rfl⟩, -, -⟩ := h
      exact .of_used hnonce rfl
  | cleanExpiredOrders caller startId limit nonce =>
      simp only [exec, cleanExpiredOrders, consumeNonce, useNonce_ok_iff, bind_ok_iff,
        pure_ok_iff, Prod.mk.injEq] at h
      obtain ⟨⟨result, after⟩, ⟨_, -, _, ⟨_, ⟨hnonce, rfl⟩, rfl⟩, _, -, _, -, hsweep⟩, -, -,
        rfl⟩ := h
      refine .of_used hnonce ?_
      split at hsweep
      · obtain ⟨-, rfl⟩ := Prod.mk.inj (pure_ok_iff.mp hsweep)
        rfl
      · obtain ⟨-, rfl⟩ := Prod.mk.inj (pure_ok_iff.mp hsweep)
        exact sweepOrders_nonce ..

/-- A purchase uses the seller's nonce at the issuer; no other call reaches it. -/
theorem issuer_nonceMove_exec {env : Env} {issuers : Issuers} {s s' : State}
    {issuer' : Option BondIssuer.State} {call : Call} {out : Output}
    (h : exec env issuers s call = .ok (out, issuer', s')) :
    (issuer' = none ∧ call.sellerTaken s = none) ∨
      ∃ address issuer after seller, issuers address = some issuer ∧ issuer' = some after ∧
        call.sellerTaken s = some seller ∧
        NonceMove issuer.nonce after.nonce (some (seller, issuer.nonce.read seller)) := by
  cases call with
  | executePurchase buyer orderId maxPrice amount nonce =>
      simp only [exec, bind_ok_iff, pure_ok_iff, Prod.mk.injEq, Prod.exists] at h
      obtain ⟨after, s'', hpurchase, -, rfl, rfl⟩ := h
      obtain ⟨order, hget, -, -, -, -, -, -, -, -, -, -, -, -, address, -, issuer, hissuer,
        htransfer, -⟩ := executePurchase_ok_iff.mp hpurchase
      refine Or.inr ⟨address, issuer, after, order.seller, hissuer, rfl, ?_,
        BondIssuer.nonceMove_transfer htransfer⟩
      simp [Call.sellerTaken, hget]
  | listBondTokens seller bondId amount pricePerToken quoteAsset expiresAfterSeconds nonce =>
      simp only [exec, bind_ok_iff, pure_ok_iff, Prod.mk.injEq, Prod.exists] at h
      obtain ⟨id, s'', -, -, rfl, -⟩ := h
      exact Or.inl ⟨rfl, rfl⟩
  | cleanExpiredOrders caller startId limit nonce =>
      simp only [exec, bind_ok_iff, pure_ok_iff, Prod.mk.injEq, Prod.exists] at h
      obtain ⟨result, s'', -, -, rfl, -⟩ := h
      exact Or.inl ⟨rfl, rfl⟩
  | cancelListing caller orderId nonce => exact Or.inl ⟨(silent_ok_iff.mp h).2.1, rfl⟩
  | setAdmin currentAdmin newAdmin => exact Or.inl ⟨(silent_ok_iff.mp h).2.1, rfl⟩
  | depositQuote caller quoteAsset amount nonce => exact Or.inl ⟨(silent_ok_iff.mp h).2.1, rfl⟩
  | withdrawQuote caller quoteAsset amount nonce => exact Or.inl ⟨(silent_ok_iff.mp h).2.1, rfl⟩

end EcoMint.DexRouter

/-! ## The project registry -/

namespace EcoMint.ProjectRegistry

/-- The nonce that a call takes from persistent storage. -/
def Call.persistentNonceTaken (call : Call) : Option (Address × Nat) :=
  if call.CountsInInstance then none else call.nonceTaken

/-- A call of the registry takes its caller's nonce in persistent storage, except for
`setAdmin`. -/
theorem nonceMove_exec {env : Env} {s s' : State} {call : Call} {out : Output}
    (h : exec env s call = .ok (out, s')) :
    NonceMove s.persistentNonce s'.persistentNonce call.persistentNonceTaken := by
  unfold Call.persistentNonceTaken
  cases (registryStep_exec h).nonceStep with
  | untouched hcall _ hpersistent =>
      rw [hcall, ite_self]
      exact .untouched hpersistent
  | inPersistent addr hcall hplace _ hpersistent =>
      rw [if_neg hplace, hcall]
      exact .used addr hpersistent
  | inInstance addr _ hplace _ hpersistent =>
      rw [if_pos hplace]
      exact .untouched hpersistent

end EcoMint.ProjectRegistry

/-! ## The whole chain -/

namespace EcoMint

/-- The contracts that the API calls with a nonce. -/
inductive Contract
  | bondIssuer
  | couponEngine
  | oracleConsumer
  | dexRouter
  | projectRegistry
deriving DecidableEq

/-- The nonces that a contract expects next. -/
def Chain.nonces (chain : Chain) : Contract → Storage Address Nat
  | .bondIssuer => chain.world.issuer.nonce
  | .couponEngine => chain.world.engine.nonce
  | .oracleConsumer => chain.world.oracle.nonce
  | .dexRouter => chain.world.dex.nonce
  | .projectRegistry => chain.registry.persistentNonce

/-- The address and the nonce that a call takes at a contract. -/
def ChainCall.nonceTaken : ChainCall → Contract → Option (Address × Nat)
  | .deployed (.issuer call), .bondIssuer => call.nonceTaken
  | .deployed (.engine call), .couponEngine => some call.nonceTaken
  | .deployed (.oracle call), .oracleConsumer => call.nonceTaken
  | .deployed (.dex call), .dexRouter => call.nonceTaken
  | .registry call, .projectRegistry => call.persistentNonceTaken
  | _, _ => none

/-- The seller from whom a call is a purchase. -/
def ChainCall.sellerTaken (chain : Chain) : ChainCall → Option Address
  | .deployed (.dex call) => call.sellerTaken chain.world.dex
  | _ => none

/-- The call, if it succeeds, uses up the nonce of `addr` at the contract. -/
def ChainCall.Uses (chain : Chain) (call : ChainCall) (contract : Contract) (addr : Address) :
    Prop :=
  TakesFrom (call.nonceTaken contract) addr ∨
    contract = .bondIssuer ∧ call.sellerTaken chain = some addr

instance (chain : Chain) (call : ChainCall) (contract : Contract) (addr : Address) :
    Decidable (call.Uses chain contract addr) := by
  unfold ChainCall.Uses; infer_instance

/-- The uses of a call's own nonce, where it is no purchase. -/
theorem ChainCall.uses_iff_of_no_seller {chain : Chain} {call : ChainCall} {contract : Contract}
    {addr : Address} (h : contract = .bondIssuer → call.sellerTaken chain = none) :
    call.Uses chain contract addr ↔ TakesFrom (call.nonceTaken contract) addr := by
  refine or_iff_left fun hseller => ?_
  rw [h hseller.1] at hseller
  cases hseller.2

/-- A nonce after a call is one more for those that it takes. -/
theorem read_of_nonceMove {chain chain' : Chain} {call : ChainCall} {contract : Contract}
    {addr : Address} (hseller : contract = .bondIssuer → call.sellerTaken chain = none)
    (hmove : NonceMove (chain.nonces contract) (chain'.nonces contract)
      (call.nonceTaken contract)) :
    (chain'.nonces contract).read addr = (chain.nonces contract).read addr +
      if call.Uses chain contract addr then 1 else 0 := by
  rw [hmove.read addr]
  simp only [ChainCall.uses_iff_of_no_seller hseller]

/-- **Nonce lemma.**  A successful call raises by one the nonces it uses, and
no others. -/
theorem Chain.nonces_execute {chain chain' : Chain} {ctx : TxContext} {call : ChainCall}
    (h : chain.execute ctx call = .ok chain') (contract : Contract) (addr : Address) :
    (chain'.nonces contract).read addr = (chain.nonces contract).read addr +
      if call.Uses chain contract addr then 1 else 0 := by
  cases chainStep_of_execute h with
  | registry inner out registry hcall hexec hafter =>
      subst hcall hafter
      refine read_of_nonceMove (fun _ => rfl) ?_
      cases contract with
      | projectRegistry => exact ProjectRegistry.nonceMove_exec hexec
      | bondIssuer | couponEngine | oracleConsumer | dexRouter => exact .untouched rfl
  | deployed inner out world hcall hstep hafter =>
      subst hcall hafter
      cases hstep with
      | issuer call o s hcall _ hexec hafter =>
          obtain rfl : inner = .issuer call := hcall
          subst hafter
          refine read_of_nonceMove (fun _ => rfl) ?_
          cases contract with
          | bondIssuer => exact BondIssuer.nonceMove_exec hexec
          | couponEngine | oracleConsumer | dexRouter | projectRegistry => exact .untouched rfl
      | oracle call o s hcall _ hexec hafter =>
          obtain rfl : inner = .oracle call := hcall
          subst hafter
          refine read_of_nonceMove (fun _ => rfl) ?_
          cases contract with
          | oracleConsumer => exact OracleConsumer.nonceMove_exec hexec
          | bondIssuer | couponEngine | dexRouter | projectRegistry => exact .untouched rfl
      | engine call o s hcall _ hexec hafter =>
          obtain rfl : inner = .engine call := hcall
          subst hafter
          refine read_of_nonceMove (fun _ => rfl) ?_
          cases contract with
          | couponEngine => exact CouponEngine.nonceMove_exec hexec
          | bondIssuer | oracleConsumer | dexRouter | projectRegistry => exact .untouched rfl
      | retirement call o s hcall _ hexec hafter =>
          obtain rfl : inner = .retirement call := hcall
          subst hafter
          refine read_of_nonceMove (fun _ => rfl) ?_
          cases contract <;> exact .untouched rfl
      | dex call o issuer' s hcall _ hexec hafter =>
          obtain rfl : inner = .dex call := hcall
          subst hafter
          cases contract with
          | dexRouter =>
              exact read_of_nonceMove (fun h => by cases h) (DexRouter.nonceMove_exec hexec)
          | couponEngine | oracleConsumer | projectRegistry =>
              exact read_of_nonceMove (fun h => by cases h) (.untouched rfl)
          | bondIssuer =>
              rcases DexRouter.issuer_nonceMove_exec hexec with ⟨rfl, hseller⟩ |
                ⟨address, issuer, after, seller, hissuer, rfl, hseller, hmove⟩
              · exact read_of_nonceMove (fun _ => hseller) (.untouched rfl)
              · obtain rfl := World.eq_issuer_of_issuerAt hissuer
                have hread := hmove.read addr
                have huses : (ChainCall.deployed (.dex call)).Uses chain .bondIssuer addr ↔
                    seller = addr := by
                  simp [ChainCall.Uses, ChainCall.nonceTaken, ChainCall.sellerTaken, TakesFrom,
                    hseller]
                simp only [huses]
                simpa [TakesFrom, Chain.nonces] using hread

end EcoMint
