import EcoMint.CreditSpending
import EcoMint.DexEscrow
import EcoMint.DexLedger
import EcoMint.NonceUse
import EcoMint.OracleStake
import EcoMint.PurchaseAuthorisation

/-!
# What an account signed

Every entry point asks for the authorisation of one address before it does
anything, and all but three admin changes use up a nonce of that address.  Two
things follow for every run of the deployment.

A signature is good for one call: of the nonces of an address at a contract
exactly 0, 1, 2, … are accepted, in this order, each in a transaction that the
address authorised.  And nobody loses anything without having signed: bond
tokens, quote balances, listed amounts and accrued credits of an address go down
only in a transaction it authorised; a stake may also go down when the admin
rejects a report of its owner.
-/

namespace EcoMint

open Fallible

/-! ## The signer of a call -/

namespace BondIssuer

/-- The address whose authorisation a call asks for. -/
def Call.signer : Call → Address
  | .setAdmin currentAdmin _ => currentAdmin
  | .setProjectRegistry caller _ _ => caller
  | .issueBond caller _ _ => caller
  | .subscribe investor _ _ _ => investor
  | .transfer sender _ _ _ _ => sender
  | .fundRedemption caller _ _ _ => caller
  | .redeem holder _ _ _ => holder
  | .matureBond caller _ _ => caller

/-- Whoever an accepted registry call names as its signer has authorised it. -/
theorem signer_authorizes {env : Env} {registries : Registries} {s s' : State} {call : Call}
    {out : Output} (h : exec env registries s call = .ok (out, s')) :
    env.Authorizes call.signer := by
  cases call <;>
    simp only [exec, silent, setAdmin, setProjectRegistry, issueBond, subscribe, transfer,
      fundRedemption, redeem, matureBond, bind_ok_iff, Env.requireAuth_ok_iff] at h <;>
    grind [Call.signer]

/-- The one whose nonce a registry call takes is its signer. -/
theorem signer_of_nonceTaken {call : Call} {addr : Address} {nonce : Nat}
    (h : call.nonceTaken = some (addr, nonce)) : call.signer = addr := by
  cases call <;> grind [Call.nonceTaken, Call.signer]

end BondIssuer

namespace CouponEngine

/-- The address whose authorisation a call asks for. -/
def Call.signer (call : Call) : Address := call.nonceTaken.1

/-- Whoever an accepted call of the oracle names as its signer has authorised it. -/
theorem signer_authorizes {env : Env} {peers : Peers} {s s' : State} {call : Call}
    {out : Output} (h : exec env peers s call = .ok (out, s')) : env.Authorizes call.signer := by
  cases call <;>
    simp only [exec, silent, returning, registerBond, distributeCoupon, distributeCouponBatch,
      claimCredits, sweepUndistributed, setAdmin, bind_ok_iff, Env.requireAuth_ok_iff] at h <;>
    grind [Call.signer, Call.nonceTaken]

end CouponEngine

namespace OracleConsumer

/-- The address whose authorisation a call asks for. -/
def Call.signer : Call → Address
  | .setAdmin currentAdmin _ => currentAdmin
  | .registerProvider caller _ _ _ => caller
  | .removeProvider caller _ _ => caller
  | .submitReport provider _ _ _ _ _ _ _ _ => provider
  | .verifyReport caller _ _ => caller
  | .challengeReport challenger _ _ _ => challenger
  | .resolveChallenge caller _ _ _ => caller
  | .setSignatureThreshold caller _ _ => caller
  | .setMinimumVerifierStake caller _ _ => caller
  | .addStake provider _ _ => provider
  | .withdrawStake provider _ _ => provider

/-- Whoever an accepted call of the issuer names as its signer has authorised it. -/
theorem signer_authorizes {env : Env} {s s' : State} {call : Call} {out : Output}
    (h : exec env s call = .ok (out, s')) : env.Authorizes call.signer := by
  cases call <;>
    simp only [exec, silent, setAdmin, registerProvider, removeProvider, submitReport,
      verifyReport, challengeReport, resolveChallenge, setSignatureThreshold,
      setMinimumVerifierStake, addStake, withdrawStake, bind_ok_iff,
      Env.requireAuth_ok_iff] at h <;>
    grind [Call.signer]

/-- The one whose nonce a call of the issuer takes is its signer. -/
theorem signer_of_nonceTaken {call : Call} {addr : Address} {nonce : Nat}
    (h : call.nonceTaken = some (addr, nonce)) : call.signer = addr := by
  cases call <;> grind [Call.nonceTaken, Call.signer]

end OracleConsumer

namespace CreditRetirement

/-- The address and the nonce a call takes. -/
def Call.nonceTaken : Call → Address × Nat
  | .retireCredits holder _ _ _ _ nonce => (holder, nonce)
  | .setAdmin currentAdmin _ nonce => (currentAdmin, nonce)

/-- The address whose authorisation a call asks for. -/
def Call.signer (call : Call) : Address := call.nonceTaken.1

/-- Whoever an accepted call of the engine names as its signer has authorised it. -/
theorem signer_authorizes {env : Env} {peers : Peers} {s s' : State} {call : Call}
    {out : Output} (h : exec env peers s call = .ok (out, s')) : env.Authorizes call.signer := by
  cases call <;>
    simp only [exec, retireCredits, setAdmin, bind_ok_iff, Env.requireAuth_ok_iff] at h <;>
    grind [Call.signer, Call.nonceTaken]

/-- Every accepted call of the engine takes the nonce that it names, whichever part of
the engine it goes to. -/
theorem nonceMove_exec {env : Env} {peers : Peers} {s s' : State} {call : Call} {out : Output}
    (h : exec env peers s call = .ok (out, s')) :
    NonceMove s.nonce s'.nonce (some call.nonceTaken) := by
  cases call with
  | retireCredits holder bondId amount creditType certificateHash nonce =>
      simp only [exec, retireCredits, consumeNonce, useNonce_ok_iff, bind_ok_iff, pure_ok_iff,
        Prod.mk.injEq] at h
      obtain ⟨_, ⟨_, -, _, ⟨_, ⟨hnonce, rfl⟩, rfl⟩, _, -, _, -, _, -, _, -, _, -, _, -, _, -, _,
        -, _, -, _, -, rfl⟩, -, rfl⟩ := h
      exact .of_used hnonce rfl
  | setAdmin currentAdmin newAdmin nonce =>
      simp only [exec, setAdmin, consumeNonce, useNonce_ok_iff, bind_ok_iff, pure_ok_iff,
        Prod.mk.injEq] at h
      obtain ⟨_, ⟨_, -, _, ⟨_, ⟨hnonce, rfl⟩, rfl⟩, _, -, rfl⟩, -, rfl⟩ := h
      exact .of_used hnonce rfl

end CreditRetirement

namespace DexRouter

/-- The address whose authorisation a call asks for. -/
def Call.signer : Call → Address
  | .setAdmin currentAdmin _ => currentAdmin
  | .listBondTokens seller _ _ _ _ _ _ => seller
  | .cancelListing caller _ _ => caller
  | .executePurchase buyer _ _ _ _ => buyer
  | .depositQuote caller _ _ _ => caller
  | .withdrawQuote caller _ _ _ => caller
  | .cleanExpiredOrders caller _ _ _ => caller

/-- Whoever an accepted call of the router names as its signer has authorised it. -/
theorem signer_authorizes {env : Env} {issuers : Issuers} {s : State} {effect : Effect}
    {call : Call} {out : Output} (h : exec env issuers s call = .ok (out, effect)) :
    env.Authorizes call.signer := by
  cases call <;>
    simp only [exec, silent, setAdmin, listBondTokens, cancelListing, executePurchase,
      depositQuote, withdrawQuote, cleanExpiredOrders, bind_ok_iff, Env.requireAuth_ok_iff] at h <;>
    grind [Call.signer]

/-- The one whose nonce a call of the router takes is its signer. -/
theorem signer_of_nonceTaken {call : Call} {addr : Address} {nonce : Nat}
    (h : call.nonceTaken = some (addr, nonce)) : call.signer = addr := by
  cases call <;> grind [Call.nonceTaken, Call.signer]

end DexRouter

/-! ## One signature, one call -/

/-- The contracts of a deployment. -/
inductive Deployed
  | bondIssuer
  | oracleConsumer
  | couponEngine
  | creditRetirement
  | dexRouter
deriving DecidableEq

/-- The nonces that a contract expects next. -/
def World.nonces (w : World) : Deployed → Storage Address Nat
  | .bondIssuer => w.issuer.nonce
  | .oracleConsumer => w.oracle.nonce
  | .couponEngine => w.engine.nonce
  | .creditRetirement => w.retirement.nonce
  | .dexRouter => w.dex.nonce

/-- The address and the nonce that a call takes at a contract.  A purchase takes
the seller's nonce at the bond issuer, whatever it is. -/
def Call.nonceTaken (w : World) : Call → Deployed → Option (Address × Nat)
  | .issuer call, .bondIssuer => call.nonceTaken
  | .oracle call, .oracleConsumer => call.nonceTaken
  | .engine call, .couponEngine => some call.nonceTaken
  | .retirement call, .creditRetirement => some call.nonceTaken
  | .dex call, .dexRouter => call.nonceTaken
  | .dex call, .bondIssuer =>
      (call.sellerTaken w.dex).map fun seller => (seller, w.issuer.nonce.read seller)
  | _, _ => none

/-- The address agreed to the transaction: it signed, or it is the contract that
makes the call. -/
def Tx.Authorizes (w : World) (tx : Tx) (addr : Address) : Prop :=
  addr ∈ tx.signers ∨ tx.invoker = some addr ∨
    ∃ call, tx.call = .dex call ∧ addr = w.dexAddress

/-- What a call's environment authorises, the transaction authorises. -/
theorem Tx.Authorizes.of_env {w : World} {tx : Tx} {contract addr : Address}
    (h : (tx.env contract).Authorizes addr) : tx.Authorizes w addr :=
  h.imp_right Or.inl

/-- The issuer sees the router as the one who calls. -/
theorem Tx.Authorizes.of_invoking {w : World} {tx : Tx} {call : DexRouter.Call}
    {callee addr : Address} (hcall : tx.call = .dex call)
    (h : ((tx.env w.dexAddress).invoking callee).Authorizes addr) : tx.Authorizes w addr := by
  rcases h with hsigned | hinvoker
  · exact Or.inl hsigned
  · exact Or.inr (Or.inr ⟨call, hcall, (Option.some.inj hinvoker).symm⟩)

/-- A purchase moves the seller's tokens with the seller's authorisation. -/
theorem sellerTaken_authorizes {w : World} {tx : Tx} {call : DexRouter.Call}
    {out : DexRouter.Output} {effect : DexRouter.Effect} {seller : Address}
    (hcall : tx.call = .dex call)
    (hexec : DexRouter.exec (tx.env w.dexAddress) w.issuerAt w.dex call = .ok (out, effect))
    (hseller : call.sellerTaken w.dex = some seller) : tx.Authorizes w seller := by
  cases call with
  | executePurchase buyer orderId maxPrice amount nonce =>
      simp only [DexRouter.exec, bind_ok_iff, pure_ok_iff, Prod.mk.injEq, Prod.exists] at hexec
      obtain ⟨after, s', hpurchase, -⟩ := hexec
      obtain ⟨order, hget, -, -, -, -, -, -, -, -, -, -, -, -, address, -, issuer, -, htransfer,
        -⟩ := DexRouter.executePurchase_ok_iff.mp hpurchase
      have hauth := (BondIssuer.transfer_ok_iff.mp htransfer).1
      obtain rfl : order.seller = seller := by
        simpa [DexRouter.Call.sellerTaken, hget] using hseller
      exact .of_invoking hcall hauth
  | _ => cases hseller

/-- **Step lemma.**  At every contract a successful transaction takes the next
nonce of an address that authorised it, or none. -/
theorem WorldStep.nonceMove {w w' : World} {tx : Tx} {out : Output} (h : WorldStep w tx out w')
    (contract : Deployed) :
    NonceMove (w.nonces contract) (w'.nonces contract) (tx.call.nonceTaken w contract) ∧
      ∀ addr nonce, tx.call.nonceTaken w contract = some (addr, nonce) →
        tx.Authorizes w addr := by
  cases h with
  | issuer call o s hcall hout hexec hafter =>
      subst hafter
      rw [hcall]
      have hauth : ∀ addr nonce, call.nonceTaken = some (addr, nonce) → tx.Authorizes w addr := by
        intro addr nonce htaken
        rw [← BondIssuer.signer_of_nonceTaken htaken]
        exact .of_env (BondIssuer.signer_authorizes hexec)
      cases contract with
      | bondIssuer => exact ⟨BondIssuer.nonceMove_exec hexec, hauth⟩
      | _ => exact ⟨.untouched rfl, fun addr nonce htaken => by cases htaken⟩
  | oracle call o s hcall hout hexec hafter =>
      subst hafter
      rw [hcall]
      have hauth : ∀ addr nonce, call.nonceTaken = some (addr, nonce) → tx.Authorizes w addr := by
        intro addr nonce htaken
        rw [← OracleConsumer.signer_of_nonceTaken htaken]
        exact .of_env (OracleConsumer.signer_authorizes hexec)
      cases contract with
      | oracleConsumer => exact ⟨OracleConsumer.nonceMove_exec hexec, hauth⟩
      | _ => exact ⟨.untouched rfl, fun addr nonce htaken => by cases htaken⟩
  | engine call o s hcall hout hexec hafter =>
      subst hafter
      rw [hcall]
      have hauth : ∀ addr nonce, some call.nonceTaken = some (addr, nonce) →
          tx.Authorizes w addr := by
        intro addr nonce htaken
        have hsigner : call.signer = addr := congrArg Prod.fst (Option.some.inj htaken)
        exact hsigner ▸ .of_env (CouponEngine.signer_authorizes hexec)
      cases contract with
      | couponEngine => exact ⟨CouponEngine.nonceMove_exec hexec, hauth⟩
      | _ => exact ⟨.untouched rfl, fun addr nonce htaken => by cases htaken⟩
  | retirement call o s hcall hout hexec hafter =>
      subst hafter
      rw [hcall]
      have hauth : ∀ addr nonce, some call.nonceTaken = some (addr, nonce) →
          tx.Authorizes w addr := by
        intro addr nonce htaken
        have hsigner : call.signer = addr := congrArg Prod.fst (Option.some.inj htaken)
        exact hsigner ▸ .of_env (CreditRetirement.signer_authorizes hexec)
      cases contract with
      | creditRetirement => exact ⟨CreditRetirement.nonceMove_exec hexec, hauth⟩
      | _ => exact ⟨.untouched rfl, fun addr nonce htaken => by cases htaken⟩
  | dex call o issuer s hcall hout hexec hafter =>
      subst hafter
      rw [hcall]
      cases contract with
      | dexRouter =>
          refine ⟨DexRouter.nonceMove_exec hexec, ?_⟩
          intro addr nonce htaken
          rw [← DexRouter.signer_of_nonceTaken htaken]
          exact .of_env (DexRouter.signer_authorizes hexec)
      | bondIssuer =>
          constructor
          · rcases DexRouter.issuer_nonceMove_exec hexec with ⟨rfl, hseller⟩ |
              ⟨address, before, after, seller, hbefore, rfl, hseller, hmove⟩
            · simp only [Call.nonceTaken, hseller, Option.map_none]
              exact .untouched rfl
            · obtain rfl := World.eq_issuer_of_issuerAt hbefore
              simp only [Call.nonceTaken, hseller, Option.map_some]
              exact hmove
          · intro addr nonce htaken
            obtain ⟨seller, hseller, huse⟩ := Option.map_eq_some_iff.mp htaken
            obtain rfl : seller = addr := congrArg Prod.fst huse
            exact sellerTaken_authorizes hcall hexec hseller
      | _ => exact ⟨.untouched rfl, fun addr nonce htaken => by cases htaken⟩

/-- The nonce of an address that a transaction took at a contract. -/
def LogEntry.nonceOf (contract : Deployed) (addr : Address) (e : LogEntry) : Option Nat :=
  (e.input.call.nonceTaken e.before contract).bind fun use =>
    if use.1 = addr then some use.2 else none

/-- The nonces of an address that a contract accepted, in order. -/
def acceptedAt (contract : Deployed) (addr : Address) (l : List LogEntry) : List Nat :=
  l.filterMap (LogEntry.nonceOf contract addr)

/-- One accepted transaction appends the nonce it takes to the list of those accepted so
far, and that nonce is the next one. -/
theorem acceptedAt_step {l : List LogEntry} {e : LogEntry} (hfires : machine.Fires e)
    (contract : Deployed) (addr : Address)
    (hs : acceptedAt contract addr l = List.range ((e.before.nonces contract).read addr)) :
    acceptedAt contract addr (l ++ [e]) =
      List.range ((e.after.nonces contract).read addr) := by
  obtain ⟨hmove, -⟩ := (worldStep_of_execute hfires).nonceMove contract
  have hsnoc : acceptedAt contract addr (l ++ [e]) =
      acceptedAt contract addr l ++ (e.nonceOf contract addr).toList := Machine.filterMap_snoc ..
  rw [hsnoc, hs, hmove.read addr]
  unfold LogEntry.nonceOf
  generalize e.input.call.nonceTaken e.before contract = use at hmove ⊢
  cases hmove with
  | untouched hafter => simp [TakesFrom]
  | used user hafter =>
      by_cases huser : user = addr
      · simp [TakesFrom, huser, List.range_succ]
      · simp [TakesFrom, huser]

/-- **A signature is good for one call.**  In every run of the deployment the
nonces of an address that a contract accepts are 0, 1, 2, … in this order, each
once, and each in a transaction that the address authorised. -/
theorem nonces_accepted_once (d : Deployment) (txs : List Tx) (contract : Deployed)
    (addr : Address) :
    acceptedAt contract addr (machine.log (deploy d) txs) =
        List.range (((machine.run (deploy d) txs).nonces contract).read addr) ∧
      ∀ e ∈ machine.log (deploy d) txs, ∀ nonce,
        LogEntry.nonceOf contract addr e = some nonce →
        e.input.Authorizes e.before addr := by
  constructor
  · refine machine.invariant (P := fun w l =>
      acceptedAt contract addr l = List.range ((w.nonces contract).read addr)) ?_ ?_ txs
    · cases contract <;> rfl
    · intro l e hfires hs
      exact acceptedAt_step hfires contract addr hs
  · intro e he nonce hnonce
    obtain ⟨pre, hfires, -⟩ := machine.exists_run_of_mem_log he
    obtain ⟨use, htaken, huse⟩ := Option.bind_eq_some_iff.mp hnonce
    have haddr : use.1 = addr := by
      by_contra hne
      rw [if_neg hne] at huse
      cases huse
    exact haddr ▸ ((worldStep_of_execute hfires).nonceMove contract).2 use.1 use.2 htaken

/-! ## Nobody loses anything unsigned -/

namespace BondIssuer

/-- Only the holder of tokens sends or redeems them. -/
theorem authorizes_of_tokens_lt {env : Env} {registries : Registries} {s s' : State} {call : Call}
    {out : Output} (h : exec env registries s call = .ok (out, s')) {k : Nat × Address}
    (hfall : s'.holderBalance.read k < s.holderBalance.read k) : env.Authorizes k.2 := by
  cases call with
  | subscribe investor bondId amount nonce =>
      obtain ⟨-, -, hpos, config, -, state, -, -, -, -, -, -, rfl⟩ :=
        subscribe_ok_iff.mp (silent_ok_iff.mp h).1
      dsimp only at hfall
      rw [Storage.read_credit] at hfall
      split at hfall <;> omega
  | transfer sender recipient bondId amount nonce =>
      obtain ⟨hauth, -, -, hpos, config, -, state, -, -, -, -, -, -, rfl⟩ :=
        transfer_ok_iff.mp (silent_ok_iff.mp h).1
      dsimp only at hfall
      rw [Storage.read_credit, Storage.read_credit] at hfall
      have hsender : k = (bondId, sender) := by
        by_contra hne
        rw [if_neg hne] at hfall
        split at hfall <;> omega
      rwa [hsender]
  | redeem holder bondId amount nonce =>
      obtain ⟨hauth, -, hpos, state, -, config, -, -, -, -, -, -, -, rfl⟩ :=
        redeem_ok_iff.mp (silent_ok_iff.mp h).1
      dsimp only at hfall
      rw [Storage.read_credit] at hfall
      have hholder : k = (bondId, holder) := by
        by_contra hne
        rw [if_neg hne] at hfall
        omega
      rwa [hholder]
  | setAdmin currentAdmin newAdmin =>
      obtain ⟨-, -, rfl⟩ := setAdmin_ok_iff.mp (silent_ok_iff.mp h).1
      exact absurd hfall (Int.lt_irrefl _)
  | setProjectRegistry caller registry nonce =>
      obtain ⟨-, -, -, rfl⟩ := setProjectRegistry_ok_iff.mp (silent_ok_iff.mp h).1
      exact absurd hfall (Int.lt_irrefl _)
  | issueBond caller config nonce =>
      simp only [exec, bind_ok_iff, pure_ok_iff, Prod.mk.injEq, Prod.exists] at h
      obtain ⟨bondId, s'', hissue, -, rfl⟩ := h
      obtain ⟨-, -, -, -, -, rfl⟩ := issueBond_ok hissue
      exact absurd hfall (Int.lt_irrefl _)
  | fundRedemption caller bondId amount nonce =>
      obtain ⟨-, -, -, -, -, -, rfl⟩ := fundRedemption_ok_iff.mp (silent_ok_iff.mp h).1
      exact absurd hfall (Int.lt_irrefl _)
  | matureBond caller bondId nonce =>
      obtain ⟨-, -, -, config, -, state, -, -, -, rfl⟩ :=
        matureBond_ok_iff.mp (silent_ok_iff.mp h).1
      exact absurd hfall (Int.lt_irrefl _)

end BondIssuer

namespace CouponEngine

/-- Only the holder of credits claims them. -/
theorem authorizes_of_accrued_lt {env : Env} {peers : Peers} {s s' : State} {call : Call}
    {out : Output} (h : exec env peers s call = .ok (out, s')) {k : Nat × Address}
    (hfall : s'.accruedCredits.read k < s.accruedCredits.read k) : env.Authorizes k.2 := by
  cases engineStep_exec h with
  | paid batch f hcall hfound hwrote =>
      have hpos : ∀ e ∈ f.entries batch, 0 < e.amount := fun _ he => Findings.entries_pos he
      have hgain := entries_sum_nonneg hpos (fun e => (batch.bondId, e.holder)) k
      rw [hwrote.accruedCredits, Storage.read_creditAll, List.map_map] at hfall
      have hsame : (f.entries batch).map ((fun e : (Nat × Address) × Int =>
          if k = e.1 then e.2 else 0) ∘ fun e => ((batch.bondId, e.holder), e.amount)) =
          (f.entries batch).map fun e => if k = (batch.bondId, e.holder) then e.amount else 0 := rfl
      rw [hsame] at hfall
      omega
  | claimed caller bondId nonce amount hcall hout hauth hamount hwrote =>
      rw [hwrote.accruedCredits, Storage.read_set] at hfall
      split at hfall
      · next hk => rwa [hk]
      · exact absurd hfall (Int.lt_irrefl _)
  | registered caller bondId projectId nonce issuer config hcall hissuer hconfig hafter =>
      rw [hafter] at hfall
      exact absurd hfall (Int.lt_irrefl _)
  | swept caller bondId nonce amount hcall hout hamount hafter =>
      rw [hafter] at hfall
      exact absurd hfall (Int.lt_irrefl _)
  | administered currentAdmin newAdmin nonce hcall hafter =>
      rw [hafter] at hfall
      exact absurd hfall (Int.lt_irrefl _)

end CouponEngine

namespace OracleConsumer

/-- The admin rejects a report of the provider in this call. -/
def Call.RejectsReportOf (s : State) (call : Call) (provider : Address) : Prop :=
  ∃ caller reportId nonce report, call = .resolveChallenge caller reportId .rejected nonce ∧
    s.admin = some caller ∧ s.report.get reportId = some report ∧ report.provider = provider

/-- A stake goes down by a withdrawal of its owner or a slash. -/
theorem stake_lt_cases {env : Env} {s s' : State} {call : Call} {out : Output}
    (h : exec env s call = .ok (out, s')) {addr : Address}
    (hfall : s'.stakeOf addr < s.stakeOf addr) :
    env.Authorizes addr ∨ call.RejectsReportOf s addr := by
  have hsigned := signer_authorizes h
  have hkept : s'.provider = s.provider → False := by
    intro hsame
    rw [State.stakeOf, State.stakeOf, hsame] at hfall
    exact Int.lt_irrefl _ hfall
  cases oracleStep_exec h with
  | managed hstep =>
      cases hstep with
      | withdrawn provider amount nonce p hcall hamount hget hcovered hafter =>
          subst hcall
          rw [stakeOf_of_move (d := -amount) hget (by rw [hafter]) (Int.sub_eq_add_neg ..)] at hfall
          split at hfall
          · next haddr => exact Or.inl (haddr ▸ hsigned)
          · omega
      | staked provider amount nonce p hcall hamount hget hrange hafter =>
          rw [stakeOf_of_move (d := amount) hget (by rw [hafter]) rfl] at hfall
          split at hfall <;> omega
      | registered caller provider methodology nonce hcall hadmin hnew hafter =>
          rw [stakeOf_of_set (by rw [hafter])] at hfall
          split at hfall
          · next haddr => simp [State.stakeOf, haddr, hnew] at hfall
          · exact absurd hfall (Int.lt_irrefl _)
      | removed caller provider nonce p hcall hadmin hget hafter =>
          rw [stakeOf_of_move (d := 0) hget (by rw [hafter]) (by simp)] at hfall
          simp at hfall
      | administered currentAdmin newAdmin hcall hadmin hafter => exact (hkept (hafter ▸ rfl)).elim
      | thresholdSet caller threshold nonce hcall hadmin hafter =>
          exact (hkept (hafter ▸ rfl)).elim
      | minimumSet caller stake nonce hcall hadmin hstake hafter =>
          exact (hkept (hafter ▸ rfl)).elim
  | rejected caller reportId nonce challenge report p penalty hcall hadmin hchallenge hopen hget
      hprovider hpenalty hafter =>
      rw [stakeOf_of_move (d := -penalty) hprovider (by rw [hafter]; rfl)
        (Int.sub_eq_add_neg ..)] at hfall
      split at hfall
      · next haddr =>
          exact Or.inr ⟨caller, reportId, nonce, report, hcall, hadmin, hget, haddr.symm⟩
      · omega
  | submitted report p nonce hcall hprovider hactive hfresh hperiod hsound hapart hafter =>
      exact (hkept (hafter ▸ rfl)).elim
  | counted caller reportId nonce report hcall hcan hafter hshort =>
      obtain ⟨verifiers, counts, hrecorded⟩ := recordVerifier_frame (s.bump caller) caller reportId
      rw [hrecorded] at hafter
      exact (hkept (hafter ▸ rfl)).elim
  | verified caller reportId nonce report hcall hcan hafter hquorum =>
      obtain ⟨verifiers, counts, hrecorded⟩ := recordVerifier_frame (s.bump caller) caller reportId
      rw [hrecorded] at hafter
      exact (hkept (hafter ▸ rfl)).elim
  | challenged challenger reportId hash nonce report hcall hget hstatus hwindow hfresh hafter =>
      exact (hkept (hafter ▸ rfl)).elim
  | dismissed caller reportId nonce resolution challenge hcall hadmin hchallenge hclosed hafter =>
      exact (hkept (hafter ▸ rfl)).elim
  | upheld caller reportId nonce challenge report hcall hadmin hchallenge hopen hget hafter =>
      exact (hkept (hafter ▸ rfl)).elim

end OracleConsumer

namespace CreditRetirement

/-- Only the holder of credits retires them. -/
theorem authorizes_of_retired_lt {env : Env} {peers : Peers} {s s' : State} {call : Call}
    {out : Output} (h : exec env peers s call = .ok (out, s')) {k : Nat × Address}
    (hgrow : s.retiredPerBond.read k < s'.retiredPerBond.read k) : env.Authorizes k.2 := by
  have hsigned := signer_authorizes h
  rcases exec_cases h with ⟨holder, bondId, amount, creditType, hash, nonce, rfl, hpos, -, hwrote⟩ |
    ⟨currentAdmin, newAdmin, nonce, rfl, -, -, hsame, -, -⟩
  · rw [hwrote.perBond, Storage.read_credit] at hgrow
    split at hgrow
    · next hk => rwa [hk]
    · omega
  · rw [hsame] at hgrow
    exact absurd hgrow (Int.lt_irrefl _)

end CreditRetirement

namespace DexRouter

/-- Every accepted call of the router is one of its steps. -/
theorem routerStep_exec {env : Env} {issuers : Issuers} {s s' : State}
    {issuer' : Option BondIssuer.State} {call : Call} {out : Output}
    (h : exec env issuers s call = .ok (out, issuer', s')) : RouterStep env s s' call out := by
  have hfires : machine.Fires ⟨s, ⟨env, issuers, call⟩, out, s'⟩ := by
    simp [Machine.Fires, machine, h]
  exact routerStep_of_fires hfires

/-- A quote balance is paid with or withdrawn by its owner. -/
theorem authorizes_of_quote_lt {env : Env} {issuers : Issuers} {s s' : State}
    {issuer' : Option BondIssuer.State} {call : Call} {out : Output}
    (h : exec env issuers s call = .ok (out, issuer', s'))
    (hprice : ∀ id order, s.order.get id = some order → 0 < order.pricePerToken)
    {k : Symbol × Address} (hfall : s'.balance.read k < s.balance.read k) :
    env.Authorizes k.2 := by
  have hsigned := signer_authorizes h
  cases routerStep_exec h with
  | bought buyer id maxPrice amount nonce order hget hlive hdue hpos hle hfunds horder hcount
      hbalance =>
      have hproceeds : 0 < amount * order.pricePerToken := Int.mul_pos hpos (hprice id order hget)
      rw [hbalance, Storage.read_credit, Storage.read_credit] at hfall
      have hbuyer : k = (order.quoteAsset, buyer) := by
        by_contra hne
        rw [if_neg hne] at hfall
        split at hfall <;> omega
      rwa [hbuyer]
  | withdrawn caller quoteAsset amount nonce hpos hfunds horder hcount hbalance =>
      rw [hbalance, Storage.read_credit] at hfall
      split at hfall
      · next hk => rwa [hk]
      · omega
  | deposited caller quoteAsset amount nonce hpos horder hcount hbalance =>
      rw [hbalance, Storage.read_credit] at hfall
      split at hfall <;> omega
  | administered currentAdmin newAdmin horder hcount hbalance =>
      rw [hbalance] at hfall
      exact absurd hfall (Int.lt_irrefl _)
  | listed order expiresAfterSeconds nonce hlisted horder hcount hbalance =>
      rw [hbalance] at hfall
      exact absurd hfall (Int.lt_irrefl _)
  | cancelled caller id nonce order hget hlive horder hcount hbalance =>
      rw [hbalance] at hfall
      exact absurd hfall (Int.lt_irrefl _)
  | swept caller startId limit nonce result ids base hbase horder hcount hbalance =>
      rw [hbalance] at hfall
      exact absurd hfall (Int.lt_irrefl _)

/-- What is listed for a seller goes down when the seller cancels a listing or
sells from it. -/
theorem listed_lt_cases {env : Env} {issuers : Issuers} {s s' : State}
    {issuer' : Option BondIssuer.State} {call : Call} {out : Output}
    (h : exec env issuers s call = .ok (out, issuer', s')) {k : Nat × Address}
    (hfall : s'.bondEscrow.read k < s.bondEscrow.read k) :
    env.Authorizes k.2 ∨ call.sellerTaken s = some k.2 := by
  have hsigned := signer_authorizes h
  cases call with
  | listBondTokens seller bondId amount pricePerToken quoteAsset expiresAfterSeconds nonce =>
      simp only [exec, listBondTokens, consumeNonce, bind_ok_iff, pure_ok_iff, rejectIf_ok_iff,
        okOr_ok_iff, IntRange.checkedAdd, IntRange.checked_eq_some, not_or, not_le,
        Prod.mk.injEq, Prod.exists] at h
      obtain ⟨_, _, ⟨_, -, _, ⟨_, -, rfl⟩, _, ⟨hpos, -⟩, _, -, _, -, _, ⟨-, rfl⟩, _, -, -, rfl⟩, -,
        -, rfl⟩ := h
      dsimp only at hfall
      rw [Storage.read_set] at hfall
      split at hfall
      · next hk => exact absurd hfall (by rw [hk]; omega)
      · exact absurd hfall (Int.lt_irrefl _)
  | cancelListing caller orderId nonce =>
      simp only [exec, silent_ok_iff, cancelListing, consumeNonce, bind_ok_iff, pure_ok_iff,
        rejectIf_ok_iff, okOr_ok_iff, not_not] at h
      obtain ⟨⟨_, -, _, ⟨_, -, rfl⟩, order, hget, _, hseller, _, -, rfl⟩, -, -⟩ := h
      dsimp only at hfall
      rw [Storage.read_set] at hfall
      split at hfall
      · next hk =>
          have howner : k.2 = caller := by rw [hk, hseller]
          exact Or.inl (howner ▸ hsigned)
      · exact absurd hfall (Int.lt_irrefl _)
  | executePurchase buyer orderId maxPrice amount nonce =>
      simp only [exec, bind_ok_iff, pure_ok_iff, Prod.mk.injEq, Prod.exists] at h
      obtain ⟨after, s'', hpurchase, -, -, rfl⟩ := h
      obtain ⟨order, hget, -, -, -, -, -, -, -, -, -, -, -, -, address, -, issuer, -, -, rfl⟩ :=
        executePurchase_ok_iff.mp hpurchase
      unfold State.purchased at hfall
      dsimp only at hfall
      rw [Storage.read_set] at hfall
      split at hfall
      · next hk => exact Or.inr (by simp [Call.sellerTaken, hget, hk])
      · exact absurd hfall (Int.lt_irrefl _)
  | cleanExpiredOrders caller startId limit nonce =>
      simp only [exec, bind_ok_iff, pure_ok_iff, Prod.mk.injEq, Prod.exists] at h
      obtain ⟨result, s'', hsweep, -, -, rfl⟩ := h
      simp only [cleanExpiredOrders, consumeNonce, bind_ok_iff, pure_ok_iff] at hsweep
      obtain ⟨_, -, _, ⟨nonces, -, rfl⟩, _, -, _, -, hsweep⟩ := hsweep
      split at hsweep
      · obtain ⟨-, rfl⟩ := Prod.mk.inj (pure_ok_iff.mp hsweep)
        exact absurd hfall (Int.lt_irrefl _)
      · obtain ⟨-, rfl⟩ := Prod.mk.inj (pure_ok_iff.mp hsweep)
        rw [sweepOrders_bondEscrow] at hfall
        exact absurd hfall (Int.lt_irrefl _)
  | setAdmin currentAdmin newAdmin =>
      simp only [exec, silent_ok_iff, setAdmin, bind_ok_iff, pure_ok_iff] at h
      obtain ⟨⟨_, -, _, -, rfl⟩, -, -⟩ := h
      exact absurd hfall (Int.lt_irrefl _)
  | depositQuote caller quoteAsset amount nonce =>
      simp only [exec, silent_ok_iff, depositQuote, consumeNonce, bind_ok_iff, pure_ok_iff] at h
      obtain ⟨⟨_, -, _, ⟨_, -, rfl⟩, _, -, _, -, rfl⟩, -, -⟩ := h
      exact absurd hfall (Int.lt_irrefl _)
  | withdrawQuote caller quoteAsset amount nonce =>
      simp only [exec, silent_ok_iff, withdrawQuote, consumeNonce, bind_ok_iff, pure_ok_iff] at h
      obtain ⟨⟨_, -, _, ⟨_, -, rfl⟩, _, -, _, -, rfl⟩, -, -⟩ := h
      exact absurd hfall (Int.lt_irrefl _)

end DexRouter

/-- What an address has in a deployment: tokens of a bond, a balance in a quote
asset, credits on a bond that it can claim, those that it can retire, what it has
listed of a bond, and its stake as a provider. -/
inductive Holding
  | tokens (bondId : Nat)
  | quote (quoteAsset : Symbol)
  | claimable (bondId : Nat)
  | retirable (bondId : Nat)
  | listed (bondId : Nat)
  | stake
deriving DecidableEq

/-- How much an address has. -/
def World.held (w : World) (addr : Address) : Holding → Int
  | .tokens bondId => w.issuer.holderBalance.read (bondId, addr)
  | .quote quoteAsset => w.dex.balance.read (quoteAsset, addr)
  | .claimable bondId => w.engine.accruedCredits.read (bondId, addr)
  | .retirable bondId =>
      w.engine.accruedCredits.read (bondId, addr) - w.retirement.retiredPerBond.read (bondId, addr)
  | .listed bondId => w.dex.bondEscrow.read (bondId, addr)
  | .stake => w.oracle.stakeOf addr

/-- The oracle's admin rejects a report of the address in this transaction. -/
def Tx.RejectsReportOf (w : World) (tx : Tx) (addr : Address) : Prop :=
  ∃ call, tx.call = .oracle call ∧ call.RejectsReportOf w.oracle addr

/-- A router call takes tokens from nobody but the seller whose tokens it moves. -/
theorem authorizes_of_sold {w : World} {tx : Tx} {call : DexRouter.Call} {out : DexRouter.Output}
    {issuer' : Option BondIssuer.State} {s : DexRouter.State} (hcall : tx.call = .dex call)
    (hexec : DexRouter.exec (tx.env w.dexAddress) w.issuerAt w.dex call = .ok (out, issuer', s))
    {k : Nat × Address}
    (hfall : (issuer'.getD w.issuer).holderBalance.read k < w.issuer.holderBalance.read k) :
    tx.Authorizes w k.2 := by
  have hkept : issuer' = none → False := by
    intro hnone
    rw [hnone] at hfall
    exact Int.lt_irrefl _ hfall
  cases DexRouter.orderStep_exec hexec with
  | bought id order buyer amount _ _ _ _ _ htransfer =>
      obtain ⟨address, before, after, -, hbefore, rfl, htransfer⟩ := htransfer
      obtain rfl := World.eq_issuer_of_issuerAt hbefore
      have hexec : BondIssuer.exec ((tx.env w.dexAddress).invoking address) tx.registries w.issuer
          (.transfer order.seller buyer order.bondId amount _) = .ok (_, after) :=
        BondIssuer.silent_ok_iff.mpr ⟨htransfer, rfl⟩
      exact .of_invoking hcall (BondIssuer.authorizes_of_tokens_lt hexec hfall)
  | idle _ _ _ hissuer => exact (hkept hissuer).elim
  | listed _ _ _ _ _ _ _ _ _ _ hissuer => exact (hkept hissuer).elim
  | cancelled _ _ _ _ _ _ _ hissuer => exact (hkept hissuer).elim
  | swept _ _ _ _ _ hissuer => exact (hkept hissuer).elim

/-- A holding that falls is one that its owner's signature allowed, but for the stake of
a provider whose report is rejected. -/
theorem WorldStep.authorizes_of_lt {w w' : World} {tx : Tx} {out : Output}
    (h : WorldStep w tx out w')
    (hprice : ∀ id order, w.dex.order.get id = some order → 0 < order.pricePerToken)
    {addr : Address} {holding : Holding} (hfall : w'.held addr holding < w.held addr holding) :
    tx.Authorizes w addr ∨ holding = .stake ∧ tx.RejectsReportOf w addr := by
  cases h with
  | issuer call o s hcall hout hexec hafter =>
      subst hafter
      cases holding with
      | tokens bondId =>
          exact Or.inl (.of_env (BondIssuer.authorizes_of_tokens_lt hexec hfall))
      | _ => exact absurd hfall (Int.lt_irrefl _)
  | oracle call o s hcall hout hexec hafter =>
      subst hafter
      cases holding with
      | stake =>
          rcases OracleConsumer.stake_lt_cases hexec hfall with hauth | hrejects
          · exact Or.inl (.of_env hauth)
          · exact Or.inr ⟨rfl, call, hcall, hrejects⟩
      | _ => exact absurd hfall (Int.lt_irrefl _)
  | engine call o s hcall hout hexec hafter =>
      subst hafter
      cases holding with
      | claimable bondId =>
          exact Or.inl (.of_env (CouponEngine.authorizes_of_accrued_lt hexec hfall))
      | retirable bondId =>
          have hclaimed : s.accruedCredits.read (bondId, addr) <
              w.engine.accruedCredits.read (bondId, addr) := by
            simp only [World.held] at hfall
            omega
          exact Or.inl (.of_env (CouponEngine.authorizes_of_accrued_lt hexec hclaimed))
      | _ => exact absurd hfall (Int.lt_irrefl _)
  | retirement call o s hcall hout hexec hafter =>
      subst hafter
      cases holding with
      | retirable bondId =>
          have hretired : w.retirement.retiredPerBond.read (bondId, addr) <
              s.retiredPerBond.read (bondId, addr) := by
            simp only [World.held] at hfall
            omega
          exact Or.inl (.of_env (CreditRetirement.authorizes_of_retired_lt hexec hretired))
      | _ => exact absurd hfall (Int.lt_irrefl _)
  | dex call o issuer' s hcall hout hexec hafter =>
      subst hafter
      cases holding with
      | tokens bondId => exact Or.inl (authorizes_of_sold hcall hexec hfall)
      | quote quoteAsset =>
          exact Or.inl (.of_env (DexRouter.authorizes_of_quote_lt hexec hprice hfall))
      | listed bondId =>
          rcases DexRouter.listed_lt_cases hexec hfall with hauth | hseller
          · exact Or.inl (.of_env hauth)
          · exact Or.inl (sellerTaken_authorizes hcall hexec hseller)
      | _ => exact absurd hfall (Int.lt_irrefl _)

/-- **Nobody loses anything unsigned.**  In every run of the deployment whatever
an address has goes down only in a transaction that the address authorised, or it
is a stake and the admin rejects a report of its owner. -/
theorem holdings_fall_signed (d : Deployment) (txs : List Tx) :
    ∀ e ∈ machine.log (deploy d) txs, ∀ (addr : Address) (holding : Holding),
      e.after.held addr holding < e.before.held addr holding →
        e.input.Authorizes e.before addr ∨
          holding = .stake ∧ e.input.RejectsReportOf e.before addr := by
  intro e he addr holding hfall
  obtain ⟨pre, hfires, hbefore⟩ := machine.exists_run_of_mem_log he
  refine (worldStep_of_execute hfires).authorizes_of_lt ?_ hfall
  rw [hbefore]
  exact (quoteInvariant d pre).price_pos

/-- Account 1 passes 40 of its tokens on. -/
theorem holdings_fall_signed_transfer :
    ∃ e ∈ machine.log (deploy sampleDeployment)
        (reportedBond ++ [sampleTx 6 1 (.issuer (.transfer 1 2 1 40 1))]),
      e.after.held 1 (.tokens 1) < e.before.held 1 (.tokens 1) ∧
        (e.input.Authorizes e.before 1 ∨
          Holding.tokens 1 = .stake ∧ e.input.RejectsReportOf e.before 1) := by
  obtain ⟨e, he, hfall⟩ : ∃ e ∈ machine.log (deploy sampleDeployment)
      (reportedBond ++ [sampleTx 6 1 (.issuer (.transfer 1 2 1 40 1))]),
      e.after.held 1 (.tokens 1) < e.before.held 1 (.tokens 1) := by
    decide +kernel
  exact ⟨e, he, hfall, holdings_fall_signed sampleDeployment _ e he 1 (.tokens 1) hfall⟩

end EcoMint
