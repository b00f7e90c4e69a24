import EcoMint.CouponExact
import EcoMint.CreditSpending

/-!
# Can accrued credits be retired?

Retiring compares an amount with what the engine still accrues to the holder
and what was retired before; both numbers stay within `i128`, so their
difference never stands in the way.  What does is that the contract serves
bond holders only: whoever has given away or redeemed every token of the bond
keeps the accrued credits and cannot retire them.
-/

namespace EcoMint

open Fallible Storage IntRange

/-! ## Accrued balances fit their type -/

namespace CouponEngine

/-- Every accrued balance is an `i128`. -/
def State.AccruedFits (s : State) : Prop := ∀ k, i128.Fits (s.accruedCredits.read k)

theorem State.AccruedFits.congr {s s' : State} (hs : s.AccruedFits)
    (h : s'.accruedCredits = s.accruedCredits) : s'.AccruedFits := by
  unfold State.AccruedFits
  rw [h]
  exact hs

/-- Accruals that stay within bounds keep every balance within them. -/
theorem AccrualsFit.accruedFits {bondId periodIndex : Nat} {s : State} {entries : List Entry}
    (h : AccrualsFit bondId periodIndex s entries) (hs : s.AccruedFits) :
    (s.accrueAll bondId periodIndex entries).AccruedFits := by
  induction entries generalizing s with
  | nil => exact hs
  | cons e rest ih =>
      obtain ⟨-, -, hfits, hrest⟩ := h
      have hfirst : (s.accrueAll bondId periodIndex [e]).AccruedFits := by
        intro k
        show i128.Fits ((s.accruedCredits.credit (bondId, e.holder) e.amount).read k)
        rw [read_credit]
        by_cases hk : k = (bondId, e.holder)
        · rw [if_pos hk, hk]
          exact hfits
        · rw [if_neg hk, Int.add_zero]
          exact hs k
      have hcons : s.accrueAll bondId periodIndex (e :: rest) =
          (s.accrueAll bondId periodIndex [e]).accrueAll bondId periodIndex rest :=
        accrueAll_append s bondId periodIndex [e] rest
      rw [hcons]
      exact ih hrest hfirst

/-- **Step lemma.**  No call takes an accrued balance out of its type. -/
theorem accruedFits_exec {env : Env} {peers : Peers} {s s' : State} {call : Call} {out : Output}
    (hs : s.AccruedFits) (h : exec env peers s call = .ok (out, s')) : s'.AccruedFits := by
  cases hbatch : call.batch? with
  | some batch =>
      obtain ⟨caller, f, -, hfits, rfl⟩ := exec_batch_ok hbatch h
      exact (hfits.accruals.accruedFits hs).congr rfl
  | none =>
      cases engineStep_exec h with
      | registered _ _ _ _ _ _ _ _ _ hafter => exact hs.congr (by rw [hafter]; rfl)
      | paid batch _ hcall =>
          rw [hbatch] at hcall
          cases hcall
      | claimed _ _ _ _ _ _ _ _ hwrote =>
          intro k
          rw [hwrote.accruedCredits, read_set]
          split
          · decide
          · exact hs k
      | swept _ _ _ _ _ _ _ hafter => exact hs.congr (by rw [hafter]; rfl)
      | administered _ _ _ _ hafter => exact hs.congr (by rw [hafter]; rfl)

end CouponEngine

/-- The engine of a deployment accrues within `i128`. -/
theorem accruedFits (d : Deployment) (txs : List Tx) :
    (machine.run (deploy d) txs).engine.AccruedFits := by
  refine machine.invariant (P := fun w _ => w.engine.AccruedFits) ?_ ?_ txs
  · intro k
    simp only [deploy, CouponEngine.constructor, read_empty]
    decide
  · intro _ e hfires hs
    cases worldStep_of_execute hfires with
    | engine call o s _ _ hexec hafter =>
        rw [hafter]
        exact CouponEngine.accruedFits_exec hs hexec
    | issuer _ _ _ _ _ _ hafter => exact hafter ▸ hs
    | oracle _ _ _ _ _ _ hafter => exact hafter ▸ hs
    | retirement _ _ _ _ _ _ hafter => exact hafter ▸ hs
    | dex _ _ _ _ _ _ _ hafter => exact hafter ▸ hs

/-! ## The retirement contract in the deployment -/

/-- The retirement contract asks the deployed issuer and the deployed engine. -/
structure World.RetirementLinked (w : World) : Prop where
  issuer : w.retirement.bondIssuerAddress = some w.issuerAddress
  engine : w.retirement.couponEngineAddress = some w.engineAddress

/-- In every reachable world the retirement contract is linked to the engine and the
issuer. -/
theorem retirementLinked (d : Deployment) (txs : List Tx) :
    (machine.run (deploy d) txs).RetirementLinked := by
  refine machine.invariant (P := fun w _ => w.RetirementLinked) ⟨rfl, rfl⟩ ?_ txs
  intro _ e hfires hs
  obtain ⟨hissuer, hengine⟩ := hs
  cases worldStep_of_execute hfires with
  | issuer _ _ _ _ _ _ hafter => exact hafter ▸ ⟨hissuer, hengine⟩
  | oracle _ _ _ _ _ _ hafter => exact hafter ▸ ⟨hissuer, hengine⟩
  | engine _ _ _ _ _ _ hafter => exact hafter ▸ ⟨hissuer, hengine⟩
  | dex _ _ _ _ _ _ _ hafter => exact hafter ▸ ⟨hissuer, hengine⟩
  | retirement call o s _ _ hexec hafter =>
      rw [hafter]
      rcases CreditRetirement.exec_cases hexec with
        ⟨_, _, _, _, _, _, -, -, -, hwrote⟩ | ⟨_, _, _, -, -, -, -, hissuer', hengine'⟩
      · exact ⟨hwrote.issuerAddress.trans hissuer, hwrote.engineAddress.trans hengine⟩
      · exact ⟨hissuer'.trans hissuer, hengine'.trans hengine⟩

/-- When `retire_credits` succeeds. -/
theorem CreditRetirement.retireCredits_succeeds_iff {env : Env} {peers : Peers} {s : State}
    {holder : Address} {bondId : Nat} {amount : Int} {creditType : CreditType}
    {certificateHash : BytesN 32} {nonce : Nat} {issuerAddress engineAddress : Address}
    {issuer : BondIssuer.State} {engine : CouponEngine.State}
    (hissuerAddress : s.bondIssuerAddress = some issuerAddress)
    (hissuer : peers.issuerAt issuerAddress = some issuer)
    (hengineAddress : s.couponEngineAddress = some engineAddress)
    (hengine : peers.engineAt engineAddress = some engine) :
    (∃ id s', retireCredits env peers s holder bondId amount creditType certificateHash nonce =
        .ok (id, s')) ↔
      env.Authorizes holder ∧ nonce = s.nonce.read holder ∧ 0 < amount ∧
        ¬ certificateHash.isZero ∧ 0 < BondIssuer.getHolderBalance issuer bondId holder ∧
        i128.Fits (CouponEngine.getAccruedCredits engine bondId holder -
          s.retiredPerBond.read (bondId, holder)) ∧
        amount ≤ CouponEngine.getAccruedCredits engine bondId holder -
          s.retiredPerBond.read (bondId, holder) ∧
        i128.Fits (getTotalRetired s holder + amount) := by
  simp only [retireCredits, consumeNonce, getTotalRetired, bind_ok_iff, pure_ok_iff, okOr_ok_iff,
    orTrap_ok_iff, rejectIf_ok_iff, Env.requireAuth_ok_iff, useNonce_ok_iff, checkedSub,
    checkedAdd, checked_eq_some, not_le, gt_iff_lt, not_lt, Prod.mk.injEq]
  constructor
  · intro h
    obtain ⟨_, _, _, hauth, _, ⟨_, ⟨hnonce, rfl⟩, rfl⟩, _, hpos, _, hhash, address, haddress,
      issuer', hissuer', _, hbalance, address', haddress', engine', hengine', _, ⟨hfits, rfl⟩, _,
      henough, _, ⟨htotal, rfl⟩, -⟩ := h
    obtain rfl := Option.some.inj (hissuerAddress.symm.trans haddress)
    obtain rfl := Option.some.inj (hissuer.symm.trans hissuer')
    obtain rfl := Option.some.inj (hengineAddress.symm.trans haddress')
    obtain rfl := Option.some.inj (hengine.symm.trans hengine')
    exact ⟨hauth, hnonce, hpos, hhash, hbalance, hfits, henough, htotal⟩
  · intro h
    obtain ⟨hauth, hnonce, hpos, hhash, hbalance, hfits, henough, htotal⟩ := h
    exact ⟨_, _, (), hauth, _, ⟨_, ⟨hnonce, rfl⟩, rfl⟩, (), hpos, (), hhash, issuerAddress,
      hissuerAddress, issuer, hissuer, (), hbalance, engineAddress, hengineAddress, engine,
      hengine, _, ⟨hfits, rfl⟩, (), henough, _, ⟨htotal, rfl⟩, rfl, rfl⟩

/-- **Which accrued credits can be retired.**  In every reachable state, a
holder that asks to retire no more than what is accrued and not yet retired on
a bond succeeds exactly if it holds a token of the bond and its total of
retired credits stays within `i128`. -/
theorem accrued_credits_retirable_iff (d : Deployment) (txs : List Tx) (tx : Tx)
    (holder : Address) (bondId : Nat) (amount : Int) (creditType : CreditType)
    (certificateHash : BytesN 32) (nonce : Nat)
    (hcall : tx.call = .retirement (.retireCredits holder bondId amount creditType
      certificateHash nonce))
    (hsigned : holder ∈ tx.signers)
    (hnonce : nonce = (machine.run (deploy d) txs).retirement.nonce.read holder)
    (hhash : ¬ certificateHash.isZero) (hpos : 0 < amount)
    (hleft : amount ≤ CouponEngine.getAccruedCredits (machine.run (deploy d) txs).engine bondId
        holder - (machine.run (deploy d) txs).retirement.retiredPerBond.read (bondId, holder)) :
    (∃ out w', execute (machine.run (deploy d) txs) tx = .ok (out, w')) ↔
      0 < BondIssuer.getHolderBalance (machine.run (deploy d) txs).issuer bondId holder ∧
        i128.Fits (CreditRetirement.getTotalRetired (machine.run (deploy d) txs).retirement
          holder + amount) := by
  have hlinked := retirementLinked d txs
  have hbooks := (spendingInvariant d txs).books.nonneg (bondId, holder)
  have haccrued := accruedFits d txs (bondId, holder)
  generalize machine.run (deploy d) txs = w at *
  have hrest : i128.Fits (CouponEngine.getAccruedCredits w.engine bondId holder -
      w.retirement.retiredPerBond.read (bondId, holder)) := by
    refine haccrued.of_nonneg_of_le _ (by omega) ?_
    unfold CouponEngine.getAccruedCredits
    omega
  have hexecute : (∃ out w', execute w tx = .ok (out, w')) ↔
      ∃ id s', CreditRetirement.retireCredits (tx.env w.retirementAddress) w.retirementPeers
        w.retirement holder bondId amount creditType certificateHash nonce = .ok (id, s') := by
    simp only [execute, hcall, CreditRetirement.exec, bind_ok_iff, mapError_ok_iff, pure_ok_iff,
      Prod.exists, Prod.mk.injEq]
    constructor
    · intro h
      obtain ⟨_, _, _, _, ⟨id, s', hretire, -⟩, -⟩ := h
      exact ⟨id, s', hretire⟩
    · intro h
      obtain ⟨id, s', hretire⟩ := h
      exact ⟨_, _, _, _, ⟨id, s', hretire, rfl, rfl⟩, rfl, rfl⟩
  rw [hexecute, CreditRetirement.retireCredits_succeeds_iff hlinked.issuer (if_pos rfl)
    hlinked.engine (if_pos rfl)]
  constructor
  · intro h
    obtain ⟨-, -, -, -, hbalance, -, -, htotal⟩ := h
    exact ⟨hbalance, htotal⟩
  · intro h
    exact ⟨Or.inl hsigned, hnonce, hpos, hhash, h.1, hrest, hleft, h.2⟩

/-- Account 1 holds 100 tokens and accrues a million minor units. -/
def creditedHolder : List Tx := reportedBond ++ [
  sampleTx 5 0 (.engine (.distributeCoupon 0 1 0 [1] 1 1))]

/-- The bond matures and account 1 redeems all of its tokens. -/
def creditedRedeemer : List Tx := creditedHolder ++ [
  sampleTx 100 0 (.issuer (.matureBond 0 1 1)),
  sampleTx 101 0 (.issuer (.fundRedemption 0 1 10000 2)),
  sampleTx 102 1 (.issuer (.redeem 1 1 100 1))]

/-- Account 1 asks to retire everything it has accrued. -/
def retireAll : Tx := sampleTx 103 1 (.retirement (.retireCredits 1 1 1000000 .carbon
  BondIssuer.sampleConfig.projectId 0))

/-- The sample holder can retire what has accrued. -/
theorem accrued_credits_retirable_sample :
    ∃ out w', execute (machine.run (deploy sampleDeployment) creditedHolder) retireAll =
      .ok (out, w') :=
  (accrued_credits_retirable_iff sampleDeployment creditedHolder retireAll 1 1 1000000 .carbon
    BondIssuer.sampleConfig.projectId 0 rfl (by decide) (by decide +kernel) (by decide)
    (by decide) (by decide +kernel)).mpr ⟨by decide +kernel, by decide +kernel⟩

/-- After redeeming its last token the holder keeps a million accrued credits
and cannot retire one of them. -/
theorem credits_stranded_by_redemption :
    ¬ ∀ (d : Deployment) (txs : List Tx) (tx : Tx) (holder : Address) (bondId : Nat)
      (amount : Int) (creditType : CreditType) (certificateHash : BytesN 32) (nonce : Nat),
      tx.call = .retirement (.retireCredits holder bondId amount creditType certificateHash
        nonce) →
      holder ∈ tx.signers →
      nonce = (machine.run (deploy d) txs).retirement.nonce.read holder →
      ¬ certificateHash.isZero → 0 < amount →
      amount ≤ CouponEngine.getAccruedCredits (machine.run (deploy d) txs).engine bondId holder -
        (machine.run (deploy d) txs).retirement.retiredPerBond.read (bondId, holder) →
      ∃ out w', execute (machine.run (deploy d) txs) tx = .ok (out, w') := by
  intro h
  obtain ⟨out, w', hexecute⟩ := h sampleDeployment creditedRedeemer retireAll 1 1 1000000 .carbon
    BondIssuer.sampleConfig.projectId 0 rfl (by decide) (by decide +kernel) (by decide)
    (by decide) (by decide +kernel)
  have hstranded : execute (machine.run (deploy sampleDeployment) creditedRedeemer) retireAll =
      .error (.error (.credit .notAHolder)) := by decide +kernel
  rw [hstranded] at hexecute
  cases hexecute

end EcoMint
