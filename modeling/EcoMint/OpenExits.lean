import EcoMint.AccruedRetirable
import EcoMint.Signatures

/-!
# Nobody can block an exit

An owner takes value out of the contracts with a withdrawal of quote tokens or
stake, a claim or a retirement of credits.  Whether such a call goes through
depends on what the owner has and on the owner's next nonce, and on nothing that
another account can move against it.  So an exit that is open stays open, over any
transactions that the owner did not authorise, until the oracle's admin rejects a
report of the owner.  A redemption is no such exit: the pool of its bond is shared.
-/

namespace EcoMint

open Fallible IntRange

/-- A call that takes value out. -/
inductive Exit
  | withdrawQuote (quoteAsset : Symbol) (amount : Int) (nonce : Nat)
  | withdrawStake (amount : Int) (nonce : Nat)
  | claimCredits (bondId nonce : Nat)
  | retireCredits (bondId : Nat) (amount : Int) (creditType : CreditType)
      (certificateHash : BytesN 32) (nonce : Nat)

/-- The transaction's call, made by the owner. -/
def Exit.call (owner : Address) : Exit → Call
  | .withdrawQuote quoteAsset amount nonce => .dex (.withdrawQuote owner quoteAsset amount nonce)
  | .withdrawStake amount nonce => .oracle (.withdrawStake owner amount nonce)
  | .claimCredits bondId nonce => .engine (.claimCredits owner bondId nonce)
  | .retireCredits bondId amount creditType certificateHash nonce =>
      .retirement (.retireCredits owner bondId amount creditType certificateHash nonce)

/-- The contract that an exit calls. -/
def Exit.contract : Exit → Deployed
  | .withdrawQuote _ _ _ => .dexRouter
  | .withdrawStake _ _ => .oracleConsumer
  | .claimCredits _ _ => .couponEngine
  | .retireCredits _ _ _ _ _ => .creditRetirement

/-- The nonce that an exit is asked for with. -/
def Exit.nonce : Exit → Nat
  | .withdrawQuote _ _ nonce => nonce
  | .withdrawStake _ nonce => nonce
  | .claimCredits _ nonce => nonce
  | .retireCredits _ _ _ _ nonce => nonce

/-- What the owner needs to have for an exit. -/
def World.Covers (w : World) (owner : Address) : Exit → Prop
  | .withdrawQuote quoteAsset amount _ => 0 < amount ∧ amount ≤ w.held owner (.quote quoteAsset)
  | .withdrawStake amount _ => 0 < amount ∧ amount ≤ w.held owner .stake
  | .claimCredits _ _ => True
  | .retireCredits bondId amount _ certificateHash _ =>
      0 < amount ∧ ¬ certificateHash.isZero ∧ 0 < w.held owner (.tokens bondId) ∧
        amount ≤ w.held owner (.retirable bondId) ∧
        i128.Fits (CreditRetirement.getTotalRetired w.retirement owner + amount)

/-- The credits that a claim paid out. -/
def Output.claimed : Output → Int
  | .engine (.amount amount) => amount
  | _ => 0

/-- The credits that an exit pays out as a claim. -/
def World.claimable (w : World) (owner : Address) : Exit → Int
  | .claimCredits bondId _ => w.held owner (.claimable bondId)
  | _ => 0

/-! ## When an exit is open -/

namespace DexRouter

/-- A deposit can be withdrawn exactly with the owner's signature and nonce, and up to
the balance. -/
theorem withdrawQuote_succeeds_iff {env : Env} {s : State} {caller : Address}
    {quoteAsset : Symbol} {amount : Int} {nonce : Nat} :
    (∃ s', withdrawQuote env s caller quoteAsset amount nonce = .ok s') ↔
      env.Authorizes caller ∧ nonce = s.nonce.read caller ∧ 0 < amount ∧
        amount ≤ s.balance.read (quoteAsset, caller) := by
  simp only [withdrawQuote, consumeNonce, bind_ok_iff, pure_ok_iff, rejectIf_ok_iff,
    Env.requireAuth_ok_iff, useNonce_ok_iff, not_le, not_lt]
  constructor
  · intro h
    obtain ⟨_, _, hauth, _, ⟨_, ⟨hnonce, rfl⟩, rfl⟩, _, hpos, _, hfunds, -⟩ := h
    exact ⟨hauth, hnonce, hpos, hfunds⟩
  · intro h
    obtain ⟨hauth, hnonce, hpos, hfunds⟩ := h
    exact ⟨_, (), hauth, _, ⟨_, ⟨hnonce, rfl⟩, rfl⟩, (), hpos, (), hfunds, rfl⟩

end DexRouter

namespace OracleConsumer

/-- A stake can be withdrawn exactly with the provider's signature and nonce, and up to
the stake. -/
theorem withdrawStake_succeeds_iff {env : Env} {s : State} {provider : Address} {amount : Int}
    {nonce : Nat} :
    (∃ s', withdrawStake env s provider amount nonce = .ok s') ↔
      env.Authorizes provider ∧ nonce = s.nonce.read provider ∧ 0 < amount ∧
        amount ≤ s.stakeOf provider := by
  simp only [withdrawStake, consumeNonce, bind_ok_iff, pure_ok_iff, okOr_ok_iff, rejectIf_ok_iff,
    Env.requireAuth_ok_iff, useNonce_ok_iff, not_le, not_lt, State.stakeOf]
  constructor
  · intro h
    obtain ⟨_, _, hauth, _, ⟨_, ⟨hnonce, rfl⟩, rfl⟩, _, hpos, p, hget, _, hstake, -⟩ := h
    exact ⟨hauth, hnonce, hpos, by simpa [hget] using hstake⟩
  · intro h
    obtain ⟨hauth, hnonce, hpos, hstake⟩ := h
    cases hget : s.provider.get provider with
    | none =>
        rw [hget] at hstake
        simp only [Option.map_none, Option.getD_none] at hstake
        omega
    | some p =>
        rw [hget] at hstake
        exact ⟨_, (), hauth, _, ⟨_, ⟨hnonce, rfl⟩, rfl⟩, (), hpos, p, hget, (), hstake, rfl⟩

end OracleConsumer

namespace CouponEngine

/-- A claim succeeds exactly with the owner's signature and nonce, and pays what has
accrued. -/
theorem claimCredits_succeeds_iff {env : Env} {s : State} {caller : Address}
    {bondId nonce : Nat} {amount : Int} :
    (∃ s', claimCredits env s caller bondId nonce = .ok (amount, s')) ↔
      env.Authorizes caller ∧ nonce = s.nonce.read caller ∧
        amount = s.accruedCredits.read (bondId, caller) := by
  simp only [claimCredits, consumeNonce, bind_ok_iff, pure_ok_iff, Env.requireAuth_ok_iff,
    useNonce_ok_iff]
  constructor
  · intro h
    obtain ⟨_, _, hauth, _, ⟨_, ⟨hnonce, rfl⟩, rfl⟩, hpaid⟩ := h
    refine ⟨hauth, hnonce, ?_⟩
    split at hpaid
    · exact (congrArg Prod.fst (pure_ok_iff.mp hpaid)).symm
    · exact (congrArg Prod.fst (pure_ok_iff.mp hpaid)).symm
  · intro h
    obtain ⟨hauth, hnonce, rfl⟩ := h
    by_cases hpos : s.accruedCredits.read (bondId, caller) > 0
    · exact ⟨_, (), hauth, _, ⟨_, ⟨hnonce, rfl⟩, rfl⟩, by simp only [if_pos hpos]; rfl⟩
    · exact ⟨_, (), hauth, _, ⟨_, ⟨hnonce, rfl⟩, rfl⟩, by simp only [if_neg hpos]; rfl⟩

end CouponEngine

/-- **When an exit is open.**  In a reachable world exactly the owner's
authorisation, nonce and holdings count. -/
theorem exit_succeeds_iff (d : Deployment) (txs : List Tx) {tx : Tx} {owner : Address}
    {exit : Exit} (hcall : tx.call = exit.call owner) (hsigned : owner ∈ tx.signers) :
    (∃ out w', execute (machine.run (deploy d) txs) tx = .ok (out, w')) ↔
      exit.nonce = ((machine.run (deploy d) txs).nonces exit.contract).read owner ∧
        (machine.run (deploy d) txs).Covers owner exit := by
  have hlinked := retirementLinked d txs
  have hbooks := (spendingInvariant d txs).books.nonneg
  have haccrued := accruedFits d txs
  generalize machine.run (deploy d) txs = w at *
  have hauth : ∀ contract, (tx.env contract).Authorizes owner := fun _ => Or.inl hsigned
  cases exit with
  | withdrawQuote quoteAsset amount nonce =>
      simp only [execute, hcall, Exit.call, DexRouter.exec, DexRouter.silent_ok_iff, bind_ok_iff,
        mapError_ok_iff, pure_ok_iff, Prod.exists, Prod.mk.injEq]
      constructor
      · intro h
        obtain ⟨_, _, _, _, _, ⟨hok, -, -⟩, -⟩ := h
        exact (DexRouter.withdrawQuote_succeeds_iff.mp ⟨_, hok⟩).2
      · intro h
        obtain ⟨s', hok⟩ := DexRouter.withdrawQuote_succeeds_iff.mpr ⟨hauth _, h⟩
        exact ⟨_, _, _, _, _, ⟨hok, rfl, rfl⟩, rfl, rfl⟩
  | withdrawStake amount nonce =>
      simp only [execute, hcall, Exit.call, OracleConsumer.exec, OracleConsumer.silent_ok_iff,
        bind_ok_iff, mapError_ok_iff, pure_ok_iff, Prod.exists, Prod.mk.injEq]
      constructor
      · intro h
        obtain ⟨_, _, _, _, ⟨hok, -⟩, -⟩ := h
        exact (OracleConsumer.withdrawStake_succeeds_iff.mp ⟨_, hok⟩).2
      · intro h
        obtain ⟨s', hok⟩ := OracleConsumer.withdrawStake_succeeds_iff.mpr ⟨hauth _, h⟩
        exact ⟨_, _, _, _, ⟨hok, rfl⟩, rfl, rfl⟩
  | claimCredits bondId nonce =>
      simp only [execute, hcall, Exit.call, CouponEngine.exec, CouponEngine.returning_ok_iff,
        bind_ok_iff, mapError_ok_iff, pure_ok_iff, Prod.exists, Prod.mk.injEq]
      constructor
      · intro h
        obtain ⟨_, _, _, _, ⟨value, hok, -⟩, -⟩ := h
        exact ⟨(CouponEngine.claimCredits_succeeds_iff.mp ⟨_, hok⟩).2.1, trivial⟩
      · intro h
        obtain ⟨s', hok⟩ := CouponEngine.claimCredits_succeeds_iff.mpr ⟨hauth _, h.1, rfl⟩
        exact ⟨_, _, _, _, ⟨_, hok, rfl⟩, rfl, rfl⟩
  | retireCredits bondId amount creditType certificateHash nonce =>
      simp only [execute, hcall, Exit.call, CreditRetirement.exec, bind_ok_iff, mapError_ok_iff,
        pure_ok_iff, Prod.exists, Prod.mk.injEq]
      have hiff : ∀ env : Env, (∃ id s', CreditRetirement.retireCredits env w.retirementPeers
          w.retirement owner bondId amount creditType certificateHash nonce = .ok (id, s')) ↔ _ :=
        fun _ => CreditRetirement.retireCredits_succeeds_iff hlinked.issuer (if_pos rfl)
          hlinked.engine (if_pos rfl)
      constructor
      · intro h
        obtain ⟨_, _, _, _, ⟨id, s', hok, -⟩, -⟩ := h
        obtain ⟨-, hnonce, hpos, hhash, hbalance, -, hleft, htotal⟩ := (hiff _).mp ⟨id, s', hok⟩
        exact ⟨hnonce, hpos, hhash, hbalance, hleft, htotal⟩
      · intro h
        obtain ⟨hnonce, hpos, hhash, hbalance, hleft, htotal⟩ := h
        have hrest : i128.Fits (CouponEngine.getAccruedCredits w.engine bondId owner -
            w.retirement.retiredPerBond.read (bondId, owner)) := by
          have hretired := hbooks (bondId, owner)
          refine (haccrued (bondId, owner)).of_nonneg_of_le _ ?_ ?_
          · exact Int.le_trans (Int.le_of_lt hpos) hleft
          · unfold CouponEngine.getAccruedCredits
            omega
        obtain ⟨id, s', hok⟩ :=
          (hiff _).mpr ⟨hauth _, hnonce, hpos, hhash, hbalance, hrest, hleft, htotal⟩
        exact ⟨_, _, _, _, ⟨id, s', hok, rfl, rfl⟩, rfl, rfl⟩

/-- A claim pays out what is claimable. -/
theorem claimed_of_execute {w w' : World} {tx : Tx} {owner : Address} {exit : Exit}
    {out : Output} (hcall : tx.call = exit.call owner) (h : execute w tx = .ok (out, w')) :
    out.claimed = w.claimable owner exit := by
  cases exit with
  | claimCredits bondId nonce =>
      simp only [execute, hcall, Exit.call, CouponEngine.exec, CouponEngine.returning_ok_iff,
        bind_ok_iff, mapError_ok_iff, pure_ok_iff, Prod.exists, Prod.mk.injEq] at h
      obtain ⟨_, _, ⟨amount, hok, rfl⟩, rfl, -⟩ := h
      exact (CouponEngine.claimCredits_succeeds_iff.mp ⟨_, hok⟩).2.2
  | withdrawQuote quoteAsset amount nonce =>
      simp only [execute, hcall, Exit.call, bind_ok_iff, pure_ok_iff, Prod.exists,
        Prod.mk.injEq] at h
      obtain ⟨_, _, _, -, rfl, -⟩ := h
      rfl
  | withdrawStake amount nonce =>
      simp only [execute, hcall, Exit.call, bind_ok_iff, pure_ok_iff, Prod.exists,
        Prod.mk.injEq] at h
      obtain ⟨_, _, -, rfl, -⟩ := h
      rfl
  | retireCredits bondId amount creditType certificateHash nonce =>
      simp only [execute, hcall, Exit.call, bind_ok_iff, pure_ok_iff, Prod.exists,
        Prod.mk.injEq] at h
      obtain ⟨_, _, -, rfl, -⟩ := h
      rfl

/-! ## What others cannot change -/

/-- From one world to the next the owner's nonces stay, its holdings do not fall,
and it retires nothing. -/
structure Undisturbed (owner : Address) (w w' : World) : Prop where
  nonces : ∀ contract, (w'.nonces contract).read owner = (w.nonces contract).read owner
  held : ∀ holding, w.held owner holding ≤ w'.held owner holding
  retired : CreditRetirement.getTotalRetired w'.retirement owner =
    CreditRetirement.getTotalRetired w.retirement owner

theorem Undisturbed.refl (owner : Address) (w : World) : Undisturbed owner w w :=
  ⟨fun _ => rfl, fun _ => Int.le_refl _, rfl⟩

theorem Undisturbed.trans {owner : Address} {w w' w'' : World} (h : Undisturbed owner w w')
    (h' : Undisturbed owner w' w'') : Undisturbed owner w w'' where
  nonces contract := (h'.nonces contract).trans (h.nonces contract)
  held holding := Int.le_trans (h.held holding) (h'.held holding)
  retired := h'.retired.trans h.retired

/-- What covers an exit goes on covering it, and a claim pays no less. -/
theorem Undisturbed.covers {owner : Address} {w w' : World} (h : Undisturbed owner w w')
    {exit : Exit} (hs : w.Covers owner exit) :
    w'.Covers owner exit ∧ w.claimable owner exit ≤ w'.claimable owner exit := by
  cases exit with
  | withdrawQuote quoteAsset amount nonce =>
      exact ⟨⟨hs.1, Int.le_trans hs.2 (h.held _)⟩, Int.le_refl 0⟩
  | withdrawStake amount nonce => exact ⟨⟨hs.1, Int.le_trans hs.2 (h.held _)⟩, Int.le_refl 0⟩
  | claimCredits bondId nonce => exact ⟨trivial, h.held (.claimable bondId)⟩
  | retireCredits bondId amount creditType certificateHash nonce =>
      obtain ⟨hpos, hhash, hbalance, hleft, htotal⟩ := hs
      exact ⟨⟨hpos, hhash, Int.lt_of_lt_of_le hbalance (h.held _), Int.le_trans hleft (h.held _),
        h.retired ▸ htotal⟩, Int.le_refl 0⟩

/-- Only the holder of credits adds to what it has retired. -/
theorem WorldStep.totalRetired {w w' : World} {tx : Tx} {out : Output}
    (h : WorldStep w tx out w') {owner : Address} (hunsigned : ¬ tx.Authorizes w owner) :
    CreditRetirement.getTotalRetired w'.retirement owner =
      CreditRetirement.getTotalRetired w.retirement owner := by
  rcases h.retirement_cases with hsame | ⟨call, o, -, -, hexec⟩
  · rw [hsame]
  · have hsigned := CreditRetirement.signer_authorizes hexec
    unfold CreditRetirement.getTotalRetired
    rcases CreditRetirement.exec_cases hexec with
      ⟨holder, bondId, amount, creditType, hash, nonce, rfl, -, -, hwrote⟩ |
      ⟨currentAdmin, newAdmin, nonce, rfl, -⟩
    · have hne : owner ≠ holder := by
        rintro rfl
        exact hunsigned (.of_env hsigned)
      rw [hwrote.total, Storage.read_credit_ne _ _ hne]
    · simp only [CreditRetirement.exec, CreditRetirement.setAdmin, CreditRetirement.consumeNonce,
        bind_ok_iff, pure_ok_iff, Prod.mk.injEq] at hexec
      obtain ⟨s', ⟨_, -, _, ⟨nonces, -, rfl⟩, _, -, hset⟩, -, hafter⟩ := hexec
      rw [← hafter, ← hset]

/-- **One transaction** that the owner did not authorise. -/
theorem WorldStep.undisturbed {w w' : World} {tx : Tx} {out : Output}
    (h : WorldStep w tx out w')
    (hprice : ∀ id order, w.dex.order.get id = some order → 0 < order.pricePerToken)
    {owner : Address} (hunsigned : ¬ tx.Authorizes w owner)
    (hkept : ¬ tx.RejectsReportOf w owner) : Undisturbed owner w w' where
  nonces contract := by
    obtain ⟨hmove, hauth⟩ := h.nonceMove contract
    have hother : ¬ TakesFrom (tx.call.nonceTaken w contract) owner := by
      intro htakes
      obtain ⟨use, huse, howner⟩ := Option.map_eq_some_iff.mp htakes
      exact hunsigned (howner ▸ hauth use.1 use.2 huse)
    rw [hmove.read owner, if_neg hother, Nat.add_zero]
  held holding := by
    by_contra hfall
    rcases h.authorizes_of_lt hprice (Int.lt_of_not_ge hfall) with hauth | hrejects
    · exact hunsigned hauth
    · exact hkept hrejects.2
  retired := h.totalRetired hunsigned

/-- A run in which the owner authorises nothing. -/
theorem undisturbed_run (d : Deployment) (txs later : List Tx) {owner : Address}
    (hothers : ∀ e ∈ machine.log (machine.run (deploy d) txs) later,
      ¬ e.input.Authorizes e.before owner ∧ ¬ e.input.RejectsReportOf e.before owner) :
    Undisturbed owner (machine.run (deploy d) txs) (machine.run (deploy d) (txs ++ later)) := by
  rw [Machine.run_append]
  have hprice : ∀ calls id order,
      (machine.run (machine.run (deploy d) txs) calls).dex.order.get id = some order →
        0 < order.pricePerToken := by
    intro calls
    rw [← Machine.run_append]
    exact (quoteInvariant d (txs ++ calls)).price_pos
  refine machine.invariant_while
    (I := fun w _ => ∀ id order, w.dex.order.get id = some order → 0 < order.pricePerToken)
    (P := fun w _ => Undisturbed owner (machine.run (deploy d) txs) w)
    hprice (.refl owner _) ?_ later hothers
  intro l e hfires hother hprice hbefore
  exact hbefore.trans ((worldStep_of_execute hfires).undisturbed hprice hother.1 hother.2)

/-- **Nobody can block an exit.**  A withdrawal, claim or retirement that goes
through in a reachable world goes through after any further transactions that its
owner did not authorise, as long as no report of the owner is rejected in them, and
a claim pays no less then. -/
theorem exits_stay_open (d : Deployment) (txs later : List Tx) (tx tx' : Tx) (owner : Address)
    (exit : Exit) (hcall : tx.call = exit.call owner) (hcall' : tx'.call = exit.call owner)
    (hsigned : owner ∈ tx.signers) (hsigned' : owner ∈ tx'.signers) (out : Output) (w' : World)
    (hopen : execute (machine.run (deploy d) txs) tx = .ok (out, w'))
    (hothers : ∀ e ∈ machine.log (machine.run (deploy d) txs) later,
      ¬ e.input.Authorizes e.before owner ∧ ¬ e.input.RejectsReportOf e.before owner) :
    ∃ out' w'', execute (machine.run (deploy d) (txs ++ later)) tx' = .ok (out', w'') ∧
      out.claimed ≤ out'.claimed := by
  have hundisturbed := undisturbed_run d txs later hothers
  obtain ⟨hnonce, hcovers⟩ := (exit_succeeds_iff d txs hcall hsigned).mp ⟨out, w', hopen⟩
  obtain ⟨hcovers', hpays⟩ := hundisturbed.covers hcovers
  obtain ⟨out', w'', hok⟩ := (exit_succeeds_iff d (txs ++ later) hcall' hsigned').mpr
    ⟨hnonce.trans (hundisturbed.nonces exit.contract).symm, hcovers'⟩
  refine ⟨out', w'', hok, ?_⟩
  rw [claimed_of_execute hcall hopen, claimed_of_execute hcall' hok]
  exact hpays

/-- Account 1 can retire what it has accrued, also after account 2 subscribed. -/
theorem exits_stay_open_retireAll :
    ∃ out w', execute (machine.run (deploy sampleDeployment)
      (creditedHolder ++ [sampleTx 6 2 (.issuer (.subscribe 2 1 50 0))])) retireAll =
        .ok (out, w') := by
  have hopen : ∃ out w', execute (machine.run (deploy sampleDeployment) creditedHolder)
      retireAll = .ok (out, w') :=
    (exit_succeeds_iff sampleDeployment creditedHolder (show retireAll.call = Exit.call 1
      (.retireCredits 1 1000000 .carbon BondIssuer.sampleConfig.projectId 0) from rfl)
      (by decide)).mpr ⟨by decide +kernel, by decide, by decide, by decide +kernel,
        by decide +kernel, by decide +kernel⟩
  obtain ⟨out, w', hopen⟩ := hopen
  have hothers : ∀ e ∈ machine.log (machine.run (deploy sampleDeployment) creditedHolder)
      [sampleTx 6 2 (.issuer (.subscribe 2 1 50 0))],
      ¬ e.input.Authorizes e.before 1 ∧ ¬ e.input.RejectsReportOf e.before 1 := by
    intro e he
    have hinput := (machine.log_inputs_sublist _ _).subset (List.mem_map_of_mem he)
    rw [List.mem_singleton.mp hinput]
    simp [Tx.Authorizes, Tx.RejectsReportOf, sampleTx]
  obtain ⟨out', w'', hok, -⟩ := exits_stay_open sampleDeployment creditedHolder _ retireAll
    retireAll 1 (.retireCredits 1 1000000 .carbon BondIssuer.sampleConfig.projectId 0) rfl rfl
    (by decide) (by decide) out w' hopen hothers
  exact ⟨out', w'', hok⟩

end EcoMint
