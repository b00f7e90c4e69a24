import EcoMint.CouponDisputes
import EcoMint.CreditSpending
import EcoMint.DexEscrow
import EcoMint.OracleProviders
import EcoMint.OrderSweep
import EcoMint.ReportProvenance

/-!
# References between the contracts

The contracts name things of each other by id: an order names a bond of the
issuer, a coupon period a bond and a report of the oracle, a retirement record a
bond that has earned coupons.  No contract checks these names again after it
stored them.  They never dangle: what a stored record names exists, since it did
when the record was written and nothing that is named is ever removed.
-/

namespace EcoMint

open Fallible Storage

/-- The issuer has issued the bond. -/
def World.Issued (w : World) (bondId : Nat) : Prop :=
  ∃ config, w.issuer.bondConfig.get bondId = some config

/-- The bond is registered for coupons. -/
def World.Registered (w : World) (bondId : Nat) : Prop :=
  ∃ creditType, w.engine.bondCreditType.get bondId = some creditType

/-- The oracle knows the provider. -/
def OracleConsumer.State.Knows (s : OracleConsumer.State) (provider : Address) : Prop :=
  ∃ p, s.provider.get provider = some p

/-- Every stored reference finds what it names. -/
structure World.References (w : World) : Prop where
  tokens : ∀ bondId holder, w.issuer.holderBalance.read (bondId, holder) ≠ 0 → w.Issued bondId
  orders : ∀ id order, w.dex.order.get id = some order → w.Issued order.bondId
  escrow : ∀ bondId seller, w.dex.bondEscrow.read (bondId, seller) ≠ 0 → w.Issued bondId
  registrations : ∀ bondId, w.Registered bondId → w.Issued bondId
  accruals : ∀ bondId holder, w.engine.accruedCredits.read (bondId, holder) ≠ 0 →
    w.Registered bondId
  periods : ∀ bondId periodIndex info,
    w.engine.periodInfo.get (bondId, periodIndex) = some info →
      w.Registered bondId ∧ ∃ report, w.oracle.report.get info.reportId = some report
  retirements : ∀ id record, w.retirement.retirement.get id = some record →
    w.Registered record.bondId
  reports : ∀ id report, w.oracle.report.get id = some report → w.oracle.Knows report.provider
  challenges : ∀ id challenge, w.oracle.challenge.get id = some challenge →
    ∃ report, w.oracle.report.get id = some report
  slashes : ∀ provider, ∀ record ∈ OracleConsumer.getSlashHistory w.oracle provider,
    ∃ report, w.oracle.report.get record.reportId = some report ∧ report.provider = provider

/-! ## Within one contract -/

/-- Only issued bonds have holders. -/
theorem issued_of_tokens {w : World} (hs : BondIssuer.SupplyInvariant w.issuer) {bondId : Nat}
    {holder : Address} (hheld : w.issuer.holderBalance.read (bondId, holder) ≠ 0) :
    w.Issued bondId := by
  have hle : w.issuer.holderBalance.read (bondId, holder) ≤ w.issuer.heldTotal bondId :=
    read_le_sumOn (fun k => k.1 = bondId) (fun k _ => hs.balance_nonneg k) rfl
  have hpos := hs.balance_nonneg (bondId, holder)
  rw [hs.held_eq] at hle
  have hstate : (w.issuer.bondState.get bondId).isSome = true := by
    rw [Option.isSome_iff_ne_none]
    intro hnone
    simp only [BondIssuer.State.subscribedTotal, hnone, Option.elim_none] at hle
    omega
  exact Option.isSome_iff_exists.mp ((hs.issued_iff bondId).mp hstate)

/-- The oracle's reports are by providers it knows, also when more are submitted. -/
theorem OracleConsumer.knows_step {s s' : State} {call : Call} (h : BookStep s s' call)
    (hs : ∀ id report, s.report.get id = some report → s.Knows report.provider) :
    ∀ id report, s'.report.get id = some report → s'.Knows report.provider := by
  have hkept : s.KeepsReports s' →
      (∀ addr, (s.provider.get addr).isSome = true → (s'.provider.get addr).isSome = true) →
      ∀ id report, s'.report.get id = some report → s'.Knows report.provider := by
    intro hkeeps hknown id report hget
    obtain ⟨before, hbefore, hsame⟩ := hkeeps.before hget
    have hprovider : before.asSubmitted.provider = report.asSubmitted.provider := by rw [hsame]
    have hprovider : before.provider = report.provider := hprovider
    obtain ⟨p, hp⟩ := hs id before hbefore
    exact Option.isSome_iff_exists.mp (hknown _ (by rw [← hprovider, hp]; rfl))
  cases h with
  | kept hkeeps hcount hlist hknown hnone =>
      exact hkept hkeeps fun addr hsome => (hknown addr).trans hsome
  | registered provider hkeeps hcount hlist hnew hknown hregisters =>
      refine hkept hkeeps fun addr hsome => ?_
      rw [hknown, hsome, Bool.or_true]
  | submitted added hprovider hafter hnone =>
      subst hafter
      intro id report hget
      have hget : (s.report.set (s.reportCount + 1) added).get id = some report := hget
      rw [get_set] at hget
      split at hget
      · obtain rfl := Option.some.inj hget
        exact Option.isSome_iff_exists.mp hprovider
      · exact hs id report hget

/-! ## What one transaction keeps -/

/-- What is named stays. -/
theorem WorldStep.issued {w w' : World} {tx : Tx} {out : Output} (h : WorldStep w tx out w')
    (hs : BondIssuer.SupplyInvariant w.issuer) {bondId : Nat} (hissued : w.Issued bondId) :
    w'.Issued bondId := by
  obtain ⟨config, hconfig⟩ := hissued
  exact ⟨config, h.bondConfig hs hconfig⟩

/-- A registered bond stays registered. -/
theorem WorldStep.registered {w w' : World} {tx : Tx} {out : Output} (h : WorldStep w tx out w')
    {bondId : Nat} (hregistered : w.Registered bondId) : w'.Registered bondId := by
  obtain ⟨creditType, hget⟩ := hregistered
  rcases h.registration_cases with ⟨-, hsame⟩ | ⟨_, bondId', _, _, config, -, -, -, hset⟩
  · exact ⟨creditType, hsame ▸ hget⟩
  · unfold World.Registered
    rw [hset]
    by_cases hbond : bondId = bondId'
    · exact ⟨config.creditType, by rw [hbond, get_set_self]⟩
    · exact ⟨creditType, by rw [get_set_ne _ _ hbond, hget]⟩

/-- The references of the router. -/
structure World.RouterRefers (w : World) : Prop where
  orders : ∀ id order, w.dex.order.get id = some order → w.Issued order.bondId
  escrow : ∀ bondId seller, w.dex.bondEscrow.read (bondId, seller) ≠ 0 → w.Issued bondId

/-- An order that replaces one of the same bond, or one of an issued bond, keeps
the router's references. -/
theorem World.RouterRefers.of_set {w w' : World} (hw : w.RouterRefers)
    (hissued : ∀ bondId, w.Issued bondId → w'.Issued bondId) {id : Nat} {order : DexRouter.Order}
    {k : Nat × Address} {amount : Int} (hnamed : w.Issued order.bondId)
    (hkey : k.1 = order.bondId) (horder : w'.dex.order = w.dex.order.set id order)
    (hescrow : w'.dex.bondEscrow = w.dex.bondEscrow.set k amount) : w'.RouterRefers where
  orders id' order' hget := by
    rw [horder, get_set] at hget
    split at hget
    · obtain rfl := Option.some.inj hget
      exact hissued _ hnamed
    · exact hissued _ (hw.orders id' order' hget)
  escrow bondId seller hne := by
    rw [hescrow, read_set] at hne
    split at hne
    · next hk =>
        have hbond : bondId = order.bondId := by rw [← hkey, ← hk]
        exact hbond ▸ hissued _ hnamed
    · exact hissued _ (hw.escrow bondId seller hne)

/-- One transaction keeps the router's references. -/
theorem World.RouterRefers.step {w w' : World} {tx : Tx} {out : Output} (hw : w.RouterRefers)
    (hs : BondIssuer.SupplyInvariant w.issuer) (h : WorldStep w tx out w') : w'.RouterRefers := by
  have hissued : ∀ bondId, w.Issued bondId → w'.Issued bondId := fun _ => h.issued hs
  have hsame : w'.dex.order = w.dex.order → w'.dex.bondEscrow = w.dex.bondEscrow →
      w'.RouterRefers := by
    intro horder hescrow
    constructor
    · rw [horder]
      exact fun id order hget => hissued _ (hw.orders id order hget)
    · rw [hescrow]
      exact fun bondId seller hne => hissued _ (hw.escrow bondId seller hne)
  rcases h.dex_cases with ⟨hdex, -⟩ | ⟨call, issuer', -, hstep⟩
  · exact hsame (by rw [hdex]) (by rw [hdex])
  · cases hstep with
    | idle horder hcount hescrow hissuer hlists hswept => exact hsame horder hescrow
    | listed order hstatus hpos hlists hswept hbacked hfits horder hcount hescrow hissuer =>
        obtain ⟨address, issuer, -, hpeer, henough⟩ := hbacked
        obtain rfl := World.eq_issuer_of_issuerAt hpeer
        have hheld : w.issuer.holderBalance.read (order.bondId, order.seller) ≠ 0 := by
          unfold BondIssuer.getHolderBalance at henough
          omega
        exact hw.of_set hissued (issued_of_tokens hs hheld) rfl horder hescrow
    | cancelled id order hget hlive horder hcount hescrow hissuer hlists hswept =>
        have hnamed : w.Issued ({ order with status := .cancelled } : DexRouter.Order).bondId :=
          hw.orders id order hget
        exact hw.of_set hissued hnamed rfl horder hescrow
    | bought id order buyer amount hget hlive hpos hle hescrowed htransfer horder hcount hescrow
        hlists hswept =>
        have hbond : (order.fill amount).bondId = order.bondId := by
          unfold DexRouter.Order.fill
          split <;> rfl
        exact hw.of_set hissued (hbond ▸ hw.orders id order hget) hbond.symm horder hescrow
    | swept base horder hescrow hcount hafter hissuer hlists =>
        constructor
        · intro id order hget
          rw [hafter, DexRouter.sweepOrders_order, horder] at hget
          split at hget
          · obtain ⟨before, hbefore, rfl⟩ := Option.map_eq_some_iff.mp hget
            have hbond : (before.expireIfDue (tx.env w.dexAddress)).bondId = before.bondId := by
              unfold DexRouter.Order.expireIfDue
              split <;> rfl
            exact hbond ▸ hissued _ (hw.orders id before hbefore)
          · exact hissued _ (hw.orders id order hget)
        · intro bondId seller hne
          rw [hafter, DexRouter.sweepOrders_bondEscrow, hescrow] at hne
          exact hissued _ (hw.escrow bondId seller hne)

/-- The references of the coupon engine and of the retirement records to bonds. -/
structure World.CouponsRefer (w : World) : Prop where
  periods : ∀ bondId periodIndex info,
    w.engine.periodInfo.get (bondId, periodIndex) = some info → w.Registered bondId
  retirements : ∀ id record, w.retirement.retirement.get id = some record →
    w.Registered record.bondId

/-- Only registered bonds have accruals. -/
theorem registered_of_accrued {w : World} {claimed swept : Nat → Int}
    (hs : CouponEngine.Ledger w.engine claimed swept) {bondId : Nat} {holder : Address}
    (hne : w.engine.accruedCredits.read (bondId, holder) ≠ 0) : w.Registered bondId := by
  have hsplit := hs.split bondId holder
  by_cases hcarbon : w.engine.accruedCreditsByType.read (bondId, holder, .carbon) = 0
  · obtain ⟨creditType, hget, -⟩ := hs.held_type bondId holder .biodiversity (by omega)
    exact ⟨creditType, hget⟩
  · obtain ⟨creditType, hget, -⟩ := hs.held_type bondId holder .carbon hcarbon
    exact ⟨creditType, hget⟩

/-- One transaction keeps the coupons' references. -/
theorem World.CouponsRefer.step {w w' : World} {tx : Tx} {out : Output} (hw : w.CouponsRefer)
    {claimed swept : Nat → Int} (hledger : CouponEngine.Ledger w.engine claimed swept)
    (hbooks : CreditRetirement.BooksAgree w.retirement) (h : WorldStep w tx out w') :
    w'.CouponsRefer := by
  constructor
  case periods =>
    intro bondId periodIndex info hget
    have hold : w'.engine.periodInfo = w.engine.periodInfo → w'.Registered bondId := by
      intro hsame
      exact h.registered (hw.periods bondId periodIndex info (hsame ▸ hget))
    rcases h.engine_cases with ⟨hidle, -⟩ | ⟨call, o, -, -, -, hstep⟩
    · exact hold (by rw [hidle])
    · cases hstep with
      | paid batch f hbatch hfound hwrote =>
          rw [hwrote.periodInfo, get_set] at hget
          split at hget
          · next hk =>
              have hbond : bondId = batch.bondId := congrArg Prod.fst hk
              exact h.registered ⟨f.creditType, hbond ▸ hfound.creditType⟩
          · exact h.registered (hw.periods bondId periodIndex info hget)
      | claimed caller _ nonce amount _ _ _ _ hwrote => exact hold hwrote.periodInfo
      | registered _ _ _ _ _ _ _ _ _ hafter => exact hold (by rw [hafter]; rfl)
      | swept _ _ _ _ _ _ _ hafter => exact hold (by rw [hafter]; rfl)
      | administered _ _ _ _ hafter => exact hold (by rw [hafter]; rfl)
  case retirements =>
    intro id record hget
    rcases h.retirement_cases with hsame | ⟨call, o, -, -, hexec⟩
    · exact h.registered (hw.retirements id record (hsame ▸ hget))
    · rcases CreditRetirement.exec_cases hexec with
        ⟨holder, bondId, amount, creditType, hash, nonce, -, hpos, hpeer, hwrote⟩ |
        ⟨_, _, _, -, hrecords, -⟩
      · rw [hwrote.record, get_set] at hget
        split at hget
        · obtain rfl := Option.some.inj hget
          obtain ⟨address, engine, -, hpeer, henough⟩ := hpeer
          obtain rfl := World.eq_engine_of_engineAt hpeer
          have hretired := hbooks.nonneg (bondId, holder)
          have hne : w.engine.accruedCredits.read (bondId, holder) ≠ 0 := by
            unfold CouponEngine.getAccruedCredits at henough
            omega
          exact h.registered (registered_of_accrued hledger hne)
        · exact h.registered (hw.retirements id record hget)
      · exact h.registered (hw.retirements id record (hrecords ▸ hget))

/-! ## Runs -/

/-- The router's references hold in every reachable world. -/
theorem routerRefers (d : Deployment) (txs : List Tx) :
    (machine.run (deploy d) txs).RouterRefers := by
  refine machine.invariant_under (I := fun w _ => BondIssuer.SupplyInvariant w.issuer)
    (P := fun w _ => w.RouterRefers) (supplyInvariant d) ?_ ?_ txs
  · constructor <;> simp [deploy, DexRouter.constructor]
  · exact fun _ e hfires hs hw => hw.step hs (worldStep_of_execute hfires)

/-- The coupons' references hold in every reachable world. -/
theorem couponsRefer (d : Deployment) (txs : List Tx) :
    (machine.run (deploy d) txs).CouponsRefer := by
  refine machine.invariant_under (I := fun w l => SpendingInvariant w l ∧
      CouponEngine.Ledger w.engine (fun b => claimedTotal b l) fun b => sweptTotal b l)
    (P := fun w _ => w.CouponsRefer) (fun calls => ⟨spendingInvariant d calls, ledger d calls⟩)
    ?_ ?_ txs
  · constructor <;> simp [deploy, CouponEngine.constructor, CreditRetirement.constructor]
  · exact fun _ e hfires hs hw => hw.step hs.2 hs.1.books (worldStep_of_execute hfires)

/-- Every report's provider is known to the oracle. -/
theorem OracleConsumer.knows_run (admin : Address) (txs : List OracleConsumer.Tx) :
    ∀ id report, (OracleConsumer.machine.run (constructor admin) txs).report.get id =
      some report → (OracleConsumer.machine.run (constructor admin) txs).Knows report.provider := by
  refine OracleConsumer.machine.invariant (P := fun s _ => ∀ id report,
    s.report.get id = some report → s.Knows report.provider) ?_ ?_ txs
  · simp [constructor]
  · intro _ e hfires hs
    exact knows_step (oracleStep_exec hfires).bookStep hs

/-- **No reference dangles.**  In every reachable state of the deployment whatever
a stored record names exists in the contract that keeps it. -/
theorem references_found (d : Deployment) (txs : List Tx) :
    (machine.run (deploy d) txs).References := by
  obtain ⟨calls, horacle⟩ := exists_oracle_run d txs
  have hsupply := supplyInvariant d txs
  have hrouter := routerRefers d txs
  have hcoupons := couponsRefer d txs
  have hledger := ledger d txs
  have hagree := creditTypesAgree d txs
  have hprovenance := provenance d txs
  have hknown := OracleConsumer.knows_run d.oracleAdmin calls
  have hchallenges := OracleConsumer.challengeInvariant_run d.oracleAdmin calls
  have hslashes := OracleConsumer.slashInvariant_run d.oracleAdmin calls
  rw [← horacle] at hknown hchallenges hslashes
  generalize machine.run (deploy d) txs = w at *
  constructor
  case tokens => exact fun bondId holder hne => issued_of_tokens hsupply hne
  case orders => exact hrouter.orders
  case escrow => exact hrouter.escrow
  case registrations =>
    intro bondId hregistered
    obtain ⟨creditType, hget⟩ := hregistered
    obtain ⟨config, hconfig, -⟩ := hagree bondId creditType hget
    exact ⟨config, hconfig⟩
  case accruals => exact fun bondId holder hne => registered_of_accrued hledger hne
  case periods =>
    intro bondId periodIndex info hget
    obtain ⟨report, hreport, -⟩ := hprovenance.paid bondId periodIndex info hget
    exact ⟨hcoupons.periods bondId periodIndex info hget, report, hreport⟩
  case retirements => exact hcoupons.retirements
  case reports => exact hknown
  case challenges =>
    intro id challenge hget
    have hsome : (w.oracle.report.get id).isSome = true := by
      rw [Option.isSome_iff_ne_none]
      intro hnone
      rw [hchallenges.based id hnone] at hget
      cases hget
    exact Option.isSome_iff_exists.mp hsome
  case slashes =>
    intro provider record hrecord
    obtain ⟨report, hreport, hprovider, -⟩ := (hslashes.slashed provider record.reportId).mp
      (List.mem_map_of_mem hrecord)
    exact ⟨report, hreport, hprovider⟩

end EcoMint
