import Mathlib.Algebra.Order.Field.Rat
import Mathlib.Data.Rat.Cast.Order
import Mathlib.Tactic.FieldSimp
import Mathlib.Tactic.GCongr
import Mathlib.Tactic.Linarith
import EcoMint.CouponLedger
import EcoMint.CouponPeriods
import EcoMint.ProRata

/-!
# How much can a period issue?

A batch credits its holders with their parts of what the report is worth: a
holder's tokens over all subscribed tokens, both read when the batch runs.  So
what a period has issued is at most the report's worth times the sum of those
parts, over all batches.  The sum stays at one when the tokens stay where they
are; tokens that move between two batches can be counted in both.
-/

namespace EcoMint

open Fallible IntRange Storage

namespace CouponEngine

/-! ## One batch -/

/-- A rate is the proportional rate; a bond without tokens has none. -/
theorem perToken_eq {total parts rate : Int} (h : perToken total parts = .ok rate)
    (htotal : 0 ≤ total) :
    rate = if 0 < parts then ProRata.rate FIXED_POINT total parts else 0 := by
  unfold perToken at h
  split at h
  · next hpos =>
      obtain ⟨-, -, -, rfl⟩ := checkedRatio_ok_iff.mp h
      rw [if_pos hpos.1, Int.tdiv_eq_ediv_of_nonneg (Int.mul_nonneg htotal (by decide))]
      rfl
  · next hpos =>
      obtain rfl := pure_ok_iff.mp h
      split
      · next hparts =>
          obtain rfl : total = 0 := by omega
          simp [ProRata.rate]
      · rfl

/-- Nobody gets anything at rate zero. -/
theorem share_zero (balance : Int) : share 0 balance = 0 := by
  simp [share]

/-- A share at the proportional rate is the proportional share. -/
theorem share_rate_eq {worth total balance : Int} (hworth : 0 ≤ worth) (htotal : 0 < total)
    (hbalance : 0 ≤ balance) :
    share (ProRata.rate FIXED_POINT worth total) balance =
      ProRata.share FIXED_POINT worth total balance := by
  have hrate := ProRata.rate_nonneg (by decide : 0 ≤ FIXED_POINT) hworth htotal.le
  rw [share, Int.tdiv_eq_ediv_of_nonneg (Int.mul_nonneg hrate hbalance)]
  rfl

/-- A rounded rate times a balance, rounded again, is at most the exact share. -/
theorem share_mul_le {worth total rate balance : Int} (hworth : 0 ≤ worth)
    (hbalance : 0 ≤ balance) (hrate : perToken worth total = .ok rate) :
    share rate balance * total ≤ worth * balance := by
  rw [perToken_eq hrate hworth]
  split
  · next hpos =>
      rw [share_rate_eq hworth hpos hbalance]
      exact ProRata.share_mul_le worth (by decide) hpos hbalance
  · rw [share_zero, Int.zero_mul]
    exact Int.mul_nonneg hworth hbalance

/-- In fractions: a holder's share is at most the held part of the worth. -/
theorem share_le {worth total rate balance : Int} (hworth : 0 ≤ worth) (htotal : 0 ≤ total)
    (hbalance : 0 ≤ balance) (hrate : perToken worth total = .ok rate) :
    (share rate balance : ℚ) ≤ worth * (balance / total : ℚ) := by
  rcases htotal.eq_or_lt with rfl | hpos
  · unfold perToken at hrate
    rw [if_neg (by simp)] at hrate
    obtain rfl := pure_ok_iff.mp hrate
    simp [share]
  · have hmul := share_mul_le hworth hbalance hrate
    rw [← mul_div_assoc, le_div_iff₀ (by exact_mod_cast hpos)]
    exact_mod_cast hmul

theorem computeBiodiversityCredits_nonneg {metrics : BiodiversityMetrics}
    (h : OracleConsumer.negativeMetrics metrics = false) :
    0 ≤ computeBiodiversityCredits metrics := by
  cases metrics with
  | absent => exact le_rfl
  | present habitat species units =>
      simp only [OracleConsumer.negativeMetrics, decide_eq_false_iff_not, not_or, not_lt] at h
      obtain ⟨hhabitat, hspecies, hunits⟩ := h
      have hmul {a b : Int} (ha : 0 ≤ a) (hb : 0 ≤ b) : 0 ≤ i128.saturatingMul a b :=
        clamp_nonneg _ (Int.mul_nonneg ha hb)
      have hadd {a b : Int} (ha : 0 ≤ a) (hb : 0 ≤ b) : 0 ≤ i128.saturatingAdd a b :=
        clamp_nonneg _ (Int.add_nonneg ha hb)
      have hsum := hadd (hadd (hmul hhabitat (b := HABITAT_CREDIT_RATE) (by decide))
        (hmul hspecies (b := SPECIES_CREDIT_RATE) (by decide)))
        (hmul hunits (b := UNIT_CREDIT_RATE) (by decide))
      exact clamp_nonneg _ (Int.tdiv_nonneg (hmul hsum (by decide)) (by decide))

/-- A stored report is never worth a negative amount. -/
theorem creditTotals_nonneg {creditType : CreditType} {report : OracleConsumer.Report}
    {carbon biodiversity : Int} (hsound : report.Sound)
    (h : creditTotals creditType report = .ok (carbon, biodiversity)) :
    0 ≤ carbon ∧ 0 ≤ biodiversity := by
  obtain ⟨hcarbon, hmetrics⟩ := hsound
  simp only [creditTotals, bind_ok_iff, okOr_ok_iff, checkedDiv_eq_some, checkedMul,
    checked_eq_some] at h
  obtain ⟨whole, ⟨-, -, rfl⟩, total, ⟨-, rfl⟩, h⟩ := h
  have htotal : 0 ≤ report.carbonSequestered.tdiv CREDIT_DIVISOR * CREDIT_MINOR_UNITS :=
    Int.mul_nonneg (Int.tdiv_nonneg hcarbon (by decide)) (by decide)
  have hbiodiversity := computeBiodiversityCredits_nonneg hmetrics
  cases creditType with
  | carbon | blueCarbon =>
      obtain ⟨rfl, rfl⟩ := Prod.mk.inj (pure_ok_iff.mp h)
      exact ⟨htotal, le_rfl⟩
  | biodiversity =>
      obtain ⟨-, -, h⟩ := bind_ok_iff.mp h
      obtain ⟨rfl, rfl⟩ := Prod.mk.inj (pure_ok_iff.mp h)
      exact ⟨le_rfl, hbiodiversity⟩
  | basket =>
      obtain ⟨-, -, h⟩ := bind_ok_iff.mp h
      obtain ⟨rfl, rfl⟩ := Prod.mk.inj (pure_ok_iff.mp h)
      exact ⟨htotal, hbiodiversity⟩

/-- What a report is worth is told by its metrics alone. -/
theorem creditTotals_congr {report report' : OracleConsumer.Report}
    (h : report.SameContent report') (creditType : CreditType) :
    creditTotals creditType report' = creditTotals creditType report := by
  unfold creditTotals
  rw [h.carbon_eq, h.biodiversity_eq]

/-- One holder of a batch gets at most the held part of the worth. -/
theorem BatchFound.holder_le {peers : Peers} {s : State} {batch : Batch} {f : Findings}
    (hfound : BatchFound peers s batch f) (hsound : f.report.Sound)
    (htotal : 0 ≤ f.totalSubscribed) {balance : Int} (hbalance : 0 ≤ balance)
    (holder : Address) :
    (entriesTotal (holderEntries f.creditType f.rates balance holder) : ℚ) ≤
      f.totalCredits * (balance / f.totalSubscribed : ℚ) := by
  obtain ⟨hcarbon, hbiodiversity⟩ := creditTotals_nonneg hsound hfound.totals
  have hworth : 0 ≤ f.totalCredits := Int.add_nonneg hcarbon hbiodiversity
  have hsingle := share_le hworth htotal hbalance hfound.creditsPerToken
  have hsingle0 := share_nonneg (perToken_nonneg hfound.creditsPerToken) hbalance
  unfold holderEntries
  split
  · next hnone =>
      obtain rfl : balance = 0 := by omega
      simp [entriesTotal]
  · cases f.creditType with
    | carbon | blueCarbon | biodiversity =>
        simp only [entriesTotal_entryOf hsingle0]
        exact hsingle
    | basket =>
        have hc := share_le hcarbon htotal hbalance hfound.carbonPerToken
        have hb := share_le hbiodiversity htotal hbalance hfound.biodiversityPerToken
        have hc0 := share_nonneg (perToken_nonneg hfound.carbonPerToken) hbalance
        have hb0 := share_nonneg (perToken_nonneg hfound.biodiversityPerToken) hbalance
        simp only [entriesTotal_append, entriesTotal_entryOf hc0, entriesTotal_entryOf hb0]
        rw [Findings.totalCredits, Int.cast_add, Int.cast_add, add_mul]
        exact add_le_add hc hb

/-- The part of a bond's subscribed tokens held by the slice of a batch. -/
def Batch.heldPart (batch : Batch) (issuer : BondIssuer.State) : ℚ :=
  ((batch.slice.map (BondIssuer.getHolderBalance issuer batch.bondId)).sum : Int) /
    (issuer.subscribedTotal batch.bondId : ℚ)

theorem Batch.heldPart_nonneg {issuer : BondIssuer.State}
    (hs : BondIssuer.SupplyInvariant issuer) (batch : Batch) : 0 ≤ batch.heldPart issuer := by
  have hsum : 0 ≤ (batch.slice.map (BondIssuer.getHolderBalance issuer batch.bondId)).sum := by
    apply List.sum_nonneg
    intro x hx
    obtain ⟨holder, -, rfl⟩ := List.mem_map.mp hx
    exact hs.balance_nonneg _
  exact div_nonneg (by exact_mod_cast hsum) (by exact_mod_cast hs.subscribed_nonneg batch.bondId)

/-- The tokens that a batch finds subscribed are those that the issuer has placed of the
bond. -/
theorem BatchFound.totalSubscribed_eq {peers : Peers} {s : State} {batch : Batch} {f : Findings}
    (hfound : BatchFound peers s batch f) :
    f.totalSubscribed = f.issuer.subscribedTotal batch.bondId := by
  have hread := hfound.subscribed
  simp only [BondIssuer.totalSubscribed, bind_ok_iff, okOr_ok_iff, pure_ok_iff] at hread
  obtain ⟨state, hget, hstate⟩ := hread
  rw [BondIssuer.subscribedTotal_of_get hget, hstate]

/-- A batch credits at most the held part of the worth. -/
theorem BatchFound.entries_le {peers : Peers} {s : State} {batch : Batch} {f : Findings}
    (hfound : BatchFound peers s batch f) (hsound : f.report.Sound)
    (hs : BondIssuer.SupplyInvariant f.issuer) :
    (entriesTotal (f.entries batch) : ℚ) ≤ f.totalCredits * batch.heldPart f.issuer := by
  have htotal : 0 ≤ f.totalSubscribed :=
    hfound.totalSubscribed_eq ▸ hs.subscribed_nonneg batch.bondId
  have hslice : ∀ slice : List Address,
      (entriesTotal (sliceEntries f.issuer f.creditType f.rates batch.bondId slice) : ℚ) ≤
        f.totalCredits * (((slice.map
          (BondIssuer.getHolderBalance f.issuer batch.bondId)).sum : Int) /
            f.totalSubscribed : ℚ) := by
    intro slice
    induction slice with
    | nil => simp [sliceEntries, entriesTotal]
    | cons holder rest ih =>
        have hholder := hfound.holder_le hsound htotal (hs.balance_nonneg (batch.bondId, holder))
          holder
        have hcons : sliceEntries f.issuer f.creditType f.rates batch.bondId (holder :: rest) =
            holderEntries f.creditType f.rates
              (BondIssuer.getHolderBalance f.issuer batch.bondId holder) holder ++
            sliceEntries f.issuer f.creditType f.rates batch.bondId rest := List.flatMap_cons ..
        rw [hcons, entriesTotal_append, List.map_cons, List.sum_cons, Int.cast_add, Int.cast_add,
          add_div, mul_add]
        exact add_le_add hholder ih
  unfold Batch.heldPart
  rw [← hfound.totalSubscribed_eq]
  exact hslice batch.slice

end CouponEngine

/-! ## What a report is worth to a bond -/

/-- The credits a report is worth on a bond, by the bond's credit type. -/
def World.Worth (w : World) (bondId reportId : Nat) (worth : Int) : Prop :=
  ∃ report creditType carbon biodiversity,
    OracleConsumer.getReport w.oracle reportId = .ok report ∧
    CouponEngine.getBondCreditType w.engine bondId = .ok creditType ∧
    CouponEngine.creditTotals creditType report = .ok (carbon, biodiversity) ∧
    worth = carbon + biodiversity

/-- What a report is worth to a bond is one number. -/
theorem World.Worth.unique {w : World} {bondId reportId : Nat} {worth worth' : Int}
    (h : w.Worth bondId reportId worth) (h' : w.Worth bondId reportId worth') :
    worth = worth' := by
  obtain ⟨report, creditType, carbon, biodiversity, hreport, htype, htotals, rfl⟩ := h
  obtain ⟨report', creditType', carbon', biodiversity', hreport', htype', htotals', rfl⟩ := h'
  obtain rfl := Except.ok.inj (hreport.symm.trans hreport')
  obtain rfl := Except.ok.inj (htype.symm.trans htype')
  obtain ⟨rfl, rfl⟩ := Prod.mk.inj (Except.ok.inj (htotals.symm.trans htotals'))
  rfl

/-- A bond's credit type never changes once the engine knows it. -/
theorem creditType_step {e : LogEntry} (hfires : machine.Fires e)
    (hagree : e.before.CreditTypesAgree) {bondId : Nat} {creditType : CreditType}
    (hget : e.before.engine.bondCreditType.get bondId = some creditType) :
    e.after.engine.bondCreditType.get bondId = some creditType := by
  rcases (worldStep_of_execute hfires).registration_cases with
    ⟨-, hsame⟩ | ⟨caller, bondId', projectId, nonce, config, -, hconfig, -, hset⟩
  · rw [hsame, hget]
  · rw [hset, get_set]
    split
    · next hbond =>
        subst hbond
        obtain ⟨config', hconfig', htype⟩ := hagree bondId creditType hget
        rw [← htype, Option.some.inj (hconfig'.symm.trans hconfig)]
    · exact hget

/-- No accepted transaction changes what a report is worth to a bond. -/
theorem World.Worth.step {e : LogEntry} (hfires : machine.Fires e)
    (hagree : e.before.CreditTypesAgree)
    (hreports : OracleConsumer.ReportsInvariant e.before.oracle) {bondId reportId : Nat}
    {worth : Int} (h : e.before.Worth bondId reportId worth) :
    e.after.Worth bondId reportId worth := by
  obtain ⟨report, creditType, carbon, biodiversity, hreport, htype, htotals, hworth⟩ := h
  obtain ⟨report', hreport', hcontent⟩ :=
    (worldStep_of_execute hfires).oracle_reportStep.persists hreports (okOr_ok_iff.mp hreport)
  refine ⟨report', creditType, carbon, biodiversity, okOr_ok_iff.mpr hreport', ?_, ?_, hworth⟩
  · exact okOr_ok_iff.mpr (creditType_step hfires hagree (okOr_ok_iff.mp htype))
  · rw [CouponEngine.creditTotals_congr hcontent, htotals]

/-- What an accepted batch's report was worth. -/
theorem World.worth_of_batchFound {w : World} {batch : CouponEngine.Batch}
    {f : CouponEngine.Findings} (h : CouponEngine.BatchFound w.enginePeers w.engine batch f) :
    w.Worth batch.bondId batch.reportId f.totalCredits :=
  ⟨f.report, f.creditType, f.carbonTotal, f.biodiversityTotal,
    okOr_ok_iff.mpr (World.report_of_batchFound h), okOr_ok_iff.mpr h.creditType, h.totals, rfl⟩

/-! ## A whole period -/

/-- The part of the subscribed tokens that a transaction pays for a period. -/
def LogEntry.heldPart (period : Nat × Nat) (e : LogEntry) : ℚ :=
  e.batch?.elim 0 fun batch =>
    if batch.period = period then batch.heldPart e.before.issuer else 0

/-- The parts paid for a period, over all its batches. -/
def heldParts (period : Nat × Nat) (l : List LogEntry) : ℚ :=
  Machine.total (LogEntry.heldPart period) l

theorem heldParts_snoc (period : Nat × Nat) (l : List LogEntry) (e : LogEntry) :
    heldParts period (l ++ [e]) = heldParts period l + LogEntry.heldPart period e :=
  Machine.total_snoc ..

theorem LogEntry.heldPart_nonneg {e : LogEntry}
    (hs : BondIssuer.SupplyInvariant e.before.issuer) (period : Nat × Nat) :
    0 ≤ LogEntry.heldPart period e := by
  unfold LogEntry.heldPart
  cases e.batch? with
  | none => exact le_rfl
  | some batch =>
      simp only [Option.elim_some]
      split
      · exact CouponEngine.Batch.heldPart_nonneg hs batch
      · exact le_rfl

/-- A period has issued at most its report's worth times the parts it paid. -/
structure WithinParts (period : Nat × Nat) (w : World) (l : List LogEntry) : Prop where
  parts_nonneg : 0 ≤ heldParts period l
  earned_le : ∀ info, w.engine.periodInfo.get period = some info →
    ∃ worth, w.Worth period.1 info.reportId worth ∧ 0 ≤ worth ∧
      (info.totalCreditsEarned : ℚ) ≤ worth * heldParts period l ∧
      (info.distributed = true → info.undistributed = worth - info.totalCreditsEarned)

/-- What the batches of one run rest on, in the three contracts. -/
structure IssuanceContext (w : World) : Prop where
  supply : BondIssuer.SupplyInvariant w.issuer
  reports : OracleConsumer.ReportsInvariant w.oracle
  types : w.CreditTypesAgree

/-- The context of issuance holds in every reachable world. -/
theorem issuanceContext (d : Deployment) (txs : List Tx) :
    IssuanceContext (machine.run (deploy d) txs) :=
  ⟨supplyInvariant d txs, reportsInvariant d txs, creditTypesAgree d txs⟩

/-- What a period issued before a batch, in terms of the batch's report. -/
theorem WithinParts.earnedBefore_le {w : World} {l : List LogEntry}
    {batch : CouponEngine.Batch} {f : CouponEngine.Findings} (hw : WithinParts batch.period w l)
    (hfound : CouponEngine.BatchFound w.enginePeers w.engine batch f)
    (hworth : 0 ≤ f.totalCredits) :
    (CouponEngine.earnedBefore w.engine batch.period : ℚ) ≤
      f.totalCredits * heldParts batch.period l := by
  unfold CouponEngine.earnedBefore
  cases hget : w.engine.periodInfo.get batch.period with
  | none =>
      have hnonneg := mul_nonneg (a := (f.totalCredits : ℚ)) (by exact_mod_cast hworth)
        hw.parts_nonneg
      simpa using hnonneg
  | some old =>
      obtain ⟨worth, hold, -, hearned, -⟩ := hw.earned_le old hget
      rw [(hfound.unpaid old hget).2] at hold
      obtain rfl := hold.unique (World.worth_of_batchFound hfound)
      exact hearned

/-- One transaction keeps what a period has paid within the parts that its batches held. -/
theorem WithinParts.step {period : Nat × Nat} {l : List LogEntry} {e : LogEntry}
    (hfires : machine.Fires e) (hcontext : IssuanceContext e.before)
    (hw : WithinParts period e.before l) : WithinParts period e.after (l ++ [e]) := by
  have hpart := LogEntry.heldPart_nonneg hcontext.supply period (e := e)
  have hparts := hw.parts_nonneg
  refine ⟨by rw [heldParts_snoc]; exact add_nonneg hparts hpart, ?_⟩
  have hold : ∀ info, e.before.engine.periodInfo.get period = some info →
      ∃ worth, e.after.Worth period.1 info.reportId worth ∧ 0 ≤ worth ∧
        (info.totalCreditsEarned : ℚ) ≤ worth * heldParts period (l ++ [e]) ∧
        (info.distributed = true → info.undistributed = worth - info.totalCreditsEarned) := by
    intro info hget
    obtain ⟨worth, hworth, hnonneg, hearned, hrest⟩ := hw.earned_le info hget
    refine ⟨worth, hworth.step hfires hcontext.types hcontext.reports, hnonneg, ?_, hrest⟩
    rw [heldParts_snoc, mul_add]
    have := mul_nonneg (a := (worth : ℚ)) (by exact_mod_cast hnonneg) hpart
    linarith
  intro info hget
  rcases period_step hfires with ⟨-, hperiod, -⟩ | ⟨batch, f, hbatch, hafter, hfound, hwrote⟩
  · exact hold info (hperiod ▸ hget)
  · rw [hwrote.periodInfo, get_set] at hget
    split at hget
    · next hkey =>
        obtain rfl := Option.some.inj hget
        subst hkey
        have hsound := hcontext.reports.sound _ _ (World.report_of_batchFound hfound)
        have hissuer := World.issuer_of_batchFound hfound
        have hworth : 0 ≤ f.totalCredits :=
          have htotals := CouponEngine.creditTotals_nonneg hsound hfound.totals
          Int.add_nonneg htotals.1 htotals.2
        have hbefore := hw.earnedBefore_le hfound hworth
        have hentries := hfound.entries_le hsound (hissuer ▸ hcontext.supply)
        have hpartEq : LogEntry.heldPart batch.period e = batch.heldPart f.issuer := by
          simp [LogEntry.heldPart, hbatch, hissuer]
        refine ⟨f.totalCredits, (World.worth_of_batchFound hfound).step hfires hcontext.types
          hcontext.reports, hworth, ?_, ?_⟩
        · rw [heldParts_snoc, mul_add, hpartEq]
          simp only [CouponEngine.Findings.periodInfo, Int.cast_add]
          exact add_le_add hbefore hentries
        · intro hdistributed
          simp only [CouponEngine.Findings.periodInfo, decide_eq_true_eq] at hdistributed ⊢
          rw [if_pos hdistributed]
    · exact hold info hget

/-- In every run what a period has paid stays within the parts that its batches held. -/
theorem withinParts (d : Deployment) (txs : List Tx) (period : Nat × Nat) :
    WithinParts period (machine.run (deploy d) txs) (machine.log (deploy d) txs) := by
  refine machine.invariant_under (I := fun w _ => IssuanceContext w)
    (P := WithinParts period) (issuanceContext d) ?_ ?_ txs
  · refine ⟨le_rfl, fun info hget => ?_⟩
    simp [deploy, CouponEngine.constructor] at hget
  · intro l e hfires hcontext hw
    exact hw.step hfires hcontext

/-- A longer run pays more parts. -/
theorem heldParts_mono (d : Deployment) {pre txs : List Tx} (hpre : pre <+: txs)
    (period : Nat × Nat) :
    heldParts period (machine.log (deploy d) pre) ≤
      heldParts period (machine.log (deploy d) txs) := by
  obtain ⟨rest, rfl⟩ := hpre
  induction rest using List.reverseRecOn with
  | nil => rw [List.append_nil]
  | append_singleton rest a ih =>
      rw [← List.append_assoc]
      rcases machine.snoc_cases (deploy d) (pre ++ rest) a with
        ⟨-, hlog⟩ | ⟨e, -, -, hbefore, -, hlog⟩
      · rwa [hlog]
      · have hsupply := supplyInvariant d (pre ++ rest)
        rw [← hbefore] at hsupply
        have hpart := LogEntry.heldPart_nonneg hsupply period
        rw [hlog, heldParts_snoc]
        linarith

/-! ## When the tokens stay where they are -/

/-- The holders of a list and the subscribed total are the same in two issuer
storages. -/
def BondIssuer.State.SameHoldings (s s' : BondIssuer.State) (bondId : Nat)
    (holders : List Address) : Prop :=
  s'.subscribedTotal bondId = s.subscribedTotal bondId ∧
    ∀ holder ∈ holders, BondIssuer.getHolderBalance s' bondId holder =
      BondIssuer.getHolderBalance s bondId holder

/-- All batches of a period find the list's holders with the same tokens. -/
def FindsOneHolding (l : List LogEntry) (period : Nat × Nat) (holders : List Address) : Prop :=
  ∀ e ∈ l, ∀ e' ∈ l, (∃ batch, LogEntry.batch? e = some batch ∧ batch.period = period) →
    (∃ batch, LogEntry.batch? e' = some batch ∧ batch.period = period) →
    e.before.issuer.SameHoldings e'.before.issuer period.1 holders

/-- The parts of batches that find the same tokens are parts of one whole. -/
theorem heldParts_eq_of_sameHoldings {period : Nat × Nat} {holders : List Address}
    (issuer : BondIssuer.State) {l : List LogEntry} (hlist : BringsOneList l period holders)
    (hsame : ∀ e ∈ l, (∃ batch, LogEntry.batch? e = some batch ∧ batch.period = period) →
      issuer.SameHoldings e.before.issuer period.1 holders) :
    heldParts period l =
      (((processed period l).map (BondIssuer.getHolderBalance issuer period.1)).sum : Int) /
        (issuer.subscribedTotal period.1 : ℚ) := by
  induction l using List.reverseRecOn with
  | nil => simp [heldParts, processed]
  | append_singleton l e ih =>
      have hsub := List.subset_append_left l [e]
      have hrest := ih (hlist.mono hsub) fun e' he' => hsame e' (hsub he')
      rw [heldParts_snoc, processed_snoc, hrest, List.map_append, List.sum_append, Int.cast_add,
        add_div]
      congr 1
      cases hbatch : LogEntry.batch? e with
      | none => simp [LogEntry.heldPart, LogEntry.processedIn, hbatch]
      | some batch =>
          rw [LogEntry.processedIn_of_batch hbatch]
          simp only [LogEntry.heldPart, hbatch, Option.elim_some]
          by_cases hperiod : batch.period = period
          · obtain ⟨htotal, hbalance⟩ := hsame e (by simp) ⟨batch, hbatch, hperiod⟩
            have hslice : batch.slice ⊆ holders := by
              rw [← hlist e (by simp) batch hbatch hperiod]
              exact List.Subset.trans (List.take_subset ..) (List.drop_subset ..)
            have hmap : batch.slice.map (BondIssuer.getHolderBalance e.before.issuer period.1) =
                batch.slice.map (BondIssuer.getHolderBalance issuer period.1) :=
              List.map_congr_left fun holder hmem => hbalance holder (hslice hmem)
            have hbond : batch.bondId = period.1 := congrArg Prod.fst hperiod
            rw [if_pos hperiod, if_pos hperiod, CouponEngine.Batch.heldPart, hbond, hmap, htotal]
          · simp [hperiod]

/-- One list of distinct holders with one holding each has no more than the whole bond. -/
theorem heldParts_le_one (d : Deployment) (txs : List Tx) {period : Nat × Nat}
    {holders : List Address}
    (hlist : BringsOneList (machine.log (deploy d) txs) period holders)
    (hholding : FindsOneHolding (machine.log (deploy d) txs) period holders) :
    heldParts period (machine.log (deploy d) txs) ≤ 1 := by
  by_cases hpaid : ∃ e ∈ machine.log (deploy d) txs, ∃ batch, LogEntry.batch? e = some batch ∧
      batch.period = period
  · obtain ⟨e, he, hbatch⟩ := hpaid
    have hparts := heldParts_eq_of_sameHoldings e.before.issuer hlist
      fun e' he' hbatch' => hholding e he e' he' hbatch hbatch'
    have hsupply : BondIssuer.SupplyInvariant e.before.issuer := by
      obtain ⟨pre, -, hbefore⟩ := machine.exists_run_of_mem_log he
      rw [hbefore]
      exact supplyInvariant d pre
    have hsum := (hsupply.addsUp period.1).held_le (processed_nodup_of_one_list d txs hlist)
    rw [hparts]
    exact div_le_one_of_le₀ (by exact_mod_cast hsum)
      (by exact_mod_cast hsupply.subscribed_nonneg period.1)
  · have hnone : heldParts period (machine.log (deploy d) txs) = 0 := by
      refine List.sum_eq_zero fun x hx => ?_
      obtain ⟨e, he, rfl⟩ := List.mem_map.mp hx
      unfold LogEntry.heldPart
      cases hbatch : LogEntry.batch? e with
      | none => rfl
      | some batch => exact if_neg fun hperiod => hpaid ⟨e, he, batch, hbatch, hperiod⟩
    rw [hnone]
    exact zero_le_one

/-- The period's record stays within what its report is worth. -/
def World.NotOverIssued (w : World) (bondId periodIndex : Nat) : Prop :=
  ∀ info, CouponEngine.getPeriodInfo w.engine bondId periodIndex = .ok info →
    ∃ worth, w.Worth bondId info.reportId worth ∧ info.totalCreditsEarned ≤ worth ∧
      (info.distributed = true → 0 ≤ info.undistributed)

/-- **What a period issues.**  If the parts of the subscribed tokens that the
batches of a period paid, each as it found them, add up to at most one, the
period never issues more than its report is worth.  They do when all batches
bring one list and find its holders and the subscribed total unchanged. -/
theorem period_not_over_issued (d : Deployment) (txs : List Tx) (bondId periodIndex : Nat) :
    (heldParts (bondId, periodIndex) (machine.log (deploy d) txs) ≤ 1 →
      ∀ pre, pre <+: txs → (machine.run (deploy d) pre).NotOverIssued bondId periodIndex) ∧
    ∀ holders, BringsOneList (machine.log (deploy d) txs) (bondId, periodIndex) holders →
      FindsOneHolding (machine.log (deploy d) txs) (bondId, periodIndex) holders →
      heldParts (bondId, periodIndex) (machine.log (deploy d) txs) ≤ 1 := by
  constructor
  · intro hparts pre hpre info hget
    obtain ⟨worth, hworth, hnonneg, hearned, hrest⟩ :=
      (withinParts d pre (bondId, periodIndex)).earned_le info (okOr_ok_iff.mp hget)
    have hle := (heldParts_mono d hpre (bondId, periodIndex)).trans hparts
    have hissued : info.totalCreditsEarned ≤ worth := by
      have hworthQ : (0 : ℚ) ≤ worth := by exact_mod_cast hnonneg
      have hwhole := hearned.trans (mul_le_of_le_one_right hworthQ hle)
      exact_mod_cast hwhole
    refine ⟨worth, hworth, hissued, fun hcomplete => ?_⟩
    rw [hrest hcomplete]
    omega
  · intro holders hlist hholding
    exact heldParts_le_one d txs hlist hholding

/-- All tokens move from account 1 to account 2 between the two batches. -/
def movedBetweenBatches : List Tx := reportedBond ++ [
  sampleTx 5 0 (.engine (.distributeCouponBatch 0 1 0 [1, 2] 1 0 1 1)),
  sampleTx 6 1 (.issuer (.transfer 1 2 1 100 1)),
  sampleTx 7 0 (.engine (.distributeCouponBatch 0 1 0 [1, 2] 1 1 1 2))]

/-- Distinct holders in one list are not enough: tokens that are transferred between two
batches are counted twice. -/
theorem period_over_issued_by_transfer :
    ¬ ∀ (d : Deployment) (txs : List Tx) (bondId periodIndex : Nat) (holders : List Address),
      holders.Nodup → BringsOneList (machine.log (deploy d) txs) (bondId, periodIndex) holders →
      (machine.run (deploy d) txs).NotOverIssued bondId periodIndex := by
  intro hissued
  have hlists : ((machine.log (deploy sampleDeployment) movedBetweenBatches).filterMap
      LogEntry.batch?).map CouponEngine.Batch.holders = [[1, 2], [1, 2]] := by decide +kernel
  have hrecord : ((machine.run (deploy sampleDeployment)
      movedBetweenBatches).engine.periodInfo.get (1, 0)).map
        (fun info => (info.distributed, info.undistributed)) = some (true, -1000000) := by
    decide +kernel
  have hone : BringsOneList (machine.log (deploy sampleDeployment) movedBetweenBatches) (1, 0)
      [1, 2] := by
    intro e he batch hbatch _
    have hmem : batch.holders ∈ [[1, 2], [1, 2]] := by
      rw [← hlists]
      exact List.mem_map_of_mem (List.mem_filterMap.mpr ⟨e, he, hbatch⟩)
    simpa using hmem
  obtain ⟨info, hget, hinfo⟩ := Option.map_eq_some_iff.mp hrecord
  obtain ⟨hcomplete, hnegative⟩ := Prod.mk.inj hinfo
  obtain ⟨worth, -, -, hrest⟩ := hissued sampleDeployment movedBetweenBatches 1 0 [1, 2]
    (by decide) hone info (okOr_ok_iff.mpr hget)
  have := hrest hcomplete
  omega

end EcoMint
