import EcoMint.CouponLedger
import EcoMint.CouponPeriods
import EcoMint.ProjectExport

/-!
# The audit export of a bond

`BondsService.exportBond` asks the coupon engine for one period record after the
other, as many as the bond has coupon dates.  The engine does not know these
dates: it pays a period under any index.  A coupon paid under an index past the
schedule is therefore never exported.
-/

namespace EcoMint

open Storage

/-! ## The export -/

/-- The status of a bond as a value. -/
def BondStatus.toScVal (variants : VariantForm) : BondStatus → ScVal
  | .active => unitVariant variants "Active" 0
  | .matured => unitVariant variants "Matured" 1
  | .defaulted => unitVariant variants "Defaulted" 2

/-- `Number(value) === 1`, as far as a status goes: an array of one text counts
as that text. -/
def Native.isOne : Native → Bool
  | .number value => value = 1
  | .bigint value => value = 1
  | .array [.text value] => value = "1"
  | _ => false

/-- What the export of a bond is given from outside. -/
structure BondExportContext where
  /-- the text of an address -/
  addressText : Address → String
  /-- how the contracts' statuses and credit types come back -/
  variants : VariantForm
  /-- `new Date().toISOString()` -/
  now : String
  /-- `new Date(seconds * 1000).toISOString()` -/
  isoText : Nat → String
  /-- what `getHolders` lists for a bond -/
  holders : Nat → List HolderBalance
  sha256Hex : String → String

/-- A period as the export lists it. -/
def CouponEngine.PeriodInfo.toDistribution (info : CouponEngine.PeriodInfo) :
    CouponDistribution where
  periodIndex := info.periodIndex
  startTime := info.startTime
  endTime := info.endTime
  totalCreditsEarned := toString info.totalCreditsEarned
  reportId := info.reportId
  undistributed := toString info.undistributed

section

variable (ctx : BondExportContext) (w : World)

/-- The JSON of a contract value, unless a number is in it. -/
def contractJson (value : ScVal) : Option Json := (scValToNative ctx.addressText value).toJson

/-- The data of a bond; nothing where they have no JSON. -/
def readBondData (bondId : Nat) (config : BondConfig) (state : BondIssuer.BondState) :
    Option BondData := do
  let creditType ← contractJson ctx (config.creditType.toScVal ctx.variants)
  let status ← contractJson ctx (state.status.toScVal ctx.variants)
  return {
    id := bondId, projectRegistryId := hexText config.projectId.bytes
    faceValue := toString config.faceValue, couponSchedule := config.couponSchedule, creditType
    maturityDate := config.maturityDate, totalSupply := toString config.totalSupply
    totalSubscribed := toString state.totalSubscribed, status
    createdAt := ctx.isoText state.createdAt }

/-- The issue, and the maturity of a bond whose status is the number 1. -/
def lifecycleEvents (bond : BondData) (config : BondConfig) (state : BondIssuer.BondState) :
    List LifecycleEvent :=
  let issued : LifecycleEvent := ⟨"ISSUED", bond.createdAt, some bond.totalSupply⟩
  if (scValToNative ctx.addressText (state.status.toScVal ctx.variants)).isOne then
    [issued, ⟨"MATURED", ctx.isoText config.maturityDate, none⟩]
  else [issued]

/-- The body of the loop over the periods; nothing where it throws. -/
def readCoupon (bondId period : Nat) : Option CouponDistribution := do
  let info ← (CouponEngine.getPeriodInfo w.engine bondId period).toOption
  if info.distributed then some info.toDistribution else none

/-- The coupons of the first periods, as many as the bond has coupon dates. -/
def collectCoupons (bondId scheduleLength : Nat) : List CouponDistribution :=
  (List.range scheduleLength).filterMap (readCoupon w bondId)

/-- The body of the loop over the retirements; nothing where it throws. -/
def readRetirement (bondId retId : Nat) : Option RetirementEntry := do
  let record ← (CreditRetirement.getRetirementRecord w.retirement retId).toOption
  if record.bondId = bondId then
    let creditType ← contractJson ctx (record.creditType.toScVal ctx.variants)
    return {
      id := record.id, holder := ctx.addressText record.holder, amount := toString record.amount
      creditType, retiredAt := record.retiredAt
      certificateIpfsHash := hexText record.certificateIpfsHash.bytes }
  else none

/-- The retirements of the bond, among all there are. -/
def collectRetirements (bondId : Nat) : List RetirementEntry :=
  (List.range' 1 (CreditRetirement.totalRetirements w.retirement)).filterMap
    (readRetirement ctx w bondId)

/-- The payload of an export, and its checksum. -/
def exportBond (bondId : Nat) (auditorAddress : String) : Option (BondPayload × String) := do
  let config ← (BondIssuer.getBond w.issuer bondId).toOption
  let state ← (BondIssuer.getBondState w.issuer bondId).toOption
  let bond ← readBondData ctx bondId config state
  let payload : BondPayload := {
    generationMetadata := {
      timestamp := ctx.now
      exporterAddress := if auditorAddress = "" then "system" else auditorAddress
      version := "1.0.0" }
    bond
    lifecycleEvents := lifecycleEvents ctx bond config state
    holders := ctx.holders bondId
    couponDistributions := collectCoupons w bondId config.couponSchedule.length
    retirements := collectRetirements ctx w bondId }
  return (payload, ctx.sha256Hex (exportBondData payload))

end

/-! ## What the export finds -/

/-- The data of a bond can always be read. -/
theorem exists_readBondData (ctx : BondExportContext) (bondId : Nat) (config : BondConfig)
    (state : BondIssuer.BondState) : ∃ data, readBondData ctx bondId config state = some data := by
  have htype : ∃ json, contractJson ctx (config.creditType.toScVal ctx.variants) = some json := by
    cases config.creditType <;> cases ctx.variants <;> exact ⟨_, rfl⟩
  have hstatus : ∃ json, contractJson ctx (state.status.toScVal ctx.variants) = some json := by
    cases state.status <;> cases ctx.variants <;> exact ⟨_, rfl⟩
  obtain ⟨creditType, htype⟩ := htype
  obtain ⟨status, hstatus⟩ := hstatus
  unfold readBondData
  rw [htype, hstatus]
  exact ⟨_, rfl⟩

/-- A maturity is among the events exactly if the bond has matured and its status comes
back as a number. -/
theorem lifecycleEvents_eq (ctx : BondExportContext) (bond : BondData) (config : BondConfig)
    (state : BondIssuer.BondState) : lifecycleEvents ctx bond config state =
      ⟨"ISSUED", bond.createdAt, some bond.totalSupply⟩ ::
        if ctx.variants = .numbered ∧ state.status = .matured then
          [⟨"MATURED", ctx.isoText config.maturityDate, none⟩]
        else [] := by
  unfold lifecycleEvents
  cases ctx.variants with
  | named => cases state.status <;> rfl
  | numbered => cases state.status <;> rfl

/-- The entry says about a period what its record holds. -/
structure CouponDistribution.Describes (entry : CouponDistribution)
    (info : CouponEngine.PeriodInfo) : Prop where
  startTime : entry.startTime = info.startTime
  endTime : entry.endTime = info.endTime
  totalCreditsEarned : entry.totalCreditsEarned = toString info.totalCreditsEarned
  reportId : entry.reportId = info.reportId
  undistributed : entry.undistributed = toString info.undistributed

/-- The entry describes the period. -/
theorem CouponEngine.PeriodInfo.toDistribution_describes (info : CouponEngine.PeriodInfo) :
    info.toDistribution.Describes info :=
  ⟨rfl, rfl, rfl, rfl, rfl⟩

/-- A coupon of the bond is paid in full under this index. -/
def World.PaidUnder (w : World) (bondId period : Nat) (info : CouponEngine.PeriodInfo) : Prop :=
  w.engine.periodInfo.get (bondId, period) = some info ∧ info.distributed = true

/-- The coupons in the payload are those paid on the bond, each once. -/
structure BondPayload.ListsPaidCoupons (payload : BondPayload) (w : World) (bondId : Nat) :
    Prop where
  complete : ∀ period info, w.PaidUnder bondId period info → ∃ entry,
    payload.couponDistributions.filter (fun entry => entry.periodIndex = period) = [entry] ∧
      entry.Describes info
  sound : ∀ entry ∈ payload.couponDistributions, ∃ info,
    w.PaidUnder bondId entry.periodIndex info ∧ entry.Describes info

/-- An issued bond can be exported, with its paid coupons. -/
def World.ExportsPaidCoupons (w : World) (ctx : BondExportContext) (auditorAddress : String)
    (bondId : Nat) : Prop :=
  ∀ config, BondIssuer.getBond w.issuer bondId = .ok config → ∃ payload checksum,
    exportBond ctx w bondId auditorAddress = some (payload, checksum) ∧
      payload.ListsPaidCoupons w bondId

/-- A period record is kept under its own index, and its bond was issued. -/
def World.PeriodsKeyed (w : World) : Prop :=
  ∀ bondId period info, w.engine.periodInfo.get (bondId, period) = some info →
    info.periodIndex = period ∧ ∃ config, w.issuer.bondConfig.get bondId = some config

/-- A coupon is read exactly if it was paid. -/
theorem readCoupon_eq_some_iff {w : World} {bondId period : Nat} {entry : CouponDistribution} :
    readCoupon w bondId period = some entry ↔
      ∃ info, w.PaidUnder bondId period info ∧ info.toDistribution = entry := by
  unfold readCoupon CouponEngine.getPeriodInfo World.PaidUnder
  cases hget : w.engine.periodInfo.get (bondId, period) with
  | none => simp [Fallible.okOr, Except.toOption]
  | some info => simp [Fallible.okOr, Except.toOption]

/-- An entry stands under the index its record is kept under. -/
theorem periodIndex_of_readCoupon {w : World} (hw : w.PeriodsKeyed) {bondId period : Nat}
    {entry : CouponDistribution} (h : readCoupon w bondId period = some entry) :
    entry.periodIndex = period := by
  obtain ⟨info, ⟨hget, -⟩, rfl⟩ := readCoupon_eq_some_iff.mp h
  exact (hw bondId period info hget).1

/-- The entries under one index are what the loop read there, if it came there. -/
theorem filter_collectCoupons {w : World} (hw : w.PeriodsKeyed) (bondId period : Nat) :
    ∀ scheduleLength, (collectCoupons w bondId scheduleLength).filter
        (fun entry => entry.periodIndex = period) =
      if period < scheduleLength then (readCoupon w bondId period).toList else []
  | 0 => rfl
  | scheduleLength + 1 => by
      have ih := filter_collectCoupons hw bondId period scheduleLength
      have hsplit : collectCoupons w bondId (scheduleLength + 1) =
          collectCoupons w bondId scheduleLength ++
            (readCoupon w bondId scheduleLength).toList := by
        unfold collectCoupons
        rw [List.range_succ, List.filterMap_append]
        cases hread : readCoupon w bondId scheduleLength <;> simp [hread]
      have hlast : (readCoupon w bondId scheduleLength).toList.filter
          (fun entry => entry.periodIndex = period) =
            if period = scheduleLength then (readCoupon w bondId period).toList else [] := by
        cases hread : readCoupon w bondId scheduleLength with
        | none =>
            split
            · next heq => simp [heq, hread]
            · rfl
        | some entry =>
            have hindex := periodIndex_of_readCoupon hw hread
            split
            · next heq => simp [heq, hread, hindex]
            · next hne => simp [hindex, Ne.symm hne]
      rw [hsplit, List.filter_append, ih, hlast]
      by_cases hlt : period < scheduleLength
      · rw [if_pos hlt, if_neg (by omega), if_pos (by omega), List.append_nil]
      · by_cases heq : period = scheduleLength
        · rw [if_neg hlt, if_pos heq, if_pos (by omega), List.nil_append]
        · rw [if_neg hlt, if_neg heq, if_neg (by omega), List.append_nil]

/-- What is read of the periods of the schedule. -/
theorem mem_collectCoupons {w : World} {bondId scheduleLength : Nat}
    {entry : CouponDistribution} : entry ∈ collectCoupons w bondId scheduleLength ↔
      ∃ period, period < scheduleLength ∧ readCoupon w bondId period = some entry := by
  simp [collectCoupons]

/-- An export returns a payload, with the coupons of the schedule's periods. -/
theorem exportBond_eq (ctx : BondExportContext) {w : World} {bondId : Nat}
    (hs : BondIssuer.SupplyInvariant w.issuer) {config : BondConfig}
    (hconfig : w.issuer.bondConfig.get bondId = some config) (auditorAddress : String) :
    ∃ payload checksum, exportBond ctx w bondId auditorAddress = some (payload, checksum) ∧
      payload.couponDistributions = collectCoupons w bondId config.couponSchedule.length := by
  have hissued : (w.issuer.bondState.get bondId).isSome := by
    rw [hs.issued_iff, hconfig]
    rfl
  obtain ⟨state, hstate⟩ := Option.isSome_iff_exists.mp hissued
  obtain ⟨data, hdata⟩ := exists_readBondData ctx bondId config state
  unfold exportBond BondIssuer.getBond BondIssuer.getBondState
  rw [hconfig, hstate]
  simp only [Fallible.okOr, Except.toOption, Option.bind_eq_bind, Option.bind_some, hdata]
  exact ⟨_, _, rfl, rfl⟩

/-- The paid coupons of an issued bond are all within its schedule. -/
def World.PaidWithinSchedule (w : World) (bondId : Nat) : Prop :=
  ∀ period info, w.PaidUnder bondId period info → ∀ config,
    w.issuer.bondConfig.get bondId = some config → period < config.couponSchedule.length

/-- A list of the coupons in the schedule is one of all paid coupons exactly if
no coupon was paid past the schedule. -/
theorem listsPaidCoupons_iff {w : World} (hw : w.PeriodsKeyed) {bondId scheduleLength : Nat}
    {payload : BondPayload}
    (hcoupons : payload.couponDistributions = collectCoupons w bondId scheduleLength) :
    payload.ListsPaidCoupons w bondId ↔
      ∀ period info, w.PaidUnder bondId period info → period < scheduleLength := by
  constructor
  · intro hlists period info hpaid
    obtain ⟨entry, hfilter, -⟩ := hlists.complete period info hpaid
    rw [hcoupons, filter_collectCoupons hw] at hfilter
    by_contra hpast
    simp [hpast] at hfilter
  · intro hwithin
    constructor
    · intro period info hpaid
      refine ⟨info.toDistribution, ?_, info.toDistribution_describes⟩
      have hread : readCoupon w bondId period = some info.toDistribution :=
        readCoupon_eq_some_iff.mpr ⟨info, hpaid, rfl⟩
      rw [hcoupons, filter_collectCoupons hw, if_pos (hwithin period info hpaid), hread]
      rfl
    · intro entry hentry
      rw [hcoupons] at hentry
      obtain ⟨period, -, hread⟩ := mem_collectCoupons.mp hentry
      obtain rfl := periodIndex_of_readCoupon hw hread
      obtain ⟨info, hpaid, rfl⟩ := readCoupon_eq_some_iff.mp hread
      exact ⟨info, hpaid, info.toDistribution_describes⟩

/-- The export is complete exactly if every coupon was paid within the schedule. -/
theorem exportsPaidCoupons_iff {w : World} (hw : w.PeriodsKeyed)
    (hs : BondIssuer.SupplyInvariant w.issuer) (ctx : BondExportContext)
    (auditorAddress : String) (bondId : Nat) :
    w.ExportsPaidCoupons ctx auditorAddress bondId ↔ w.PaidWithinSchedule bondId := by
  constructor
  · intro hexports period info hpaid config hconfig
    obtain ⟨payload, checksum, hexport, hlists⟩ :=
      hexports config (Fallible.okOr_ok_iff.mpr hconfig)
    obtain ⟨payload', checksum', hexport', hcoupons⟩ :=
      exportBond_eq ctx hs hconfig auditorAddress
    rw [hexport] at hexport'
    obtain ⟨rfl, -⟩ := Prod.mk.inj (Option.some.inj hexport')
    exact (listsPaidCoupons_iff hw hcoupons).mp hlists period info hpaid
  · intro hwithin config hget
    have hconfig := Fallible.okOr_ok_iff.mp hget
    obtain ⟨payload, checksum, hexport, hcoupons⟩ := exportBond_eq ctx hs hconfig auditorAddress
    refine ⟨payload, checksum, hexport, (listsPaidCoupons_iff hw hcoupons).mpr ?_⟩
    intro period info hpaid
    exact hwithin period info hpaid config hconfig

/-! ## Runs -/

/-- A transaction keeps the records under their own indices. -/
theorem World.PeriodsKeyed.step {e : LogEntry} (hfires : machine.Fires e)
    (hs : BondIssuer.SupplyInvariant e.before.issuer) (hw : e.before.PeriodsKeyed) :
    e.after.PeriodsKeyed := by
  intro bondId period info hget
  have hkept : ∀ config, e.before.issuer.bondConfig.get bondId = some config →
      e.after.issuer.bondConfig.get bondId = some config :=
    fun config => (worldStep_of_execute hfires).bondConfig hs
  rcases period_step hfires with ⟨-, hperiod, -⟩ | ⟨batch, f, -, -, hfound, hwrote⟩
  · rw [hperiod] at hget
    obtain ⟨hindex, config, hconfig⟩ := hw bondId period info hget
    exact ⟨hindex, config, hkept config hconfig⟩
  · rw [hwrote.periodInfo, get_set] at hget
    split at hget
    · next hbatch =>
        obtain ⟨rfl, rfl⟩ := Prod.mk.inj hbatch
        obtain rfl := Option.some.inj hget
        have hissuer := World.issuer_of_batchFound hfound
        obtain ⟨state, hstate, -⟩ := Fallible.bind_ok_iff.mp hfound.subscribed
        rw [Fallible.okOr_ok_iff, hissuer] at hstate
        have hissued : (e.before.issuer.bondConfig.get batch.bondId).isSome := by
          rw [← hs.issued_iff, hstate]
          rfl
        obtain ⟨config, hconfig⟩ := Option.isSome_iff_exists.mp hissued
        exact ⟨rfl, config, hkept config hconfig⟩
    · obtain ⟨hindex, config, hconfig⟩ := hw bondId period info hget
      exact ⟨hindex, config, hkept config hconfig⟩

/-- They are so in every run. -/
theorem periodsKeyed (d : Deployment) (txs : List Tx) :
    (machine.run (deploy d) txs).PeriodsKeyed := by
  refine machine.invariant_under (P := fun w _ => w.PeriodsKeyed)
    (I := fun w _ => BondIssuer.SupplyInvariant w.issuer) (supplyInvariant d) ?_ ?_ txs
  · intro bondId period info hget
    simp [deploy, CouponEngine.constructor] at hget
  · intro _ e hfires hs hw
    exact hw.step hfires hs

/-- A batch that completes a period of the bond does so under an index of the
bond's schedule. -/
def LogEntry.PaysScheduledPeriod (bondId : Nat) (e : LogEntry) : Prop :=
  ∀ batch, e.batch? = some batch → batch.bondId = bondId → batch.stop = batch.holders.length →
    ∀ config, e.before.issuer.bondConfig.get bondId = some config →
      batch.periodIndex < config.couponSchedule.length

/-- Whether a coupon was paid depends on the records alone. -/
theorem paidUnder_of_same {w w' : World} (h : w'.engine.periodInfo = w.engine.periodInfo)
    {bondId period : Nat} {info : CouponEngine.PeriodInfo} :
    w'.PaidUnder bondId period info ↔ w.PaidUnder bondId period info := by
  unfold World.PaidUnder
  rw [h]

/-- A transaction keeps the paid coupons of a bond within the schedule exactly
if the period it completes, if any, is one of the schedule. -/
theorem paidWithinSchedule_step {e : LogEntry} (hfires : machine.Fires e) {bondId : Nat}
    (hs : BondIssuer.SupplyInvariant e.before.issuer) (hkeyed : e.before.PeriodsKeyed)
    (hw : e.before.PaidWithinSchedule bondId) :
    e.after.PaidWithinSchedule bondId ↔ LogEntry.PaysScheduledPeriod bondId e := by
  have hkept : ∀ config, e.before.issuer.bondConfig.get bondId = some config →
      e.after.issuer.bondConfig.get bondId = some config :=
    fun config => (worldStep_of_execute hfires).bondConfig hs
  -- what was paid before is within the schedule afterwards, too
  have hold : ∀ period info, e.before.PaidUnder bondId period info → ∀ config,
      e.after.issuer.bondConfig.get bondId = some config →
        period < config.couponSchedule.length := by
    intro period info hpaid config hconfig
    obtain ⟨-, config', hconfig'⟩ := hkeyed bondId period info hpaid.1
    obtain rfl := Option.some.inj (hconfig.symm.trans (hkept config' hconfig'))
    exact hw period info hpaid config hconfig'
  unfold LogEntry.PaysScheduledPeriod
  rcases period_step hfires with ⟨hnone, hperiod, -⟩ | ⟨batch, f, hbatch, hafter, hfound, hwrote⟩
  · constructor
    · intro _ batch hbatch
      simp [hnone] at hbatch
    · intro _ period info hpaid
      exact hold period info ((paidUnder_of_same hperiod).mp hpaid)
  · have hissuer : e.after.issuer = e.before.issuer := by rw [hafter]
    constructor
    · rintro hwithin batch' hbatch' rfl hcomplete config hconfig
      obtain rfl : batch = batch' := by simpa [hbatch] using hbatch'
      refine hwithin batch.periodIndex (f.periodInfo e.before.engine batch) ⟨?_, ?_⟩ config
        (hkept config hconfig)
      · rw [hwrote.periodInfo]
        exact get_set_self ..
      · exact decide_eq_true hcomplete
    · rintro hscheduled period info ⟨hget, hdistributed⟩ config hconfig
      rw [hwrote.periodInfo, get_set] at hget
      split at hget
      · next hsame =>
          obtain ⟨rfl, rfl⟩ := Prod.mk.inj hsame
          obtain rfl := Option.some.inj hget
          rw [hissuer] at hconfig
          exact hscheduled batch hbatch rfl (of_decide_eq_true hdistributed) config hconfig
      · exact hold period info ⟨hget, hdistributed⟩ config hconfig

/-- **The exported coupons.**  All along a run the export of a bond lists exactly
its paid coupons if and only if no batch completes a period of the bond under an
index past its schedule. -/
theorem export_lists_paid_coupons_iff (d : Deployment) (txs : List Tx) (ctx : BondExportContext)
    (auditorAddress : String) (bondId : Nat) :
    (∀ pre, pre <+: txs →
        (machine.run (deploy d) pre).ExportsPaidCoupons ctx auditorAddress bondId) ↔
      ∀ e ∈ machine.log (deploy d) txs, LogEntry.PaysScheduledPeriod bondId e := by
  simp only [exportsPaidCoupons_iff (periodsKeyed d _) (supplyInvariant d _)]
  rw [← Machine.forall_prefix_iff_forall_mem]
  refine machine.holds_iff
    (I := fun w _ => BondIssuer.SupplyInvariant w.issuer ∧ w.PeriodsKeyed)
    (P := fun w _ => w.PaidWithinSchedule bondId)
    (C := fun _ e => LogEntry.PaysScheduledPeriod bondId e)
    (fun calls => ⟨supplyInvariant d calls, periodsKeyed d calls⟩) ?_ ?_ txs
  · intro period info hpaid
    simp [World.PaidUnder, deploy, CouponEngine.constructor] at hpaid
  · intro _ e hfires hI hw
    exact paidWithinSchedule_step hfires hI.1 hI.2 hw

/-- The report is distributed in full under index 1 of a bond with one coupon
date. -/
def paidPastSchedule : List Tx := reportedBond ++ [
  sampleTx 5 0 (.engine (.distributeCoupon 0 1 1 [1] 1 1))]

def sampleBondExportContext : BondExportContext where
  addressText _ := "GA"
  variants := .named
  now := "2026-01-01T00:00:00.000Z"
  isoText _ := "2026-01-01T00:00:00.000Z"
  holders _ := []
  sha256Hex _ := ""

/-- A coupon that was paid past the schedule is missing. -/
theorem export_misses_paid_coupon :
    ¬ ∀ (d : Deployment) (txs : List Tx) (ctx : BondExportContext) (auditorAddress : String)
      (bondId : Nat), (machine.run (deploy d) txs).ExportsPaidCoupons ctx auditorAddress bondId := by
  intro hexports
  have hpaid : ((machine.run (deploy sampleDeployment) paidPastSchedule).engine.periodInfo.get
      (1, 1)).any CouponEngine.PeriodInfo.distributed = true := by decide +kernel
  have hconfig : (machine.run (deploy sampleDeployment) paidPastSchedule).issuer.bondConfig.get 1 =
      some BondIssuer.sampleConfig := by decide +kernel
  obtain ⟨info, hget, hdistributed⟩ := (Option.any_eq_true _ _).mp hpaid
  have hwithin := (exportsPaidCoupons_iff (periodsKeyed _ _) (supplyInvariant _ _) _ _ _).mp
    (hexports sampleDeployment paidPastSchedule sampleBondExportContext "" 1)
  exact absurd (hwithin 1 info ⟨hget, hdistributed⟩ _ hconfig) (by decide)

end EcoMint
