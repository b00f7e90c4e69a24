import EcoMint.CouponLedger
import EcoMint.CouponPeriods

/-!
# Whose reports pay a bond's coupons?

Three contracts hold the link from a coupon to its project.  The oracle keeps
the project of a report, the issuer the project of a bond, and the engine a map
of its own from bonds to projects, which its admin writes by `register_bond`.
A batch compares the report with the engine's map only.  So a coupon always
comes from a project registered for its bond, and from the bond's own project
for as long as that is what the map says.
-/

namespace EcoMint

open Fallible Storage

/-- Someone registered the project for the bond. -/
def RegisteredFor (l : List LogEntry) (bondId : Nat) (projectId : BytesN 32) : Prop :=
  ∃ e ∈ l, ∃ caller nonce, e.input.call = .engine (.registerBond caller bondId projectId nonce)

theorem RegisteredFor.snoc {l : List LogEntry} {bondId : Nat} {projectId : BytesN 32}
    (h : RegisteredFor l bondId projectId) (e : LogEntry) :
    RegisteredFor (l ++ [e]) bondId projectId := by
  obtain ⟨e', he', hcall⟩ := h
  exact ⟨e', List.mem_append_left _ he', hcall⟩

/-- A registration of the bond names the project of its configuration. -/
def LogEntry.RegistersOwnProject (bondId : Nat) (e : LogEntry) : Prop :=
  ∀ caller projectId nonce,
    e.input.call = .engine (.registerBond caller bondId projectId nonce) →
    ∃ config, BondIssuer.getBond e.before.issuer bondId = .ok config ∧
      config.projectId = projectId

/-- A batch on the bond is made while the engine's map names the project of the
bond's configuration. -/
def LogEntry.PaidForOwnProject (bondId : Nat) (e : LogEntry) : Prop :=
  ∀ batch, e.batch? = some batch → batch.bondId = bondId →
    ∃ config, BondIssuer.getBond e.before.issuer bondId = .ok config ∧
      e.before.engine.bondProject.get bondId = some config.projectId

/-- The coupons of a bond come from reports on the bond's own project. -/
def World.OwnReports (w : World) (bondId : Nat) : Prop :=
  ∀ periodIndex info, w.engine.periodInfo.get (bondId, periodIndex) = some info →
    ∃ report config, OracleConsumer.getReport w.oracle info.reportId = .ok report ∧
      BondIssuer.getBond w.issuer bondId = .ok config ∧ report.projectId = config.projectId

/-- A stored report keeps its project in every transaction. -/
theorem report_project_step {e : LogEntry} (hfires : machine.Fires e)
    (hs : OracleConsumer.ReportsInvariant e.before.oracle) {id : Nat}
    {report : OracleConsumer.Report} (hget : e.before.oracle.report.get id = some report) :
    ∃ report', e.after.oracle.report.get id = some report' ∧
      report'.projectId = report.projectId := by
  obtain ⟨report', hget', hcontent⟩ :=
    (worldStep_of_execute hfires).oracle_reportStep.persists hs hget
  exact ⟨report', hget', hcontent.projectId_eq⟩

/-! ## Every coupon comes from a registered project -/

/-- The engine's map and the period records name registered projects only. -/
structure Provenance (w : World) (l : List LogEntry) : Prop where
  mapped : ∀ bondId projectId, w.engine.bondProject.get bondId = some projectId →
    RegisteredFor l bondId projectId
  paid : ∀ bondId periodIndex info,
    w.engine.periodInfo.get (bondId, periodIndex) = some info →
    ∃ report, w.oracle.report.get info.reportId = some report ∧
      RegisteredFor l bondId report.projectId

/-- One transaction keeps the provenance of the reports. -/
theorem Provenance.step {l : List LogEntry} {e : LogEntry} (hfires : machine.Fires e)
    (hs : OracleConsumer.ReportsInvariant e.before.oracle) (hw : Provenance e.before l) :
    Provenance e.after (l ++ [e]) := by
  constructor
  · intro bondId projectId hget
    rcases (worldStep_of_execute hfires).registration_cases with
      ⟨hsame, -⟩ | ⟨caller, bondId', projectId', nonce, _, hcall, -, hset, -⟩
    · exact (hw.mapped bondId projectId (hsame ▸ hget)).snoc e
    · rw [hset, get_set] at hget
      split at hget
      · next hbond =>
          obtain rfl := Option.some.inj hget
          subst hbond
          exact ⟨e, by simp, caller, nonce, hcall⟩
      · exact (hw.mapped bondId projectId hget).snoc e
  · have hold : ∀ bondId periodIndex info,
        e.before.engine.periodInfo.get (bondId, periodIndex) = some info →
        ∃ report, e.after.oracle.report.get info.reportId = some report ∧
          RegisteredFor (l ++ [e]) bondId report.projectId := by
      intro bondId periodIndex info hget
      obtain ⟨report, hreport, hregistered⟩ := hw.paid bondId periodIndex info hget
      obtain ⟨report', hreport', hproject⟩ := report_project_step hfires hs hreport
      exact ⟨report', hreport', hproject ▸ hregistered.snoc e⟩
    intro bondId periodIndex info hget
    rcases period_step hfires with ⟨-, hperiod, -⟩ | ⟨batch, f, -, hafter, hfound, hwrote⟩
    · exact hold bondId periodIndex info (hperiod ▸ hget)
    · rw [hwrote.periodInfo, get_set] at hget
      split at hget
      · next hbatch =>
          obtain rfl := Option.some.inj hget
          obtain ⟨rfl, -⟩ := Prod.mk.inj hbatch
          have horacle : e.after.oracle = e.before.oracle := by rw [hafter]
          refine ⟨f.report, ?_, (hw.mapped _ _ hfound.project).snoc e⟩
          rw [horacle]
          exact World.report_of_batchFound hfound
      · exact hold bondId periodIndex info hget

/-- Every reachable world has the provenance of its reports. -/
theorem provenance (d : Deployment) (txs : List Tx) :
    Provenance (machine.run (deploy d) txs) (machine.log (deploy d) txs) := by
  refine machine.invariant_under (I := fun w _ => OracleConsumer.ReportsInvariant w.oracle)
    (P := Provenance) (reportsInvariant d) ?_ ?_ txs
  · constructor
    · intro bondId projectId hget
      simp [deploy, CouponEngine.constructor] at hget
    · intro bondId periodIndex info hget
      simp [deploy, CouponEngine.constructor] at hget
  · intro l e hfires hs hw
    exact hw.step hfires hs

/-! ## When the project is the bond's own -/

/-- The engine's map names the project of the bond's configuration, if any. -/
def World.MapsOwnProject (w : World) (bondId : Nat) : Prop :=
  ∀ projectId, w.engine.bondProject.get bondId = some projectId →
    ∃ config, BondIssuer.getBond w.issuer bondId = .ok config ∧ config.projectId = projectId

/-- A bond keeps its configuration, as `get_bond` shows it. -/
theorem getBond_step {e : LogEntry} (hfires : machine.Fires e)
    (hs : BondIssuer.SupplyInvariant e.before.issuer) {bondId : Nat} {config : BondConfig}
    (hget : BondIssuer.getBond e.before.issuer bondId = .ok config) :
    BondIssuer.getBond e.after.issuer bondId = .ok config :=
  okOr_ok_iff.mpr ((worldStep_of_execute hfires).bondConfig hs (okOr_ok_iff.mp hget))

/-- A transaction that registers the bond's own project, or none, keeps its mapping. -/
theorem World.MapsOwnProject.step {e : LogEntry} (hfires : machine.Fires e)
    (hs : BondIssuer.SupplyInvariant e.before.issuer) {bondId : Nat}
    (hown : LogEntry.RegistersOwnProject bondId e) (hw : e.before.MapsOwnProject bondId) :
    e.after.MapsOwnProject bondId := by
  intro projectId hget
  rcases (worldStep_of_execute hfires).registration_cases with
    ⟨hsame, -⟩ | ⟨caller, bondId', projectId', nonce, _, hcall, -, hset, -⟩
  · obtain ⟨config, hconfig, hproject⟩ := hw projectId (hsame ▸ hget)
    exact ⟨config, getBond_step hfires hs hconfig, hproject⟩
  · rw [hset, get_set] at hget
    split at hget
    · next hbond =>
        obtain rfl := Option.some.inj hget
        subst hbond
        obtain ⟨config, hconfig, hproject⟩ := hown caller projectId' nonce hcall
        exact ⟨config, getBond_step hfires hs hconfig, hproject⟩
    · obtain ⟨config, hconfig, hproject⟩ := hw projectId hget
      exact ⟨config, getBond_step hfires hs hconfig, hproject⟩

/-- While only its own project is registered for a bond, the bond is mapped to it. -/
theorem mapsOwnProject (d : Deployment) (txs : List Tx) (bondId : Nat)
    (hown : ∀ e ∈ machine.log (deploy d) txs, LogEntry.RegistersOwnProject bondId e) :
    (machine.run (deploy d) txs).MapsOwnProject bondId := by
  refine machine.invariant_while (I := fun w _ => BondIssuer.SupplyInvariant w.issuer)
    (P := fun w _ => w.MapsOwnProject bondId) (supplyInvariant d) ?_ ?_ txs hown
  · intro projectId hget
    simp [deploy, CouponEngine.constructor] at hget
  · intro l e hfires hown hs hw
    exact hw.step hfires hs hown

/-- A transaction keeps a bond's reports its own exactly if its batch, when it
distributes one on the bond, is made while the map names the bond's project. -/
theorem ownReports_step {e : LogEntry} (hfires : machine.Fires e)
    (hsupply : BondIssuer.SupplyInvariant e.before.issuer)
    (hreports : OracleConsumer.ReportsInvariant e.before.oracle) {bondId : Nat}
    (hw : e.before.OwnReports bondId) :
    e.after.OwnReports bondId ↔ LogEntry.PaidForOwnProject bondId e := by
  have hold : ∀ periodIndex info,
      e.before.engine.periodInfo.get (bondId, periodIndex) = some info →
      ∃ report config, OracleConsumer.getReport e.after.oracle info.reportId = .ok report ∧
        BondIssuer.getBond e.after.issuer bondId = .ok config ∧
        report.projectId = config.projectId := by
    intro periodIndex info hget
    obtain ⟨report, config, hreport, hconfig, heq⟩ := hw periodIndex info hget
    obtain ⟨report', hreport', hproject⟩ :=
      report_project_step hfires hreports (okOr_ok_iff.mp hreport)
    exact ⟨report', config, okOr_ok_iff.mpr hreport', getBond_step hfires hsupply hconfig,
      hproject.trans heq⟩
  unfold LogEntry.PaidForOwnProject
  rcases period_step hfires with
    ⟨hnone, hperiod, -⟩ | ⟨batch, f, hbatch, hafter, hfound, hwrote⟩
  · simp only [hnone, reduceCtorEq, false_imp_iff, implies_true, iff_true]
    intro periodIndex info hget
    exact hold periodIndex info (hperiod ▸ hget)
  · have hreport := World.report_of_batchFound hfound
    have horacle : e.after.oracle = e.before.oracle := by rw [hafter]
    have hissuer : e.after.issuer = e.before.issuer := by rw [hafter]
    simp only [hbatch, Option.some.injEq, forall_eq']
    constructor
    · intro hafterOwn hbond
      subst hbond
      obtain ⟨report, config, hget, hconfig, heq⟩ := hafterOwn batch.periodIndex
        (f.periodInfo e.before.engine batch) (by rw [hwrote.periodInfo]; exact get_set_self ..)
      have hsame : report = f.report := by
        rw [horacle] at hget
        exact Option.some.inj ((okOr_ok_iff.mp hget).symm.trans hreport)
      refine ⟨config, hissuer ▸ hconfig, ?_⟩
      rw [hfound.project, ← heq, hsame]
    · intro hown periodIndex info hget
      rw [hwrote.periodInfo, get_set] at hget
      split at hget
      · next hkey =>
          obtain rfl := Option.some.inj hget
          obtain ⟨rfl, -⟩ := Prod.mk.inj hkey
          obtain ⟨config, hconfig, hproject⟩ := hown rfl
          refine ⟨f.report, config, okOr_ok_iff.mpr (horacle ▸ hreport), hissuer ▸ hconfig, ?_⟩
          exact Option.some.inj (hfound.project.symm.trans hproject)
      · exact hold periodIndex info hget

/-- **Whose reports pay a bond.**  Every period record of a bond refers to a
report on a project that someone registered for the bond.  All reports are on
the bond's own project, all along a run, exactly if every accepted batch on the
bond is made while the engine's map names that project; and the map does so
when every accepted registration of the bond named it. -/
theorem coupon_project_registered (d : Deployment) (txs : List Tx) (bondId : Nat) :
    (∀ periodIndex info,
        (machine.run (deploy d) txs).engine.periodInfo.get (bondId, periodIndex) = some info →
        ∃ report,
          OracleConsumer.getReport (machine.run (deploy d) txs).oracle info.reportId =
            .ok report ∧
          RegisteredFor (machine.log (deploy d) txs) bondId report.projectId) ∧
      ((∀ pre, pre <+: txs → (machine.run (deploy d) pre).OwnReports bondId) ↔
        ∀ e ∈ machine.log (deploy d) txs, LogEntry.PaidForOwnProject bondId e) ∧
      ((∀ e ∈ machine.log (deploy d) txs, LogEntry.RegistersOwnProject bondId e) →
        ∀ e ∈ machine.log (deploy d) txs, LogEntry.PaidForOwnProject bondId e) := by
  refine ⟨?_, ?_, ?_⟩
  · intro periodIndex info hget
    obtain ⟨report, hreport, hregistered⟩ := (provenance d txs).paid bondId periodIndex info hget
    exact ⟨report, okOr_ok_iff.mpr hreport, hregistered⟩
  · rw [← Machine.forall_prefix_iff_forall_mem]
    refine machine.holds_iff
      (I := fun w _ => BondIssuer.SupplyInvariant w.issuer ∧
        OracleConsumer.ReportsInvariant w.oracle)
      (P := fun w _ => w.OwnReports bondId)
      (C := fun _ e => LogEntry.PaidForOwnProject bondId e)
      (fun calls => ⟨supplyInvariant d calls, reportsInvariant d calls⟩) ?_ ?_ txs
    · intro periodIndex info hget
      simp [deploy, CouponEngine.constructor] at hget
    · intro _ e hfires hcontext hw
      exact ownReports_step hfires hcontext.1 hcontext.2 hw
  · intro hown
    rw [← Machine.forall_prefix_iff_forall_mem]
    intro l e hlogged batch hbatch hbond
    subst hbond
    obtain ⟨pre, a, -, hfires, hbefore, rfl, -, -⟩ := machine.exists_call_of_log_prefix hlogged
    have hmaps := mapsOwnProject d pre batch.bondId fun e' he' =>
      hown e' (hlogged.subset (List.mem_append_left _ he'))
    rw [← hbefore] at hmaps
    rcases period_step hfires with ⟨hnone, -⟩ | ⟨batch', f, hbatch', -, hfound, -⟩
    · simp [hbatch] at hnone
    · obtain rfl : batch = batch' := by simpa [hbatch] using hbatch'
      obtain ⟨config, hconfig, hproject⟩ := hmaps f.report.projectId hfound.project
      exact ⟨config, hconfig, by rw [hfound.project, hproject]⟩

/-- A project no bond was issued against. -/
def otherProject : BytesN 32 := ⟨List.replicate 32 2, rfl⟩

/-- The bond of `reportedBond`, registered for another project and paid from a
report on that one. -/
def otherProjectPaid : List Tx := [
  sampleTx 1 0 (.issuer (.issueBond 0 BondIssuer.sampleConfig 0)),
  sampleTx 1 0 (.oracle (.registerProvider 0 5 "verra_vcs" 0)),
  sampleTx 2 5 (.oracle (.submitReport 5 otherProject 10 20 1000 .absent "verra_vcs" otherProject
    0)),
  sampleTx 3 0 (.oracle (.verifyReport 0 1 1)),
  sampleTx 3 0 (.engine (.registerBond 0 1 otherProject 0)),
  sampleTx 4 1 (.issuer (.subscribe 1 1 100 0)),
  sampleTx 5 0 (.engine (.distributeCoupon 0 1 0 [1] 1 1))]

/-- A coupon can be paid from another project's report. -/
theorem coupon_paid_from_other_project :
    ¬ ∀ (d : Deployment) (txs : List Tx) (bondId : Nat),
      (machine.run (deploy d) txs).OwnReports bondId := by
  intro hown
  have hperiod : ((machine.run (deploy sampleDeployment)
      otherProjectPaid).engine.periodInfo.get (1, 0)).map CouponEngine.PeriodInfo.reportId =
        some 1 := by decide +kernel
  have hreport : ((machine.run (deploy sampleDeployment)
      otherProjectPaid).oracle.report.get 1).map OracleConsumer.Report.projectId =
        some otherProject := by decide +kernel
  have hbond : ((machine.run (deploy sampleDeployment)
      otherProjectPaid).issuer.bondConfig.get 1).map BondConfig.projectId =
        some BondIssuer.sampleConfig.projectId := by decide +kernel
  obtain ⟨info, hget, hinfo⟩ := Option.map_eq_some_iff.mp hperiod
  obtain ⟨report, config, hgetReport, hgetBond, heq⟩ :=
    hown sampleDeployment otherProjectPaid 1 0 info hget
  rw [hinfo] at hgetReport
  rw [okOr_ok_iff.mp hgetReport, Option.map_some, heq] at hreport
  rw [okOr_ok_iff.mp hgetBond, Option.map_some] at hbond
  exact absurd (hreport.symm.trans hbond) (by decide)

end EcoMint
