import EcoMint.CouponPeriods
import EcoMint.OracleChallenges

/-!
# Coupons and the disputes that follow them

A batch asks the oracle whether its report is verified, once, when it pays.
The challenge window of that report may still be open then, so the report can
be challenged, and rejected, after the coupon was paid.  What a rejected report
behind a complete period tells is the order of events: the batch that completed
the period came first, then a challenge inside the window, then its resolution.
-/

namespace EcoMint

open Fallible Storage

namespace OracleConsumer

/-! ## What becomes of a report that is no longer pending -/

/-- What one call does to a report that is not pending: nothing to its status,
or challenge it while it is verified, exonerate it, or reject it. -/
inductive Settling (env : Env) (s : State) (call : Call) (id : Nat) (report report' : Report) :
    Prop
  | kept (hstatus : report'.status = report.status)
  | challenged (challenger : Address) (counterEvidenceHash : BytesN 32) (nonce : Nat)
      (hcall : call = .challengeReport challenger id counterEvidenceHash nonce)
      (hbefore : report.status = .verified) (hstatus : report'.status = .challenged)
      (hwindow : env.timestamp - report.verifiedAt ≤
        s.challengeWindow.getD CHALLENGE_WINDOW_SECONDS)
  | exonerated (hbefore : report.status = .challenged) (hstatus : report'.status = .verified)
  | rejected (caller : Address) (nonce : Nat)
      (hcall : call = .resolveChallenge caller id .rejected nonce)
      (hbefore : report.status = .challenged) (hstatus : report'.status = .rejected)

/-- A challenge that is still open belongs to a challenged report. -/
theorem ChallengeInvariant.challenged_of_open {s : State} {l : List LogEntry}
    (hs : ChallengeInvariant s l) {id : Nat} {report : Report} {challenge : Challenge}
    (hget : s.report.get id = some report) (hchallenge : s.challenge.get id = some challenge)
    (hopen : challenge.resolved = false) : report.status = .challenged :=
  (hs.matched id report hget).challenged_iff.mpr ⟨challenge, hchallenge, hopen⟩

/-- The report under `id` after another one was written. -/
theorem get_report_of_set {s s' : State} {id reportId : Nat} {report after : Report}
    (hget : s.report.get id = some report) (hreport : s'.report = s.report.set reportId after) :
    s'.report.get id = some (if id = reportId then after else report) := by
  rw [hreport, get_set]
  split
  · rfl
  · exact hget

/-- A step of the oracle settles a report that is no longer pending only through its
challenge. -/
theorem OracleStep.settling {env : Env} {s s' : State} {call : Call} {l : List LogEntry}
    (hstep : OracleStep env s s' call) (hreports : ReportsInvariant s)
    (hs : ChallengeInvariant s l) {id : Nat} {report : Report}
    (hget : s.report.get id = some report) (hpending : report.status ≠ .pending) :
    ∃ report', s'.report.get id = some report' ∧ report'.verifiedAt = report.verifiedAt ∧
      Settling env s call id report report' := by
  cases hstep with
  | managed hmanaged =>
      exact ⟨report, hmanaged.sameReports.report ▸ hget, rfl, .kept rfl⟩
  | submitted added p nonce hcall hprovider hactive hfresh hperiod hsound hapart hafter =>
      have hother : id ≠ s.reportCount + 1 := by
        intro hid
        rw [hid, hreports.unused _ (Nat.lt_succ_self _)] at hget
        cases hget
      have hset : s'.report = s.report.set (s.reportCount + 1) added := by rw [hafter]; rfl
      exact ⟨report, by rw [get_report_of_set hget hset, if_neg hother], rfl, .kept rfl⟩
  | counted caller reportId nonce other hcall hcan hafter hshort =>
      obtain ⟨verifiers, counts, hrecorded⟩ := recordVerifier_frame (s.bump caller) caller reportId
      rw [hrecorded] at hafter
      exact ⟨report, by rw [hafter]; exact hget, rfl, .kept rfl⟩
  | verified caller reportId nonce other hcall hcan hafter hquorum =>
      have hother : id ≠ reportId := by
        intro hid
        obtain rfl : report = other := by
          rw [hid, hcan.stored] at hget
          exact (Option.some.inj hget).symm
        exact hpending hcan.pending
      have hset : s'.report =
          s.report.set reportId (other.verify env (s.stakeOf other.provider)) := by rw [hafter]
      exact ⟨report, by rw [get_report_of_set hget hset, if_neg hother], rfl, .kept rfl⟩
  | challenged challenger reportId hash nonce other hcall hget' hstatus hwindow hfresh hafter =>
      have hset : s'.report = s.report.set reportId { other with status := .challenged } := by
        rw [hafter]; rfl
      refine ⟨_, get_report_of_set hget hset, ?_⟩
      by_cases hid : id = reportId
      · subst hid
        obtain rfl : report = other := Option.some.inj (hget.symm.trans hget')
        have hverified : report.status = .verified := hstatus.resolve_left hpending
        rw [if_pos rfl]
        unfold Report.referenceTime at hwindow
        rw [if_pos hverified] at hwindow
        exact ⟨rfl, .challenged challenger hash nonce hcall hverified rfl hwindow⟩
      · rw [if_neg hid]
        exact ⟨rfl, .kept rfl⟩
  | dismissed caller reportId nonce resolution challenge hcall hadmin hchallenge hclosed hafter =>
      exact ⟨report, by rw [hafter]; exact hget, rfl, .kept rfl⟩
  | upheld caller reportId nonce challenge other hcall hadmin hchallenge hopen hget' hafter =>
      have hset : s'.report = s.report.set reportId { other with status := .verified } := by
        rw [hafter]; rfl
      refine ⟨_, get_report_of_set hget hset, ?_⟩
      by_cases hid : id = reportId
      · subst hid
        obtain rfl : report = other := Option.some.inj (hget.symm.trans hget')
        rw [if_pos rfl]
        exact ⟨rfl, .exonerated (hs.challenged_of_open hget hchallenge hopen) rfl⟩
      · rw [if_neg hid]
        exact ⟨rfl, .kept rfl⟩
  | rejected caller reportId nonce challenge other p penalty hcall hadmin hchallenge hopen hget'
      hprovider hpenalty hafter =>
      have hset : s'.report = s.report.set reportId { other with status := .rejected } := by
        rw [hafter]; rfl
      refine ⟨_, get_report_of_set hget hset, ?_⟩
      by_cases hid : id = reportId
      · subst hid
        obtain rfl : report = other := Option.some.inj (hget.symm.trans hget')
        rw [if_pos rfl]
        exact ⟨rfl, .rejected caller nonce hcall (hs.challenged_of_open hget hchallenge hopen) rfl⟩
      · rw [if_neg hid]
        exact ⟨rfl, .kept rfl⟩

/-- No call moves the challenge window. -/
theorem OracleStep.challengeWindow {env : Env} {s s' : State} {call : Call}
    (h : OracleStep env s s' call) : s'.challengeWindow = s.challengeWindow := by
  cases h with
  | managed hstep => cases hstep <;> simp_all [State.bump]
  | submitted _ _ _ _ _ _ _ _ _ _ hafter => rw [hafter]; rfl
  | counted caller reportId _ _ _ _ hafter _ =>
      obtain ⟨verifiers, counts, hrecorded⟩ := recordVerifier_frame (s.bump caller) caller reportId
      rw [hafter, hrecorded]
      rfl
  | verified caller reportId _ _ _ _ hafter _ =>
      obtain ⟨verifiers, counts, hrecorded⟩ := recordVerifier_frame (s.bump caller) caller reportId
      rw [hafter, hrecorded]
      rfl
  | challenged _ _ _ _ _ _ _ _ _ _ hafter => rw [hafter]; rfl
  | dismissed _ _ _ _ _ _ _ _ _ hafter => rw [hafter]; rfl
  | upheld _ _ _ _ _ _ _ _ _ _ hafter => rw [hafter]; rfl
  | rejected _ _ _ _ _ _ _ _ _ _ _ _ _ _ hafter => rw [hafter]; rfl

/-- The challenge window is the one that the contract is deployed with. -/
theorem challengeWindow_run (admin : Address) (txs : List Tx) :
    (machine.run (constructor admin) txs).challengeWindow = some CHALLENGE_WINDOW_SECONDS :=
  machine.invariant (P := fun s _ => s.challengeWindow = some CHALLENGE_WINDOW_SECONDS) rfl
    (fun _ _ hfires hs => (oracleStep_of_fires hfires).challengeWindow.trans hs) txs

end OracleConsumer

/-! ## The oracle inside the deployment -/

/-- The oracle changes only by its own entry points. -/
theorem WorldStep.oracle_cases {w w' : World} {tx : Tx} {out : Output}
    (h : WorldStep w tx out w') :
    w'.oracle = w.oracle ∨ ∃ call o, tx.call = .oracle call ∧
      OracleConsumer.exec (tx.env w.oracleAddress) w.oracle call = .ok (o, w'.oracle) := by
  cases h with
  | oracle call o s hcall hout hexec hafter =>
      subst hafter
      exact Or.inr ⟨call, o, hcall, hexec⟩
  | issuer call o s hcall hout hexec hafter => exact Or.inl (hafter ▸ rfl)
  | engine call o s hcall hout hexec hafter => exact Or.inl (hafter ▸ rfl)
  | retirement call o s hcall hout hexec hafter => exact Or.inl (hafter ▸ rfl)
  | dex call o issuer s hcall hout hexec hafter => exact Or.inl (hafter ▸ rfl)

/-- The oracle of the deployment has run on its own. -/
theorem exists_oracle_run (d : Deployment) (txs : List Tx) :
    ∃ calls, (machine.run (deploy d) txs).oracle =
      OracleConsumer.machine.run (OracleConsumer.constructor d.oracleAdmin) calls := by
  refine machine.exists_run_of_simulation OracleConsumer.machine World.oracle ?_ (deploy d) txs
  intro e hfires
  rcases (worldStep_of_execute hfires).oracle_cases with hsame | ⟨call, o, -, hexec⟩
  · exact Or.inl hsame
  · exact Or.inr ⟨⟨e.input.env e.before.oracleAddress, call⟩, o, hexec⟩

/-- What is known of the oracle's storage at any time. -/
structure OracleSound (s : OracleConsumer.State) : Prop where
  reports : OracleConsumer.ReportsInvariant s
  challenges : ∃ l, OracleConsumer.ChallengeInvariant s l
  window : s.challengeWindow = some OracleConsumer.CHALLENGE_WINDOW_SECONDS

/-- The oracle is sound in every reachable world. -/
theorem oracleSound (d : Deployment) (txs : List Tx) :
    OracleSound (machine.run (deploy d) txs).oracle := by
  obtain ⟨calls, hrun⟩ := exists_oracle_run d txs
  refine ⟨reportsInvariant d txs, ?_, ?_⟩
  · rw [hrun]
    exact ⟨_, OracleConsumer.challengeInvariant_run d.oracleAdmin calls⟩
  · rw [hrun]
    exact OracleConsumer.challengeWindow_run d.oracleAdmin calls

/-! ## The order of events behind a rejected report -/

/-- The accepted batch that completed the period, paid on the report. -/
def LogEntry.Completes (period : Nat × Nat) (reportId : Nat) (e : LogEntry) : Prop :=
  ∃ batch, e.batch? = some batch ∧ batch.period = period ∧ batch.reportId = reportId ∧
    batch.stop = batch.holders.length

/-- An accepted challenge of the report. -/
def LogEntry.Challenges (reportId : Nat) (e : LogEntry) : Prop :=
  ∃ challenger counterEvidenceHash nonce,
    e.input.call = .oracle (.challengeReport challenger reportId counterEvidenceHash nonce)

/-- An accepted resolution of the report's challenge to `Rejected`. -/
def LogEntry.Rejects (reportId : Nat) (e : LogEntry) : Prop :=
  ∃ caller nonce, e.input.call = .oracle (.resolveChallenge caller reportId .rejected nonce)

/-- The challenge came inside the window that opened with the verification. -/
def LogEntry.InWindow (report : OracleConsumer.Report) (e : LogEntry) : Prop :=
  e.input.timestamp ≤ report.verifiedAt + OracleConsumer.CHALLENGE_WINDOW_SECONDS

/-- How far the dispute about a paid report has come, and what the log shows of
it after the batch `paid`. -/
inductive Dispute (l : List LogEntry) (paid : LogEntry) (id : Nat)
    (report : OracleConsumer.Report) : Prop
  | verified (hpaid : paid ∈ l) (hstatus : report.status = .verified)
  | challenged (e : LogEntry) (hstatus : report.status = .challenged)
      (horder : List.Sublist [paid, e] l) (hcall : e.Challenges id) (hwindow : e.InWindow report)
  | rejected (e e' : LogEntry) (hstatus : report.status = .rejected)
      (horder : List.Sublist [paid, e, e'] l) (hcall : e.Challenges id)
      (hwindow : e.InWindow report) (hcall' : e'.Rejects id)

/-- A dispute is about a payment of the log. -/
theorem Dispute.mem {l : List LogEntry} {paid : LogEntry} {id : Nat}
    {report : OracleConsumer.Report} (h : Dispute l paid id report) : paid ∈ l := by
  cases h with
  | verified hpaid hstatus => exact hpaid
  | challenged e hstatus horder hcall hwindow => exact horder.subset (by simp)
  | rejected e e' hstatus horder hcall hwindow hcall' => exact horder.subset (by simp)

/-- A disputed report is no longer pending. -/
theorem Dispute.not_pending {l : List LogEntry} {paid : LogEntry} {id : Nat}
    {report : OracleConsumer.Report} (h : Dispute l paid id report) :
    report.status ≠ .pending := by
  cases h <;> simp [*]

/-- More transactions that leave the report alone leave its dispute alone. -/
theorem Dispute.keep {l : List LogEntry} {paid : LogEntry} {id : Nat}
    {report report' : OracleConsumer.Report} (h : Dispute l paid id report) (e : LogEntry)
    (hstatus : report'.status = report.status) (hat : report'.verifiedAt = report.verifiedAt) :
    Dispute (l ++ [e]) paid id report' := by
  have hlonger : List.Sublist l (l ++ [e]) := List.sublist_append_left l [e]
  cases h with
  | verified hpaid hbefore => exact .verified (List.mem_append_left _ hpaid) (hstatus.trans hbefore)
  | challenged c hbefore horder hcall hwindow =>
      refine .challenged c (hstatus.trans hbefore) (horder.trans hlonger) hcall ?_
      unfold LogEntry.InWindow at *
      rwa [hat]
  | rejected c c' hbefore horder hcall hwindow hcall' =>
      refine .rejected c c' (hstatus.trans hbefore) (horder.trans hlonger) hcall ?_ hcall'
      unfold LogEntry.InWindow at *
      rwa [hat]

/-- **Step lemma** for a dispute: one call of the oracle carries it along. -/
theorem Dispute.step {l : List LogEntry} {e paid : LogEntry} {id : Nat}
    {report report' : OracleConsumer.Report} {call : OracleConsumer.Call}
    (h : Dispute l paid id report) (hcall : e.input.call = .oracle call)
    (hsettling : OracleConsumer.Settling (e.input.env e.before.oracleAddress) e.before.oracle call
      id report report')
    (hat : report'.verifiedAt = report.verifiedAt)
    (hopen : e.before.oracle.challengeWindow = some OracleConsumer.CHALLENGE_WINDOW_SECONDS) :
    Dispute (l ++ [e]) paid id report' := by
  cases hsettling with
  | kept hstatus => exact h.keep e hstatus hat
  | challenged challenger hash nonce hcall' hbefore hstatus hwindow =>
      refine .challenged e hstatus ?_ ⟨challenger, hash, nonce, by rw [hcall, hcall']⟩ ?_
      · exact (List.singleton_sublist.mpr h.mem).append (List.Sublist.refl [e])
      · rw [hopen, Option.getD_some] at hwindow
        have htime : e.input.timestamp - report.verifiedAt ≤
          OracleConsumer.CHALLENGE_WINDOW_SECONDS := hwindow
        unfold LogEntry.InWindow
        rw [hat]
        omega
  | exonerated hbefore hstatus => exact .verified (List.mem_append_left _ h.mem) hstatus
  | rejected caller nonce hcall' hbefore hstatus =>
      cases h with
      | verified hpaid hother => rw [hbefore] at hother; cases hother
      | rejected _ _ hother _ _ _ _ => rw [hbefore] at hother; cases hother
      | challenged c _ horder hchallenge hwindow =>
          refine .rejected c e hstatus ?_ hchallenge ?_ ⟨caller, nonce, by rw [hcall, hcall']⟩
          · exact horder.append (List.Sublist.refl [e])
          · unfold LogEntry.InWindow at *
            rwa [hat]

/-- Every complete period has its completing batch in the log, and the report
behind it is somewhere on the way that starts there. -/
def DisputesTold (w : World) (l : List LogEntry) : Prop :=
  ∀ period info, w.engine.periodInfo.get period = some info → info.distributed = true →
    ∃ report paid, w.oracle.report.get info.reportId = some report ∧
      paid.Completes period info.reportId ∧ Dispute l paid info.reportId report

/-- The report behind a complete period goes on its way in every transaction. -/
theorem dispute_goes_on {l : List LogEntry} {e : LogEntry} (hfires : machine.Fires e)
    (hs : OracleSound e.before.oracle) {paid : LogEntry} {id : Nat}
    {report : OracleConsumer.Report} (hget : e.before.oracle.report.get id = some report)
    (h : Dispute l paid id report) :
    ∃ report', e.after.oracle.report.get id = some report' ∧
      Dispute (l ++ [e]) paid id report' := by
  rcases (worldStep_of_execute hfires).oracle_cases with hsame | ⟨call, o, hcall, hexec⟩
  · exact ⟨report, hsame ▸ hget, h.keep e rfl rfl⟩
  · obtain ⟨l', hchallenges⟩ := hs.challenges
    obtain ⟨report', hget', hat, hsettling⟩ :=
      (OracleConsumer.oracleStep_exec hexec).settling hs.reports hchallenges hget h.not_pending
    exact ⟨report', hget', h.step hcall hsettling hat hs.window⟩

/-- One transaction keeps the report behind every complete period on its way. -/
theorem DisputesTold.step {l : List LogEntry} {e : LogEntry} (hfires : machine.Fires e)
    (hs : OracleSound e.before.oracle) (hw : DisputesTold e.before l) :
    DisputesTold e.after (l ++ [e]) := by
  have hold : ∀ period info, e.before.engine.periodInfo.get period = some info →
      info.distributed = true → ∃ report paid,
        e.after.oracle.report.get info.reportId = some report ∧
        paid.Completes period info.reportId ∧ Dispute (l ++ [e]) paid info.reportId report := by
    intro period info hget hdistributed
    obtain ⟨report, paid, hreport, hcompletes, hdispute⟩ := hw period info hget hdistributed
    obtain ⟨report', hreport', hdispute'⟩ := dispute_goes_on hfires hs hreport hdispute
    exact ⟨report', paid, hreport', hcompletes, hdispute'⟩
  intro period info hget hdistributed
  rcases period_step hfires with ⟨-, hperiod, -⟩ | ⟨batch, f, hbatch, hafter, hfound, hwrote⟩
  · exact hold period info (hperiod ▸ hget) hdistributed
  · rw [hwrote.periodInfo, get_set] at hget
    split at hget
    · next hkey =>
        obtain rfl := Option.some.inj hget
        have hcomplete : batch.stop = batch.holders.length := of_decide_eq_true hdistributed
        have horacle : e.after.oracle = e.before.oracle := by rw [hafter]
        refine ⟨f.report, e, ?_, ⟨batch, hbatch, hkey.symm, rfl, hcomplete⟩, ?_⟩
        · rw [horacle]
          exact World.report_of_batchFound hfound
        · exact .verified (by simp) hfound.verified
    · exact hold period info hget hdistributed

/-- In every reachable world the report behind each complete period is somewhere on its
way. -/
theorem disputesTold (d : Deployment) (txs : List Tx) :
    DisputesTold (machine.run (deploy d) txs) (machine.log (deploy d) txs) := by
  refine machine.invariant_under (I := fun w _ => OracleSound w.oracle) (P := DisputesTold)
    (oracleSound d) ?_ ?_ txs
  · intro period info hget
    simp [deploy, CouponEngine.constructor] at hget
  · intro l e hfires hs hw
    exact hw.step hfires hs

/-- In a run of non-decreasing times, what is logged later is not earlier. -/
theorem timestamp_le_of_sublist {d : Deployment} {txs : List Tx}
    (htimes : txs.Pairwise fun tx later => tx.timestamp ≤ later.timestamp) {e e' : LogEntry}
    {rest : List LogEntry} (horder : List.Sublist (e :: e' :: rest) (machine.log (deploy d) txs)) :
    e.input.timestamp ≤ e'.input.timestamp := by
  have hlogged : List.Sublist (e.input :: e'.input :: rest.map Event.input) txs :=
    (horder.map Event.input).trans (machine.log_inputs_sublist (deploy d) txs)
  have hpairwise := htimes.sublist hlogged
  exact (List.pairwise_cons.mp hpairwise).1 e'.input (by simp)

/-- **A rejected report behind a coupon.**  Every complete period was completed
by a batch in the log.  Its report is rejected only if it was challenged after
that batch, within the challenge window that opened with its verification, and
the challenge resolved to `Rejected` after that; so a coupon completed when that
window was over is safe. -/
theorem coupon_disputed_only_later (d : Deployment) (txs : List Tx)
    (htimes : txs.Pairwise fun tx later => tx.timestamp ≤ later.timestamp)
    (period : Nat × Nat) (info : CouponEngine.PeriodInfo)
    (hperiod : (machine.run (deploy d) txs).engine.periodInfo.get period = some info)
    (hdistributed : info.distributed = true) :
    ∃ report paid,
      OracleConsumer.getReport (machine.run (deploy d) txs).oracle info.reportId = .ok report ∧
      paid ∈ machine.log (deploy d) txs ∧ LogEntry.Completes period info.reportId paid ∧
      (report.status = .rejected → ∃ challenged rejected,
        List.Sublist [paid, challenged, rejected] (machine.log (deploy d) txs) ∧
          LogEntry.Challenges info.reportId challenged ∧ LogEntry.InWindow report challenged ∧
          LogEntry.Rejects info.reportId rejected) ∧
      (report.verifiedAt + OracleConsumer.CHALLENGE_WINDOW_SECONDS < paid.input.timestamp →
        report.status ≠ .rejected) := by
  obtain ⟨report, paid, hreport, hcompletes, hdispute⟩ :=
    disputesTold d txs period info hperiod hdistributed
  have hrejected : report.status = .rejected → ∃ challenged rejected,
      List.Sublist [paid, challenged, rejected] (machine.log (deploy d) txs) ∧
        LogEntry.Challenges info.reportId challenged ∧ LogEntry.InWindow report challenged ∧
        LogEntry.Rejects info.reportId rejected := by
    intro hstatus
    cases hdispute with
    | verified hpaid hother => rw [hstatus] at hother; cases hother
    | challenged c hother _ _ _ => rw [hstatus] at hother; cases hother
    | rejected c c' _ horder hcall hwindow hcall' => exact ⟨c, c', horder, hcall, hwindow, hcall'⟩
  refine ⟨report, paid, okOr_ok_iff.mpr hreport, hdispute.mem, hcompletes, hrejected, ?_⟩
  intro hlate hstatus
  obtain ⟨challenged, rejected, horder, -, hwindow, -⟩ := hrejected hstatus
  have hle := timestamp_le_of_sublist htimes horder
  unfold LogEntry.InWindow at hwindow
  omega

/-- The coupon of `reportedBond` is paid to its one holder, the report is then
challenged by account 9, and the admin upholds the challenge. -/
def couponThenRejected : List Tx := reportedBond ++ [
  sampleTx 5 0 (.engine (.distributeCoupon 0 1 0 [1] 1 1)),
  sampleTx 6 9 (.oracle (.challengeReport 9 1 BondIssuer.sampleConfig.projectId 0)),
  sampleTx 7 0 (.oracle (.resolveChallenge 0 1 .rejected 2))]

/-- A report can be rejected after it has been paid, with the clock running forward. -/
theorem coupon_paid_on_report_rejected_later :
    ¬ ∀ (d : Deployment) (txs : List Tx),
      (txs.Pairwise fun tx later => tx.timestamp ≤ later.timestamp) →
      ∀ period info, (machine.run (deploy d) txs).engine.periodInfo.get period = some info →
        info.distributed = true → ∀ report,
        OracleConsumer.getReport (machine.run (deploy d) txs).oracle info.reportId = .ok report →
          report.status ≠ .rejected := by
  intro hsafe
  have hperiod : ((machine.run (deploy sampleDeployment)
      couponThenRejected).engine.periodInfo.get (1, 0)).map
        (fun info => (info.distributed, info.reportId)) = some (true, 1) := by decide +kernel
  have hreport : ((machine.run (deploy sampleDeployment)
      couponThenRejected).oracle.report.get 1).map OracleConsumer.Report.status =
        some .rejected := by decide +kernel
  obtain ⟨info, hget, hinfo⟩ := Option.map_eq_some_iff.mp hperiod
  obtain ⟨report, hstored, hstatus⟩ := Option.map_eq_some_iff.mp hreport
  obtain ⟨hdistributed, hid⟩ := Prod.mk.inj hinfo
  refine hsafe sampleDeployment couponThenRejected (by decide) (1, 0) info hget hdistributed report
    ?_ hstatus
  rw [hid]
  exact okOr_ok_iff.mpr hstored

/-- The run of `couponThenRejected`: the period is complete, and its report went
the way the theorem tells. -/
theorem coupon_disputed_only_later_sample :
    ∃ info report paid,
      (machine.run (deploy sampleDeployment) couponThenRejected).engine.periodInfo.get (1, 0) =
        some info ∧
      OracleConsumer.getReport (machine.run (deploy sampleDeployment) couponThenRejected).oracle
        info.reportId = .ok report ∧
      paid ∈ machine.log (deploy sampleDeployment) couponThenRejected ∧
      LogEntry.Completes (1, 0) info.reportId paid := by
  have hperiod : ((machine.run (deploy sampleDeployment)
      couponThenRejected).engine.periodInfo.get (1, 0)).map CouponEngine.PeriodInfo.distributed =
        some true := by decide +kernel
  obtain ⟨info, hget, hdistributed⟩ := Option.map_eq_some_iff.mp hperiod
  obtain ⟨report, paid, hreport, hpaid, hcompletes, -⟩ :=
    coupon_disputed_only_later sampleDeployment couponThenRejected (by decide) (1, 0) info hget
      hdistributed
  exact ⟨info, report, paid, hget, hreport, hpaid, hcompletes⟩

end EcoMint
