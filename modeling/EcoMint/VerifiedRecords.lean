import EcoMint.OracleFinality

/-!
# What a verified report records

A report turns verified in two ways: a quorum of verifiers, or an admin who
upholds it in its challenge.  The quorum writes the time and the provider's
stake into the report; the admin writes the status alone.  So a report that was
challenged while it was pending, and is upheld, is verified with the time and
the stake of a report nobody verified.

`RecordStep` says once what a call can do to one report and its challenge.
-/

namespace EcoMint.OracleConsumer

open Fallible Storage

/-- The ledger time of a call. -/
def LogEntry.time (e : LogEntry) : Nat := e.input.env.timestamp

/-- The report is stored as verified. -/
def State.VerifiedAs (s : State) (id : Nat) (report : Report) : Prop :=
  s.report.get id = some report ∧ report.status = .verified

/-- The provider's stake, when the call turned the report verified. -/
def LogEntry.verification (id : Nat) (e : LogEntry) : Option Int :=
  match e.after.report.get id with
  | none => none
  | some report =>
      if report.status = .verified ∧
          (e.before.report.get id).map Report.status ≠ some .verified then
        some (e.after.stakeOf report.provider)
      else none

/-- The provider's stakes at the calls that turned the report verified. -/
def verifications (id : Nat) (l : List LogEntry) : List Int :=
  l.filterMap (LogEntry.verification id)

/-- An admin upholds the report in its open challenge. -/
def LogEntry.Upholds (id : Nat) (e : LogEntry) : Prop :=
  (∃ caller nonce, e.input.call = .resolveChallenge caller id .verified nonce) ∧
    e.before.OpenChallenge id

/-- Every verified report carries a verification time not before its
submission, and the stake that `moment` picks from those of the calls that
turned it verified. -/
def State.Carries (moment : List Int → Option Int) (s : State) (l : List LogEntry) : Prop :=
  ∀ id report, s.VerifiedAs id report → report.submittedAt ≤ report.verifiedAt ∧
    ∃ stake, report.providerStakeAtVerification = some stake ∧
      moment (verifications id l) = some stake

/-! ## What one call does to one report -/

/-- What a successful call does to one report and its challenge. -/
inductive RecordStep (e : LogEntry) (id : Nat) : Prop
  | same (hreport : e.after.report.get id = e.before.report.get id)
      (hchallenge : e.after.challenge.get id = e.before.challenge.get id)
      (hnot : ¬ e.Upholds id)
  | submitted (report : Report) (hnone : e.before.report.get id = none)
      (hreport : e.after.report.get id = some report)
      (hfresh : report.Fresh e.input.env e.before) (hnot : ¬ e.Upholds id)
  | verified (report : Report) (hget : e.before.report.get id = some report)
      (hpending : report.status = .pending)
      (hreport : e.after.report.get id =
        some (report.verify e.input.env (e.after.stakeOf report.provider)))
      (hnot : ¬ e.Upholds id)
  | challenged (report : Report) (hget : e.before.report.get id = some report)
      (hnone : e.before.challenge.get id = none)
      (hreport : e.after.report.get id = some { report with status := .challenged })
      (hnot : ¬ e.Upholds id)
  | upheld (report : Report) (hget : e.before.report.get id = some report)
      (hreport : e.after.report.get id = some { report with status := .verified })
      (hchallenge : (e.after.challenge.get id).isSome = true)
      (hstake : e.after.stakeOf report.provider = e.before.stakeOf report.provider)
      (hupholds : e.Upholds id)
  | rejected (report : Report) (hget : e.before.report.get id = some report)
      (hopen : e.before.OpenChallenge id)
      (hreport : e.after.report.get id = some { report with status := .rejected })
      (hnot : ¬ e.Upholds id)

/-- Only a call that resolves a challenge upholds a report. -/
theorem not_upholds {e : LogEntry} {id : Nat}
    (h : ∀ caller nonce, e.input.call ≠ .resolveChallenge caller id .verified nonce) :
    ¬ e.Upholds id := by
  rintro ⟨⟨caller, nonce, hcall⟩, -⟩
  exact h caller nonce hcall

/-- **Step lemma.**  Every successful call is a `RecordStep` of every report. -/
theorem OracleStep.recordStep {e : LogEntry}
    (h : OracleStep e.input.env e.before e.after e.input.call) (hindex : ReportIndex e.before)
    (id : Nat) : RecordStep e id := by
  cases h with
  | managed hstep =>
      have hsame := hstep.sameReports
      refine .same (by rw [hsame.report]) (by rw [hsame.challenge]) (not_upholds ?_)
      intro caller nonce hcall
      exact (hcall ▸ hstep.manages : Call.Manages (.resolveChallenge caller id .verified nonce))
  | submitted report p nonce hcall hprovider hactive hfresh hperiod hsound hapart hafter =>
      have hnot : ¬ e.Upholds id := not_upholds (by simp [hcall])
      by_cases hid : id = e.before.reportCount + 1
      · refine .submitted report (hindex.unused id (by omega)) ?_ hfresh hnot
        rw [hafter, hid]
        exact get_set_self _ _ _
      · refine .same ?_ (by rw [hafter]; rfl) hnot
        rw [hafter]
        exact get_set_ne _ _ hid
  | counted caller reportId nonce report hcall hcan hafter hshort =>
      obtain ⟨verifiers, counts, hrecorded⟩ :=
        recordVerifier_frame (e.before.bump caller) caller reportId
      rw [hrecorded] at hafter
      exact .same (by rw [hafter]; rfl) (by rw [hafter]; rfl) (not_upholds (by simp [hcall]))
  | verified caller reportId nonce report hcall hcan hafter hquorum =>
      have hnot : ¬ e.Upholds id := not_upholds (by simp [hcall])
      obtain ⟨verifiers, counts, hrecorded⟩ :=
        recordVerifier_frame (e.before.bump caller) caller reportId
      rw [hrecorded] at hafter
      by_cases hid : id = reportId
      · subst hid
        refine .verified report hcan.stored hcan.pending ?_ hnot
        rw [hafter]
        exact get_set_self _ _ _
      · refine .same ?_ (by rw [hafter]; rfl) hnot
        rw [hafter]
        exact get_set_ne _ _ hid
  | challenged challenger reportId hash nonce report hcall hget hstatus hwindow hfresh hafter =>
      have hnot : ¬ e.Upholds id := not_upholds (by simp [hcall])
      by_cases hid : id = reportId
      · subst hid
        exact .challenged report hget hfresh (by rw [hafter]; exact get_set_self _ _ _) hnot
      · refine .same ?_ ?_ hnot
        · rw [hafter]
          exact get_set_ne _ _ hid
        · rw [hafter]
          exact get_set_ne _ _ hid
  | dismissed caller reportId nonce resolution challenge hcall hadmin hchallenge hclosed hafter =>
      refine .same (by rw [hafter]; rfl) (by rw [hafter]; rfl) ?_
      rintro ⟨⟨caller', nonce', hcall'⟩, opened, hget, hopen⟩
      obtain ⟨-, rfl, -⟩ : caller = caller' ∧ reportId = id ∧ _ := by
        simpa [hcall] using hcall'
      obtain rfl : challenge = opened := by simpa [hchallenge] using hget
      simp [hclosed] at hopen
  | upheld caller reportId nonce challenge report hcall hadmin hchallenge hopen hget hafter =>
      by_cases hid : id = reportId
      · subst hid
        refine .upheld report hget ?_ ?_ ?_ ⟨⟨caller, nonce, hcall⟩, challenge, hchallenge, hopen⟩
        · rw [hafter]
          exact get_set_self _ _ _
        · rw [hafter]
          exact congrArg Option.isSome (get_set_self _ _ _)
        · rw [hafter]
          rfl
      · refine .same ?_ ?_ (not_upholds ?_)
        · rw [hafter]
          exact get_set_ne _ _ hid
        · rw [hafter]
          exact get_set_ne _ _ hid
        · intro caller' nonce' hcall'
          simp only [hcall, Call.resolveChallenge.injEq] at hcall'
          exact hid hcall'.2.1.symm
  | rejected caller reportId nonce challenge report p penalty hcall hadmin hchallenge hopen hget
      hprovider hpenalty hafter =>
      have hnot : ¬ e.Upholds id := not_upholds (by simp [hcall])
      by_cases hid : id = reportId
      · subst hid
        refine .rejected report hget ⟨challenge, hchallenge, hopen⟩ ?_ hnot
        rw [hafter]
        exact get_set_self _ _ _
      · refine .same ?_ ?_ hnot
        · rw [hafter]
          exact get_set_ne _ _ hid
        · rw [hafter]
          exact get_set_ne _ _ hid

/-! ## The turns to verified -/

theorem verifications_snoc (id : Nat) (l : List LogEntry) (e : LogEntry) :
    verifications id (l ++ [e]) = verifications id l ++ (e.verification id).toList :=
  Machine.filterMap_snoc _ l e

/-- A call that leaves the report verifies nothing. -/
theorem verification_same {e : LogEntry} {id : Nat}
    (h : e.after.report.get id = e.before.report.get id) : e.verification id = none := by
  unfold LogEntry.verification
  rw [h]
  cases hget : e.before.report.get id with
  | none => rfl
  | some report => simp

/-- A call that does not leave the report verified verifies nothing. -/
theorem verification_other {e : LogEntry} {id : Nat} {report : Report}
    (h : e.after.report.get id = some report) (hstatus : report.status ≠ .verified) :
    e.verification id = none := by
  simp [LogEntry.verification, h, hstatus]

/-- A call that turns the report into a verified one verifies it. -/
theorem verification_turn {e : LogEntry} {id : Nat} {old report : Report}
    (hold : e.before.report.get id = some old) (hfrom : old.status ≠ .verified)
    (h : e.after.report.get id = some report) (hto : report.status = .verified) :
    e.verification id = some (e.after.stakeOf report.provider) := by
  simp [LogEntry.verification, h, hold, hto, hfrom]

/-! ## The stake a report carries -/

/-- The stake a report carries is the one at its first turn to verified, and
only an upheld challenge turns it verified without writing the stake. -/
structure Report.Recorded (report : Report) (challenged : Bool) (stakes : List Int) : Prop where
  kept : ∃ restored, stakes = report.providerStakeAtVerification.toList ++ restored ∧
    (restored = [] ∨ report.status = .verified ∧ challenged = true)
  unverified : report.status = .pending → stakes = []
  quorum : report.status = .verified → challenged = false →
    report.providerStakeAtVerification ≠ none

/-- A report that no upheld challenge turned verified carries what there is. -/
theorem Report.Recorded.plain {report : Report} {challenged : Bool} {stakes : List Int}
    (h : report.Recorded challenged stakes)
    (hplain : report.status ≠ .verified ∨ challenged = false) :
    stakes = report.providerStakeAtVerification.toList := by
  obtain ⟨restored, hstakes, hrestored⟩ := h.kept
  have hnil : restored = [] := by
    rcases hrestored with hnil | ⟨hverified, hchallenged⟩
    · exact hnil
    · rcases hplain with hne | hunchallenged
      · exact absurd hverified hne
      · simp [hunchallenged] at hchallenged
  rw [hstakes, hnil, List.append_nil]

/-- Every report carries the stake at its first turn to verified. -/
def RecordInvariant (s : State) (l : List LogEntry) : Prop :=
  ∀ id, match s.report.get id with
    | none => verifications id l = []
    | some report => report.Recorded (s.challenge.get id).isSome (verifications id l)

/-- A stored report has its record. -/
theorem RecordInvariant.stored {s : State} {l : List LogEntry} (h : RecordInvariant s l)
    {id : Nat} {report : Report} (hget : s.report.get id = some report) :
    report.Recorded (s.challenge.get id).isSome (verifications id l) := by
  have hid := h id
  rwa [hget] at hid

/-- A report in its open challenge is challenged. -/
theorem ChallengeInvariant.status_of_open {s : State} {l : List LogEntry}
    (hs : ChallengeInvariant s l) {id : Nat} {report : Report}
    (hget : s.report.get id = some report) (hopen : s.OpenChallenge id) :
    report.status = .challenged :=
  (hs.matched id report hget).challenged_iff.mpr hopen

/-- **Step lemma** for the stakes reports carry. -/
theorem RecordInvariant.step {l : List LogEntry} {e : LogEntry}
    (hs : RecordInvariant e.before l) (hchallenges : ChallengeInvariant e.before l)
    (hindex : ReportIndex e.before)
    (hstep : OracleStep e.input.env e.before e.after e.input.call) :
    RecordInvariant e.after (l ++ [e]) := by
  intro id
  rw [verifications_snoc]
  cases hstep.recordStep hindex id with
  | same hreport hchallenge hnot =>
      rw [hreport, hchallenge, verification_same hreport]
      simpa using hs id
  | submitted report hnone hreport hfresh hnot =>
      have hpending := hfresh.status_eq
      have hbefore : verifications id l = [] := by
        have hid := hs id
        rwa [hnone] at hid
      rw [hreport, verification_other hreport (by simp [hpending]), hbefore]
      refine ⟨⟨[], by simp [hfresh.stake_eq], Or.inl rfl⟩, fun _ => rfl, ?_⟩
      simp [hpending]
  | verified report hget hpending hreport hnot =>
      have hempty := (hs.stored hget).unverified hpending
      rw [hreport, verification_turn hget (by simp [hpending]) hreport rfl, hempty]
      refine ⟨⟨[], rfl, Or.inl rfl⟩, ?_, ?_⟩
      · intro hstatus
        cases hstatus
      · intro _ _ hstake
        cases hstake
  | challenged report hget hnone hreport hnot =>
      have hplain := (hs.stored hget).plain (Or.inr (by simp [hnone]))
      rw [hreport, verification_other hreport (by simp), hplain]
      refine ⟨⟨[], rfl, Or.inl rfl⟩, ?_, ?_⟩
      · intro hstatus
        cases hstatus
      · intro hstatus
        cases hstatus
  | upheld report hget hreport hchallenge hstake hupholds =>
      have hstatus := hchallenges.status_of_open hget hupholds.2
      have hplain := (hs.stored hget).plain (Or.inl (by simp [hstatus]))
      rw [hreport, verification_turn hget (by simp [hstatus]) hreport rfl, hplain]
      refine ⟨⟨_, rfl, Or.inr ⟨rfl, hchallenge⟩⟩, ?_, ?_⟩
      · intro hpending
        cases hpending
      · intro _ hunchallenged
        simp [hchallenge] at hunchallenged
  | rejected report hget hopen hreport hnot =>
      have hstatus := hchallenges.status_of_open hget hopen
      have hplain := (hs.stored hget).plain (Or.inl (by simp [hstatus]))
      rw [hreport, verification_other hreport (by simp), hplain]
      refine ⟨⟨[], rfl, Or.inl rfl⟩, ?_, ?_⟩
      · intro hpending
        cases hpending
      · intro hverified
        cases hverified

/-- The invariant holds after every run. -/
theorem recordInvariant_run (admin : Address) (txs : List Tx) :
    RecordInvariant (machine.run (constructor admin) txs)
      (machine.log (constructor admin) txs) := by
  refine machine.invariant_under (I := fun s l => ReportIndex s ∧ ChallengeInvariant s l)
    (P := RecordInvariant)
    (fun txs => ⟨reportIndex_run admin txs, challengeInvariant_run admin txs⟩) ?_ ?_ txs
  · intro id
    rfl
  · rintro l e hfires ⟨hindex, hchallenges⟩ hs
    exact hs.step hchallenges hindex (oracleStep_of_fires hfires)

/-! ## The time of verification -/

/-- The ledger's clock does not run back. -/
def Clocked (l : List LogEntry) : Prop := (l.map LogEntry.time).Pairwise (· ≤ ·)

/-- Every report was submitted by a logged call, and one that carries a stake
was verified no earlier. -/
def TimeInvariant (s : State) (l : List LogEntry) : Prop :=
  ∀ id report, s.report.get id = some report →
    report.submittedAt ∈ l.map LogEntry.time ∧
      (Clocked l → report.providerStakeAtVerification ≠ none →
        report.submittedAt ≤ report.verifiedAt)

/-- A part of a log is in order, too. -/
theorem Clocked.before {l : List LogEntry} {e : LogEntry} (h : Clocked (l ++ [e])) :
    Clocked l := by
  unfold Clocked at h ⊢
  rw [List.map_append] at h
  exact (List.pairwise_append.mp h).1

/-- No earlier call is later than the last. -/
theorem Clocked.le {l : List LogEntry} {e : LogEntry} (h : Clocked (l ++ [e])) {time : Nat}
    (htime : time ∈ l.map LogEntry.time) : time ≤ e.time := by
  unfold Clocked at h
  rw [List.map_append] at h
  exact (List.pairwise_append.mp h).2.2 time htime e.time (List.mem_singleton_self _)

/-- Transactions in order of their times make a log in order. -/
theorem clocked_log {admin : Address} {txs : List Tx}
    (htimes : (txs.map fun tx => tx.env.timestamp).Pairwise (· ≤ ·)) :
    Clocked (machine.log (constructor admin) txs) := by
  have hsublist := (machine.log_inputs_sublist (constructor admin) txs).map
    fun tx => tx.env.timestamp
  rw [List.map_map] at hsublist
  exact htimes.sublist hsublist

/-- **Step lemma** for the times. -/
theorem TimeInvariant.step {l : List LogEntry} {e : LogEntry} (hs : TimeInvariant e.before l)
    (hindex : ReportIndex e.before)
    (hstep : OracleStep e.input.env e.before e.after e.input.call) :
    TimeInvariant e.after (l ++ [e]) := by
  intro id report' hget'
  have hmem : ∀ {time}, time ∈ l.map LogEntry.time → time ∈ (l ++ [e]).map LogEntry.time := by
    intro time htime
    simpa using Or.inl (List.mem_map.mp htime)
  -- a report whose times and stake are as before
  have hkept : ∀ {report}, e.before.report.get id = some report →
      report'.submittedAt = report.submittedAt → report'.verifiedAt = report.verifiedAt →
      report'.providerStakeAtVerification = report.providerStakeAtVerification →
      report'.submittedAt ∈ (l ++ [e]).map LogEntry.time ∧
        (Clocked (l ++ [e]) → report'.providerStakeAtVerification ≠ none →
          report'.submittedAt ≤ report'.verifiedAt) := by
    intro report hget hsubmitted hverified hstake
    obtain ⟨htime, hle⟩ := hs id report hget
    rw [hsubmitted, hverified, hstake]
    exact ⟨hmem htime, fun hclock => hle hclock.before⟩
  cases hstep.recordStep hindex id with
  | same hreport hchallenge hnot => exact hkept (hreport ▸ hget') rfl rfl rfl
  | submitted report hnone hreport hfresh hnot =>
      obtain rfl := Option.some.inj (hreport.symm.trans hget')
      refine ⟨?_, fun _ hstake => absurd hfresh.stake_eq hstake⟩
      rw [hfresh.submittedAt_eq]
      simp [LogEntry.time]
  | verified report hget hpending hreport hnot =>
      obtain rfl := Option.some.inj (hreport.symm.trans hget')
      obtain ⟨htime, -⟩ := hs id report hget
      exact ⟨hmem htime, fun hclock _ => hclock.le htime⟩
  | challenged report hget hnone hreport hnot =>
      obtain rfl := Option.some.inj (hreport.symm.trans hget')
      exact hkept hget rfl rfl rfl
  | upheld report hget hreport hchallenge hstake hupholds =>
      obtain rfl := Option.some.inj (hreport.symm.trans hget')
      exact hkept hget rfl rfl rfl
  | rejected report hget hopen hreport hnot =>
      obtain rfl := Option.some.inj (hreport.symm.trans hget')
      exact hkept hget rfl rfl rfl

/-- The times of a run are those of its calls. -/
theorem timeInvariant_run (admin : Address) (txs : List Tx) :
    TimeInvariant (machine.run (constructor admin) txs)
      (machine.log (constructor admin) txs) := by
  refine machine.invariant_under (I := fun s _ => ReportIndex s) (P := TimeInvariant)
    (reportIndex_run admin) ?_ ?_ txs
  · intro id report hget
    simp [constructor] at hget
  · intro l e hfires hindex hs
    exact hs.step hindex (oracleStep_of_fires hfires)

/-! ## When every verified report carries its verification -/

/-- The stake part of `Carries`. -/
def State.CarriesStake (moment : List Int → Option Int) (s : State) (l : List LogEntry) : Prop :=
  ∀ id report, s.VerifiedAs id report →
    ∃ stake, report.providerStakeAtVerification = some stake ∧
      moment (verifications id l) = some stake

/-- With the times in order the record carries its moment exactly if it carries the
stake of then. -/
theorem carries_iff {moment : List Int → Option Int} {s : State} {l : List LogEntry}
    (htime : TimeInvariant s l) (hclock : Clocked l) :
    s.Carries moment l ↔ s.CarriesStake moment l := by
  constructor
  · intro h id report hverified
    exact (h id report hverified).2
  · intro h id report hverified
    obtain ⟨stake, hstake, hmoment⟩ := h id report hverified
    have hsome : report.providerStakeAtVerification ≠ none := by simp [hstake]
    exact ⟨(htime id report hverified.1).2 hclock hsome, stake, hstake, hmoment⟩

/-- **Step lemma.**  After a call every verified report carries the stake of
the moment exactly if each report upheld carried one and the moment, with the
stake now added, still picks it. -/
theorem carriesStake_step {moment : List Int → Option Int} {l : List LogEntry} {e : LogEntry}
    (hmoment : ∀ stake, moment [stake] = some stake)
    (hs : RecordInvariant e.before l) (hchallenges : ChallengeInvariant e.before l)
    (hindex : ReportIndex e.before)
    (hstep : OracleStep e.input.env e.before e.after e.input.call)
    (hcarries : e.before.CarriesStake moment l) :
    e.after.CarriesStake moment (l ++ [e]) ↔
      ∀ id report, e.Upholds id → e.before.report.get id = some report →
        ∃ stake, verifications id l = [stake] ∧
          moment [stake, e.before.stakeOf report.provider] = some stake := by
  constructor
  · intro hafter id report hupholds hget
    cases hstep.recordStep hindex id with
    | upheld old hold hreport hchallenge hstake hupholds' =>
        obtain rfl := Option.some.inj (hget.symm.trans hold)
        have hstatus := hchallenges.status_of_open hget hupholds.2
        have hplain := (hs.stored hget).plain (Or.inl (by simp [hstatus]))
        obtain ⟨stake, hcarried, hpicked⟩ := hafter id _ ⟨hreport, rfl⟩
        have hcarried' : report.providerStakeAtVerification = some stake := hcarried
        rw [hcarried'] at hplain
        rw [verifications_snoc, verification_turn hget (by simp [hstatus]) hreport rfl,
          hplain] at hpicked
        exact ⟨stake, hplain, hstake ▸ hpicked⟩
    | same _ _ hnot => exact absurd hupholds hnot
    | submitted _ _ _ _ hnot => exact absurd hupholds hnot
    | verified _ _ _ _ hnot => exact absurd hupholds hnot
    | challenged _ _ _ _ hnot => exact absurd hupholds hnot
    | rejected _ _ _ _ hnot => exact absurd hupholds hnot
  · rintro hrestores id report' ⟨hget', hstatus'⟩
    rw [verifications_snoc]
    cases hstep.recordStep hindex id with
    | same hreport hchallenge hnot =>
        rw [verification_same hreport]
        simpa using hcarries id report' ⟨hreport ▸ hget', hstatus'⟩
    | submitted report hnone hreport hfresh hnot =>
        obtain rfl := Option.some.inj (hreport.symm.trans hget')
        simp [hfresh.status_eq] at hstatus'
    | verified report hget hpending hreport hnot =>
        obtain rfl := Option.some.inj (hreport.symm.trans hget')
        rw [(hs.stored hget).unverified hpending,
          verification_turn hget (by simp [hpending]) hreport rfl]
        exact ⟨_, rfl, hmoment _⟩
    | challenged report hget hnone hreport hnot =>
        obtain rfl := Option.some.inj (hreport.symm.trans hget')
        cases hstatus'
    | upheld report hget hreport hchallenge hstake hupholds =>
        obtain rfl := Option.some.inj (hreport.symm.trans hget')
        have hstatus := hchallenges.status_of_open hget hupholds.2
        have hplain := (hs.stored hget).plain (Or.inl (by simp [hstatus]))
        obtain ⟨stake, hone, hpicked⟩ := hrestores id report hupholds hget
        have hcarried : report.providerStakeAtVerification = some stake := by
          rw [hone] at hplain
          cases hstored : report.providerStakeAtVerification with
          | none => simp [hstored] at hplain
          | some stored => simpa [hstored] using hplain.symm
        refine ⟨stake, hcarried, ?_⟩
        rw [verification_turn hget (by simp [hstatus]) hreport rfl, hone]
        exact hstake ▸ hpicked
    | rejected report hget hopen hreport hnot =>
        obtain rfl := Option.some.inj (hreport.symm.trans hget')
        cases hstatus'

/-- What the exact condition is derived from. -/
structure RecordFacts (s : State) (l : List LogEntry) : Prop where
  index : ReportIndex s
  challenges : ChallengeInvariant s l
  records : RecordInvariant s l
  times : TimeInvariant s l

/-- What is known of the records after every run. -/
theorem recordFacts_run (admin : Address) (txs : List Tx) :
    RecordFacts (machine.run (constructor admin) txs) (machine.log (constructor admin) txs) :=
  ⟨reportIndex_run admin txs, challengeInvariant_run admin txs, recordInvariant_run admin txs,
    timeInvariant_run admin txs⟩

/-- A report in its open challenge turned verified once at most. -/
theorem RecordFacts.turned_once {s : State} {l : List LogEntry} (h : RecordFacts s l) {id : Nat}
    {report : Report} (hget : s.report.get id = some report) (hopen : s.OpenChallenge id) :
    verifications id l = [] ∨ ∃ stake, verifications id l = [stake] := by
  have hstatus := h.challenges.status_of_open hget hopen
  rw [(h.records.stored hget).plain (Or.inl (by simp [hstatus]))]
  cases report.providerStakeAtVerification with
  | none => exact Or.inl rfl
  | some stake => exact Or.inr ⟨stake, rfl⟩

/-- A report in a challenge is stored. -/
theorem ChallengeInvariant.stored_of_open {s : State} {l : List LogEntry}
    (hs : ChallengeInvariant s l) {id : Nat} (hopen : s.OpenChallenge id) :
    ∃ report, s.report.get id = some report := by
  obtain ⟨challenge, hchallenge, -⟩ := hopen
  cases hget : s.report.get id with
  | none =>
      rw [hs.based id hget] at hchallenge
      cases hchallenge
  | some report => exact ⟨report, rfl⟩

/-- Every verified report of a run carries the stake of the moment exactly if
each call met the condition. -/
theorem carries_all_iff {moment : List Int → Option Int}
    (hmoment : ∀ stake, moment [stake] = some stake) {C : List LogEntry → LogEntry → Prop}
    (hcondition : ∀ l e, RecordFacts e.before l →
      ((∀ id report, e.Upholds id → e.before.report.get id = some report →
        ∃ stake, verifications id l = [stake] ∧
          moment [stake, e.before.stakeOf report.provider] = some stake) ↔ C l e))
    (admin : Address) (txs : List Tx)
    (htimes : (txs.map fun tx => tx.env.timestamp).Pairwise (· ≤ ·)) :
    (∀ pre, pre <+: txs → (machine.run (constructor admin) pre).Carries moment
        (machine.log (constructor admin) pre)) ↔
      ∀ l e, l ++ [e] <+: machine.log (constructor admin) txs → C l e := by
  have hclock : ∀ pre, pre <+: txs → Clocked (machine.log (constructor admin) pre) := by
    intro pre hpre
    exact clocked_log (htimes.sublist (hpre.sublist.map _))
  rw [← machine.holds_iff (I := RecordFacts) (P := State.CarriesStake moment)
    (recordFacts_run admin) ?_ ?_ txs]
  · constructor
    · intro h pre hpre
      exact (carries_iff (timeInvariant_run admin pre) (hclock pre hpre)).mp (h pre hpre)
    · intro h pre hpre
      exact (carries_iff (timeInvariant_run admin pre) (hclock pre hpre)).mpr (h pre hpre)
  · rintro id report ⟨hget, -⟩
    simp [constructor] at hget
  · intro l e hfires hs hcarries
    rw [carriesStake_step hmoment hs.records hs.challenges hs.index (oracleStep_of_fires hfires)
      hcarries]
    exact hcondition l e hs

/-- **Verified records.**  In a run whose clock does not run back every
verified report carries, in every state, its verification time and the
provider's stake when it first turned verified, exactly if no report is upheld
that was never verified; and the stake when it last turned verified, exactly if
moreover the provider's stake is the same again when a report is upheld. -/
theorem verified_records (admin : Address) (txs : List Tx)
    (htimes : (txs.map fun tx => tx.env.timestamp).Pairwise (· ≤ ·)) :
    ((∀ pre, pre <+: txs → (machine.run (constructor admin) pre).Carries List.head?
        (machine.log (constructor admin) pre)) ↔
      ∀ l e, l ++ [e] <+: machine.log (constructor admin) txs →
        ∀ id, e.Upholds id → verifications id l ≠ []) ∧
    ((∀ pre, pre <+: txs → (machine.run (constructor admin) pre).Carries List.getLast?
        (machine.log (constructor admin) pre)) ↔
      ∀ l e, l ++ [e] <+: machine.log (constructor admin) txs →
        ∀ id report, e.Upholds id → e.before.report.get id = some report →
          verifications id l = [e.before.stakeOf report.provider]) := by
  constructor
  · refine carries_all_iff (fun stake => rfl) ?_ admin txs htimes
    intro l e hs
    constructor
    · intro h id hupholds hnil
      obtain ⟨report, hget⟩ := hs.challenges.stored_of_open hupholds.2
      obtain ⟨stake, hone, -⟩ := h id report hupholds hget
      rw [hnil] at hone
      cases hone
    · intro h id report hupholds hget
      rcases hs.turned_once hget hupholds.2 with hnil | ⟨stake, hone⟩
      · exact absurd hnil (h id hupholds)
      · exact ⟨stake, hone, rfl⟩
  · refine carries_all_iff (fun stake => rfl) ?_ admin txs htimes
    intro l e hs
    constructor
    · intro h id report hupholds hget
      obtain ⟨stake, hone, hlast⟩ := h id report hupholds hget
      obtain rfl : e.before.stakeOf report.provider = stake := Option.some.inj hlast
      exact hone
    · intro h id report hupholds hget
      exact ⟨_, h id report hupholds hget, rfl⟩

/-- A report that is challenged before anyone verified it, and upheld. -/
def upheldUnverified : List Tx := [
  sampleTx 1 0 (.registerProvider 0 1 "VCS" 0),
  sampleTx 3 1 (.submitReport 1 sampleProject 0 10 5 .absent "VCS" sampleProject 0),
  sampleTx 4 7 (.challengeReport 7 1 sampleProject 0),
  sampleTx 5 0 (.resolveChallenge 0 1 .verified 1)]

/-- The report is verified, at no time and with no stake. -/
theorem upheldUnverified_stored :
    (machine.run (constructor 0) upheldUnverified).VerifiedAs 1
      ⟨1, 1, sampleProject, 0, 10, 5, .absent, "VCS", sampleProject, .verified, 3, 0, none⟩ :=
  ⟨by decide +kernel, rfl⟩

/-- A report that was upheld without ever having been verified. -/
theorem upheld_without_record :
    (upheldUnverified.map fun tx => tx.env.timestamp).Pairwise (· ≤ ·) ∧
    ¬ (machine.run (constructor 0) upheldUnverified).Carries List.head?
        (machine.log (constructor 0) upheldUnverified) ∧
    ¬ (machine.run (constructor 0) upheldUnverified).Carries List.getLast?
        (machine.log (constructor 0) upheldUnverified) := by
  refine ⟨by decide, ?_, ?_⟩
  · intro h
    obtain ⟨hle, -⟩ := h _ _ upheldUnverified_stored
    exact absurd hle (by decide)
  · intro h
    obtain ⟨hle, -⟩ := h _ _ upheldUnverified_stored
    exact absurd hle (by decide)

/-- On that run the condition fails. -/
theorem verified_records_sample :
    ¬ ∀ l e, l ++ [e] <+: machine.log (constructor 0) upheldUnverified →
      ∀ id, e.Upholds id → verifications id l ≠ [] := by
  intro h
  have hall := (verified_records 0 upheldUnverified (by decide)).1.mpr h _ List.prefix_rfl
  obtain ⟨hle, -⟩ := hall _ _ upheldUnverified_stored
  exact absurd hle (by decide)

end EcoMint.OracleConsumer
