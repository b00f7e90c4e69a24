import EcoMint.OracleFinality
import EcoMint.OracleStake

/-!
# The collateral behind a challenged report

A rejected report costs its provider a tenth of the stake it has when the
challenge is resolved.  Between the challenge and its resolution the provider
can add to that stake, other slashes can take from it, and nothing keeps the
provider from withdrawing: what it withdraws is out of reach of the penalty.
-/

namespace EcoMint.OracleConsumer

open Fallible Storage IntRange

/-- The product behind the penalty on a stake is exact: it fits, or the build
traps when it does not. -/
def PenaltyExact (env : Env) (stake : Int) : Prop :=
  env.overflowChecks = true ∨ i128.Fits (stake * SLASH_PENALTY_PPM)

/-- An exact penalty is at least a tenth of the stake. -/
theorem tenth_le_slashPenalty {env : Env} {stake penalty : Int}
    (h : slashPenalty env stake = .ok penalty) (hstake : 0 ≤ stake)
    (hexact : PenaltyExact env stake) : stake / 10 ≤ penalty := by
  obtain ⟨hbuild, rfl⟩ := slashPenalty_ok_iff.mp h
  have hfits : i128.Fits (stake * SLASH_PENALTY_PPM) := by
    rcases hexact with hchecks | hfits
    · rw [hchecks] at hbuild
      exact hbuild.resolve_right (by decide)
    · exact hfits
  rw [wrap_of_fits _ hfits, cutPenalty_exact hstake]
  unfold tenth
  split <;> omega

/-! ## A stretch of a run -/

/-- The invariant of the reports holds in every reachable oracle. -/
theorem reportsInvariant_run (admin : Address) (txs : List Tx) :
    ReportsInvariant (machine.run (constructor admin) txs) :=
  machine.invariant (P := fun s _ => ReportsInvariant s) (reportsInvariant_constructor admin)
    (fun _ _ hfires hs => hs.step (oracleStep_of_fires hfires).reportStep) txs

/-- A report keeps its content for the rest of the run. -/
theorem report_persists_run (admin : Address) (txs later : List Tx) {id : Nat} {report : Report}
    (hget : (machine.run (constructor admin) txs).report.get id = some report) :
    ∃ report', (machine.run (constructor admin) (txs ++ later)).report.get id = some report' ∧
      report.SameContent report' := by
  induction later using List.reverseRecOn with
  | nil => exact ⟨report, by simpa using hget, .rfl⟩
  | append_singleton later tx ih =>
      obtain ⟨middle, hmiddle, hcontent⟩ := ih
      have hreports := reportsInvariant_run admin (txs ++ later)
      rw [← List.append_assoc]
      rcases machine.snoc_cases (constructor admin) (txs ++ later) tx with
        ⟨hrun, -⟩ | ⟨e, hfires, -, hbefore, hrun, -⟩
      · rw [hrun]
        exact ⟨middle, hmiddle, hcontent⟩
      · rw [← hbefore] at hmiddle hreports
        rw [hrun]
        obtain ⟨report', hget', hcontent'⟩ :=
          (oracleStep_of_fires hfires).reportStep.persists hreports hmiddle
        exact ⟨report', hget', hcontent.trans hcontent'⟩

/-- Nobody adds a negative stake. -/
theorem stakeAdded_nonneg {e : LogEntry} (h : machine.Fires e) (addr : Address) :
    0 ≤ e.input.call.stakeAdded addr := by
  cases (oracleStep_of_fires h).stakeStep with
  | kept _ _ hadded _ => exact (hadded addr).ge
  | added provider amount hamount _ _ hadded _ =>
      rw [hadded]
      split <;> omega
  | withdrawn _ _ _ _ _ hadded _ => exact (hadded addr).ge
  | slashed _ _ _ _ _ _ hadded _ => exact (hadded addr).ge

theorem added_nonneg (s : State) (txs : List Tx) (addr : Address) :
    0 ≤ added addr (machine.log s txs) := by
  apply List.sum_nonneg
  intro amount hamount
  obtain ⟨e, he, rfl⟩ := List.mem_map.mp hamount
  obtain ⟨-, hfires, -⟩ := machine.exists_run_of_mem_log he
  exact stakeAdded_nonneg hfires addr

/-- Over a stretch of a run a stake moves by what was added, withdrawn and
taken by slashes. -/
theorem stakeOf_stretch (admin : Address) (txs later : List Tx) (addr : Address) :
    (machine.run (constructor admin) (txs ++ later)).stakeOf addr =
      (machine.run (constructor admin) txs).stakeOf addr +
        added addr (machine.log (machine.run (constructor admin) txs) later) -
        withdrawn addr (machine.log (machine.run (constructor admin) txs) later) -
        ((machine.run (constructor admin) (txs ++ later)).penalties addr -
          (machine.run (constructor admin) txs).penalties addr) := by
  have hbefore := (stakeInvariant_run admin txs).balance addr
  have hafter := (stakeInvariant_run admin (txs ++ later)).balance addr
  have hadded : added addr (machine.log (constructor admin) (txs ++ later)) =
      added addr (machine.log (constructor admin) txs) +
        added addr (machine.log (machine.run (constructor admin) txs) later) := by
    unfold added Machine.total
    rw [machine.log_append, List.map_append, List.sum_append]
  have hwithdrawn : withdrawn addr (machine.log (constructor admin) (txs ++ later)) =
      withdrawn addr (machine.log (constructor admin) txs) +
        withdrawn addr (machine.log (machine.run (constructor admin) txs) later) := by
    unfold withdrawn Machine.total
    rw [machine.log_append, List.map_append, List.sum_append]
  omega

/-! ## The penalty of a rejected report -/

/-- Rejecting a report whose challenge is open puts one slash on record, of a
penalty on the stake its provider has by then. -/
theorem slash_of_rejection {env : Env} {s s' : State} {caller : Address} {id nonce : Nat}
    {out : Output} (h : exec env s (.resolveChallenge caller id .rejected nonce) = .ok (out, s'))
    (hopen : s.OpenChallenge id) {report : Report} (hget : s.report.get id = some report) :
    ∃ record : SlashRecord,
      getSlashHistory s' report.provider = getSlashHistory s report.provider ++ [record] ∧
        record.reportId = id ∧
        slashPenalty env (s.stakeOf report.provider) = .ok record.penalty := by
  obtain ⟨challenge, hchallenge, hunresolved⟩ := hopen
  cases oracleStep_exec h with
  | managed hstep => exact absurd hstep.manages (by simp [Call.Manages])
  | submitted _ _ _ hcall => cases hcall
  | counted _ _ _ _ hcall => cases hcall
  | verified _ _ _ _ hcall => cases hcall
  | challenged _ _ _ _ _ hcall => cases hcall
  | upheld _ _ _ _ _ hcall => cases hcall
  | dismissed _ _ _ _ other hcall _ hother hclosed =>
      obtain ⟨-, rfl, -, -⟩ := Call.resolveChallenge.inj hcall
      obtain rfl : challenge = other := by simpa [hchallenge] using hother
      simp [hunresolved] at hclosed
  | rejected _ _ _ _ report' p penalty hcall _ _ _ hget' hprovider hpenalty hafter =>
      obtain ⟨-, rfl, -, -⟩ := Call.resolveChallenge.inj hcall
      obtain rfl : report = report' := by simpa [hget] using hget'
      refine ⟨⟨id, penalty, p.stake - penalty, env.timestamp, (p.slashed penalty).active⟩, ?_, rfl,
        ?_⟩
      · have hhistory : s'.slashHistory = s.slashHistory.set report.provider
            (getSlashHistory s report.provider ++ [⟨id, penalty, p.stake - penalty,
              env.timestamp, (p.slashed penalty).active⟩]) := by
          rw [hafter]
          rfl
        rw [getSlashHistory_of_set hhistory, if_pos rfl]
      · rw [stakeOf_of_get hprovider]
        exact hpenalty

/-- **The penalty of a rejected report.**  A report is challenged, other calls
follow, and the challenge is resolved against it.  The penalty put on record is
at least a tenth of the stake at the challenge, less what other slashes took
and what the provider itself withdrew in between. -/
theorem rejected_report_penalty (admin : Address) (txs between : List Tx) (filing settling : Tx)
    (challenger caller : Address) (hash : BytesN 32) (id nonce nonce' : Nat) (out out' : Output)
    (filed settled : State)
    (hfiling : filing.call = .challengeReport challenger id hash nonce)
    (hfiled : machine.call (machine.run (constructor admin) txs) filing = .ok (out, filed))
    (hsettling : settling.call = .resolveChallenge caller id .rejected nonce')
    (hsettled : machine.call (machine.run filed between) settling = .ok (out', settled))
    (hopen : (machine.run filed between).OpenChallenge id) :
    ∃ report record, (machine.run (constructor admin) txs).report.get id = some report ∧
      getSlashHistory settled report.provider =
        getSlashHistory (machine.run filed between) report.provider ++ [record] ∧
      record.reportId = id ∧
      (PenaltyExact settling.env ((machine.run filed between).stakeOf report.provider) →
        ((machine.run (constructor admin) txs).stakeOf report.provider -
          ((machine.run filed between).penalties report.provider -
            (machine.run (constructor admin) txs).penalties report.provider) -
          withdrawn report.provider (machine.log filed between)) / 10 ≤ record.penalty) := by
  have hrun : machine.run (constructor admin) (txs ++ filing :: between) =
      machine.run filed between := by
    have hstep : machine.step (machine.run (constructor admin) txs) filing = filed := by
      simp [Machine.step, hfiled]
    rw [machine.run_append]
    show machine.run (machine.step _ filing) between = _
    rw [hstep]
  have hlog : machine.log (machine.run (constructor admin) txs) (filing :: between) =
      ⟨machine.run (constructor admin) txs, filing, out, filed⟩ :: machine.log filed between := by
    simp [Machine.log, hfiled]
  have hget : ∃ report, (machine.run (constructor admin) txs).report.get id = some report := by
    change exec filing.env _ filing.call = _ at hfiled
    rw [hfiling] at hfiled
    cases oracleStep_exec hfiled with
    | managed hstep => exact absurd hstep.manages (by simp [Call.Manages])
    | submitted _ _ _ hcall => cases hcall
    | counted _ _ _ _ hcall => cases hcall
    | verified _ _ _ _ hcall => cases hcall
    | dismissed _ _ _ _ _ hcall => cases hcall
    | upheld _ _ _ _ _ hcall => cases hcall
    | rejected _ _ _ _ _ _ _ hcall => cases hcall
    | challenged _ _ _ _ report hcall hreport =>
        obtain ⟨-, rfl, -, -⟩ := Call.challengeReport.inj hcall
        exact ⟨report, hreport⟩
  obtain ⟨report, hget⟩ := hget
  obtain ⟨report', hget', hcontent⟩ :=
    report_persists_run admin txs (filing :: between) hget
  rw [hrun] at hget'
  change exec settling.env _ settling.call = _ at hsettled
  rw [hsettling] at hsettled
  obtain ⟨record, hhistory, hid, hpenalty⟩ := slash_of_rejection hsettled hopen hget'
  rw [hcontent.provider_eq] at hhistory hpenalty
  refine ⟨report, record, hget, hhistory, hid, fun hexact => ?_⟩
  have hstretch := stakeOf_stretch admin txs (filing :: between) report.provider
  have hadded := added_nonneg (machine.run (constructor admin) txs) (filing :: between)
    report.provider
  have hnonneg := (stakeInvariant_run admin (txs ++ filing :: between)).nonneg report.provider
  have hwithdrawn : withdrawn report.provider
      (machine.log (machine.run (constructor admin) txs) (filing :: between)) =
        withdrawn report.provider (machine.log filed between) := by
    rw [hlog]
    simp [withdrawn, Machine.total, hfiling, Call.stakeWithdrawn]
  rw [hrun] at hstretch hnonneg
  have htenth := tenth_le_slashPenalty hpenalty hnonneg hexact
  omega

/-- A provider with a stake of 10000 whose report is verified, a challenge of
that report, and its rejection. -/
def stakedReport : List Tx := [
  sampleTx 1 0 (.registerProvider 0 1 "VCS" 0),
  sampleTx 2 1 (.addStake 1 10000 0),
  sampleTx 3 1 (.submitReport 1 sampleProject 0 10 5 .absent "VCS" sampleProject 1),
  sampleTx 4 0 (.verifyReport 0 1 1)]

/-- The challenge to the staked report. -/
def stakedFiling : Tx := sampleTx 5 7 (.challengeReport 7 1 sampleProject 0)

/-- The provider gets most of its stake out before the admin resolves. -/
def stakeTakenOut : List Tx := [sampleTx 6 1 (.withdrawStake 1 9000 2)]

/-- The challenge is upheld. -/
def stakedRejection : Tx := sampleTx 7 0 (.resolveChallenge 0 1 .rejected 2)

/-- The storage after the filing, and after the rejection that follows it. -/
def stakedFiled : State := machine.step (machine.run (constructor 0) stakedReport) stakedFiling

/-- The state after the challenge has been upheld. -/
def stakedSettled : State := machine.step (machine.run stakedFiled stakeTakenOut) stakedRejection

/-- A call that is accepted ends in the storage `step` shows. -/
theorem accepted_step {s : State} {tx : Tx} {out : Output}
    (h : (machine.call s tx).map Prod.fst = .ok out) :
    machine.call s tx = .ok (out, machine.step s tx) := by
  unfold Machine.step
  cases hcall : machine.call s tx with
  | error _ => simp [hcall, Except.map] at h
  | ok result =>
      rw [hcall] at h
      obtain rfl : result.1 = out := Except.ok.inj h
      rfl

/-- The challenge is accepted. -/
theorem stakedFiling_accepted :
    machine.call (machine.run (constructor 0) stakedReport) stakedFiling =
      .ok (none, stakedFiled) :=
  accepted_step (by decide +kernel)

/-- The rejection is accepted. -/
theorem stakedRejection_accepted :
    machine.call (machine.run stakedFiled stakeTakenOut) stakedRejection =
      .ok (none, stakedSettled) :=
  accepted_step (by decide +kernel)

/-- After the filing the challenge is open. -/
theorem stakedFiling_open : (machine.run stakedFiled stakeTakenOut).OpenChallenge 1 :=
  ⟨⟨1, 7, sampleProject, 5, false, 0⟩, by decide +kernel, rfl⟩

/-- The staked report is the staker's. -/
theorem provider_of_stakedReport {report : Report}
    (h : (machine.run (constructor 0) stakedReport).report.get 1 = some report) :
    report.provider = 1 := by
  have hfirst : ((machine.run (constructor 0) stakedReport).report.get 1).map Report.provider =
      some 1 := by decide +kernel
  rw [h] at hfirst
  exact Option.some.inj hfirst

/-- The rejection has its slash record, with a penalty of a hundred at least, although
stake was taken out before it. -/
theorem rejected_report_penalty_sample :
    ∃ record, getSlashHistory stakedSettled 1 = [record] ∧ 100 ≤ record.penalty := by
  obtain ⟨report, record, hget, hhistory, -, hpenalty⟩ :=
    rejected_report_penalty 0 stakedReport stakeTakenOut stakedFiling stakedRejection 7 0
      sampleProject 1 0 2 none none stakedFiled stakedSettled rfl stakedFiling_accepted rfl
      stakedRejection_accepted stakedFiling_open
  rw [provider_of_stakedReport hget] at hhistory hpenalty
  have hbefore : getSlashHistory (machine.run stakedFiled stakeTakenOut) 1 = [] := by
    decide +kernel
  rw [hbefore] at hhistory
  refine ⟨record, hhistory, le_trans ?_ (hpenalty (Or.inr ?_))⟩
  · decide +kernel
  · decide +kernel

/-- The provider of the sample kept 1000 of its 10000 at risk and lost 100. -/
theorem penalty_lowered_by_withdrawal :
    ¬ ∀ (admin : Address) (txs between : List Tx) (filing settling : Tx)
      (challenger caller : Address) (hash : BytesN 32) (id nonce nonce' : Nat)
      (out out' : Output) (filed settled : State),
      filing.call = .challengeReport challenger id hash nonce →
      machine.call (machine.run (constructor admin) txs) filing = .ok (out, filed) →
      settling.call = .resolveChallenge caller id .rejected nonce' →
      machine.call (machine.run filed between) settling = .ok (out', settled) →
      (machine.run filed between).OpenChallenge id →
      ∃ report record, (machine.run (constructor admin) txs).report.get id = some report ∧
        getSlashHistory settled report.provider =
          getSlashHistory (machine.run filed between) report.provider ++ [record] ∧
        record.reportId = id ∧
        ((machine.run (constructor admin) txs).stakeOf report.provider -
          ((machine.run filed between).penalties report.provider -
            (machine.run (constructor admin) txs).penalties report.provider)) / 10 ≤
          record.penalty := by
  intro h
  obtain ⟨report, record, hget, hhistory, -, hpenalty⟩ :=
    h 0 stakedReport stakeTakenOut stakedFiling stakedRejection 7 0 sampleProject 1 0 2 none none
      stakedFiled stakedSettled rfl stakedFiling_accepted rfl stakedRejection_accepted
      stakedFiling_open
  rw [provider_of_stakedReport hget] at hhistory hpenalty
  have hrecord : (getSlashHistory stakedSettled 1).map SlashRecord.penalty = [100] := by
    decide +kernel
  have hbefore : getSlashHistory (machine.run stakedFiled stakeTakenOut) 1 = [] := by
    decide +kernel
  have hrisk : ((machine.run (constructor 0) stakedReport).stakeOf 1 -
      ((machine.run stakedFiled stakeTakenOut).penalties 1 -
        (machine.run (constructor 0) stakedReport).penalties 1)) / 10 = 1000 := by
    decide +kernel
  rw [hhistory, hbefore] at hrecord
  have hlow : record.penalty = 100 := by simpa using hrecord
  omega

end EcoMint.OracleConsumer
