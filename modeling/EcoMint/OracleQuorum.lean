import EcoMint.OracleChallenges

/-!
# Who verified a report?

The verifiers of a report are stored as a list, and each of them called
`verify_report` once on it with success.  What qualified them then may be lost
later, so the threshold is compared with those who qualify at the moment: a
report that becomes verified has a quorum of distinct, currently qualified
verifiers behind it, none of them its provider.
-/

namespace EcoMint.OracleConsumer

open Storage

/-- The admin, or an active provider with the minimum stake. -/
def State.MayVerify (s : State) (addr : Address) : Prop :=
  s.admin = some addr ∨ ∃ p, s.provider.get addr = some p ∧ p.active = true ∧
    getMinimumVerifierStake s ≤ p.stake

/-- The check of a verifier says whether they may verify. -/
theorem qualifies_iff {s : State} {addr : Address} :
    qualifies s addr = true ↔ s.MayVerify addr := by
  unfold qualifies State.MayVerify getMinimumVerifierStake
  by_cases hadmin : s.admin = some addr
  · simp [hadmin]
  · cases hget : s.provider.get addr with
    | none => simp [hadmin]
    | some p => simp [hadmin]

/-- The address called `verify_report` on the report with success. -/
def Verified (l : List LogEntry) (addr : Address) (id : Nat) : Prop :=
  ∃ e ∈ l, ∃ nonce, e.input.call = .verifyReport addr id nonce

theorem Verified.snoc {l : List LogEntry} {addr : Address} {id : Nat} (h : Verified l addr id)
    (e : LogEntry) : Verified (l ++ [e]) addr id := by
  obtain ⟨e', he', hcall⟩ := h
  exact ⟨e', List.mem_append_left _ he', hcall⟩

/-- Enough distinct addresses verified the report, all of them qualified in the
storage `s` and none of them its provider. -/
def Quorum (s : State) (l : List LogEntry) (id : Nat) (provider : Address) : Prop :=
  ∃ verifiers : List Address, verifiers.Nodup ∧
    max 1 (getSignatureThreshold s) ≤ verifiers.length ∧
    ∀ addr ∈ verifiers, addr ≠ provider ∧ s.MayVerify addr ∧ Verified l addr id

/-- The stored verifiers of a report are distinct, verified it, and are not its
provider. -/
structure VerifierInvariant (s : State) (l : List LogEntry) : Prop where
  nodup : ∀ id, (getReportVerifiers s id).Nodup
  verified : ∀ id, ∀ addr ∈ getReportVerifiers s id, Verified l addr id
  foreign : ∀ id report, s.report.get id = some report →
    report.provider ∉ getReportVerifiers s id
  unused : ∀ id, s.report.get id = none → getReportVerifiers s id = []

theorem verifierInvariant_constructor (admin : Address) :
    VerifierInvariant (constructor admin) [] := by
  constructor <;> simp [constructor, getReportVerifiers]

/-! ## What one call does to the verifiers -/

/-- A call leaves the verifiers alone or adds its caller to those of a report. -/
theorem OracleStep.verifiers_or {env : Env} {s s' : State} {call : Call}
    (h : OracleStep env s s' call) :
    s'.reportVerifiers = s.reportVerifiers ∨
      ∃ caller id nonce report, call = .verifyReport caller id nonce ∧
        CanVerify s caller id report ∧ ∀ other, getReportVerifiers s' other =
          if other = id then verifiersWith s caller id else getReportVerifiers s other := by
  cases h with
  | managed hstep => exact Or.inl hstep.sameReports.reportVerifiers
  | submitted report p nonce hcall hprovider hactive hfresh hperiod hsound hapart hafter =>
      rw [hafter]
      exact Or.inl rfl
  | counted caller reportId nonce report hcall hcan hafter hshort =>
      refine Or.inr ⟨caller, reportId, nonce, report, hcall, hcan, ?_⟩
      rw [hafter]
      exact recordVerifier_verifiers (s.bump caller) caller reportId
  | verified caller reportId nonce report hcall hcan hafter hquorum =>
      refine Or.inr ⟨caller, reportId, nonce, report, hcall, hcan, ?_⟩
      rw [hafter]
      exact recordVerifier_verifiers (s.bump caller) caller reportId
  | challenged challenger reportId hash nonce report hcall hget hstatus hwindow hfresh hafter =>
      rw [hafter]
      exact Or.inl rfl
  | dismissed caller reportId nonce resolution challenge hcall hadmin hchallenge hclosed hafter =>
      rw [hafter]
      exact Or.inl rfl
  | upheld caller reportId nonce challenge report hcall hadmin hchallenge hopen hget hafter =>
      rw [hafter]
      exact Or.inl rfl
  | rejected caller reportId nonce challenge report p penalty hcall hadmin hchallenge hopen hget
      hprovider hpenalty hafter =>
      rw [hafter]
      exact Or.inl rfl

/-- The verifiers with one more caller are those there were and the caller. -/
theorem mem_verifiersWith {s : State} {caller addr : Address} {id : Nat} :
    addr ∈ verifiersWith s caller id ↔ addr ∈ getReportVerifiers s id ∨ addr = caller := by
  unfold verifiersWith
  split
  · next hmem =>
      constructor
      · exact Or.inl
      · intro h
        rcases h with h | rfl
        · exact h
        · exact hmem
  · simp

/-- One more verifier keeps the list free of duplicates. -/
theorem nodup_verifiersWith {s : State} {caller : Address} {id : Nat}
    (h : (getReportVerifiers s id).Nodup) : (verifiersWith s caller id).Nodup := by
  unfold verifiersWith
  split
  · exact h
  · next hnew =>
      rw [← List.concat_eq_append]
      exact h.concat hnew

/-- A call that leaves the verifiers alone: what is left to show is that no
provider of a stored report is among its verifiers, and that they are those of
stored reports. -/
theorem VerifierInvariant.of_verifiers {s s' : State} {l : List LogEntry}
    (hs : VerifierInvariant s l) (hverifiers : s'.reportVerifiers = s.reportVerifiers)
    (hforeign : ∀ id report, s'.report.get id = some report →
      report.provider ∉ getReportVerifiers s id)
    (hunused : ∀ id, s'.report.get id = none → s.report.get id = none) (e : LogEntry) :
    VerifierInvariant s' (l ++ [e]) := by
  have hsame : ∀ id, getReportVerifiers s' id = getReportVerifiers s id := by
    intro id
    unfold getReportVerifiers
    rw [hverifiers]
  constructor
  case nodup =>
    intro id
    rw [hsame]
    exact hs.nodup id
  case verified =>
    intro id addr haddr
    rw [hsame] at haddr
    exact (hs.verified id addr haddr).snoc e
  case foreign =>
    intro id report hget
    rw [hsame]
    exact hforeign id report hget
  case unused =>
    intro id hnone
    rw [hsame]
    exact hs.unused id (hunused id hnone)

/-- The reports are kept, and the verifiers with them. -/
theorem VerifierInvariant.keep {s s' : State} {l : List LogEntry} (hs : VerifierInvariant s l)
    (hkeeps : s.KeepsReports s') (hverifiers : s'.reportVerifiers = s.reportVerifiers)
    (e : LogEntry) : VerifierInvariant s' (l ++ [e]) := by
  refine hs.of_verifiers hverifiers ?foreign ?unused e
  case foreign =>
    intro id report' hget'
    obtain ⟨report, hget, hsubmitted⟩ := hkeeps.before hget'
    have hprovider : report.provider = report'.provider :=
      (congrArg Report.provider hsubmitted :)
    rw [← hprovider]
    exact hs.foreign id report hget
  case unused =>
    intro id hnone
    have hbefore := hkeeps.report id
    rw [hnone] at hbefore
    exact Option.map_eq_none_iff.mp hbefore.symm

/-- The caller joins the verifiers of a report. -/
theorem VerifierInvariant.join {s s' : State} {l : List LogEntry} (hs : VerifierInvariant s l)
    {e : LogEntry} {caller : Address} {id nonce : Nat} {report : Report}
    (hcall : e.input.call = .verifyReport caller id nonce) (hcan : CanVerify s caller id report)
    (hkeeps : s.KeepsReports s')
    (hverifiers : ∀ other, getReportVerifiers s' other =
      if other = id then verifiersWith s caller id else getReportVerifiers s other) :
    VerifierInvariant s' (l ++ [e]) := by
  constructor
  case nodup =>
    intro other
    rw [hverifiers]
    split
    · exact nodup_verifiersWith (hs.nodup id)
    · exact hs.nodup other
  case verified =>
    intro other addr haddr
    rw [hverifiers] at haddr
    split at haddr
    · next hother =>
        rcases mem_verifiersWith.mp haddr with hold | rfl
        · exact (hother ▸ hs.verified id addr hold).snoc e
        · exact ⟨e, by simp, nonce, hother ▸ hcall⟩
    · exact (hs.verified other addr haddr).snoc e
  case foreign =>
    intro other report' hget'
    obtain ⟨stored, hget, hsubmitted⟩ := hkeeps.before hget'
    have hprovider : stored.provider = report'.provider :=
      (congrArg Report.provider hsubmitted :)
    rw [hverifiers, ← hprovider]
    split
    · next hother =>
        subst hother
        obtain rfl : report = stored := by simpa [hcan.stored] using hget
        intro hmem
        rcases mem_verifiersWith.mp hmem with hold | hcaller
        · exact hs.foreign other report hget hold
        · exact hcan.foreign hcaller.symm
    · exact hs.foreign other stored hget
  case unused =>
    intro other hnone
    have hbefore := hkeeps.report other
    rw [hnone] at hbefore
    have hnone' : s.report.get other = none := Option.map_eq_none_iff.mp hbefore.symm
    have hother : other ≠ id := by
      intro heq
      subst heq
      rw [hcan.stored] at hnone'
      cases hnone'
    rw [hverifiers, if_neg hother]
    exact hs.unused other hnone'

/-- A new report has no verifiers yet. -/
theorem VerifierInvariant.add {s s' : State} {l : List LogEntry} (hs : VerifierInvariant s l)
    (hindex : ReportIndex s) {report : Report}
    (hreport : s'.report = s.report.set (s.reportCount + 1) report)
    (hverifiers : s'.reportVerifiers = s.reportVerifiers) (e : LogEntry) :
    VerifierInvariant s' (l ++ [e]) := by
  refine hs.of_verifiers hverifiers ?foreign ?unused e
  case foreign =>
    intro id stored hget
    rw [hreport, get_set] at hget
    split at hget
    · next hid =>
        have hnone := hs.unused _ (hindex.unused _ (Nat.lt_succ_self s.reportCount))
        rw [hid, hnone]
        exact List.not_mem_nil
    · exact hs.foreign id stored hget
  case unused =>
    intro id hnone
    rw [hreport, get_set] at hnone
    split at hnone
    · cases hnone
    · exact hnone

/-- **Step lemma** for the verifiers. -/
theorem VerifierInvariant.step {l : List LogEntry} {e : LogEntry}
    (hs : VerifierInvariant e.before l) (hindex : ReportIndex e.before)
    (hstep : OracleStep e.input.env e.before e.after e.input.call) :
    VerifierInvariant e.after (l ++ [e]) := by
  rcases hstep.keepsReports_or with hkeeps | ⟨report, -, -, -, hafter⟩
  · rcases hstep.verifiers_or with hsame | ⟨caller, id, nonce, report, hcall, hcan, hverifiers⟩
    · exact hs.keep hkeeps hsame e
    · exact hs.join hcall hcan hkeeps hverifiers
  · have hreport : e.after.report = e.before.report.set (e.before.reportCount + 1) report := by
      rw [hafter]
      rfl
    have hverifiers : e.after.reportVerifiers = e.before.reportVerifiers := by
      rw [hafter]
      rfl
    exact hs.add hindex hreport hverifiers e

/-- The verifiers stored are those of the log after every run. -/
theorem verifierInvariant_run (admin : Address) (txs : List Tx) :
    VerifierInvariant (machine.run (constructor admin) txs)
      (machine.log (constructor admin) txs) := by
  refine machine.invariant_under (I := fun s _ => ReportIndex s) (P := VerifierInvariant)
    (reportIndex_run admin) (verifierInvariant_constructor admin) ?_ txs
  intro l e hfires hindex hs
  exact hs.step hindex (oracleStep_of_fires hfires)

/-! ## The quorum behind a verified report -/

/-- The verifiers that qualify, with the caller among them, make a quorum once
there are as many as the threshold asks for. -/
theorem quorum_of_count {l : List LogEntry} {e : LogEntry} (hs : VerifierInvariant e.before l)
    {caller : Address} {id nonce : Nat} {report : Report}
    (hcall : e.input.call = .verifyReport caller id nonce)
    (hcan : CanVerify e.before caller id report)
    (hquorum : getSignatureThreshold e.before ≤
      qualifyingVerifierCount e.before (verifiersWith e.before caller id)) :
    Quorum e.before (l ++ [e]) id report.provider := by
  let verifiers := (verifiersWith e.before caller id).filter fun addr => qualifies e.before addr
  have hlength : verifiers.length =
      qualifyingVerifierCount e.before (verifiersWith e.before caller id) :=
    List.countP_eq_length_filter.symm
  have hcaller : caller ∈ verifiers :=
    List.mem_filter.mpr ⟨mem_verifiersWith.mpr (Or.inr rfl), hcan.qualified⟩
  have hone : 0 < verifiers.length := List.length_pos_of_mem hcaller
  refine ⟨verifiers, (nodup_verifiersWith (hs.nodup id)).filter _, by omega, ?_⟩
  intro addr haddr
  obtain ⟨hmem, hqualified⟩ := List.mem_filter.mp haddr
  rcases mem_verifiersWith.mp hmem with hold | rfl
  · refine ⟨?_, qualifies_iff.mp hqualified, (hs.verified id addr hold).snoc e⟩
    intro heq
    exact hs.foreign id report hcan.stored (heq ▸ hold)
  · exact ⟨hcan.foreign, qualifies_iff.mp hqualified, e, by simp, nonce, hcall⟩

/-- Only a verification takes an unchallenged report from pending to verified. -/
theorem OracleStep.verifies {env : Env} {s s' : State} {call : Call} (h : OracleStep env s s' call)
    {id : Nat} {report report' : Report} (hbefore : s.report.get id = some report)
    (hpending : report.status = .pending) (hunchallenged : s.challenge.get id = none)
    (hafter : s'.report.get id = some report') (hverified : report'.status = .verified) :
    ∃ caller nonce, call = .verifyReport caller id nonce ∧ CanVerify s caller id report ∧
      getSignatureThreshold s ≤ qualifyingVerifierCount s (verifiersWith s caller id) := by
  have hchanged : s'.report.get id ≠ s.report.get id := by
    intro hsame
    rw [hafter, hbefore] at hsame
    obtain rfl := Option.some.inj hsame
    rw [hpending] at hverified
    cases hverified
  have hunresolved : ∀ {other challenge}, s.challenge.get other = some challenge →
      id ≠ other := by
    intro other challenge hother heq
    rw [heq, hother] at hunchallenged
    cases hunchallenged
  cases h with
  | managed hstep =>
      rw [hstep.sameReports.report] at hchanged
      exact absurd rfl hchanged
  | submitted added p nonce hcall hprovider hactive hfresh hperiod hsound hapart hadded =>
      rw [hadded] at hafter
      have hset : (s.report.set (s.reportCount + 1) added).get id = some report' := hafter
      rw [get_set] at hset
      split at hset
      · obtain rfl := Option.some.inj hset
        rw [hfresh.status_eq] at hverified
        cases hverified
      · obtain rfl : report = report' := by simpa [hbefore] using hset
        rw [hpending] at hverified
        cases hverified
  | counted caller reportId nonce stored hcall hcan hcounted hshort =>
      obtain ⟨verifiers, counts, hrecorded⟩ := recordVerifier_frame (s.bump caller) caller reportId
      rw [hcounted, hrecorded] at hchanged
      exact absurd rfl hchanged
  | verified caller reportId nonce stored hcall hcan hmoved hquorum =>
      have hid : id = reportId := by
        by_contra hne
        rw [hmoved] at hchanged
        exact hchanged (get_set_ne _ _ hne)
      subst hid
      obtain rfl : report = stored := by simpa [hbefore] using hcan.stored
      exact ⟨caller, nonce, hcall, hcan, hquorum⟩
  | challenged challenger reportId hash nonce stored hcall hget hstatus hwindow hfresh hmoved =>
      rw [hmoved] at hafter hchanged
      have hset : (s.report.set reportId { stored with status := .challenged }).get id =
        some report' := hafter
      rw [get_set] at hset
      split at hset
      · obtain rfl := Option.some.inj hset
        cases hverified
      · next hne => exact absurd (get_set_ne _ _ hne) hchanged
  | dismissed caller reportId nonce resolution challenge hcall hadmin hchallenge hclosed hsame =>
      rw [hsame] at hchanged
      exact absurd rfl hchanged
  | upheld caller reportId nonce challenge stored hcall hadmin hchallenge hopen hget hmoved =>
      rw [hmoved] at hchanged
      exact absurd (get_set_ne _ _ (hunresolved hchallenge)) hchanged
  | rejected caller reportId nonce challenge stored p penalty hcall hadmin hchallenge hopen hget
      hprovider hpenalty hmoved =>
      rw [hmoved] at hchanged
      exact absurd (get_set_ne _ _ (hunresolved hchallenge)) hchanged

/-- **Quorum of verifiers.**  Whenever a call turns a report from pending to
verified, it is a `verify_report` on that report, no challenge of the report is
stored, and a quorum verified it, the caller included. -/
theorem verified_by_quorum (admin : Address) (txs : List Tx) (l : List LogEntry) (e : LogEntry)
    (hpre : l ++ [e] <+: machine.log (constructor admin) txs) (id : Nat) (report report' : Report)
    (hbefore : e.before.report.get id = some report) (hpending : report.status = .pending)
    (hafter : e.after.report.get id = some report') (hverified : report'.status = .verified) :
    (∃ caller nonce, e.input.call = .verifyReport caller id nonce) ∧
      e.before.challenge.get id = none ∧ Quorum e.before (l ++ [e]) id report.provider := by
  obtain ⟨pre, tx, -, hfires, hrun, hlog, -⟩ := machine.exists_call_of_log_prefix hpre
  have hs : VerifierInvariant e.before l := by
    have hinvariant := verifierInvariant_run admin pre
    rwa [← hrun, hlog] at hinvariant
  have hunchallenged : e.before.challenge.get id = none := by
    have hinvariant := challengeInvariant_run admin pre
    rw [← hrun] at hinvariant
    exact (hinvariant.matched id report hbefore).unchallenged hpending
  obtain ⟨caller, nonce, hcall, hcan, hquorum⟩ :=
    (oracleStep_of_fires hfires).verifies hbefore hpending hunchallenged hafter hverified
  exact ⟨⟨caller, nonce, hcall⟩, hunchallenged, quorum_of_count hs hcall hcan hquorum⟩

/-- A transaction at a time, signed by one account, in a release build. -/
def sampleTx (time : Nat) (signer : Address) (call : Call) : Tx :=
  ⟨⟨time, [signer], none, 5, false⟩, call⟩

/-- The identifier of a project. -/
def sampleProject : BytesN 32 := ⟨List.replicate 32 4, rfl⟩

/-- Two verifications are asked for; a report of provider 1 gets those of
provider 2, who staked enough, and of the admin. -/
def sampleVerification : List Tx := [
  sampleTx 1 0 (.setSignatureThreshold 0 2 0),
  sampleTx 1 0 (.registerProvider 0 1 "VCS" 1),
  sampleTx 1 0 (.registerProvider 0 2 "VCS" 2),
  sampleTx 2 2 (.addStake 2 10000 0),
  sampleTx 3 1 (.submitReport 1 sampleProject 0 10 5 .absent "VCS" sampleProject 0),
  sampleTx 4 2 (.verifyReport 2 1 1),
  sampleTx 5 0 (.verifyReport 0 1 3)]

/-- The report of the sample run, as submitted. -/
def sampleReport : Report :=
  ⟨1, 1, sampleProject, 0, 10, 5, .absent, "VCS", sampleProject, .pending, 3, 0, none⟩

/-- The sample run has an accepted transaction. -/
theorem sampleVerification_logged :
    machine.log (constructor 0) sampleVerification ≠ [] :=
  List.ne_nil_of_length_pos (by decide +kernel)

/-- The last transaction of the sample run verifies its report with the quorum there. -/
theorem verified_by_quorum_sample :
    Quorum ((machine.log (constructor 0) sampleVerification).getLast
        sampleVerification_logged).before
      (machine.log (constructor 0) sampleVerification) 1 1 := by
  have hlog := List.dropLast_append_getLast sampleVerification_logged
  have hquorum := verified_by_quorum 0 sampleVerification
    (machine.log (constructor 0) sampleVerification).dropLast
    ((machine.log (constructor 0) sampleVerification).getLast sampleVerification_logged)
    ⟨[], (List.append_nil _).trans hlog⟩ 1 sampleReport
    (sampleReport.verify (sampleTx 5 0 (.verifyReport 0 1 3)).env 0)
    (by decide +kernel) rfl (by decide +kernel) rfl
  rw [hlog] at hquorum
  exact hquorum.2.2

end EcoMint.OracleConsumer
