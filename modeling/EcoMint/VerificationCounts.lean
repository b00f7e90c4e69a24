import EcoMint.OracleQuorum

/-!
# The verification count of a report

The count stored for a report is that of the latest verification by a new
verifier: how many of the verifiers qualified right after it.  A repeated
verification compares the threshold with a fresh count but leaves the stored
one alone, so the two agree exactly as long as stakes, activity and settings
leave as many verifiers qualified as there were then.
-/

namespace EcoMint.OracleConsumer

open Storage

/-- How many of the verifiers of a report qualify. -/
def qualifiedVerifiers (s : State) (id : Nat) : Nat :=
  qualifyingVerifierCount s (getReportVerifiers s id)

/-- The call is a verification of the report by a new verifier. -/
def LogEntry.Joins (id : Nat) (e : LogEntry) : Prop :=
  match e.input.call with
  | .verifyReport caller reportId _ => reportId = id ∧ caller ∉ getReportVerifiers e.before id
  | _ => False

instance (id : Nat) (e : LogEntry) : Decidable (e.Joins id) := by
  unfold LogEntry.Joins
  split <;> infer_instance

/-- How many verifiers of a report qualified right after the latest one joined. -/
def joinedCount (id : Nat) (l : List LogEntry) : Nat :=
  ((l.filter fun e => e.Joins id).getLast?.map fun e => qualifiedVerifiers e.after id).getD 0

/-- After a verification of a report the stored count is that of the qualified
verifiers, and it meets the threshold if the report is verified. -/
structure CountMatches (s' : State) (id : Nat) : Prop where
  current : getVerificationCount s' id = qualifiedVerifiers s' id
  quorum : ∀ report, s'.report.get id = some report → report.status = .verified →
    getSignatureThreshold s' ≤ getVerificationCount s' id

/-! ## What a verification does to the counts -/

theorem qualifyingVerifierCount_congr {s s' : State} (hadmin : s'.admin = s.admin)
    (hprovider : s'.provider = s.provider)
    (hminimum : s'.minimumVerifierStake = s.minimumVerifierStake) (verifiers : List Address) :
    qualifyingVerifierCount s' verifiers = qualifyingVerifierCount s verifiers := by
  have hsame : qualifies s' = qualifies s := by
    funext verifier
    unfold qualifies minimumVerifierStake
    rw [hadmin, hprovider, hminimum]
  unfold qualifyingVerifierCount
  rw [hsame]

/-- A successful verification of a report. -/
structure VerifyStep (s s' : State) (caller : Address) (id : Nat) : Prop where
  qualified : ∀ verifiers, qualifyingVerifierCount s' verifiers =
    qualifyingVerifierCount s verifiers
  threshold : getSignatureThreshold s' = getSignatureThreshold s
  verifiers : ∀ other, getReportVerifiers s' other =
    if other = id then verifiersWith s caller id else getReportVerifiers s other
  count : ∀ other, getVerificationCount s' other =
    if other = id ∧ caller ∉ getReportVerifiers s id then
      qualifyingVerifierCount s (verifiersWith s caller id)
    else getVerificationCount s other
  quorum : ∀ report, s'.report.get id = some report → report.status = .verified →
    getSignatureThreshold s ≤ qualifyingVerifierCount s (verifiersWith s caller id)

/-- Right after a verification its verifier is counted if it qualifies. -/
theorem VerifyStep.qualifiedVerifiers_eq {s s' : State} {caller : Address} {id : Nat}
    (h : VerifyStep s s' caller id) :
    qualifiedVerifiers s' id = qualifyingVerifierCount s (verifiersWith s caller id) := by
  unfold qualifiedVerifiers
  rw [h.qualified, h.verifiers, if_pos rfl]

/-- Recording a verifier recounts the report's verifications, unless the verifier was
there already. -/
theorem recordVerifier_count (s : State) (caller : Address) (id other : Nat) :
    getVerificationCount (recordVerifier s caller id) other =
      if other = id ∧ caller ∉ getReportVerifiers s id then
        qualifyingVerifierCount s (verifiersWith s caller id)
      else getVerificationCount s other := by
  unfold recordVerifier verifiersWith getVerificationCount
  by_cases hmem : caller ∈ getReportVerifiers s id
  · simp only [hmem, not_true_eq_false, and_false, if_false]
    exact congrArg (fun t : State => t.verificationCount.read other) (if_pos hmem)
  · simp only [hmem, not_false_eq_true, and_true, if_false]
    have hset : (recordVerifier s caller id).verificationCount = s.verificationCount.set id
        (qualifyingVerifierCount s (getReportVerifiers s id ++ [caller])) :=
      congrArg State.verificationCount (if_neg hmem)
    exact (congrArg (fun c => Storage.read c other) hset).trans (read_set _ _ _ _)

/-- Storing the verifiers and the count is a verification, whatever becomes of
the report. -/
theorem verifyStep_of_recorded {s s' : State} {caller : Address} {id : Nat}
    (report : Storage Nat Report)
    (hafter : s' = { recordVerifier (s.bump caller) caller id with report })
    (hquorum : ∀ stored, report.get id = some stored → stored.status = .verified →
      getSignatureThreshold s ≤ qualifyingVerifierCount s (verifiersWith s caller id)) :
    VerifyStep s s' caller id := by
  have hverifiers := recordVerifier_verifiers (s.bump caller) caller id
  have hcount := recordVerifier_count (s.bump caller) caller id
  obtain ⟨verifiers, counts, hframe⟩ := recordVerifier_frame (s.bump caller) caller id
  rw [hframe] at hafter hverifiers hcount
  subst hafter
  exact ⟨qualifyingVerifierCount_congr rfl rfl rfl, rfl, hverifiers, hcount, hquorum⟩

/-- A step on the providers leaves every verification count as it is. -/
theorem ProviderStep.verificationCount_eq {env : Env} {s s' : State} {call : Call}
    (h : ProviderStep env s s' call) : s'.verificationCount = s.verificationCount := by
  rcases h with ⟨_, _, _, _, rfl⟩ | ⟨_, _, _, _, _, _, _, rfl⟩ | ⟨_, _, _, _, _, _, _, rfl⟩ |
    ⟨_, _, _, _, _, rfl⟩ | ⟨_, _, _, _, _, _, rfl⟩ | ⟨_, _, _, _, _, _, _, _, rfl⟩ |
    ⟨_, _, _, _, _, _, _, _, rfl⟩
  all_goals rfl

/-- A call verifies a report or leaves all counts alone. -/
theorem OracleStep.verifyStep_or {env : Env} {s s' : State} {call : Call}
    (h : OracleStep env s s' call) :
    (∃ caller id nonce, call = .verifyReport caller id nonce ∧ VerifyStep s s' caller id) ∨
      ((∀ caller id nonce, call ≠ .verifyReport caller id nonce) ∧
        s'.verificationCount = s.verificationCount) := by
  cases h with
  | managed hstep =>
      refine Or.inr ⟨fun caller id nonce hcall => ?_, hstep.verificationCount_eq⟩
      have hmanages := hstep.manages
      rw [hcall] at hmanages
      exact hmanages
  | submitted report p nonce hcall hprovider hactive hfresh hperiod hsound hapart hafter =>
      subst hcall hafter
      exact Or.inr ⟨by simp, rfl⟩
  | counted caller reportId nonce report hcall hcan hafter hshort =>
      refine Or.inl ⟨caller, reportId, nonce, hcall, verifyStep_of_recorded s.report ?_ ?_⟩
      · obtain ⟨verifiers, counts, hframe⟩ := recordVerifier_frame (s.bump caller) caller reportId
        rw [hafter, hframe]
        rfl
      · intro stored hstored hverified
        -- the report is still pending
        obtain rfl := Option.some.inj (hcan.stored.symm.trans hstored)
        simp [hcan.pending] at hverified
  | verified caller reportId nonce report hcall hcan hafter hquorum =>
      exact Or.inl ⟨caller, reportId, nonce, hcall,
        verifyStep_of_recorded _ hafter fun _ _ _ => hquorum⟩
  | challenged challenger reportId hash nonce report hcall hget hstatus hwindow hfresh hafter =>
      subst hcall hafter
      exact Or.inr ⟨by simp, rfl⟩
  | dismissed caller reportId nonce resolution challenge hcall hadmin hchallenge hclosed hafter =>
      subst hcall hafter
      exact Or.inr ⟨by simp, rfl⟩
  | upheld caller reportId nonce challenge report hcall hadmin hchallenge hopen hget hafter =>
      subst hcall hafter
      exact Or.inr ⟨by simp, rfl⟩
  | rejected caller reportId nonce challenge report p penalty hcall hadmin hchallenge hopen hget
      hprovider hpenalty hafter =>
      subst hcall hafter
      exact Or.inr ⟨by simp, rfl⟩

/-! ## The count and the log -/

theorem joinedCount_snoc (id : Nat) (l : List LogEntry) (e : LogEntry) :
    joinedCount id (l ++ [e]) =
      if e.Joins id then qualifiedVerifiers e.after id else joinedCount id l := by
  unfold joinedCount
  rw [List.filter_append]
  by_cases hjoins : e.Joins id
  · simp [hjoins]
  · simp [hjoins]

/-- The stored count of every report is that of the latest joining. -/
def CountInvariant (s : State) (l : List LogEntry) : Prop :=
  ∀ id, getVerificationCount s id = joinedCount id l

/-- **Step lemma** for the counts. -/
theorem CountInvariant.step {l : List LogEntry} {e : LogEntry} (hs : CountInvariant e.before l)
    (hstep : OracleStep e.input.env e.before e.after e.input.call) :
    CountInvariant e.after (l ++ [e]) := by
  intro id
  rw [joinedCount_snoc]
  rcases hstep.verifyStep_or with ⟨caller, reportId, nonce, hcall, hverify⟩ | ⟨hother, hkept⟩
  · have hjoins : e.Joins id ↔ reportId = id ∧ caller ∉ getReportVerifiers e.before id := by
      unfold LogEntry.Joins
      rw [hcall]
    rw [hverify.count, hs]
    by_cases hid : id = reportId
    · subst hid
      simp only [hjoins, hverify.qualifiedVerifiers_eq]
    · have hforeign : ¬ e.Joins id := fun h => hid (hjoins.mp h).1.symm
      rw [if_neg fun h => hid h.1, if_neg hforeign]
  · have hnot : ¬ e.Joins id := by
      intro hjoins
      unfold LogEntry.Joins at hjoins
      split at hjoins
      · next hcall => exact hother _ _ _ hcall
      · exact hjoins
    rw [if_neg hnot, ← hs id]
    unfold getVerificationCount
    rw [hkept]

/-- The stored counts are those of the log after every run. -/
theorem countInvariant_run (admin : Address) (txs : List Tx) :
    CountInvariant (machine.run (constructor admin) txs)
      (machine.log (constructor admin) txs) := by
  refine machine.invariant (P := CountInvariant) ?_ ?_ txs
  · intro id
    simp [constructor, getVerificationCount, joinedCount]
  · intro l e hfires hs
    exact hs.step (oracleStep_of_fires hfires)

/-- A verification leaves the count right exactly if the verifier is new, or as
many verifiers qualify as when the latest one joined. -/
theorem countMatches_iff {l : List LogEntry} {e : LogEntry} {caller : Address} {id : Nat}
    (hs : CountInvariant e.before l) (hverify : VerifyStep e.before e.after caller id) :
    CountMatches e.after id ↔ caller ∉ getReportVerifiers e.before id ∨
      qualifiedVerifiers e.before id = joinedCount id l := by
  have hcount := hverify.count id
  have hcurrent := hverify.qualifiedVerifiers_eq
  have hexact : getVerificationCount e.after id = qualifiedVerifiers e.after id ↔
      caller ∉ getReportVerifiers e.before id ∨
        qualifiedVerifiers e.before id = joinedCount id l := by
    by_cases hnew : caller ∈ getReportVerifiers e.before id
    · have hsame : verifiersWith e.before caller id = getReportVerifiers e.before id := if_pos hnew
      rw [hcount, if_neg fun h => h.2 hnew, hcurrent, hsame, hs id]
      simp only [hnew, not_true_eq_false, false_or]
      exact eq_comm
    · rw [hcount, if_pos ⟨rfl, hnew⟩, hcurrent]
      simp [hnew]
  constructor
  · intro h
    exact hexact.mp h.current
  · intro h
    have hright := hexact.mpr h
    refine ⟨hright, fun report hget hverified => ?_⟩
    rw [hright, hcurrent, hverify.threshold]
    exact hverify.quorum report hget hverified

/-- **When the stored count is right.**  In every run, after every verification
the stored count is that of the verifiers who qualify, and meets the threshold
if the report is verified, if and only if every verification was made by a new
verifier of the report or met as many qualified verifiers as there were right
after the latest new one. -/
theorem verification_counts_iff (admin : Address) (txs : List Tx) :
    (∀ l e, l ++ [e] <+: machine.log (constructor admin) txs → ∀ caller id nonce,
      e.input.call = .verifyReport caller id nonce → CountMatches e.after id) ↔
    ∀ l e, l ++ [e] <+: machine.log (constructor admin) txs → ∀ caller id nonce,
      e.input.call = .verifyReport caller id nonce →
        caller ∉ getReportVerifiers e.before id ∨
          qualifiedVerifiers e.before id = joinedCount id l := by
  have hlogged : ∀ l e, l ++ [e] <+: machine.log (constructor admin) txs → ∀ caller id nonce,
      e.input.call = .verifyReport caller id nonce →
        CountInvariant e.before l ∧ VerifyStep e.before e.after caller id := by
    intro l e hpre caller id nonce hcall
    obtain ⟨pre, tx, -, hfires, hbefore, hlog, -⟩ := machine.exists_call_of_log_prefix hpre
    refine ⟨?_, ?_⟩
    · rw [hbefore, ← hlog]
      exact countInvariant_run admin pre
    · rcases (oracleStep_of_fires hfires).verifyStep_or with
        ⟨caller', id', nonce', hcall', hverify⟩ | ⟨hother, -⟩
      · obtain ⟨rfl, rfl, rfl⟩ := Call.verifyReport.inj (hcall.symm.trans hcall')
        exact hverify
      · exact absurd hcall (hother caller id nonce)
  constructor
  · intro h l e hpre caller id nonce hcall
    obtain ⟨hs, hverify⟩ := hlogged l e hpre caller id nonce hcall
    exact (countMatches_iff hs hverify).mp (h l e hpre caller id nonce hcall)
  · intro h l e hpre caller id nonce hcall
    obtain ⟨hs, hverify⟩ := hlogged l e hpre caller id nonce hcall
    exact (countMatches_iff hs hverify).mpr (h l e hpre caller id nonce hcall)

/-- Provider 2 verifies, takes its stake out while provider 3 verifies, and puts
it back. -/
def verifierOut : List Tx := [
  sampleTx 1 0 (.setSignatureThreshold 0 2 0),
  sampleTx 1 0 (.registerProvider 0 1 "VCS" 1),
  sampleTx 1 0 (.registerProvider 0 2 "VCS" 2),
  sampleTx 1 0 (.registerProvider 0 3 "VCS" 3),
  sampleTx 2 2 (.addStake 2 10000 0),
  sampleTx 2 3 (.addStake 3 10000 0),
  sampleTx 3 1 (.submitReport 1 sampleProject 0 10 5 .absent "VCS" sampleProject 0),
  sampleTx 4 2 (.verifyReport 2 1 1),
  sampleTx 5 2 (.withdrawStake 2 10000 2),
  sampleTx 6 3 (.verifyReport 3 1 1),
  sampleTx 7 2 (.addStake 2 10000 3)]

/-- Provider 2 verifies once more, which makes two that qualify. -/
def verifierBack : Tx := sampleTx 8 2 (.verifyReport 2 1 4)

/-- The report becomes verified on a stored count of one, below the threshold. -/
theorem verified_below_threshold :
    (getReport (machine.run (constructor 0) (verifierOut ++ [verifierBack])) 1).map
        Report.status = .ok .verified ∧
      getVerificationCount (machine.run (constructor 0) (verifierOut ++ [verifierBack])) 1 = 1 ∧
      ¬ ∀ l e, l ++ [e] <+: machine.log (constructor 0) (verifierOut ++ [verifierBack]) →
        ∀ caller id nonce, e.input.call = .verifyReport caller id nonce →
          CountMatches e.after id := by
  have hcount : getVerificationCount
      (machine.run (constructor 0) (verifierOut ++ [verifierBack])) 1 = 1 := by decide +kernel
  have hqualified : qualifiedVerifiers
      (machine.run (constructor 0) (verifierOut ++ [verifierBack])) 1 = 2 := by decide +kernel
  refine ⟨by decide +kernel, hcount, fun h => ?_⟩
  rcases machine.snoc_cases (constructor 0) verifierOut verifierBack with
    ⟨hrun, -⟩ | ⟨e, -, hinput, -, hrun, hlog⟩
  · -- the last call is accepted, so the report does not stay pending
    have hstatus : (getReport (machine.run (constructor 0) (verifierOut ++ [verifierBack])) 1).map
        Report.status ≠ (getReport (machine.run (constructor 0) verifierOut) 1).map
          Report.status := by decide +kernel
    exact hstatus (by rw [hrun])
  · have hcall : e.input.call = .verifyReport 2 1 4 := by
      rw [hinput]
      rfl
    have hlast : machine.log (constructor 0) verifierOut ++ [e] <+:
        machine.log (constructor 0) (verifierOut ++ [verifierBack]) := by
      rw [hlog]
    have hcurrent := (h _ e hlast 2 1 4 hcall).current
    rw [← hrun, hcount, hqualified] at hcurrent
    cases hcurrent

end EcoMint.OracleConsumer
