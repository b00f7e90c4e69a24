import EcoMint.OracleReports

/-!
# The challenge of a report

Whether a report was challenged, and how the challenge ended, is stored twice:
in the report's status and in the challenge itself.  A report without a
challenge is pending or verified; an open challenge goes with a challenged
report; a resolved one goes with the status it was resolved to, and neither of
the two ever changes again.
-/

namespace EcoMint.OracleConsumer

open Fallible Storage

/-- A report and its challenge, if any, tell the same story. -/
def Report.Matches (report : Report) : Option Challenge → Prop
  | none => report.status = .pending ∨ report.status = .verified
  | some challenge =>
      if challenge.resolved then
        (report.status = .verified ∨ report.status = .rejected) ∧
          challenge.resolution = report.status.toU32
      else report.status = .challenged

/-- A challenge of the report is stored and not yet resolved. -/
def State.OpenChallenge (s : State) (id : Nat) : Prop :=
  ∃ challenge, s.challenge.get id = some challenge ∧ challenge.resolved = false

/-- A challenge of the report was resolved to the status. -/
def State.ResolvedTo (s : State) (id : Nat) (status : ReportStatus) : Prop :=
  ∃ challenge, s.challenge.get id = some challenge ∧ challenge.resolved = true ∧
    challenge.resolution = status.toU32

/-- A report is challenged exactly while its challenge is open. -/
theorem Report.Matches.challenged_iff {s : State} {id : Nat} {report : Report}
    (h : report.Matches (s.challenge.get id)) :
    report.status = .challenged ↔ s.OpenChallenge id := by
  unfold State.OpenChallenge
  cases hget : s.challenge.get id with
  | none =>
      rw [hget] at h
      rcases h with h | h <;> simp [h]
  | some challenge =>
      rw [hget] at h
      by_cases hresolved : challenge.resolved = true
      · simp only [Report.Matches, hresolved, if_true] at h
        rcases h.1 with hstatus | hstatus <;> simp [hstatus, hresolved]
      · simp only [Report.Matches, hresolved] at h
        simpa [Bool.eq_false_iff.mpr hresolved] using h

/-- A report is rejected exactly when its challenge was resolved so. -/
theorem Report.Matches.rejected_iff {s : State} {id : Nat} {report : Report}
    (h : report.Matches (s.challenge.get id)) :
    report.status = .rejected ↔ s.ResolvedTo id .rejected := by
  unfold State.ResolvedTo
  cases hget : s.challenge.get id with
  | none =>
      rw [hget] at h
      rcases h with h | h <;> simp [h]
  | some challenge =>
      rw [hget] at h
      by_cases hresolved : challenge.resolved = true
      · simp only [Report.Matches, hresolved, if_true] at h
        rcases h.1 with hstatus | hstatus <;>
          simp [hstatus, hresolved, h.2, ReportStatus.toU32]
      · have hopen : challenge.resolved = false := Bool.eq_false_iff.mpr hresolved
        simp only [Report.Matches, hopen] at h
        have hstatus : report.status = .challenged := by simpa using h
        simp [hstatus, hopen]

/-- A pending report has no challenge. -/
theorem Report.Matches.unchallenged {report : Report} {challenge : Option Challenge}
    (h : report.Matches challenge) (hpending : report.status = .pending) : challenge = none := by
  cases challenge with
  | none => rfl
  | some challenge =>
      simp only [Report.Matches, hpending] at h
      split at h
      · rcases h.1 with hstatus | hstatus <;> cases hstatus
      · cases h

/-- The reports of a provider that were challenged, as indexed. -/
def State.challengesOf (s : State) (provider : Address) : List Nat :=
  (s.providerChallenges.get provider).getD []

/-- An accepted challenge of the report. -/
def LogEntry.files (id : Nat) (e : LogEntry) : Bool :=
  match e.input.call with
  | .challengeReport _ reportId _ _ => decide (reportId = id)
  | _ => false

/-- Every report matches its challenge, no challenge is without a report, each
was filed once, and the index by provider is complete. -/
structure ChallengeInvariant (s : State) (l : List LogEntry) : Prop where
  matched : ∀ id report, s.report.get id = some report → report.Matches (s.challenge.get id)
  based : ∀ id, s.report.get id = none → s.challenge.get id = none
  filed : ∀ id, l.countP (LogEntry.files id) = if (s.challenge.get id).isSome then 1 else 0
  nodup : ∀ provider, (s.challengesOf provider).Nodup
  listed : ∀ provider id, id ∈ s.challengesOf provider ↔
    ∃ report, s.report.get id = some report ∧ report.provider = provider ∧
      (s.challenge.get id).isSome = true

theorem challengeInvariant_constructor (admin : Address) :
    ChallengeInvariant (constructor admin) [] := by
  constructor <;> simp [constructor, State.challengesOf]

/-! ## What one call preserves -/

/-- A call other than a challenge files nothing. -/
theorem countP_files_snoc {l : List LogEntry} {e : LogEntry}
    (h : ∀ challenger reportId hash nonce,
      e.input.call ≠ .challengeReport challenger reportId hash nonce) (id : Nat) :
    (l ++ [e]).countP (LogEntry.files id) = l.countP (LogEntry.files id) := by
  have hnot : LogEntry.files id e = false := by
    unfold LogEntry.files
    split
    · next hcall => exact absurd hcall (h _ _ _ _)
    · rfl
  simp [hnot]

/-- Nothing about reports and challenges changes. -/
theorem ChallengeInvariant.same {s s' : State} {l l' : List LogEntry}
    (hs : ChallengeInvariant s l) (hreport : s'.report = s.report)
    (hchallenge : s'.challenge = s.challenge)
    (hlist : s'.providerChallenges = s.providerChallenges)
    (hfiled : ∀ id, l'.countP (LogEntry.files id) = l.countP (LogEntry.files id)) :
    ChallengeInvariant s' l' where
  matched := by rw [hreport, hchallenge]; exact hs.matched
  based := by rw [hreport, hchallenge]; exact hs.based
  filed id := by rw [hfiled, hchallenge]; exact hs.filed id
  nodup := by unfold State.challengesOf; rw [hlist]; exact hs.nodup
  listed := by
    unfold State.challengesOf
    rw [hlist, hreport, hchallenge]
    exact hs.listed

/-- One report is written, challenged exactly if it was before. -/
theorem ChallengeInvariant.move {s s' : State} {l l' : List LogEntry}
    (hs : ChallengeInvariant s l) (id : Nat) (report : Report)
    (hreport : s'.report = s.report.set id report)
    (hprovider : ∀ old, s.report.get id = some old → old.provider = report.provider)
    (hothers : ∀ other, other ≠ id → s'.challenge.get other = s.challenge.get other)
    (hsome : (s'.challenge.get id).isSome = (s.challenge.get id).isSome)
    (hmatched : report.Matches (s'.challenge.get id))
    (hlist : s'.providerChallenges = s.providerChallenges)
    (hfiled : ∀ id, l'.countP (LogEntry.files id) = l.countP (LogEntry.files id)) :
    ChallengeInvariant s' l' := by
  have hsomeAll : ∀ other, (s'.challenge.get other).isSome = (s.challenge.get other).isSome := by
    intro other
    by_cases hother : other = id
    · rw [hother, hsome]
    · rw [hothers other hother]
  constructor
  case matched =>
    intro other stored hget
    rw [hreport, get_set] at hget
    split at hget
    · next hother =>
        obtain rfl := Option.some.inj hget
        exact hother ▸ hmatched
    · next hother =>
        rw [hothers other hother]
        exact hs.matched other stored hget
  case based =>
    intro other hget
    rw [hreport, get_set] at hget
    split at hget
    · cases hget
    · next hother =>
        rw [hothers other hother]
        exact hs.based other hget
  case filed =>
    intro other
    rw [hfiled, hsomeAll, hs.filed]
  case nodup =>
    unfold State.challengesOf
    rw [hlist]
    exact hs.nodup
  case listed =>
    intro provider other
    have hbefore : other ∈ s'.challengesOf provider ↔ other ∈ s.challengesOf provider := by
      unfold State.challengesOf
      rw [hlist]
    rw [hbefore, hs.listed, hsomeAll, hreport, get_set]
    by_cases hother : other = id
    · subst hother
      rw [if_pos rfl]
      constructor
      · intro h
        obtain ⟨old, hget, howner, hchallenged⟩ := h
        exact ⟨report, rfl, (hprovider old hget) ▸ howner, hchallenged⟩
      · intro h
        obtain ⟨stored, hstored, howner, hchallenged⟩ := h
        obtain rfl := Option.some.inj hstored
        cases hget : s.report.get other with
        | none => simp [hs.based other hget] at hchallenged
        | some old => exact ⟨old, rfl, (hprovider old hget).trans howner, hchallenged⟩
    · rw [if_neg hother]

/-- An unchallenged report is challenged. -/
theorem ChallengeInvariant.challenge {s : State} {l : List LogEntry} (hs : ChallengeInvariant s l)
    {id : Nat} {report : Report} {challenge : Challenge} {e : LogEntry}
    (hget : s.report.get id = some report) (hnone : s.challenge.get id = none)
    (hopen : challenge.resolved = false)
    (hfiles : ∀ other, LogEntry.files other e = decide (id = other)) :
    ChallengeInvariant (s.addChallenge id report challenge) (l ++ [e]) := by
  have hchallenge : ∀ other, (s.addChallenge id report challenge).challenge.get other =
      if other = id then some challenge else s.challenge.get other := by
    intro other
    exact get_set _ _ _ _
  have hreport : ∀ other, (s.addChallenge id report challenge).report.get other =
      if other = id then some { report with status := .challenged } else s.report.get other := by
    intro other
    exact get_set _ _ _ _
  have hlist : ∀ provider, (s.addChallenge id report challenge).challengesOf provider =
      if provider = report.provider then s.challengesOf provider ++ [id]
      else s.challengesOf provider := by
    intro provider
    show ((s.providerChallenges.set _ _).get provider).getD [] = _
    rw [get_set]
    split
    · next howner => rw [howner]; rfl
    · rfl
  have hfresh : ∀ provider, id ∉ s.challengesOf provider := by
    intro provider hlisted
    obtain ⟨_, _, _, hsome⟩ := (hs.listed provider id).mp hlisted
    simp [hnone] at hsome
  constructor
  case matched =>
    intro other stored hstored
    rw [hreport] at hstored
    rw [hchallenge]
    split at hstored
    · next hother =>
        obtain rfl := Option.some.inj hstored
        rw [if_pos hother]
        simp [Report.Matches, hopen]
    · next hother =>
        rw [if_neg hother]
        exact hs.matched other stored hstored
  case based =>
    intro other hstored
    rw [hreport] at hstored
    rw [hchallenge]
    split at hstored
    · cases hstored
    · next hother =>
        rw [if_neg hother]
        exact hs.based other hstored
  case filed =>
    intro other
    have hcount := hs.filed other
    rw [List.countP_append, List.countP_singleton, hfiles, hcount, hchallenge]
    by_cases hother : other = id
    · simp [hother, hnone]
    · have hother' : id ≠ other := fun h => hother h.symm
      simp [hother, hother']
  case nodup =>
    intro provider
    rw [hlist]
    split
    · rw [← List.concat_eq_append]
      exact (hs.nodup provider).concat (hfresh provider)
    · exact hs.nodup provider
  case listed =>
    intro provider other
    rw [hlist, hreport, hchallenge]
    by_cases hother : other = id
    · subst hother
      rw [if_pos rfl, if_pos rfl]
      constructor
      · intro hlisted
        split at hlisted
        · next howner => exact ⟨_, rfl, howner.symm, rfl⟩
        · exact absurd hlisted (hfresh provider)
      · intro h
        obtain ⟨stored, hstored, howner, -⟩ := h
        obtain rfl := Option.some.inj hstored
        have howner' : provider = report.provider := howner.symm
        rw [if_pos howner']
        simp
    · rw [if_neg hother, if_neg hother, ← hs.listed]
      split
      · simp [hother]
      · rfl

/-- The challenge of a report is settled; whatever else is written concerns
neither reports nor challenges. -/
theorem ChallengeInvariant.settle {s s' : State} {l l' : List LogEntry}
    (hs : ChallengeInvariant s l) {id : Nat} {report : Report} {challenge : Challenge}
    {resolution : ReportStatus}
    (hreport : s'.report = (s.settle id challenge report resolution).report)
    (hchallenge : s'.challenge = (s.settle id challenge report resolution).challenge)
    (hlist : s'.providerChallenges = s.providerChallenges)
    (hget : s.report.get id = some report) (hstored : s.challenge.get id = some challenge)
    (hresolution : resolution = .verified ∨ resolution = .rejected)
    (hfiled : ∀ id, l'.countP (LogEntry.files id) = l.countP (LogEntry.files id)) :
    ChallengeInvariant s' l' := by
  have hset : ∀ other, s'.challenge.get other = if other = id then
      some { challenge with resolved := true, resolution := resolution.toU32 }
      else s.challenge.get other := by
    intro other
    rw [hchallenge]
    exact get_set _ _ _ _
  refine hs.move id _ hreport ?_ ?_ ?_ ?_ hlist hfiled
  · intro old hold
    obtain rfl : report = old := by simpa [hget] using hold
    rfl
  · intro other hother
    rw [hset, if_neg hother]
  · rw [hset, if_pos rfl, hstored]
    rfl
  · rw [hset, if_pos rfl]
    exact ⟨hresolution, rfl⟩

/-- **Step lemma** for the challenges. -/
theorem ChallengeInvariant.step {l : List LogEntry} {e : LogEntry}
    (hs : ChallengeInvariant e.before l) (hindex : ReportIndex e.before)
    (hstep : OracleStep e.input.env e.before e.after e.input.call) :
    ChallengeInvariant e.after (l ++ [e]) := by
  cases hstep with
  | managed hstep =>
      have hsame := hstep.sameReports
      apply hs.same hsame.report hsame.challenge hsame.providerChallenges
      apply countP_files_snoc
      intro challenger reportId hash nonce hcall
      exact (hcall ▸ hstep.manages : Call.Manages (.challengeReport challenger reportId hash nonce))
  | submitted report p nonce hcall hprovider hactive hfresh hperiod hsound hapart hafter =>
      have hunused : e.before.report.get (e.before.reportCount + 1) = none :=
        hindex.unused _ (Nat.lt_succ_self _)
      have hnone := hs.based _ hunused
      rw [hafter]
      refine hs.move (e.before.reportCount + 1) report rfl ?_ ?_ rfl ?_ rfl ?_
      · intro old hold
        rw [hunused] at hold
        cases hold
      · intro other hother
        rfl
      · have hpending : report.Matches none := Or.inl hfresh.status_eq
        exact hnone ▸ hpending
      · exact countP_files_snoc (by simp [hcall])
  | counted caller reportId nonce report hcall hcan hafter hshort =>
      obtain ⟨verifiers, counts, hrecorded⟩ :=
        recordVerifier_frame (e.before.bump caller) caller reportId
      rw [hafter, hrecorded]
      exact hs.same rfl rfl rfl (countP_files_snoc (by simp [hcall]))
  | verified caller reportId nonce report hcall hcan hafter hquorum =>
      obtain ⟨verifiers, counts, hrecorded⟩ :=
        recordVerifier_frame (e.before.bump caller) caller reportId
      rw [hafter, hrecorded]
      refine hs.move reportId _ rfl ?_ (fun other hother => rfl) rfl ?_ rfl
        (countP_files_snoc (by simp [hcall]))
      · intro old hold
        obtain rfl : report = old := by simpa [hcan.stored] using hold
        rfl
      · have hverified : Report.Matches
            (report.verify e.input.env (e.before.stakeOf report.provider)) none := Or.inr rfl
        exact hcan.unchallenged ▸ hverified
  | challenged challenger reportId hash nonce report hcall hget hstatus hwindow hfresh hafter =>
      rw [hafter]
      have hbumped : ChallengeInvariant (e.before.bump challenger) l :=
        ⟨hs.matched, hs.based, hs.filed, hs.nodup, hs.listed⟩
      apply hbumped.challenge hget hfresh rfl
      intro other
      simp [LogEntry.files, hcall]
  | dismissed caller reportId nonce resolution challenge hcall hadmin hchallenge hclosed hafter =>
      rw [hafter]
      exact hs.same rfl rfl rfl (countP_files_snoc (by simp [hcall]))
  | upheld caller reportId nonce challenge report hcall hadmin hchallenge hopen hget hafter =>
      rw [hafter]
      exact hs.settle rfl rfl rfl hget hchallenge (Or.inl rfl) (countP_files_snoc (by simp [hcall]))
  | rejected caller reportId nonce challenge report p penalty hcall hadmin hchallenge hopen hget
      hprovider hpenalty hafter =>
      rw [hafter]
      exact hs.settle rfl rfl rfl hget hchallenge (Or.inr rfl) (countP_files_snoc (by simp [hcall]))

/-- The invariant of the challenges holds after every run. -/
theorem challengeInvariant_run (admin : Address) (txs : List Tx) :
    ChallengeInvariant (machine.run (constructor admin) txs)
      (machine.log (constructor admin) txs) := by
  refine machine.invariant_under (I := fun s _ => ReportIndex s) (P := ChallengeInvariant)
    (reportIndex_run admin) (challengeInvariant_constructor admin) ?_ txs
  intro l e hfires hindex hs
  exact hs.step hindex (oracleStep_of_fires hfires)

/-! ## A resolved challenge is final -/

/-- No call touches a resolved challenge or its report. -/
theorem resolved_step {l : List LogEntry} {e : LogEntry} (hs : ChallengeInvariant e.before l)
    (hindex : ReportIndex e.before)
    (hstep : OracleStep e.input.env e.before e.after e.input.call) {id : Nat}
    {challenge : Challenge} (hget : e.before.challenge.get id = some challenge)
    (hresolved : challenge.resolved = true) :
    e.after.challenge.get id = some challenge ∧
      e.after.report.get id = e.before.report.get id := by
  -- A call that writes a report finds it unchallenged or its challenge open.
  have hunresolved : ∀ {other other'}, e.before.challenge.get other = some other' →
      other'.resolved = false → id ≠ other := by
    intro other other' hother hopen heq
    subst heq
    obtain rfl : challenge = other' := by simpa [hget] using hother
    rw [hresolved] at hopen
    cases hopen
  have hunchallenged : ∀ {other}, e.before.challenge.get other = none → id ≠ other := by
    intro other hnone heq
    subst heq
    rw [hget] at hnone
    cases hnone
  cases hstep with
  | managed hstep =>
      have hsame := hstep.sameReports
      rw [hsame.challenge, hsame.report]
      exact ⟨hget, rfl⟩
  | submitted report p nonce hcall hprovider hactive hfresh hperiod hsound hapart hafter =>
      have hne : id ≠ e.before.reportCount + 1 :=
        hunchallenged (hs.based _ (hindex.unused _ (Nat.lt_succ_self _)))
      rw [hafter]
      exact ⟨hget, get_set_ne _ _ hne⟩
  | counted caller reportId nonce report hcall hcan hafter hshort =>
      obtain ⟨verifiers, counts, hrecorded⟩ :=
        recordVerifier_frame (e.before.bump caller) caller reportId
      rw [hafter, hrecorded]
      exact ⟨hget, rfl⟩
  | verified caller reportId nonce report hcall hcan hafter hquorum =>
      obtain ⟨verifiers, counts, hrecorded⟩ :=
        recordVerifier_frame (e.before.bump caller) caller reportId
      have hne := hunchallenged hcan.unchallenged
      rw [hafter, hrecorded]
      exact ⟨hget, get_set_ne _ _ hne⟩
  | challenged challenger reportId hash nonce report hcall hreport hstatus hwindow hfresh hafter =>
      have hne := hunchallenged hfresh
      rw [hafter]
      exact ⟨(get_set_ne _ _ hne).trans hget, get_set_ne _ _ hne⟩
  | dismissed caller reportId nonce resolution other hcall hadmin hother hclosed hafter =>
      rw [hafter]
      exact ⟨hget, rfl⟩
  | upheld caller reportId nonce other report hcall hadmin hother hopen hreport hafter =>
      have hne := hunresolved hother hopen
      rw [hafter]
      exact ⟨(get_set_ne _ _ hne).trans hget, get_set_ne _ _ hne⟩
  | rejected caller reportId nonce other report p penalty hcall hadmin hother hopen hreport
      hprovider hpenalty hafter =>
      have hne := hunresolved hother hopen
      rw [hafter]
      exact ⟨(get_set_ne _ _ hne).trans hget, get_set_ne _ _ hne⟩

/-- A resolved challenge and its report stay as they are for the rest of the run. -/
theorem resolved_run (admin : Address) (txs later : List Tx) {id : Nat} {challenge : Challenge}
    (hget : (machine.run (constructor admin) txs).challenge.get id = some challenge)
    (hresolved : challenge.resolved = true) :
    (machine.run (constructor admin) (txs ++ later)).challenge.get id = some challenge ∧
      (machine.run (constructor admin) (txs ++ later)).report.get id =
        (machine.run (constructor admin) txs).report.get id := by
  induction later using List.reverseRecOn with
  | nil => simp [hget]
  | append_singleton later tx ih =>
      rw [← List.append_assoc]
      rcases machine.snoc_cases (constructor admin) (txs ++ later) tx with
        ⟨hrun, -⟩ | ⟨e, hfires, -, hbefore, hrun, -⟩
      · rwa [hrun]
      · have hs := challengeInvariant_run admin (txs ++ later)
        have hindex := reportIndex_run admin (txs ++ later)
        rw [← hbefore] at hs hindex ih
        rw [hrun]
        obtain ⟨hchallenge, hreport⟩ :=
          resolved_step hs hindex (oracleStep_of_fires hfires) ih.1 hresolved
        exact ⟨hchallenge, hreport.trans ih.2⟩

/-- Resolving a resolved challenge again uses up the caller's nonce, and that is
all. -/
theorem resolve_again {env : Env} {s s' : State} {caller : Address} {id nonce : Nat}
    {resolution : ReportStatus} {out : Output} {challenge : Challenge}
    (hget : s.challenge.get id = some challenge) (hresolved : challenge.resolved = true)
    (h : exec env s (.resolveChallenge caller id resolution nonce) = .ok (out, s')) :
    s' = s.bump caller := by
  have hresolve := (silent_ok_iff.mp h).1
  simp only [resolveChallenge, consumeNonce_ok_iff, bind_ok_iff, rejectIf_ok_iff, okOr_ok_iff,
    requireAdmin_ok_iff] at hresolve
  obtain ⟨_, _, _, ⟨_, rfl⟩, _, _, _, _, found, hfound, hresolve⟩ := hresolve
  obtain rfl : challenge = found := by
    have hfound' : s.challenge.get id = some found := hfound
    simpa [hget] using hfound'
  rw [if_pos hresolved] at hresolve
  exact (pure_ok_iff.mp hresolve).symm

/-- **The life of a challenge.**  In every reachable storage each report was
challenged at most once; its status tells whether the challenge is open, and
how a resolved one ended; a resolved challenge is final together with the
report; and the challenges are indexed by provider without gap or repetition. -/
theorem challenge_lifecycle (admin : Address) (txs : List Tx) :
    (∀ id report, (machine.run (constructor admin) txs).report.get id = some report →
      ((machine.log (constructor admin) txs).countP (LogEntry.files id) ≤ 1 ∧
        (((machine.run (constructor admin) txs).challenge.get id).isSome = true ↔
          (machine.log (constructor admin) txs).countP (LogEntry.files id) = 1)) ∧
      (report.status = .challenged ↔
        (machine.run (constructor admin) txs).OpenChallenge id) ∧
      (report.status = .rejected ↔
        (machine.run (constructor admin) txs).ResolvedTo id .rejected) ∧
      (report.status = .pending →
        (machine.run (constructor admin) txs).challenge.get id = none) ∧
      ∀ challenge, (machine.run (constructor admin) txs).challenge.get id = some challenge →
        challenge.resolved = true →
        (∀ later,
          (machine.run (constructor admin) (txs ++ later)).challenge.get id = some challenge ∧
          (machine.run (constructor admin) (txs ++ later)).report.get id = some report) ∧
        ∀ env caller resolution nonce out s',
          exec env (machine.run (constructor admin) txs)
              (.resolveChallenge caller id resolution nonce) = .ok (out, s') →
            s' = (machine.run (constructor admin) txs).bump caller) ∧
    ∀ provider, ((machine.run (constructor admin) txs).challengesOf provider).Nodup ∧
      ∀ id, id ∈ (machine.run (constructor admin) txs).challengesOf provider ↔
        ∃ report, (machine.run (constructor admin) txs).report.get id = some report ∧
          report.provider = provider ∧
          ((machine.run (constructor admin) txs).challenge.get id).isSome = true := by
  have hs := challengeInvariant_run admin txs
  refine ⟨?_, fun provider => ⟨hs.nodup provider, hs.listed provider⟩⟩
  intro id report hget
  have hmatched := hs.matched id report hget
  refine ⟨?_, hmatched.challenged_iff, hmatched.rejected_iff, hmatched.unchallenged, ?_⟩
  · rw [hs.filed id]
    split <;> simp [*]
  · intro challenge hchallenge hresolved
    constructor
    · intro later
      obtain ⟨hkept, hreport⟩ := resolved_run admin txs later hchallenge hresolved
      exact ⟨hkept, hreport.trans hget⟩
    · intro env caller resolution nonce out s' hexec
      exact resolve_again hchallenge hresolved hexec

end EcoMint.OracleConsumer
