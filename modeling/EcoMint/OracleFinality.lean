import EcoMint.CouponDisputes
import EcoMint.OracleQuorum

/-!
# When a report is final

A verified report without a challenge can be reopened by a challenge only, and
a challenge has to come within the window after verification.  The clock does
not run back, so a report that outlived its window is as it is for good; so is
a report whose challenge was resolved.
-/

namespace EcoMint.OracleConsumer

open Fallible Storage

/-- The time a verified report can be challenged. -/
def State.window (s : State) : Nat := s.challengeWindow.getD CHALLENGE_WINDOW_SECONDS

/-- The report is stored as verified, nobody challenged it, and its window is
over at `now`. -/
structure State.Settled (s : State) (now id : Nat) (report : Report) : Prop where
  stored : s.report.get id = some report
  verified : report.status = .verified
  unchallenged : s.challenge.get id = none
  lapsed : report.verifiedAt + s.window < now

/-- A settled report stays settled where its record, its challenge and the window stay. -/
theorem State.Settled.same {s s' : State} {now id : Nat} {report : Report}
    (hs : s.Settled now id report) (hreport : s'.report.get id = s.report.get id)
    (hchallenge : s'.challenge.get id = s.challenge.get id)
    (hwindow : s'.challengeWindow = s.challengeWindow) : s'.Settled now id report where
  stored := hreport.trans hs.stored
  verified := hs.verified
  unchallenged := hchallenge.trans hs.unchallenged
  lapsed := by
    unfold State.window
    rw [hwindow]
    exact hs.lapsed

/-- **Step lemma.**  No call from `now` on touches a report that is settled. -/
theorem State.Settled.step {env : Env} {s s' : State} {call : Call} {now id : Nat}
    {report : Report} (hs : s.Settled now id report) (hindex : ReportIndex s)
    (hstep : OracleStep env s s' call) (hnow : now ≤ env.timestamp) :
    s'.Settled now id report := by
  have hwindow := hstep.challengeWindow
  -- a call that verifies finds a pending report, one that resolves a challenged one
  have hpending : ∀ {other old}, s.report.get other = some old → old.status = .pending →
      id ≠ other := by
    rintro other old hget hstatus rfl
    obtain rfl : report = old := by simpa [hs.stored] using hget
    simp [hs.verified] at hstatus
  have hchallenged : ∀ {other challenge}, s.challenge.get other = some challenge →
      id ≠ other := by
    rintro other challenge hget rfl
    simp [hs.unchallenged] at hget
  cases hstep with
  | managed hstep =>
      have hsame := hstep.sameReports
      exact hs.same (by rw [hsame.report]) (by rw [hsame.challenge]) hwindow
  | submitted added p nonce hcall hprovider hactive hfresh hperiod hsound hapart hafter =>
      have hle := hindex.id_le hs.stored
      have hne : id ≠ s.reportCount + 1 := by omega
      refine hs.same ?_ (by rw [hafter]; rfl) hwindow
      rw [hafter]
      exact get_set_ne _ _ hne
  | counted caller reportId nonce old hcall hcan hafter hshort =>
      obtain ⟨verifiers, counts, hrecorded⟩ := recordVerifier_frame (s.bump caller) caller reportId
      rw [hafter, hrecorded] at hwindow ⊢
      exact hs.same rfl rfl hwindow
  | verified caller reportId nonce old hcall hcan hafter hquorum =>
      obtain ⟨verifiers, counts, hrecorded⟩ := recordVerifier_frame (s.bump caller) caller reportId
      have hne := hpending hcan.stored hcan.pending
      rw [hafter, hrecorded] at hwindow ⊢
      exact hs.same (get_set_ne _ _ hne) rfl hwindow
  | challenged challenger reportId hash nonce old hcall hget hstatus hlimit hfresh hafter =>
      by_cases hid : id = reportId
      · subst hid
        obtain rfl : report = old := by simpa [hs.stored] using hget
        have hlapsed := hs.lapsed
        unfold Report.referenceTime at hlimit
        rw [if_pos hs.verified] at hlimit
        change env.timestamp - report.verifiedAt ≤ s.window at hlimit
        omega
      · rw [hafter] at hwindow ⊢
        exact hs.same (get_set_ne _ _ hid) (get_set_ne _ _ hid) hwindow
  | dismissed caller reportId nonce resolution challenge hcall hadmin hchallenge hclosed hafter =>
      exact hs.same (by rw [hafter]; rfl) (by rw [hafter]; rfl) hwindow
  | upheld caller reportId nonce challenge old hcall hadmin hchallenge hopen hget hafter =>
      have hne := hchallenged hchallenge
      rw [hafter] at hwindow ⊢
      exact hs.same (get_set_ne _ _ hne) (get_set_ne _ _ hne) hwindow
  | rejected caller reportId nonce challenge old p penalty hcall hadmin hchallenge hopen hget
      hprovider hpenalty hafter =>
      have hne := hchallenged hchallenge
      rw [hafter] at hwindow ⊢
      exact hs.same (get_set_ne _ _ hne) (get_set_ne _ _ hne) hwindow

/-- A settled report stays settled for the rest of the run. -/
theorem settled_run (admin : Address) (txs later : List Tx) {now id : Nat} {report : Report}
    (hs : (machine.run (constructor admin) txs).Settled now id report)
    (hlater : ∀ tx ∈ later, now ≤ tx.env.timestamp) :
    (machine.run (constructor admin) (txs ++ later)).Settled now id report := by
  induction later using List.reverseRecOn with
  | nil => simpa using hs
  | append_singleton later tx ih =>
      have hbefore := ih fun tx' htx' => hlater tx' (List.mem_append_left _ htx')
      have hindex := reportIndex_run admin (txs ++ later)
      rw [← List.append_assoc]
      rcases machine.snoc_cases (constructor admin) (txs ++ later) tx with
        ⟨hrun, -⟩ | ⟨e, hfires, hinput, hstart, hrun, -⟩
      · rwa [hrun]
      · rw [← hstart] at hbefore hindex
        rw [hrun]
        refine hbefore.step hindex (oracleStep_of_fires hfires) ?_
        rw [hinput]
        exact hlater tx (List.mem_append_right _ (List.mem_singleton_self tx))

/-- **Finality.**  In a run whose clock does not run back, a report that is
verified and unchallenged when its window is over is the same, and
unchallenged, in every later state; and a report whose challenge was resolved
keeps the status it was resolved to in every later state. -/
theorem reports_final (admin : Address) (txs later : List Tx) (now id : Nat) (report : Report)
    (htimes : (txs.map (fun tx => tx.env.timestamp) ++
      now :: later.map (fun tx => tx.env.timestamp)).Pairwise (· ≤ ·))
    (hget : (machine.run (constructor admin) txs).report.get id = some report) :
    (report.status = .verified → (machine.run (constructor admin) txs).challenge.get id = none →
      report.verifiedAt + (machine.run (constructor admin) txs).window < now →
        (machine.run (constructor admin) (txs ++ later)).report.get id = some report ∧
        (machine.run (constructor admin) (txs ++ later)).challenge.get id = none) ∧
    ∀ status, (machine.run (constructor admin) txs).ResolvedTo id status →
      (status = .verified ∨ status = .rejected) ∧ report.status = status ∧
        (machine.run (constructor admin) (txs ++ later)).report.get id = some report := by
  constructor
  · intro hstatus hnone hlapsed
    obtain ⟨-, hrest, -⟩ := List.pairwise_append.mp htimes
    have hlater : ∀ tx ∈ later, now ≤ tx.env.timestamp := fun tx htx =>
      List.rel_of_pairwise_cons hrest (List.mem_map.mpr ⟨tx, htx, rfl⟩)
    have hsettled := settled_run admin txs later ⟨hget, hstatus, hnone, hlapsed⟩ hlater
    exact ⟨hsettled.stored, hsettled.unchallenged⟩
  · intro status hresolved
    obtain ⟨challenge, hchallenge, hclosed, hresolution⟩ := hresolved
    obtain ⟨-, hkept⟩ := resolved_run admin txs later hchallenge hclosed
    have hmatched := (challengeInvariant_run admin txs).matched id report hget
    rw [hchallenge] at hmatched
    simp only [Report.Matches, hclosed, if_true] at hmatched
    have hsame : report.status = status := by
      have hcode : report.status.toU32 = status.toU32 := hmatched.2.symm.trans hresolution
      revert hcode
      cases report.status <;> cases status <;> simp [ReportStatus.toU32]
    exact ⟨hsame ▸ hmatched.1, hsame, hkept.trans hget⟩

/-- The report of the sample, verified at time 5, when its window is over. -/
def settledReport : Report :=
  ⟨1, 1, sampleProject, 0, 10, 5, .absent, "VCS", sampleProject, .verified, 3, 5, some 0⟩

/-- A challenge that comes too late, then an attempt to verify again. -/
def lateCalls : List Tx := [
  sampleTx 259206 7 (.challengeReport 7 1 sampleProject 0),
  sampleTx 259207 0 (.verifyReport 0 1 4)]

/-- The settled report stays as it is through the late calls. -/
theorem reports_final_sample :
    (machine.run (constructor 0) (sampleVerification ++ lateCalls)).report.get 1 =
      some settledReport :=
  ((reports_final 0 sampleVerification lateCalls 259206 1 settledReport (by decide)
    (by decide +kernel)).1 rfl (by decide +kernel) (by decide +kernel)).1

end EcoMint.OracleConsumer
