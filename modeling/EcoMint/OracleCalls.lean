import EcoMint.OracleConsumer

/-!
# Runs of the oracle consumer

The oracle consumer as a machine that anyone may call in any order, and one
rule for each entry point saying when it succeeds and what it writes.  The
rules come together in `OracleStep`; the invariants of whole runs are derived
from it and unfold no entry point.
-/

namespace EcoMint.OracleConsumer

open Fallible IntRange

/-- A transaction: the call and its environment. -/
structure Tx where
  env : Env
  call : Call

/-- The oracle consumer on its own, called by anyone in any order. -/
def machine : Machine State Tx Output (Failure OracleError) where
  call s tx := exec tx.env s tx.call

/-- A successful transaction, with the states around it. -/
abbrev LogEntry := Event State Tx Output

/-! ## What the calls write -/

/-- The storage after `addr` used up its nonce. -/
def State.bump (s : State) (addr : Address) : State :=
  { s with nonce := s.nonce.set addr (s.nonce.read addr + 1) }

/-- The storage with a report added under the next id. -/
def State.addReport (s : State) (report : Report) : State :=
  { s with
    reportCount := s.reportCount + 1
    report := s.report.set (s.reportCount + 1) report
    projectReports := s.projectReports.set report.projectId
      (getProjectReports s report.projectId ++ [s.reportCount + 1])
    providerReportCount := s.providerReportCount.set report.provider
      (s.providerReportCount.read report.provider + 1) }

/-- The storage with a challenge of a report added. -/
def State.addChallenge (s : State) (reportId : Nat) (report : Report)
    (challenge : Challenge) : State :=
  { s with
    challenge := s.challenge.set reportId challenge
    report := s.report.set reportId { report with status := .challenged }
    providerChallenges := s.providerChallenges.set report.provider
      ((s.providerChallenges.get report.provider).getD [] ++ [reportId]) }

/-- The storage with a challenge settled one way or the other. -/
def State.settle (s : State) (reportId : Nat) (challenge : Challenge) (report : Report)
    (resolution : ReportStatus) : State :=
  { s with
    challenge := s.challenge.set reportId
      { challenge with resolved := true, resolution := resolution.toU32 }
    report := s.report.set reportId { report with status := resolution } }

/-- A provider after a slash. -/
def OracleProvider.slashed (p : OracleProvider) (penalty : Int) : OracleProvider :=
  { p with
    stake := p.stake - penalty
    active := if p.stake - penalty = 0 then false else p.active }

/-- The storage with a provider slashed and the slash on record. -/
def State.slash (s : State) (env : Env) (provider : Address) (reportId : Nat)
    (p : OracleProvider) (penalty : Int) : State :=
  { s with
    provider := s.provider.set provider (p.slashed penalty)
    slashHistory := s.slashHistory.set provider (getSlashHistory s provider ++
      [{ reportId, penalty, remainingStake := p.stake - penalty, timestamp := env.timestamp
         activeAfter := (p.slashed penalty).active }]) }

/-- A report as it is when submitted. -/
structure Report.Fresh (env : Env) (s : State) (report : Report) : Prop where
  id_eq : report.id = s.reportCount + 1
  status_eq : report.status = .pending
  submittedAt_eq : report.submittedAt = env.timestamp
  verifiedAt_eq : report.verifiedAt = 0
  stake_eq : report.providerStakeAtVerification = none

/-- Two reports of one provider by one methodology whose periods meet. -/
def Report.Conflicts (report existing : Report) : Prop :=
  existing.provider = report.provider ∧ existing.methodology = report.methodology ∧
    overlaps report.periodStart report.periodEnd existing

/-- A report after verification. -/
def Report.verify (report : Report) (env : Env) (providerStake : Int) : Report :=
  { report with
    status := .verified
    verifiedAt := env.timestamp
    providerStakeAtVerification := some providerStake }

/-- The stake of an address, zero when it is no provider. -/
def State.stakeOf (s : State) (addr : Address) : Int :=
  ((s.provider.get addr).map OracleProvider.stake).getD 0

/-- The verifiers of a report once the caller is among them. -/
def verifiersWith (s : State) (caller : Address) (reportId : Nat) : List Address :=
  if caller ∈ getReportVerifiers s reportId then getReportVerifiers s reportId
  else getReportVerifiers s reportId ++ [caller]

/-- The caller may verify the report. -/
structure CanVerify (s : State) (caller : Address) (reportId : Nat) (report : Report) : Prop where
  stored : s.report.get reportId = some report
  pending : report.status = .pending
  unchallenged : s.challenge.get reportId = none
  foreign : caller ≠ report.provider
  qualified : qualifies s caller = true

/-- The time from which the challenge window of a report counts. -/
def Report.referenceTime (report : Report) : Nat :=
  if report.status = .verified then report.verifiedAt else report.submittedAt

/-! ## When a call succeeds -/

/-- A nonce is taken if it is the next one, and then one more is used. -/
theorem consumeNonce_ok_iff {s s' : State} {addr : Address} {nonce : Nat} :
    consumeNonce s addr nonce = .ok s' ↔ nonce = s.nonce.read addr ∧ s.bump addr = s' := by
  simp [consumeNonce, State.bump]

/-- Only the administrator passes. -/
theorem requireAdmin_ok_iff {s : State} {caller : Address} {u : Unit} :
    requireAdmin s caller = .ok u ↔ s.admin = some caller := by
  simp [requireAdmin]

/-- The check passes exactly if no report of the same source overlaps. -/
theorem checkOverlap_ok_iff {s : State} {report : Report} {ids : List Nat} {u : Unit} :
    checkOverlap s report.provider report.methodology report.periodStart report.periodEnd ids =
        .ok u ↔
      ∀ id ∈ ids, ∃ existing, s.report.get id = some existing ∧ ¬ report.Conflicts existing := by
  induction ids with
  | nil => simp [checkOverlap]
  | cons id rest ih =>
      simp only [checkOverlap, bind_ok_iff, okOr_ok_iff, rejectIf_ok_iff, ih, List.mem_cons,
        forall_eq_or_imp]
      constructor
      · intro h
        obtain ⟨existing, hget, _, hapart, hrest⟩ := h
        exact ⟨⟨existing, hget, hapart⟩, hrest⟩
      · intro h
        obtain ⟨⟨existing, hget, hapart⟩, hrest⟩ := h
        exact ⟨existing, hget, (), hapart, hrest⟩

/-- Those pass that qualify as verifiers. -/
theorem checkVerifier_ok_iff {s : State} {caller : Address} {u : Unit} :
    checkVerifier s caller = .ok u ↔ qualifies s caller = true := by
  have hisOk : (requireAdmin s caller).isOk = true ↔ s.admin = some caller := by
    rw [← requireAdmin_ok_iff (u := ())]
    cases requireAdmin s caller <;> simp [Except.isOk, Except.toBool]
  unfold checkVerifier qualifies
  by_cases hadmin : s.admin = some caller
  · simp [hisOk.mpr hadmin, hadmin]
  · have hnot : (requireAdmin s caller).isOk = false :=
      Bool.eq_false_iff.mpr fun h => hadmin (hisOk.mp h)
    cases hget : s.provider.get caller with
    | none => simp [hnot, hadmin, okOr]
    | some p => simp [hnot, hadmin, okOr]

/-- When a provider is slashed, and the state it leaves. -/
theorem slashProvider_ok_iff {env : Env} {s s' : State} {provider : Address} {reportId : Nat} :
    slashProvider env s provider reportId = .ok s' ↔
      ∃ p penalty, s.provider.get provider = some p ∧ slashPenalty env p.stake = .ok penalty ∧
        s.slash env provider reportId p penalty = s' := by
  simp only [slashProvider, bind_ok_iff, pure_ok_iff, okOr_ok_iff]
  constructor
  · intro h
    obtain ⟨p, hget, penalty, hpenalty, hafter⟩ := h
    exact ⟨p, penalty, hget, hpenalty, hafter⟩
  · intro h
    obtain ⟨p, penalty, hget, hpenalty, hafter⟩ := h
    exact ⟨p, hget, penalty, hpenalty, hafter⟩

/-! ## The step relation -/

/-- A successful call that concerns providers and settings only. -/
inductive ProviderStep (env : Env) (s s' : State) (call : Call) : Prop
  | administered (currentAdmin newAdmin : Address) (hcall : call = .setAdmin currentAdmin newAdmin)
      (hadmin : s.admin = some currentAdmin)
      (hafter : s' = { s with admin := some newAdmin })
  | registered (caller provider : Address) (methodology : Symbol) (nonce : Nat)
      (hcall : call = .registerProvider caller provider methodology nonce)
      (hadmin : s.admin = some caller) (hnew : s.provider.get provider = none)
      (hafter : s' = { s.bump caller with
        provider := s.provider.set provider
          { address := provider, methodology, stake := 0, active := true
            registeredAt := env.timestamp }
        providerList := s.providerList ++ [provider] })
  | removed (caller provider : Address) (nonce : Nat) (p : OracleProvider)
      (hcall : call = .removeProvider caller provider nonce)
      (hadmin : s.admin = some caller) (hget : s.provider.get provider = some p)
      (hafter : s' = { s.bump caller with
        provider := s.provider.set provider { p with active := false } })
  | thresholdSet (caller : Address) (threshold nonce : Nat)
      (hcall : call = .setSignatureThreshold caller threshold nonce)
      (hadmin : s.admin = some caller)
      (hafter : s' = { s.bump caller with signatureThreshold := some threshold })
  | minimumSet (caller : Address) (stake : Int) (nonce : Nat)
      (hcall : call = .setMinimumVerifierStake caller stake nonce)
      (hadmin : s.admin = some caller) (hstake : 0 ≤ stake)
      (hafter : s' = { s.bump caller with minimumVerifierStake := some stake })
  | staked (provider : Address) (amount : Int) (nonce : Nat) (p : OracleProvider)
      (hcall : call = .addStake provider amount nonce) (hamount : 0 < amount)
      (hget : s.provider.get provider = some p) (hrange : i128.Fits (p.stake + amount))
      (hafter : s' = { s.bump provider with
        provider := s.provider.set provider { p with stake := p.stake + amount } })
  | withdrawn (provider : Address) (amount : Int) (nonce : Nat) (p : OracleProvider)
      (hcall : call = .withdrawStake provider amount nonce) (hamount : 0 < amount)
      (hget : s.provider.get provider = some p) (hcovered : amount ≤ p.stake)
      (hafter : s' = { s.bump provider with
        provider := s.provider.set provider { p with stake := p.stake - amount } })

/-- **What a successful call does**: manage providers and settings, submit a
report, count or complete its verification, challenge it, or settle the
challenge (again). -/
inductive OracleStep (env : Env) (s s' : State) (call : Call) : Prop
  | managed (hstep : ProviderStep env s s' call)
  | submitted (report : Report) (p : OracleProvider) (nonce : Nat)
      (hcall : call = .submitReport report.provider report.projectId report.periodStart
        report.periodEnd report.carbonSequestered report.biodiversity report.methodology
        report.ipfsEvidenceHash nonce)
      (hprovider : s.provider.get report.provider = some p) (hactive : p.active = true)
      (hfresh : report.Fresh env s) (hperiod : report.periodStart < report.periodEnd)
      (hsound : report.Sound)
      (hapart : ∀ id ∈ getProjectReports s report.projectId,
        ∃ existing, s.report.get id = some existing ∧ ¬ report.Conflicts existing)
      (hafter : s' = (s.bump report.provider).addReport report)
  | counted (caller : Address) (reportId nonce : Nat) (report : Report)
      (hcall : call = .verifyReport caller reportId nonce)
      (hcan : CanVerify s caller reportId report)
      (hafter : s' = recordVerifier (s.bump caller) caller reportId)
      (hshort : qualifyingVerifierCount s (verifiersWith s caller reportId) <
        getSignatureThreshold s)
  | verified (caller : Address) (reportId nonce : Nat) (report : Report)
      (hcall : call = .verifyReport caller reportId nonce)
      (hcan : CanVerify s caller reportId report)
      (hafter : s' = { recordVerifier (s.bump caller) caller reportId with
        report := s.report.set reportId (report.verify env (s.stakeOf report.provider)) })
      (hquorum : getSignatureThreshold s ≤
        qualifyingVerifierCount s (verifiersWith s caller reportId))
  | challenged (challenger : Address) (reportId : Nat) (counterEvidenceHash : BytesN 32)
      (nonce : Nat) (report : Report)
      (hcall : call = .challengeReport challenger reportId counterEvidenceHash nonce)
      (hget : s.report.get reportId = some report)
      (hstatus : report.status = .pending ∨ report.status = .verified)
      (hwindow : env.timestamp - report.referenceTime ≤
        s.challengeWindow.getD CHALLENGE_WINDOW_SECONDS)
      (hfresh : s.challenge.get reportId = none)
      (hafter : s' = (s.bump challenger).addChallenge reportId report
        { reportId, challenger, counterEvidenceHash, submittedAt := env.timestamp
          resolved := false, resolution := 0 })
  | dismissed (caller : Address) (reportId nonce : Nat) (resolution : ReportStatus)
      (challenge : Challenge)
      (hcall : call = .resolveChallenge caller reportId resolution nonce)
      (hadmin : s.admin = some caller)
      (hchallenge : s.challenge.get reportId = some challenge)
      (hclosed : challenge.resolved = true) (hafter : s' = s.bump caller)
  | upheld (caller : Address) (reportId nonce : Nat) (challenge : Challenge) (report : Report)
      (hcall : call = .resolveChallenge caller reportId .verified nonce)
      (hadmin : s.admin = some caller)
      (hchallenge : s.challenge.get reportId = some challenge)
      (hopen : challenge.resolved = false) (hget : s.report.get reportId = some report)
      (hafter : s' = (s.bump caller).settle reportId challenge report .verified)
  | rejected (caller : Address) (reportId nonce : Nat) (challenge : Challenge) (report : Report)
      (p : OracleProvider) (penalty : Int)
      (hcall : call = .resolveChallenge caller reportId .rejected nonce)
      (hadmin : s.admin = some caller)
      (hchallenge : s.challenge.get reportId = some challenge)
      (hopen : challenge.resolved = false) (hget : s.report.get reportId = some report)
      (hprovider : s.provider.get report.provider = some p)
      (hpenalty : slashPenalty env p.stake = .ok penalty)
      (hafter : s' = ((s.bump caller).settle reportId challenge report .rejected).slash env
        report.provider reportId p penalty)

/-! ## Every successful call is a step -/

/-- What a submission does. -/
theorem oracleStep_submitReport {env : Env} {s s' : State} {provider : Address}
    {projectId : BytesN 32} {periodStart periodEnd : Nat} {carbonSequestered : Int}
    {biodiversity : BiodiversityMetrics} {methodology : Symbol}
    {ipfsEvidenceHash : BytesN 32} {nonce reportId : Nat}
    (h : submitReport env s provider projectId periodStart periodEnd carbonSequestered
      biodiversity methodology ipfsEvidenceHash nonce = .ok (reportId, s')) :
    OracleStep env s s' (.submitReport provider projectId periodStart periodEnd
      carbonSequestered biodiversity methodology ipfsEvidenceHash nonce) := by
  simp only [submitReport, consumeNonce_ok_iff, bind_ok_iff, pure_ok_iff, rejectIf_ok_iff,
    okOr_ok_iff, not_or, not_lt, not_le, Bool.not_eq_true, Bool.not_eq_false,
    Prod.mk.injEq] at h
  obtain ⟨_, _, _, ⟨_, rfl⟩, p, hprovider, _, hactive, _, ⟨hperiod, hcarbon⟩, _, hmetrics, _,
    hoverlap, -, hafter⟩ := h
  let report : Report :=
    { id := s.reportCount + 1, provider, projectId, periodStart, periodEnd, carbonSequestered,
      biodiversity, methodology, ipfsEvidenceHash, status := .pending
      submittedAt := env.timestamp, verifiedAt := 0, providerStakeAtVerification := none }
  have hchecked : checkOverlap (s.bump provider) report.provider report.methodology
      report.periodStart report.periodEnd (getProjectReports s projectId) = .ok () := hoverlap
  have hapart : ∀ id ∈ getProjectReports s projectId,
      ∃ existing, s.report.get id = some existing ∧ ¬ report.Conflicts existing :=
    (checkOverlap_ok_iff (s := s.bump provider)).mp hchecked
  exact .submitted report p nonce rfl hprovider hactive ⟨rfl, rfl, rfl, rfl, rfl⟩ hperiod
    ⟨hcarbon, hmetrics⟩ hapart hafter.symm

/-- Recording a verifier touches the verifiers and their count only. -/
theorem recordVerifier_frame (s : State) (caller : Address) (reportId : Nat) :
    ∃ verifiers counts, recordVerifier s caller reportId =
      { s with reportVerifiers := verifiers, verificationCount := counts } := by
  unfold recordVerifier
  dsimp only
  split <;> exact ⟨_, _, rfl⟩

/-- Recording a verifier adds it to its report alone. -/
theorem recordVerifier_verifiers (s : State) (caller : Address) (reportId id : Nat) :
    getReportVerifiers (recordVerifier s caller reportId) id =
      if id = reportId then verifiersWith s caller reportId else getReportVerifiers s id := by
  unfold recordVerifier verifiersWith getReportVerifiers
  dsimp only
  by_cases hid : id = reportId
  · subst hid
    rw [if_pos rfl]
    split
    · rfl
    · simp
  · rw [if_neg hid]
    split
    · rfl
    · rw [Storage.get_set_ne _ _ hid]

/-- What a verification does. -/
theorem oracleStep_verifyReport {env : Env} {s s' : State} {caller : Address}
    {reportId nonce : Nat} (h : verifyReport env s caller reportId nonce = .ok s') :
    OracleStep env s s' (.verifyReport caller reportId nonce) := by
  simp only [verifyReport, consumeNonce_ok_iff, bind_ok_iff, rejectIf_ok_iff, okOr_ok_iff,
    checkVerifier_ok_iff, not_not, Bool.not_eq_true, Option.isSome_eq_false_iff,
    Option.isNone_iff_eq_none] at h
  obtain ⟨_, _, _, ⟨_, rfl⟩, report, hget, _, hpending, _, hfresh, _, hforeign, _, hqualified,
    h⟩ := h
  have hcan : CanVerify s caller reportId report :=
    ⟨hget, hpending, hfresh, hforeign, hqualified⟩
  have hverifiers : ((recordVerifier (s.bump caller) caller reportId).reportVerifiers.get
      reportId).getD [] = verifiersWith s caller reportId := by
    have hrecorded := recordVerifier_verifiers (s.bump caller) caller reportId reportId
    rw [if_pos rfl] at hrecorded
    exact hrecorded
  obtain ⟨verifiers, counts, hrecorded⟩ := recordVerifier_frame (s.bump caller) caller reportId
  rw [hverifiers, hrecorded] at h
  split at h
  · next hquorum =>
      have hafter := pure_ok_iff.mp h
      exact .verified caller reportId nonce report rfl hcan (by rw [hrecorded]; exact hafter.symm)
        hquorum
  · next hshort =>
      have hafter := pure_ok_iff.mp h
      exact .counted caller reportId nonce report rfl hcan (by rw [hrecorded]; exact hafter.symm)
        (Nat.lt_of_not_le hshort)

/-- What a challenge does. -/
theorem oracleStep_challengeReport {env : Env} {s s' : State} {challenger : Address}
    {reportId nonce : Nat} {counterEvidenceHash : BytesN 32}
    (h : challengeReport env s challenger reportId counterEvidenceHash nonce = .ok s') :
    OracleStep env s s' (.challengeReport challenger reportId counterEvidenceHash nonce) := by
  simp only [challengeReport, consumeNonce_ok_iff, bind_ok_iff, pure_ok_iff, rejectIf_ok_iff,
    okOr_ok_iff, Bool.not_eq_true, Option.isSome_eq_false_iff,
    Option.isNone_iff_eq_none, not_lt] at h
  obtain ⟨_, _, _, ⟨_, rfl⟩, report, hget, _, hstatus, _, hwindow, _, hfresh, hafter⟩ := h
  have hstatus' : report.status = .pending ∨ report.status = .verified := by
    by_contra hnot
    exact hstatus (not_or.mp hnot)
  exact .challenged challenger reportId counterEvidenceHash nonce report rfl hget hstatus'
    hwindow hfresh hafter.symm

/-- What the end of a challenge does. -/
theorem oracleStep_resolveChallenge {env : Env} {s s' : State} {caller : Address}
    {reportId nonce : Nat} {resolution : ReportStatus}
    (h : resolveChallenge env s caller reportId resolution nonce = .ok s') :
    OracleStep env s s' (.resolveChallenge caller reportId resolution nonce) := by
  simp only [resolveChallenge, consumeNonce_ok_iff, bind_ok_iff, rejectIf_ok_iff, okOr_ok_iff,
    requireAdmin_ok_iff] at h
  obtain ⟨_, _, _, ⟨_, rfl⟩, _, hadmin, _, hresolution, challenge, hchallenge, h⟩ := h
  split at h
  · next hclosed =>
      obtain rfl := pure_ok_iff.mp h
      exact .dismissed caller reportId nonce resolution challenge rfl hadmin hchallenge hclosed rfl
  · next hopen =>
      obtain ⟨report, hget, h⟩ := bind_ok_iff.mp h
      have hget' : s.report.get reportId = some report := okOr_ok_iff.mp hget
      have hopen' : challenge.resolved = false := Bool.eq_false_iff.mpr hopen
      by_cases hrejected : resolution = .rejected
      · subst hrejected
        rw [if_pos rfl] at h
        obtain ⟨p, penalty, hprovider, hpenalty, hafter⟩ := slashProvider_ok_iff.mp h
        exact .rejected caller reportId nonce challenge report p penalty rfl hadmin hchallenge
          hopen' hget' hprovider hpenalty hafter.symm
      · have hverified : resolution = .verified := by
          by_contra hnot
          exact hresolution ⟨hnot, hrejected⟩
        subst hverified
        rw [if_neg hrejected] at h
        obtain rfl := pure_ok_iff.mp h
        exact .upheld caller reportId nonce challenge report rfl hadmin hchallenge hopen' hget' rfl

/-- **Step lemma.**  Every successful call is an `OracleStep`. -/
theorem oracleStep_exec {env : Env} {s s' : State} {call : Call} {out : Output}
    (h : exec env s call = .ok (out, s')) : OracleStep env s s' call := by
  cases call with
  | submitReport provider projectId periodStart periodEnd carbonSequestered biodiversity
      methodology ipfsEvidenceHash nonce =>
      simp only [exec, bind_ok_iff, pure_ok_iff, Prod.mk.injEq] at h
      obtain ⟨⟨reportId, s''⟩, hsubmit, -, rfl⟩ := h
      exact oracleStep_submitReport hsubmit
  | verifyReport caller reportId nonce => exact oracleStep_verifyReport (silent_ok_iff.mp h).1
  | challengeReport challenger reportId counterEvidenceHash nonce =>
      exact oracleStep_challengeReport (silent_ok_iff.mp h).1
  | resolveChallenge caller reportId resolution nonce =>
      exact oracleStep_resolveChallenge (silent_ok_iff.mp h).1
  | setAdmin currentAdmin newAdmin =>
      have hset := (silent_ok_iff.mp h).1
      simp only [setAdmin, bind_ok_iff, pure_ok_iff, requireAdmin_ok_iff] at hset
      obtain ⟨_, _, _, hadmin, hafter⟩ := hset
      exact .managed (.administered currentAdmin newAdmin rfl hadmin hafter.symm)
  | registerProvider caller provider methodology nonce =>
      have hregister := (silent_ok_iff.mp h).1
      simp only [registerProvider, consumeNonce_ok_iff, bind_ok_iff, pure_ok_iff,
        rejectIf_ok_iff, requireAdmin_ok_iff, Bool.not_eq_true, Option.isSome_eq_false_iff,
        Option.isNone_iff_eq_none] at hregister
      obtain ⟨_, _, _, ⟨_, rfl⟩, _, hadmin, _, hnew, hafter⟩ := hregister
      exact .managed (.registered caller provider methodology nonce rfl hadmin hnew hafter.symm)
  | removeProvider caller provider nonce =>
      have hremove := (silent_ok_iff.mp h).1
      simp only [removeProvider, consumeNonce_ok_iff, bind_ok_iff, pure_ok_iff, okOr_ok_iff,
        requireAdmin_ok_iff] at hremove
      obtain ⟨_, _, _, ⟨_, rfl⟩, _, hadmin, p, hget, hafter⟩ := hremove
      exact .managed (.removed caller provider nonce p rfl hadmin hget hafter.symm)
  | setSignatureThreshold caller threshold nonce =>
      have hset := (silent_ok_iff.mp h).1
      simp only [setSignatureThreshold, consumeNonce_ok_iff, bind_ok_iff, pure_ok_iff,
        requireAdmin_ok_iff] at hset
      obtain ⟨_, _, _, ⟨_, rfl⟩, _, hadmin, hafter⟩ := hset
      exact .managed (.thresholdSet caller threshold nonce rfl hadmin hafter.symm)
  | setMinimumVerifierStake caller stake nonce =>
      have hset := (silent_ok_iff.mp h).1
      simp only [setMinimumVerifierStake, consumeNonce_ok_iff, bind_ok_iff, pure_ok_iff,
        rejectIf_ok_iff, requireAdmin_ok_iff, not_lt] at hset
      obtain ⟨_, _, _, ⟨_, rfl⟩, _, hadmin, _, hstake, hafter⟩ := hset
      exact .managed (.minimumSet caller stake nonce rfl hadmin hstake hafter.symm)
  | addStake provider amount nonce =>
      have hadd := (silent_ok_iff.mp h).1
      simp only [addStake, consumeNonce_ok_iff, bind_ok_iff, pure_ok_iff, rejectIf_ok_iff,
        okOr_ok_iff, checkedAdd, checked_eq_some, not_le] at hadd
      obtain ⟨_, _, _, ⟨_, rfl⟩, _, hamount, p, hget, _, ⟨hrange, rfl⟩, hafter⟩ := hadd
      exact .managed (.staked provider amount nonce p rfl hamount hget hrange hafter.symm)
  | withdrawStake provider amount nonce =>
      have hwithdraw := (silent_ok_iff.mp h).1
      simp only [withdrawStake, consumeNonce_ok_iff, bind_ok_iff, pure_ok_iff, rejectIf_ok_iff,
        okOr_ok_iff, not_le, not_lt] at hwithdraw
      obtain ⟨_, _, _, ⟨_, rfl⟩, _, hamount, p, hget, _, hcovered, hafter⟩ := hwithdraw
      exact .managed (.withdrawn provider amount nonce p rfl hamount hget hcovered hafter.symm)

/-- What a call does that succeeds. -/
theorem oracleStep_of_fires {e : LogEntry} (h : machine.Fires e) :
    OracleStep e.input.env e.before e.after e.input.call :=
  oracleStep_exec h

/-! ## What most calls leave alone -/

/-- Nothing is touched that concerns reports, challenges or slashes. -/
structure State.SameReports (s s' : State) : Prop where
  report : s'.report = s.report
  reportCount : s'.reportCount = s.reportCount
  projectReports : s'.projectReports = s.projectReports
  challenge : s'.challenge = s.challenge
  reportVerifiers : s'.reportVerifiers = s.reportVerifiers
  providerChallenges : s'.providerChallenges = s.providerChallenges
  slashHistory : s'.slashHistory = s.slashHistory

/-- A call about providers leaves the reports alone. -/
theorem ProviderStep.sameReports {env : Env} {s s' : State} {call : Call}
    (h : ProviderStep env s s' call) : s.SameReports s' := by
  rcases h with ⟨_, _, _, _, rfl⟩ | ⟨_, _, _, _, _, _, _, rfl⟩ | ⟨_, _, _, _, _, _, _, rfl⟩ |
    ⟨_, _, _, _, _, rfl⟩ | ⟨_, _, _, _, _, _, rfl⟩ | ⟨_, _, _, _, _, _, _, _, rfl⟩ |
    ⟨_, _, _, _, _, _, _, _, rfl⟩
  all_goals exact ⟨rfl, rfl, rfl, rfl, rfl, rfl, rfl⟩

/-- A call that concerns providers and settings only. -/
def Call.Manages : Call → Prop
  | .submitReport .. | .verifyReport .. | .challengeReport .. | .resolveChallenge .. => False
  | _ => True

/-- A call about providers is one that manages them. -/
theorem ProviderStep.manages {env : Env} {s s' : State} {call : Call}
    (h : ProviderStep env s s' call) : call.Manages := by
  rcases h with ⟨_, _, rfl, _⟩ | ⟨_, _, _, _, rfl, _⟩ | ⟨_, _, _, _, rfl, _⟩ |
    ⟨_, _, _, rfl, _⟩ | ⟨_, _, _, rfl, _⟩ | ⟨_, _, _, _, rfl, _⟩ | ⟨_, _, _, _, rfl, _⟩
  all_goals trivial

/-- A report as it was when submitted. -/
def Report.asSubmitted (report : Report) : Report :=
  { report with status := .pending, verifiedAt := 0, providerStakeAtVerification := none }

/-- No report is added, and none changes in what was submitted. -/
structure State.KeepsReports (s s' : State) : Prop where
  report : ∀ id, (s'.report.get id).map Report.asSubmitted =
    (s.report.get id).map Report.asSubmitted
  reportCount : s'.reportCount = s.reportCount
  projectReports : s'.projectReports = s.projectReports

/-- Reports are kept where one of them changes in nothing but its state. -/
theorem State.KeepsReports.of_set {s s' : State} {id : Nat} {report report' : Report}
    (hget : s.report.get id = some report) (hreport : s'.report = s.report.set id report')
    (hsame : report'.asSubmitted = report.asSubmitted) (hcount : s'.reportCount = s.reportCount)
    (hindex : s'.projectReports = s.projectReports) : s.KeepsReports s' := by
  refine ⟨?_, hcount, hindex⟩
  intro id'
  rw [hreport, Storage.get_set]
  by_cases hid : id' = id
  · rw [if_pos hid, hid, hget]
    exact congrArg some hsame
  · rw [if_neg hid]

/-- A kept report was there before, as submitted. -/
theorem State.KeepsReports.before {s s' : State} (h : s.KeepsReports s') {id : Nat}
    {report' : Report} (hget : s'.report.get id = some report') :
    ∃ report, s.report.get id = some report ∧ report.asSubmitted = report'.asSubmitted := by
  have hmap := h.report id
  rw [hget] at hmap
  exact Option.map_eq_some_iff.mp hmap.symm

/-- Every call keeps the reports, except for the one that submits one. -/
theorem OracleStep.keepsReports_or {env : Env} {s s' : State} {call : Call}
    (h : OracleStep env s s' call) :
    s.KeepsReports s' ∨ ∃ report : Report, report.Fresh env s ∧
      report.periodStart < report.periodEnd ∧
      (∀ id ∈ getProjectReports s report.projectId,
        ∃ existing, s.report.get id = some existing ∧ ¬ report.Conflicts existing) ∧
      s' = (s.bump report.provider).addReport report := by
  cases h with
  | managed hstep =>
      have hsame := hstep.sameReports
      exact Or.inl ⟨fun id => by rw [hsame.report], hsame.reportCount, hsame.projectReports⟩
  | submitted report p nonce hcall hprovider hactive hfresh hperiod hsound hapart hafter =>
      exact Or.inr ⟨report, hfresh, hperiod, hapart, hafter⟩
  | counted caller reportId nonce report hcall hcan hafter hshort =>
      obtain ⟨verifiers, counts, hrecorded⟩ := recordVerifier_frame (s.bump caller) caller reportId
      rw [hafter, hrecorded]
      exact Or.inl ⟨fun id => rfl, rfl, rfl⟩
  | verified caller reportId nonce report hcall hcan hafter hquorum =>
      obtain ⟨verifiers, counts, hrecorded⟩ := recordVerifier_frame (s.bump caller) caller reportId
      rw [hafter, hrecorded]
      exact Or.inl (.of_set hcan.stored rfl rfl rfl rfl)
  | challenged challenger reportId hash nonce report hcall hget hstatus hwindow hfresh hafter =>
      subst hafter
      exact Or.inl (.of_set hget rfl rfl rfl rfl)
  | dismissed caller reportId nonce resolution challenge hcall hadmin hchallenge hclosed hafter =>
      subst hafter
      exact Or.inl ⟨fun id => rfl, rfl, rfl⟩
  | upheld caller reportId nonce challenge report hcall hadmin hchallenge hopen hget hafter =>
      subst hafter
      exact Or.inl (.of_set hget rfl rfl rfl rfl)
  | rejected caller reportId nonce challenge report p penalty hcall hadmin hchallenge hopen hget
      hprovider hpenalty hafter =>
      subst hafter
      exact Or.inl (.of_set hget rfl rfl rfl rfl)

/-! ## What becomes of a stored report -/

/-- What a call does to the reports. -/
theorem OracleStep.reportStep {env : Env} {s s' : State} {call : Call}
    (h : OracleStep env s s' call) : ReportStep s s' := by
  cases h with
  | managed hstep => exact .same hstep.sameReports.report hstep.sameReports.reportCount
  | submitted report p nonce hcall hprovider hactive hfresh hperiod hsound hapart hafter =>
      rw [hafter]
      exact .submitted report hsound rfl rfl
  | counted caller reportId nonce report hcall hcan hafter hshort =>
      obtain ⟨verifiers, counts, hrecorded⟩ := recordVerifier_frame (s.bump caller) caller reportId
      rw [hafter, hrecorded]
      exact .same rfl rfl
  | verified caller reportId nonce report hcall hcan hafter hquorum =>
      obtain ⟨verifiers, counts, hrecorded⟩ := recordVerifier_frame (s.bump caller) caller reportId
      have hcontent : report.SameContent (report.verify env (s.stakeOf report.provider)) :=
        ⟨rfl, rfl, rfl, rfl, rfl, rfl, rfl⟩
      rw [hafter, hrecorded]
      exact .moved reportId report _ hcan.stored hcontent rfl rfl
  | challenged challenger reportId hash nonce report hcall hget hstatus hwindow hfresh hafter =>
      rw [hafter]
      exact .moved reportId report { report with status := .challenged } hget
        ⟨rfl, rfl, rfl, rfl, rfl, rfl, rfl⟩ rfl rfl
  | dismissed caller reportId nonce resolution challenge hcall hadmin hchallenge hclosed hafter =>
      rw [hafter]
      exact .same rfl rfl
  | upheld caller reportId nonce challenge report hcall hadmin hchallenge hopen hget hafter =>
      rw [hafter]
      exact .moved reportId report { report with status := .verified } hget
        ⟨rfl, rfl, rfl, rfl, rfl, rfl, rfl⟩ rfl rfl
  | rejected caller reportId nonce challenge report p penalty hcall hadmin hchallenge hopen hget
      hprovider hpenalty hafter =>
      rw [hafter]
      exact .moved reportId report { report with status := .rejected } hget
        ⟨rfl, rfl, rfl, rfl, rfl, rfl, rfl⟩ rfl rfl

/-- Every successful call is a `ReportStep`. -/
theorem reportStep_exec {env : Env} {s s' : State} {call : Call} {out : Output}
    (h : exec env s call = .ok (out, s')) : ReportStep s s' :=
  (oracleStep_exec h).reportStep

end EcoMint.OracleConsumer
