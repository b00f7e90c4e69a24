import EcoMint.Machine
import EcoMint.Shared

/-!
# The oracle consumer contract

The storage and entry points of `contracts/oracle-consumer`: providers with a
stake, reports they submit about a project and a half-open period, verification
by a threshold of qualified verifiers, and challenges that an admin resolves,
slashing the provider when the report is rejected.

The second half says what a successful call can do to the reports already
stored: it never removes one and never touches what it says about the project.
-/

namespace EcoMint.OracleConsumer

open Fallible IntRange

/-- Three days, within which a report may be challenged. -/
def CHALLENGE_WINDOW_SECONDS : Nat := 259200

/-- A tenth of the stake, in parts per million. -/
def SLASH_PENALTY_PPM : Int := 100000

/-- The verifications that a report needs unless the administrator says otherwise. -/
def DEFAULT_SIGNATURE_THRESHOLD : Nat := 1

/-- The stake that lets a provider verify unless the administrator says otherwise. -/
def DEFAULT_MIN_VERIFIER_STAKE : Int := 10000

/-- A provider and the stake that it has at risk. -/
structure OracleProvider where
  address : Address
  methodology : Symbol
  stake : Int
  active : Bool
  registeredAt : Nat
deriving DecidableEq, Repr

/-- What a provider reports about a project over a period, and what became of the report. -/
structure Report where
  id : Nat
  provider : Address
  projectId : BytesN 32
  periodStart : Nat
  periodEnd : Nat
  carbonSequestered : Int
  biodiversity : BiodiversityMetrics
  methodology : Symbol
  ipfsEvidenceHash : BytesN 32
  status : ReportStatus
  submittedAt : Nat
  verifiedAt : Nat
  providerStakeAtVerification : Option Int
deriving DecidableEq, Repr

/-- An objection to a report, and how it ended. -/
structure Challenge where
  reportId : Nat
  challenger : Address
  counterEvidenceHash : BytesN 32
  submittedAt : Nat
  resolved : Bool
  resolution : Nat
deriving DecidableEq, Repr

/-- A penalty as it was taken. -/
structure SlashRecord where
  reportId : Nat
  penalty : Int
  remainingStake : Int
  timestamp : Nat
  activeAfter : Bool
deriving DecidableEq, Repr

/-- What a penalty would take, without taking it. -/
structure SlashPreview where
  reportId : Nat
  provider : Address
  currentStake : Int
  penalty : Int
  remainingStake : Int
  activeAfter : Bool
deriving DecidableEq, Repr

/-- What is counted of a provider. -/
structure ProviderStats where
  reportsSubmitted : Nat
  challengesFaced : Nat
  slashes : Nat
  totalPenalty : Int
  stake : Int
  active : Bool
deriving DecidableEq, Repr

/-- Contract storage, one field per `DataKey`. -/
structure State where
  admin : Option Address
  provider : Storage Address OracleProvider
  providerList : List Address
  report : Storage Nat Report
  reportCount : Nat
  projectReports : Storage (BytesN 32) (List Nat)
  challenge : Storage Nat Challenge
  reportVerifiers : Storage Nat (List Address)
  verificationCount : Storage Nat Nat
  signatureThreshold : Option Nat
  minimumVerifierStake : Option Int
  challengeWindow : Option Nat
  nonce : Storage Address Nat
  providerReportCount : Storage Address Nat
  providerChallenges : Storage Address (List Nat)
  slashHistory : Storage Address (List SlashRecord)
deriving DecidableEq

/-- The caller is the administrator. -/
def requireAdmin (s : State) (caller : Address) : Fallible OracleError Unit :=
  checkAdmin s.admin caller .notInitialized .unauthorized

/-- The nonce is the caller's next one, and is used up. -/
def consumeNonce (s : State) (addr : Address) (nonce : Nat) : Fallible OracleError State := do
  let nonces ← useNonce s.nonce addr nonce .invalidNonce
  return { s with nonce := nonces }

/-- The stake that lets a provider verify. -/
def minimumVerifierStake (s : State) : Int :=
  s.minimumVerifierStake.getD DEFAULT_MIN_VERIFIER_STAKE

/-- The admin qualifies; anyone else qualifies as an active provider with
enough stake. -/
def qualifies (s : State) (verifier : Address) : Bool :=
  if s.admin = some verifier then true
  else
    match s.provider.get verifier with
    | some provider => provider.active && decide (provider.stake ≥ minimumVerifierStake s)
    | none => false

/-- The verifiers that count. -/
def qualifyingVerifierCount (s : State) (verifiers : List Address) : Nat :=
  verifiers.countP (qualifies s)

/-! ## Entry points -/

/-- The oracle as it is deployed: an administrator and nothing else. -/
def constructor (admin : Address) : State where
  admin := some admin
  provider := ∅
  providerList := []
  report := ∅
  reportCount := 0
  projectReports := ∅
  challenge := ∅
  reportVerifiers := ∅
  verificationCount := ∅
  signatureThreshold := some DEFAULT_SIGNATURE_THRESHOLD
  minimumVerifierStake := some DEFAULT_MIN_VERIFIER_STAKE
  challengeWindow := some CHALLENGE_WINDOW_SECONDS
  nonce := ∅
  providerReportCount := ∅
  providerChallenges := ∅
  slashHistory := ∅

/-- The administrator hands over to another one. -/
def setAdmin (env : Env) (s : State) (currentAdmin newAdmin : Address) :
    Fallible OracleError State := do
  env.requireAuth currentAdmin
  requireAdmin s currentAdmin
  return { s with admin := some newAdmin }

/-- The administrator admits a provider, who begins without stake. -/
def registerProvider (env : Env) (s : State) (caller provider : Address) (methodology : Symbol)
    (nonce : Nat) : Fallible OracleError State := do
  env.requireAuth caller
  let s ← consumeNonce s caller nonce
  requireAdmin s caller
  rejectIf ((s.provider.get provider).isSome = true) .providerAlreadyExists
  let oracleProvider : OracleProvider :=
    { address := provider, methodology, stake := 0, active := true, registeredAt := env.timestamp }
  return { s with
    provider := s.provider.set provider oracleProvider
    providerList := s.providerList ++ [provider] }

/-- The administrator makes a provider inactive; its stake stays. -/
def removeProvider (env : Env) (s : State) (caller provider : Address) (nonce : Nat) :
    Fallible OracleError State := do
  env.requireAuth caller
  let s ← consumeNonce s caller nonce
  requireAdmin s caller
  let p ← okOr (s.provider.get provider) .providerNotFound
  return { s with provider := s.provider.set provider { p with active := false } }

/-- Some metric the report carries is below zero. -/
def negativeMetrics : BiodiversityMetrics → Bool
  | .absent => false
  | .present habitat species units => decide (habitat < 0 ∨ species < 0 ∨ units < 0)

/-- Two half-open periods meet. -/
def overlaps (periodStart periodEnd : Nat) (existing : Report) : Prop :=
  periodStart < existing.periodEnd ∧ existing.periodStart < periodEnd

instance (periodStart periodEnd : Nat) (existing : Report) :
    Decidable (overlaps periodStart periodEnd existing) := by
  unfold overlaps; infer_instance

/-- The loop of `submit_report` over the project's earlier reports. -/
def checkOverlap (s : State) (provider : Address) (methodology : Symbol)
    (periodStart periodEnd : Nat) : List Nat → Fallible OracleError Unit
  | [] => return ()
  | existingId :: rest => do
      let existing ← okOr (s.report.get existingId) .reportNotFound
      rejectIf (existing.provider = provider ∧ existing.methodology = methodology ∧
        overlaps periodStart periodEnd existing) .overlappingReportPeriod
      checkOverlap s provider methodology periodStart periodEnd rest

/-- An active provider reports on a project: the period is not empty and overlaps none
of its others by that methodology, and no amount is negative. -/
def submitReport (env : Env) (s : State) (provider : Address) (projectId : BytesN 32)
    (periodStart periodEnd : Nat) (carbonSequestered : Int)
    (biodiversity : BiodiversityMetrics) (methodology : Symbol)
    (ipfsEvidenceHash : BytesN 32) (nonce : Nat) : Fallible OracleError (Nat × State) := do
  env.requireAuth provider
  let s ← consumeNonce s provider nonce
  let p ← okOr (s.provider.get provider) .providerNotFound
  rejectIf (p.active = false) .unauthorized
  rejectIf (periodEnd ≤ periodStart ∨ carbonSequestered < 0) .invalidSignature
  rejectIf (negativeMetrics biodiversity = true) .invalidSignature
  let existingIds := (s.projectReports.get projectId).getD []
  checkOverlap s provider methodology periodStart periodEnd existingIds
  let reportId := s.reportCount + 1
  let report : Report :=
    { id := reportId, provider, projectId, periodStart, periodEnd, carbonSequestered,
      biodiversity, methodology, ipfsEvidenceHash, status := .pending
      submittedAt := env.timestamp, verifiedAt := 0, providerStakeAtVerification := none }
  return (reportId, { s with
    reportCount := reportId
    report := s.report.set reportId report
    projectReports := s.projectReports.set projectId (existingIds ++ [reportId])
    providerReportCount :=
      s.providerReportCount.set provider (s.providerReportCount.read provider + 1) })

/-- The caller of `verify_report` is the admin or an active provider with
enough stake. -/
def checkVerifier (s : State) (caller : Address) : Fallible OracleError Unit :=
  if (requireAdmin s caller).isOk then return ()
  else do
    let p ← okOr (s.provider.get caller) .unauthorized
    rejectIf (p.active = false ∨ p.stake < minimumVerifierStake s) .unauthorized

/-- Record the caller among the verifiers of a report, once. -/
def recordVerifier (s : State) (caller : Address) (reportId : Nat) : State :=
  let verifiers := (s.reportVerifiers.get reportId).getD []
  if caller ∈ verifiers then s
  else
    { s with
      reportVerifiers := s.reportVerifiers.set reportId (verifiers ++ [caller])
      verificationCount := s.verificationCount.set reportId
        (qualifyingVerifierCount s (verifiers ++ [caller])) }

/-- The administrator, or another provider with enough stake, verifies a pending report;
with as many verifiers as the threshold asks for it becomes verified. -/
def verifyReport (env : Env) (s : State) (caller : Address) (reportId nonce : Nat) :
    Fallible OracleError State := do
  env.requireAuth caller
  let s ← consumeNonce s caller nonce
  let report ← okOr (s.report.get reportId) .reportNotFound
  rejectIf (report.status ≠ .pending) .reportAlreadyVerified
  rejectIf ((s.challenge.get reportId).isSome = true) .reportAlreadyVerified
  rejectIf (caller = report.provider) .invalidSignature
  checkVerifier s caller
  let s := recordVerifier s caller reportId
  let verifiers := (s.reportVerifiers.get reportId).getD []
  let threshold := s.signatureThreshold.getD DEFAULT_SIGNATURE_THRESHOLD
  if qualifyingVerifierCount s verifiers ≥ threshold then
    let providerStake := ((s.provider.get report.provider).map OracleProvider.stake).getD 0
    return { s with
      report := s.report.set reportId
        { report with
          status := .verified
          verifiedAt := env.timestamp
          providerStakeAtVerification := some providerStake } }
  else
    return s

/-- Anybody challenges a report that is pending or verified, within the window after its
submission or verification. -/
def challengeReport (env : Env) (s : State) (challenger : Address) (reportId : Nat)
    (counterEvidenceHash : BytesN 32) (nonce : Nat) : Fallible OracleError State := do
  env.requireAuth challenger
  let s ← consumeNonce s challenger nonce
  let report ← okOr (s.report.get reportId) .reportNotFound
  rejectIf (report.status ≠ .pending ∧ report.status ≠ .verified) .reportAlreadyVerified
  let now := env.timestamp
  let window := s.challengeWindow.getD CHALLENGE_WINDOW_SECONDS
  let referenceTime :=
    if report.status = .verified then report.verifiedAt else report.submittedAt
  rejectIf (now - referenceTime > window) .challengeWindowExpired
  rejectIf ((s.challenge.get reportId).isSome = true) .providerAlreadyExists
  let challenge : Challenge :=
    { reportId, challenger, counterEvidenceHash, submittedAt := now, resolved := false
      resolution := 0 }
  return { s with
    challenge := s.challenge.set reportId challenge
    report := s.report.set reportId { report with status := .challenged }
    providerChallenges := s.providerChallenges.set report.provider
      ((s.providerChallenges.get report.provider).getD [] ++ [reportId]) }

/-- The penalty of a slash: a tenth of the stake, all of it when that rounds to
nothing, and never more than all of it.  The product is plain `i128` `*`. -/
def slashPenalty (env : Env) (stake : Int) : Fallible OracleError Int := do
  let scaled ← env.mulI128 stake SLASH_PENALTY_PPM
  let penalty := scaled.tdiv 1000000
  let penalty := if penalty ≤ 0 then stake else penalty
  return if penalty > stake then stake else penalty

/-- The penalty is taken from the provider's stake and recorded; without stake a
provider is inactive. -/
def slashProvider (env : Env) (s : State) (provider : Address) (reportId : Nat) :
    Fallible OracleError State := do
  let p ← okOr (s.provider.get provider) .providerNotFound
  let penalty ← slashPenalty env p.stake
  let stake := p.stake - penalty
  let active := if stake = 0 then false else p.active
  let record : SlashRecord :=
    { reportId, penalty, remainingStake := stake, timestamp := env.timestamp
      activeAfter := active }
  return { s with
    provider := s.provider.set provider { p with stake, active }
    slashHistory := s.slashHistory.set provider
      ((s.slashHistory.get provider).getD [] ++ [record]) }

/-- The administrator settles a challenge: the report is verified, or rejected with a
penalty for its provider. -/
def resolveChallenge (env : Env) (s : State) (caller : Address) (reportId : Nat)
    (resolution : ReportStatus) (nonce : Nat) : Fallible OracleError State := do
  env.requireAuth caller
  let s ← consumeNonce s caller nonce
  requireAdmin s caller
  rejectIf (resolution ≠ .verified ∧ resolution ≠ .rejected) .invalidResolution
  let challenge ← okOr (s.challenge.get reportId) .reportNotFound
  if challenge.resolved then
    return s
  else
    let report ← okOr (s.report.get reportId) .reportNotFound
    let s := { s with
      challenge := s.challenge.set reportId
        { challenge with resolved := true, resolution := resolution.toU32 }
      report := s.report.set reportId { report with status := resolution } }
    if resolution = .rejected then slashProvider env s report.provider reportId
    else return s

/-- The administrator sets how many verifications a report needs. -/
def setSignatureThreshold (env : Env) (s : State) (caller : Address) (threshold nonce : Nat) :
    Fallible OracleError State := do
  env.requireAuth caller
  let s ← consumeNonce s caller nonce
  requireAdmin s caller
  return { s with signatureThreshold := some threshold }

/-- The administrator sets the stake that lets a provider verify. -/
def setMinimumVerifierStake (env : Env) (s : State) (caller : Address) (stake : Int)
    (nonce : Nat) : Fallible OracleError State := do
  env.requireAuth caller
  let s ← consumeNonce s caller nonce
  requireAdmin s caller
  rejectIf (stake < 0) .insufficientStake
  return { s with minimumVerifierStake := some stake }

/-- A provider puts more at risk. -/
def addStake (env : Env) (s : State) (provider : Address) (amount : Int) (nonce : Nat) :
    Fallible OracleError State := do
  env.requireAuth provider
  let s ← consumeNonce s provider nonce
  rejectIf (amount ≤ 0) .insufficientStake
  let p ← okOr (s.provider.get provider) .providerNotFound
  let stake ← okOr (i128.checkedAdd p.stake amount) .insufficientStake
  return { s with provider := s.provider.set provider { p with stake } }

/-- A provider takes back part of its stake. -/
def withdrawStake (env : Env) (s : State) (provider : Address) (amount : Int) (nonce : Nat) :
    Fallible OracleError State := do
  env.requireAuth provider
  let s ← consumeNonce s provider nonce
  rejectIf (amount ≤ 0) .insufficientStake
  let p ← okOr (s.provider.get provider) .providerNotFound
  rejectIf (p.stake < amount) .insufficientStake
  return { s with provider := s.provider.set provider { p with stake := p.stake - amount } }

/-! ## Views -/

/-- The administrator. -/
def getAdmin (s : State) : Fallible OracleError Address := okOr s.admin .notInitialized

/-- A provider. -/
def getProvider (s : State) (provider : Address) : Fallible OracleError OracleProvider :=
  okOr (s.provider.get provider) .providerNotFound

/-- A report. -/
def getReport (s : State) (reportId : Nat) : Fallible OracleError Report :=
  okOr (s.report.get reportId) .reportNotFound

/-- Every provider that was ever admitted, in order. -/
def listProviders (s : State) : List Address := s.providerList

/-- The numbers of the reports under a project's key, oldest first. -/
def getProjectReports (s : State) (projectId : BytesN 32) : List Nat :=
  (s.projectReports.get projectId).getD []

/-- The challenge of a report. -/
def getChallenge (s : State) (reportId : Nat) : Fallible OracleError Challenge :=
  okOr (s.challenge.get reportId) .reportNotFound

/-- How often a report was verified. -/
def getVerificationCount (s : State) (reportId : Nat) : Nat := s.verificationCount.read reportId

/-- Who verified a report. -/
def getReportVerifiers (s : State) (reportId : Nat) : List Address :=
  (s.reportVerifiers.get reportId).getD []

/-- The penalties taken from a provider, oldest first. -/
def getSlashHistory (s : State) (provider : Address) : List SlashRecord :=
  (s.slashHistory.get provider).getD []

/-- The challenges of a provider's reports, oldest first. -/
def getChallengeHistory (s : State) (provider : Address) : List Challenge :=
  ((s.providerChallenges.get provider).getD []).filterMap s.challenge.get

/-- The loop of `get_provider_stats` over a slash history, with plain `+=`. -/
def sumPenalties (env : Env) : Int → List SlashRecord → Fallible OracleError Int
  | total, [] => return total
  | total, record :: rest => do
      let total ← env.addI128 total record.penalty
      sumPenalties env total rest

/-- What is counted of a provider; the penalties are added with overflow checks. -/
def getProviderStats (env : Env) (s : State) (provider : Address) :
    Fallible OracleError ProviderStats := do
  let p ← okOr (s.provider.get provider) .providerNotFound
  let reportsSubmitted := s.providerReportCount.read provider
  let challenges := (s.providerChallenges.get provider).getD []
  let history := (s.slashHistory.get provider).getD []
  let totalPenalty ← sumPenalties env 0 history
  return {
    reportsSubmitted
    challengesFaced := challenges.length
    slashes := history.length
    totalPenalty
    stake := p.stake
    active := p.active }

/-- How many verifications a report needs. -/
def getSignatureThreshold (s : State) : Nat :=
  s.signatureThreshold.getD DEFAULT_SIGNATURE_THRESHOLD

/-- The stake that lets a provider verify. -/
def getMinimumVerifierStake (s : State) : Int := minimumVerifierStake s

/-- What a penalty would take from a provider now. -/
def previewSlash (env : Env) (s : State) (provider : Address) (reportId : Nat) :
    Fallible OracleError SlashPreview := do
  let p ← okOr (s.provider.get provider) .providerNotFound
  let penalty ← slashPenalty env p.stake
  let remainingStake := i128.saturatingSub p.stake penalty
  return {
    reportId, provider := p.address, currentStake := p.stake, penalty, remainingStake
    activeAfter := decide (remainingStake > 0) }

/-! ## Calls -/

/-- A call of a state-changing entry point. -/
inductive Call
  | setAdmin (currentAdmin newAdmin : Address)
  | registerProvider (caller provider : Address) (methodology : Symbol) (nonce : Nat)
  | removeProvider (caller provider : Address) (nonce : Nat)
  | submitReport (provider : Address) (projectId : BytesN 32) (periodStart periodEnd : Nat)
      (carbonSequestered : Int) (biodiversity : BiodiversityMetrics) (methodology : Symbol)
      (ipfsEvidenceHash : BytesN 32) (nonce : Nat)
  | verifyReport (caller : Address) (reportId nonce : Nat)
  | challengeReport (challenger : Address) (reportId : Nat)
      (counterEvidenceHash : BytesN 32) (nonce : Nat)
  | resolveChallenge (caller : Address) (reportId : Nat) (resolution : ReportStatus)
      (nonce : Nat)
  | setSignatureThreshold (caller : Address) (threshold nonce : Nat)
  | setMinimumVerifierStake (caller : Address) (stake : Int) (nonce : Nat)
  | addStake (provider : Address) (amount : Int) (nonce : Nat)
  | withdrawStake (provider : Address) (amount : Int) (nonce : Nat)
deriving DecidableEq

/-- What a call returns: the new report's id for `submit_report`, nothing otherwise. -/
abbrev Output := Option Nat

/-- Run an entry point that returns nothing. -/
def silent (r : Fallible OracleError State) : Fallible OracleError (Output × State) := do
  let s ← r
  return (none, s)

/-- A call of the contract, with what it returns and the state it leaves. -/
def exec (env : Env) (s : State) : Call → Fallible OracleError (Output × State)
  | .setAdmin currentAdmin newAdmin => silent (setAdmin env s currentAdmin newAdmin)
  | .registerProvider caller provider methodology nonce =>
      silent (registerProvider env s caller provider methodology nonce)
  | .removeProvider caller provider nonce => silent (removeProvider env s caller provider nonce)
  | .submitReport provider projectId periodStart periodEnd carbonSequestered biodiversity
      methodology ipfsEvidenceHash nonce => do
        let (reportId, s) ← submitReport env s provider projectId periodStart periodEnd
          carbonSequestered biodiversity methodology ipfsEvidenceHash nonce
        return (some reportId, s)
  | .verifyReport caller reportId nonce => silent (verifyReport env s caller reportId nonce)
  | .challengeReport challenger reportId counterEvidenceHash nonce =>
      silent (challengeReport env s challenger reportId counterEvidenceHash nonce)
  | .resolveChallenge caller reportId resolution nonce =>
      silent (resolveChallenge env s caller reportId resolution nonce)
  | .setSignatureThreshold caller threshold nonce =>
      silent (setSignatureThreshold env s caller threshold nonce)
  | .setMinimumVerifierStake caller stake nonce =>
      silent (setMinimumVerifierStake env s caller stake nonce)
  | .addStake provider amount nonce => silent (addStake env s provider amount nonce)
  | .withdrawStake provider amount nonce => silent (withdrawStake env s provider amount nonce)

/-! ## What a successful call does to the reports -/

/-- What a report says about its project, apart from how far it has come. -/
structure Report.SameContent (r r' : Report) : Prop where
  provider_eq : r'.provider = r.provider
  projectId_eq : r'.projectId = r.projectId
  periodStart_eq : r'.periodStart = r.periodStart
  periodEnd_eq : r'.periodEnd = r.periodEnd
  carbon_eq : r'.carbonSequestered = r.carbonSequestered
  biodiversity_eq : r'.biodiversity = r.biodiversity
  methodology_eq : r'.methodology = r.methodology

/-- A report has the content that it has. -/
theorem Report.SameContent.rfl {r : Report} : r.SameContent r :=
  ⟨Eq.refl _, Eq.refl _, Eq.refl _, Eq.refl _, Eq.refl _, Eq.refl _, Eq.refl _⟩

theorem Report.SameContent.trans {r r' r'' : Report} (h : r.SameContent r')
    (h' : r'.SameContent r'') : r.SameContent r'' := by
  obtain ⟨h1, h2, h3, h4, h5, h6, h7⟩ := h
  obtain ⟨h1', h2', h3', h4', h5', h6', h7'⟩ := h'
  exact ⟨h1'.trans h1, h2'.trans h2, h3'.trans h3, h4'.trans h4, h5'.trans h5, h6'.trans h6,
    h7'.trans h7⟩

/-- A report's metrics are not negative. -/
def Report.Sound (r : Report) : Prop :=
  0 ≤ r.carbonSequestered ∧ negativeMetrics r.biodiversity = false

/-- How one successful call changes the stored reports: not at all, by adding
one under the next id, or by moving one report along. -/
inductive ReportStep (s s' : State) : Prop
  | same (hreport : s'.report = s.report) (hcount : s'.reportCount = s.reportCount)
  | submitted (report : Report) (hsound : report.Sound)
      (hreport : s'.report = s.report.set (s.reportCount + 1) report)
      (hcount : s'.reportCount = s.reportCount + 1)
  | moved (id : Nat) (before after : Report) (hget : s.report.get id = some before)
      (hcontent : before.SameContent after)
      (hreport : s'.report = s.report.set id after) (hcount : s'.reportCount = s.reportCount)

/-- A silent call succeeds as the function under it does, and returns nothing. -/
theorem silent_ok_iff {r : Fallible OracleError State} {out : Output} {s' : State} :
    silent r = .ok (out, s') ↔ r = .ok s' ∧ out = none := by
  simp [silent, eq_comm]

/-- What every reachable oracle storage satisfies: ids are used in order, and
no stored metric is negative. -/
structure ReportsInvariant (s : State) : Prop where
  unused : ∀ id, s.reportCount < id → s.report.get id = none
  sound : ∀ id report, s.report.get id = some report → report.Sound

theorem reportsInvariant_constructor (admin : Address) :
    ReportsInvariant (constructor admin) where
  unused id _ := by simp [constructor]
  sound id report h := by simp [constructor] at h

/-- Soundness is about the content of a report alone. -/
theorem Report.Sound.of_sameContent {r r' : Report} (h : r.Sound) (hc : r.SameContent r') :
    r'.Sound := by
  unfold Report.Sound at *
  rwa [hc.carbon_eq, hc.biodiversity_eq]

/-- What a call does to the reports keeps them numbered, indexed and sound. -/
theorem ReportsInvariant.step {s s' : State} (hs : ReportsInvariant s)
    (hstep : ReportStep s s') : ReportsInvariant s' := by
  cases hstep with
  | same hreport hcount => exact ⟨hcount ▸ hreport ▸ hs.unused, hreport ▸ hs.sound⟩
  | submitted report hsound hreport hcount =>
      constructor
      · intro id hid
        rw [hcount] at hid
        rw [hreport, Storage.get_set_ne _ _ (by omega)]
        exact hs.unused id (by omega)
      · intro id report' hget
        rw [hreport, Storage.get_set] at hget
        split at hget
        · obtain rfl : report = report' := by simpa using hget
          exact hsound
        · exact hs.sound id report' hget
  | moved id before after hget hcontent hreport hcount =>
      constructor
      · intro id' hid
        have hne : id' ≠ id := by
          rintro rfl
          simp [hs.unused id' (hcount ▸ hid)] at hget
        rw [hreport, Storage.get_set_ne _ _ hne]
        exact hs.unused id' (hcount ▸ hid)
      · intro id' report' hget'
        rw [hreport, Storage.get_set] at hget'
        split at hget'
        · obtain rfl : after = report' := by simpa using hget'
          exact (hs.sound id before hget).of_sameContent hcontent
        · exact hs.sound id' report' hget'

/-- A stored report stays stored, with the same content. -/
theorem ReportStep.persists {s s' : State} {id : Nat} {report : Report}
    (hs : ReportsInvariant s) (hstep : ReportStep s s') (hget : s.report.get id = some report) :
    ∃ report', s'.report.get id = some report' ∧ report.SameContent report' := by
  cases hstep with
  | same hreport _ => exact ⟨report, hreport ▸ hget, .rfl⟩
  | submitted added _ hreport _ =>
      have hne : id ≠ s.reportCount + 1 := by
        rintro rfl
        simp [hs.unused _ (Nat.lt_succ_self _)] at hget
      exact ⟨report, by rw [hreport, Storage.get_set_ne _ _ hne, hget], .rfl⟩
  | moved id' before after hget' hcontent hreport _ =>
      by_cases hid : id = id'
      · subst hid
        obtain rfl : before = report := by simpa [hget] using hget'.symm
        exact ⟨after, by rw [hreport, Storage.get_set_self], hcontent⟩
      · exact ⟨report, by rw [hreport, Storage.get_set_ne _ _ hid, hget], .rfl⟩

end EcoMint.OracleConsumer
