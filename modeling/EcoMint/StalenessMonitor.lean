import EcoMint.AnomalyVerdicts
import EcoMint.OracleConsumer
import EcoMint.ProjectExport
import EcoMint.ProjectLifecycle

/-!
# The monitor and the reports on chain

The monitor asks for the reports of a project by its number in decimal.  The
client makes 32 bytes of that text, by hashing it, while the registry's key of the
project is its number in bytes.  Reports under the one key are not found under
the other, so whether a project is marked as stale says what the reports under
its registry key do only where both keys give the same baseline.
-/

namespace EcoMint.Monitor

open Anomaly InsertionMap OracleConsumer Staleness

/-- What the monitor is given from outside. -/
structure MonitorContext where
  addressText : Address → String
  sha256 : String → BytesN 32
  /-- the JSON object behind an IPFS hash, unless the gateway fails -/
  getContent : String → Option (List (String × Json))
  /-- `new Date().toISOString()` -/
  clock : String
  /-- `new Date(value).getTime()` -/
  getTime : Json → Timestamp
  /-- `Number` of a status as it arrives, such as `VariantForm.number` gives; `none` is
  `NaN` -/
  statusNumber : ReportStatus → Option Nat
  env : Api.Environment

variable (ctx : MonitorContext)

/-! ## Projects -/

/-- A project as the API answers with it. -/
structure ProjectResponse where
  id : Nat
  name : Json
  status : ProjectStatus
  methodology : String
  country : String
  metadataIpfsHash : String
  ownerAddress : String
  totalAreaHa : Json
  carbonSequestrationEstimate : Json
  createdAt : Json

/-- A project with its metadata; what they do not say has a default. -/
def ProjectResponse.of (id : Nat) (project : ProjectRegistry.Project) : ProjectResponse :=
  let metadataIpfsHash := decodeCid project.metadataIpfsHash.bytes
  let metadata := (ctx.getContent metadataIpfsHash).getD []
  { id := project.id
    name := metadataOr metadata "name" (.str ("Project #" ++ toString id))
    status := project.status
    methodology := project.methodology
    country := project.country
    metadataIpfsHash
    ownerAddress := ctx.addressText project.owner
    totalAreaHa := metadataOr metadata "totalAreaHa" (natJson 0)
    carbonSequestrationEstimate := metadataOr metadata "carbonSequestrationEstimate" (natJson 0)
    createdAt := metadataOr metadata "timestamp" (.str ctx.clock) }

/-- A project that the registry can be asked for. -/
def buildProjectResponse (registry : ProjectRegistry.State) (id : Nat) : Option ProjectResponse :=
  (ProjectRegistry.getProject registry id).toOption.map (ProjectResponse.of ctx id)

/-- The projects of a page; one that cannot be read is skipped. -/
def findAll (registry : ProjectRegistry.State) (page limit : Nat) : List ProjectResponse :=
  let total := registry.projectCount
  let start := (page - 1) * limit
  let stop := min (start + limit) total
  ((List.range' 1 total).filter fun id => start < id ∧ id ≤ stop).filterMap
    (buildProjectResponse ctx registry)

/-! ## Reports -/

/-- The 32 bytes that the text spells in hexadecimal digits, or else its hash. -/
def toBytes32 (value : String) : BytesN 32 :=
  if h : (bufferFromHex value.toList).length = 32 then ⟨bufferFromHex value.toList, h⟩
  else ctx.sha256 value

/-- The status under a number, pending where there is none. -/
def reportStatusFromIndex : Option Nat → ReportStatus
  | some 1 => .verified
  | some 2 => .challenged
  | some 3 => .rejected
  | _ => .pending

/-- The text of a ledger's time; `none` where it throws. -/
def ledgerDate (seconds : Nat) : Option Instant := toISOString ((seconds * 1000 : Nat) : ℚ)

/-- The text of the time of verification, if the report has one. -/
def verifiedDate (seconds : Nat) : Option (Option Instant) :=
  if seconds > 0 then (ledgerDate seconds).map some else some none

/-- A report as the client decodes it, the fields by their names; `none` where it
throws. -/
def decodeReport (report : Report) : Option Anomaly.ReportResponse := do
  let createdAt ← ledgerDate report.submittedAt
  let verifiedAt ← verifiedDate report.verifiedAt
  return {
    projectId := hexText report.projectId.bytes
    periodStart := report.periodStart
    periodEnd := report.periodEnd
    carbonSequestered := some report.carbonSequestered
    methodology := some report.methodology
    providerAddress := ctx.addressText report.provider
    status := reportStatusFromIndex (ctx.statusNumber report.status)
    createdAt := some createdAt
    verifiedAt := verifiedAt.map some }

/-- The reports that are stored for a key. -/
def reportsUnder (oracle : OracleConsumer.State) (key : BytesN 32) : List Report :=
  (OracleConsumer.getProjectReports oracle key).filterMap fun id =>
    (OracleConsumer.getReport oracle id).toOption

/-- The reports of a project; one that cannot be read or decoded is skipped. -/
def getProjectReports (oracle : OracleConsumer.State) (projectId : String) :
    List Anomaly.ReportResponse :=
  (reportsUnder oracle (toBytes32 ctx projectId)).filterMap (decodeReport ctx)

/-! ## Staleness -/

/-- When a report was verified, or else submitted. -/
def reportTime (report : Anomaly.ReportResponse) : Timestamp := report.verifiedAt.getD report.createdAt

/-- The sign of `reportTime(b) - reportTime(a)`; with a `NaN` any order will do. -/
def notOlder (a b : Anomaly.ReportResponse) : Bool :=
  match reportTime a, reportTime b with
  | some time, some time' => time'.ms ≤ time.ms
  | none, _ => true
  | some _, none => false

/-- The verified report with the latest time. -/
def latestVerified (reports : List Anomaly.ReportResponse) : Option Anomaly.ReportResponse :=
  ((reports.filter fun report => report.status = .verified).mergeSort notOlder).head?

/-- What the loop finds out about a project. -/
structure Examined where
  project : ProjectResponse
  lastVerifiedAt : Option Timestamp
  providerAddress : Option String

/-- A project with its latest verified report. -/
def examine (oracle : OracleConsumer.State) (project : ProjectResponse) : Examined :=
  let latest := latestVerified (getProjectReports ctx oracle (toString project.id))
  { project
    lastVerifiedAt := latest.map reportTime
    providerAddress := latest.map Anomaly.ReportResponse.providerAddress }

/-- The time that the window begins with. -/
def Examined.baseline (examined : Examined) : Timestamp :=
  examined.lastVerifiedAt.getD (ctx.getTime examined.project.createdAt)

/-- `none` where a date throws. -/
def projectMetric (now : ℚ) (examined : Examined) : Option Api.StalenessMetric := do
  let baseline ← examined.baseline ctx
  Api.buildProjectMetric (toString examined.project.id) examined.providerAddress baseline.ms
    (Api.cadenceForMethodology ctx.env examined.project.methodology) (Api.graceSeconds ctx.env) now

/-- A provider's latest report on one of its projects. -/
structure ProviderReport where
  projectId : String
  verifiedAt : Instant

/-- The latest reports of the projects, by their providers. -/
def reportsByProvider (projects : List Examined) : List (String × List ProviderReport) :=
  gather Prod.fst (fun _ => []) (fun reports entry => reports ++ [entry.2])
    (projects.filterMap fun examined => do
      let providerAddress ← examined.providerAddress
      let verifiedAt ← examined.lastVerifiedAt.join
      if providerAddress ≠ "" then
        some (providerAddress, ⟨toString examined.project.id, verifiedAt⟩)
      else none)

/-- What the monitor computes for a provider. -/
structure ProviderStalenessMetric where
  providerAddress : String
  lastVerifiedAt : Instant
  expectedNextReportAt : Instant
  stalenessSeconds : Int
  isStale : Bool
  projectIds : List String
deriving DecidableEq

/-- The later of two reports, the first of two equal ones. -/
def laterReport (a b : ProviderReport) : ProviderReport :=
  if b.verifiedAt.ms > a.verifiedAt.ms then b else a

/-- `none` where a date throws; there is no provider without a report. -/
def providerMetric (now : ℚ) : String × List ProviderReport → Option ProviderStalenessMetric
  | (_, []) => none
  | (providerAddress, first :: rest) => do
      let latest := rest.foldl laterReport first
      let expectedNext := latest.verifiedAt.ms +
        (Api.DEFAULT_CADENCE_SECONDS + Api.graceSeconds ctx.env) * 1000
      let expectedNextReportAt ← toISOString expectedNext
      return {
        providerAddress, lastVerifiedAt := latest.verifiedAt, expectedNextReportAt
        stalenessSeconds := ⌊max 0 (now - latest.verifiedAt.ms) / 1000⌋
        isStale := now > expectedNext
        projectIds := (first :: rest).map ProviderReport.projectId }

/-- The report of the monitor. -/
structure OracleStalenessReport where
  asOf : Instant
  projects : List Api.StalenessMetric
  providers : List ProviderStalenessMetric

/-- The metrics of all projects and of their providers; `none` where a date is out of
range. -/
def computeStaleness (registry : ProjectRegistry.State) (oracle : OracleConsumer.State)
    (now : ℚ) : Option OracleStalenessReport := do
  let examined := (findAll ctx registry 1 1000).map (examine ctx oracle)
  let projects ← examined.mapM (projectMetric ctx now)
  let providers ← (reportsByProvider examined).mapM (providerMetric ctx now)
  let asOf ← toISOString now
  return ⟨asOf, projects, providers⟩

/-! ## The key of a number in decimal -/

/-- Two hexadecimal digits make one byte at most. -/
theorem length_bufferFromHex_le (text : List Char) :
    (bufferFromHex text).length ≤ text.length / 2 := by
  fun_induction bufferFromHex text with
  | case1 high low rest h l hhigh hlow ih =>
      simp only [List.length_cons]
      omega
  | case2 => exact Nat.zero_le _
  | case3 => exact Nat.zero_le _

/-- No number of the registry has 64 digits. -/
theorem toBytes32_toString {n : Nat} (h : n ≤ 1000) :
    toBytes32 ctx (toString n) = ctx.sha256 (toString n) := by
  have hdigits : (Nat.repr n).length ≤ 4 := (Nat.length_repr_le_iff (by decide)).mpr (by omega)
  have hbytes := length_bufferFromHex_le (toString n).toList
  have htext : (toString n).toList.length ≤ 4 := hdigits
  rw [toBytes32, dif_neg (by omega)]

/-! ## Baselines -/

/-- The client decodes the report as a verified one. -/
def SeenVerified (report : Report) : Prop :=
  reportStatusFromIndex (ctx.statusNumber report.status) = .verified ∧
    (ledgerDate report.submittedAt).isSome ∧
    (0 < report.verifiedAt → (ledgerDate report.verifiedAt).isSome)

instance (report : Report) : Decidable (SeenVerified ctx report) := by
  unfold SeenVerified; infer_instance

/-- The time that a report counts with. -/
def seenTime (report : Report) : Nat :=
  if 0 < report.verifiedAt then report.verifiedAt else report.submittedAt

/-- The times of the reports under a key that the client takes for verified. -/
def seenTimes (oracle : OracleConsumer.State) (key : BytesN 32) : List Nat :=
  ((reportsUnder oracle key).filter fun report => SeenVerified ctx report).map seenTime

/-- The times at which the verified reports under a key were verified. -/
def verifiedTimes (oracle : OracleConsumer.State) (key : BytesN 32) : List Nat :=
  ((reportsUnder oracle key).filter fun report => report.status = .verified).map Report.verifiedAt

/-- The latest of the times, or else the time of creation; `none` is `NaN`. -/
def baselineOf (created : Timestamp) (times : List Nat) : Option Int :=
  match times.max? with
  | some seconds => some (seconds * 1000 : Nat)
  | none => created.map Instant.ms

/-- A ledger's time in milliseconds. -/
theorem ms_of_ledgerDate {seconds : Nat} {time : Instant} (h : ledgerDate seconds = some time) :
    time.ms = (seconds * 1000 : Nat) := by
  rw [ledgerDate, ← Int.cast_natCast, toISOString_intCast] at h
  split at h
  · exact (congrArg Instant.ms (Option.some.inj h)).symm
  · cases h

/-- What the client decodes of a report. -/
theorem decodeReport_eq_some {report : Report} {response : Anomaly.ReportResponse}
    (h : decodeReport ctx report = some response) :
    response.status = reportStatusFromIndex (ctx.statusNumber report.status) ∧
      (ledgerDate report.submittedAt).isSome ∧
      (0 < report.verifiedAt → (ledgerDate report.verifiedAt).isSome) ∧
      ∃ time, reportTime response = some time ∧ time.ms = (seenTime report * 1000 : Nat) := by
  rw [decodeReport] at h
  obtain ⟨createdAt, hcreated, h⟩ := Option.bind_eq_some_iff.mp h
  obtain ⟨verifiedAt, hverified, h⟩ := Option.bind_eq_some_iff.mp h
  obtain rfl := Option.some.inj h
  rw [hcreated]
  rw [verifiedDate] at hverified
  by_cases hpos : report.verifiedAt > 0
  · rw [if_pos hpos] at hverified
    obtain ⟨time, htime, rfl⟩ := Option.map_eq_some_iff.mp hverified
    refine ⟨rfl, rfl, fun _ => by rw [htime]; rfl, time, rfl, ?_⟩
    rw [ms_of_ledgerDate htime, seenTime, if_pos hpos]
  · rw [if_neg hpos] at hverified
    obtain rfl := Option.some.inj hverified
    refine ⟨rfl, rfl, fun h => absurd h hpos, createdAt, rfl, ?_⟩
    rw [ms_of_ledgerDate hcreated, seenTime, if_neg hpos]

/-- A report that is seen as verified can be decoded. -/
theorem exists_decodeReport {report : Report} (h : SeenVerified ctx report) :
    ∃ response, decodeReport ctx report = some response := by
  obtain ⟨-, hcreated, hverified⟩ := h
  obtain ⟨createdAt, hcreated⟩ := Option.isSome_iff_exists.mp hcreated
  rw [decodeReport, hcreated, verifiedDate]
  by_cases hpos : report.verifiedAt > 0
  · obtain ⟨time, htime⟩ := Option.isSome_iff_exists.mp (hverified hpos)
    rw [if_pos hpos, htime]
    exact ⟨_, rfl⟩
  · rw [if_neg hpos]
    exact ⟨_, rfl⟩

/-- Without a latest report none is verified. -/
theorem latestVerified_eq_none {reports : List Anomaly.ReportResponse}
    (h : latestVerified reports = none) :
    (reports.filter fun report => report.status = .verified) = [] := by
  rw [latestVerified, List.head?_eq_none_iff] at h
  have hlength := congrArg List.length h
  rw [List.length_mergeSort, List.length_nil] at hlength
  exact List.length_eq_zero_iff.mp hlength

/-- The first of the sorted reports is a verified one, and none is newer. -/
theorem latestVerified_eq_some {reports : List Anomaly.ReportResponse}
    {latest : Anomaly.ReportResponse} (h : latestVerified reports = some latest) :
    (latest ∈ reports ∧ latest.status = .verified) ∧
      ∀ report ∈ reports, report.status = .verified → notOlder latest report = true := by
  have hsorted : ((reports.filter fun report => report.status = .verified).mergeSort
      notOlder).Pairwise fun a b => notOlder a b = true := by
    apply List.pairwise_mergeSort
    · intro a b c
      unfold notOlder
      cases reportTime a <;> cases reportTime b <;> cases reportTime c <;> simp
      intro hab hbc
      exact hbc.trans hab
    · intro a b
      unfold notOlder
      cases reportTime a <;> cases reportTime b <;> simp
      exact le_total _ _
  have hmem {report : Anomaly.ReportResponse} : report ∈ (reports.filter fun report =>
      report.status = .verified).mergeSort notOlder ↔
        report ∈ reports ∧ report.status = .verified := by
    rw [List.mem_mergeSort, List.mem_filter, decide_eq_true_eq]
  obtain ⟨rest, hrest⟩ := List.head?_eq_some_iff.mp h
  refine ⟨hmem.mp (List.mem_of_head? h), ?_⟩
  intro report hreport hverified
  have hin := hmem.mpr ⟨hreport, hverified⟩
  rw [hrest] at hsorted hin
  rcases List.mem_cons.mp hin with rfl | hlater
  · unfold notOlder
    cases reportTime report <;> simp
  · exact List.rel_of_pairwise_cons hsorted hlater

/-- The baseline of a project is that of the reports under the client's key. -/
theorem baseline_examine (oracle : OracleConsumer.State) (project : ProjectResponse) :
    ((examine ctx oracle project).baseline ctx).map Instant.ms =
      baselineOf (ctx.getTime project.createdAt)
        (seenTimes ctx oracle (toBytes32 ctx (toString project.id))) := by
  let key := toBytes32 ctx (toString project.id)
  have htimes {seconds : Nat} : seconds ∈ seenTimes ctx oracle key ↔
      ∃ report ∈ reportsUnder oracle key, SeenVerified ctx report ∧ seenTime report = seconds := by
    simp only [seenTimes, List.mem_map, List.mem_filter, decide_eq_true_eq, and_assoc]
  have hresponse {report : Report} (hreport : report ∈ reportsUnder oracle key)
      (hseen : SeenVerified ctx report) : ∃ response ∈ getProjectReports ctx oracle
        (toString project.id), response.status = .verified ∧ ∃ time,
          reportTime response = some time ∧ time.ms = (seenTime report * 1000 : Nat) := by
    obtain ⟨response, hdecode⟩ := exists_decodeReport ctx hseen
    obtain ⟨hstatus, -, -, htime⟩ := decodeReport_eq_some ctx hdecode
    exact ⟨response, List.mem_filterMap.mpr ⟨report, hreport, hdecode⟩, hstatus.trans hseen.1, htime⟩
  rw [Examined.baseline, examine, baselineOf]
  cases hlatest : latestVerified (getProjectReports ctx oracle (toString project.id)) with
  | none =>
      have hnone : seenTimes ctx oracle key = [] := by
        apply List.eq_nil_iff_forall_not_mem.mpr
        intro seconds hseconds
        obtain ⟨report, hreport, hseen, -⟩ := htimes.mp hseconds
        obtain ⟨response, hmem, hverified, -⟩ := hresponse hreport hseen
        have hnot := List.filter_eq_nil_iff.mp (latestVerified_eq_none hlatest) response hmem
        exact hnot (decide_eq_true hverified)
      rw [hnone]
      rfl
  | some latest =>
      obtain ⟨⟨hmem, hverified⟩, hnewest⟩ := latestVerified_eq_some hlatest
      obtain ⟨report, hreport, hdecode⟩ := List.mem_filterMap.mp hmem
      obtain ⟨hstatus, hcreated, hdate, time, htime, hms⟩ := decodeReport_eq_some ctx hdecode
      have hmax : (seenTimes ctx oracle key).max? = some (seenTime report) := by
        rw [List.max?_eq_some_iff]
        refine ⟨htimes.mpr ⟨report, hreport, ⟨hstatus ▸ hverified, hcreated, hdate⟩, rfl⟩, ?_⟩
        intro seconds hseconds
        obtain ⟨report', hreport', hseen, rfl⟩ := htimes.mp hseconds
        obtain ⟨response, hmem', hverified', time', htime', hms'⟩ := hresponse hreport' hseen
        have hnot := hnewest response hmem' hverified'
        rw [notOlder, htime, htime'] at hnot
        have hle : time'.ms ≤ time.ms := of_decide_eq_true hnot
        rw [hms, hms'] at hle
        omega
      rw [hmax, Option.map_some, Option.getD_some, htime]
      exact congrArg some hms

/-! ## Reports that are computed -/

/-- A list is mapped if each of its items is. -/
theorem mapM_eq_some_iff {α β : Type} {f : α → Option β} {items : List α} {results : List β} :
    items.mapM f = some results ↔ items.map f = results.map some := by
  induction items generalizing results with
  | nil => cases results <;> simp
  | cons item items ih =>
      rw [List.mapM_cons, List.map_cons]
      constructor
      · intro h
        obtain ⟨result, hresult, h⟩ := Option.bind_eq_some_iff.mp h
        obtain ⟨rest, hrest, h⟩ := Option.bind_eq_some_iff.mp h
        obtain rfl := Option.some.inj h
        rw [hresult, ih.mp hrest, List.map_cons]
      · intro h
        cases results with
        | nil => cases h
        | cons result rest =>
            obtain ⟨hresult, hrest⟩ := List.cons.inj h
            rw [hresult, ih.mpr hrest]
            rfl

/-- A list whose items are all mapped is mapped. -/
theorem exists_mapM {α β : Type} {f : α → Option β} {items : List α}
    (h : ∀ item ∈ items, (f item).isSome) : ∃ results, items.mapM f = some results := by
  refine ⟨items.filterMap f, mapM_eq_some_iff.mpr ?_⟩
  induction items with
  | nil => rfl
  | cons item items ih =>
      obtain ⟨result, hresult⟩ := Option.isSome_iff_exists.mp (h item List.mem_cons_self)
      rw [List.map_cons, List.filterMap_cons_some hresult, List.map_cons, hresult,
        ih fun item hitem => h item (List.mem_cons_of_mem _ hitem)]

/-- What a project may take between two reports, in milliseconds. -/
def windowOf (methodology : String) : ℚ :=
  (Api.cadenceForMethodology ctx.env methodology + Api.graceSeconds ctx.env) * 1000

theorem configuredOr_pos {configured : Option ℚ} {fallback : ℚ} (h : 0 < fallback) :
    0 < Api.configuredOr configured fallback := by
  unfold Api.configuredOr
  split
  · split
    · assumption
    · exact h
  · exact h

theorem windowOf_pos (methodology : String) : 0 < windowOf ctx methodology := by
  have hcadence : 0 < Api.cadenceForMethodology ctx.env methodology := by
    unfold Api.cadenceForMethodology
    split
    · rename_i override hfind
      have hmem := List.mem_of_find?_eq_some hfind
      simp only [Api.CADENCE_OVERRIDES, List.mem_cons, List.not_mem_nil, or_false] at hmem
      rcases hmem with rfl | rfl <;> norm_num
    · exact configuredOr_pos (by norm_num [Api.DEFAULT_CADENCE_SECONDS])
  have hgrace : 0 < Api.graceSeconds ctx.env :=
    configuredOr_pos (by norm_num [Api.DEFAULT_GRACE_SECONDS])
  exact mul_pos (add_pos hcadence hgrace) (by norm_num)

/-- The last instant at which a project with the baseline is not stale. -/
def lastFresh (methodology : String) : Option Int → Int
  | some baseline => min ⌊(baseline : ℚ) + windowOf ctx methodology⌋ MAX_TIME
  | none => MAX_TIME

/-- The metric of a project, by its baseline. -/
theorem projectMetric_eq {now : ℚ} {examined : Examined} {baseline : Instant}
    (h : examined.baseline ctx = some baseline) :
    projectMetric ctx now examined =
      (toISOString ((baseline.ms : ℚ) + windowOf ctx examined.project.methodology)).map
        fun expectedNextReportAt => {
          projectId := toString examined.project.id
          providerAddress := examined.providerAddress
          lastVerifiedAt := baseline
          expectedCadenceSeconds := Api.cadenceForMethodology ctx.env examined.project.methodology
          graceSeconds := Api.graceSeconds ctx.env
          expectedNextReportAt
          stalenessSeconds := ⌊max 0 (now - baseline.ms) / 1000⌋
          isStale := now > (baseline.ms : ℚ) + windowOf ctx examined.project.methodology } := by
  rw [projectMetric, h]
  change Api.buildProjectMetric _ _ _ _ _ _ = _
  rw [Api.buildProjectMetric, toISOString_instant, windowOf]
  cases toISOString ((baseline.ms : ℚ) + (Api.cadenceForMethodology ctx.env
    examined.project.methodology + Api.graceSeconds ctx.env) * 1000) <;> rfl

/-- Whether the metrics exist does not depend on the time. -/
theorem isSome_projectMetric (now : ℚ) (examined : Examined) :
    (projectMetric ctx now examined).isSome ↔ ∃ baseline, examined.baseline ctx = some baseline ∧
      (toISOString ((baseline.ms : ℚ) + windowOf ctx examined.project.methodology)).isSome := by
  cases hbaseline : examined.baseline ctx with
  | none =>
      rw [projectMetric, hbaseline]
      simp
  | some baseline =>
      rw [projectMetric_eq ctx hbaseline, Option.isSome_map]
      simp

/-- Whether a provider has a metric does not depend on the time. -/
theorem isSome_providerMetric (now now' : ℚ) (entry : String × List ProviderReport) :
    (providerMetric ctx now entry).isSome ↔ (providerMetric ctx now' entry).isSome := by
  obtain ⟨providerAddress, reports⟩ := entry
  cases reports with
  | nil => exact Iff.rfl
  | cons first rest =>
      rw [providerMetric, providerMetric]
      cases toISOString (((rest.foldl laterReport first).verifiedAt.ms : ℚ) +
        (Api.DEFAULT_CADENCE_SECONDS + Api.graceSeconds ctx.env) * 1000) <;> exact Iff.rfl

/-- The baseline of a project by the reports under the hash of its number. -/
def seenBaseline (oracle : OracleConsumer.State) (project : ProjectResponse) : Option Int :=
  baselineOf (ctx.getTime project.createdAt)
    (seenTimes ctx oracle (ctx.sha256 (toString project.id)))

/-- The baseline of a project by the verified reports under its registry key. -/
def chainBaseline (oracle : OracleConsumer.State) (project : ProjectResponse) : Option Int :=
  baselineOf (ctx.getTime project.createdAt)
    (verifiedTimes oracle (ProjectRegistry.projectKey project.id))

/-- The projects as the monitor finds them. -/
def examinedProjects (registry : ProjectRegistry.State) (oracle : OracleConsumer.State) :
    List Examined := (findAll ctx registry 1 1000).map (examine ctx oracle)

/-- No date on the way is out of range. -/
structure DatesExist (registry : ProjectRegistry.State) (oracle : OracleConsumer.State) : Prop where
  projects : ∀ project ∈ findAll ctx registry 1 1000, ∃ baseline,
    seenBaseline ctx oracle project = some baseline ∧
      (toISOString ((baseline : ℚ) + windowOf ctx project.methodology)).isSome
  providers : ∀ entry ∈ reportsByProvider (examinedProjects ctx registry oracle),
    (providerMetric ctx 0 entry).isSome

/-- The report marks the project of a number as stale. -/
def OracleStalenessReport.Marks (report : OracleStalenessReport) (n : Nat) : Prop :=
  ∃ metric ∈ report.projects, metric.projectId = toString n ∧ metric.isStale = true

/-- Every project is found, by its number. -/
theorem mem_findAll {registry : ProjectRegistry.State} (hnumbered : registry.Numbered)
    (hcount : registry.projectCount ≤ 1000) {response : ProjectResponse} :
    response ∈ findAll ctx registry 1 1000 ↔ ∃ n project, (1 ≤ n ∧ n ≤ registry.projectCount) ∧
      ProjectRegistry.getProject registry n = .ok project ∧ project.id = n ∧
      response = ProjectResponse.of ctx n project := by
  rw [findAll, List.mem_filterMap]
  constructor
  · rintro ⟨n, hn, hresponse⟩
    obtain ⟨hrange, -⟩ := List.mem_filter.mp hn
    have hbounds : 1 ≤ n ∧ n ≤ registry.projectCount := by
      have := List.mem_range'_1.mp hrange
      omega
    obtain ⟨project, hget, hid⟩ := hnumbered.dense n hbounds.1 hbounds.2
    have hproject : ProjectRegistry.getProject registry n = .ok project := by
      rw [ProjectRegistry.getProject, hget]
      rfl
    rw [buildProjectResponse, hproject] at hresponse
    exact ⟨n, project, hbounds, hproject, hid, (Option.some.inj hresponse).symm⟩
  · rintro ⟨n, project, hbounds, hproject, hid, rfl⟩
    refine ⟨n, List.mem_filter.mpr ⟨List.mem_range'_1.mpr (by omega), ?_⟩, ?_⟩
    · rw [decide_eq_true_eq]
      omega
    · rw [buildProjectResponse, hproject]
      rfl

/-- The baseline that the monitor sees of a project. -/
theorem seenBaseline_eq {registry : ProjectRegistry.State} (hnumbered : registry.Numbered)
    (hcount : registry.projectCount ≤ 1000) {oracle : OracleConsumer.State}
    {project : ProjectResponse} (h : project ∈ findAll ctx registry 1 1000) :
    ((examine ctx oracle project).baseline ctx).map Instant.ms =
      seenBaseline ctx oracle project := by
  obtain ⟨n, stored, hbounds, -, hid, rfl⟩ := (mem_findAll ctx hnumbered hcount).mp h
  have hle : (ProjectResponse.of ctx n stored).id ≤ 1000 := by
    change stored.id ≤ 1000
    omega
  rw [baseline_examine, toBytes32_toString ctx hle, seenBaseline]

/-- When the monitor reports, and what. -/
theorem computeStaleness_eq_some_iff {registry : ProjectRegistry.State}
    {oracle : OracleConsumer.State} {now : Instant} {report : OracleStalenessReport} :
    computeStaleness ctx registry oracle now.ms = some report ↔
      (examinedProjects ctx registry oracle).mapM (projectMetric ctx now.ms) =
        some report.projects ∧
      (reportsByProvider (examinedProjects ctx registry oracle)).mapM
        (providerMetric ctx now.ms) = some report.providers ∧ report.asOf = now := by
  rw [computeStaleness, ← examinedProjects]
  constructor
  · intro h
    obtain ⟨projects, hprojects, h⟩ := Option.bind_eq_some_iff.mp h
    obtain ⟨providers, hproviders, h⟩ := Option.bind_eq_some_iff.mp h
    rw [toISOString_instant] at h
    obtain rfl := Option.some.inj h
    exact ⟨hprojects, hproviders, rfl⟩
  · rintro ⟨hprojects, hproviders, rfl⟩
    rw [hprojects, hproviders, toISOString_instant]
    rfl

/-- The monitor reports exactly where its dates exist. -/
theorem computes_iff {registry : ProjectRegistry.State} (hnumbered : registry.Numbered)
    (hcount : registry.projectCount ≤ 1000) (oracle : OracleConsumer.State) (now : Instant) :
    (∃ report, computeStaleness ctx registry oracle now.ms = some report) ↔
      DatesExist ctx registry oracle := by
  have hmetric {project : ProjectResponse} (hproject : project ∈ findAll ctx registry 1 1000) :
      (projectMetric ctx now.ms (examine ctx oracle project)).isSome ↔ ∃ baseline,
        seenBaseline ctx oracle project = some baseline ∧
          (toISOString ((baseline : ℚ) + windowOf ctx project.methodology)).isSome := by
    rw [isSome_projectMetric, ← seenBaseline_eq ctx hnumbered hcount hproject]
    simp only [Option.map_eq_some_iff, exists_exists_and_eq_and]
    rfl
  constructor
  · rintro ⟨report, h⟩
    obtain ⟨hprojects, hproviders, -⟩ := (computeStaleness_eq_some_iff ctx).mp h
    have hsome {α β : Type} {f : α → Option β} {items : List α} {results : List β}
        (h : items.mapM f = some results) : ∀ item ∈ items, (f item).isSome := by
      intro item hitem
      have hmem := List.mem_map_of_mem (f := f) hitem
      rw [mapM_eq_some_iff.mp h] at hmem
      obtain ⟨result, -, hresult⟩ := List.mem_map.mp hmem
      rw [← hresult]
      rfl
    constructor
    · intro project hproject
      exact (hmetric hproject).mp (hsome hprojects _ (List.mem_map_of_mem hproject))
    · intro entry hentry
      exact (isSome_providerMetric ctx _ _ entry).mp (hsome hproviders entry hentry)
  · rintro ⟨hprojects, hproviders⟩
    obtain ⟨projects, hprojects⟩ := @exists_mapM _ _ (projectMetric ctx now.ms)
      (examinedProjects ctx registry oracle) (by
        intro examined hexamined
        obtain ⟨project, hproject, rfl⟩ := List.mem_map.mp hexamined
        exact (hmetric hproject).mpr (hprojects project hproject))
    obtain ⟨providers, hproviders⟩ := @exists_mapM _ _ (providerMetric ctx now.ms)
      (reportsByProvider (examinedProjects ctx registry oracle)) (by
        intro entry hentry
        exact (isSome_providerMetric ctx _ _ entry).mp (hproviders entry hentry))
    exact ⟨⟨now, projects, providers⟩,
      (computeStaleness_eq_some_iff ctx).mpr ⟨hprojects, hproviders, rfl⟩⟩

/-- The last moment that is in time. -/
theorem lastFresh_lt_iff (methodology : String) (baseline : Int) (now : Instant) :
    lastFresh ctx methodology (some baseline) < now.ms ↔
      (now.ms : ℚ) > (baseline : ℚ) + windowOf ctx methodology := by
  have hnow : now.ms ≤ MAX_TIME := (le_abs_self _).trans now.inRange
  rw [lastFresh, min_lt_iff, Int.floor_lt, or_iff_left (not_lt.mpr hnow)]

/-- A project is marked once its last fresh instant has passed. -/
theorem marks_iff {registry : ProjectRegistry.State} (hnumbered : registry.Numbered)
    (hcount : registry.projectCount ≤ 1000) {oracle : OracleConsumer.State} {now : Instant}
    {report : OracleStalenessReport}
    (h : computeStaleness ctx registry oracle now.ms = some report) {n : Nat}
    {project : ProjectRegistry.Project} (hbounds : 1 ≤ n ∧ n ≤ registry.projectCount)
    (hproject : ProjectRegistry.getProject registry n = .ok project) :
    report.Marks n ↔ lastFresh ctx project.methodology
      (seenBaseline ctx oracle (ProjectResponse.of ctx n project)) < now.ms := by
  obtain ⟨hprojects, -, -⟩ := (computeStaleness_eq_some_iff ctx).mp h
  have hmetrics := mapM_eq_some_iff.mp hprojects
  have hid : project.id = n := by
    obtain ⟨stored, hget, hid⟩ := hnumbered.dense n hbounds.1 hbounds.2
    rw [ProjectRegistry.getProject, hget] at hproject
    rwa [← Except.ok.inj hproject]
  have hfound : ProjectResponse.of ctx n project ∈ findAll ctx registry 1 1000 :=
    (mem_findAll ctx hnumbered hcount).mpr ⟨n, project, hbounds, hproject, hid, rfl⟩
  -- the metric of a project that was found
  have hmetric {response : ProjectResponse} {metric : Api.StalenessMetric}
      (hresponse : response ∈ findAll ctx registry 1 1000)
      (hmetric : projectMetric ctx now.ms (examine ctx oracle response) = some metric) :
      metric.projectId = toString response.id ∧ (metric.isStale = true ↔
        lastFresh ctx response.methodology (seenBaseline ctx oracle response) < now.ms) := by
    obtain ⟨baseline, hbaseline, -⟩ := (isSome_projectMetric ctx now.ms _).mp
      (Option.isSome_iff_exists.mpr ⟨metric, hmetric⟩)
    rw [projectMetric_eq ctx hbaseline] at hmetric
    obtain ⟨expected, -, rfl⟩ := Option.map_eq_some_iff.mp hmetric
    rw [← seenBaseline_eq ctx hnumbered hcount hresponse, hbaseline, Option.map_some,
      lastFresh_lt_iff]
    exact ⟨rfl, decide_eq_true_iff⟩
  constructor
  · rintro ⟨metric, hmem, hnumber, hstale⟩
    have hsome := List.mem_map_of_mem (f := some) hmem
    rw [← hmetrics] at hsome
    obtain ⟨examined, hexamined, hthis⟩ := List.mem_map.mp hsome
    obtain ⟨response, hresponse, rfl⟩ := List.mem_map.mp hexamined
    obtain ⟨hname, hmarked⟩ := hmetric hresponse hthis
    obtain ⟨n', project', -, hproject', hid', rfl⟩ := (mem_findAll ctx hnumbered hcount).mp hresponse
    have hsame : n' = n := by
      have htext : Nat.repr project'.id = Nat.repr n := hname.symm.trans hnumber
      rw [← hid']
      exact Anomaly.repr_inj (congrArg String.toList htext)
    subst hsame
    obtain rfl := Except.ok.inj (hproject'.symm.trans hproject)
    exact hmarked.mp hstale
  · intro hlate
    have hsome := List.mem_map_of_mem (f := projectMetric ctx now.ms)
      (List.mem_map_of_mem (f := examine ctx oracle) hfound)
    rw [← examinedProjects, hmetrics] at hsome
    obtain ⟨metric, hmem, hthis⟩ := List.mem_map.mp hsome
    obtain ⟨hname, hmarked⟩ := hmetric hfound hthis.symm
    refine ⟨metric, hmem, hname.trans ?_, hmarked.mpr hlate⟩
    change Nat.repr project.id = Nat.repr n
    rw [hid]

/-! ## What the monitor sees -/

/-- At every time the report marks the projects whose verified reports under their
registry keys, or whose creation, are too long ago. -/
def SeesVerification (registry : ProjectRegistry.State) (oracle : OracleConsumer.State) : Prop :=
  ∀ now : Instant, ∃ report, computeStaleness ctx registry oracle now.ms = some report ∧
    ∀ n project, 1 ≤ n → n ≤ registry.projectCount →
      ProjectRegistry.getProject registry n = .ok project →
        (report.Marks n ↔ ∃ baseline,
          chainBaseline ctx oracle (ProjectResponse.of ctx n project) = some baseline ∧
            (now.ms : ℚ) > (baseline : ℚ) + windowOf ctx project.methodology)

/-- That moment is within the range of dates. -/
theorem lastFresh_bounds (methodology : String) (created : Timestamp) (times : List Nat) :
    |lastFresh ctx methodology (baselineOf created times)| ≤ MAX_TIME := by
  have hbounds {baseline : Int} (h : -MAX_TIME ≤ baseline) :
      |lastFresh ctx methodology (some baseline)| ≤ MAX_TIME := by
    have hfloor : baseline ≤ ⌊(baseline : ℚ) + windowOf ctx methodology⌋ := by
      rw [Int.le_floor]
      exact le_add_of_nonneg_right (windowOf_pos ctx methodology).le
    rw [lastFresh, abs_le]
    exact ⟨le_min (h.trans hfloor) (by decide), min_le_right _ _⟩
  unfold baselineOf
  split
  · apply hbounds
    exact le_trans (by decide) (Int.natCast_nonneg _)
  · cases created with
    | none =>
        change |MAX_TIME| ≤ MAX_TIME
        decide
    | some time => exact hbounds (abs_le.mp time.inRange).1

/-- A project is late exactly if the last moment is past. -/
theorem late_iff (methodology : String) (baseline : Option Int) (now : Instant) :
    (∃ start, baseline = some start ∧ (now.ms : ℚ) > (start : ℚ) + windowOf ctx methodology) ↔
      lastFresh ctx methodology baseline < now.ms := by
  cases baseline with
  | none =>
      have hnow : now.ms ≤ MAX_TIME := (le_abs_self _).trans now.inRange
      simpa [lastFresh] using hnow
  | some start => simp [lastFresh_lt_iff]

/-- **What the monitor sees of verification**: its reports say what the verified
reports under the registry keys say, exactly where no date is out of range and the
reports under the hashes of the projects' numbers, as the client decodes them, keep
every project fresh for just as long. -/
theorem sees_verification_iff (admin : Address) (txs : List ProjectRegistry.Tx)
    (oracle : OracleConsumer.State)
    (hcount : (ProjectRegistry.machine.run (ProjectRegistry.constructor admin) txs).projectCount ≤
      1000) :
    let registry := ProjectRegistry.machine.run (ProjectRegistry.constructor admin) txs
    SeesVerification ctx registry oracle ↔ DatesExist ctx registry oracle ∧
      ∀ n project, 1 ≤ n → n ≤ registry.projectCount →
        ProjectRegistry.getProject registry n = .ok project →
          lastFresh ctx project.methodology
            (seenBaseline ctx oracle (ProjectResponse.of ctx n project)) =
          lastFresh ctx project.methodology
            (chainBaseline ctx oracle (ProjectResponse.of ctx n project)) := by
  intro registry
  have hnumbered : registry.Numbered :=
    ProjectRegistry.numbered_run admin txs (by constructor <;> simp only [IntRange.u64] <;> omega)
  constructor
  · intro hsees
    obtain ⟨report, hreport, -⟩ := hsees ⟨0, by decide⟩
    refine ⟨(computes_iff ctx hnumbered hcount oracle _).mp ⟨report, hreport⟩, ?_⟩
    intro n project hfirst hlast hproject
    have hagree (now : Instant) :
        lastFresh ctx project.methodology
          (seenBaseline ctx oracle (ProjectResponse.of ctx n project)) < now.ms ↔
        lastFresh ctx project.methodology
          (chainBaseline ctx oracle (ProjectResponse.of ctx n project)) < now.ms := by
      obtain ⟨report, hreport, hmarks⟩ := hsees now
      rw [← marks_iff ctx hnumbered hcount hreport ⟨hfirst, hlast⟩ hproject,
        hmarks n project hfirst hlast hproject, late_iff]
    -- the last fresh instants are instants themselves
    let seen : Instant := ⟨lastFresh ctx project.methodology
      (seenBaseline ctx oracle (ProjectResponse.of ctx n project)), lastFresh_bounds ctx _ _ _⟩
    let onChain : Instant := ⟨lastFresh ctx project.methodology
      (chainBaseline ctx oracle (ProjectResponse.of ctx n project)), lastFresh_bounds ctx _ _ _⟩
    apply le_antisymm
    · exact not_lt.mp ((hagree seen).not.mp (lt_irrefl _))
    · exact not_lt.mp ((hagree onChain).not.mpr (lt_irrefl _))
  · rintro ⟨hdates, hsame⟩ now
    obtain ⟨report, hreport⟩ := (computes_iff ctx hnumbered hcount oracle now).mpr hdates
    refine ⟨report, hreport, ?_⟩
    intro n project hfirst hlast hproject
    rw [marks_iff ctx hnumbered hcount hreport ⟨hfirst, hlast⟩ hproject, late_iff,
      hsame n project hfirst hlast hproject]

/-! ## A verified project that is marked -/

/-- The hash of the text `1`. -/
def digestOfOne : BytesN 32 where
  bytes := [0x6b, 0x86, 0xb2, 0x73, 0xff, 0x34, 0xfc, 0xe1, 0x9d, 0x6b, 0x80, 0x4e, 0xff, 0x5a, 0x3f,
    0x57, 0x47, 0xad, 0xa4, 0xea, 0xa2, 0x2f, 0x1d, 0x49, 0xc0, 0x1e, 0x52, 0xdd, 0xb7, 0x87, 0x5b,
    0x4b]
  length_eq := rfl

/-- The time zero as a text. -/
def epochText : String := "1970-01-01T00:00:00.000Z"

/-- It is within the range. -/
theorem epoch_inRange : |(0 : Int)| ≤ MAX_TIME := by decide

def sampleMonitor : MonitorContext where
  addressText := toString
  sha256 _ := digestOfOne
  getContent _ := some [("timestamp", .str epochText)]
  clock := epochText
  getTime
    | .str text => if text = epochText then some ⟨0, epoch_inRange⟩ else none
    | _ => none
  statusNumber status := VariantForm.numbered.number status.toU32
  env := ⟨none, none⟩

/-- Project 1 is registered. -/
def sampleRegistration : List ProjectRegistry.Tx :=
  [ProjectRegistry.sampleTx 1 (.registerProject 1 ProjectRegistry.sampleHash "VCS" "US" 0)]

def sampleRegistry : ProjectRegistry.State :=
  ProjectRegistry.machine.run (ProjectRegistry.constructor 0) sampleRegistration

def sampleProject : ProjectRegistry.Project :=
  ProjectRegistry.freshProject 1 1 ProjectRegistry.sampleHash "VCS" "US"

/-- The registry answers with it. -/
theorem sampleRegistry_project : ProjectRegistry.getProject sampleRegistry 1 = .ok sampleProject :=
  rfl

/-- There is no other. -/
theorem sampleRegistry_count : sampleRegistry.projectCount = 1 := rfl

/-- The registry numbers its projects. -/
theorem sampleRegistry_numbered : sampleRegistry.Numbered :=
  ProjectRegistry.numbered_run 0 sampleRegistration (by decide +kernel)

/-- A report of the year 1970, verified 390 days after the epoch. -/
def sampleReport : Report where
  id := 1
  provider := 7
  projectId := ProjectRegistry.projectKey 1
  periodStart := 0
  periodEnd := 33000000
  carbonSequestered := 1000
  biodiversity := .absent
  methodology := "VCS"
  ipfsEvidenceHash := ProjectRegistry.sampleHash
  status := .verified
  submittedAt := 33600000
  verifiedAt := 33696000
  providerStakeAtVerification := none

def sampleOracle : OracleConsumer.State :=
  { OracleConsumer.constructor 0 with
    report := Storage.set ∅ 1 sampleReport
    reportCount := 1
    projectReports := Storage.set ∅ (ProjectRegistry.projectKey 1) [1] }

/-- Without providers there are no metrics of any. -/
theorem reportsByProvider_of_none {projects : List Examined}
    (h : ∀ examined ∈ projects, examined.providerAddress = none) :
    reportsByProvider projects = [] := by
  rw [reportsByProvider, List.filterMap_eq_nil_iff.mpr]
  · rfl
  · intro examined hexamined
    rw [h examined hexamined]
    rfl

/-- The window of a VCS project: a year and thirty days. -/
theorem window_sample : windowOf sampleMonitor "VCS" = 34128000000 := by
  have hcadence : Api.cadenceForMethodology sampleMonitor.env "VCS" = 365 * 24 * 60 * 60 := rfl
  have hgrace : Api.graceSeconds sampleMonitor.env = 30 * 24 * 60 * 60 := rfl
  rw [windowOf, hcadence, hgrace]
  norm_num

/-- A project without reports, in its first year. -/
theorem sees_verification_sample :
    SeesVerification sampleMonitor sampleRegistry (OracleConsumer.constructor 0) := by
  refine (sees_verification_iff sampleMonitor 0 sampleRegistration (OracleConsumer.constructor 0)
    (by decide +kernel)).mpr ⟨⟨?_, ?_⟩, ?_⟩
  · intro project hproject
    obtain ⟨n, stored, hbounds, hstored, -, rfl⟩ :=
      (mem_findAll sampleMonitor sampleRegistry_numbered (by decide +kernel)).mp hproject
    have hone : n = 1 := by
      rw [sampleRegistry_count] at hbounds
      omega
    subst hone
    obtain rfl := Except.ok.inj (hstored.symm.trans sampleRegistry_project)
    refine ⟨0, rfl, ?_⟩
    change (toISOString ((0 : Int) + windowOf sampleMonitor "VCS")).isSome
    rw [window_sample]
    decide +kernel
  · intro entry hentry
    rw [reportsByProvider_of_none] at hentry
    · cases hentry
    · intro examined hexamined
      obtain ⟨project, -, rfl⟩ := List.mem_map.mp hexamined
      have hreports : getProjectReports sampleMonitor (OracleConsumer.constructor 0)
          (toString project.id) = [] := rfl
      rw [examine, hreports, latestVerified, List.filter_nil, List.mergeSort_nil]
      rfl
  · intro n project _ _ _
    rfl

/-- Day 400: the project is marked, ten days after its report was verified. -/
theorem verified_project_is_marked :
    chainBaseline sampleMonitor sampleOracle (ProjectResponse.of sampleMonitor 1 sampleProject) =
      some 33696000000 ∧
    seenBaseline sampleMonitor sampleOracle (ProjectResponse.of sampleMonitor 1 sampleProject) =
      some 0 ∧
    ¬ SeesVerification sampleMonitor sampleRegistry sampleOracle := by
  have hchain : chainBaseline sampleMonitor sampleOracle
      (ProjectResponse.of sampleMonitor 1 sampleProject) = some 33696000000 := rfl
  have hseen : seenBaseline sampleMonitor sampleOracle
      (ProjectResponse.of sampleMonitor 1 sampleProject) = some 0 := rfl
  refine ⟨hchain, hseen, ?_⟩
  intro hsees
  obtain ⟨report, hreport, hmarks⟩ := hsees ⟨34560000000, by decide⟩
  have hmarked := marks_iff sampleMonitor sampleRegistry_numbered (by decide +kernel) hreport
    ⟨le_rfl, le_rfl⟩ sampleRegistry_project
  rw [hmarks 1 sampleProject le_rfl le_rfl sampleRegistry_project, hchain, hseen,
    lastFresh_lt_iff] at hmarked
  have hvcs : windowOf sampleMonitor sampleProject.methodology = 34128000000 := window_sample
  rw [hvcs] at hmarked
  norm_num at hmarked

end EcoMint.Monitor
