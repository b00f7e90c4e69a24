import EcoMint.InsertionMap
import EcoMint.Shared
import EcoMint.Staleness
import Mathlib.Algebra.Order.WithTop.Untop0
import Mathlib.Data.Rat.Floor

/-!
# Reports that contradict each other

Independent reports on the same project and period are compared: a report that
deviates from their median by more than a tolerance is an outlier.  The oracle
package and the API each have an implementation.  They assess the same clusters
in the same way, except for the text of one explanation.
-/

namespace EcoMint.Anomaly

open InsertionMap TextPattern

/-- The families of methodologies that are told apart. -/
inductive MethodologyFamily
  | verraVcs
  | remoteSensing
  | iotSensors
  | blueCarbon
  | unknown
deriving DecidableEq, Repr

/-- The name of a family. -/
def MethodologyFamily.text : MethodologyFamily → String
  | .verraVcs => "VERRA-VCS"
  | .remoteSensing => "REMOTE-SENSING"
  | .iotSensors => "IOT-SENSORS"
  | .blueCarbon => "BLUE-CARBON"
  | .unknown => "UNKNOWN"

/-- What an assessment may find. -/
inductive AnomalyKind
  | normal
  | outlier
  | conflictingSources
  | missingSource
deriving DecidableEq, Repr

/-- How bad it is. -/
inductive Severity
  | info
  | warning
  | critical
deriving DecidableEq, Repr

/-- A relative deviation; the top is `Number.POSITIVE_INFINITY`. -/
abbrev Deviation := WithTop ℚ

/-- How far a source is from the median. -/
structure SourceDeviation where
  sourceId : String
  value : ℚ
  deviation : Option Deviation
deriving DecidableEq

/-- The assessment of the sources of one project and period. -/
structure CrossSourceAssessment where
  projectId : String
  periodKey : String
  kind : AnomalyKind
  severity : Severity
  median : Option ℚ
  deviations : List SourceDeviation
  tolerance : ℚ
  reason : String
deriving DecidableEq

/-- The characters of `\s`, which are also those that `trim` takes off. -/
def isWhiteSpace (c : Char) : Bool :=
  c ∈ ['\t', '\n', '\u000B', '\u000C', '\r', ' ', '\u00A0', '\u1680', '\u2028', '\u2029',
    '\u202F', '\u205F', '\u3000', '\uFEFF'] || ('\u2000' ≤ c && c ≤ '\u200A')

/-- `String.prototype.trim` -/
def trim (text : List Char) : List Char :=
  ((text.dropWhile isWhiteSpace).reverse.dropWhile isWhiteSpace).reverse

/-- `[\s-]?` -/
def spaceOrHyphen : Item := .optional fun c => isWhiteSpace c || c = '-'

/-- `Math.round(deviation * 100)` as text -/
def percentText : Deviation → String
  | some deviation => toString ⌊deviation * 100 + 1 / 2⌋
  | none => "Infinity"

/-- `${periodStart}-${periodEnd}` -/
def periodText (periodStart periodEnd : Int) : String :=
  toString periodStart ++ "-" ++ toString periodEnd

/-- The key of a project and a period. -/
def clusterKey (projectId : String) (periodStart periodEnd : Int) : String :=
  projectId ++ "::" ++ periodText periodStart periodEnd

/-! ## The oracle package -/

namespace Package

/-- How far a value may be from the median, by family. -/
def METHODOLOGY_TOLERANCE : MethodologyFamily → ℚ
  | .verraVcs => 15 / 100
  | .remoteSensing => 25 / 100
  | .iotSensors => 35 / 100
  | .blueCarbon => 30 / 100
  | .unknown => 30 / 100

/-- The tolerance of a family that is not known. -/
def DEFAULT_TOLERANCE : ℚ := METHODOLOGY_TOLERANCE .unknown

/-- The patterns that tell a family. -/
def FAMILY_ALIASES : List (MethodologyFamily × List (List Item)) := [
  (.verraVcs, [word "verra", word "vcs"]),
  (.remoteSensing, [word "remote", word "satellite", word "sentinel", word "landsat"]),
  (.iotSensors, [word "iot", word "sensor"]),
  (.blueCarbon, [word "blue" ++ [spaceOrHyphen] ++ word "carbon", word "mangrove",
    word "seagrass", word "saltmarsh", word "salt" ++ [spaceOrHyphen] ++ word "marsh"])]

/-- The family of a methodology text: the first one with a pattern in it. -/
def normalizeMethodology (methodology : Option String) : MethodologyFamily :=
  let raw := trim (methodology.getD "").toList
  if raw = [] then .unknown
  else match FAMILY_ALIASES.find? fun entry => entry.2.any fun pattern => test pattern raw with
    | some entry => entry.1
    | none => .unknown

/-- The value of one source. -/
structure CrossSourceValue where
  sourceId : String
  methodology : Option String
  carbon : ℚ

/-- The values of one project and period. -/
structure CrossSourceGroup where
  projectId : String
  periodKey : String
  values : List CrossSourceValue

/-- The value in the middle, or half way between the two there; 0 of none. -/
def median (values : List ℚ) : ℚ :=
  if values.length = 0 then 0
  else
    let sorted := values.mergeSort fun a b => a ≤ b
    let mid := sorted.length / 2
    if sorted.length % 2 ≠ 0 then sorted.getD mid 0
    else (sorted.getD (mid - 1) 0 + sorted.getD mid 0) / 2

/-- The distance from a reference as a part of it; from 0 it is infinite. -/
def relativeDeviation (value reference : ℚ) : Deviation :=
  if reference = 0 then if value = 0 then 0 else ⊤
  else ((|value - reference| / |reference| : ℚ) : WithTop ℚ)

/-- The deviation is beyond the tolerance. -/
def beyond (tolerance : ℚ) (entry : SourceDeviation) : Bool :=
  match entry.deviation with
  | some deviation => (tolerance : WithTop ℚ) < deviation
  | none => false

/-- The deviation of an entry that has one. -/
def deviationOf (entry : SourceDeviation) : Deviation := entry.deviation.getD 0

/-- The entry with the greater deviation, the first of two equal ones. -/
def worse (a b : SourceDeviation) : SourceDeviation :=
  if deviationOf a < deviationOf b then b else a

/-- The assessment of one group. -/
def assessCrossSourceAnomaly (group : CrossSourceGroup) : CrossSourceAssessment :=
  let values := group.values
  if values.length < 2 then {
    projectId := group.projectId, periodKey := group.periodKey
    kind := .missingSource, severity := .info, median := none
    deviations := values.map fun value => ⟨value.sourceId, value.carbon, none⟩
    tolerance := DEFAULT_TOLERANCE
    reason := "Only " ++ toString values.length ++ " independent source(s) reported; " ++
      "at least two are required for a cross-source comparison." }
  else
    let family := normalizeMethodology (values.head?.bind CrossSourceValue.methodology)
    let tolerance := METHODOLOGY_TOLERANCE family
    let med := median (values.map CrossSourceValue.carbon)
    let deviations := values.map fun value =>
      SourceDeviation.mk value.sourceId value.carbon (some (relativeDeviation value.carbon med))
    let outliers := deviations.filter (beyond tolerance)
    match outliers with
    | [] => {
        projectId := group.projectId, periodKey := group.periodKey
        kind := .normal, severity := .info, median := some med, deviations, tolerance
        reason := "All " ++ toString values.length ++ " sources agree within " ++
          percentText tolerance ++ "% of the median." }
    | first :: rest =>
        let maxDeviation := (rest.map deviationOf).foldl max (deviationOf first)
        let critical := ((tolerance * 2 : ℚ) : WithTop ℚ) < maxDeviation
        let severity := if critical then Severity.critical else Severity.warning
        let worst := rest.foldl worse first
        if outliers.length ≥ 2 then {
          projectId := group.projectId, periodKey := group.periodKey
          kind := .conflictingSources, severity, median := some med, deviations, tolerance
          reason := toString outliers.length ++
            " sources disagree with the median by more than " ++ percentText tolerance ++ "% " ++
            "(worst: " ++ worst.sourceId ++ " deviates " ++ percentText (deviationOf worst) ++
            "%)." }
        else {
          projectId := group.projectId, periodKey := group.periodKey
          kind := .outlier, severity, median := some med, deviations, tolerance
          reason := "Source " ++ worst.sourceId ++ " deviates " ++
            percentText (deviationOf worst) ++ "% " ++ "from the median, beyond the " ++
            percentText tolerance ++ "% tolerance for " ++ family.text ++ "." }

/-- A report as the package takes it. -/
structure Report where
  projectId : String
  periodStart : Int
  periodEnd : Int
  sourceId : String
  methodology : Option String
  carbon : ℚ

/-- The text under which reports are grouped. -/
def Report.key (report : Report) : String :=
  clusterKey report.projectId report.periodStart report.periodEnd

/-- The group that a report opens. -/
def Report.spec (report : Report) : CrossSourceGroup :=
  ⟨report.projectId, periodText report.periodStart report.periodEnd, []⟩

/-- One more report in a group. -/
def CrossSourceGroup.push (group : CrossSourceGroup) (report : Report) : CrossSourceGroup :=
  { group with values := group.values ++ [⟨report.sourceId, report.methodology, report.carbon⟩] }

/-- The assessments of all groups. -/
def assessCrossSourceAnomalies (groups : List CrossSourceGroup) : List CrossSourceAssessment :=
  groups.map assessCrossSourceAnomaly

/-- The groups, in the order in which they were opened. -/
def grouped (reports : List Report) : List (String × CrossSourceGroup) :=
  gather Report.key Report.spec CrossSourceGroup.push reports

/-- The assessments of the reports, grouped. -/
def groupAndAssess (reports : List Report) : List CrossSourceAssessment :=
  assessCrossSourceAnomalies ((grouped reports).map Prod.snd)

end Package

/-! ## The API -/

/-- A report as the API serves it. -/
structure ReportResponse where
  projectId : String
  periodStart : Int
  periodEnd : Int
  /-- `Number(carbonSequestered)`, if it is finite -/
  carbonSequestered : Option ℚ
  methodology : Option String
  providerAddress : String
  status : ReportStatus
  createdAt : Staleness.Timestamp
  verifiedAt : Option Staleness.Timestamp

namespace Api

/-- How far a value may be from the median, by family. -/
def METHODOLOGY_TOLERANCE : MethodologyFamily → ℚ
  | .verraVcs => 15 / 100
  | .remoteSensing => 25 / 100
  | .iotSensors => 35 / 100
  | .blueCarbon => 30 / 100
  | .unknown => 30 / 100

/-- The patterns that tell a family. -/
def FAMILY_ALIASES : List (MethodologyFamily × List (List Item)) := [
  (.verraVcs, [word "verra", word "vcs"]),
  (.remoteSensing, [word "remote", word "satellite", word "sentinel", word "landsat"]),
  (.iotSensors, [word "iot", word "sensor"]),
  (.blueCarbon, [word "blue" ++ [spaceOrHyphen] ++ word "carbon", word "mangrove",
    word "seagrass", word "saltmarsh", word "salt" ++ [spaceOrHyphen] ++ word "marsh"])]

/-- The family of a methodology text: the first one with a pattern in it. -/
def normalizeMethodology (methodology : Option String) : MethodologyFamily :=
  let raw := trim (methodology.getD "").toList
  if raw = [] then .unknown
  else match FAMILY_ALIASES.find? fun entry => entry.2.any fun pattern => test pattern raw with
    | some entry => entry.1
    | none => .unknown

/-- The value in the middle, or half way between the two there; 0 of none. -/
def median (values : List ℚ) : ℚ :=
  if values.length = 0 then 0
  else
    let sorted := values.mergeSort fun a b => a ≤ b
    let mid := sorted.length / 2
    if sorted.length % 2 ≠ 0 then sorted.getD mid 0
    else (sorted.getD (mid - 1) 0 + sorted.getD mid 0) / 2

/-- The distance from a reference as a part of it; from 0 it is infinite. -/
def relativeDeviation (value reference : ℚ) : Deviation :=
  if reference = 0 then if value = 0 then 0 else ⊤
  else ((|value - reference| / |reference| : ℚ) : WithTop ℚ)

/-- A report as the API compares it. -/
structure CrossSourceReport where
  carbon : ℚ
  providerAddress : String
  methodology : Option String

/-- The deviation is beyond the tolerance. -/
def beyond (tolerance : ℚ) (entry : SourceDeviation) : Bool :=
  match entry.deviation with
  | some deviation => (tolerance : WithTop ℚ) < deviation
  | none => false

/-- The deviation of an entry; 0 where it has none. -/
def deviationOf (entry : SourceDeviation) : Deviation := entry.deviation.getD 0

/-- The entry with the greater deviation, the first of two equal ones. -/
def worse (a b : SourceDeviation) : SourceDeviation :=
  if deviationOf a < deviationOf b then b else a

/-- The assessment of one cluster. -/
def assessCluster (projectId : String) (periodStart periodEnd : Int)
    (reports : List CrossSourceReport) : CrossSourceAssessment :=
  let periodKey := periodText periodStart periodEnd
  if reports.length < 2 then {
    projectId, periodKey
    kind := .missingSource, severity := .info, median := none
    deviations := reports.map fun report => ⟨report.providerAddress, report.carbon, none⟩
    tolerance := METHODOLOGY_TOLERANCE .unknown
    reason := "Only " ++ toString reports.length ++ " independent source(s) report this period; " ++
      "at least two are required for a cross-source comparison." }
  else
    let family := normalizeMethodology (reports.head?.bind CrossSourceReport.methodology)
    let tolerance := METHODOLOGY_TOLERANCE family
    let med := median (reports.map CrossSourceReport.carbon)
    let deviations := reports.map fun report =>
      SourceDeviation.mk report.providerAddress report.carbon
        (some (relativeDeviation report.carbon med))
    let outliers := deviations.filter (beyond tolerance)
    match outliers with
    | [] => {
        projectId, periodKey
        kind := .normal, severity := .info, median := some med, deviations, tolerance
        reason := "All " ++ toString reports.length ++ " sources agree within " ++
          percentText tolerance ++ "% of the median." }
    | first :: rest =>
        let maxDeviation := (rest.map deviationOf).foldl max (deviationOf first)
        let severity :=
          if ((tolerance * 2 : ℚ) : WithTop ℚ) < maxDeviation then Severity.critical
          else Severity.warning
        let worst := rest.foldl worse first
        if outliers.length ≥ 2 then {
          projectId, periodKey
          kind := .conflictingSources, severity, median := some med, deviations, tolerance
          reason := toString outliers.length ++
            " sources disagree with the median by more than " ++ percentText tolerance ++ "% " ++
            "(worst: " ++ worst.sourceId ++ " deviates " ++ percentText (deviationOf worst) ++
            "%)." }
        else {
          projectId, periodKey
          kind := .outlier, severity, median := some med, deviations, tolerance
          reason := "Source " ++ worst.sourceId ++ " deviates " ++
            percentText (deviationOf worst) ++ "% " ++ "from the median, beyond the " ++
            percentText tolerance ++ "% tolerance for " ++ family.text ++ "." }

/-- What the loop does with a verified report that has a finite amount. -/
structure FiniteReport extends ReportResponse where
  carbon : ℚ

/-- The text under which reports are clustered. -/
def FiniteReport.key (report : FiniteReport) : String :=
  clusterKey report.projectId report.periodStart report.periodEnd

/-- What is compared of a report. -/
def FiniteReport.toCrossSource (report : FiniteReport) : CrossSourceReport :=
  ⟨report.carbon, report.providerAddress, report.methodology⟩

/-- The reports that the loop does not skip. -/
def finiteVerified (reports : List ReportResponse) : List FiniteReport :=
  (reports.filter fun report => report.status = .verified).filterMap fun report =>
    report.carbonSequestered.map fun carbon => { report with carbon }

/-- The reports in clusters. -/
def clusters (reports : List FiniteReport) : List (String × List CrossSourceReport) :=
  gather FiniteReport.key (fun _ => []) (fun cluster report => cluster ++ [report.toCrossSource])
    reports

/-- The project and period of a key, which its first report sets. -/
def keys (reports : List FiniteReport) : List (String × (String × Int × Int)) :=
  gather FiniteReport.key
    (fun report => (report.projectId, report.periodStart, report.periodEnd)) (fun spec _ => spec)
    reports

/-- The assessments of the verified reports with a finite value, cluster by cluster. -/
def computeCrossSourceAnomalies (reports : List ReportResponse) : List CrossSourceAssessment :=
  let verified := finiteVerified reports
  (clusters verified).map fun cluster =>
    let (projectId, periodStart, periodEnd) := ((keys verified).lookup cluster.1).getD ("", 0, 0)
    assessCluster projectId periodStart periodEnd cluster.2

end Api

/-! ## The two implementations -/

/-- The report as the oracle package takes it, with the provider as its source;
nothing for a report that is not verified or has no finite amount. -/
def ReportResponse.toPackage (report : ReportResponse) : Option Package.Report :=
  if report.status = .verified then
    report.carbonSequestered.map fun carbon =>
      ⟨report.projectId, report.periodStart, report.periodEnd, report.providerAddress,
        report.methodology, carbon⟩
  else none

/-- A report of the API as one of the package. -/
def Api.FiniteReport.toPackage (report : Api.FiniteReport) : Package.Report :=
  ⟨report.projectId, report.periodStart, report.periodEnd, report.providerAddress,
    report.methodology, report.carbon⟩

/-- The package is given the verified reports with a finite value. -/
theorem filterMap_toPackage (reports : List ReportResponse) :
    reports.filterMap ReportResponse.toPackage =
      (Api.finiteVerified reports).map Api.FiniteReport.toPackage := by
  rw [Api.finiteVerified, List.map_filterMap, List.filterMap_filter]
  congr
  funext report
  unfold ReportResponse.toPackage
  by_cases h : report.status = .verified
  · cases report.carbonSequestered <;> simp [h, Api.FiniteReport.toPackage]
  · simp [h]

/-- An assessment but for the text that explains it. -/
def CrossSourceAssessment.figures (assessment : CrossSourceAssessment) : CrossSourceAssessment :=
  { assessment with reason := "" }

/-- A value of the package as a report of the API. -/
def Package.CrossSourceValue.toApi (value : Package.CrossSourceValue) : Api.CrossSourceReport :=
  ⟨value.carbon, value.sourceId, value.methodology⟩

/-- A cluster is assessed alike. -/
theorem assessCluster_figures (group : Package.CrossSourceGroup) {periodStart periodEnd : Int}
    (hperiod : periodText periodStart periodEnd = group.periodKey) :
    (Api.assessCluster group.projectId periodStart periodEnd
      (group.values.map Package.CrossSourceValue.toApi)).figures =
        (Package.assessCrossSourceAnomaly group).figures := by
  have hcarbon : (group.values.map Package.CrossSourceValue.toApi).map
      Api.CrossSourceReport.carbon = group.values.map Package.CrossSourceValue.carbon := by
    rw [List.map_map]
    rfl
  have hmethodology : (group.values.map Package.CrossSourceValue.toApi).head?.bind
      Api.CrossSourceReport.methodology =
        group.values.head?.bind Package.CrossSourceValue.methodology := by
    rw [List.head?_map]
    cases group.values.head? <;> rfl
  have hmedian : Api.median = Package.median := rfl
  have hnormalize : Api.normalizeMethodology = Package.normalizeMethodology := rfl
  have htolerance : Api.METHODOLOGY_TOLERANCE = Package.METHODOLOGY_TOLERANCE := rfl
  rw [Api.assessCluster, Package.assessCrossSourceAnomaly, List.length_map, hcarbon, hmethodology,
    hmedian, hnormalize, htolerance, hperiod, List.map_map]
  dsimp only
  rw [List.map_map]
  split
  · rfl
  · rfl

/-- The clusters of the API are the groups of the package. -/
theorem clusters_eq (reports : List Api.FiniteReport) :
    Api.clusters reports =
      (Package.grouped (reports.map Api.FiniteReport.toPackage)).map
        (Prod.map id fun group => group.values.map Package.CrossSourceValue.toApi) := by
  rw [Package.grouped, gather_map, Api.clusters]
  symm
  apply map_gather fun group : Package.CrossSourceGroup =>
    group.values.map Package.CrossSourceValue.toApi
  · intro report
    rfl
  · intro group report
    rw [Package.CrossSourceGroup.push, List.map_append]
    rfl

/-- The project and the period that the API keeps for a group are those of the
group. -/
theorem keys_of_grouped {reports : List Api.FiniteReport} {key : String}
    {group : Package.CrossSourceGroup}
    (h : (key, group) ∈ Package.grouped (reports.map Api.FiniteReport.toPackage)) :
    ∃ periodStart periodEnd,
      (Api.keys reports).lookup key = some (group.projectId, periodStart, periodEnd) ∧
        periodText periodStart periodEnd = group.periodKey := by
  let spec (report : Api.FiniteReport) : String × String :=
    (report.projectId, periodText report.periodStart report.periodEnd)
  have hkeys : (Api.keys reports).map
      (Prod.map id fun spec => (spec.1, periodText spec.2.1 spec.2.2)) =
        gather Api.FiniteReport.key spec (fun spec _ => spec) reports :=
    map_gather (fun spec : String × Int × Int => (spec.1, periodText spec.2.1 spec.2.2))
      Api.FiniteReport.key (fun report => rfl) (fun spec report => rfl) reports
  have hgroups : (Package.grouped (reports.map Api.FiniteReport.toPackage)).map
      (Prod.map id fun group => (group.projectId, group.periodKey)) =
        gather Api.FiniteReport.key spec (fun spec _ => spec) reports := by
    rw [Package.grouped, gather_map]
    exact map_gather (fun group : Package.CrossSourceGroup => (group.projectId, group.periodKey))
      Api.FiniteReport.key (fun report => rfl) (fun group report => rfl) reports
  have hlookup : (Package.grouped (reports.map Api.FiniteReport.toPackage)).lookup key =
      some group := (mem_iff_lookup (nodup_gather _ _ _ _)).mp h
  have hspec := congrArg (List.lookup key) (hkeys.trans hgroups.symm)
  rw [lookup_map, lookup_map, hlookup, Option.map_some] at hspec
  obtain ⟨⟨projectId, periodStart, periodEnd⟩, hkeys, hpair⟩ := Option.map_eq_some_iff.mp hspec
  obtain ⟨rfl, hperiod⟩ := Prod.mk.inj hpair
  exact ⟨periodStart, periodEnd, hkeys, hperiod⟩

/-- Both give the same figures. -/
theorem compute_figures (reports : List ReportResponse) :
    (Api.computeCrossSourceAnomalies reports).map CrossSourceAssessment.figures =
      (Package.groupAndAssess (reports.filterMap ReportResponse.toPackage)).map
        CrossSourceAssessment.figures := by
  rw [Api.computeCrossSourceAnomalies, Package.groupAndAssess, Package.assessCrossSourceAnomalies,
    filterMap_toPackage, clusters_eq]
  simp only [List.map_map]
  apply List.map_congr_left
  rintro ⟨key, group⟩ hgroup
  obtain ⟨periodStart, periodEnd, hkeys, hperiod⟩ := keys_of_grouped hgroup
  simp only [Function.comp_apply, Prod.map_apply, id_eq, hkeys, Option.getD_some]
  exact assessCluster_figures group hperiod

/-- What is compared: all but the explanation. -/
def CrossSourceAssessment.compared (assessment : CrossSourceAssessment) :
    (String × String) × AnomalyKind × Severity × Option ℚ × List SourceDeviation × ℚ :=
  ((assessment.projectId, assessment.periodKey), assessment.kind, assessment.severity,
    assessment.median, assessment.deviations, assessment.tolerance)

/-- **The API and the oracle package agree**: for every list of reports they give
the same assessments in the same order, apart from the explanations. -/
theorem anomaly_detectors_agree (reports : List ReportResponse) :
    (Api.computeCrossSourceAnomalies reports).map CrossSourceAssessment.compared =
      (Package.groupAndAssess (reports.filterMap ReportResponse.toPackage)).map
        CrossSourceAssessment.compared := by
  have hcompared : CrossSourceAssessment.compared =
      CrossSourceAssessment.compared ∘ CrossSourceAssessment.figures := rfl
  rw [hcompared, ← List.map_map, ← List.map_map, compute_figures]

end EcoMint.Anomaly
