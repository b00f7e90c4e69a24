import EcoMint.TextPattern
import Mathlib.Algebra.Order.Floor.Ring
import Mathlib.Data.Rat.Floor
import Mathlib.Tactic.Linarith
import Mathlib.Tactic.NormNum

/-!
# Two measures of staleness

The oracle package and the monitor of the API both compare the age of a project's
last verified report with the cadence of its methodology.  From the same cadence
they compute the same figures.  The package looks the cadence up by the whole
name in upper case, the monitor searches the name for a pattern, and it has none
for blue carbon.
-/

namespace EcoMint.Staleness

open TextPattern

/-! ## Times -/

/-- The last time value, in milliseconds. -/
def MAX_TIME : Int := 8640000000000000

/-- A time value that is not `NaN`; `toISOString` is its text. -/
structure Instant where
  ms : Int
  inRange : |ms| ≤ MAX_TIME
deriving DecidableEq

/-- A timestamp, by what `Date.parse` makes of it; `none` is `NaN`. -/
abbrev Timestamp := Option Instant

/-- `new Date(time).toISOString()`; `none` where it throws. -/
def toISOString (time : ℚ) : Option Instant :=
  let ms := time.num.tdiv time.den
  if h : |ms| ≤ MAX_TIME then some ⟨ms, h⟩ else none

@[simp] theorem toISOString_intCast (n : Int) :
    toISOString n = if h : |n| ≤ MAX_TIME then some ⟨n, h⟩ else none := by
  simp [toISOString]

/-- The text of an instant is that of its time. -/
theorem toISOString_instant (t : Instant) : toISOString t.ms = some t := by
  rw [toISOString_intCast, dif_pos t.inRange]

/-! ## The oracle package -/

namespace Package

/-- A year, unless the methodology has another cadence. -/
def DEFAULT_CADENCE_SECONDS : ℚ := 365 * 24 * 60 * 60

/-- Thirty days, unless the caller says otherwise. -/
def DEFAULT_GRACE_SECONDS : ℚ := 30 * 24 * 60 * 60

/-- The methodologies with cadences of their own. -/
def METHODOLOGY_CADENCES : List (String × ℚ) := [
  ("REMOTE-SENSING", 90 * 24 * 60 * 60),
  ("SATELLITE", 90 * 24 * 60 * 60),
  ("IOT", 30 * 24 * 60 * 60),
  ("IOT-SENSORS", 30 * 24 * 60 * 60),
  ("BLUE-CARBON", 90 * 24 * 60 * 60)]

/-- The characters outside ASCII that have an ASCII letter in their upper case. -/
def specialUpperCase : List (Char × List Char) := [
  ('\u00DF', ['S', 'S']), ('\u0131', ['I']), ('\u0149', ['\u02BC', 'N']), ('\u017F', ['S']),
  ('\u01F0', ['J', '\u030C']), ('\u1E96', ['H', '\u0331']), ('\u1E97', ['T', '\u0308']),
  ('\u1E98', ['W', '\u030A']), ('\u1E99', ['Y', '\u030A']), ('\u1E9A', ['A', '\u02BE']),
  ('\uFB00', ['F', 'F']), ('\uFB01', ['F', 'I']), ('\uFB02', ['F', 'L']),
  ('\uFB03', ['F', 'F', 'I']), ('\uFB04', ['F', 'F', 'L']), ('\uFB05', ['S', 'T']),
  ('\uFB06', ['S', 'T'])]

/-- The upper case of the other characters outside ASCII: what it is does not
matter, as long as it stays outside. -/
structure UpperCase where
  upper : Char → List Char
  not_ascii : ∀ c, ∀ d ∈ upper c, 128 ≤ d.val

/-- `toUpperCase` of a character. -/
def upperChar (table : UpperCase) (c : Char) : List Char :=
  if c.val < 128 then [c.toUpper] else (specialUpperCase.lookup c).getD (table.upper c)

/-- `String.prototype.toUpperCase` -/
def toUpperCase (table : UpperCase) (text : String) : String :=
  String.ofList (text.toList.flatMap (upperChar table))

/-- How often a methodology reports. -/
def cadenceForMethodology (table : UpperCase) (methodology : String) : ℚ :=
  (METHODOLOGY_CADENCES.lookup (toUpperCase table methodology)).getD DEFAULT_CADENCE_SECONDS

/-- What is known of a project before the computation. -/
structure StalenessInput where
  projectId : String
  provider : Option String
  lastVerifiedAt : Option Timestamp
  createdAt : Timestamp
  cadenceSeconds : ℚ
  graceSeconds : Option ℚ

/-- What is computed for a project. -/
structure StalenessResult where
  projectId : String
  provider : Option String
  lastVerifiedAt : Option Instant
  expectedNextReportAt : Instant
  stalenessSeconds : Int
  isStale : Bool
deriving DecidableEq

/-- The time of a text that is a date, or else the fallback. -/
def parseTimestamp (value : Timestamp) (fallback : ℚ) : ℚ :=
  match value with
  | some parsed => parsed.ms
  | none => fallback

/-- The result for one project; `none` where a date throws. -/
def stalenessOf (now : ℚ) (input : StalenessInput) : Option StalenessResult := do
  let cadence := if input.cadenceSeconds > 0 then input.cadenceSeconds else DEFAULT_CADENCE_SECONDS
  let grace := match input.graceSeconds with
    | some seconds => if seconds > 0 then seconds else DEFAULT_GRACE_SECONDS
    | none => DEFAULT_GRACE_SECONDS
  let baseline := match input.lastVerifiedAt with
    | some lastVerifiedAt => parseTimestamp lastVerifiedAt now
    | none => parseTimestamp input.createdAt now
  let expectedNextReportAt := baseline + (cadence + grace) * 1000
  let lastVerifiedAt ← match input.lastVerifiedAt with
    | some _ => (toISOString baseline).map some
    | none => some none
  let expectedNextReportAtText ← toISOString expectedNextReportAt
  return {
    projectId := input.projectId, provider := input.provider, lastVerifiedAt
    expectedNextReportAt := expectedNextReportAtText
    stalenessSeconds := max 0 ⌊(now - baseline) / 1000⌋
    isStale := now > expectedNextReportAt }

/-- The results for all projects; none where one of them throws. -/
def computeStaleness (inputs : List StalenessInput) (now : ℚ) : Option (List StalenessResult) :=
  inputs.mapM (stalenessOf now)

end Package

/-! ## The monitor of the API -/

namespace Api

/-- A year, unless the environment or the methodology has another cadence. -/
def DEFAULT_CADENCE_SECONDS : ℚ := 365 * 24 * 60 * 60

/-- Thirty days, unless the environment says otherwise. -/
def DEFAULT_GRACE_SECONDS : ℚ := 30 * 24 * 60 * 60

/-- `.` in a regular expression: one code unit that ends no line. -/
def anyChar (c : Char) : Bool :=
  c.val < 0x10000 && c ∉ ['\n', '\r', '\u2028', '\u2029']

/-- `/REMOTE.?SENSING|SATELLITE/i` -/
def remoteSensing : List (List Item) :=
  [word "REMOTE" ++ [.optional anyChar] ++ word "SENSING", word "SATELLITE"]

/-- `/IOT|SENSOR/i` -/
def iotSensors : List (List Item) := [word "IOT", word "SENSOR"]

/-- The methodologies with cadences of their own, by patterns. -/
def CADENCE_OVERRIDES : List (List (List Item) × ℚ) := [
  (remoteSensing, 90 * 24 * 60 * 60),
  (iotSensors, 30 * 24 * 60 * 60)]

/-- The methodology matches one of the alternatives. -/
def matchesAny (patterns : List (List Item)) (methodology : String) : Bool :=
  patterns.any fun pattern => test pattern methodology.toList

/-- The environment variables as numbers, where they are finite. -/
structure Environment where
  cadenceSeconds : Option ℚ
  graceSeconds : Option ℚ

/-- A number that was configured, if it is positive. -/
def configuredOr (configured : Option ℚ) (fallback : ℚ) : ℚ :=
  match configured with
  | some seconds => if seconds > 0 then seconds else fallback
  | none => fallback

/-- How often a methodology reports: the first pattern that it matches, or else the
default. -/
def cadenceForMethodology (env : Environment) (methodology : String) : ℚ :=
  match CADENCE_OVERRIDES.find? fun override => matchesAny override.1 methodology with
  | some override => override.2
  | none => configuredOr env.cadenceSeconds DEFAULT_CADENCE_SECONDS

/-- How long a report may be late. -/
def graceSeconds (env : Environment) : ℚ := configuredOr env.graceSeconds DEFAULT_GRACE_SECONDS

/-- What the monitor computes for a project. -/
structure StalenessMetric where
  projectId : String
  providerAddress : Option String
  lastVerifiedAt : Instant
  expectedCadenceSeconds : ℚ
  graceSeconds : ℚ
  expectedNextReportAt : Instant
  stalenessSeconds : Int
  isStale : Bool
deriving DecidableEq

/-- `none` where a date throws. -/
def buildProjectMetric (projectId : String) (providerAddress : Option String)
    (baselineMs cadenceSeconds grace now : ℚ) : Option StalenessMetric := do
  let expectedNext := baselineMs + (cadenceSeconds + grace) * 1000
  let staleness := max 0 (now - baselineMs)
  let lastVerifiedAt ← toISOString baselineMs
  let expectedNextReportAt ← toISOString expectedNext
  return {
    projectId, providerAddress, lastVerifiedAt, expectedCadenceSeconds := cadenceSeconds
    graceSeconds := grace, expectedNextReportAt
    stalenessSeconds := ⌊staleness / 1000⌋
    isStale := now > expectedNext }

end Api

/-! ## The figures of one project -/

/-- What both calculators say. -/
structure Figures where
  isStale : Bool
  expectedNextReportAt : Instant
  stalenessSeconds : Int
deriving DecidableEq

/-- The figures of a result of the package. -/
def Package.StalenessResult.figures (result : Package.StalenessResult) : Figures :=
  ⟨result.isStale, result.expectedNextReportAt, result.stalenessSeconds⟩

/-- The figures of a metric of the API. -/
def Api.StalenessMetric.figures (metric : Api.StalenessMetric) : Figures :=
  ⟨metric.isStale, metric.expectedNextReportAt, metric.stalenessSeconds⟩

/-- The figures for a baseline and a cadence, with the default grace. -/
def figuresOf (baseline cadence now : ℚ) : Option Figures :=
  (toISOString (baseline + (cadence + 30 * 24 * 60 * 60) * 1000)).map fun expectedNextReportAt =>
    ⟨now > baseline + (cadence + 30 * 24 * 60 * 60) * 1000, expectedNextReportAt,
      max 0 ⌊(now - baseline) / 1000⌋⟩

/-- What the package computes for a project, with nothing overridden. -/
def packageFigures (table : Package.UpperCase) (methodology : String) (createdAt : Instant)
    (lastVerifiedAt : Option Instant) (now : ℚ) : Option (List Figures) :=
  (Package.computeStaleness [{
    projectId := "", provider := none, lastVerifiedAt := lastVerifiedAt.map some
    createdAt := some createdAt
    cadenceSeconds := Package.cadenceForMethodology table methodology
    graceSeconds := none }] now).map (List.map Package.StalenessResult.figures)

/-- What the monitor computes for a project, with nothing in the environment. -/
def apiFigures (methodology : String) (createdAt : Instant) (lastVerifiedAt : Option Instant)
    (now : ℚ) : Option Figures :=
  (Api.buildProjectMetric "" none (lastVerifiedAt.getD createdAt).ms
    (Api.cadenceForMethodology ⟨none, none⟩ methodology) (Api.graceSeconds ⟨none, none⟩)
    now).map Api.StalenessMetric.figures

/-- Rounding down before and after the comparison with zero is the same. -/
theorem floor_max_zero (x : ℚ) : ⌊max 0 x / 1000⌋ = max 0 ⌊x / 1000⌋ := by
  rcases le_total 0 x with hx | hx
  · rw [max_eq_right hx, max_eq_right (Int.floor_nonneg.mpr (by linarith))]
  · have hfloor : ⌊x / 1000⌋ ≤ 0 := Int.floor_le_iff.mpr (by norm_num; linarith)
    rw [max_eq_left hx, max_eq_left hfloor, zero_div, Int.floor_zero]

/-- The figures of the API by the common formula. -/
theorem apiFigures_eq (methodology : String) (createdAt : Instant)
    (lastVerifiedAt : Option Instant) (now : ℚ) :
    apiFigures methodology createdAt lastVerifiedAt now =
      figuresOf (lastVerifiedAt.getD createdAt).ms
        (Api.cadenceForMethodology ⟨none, none⟩ methodology) now := by
  have hgrace : Api.graceSeconds ⟨none, none⟩ = 30 * 24 * 60 * 60 := rfl
  rw [apiFigures, Api.buildProjectMetric, toISOString_instant, hgrace, floor_max_zero, figuresOf]
  cases toISOString ((lastVerifiedAt.getD createdAt).ms +
    (Api.cadenceForMethodology ⟨none, none⟩ methodology + 30 * 24 * 60 * 60) * 1000) <;> rfl

/-- The figures of the package by the common formula. -/
theorem packageFigures_eq {table : Package.UpperCase} {methodology : String}
    (hcadence : Package.cadenceForMethodology table methodology > 0) (createdAt : Instant)
    (lastVerifiedAt : Option Instant) (now : ℚ) :
    packageFigures table methodology createdAt lastVerifiedAt now =
      (figuresOf (lastVerifiedAt.getD createdAt).ms
        (Package.cadenceForMethodology table methodology) now).map fun figures => [figures] := by
  have hgrace : Package.DEFAULT_GRACE_SECONDS = 30 * 24 * 60 * 60 := rfl
  rw [packageFigures, Package.computeStaleness, List.mapM_cons, List.mapM_nil, Package.stalenessOf,
    figuresOf]
  cases lastVerifiedAt with
  | none =>
      dsimp only [Option.map_none, Option.getD_none, Package.parseTimestamp]
      rw [if_pos hcadence, hgrace]
      cases toISOString (createdAt.ms +
        (Package.cadenceForMethodology table methodology + 30 * 24 * 60 * 60) * 1000) <;> rfl
  | some verified =>
      dsimp only [Option.map_some, Option.getD_some, Package.parseTimestamp]
      rw [if_pos hcadence, hgrace, toISOString_instant]
      cases toISOString (verified.ms +
        (Package.cadenceForMethodology table methodology + 30 * 24 * 60 * 60) * 1000) <;> rfl

/-! ## The cadences -/

/-- The package and the monitor know the methodology by the same family: it is one
of four names and has the monitor's pattern, or it has neither a pattern nor an
entry in the table. -/
def SameFamily (table : Package.UpperCase) (methodology : String) : Prop :=
  (Package.toUpperCase table methodology ∈ ["REMOTE-SENSING", "SATELLITE"] ∧
    Api.matchesAny Api.remoteSensing methodology = true) ∨
  (Package.toUpperCase table methodology ∈ ["IOT", "IOT-SENSORS"] ∧
    Api.matchesAny Api.iotSensors methodology = true) ∨
  (Package.METHODOLOGY_CADENCES.lookup (Package.toUpperCase table methodology) = none ∧
    Api.matchesAny Api.remoteSensing methodology = false ∧
    Api.matchesAny Api.iotSensors methodology = false)

/-- A letter of the text is in its upper case. -/
theorem mem_toUpperCase (table : Package.UpperCase) {methodology : String} {c d : Char}
    (hc : c.val < 128) (hupper : c.toUpper = c) (hd : d ∈ methodology.toList)
    (hsame : sameLetter c d = true) :
    c ∈ (Package.toUpperCase table methodology).toList := by
  have htoUpper : d.toUpper = c := by
    rw [sameLetter, decide_eq_true_eq, hupper] at hsame
    exact hsame.symm
  have hascii : d.val < 128 := by
    by_contra hlarge
    have : d.toUpper = d := by
      refine dif_neg ?_
      intro hlower
      exact hlarge (UInt32.lt_of_le_of_lt hlower.2 (by decide))
    exact hlarge (by rw [← this, htoUpper]; exact hc)
  rw [Package.toUpperCase, String.toList_ofList, List.mem_flatMap]
  exact ⟨d, hd, by rw [Package.upperChar, if_pos hascii, htoUpper]; exact List.mem_singleton.mpr rfl⟩

/-- A methodology with one of some patterns has, in upper case, the letters that
all of them have. -/
theorem mem_toUpperCase_of_matchesAny (table : Package.UpperCase) {methodology : String}
    {patterns : List (List Item)} {c : Char → Prop}
    (h : Api.matchesAny patterns methodology = true)
    (hc : ∀ pattern ∈ patterns, ∃ d, c d ∧ Item.letter d ∈ pattern ∧ d.val < 128 ∧
      d.toUpper = d) :
    ∃ d, c d ∧ d ∈ (Package.toUpperCase table methodology).toList := by
  obtain ⟨pattern, hmem, htest⟩ := List.any_eq_true.mp h
  obtain ⟨d, hd, hletter, hascii, hupper⟩ := hc pattern hmem
  obtain ⟨d', hd', hsame⟩ := exists_of_test htest hletter
  exact ⟨d, hd, mem_toUpperCase table hascii hupper hd' hsame⟩

/-- The four cases of the package's table. -/
theorem lookup_cases (key : String) :
    key ∈ ["REMOTE-SENSING", "SATELLITE"] ∨ key ∈ ["IOT", "IOT-SENSORS"] ∨ key = "BLUE-CARBON" ∨
      Package.METHODOLOGY_CADENCES.lookup key = none := by
  by_cases hmem : key ∈ Package.METHODOLOGY_CADENCES.map Prod.fst
  · simp only [Package.METHODOLOGY_CADENCES, List.map_cons, List.map_nil, List.mem_cons,
      List.not_mem_nil, or_false] at hmem ⊢
    tauto
  · exact .inr (.inr (.inr (List.lookup_eq_none_iff.mpr fun entry hentry => by
      rw [bne_iff_ne]
      rintro rfl
      exact hmem (List.mem_map_of_mem hentry))))

/-- The cadence of the API by its two patterns. -/
theorem api_cadence_eq (methodology : String) :
    Api.cadenceForMethodology ⟨none, none⟩ methodology =
      if Api.matchesAny Api.remoteSensing methodology = true then 90 * 24 * 60 * 60
      else if Api.matchesAny Api.iotSensors methodology = true then 30 * 24 * 60 * 60
      else 365 * 24 * 60 * 60 := by
  rw [Api.cadenceForMethodology, Api.CADENCE_OVERRIDES, List.find?_cons, List.find?_cons,
    List.find?_nil]
  cases Api.matchesAny Api.remoteSensing methodology <;>
    cases Api.matchesAny Api.iotSensors methodology <;> rfl

/-- A name that lacks a letter of each pattern has no pattern. -/
theorem not_remoteSensing (table : Package.UpperCase) {methodology : String} {c : Char}
    (hc : c ∈ ['S', 'L'])
    (hM : 'M' ∉ (Package.toUpperCase table methodology).toList)
    (hlacks : c ∉ (Package.toUpperCase table methodology).toList) :
    Api.matchesAny Api.remoteSensing methodology = false := by
  rw [Bool.eq_false_iff]
  intro hmatches
  have hletters : ∀ pattern ∈ Api.remoteSensing, ∃ d, (d = 'M' ∨ d = c) ∧
      Item.letter d ∈ pattern ∧ d.val < 128 ∧ d.toUpper = d := by
    intro pattern hpattern
    simp only [Api.remoteSensing, List.mem_cons, List.not_mem_nil, or_false] at hpattern hc
    rcases hpattern with rfl | rfl
    · exact ⟨'M', .inl rfl, by simp [word], by decide, by decide⟩
    · rcases hc with rfl | rfl
      · exact ⟨'S', .inr rfl, by simp [word], by decide, by decide⟩
      · exact ⟨'L', .inr rfl, by simp [word], by decide, by decide⟩
  obtain ⟨d, rfl | rfl, hmem⟩ := mem_toUpperCase_of_matchesAny table hmatches hletters
  · exact hM hmem
  · exact hlacks hmem

/-- The cadences are the same exactly for a methodology of the same family. -/
theorem cadences_agree_iff (table : Package.UpperCase) (methodology : String) :
    Package.cadenceForMethodology table methodology =
      Api.cadenceForMethodology ⟨none, none⟩ methodology ↔ SameFamily table methodology := by
  rw [api_cadence_eq, Package.cadenceForMethodology, SameFamily]
  rcases lookup_cases (Package.toUpperCase table methodology) with hkey | hkey | hkey | hnone
  · have hlookup : ∀ key ∈ ["REMOTE-SENSING", "SATELLITE"],
        Package.METHODOLOGY_CADENCES.lookup key = some (90 * 24 * 60 * 60) := by
      rw [List.forall_mem_cons, List.forall_mem_singleton]
      exact ⟨rfl, rfl⟩
    have hother : Package.toUpperCase table methodology ∉ ["IOT", "IOT-SENSORS"] := by
      intro hkey'
      simp only [List.mem_cons, List.not_mem_nil, or_false] at hkey hkey'
      rcases hkey with h | h <;> rcases hkey' with h' | h' <;> simp [h] at h'
    rw [hlookup _ hkey, Option.getD_some]
    cases hmatches : Api.matchesAny Api.remoteSensing methodology with
    | true => simp [hkey]
    | false => cases Api.matchesAny Api.iotSensors methodology <;> simp [hother]
  · have hlookup : ∀ key ∈ ["IOT", "IOT-SENSORS"],
        Package.METHODOLOGY_CADENCES.lookup key = some (30 * 24 * 60 * 60) := by
      rw [List.forall_mem_cons, List.forall_mem_singleton]
      exact ⟨rfl, rfl⟩
    have hmatches : Api.matchesAny Api.remoteSensing methodology = false := by
      simp only [List.mem_cons, List.not_mem_nil, or_false] at hkey
      rcases hkey with h | h
      · exact not_remoteSensing table (c := 'L') (by simp) (by simp [h]) (by simp [h])
      · exact not_remoteSensing table (c := 'L') (by simp) (by simp [h]) (by simp [h])
    rw [hlookup _ hkey, Option.getD_some, hmatches]
    cases hiot : Api.matchesAny Api.iotSensors methodology with
    | true => simp [hkey]
    | false => simp
  · have hmatches : Api.matchesAny Api.remoteSensing methodology = false :=
      not_remoteSensing table (c := 'S') (by simp) (by simp [hkey]) (by simp [hkey])
    have hlookup : Package.METHODOLOGY_CADENCES.lookup "BLUE-CARBON" =
        some (90 * 24 * 60 * 60) := rfl
    rw [hkey, hlookup, Option.getD_some, hmatches]
    cases Api.matchesAny Api.iotSensors methodology <;> simp
  · have hneither : Package.toUpperCase table methodology ∉ ["REMOTE-SENSING", "SATELLITE"] ∧
        Package.toUpperCase table methodology ∉ ["IOT", "IOT-SENSORS"] := by
      constructor
      all_goals
        intro hkey
        simp only [List.mem_cons, List.not_mem_nil, or_false] at hkey
        rcases hkey with h | h <;> rw [h] at hnone <;> cases hnone
    rw [hnone, Option.getD_none, Package.DEFAULT_CADENCE_SECONDS]
    cases Api.matchesAny Api.remoteSensing methodology <;>
      cases Api.matchesAny Api.iotSensors methodology <;> simp [hneither]

/-- A number of whole seconds, up to some thirty years. -/
def WholeSeconds (cadence : ℚ) : Prop := ∃ c : ℤ, cadence = c ∧ 0 < c ∧ c ≤ 10 ^ 9

/-- The cadences of the package are whole seconds and positive. -/
theorem package_cadence_whole (table : Package.UpperCase) (methodology : String) :
    WholeSeconds (Package.cadenceForMethodology table methodology) := by
  rw [Package.cadenceForMethodology]
  cases hlookup : Package.METHODOLOGY_CADENCES.lookup (Package.toUpperCase table methodology) with
  | none => exact ⟨365 * 24 * 60 * 60, by norm_num [Package.DEFAULT_CADENCE_SECONDS], by norm_num⟩
  | some cadence =>
      obtain ⟨before, after, hentries, -⟩ := List.lookup_eq_some_iff.mp hlookup
      have hmem : (Package.toUpperCase table methodology, cadence) ∈
          Package.METHODOLOGY_CADENCES := by
        rw [hentries]
        simp
      have hall : ∀ entry ∈ Package.METHODOLOGY_CADENCES,
          entry.2 = 90 * 24 * 60 * 60 ∨ entry.2 = 30 * 24 * 60 * 60 := by
        simp [Package.METHODOLOGY_CADENCES]
      rw [Option.getD_some]
      rcases hall _ hmem with h | h
      · exact ⟨90 * 24 * 60 * 60, h.trans (by norm_num), by norm_num⟩
      · exact ⟨30 * 24 * 60 * 60, h.trans (by norm_num), by norm_num⟩

/-- So are those of the API. -/
theorem api_cadence_whole (methodology : String) :
    WholeSeconds (Api.cadenceForMethodology ⟨none, none⟩ methodology) := by
  rw [api_cadence_eq]
  split_ifs
  · exact ⟨90 * 24 * 60 * 60, by norm_num, by norm_num⟩
  · exact ⟨30 * 24 * 60 * 60, by norm_num, by norm_num⟩
  · exact ⟨365 * 24 * 60 * 60, by norm_num, by norm_num⟩

/-- Whole seconds are positive. -/
theorem WholeSeconds.pos {cadence : ℚ} (h : WholeSeconds cadence) : cadence > 0 := by
  obtain ⟨c, rfl, hpos, -⟩ := h
  exact_mod_cast hpos

/-- The two figures are the same. -/
def FiguresAgree (table : Package.UpperCase) (methodology : String) (createdAt : Instant)
    (lastVerifiedAt : Option Instant) (now : ℚ) : Prop :=
  packageFigures table methodology createdAt lastVerifiedAt now =
    (apiFigures methodology createdAt lastVerifiedAt now).map fun figures => [figures]

/-- The figures tell the cadence. -/
theorem cadence_of_figuresOf {cadence cadence' : ℚ} (hcadence : WholeSeconds cadence)
    (hcadence' : WholeSeconds cadence') (h : figuresOf 0 cadence 0 = figuresOf 0 cadence' 0) :
    cadence = cadence' := by
  have hnext {c : ℤ} (hc : 0 < c ∧ c ≤ 10 ^ 9) : ((figuresOf 0 c 0).map fun figures =>
      figures.expectedNextReportAt.ms) = some ((c + 30 * 24 * 60 * 60) * 1000) := by
    have hcast : 0 + ((c : ℚ) + 30 * 24 * 60 * 60) * 1000 =
        (((c + 30 * 24 * 60 * 60) * 1000 : ℤ) : ℚ) := by
      push_cast
      ring
    have hrange : |(c + 30 * 24 * 60 * 60) * 1000| ≤ MAX_TIME := by
      rw [abs_of_nonneg (by omega), MAX_TIME]
      omega
    rw [figuresOf, hcast, toISOString_intCast, dif_pos hrange]
    rfl
  obtain ⟨c, rfl, hc⟩ := hcadence
  obtain ⟨c', rfl, hc'⟩ := hcadence'
  have hsame := congrArg (Option.map fun figures : Figures => figures.expectedNextReportAt.ms) h
  rw [hnext hc, hnext hc', Option.some.injEq] at hsame
  rw [show c = c' by omega]

/-- **Two measures of staleness agree** for every pair of timestamps and at every
time, exactly for the methodologies that both know by the same family. -/
theorem staleness_calculators_agree_iff (table : Package.UpperCase) (methodology : String) :
    (∀ createdAt lastVerifiedAt now,
      FiguresAgree table methodology createdAt lastVerifiedAt now) ↔
        SameFamily table methodology := by
  have hpos := (package_cadence_whole table methodology).pos
  rw [← cadences_agree_iff]
  constructor
  · intro h
    have hepoch := h ⟨0, by decide⟩ none 0
    rw [FiguresAgree, packageFigures_eq hpos, apiFigures_eq] at hepoch
    have hfigures := Option.map_injective (fun _ _ => List.singleton_inj.mp) hepoch
    rw [Option.getD_none, Int.cast_zero] at hfigures
    exact cadence_of_figuresOf (package_cadence_whole table methodology)
      (api_cadence_whole methodology) hfigures
  · intro hcadence createdAt lastVerifiedAt now
    rw [FiguresAgree, packageFigures_eq hpos, apiFigures_eq, hcadence]

/-- A table in which nothing else has a case. -/
def plainUpperCase : Package.UpperCase where
  upper c := if c.val < 128 then ['\u00C4'] else [c]
  not_ascii c d hd := by
    split at hd
    · obtain rfl := List.mem_singleton.mp hd
      decide
    · next hlarge =>
        obtain rfl := List.mem_singleton.mp hd
        exact UInt32.not_lt.mp hlarge

/-- A project of blue carbon whose last report was verified 200 days ago is stale
for the package, and for the monitor of the API it is not. -/
theorem blue_carbon_disagrees :
    (packageFigures plainUpperCase "BLUE-CARBON" ⟨0, by decide⟩ (some ⟨0, by decide⟩)
      (200 * 24 * 60 * 60 * 1000)).map (List.map Figures.isStale) = some [true] ∧
    (apiFigures "BLUE-CARBON" ⟨0, by decide⟩ (some ⟨0, by decide⟩)
      (200 * 24 * 60 * 60 * 1000)).map Figures.isStale = some false ∧
    ¬ ∀ methodology createdAt lastVerifiedAt now,
      FiguresAgree plainUpperCase methodology createdAt lastVerifiedAt now := by
  have hpackage : (packageFigures plainUpperCase "BLUE-CARBON" ⟨0, by decide⟩
      (some ⟨0, by decide⟩) (200 * 24 * 60 * 60 * 1000)).map (List.map Figures.isStale) =
        some [true] := by decide +kernel
  have hapi : (apiFigures "BLUE-CARBON" ⟨0, by decide⟩ (some ⟨0, by decide⟩)
      (200 * 24 * 60 * 60 * 1000)).map Figures.isStale = some false := by decide +kernel
  refine ⟨hpackage, hapi, fun hall => ?_⟩
  have hagree := hall "BLUE-CARBON" ⟨0, by decide⟩ (some ⟨0, by decide⟩)
    (200 * 24 * 60 * 60 * 1000)
  rw [hagree, Option.map_map] at hpackage
  obtain ⟨figures, hfigures, hstale⟩ := Option.map_eq_some_iff.mp hapi
  rw [hfigures] at hpackage
  simp [hstale] at hpackage

end EcoMint.Staleness
