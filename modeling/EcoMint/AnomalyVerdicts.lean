import EcoMint.Anomaly
import EcoMint.Json
import Mathlib.Data.List.Dedup
import Mathlib.Data.List.Find
import Mathlib.Data.List.Sort

/-!
# Verdicts and the order of reports

The verdict on a project and a period is made of its kind, its severity, the
median and the tolerance.  Median and outliers are the same in any order of the
reports, but the tolerance is that of the first report's methodology.  So the
verdict depends on the order exactly where methodologies of different tolerance
meet.

A cluster is a missing source when it has fewer than two reports, and not when it
has fewer than two providers.
-/

namespace EcoMint.Anomaly

open InsertionMap

/-- What an assessment comes to. -/
structure Verdict where
  kind : AnomalyKind
  severity : Severity
  median : Option ℚ
  tolerance : ℚ
deriving DecidableEq, Repr

/-- The verdict of an assessment. -/
def CrossSourceAssessment.verdict (assessment : CrossSourceAssessment) : Verdict :=
  ⟨assessment.kind, assessment.severity, assessment.median, assessment.tolerance⟩

/-- The verdict on a project and a period, if there is one. -/
def verdictAt (assessments : List CrossSourceAssessment) (projectId : String)
    (periodStart periodEnd : Int) : Option Verdict :=
  (assessments.find? fun assessment => assessment.projectId = projectId ∧
    assessment.periodKey = periodText periodStart periodEnd).map CrossSourceAssessment.verdict

/-- The reports on a project and a period. -/
def reportsOn (reports : List Package.Report) (projectId : String) (periodStart periodEnd : Int) :
    List Package.Report :=
  reports.filter fun report => report.projectId = projectId ∧ report.periodStart = periodStart ∧
    report.periodEnd = periodEnd

/-! ## Keys name one project and one period -/

/-- A natural number is printed in digits. -/
theorem isDigit_of_mem_repr {m : Nat} {c : Char} (h : c ∈ (Nat.repr m).toList) :
    c.isDigit = true := by
  rw [Nat.repr, String.toList_ofList] at h
  exact Nat.isDigit_of_mem_toDigits (by decide) (by decide) h

theorem repr_inj {m n : Nat} (h : (Nat.repr m).toList = (Nat.repr n).toList) : m = n := by
  rw [Nat.repr, Nat.repr, String.toList_ofList, String.toList_ofList] at h
  rw [← Nat.ofDigitChars_ten_toDigits (n := m), h, Nat.ofDigitChars_ten_toDigits]

/-- A number does not begin with a minus sign. -/
theorem repr_append_ne_minus {m : Nat} {rest rest' : List Char} :
    (Nat.repr m).toList ++ rest ≠ '-' :: rest' := by
  intro h
  cases hdigits : (Nat.repr m).toList with
  | nil => exact Nat.repr_ne_empty (String.toList_eq_nil_iff.mp hdigits)
  | cons c tail =>
      rw [hdigits, List.cons_append] at h
      obtain ⟨rfl, -⟩ := List.cons.inj h
      have hdigit := isDigit_of_mem_repr (m := m) (hdigits ▸ List.mem_cons_self)
      cases hdigit

/-- A number ends before what is no digit. -/
theorem repr_append_inj {m m' : Nat} {rest rest' : List Char}
    (h : (Nat.repr m).toList ++ '-' :: rest = (Nat.repr m').toList ++ '-' :: rest') :
    m = m' ∧ rest = rest' := by
  obtain ⟨hnumber, hrest⟩ := Json.append_inj_of_all (fun c hc => isDigit_of_mem_repr hc)
    (fun c hc => isDigit_of_mem_repr hc) (fun c tail hr => by cases hr; rfl)
    (fun c tail hr => by cases hr; rfl) h
  exact ⟨repr_inj hnumber, (List.cons.inj hrest).2⟩

/-- The text of a natural number as an integer. -/
theorem toList_toString_ofNat (m : Nat) : (toString (Int.ofNat m)).toList = (Nat.repr m).toList :=
  rfl

/-- The text of a negative number. -/
theorem toList_toString_negSucc (m : Nat) :
    (toString (Int.negSucc m)).toList = '-' :: (Nat.repr (m + 1)).toList := by
  change ("-" ++ Nat.repr (m + 1)).toList = _
  rw [String.toList_append]
  rfl

theorem toString_inj {n n' : Int} (h : (toString n).toList = (toString n').toList) : n = n' := by
  cases n with
  | ofNat m =>
      cases n' with
      | ofNat m' => rw [repr_inj h]
      | negSucc m' =>
          rw [toList_toString_ofNat, toList_toString_negSucc,
            ← List.append_nil (Nat.repr m).toList] at h
          exact absurd h repr_append_ne_minus
  | negSucc m =>
      cases n' with
      | ofNat m' =>
          rw [toList_toString_ofNat, toList_toString_negSucc,
            ← List.append_nil (Nat.repr m').toList] at h
          exact absurd h.symm repr_append_ne_minus
      | negSucc m' =>
          rw [toList_toString_negSucc, toList_toString_negSucc] at h
          rw [Nat.succ.inj (repr_inj (List.cons.inj h).2)]

/-- The text of a period names it. -/
theorem periodText_inj {s s' e e' : Int} : periodText s e = periodText s' e' ↔ s = s' ∧ e = e' := by
  constructor
  · intro h
    have hlist := congrArg String.toList h
    have hdash : "-".toList = ['-'] := rfl
    simp only [periodText, String.toList_append, List.append_assoc, hdash, List.cons_append,
      List.nil_append] at hlist
    have hboth : s = s' ∧ (toString e).toList = (toString e').toList := by
      cases s with
      | ofNat m =>
          cases s' with
          | ofNat m' =>
              obtain ⟨hm, hrest⟩ := repr_append_inj hlist
              exact ⟨congrArg Int.ofNat hm, hrest⟩
          | negSucc m' => 
              rw [toList_toString_negSucc] at hlist
              exact absurd hlist repr_append_ne_minus
      | negSucc m =>
          cases s' with
          | ofNat m' =>
              rw [toList_toString_negSucc] at hlist
              exact absurd hlist.symm repr_append_ne_minus
          | negSucc m' =>
              rw [toList_toString_negSucc, toList_toString_negSucc] at hlist
              obtain ⟨hm, hrest⟩ := repr_append_inj (List.cons.inj hlist).2
              exact ⟨congrArg Int.negSucc (Nat.succ.inj hm), hrest⟩
    exact ⟨hboth.1, toString_inj hboth.2⟩
  · rintro ⟨rfl, rfl⟩
    rfl

/-- No colon is in a number. -/
theorem colon_notMem_toString (n : Int) : ':' ∉ (toString n).toList := by
  have hnat (m : Nat) : ':' ∉ (Nat.repr m).toList := by
    intro h
    have hdigit := isDigit_of_mem_repr h
    cases hdigit
  cases n with
  | ofNat m => exact hnat m
  | negSucc m =>
      rw [toList_toString_negSucc, List.mem_cons]
      rintro (h | h)
      · cases h
      · exact hnat (m + 1) h

/-- No colon is in a period. -/
theorem colon_notMem_periodText (periodStart periodEnd : Int) :
    ':' ∉ (periodText periodStart periodEnd).toList := by
  rw [periodText, String.toList_append, String.toList_append, List.mem_append, List.mem_append]
  rintro ((h | h) | h)
  · exact colon_notMem_toString _ h
  · simp at h
  · exact colon_notMem_toString _ h

/-- A key names one project and one period: the period begins after its last
colon. -/
theorem clusterKey_inj {p p' : String} {s e s' e' : Int} :
    clusterKey p s e = clusterKey p' s' e' ↔ p = p' ∧ s = s' ∧ e = e' := by
  constructor
  · intro h
    have hlist := congrArg (fun key => key.toList.reverse) h
    simp only [clusterKey, String.toList_append, List.reverse_append] at hlist
    have hplain (s e : Int) : ∀ c ∈ (periodText s e).toList.reverse, (c ≠ ':' : Bool) = true := by
      intro c hc
      rw [decide_eq_true_eq]
      rintro rfl
      exact colon_notMem_periodText s e (List.mem_reverse.mp hc)
    have hcolons : "::".toList.reverse = [':', ':'] := rfl
    rw [hcolons] at hlist
    obtain ⟨hperiod, hproject⟩ := Json.append_inj_of_all (hplain s e) (hplain s' e')
      (fun c rest hr => by cases hr; rfl) (fun c rest hr => by cases hr; rfl) hlist
    exact ⟨String.toList_injective (List.reverse_injective (List.append_cancel_left hproject)),
      periodText_inj.mp (String.toList_injective (List.reverse_injective hperiod))⟩
  · rintro ⟨rfl, rfl, rfl⟩
    rfl

/-- The reports on a project and a period are those of its key. -/
theorem filter_key (reports : List Package.Report) (projectId : String)
    (periodStart periodEnd : Int) :
    (reports.filter fun report => report.key = clusterKey projectId periodStart periodEnd) =
      reportsOn reports projectId periodStart periodEnd := by
  apply List.filter_congr
  intro report _
  rw [Package.Report.key, decide_eq_decide]
  exact clusterKey_inj

/-! ## The verdict on a cluster -/

/-- What is compared of a report. -/
def Package.Report.toValue (report : Package.Report) : Package.CrossSourceValue :=
  ⟨report.sourceId, report.methodology, report.carbon⟩

/-- The verdict on the values of a group. -/
def clusterVerdict (values : List Package.CrossSourceValue) : Verdict :=
  (Package.assessCrossSourceAnomaly ⟨"", "", values⟩).verdict

/-- The verdict on the reports of a cluster. -/
def verdictOf : List Package.Report → Option Verdict
  | [] => none
  | report :: rest => some (clusterVerdict ((report :: rest).map Package.Report.toValue))

/-- The verdict of a group depends on its values and the first methodology alone. -/
theorem verdict_assess (group : Package.CrossSourceGroup) :
    (Package.assessCrossSourceAnomaly group).projectId = group.projectId ∧
    (Package.assessCrossSourceAnomaly group).periodKey = group.periodKey ∧
    (Package.assessCrossSourceAnomaly group).verdict = clusterVerdict group.values := by
  unfold clusterVerdict Package.assessCrossSourceAnomaly
  dsimp only
  split
  · exact ⟨rfl, rfl, rfl⟩
  · split
    · exact ⟨rfl, rfl, rfl⟩
    · split
      · exact ⟨rfl, rfl, rfl⟩
      · exact ⟨rfl, rfl, rfl⟩

/-- A group is opened by its first report and holds the values of all. -/
theorem collect_group (report : Package.Report) (rest : List Package.Report) :
    collect Package.Report.spec Package.CrossSourceGroup.push (report :: rest) =
      some ⟨report.projectId, periodText report.periodStart report.periodEnd,
        (report :: rest).map Package.Report.toValue⟩ := by
  have hpush (reports : List Package.Report) (group : Package.CrossSourceGroup) :
      reports.foldl Package.CrossSourceGroup.push group =
        { group with values := group.values ++ reports.map Package.Report.toValue } := by
    induction reports generalizing group with
    | nil => simp
    | cons report reports ih =>
        rw [List.foldl_cons, ih]
        simp [Package.CrossSourceGroup.push, Package.Report.toValue]
  rw [collect, hpush]
  rfl

/-- The verdict on a project and a period is that on its reports. -/
theorem verdictAt_groupAndAssess (reports : List Package.Report) (projectId : String)
    (periodStart periodEnd : Int) :
    verdictAt (Package.groupAndAssess reports) projectId periodStart periodEnd =
      verdictOf (reportsOn reports projectId periodStart periodEnd) := by
  have hkey : ∀ entry ∈ Package.grouped reports,
      ((Package.assessCrossSourceAnomaly entry.2).projectId = projectId ∧
        (Package.assessCrossSourceAnomaly entry.2).periodKey = periodText periodStart periodEnd) ↔
          entry.1 = clusterKey projectId periodStart periodEnd := by
    rintro ⟨key, group⟩ hentry
    have hcollect := mem_gather.mp hentry
    cases hreports : reports.filter fun report => report.key = key with
    | nil =>
        rw [hreports] at hcollect
        cases hcollect
    | cons report rest =>
        have hthis : report.key = key := by
          have hmem : report ∈ reports.filter fun report => report.key = key := by
            rw [hreports]
            exact List.mem_cons_self
          simpa using (List.mem_filter.mp hmem).2
        rw [hreports, collect_group] at hcollect
        obtain rfl := Option.some.inj hcollect
        obtain ⟨hproject, hperiod, -⟩ := verdict_assess ⟨report.projectId,
          periodText report.periodStart report.periodEnd,
          (report :: rest).map Package.Report.toValue⟩
        rw [hproject, hperiod, ← hthis, Package.Report.key, clusterKey_inj, periodText_inj]
  have hfind : ((Package.grouped reports).find? fun entry =>
      decide ((Package.assessCrossSourceAnomaly entry.2).projectId = projectId ∧
        (Package.assessCrossSourceAnomaly entry.2).periodKey = periodText periodStart periodEnd)) =
          (Package.grouped reports).find? fun entry =>
            decide (entry.1 = clusterKey projectId periodStart periodEnd) :=
    List.find?_congr fun entry hentry => decide_eq_decide.mpr (hkey entry hentry)
  have hlookup : verdictAt (Package.groupAndAssess reports) projectId periodStart periodEnd =
      ((Package.grouped reports).lookup (clusterKey projectId periodStart periodEnd)).map
        fun group => (Package.assessCrossSourceAnomaly group).verdict := by
    rw [verdictAt, Package.groupAndAssess, Package.assessCrossSourceAnomalies, List.map_map,
      List.find?_map]
    refine (congrArg (Option.map CrossSourceAssessment.verdict)
      (congrArg (Option.map _) hfind)).trans ?_
    rw [find?_key, Option.map_map, Option.map_map]
    rfl
  rw [hlookup, Package.grouped, lookup_gather, filter_key]
  cases reportsOn reports projectId periodStart periodEnd with
  | nil => rfl
  | cons report rest =>
      rw [collect_group, Option.map_some, (verdict_assess _).2.2]
      rfl

/-! ## A tolerance and a list of amounts -/

/-- The deviations beyond a tolerance. -/
def deviationsBeyond (tolerance : ℚ) (carbons : List ℚ) : List Deviation :=
  (carbons.map fun carbon => Package.relativeDeviation carbon (Package.median carbons)).filter
    fun deviation => (tolerance : Deviation) < deviation

/-- The verdict that a tolerance gives on amounts. -/
def verdictFor (tolerance : ℚ) (carbons : List ℚ) : Verdict where
  kind :=
    if (deviationsBeyond tolerance carbons).length = 0 then .normal
    else if 2 ≤ (deviationsBeyond tolerance carbons).length then .conflictingSources
    else .outlier
  severity :=
    if (deviationsBeyond tolerance carbons).length = 0 then .info
    else if ∃ deviation ∈ deviationsBeyond tolerance carbons,
      ((tolerance * 2 : ℚ) : Deviation) < deviation then .critical
    else .warning
  median := some (Package.median carbons)
  tolerance

/-- The tolerance of a methodology's family. -/
def toleranceOf (methodology : Option String) : ℚ :=
  Package.METHODOLOGY_TOLERANCE (Package.normalizeMethodology methodology)

/-- A bound is below the greatest deviation if it is below one of them. -/
theorem lt_foldl_max {bound first : Deviation} {rest : List Deviation} :
    bound < rest.foldl max first ↔ ∃ deviation ∈ first :: rest, bound < deviation := by
  induction rest generalizing first with
  | nil => simp
  | cons second rest ih =>
      rw [List.foldl_cons, ih]
      simp only [List.mem_cons, exists_eq_or_imp, lt_max_iff, or_assoc]

/-- The outliers of a list are its deviations beyond the tolerance. -/
theorem outliers_deviations (tolerance med : ℚ) (values : List Package.CrossSourceValue) :
    ((values.map fun value => SourceDeviation.mk value.sourceId value.carbon
      (some (Package.relativeDeviation value.carbon med))).filter
        (Package.beyond tolerance)).map Package.deviationOf =
    ((values.map Package.CrossSourceValue.carbon).map fun carbon =>
      Package.relativeDeviation carbon med).filter fun deviation =>
        (tolerance : Deviation) < deviation := by
  induction values with
  | nil => rfl
  | cons value values ih =>
      by_cases h : (tolerance : Deviation) < Package.relativeDeviation value.carbon med
      · simpa [Package.beyond, Package.deviationOf, h] using ih
      · simpa [Package.beyond, Package.deviationOf, h] using ih

/-- With two values or more, the verdict is that of the first one's tolerance. -/
theorem clusterVerdict_cons (value : Package.CrossSourceValue)
    {rest : List Package.CrossSourceValue} (h : rest ≠ []) :
    clusterVerdict (value :: rest) = verdictFor (toleranceOf value.methodology)
      ((value :: rest).map Package.CrossSourceValue.carbon) := by
  have htwo : ¬ (value :: rest).length < 2 := by
    have := List.length_pos_of_ne_nil h
    rw [List.length_cons]
    omega
  let carbons := (value :: rest).map Package.CrossSourceValue.carbon
  have hbeyond := outliers_deviations (toleranceOf value.methodology) (Package.median carbons)
    (value :: rest)
  rw [clusterVerdict, Package.assessCrossSourceAnomaly, if_neg htwo]
  dsimp only
  split
  · rename_i houtliers
    have hnone : deviationsBeyond (toleranceOf value.methodology) carbons = [] :=
      hbeyond.symm.trans (congrArg (List.map Package.deviationOf) houtliers)
    rw [verdictFor, hnone]
    rfl
  · rename_i first outliers houtliers
    have hsome : deviationsBeyond (toleranceOf value.methodology) carbons =
        (first :: outliers).map Package.deviationOf :=
      hbeyond.symm.trans (congrArg (List.map Package.deviationOf) houtliers)
    have hcritical : ((toleranceOf value.methodology * 2 : ℚ) : Deviation) <
        (outliers.map Package.deviationOf).foldl max (Package.deviationOf first) ↔
          ∃ deviation ∈ deviationsBeyond (toleranceOf value.methodology) carbons,
            ((toleranceOf value.methodology * 2 : ℚ) : Deviation) < deviation := by
      rw [hsome]
      exact lt_foldl_max
    rw [verdictFor, ← if_congr hcritical rfl rfl, hsome, houtliers]
    have hlength : ((first :: outliers).map Package.deviationOf).length = outliers.length + 1 := by
      rw [List.length_map, List.length_cons]
    have hsomeone : ¬ outliers.length + 1 = 0 := Nat.succ_ne_zero _
    rw [hlength, List.length_cons, if_neg hsomeone, if_neg hsomeone]
    by_cases hmany : 2 ≤ outliers.length + 1
    · rw [if_pos hmany, if_pos hmany]
      rfl
    · rw [if_neg hmany, if_neg hmany]
      rfl

/-- With fewer, a source is missing. -/
theorem clusterVerdict_singleton (value : Package.CrossSourceValue) :
    clusterVerdict [value] = ⟨.missingSource, .info, none, Package.DEFAULT_TOLERANCE⟩ := rfl

/-! ## The order of the reports -/

/-- The median does not depend on the order. -/
theorem median_perm {values values' : List ℚ} (h : values.Perm values') :
    Package.median values = Package.median values' := by
  have hsorted (values : List ℚ) : (values.mergeSort fun a b => a ≤ b).Pairwise (· ≤ ·) :=
    List.pairwise_mergeSort' (· ≤ ·) values
  have hsame : values.mergeSort (fun a b => a ≤ b) = values'.mergeSort fun a b => a ≤ b := by
    apply List.Perm.eq_of_pairwise' (hsorted values) (hsorted values')
    exact (List.mergeSort_perm _ _).trans (h.trans (List.mergeSort_perm _ _).symm)
  rw [Package.median, Package.median, h.length_eq, hsame]

/-- Neither do the deviations beyond a tolerance, up to their order. -/
theorem deviationsBeyond_perm (tolerance : ℚ) {carbons carbons' : List ℚ}
    (h : carbons.Perm carbons') :
    (deviationsBeyond tolerance carbons).Perm (deviationsBeyond tolerance carbons') := by
  rw [deviationsBeyond, deviationsBeyond, median_perm h]
  exact (h.map _).filter _

/-- Neither does the verdict. -/
theorem verdictFor_perm (tolerance : ℚ) {carbons carbons' : List ℚ} (h : carbons.Perm carbons') :
    verdictFor tolerance carbons = verdictFor tolerance carbons' := by
  have hbeyond := deviationsBeyond_perm tolerance h
  have hcritical : (∃ deviation ∈ deviationsBeyond tolerance carbons,
      ((tolerance * 2 : ℚ) : Deviation) < deviation) ↔
        ∃ deviation ∈ deviationsBeyond tolerance carbons',
          ((tolerance * 2 : ℚ) : Deviation) < deviation := by
    simp only [hbeyond.mem_iff]
  rw [verdictFor, verdictFor, hbeyond.length_eq, median_perm h, if_congr hcritical rfl rfl]

/-- The reports on a project and a period have methodologies of one tolerance. -/
def SameTolerance (reports : List Package.Report) : Prop :=
  ∀ projectId periodStart periodEnd,
    ∀ a ∈ reportsOn reports projectId periodStart periodEnd,
      ∀ b ∈ reportsOn reports projectId periodStart periodEnd,
        toleranceOf a.methodology = toleranceOf b.methodology

/-- The verdict on the reports of one tolerance is the same in any order. -/
theorem verdictOf_perm {reports reports' : List Package.Report} (h : reports.Perm reports')
    (htolerance : ∀ a ∈ reports, ∀ b ∈ reports,
      toleranceOf a.methodology = toleranceOf b.methodology) :
    verdictOf reports = verdictOf reports' := by
  match reports, reports' with
  | [], reports' =>
      rw [List.nil_perm.mp h]
  | first :: rest, [] => exact absurd h.eq_nil (List.cons_ne_nil _ _)
  | [only], first' :: rest' =>
      rw [List.singleton_perm.mp h]
  | first :: second :: rest, first' :: rest' =>
      have hrest' : rest'.map Package.Report.toValue ≠ [] := by
        intro hnil
        have hlength := h.length_eq
        rw [List.map_eq_nil_iff.mp hnil] at hlength
        simp at hlength
      rw [verdictOf, verdictOf, List.map_cons, clusterVerdict_cons _ (by simp), ← List.map_cons,
        List.map_cons (l := rest'), clusterVerdict_cons _ hrest', ← List.map_cons]
      congr 1
      have hfirst : toleranceOf first.methodology = toleranceOf first'.methodology :=
        htolerance first List.mem_cons_self first' (h.mem_iff.mpr List.mem_cons_self)
      change verdictFor (toleranceOf first.methodology) _ = verdictFor (toleranceOf first'.methodology) _
      rw [hfirst]
      exact verdictFor_perm _ ((h.map _).map _)

/-- The verdict on two reports or more has the tolerance of the first. -/
theorem verdictOf_cons_tolerance (report : Package.Report) {rest : List Package.Report}
    (h : rest ≠ []) :
    (verdictOf (report :: rest)).map Verdict.tolerance = some (toleranceOf report.methodology) := by
  have hrest : rest.map Package.Report.toValue ≠ [] := fun hnil => h (List.map_eq_nil_iff.mp hnil)
  rw [verdictOf, List.map_cons, clusterVerdict_cons _ hrest]
  rfl

section Detectors

variable {ρ : Type} {toReport : ρ → Option Package.Report}
  {assess : List ρ → List CrossSourceAssessment}

/-- The verdicts on the reports are the same in every order of them. -/
def OrderFree (assess : List ρ → List CrossSourceAssessment) (reports : List ρ) : Prop :=
  ∀ reports' : List ρ, reports'.Perm reports → ∀ projectId periodStart periodEnd,
    verdictAt (assess reports') projectId periodStart periodEnd =
      verdictAt (assess reports) projectId periodStart periodEnd

/-- The tolerance is that of a report that is brought to the front. -/
theorem tolerance_of_front
    (hassess : ∀ reports projectId periodStart periodEnd,
      verdictAt (assess reports) projectId periodStart periodEnd =
        verdictOf (reportsOn (reports.filterMap toReport) projectId periodStart periodEnd))
    {reports : List ρ} (hfree : OrderFree assess reports) {projectId : String}
    {periodStart periodEnd : Int} {a b : Package.Report} (hne : a ≠ b)
    (ha : a ∈ reportsOn (reports.filterMap toReport) projectId periodStart periodEnd)
    (hb : b ∈ reportsOn (reports.filterMap toReport) projectId periodStart periodEnd) :
    (verdictAt (assess reports) projectId periodStart periodEnd).map Verdict.tolerance =
      some (toleranceOf a.methodology) := by
  obtain ⟨hareports, hakey⟩ := List.mem_filter.mp ha
  obtain ⟨x, hx, hxa⟩ := List.mem_filterMap.mp hareports
  obtain ⟨front, back, rfl⟩ := List.append_of_mem hx
  have hperm : (x :: (front ++ back)).Perm (front ++ x :: back) := List.perm_middle.symm
  have hon : reportsOn ((x :: (front ++ back)).filterMap toReport) projectId periodStart periodEnd =
      a :: reportsOn ((front ++ back).filterMap toReport) projectId periodStart periodEnd := by
    rw [List.filterMap_cons_some hxa]
    exact List.filter_cons_of_pos hakey
  have hother : reportsOn ((front ++ back).filterMap toReport) projectId periodStart periodEnd ≠
      [] := by
    have hmem : b ∈ a :: reportsOn ((front ++ back).filterMap toReport) projectId periodStart
        periodEnd := hon ▸ ((hperm.filterMap toReport).filter _).mem_iff.mpr hb
    rcases List.mem_cons.mp hmem with hsame | hrest
    · exact absurd hsame.symm hne
    · exact List.ne_nil_of_mem hrest
  rw [← hfree _ hperm, hassess, hon]
  exact verdictOf_cons_tolerance a hother

/-- A detector that gives this verdict is free of the order exactly under the condition. -/
theorem orderFree_iff
    (hassess : ∀ reports projectId periodStart periodEnd,
      verdictAt (assess reports) projectId periodStart periodEnd =
        verdictOf (reportsOn (reports.filterMap toReport) projectId periodStart periodEnd))
    (reports : List ρ) :
    OrderFree assess reports ↔ SameTolerance (reports.filterMap toReport) := by
  constructor
  · intro hfree projectId periodStart periodEnd a ha b hb
    by_cases hne : a = b
    · rw [hne]
    · have hfirst := tolerance_of_front hassess hfree hne ha hb
      have hsecond := tolerance_of_front hassess hfree (Ne.symm hne) hb ha
      exact Option.some.inj (hfirst.symm.trans hsecond)
  · intro hsame reports' hperm projectId periodStart periodEnd
    rw [hassess, hassess]
    have hon := ((hperm.filterMap toReport).symm.filter fun report : Package.Report =>
      decide (report.projectId = projectId ∧ report.periodStart = periodStart ∧
        report.periodEnd = periodEnd))
    exact (verdictOf_perm hon (hsame projectId periodStart periodEnd)).symm

end Detectors

/-- The figures show the same verdict. -/
theorem verdictAt_figures (assessments : List CrossSourceAssessment) (projectId : String)
    (periodStart periodEnd : Int) :
    verdictAt (assessments.map CrossSourceAssessment.figures) projectId periodStart periodEnd =
      verdictAt assessments projectId periodStart periodEnd := by
  rw [verdictAt, List.find?_map, Option.map_map]
  rfl

/-- The verdicts of the API. -/
theorem verdictAt_compute (reports : List ReportResponse) (projectId : String)
    (periodStart periodEnd : Int) :
    verdictAt (Api.computeCrossSourceAnomalies reports) projectId periodStart periodEnd =
      verdictOf (reportsOn (reports.filterMap ReportResponse.toPackage) projectId periodStart
        periodEnd) := by
  rw [← verdictAt_figures, compute_figures, verdictAt_figures, verdictAt_groupAndAssess]

/-- **When the order of the reports does not matter**: for either implementation,
the verdicts are the same in every order of the reports exactly when the reports
that are compared with each other have methodologies of one tolerance. -/
theorem order_free_iff (reports : List Package.Report) (responses : List ReportResponse) :
    (OrderFree Package.groupAndAssess reports ↔ SameTolerance reports) ∧
    (OrderFree Api.computeCrossSourceAnomalies responses ↔
      SameTolerance (responses.filterMap ReportResponse.toPackage)) := by
  constructor
  · have hassess (reports : List Package.Report) (projectId : String)
        (periodStart periodEnd : Int) :
        verdictAt (Package.groupAndAssess reports) projectId periodStart periodEnd =
          verdictOf (reportsOn (reports.filterMap some) projectId periodStart periodEnd) := by
      rw [List.filterMap_some, verdictAt_groupAndAssess]
    have hpackage := orderFree_iff hassess reports
    rwa [List.filterMap_some] at hpackage
  · exact orderFree_iff verdictAt_compute responses

/-! ## A cluster of two -/

/-- The verdict on two reports has the tolerance of the first. -/
theorem verdictOf_pair (a b : Package.Report) :
    verdictOf [a, b] = some (verdictFor (toleranceOf a.methodology) [a.carbon, b.carbon]) :=
  congrArg some (clusterVerdict_cons a.toValue (List.cons_ne_nil b.toValue []))

/-- A report of a registry. -/
def registryReport : ReportResponse where
  projectId := "42"
  periodStart := 0
  periodEnd := 100
  carbonSequestered := some 100
  methodology := some "VERRA-VCS"
  providerAddress := "GREGISTRY"
  status := .verified
  createdAt := none
  verifiedAt := none

/-- A report of sensors, with more carbon. -/
def sensorReport : ReportResponse :=
  { registryReport with
    carbonSequestered := some 160, methodology := some "IOT-SENSORS"
    providerAddress := "GSENSORS" }

/-- The median of the two is half way. -/
theorem median_of_reports : Package.median [100, 160] = 130 := by
  have hsorted : ([100, 160] : List ℚ).mergeSort (fun a b => a ≤ b) = [100, 160] :=
    List.mergeSort_of_pairwise (by decide +kernel)
  rw [Package.median, hsorted]
  norm_num

/-- The registry's report first: 30 tonnes off the median of 130 are beyond its
tolerance of 15 %. -/
theorem verdict_registry_first : verdictFor (toleranceOf registryReport.methodology) [100, 160] =
    ⟨.conflictingSources, .warning, some 130, 15 / 100⟩ := by
  have htolerance : toleranceOf registryReport.methodology = 15 / 100 := rfl
  rw [htolerance, verdictFor, deviationsBeyond, median_of_reports]
  decide +kernel

/-- The sensors' report first: they are within its tolerance of 35 %. -/
theorem verdict_sensors_first : verdictFor (toleranceOf sensorReport.methodology) [160, 100] =
    ⟨.normal, .info, some 130, 35 / 100⟩ := by
  have htolerance : toleranceOf sensorReport.methodology = 35 / 100 := rfl
  rw [htolerance, verdictFor_perm _ (List.Perm.swap _ _ _), verdictFor, deviationsBeyond,
    median_of_reports]
  decide +kernel

/-- The same two reports in two orders: sources in conflict, or all normal. -/
theorem order_changes_verdict :
    (verdictAt (Package.groupAndAssess ([registryReport, sensorReport].filterMap
      ReportResponse.toPackage)) "42" 0 100 =
        some ⟨.conflictingSources, .warning, some 130, 15 / 100⟩ ∧
    verdictAt (Package.groupAndAssess ([sensorReport, registryReport].filterMap
      ReportResponse.toPackage)) "42" 0 100 = some ⟨.normal, .info, some 130, 35 / 100⟩) ∧
    verdictAt (Api.computeCrossSourceAnomalies [registryReport, sensorReport]) "42" 0 100 =
      some ⟨.conflictingSources, .warning, some 130, 15 / 100⟩ ∧
    verdictAt (Api.computeCrossSourceAnomalies [sensorReport, registryReport]) "42" 0 100 =
      some ⟨.normal, .info, some 130, 35 / 100⟩ := by
  have hregistry : verdictOf (reportsOn ([registryReport, sensorReport].filterMap
      ReportResponse.toPackage) "42" 0 100) =
        some ⟨.conflictingSources, .warning, some 130, 15 / 100⟩ :=
    (verdictOf_pair _ _).trans (congrArg some verdict_registry_first)
  have hsensors : verdictOf (reportsOn ([sensorReport, registryReport].filterMap
      ReportResponse.toPackage) "42" 0 100) = some ⟨.normal, .info, some 130, 35 / 100⟩ :=
    (verdictOf_pair _ _).trans (congrArg some verdict_sensors_first)
  rw [verdictAt_groupAndAssess, verdictAt_groupAndAssess, verdictAt_compute, verdictAt_compute]
  exact ⟨⟨hregistry, hsensors⟩, hregistry, hsensors⟩

/-! ## Reports and providers -/

/-- The providers of the verified reports with a finite amount on a project and a
period, one for each report. -/
def providersOn (reports : List ReportResponse) (projectId : String)
    (periodStart periodEnd : Int) : List String :=
  (reports.filter fun report => report.status = .verified ∧ report.carbonSequestered.isSome ∧
    report.projectId = projectId ∧ report.periodStart = periodStart ∧
      report.periodEnd = periodEnd).map ReportResponse.providerAddress

/-- The kind is that of a missing source where there are fewer than two
providers. -/
def MissingBelowTwoProviders (reports : List ReportResponse) : Prop :=
  ∀ projectId periodStart periodEnd verdict,
    verdictAt (Api.computeCrossSourceAnomalies reports) projectId periodStart periodEnd =
      some verdict →
    (verdict.kind = .missingSource ↔
      (providersOn reports projectId periodStart periodEnd).dedup.length < 2)

/-- The reports on a period are as many as their providers. -/
theorem length_reportsOn (reports : List ReportResponse) (projectId : String)
    (periodStart periodEnd : Int) :
    (reportsOn (reports.filterMap ReportResponse.toPackage) projectId periodStart
      periodEnd).length = (providersOn reports projectId periodStart periodEnd).length := by
  rw [providersOn, List.length_map]
  induction reports with
  | nil => rfl
  | cons report reports ih =>
      by_cases hverified : report.status = .verified
      · cases hcarbon : report.carbonSequestered with
        | none =>
            have hskip : report.toPackage = none := by
              rw [ReportResponse.toPackage, if_pos hverified, hcarbon]
              rfl
            rw [List.filterMap_cons_none hskip, ih, List.filter_cons_of_neg]
            simp [hcarbon]
        | some carbon =>
            have htake : report.toPackage = some ⟨report.projectId, report.periodStart,
                report.periodEnd, report.providerAddress, report.methodology, carbon⟩ := by
              rw [ReportResponse.toPackage, if_pos hverified, hcarbon]
              rfl
            rw [List.filterMap_cons_some htake]
            by_cases hon : report.projectId = projectId ∧ report.periodStart = periodStart ∧
                report.periodEnd = periodEnd
            · rw [List.filter_cons_of_pos (by simpa [hverified, hcarbon] using hon),
                List.length_cons, ← ih]
              rw [reportsOn, List.filter_cons_of_pos (by simpa using hon), List.length_cons]
              rfl
            · rw [List.filter_cons_of_neg (by simpa [hverified, hcarbon] using hon), ← ih]
              rw [reportsOn, List.filter_cons_of_neg (by simpa using hon)]
              rfl
      · have hskip : report.toPackage = none := by rw [ReportResponse.toPackage, if_neg hverified]
        rw [List.filterMap_cons_none hskip, ih, List.filter_cons_of_neg]
        simp [hverified]

/-- A source is missing where there are fewer than two reports. -/
theorem kind_of_verdictOf {reports : List Package.Report} {verdict : Verdict}
    (h : verdictOf reports = some verdict) :
    verdict.kind = .missingSource ↔ reports.length < 2 := by
  match reports with
  | [] => cases h
  | [report] =>
      obtain rfl := Option.some.inj h
      simp [clusterVerdict_singleton]
  | report :: second :: rest =>
      rw [verdictOf, List.map_cons, clusterVerdict_cons _ (by simp)] at h
      obtain rfl := Option.some.inj h
      have hkind : (verdictFor (toleranceOf report.toValue.methodology)
          ((report.toValue :: (second :: rest).map Package.Report.toValue).map
            Package.CrossSourceValue.carbon)).kind ≠ .missingSource := by
        rw [verdictFor]
        dsimp only
        split
        · exact nofun
        · split <;> exact nofun
      exact iff_of_false hkind (by simp)

/-- **When fewer than two providers are a missing source**: exactly when no
project has a period with two verified reports or more that are all from one
provider. -/
theorem missing_source_iff (reports : List ReportResponse) :
    MissingBelowTwoProviders reports ↔
      ∀ projectId periodStart periodEnd,
        2 ≤ (providersOn reports projectId periodStart periodEnd).length →
          2 ≤ (providersOn reports projectId periodStart periodEnd).dedup.length := by
  constructor
  · intro h projectId periodStart periodEnd htwo
    rw [← length_reportsOn] at htwo
    cases hverdict : verdictAt (Api.computeCrossSourceAnomalies reports) projectId periodStart
      periodEnd with
    | none =>
        rw [verdictAt_compute] at hverdict
        cases hon : reportsOn (reports.filterMap ReportResponse.toPackage) projectId periodStart
          periodEnd with
        | nil =>
            rw [hon] at htwo
            simp at htwo
        | cons report rest =>
            rw [hon] at hverdict
            cases hverdict
    | some verdict =>
        have hproviders := h projectId periodStart periodEnd verdict hverdict
        rw [verdictAt_compute] at hverdict
        rw [kind_of_verdictOf hverdict] at hproviders
        by_contra hfew
        exact absurd (hproviders.mpr (Nat.lt_of_not_le hfew)) (Nat.not_lt.mpr htwo)
  · intro h projectId periodStart periodEnd verdict hverdict
    rw [verdictAt_compute] at hverdict
    rw [kind_of_verdictOf hverdict, length_reportsOn]
    have hle := (List.dedup_sublist
      (providersOn reports projectId periodStart periodEnd)).length_le
    constructor
    · intro hfew
      exact lt_of_le_of_lt hle hfew
    · intro hfew
      by_contra hmany
      exact absurd (h projectId periodStart periodEnd (Nat.le_of_not_lt hmany))
        (Nat.not_le.mpr hfew)

/-- Another report of the same provider, by another methodology. -/
def remoteReport : ReportResponse :=
  { registryReport with methodology := some "REMOTE-SENSING" }

/-- One provider agrees with itself. -/
theorem one_provider_is_normal :
    (verdictAt (Api.computeCrossSourceAnomalies [registryReport, remoteReport]) "42" 0 100).map
      Verdict.kind = some .normal ∧
    (providersOn [registryReport, remoteReport] "42" 0 100).dedup = ["GREGISTRY"] := by
  have hmedian : Package.median [100, 100] = 100 := by
    have hsorted : ([100, 100] : List ℚ).mergeSort (fun a b => a ≤ b) = [100, 100] :=
      List.mergeSort_of_pairwise (by decide +kernel)
    rw [Package.median, hsorted]
    norm_num
  have hpair : verdictOf (reportsOn ([registryReport, remoteReport].filterMap
      ReportResponse.toPackage) "42" 0 100) =
        some (verdictFor (toleranceOf registryReport.methodology) [100, 100]) :=
    verdictOf_pair _ _
  have hnormal : deviationsBeyond (toleranceOf registryReport.methodology) [100, 100] = [] := by
    have htolerance : toleranceOf registryReport.methodology = 15 / 100 := rfl
    rw [htolerance, deviationsBeyond, hmedian]
    decide +kernel
  constructor
  · rw [verdictAt_compute, hpair, verdictFor, hnormal]
    rfl
  · decide

end EcoMint.Anomaly
