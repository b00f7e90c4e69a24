import EcoMint.OracleCalls
import EcoMint.SecondaryIndex
import Mathlib.Order.CompletePartialOrder
import Mathlib.Order.Interval.Set.Disjoint

/-!
# No period is reported twice

A report covers a half-open period.  Of the reports on one project by one
provider and methodology no two cover a common moment, whatever has happened to
them since; and the index by project, which is all that `submit_report` looks
at, is complete.
-/

namespace EcoMint.OracleConsumer

open Storage

/-- The moments a report covers. -/
def Report.period (report : Report) : Set Nat := Set.Ico report.periodStart report.periodEnd

/-- Two reports on one project, by one provider and methodology. -/
structure Report.SameSource (report report' : Report) : Prop where
  provider_eq : report.provider = report'.provider
  projectId_eq : report.projectId = report'.projectId
  methodology_eq : report.methodology = report'.methodology

theorem Report.SameSource.symm {report report' : Report} (h : report.SameSource report') :
    report'.SameSource report :=
  ⟨h.provider_eq.symm, h.projectId_eq.symm, h.methodology_eq.symm⟩

theorem Report.SameSource.trans {report report' report'' : Report}
    (h : report.SameSource report') (h' : report'.SameSource report'') :
    report.SameSource report'' :=
  ⟨h.provider_eq.trans h'.provider_eq, h.projectId_eq.trans h'.projectId_eq,
    h.methodology_eq.trans h'.methodology_eq⟩

/-- Reports that were submitted alike have the same source. -/
theorem Report.SameSource.of_asSubmitted {report report' : Report}
    (h : report.asSubmitted = report'.asSubmitted) : report.SameSource report' :=
  ⟨(congrArg Report.provider h :), (congrArg Report.projectId h :),
    (congrArg Report.methodology h :)⟩

/-- Periods that are not empty are disjoint exactly if they do not overlap. -/
theorem period_disjoint_iff {report existing : Report}
    (h : report.periodStart < report.periodEnd) (h' : existing.periodStart < existing.periodEnd) :
    Disjoint report.period existing.period ↔
      ¬ overlaps report.periodStart report.periodEnd existing := by
  unfold Report.period overlaps
  rw [Set.Ico_disjoint_Ico]
  omega

/-- The index by project is complete and sorted, and no two reports from one
source cover a common moment. -/
structure ReportIndex (s : State) : Prop where
  unused : ∀ id, s.reportCount < id → s.report.get id = none
  numbered : ∀ id report, s.report.get id = some report → report.id = id
  nonempty : ∀ id report, s.report.get id = some report →
    report.periodStart < report.periodEnd
  apart : ∀ id id' report report', s.report.get id = some report →
    s.report.get id' = some report' → id ≠ id' → report.SameSource report' →
      Disjoint report.period report'.period
  ascending : ∀ projectId, (getProjectReports s projectId).Pairwise (· < ·)
  indexed : ∀ projectId id, id ∈ getProjectReports s projectId ↔
    ∃ report, s.report.get id = some report ∧ report.projectId = projectId

theorem reportIndex_constructor (admin : Address) : ReportIndex (constructor admin) := by
  constructor <;> simp [constructor, getProjectReports]

/-- A stored report has an id in use. -/
theorem ReportIndex.id_le {s : State} (hs : ReportIndex s) {id : Nat} {report : Report}
    (hget : s.report.get id = some report) : id ≤ s.reportCount := by
  by_contra hlt
  rw [hs.unused id (by omega)] at hget
  cases hget

/-- The reports are indexed by their projects. -/
theorem ReportIndex.byProject {s : State} (hs : ReportIndex s) :
    Indexes s.report Report.projectId s.projectReports := ⟨hs.ascending, hs.indexed⟩

/-- A step that keeps the reports keeps the index right. -/
theorem ReportIndex.keep {s s' : State} (hs : ReportIndex s) (hkeeps : s.KeepsReports s') :
    ReportIndex s' := by
  have hindex : Indexes s'.report Report.projectId s'.projectReports := by
    rw [hkeeps.projectReports]
    refine hs.byProject.rewritten fun id => ?_
    have hproject := congrArg (Option.map Report.projectId) (hkeeps.report id)
    rw [Option.map_map, Option.map_map] at hproject
    exact hproject
  constructor
  case unused =>
    intro id hid
    rw [hkeeps.reportCount] at hid
    have hnone := hkeeps.report id
    rw [hs.unused id hid] at hnone
    exact Option.map_eq_none_iff.mp hnone
  case numbered =>
    intro id report' hget'
    obtain ⟨report, hget, hsame⟩ := hkeeps.before hget'
    have hid : report.id = report'.id := (congrArg Report.id hsame :)
    exact hid ▸ hs.numbered id report hget
  case nonempty =>
    intro id report' hget'
    obtain ⟨report, hget, hsame⟩ := hkeeps.before hget'
    have hstart : report.periodStart = report'.periodStart :=
      (congrArg Report.periodStart hsame :)
    have hend : report.periodEnd = report'.periodEnd := (congrArg Report.periodEnd hsame :)
    exact hstart ▸ hend ▸ hs.nonempty id report hget
  case apart =>
    intro id id' report' other' hget' hother' hne hsource
    obtain ⟨report, hget, hsame⟩ := hkeeps.before hget'
    obtain ⟨other, hother, hsameOther⟩ := hkeeps.before hother'
    have hperiod : report.period = report'.period := (congrArg Report.period hsame :)
    have hperiodOther : other.period = other'.period := (congrArg Report.period hsameOther :)
    rw [← hperiod, ← hperiodOther]
    apply hs.apart id id' report other hget hother hne
    exact ((Report.SameSource.of_asSubmitted hsame).trans hsource).trans
      (Report.SameSource.of_asSubmitted hsameOther).symm
  case ascending => exact hindex.ascending
  case indexed => exact hindex.indexed

/-- Adding a report apart from the indexed ones of its source. -/
theorem ReportIndex.add {s : State} (hs : ReportIndex s) {env : Env} {report : Report}
    (hfresh : report.Fresh env s) (hperiod : report.periodStart < report.periodEnd)
    (hapart : ∀ id ∈ getProjectReports s report.projectId,
      ∃ existing, s.report.get id = some existing ∧ ¬ report.Conflicts existing) :
    ReportIndex (s.addReport report) := by
  have hfree : ∀ id existing, s.report.get id = some existing → report.SameSource existing →
      Disjoint report.period existing.period := by
    intro id existing hget hsource
    have hlisted : id ∈ getProjectReports s report.projectId :=
      (hs.indexed report.projectId id).mpr ⟨existing, hget, hsource.projectId_eq.symm⟩
    obtain ⟨existing', hget', hfree⟩ := hapart id hlisted
    obtain rfl : existing = existing' := by simpa [hget] using hget'
    apply (period_disjoint_iff hperiod (hs.nonempty id existing hget)).mpr
    intro hoverlaps
    exact hfree ⟨hsource.provider_eq.symm, hsource.methodology_eq.symm, hoverlaps⟩
  have hstored : ∀ {id stored}, (s.addReport report).report.get id = some stored →
      (id = s.reportCount + 1 ∧ stored = report) ∨ s.report.get id = some stored := by
    intro id stored hget
    have hset : (s.report.set (s.reportCount + 1) report).get id = some stored := hget
    rw [get_set] at hset
    split at hset
    · next hid => exact Or.inl ⟨hid, (Option.some.inj hset).symm⟩
    · exact Or.inr hset
  have hindex : Indexes (s.addReport report).report Report.projectId
      (s.addReport report).projectReports :=
    hs.byProject.added (fun _ _ hget => Nat.lt_succ_of_le (hs.id_le hget)) report
  constructor
  case unused =>
    intro id hid
    have hid' : s.reportCount + 1 < id := hid
    exact (get_set_ne _ _ (by omega)).trans (hs.unused id (by omega))
  case numbered =>
    intro id stored hget
    rcases hstored hget with ⟨hid, rfl⟩ | hget
    · rw [hid, hfresh.id_eq]
    · exact hs.numbered id stored hget
  case nonempty =>
    intro id stored hget
    rcases hstored hget with ⟨-, rfl⟩ | hget
    · exact hperiod
    · exact hs.nonempty id stored hget
  case apart =>
    intro id id' stored stored' hget hget' hne hsource
    rcases hstored hget with ⟨hid, rfl⟩ | hbefore
    · rcases hstored hget' with ⟨hid', -⟩ | hbefore'
      · exact absurd (hid.trans hid'.symm) hne
      · exact hfree id' stored' hbefore' hsource
    · rcases hstored hget' with ⟨-, rfl⟩ | hbefore'
      · exact (hfree id stored hbefore hsource.symm).symm
      · exact hs.apart id id' stored stored' hbefore hbefore' hne hsource
  case ascending => exact hindex.ascending
  case indexed => exact hindex.indexed

/-- Every step of the oracle keeps the index right. -/
theorem ReportIndex.step {env : Env} {s s' : State} {call : Call} (hs : ReportIndex s)
    (hstep : OracleStep env s s' call) : ReportIndex s' := by
  rcases hstep.keepsReports_or with hkeeps | ⟨report, hfresh, hperiod, hapart, hafter⟩
  · exact hs.keep hkeeps
  · have hbumped : ReportIndex (s.bump report.provider) := by
      exact ⟨hs.unused, hs.numbered, hs.nonempty, hs.apart, hs.ascending, hs.indexed⟩
    rw [hafter]
    exact hbumped.add ⟨hfresh.id_eq, hfresh.status_eq, hfresh.submittedAt_eq,
      hfresh.verifiedAt_eq, hfresh.stake_eq⟩ hperiod hapart

/-- The index is right in every reachable oracle. -/
theorem reportIndex_run (admin : Address) (txs : List Tx) :
    ReportIndex (machine.run (constructor admin) txs) := by
  refine machine.invariant (P := fun s _ => ReportIndex s) (reportIndex_constructor admin) ?_ txs
  intro l e hfires hs
  exact hs.step (oracleStep_of_fires hfires)

/-- **No period is reported twice.**  In every reachable storage two reports from
one source cover disjoint periods, none of them empty, and the index of every
project lists exactly its reports, in ascending order and without repetition. -/
theorem periods_never_overlap (admin : Address) (txs : List Tx) :
    (∀ id id' report report',
      (machine.run (constructor admin) txs).report.get id = some report →
      (machine.run (constructor admin) txs).report.get id' = some report' →
      id ≠ id' → report.SameSource report' →
        report.period.Nonempty ∧ report'.period.Nonempty ∧
          Disjoint report.period report'.period) ∧
    ∀ projectId,
      (getProjectReports (machine.run (constructor admin) txs) projectId).Pairwise (· < ·) ∧
      ∀ id, id ∈ getProjectReports (machine.run (constructor admin) txs) projectId ↔
        ∃ report, (machine.run (constructor admin) txs).report.get id = some report ∧
          report.id = id ∧ report.projectId = projectId := by
  have hs := reportIndex_run admin txs
  constructor
  · intro id id' report report' hget hget' hne hsource
    exact ⟨Set.nonempty_Ico.mpr (hs.nonempty id report hget),
      Set.nonempty_Ico.mpr (hs.nonempty id' report' hget'),
      hs.apart id id' report report' hget hget' hne hsource⟩
  · intro projectId
    refine ⟨hs.ascending projectId, ?_⟩
    intro id
    rw [hs.indexed projectId id]
    constructor
    · intro h
      obtain ⟨report, hget, hproject⟩ := h
      exact ⟨report, hget, hs.numbered id report hget, hproject⟩
    · intro h
      obtain ⟨report, hget, -, hproject⟩ := h
      exact ⟨report, hget, hproject⟩

end EcoMint.OracleConsumer
