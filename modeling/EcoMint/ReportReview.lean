import EcoMint.HalfEven
import EcoMint.OracleChallenges
import EcoMint.OracleCollateral
import EcoMint.StalenessMonitor

/-!
# Reviewing the reports of a project

Before a coupon is paid the API looks through the reports of the project: one has
to be verified, none may be challenged or rejected, and no two by one provider and
methodology may overlap.  Each report is read on its own, so that others may move
along between two reads, a read that fails is passed over, and what arrives are
numbers of the client, rounded above 2^53.

The search for overlaps never finds anything: the periods of a source stay apart
through the whole run, and rounding keeps the order.  So the verdict is the one
that the statuses alone give.
-/

namespace EcoMint.Review

open Monitor OracleConsumer

/-! ## What the service reads -/

/-- What the client is given, with the text of an address read back. -/
structure ReviewContext extends MonitorContext where
  /-- `Address.fromString`; `none` where it throws -/
  addressOf : String → Option Address
  addressOf_text : ∀ address, addressOf (addressText address) = some address

/-- The storages that the reads of one call find, in the order of one run, and
which of the reads succeed. -/
structure Readings where
  admin : Address
  txs : List OracleConsumer.Tx
  moment : Nat → Nat
  ordered : Monotone moment
  ok : Nat → Bool

/-- The storage that the read finds. -/
def Readings.storage (r : Readings) (i : Nat) : State :=
  OracleConsumer.machine.run (OracleConsumer.constructor r.admin) (r.txs.take (r.moment i))

variable (ctx : ReviewContext) (r : Readings)

/-- `Number` of a `u64` -/
def number (n : Nat) : Nat := HalfEven.round 53 n

/-- A report with its number, as the client has it. -/
structure ReportResponse extends Anomaly.ReportResponse where
  id : Nat

/-- A report as the client decodes it, its numbers rounded; `none` where it throws. -/
def decodeReport (report : Report) : Option ReportResponse := do
  let response ← Monitor.decodeReport ctx.toMonitorContext report
  return { response with
    id := number report.id
    periodStart := number report.periodStart
    periodEnd := number report.periodEnd }

/-- The `i`-th read of the call asks for a report; `none` where it throws. -/
def readReport (i reportId : Nat) : Option ReportResponse :=
  if r.ok i then
    (OracleConsumer.getReport (r.storage i) reportId).toOption.bind (decodeReport ctx)
  else none

/-- The loop over the ids. -/
def readReports : Nat → List Nat → List ReportResponse
  | _, [] => []
  | i, reportId :: ids => (readReport ctx r i reportId).toList ++ readReports (i + 1) ids

/-- The reports of a project; what the cache has comes from such a reading. -/
def getProjectReports (projectId : String) : Option (List ReportResponse) :=
  if r.ok 0 then
    some (readReports ctx r 1 (OracleConsumer.getProjectReports (r.storage 0)
      (Monitor.toBytes32 ctx.toMonitorContext projectId)))
  else none

/-! ## The verdict -/

/-- The verdict on a project. -/
structure CouponEligibility where
  projectId : String
  eligible : Bool
  reasons : List String
  blockedByReportIds : List Nat
deriving DecidableEq

/-- `Set.prototype.add` -/
def addId (ids : List Nat) (id : Nat) : List Nat := if id ∈ ids then ids else ids ++ [id]

/-- Two reports of one provider and methodology overlap. -/
def conflicting (left right : ReportResponse) : Bool :=
  left.providerAddress = right.providerAddress && left.methodology = right.methodology &&
    decide (left.periodStart < right.periodEnd) && decide (right.periodStart < left.periodEnd)

/-- The loop over all pairs. -/
def conflictingIds (ids : List Nat) : List ReportResponse → List Nat
  | [] => ids
  | left :: rest =>
      conflictingIds (rest.foldl (fun ids right =>
        if conflicting left right then addId (addId ids left.id) right.id else ids) ids) rest

/-- The report is challenged or rejected. -/
def disputed (status : ReportStatus) : Bool := status = .challenged || status = .rejected

/-- No report is verified. -/
def unverifiedReason : String := "No verified oracle report exists for this project"

/-- So many reports are challenged or rejected. -/
def disputedReason (count : Nat) : String :=
  toString count ++ " report(s) are challenged or rejected and must be resolved first"

/-- Periods overlap. -/
def overlapReason : String :=
  "Overlapping oracle report periods must be resolved before coupon distribution"

/-- No reason was found. -/
def defaultReason : String := "Coupon distribution is not eligible for this project"

/-- The verdict on the reports that were read. -/
def assess (projectId : String) (reports : List ReportResponse) : CouponEligibility :=
  let hasVerified := reports.any fun report => report.status = .verified
  let blocking := reports.filter fun report => disputed report.status
  let overlapping := conflictingIds [] reports
  let reasons := (if hasVerified then [] else [unverifiedReason]) ++
    (if blocking.length > 0 then [disputedReason blocking.length] else []) ++
    (if overlapping.length > 0 then [overlapReason] else [])
  let eligible := hasVerified && blocking.length = 0 && overlapping.length = 0
  { projectId, eligible
    reasons := if !eligible && reasons.length = 0 then reasons ++ [defaultReason] else reasons
    blockedByReportIds := blocking.map ReportResponse.id ++ overlapping }

/-- The verdict on the reports that the call has read. -/
def getCouponEligibility (projectId : String) : Option CouponEligibility :=
  (getProjectReports ctx r projectId).map (assess projectId)

/-- A verified report of one source. -/
def sampleRow (id : Nat) (periodStart periodEnd : Int) : ReportResponse where
  projectId := "a1b2"
  periodStart
  periodEnd
  carbonSequestered := none
  methodology := some "VM0003"
  providerAddress := "G"
  status := .verified
  createdAt := none
  verifiedAt := none
  id

example : (assess "a1b2" [sampleRow 1 0 10, sampleRow 2 10 20, sampleRow 3 5 15]).blockedByReportIds =
    [1, 3, 2] := by decide

/-! ## The plain verdict -/

/-- The status that the client makes of a report's. -/
def seenStatus (report : Report) : ReportStatus :=
  reportStatusFromIndex (ctx.statusNumber report.status)

/-- The report under an id as the `i`-th read finds it, if the client can decode it. -/
def seenReport (i reportId : Nat) : Option Report :=
  if r.ok i then
    ((r.storage i).report.get reportId).filter fun report => (decodeReport ctx report).isSome
  else none

/-- The reports under the ids, each as its own read finds it. -/
def seenReports : Nat → List Nat → List Report
  | _, [] => []
  | i, reportId :: ids => (seenReport ctx r i reportId).toList ++ seenReports (i + 1) ids

/-- The reports on chain that the call finds, each as it was when it was read. -/
def reportsSeen (projectId : String) : Option (List Report) :=
  if r.ok 0 then
    some (seenReports ctx r 1 (OracleConsumer.getProjectReports (r.storage 0)
      (Monitor.toBytes32 ctx.toMonitorContext projectId)))
  else none

/-- The verdict that the statuses alone give. -/
def plainVerdict (projectId : String) (reports : List Report) : CouponEligibility :=
  let verified := reports.filter fun report => seenStatus ctx report = .verified
  let blocking := reports.filter fun report => disputed (seenStatus ctx report)
  { projectId
    eligible := verified ≠ [] && blocking = []
    reasons := (if verified = [] then [unverifiedReason] else []) ++
      (if blocking = [] then [] else [disputedReason blocking.length])
    blockedByReportIds := blocking.map fun report => number report.id }

/-! ## Rows and reports -/

variable {ctx r}

/-- What a row says of its report. -/
structure RowOf (ctx : ReviewContext) (report : Report) (row : ReportResponse) : Prop where
  id : row.id = number report.id
  status : row.status = seenStatus ctx report
  provider : row.providerAddress = ctx.addressText report.provider
  methodology : row.methodology = some report.methodology
  periodStart : row.periodStart = number report.periodStart
  periodEnd : row.periodEnd = number report.periodEnd

/-- A report that was decoded has a row. -/
theorem rowOf_of_decode {report : Report} {row : ReportResponse}
    (h : decodeReport ctx report = some row) : RowOf ctx report row := by
  obtain ⟨response, hresponse, hrow⟩ := Option.bind_eq_some_iff.mp h
  obtain rfl := Option.some.inj hrow
  obtain ⟨createdAt, -, hresponse⟩ := Option.bind_eq_some_iff.mp hresponse
  obtain ⟨verifiedAt, -, hresponse⟩ := Option.bind_eq_some_iff.mp hresponse
  obtain rfl := Option.some.inj hresponse
  exact ⟨rfl, rfl, rfl, rfl, rfl, rfl⟩

/-- A read gives the row of the report that it sees. -/
theorem toList_readReport (i reportId : Nat) :
    (readReport ctx r i reportId).toList =
      (seenReport ctx r i reportId).toList.filterMap (decodeReport ctx) := by
  unfold readReport seenReport OracleConsumer.getReport
  by_cases hok : r.ok i
  · rw [if_pos hok, if_pos hok]
    cases hget : (r.storage i).report.get reportId with
    | none => rfl
    | some report =>
        cases hrow : decodeReport ctx report with
        | none => simp [Fallible.okOr, Except.toOption, Option.filter, hrow]
        | some row => simp [Fallible.okOr, Except.toOption, Option.filter, hrow]
  · rw [if_neg hok, if_neg hok]
    rfl

/-- The rows are those of the reports that were seen. -/
theorem readReports_eq (i : Nat) (ids : List Nat) :
    readReports ctx r i ids = (seenReports ctx r i ids).filterMap (decodeReport ctx) := by
  induction ids generalizing i with
  | nil => rfl
  | cons reportId ids ih =>
      rw [readReports, seenReports, List.filterMap_append, toList_readReport, ih]

/-- Each report that was seen has a row. -/
theorem rows_of_seen {reports : List Report}
    (h : ∀ report ∈ reports, (decodeReport ctx report).isSome) :
    List.Forall₂ (RowOf ctx) reports (reports.filterMap (decodeReport ctx)) := by
  induction reports with
  | nil => exact .nil
  | cons report rest ih =>
      obtain ⟨row, hrow⟩ := Option.isSome_iff_exists.mp (h report (List.mem_cons_self ..))
      rw [List.filterMap_cons_some hrow]
      exact .cons (rowOf_of_decode hrow) (ih fun other hother =>
        h other (List.mem_cons_of_mem report hother))

/-! ## No two overlap -/

/-- The reports are numbered and indexed in every storage of the call. -/
theorem Readings.reportIndex (r : Readings) (i : Nat) : ReportIndex (r.storage i) :=
  reportIndex_run r.admin _

/-- A later read finds the report as well, with the same content. -/
theorem Readings.persists {i j : Nat} (hle : i ≤ j) {id : Nat} {report : Report}
    (hget : (r.storage i).report.get id = some report) :
    ∃ report', (r.storage j).report.get id = some report' ∧ report.SameContent report' := by
  obtain ⟨later, hlater⟩ := List.take_prefix_take_left (l := r.txs) (r.ordered hle)
  unfold Readings.storage
  rw [← hlater]
  exact report_persists_run r.admin _ later hget

/-- A report that was seen is in the storage of its read. -/
theorem mem_seenReports {i : Nat} {ids : List Nat} {report : Report}
    (h : report ∈ seenReports ctx r i ids) :
    (decodeReport ctx report).isSome ∧
      ∃ j reportId, i ≤ j ∧ reportId ∈ ids ∧ (r.storage j).report.get reportId = some report := by
  induction ids generalizing i with
  | nil => cases h
  | cons reportId ids ih =>
      rcases List.mem_append.mp h with hfirst | hrest
      · have hseen := Option.mem_toList.mp hfirst
        unfold seenReport at hseen
        split at hseen
        · obtain ⟨hget, hdecodes⟩ := Option.filter_eq_some_iff.mp hseen
          exact ⟨hdecodes, i, reportId, le_rfl, List.mem_cons_self .., hget⟩
        · cases hseen
      · obtain ⟨hdecodes, j, other, hle, hother, hget⟩ := ih hrest
        exact ⟨hdecodes, j, other, by omega, List.mem_cons_of_mem reportId hother, hget⟩

/-- Of two reports the later one has a higher id, and from one source they cover
no common moment. -/
structure Apart (earlier later : Report) : Prop where
  ascending : earlier.id < later.id
  disjoint : earlier.SameSource later → Disjoint earlier.period later.period
  nonempty : earlier.periodStart < earlier.periodEnd ∧ later.periodStart < later.periodEnd

/-- Reports of two ids are apart, though they are read at different times. -/
theorem apart_of_reads {i j id id' : Nat} {report report' : Report} (hle : i ≤ j) (hlt : id < id')
    (hget : (r.storage i).report.get id = some report)
    (hget' : (r.storage j).report.get id' = some report') : Apart report report' := by
  have hearlier := r.reportIndex i
  have hlater := r.reportIndex j
  obtain ⟨kept, hkept, hcontent⟩ := Readings.persists hle hget
  constructor
  · rw [hearlier.numbered id report hget, hlater.numbered id' report' hget']
    exact hlt
  · intro hsource
    have hperiod : kept.period = report.period := by
      unfold Report.period
      rw [hcontent.periodStart_eq, hcontent.periodEnd_eq]
    rw [← hperiod]
    apply hlater.apart id id' kept report' hkept hget' (by omega)
    exact ⟨hcontent.provider_eq.trans hsource.provider_eq,
      hcontent.projectId_eq.trans hsource.projectId_eq,
      hcontent.methodology_eq.trans hsource.methodology_eq⟩
  · exact ⟨hearlier.nonempty id report hget, hlater.nonempty id' report' hget'⟩

/-- The reports that the call sees are apart from each other. -/
theorem pairwise_seenReports (i : Nat) {ids : List Nat} (hids : ids.Pairwise (· < ·)) :
    (seenReports ctx r i ids).Pairwise Apart := by
  induction ids generalizing i with
  | nil => exact .nil
  | cons reportId ids ih =>
      obtain ⟨hfirst, hrest⟩ := List.pairwise_cons.mp hids
      refine List.pairwise_append.mpr ⟨?_, ih (i + 1) hrest, ?_⟩
      · cases seenReport ctx r i reportId with
        | none => exact .nil
        | some report => exact List.pairwise_singleton ..
      · intro report hreport report' hreport'
        have hseen := Option.mem_toList.mp hreport
        unfold seenReport at hseen
        split at hseen
        · obtain ⟨hget, -⟩ := Option.filter_eq_some_iff.mp hseen
          obtain ⟨-, j, other, hle, hother, hget'⟩ := mem_seenReports hreport'
          exact apart_of_reads (by omega) (hfirst other hother) hget hget'
        · cases hseen

/-- Rounding keeps the order. -/
theorem number_mono {m n : Nat} (h : m ≤ n) : number m ≤ number n :=
  HalfEven.round_mono (by decide) h

/-- Rows of reports that are apart do not conflict: rounding keeps the order. -/
theorem not_conflicting {report report' : Report} {left right : ReportResponse}
    (hproject : report.projectId = report'.projectId) (hapart : Apart report report')
    (hleft : RowOf ctx report left) (hright : RowOf ctx report' right) :
    conflicting left right = false := by
  by_contra hconflict
  simp only [conflicting, Bool.and_eq_true, Bool.not_eq_false, decide_eq_true_eq] at hconflict
  obtain ⟨⟨⟨hprovider, hmethodology⟩, hbefore⟩, hafter⟩ := hconflict
  rw [hleft.provider, hright.provider] at hprovider
  rw [hleft.methodology, hright.methodology] at hmethodology
  have haddress : report.provider = report'.provider := by
    have hback := congrArg ctx.addressOf hprovider
    rw [ctx.addressOf_text, ctx.addressOf_text] at hback
    exact Option.some.inj hback
  have hdisjoint := hapart.disjoint ⟨haddress, hproject, Option.some.inj hmethodology⟩
  rw [period_disjoint_iff hapart.nonempty.1 hapart.nonempty.2] at hdisjoint
  rw [hleft.periodStart, hright.periodEnd, Int.ofNat_lt] at hbefore
  rw [hright.periodStart, hleft.periodEnd, Int.ofNat_lt] at hafter
  apply hdisjoint
  constructor
  · by_contra hle
    exact absurd (number_mono (not_lt.mp hle)) (not_le.mpr hbefore)
  · by_contra hle
    exact absurd (number_mono (not_lt.mp hle)) (not_le.mpr hafter)

/-- Where no two conflict the loop collects nothing. -/
theorem conflictingIds_of_pairwise {rows : List ReportResponse}
    (h : rows.Pairwise fun left right => conflicting left right = false) (ids : List Nat) :
    conflictingIds ids rows = ids := by
  induction rows with
  | nil => rfl
  | cons left rest ih =>
      obtain ⟨hleft, hrest⟩ := List.pairwise_cons.mp h
      have hinner (ids : List Nat) : rest.foldl (fun ids right =>
          if conflicting left right then addId (addId ids left.id) right.id else ids) ids = ids := by
        clear ih h hrest
        induction rest generalizing ids with
        | nil => rfl
        | cons right rest ih =>
            rw [List.foldl_cons, if_neg (by simp [hleft right (List.mem_cons_self ..)])]
            exact ih (fun other hother => hleft other (List.mem_cons_of_mem right hother)) ids
      rw [conflictingIds, hinner]
      exact ih hrest

/-- Rows of reports that are apart do not conflict. -/
theorem pairwise_rows {reports : List Report} (hapart : reports.Pairwise Apart)
    {key : BytesN 32} (hproject : ∀ report ∈ reports, report.projectId = key) :
    (reports.filterMap (decodeReport ctx)).Pairwise
      fun left right => conflicting left right = false := by
  rw [List.pairwise_filterMap]
  apply hapart.imp_of_mem
  intro report report' hmem hmem' hapart left hleft right hright
  exact not_conflicting ((hproject report hmem).trans (hproject report' hmem').symm) hapart
    (rowOf_of_decode hleft) (rowOf_of_decode hright)

/-! ## The verdict on what was seen -/

/-- Filtering rows is filtering their reports. -/
theorem filter_rows {reports : List Report} {rows : List ReportResponse}
    (hrows : List.Forall₂ (RowOf ctx) reports rows) (p : ReportStatus → Bool) :
    List.Forall₂ (RowOf ctx) (reports.filter fun report => p (seenStatus ctx report))
      (rows.filter fun row => p row.status) := by
  induction hrows with
  | nil => exact .nil
  | cons hrow hrows ih =>
      rw [List.filter_cons, List.filter_cons, hrow.status]
      split
      · exact .cons hrow ih
      · exact ih

/-- The ids of rows are those of their reports, rounded. -/
theorem ids_of_rows {reports : List Report} {rows : List ReportResponse}
    (hrows : List.Forall₂ (RowOf ctx) reports rows) :
    rows.map ReportResponse.id = reports.map fun report => number report.id := by
  induction hrows with
  | nil => rfl
  | cons hrow hrows ih => rw [List.map_cons, List.map_cons, hrow.id, ih]

/-- On rows without a conflict the verdict is the plain one. -/
theorem assess_eq {reports : List Report} {rows : List ReportResponse} (projectId : String)
    (hrows : List.Forall₂ (RowOf ctx) reports rows)
    (hapart : rows.Pairwise fun left right => conflicting left right = false) :
    assess projectId rows = plainVerdict ctx projectId reports := by
  have hverified := (filter_rows hrows fun status => status = .verified).length_eq
  have hblocking := filter_rows hrows disputed
  have hany : (rows.any fun row => row.status = .verified) =
      decide ((reports.filter fun report => seenStatus ctx report = .verified) ≠ []) := by
    rw [Bool.eq_iff_iff, decide_eq_true_iff, ← List.length_pos_iff, hverified,
      List.length_pos_iff, ne_eq, List.filter_eq_nil_iff]
    simp
  rw [assess, plainVerdict, conflictingIds_of_pairwise hapart, ids_of_rows hblocking,
    ← hblocking.length_eq, hany]
  generalize (reports.filter fun report => disputed (seenStatus ctx report)) = blocking
  generalize (reports.filter fun report => seenStatus ctx report = .verified) = verified
  cases verified <;> cases blocking <;> simp

/-- **The verdict is the plain one**: the search for overlaps never adds to it.  The
reports it is about are reports of the project, in the order of their ids and none
twice, each as some read found it. -/
theorem eligibility_plain (r : Readings) (projectId : String) :
    getCouponEligibility ctx r projectId =
        (reportsSeen ctx r projectId).map (plainVerdict ctx projectId) ∧
      ∀ reports, reportsSeen ctx r projectId = some reports →
        reports.Pairwise (fun earlier later => earlier.id < later.id) ∧
          ∀ report ∈ reports, report.projectId = Monitor.toBytes32 ctx.toMonitorContext projectId ∧
            ∃ i, (r.storage i).report.get report.id = some report := by
  have hids := (r.reportIndex 0).ascending (Monitor.toBytes32 ctx.toMonitorContext projectId)
  have hseen := @pairwise_seenReports ctx r 1 _ hids
  have hmem {report : Report} (h : report ∈ seenReports ctx r 1 (OracleConsumer.getProjectReports
      (r.storage 0) (Monitor.toBytes32 ctx.toMonitorContext projectId))) :
      (decodeReport ctx report).isSome ∧
        report.projectId = Monitor.toBytes32 ctx.toMonitorContext projectId ∧
          ∃ i, (r.storage i).report.get report.id = some report := by
    obtain ⟨hdecodes, i, reportId, hle, hid, hget⟩ := mem_seenReports h
    obtain ⟨first, hfirst, hproject⟩ := ((r.reportIndex 0).indexed _ reportId).mp hid
    obtain ⟨later, hlater, hcontent⟩ := Readings.persists (Nat.zero_le i) hfirst
    obtain rfl : later = report := Option.some.inj (hlater.symm.trans hget)
    refine ⟨hdecodes, hcontent.projectId_eq.trans hproject, i, ?_⟩
    rwa [(r.reportIndex i).numbered reportId later hget]
  constructor
  · unfold getCouponEligibility Review.getProjectReports reportsSeen
    by_cases hok : r.ok 0
    · rw [if_pos hok, if_pos hok, Option.map_some, Option.map_some, readReports_eq]
      have hrows := @rows_of_seen ctx _ fun report hreport => (hmem hreport).1
      rw [assess_eq projectId hrows (pairwise_rows hseen fun report hreport =>
        (hmem hreport).2.1)]
    · rw [if_neg hok, if_neg hok]
      rfl
  · intro reports hreports
    unfold reportsSeen at hreports
    split at hreports
    · obtain rfl := Option.some.inj hreports
      exact ⟨hseen.imp fun hapart => hapart.ascending, fun report hreport => (hmem hreport).2⟩
    · cases hreports

/-! ## A report challenged between two reads -/

/-- Addresses are told apart by the length of their text. -/
def sampleReview : ReviewContext where
  toMonitorContext :=
    { sampleMonitor with addressText := fun address => String.ofList (List.replicate address 'G') }
  addressOf text := some text.toList.length
  addressOf_text address := by
    rw [String.toList_ofList, List.length_replicate]

/-- The verified report is challenged after its id was listed and before it is read. -/
def challengedMeanwhile : Readings where
  admin := 0
  txs := stakedReport ++ [stakedFiling]
  moment i := 4 + i
  ordered _ _ hle := Nat.add_le_add_left hle 4
  ok _ := true

/-- The verdict on a report that is challenged in the middle of the call. -/
theorem eligibility_plain_sample :
    getCouponEligibility sampleReview challengedMeanwhile
        (hexText OracleConsumer.sampleProject.bytes) = some {
      projectId := hexText OracleConsumer.sampleProject.bytes
      eligible := false
      reasons := [unverifiedReason, disputedReason 1]
      blockedByReportIds := [1] } := by
  obtain ⟨hverdict, -⟩ := @eligibility_plain sampleReview challengedMeanwhile
    (hexText OracleConsumer.sampleProject.bytes)
  rw [hverdict]
  rfl

end EcoMint.Review
