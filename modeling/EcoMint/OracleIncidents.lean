import EcoMint.Tasks

/-!
# The life of an oracle incident

A detection is counted by one statement: it raises the count of the unresolved
incident of its subject or, when there is none, inserts a new one.  If the count
crosses a threshold, a second statement writes the new severity.  Operators
acknowledge and resolve incidents by statements that check the status they find.

The second statement of a detection does not look at the status, and an operator
may resolve the incident between the two.  That is the only way in which a
resolved incident is ever written to.
-/

namespace EcoMint.Incidents

open Storage

/-- How far an incident has come. -/
inductive IncidentStatus
  | active
  | acknowledged
  | resolved
deriving DecidableEq, Repr

/-- How bad an incident is. -/
inductive IncidentSeverity
  | warning
  | critical
deriving DecidableEq, Repr

/-- What an incident is about. -/
inductive IncidentSubjectType
  | project
  | provider
deriving DecidableEq, Repr

/-- The name of a subject's type. -/
def IncidentSubjectType.text : IncidentSubjectType → String
  | .project => "project"
  | .provider => "provider"

/-- What is known of an incident. -/
structure IncidentDetails where
  lastVerifiedAt : Option String
  expectedNextReportAt : Option String
  stalenessSeconds : Option Nat
  projectIds : Option (List String)
deriving DecidableEq, Repr

/-- A detection, as it is recorded. -/
structure IncidentDetectionInput where
  subjectType : IncidentSubjectType
  subjectId : String
  detectedAt : Nat
  details : IncidentDetails
deriving DecidableEq, Repr

/-- A row of `oracle_incidents`. -/
structure IncidentRow where
  id : String
  dedupeKey : String
  subjectType : IncidentSubjectType
  subjectId : String
  status : IncidentStatus
  severity : IncidentSeverity
  occurrenceCount : Nat
  firstDetectedAt : Nat
  lastDetectedAt : Nat
  acknowledgedAt : Option Nat
  acknowledgedBy : Option String
  resolvedAt : Option Nat
  resolvedBy : Option String
  resolutionNote : Option String
  details : Option IncidentDetails
  createdAt : Nat
  updatedAt : Nat
deriving DecidableEq, Repr

/-- The table by primary key. -/
abbrev Table := Storage String IncidentRow

/-- From this many occurrences on, this severity. -/
structure EscalationThreshold where
  occurrences : Nat
  severity : IncidentSeverity
deriving DecidableEq, Repr

/-- The severity of the last threshold that the count reaches, a warning before the
first. -/
def severityForOccurrenceCount (count : Nat) (thresholds : List EscalationThreshold) :
    IncidentSeverity :=
  thresholds.foldl (fun severity threshold =>
    if count ≥ threshold.occurrences then threshold.severity else severity) .warning

/-- Incidents of one subject share this key. -/
def buildDedupeKey (subjectType : IncidentSubjectType) (subjectId : String) : String :=
  subjectType.text ++ ":" ++ subjectId

/-- The largest value of an `INTEGER` column. -/
def MAX_INTEGER : Nat := 2147483647

/-! ## Statements -/

/-- The row the partial unique index has under a key. -/
def unresolved (rows : Table) (dedupeKey : String) : Option IncidentRow :=
  (rows.entries.find? fun entry =>
    decide (entry.2.dedupeKey = dedupeKey ∧ entry.2.status ≠ .resolved)).map Sigma.snd

/-- An unresolved row after one more detection. -/
def IncidentRow.detectedAgain (row : IncidentRow) (input : IncidentDetectionInput) (now : Nat) :
    IncidentRow :=
  { row with
    occurrenceCount := row.occurrenceCount + 1
    lastDetectedAt := input.detectedAt
    details := some input.details
    updatedAt := now }

/-- A row as it is inserted. -/
def IncidentDetectionInput.row (input : IncidentDetectionInput) (id : String) (now : Nat) :
    IncidentRow where
  id := id
  dedupeKey := buildDedupeKey input.subjectType input.subjectId
  subjectType := input.subjectType
  subjectId := input.subjectId
  status := .active
  severity := .warning
  occurrenceCount := 1
  firstDetectedAt := input.detectedAt
  lastDetectedAt := input.detectedAt
  acknowledgedAt := none
  acknowledgedBy := none
  resolvedAt := none
  resolvedBy := none
  resolutionNote := none
  details := some input.details
  createdAt := now
  updatedAt := now

/-- `INSERT … ON CONFLICT … DO UPDATE … RETURNING *`.  It fails when the count
leaves its type or the new primary key is taken. -/
def upsert (rows : Table) (id : String) (input : IncidentDetectionInput) (now : Nat) :
    Option (IncidentRow × Table) :=
  match unresolved rows (buildDedupeKey input.subjectType input.subjectId) with
  | some row =>
      if row.occurrenceCount + 1 > MAX_INTEGER then none
      else some (row.detectedAgain input now, rows.set row.id (row.detectedAgain input now))
  | none =>
      match rows.get id with
      | some _ => none
      | none => some (input.row id now, rows.set id (input.row id now))

/-- `UPDATE … SET … WHERE id = $1 AND …  RETURNING *`: the row that matches. -/
def update (rows : Table) (id : String) (guard : IncidentRow → Bool)
    (change : IncidentRow → IncidentRow) : Option (IncidentRow × Table) :=
  match rows.get id with
  | some row => if guard row then some (change row, rows.set id (change row)) else none
  | none => none

/-- The severity of a row is set. -/
def updateSeverity (rows : Table) (id : String) (severity : IncidentSeverity) (now : Nat) :
    Option (IncidentRow × Table) :=
  update rows id (fun _ => true) fun row => { row with severity, updatedAt := now }

/-- An active row is acknowledged. -/
def updateAcknowledged (rows : Table) (id acknowledgedBy : String) (now : Nat) :
    Option (IncidentRow × Table) :=
  update rows id (fun row => row.status == .active) fun row =>
    { row with
      status := .acknowledged
      acknowledgedAt := some now
      acknowledgedBy := some acknowledgedBy
      updatedAt := now }

/-- A row that is not resolved yet is resolved. -/
def updateResolved (rows : Table) (id resolvedBy : String) (resolutionNote : Option String)
    (now : Nat) : Option (IncidentRow × Table) :=
  update rows id (fun row => row.status != .resolved) fun row =>
    { row with
      status := .resolved
      resolvedAt := some now
      resolvedBy := some resolvedBy
      resolutionNote := resolutionNote
      updatedAt := now }

/-! ## Calls -/

/-- What `recordDetection` returns. -/
structure IncidentDetectionResult where
  incident : IncidentRow
  isNew : Bool
  escalated : Bool
deriving DecidableEq, Repr

/-- The calls of the repository; the id of a detection is `randomUUID()`. -/
inductive Request
  | recordDetection (id : String) (input : IncidentDetectionInput)
  | acknowledge (id acknowledgedBy : String)
  | resolve (id resolvedBy : String) (resolutionNote : Option String)
deriving DecidableEq, Repr

/-- Why a call was rejected: a statement failed, or nothing was to be updated. -/
inductive IncidentError
  | statement
  | notFound (message : String)
deriving DecidableEq, Repr

/-- A call between two of its statements.  A detection whose upsert ran keeps
its dedupe key. -/
inductive Task
  | detecting (id : String) (input : IncidentDetectionInput)
  | escalating (dedupeKey : String) (row : IncidentRow) (severity : IncidentSeverity)
  | detected (dedupeKey : String) (result : IncidentDetectionResult)
  | unanswered (dedupeKey : String)
  | acknowledging (id acknowledgedBy : String)
  | resolving (id resolvedBy : String) (resolutionNote : Option String)
  | asserting (id message : String)
  | updated (row : IncidentRow)
  | rejected (error : IncidentError)
deriving DecidableEq, Repr

/-- `recordDetection` once its upsert returned a row. -/
def Task.afterUpsert (thresholds : List EscalationThreshold) (dedupeKey : String)
    (row : IncidentRow) : Task :=
  let targetSeverity := severityForOccurrenceCount row.occurrenceCount thresholds
  if targetSeverity ≠ row.severity then .escalating dedupeKey row targetSeverity
  else .detected dedupeKey ⟨row, row.occurrenceCount == 1, false⟩

/-- One statement of a call, at the time `now` of the database. -/
def Task.resume (thresholds : List EscalationThreshold) (rows : Table) (now : Nat) :
    Task → Option (Table × Task)
  | .detecting id input =>
      match upsert rows id input now with
      | some (row, rows) =>
          some (rows, .afterUpsert thresholds (buildDedupeKey input.subjectType input.subjectId) row)
      | none => some (rows, .rejected .statement)
  | .escalating dedupeKey row severity =>
      match updateSeverity rows row.id severity now with
      | some (finalRow, rows) =>
          some (rows, .detected dedupeKey ⟨finalRow, row.occurrenceCount == 1, true⟩)
      | none => some (rows, .unanswered dedupeKey)
  | .acknowledging id acknowledgedBy =>
      match updateAcknowledged rows id acknowledgedBy now with
      | some (row, rows) => some (rows, .updated row)
      | none => some (rows, .asserting id
          ("Incident " ++ id ++ " is not in an active state and cannot be acknowledged."))
  | .resolving id resolvedBy resolutionNote =>
      match updateResolved rows id resolvedBy resolutionNote now with
      | some (row, rows) => some (rows, .updated row)
      | none => some (rows, .asserting id ("Incident " ++ id ++ " is already resolved."))
  | .asserting id message =>
      match rows.get id with
      | some _ => some (rows, .rejected (.notFound message))
      | none => some (rows, .rejected (.notFound ("Incident " ++ id ++ " not found.")))
  | .detected _ _ | .unanswered _ | .updated _ | .rejected _ => none

/-- How each request begins. -/
def Request.task : Request → Task
  | .recordDetection id input => .detecting id input
  | .acknowledge id acknowledgedBy => .acknowledging id acknowledgedBy
  | .resolve id resolvedBy resolutionNote => .resolving id resolvedBy resolutionNote

/-- The repository serving any number of calls at once. -/
def program (thresholds : List EscalationThreshold) :
    TaskProgram Table Task Request Nat Empty where
  start := Request.task
  resume rows task now := task.resume thresholds rows now
  outside _ event := nomatch event

/-- The requests under way, with the table between them. -/
abbrev IncidentPool := Pool Table Task

/-- A step of one request, or a new request. -/
abbrev IncidentAction := PoolAction Request Nat Empty

/-- A step of the service as it was made. -/
abbrev IncidentEvent := Event IncidentPool IncidentAction Unit

/-! ## What a statement does to the table -/

/-- The table is keyed by its `id` column, and no two unresolved incidents share
a dedupe key. -/
structure Table.Sound (rows : Table) : Prop where
  ids : ∀ id row, rows.get id = some row → row.id = id
  unique : ∀ id id' row row', rows.get id = some row → rows.get id' = some row' →
    row.dedupeKey = row'.dedupeKey → row.status ≠ .resolved → row'.status ≠ .resolved → id = id'

/-- The occurrences counted under a dedupe key, over all its incidents. -/
def Table.occurrences (rows : Table) (dedupeKey : String) : Int :=
  rows.sum fun _ row => if row.dedupeKey = dedupeKey then (row.occurrenceCount : Int) else 0

/-- How a statement changes the table: not at all, by inserting an incident, or
by writing one row, which keeps its key and is not reopened. -/
inductive TableStep (rows rows' : Table) : Prop
  | kept (hrows : rows' = rows)
  | inserted (row : IncidentRow) (hnew : rows.get row.id = none)
      (hnone : ∀ id old, rows.get id = some old → old.dedupeKey = row.dedupeKey →
        old.status = .resolved)
      (hrows : rows' = rows.set row.id row)
  | written (id : String) (row row' : IncidentRow) (hget : rows.get id = some row)
      (hrows : rows' = rows.set id row') (hid : row'.id = row.id)
      (hkey : row'.dedupeKey = row.dedupeKey)
      (hopen : row'.status ≠ .resolved → row.status ≠ .resolved)

/-- No step of a request spoils the table. -/
theorem Table.Sound.step {rows rows' : Table} (hs : rows.Sound) (h : TableStep rows rows') :
    rows'.Sound := by
  cases h with
  | kept hrows => exact hrows ▸ hs
  | inserted row hnew hnone hrows =>
      subst hrows
      constructor
      · intro id found hfound
        rw [get_set] at hfound
        split at hfound
        · next heq =>
            obtain rfl := Option.some.inj hfound
            exact heq.symm
        · exact hs.ids id found hfound
      · intro id id' found found' hfound hfound' hkey hopen hopen'
        rw [get_set] at hfound hfound'
        split at hfound <;> split at hfound'
        · next heq heq' => exact heq.trans heq'.symm
        · obtain rfl := Option.some.inj hfound
          exact absurd (hnone id' found' hfound' hkey.symm) hopen'
        · obtain rfl := Option.some.inj hfound'
          exact absurd (hnone id found hfound hkey) hopen
        · exact hs.unique id id' found found' hfound hfound' hkey hopen hopen'
  | written key row row' hget hrows hid hkey hreopened =>
      subst hrows
      -- whatever is found was there before with the same key, open if it is open now
      have hold : ∀ id found, (rows.set key row').get id = some found →
          ∃ before, rows.get id = some before ∧ before.dedupeKey = found.dedupeKey ∧
            found.id = before.id ∧ (found.status ≠ .resolved → before.status ≠ .resolved) := by
        intro id found hfound
        rw [get_set] at hfound
        split at hfound
        · next heq =>
            obtain rfl := Option.some.inj hfound
            exact ⟨row, heq ▸ hget, hkey.symm, hid, hreopened⟩
        · exact ⟨found, hfound, rfl, rfl, fun hopen => hopen⟩
      constructor
      · intro id found hfound
        obtain ⟨before, hbefore, -, hsame, -⟩ := hold id found hfound
        exact hsame.trans (hs.ids id before hbefore)
      · intro id id' found found' hfound hfound' hsame hopen hopen'
        obtain ⟨before, hbefore, hkeys, -, hstill⟩ := hold id found hfound
        obtain ⟨before', hbefore', hkeys', -, hstill'⟩ := hold id' found' hfound'
        exact hs.unique id id' before before' hbefore hbefore'
          (hkeys.trans (hsame.trans hkeys'.symm)) (hstill hopen) (hstill' hopen')

theorem unresolved_eq_some {rows : Table} {dedupeKey : String} {row : IncidentRow}
    (h : unresolved rows dedupeKey = some row) (hs : rows.Sound) :
    rows.get row.id = some row ∧ row.dedupeKey = dedupeKey ∧ row.status ≠ .resolved := by
  obtain ⟨entry, hfind, rfl⟩ := Option.map_eq_some_iff.mp h
  have hget : rows.get entry.1 = some entry.2 := mem_entries_iff.mp (List.mem_of_find?_eq_some hfind)
  have hfound := List.find?_some hfind
  obtain ⟨hkey, hopen⟩ := of_decide_eq_true hfound
  rw [hs.ids entry.1 entry.2 hget]
  exact ⟨hget, hkey, hopen⟩

/-- Where none is found every row of the key is resolved. -/
theorem unresolved_eq_none {rows : Table} {dedupeKey : String}
    (h : unresolved rows dedupeKey = none) {id : String} {row : IncidentRow}
    (hget : rows.get id = some row) (hkey : row.dedupeKey = dedupeKey) :
    row.status = .resolved := by
  by_contra hopen
  have hnone := List.find?_eq_none.mp (Option.map_eq_none_iff.mp h) ⟨id, row⟩
    (mem_entries_iff.mpr hget)
  simp [hkey, hopen] at hnone

/-- An upsert counts one more occurrence of its key, on an unresolved row or on
a new one. -/
theorem upsert_cases {rows rows' : Table} {id : String} {input : IncidentDetectionInput}
    {now : Nat} {row' : IncidentRow} (hs : rows.Sound)
    (h : upsert rows id input now = some (row', rows')) :
    (∃ row, rows.get row.id = some row ∧ row.status ≠ .resolved ∧
      row.dedupeKey = buildDedupeKey input.subjectType input.subjectId ∧
      row' = row.detectedAgain input now ∧ rows' = rows.set row.id row') ∨
    (rows.get id = none ∧ row' = input.row id now ∧ rows' = rows.set id row' ∧
      ∀ id old, rows.get id = some old →
        old.dedupeKey = buildDedupeKey input.subjectType input.subjectId →
          old.status = .resolved) := by
  unfold upsert at h
  split at h
  · next row hfound =>
      obtain ⟨hget, hkey, hopen⟩ := unresolved_eq_some hfound hs
      split at h
      · cases h
      · obtain ⟨rfl, rfl⟩ := Prod.mk.inj (Option.some.inj h)
        exact Or.inl ⟨row, hget, hopen, hkey, rfl, rfl⟩
  · next hfound =>
      split at h
      · cases h
      · next hnew =>
          obtain ⟨rfl, rfl⟩ := Prod.mk.inj (Option.some.inj h)
          exact Or.inr ⟨hnew, rfl, rfl, fun id old hget hkey => unresolved_eq_none hfound hget hkey⟩

/-- An update changes the row that passes its guard, and otherwise nothing. -/
theorem update_cases {rows rows' : Table} {id : String} {guard : IncidentRow → Bool}
    {change : IncidentRow → IncidentRow} {row' : IncidentRow}
    (h : update rows id guard change = some (row', rows')) :
    ∃ row, rows.get id = some row ∧ guard row = true ∧ row' = change row ∧
      rows' = rows.set id row' := by
  unfold update at h
  split at h
  · next row hget =>
      split at h
      · next hguard =>
          obtain ⟨rfl, rfl⟩ := Prod.mk.inj (Option.some.inj h)
          exact ⟨row, hget, hguard, rfl, rfl⟩
      · cases h
  · cases h

/-- A new row adds its occurrences to those of its key. -/
theorem occurrences_inserted {rows : Table} {id : String} (hnew : rows.get id = none)
    (row : IncidentRow) (dedupeKey : String) :
    Table.occurrences (rows.set id row) dedupeKey = rows.occurrences dedupeKey +
        if row.dedupeKey = dedupeKey then (row.occurrenceCount : Int) else 0 := by
  unfold Table.occurrences
  rw [sum_set, hnew, Option.elim_none, Int.sub_zero]

/-- A changed row adds the difference to those of its key. -/
theorem occurrences_written {rows : Table} {id : String} {row : IncidentRow}
    (hget : rows.get id = some row) (row' : IncidentRow) (hkey : row'.dedupeKey = row.dedupeKey)
    (dedupeKey : String) :
    Table.occurrences (rows.set id row') dedupeKey = rows.occurrences dedupeKey +
      if row.dedupeKey = dedupeKey then (row'.occurrenceCount : Int) - row.occurrenceCount
      else 0 := by
  unfold Table.occurrences
  rw [sum_set, hget, Option.elim_some, hkey]
  split <;> omega

/-! ## What one step of a call does -/

/-- A detection whose upsert ran, under its key. -/
def Task.UpsertRan (dedupeKey : String) : Task → Prop
  | .escalating key _ _ | .detected key _ | .unanswered key => key = dedupeKey
  | _ => False

instance (dedupeKey : String) : DecidablePred (Task.UpsertRan dedupeKey) := by
  intro t
  cases t <;> unfold Task.UpsertRan <;> infer_instance

/-- The step does not overwrite a resolved incident: if it is the severity update
of one, that severity and that time are there already. -/
def Task.SparesResolved (rows : Table) (now : Nat) : Task → Prop
  | .escalating _ row severity => ∀ old, rows.get row.id = some old → old.status = .resolved →
      old.severity = severity ∧ old.updatedAt = now
  | _ => True

/-- The upsert of a key has run, and of no other. -/
theorem afterUpsert_upsertRan (thresholds : List EscalationThreshold) (key dedupeKey : String)
    (row : IncidentRow) :
    (Task.afterUpsert thresholds key row).UpsertRan dedupeKey ↔ key = dedupeKey := by
  unfold Task.afterUpsert
  dsimp only
  split <;> exact Iff.rfl

/-- Every statement is a `TableStep`, and an upsert counts one occurrence. -/
theorem resume_spec {thresholds : List EscalationThreshold} {rows rows' : Table} {now : Nat}
    {t t' : Task} (hs : rows.Sound) (h : t.resume thresholds rows now = some (rows', t')) :
    TableStep rows rows' ∧ ∀ dedupeKey,
      rows'.occurrences dedupeKey - (if t'.UpsertRan dedupeKey then 1 else 0) =
        rows.occurrences dedupeKey - (if t.UpsertRan dedupeKey then 1 else 0) := by
  cases t with
  | detecting id input =>
      simp only [Task.resume] at h
      split at h
      · next row' after hupsert =>
          obtain ⟨rfl, rfl⟩ := Prod.mk.inj (Option.some.inj h)
          rcases upsert_cases hs hupsert with
            ⟨row, hget, hopen, hkey, hrow, hafter⟩ | ⟨hnew, hrow, hafter, hnone⟩
          · subst hrow hafter
            refine ⟨.written row.id row _ hget rfl rfl rfl fun _ => hopen, fun dedupeKey => ?_⟩
            rw [occurrences_written hget (row.detectedAgain input now) rfl, hkey]
            simp only [afterUpsert_upsertRan]
            simp only [Task.UpsertRan, IncidentRow.detectedAgain]
            by_cases hsame : buildDedupeKey input.subjectType input.subjectId = dedupeKey <;>
              simp [hsame]
          · subst hrow hafter
            refine ⟨.inserted (input.row id now) hnew hnone rfl, fun dedupeKey => ?_⟩
            rw [occurrences_inserted hnew]
            simp only [afterUpsert_upsertRan]
            simp only [Task.UpsertRan, IncidentDetectionInput.row]
            by_cases hkey : buildDedupeKey input.subjectType input.subjectId = dedupeKey <;>
              simp [hkey]
      · obtain ⟨rfl, rfl⟩ := Prod.mk.inj (Option.some.inj h)
        exact ⟨.kept rfl, fun _ => rfl⟩
  | escalating key row severity =>
      simp only [Task.resume, updateSeverity] at h
      split at h
      · next finalRow after hupdate =>
          obtain ⟨rfl, rfl⟩ := Prod.mk.inj (Option.some.inj h)
          obtain ⟨old, hget, -, rfl, rfl⟩ := update_cases hupdate
          refine ⟨.written row.id old _ hget rfl rfl rfl fun hopen => hopen, fun dedupeKey => ?_⟩
          rw [occurrences_written hget]
          · simp [Task.UpsertRan]
          · rfl
      · obtain ⟨rfl, rfl⟩ := Prod.mk.inj (Option.some.inj h)
        exact ⟨.kept rfl, fun _ => rfl⟩
  | acknowledging id acknowledgedBy =>
      simp only [Task.resume, updateAcknowledged] at h
      split at h
      · next row' after hupdate =>
          obtain ⟨rfl, rfl⟩ := Prod.mk.inj (Option.some.inj h)
          obtain ⟨old, hget, hactive, rfl, rfl⟩ := update_cases hupdate
          have hopen : old.status ≠ .resolved := by simp [eq_of_beq hactive]
          refine ⟨.written id old _ hget rfl rfl rfl fun _ => hopen, fun dedupeKey => ?_⟩
          rw [occurrences_written hget]
          · simp [Task.UpsertRan]
          · rfl
      · obtain ⟨rfl, rfl⟩ := Prod.mk.inj (Option.some.inj h)
        exact ⟨.kept rfl, fun _ => rfl⟩
  | resolving id resolvedBy resolutionNote =>
      simp only [Task.resume, updateResolved] at h
      split at h
      · next row' after hupdate =>
          obtain ⟨rfl, rfl⟩ := Prod.mk.inj (Option.some.inj h)
          obtain ⟨old, hget, hopen, rfl, rfl⟩ := update_cases hupdate
          refine ⟨.written id old _ hget rfl rfl rfl fun _ => by simpa using hopen,
            fun dedupeKey => ?_⟩
          rw [occurrences_written hget]
          · simp [Task.UpsertRan]
          · rfl
      · obtain ⟨rfl, rfl⟩ := Prod.mk.inj (Option.some.inj h)
        exact ⟨.kept rfl, fun _ => rfl⟩
  | asserting id message =>
      simp only [Task.resume] at h
      split at h <;>
        · obtain ⟨rfl, rfl⟩ := Prod.mk.inj (Option.some.inj h)
          exact ⟨.kept rfl, fun _ => rfl⟩
  | detected _ _ => cases h
  | unanswered _ => cases h
  | updated _ => cases h
  | rejected _ => cases h

/-- A row is kept by writing another one. -/
theorem resolved_kept_of_open {rows : Table} {id : String} {row row' : IncidentRow}
    (hget : rows.get id = some row) (hopen : row.status ≠ .resolved) (other : String)
    (old : IncidentRow) (hold : rows.get other = some old) (hresolved : old.status = .resolved) :
    (rows.set id row').get other = some old := by
  rw [get_set_ne, hold]
  rintro rfl
  obtain rfl := Option.some.inj (hget.symm.trans hold)
  exact hopen hresolved

/-- A statement keeps every resolved incident as it is, unless it is the severity
update of one. -/
theorem resume_keeps_resolved_iff {thresholds : List EscalationThreshold} {rows rows' : Table}
    {now : Nat} {t t' : Task} (hs : rows.Sound)
    (h : t.resume thresholds rows now = some (rows', t')) :
    (∀ id old, rows.get id = some old → old.status = .resolved → rows'.get id = some old) ↔
      t.SparesResolved rows now := by
  cases t with
  | detecting id input =>
      refine iff_of_true ?_ trivial
      simp only [Task.resume] at h
      split at h
      · next row' after hupsert =>
          obtain ⟨rfl, rfl⟩ := Prod.mk.inj (Option.some.inj h)
          rcases upsert_cases hs hupsert with ⟨row, hget, hopen, -, -, rfl⟩ | ⟨hnew, -, rfl, -⟩
          · exact resolved_kept_of_open hget hopen
          · intro other old hold _
            rw [get_set_ne, hold]
            rintro rfl
            simp [hnew] at hold
      · obtain ⟨rfl, rfl⟩ := Prod.mk.inj (Option.some.inj h)
        exact fun _ _ hold _ => hold
  | escalating key row severity =>
      simp only [Task.resume, updateSeverity] at h
      split at h
      · next finalRow after hupdate =>
          obtain ⟨rfl, rfl⟩ := Prod.mk.inj (Option.some.inj h)
          obtain ⟨found, hget, -, rfl, rfl⟩ := update_cases hupdate
          constructor
          · intro hkept old hold hresolved
            obtain rfl := Option.some.inj (hget.symm.trans hold)
            have hsame := hkept row.id found hget hresolved
            rw [get_set_self] at hsame
            have hrow := Option.some.inj hsame
            exact ⟨(congrArg IncidentRow.severity hrow).symm,
              (congrArg IncidentRow.updatedAt hrow).symm⟩
          · intro hspares id old hold hresolved
            rw [get_set]
            split
            · next heq =>
                subst heq
                obtain rfl := Option.some.inj (hget.symm.trans hold)
                obtain ⟨rfl, rfl⟩ := hspares found hget hresolved
                rfl
            · exact hold
      · next hupdate =>
          obtain ⟨rfl, rfl⟩ := Prod.mk.inj (Option.some.inj h)
          refine iff_of_true (fun _ _ hold _ => hold) fun old hold _ => ?_
          simp [update, hold] at hupdate
  | acknowledging id acknowledgedBy =>
      refine iff_of_true ?_ trivial
      simp only [Task.resume, updateAcknowledged] at h
      split at h
      · next row' after hupdate =>
          obtain ⟨rfl, rfl⟩ := Prod.mk.inj (Option.some.inj h)
          obtain ⟨row, hget, hactive, -, rfl⟩ := update_cases hupdate
          exact resolved_kept_of_open hget (by simp [eq_of_beq hactive])
      · obtain ⟨rfl, rfl⟩ := Prod.mk.inj (Option.some.inj h)
        exact fun _ _ hold _ => hold
  | resolving id resolvedBy resolutionNote =>
      refine iff_of_true ?_ trivial
      simp only [Task.resume, updateResolved] at h
      split at h
      · next row' after hupdate =>
          obtain ⟨rfl, rfl⟩ := Prod.mk.inj (Option.some.inj h)
          obtain ⟨row, hget, hopen, -, rfl⟩ := update_cases hupdate
          exact resolved_kept_of_open hget (by simpa using hopen)
      · obtain ⟨rfl, rfl⟩ := Prod.mk.inj (Option.some.inj h)
        exact fun _ _ hold _ => hold
  | asserting id message =>
      refine iff_of_true ?_ trivial
      simp only [Task.resume] at h
      split at h <;>
        · obtain ⟨rfl, rfl⟩ := Prod.mk.inj (Option.some.inj h)
          exact fun _ _ hold _ => hold
  | detected _ _ => cases h
  | unanswered _ => cases h
  | updated _ => cases h
  | rejected _ => cases h

/-! ## Whole runs -/

/-- What holds in every pool: a sound table, and every detection counted under
its key once its upsert ran. -/
structure PoolInvariant (p : IncidentPool) : Prop where
  sound : p.shared.Sound
  counted : ∀ dedupeKey, p.shared.occurrences dedupeKey = p.count (Task.UpsertRan dedupeKey)

/-- The invariant of an empty table. -/
theorem PoolInvariant.initial : PoolInvariant (Pool.initial ∅) where
  sound := ⟨fun _ _ h => (by simp at h), fun _ _ _ _ h => (by simp at h)⟩
  counted dedupeKey := by
    rw [Pool.count_initial]
    exact sum_empty _

/-- A step of the run keeps the invariant. -/
theorem PoolInvariant.step {thresholds : List EscalationThreshold} {e : IncidentEvent}
    (hp : PoolInvariant e.before) (hfires : (program thresholds).machine.Fires e) :
    PoolInvariant e.after := by
  obtain ⟨p, a, out, p'⟩ := e
  have hstep : (program thresholds).Step p p' a := (program thresholds).step_cases hfires
  have hs : PoolInvariant p := hp
  cases hstep with
  | started id request hinput hnew hafter =>
      subst hafter
      refine ⟨hs.sound, fun dedupeKey => ?_⟩
      have hnot : ¬ Task.UpsertRan dedupeKey request.task := by
        cases request <;> exact fun h => h
      rw [Pool.count_start hnew, hs.counted dedupeKey]
      exact (add_zero _).symm.trans (congrArg _ (if_neg hnot).symm)
  | resumed id now t t' shared hinput hget hresume hafter =>
      subst hafter
      obtain ⟨htable, hcount⟩ := resume_spec hs.sound hresume
      refine ⟨hs.sound.step htable, fun dedupeKey => ?_⟩
      have hadded := hcount dedupeKey
      have hbefore := hs.counted dedupeKey
      rw [Pool.count_resume hget]
      dsimp only
      omega
  | outside event => exact nomatch event

/-- The invariant holds after every run. -/
theorem PoolInvariant.run (thresholds : List EscalationThreshold) (schedule : List IncidentAction) :
    PoolInvariant ((program thresholds).run ∅ schedule) :=
  (program thresholds).machine.invariant (P := fun p _ => PoolInvariant p) PoolInvariant.initial
    (fun _ _ hfires hp => hp.step hfires) schedule

/-- Every incident resolved in one pool is the same in another. -/
def KeepsResolved (p p' : IncidentPool) : Prop :=
  ∀ id old, p.shared.get id = some old → old.status = .resolved → p'.shared.get id = some old

theorem KeepsResolved.refl (p : IncidentPool) : KeepsResolved p p := fun _ _ hold _ => hold

theorem KeepsResolved.trans {p p' p'' : IncidentPool} (h : KeepsResolved p p')
    (h' : KeepsResolved p' p'') : KeepsResolved p p'' :=
  fun id old hold hresolved => h' id old (h id old hold hresolved) hresolved

/-- The step is not the severity update of a resolved incident, or one that
writes what is there. -/
def LogEntry.SparesResolved (e : IncidentEvent) : Prop :=
  ∀ id now t, e.input = .resume id now → e.before.tasks.get id = some t →
    t.SparesResolved e.before.shared now

/-- **Step lemma.** -/
theorem keepsResolved_iff {thresholds : List EscalationThreshold} {e : IncidentEvent}
    (hp : PoolInvariant e.before) (hfires : (program thresholds).machine.Fires e) :
    KeepsResolved e.before e.after ↔ LogEntry.SparesResolved e := by
  obtain ⟨p, a, out, p'⟩ := e
  have hstep : (program thresholds).Step p p' a := (program thresholds).step_cases hfires
  cases hstep with
  | started id request hinput hnew hafter =>
      subst hafter hinput
      exact iff_of_true (fun _ _ hold _ => hold) fun _ _ _ hinput => by cases hinput
  | resumed id now t t' shared hinput hget hresume hafter =>
      subst hafter hinput
      have hstatement := resume_keeps_resolved_iff hp.sound hresume
      constructor
      · intro hkept id' now' t'' hinput hget'
        obtain ⟨rfl, rfl⟩ := PoolAction.resume.inj hinput
        obtain rfl := Option.some.inj (hget.symm.trans hget')
        exact hstatement.mp hkept
      · intro hspares
        exact hstatement.mpr (hspares id now t rfl hget)
  | outside event => exact nomatch event

/-- A run extended by a schedule keeps the resolved incidents if all its steps do. -/
theorem keepsResolved_run {thresholds : List EscalationThreshold} (pre later : List IncidentAction)
    (h : ∀ e ∈ (program thresholds).log ∅ (pre ++ later), LogEntry.SparesResolved e) :
    KeepsResolved ((program thresholds).run ∅ pre) ((program thresholds).run ∅ (pre ++ later)) := by
  induction later using List.reverseRecOn with
  | nil =>
      rw [List.append_nil]
      exact KeepsResolved.refl _
  | append_singleton later a ih =>
      rw [← List.append_assoc] at h ⊢
      rcases (program thresholds).machine.snoc_cases (Pool.initial ∅) (pre ++ later) a with
        ⟨hrun, hlog⟩ | ⟨e, hfires, -, hbefore, hrun, hlog⟩
      · unfold TaskProgram.run TaskProgram.log at *
        rw [hlog] at h
        rw [hrun]
        exact ih h
      · have hinvariant := PoolInvariant.run thresholds (pre ++ later)
        unfold TaskProgram.run TaskProgram.log at *
        rw [hlog, List.forall_mem_append, List.forall_mem_singleton] at h
        rw [← hbefore] at hinvariant ih
        rw [hrun]
        exact (ih h.1).trans ((keepsResolved_iff hinvariant hfires).mpr h.2)

/-- In every run a dedupe key has one unresolved incident at most, and the
occurrences under it are the detections whose upsert ran.  Resolved incidents
never change exactly if no severity update finds its incident resolved, other
than with that severity and time already in it. -/
theorem incident_lifecycle (thresholds : List EscalationThreshold)
    (schedule : List IncidentAction) :
    (∀ id id' row row', ((program thresholds).run ∅ schedule).shared.get id = some row →
      ((program thresholds).run ∅ schedule).shared.get id' = some row' →
      row.dedupeKey = row'.dedupeKey → row.status ≠ .resolved → row'.status ≠ .resolved →
      id = id') ∧
    (∀ dedupeKey, ((program thresholds).run ∅ schedule).shared.occurrences dedupeKey =
      ((program thresholds).run ∅ schedule).count (Task.UpsertRan dedupeKey)) ∧
    ((∀ pre later, pre ++ later <+: schedule →
        KeepsResolved ((program thresholds).run ∅ pre)
          ((program thresholds).run ∅ (pre ++ later))) ↔
      ∀ e ∈ (program thresholds).log ∅ schedule, LogEntry.SparesResolved e) := by
  have hinvariant := PoolInvariant.run thresholds schedule
  refine ⟨hinvariant.sound.unique, hinvariant.counted, ?_, ?_⟩
  · intro hkept
    rw [← Machine.forall_prefix_iff_forall_mem]
    intro before e hpre
    obtain ⟨pre, a, hprefix, hfires, hbefore, -, hrun, -⟩ :=
      (program thresholds).machine.exists_call_of_log_prefix hpre
    have hp := PoolInvariant.run thresholds pre
    have hstep := hkept pre [a] hprefix
    unfold TaskProgram.run at hp hstep
    rw [← hbefore] at hp hstep
    rw [hrun] at hstep
    exact (keepsResolved_iff hp hfires).mp hstep
  · intro hspares pre later hprefix
    refine keepsResolved_run pre later fun e he => hspares e ?_
    exact ((program thresholds).machine.log_prefix _ hprefix).subset he

/-! ## A resolution between the two statements of a detection -/

def sampleDetection : IncidentDetectionInput where
  subjectType := .project
  subjectId := "7"
  detectedAt := 100
  details := ⟨some "50", some "90", some 50, none⟩

/-- Three detections of one project; the incident is resolved before the third
one writes the severity. -/
def resolvedWhileEscalating : List IncidentAction :=
  [.start 0 (.recordDetection "a" sampleDetection), .resume 0 100,
    .start 1 (.recordDetection "b" sampleDetection), .resume 1 200,
    .start 2 (.recordDetection "c" sampleDetection), .resume 2 300,
    .start 3 (.resolve "a" "operator" none), .resume 3 301]

/-- A detection that found the row active escalates it after somebody has resolved it. -/
theorem resolved_incident_escalated :
    ¬ ∀ (thresholds : List EscalationThreshold) (schedule pre later : List IncidentAction),
      pre ++ later <+: schedule →
      KeepsResolved ((program thresholds).run ∅ pre)
        ((program thresholds).run ∅ (pre ++ later)) := by
  intro h
  have hkept := h [⟨3, .critical⟩] (resolvedWhileEscalating ++ [.resume 2 302])
    resolvedWhileEscalating [.resume 2 302] List.prefix_rfl
  have hseverity : (((program [⟨3, .critical⟩]).run ∅ resolvedWhileEscalating).shared.get "a").map
      (fun row => (row.status, row.severity)) = some (.resolved, .warning) := by decide +kernel
  obtain ⟨row, hget, hrow⟩ := Option.map_eq_some_iff.mp hseverity
  obtain ⟨hstatus, hwarning⟩ := Prod.mk.inj hrow
  have hlater := hkept "a" row hget hstatus
  have hcritical : (((program [⟨3, .critical⟩]).run ∅
      (resolvedWhileEscalating ++ [.resume 2 302])).shared.get "a").map
        IncidentRow.severity = some .critical := by decide +kernel
  rw [hlater, Option.map_some, hwarning] at hcritical
  cases hcritical

end EcoMint.Incidents
