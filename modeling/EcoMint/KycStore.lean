import EcoMint.Machine
import EcoMint.ReplayLog

/-!
# The KYC store and its two files

Each status transition changes the records in memory, is appended to the audit
log, and is followed by a snapshot of all records, written to a temporary file
and renamed.  The two writes share a lock, so audit lines come in the order of
the transitions; a snapshot shows the memory as it is when its text is made,
which may be ahead of the log, and it may be lost on the way.

On start the snapshot is read and the whole log is replayed over it.  Fields
that an entry leaves out keep their value, so this is a replay of a log over what
some part of it has built.  With the snapshot file missing, the store starts
empty and the log is not read at all.
-/

namespace EcoMint.Kyc

/-- What is known of an address. -/
inductive KycStatus
  | none
  | pending
  | verified
  | accredited
  | expired
  | rejected
deriving DecidableEq

/-- Who has said so. -/
inductive KycStatusSource
  | provider
  | admin
  | system
  | imported
deriving DecidableEq

/-- A transition as the log has it. -/
structure KycAuditEntry where
  id : String
  address : String
  fromStatus : Option KycStatus
  toStatus : KycStatus
  source : KycStatusSource
  actor : Option String
  reason : Option String
  providerReference : Option String
  expiresAt : Option Nat
  timestamp : Nat
deriving DecidableEq

/-- What the store keeps of an address. -/
structure KycRecord where
  address : String
  status : KycStatus
  source : KycStatusSource
  actor : Option String
  reason : Option String
  providerReference : Option String
  createdAt : Nat
  updatedAt : Nat
  expiresAt : Option Nat
deriving DecidableEq

/-- The records by address, in memory and in a snapshot. -/
abbrev Records := Storage String KycRecord

/-! ## Transitions -/

/-- A transition as it is asked for. -/
structure TransitionInput where
  address : String
  toStatus : KycStatus
  source : KycStatusSource
  actor : Option String
  reason : Option String
  providerReference : Option String
  expiresAt : Option Nat
deriving DecidableEq

/-- The transition would change neither the status nor the expiry. -/
def TransitionInput.Idle (input : TransitionInput) (existing : KycRecord) : Prop :=
  existing.status = input.toStatus ∧ existing.expiresAt = input.expiresAt

instance (input : TransitionInput) (existing : KycRecord) : Decidable (input.Idle existing) := by
  unfold TransitionInput.Idle
  infer_instance

/-- The entry that a transition writes to the log. -/
def TransitionInput.entry (input : TransitionInput) (existing : Option KycRecord) (id : String)
    (now : Nat) : KycAuditEntry where
  id := id
  address := input.address
  fromStatus := some ((existing.map KycRecord.status).getD .pending)
  toStatus := input.toStatus
  source := input.source
  actor := input.actor
  reason := input.reason
  providerReference := input.providerReference
  expiresAt := input.expiresAt
  timestamp := now

/-- The record after a transition; what it does not name stays as it was. -/
def TransitionInput.record (input : TransitionInput) (now : Nat) : Option KycRecord → KycRecord
  | some existing => { existing with
      status := input.toStatus
      source := input.source
      actor := input.actor.or existing.actor
      reason := input.reason.or existing.reason
      providerReference := input.providerReference.or existing.providerReference
      expiresAt := input.expiresAt.or existing.expiresAt
      updatedAt := now }
  | none =>
      { address := input.address
        status := input.toStatus
        source := input.source
        actor := input.actor
        reason := input.reason
        providerReference := input.providerReference
        createdAt := now
        updatedAt := now
        expiresAt := input.expiresAt }

/-- What `applyTransition` returns; there is no entry if nothing changed. -/
structure TransitionResult where
  record : KycRecord
  entry : Option KycAuditEntry
  isNew : Bool
deriving DecidableEq

/-- `applyTransition` up to its first await; `id` is random. -/
def applyTransition (records : Records) (input : TransitionInput) (id : String) (now : Nat) :
    TransitionResult × Records :=
  let existing := records.get input.address
  let changed :=
    let record := input.record now existing
    (⟨record, some (input.entry existing id now), existing.isNone⟩,
      records.set input.address record)
  match existing with
  | some record => if input.Idle record then (⟨record, none, false⟩, records) else changed
  | none => changed

/-! ## The files -/

/-- What is found where the snapshot should be. -/
inductive SnapshotFile
  | missing
  | unparseable
  /-- a JSON text, with its `records` if it has any -/
  | present (records : Option Records)
deriving DecidableEq

/-- A line that does not parse is `none`. -/
abbrev AuditLine := Option KycAuditEntry

/-- What is on disk. -/
structure Disk where
  snapshot : SnapshotFile
  tmp : Option Records
  auditLog : List AuditLine

/-- What the replay of an entry makes of the record of its address. -/
def replayEntry (existing : Option KycRecord) (entry : KycAuditEntry) : KycRecord :=
  match existing with
  | some existing => { existing with
      status := entry.toStatus
      source := entry.source
      actor := entry.actor.or existing.actor
      reason := entry.reason.or existing.reason
      providerReference := entry.providerReference.or existing.providerReference
      expiresAt := entry.expiresAt.or existing.expiresAt
      updatedAt := entry.timestamp }
  | none =>
      { address := entry.address
        status := entry.toStatus
        source := entry.source
        actor := entry.actor
        reason := entry.reason
        providerReference := entry.providerReference
        createdAt := entry.timestamp
        updatedAt := entry.timestamp
        expiresAt := entry.expiresAt }

/-- The record after one more line of the log; a line that does not parse is passed over. -/
def replayLine (records : Records) : AuditLine → Records
  | some entry => records.set entry.address (replayEntry (records.get entry.address) entry)
  | none => records

/-- The records after the lines of the log. -/
def replayAudit (records : Records) (lines : List AuditLine) : Records :=
  lines.foldl replayLine records

/-- What a start of the service loads. -/
def loadSnapshot (disk : Disk) : Records :=
  match disk.snapshot with
  -- returns before the replay
  | .missing => ∅
  | .unparseable => replayAudit ∅ disk.auditLog
  | .present records => replayAudit (records.getD ∅) disk.auditLog

/-! ## The running store -/

/-- The service with the entries that wait for the lock. -/
structure Store where
  records : Records
  queue : List KycAuditEntry
  disk : Disk

/-- What may happen to the store. -/
inductive StoreStep
  | applyTransition (input : TransitionInput) (id : String) (now : Nat)
  | appendAuditLine
  | writeSnapshot
  | renameSnapshot
  /-- the snapshot file is deleted, or its text damaged -/
  | loseSnapshot
  | damageSnapshot

/-- One step of the store. -/
def Store.exec (s : Store) : StoreStep → Except Unit (Unit × Store)
  | .applyTransition input id now =>
      let (result, records) := applyTransition s.records input id now
      .ok ((), { s with records := records, queue := s.queue ++ result.entry.toList })
  | .appendAuditLine =>
      match s.queue with
      | [] => .error ()
      | entry :: queue => .ok ((), { s with
          queue := queue
          disk := { s.disk with auditLog := s.disk.auditLog ++ [some entry] } })
  | .writeSnapshot => .ok ((), { s with disk := { s.disk with tmp := some s.records } })
  | .renameSnapshot =>
      match s.disk.tmp with
      | none => .error ()
      | some records => .ok ((), { s with
          disk := { s.disk with snapshot := .present (some records), tmp := none } })
  | .loseSnapshot => .ok ((), { s with disk := { s.disk with snapshot := .missing } })
  | .damageSnapshot => .ok ((), { s with disk := { s.disk with snapshot := .unparseable } })

/-- The store, step by step. -/
def storeMachine : Machine Store StoreStep Unit Unit := ⟨Store.exec⟩

/-- An empty store, with nothing on disk. -/
def Store.initial : Store := ⟨∅, [], ⟨.missing, none, []⟩⟩

/-- The store after a sequence of steps from an empty one. -/
abbrev Store.after (steps : List StoreStep) : Store := storeMachine.run Store.initial steps

/-! ## Replay -/

/-- The records that a list of entries builds. -/
def rebuild (records : Records) (entries : List KycAuditEntry) : Records :=
  entries.foldl (ReplayLog.updateKey KycAuditEntry.address replayEntry) records

/-- Replaying lines that parse is rebuilding from their entries. -/
theorem replayAudit_map_some (records : Records) (entries : List KycAuditEntry) :
    replayAudit records (entries.map some) = rebuild records entries := by
  unfold replayAudit rebuild
  rw [List.foldl_map]
  rfl

theorem rebuild_snoc (records : Records) (entries : List KycAuditEntry) (entry : KycAuditEntry) :
    rebuild records (entries ++ [entry]) =
      (rebuild records entries).set entry.address
        (replayEntry ((rebuild records entries).get entry.address) entry) := by
  simp [rebuild, ReplayLog.updateKey]

/-- The replay of an entry makes the record that the transition made. -/
theorem replayEntry_entry (input : TransitionInput) (existing : Option KycRecord) (id : String)
    (now : Nat) :
    replayEntry existing (input.entry existing id now) = input.record now existing := by
  cases existing <;> rfl

@[simp] theorem record_status (input : TransitionInput) (now : Nat) (existing : Option KycRecord) :
    (input.record now existing).status = input.toStatus := by
  cases existing <;> rfl

/-- A transition is idle, or it stores the record that it makes. -/
theorem applyTransition_cases (records : Records) (input : TransitionInput) (id : String)
    (now : Nat) :
    (∃ record, records.get input.address = some record ∧ input.Idle record ∧
      applyTransition records input id now = (⟨record, none, false⟩, records)) ∨
    applyTransition records input id now =
      (⟨input.record now (records.get input.address),
        some (input.entry (records.get input.address) id now),
        (records.get input.address).isNone⟩,
        records.set input.address (input.record now (records.get input.address))) := by
  by_cases hidle : ∃ record, records.get input.address = some record ∧ input.Idle record
  · obtain ⟨record, hget, hidle⟩ := hidle
    exact Or.inl ⟨record, hget, hidle, by simp [applyTransition, hget, hidle]⟩
  · right
    cases hget : records.get input.address with
    | none => simp [applyTransition, hget]
    | some record =>
        have hbusy : ¬ input.Idle record := fun h => hidle ⟨record, hget, h⟩
        simp [applyTransition, hget, hbusy]

/-- Records with the same fields are the same; a missing record has no status. -/
theorem record_ext {r r' : Option KycRecord}
    (haddress : r.map KycRecord.address = r'.map KycRecord.address)
    (hstatus : r.map KycRecord.status = r'.map KycRecord.status)
    (hsource : r.map KycRecord.source = r'.map KycRecord.source)
    (hactor : r.bind KycRecord.actor = r'.bind KycRecord.actor)
    (hreason : r.bind KycRecord.reason = r'.bind KycRecord.reason)
    (hprovider : r.bind KycRecord.providerReference = r'.bind KycRecord.providerReference)
    (hcreated : r.map KycRecord.createdAt = r'.map KycRecord.createdAt)
    (hupdated : r.map KycRecord.updatedAt = r'.map KycRecord.updatedAt)
    (hexpires : r.bind KycRecord.expiresAt = r'.bind KycRecord.expiresAt) : r = r' := by
  cases r with
  | none => cases r' <;> simp_all
  | some record =>
      cases r' with
      | none => simp at hstatus
      | some record' =>
          cases record
          cases record'
          simp_all

/-- A second replay of the same entries changes no field: the address and the
time of creation are those of the first entry, every other field is that of the
last entry that has it. -/
theorem replayEntry_absorbs (existing : Option KycRecord) (entries : List KycAuditEntry) :
    ReplayLog.Absorbs (fun r e => some (replayEntry r e)) existing entries := by
  have hfirst {β : Type} (q : Option KycRecord → Option β) (f : KycAuditEntry → Option β)
      (h : ∀ r e, q (some (replayEntry r e)) = (q r).or (f e)) :=
    ReplayLog.absorbs_first h existing entries
  have hlast {β : Type} (q : Option KycRecord → Option β) (f : KycAuditEntry → Option β)
      (h : ∀ r e, q (some (replayEntry r e)) = (f e).or (q r)) :=
    ReplayLog.absorbs_last h existing entries
  apply record_ext
  · exact hfirst (Option.map KycRecord.address) (some ∘ KycAuditEntry.address)
      fun r e => by cases r <;> rfl
  · exact hlast (Option.map KycRecord.status) (some ∘ KycAuditEntry.toStatus)
      fun r e => by cases r <;> rfl
  · exact hlast (Option.map KycRecord.source) (some ∘ KycAuditEntry.source)
      fun r e => by cases r <;> rfl
  · exact hlast (Option.bind · KycRecord.actor) KycAuditEntry.actor
      fun r e => by cases r <;> simp [replayEntry]
  · exact hlast (Option.bind · KycRecord.reason) KycAuditEntry.reason
      fun r e => by cases r <;> simp [replayEntry]
  · exact hlast (Option.bind · KycRecord.providerReference) KycAuditEntry.providerReference
      fun r e => by cases r <;> simp [replayEntry]
  · exact hfirst (Option.map KycRecord.createdAt) (some ∘ KycAuditEntry.timestamp)
      fun r e => by cases r <;> rfl
  · exact hlast (Option.map KycRecord.updatedAt) (some ∘ KycAuditEntry.timestamp)
      fun r e => by cases r <;> rfl
  · exact hlast (Option.bind · KycRecord.expiresAt) KycAuditEntry.expiresAt
      fun r e => by cases r <;> simp [replayEntry]

/-- The log may be replayed over what an earlier part of it has built. -/
theorem get_rebuild_over_prefix {seen entries : List KycAuditEntry} (hpre : seen <+: entries)
    (address : String) :
    (rebuild (rebuild ∅ seen) entries).get address = (rebuild ∅ entries).get address :=
  ReplayLog.get_replay_over_prefix replayEntry_absorbs hpre ∅ address

/-! ## The running store -/

/-- What holds of the store at every moment: the memory is what the logged and
the waiting entries build, and whatever was written shows what some first part
of them builds. -/
structure StoreInvariant (s : Store) (logged : List KycAuditEntry) : Prop where
  lines : s.disk.auditLog = logged.map some
  memory : s.records = rebuild ∅ (logged ++ s.queue)
  text : ∀ records, s.disk.tmp = some records →
    ∃ seen, seen <+: logged ++ s.queue ∧ records = rebuild ∅ seen
  file : ∀ records, s.disk.snapshot = .present records →
    ∃ seen, seen <+: logged ++ s.queue ∧ records = some (rebuild ∅ seen)

/-- The invariant of an empty store. -/
theorem StoreInvariant.initial : StoreInvariant Store.initial [] where
  lines := rfl
  memory := rfl
  text records h := by cases h
  file records h := by cases h

/-- **Step lemma.** -/
theorem StoreInvariant.step {s s' : Store} {a : StoreStep} {out : Unit}
    {logged : List KycAuditEntry} (h : StoreInvariant s logged) (hexec : s.exec a = .ok (out, s')) :
    ∃ logged', StoreInvariant s' logged' := by
  obtain ⟨hlines, hmemory, htext, hfile⟩ := h
  cases a with
  | applyTransition input id now =>
      rcases applyTransition_cases s.records input id now with
        ⟨record, -, -, happly⟩ | happly
      · simp only [Store.exec, happly] at hexec
        cases hexec
        exact ⟨logged, hlines, by simpa using hmemory, by simpa using htext,
          by simpa using hfile⟩
      · simp only [Store.exec, happly] at hexec
        cases hexec
        let entry := input.entry (s.records.get input.address) id now
        have hlonger : logged ++ s.queue <+: logged ++ (s.queue ++ [entry]) :=
          ⟨[entry], by simp⟩
        refine ⟨logged, hlines, ?_, ?_, ?_⟩
        · show s.records.set input.address (input.record now (s.records.get input.address)) =
            rebuild ∅ (logged ++ (s.queue ++ [entry]))
          rw [← List.append_assoc, rebuild_snoc, ← hmemory, ← replayEntry_entry]
          rfl
        · intro records htmp
          obtain ⟨seen, hseen, heq⟩ := htext records htmp
          exact ⟨seen, hseen.trans hlonger, heq⟩
        · intro records hpresent
          obtain ⟨seen, hseen, heq⟩ := hfile records hpresent
          exact ⟨seen, hseen.trans hlonger, heq⟩
  | appendAuditLine =>
      unfold Store.exec at hexec
      cases hqueue : s.queue with
      | nil => simp [hqueue] at hexec
      | cons entry queue =>
          simp only [hqueue] at hexec
          cases hexec
          have hsame : logged ++ s.queue = logged ++ [entry] ++ queue := by simp [hqueue]
          exact ⟨logged ++ [entry], by simp [hlines], hsame ▸ hmemory, hsame ▸ htext,
            hsame ▸ hfile⟩
  | writeSnapshot =>
      cases hexec
      refine ⟨logged, hlines, hmemory, fun records htmp => ?_, hfile⟩
      cases htmp
      exact ⟨logged ++ s.queue, List.prefix_rfl, hmemory⟩
  | renameSnapshot =>
      unfold Store.exec at hexec
      cases htmp : s.disk.tmp with
      | none => simp [htmp] at hexec
      | some records =>
          simp only [htmp] at hexec
          cases hexec
          refine ⟨logged, hlines, hmemory, fun records h => (by cases h), fun records h => ?_⟩
          cases h
          obtain ⟨seen, hseen, heq⟩ := htext _ htmp
          exact ⟨seen, hseen, by rw [heq]⟩
  | loseSnapshot | damageSnapshot =>
      cases hexec
      exact ⟨logged, hlines, hmemory, htext, fun records h => by cases h⟩

/-- The invariant after any steps. -/
theorem storeInvariant_after (steps : List StoreStep) :
    ∃ logged, StoreInvariant (Store.after steps) logged :=
  storeMachine.invariant (P := fun s _ => ∃ logged, StoreInvariant s logged)
    ⟨[], StoreInvariant.initial⟩
    (fun _ _ hfires ⟨_, h⟩ => h.step hfires) steps

/-! ## Restart -/

/-- **Reload.**  When every transition has been logged, a restart rebuilds the
records, whatever snapshot it finds, exactly if it finds the file at all or there
is nothing to rebuild. -/
theorem loadSnapshot_rebuilds_iff (steps : List StoreStep)
    (hlogged : (Store.after steps).queue = []) :
    (∀ address, (loadSnapshot (Store.after steps).disk).get address =
        (Store.after steps).records.get address) ↔
      (Store.after steps).disk.snapshot ≠ .missing ∨
        (Store.after steps).disk.auditLog = [] := by
  obtain ⟨entries, hlines, hmemory, -, hfile⟩ := storeInvariant_after steps
  rw [hlogged, List.append_nil] at hmemory hfile
  unfold loadSnapshot
  rw [hmemory, hlines]
  cases hsnapshot : (Store.after steps).disk.snapshot with
  | missing =>
      refine ⟨fun h => Or.inr ?_, fun h => ?_⟩
      · rw [List.map_eq_nil_iff, List.eq_nil_iff_forall_not_mem]
        intro entry hentry
        have hget := h entry.address
        rw [Storage.get_empty] at hget
        exact (ReplayLog.get_foldl_updateKey_empty ..).mp hget.symm entry hentry rfl
      · have hnone : entries = [] := by simpa using h
        subst hnone
        exact fun _ => rfl
  | unparseable =>
      refine ⟨fun _ => Or.inl (by simp), fun _ address => ?_⟩
      simp only [replayAudit_map_some]
  | present records =>
      refine ⟨fun _ => Or.inl (by simp), fun _ address => ?_⟩
      obtain ⟨seen, hseen, rfl⟩ := hfile records hsnapshot
      simp only [Option.getD_some, replayAudit_map_some]
      exact get_rebuild_over_prefix hseen address

/-- The transition of a first lookup. -/
def firstLookup (address : String) : TransitionInput :=
  ⟨address, .pending, .system, none, some "Initial KYC record created on first lookup", none, none⟩

/-- The verification by a provider. -/
def verification (address : String) : TransitionInput :=
  ⟨address, .verified, .provider, none, some "KYC verification completed", some "case-7", none⟩

/-- Two transitions; the snapshot shows the first one only. -/
def olderSnapshot : List StoreStep := [
  .applyTransition (firstLookup "GA") "f73107db" 10, .appendAuditLine, .writeSnapshot,
  .renameSnapshot, .applyTransition (verification "GA") "0b9a4c11" 20, .appendAuditLine]

/-- A snapshot that is older than the log. -/
theorem loadSnapshot_rebuilds_older :
    (∀ address, (loadSnapshot (Store.after olderSnapshot).disk).get address =
        (Store.after olderSnapshot).records.get address) ↔
      (Store.after olderSnapshot).disk.snapshot ≠ .missing ∨
        (Store.after olderSnapshot).disk.auditLog = [] :=
  loadSnapshot_rebuilds_iff olderSnapshot (by decide +kernel)

/-- With the snapshot gone, a logged transition is gone after a restart. -/
theorem loadSnapshot_forgets_missing :
    ¬ ∀ steps : List StoreStep, (Store.after steps).queue = [] →
      ∀ address, (loadSnapshot (Store.after steps).disk).get address =
        (Store.after steps).records.get address := by
  intro h
  have hsame := h (olderSnapshot ++ [.loseSnapshot]) (by decide +kernel) "GA"
  revert hsame
  decide +kernel

end EcoMint.Kyc
