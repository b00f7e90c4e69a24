import EcoMint.KycStore
import EcoMint.Tasks

/-!
# The KYC service and its cache

A lookup of a KYC record asks the Redis cache, then the store, and writes what it
found there through to the cache; a transition changes the store first, then
deletes the cached text, then writes the new record through.  Every access to
Redis, and every line of code between two awaits, is one step of a request, and
the steps of other requests come in between.

Two steps let an old record outlive a rejection.  A write-through of a record
that was read from the store before the rejection may arrive after it; and a
rejection that finds the address rejected already changes nothing and returns at
once, while the transition that did the rejecting may still wait for the disk
with the old text in the cache.
-/

namespace EcoMint.Kyc

/-! ## Statuses -/

/-- The statuses from the least to the most. -/
def statusOrder : List KycStatus := [.none, .pending, .rejected, .expired, .verified, .accredited]

/-- `ELIGIBLE_ELIGIBILITY_SET` -/
def eligibilitySet : List KycStatus := [.verified, .accredited]

/-- The record's time is over. -/
def isExpired (record : KycRecord) (now : Nat) : Prop :=
  ∃ expiresAt ∈ record.expiresAt, expiresAt ≤ now

instance (record : KycRecord) (now : Nat) : Decidable (isExpired record now) := by
  unfold isExpired
  infer_instance

/-- The status as it counts: a status that makes eligible has expired when its time is
over. -/
def resolveEffectiveStatus (record : KycRecord) (now : Nat) : KycStatus :=
  if isExpired record now ∧ record.status ∈ eligibilitySet then .expired else record.status

/-- The actual status is at least the required one. -/
def compareStatus (actual required : KycStatus) : Bool :=
  statusOrder.idxOf required ≤ statusOrder.idxOf actual

/-- The record passes for a verified one. -/
def KycRecord.Eligible (record : KycRecord) : Prop := compareStatus record.status .verified = true

instance : DecidablePred KycRecord.Eligible := by
  intro record
  unfold KycRecord.Eligible
  infer_instance

/-- A rejected record makes nobody eligible. -/
theorem not_eligible_of_rejected {record : KycRecord} (h : record.status = .rejected) :
    ¬ record.Eligible := by
  unfold KycRecord.Eligible
  rw [h]
  decide

/-- Exactly the statuses that can expire are eligible. -/
theorem eligible_iff {record : KycRecord} : record.Eligible ↔ record.status ∈ eligibilitySet := by
  unfold KycRecord.Eligible
  cases record.status <;> decide

/-! ## Requests -/

/-- The text under `kyc:<address>`; a text that does not parse is `none`. -/
abbrev CacheText := Option KycRecord

/-- What the requests share: the store's memory and the cache. -/
structure Service where
  records : Records
  cache : Storage String CacheText

/-- What may be asked of the service. -/
inductive Request
  | getRecord (address : String)
  | getStatus (address : String)
  | getFullStatus (address : String)
  | isEligible (address : String) (required : KycStatus)
  | isEligibleRecord (address : String) (required : KycStatus)
  | transitionStatus (input : TransitionInput)
deriving DecidableEq

/-- The address that a request is about. -/
def Request.address : Request → String
  | .getRecord address => address
  | .getStatus address => address
  | .getFullStatus address => address
  | .isEligible address _ => address
  | .isEligibleRecord address _ => address
  | .transitionStatus input => input.address

/-- The administrator sets a status. -/
def updateStatus (address : String) (status : KycStatus) : Request :=
  .transitionStatus ⟨address, status, .admin, none, none, none, none⟩

/-- A rejection by the administrator. -/
def reject (address reason : String) (actor providerReference : Option String) : Request :=
  .transitionStatus ⟨address, .rejected, .admin, actor, some reason, providerReference, none⟩

/-- The provider's verification. -/
def verify (address : String) (actor reason providerReference : Option String)
    (expiresAt : Option Nat) (accredited : Bool) : Request :=
  .transitionStatus ⟨address, if accredited then .accredited else .verified, .provider, actor,
    some (reason.getD "KYC verification completed"), providerReference, expiresAt⟩

/-- What the requests return. -/
inductive Reply
  | record (record : KycRecord)
  | status (status : KycStatus)
  | eligible (eligible : Bool)
  | eligibility (eligible : Bool) (record : KycRecord)
  | transition (result : TransitionResult)
deriving DecidableEq

/-- What a transition is made for: it was asked for, a first lookup creates the
record, or a full lookup finds a verification expired. -/
inductive Purpose
  | asked
  | creation
  | expiry
deriving DecidableEq

/-- How far a request has come. -/
inductive Phase
  /-- before the `GET` -/
  | reading
  /-- the cached text does not parse; before the `DEL` -/
  | clearing
  /-- before the read of the store -/
  | fetching
  /-- before the `SET` of a record from the store -/
  | filling (record : KycRecord)
  /-- `getRecord` has come back -/
  | found (record : KycRecord)
  /-- before `applyTransition` -/
  | applying (input : TransitionInput) (purpose : Purpose)
  /-- before the `DEL` that follows a transition -/
  | invalidating (input : TransitionInput) (result : TransitionResult) (purpose : Purpose)
  /-- before the `SET` that follows a transition -/
  | writing (result : TransitionResult) (purpose : Purpose)
  | returned (reply : Reply)
deriving DecidableEq

/-- A request under way. -/
structure Task where
  request : Request
  phase : Phase
deriving DecidableEq

/-- The record that a first lookup creates. -/
def creationInput (address : String) : TransitionInput :=
  ⟨address, .pending, .system, none, some "Initial KYC record created on first lookup", none, none⟩

/-- The transition of an expired record; `isoString` is the text of a time. -/
def expiryInput (isoString : Nat → String) (address : String) (record : KycRecord) :
    TransitionInput :=
  ⟨address, .expired, .system, none,
    some ("Verification expired at " ++ (record.expiresAt.map isoString).getD ""), none,
    record.expiresAt⟩

/-- What comes of the record that `getFullStatus` returns. -/
def fullStatusReply (request : Request) (record : KycRecord) : Phase :=
  match request with
  | .isEligibleRecord _ required =>
      .returned (.eligibility (compareStatus record.status required) record)
  | _ => .returned (.record record)

/-- What comes of the record that `getRecord` returns. -/
def afterLookup (isoString : Nat → String) (request : Request) (record : KycRecord) (now : Nat) :
    Phase :=
  let effective := resolveEffectiveStatus record now
  match request with
  | .getStatus _ => .returned (.status effective)
  | .isEligible _ required => .returned (.eligible (compareStatus effective required))
  | .getFullStatus address | .isEligibleRecord address _ =>
      if effective ≠ record.status then
        .applying (expiryInput isoString address record) .expiry
      else
        fullStatusReply request record
  | .getRecord _ | .transitionStatus _ => .returned (.record record)

/-- What comes of the result of `transitionStatus`. -/
def afterTransition (request : Request) (result : TransitionResult) : Purpose → Phase
  | .asked => .returned (.transition result)
  | .creation => .found result.record
  | .expiry => fullStatusReply request result.record

/-- The time of a step, and the random id for its entry. -/
structure Choice where
  now : Nat
  id : String

/-- One step of a request. -/
def resume (isoString : Nat → String) (s : Service) : Task → Choice → Option (Service × Task)
  | ⟨request, .reading⟩, _ =>
      match s.cache.get request.address with
      | none => some (s, ⟨request, .fetching⟩)
      | some none => some (s, ⟨request, .clearing⟩)
      | some (some record) => some (s, ⟨request, .found record⟩)
  | ⟨request, .clearing⟩, _ =>
      some ({ s with cache := s.cache.erase request.address }, ⟨request, .fetching⟩)
  | ⟨request, .fetching⟩, _ =>
      match s.records.get request.address with
      | some record => some (s, ⟨request, .filling record⟩)
      | none => some (s, ⟨request, .applying (creationInput request.address) .creation⟩)
  | ⟨request, .filling record⟩, _ =>
      some ({ s with cache := s.cache.set record.address (some record) }, ⟨request, .found record⟩)
  | ⟨request, .found record⟩, choice =>
      some (s, ⟨request, afterLookup isoString request record choice.now⟩)
  | ⟨request, .applying input purpose⟩, choice =>
      let (result, records) := applyTransition s.records input choice.id choice.now
      let phase :=
        if result.isNew ∨ result.entry.isSome then .invalidating input result purpose
        else afterTransition request result purpose
      some ({ s with records := records }, ⟨request, phase⟩)
  | ⟨request, .invalidating input result purpose⟩, _ =>
      some ({ s with cache := s.cache.erase input.address }, ⟨request, .writing result purpose⟩)
  | ⟨request, .writing result purpose⟩, _ =>
      some ({ s with cache := s.cache.set result.record.address (some result.record) },
        ⟨request, afterTransition request result purpose⟩)
  | ⟨_, .returned _⟩, _ => none

/-- A cached text expires, or is damaged. -/
inductive CacheEvent
  | expire (address : String)
  | garble (address : String)

/-- What may happen to the cache from outside: an entry expires, or its text is spoilt. -/
def Service.outside (s : Service) : CacheEvent → Option Service
  | .expire address => some { s with cache := s.cache.erase address }
  | .garble address => some { s with cache := s.cache.set address none }

/-- A transition goes to the store at once, every other request to the cache first. -/
def Request.firstPhase : Request → Phase
  | .transitionStatus input => .applying input .asked
  | _ => .reading

/-- The service as a program of requests, with the cache and the store between them. -/
def program (isoString : Nat → String) : TaskProgram Service Task Request Choice CacheEvent where
  start request := ⟨request, request.firstPhase⟩
  resume := resume isoString
  outside := Service.outside

/-- The service after a start: the loaded records, and nothing cached. -/
def Service.initial (records : Records) : Service := ⟨records, ∅⟩

/-- A step of the service as it was made. -/
abbrev LogEntry := Event (Pool Service Task) (PoolAction Request Choice CacheEvent) Unit

/-! ## What the steps do to one address -/

/-- The step starts a transition: the request, and the address. -/
def LogEntry.startedTransition (e : LogEntry) : Option (Nat × String) :=
  match e.input with
  | .resume id _ => (e.before.tasks.get id).bind fun t =>
      match t.phase with
      | .applying input _ => some (id, input.address)
      | _ => none
  | _ => none

/-- The record that a step in this phase writes to the cache. -/
def Phase.written : Phase → Option KycRecord
  | .filling record => some record
  | .writing result _ => some result.record
  | _ => none

/-- The step writes a record to the cache. -/
def LogEntry.written (e : LogEntry) : Option KycRecord :=
  match e.input with
  | .resume id _ => (e.before.tasks.get id).bind fun t => t.phase.written
  | _ => none

section

variable (address : String)

/-- The store has the address as rejected. -/
def Service.Rejected (s : Service) : Prop :=
  (s.records.get address).map KycRecord.status = some .rejected

/-- The cache passes the address for a verified one. -/
def Service.Shows (s : Service) : Prop :=
  ∃ record, s.cache.get address = some (some record) ∧ record.Eligible

/-- A transition of the address has changed the store and not yet deleted the
cached text. -/
def Task.Invalidating (t : Task) : Prop :=
  match t.phase with
  | .invalidating input _ _ => input.address = address
  | _ => False

/-- If the step writes an eligible record of the address to the cache, the store
does not have the address as rejected. -/
def LogEntry.WritesFresh (e : LogEntry) : Prop :=
  ∀ record ∈ LogEntry.written e, record.address = address → record.Eligible →
    ¬ e.before.shared.Rejected address

/-- If the step is a rejection that changes nothing, no transition of the address
has yet to delete the cached text. -/
def LogEntry.RejectsAlone (e : LogEntry) : Prop :=
  match e.input with
  | .resume id _ => ∀ t ∈ e.before.tasks.get id,
      match t.phase with
      | .applying input _ =>
          input.address = address → input.toStatus = .rejected →
          ∀ record ∈ e.before.shared.records.get address, input.Idle record →
          ∀ entry ∈ e.before.tasks.entries, ¬ entry.2.Invalidating address
      | _ => True
  | _ => True

instance : DecidablePred (Service.Rejected address) := by
  intro s
  unfold Service.Rejected
  infer_instance

instance : DecidablePred (Task.Invalidating address) := by
  intro t
  unfold Task.Invalidating
  split <;> infer_instance

instance : DecidablePred (LogEntry.WritesFresh address) := by
  intro e
  unfold LogEntry.WritesFresh
  infer_instance

instance : DecidablePred (LogEntry.RejectsAlone address) := by
  intro e
  unfold LogEntry.RejectsAlone
  split
  · refine @Option.decidableForallMem _ _ (fun t => ?_) _
    split <;> infer_instance
  · infer_instance

end

/-! ## One step -/

/-- What one step of a request does to the store and the cache. -/
inductive TaskStep (s s' : Service) (t t' : Task) : Prop
  /-- reading, or looking at what was read -/
  | passed (hquiet : ∀ address, ¬ t.Invalidating address) (hshared : s' = s)
  | cleared (hphase : t.phase = .clearing)
      (hshared : s' = { s with cache := s.cache.erase t.request.address })
  | wrote (record : KycRecord) (hwritten : t.phase.written = some record)
      (hshared : s' = { s with cache := s.cache.set record.address (some record) })
  | applied (input : TransitionInput) (result : TransitionResult) (purpose : Purpose)
      (hphase : t.phase = .applying input purpose)
      (hstatus : result.record.status = input.toStatus)
      (hshared : s' = { s with records := s.records.set input.address result.record })
      (hphase' : t'.phase = .invalidating input result purpose)
  | invalidated (input : TransitionInput) (result : TransitionResult) (purpose : Purpose)
      (hphase : t.phase = .invalidating input result purpose)
      (hshared : s' = { s with cache := s.cache.erase input.address })
      (hphase' : t'.phase = .writing result purpose)

section

variable {isoString : Nat → String} {s s' : Service} {t t' : Task} {choice : Choice}

/-- A transition is idle and lets the request go on, or it changes the store and
has to invalidate the cached text. -/
theorem resume_applying {request : Request} {input : TransitionInput} {purpose : Purpose}
    (h : resume isoString s ⟨request, .applying input purpose⟩ choice = some (s', t')) :
    (∃ record, s.records.get input.address = some record ∧ input.Idle record ∧ s' = s ∧
      t' = ⟨request, afterTransition request ⟨record, none, false⟩ purpose⟩) ∨
    ∃ result, result.record = input.record choice.now (s.records.get input.address) ∧
      s' = { s with records := s.records.set input.address result.record } ∧
      t' = ⟨request, .invalidating input result purpose⟩ := by
  rcases applyTransition_cases s.records input choice.id choice.now with
    ⟨record, hget, hidle, happly⟩ | happly
  · simp only [resume, happly] at h
    cases h
    exact Or.inl ⟨record, hget, hidle, rfl, rfl⟩
  · simp only [resume, happly] at h
    cases h
    exact Or.inr ⟨⟨input.record choice.now (s.records.get input.address),
      some (input.entry (s.records.get input.address) choice.id choice.now),
      (s.records.get input.address).isNone⟩, rfl, rfl, by simp⟩

/-- What a step of a request may do, and that the request stays the same. -/
theorem taskStep_of_resume (h : resume isoString s t choice = some (s', t')) :
    TaskStep s s' t t' ∧ t'.request = t.request := by
  obtain ⟨request, phase⟩ := t
  cases phase with
  | reading =>
      simp only [resume] at h
      split at h <;> cases h <;> exact ⟨.passed (by simp [Task.Invalidating]) rfl, rfl⟩
  | clearing =>
      cases h
      exact ⟨.cleared rfl rfl, rfl⟩
  | fetching =>
      simp only [resume] at h
      split at h <;> cases h <;> exact ⟨.passed (by simp [Task.Invalidating]) rfl, rfl⟩
  | filling record =>
      cases h
      exact ⟨.wrote record rfl rfl, rfl⟩
  | found record =>
      cases h
      exact ⟨.passed (by simp [Task.Invalidating]) rfl, rfl⟩
  | applying input purpose =>
      rcases resume_applying h with ⟨record, -, -, rfl, rfl⟩ | ⟨result, hrecord, rfl, rfl⟩
      · exact ⟨.passed (by simp [Task.Invalidating]) rfl, rfl⟩
      · have hstatus : result.record.status = input.toStatus := by rw [hrecord, record_status]
        exact ⟨.applied input result purpose rfl hstatus rfl rfl, rfl⟩
  | invalidating input result purpose =>
      cases h
      exact ⟨.invalidated input result purpose rfl rfl rfl, rfl⟩
  | writing result purpose =>
      cases h
      exact ⟨.wrote result.record rfl rfl, rfl⟩
  | returned reply => cases h

end

/-! ## Rejected addresses -/

section

variable {isoString : Nat → String} {address : String} {s s' : Service}

theorem shows_congr (h : s'.cache.get address = s.cache.get address) :
    s'.Shows address ↔ s.Shows address := by
  unfold Service.Shows
  rw [h]

/-- An entry that was deleted shows nothing. -/
theorem not_shows_erase (cache : Storage String CacheText) (records : Records) :
    ¬ Service.Shows address ⟨records, cache.erase address⟩ := by
  rintro ⟨record, hget, -⟩
  rw [Storage.get_erase_self] at hget
  cases hget

/-- Erasing or damaging a cached text shows nothing new. -/
theorem shows_of_outside {event : CacheEvent} (h : s.outside event = some s') :
    s'.records = s.records ∧ (s'.Shows address → s.Shows address) := by
  cases event with
  | expire other =>
      cases h
      refine ⟨rfl, fun hshows => ?_⟩
      by_cases heq : address = other
      · subst heq
        exact absurd hshows (not_shows_erase s.cache s.records)
      · exact (shows_congr (Storage.get_erase_ne _ heq)).mp hshows
  | garble other =>
      cases h
      refine ⟨rfl, fun hshows => ?_⟩
      by_cases heq : address = other
      · subst heq
        obtain ⟨record, hget, -⟩ := hshows
        rw [Storage.get_set_self] at hget
        cases hget
      · exact (shows_congr (Storage.get_set_ne _ _ heq)).mp hshows

/-- **What a step does to a rejected address.**  A step that starts no transition
of the address leaves its record alone, and it shows nothing new of a rejected
one. -/
theorem rejected_step {e : LogEntry} (hfires : (program isoString).machine.Fires e)
    (hfresh : LogEntry.WritesFresh address e)
    (hnone : ∀ started ∈ LogEntry.startedTransition e, started.2 ≠ address) :
    e.after.shared.records.get address = e.before.shared.records.get address ∧
      (e.before.shared.Rejected address → e.after.shared.Shows address →
        e.before.shared.Shows address) := by
  cases (program isoString).step_cases hfires with
  | started id request hinput hnew hafter =>
      rw [hafter]
      exact ⟨rfl, fun _ h => h⟩
  | outside event shared hinput houtside hafter =>
      have houtside' := @shows_of_outside address _ _ _ houtside
      rw [hafter]
      exact ⟨by rw [houtside'.1], fun _ => houtside'.2⟩
  | resumed id choice t t' shared hinput hget hresume hafter =>
      rw [hafter]
      have hstarted : ∀ input purpose, t.phase = .applying input purpose →
          input.address ≠ address := by
        intro input purpose hphase
        refine hnone (id, input.address) ?_
        simp [LogEntry.startedTransition, hinput, hget, hphase]
      cases (taskStep_of_resume hresume).1 with
      | passed hquiet hshared =>
          subst hshared
          exact ⟨rfl, fun _ h => h⟩
      | cleared hphase hshared =>
          subst hshared
          refine ⟨rfl, fun _ hshows => ?_⟩
          by_cases heq : address = t.request.address
          · subst heq
            exact absurd hshows (not_shows_erase e.before.shared.cache e.before.shared.records)
          · exact (shows_congr (Storage.get_erase_ne _ heq)).mp hshows
      | wrote record hwritten hshared =>
          subst hshared
          refine ⟨rfl, fun hrejected hshows => ?_⟩
          by_cases heq : record.address = address
          · obtain ⟨shown, hcached, heligible⟩ := hshows
            subst heq
            rw [Storage.get_set_self] at hcached
            cases hcached
            have hmem : record ∈ LogEntry.written e := by
              simp [LogEntry.written, hinput, hget, hwritten]
            exact absurd hrejected (hfresh record hmem rfl heligible)
          · exact (shows_congr (Storage.get_set_ne _ _ (Ne.symm heq))).mp hshows
      | applied input result purpose hphase hstatus hshared hphase' =>
          subst hshared
          have hne := hstarted input purpose hphase
          exact ⟨Storage.get_set_ne _ _ (Ne.symm hne), fun _ hshows => hshows⟩
      | invalidated input result purpose hphase hshared hphase' =>
          subst hshared
          refine ⟨rfl, fun _ hshows => ?_⟩
          by_cases heq : address = input.address
          · subst heq
            exact absurd hshows (not_shows_erase e.before.shared.cache e.before.shared.records)
          · exact (shows_congr (Storage.get_erase_ne _ heq)).mp hshows

/-- A transition that starts is the one that its request asks for. -/
theorem startedTransition_eq {e : LogEntry} {id : Nat} {choice : Choice} {t : Task}
    (hinput : e.input = .resume id choice) (hget : e.before.tasks.get id = some t)
    {started : Nat × String} (hstarted : started ∈ LogEntry.startedTransition e) :
    ∃ input purpose, t.phase = .applying input purpose ∧ started = (id, input.address) := by
  obtain ⟨request, phase⟩ := t
  cases phase with
  | applying input purpose =>
      simp [LogEntry.startedTransition, hinput, hget] at hstarted
      exact ⟨input, purpose, rfl, hstarted.symm⟩
  | _ => simp [LogEntry.startedTransition, hinput, hget] at hstarted

/-- Who is rejected stays so while the record does. -/
theorem rejected_of_get (hsame : s'.records.get address = s.records.get address)
    (h : s.Rejected address) : s'.Rejected address := by
  unfold Service.Rejected
  rwa [hsame]

/-- Only its own deletion takes a request out of the invalidating ones. -/
theorem exists_invalidating_of_set {tasks : Storage Nat Task} {id : Nat} {t t' : Task}
    (hget : tasks.get id = some t) (hquiet : ¬ t.Invalidating address)
    (h : ∃ id₀ t₀, tasks.get id₀ = some t₀ ∧ t₀.Invalidating address) :
    ∃ id₀ t₀, (tasks.set id t').get id₀ = some t₀ ∧ t₀.Invalidating address := by
  obtain ⟨id₀, t₀, hget₀, hinvalidating⟩ := h
  have hne : id₀ ≠ id := by
    rintro rfl
    rw [hget] at hget₀
    cases hget₀
    exact hquiet hinvalidating
  exact ⟨id₀, t₀, by rw [Storage.get_set_ne _ _ hne, hget₀], hinvalidating⟩

/-- If the cache passes a rejected address for a verified one, the deletion of
the cached text is on its way. -/
def Covered (address : String) (p : Pool Service Task) : Prop :=
  p.shared.Rejected address → p.shared.Shows address →
    ∃ id t, p.tasks.get id = some t ∧ t.Invalidating address

theorem covered_initial (records : Records) :
    Covered address (Pool.initial (Service.initial records)) := by
  rintro - ⟨record, hget, -⟩
  cases hget

/-- A step that writes nothing old to the cache keeps what is covered. -/
theorem covered_step {e : LogEntry} (hfires : (program isoString).machine.Fires e)
    (hfresh : LogEntry.WritesFresh address e) (h : Covered address e.before) :
    Covered address e.after := by
  have hquiet (hnone : ∀ started ∈ LogEntry.startedTransition e, started.2 ≠ address)
      (hrejected : e.after.shared.Rejected address) (hshows : e.after.shared.Shows address) :
      ∃ id t, e.before.tasks.get id = some t ∧ t.Invalidating address := by
    obtain ⟨hsame, hshown⟩ := rejected_step hfires hfresh hnone
    have hrejected₀ : e.before.shared.Rejected address := rejected_of_get hsame.symm hrejected
    exact h hrejected₀ (hshown hrejected₀ hshows)
  intro hrejected hshows
  cases (program isoString).step_cases hfires with
  | started id request hinput hnew hafter =>
      have hnone : ∀ started ∈ LogEntry.startedTransition e, started.2 ≠ address := by
        simp [LogEntry.startedTransition, hinput]
      obtain ⟨id₀, t₀, hget₀, hinvalidating⟩ := hquiet hnone hrejected hshows
      have hne : id₀ ≠ id := by
        rintro rfl
        rw [hnew] at hget₀
        cases hget₀
      rw [hafter]
      exact ⟨id₀, t₀, by rw [Storage.get_set_ne _ _ hne, hget₀], hinvalidating⟩
  | outside event shared hinput houtside hafter =>
      have hnone : ∀ started ∈ LogEntry.startedTransition e, started.2 ≠ address := by
        simp [LogEntry.startedTransition, hinput]
      have hpending := hquiet hnone hrejected hshows
      rwa [hafter]
  | resumed id choice t t' shared hinput hget hresume hafter =>
      by_cases hstarts : ∃ input purpose, t.phase = .applying input purpose ∧
          input.address = address
      · -- an idle transition touches nothing, any other one is on its way to the deletion
        obtain ⟨input, purpose, hphase, haddress⟩ := hstarts
        obtain ⟨request, phase⟩ := t
        obtain rfl : phase = .applying input purpose := hphase
        rw [hafter] at hrejected hshows ⊢
        have happlying : resume isoString e.before.shared ⟨request, .applying input purpose⟩
            choice = some (shared, t') := hresume
        rcases resume_applying happlying with ⟨record, -, -, rfl, rfl⟩ | ⟨result, -, rfl, rfl⟩
        · exact exists_invalidating_of_set hget (by simp [Task.Invalidating]) (h hrejected hshows)
        · exact ⟨id, _, Storage.get_set_self _ _ _, haddress⟩
      · have hnone : ∀ started ∈ LogEntry.startedTransition e, started.2 ≠ address := by
          intro started hstarted heq
          obtain ⟨input, purpose, hphase, rfl⟩ := startedTransition_eq hinput hget hstarted
          exact hstarts ⟨input, purpose, hphase, heq⟩
        have hpending := hquiet hnone hrejected hshows
        by_cases hinvalidating : t.Invalidating address
        · -- the deletion itself leaves nothing to see
          rw [hafter] at hshows
          obtain ⟨request, phase⟩ := t
          cases phase with
          | invalidating input result purpose =>
              cases hresume
              obtain rfl : input.address = address := hinvalidating
              exact absurd hshows (not_shows_erase _ _)
          | _ => exact absurd hinvalidating (by simp [Task.Invalidating])
        · rw [hafter]
          exact exists_invalidating_of_set hget hinvalidating hpending

/-! ## After a rejection -/

/-- The address is rejected, and the cache does not hide it. -/
structure Service.Safe (address : String) (s : Service) : Prop where
  rejected : s.Rejected address
  hidden : ¬ s.Shows address

/-- How far a rejection has come, and what holds then. -/
inductive RejectionStage (address : String) (s : Service) : Phase → Prop
  | applying (input : TransitionInput) (haddress : input.address = address)
      (hstatus : input.toStatus = .rejected) :
      RejectionStage address s (.applying input .asked)
  | invalidating (input : TransitionInput) (result : TransitionResult)
      (haddress : input.address = address) (hrejected : s.Rejected address) :
      RejectionStage address s (.invalidating input result .asked)
  | writing (result : TransitionResult) (hsafe : s.Safe address) :
      RejectionStage address s (.writing result .asked)
  | returned (reply : Reply) (hsafe : s.Safe address) :
      RejectionStage address s (.returned reply)

theorem RejectionStage.mono {phase : Phase} (h : RejectionStage address s phase)
    (hrejected : s.Rejected address → s'.Rejected address)
    (hsafe : s.Safe address → s'.Safe address) : RejectionStage address s' phase := by
  cases h with
  | applying input haddress hstatus => exact .applying input haddress hstatus
  | invalidating input result haddress h => exact .invalidating input result haddress (hrejected h)
  | writing result h => exact .writing result (hsafe h)
  | returned reply h => exact .returned reply (hsafe h)

/-- While no transition of the address starts, a safe cache stays safe. -/
theorem safe_step {e : LogEntry} (hfires : (program isoString).machine.Fires e)
    (hfresh : LogEntry.WritesFresh address e)
    (hnone : ∀ started ∈ LogEntry.startedTransition e, started.2 ≠ address)
    (h : e.before.shared.Safe address) : e.after.shared.Safe address := by
  obtain ⟨hsame, hshown⟩ := rejected_step hfires hfresh hnone
  exact ⟨rejected_of_get hsame h.rejected, fun hshows => h.hidden (hshown h.rejected hshows)⟩

/-- The request with this id is a rejection of the address, as far as it has come. -/
def Rejection (address : String) (id : Nat) (p : Pool Service Task) : Prop :=
  ∃ t, p.tasks.get id = some t ∧ RejectionStage address p.shared t.phase

/-- One step of the rejection itself. -/
theorem rejectionStage_resume {id : Nat} {choice : Choice} {t t' : Task} {e : LogEntry}
    {shared : Service} (hfires : (program isoString).machine.Fires e)
    (hinput : e.input = .resume id choice)
    (hget : e.before.tasks.get id = some t)
    (hresume : resume isoString e.before.shared t choice = some (shared, t'))
    (hshared : e.after.shared = shared)
    (hfresh : LogEntry.WritesFresh address e) (halone : LogEntry.RejectsAlone address e)
    (hcovered : Covered address e.before)
    (h : RejectionStage address e.before.shared t.phase) :
    RejectionStage address shared t'.phase := by
  obtain ⟨request, phase⟩ := t
  cases h with
  | applying input haddress hstatus =>
      rcases resume_applying hresume with
        ⟨record, hrecord, hidle, rfl, rfl⟩ | ⟨result, hresult, rfl, rfl⟩
      · have hrejected : e.before.shared.Rejected address := by
          unfold Service.Rejected
          rw [← haddress, hrecord, Option.map_some, hidle.1, hstatus]
        refine .returned _ ⟨hrejected, fun hshows => ?_⟩
        obtain ⟨id₀, t₀, hget₀, hinvalidating⟩ := hcovered hrejected hshows
        unfold LogEntry.RejectsAlone at halone
        rw [hinput] at halone
        have hnobody := halone _ hget haddress hstatus record (haddress ▸ hrecord) hidle
        exact Storage.forall_get_of_entries (p := fun _ t => ¬ t.Invalidating address) hnobody
          id₀ t₀ hget₀ hinvalidating
      · refine .invalidating input result haddress ?_
        unfold Service.Rejected
        rw [haddress, Storage.get_set_self, Option.map_some, hresult, record_status, hstatus]
  | invalidating input result haddress hrejected =>
      cases hresume
      subst haddress
      exact .writing result ⟨hrejected, not_shows_erase _ _⟩
  | writing result hsafe =>
      have hnone : ∀ started ∈ LogEntry.startedTransition e, started.2 ≠ address := by
        intro started hstarted
        obtain ⟨_, _, hphase, -⟩ := startedTransition_eq hinput hget hstarted
        cases hphase
      have hafter : shared.Safe address := hshared ▸ safe_step hfires hfresh hnone hsafe
      cases hresume
      exact .returned _ hafter
  | returned reply hsafe => cases hresume

/-- A step of the run takes the rejection from one stage to the next. -/
theorem rejection_step {e : LogEntry} {id : Nat} (hfires : (program isoString).machine.Fires e)
    (hfresh : LogEntry.WritesFresh address e) (halone : LogEntry.RejectsAlone address e)
    (honly : ∀ started ∈ LogEntry.startedTransition e, started.2 = address → started.1 = id)
    (hcovered : Covered address e.before) (h : Rejection address id e.before) :
    Rejection address id e.after := by
  obtain ⟨t, hget, hstage⟩ := h
  have hothers (hnone : ∀ started ∈ LogEntry.startedTransition e, started.2 ≠ address) :
      RejectionStage address e.after.shared t.phase :=
    hstage.mono (rejected_of_get (rejected_step hfires hfresh hnone).1)
      (safe_step hfires hfresh hnone)
  cases (program isoString).step_cases hfires with
  | started other request hinput hnew hafter =>
      have hne : id ≠ other := by
        rintro rfl
        rw [hget] at hnew
        cases hnew
      have hstage' := hothers (by simp [LogEntry.startedTransition, hinput])
      rw [hafter] at hstage' ⊢
      exact ⟨t, by rw [Storage.get_set_ne _ _ hne, hget], hstage'⟩
  | outside event shared hinput houtside hafter =>
      have hstage' := hothers (by simp [LogEntry.startedTransition, hinput])
      rw [hafter] at hstage' ⊢
      exact ⟨t, hget, hstage'⟩
  | resumed other choice t₀ t' shared hinput hget₀ hresume hafter =>
      by_cases hid : other = id
      · subst hid
        obtain rfl : t = t₀ := by
          rw [hget] at hget₀
          exact Option.some.inj hget₀
        have hstage' := rejectionStage_resume hfires hinput hget hresume (by rw [hafter]) hfresh
          halone hcovered hstage
        rw [hafter]
        exact ⟨t', Storage.get_set_self _ _ _, hstage'⟩
      · have hnone : ∀ started ∈ LogEntry.startedTransition e, started.2 ≠ address := by
          intro started hstarted haddress
          obtain ⟨input, purpose, -, rfl⟩ := startedTransition_eq hinput hget₀ hstarted
          exact hid (honly _ hstarted haddress)
        have hstage' := hothers hnone
        rw [hafter] at hstage' ⊢
        exact ⟨t, by rw [Storage.get_set_ne _ _ (Ne.symm hid), hget], hstage'⟩

/-! ## Lookups that come later -/

/-- How far a lookup has come that will not pass the address for a verified one. -/
def Phase.Refuses : Phase → Prop
  | .reading | .clearing | .fetching => True
  | .filling record | .found record => ¬ record.Eligible
  | .returned (.eligibility eligible _) => eligible = false
  | _ => False

/-- A lookup that is on its way to a refusal stays so. -/
theorem refuses_resume {phase : Phase} {choice : Choice} {t' : Task}
    (hresume : resume isoString s ⟨.isEligibleRecord address .verified, phase⟩ choice =
      some (s', t')) (hsafe : s.Safe address) (h : phase.Refuses) : t'.phase.Refuses := by
  cases phase with
  | reading =>
      simp only [resume, Request.address] at hresume
      split at hresume
      · cases hresume
        trivial
      · cases hresume
        trivial
      · next record hcached =>
          cases hresume
          exact fun heligible => hsafe.hidden ⟨record, hcached, heligible⟩
  | clearing =>
      cases hresume
      trivial
  | fetching =>
      obtain ⟨record, hget, hstatus⟩ := Option.map_eq_some_iff.mp hsafe.rejected
      simp only [resume, Request.address, hget] at hresume
      cases hresume
      exact not_eligible_of_rejected hstatus
  | filling record =>
      cases hresume
      exact h
  | found record =>
      have heffective : resolveEffectiveStatus record choice.now = record.status := by
        unfold resolveEffectiveStatus
        rw [if_neg fun hexpired => h (eligible_iff.mpr hexpired.2)]
      have hlooked : afterLookup isoString (.isEligibleRecord address .verified) record
          choice.now = .returned (.eligibility (compareStatus record.status .verified) record) := by
        simp [afterLookup, heffective, fullStatusReply]
      simp only [resume, hlooked] at hresume
      cases hresume
      exact Bool.eq_false_iff.mpr h
  | returned reply => cases hresume
  | applying input purpose => cases h
  | invalidating input result purpose => cases h
  | writing result purpose => cases h

/-- What holds once the rejection with one id has returned, for a lookup with
another id that is called after that. -/
structure Refusal (address : String) (id lookup : Nat) (p : Pool Service Task) : Prop where
  safe : p.shared.Safe address
  returned : ∃ request reply, p.tasks.get id = some ⟨request, .returned reply⟩
  refuses : ∀ t, p.tasks.get lookup = some t →
    t.request = .isEligibleRecord address .verified → t.phase.Refuses

/-- A step of another request keeps it, if the lookup still refuses after it. -/
theorem Refusal.of_set {p : Pool Service Task} {shared : Service} {id lookup other : Nat} {t : Task}
    (h : Refusal address id lookup p) (hsafe : shared.Safe address) (hother : id ≠ other)
    (hrefuses : lookup = other → t.request = .isEligibleRecord address .verified →
      t.phase.Refuses) :
    Refusal address id lookup ⟨shared, p.tasks.set other t⟩ := by
  obtain ⟨request, reply, hreturned⟩ := h.returned
  refine ⟨hsafe, ⟨request, reply, by rw [Storage.get_set_ne _ _ hother, hreturned]⟩, ?_⟩
  intro t' hget hlookup
  by_cases hid : lookup = other
  · subst hid
    rw [Storage.get_set_self] at hget
    cases hget
    exact hrefuses rfl hlookup
  · rw [Storage.get_set_ne _ _ hid] at hget
    exact h.refuses t' hget hlookup

/-- A step of the run keeps every later lookup on its way to a refusal. -/
theorem refusal_step {e : LogEntry} {id lookup : Nat}
    (hfires : (program isoString).machine.Fires e)
    (hfresh : LogEntry.WritesFresh address e)
    (honly : ∀ started ∈ LogEntry.startedTransition e, started.2 = address → started.1 = id)
    (h : Refusal address id lookup e.before) : Refusal address id lookup e.after := by
  obtain ⟨request, reply, hreturned⟩ := h.returned
  have hnone : ∀ started ∈ LogEntry.startedTransition e, started.2 ≠ address := by
    intro started hstarted haddress
    have hid := honly started hstarted haddress
    cases hinput : e.input with
    | resume other choice =>
        cases hget : e.before.tasks.get other with
        | none => simp [LogEntry.startedTransition, hinput, hget] at hstarted
        | some t =>
            obtain ⟨input, purpose, hphase, rfl⟩ := startedTransition_eq hinput hget hstarted
            obtain rfl : other = id := hid
            rw [hreturned] at hget
            cases hget
            cases hphase
    | _ => simp [LogEntry.startedTransition, hinput] at hstarted
  have hsafe := safe_step hfires hfresh hnone h.safe
  cases (program isoString).step_cases hfires with
  | started other request' hinput hnew hafter =>
      have hne : id ≠ other := by
        rintro rfl
        rw [hreturned] at hnew
        cases hnew
      rw [hafter] at hsafe ⊢
      refine h.of_set hsafe hne fun _ hlookup => ?_
      obtain rfl : request' = .isEligibleRecord address .verified := hlookup
      trivial
  | outside event shared hinput houtside hafter =>
      rw [hafter] at hsafe ⊢
      exact ⟨hsafe, h.returned, h.refuses⟩
  | resumed other choice t t' shared hinput hget hresume hafter =>
      have hne : id ≠ other := by
        rintro rfl
        rw [hreturned] at hget
        cases hget
        cases hresume
      rw [hafter] at hsafe ⊢
      refine h.of_set hsafe hne fun hid hlookup => ?_
      subst hid
      have hrequest := (taskStep_of_resume hresume).2
      obtain ⟨request₀, phase₀⟩ := t
      obtain rfl : request₀ = .isEligibleRecord address .verified := hrequest.symm.trans hlookup
      exact refuses_resume hresume h.safe (h.refuses _ hget rfl)

end

/-! ## The run -/

/-- **A rejection takes effect.**  Let a rejection of the address be about to
start, and no other transition of the address be started from then on.  After it
has returned, a lookup that is called then does not report the address as
eligible — in every schedule in which no eligible record of the address is
written to the cache while the store has it as rejected, and no rejection changes
nothing while the deletion of the cached text is still on its way. -/
theorem rejection_takes_effect (isoString : Nat → String) (records : Records) (address : String)
    (earlier during later : List (PoolAction Request Choice CacheEvent)) (id lookup : Nat)
    (input : TransitionInput) (reply : Reply)
    (haddress : input.address = address) (hstatus : input.toStatus = .rejected)
    (hcalled : ((program isoString).run (Service.initial records) earlier).tasks.get id =
      some ⟨.transitionStatus input, .applying input .asked⟩)
    (hreturned : ((program isoString).run (Service.initial records)
      (earlier ++ during)).tasks.get id = some ⟨.transitionStatus input, .returned reply⟩)
    (hnew : ((program isoString).run (Service.initial records)
      (earlier ++ during)).tasks.get lookup = none)
    (honly : ∀ e ∈ (program isoString).machine.log
      ((program isoString).run (Service.initial records) earlier) (during ++ later),
      ∀ started ∈ LogEntry.startedTransition e, started.2 = address → started.1 = id)
    (hsteps : ∀ e ∈ (program isoString).log (Service.initial records) (earlier ++ during ++ later),
      LogEntry.WritesFresh address e ∧ LogEntry.RejectsAlone address e) (record : KycRecord) :
    ((program isoString).run (Service.initial records)
      (earlier ++ during ++ later)).tasks.get lookup ≠
        some ⟨.isEligibleRecord address .verified, .returned (.eligibility true record)⟩ := by
  intro hreply
  unfold TaskProgram.log at hsteps
  rw [Machine.log_append, Machine.log_append, List.forall_mem_append, List.forall_mem_append]
    at hsteps
  obtain ⟨⟨hearlier, hduring⟩, hlater⟩ := hsteps
  rw [Machine.log_append, List.forall_mem_append, ← Machine.run_append] at honly
  obtain ⟨honlyDuring, honlyLater⟩ := honly
  have hcovered := (program isoString).machine.invariant_while (I := fun _ _ => True)
    (P := fun p _ => Covered address p) (fun _ => trivial) (covered_initial records)
    (fun l e hfires hstep _ h => covered_step hfires hstep.1 h) earlier hearlier
  have hboth := fun e he => And.intro (hduring e he) (honlyDuring e he)
  have hrejection := (program isoString).machine.invariant_while (I := fun _ _ => True)
    (P := fun p _ => Covered address p ∧ Rejection address id p) (fun _ => trivial)
    ⟨hcovered, _, hcalled, .applying input haddress hstatus⟩
    (fun l e hfires hstep _ h => ⟨covered_step hfires hstep.1.1 h.1,
      rejection_step hfires hstep.1.1 hstep.1.2 hstep.2 h.1 h.2⟩) during hboth
  rw [← Machine.run_append] at hrejection
  have hsafe : ((program isoString).run (Service.initial records)
      (earlier ++ during)).shared.Safe address := by
    obtain ⟨-, t, hget, hstage⟩ := hrejection
    rw [hreturned] at hget
    cases hget
    cases hstage with
    | returned reply hsafe => exact hsafe
  have hboth' := fun e he => And.intro (hlater e he) (honlyLater e he)
  have hrefusal := (program isoString).machine.invariant_while (I := fun _ _ => True)
    (P := fun p _ => Refusal address id lookup p) (fun _ => trivial)
    ⟨hsafe, ⟨_, _, hreturned⟩, fun t hget => by rw [hnew] at hget; cases hget⟩
    (fun l e hfires hstep _ h => refusal_step hfires hstep.1.1 hstep.2 h) later hboth'
  rw [← Machine.run_append] at hrefusal
  cases hrefusal.refuses _ hreply rfl

/-- The record of a verified address. -/
def verifiedRecord : KycRecord :=
  ⟨"GA", .verified, .provider, none, some "KYC verification completed", some "case-7", 10, 20, none⟩

/-- The rejection of that address. -/
def rejectionInput : TransitionInput :=
  ⟨"GA", .rejected, .admin, some "ops", some "sanctions match", none, none⟩

/-- Its record after the rejection. -/
def rejectedRecord : KycRecord :=
  ⟨"GA", .rejected, .admin, some "ops", some "sanctions match", some "case-7", 10, 30, none⟩

/-- The line of the rejection in the audit log. -/
def rejectionEntry : KycAuditEntry :=
  ⟨"5c", "GA", some .verified, .rejected, .admin, some "ops", some "sanctions match", none, none,
    30⟩

def sampleRecords : Records := (∅ : Records).set "GA" verifiedRecord

/-- One step of a request at time 30. -/
def go (id : Nat) : PoolAction Request Choice CacheEvent := .resume id ⟨30, "5c"⟩

def sampleIso (time : Nat) : String := toString time

/-- Only the rejection runs. -/
def rejectAlone : List (PoolAction Request Choice CacheEvent) :=
  [.start 0 (.transitionStatus rejectionInput)]

/-- Somebody asks whether the address is eligible. -/
def lookUp : List (PoolAction Request Choice CacheEvent) :=
  [.start 1 (.isEligibleRecord "GA" .verified), go 1, go 1]

/-- A rejection with nothing else under way: the lookup after it refuses. -/
theorem rejection_takes_effect_alone :
    ((program sampleIso).run (Service.initial sampleRecords)
        (rejectAlone ++ [go 0, go 0, go 0] ++ lookUp)).tasks.get 1 =
      some ⟨.isEligibleRecord "GA" .verified, .returned (.eligibility false rejectedRecord)⟩ ∧
    ∀ record, ((program sampleIso).run (Service.initial sampleRecords)
        (rejectAlone ++ [go 0, go 0, go 0] ++ lookUp)).tasks.get 1 ≠
      some ⟨.isEligibleRecord "GA" .verified, .returned (.eligibility true record)⟩ :=
  ⟨by decide +kernel,
    rejection_takes_effect sampleIso sampleRecords "GA" rejectAlone [go 0, go 0, go 0] lookUp 0 1
      rejectionInput (.transition ⟨rejectedRecord, some rejectionEntry, false⟩) rfl rfl
      (by decide +kernel) (by decide +kernel) (by decide +kernel) (by decide +kernel)
      (by decide +kernel)⟩

/-- A lookup that read the store before the rejection writes what it read to the
cache after it. -/
theorem rejection_undone_by_lookup :
    ¬ ∀ (isoString : Nat → String) (records : Records) (address : String)
      (earlier during later : List (PoolAction Request Choice CacheEvent)) (id lookup : Nat)
      (input : TransitionInput) (reply : Reply),
      input.address = address → input.toStatus = .rejected →
      ((program isoString).run (Service.initial records) earlier).tasks.get id =
        some ⟨.transitionStatus input, .applying input .asked⟩ →
      ((program isoString).run (Service.initial records) (earlier ++ during)).tasks.get id =
        some ⟨.transitionStatus input, .returned reply⟩ →
      ((program isoString).run (Service.initial records)
        (earlier ++ during)).tasks.get lookup = none →
      (∀ e ∈ (program isoString).machine.log
        ((program isoString).run (Service.initial records) earlier) (during ++ later),
        ∀ started ∈ LogEntry.startedTransition e, started.2 = address → started.1 = id) →
      ∀ record, ((program isoString).run (Service.initial records)
        (earlier ++ during ++ later)).tasks.get lookup ≠
          some ⟨.isEligibleRecord address .verified, .returned (.eligibility true record)⟩ := by
  intro h
  have hstale := h sampleIso sampleRecords "GA"
    ([.start 2 (.getRecord "GA"), go 2, go 2] ++ rejectAlone) [go 0, go 0, go 0] (go 2 :: lookUp)
    0 1 rejectionInput (.transition ⟨rejectedRecord, some rejectionEntry, false⟩) rfl rfl
    (by decide +kernel) (by decide +kernel) (by decide +kernel) (by decide +kernel) verifiedRecord
  exact hstale (by decide +kernel)

end EcoMint.Kyc
