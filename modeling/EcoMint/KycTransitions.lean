import EcoMint.KycService

/-!
# The effect of a KYC transition

Calls of the service that do not overlap leave the cache in order: what is cached
of an address is its record in the store.  A call moves records by transitions
only, so a record stays as the last transition of its address has left it, and a
status lookup answers from it.

A transition sets the status that it is asked for.  The expiry that it is asked for
it sets only if there is one; `null` keeps the expiry of the record before.  So an
address whose verification has expired and that is verified again without an expiry
has expired again at once.
-/

namespace EcoMint.Kyc

/-! ## Calls that do not overlap -/

/-- The transition that the next step applies. -/
def Task.transition (t : Task) : Option TransitionInput :=
  match t.phase with
  | .applying input _ => some input
  | _ => none

/-- What a request that has ended returns. -/
def Task.reply (t : Task) : Option Reply :=
  match t.phase with
  | .returned reply => some reply
  | _ => none

/-- What a call leaves behind, and the transitions that it has made. -/
structure CallResult where
  service : Service
  reply : Reply
  transitions : List TransitionInput

/-- The steps of a request with nothing in between, until it returns; `none` where
the choices end before that. -/
def runAlone (isoString : Nat → String) : List Choice → Service → Task → Option CallResult
  | [], s, t => t.reply.map fun reply => ⟨s, reply, []⟩
  | choice :: choices, s, t =>
      match resume isoString s t choice with
      | none => t.reply.map fun reply => ⟨s, reply, []⟩
      | some (s, next) =>
          (runAlone isoString choices s next).map fun result =>
            { result with transitions := t.transition.toList ++ result.transitions }

/-- A request on its own, with the readings of its steps. -/
def call (isoString : Nat → String) (s : Service) (request : Request) (choices : List Choice) :
    Option CallResult :=
  runAlone isoString choices s ((program isoString).start request)

/-- A call of the service, or something that happens to its cache. -/
inductive ServiceEvent
  | call (request : Request) (choices : List Choice)
  | outside (event : CacheEvent)

/-- One call after another, with the transitions that they have made. -/
def history (isoString : Nat → String) :
    Service → List ServiceEvent → Option (Service × List TransitionInput)
  | s, [] => some (s, [])
  | s, .call request choices :: rest =>
      match call isoString s request choices with
      | none => none
      | some result =>
          (history isoString result.service rest).map fun (s, made) =>
            (s, result.transitions ++ made)
  | s, .outside event :: rest =>
      match s.outside event with
      | none => none
      | some s => history isoString s rest

/-- The service when the store has started from what is on its disk. -/
def Service.started (steps : List StoreStep) : Service :=
  Service.initial (loadSnapshot (Store.after steps).disk)

/-- However the service goes on, without another transition of the address: the
stored expiry is the one that was asked for, and before it a status lookup answers
the status that was asked for.  A lookup takes five steps at most. -/
def TakesEffect (isoString : Nat → String) (input : TransitionInput) (s : Service) : Prop :=
  ∀ events s' made, history isoString s events = some (s', made) →
    (∀ other ∈ made, other.address ≠ input.address) →
    (∃ record, s'.records.get input.address = some record ∧ record.expiresAt = input.expiresAt) ∧
    ∀ choices, 5 ≤ choices.length →
      (∀ choice ∈ choices, ∀ expiresAt ∈ input.expiresAt, choice.now < expiresAt) →
      ∃ result, call isoString s' (.getStatus input.address) choices = some result ∧
        result.reply = .status input.toStatus

/-! ## One step of a call -/

section

variable {isoString : Nat → String} {s s' : Service} {t t' : Task} {choice : Choice}

/-- Only a transition moves a record, and only that of its address. -/
theorem records_of_resume (h : resume isoString s t choice = some (s', t')) {address : String}
    (hother : ∀ input ∈ t.transition, input.address ≠ address) :
    s'.records.get address = s.records.get address := by
  cases (taskStep_of_resume h).1 with
  | passed hquiet hshared => rw [hshared]
  | cleared hphase hshared => rw [hshared]
  | wrote record hwritten hshared => rw [hshared]
  | invalidated input result purpose hphase hshared => rw [hshared]
  | applied input result purpose hphase hstatus hshared =>
      have htransition : t.transition = some input := by rw [Task.transition, hphase]
      rw [hshared]
      exact Storage.get_set_ne _ _ (Ne.symm (hother input htransition))

/-- After the lookup the record is returned, or its expiry applied. -/
theorem afterLookup_cases (isoString : Nat → String) (request : Request) (record : KycRecord)
    (now : Nat) :
    afterLookup isoString request record now =
      .applying (expiryInput isoString request.address record) .expiry ∨
    ∃ reply, afterLookup isoString request record now = .returned reply := by
  cases request with
  | getRecord address => exact Or.inr ⟨_, rfl⟩
  | getStatus address => exact Or.inr ⟨_, rfl⟩
  | isEligible address required => exact Or.inr ⟨_, rfl⟩
  | transitionStatus input => exact Or.inr ⟨_, rfl⟩
  | getFullStatus address | isEligibleRecord address required =>
      unfold afterLookup
      dsimp only
      split
      · exact Or.inl rfl
      · exact Or.inr ⟨_, rfl⟩

/-- After the transition its record goes on, or the reply is there. -/
theorem afterTransition_cases (request : Request) (result : TransitionResult) (purpose : Purpose) :
    afterTransition request result purpose = .found result.record ∨
      ∃ reply, afterTransition request result purpose = .returned reply := by
  cases purpose with
  | asked => exact Or.inr ⟨_, rfl⟩
  | creation => exact Or.inl rfl
  | expiry => cases request <;> exact Or.inr ⟨_, rfl⟩

/-! ## The cache in order -/

/-- What is cached of the address is its record. -/
def Service.Agrees (address : String) (s : Service) : Prop :=
  ∀ record, s.cache.get address = some (some record) → s.records.get address = some record

/-- What holds between two calls. -/
structure Service.Settled (s : Service) : Prop where
  keyed : ∀ address record, s.records.get address = some record → record.address = address
  agrees : ∀ address, s.Agrees address

/-- What holds of the address of a call that runs alone, by the phase of the call. -/
def Task.Current (s : Service) (t : Task) : Prop :=
  match t.phase with
  | .reading | .clearing | .fetching | .returned _ => s.Agrees t.request.address
  | .filling record | .found record =>
      s.Agrees t.request.address ∧ s.records.get t.request.address = some record
  | .applying input _ => s.Agrees t.request.address ∧ input.address = t.request.address
  -- the cached text is of the record before
  | .invalidating input result _ =>
      input.address = t.request.address ∧
        s.records.get t.request.address = some result.record
  | .writing result _ => s.records.get t.request.address = some result.record

/-- What holds in the middle of a call. -/
structure CallInvariant (s : Service) (t : Task) : Prop where
  keyed : ∀ address record, s.records.get address = some record → record.address = address
  others : ∀ address, address ≠ t.request.address → s.Agrees address
  current : t.Current s

/-- An entry with the stored record agrees with the store. -/
theorem agrees_set {address : String} {record : KycRecord} {cache : Storage String CacheText}
    {records : Records} (h : records.get address = some record) :
    Service.Agrees address ⟨records, cache.set address (some record)⟩ := by
  intro cached hcached
  rw [Storage.get_set_self] at hcached
  obtain rfl := Option.some.inj (Option.some.inj hcached)
  exact h

/-- An entry that is gone agrees with the store. -/
theorem agrees_erase (address : String) (cache : Storage String CacheText) (records : Records) :
    Service.Agrees address ⟨records, cache.erase address⟩ := by
  intro cached hcached
  rw [Storage.get_erase_self] at hcached
  cases hcached

/-- A service that differs in the records and the texts of one address. -/
theorem Service.Agrees.congr {address : String} (h : s.Agrees address)
    (hrecords : s'.records.get address = s.records.get address)
    (hcache : s'.cache.get address = s.cache.get address) : s'.Agrees address := by
  intro record hcached
  rw [hcache] at hcached
  rw [hrecords]
  exact h record hcached

/-- The write-through of the record of the address settles it. -/
theorem CallInvariant.write {request : Request} {phase : Phase} {record : KycRecord}
    (h : CallInvariant s ⟨request, phase⟩)
    (hget : s.records.get request.address = some record) {phase' : Phase}
    (hcurrent : Service.Agrees request.address
        { s with cache := s.cache.set record.address (some record) } →
      Task.Current { s with cache := s.cache.set record.address (some record) }
        ⟨request, phase'⟩) :
    CallInvariant { s with cache := s.cache.set record.address (some record) }
      ⟨request, phase'⟩ := by
  have haddress : record.address = request.address := h.keyed _ _ hget
  rw [haddress] at hcurrent ⊢
  refine ⟨h.keyed, ?_, hcurrent (agrees_set hget)⟩
  intro address hne
  exact (h.others address hne).congr rfl (Storage.get_set_ne _ _ hne)

/-- The deletion of the text of the address. -/
theorem CallInvariant.erase {request : Request} {phase : Phase}
    (h : CallInvariant s ⟨request, phase⟩) {phase' : Phase}
    (hcurrent : Service.Agrees request.address
        { s with cache := s.cache.erase request.address } →
      Task.Current { s with cache := s.cache.erase request.address } ⟨request, phase'⟩) :
    CallInvariant { s with cache := s.cache.erase request.address } ⟨request, phase'⟩ := by
  refine ⟨h.keyed, ?_, hcurrent (agrees_erase _ _ _)⟩
  intro address hne
  exact (h.others address hne).congr rfl (Storage.get_erase_ne _ hne)

/-- A step that changes nothing but the phase. -/
theorem CallInvariant.pass {request : Request} {phase : Phase}
    (h : CallInvariant s ⟨request, phase⟩) {phase' : Phase}
    (hcurrent : Task.Current s ⟨request, phase'⟩) : CallInvariant s ⟨request, phase'⟩ :=
  ⟨h.keyed, h.others, hcurrent⟩

/-- After the transition the request holds the stored record. -/
theorem current_afterTransition {request : Request} {result : TransitionResult} {purpose : Purpose}
    (hagrees : s.Agrees request.address)
    (hget : s.records.get request.address = some result.record) :
    Task.Current s ⟨request, afterTransition request result purpose⟩ := by
  rcases afterTransition_cases request result purpose with hphase | ⟨reply, hphase⟩
  · rw [hphase]
    exact ⟨hagrees, hget⟩
  · rw [hphase]
    exact hagrees

/-- A transition leaves a record of its address in the store. -/
theorem record_address (input : TransitionInput) (existing : Option KycRecord) (now : Nat)
    (h : ∀ record, existing = some record → record.address = input.address) :
    (input.record now existing).address = input.address := by
  cases existing with
  | none => rfl
  | some record => exact h record rfl

/-- **Step lemma.** -/
theorem CallInvariant.resume (h : CallInvariant s t)
    (hresume : resume isoString s t choice = some (s', t')) : CallInvariant s' t' := by
  obtain ⟨request, phase⟩ := t
  have hcurrent := h.current
  cases phase with
  | reading =>
      simp only [Kyc.resume] at hresume
      split at hresume
      · cases hresume
        exact h.pass hcurrent
      · cases hresume
        exact h.pass hcurrent
      · next record hcached =>
          cases hresume
          exact h.pass ⟨hcurrent, hcurrent record hcached⟩
  | clearing =>
      cases hresume
      exact h.erase id
  | fetching =>
      simp only [Kyc.resume] at hresume
      split at hresume
      · next record hget =>
          cases hresume
          exact h.pass ⟨hcurrent, hget⟩
      · cases hresume
        exact h.pass ⟨hcurrent, rfl⟩
  | filling record =>
      cases hresume
      exact h.write hcurrent.2 fun hagrees => ⟨hagrees, hcurrent.2⟩
  | found record =>
      cases hresume
      rcases afterLookup_cases isoString request record choice.now with hphase | ⟨reply, hphase⟩
      · rw [hphase]
        exact h.pass ⟨hcurrent.1, rfl⟩
      · rw [hphase]
        exact h.pass hcurrent.1
  | applying input purpose =>
      obtain ⟨hagrees, haddress⟩ := hcurrent
      rcases resume_applying hresume with ⟨record, hget, -, rfl, rfl⟩ | ⟨result, hrecord, rfl, rfl⟩
      · rw [haddress] at hget
        exact h.pass (current_afterTransition hagrees hget)
      · refine ⟨?_, ?_, haddress, by rw [← haddress, Storage.get_set_self]⟩
        · intro address record hget
          rw [Storage.get_set] at hget
          split at hget
          · next heq =>
              obtain rfl := Option.some.inj hget
              rw [hrecord, heq]
              exact record_address input _ choice.now (h.keyed input.address)
          · exact h.keyed address record hget
        · intro address hne
          apply (h.others address hne).congr
          · exact Storage.get_set_ne _ _ (haddress ▸ hne)
          · rfl
  | invalidating input result purpose =>
      obtain ⟨haddress, hget⟩ := hcurrent
      cases hresume
      rw [haddress]
      exact h.erase fun _ => hget
  | writing result purpose =>
      cases hresume
      exact h.write hcurrent fun hagrees => current_afterTransition hagrees hcurrent
  | returned reply => cases hresume

end

/-! ## A whole call -/

section

variable {isoString : Nat → String} {s s' : Service}

/-- What a call proves when it returns. -/
theorem returned_of_reply {P : Service → Task → Prop} {t : Task} {result : CallResult}
    (h : P s t) (hreply : (t.reply.map fun reply => (⟨s, reply, []⟩ : CallResult)) = some result) :
    ∃ request, P result.service ⟨request, .returned result.reply⟩ := by
  obtain ⟨request, phase⟩ := t
  cases phase with
  | returned reply =>
      obtain rfl := Option.some.inj hreply
      exact ⟨request, h⟩
  | _ => cases hreply

/-- What a step keeps, a call keeps until it returns. -/
theorem runAlone_invariant {P : Service → Task → Prop}
    (hstep : ∀ s t choice s' t', P s t → resume isoString s t choice = some (s', t') → P s' t')
    {choices : List Choice} {t : Task} {result : CallResult} (h : P s t)
    (hrun : runAlone isoString choices s t = some result) :
    ∃ request, P result.service ⟨request, .returned result.reply⟩ := by
  induction choices generalizing s t result with
  | nil => exact returned_of_reply h hrun
  | cons choice choices ih =>
      rw [runAlone] at hrun
      split at hrun
      · exact returned_of_reply h hrun
      · next hresume =>
          obtain ⟨rest, hrest, rfl⟩ := Option.map_eq_some_iff.mp hrun
          obtain ⟨request, hreturned⟩ := ih (hstep _ _ _ _ _ h hresume) hrest
          exact ⟨request, hreturned⟩

/-- A call without a transition of the address leaves its record. -/
theorem records_runAlone {choices : List Choice} {t : Task} {result : CallResult}
    (hrun : runAlone isoString choices s t = some result) {address : String}
    (hother : ∀ input ∈ result.transitions, input.address ≠ address) :
    result.service.records.get address = s.records.get address := by
  induction choices generalizing s t result with
  | nil =>
      obtain ⟨reply, -, rfl⟩ := Option.map_eq_some_iff.mp hrun
      rfl
  | cons choice choices ih =>
      rw [runAlone] at hrun
      split at hrun
      · obtain ⟨reply, -, rfl⟩ := Option.map_eq_some_iff.mp hrun
        rfl
      · next hresume =>
          obtain ⟨rest, hrest, rfl⟩ := Option.map_eq_some_iff.mp hrun
          obtain ⟨hfirst, hlater⟩ := List.forall_mem_append.mp hother
          rw [ih hrest hlater]
          exact records_of_resume hresume fun input hinput =>
            hfirst input (Option.mem_toList.mpr hinput)

/-- The invariant at the start of a call. -/
theorem callInvariant_start (h : s.Settled) (request : Request) :
    CallInvariant s ((program isoString).start request) := by
  refine ⟨h.keyed, fun address _ => h.agrees address, ?_⟩
  cases request with
  | transitionStatus input => exact ⟨h.agrees input.address, rfl⟩
  | getRecord address => exact h.agrees address
  | getStatus address => exact h.agrees address
  | getFullStatus address => exact h.agrees address
  | isEligible address required => exact h.agrees address
  | isEligibleRecord address required => exact h.agrees address

/-- A call leaves cache and store in agreement. -/
theorem Service.Settled.call (h : s.Settled) {request : Request} {choices : List Choice}
    {result : CallResult} (hcall : call isoString s request choices = some result) :
    result.service.Settled := by
  obtain ⟨request', hreturned⟩ := runAlone_invariant (P := CallInvariant)
    (fun _ _ _ _ _ h hresume => h.resume hresume) (callInvariant_start h request) hcall
  refine ⟨hreturned.keyed, ?_⟩
  intro address
  by_cases heq : address = request'.address
  · rw [heq]
    exact hreturned.current
  · exact hreturned.others address heq

/-- So does what happens to the cache. -/
theorem Service.Settled.outside (h : s.Settled) {event : CacheEvent}
    (houtside : s.outside event = some s') : s'.Settled := by
  have hcache : s'.records = s.records ∧ ∀ address record,
      s'.cache.get address = some (some record) → s.cache.get address = some (some record) := by
    cases event with
    | expire other =>
        cases houtside
        exact ⟨rfl, fun _ _ hcached => Storage.get_erase_some hcached⟩
    | garble other =>
        cases houtside
        refine ⟨rfl, ?_⟩
        intro address record hcached
        rw [Storage.get_set] at hcached
        split at hcached
        · cases hcached
        · exact hcached
  refine ⟨hcache.1 ▸ h.keyed, ?_⟩
  intro address record hcached
  rw [hcache.1]
  exact h.agrees address record (hcache.2 address record hcached)

/-- **Run lemma.**  Calls one after another keep the cache in order, and without a
transition of an address they leave its record. -/
theorem Service.Settled.history (h : s.Settled) {events : List ServiceEvent}
    {made : List TransitionInput} (hhistory : history isoString s events = some (s', made)) :
    s'.Settled ∧ ∀ address, (∀ input ∈ made, input.address ≠ address) →
      s'.records.get address = s.records.get address := by
  induction events generalizing s made with
  | nil =>
      obtain ⟨rfl, rfl⟩ := Prod.mk.inj (Option.some.inj hhistory)
      exact ⟨h, fun _ _ => rfl⟩
  | cons event rest ih =>
      cases event with
      | call request choices =>
          rw [Kyc.history] at hhistory
          split at hhistory
          · cases hhistory
          · next result hcall =>
              obtain ⟨⟨last, later⟩, hrest, heq⟩ := Option.map_eq_some_iff.mp hhistory
              obtain ⟨rfl, rfl⟩ := Prod.mk.inj heq
              obtain ⟨hsettled, hkept⟩ := ih (h.call hcall) hrest
              refine ⟨hsettled, ?_⟩
              intro address hother
              obtain ⟨hmade, hlater⟩ := List.forall_mem_append.mp hother
              rw [hkept address hlater]
              exact records_runAlone hcall hmade
      | outside event =>
          rw [Kyc.history] at hhistory
          split at hhistory
          · cases hhistory
          · next between houtside =>
              obtain ⟨hsettled, hkept⟩ := ih (h.outside houtside) hhistory
              refine ⟨hsettled, ?_⟩
              intro address hother
              rw [hkept address hother]
              cases event <;> cases houtside <;> rfl

end

/-! ## The start -/

/-- The replay of the log keeps every record under its address. -/
theorem keyed_rebuild {records : Records}
    (h : ∀ address record, records.get address = some record → record.address = address)
    (entries : List KycAuditEntry) (address : String) (record : KycRecord)
    (hget : (rebuild records entries).get address = some record) : record.address = address := by
  induction entries using List.reverseRecOn generalizing address record with
  | nil => exact h address record hget
  | append_singleton entries entry ih =>
      rw [rebuild_snoc, Storage.get_set] at hget
      split at hget
      · next heq =>
          obtain rfl := Option.some.inj hget
          rw [heq]
          cases hbefore : (rebuild records entries).get entry.address with
          | none => rfl
          | some existing => exact ih entry.address existing hbefore
      · exact ih address record hget

/-- Whatever has happened to the files, the store starts with records under their
addresses. -/
theorem settled_started (steps : List StoreStep) : (Service.started steps).Settled := by
  have hempty : ∀ (address : String) (record : KycRecord),
      (∅ : Records).get address = some record → record.address = address := by
    intro address record hget
    rw [Storage.get_empty] at hget
    cases hget
  refine ⟨?_, ?_⟩
  · obtain ⟨entries, hlines, -, -, hfile⟩ := storeInvariant_after steps
    change ∀ address record, (loadSnapshot (Store.after steps).disk).get address = some record →
      record.address = address
    unfold loadSnapshot
    rw [hlines]
    cases hsnapshot : (Store.after steps).disk.snapshot with
    | missing => exact hempty
    | unparseable =>
        dsimp only
        rw [replayAudit_map_some]
        exact keyed_rebuild hempty entries
    | present records =>
        obtain ⟨seen, -, rfl⟩ := hfile records hsnapshot
        dsimp only [Option.getD_some]
        rw [replayAudit_map_some]
        exact keyed_rebuild (keyed_rebuild hempty seen) entries
  · intro address record hcached
    have hnone : (Service.started steps).cache.get address = none := Storage.get_empty address
    rw [hnone] at hcached
    cases hcached

/-! ## The transition and the lookup -/

section

variable {isoString : Nat → String} {s : Service}

/-- The request returns within the choices, and what it leaves satisfies `Q`. -/
def Returns (isoString : Nat → String) (choices : List Choice) (s : Service) (t : Task)
    (Q : Service → Reply → Prop) : Prop :=
  ∃ result, runAlone isoString choices s t = some result ∧ Q result.service result.reply

/-- A call that has returned returns. -/
theorem Returns.done {choices : List Choice} {request : Request} {reply : Reply}
    {Q : Service → Reply → Prop} (h : Q s reply) :
    Returns isoString choices s ⟨request, .returned reply⟩ Q := by
  refine ⟨⟨s, reply, []⟩, ?_, h⟩
  cases choices with
  | nil => rfl
  | cons choice choices => rfl

/-- A step before the rest of a call. -/
theorem Returns.step {choice : Choice} {choices : List Choice} {s' : Service} {t t' : Task}
    {Q : Service → Reply → Prop} (hresume : resume isoString s t choice = some (s', t'))
    (h : Returns isoString choices s' t' Q) : Returns isoString (choice :: choices) s t Q := by
  obtain ⟨result, hrun, hQ⟩ := h
  refine ⟨{ result with transitions := t.transition.toList ++ result.transitions }, ?_, hQ⟩
  rw [runAlone, hresume]
  dsimp only
  rw [hrun, Option.map_some]

/-- A lookup in the store returns. -/
theorem returns_fetching {address : String} {record : KycRecord}
    (hget : s.records.get address = some record) (c c' c'' : Choice) (choices : List Choice) :
    Returns isoString (c :: c' :: c'' :: choices) s ⟨.getStatus address, .fetching⟩
      fun _ reply => reply = .status (resolveEffectiveStatus record c''.now) := by
  have hfetched : resume isoString s ⟨.getStatus address, .fetching⟩ c =
      some (s, ⟨.getStatus address, .filling record⟩) := by
    simp only [resume, Request.address, hget]
  apply Returns.step hfetched
  apply Returns.step (rfl : resume isoString s ⟨_, .filling record⟩ c' = some _)
  apply Returns.step (rfl : resume isoString _ ⟨.getStatus address, .found record⟩ c'' = some _)
  exact Returns.done rfl

/-- A status lookup of a stored address returns in five steps, and answers from the
record in the store. -/
theorem call_getStatus (h : s.Settled) {address : String} {record : KycRecord}
    (hget : s.records.get address = some record) {choices : List Choice}
    (hchoices : 5 ≤ choices.length) :
    ∃ result, call isoString s (.getStatus address) choices = some result ∧
      ∃ choice ∈ choices, result.reply = .status (resolveEffectiveStatus record choice.now) := by
  obtain ⟨a, b, c, d, e, rest, rfl⟩ : ∃ a b c d e rest, choices = a :: b :: c :: d :: e :: rest :=
    match choices, hchoices with
    | a :: b :: c :: d :: e :: rest, _ => ⟨a, b, c, d, e, rest, rfl⟩
  change Returns isoString _ s ⟨.getStatus address, .reading⟩ fun _ reply =>
    ∃ choice ∈ a :: b :: c :: d :: e :: rest,
      reply = .status (resolveEffectiveStatus record choice.now)
  cases hcached : s.cache.get address with
  | none =>
      have hread : resume isoString s ⟨.getStatus address, .reading⟩ a =
          some (s, ⟨.getStatus address, .fetching⟩) := by
        simp only [resume, Request.address, hcached]
      obtain ⟨result, hrun, hreply⟩ := Returns.step hread (returns_fetching hget b c d (e :: rest))
      exact ⟨result, hrun, d, by simp, hreply⟩
  | some text =>
      cases text with
      | none =>
          have hread : resume isoString s ⟨.getStatus address, .reading⟩ a =
              some (s, ⟨.getStatus address, .clearing⟩) := by
            simp only [resume, Request.address, hcached]
          have hcleared : resume isoString s ⟨.getStatus address, .clearing⟩ b =
              some ({ s with cache := s.cache.erase address },
                ⟨.getStatus address, .fetching⟩) := rfl
          obtain ⟨result, hrun, hreply⟩ := Returns.step hread (Returns.step hcleared
            (returns_fetching (s := { s with cache := s.cache.erase address }) hget c d e rest))
          exact ⟨result, hrun, e, by simp, hreply⟩
      | some cached =>
          obtain rfl := Option.some.inj (hget.symm.trans (h.agrees address cached hcached))
          have hread : resume isoString s ⟨.getStatus address, .reading⟩ a =
              some (s, ⟨.getStatus address, .found record⟩) := by
            simp only [resume, Request.address, hcached]
          apply Returns.step hread
          apply Returns.step
            (rfl : resume isoString _ ⟨.getStatus address, .found record⟩ b = some _)
          exact Returns.done ⟨b, by simp, rfl⟩

/-- A transition returns in three steps and leaves the record that it makes, or the
one that it finds as it is asked for. -/
theorem call_transitionStatus (s : Service) (input : TransitionInput) {choices : List Choice}
    (hchoices : 3 ≤ choices.length) :
    ∃ result record, call isoString s (.transitionStatus input) choices = some result ∧
      result.service.records.get input.address = some record ∧ record.status = input.toStatus ∧
      record.expiresAt =
        input.expiresAt.or ((s.records.get input.address).bind KycRecord.expiresAt) := by
  obtain ⟨a, b, c, rest, rfl⟩ : ∃ a b c rest, choices = a :: b :: c :: rest :=
    match choices, hchoices with
    | a :: b :: c :: rest, _ => ⟨a, b, c, rest, rfl⟩
  have hreturns : Returns isoString (a :: b :: c :: rest) s
      ⟨.transitionStatus input, .applying input .asked⟩ fun s' _ =>
        ∃ record, s'.records.get input.address = some record ∧ record.status = input.toStatus ∧
          record.expiresAt =
            input.expiresAt.or ((s.records.get input.address).bind KycRecord.expiresAt) := by
    have hresume : ∃ s' t', resume isoString s
        ⟨.transitionStatus input, .applying input .asked⟩ a = some (s', t') := ⟨_, _, rfl⟩
    obtain ⟨s', t', hresume⟩ := hresume
    rcases resume_applying hresume with ⟨record, hget, hidle, rfl, rfl⟩ | ⟨result, hrecord, rfl, rfl⟩
    · apply Returns.step hresume
      apply Returns.done
      refine ⟨record, hget, hidle.1, ?_⟩
      rw [hget, Option.bind_some, hidle.2, Option.or_self]
    · apply Returns.step hresume
      apply Returns.step (rfl : resume isoString _ ⟨_, .invalidating input result .asked⟩ b = some _)
      apply Returns.step (rfl : resume isoString _ ⟨_, .writing result .asked⟩ c = some _)
      apply Returns.done
      refine ⟨result.record, Storage.get_set_self .., ?_, ?_⟩
      · rw [hrecord, record_status]
      · rw [hrecord]
        cases s.records.get input.address with
        | none => rw [Option.bind_none, Option.or_none]; rfl
        | some existing => rfl
  obtain ⟨result, hrun, record, hrecord⟩ := hreturns
  exact ⟨result, record, hrun, hrecord⟩

end

/-- **When a transition takes effect.**  Whatever the store has started from and the
service has answered before, a transition returns, and it takes effect exactly if it
asks for an expiry or there is no stored one to keep. -/
theorem transition_takes_effect_iff (isoString : Nat → String) (steps : List StoreStep)
    (earlier : List ServiceEvent) (s : Service) (made : List TransitionInput)
    (input : TransitionInput) (choices : List Choice)
    (hearlier : history isoString (Service.started steps) earlier = some (s, made))
    (hchoices : 3 ≤ choices.length) :
    ∃ result, call isoString s (.transitionStatus input) choices = some result ∧
      (TakesEffect isoString input result.service ↔
        input.expiresAt ≠ none ∨
          ∀ record, s.records.get input.address = some record → record.expiresAt = none) := by
  have hsettled : s.Settled := ((settled_started steps).history hearlier).1
  obtain ⟨result, record, hcall, hget, hstatus, hexpiry⟩ :=
    call_transitionStatus s input hchoices
  -- the stored expiry is the one that was asked for
  have hstored : record.expiresAt = input.expiresAt ↔ input.expiresAt ≠ none ∨
      ∀ existing, s.records.get input.address = some existing → existing.expiresAt = none := by
    rw [hexpiry]
    cases hasked : input.expiresAt with
    | some expiresAt => simp
    | none =>
        cases s.records.get input.address with
        | none => simp
        | some existing => simp
  refine ⟨result, hcall, ?_⟩
  rw [← hstored]
  constructor
  · intro heffect
    obtain ⟨⟨current, hcurrent, hsame⟩, -⟩ := heffect [] result.service [] rfl (by simp)
    obtain rfl := Option.some.inj (hget.symm.trans hcurrent)
    exact hsame
  · intro hsame events later made' hhistory hother
    obtain ⟨hlater, hkept⟩ := (hsettled.call hcall).history hhistory
    have hget' : later.records.get input.address = some record :=
      (hkept input.address hother).trans hget
    refine ⟨⟨record, hget', hsame⟩, ?_⟩
    intro choices' hlength hbefore
    obtain ⟨result', hcall', choice, hchoice, hreply⟩ := call_getStatus hlater hget' hlength
    refine ⟨result', hcall', ?_⟩
    have hcurrent : ¬ isExpired record choice.now := by
      rintro ⟨expiresAt, hexpires, hle⟩
      rw [hsame] at hexpires
      have hlt := hbefore choice hchoice expiresAt hexpires
      omega
    rw [hreply, resolveEffectiveStatus, if_neg fun hexpired => hcurrent hexpired.1, hstatus]

/-- A call in which every step happens at one time. -/
def callAt (request : Request) (now : Nat) : ServiceEvent :=
  .call request (List.replicate 10 ⟨now, "5c"⟩)

/-- The verification of the sample. -/
def verifyUntil (expiresAt : Option Nat) : TransitionInput :=
  ⟨"GA", .verified, .provider, none, some "KYC verification completed", none, expiresAt⟩

/-- GA is verified until 100, and found expired at 150. -/
def expiredVerification : List ServiceEvent :=
  [callAt (.transitionStatus (verifyUntil (some 100))) 10, callAt (.getFullStatus "GA") 150]

/-- Verified again until 500, GA is verified. -/
theorem transition_takes_effect_until :
    ∃ s made, history sampleIso (Service.started []) expiredVerification = some (s, made) ∧
      ∃ result, call sampleIso s (.transitionStatus (verifyUntil (some 500)))
        (List.replicate 3 ⟨200, "5c"⟩) = some result ∧
          TakesEffect sampleIso (verifyUntil (some 500)) result.service := by
  have hreached : (history sampleIso (Service.started []) expiredVerification).isSome := by
    decide +kernel
  obtain ⟨⟨s, made⟩, hhistory⟩ := Option.isSome_iff_exists.mp hreached
  obtain ⟨result, hcall, heffect⟩ := transition_takes_effect_iff sampleIso [] expiredVerification s
    made (verifyUntil (some 500)) (List.replicate 3 ⟨200, "5c"⟩) hhistory (by decide)
  exact ⟨s, made, hhistory, result, hcall, heffect.mpr (Or.inl (by decide))⟩

/-- The status of GA at 300, after it was verified again without an expiry. -/
def reverifiedStatus : Option Reply :=
  match history sampleIso (Service.started []) expiredVerification with
  | none => none
  | some (s, _) =>
      match call sampleIso s (.transitionStatus (verifyUntil none))
        (List.replicate 3 ⟨200, "5c"⟩) with
      | none => none
      | some result =>
          (call sampleIso result.service (.getStatus "GA") (List.replicate 5 ⟨300, "5c"⟩)).map
            CallResult.reply

/-- Verified again without an expiry, GA has expired again at once. -/
theorem reverification_expired :
    ¬ ∀ (isoString : Nat → String) (steps : List StoreStep) (earlier : List ServiceEvent)
      (s : Service) (made : List TransitionInput) (input : TransitionInput)
      (choices : List Choice),
      history isoString (Service.started steps) earlier = some (s, made) →
      3 ≤ choices.length →
      (∀ choice ∈ choices, ∀ expiresAt ∈ input.expiresAt, choice.now < expiresAt) →
      ∃ result, call isoString s (.transitionStatus input) choices = some result ∧
        TakesEffect isoString input result.service := by
  intro h
  have hexpired : reverifiedStatus = some (.status .expired) := by decide +kernel
  unfold reverifiedStatus at hexpired
  split at hexpired
  · cases hexpired
  next s made hhistory =>
  obtain ⟨result, hcall, heffect⟩ := h sampleIso [] expiredVerification s made (verifyUntil none)
    (List.replicate 3 ⟨200, "5c"⟩) hhistory (by decide) (by decide)
  rw [hcall] at hexpired
  dsimp only at hexpired
  obtain ⟨-, hlookup⟩ := heffect [] result.service [] rfl (by simp)
  obtain ⟨lookup, hlookedUp, hreply⟩ := hlookup (List.replicate 5 ⟨300, "5c"⟩) (by decide)
    (by decide)
  have hlooked : call sampleIso result.service (.getStatus "GA")
      (List.replicate 5 ⟨300, "5c"⟩) = some lookup := hlookedUp
  rw [hlooked, Option.map_some, hreply] at hexpired
  cases hexpired

end EcoMint.Kyc
