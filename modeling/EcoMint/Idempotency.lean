import EcoMint.Tasks

/-!
# Idempotency keys

The interceptor in front of state-changing routes keeps one record per
`Idempotency-Key` in Redis.  A request reads the record, tries to reserve the
key with `SET NX`, reads once more if it is taken, runs the handler, and stores
the outcome after the response is already on its way.  Every line between two
awaits is one step, so that requests with one key may meet at each of them.

The reservation guards the first run of a handler only: a retry finds the record
of a failed run, which stays where it is, and goes on without reserving
anything.
-/

namespace EcoMint.Idempotency

/-- What a record says about its request. -/
inductive Status
  | pending
  | success
  | error
deriving DecidableEq

/-- `IdempotencyRecord`; results are kept as the JSON text they are stored as. -/
structure Record where
  status : Status
  fingerprint : String
  result : Option String
  transactionHash : Option String
  statusCode : Option Nat
  createdAt : Nat
deriving DecidableEq

/-- What a handler comes to: a result, with the transaction hash in it, or an
error with its message. -/
inductive Outcome
  | success (result : String) (transactionHash : Option String)
  | error (message : String)
deriving DecidableEq

/-- The status that an outcome gives a record. -/
def Outcome.status : Outcome → Status
  | .success _ _ => .success
  | .error _ => .error

/-- The text that an outcome leaves in a record. -/
def Outcome.result : Outcome → String
  | .success result _ => result
  | .error message => message

/-- The hash of the transaction, if the handler succeeded. -/
def Outcome.transactionHash : Outcome → Option String
  | .success _ transactionHash => transactionHash
  | .error _ => none

/-! ## The service -/

/-- The records in Redis, by key. -/
abbrev Records := Storage String Record

/-- Reserve a pending slot, unless a record exists. -/
def markPending (records : Records) (key fingerprint : String) (now : Nat) : Bool × Records :=
  match records.get key with
  | some _ => (false, records)
  | none => (true, records.set key ⟨.pending, fingerprint, none, none, none, now⟩)

/-- The record that `complete` writes over the existing one. -/
def completed (existing : Option Record) (outcome : Outcome) (statusCode : Option Nat)
    (now : Nat) : Record where
  status := outcome.status
  fingerprint := (existing.map Record.fingerprint).getD ""
  result := some outcome.result
  transactionHash := outcome.transactionHash.or (existing.bind Record.transactionHash)
  statusCode := some ((statusCode.or (existing.bind Record.statusCode)).getD 200)
  createdAt := (existing.map Record.createdAt).getD now

/-! ## The interceptor -/

/-- An answer that does not come from the handler. -/
inductive Reply
  | conflict (message : String)
  | replayed (result : Option String) (statusCode : Option Nat)
deriving DecidableEq

/-- The text of the refusal of another payload. -/
def reusedMessage : String := "Idempotency-Key reused with a different request payload"

/-- The text of the refusal of a second request at the same time. -/
def inProgressMessage : String := "Request with this Idempotency-Key is already in progress"

/-- What a record found under the key answers; after no record, or an error, the
request goes on. -/
def answer (fingerprint : String) : Option Record → Option Reply
  | none => none
  | some existing =>
      if existing.fingerprint ≠ fingerprint then some (.conflict reusedMessage)
      else
        match existing.status with
        | .success => some (.replayed existing.result existing.statusCode)
        | .pending => some (.conflict inProgressMessage)
        | .error => none

/-- A request with a key. -/
structure Request where
  key : String
  method : String
  path : String
  body : String
deriving DecidableEq

/-- How far a request has come. -/
inductive Phase
  /-- before the first `get` -/
  | received
  /-- before `markPending` -/
  | marking
  /-- the key was taken; before the second `get` -/
  | rechecking
  /-- the handler runs -/
  | executing
  /-- before the `get` of `complete` -/
  | completing (outcome : Outcome) (statusCode : Nat)
  /-- before the `setEx` of `complete` -/
  | storing (outcome : Outcome) (statusCode : Nat) (existing : Option Record)
  | replied (reply : Reply)
  | stored
deriving DecidableEq

/-- A request under way. -/
structure Task where
  request : Request
  phase : Phase

/-- A step at a time of the clock, or the end of the handler. -/
inductive Choice
  | go (now : Nat)
  | finish (outcome : Outcome) (statusCode : Nat)

/-- One step of a request; `fingerprintOf` is the hash of method, path and body. -/
def resume (fingerprintOf : String → String → String → String) (records : Records) :
    Task → Choice → Option (Records × Task)
  | ⟨request, .received⟩, .go _ =>
      let fingerprint := fingerprintOf request.method request.path request.body
      match answer fingerprint (records.get request.key) with
      | some reply => some (records, ⟨request, .replied reply⟩)
      | none => some (records, ⟨request, .marking⟩)
  | ⟨request, .marking⟩, .go now =>
      let fingerprint := fingerprintOf request.method request.path request.body
      let (acquired, records) := markPending records request.key fingerprint now
      some (records, ⟨request, if acquired then .executing else .rechecking⟩)
  | ⟨request, .rechecking⟩, .go _ =>
      let fingerprint := fingerprintOf request.method request.path request.body
      match answer fingerprint (records.get request.key) with
      | some reply => some (records, ⟨request, .replied reply⟩)
      | none => some (records, ⟨request, .executing⟩)
  | ⟨request, .executing⟩, .finish outcome statusCode =>
      some (records, ⟨request, .completing outcome statusCode⟩)
  | ⟨request, .completing outcome statusCode⟩, .go _ =>
      some (records, ⟨request, .storing outcome statusCode (records.get request.key)⟩)
  | ⟨request, .storing outcome statusCode existing⟩, .go now =>
      some (records.set request.key (completed existing outcome (some statusCode) now),
        ⟨request, .stored⟩)
  | _, _ => none

/-- Any number of requests; nothing but them touches the records. -/
def program (fingerprintOf : String → String → String → String) :
    TaskProgram Records Task Request Choice Empty where
  start request := ⟨request, .received⟩
  resume := resume fingerprintOf
  outside _ event := nomatch event

/-- A step of the API as it was made. -/
abbrev LogEntry := Event (Pool Records Task) (PoolAction Request Choice Empty) Unit

/-! ## What the requests with one key do -/

section

variable (key : String)

/-- A handler runs for the key. -/
def Task.Executing (t : Task) : Prop := t.request.key = key ∧ t.phase = .executing

/-- A handler runs for the key, or it has run and its outcome is not stored yet. -/
def Task.Active (t : Task) : Prop :=
  t.request.key = key ∧
    match t.phase with
    | .executing | .completing _ _ | .storing _ _ _ => True
    | _ => False

/-- A handler has succeeded for the key and its outcome is not stored yet. -/
def Task.Won (t : Task) : Prop :=
  t.request.key = key ∧
    match t.phase with
    | .completing outcome _ | .storing outcome _ _ => outcome.status = .success
    | _ => False

instance : DecidablePred (Task.Executing key) := by
  intro t
  unfold Task.Executing
  infer_instance

instance : DecidablePred (Task.Active key) := by
  intro t
  unfold Task.Active
  split <;> infer_instance

instance : DecidablePred (Task.Won key) := by
  intro t
  unfold Task.Won
  split <;> infer_instance

/-- The event is the successful end of a handler that ran for the key. -/
def LogEntry.Succeeds (e : LogEntry) : Prop :=
  match e.input with
  | .resume id (.finish (.success _ _) _) => ∃ t ∈ e.before.tasks.get id, t.request.key = key
  | _ => False

instance : DecidablePred (LogEntry.Succeeds key) := by
  intro e
  unfold LogEntry.Succeeds
  split <;> infer_instance

/-- How many handlers ran for the key with success. -/
def successes (l : List LogEntry) : Nat := l.countP fun e => LogEntry.Succeeds key e

/-- If the event is a request with the key that finds an error at its second look
at the record, no other request with the key is active. -/
def LogEntry.RetriesAlone (e : LogEntry) : Prop :=
  match e.input with
  | .resume id (.go _) =>
      ∀ t ∈ e.before.tasks.get id, t.request.key = key → t.phase = .rechecking →
        (e.before.shared.get key).map Record.status = some .error →
        ∀ entry ∈ e.before.tasks.entries, ¬ entry.2.Active key
  | _ => True

instance : DecidablePred (LogEntry.RetriesAlone key) := by
  intro e
  unfold LogEntry.RetriesAlone
  split <;> infer_instance

end

/-! ## One step -/

/-- What one step of a request does. -/
inductive RequestStep (records records' : Records) (t t' : Task) (choice : Choice) : Prop
  /-- on the way in, or turned away: neither the records nor who is active change -/
  | passive (hchoice : ∃ now, choice = .go now) (hrecords : records' = records)
      (hactive : ∀ key, ¬ t.Active key) (hactive' : ∀ key, ¬ t'.Active key)
      (hrequest : t'.request = t.request)
      (htaken : t'.phase = .rechecking → (records.get t.request.key).isSome)
  | reserved (fingerprint : String) (now : Nat) (hchoice : choice = .go now)
      (hphase : t.phase = .marking)
      (hfree : records.get t.request.key = none)
      (hrecords : records' =
        records.set t.request.key ⟨.pending, fingerprint, none, none, none, now⟩)
      (htask : t' = ⟨t.request, .executing⟩)
  | retried (now : Nat) (hchoice : choice = .go now) (hphase : t.phase = .rechecking)
      (hrecord : ∀ record ∈ records.get t.request.key, record.status = .error)
      (hrecords : records' = records) (htask : t' = ⟨t.request, .executing⟩)
  | finished (outcome : Outcome) (statusCode : Nat) (hchoice : choice = .finish outcome statusCode)
      (hphase : t.phase = .executing) (hrecords : records' = records)
      (htask : t' = ⟨t.request, .completing outcome statusCode⟩)
  | read (outcome : Outcome) (statusCode now : Nat) (hchoice : choice = .go now)
      (hphase : t.phase = .completing outcome statusCode)
      (hrecords : records' = records)
      (htask : t' = ⟨t.request, .storing outcome statusCode (records.get t.request.key)⟩)
  | stored (outcome : Outcome) (statusCode now : Nat) (existing : Option Record)
      (record : Record) (hchoice : choice = .go now)
      (hphase : t.phase = .storing outcome statusCode existing)
      (hstatus : record.status = outcome.status)
      (hrecords : records' = records.set t.request.key record)
      (htask : t' = ⟨t.request, .stored⟩)

/-- Only a record of a failure lets a request go on. -/
theorem error_of_answer_eq_none {fingerprint : String} {existing : Record}
    (h : answer fingerprint (some existing) = none) : existing.status = .error := by
  by_cases hsame : existing.fingerprint = fingerprint
  · cases hstatus : existing.status with
    | error => rfl
    | pending | success => simp [answer, hsame, hstatus] at h
  · simp [answer, hsame] at h

/-- What a step of a request may do. -/
theorem requestStep_of_resume {fingerprintOf : String → String → String → String}
    {records records' : Records} {t t' : Task} {choice : Choice}
    (h : resume fingerprintOf records t choice = some (records', t')) :
    RequestStep records records' t t' choice := by
  obtain ⟨request, phase⟩ := t
  cases choice with
  | finish outcome statusCode =>
      cases phase with
      | executing =>
          cases h
          exact .finished outcome statusCode rfl rfl rfl rfl
      | received | marking | rechecking | completing | storing | replied | stored => cases h
  | go now =>
      cases phase with
      | received =>
          simp only [resume] at h
          split at h <;> cases h <;>
            exact .passive ⟨now, rfl⟩ rfl (by simp [Task.Active]) (by simp [Task.Active]) rfl
              (fun hphase => by cases hphase)
      | marking =>
          cases hget : records.get request.key with
          | some record =>
              simp only [resume, markPending, hget] at h
              cases h
              exact .passive ⟨now, rfl⟩ rfl (by simp [Task.Active]) (by simp [Task.Active]) rfl
                (fun _ => by rw [hget]; rfl)
          | none =>
              simp only [resume, markPending, hget] at h
              cases h
              exact .reserved _ now rfl rfl hget rfl rfl
      | rechecking =>
          simp only [resume] at h
          split at h
          · cases h
            exact .passive ⟨now, rfl⟩ rfl (by simp [Task.Active]) (by simp [Task.Active]) rfl
              (fun hphase => by cases hphase)
          · next hnone =>
              cases h
              refine .retried now rfl rfl (fun record hrecord => ?_) rfl rfl
              rw [Option.mem_def.mp hrecord] at hnone
              exact error_of_answer_eq_none hnone
      | completing outcome statusCode =>
          cases h
          exact .read outcome statusCode now rfl rfl rfl rfl
      | storing outcome statusCode existing =>
          cases h
          exact .stored outcome statusCode now existing _ rfl rfl rfl rfl rfl
      | executing | replied | stored => cases h

/-! ## Whole runs -/

section

variable {key : String}

/-- The status of the record under a key. -/
def statusOf (records : Records) (key : String) : Option Status :=
  (records.get key).map Record.status

/-- A request with another key is not active under this one. -/
theorem not_active_of_ne {t : Task} (h : t.request.key ≠ key) : ¬ t.Active key := fun hactive =>
  h hactive.1

/-- A request that has won is active. -/
theorem Task.Won.active {t : Task} (h : t.Won key) : t.Active key := by
  obtain ⟨request, phase⟩ := t
  cases phase <;> simp_all [Task.Won, Task.Active]

/-- A request whose handler runs is active. -/
theorem Task.Executing.active {t : Task} (h : t.Executing key) : t.Active key := by
  obtain ⟨request, phase⟩ := t
  obtain ⟨hkey, rfl⟩ : request.key = key ∧ phase = .executing := h
  exact ⟨hkey, trivial⟩

/-- What holds for a key at every moment: one request at most is active, and
none while the record says that there is nothing to do; every success is the one
of an active request, or on record. -/
structure OnceInvariant (key : String) (p : Pool Records Task) (l : List LogEntry) : Prop where
  taken : ∀ id t, p.tasks.get id = some t → t.request.key = key → t.phase = .rechecking →
    (p.shared.get key).isSome
  alone : p.count (Task.Active key) ≤ 1
  idle : statusOf p.shared key = none ∨ statusOf p.shared key = some .success →
    p.count (Task.Active key) = 0
  told : successes key l = p.count (Task.Won key) ∨
    statusOf p.shared key = some .success ∧ successes key l ≤ 1

/-- Nobody has succeeded at the beginning. -/
theorem OnceInvariant.initial (records : Records) :
    OnceInvariant key (Pool.initial records) [] where
  taken id t hget := by cases hget
  alone := by simp
  idle _ := by simp
  told := Or.inl (by simp [successes])

theorem successes_snoc (l : List LogEntry) (e : LogEntry) :
    successes key (l ++ [e]) = successes key l + if LogEntry.Succeeds key e then 1 else 0 := by
  simp [successes, List.countP_append, List.countP_singleton]

/-- A step that finishes no handler is no success. -/
theorem not_succeeds_of_go {e : LogEntry} {id now : Nat} (hinput : e.input = .resume id (.go now)) :
    ¬ LogEntry.Succeeds key e := by
  simp [LogEntry.Succeeds, hinput]

/-- A step is a success exactly if it finishes the handler of a request with this key
well. -/
theorem succeeds_iff {e : LogEntry} {id statusCode : Nat} {outcome : Outcome} {t : Task}
    (hinput : e.input = .resume id (.finish outcome statusCode))
    (hget : e.before.tasks.get id = some t) :
    LogEntry.Succeeds key e ↔ t.request.key = key ∧ outcome.status = .success := by
  cases outcome <;> simp [LogEntry.Succeeds, hinput, hget, Outcome.status]

/-- A step that the key does not notice. -/
theorem OnceInvariant.frame {p p' : Pool Records Task} {l l' : List LogEntry}
    (h : OnceInvariant key p l) (hstatus : statusOf p'.shared key = statusOf p.shared key)
    (hactive : p'.count (Task.Active key) = p.count (Task.Active key))
    (hwon : p'.count (Task.Won key) = p.count (Task.Won key))
    (hsuccesses : successes key l' = successes key l)
    (htaken : ∀ id t, p'.tasks.get id = some t → t.request.key = key → t.phase = .rechecking →
      (p'.shared.get key).isSome) :
    OnceInvariant key p' l' where
  taken := htaken
  alone := by rw [hactive]; exact h.alone
  idle := by rw [hstatus, hactive]; exact h.idle
  told := by rw [hstatus, hsuccesses, hwon]; exact h.told

/-- A step keeps the request. -/
theorem RequestStep.request_eq {records records' : Records} {t t' : Task} {choice : Choice}
    (h : RequestStep records records' t t' choice) : t'.request = t.request := by
  cases h with
  | passive _ _ _ _ hrequest _ => exact hrequest
  | reserved _ _ _ _ _ _ htask | retried _ _ _ _ _ htask | finished _ _ _ _ _ htask
  | read _ _ _ _ _ _ htask | stored _ _ _ _ _ _ _ _ _ htask => rw [htask]

/-- A step leaves the records under other keys alone. -/
theorem RequestStep.get_ne {records records' : Records} {t t' : Task} {choice : Choice}
    (h : RequestStep records records' t t' choice) (hkey : key ≠ t.request.key) :
    records'.get key = records.get key := by
  cases h with
  | passive _ hrecords _ _ _ _ => rw [hrecords]
  | retried _ _ _ _ hrecords _ | finished _ _ _ _ hrecords _ | read _ _ _ _ _ hrecords _ =>
      rw [hrecords]
  | reserved _ _ _ _ _ hrecords _ | stored _ _ _ _ _ _ _ _ hrecords _ =>
      rw [hrecords, Storage.get_set_ne _ _ hkey]

/-- A record is replaced, never removed. -/
theorem RequestStep.isSome {records records' : Records} {t t' : Task} {choice : Choice}
    (h : RequestStep records records' t t' choice) (hsome : (records.get key).isSome) :
    (records'.get key).isSome := by
  by_cases hkey : key = t.request.key
  · cases h with
    | passive _ hrecords _ _ _ _ => rwa [hrecords]
    | retried _ _ _ _ hrecords _ | finished _ _ _ _ hrecords _ | read _ _ _ _ _ hrecords _ =>
        rwa [hrecords]
    | reserved _ _ _ _ _ hrecords _ | stored _ _ _ _ _ _ _ _ hrecords _ =>
        rw [hrecords, hkey, Storage.get_set_self]
        rfl
  · rwa [h.get_ne hkey]

/-- A key that was found taken has a record. -/
theorem RequestStep.taken {records records' : Records} {t t' : Task} {choice : Choice}
    (h : RequestStep records records' t t' choice) (hkey : t.request.key = key)
    (hphase : t'.phase = .rechecking) : (records'.get key).isSome := by
  cases h with
  | passive _ hrecords _ _ _ htaken =>
      rw [hrecords, ← hkey]
      exact htaken hphase
  | reserved _ _ _ _ _ _ htask | retried _ _ _ _ _ htask | finished _ _ _ _ _ htask
  | read _ _ _ _ _ _ htask | stored _ _ _ _ _ _ _ _ _ htask =>
      rw [htask] at hphase
      cases hphase

/-- Whoever looks at the record again finds one, after any step. -/
theorem OnceInvariant.taken_resumed {p : Pool Records Task} {l : List LogEntry} {id : Nat}
    {choice : Choice} {t t' : Task} {shared : Records} (h : OnceInvariant key p l)
    (hget : p.tasks.get id = some t) (hstep : RequestStep p.shared shared t t' choice)
    {other : Nat} {task : Task} (hother : (p.tasks.set id t').get other = some task)
    (hkey : task.request.key = key) (hphase : task.phase = .rechecking) :
    (shared.get key).isSome := by
  by_cases hid : other = id
  · subst hid
    rw [Storage.get_set_self] at hother
    cases hother
    exact hstep.taken (hstep.request_eq ▸ hkey) hphase
  · rw [Storage.get_set_ne _ _ hid] at hother
    exact hstep.isSome (h.taken other task hother hkey hphase)

/-- A step of a request with another key. -/
theorem OnceInvariant.resumed_of_ne {e : LogEntry} {l : List LogEntry} {id : Nat}
    {choice : Choice} {t t' : Task} {shared : Records} (h : OnceInvariant key e.before l)
    (hinput : e.input = .resume id choice) (hget : e.before.tasks.get id = some t)
    (hstep : RequestStep e.before.shared shared t t' choice)
    (hafter : e.after = ⟨shared, e.before.tasks.set id t'⟩) (hkey : t.request.key ≠ key) :
    OnceInvariant key e.after (l ++ [e]) := by
  have hkey' : t'.request.key ≠ key := by
    rw [hstep.request_eq]
    exact hkey
  have hsucceeds : ¬ LogEntry.Succeeds key e := by
    cases choice with
    | go now => exact not_succeeds_of_go hinput
    | finish outcome statusCode => exact fun hs => hkey ((succeeds_iff hinput hget).mp hs).1
  rw [hafter]
  refine h.frame ?_ ?_ ?_ ?_ ?_
  · simp only [statusOf, hstep.get_ne (Ne.symm hkey)]
  · exact Pool.count_resume_of_iff hget _
      (iff_of_false (not_active_of_ne hkey) (not_active_of_ne hkey'))
  · exact Pool.count_resume_of_iff hget _
      (iff_of_false (fun hw => hkey hw.1) (fun hw => hkey' hw.1))
  · rw [successes_snoc, if_neg hsucceeds, Nat.add_zero]
  · intro other task hother htask hphase
    exact h.taken_resumed hget hstep hother htask hphase

/-- Who is not active has not won. -/
theorem not_won_of_not_active {t : Task} (h : ¬ t.Active key) : ¬ t.Won key :=
  fun hw => h hw.active

@[simp] theorem won_completing {request : Request} {outcome : Outcome} {statusCode : Nat} :
    Task.Won request.key ⟨request, .completing outcome statusCode⟩ ↔ outcome.status = .success := by
  simp [Task.Won]

@[simp] theorem won_storing {request : Request} {outcome : Outcome} {statusCode : Nat}
    {existing : Option Record} :
    Task.Won request.key ⟨request, .storing outcome statusCode existing⟩ ↔
      outcome.status = .success := by
  simp [Task.Won]

/-- A step that takes a request into the work, while nobody is in it: the record
of the key is now one that keeps the others out. -/
theorem OnceInvariant.resumed_enter {e : LogEntry} {l : List LogEntry} {id now : Nat}
    {request : Request} {phase : Phase} {shared : Records}
    (h : OnceInvariant request.key e.before l) (hinput : e.input = .resume id (.go now))
    (hget : e.before.tasks.get id = some ⟨request, phase⟩)
    (houtside : ¬ Task.Active request.key ⟨request, phase⟩)
    (hzero : e.before.count (Task.Active request.key) = 0)
    (hopen : statusOf e.before.shared request.key ≠ some .success)
    (hbusy : ¬ (statusOf shared request.key = none ∨
      statusOf shared request.key = some .success))
    (htaken : ∀ other task, (e.before.tasks.set id ⟨request, .executing⟩).get other = some task →
      task.request.key = request.key → task.phase = .rechecking →
        (shared.get request.key).isSome) :
    OnceInvariant request.key ⟨shared, e.before.tasks.set id ⟨request, .executing⟩⟩
      (l ++ [e]) where
  taken := htaken
  alone := by
    rw [Pool.count_resume_enter hget shared houtside ⟨rfl, trivial⟩, hzero]
    omega
  idle hdone := absurd hdone hbusy
  told := by
    have hwon : Task.Won request.key ⟨request, phase⟩ ↔
        Task.Won request.key ⟨request, .executing⟩ :=
      iff_of_false (not_won_of_not_active houtside) (fun hw => hw.2)
    rw [successes_snoc, if_neg (not_succeeds_of_go hinput), Nat.add_zero,
      Pool.count_resume_of_iff hget shared hwon]
    rcases h.told with htold | ⟨hsuccess, -⟩
    · exact Or.inl htold
    · exact absurd hsuccess hopen

/-- While a request is active, every success is one that is not stored yet. -/
theorem OnceInvariant.told_of_active {p : Pool Records Task} {l : List LogEntry}
    (h : OnceInvariant key p l) (hone : 1 ≤ p.count (Task.Active key)) :
    (successes key l : Int) = p.count (Task.Won key) := by
  rcases h.told with htold | ⟨hsuccess, -⟩
  · exact htold
  · have hzero := h.idle (Or.inr hsuccess)
    omega

/-- The end of a handler. -/
theorem OnceInvariant.resumed_finished {e : LogEntry} {l : List LogEntry} {id statusCode : Nat}
    {request : Request} {outcome : Outcome} (h : OnceInvariant request.key e.before l)
    (hinput : e.input = .resume id (.finish outcome statusCode))
    (hget : e.before.tasks.get id = some ⟨request, .executing⟩)
    (htaken : ∀ other task, (e.before.tasks.set id
      ⟨request, .completing outcome statusCode⟩).get other = some task →
        task.request.key = request.key → task.phase = .rechecking →
          (e.before.shared.get request.key).isSome) :
    OnceInvariant request.key ⟨e.before.shared,
      e.before.tasks.set id ⟨request, .completing outcome statusCode⟩⟩ (l ++ [e]) := by
  have hone := Pool.one_le_count (q := Task.Active request.key) hget ⟨rfl, trivial⟩
  have hactive := Pool.count_resume_of_iff (q := Task.Active request.key)
    (u := ⟨request, .completing outcome statusCode⟩) hget e.before.shared (by simp [Task.Active])
  have htold := h.told_of_active hone
  have houtside : ¬ Task.Won request.key ⟨request, .executing⟩ := fun hw => hw.2
  refine ⟨htaken, by rw [hactive]; exact h.alone, fun hdone => ?_, Or.inl ?_⟩
  · have hzero := h.idle hdone
    omega
  · rw [successes_snoc, if_congr (succeeds_iff hinput hget) rfl rfl]
    by_cases hwins : outcome.status = .success
    · rw [if_pos ⟨rfl, hwins⟩,
        Pool.count_resume_enter hget e.before.shared houtside (won_completing.mpr hwins)]
      omega
    · rw [if_neg (fun hboth => hwins hboth.2), Pool.count_resume_of_iff hget e.before.shared
        (iff_of_false houtside (fun hw => hwins (won_completing.mp hw)))]
      omega

/-- The outcome is stored: the request leaves, and a success is on record. -/
theorem OnceInvariant.resumed_stored {e : LogEntry} {l : List LogEntry} {id now statusCode : Nat}
    {request : Request} {outcome : Outcome} {existing : Option Record} {record : Record}
    (h : OnceInvariant request.key e.before l) (hinput : e.input = .resume id (.go now))
    (hget : e.before.tasks.get id = some ⟨request, .storing outcome statusCode existing⟩)
    (hstatus : record.status = outcome.status)
    (htaken : ∀ other task, (e.before.tasks.set id ⟨request, .stored⟩).get other = some task →
      task.request.key = request.key → task.phase = .rechecking →
        ((e.before.shared.set request.key record).get request.key).isSome) :
    OnceInvariant request.key ⟨e.before.shared.set request.key record,
      e.before.tasks.set id ⟨request, .stored⟩⟩ (l ++ [e]) := by
  have hone := Pool.one_le_count (q := Task.Active request.key) hget ⟨rfl, trivial⟩
  have hlast := h.alone
  have hactive := Pool.count_resume_leave (q := Task.Active request.key)
    (u := ⟨request, .stored⟩) hget (e.before.shared.set request.key record) ⟨rfl, trivial⟩
    (fun ha => ha.2)
  have htold := h.told_of_active hone
  have hle := Pool.count_le_count (q := Task.Won request.key) (fun _ hw => hw.active) e.before
  have houtside : ¬ Task.Won request.key ⟨request, .stored⟩ := fun hw => hw.2
  refine ⟨htaken, by omega, fun _ => by omega, ?_⟩
  rw [successes_snoc, if_neg (not_succeeds_of_go hinput), Nat.add_zero]
  by_cases hwins : outcome.status = .success
  · refine Or.inr ⟨by simp [statusOf, hstatus, hwins], ?_⟩
    omega
  · refine Or.inl ?_
    rw [htold, Pool.count_resume_of_iff hget _
      (iff_of_false (fun hw => hwins (won_storing.mp hw)) houtside)]

/-- A step of a request with the key. -/
theorem OnceInvariant.resumed_of_eq {e : LogEntry} {l : List LogEntry} {id : Nat}
    {choice : Choice} {t t' : Task} {shared : Records} (h : OnceInvariant key e.before l)
    (hinput : e.input = .resume id choice) (hget : e.before.tasks.get id = some t)
    (hstep : RequestStep e.before.shared shared t t' choice)
    (hafter : e.after = ⟨shared, e.before.tasks.set id t'⟩) (hkey : t.request.key = key)
    (halone : LogEntry.RetriesAlone key e) : OnceInvariant key e.after (l ++ [e]) := by
  have htaken : ∀ other task, (e.before.tasks.set id t').get other = some task →
      task.request.key = key → task.phase = .rechecking → (shared.get key).isSome :=
    fun other task hother htask hphase => h.taken_resumed hget hstep hother htask hphase
  rw [hafter]
  obtain ⟨request, phase⟩ := t
  obtain rfl : request.key = key := hkey
  cases hstep with
  | passive hchoice hrecords hpassive hpassive' hrequest _ =>
      obtain ⟨now, rfl⟩ := hchoice
      subst hrecords
      have hwon : Task.Won request.key ⟨request, phase⟩ ↔ Task.Won request.key t' :=
        iff_of_false (not_won_of_not_active (hpassive _)) (not_won_of_not_active (hpassive' _))
      refine h.frame rfl (Pool.count_resume_of_iff hget _
        (iff_of_false (hpassive _) (hpassive' _))) (Pool.count_resume_of_iff hget _ hwon) ?_ htaken
      rw [successes_snoc, if_neg (not_succeeds_of_go hinput), Nat.add_zero]
  | reserved fingerprint now hchoice hphase hfree hrecords htask =>
      obtain rfl : phase = .marking := hphase
      subst hchoice hrecords htask
      have hnone : statusOf e.before.shared request.key = none := by
        simp only [statusOf, hfree, Option.map_none]
      exact h.resumed_enter hinput hget (fun ha => ha.2) (h.idle (Or.inl hnone))
        (by simp [hnone]) (by simp [statusOf]) htaken
  | retried now hchoice hphase hrecord hrecords htask =>
      obtain rfl : phase = .rechecking := hphase
      subst hchoice hrecords htask
      obtain ⟨record, hget'⟩ := Option.isSome_iff_exists.mp (h.taken id _ hget rfl rfl)
      have herror : statusOf e.before.shared request.key = some .error := by
        simp only [statusOf, hget', Option.map_some, hrecord record hget']
      have hzero : e.before.count (Task.Active request.key) = 0 := by
        unfold LogEntry.RetriesAlone at halone
        rw [hinput] at halone
        exact Pool.count_eq_zero
          (Storage.forall_get_of_entries (halone _ hget rfl rfl herror))
      exact h.resumed_enter hinput hget (fun ha => ha.2) hzero (by simp [herror])
        (by simp [herror]) htaken
  | finished outcome statusCode hchoice hphase hrecords htask =>
      obtain rfl : phase = .executing := hphase
      subst hchoice hrecords htask
      exact h.resumed_finished hinput hget htaken
  | read outcome statusCode now hchoice hphase hrecords htask =>
      obtain rfl : phase = .completing outcome statusCode := hphase
      subst hchoice hrecords htask
      refine h.frame rfl (Pool.count_resume_of_iff hget _ (by simp [Task.Active]))
        (Pool.count_resume_of_iff hget _ (won_completing.trans won_storing.symm)) ?_ htaken
      rw [successes_snoc, if_neg (not_succeeds_of_go hinput), Nat.add_zero]
  | stored outcome statusCode now existing record hchoice hphase hstatus hrecords htask =>
      obtain rfl : phase = .storing outcome statusCode existing := hphase
      subst hchoice hrecords htask
      exact h.resumed_stored hinput hget hstatus htaken

/-- **Step lemma.** -/
theorem OnceInvariant.step {fingerprintOf : String → String → String → String}
    {l : List LogEntry} {e : LogEntry} (hfires : (program fingerprintOf).machine.Fires e)
    (halone : LogEntry.RetriesAlone key e) (h : OnceInvariant key e.before l) :
    OnceInvariant key e.after (l ++ [e]) := by
  cases (program fingerprintOf).step_cases hfires with
  | resumed id choice t t' shared hinput hget hresume hafter =>
      have hstep := requestStep_of_resume hresume
      by_cases hkey : t.request.key = key
      · exact h.resumed_of_eq hinput hget hstep hafter hkey halone
      · exact h.resumed_of_ne hinput hget hstep hafter hkey
  | started id request hinput hnew hafter =>
      rw [hafter]
      refine h.frame rfl ?_ ?_ ?_ ?_
      · rw [Pool.count_start hnew, if_neg (by simp [program, Task.Active]), Int.add_zero]
      · rw [Pool.count_start hnew, if_neg (by simp [program, Task.Won]), Int.add_zero]
      · rw [successes_snoc, if_neg (by simp [LogEntry.Succeeds, hinput]), Nat.add_zero]
      · intro other task hother hkey hphase
        by_cases hid : other = id
        · subst hid
          rw [Storage.get_set_self] at hother
          cases hother
          cases hphase
        · rw [Storage.get_set_ne _ _ hid] at hother
          exact h.taken other task hother hkey hphase
  | outside event => cases event

end

/-- **A key runs its handler once**: at any moment at most one run for it is in
progress, and at most one has succeeded, in every schedule in which a request
that finds the error of an earlier run goes on alone. -/
theorem executes_once (fingerprintOf : String → String → String → String) (records : Records)
    (key : String) (schedule : List (PoolAction Request Choice Empty))
    (halone : ∀ e ∈ (program fingerprintOf).log records schedule,
      LogEntry.RetriesAlone key e) :
    ((program fingerprintOf).run records schedule).count (Task.Executing key) ≤ 1 ∧
      successes key ((program fingerprintOf).log records schedule) ≤ 1 := by
  have hinvariant := (program fingerprintOf).machine.invariant_while (I := fun _ _ => True)
    (P := OnceInvariant key) (fun _ => trivial) (OnceInvariant.initial records)
    (fun l e hfires halone _ h => h.step hfires halone) schedule halone
  have hexecuting := Pool.count_le_count (q := Task.Executing key) (fun _ h => h.active)
    ((program fingerprintOf).run records schedule)
  have hwon := Pool.count_le_count (q := Task.Won key) (fun _ h => h.active)
    ((program fingerprintOf).run records schedule)
  have halone' := hinvariant.alone
  refine ⟨hexecuting.trans halone', ?_⟩
  rcases hinvariant.told with htold | ⟨-, htold⟩
  · have hle := hwon.trans halone'
    rw [← htold] at hle
    exact Int.ofNat_le.mp hle
  · exact htold

def sampleRequest : Request := ⟨"subscribe-1", "POST", "/bonds/7/subscribe", "\x7b\x7d"⟩

def sampleFingerprint (method path body : String) : String := method ++ path ++ body

/-- A first run that fails, up to the stored error. -/
def failedRun : List (PoolAction Request Choice Empty) := [
  .start 0 sampleRequest, .resume 0 (.go 1), .resume 0 (.go 1),
  .resume 0 (.finish (.error "insufficient balance") 400), .resume 0 (.go 2), .resume 0 (.go 2)]

/-- A retry up to the point where its handler runs. -/
def retry (id : Nat) : List (PoolAction Request Choice Empty) :=
  [.start id sampleRequest, .resume id (.go 3), .resume id (.go 3), .resume id (.go 3)]

/-- The handler of a request succeeds. -/
def succeed (id : Nat) : PoolAction Request Choice Empty :=
  .resume id (.finish (.success "subscribed" (some "hash")) 201)

/-- A request that failed, and a retry that succeeds: it counts once. -/
theorem executes_once_after_failure :
    ((program sampleFingerprint).run ∅ (failedRun ++ retry 1 ++ [succeed 1])).count
        (Task.Executing "subscribe-1") ≤ 1 ∧
      successes "subscribe-1"
        ((program sampleFingerprint).log ∅ (failedRun ++ retry 1 ++ [succeed 1])) ≤ 1 :=
  executes_once sampleFingerprint ∅ "subscribe-1" _ (by decide +kernel)

/-- Two retries of a failed request both find its error, and both run. -/
theorem executes_twice_after_failure :
    ¬ ∀ (fingerprintOf : String → String → String → String) (request : Request)
      (schedule : List (PoolAction Request Choice Empty)),
      (∀ id other, PoolAction.start id other ∈ schedule → other = request) →
      ((program fingerprintOf).run ∅ schedule).count (Task.Executing request.key) ≤ 1 ∧
        successes request.key ((program fingerprintOf).log ∅ schedule) ≤ 1 := by
  intro h
  have hsame : ∀ id other, PoolAction.start id other ∈
      failedRun ++ retry 1 ++ retry 2 ++ [succeed 1, succeed 2] → other = sampleRequest := by
    intro id other hmem
    simp [failedRun, retry, succeed] at hmem
    rcases hmem with ⟨-, hother⟩ | ⟨-, hother⟩ | ⟨-, hother⟩ <;> exact hother
  have hboth := (h sampleFingerprint sampleRequest _ hsame).2
  revert hboth
  decide +kernel

end EcoMint.Idempotency
