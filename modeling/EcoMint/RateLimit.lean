import EcoMint.Tasks

/-!
# The rate limit guard

A request is counted under one or two keys in Redis.  The guard first reads the
counters of all its keys, and lets the request pass only if each is below the
limit; then it increments them one by one, and the increment that creates a
counter starts its window.  Each read and each increment is one step, and the
increment does not look at what it returns: requests that have read a counter
below the limit all increment it.
-/

namespace EcoMint.RateLimit

/-! ## Keys and limits -/

/-- The kinds of routes that have limits of their own. -/
inductive RateLimitType
  | auth
  | mutation
  | oracle
  | default
deriving DecidableEq

/-- What a handler says about its limit. -/
structure RateLimitOptions where
  type : RateLimitType
  ttl : Option Nat
  limit : Option Nat
deriving DecidableEq

/-- A limit, and the seconds for which it counts. -/
structure Settings where
  ttl : Nat
  limit : Nat
deriving DecidableEq

/-- The `RATE_LIMIT_*` variables that are set. -/
structure Env where
  authTtl : Option Nat
  authLimit : Option Nat
  mutationTtl : Option Nat
  mutationLimit : Option Nat
  oracleTtl : Option Nat
  oracleLimit : Option Nat
  defaultTtl : Option Nat
  defaultLimit : Option Nat

/-- The settings for a kind of route, from the environment or else the defaults. -/
def Env.defaults (env : Env) : RateLimitType → Settings
  | .auth => ⟨env.authTtl.getD 60, env.authLimit.getD 5⟩
  | .mutation => ⟨env.mutationTtl.getD 60, env.mutationLimit.getD 10⟩
  | .oracle => ⟨env.oracleTtl.getD 60, env.oracleLimit.getD 10⟩
  | .default => ⟨env.defaultTtl.getD 60, env.defaultLimit.getD 60⟩

/-- The options, unless one of them is missing or zero. -/
def settings (env : Env) (options : RateLimitOptions) : Settings :=
  match options.ttl.filter (· ≠ 0), options.limit.filter (· ≠ 0) with
  | some ttl, some limit => ⟨ttl, limit⟩
  | _, _ => env.defaults options.type

/-- The fields of a body that name an account. -/
structure Body where
  address : Option String
  sellerAddress : Option String
  buyerAddress : Option String
  investorAddress : Option String
  fromAddress : Option String
  toAddress : Option String
  providerAddress : Option String
deriving DecidableEq

/-- What the guard reads of a request; without options there is no limit. -/
structure Request where
  options : Option RateLimitOptions
  ip : Option String
  forwardedFor : Option String
  remoteAddress : Option String
  walletHeader : Option String
  userWallet : Option String
  providerHeader : Option String
  body : Option Body
deriving DecidableEq

/-- The first text of a chain of `||` that is not empty. -/
def firstOf (texts : List (Option String)) : Option String :=
  texts.findSome? fun text => text.filter (· ≠ "")

/-- The address that the request comes from. -/
def Request.clientIp (request : Request) : String :=
  (firstOf [request.ip, request.forwardedFor, request.remoteAddress]).getD "127.0.0.1"

/-- The wallet that the request is about: the header's, the session's or the body's. -/
def Request.walletAddress (request : Request) : Option String :=
  (firstOf [request.walletHeader, request.userWallet]).or <| request.body.bind fun body =>
    firstOf [body.address, body.sellerAddress, body.buyerAddress, body.investorAddress,
      body.fromAddress, body.toAddress]

/-- The provider that the request is about. -/
def Request.providerAddress (request : Request) : Option String :=
  (firstOf [request.providerHeader]).or <| request.body.bind fun body =>
    firstOf [body.providerAddress]

/-- The counters that a request has to pass, by the kind of its route. -/
def keysToCheck (type : RateLimitType) (request : Request) : List String :=
  match type with
  | .auth =>
      ("ratelimit:auth:ip:" ++ request.clientIp) ::
        (request.walletAddress.map ("ratelimit:auth:wallet:" ++ ·)).toList
  | .oracle =>
      ((request.providerAddress.or request.walletAddress).map
        ("ratelimit:oracle:provider:" ++ ·)).toList ++ ["ratelimit:oracle:ip:" ++ request.clientIp]
  | .mutation =>
      (request.walletAddress.map ("ratelimit:mutation:wallet:" ++ ·)).toList ++
        ["ratelimit:mutation:ip:" ++ request.clientIp]
  | .default => ["ratelimit:default:ip:" ++ request.clientIp]

/-- The keys that a request is counted under. -/
def Request.keys (request : Request) : List String :=
  match request.options with
  | some options => keysToCheck options.type request
  | none => []

/-- The limit of a request, if it has one. -/
def Request.limit (env : Env) (request : Request) : Option Nat :=
  request.options.map fun options => (settings env options).limit

/-! ## The guard -/

/-- A counter, and whether its time to live is set. -/
structure Counter where
  value : Nat
  expires : Bool
deriving DecidableEq

/-- The counters in Redis. -/
abbrev Counters := Storage String Counter

/-- What a counter has come to; a missing one is at 0. -/
def Counters.count (counters : Counters) (key : String) : Nat :=
  ((counters.get key).map Counter.value).getD 0

/-- `INCR`: one more, with the expiry that the counter had. -/
def incrOrThrow (counters : Counters) (key : String) : Counters :=
  counters.set key
    ⟨counters.count key + 1, ((counters.get key).map Counter.expires).getD false⟩

/-- `EXPIRE`; no time at all removes the key. -/
def expire (counters : Counters) (key : String) (seconds : Nat) : Counters :=
  if seconds = 0 then counters.erase key
  else
    match counters.get key with
    | some counter => counters.set key { counter with expires := true }
    | none => counters

/-- The answer 429, with its `Retry-After`. -/
structure TooManyRequests where
  retryAfter : Nat
  message : String
  code : String
  detail : String
deriving DecidableEq

/-- The refusal, with the seconds to wait. -/
def tooManyRequests (retryAfter : Nat) : TooManyRequests :=
  ⟨retryAfter, "Too Many Requests", "RATE_LIMIT_EXCEEDED",
    "Rate limit exceeded. Please try again in " ++ toString retryAfter ++ " seconds."⟩

/-- How far a request has come in the guard. -/
inductive Phase
  /-- before the `GET` of the first of these keys -/
  | checking (rest : List String)
  /-- the key is at its limit; before its `TTL` -/
  | refusing (key : String)
  /-- before the `INCR` of the first of the other keys -/
  | incrementing (done rest : List String)
  /-- before the `EXPIRE` of a counter that the request has created -/
  | expiring (key : String) (done rest : List String)
  | admitted
  | refused (answer : TooManyRequests)
deriving DecidableEq

/-- A request in the guard. -/
structure Task where
  request : Request
  phase : Phase
deriving DecidableEq

/-- The seconds that a key has left, for the one step that asks. -/
abbrev Choice := Nat

/-- `canActivate` up to its first await. -/
def start (request : Request) : Task :=
  match request.options with
  | none => ⟨request, .admitted⟩
  | some options => ⟨request, .checking (keysToCheck options.type request)⟩

/-- One step of `canActivate`, under the settings of the request. -/
def resumeWith (settings : Settings) (counters : Counters) :
    Task → Choice → Option (Counters × Task)
  | ⟨request, .checking []⟩, _ => some (counters, ⟨request, .incrementing [] request.keys⟩)
  | ⟨request, .checking (key :: rest)⟩, _ =>
      if settings.limit ≤ counters.count key then some (counters, ⟨request, .refusing key⟩)
      else some (counters, ⟨request, .checking rest⟩)
  | ⟨request, .refusing key⟩, left =>
      let timeRemaining :=
        match counters.get key with
        | some counter => if counter.expires then left else 0
        | none => 0
      let retryAfter := if timeRemaining > 0 then timeRemaining else settings.ttl
      some (counters, ⟨request, .refused (tooManyRequests retryAfter)⟩)
  | ⟨request, .incrementing done (key :: rest)⟩, _ =>
      if counters.count key + 1 = 1 then
        some (incrOrThrow counters key, ⟨request, .expiring key (done ++ [key]) rest⟩)
      else
        some (incrOrThrow counters key, ⟨request, .incrementing (done ++ [key]) rest⟩)
  | ⟨request, .expiring key done rest⟩, _ =>
      some (expire counters key settings.ttl, ⟨request, .incrementing done rest⟩)
  | ⟨request, .incrementing _ []⟩, _ => some (counters, ⟨request, .admitted⟩)
  | ⟨_, .admitted⟩, _ => none
  | ⟨_, .refused _⟩, _ => none

/-- A step of the guard for a request to a handler with a limit. -/
def resume (env : Env) (counters : Counters) (t : Task) (left : Choice) :
    Option (Counters × Task) :=
  t.request.options.bind fun options => resumeWith (settings env options) counters t left

/-- A counter with a time to live comes to its end. -/
def expires (counters : Counters) (key : String) : Option Counters :=
  match counters.get key with
  | some counter => if counter.expires then some (counters.erase key) else none
  | none => none

/-- The guard as a program of requests, with the counters between them. -/
def program (env : Env) : TaskProgram Counters Task Request Choice String where
  start := start
  resume := resume env
  outside := expires

/-- A step of the guard as it was made. -/
abbrev LogEntry := Event (Pool Counters Task) (PoolAction Request Choice String) Unit

/-! ## What happens to one key -/

section

variable (env : Env) (key : String)

/-- The request has incremented the key and is not admitted yet. -/
def Task.Pending (t : Task) : Prop :=
  match t.phase with
  | .incrementing done _ | .expiring _ done _ => key ∈ done
  | _ => False

/-- The step increments the key: the request it belongs to. -/
def LogEntry.increment (e : LogEntry) : Option Request :=
  match e.input with
  | .resume id _ => (e.before.tasks.get id).bind fun t =>
      match t.phase with
      | .incrementing _ (first :: _) => if first = key then some t.request else none
      | _ => none
  | _ => none

/-- The step creates the counter of the key, and so begins a window. -/
def LogEntry.Opens (e : LogEntry) : Prop :=
  (LogEntry.increment key e).isSome ∧ e.before.shared.get key = none

/-- The step admits a request that maps to the key. -/
def LogEntry.Admits (e : LogEntry) : Prop :=
  match e.input with
  | .resume id _ => ∃ t ∈ e.before.tasks.get id,
      match t.phase with
      | .incrementing _ [] => key ∈ t.request.keys
      | _ => False
  | _ => False

/-- The step ends the window of the key: its time is up, or it is given none. -/
def LogEntry.Closes (e : LogEntry) : Prop :=
  match e.input with
  | .outside other => other = key
  | .resume id _ => ∃ t ∈ e.before.tasks.get id,
      match t.phase with
      | .expiring other _ _ =>
          other = key ∧ t.request.options.map (fun options => (settings env options).ttl) = some 0
      | _ => False
  | .start _ _ => False

/-- If the step increments the key, it finds its counter below the limit. -/
def LogEntry.IncrementsBelow (e : LogEntry) : Prop :=
  ∀ request ∈ LogEntry.increment key e, ∀ limit ∈ request.limit env,
    e.before.shared.count key < limit

/-- If the step ends the window of the key, no request that has incremented the
key is yet to be admitted. -/
def LogEntry.ClosesIdle (e : LogEntry) : Prop :=
  LogEntry.Closes env key e → ∀ entry ∈ e.before.tasks.entries, ¬ entry.2.Pending key

instance : DecidablePred (Task.Pending key) := by
  intro t
  unfold Task.Pending
  split <;> infer_instance

instance : DecidablePred (LogEntry.Opens key) := by
  intro e
  unfold LogEntry.Opens
  infer_instance

instance : DecidablePred (LogEntry.Admits key) := by
  intro e
  unfold LogEntry.Admits
  split
  · refine @Option.decidableExistsMem _ _ (fun t => ?_) _
    split <;> infer_instance
  · infer_instance

instance : DecidablePred (LogEntry.Closes env key) := by
  intro e
  unfold LogEntry.Closes
  split
  · infer_instance
  · refine @Option.decidableExistsMem _ _ (fun t => ?_) _
    split <;> infer_instance
  · infer_instance

instance : DecidablePred (LogEntry.IncrementsBelow env key) := by
  intro e
  unfold LogEntry.IncrementsBelow
  infer_instance

instance : DecidablePred (LogEntry.ClosesIdle env key) := by
  intro e
  unfold LogEntry.ClosesIdle
  infer_instance

/-- How many requests with the key were admitted since its window began. -/
def admissions (l : List LogEntry) : Nat :=
  l.foldl (fun n e =>
    if LogEntry.Opens key e then 0
    else n + if LogEntry.Admits key e then 1 else 0) 0

end

/-! ## One step -/

/-- What one step of a request does to the counters. -/
inductive GuardStep (counters counters' : Counters) (settings : Settings) (t t' : Task) : Prop
  /-- before its first increment, or turned away -/
  | passed (hbefore : ∀ key, ¬ t.Pending key) (hafter : ∀ key, ¬ t'.Pending key)
      (hquiet : ∀ done rest, t.phase = .incrementing done rest → False)
      (hcounters : counters' = counters)
  | incremented (key : String) (done rest : List String)
      (hphase : t.phase = .incrementing done (key :: rest))
      (hcounters : counters' = incrOrThrow counters key)
      (hphase' : t'.phase = .incrementing (done ++ [key]) rest ∨
        t'.phase = .expiring key (done ++ [key]) rest)
  | expiring (key : String) (done rest : List String) (hphase : t.phase = .expiring key done rest)
      (hcounters : counters' = expire counters key settings.ttl)
      (hphase' : t'.phase = .incrementing done rest)
  | admitted (done : List String) (hphase : t.phase = .incrementing done [])
      (hcounters : counters' = counters) (hphase' : t'.phase = .admitted)

/-- What a step of a request may do, and that the request stays the same. -/
theorem guardStep_of_resume {counters counters' : Counters} {settings : Settings} {t t' : Task}
    {left : Choice} (h : resumeWith settings counters t left = some (counters', t')) :
    GuardStep counters counters' settings t t' ∧ t'.request = t.request := by
  obtain ⟨request, phase⟩ := t
  cases phase with
  | checking rest =>
      cases rest with
      | nil =>
          cases h
          exact ⟨.passed (by simp [Task.Pending]) (by simp [Task.Pending]) (by simp) rfl, rfl⟩
      | cons key rest =>
          simp only [resumeWith] at h
          split at h <;> cases h <;>
            exact ⟨.passed (by simp [Task.Pending]) (by simp [Task.Pending]) (by simp) rfl, rfl⟩
  | refusing key =>
      cases h
      exact ⟨.passed (by simp [Task.Pending]) (by simp [Task.Pending]) (by simp) rfl, rfl⟩
  | incrementing done rest =>
      cases rest with
      | nil =>
          cases h
          exact ⟨.admitted done rfl rfl rfl, rfl⟩
      | cons key rest =>
          simp only [resumeWith] at h
          split at h <;> cases h
          · exact ⟨.incremented key done rest rfl rfl (Or.inr rfl), rfl⟩
          · exact ⟨.incremented key done rest rfl rfl (Or.inl rfl), rfl⟩
  | expiring key done rest =>
      cases h
      exact ⟨.expiring key done rest rfl rfl rfl, rfl⟩
  | admitted => cases h
  | refused answer => cases h

/-- A request increments its own keys, in order. -/
def Task.InOrder (t : Task) : Prop :=
  match t.phase with
  | .incrementing done rest | .expiring _ done rest => done ++ rest = t.request.keys
  | _ => True

/-- A request starts with every check before every increment. -/
theorem inOrder_start (request : Request) : (start request).InOrder := by
  unfold start
  split <;> trivial

/-- A step keeps the checks before the increments. -/
theorem inOrder_resume {counters counters' : Counters} {settings : Settings} {t t' : Task}
    {left : Choice} (h : resumeWith settings counters t left = some (counters', t'))
    (hinOrder : t.InOrder) : t'.InOrder := by
  obtain ⟨request, phase⟩ := t
  cases phase with
  | checking rest =>
      cases rest with
      | nil =>
          cases h
          exact List.nil_append _
      | cons key rest =>
          simp only [resumeWith] at h
          split at h <;> cases h <;> trivial
  | refusing key =>
      cases h
      trivial
  | incrementing done rest =>
      cases rest with
      | nil =>
          cases h
          trivial
      | cons key rest =>
          have hkeys : done ++ [key] ++ rest = request.keys := by
            rw [List.append_assoc]
            exact hinOrder
          simp only [resumeWith] at h
          split at h <;> cases h <;> exact hkeys
  | expiring key done rest =>
      cases h
      exact hinOrder
  | admitted => cases h
  | refused answer => cases h

/-! ## The counter of one key -/

section

variable {counters : Counters} {key : String}

/-- An increment leaves one more in its counter. -/
theorem get_incrOrThrow_self :
    ∃ counter, (incrOrThrow counters key).get key = some counter ∧
      counter.value = counters.count key + 1 :=
  ⟨_, Storage.get_set_self _ _ _, rfl⟩

/-- An increment leaves the other counters alone. -/
theorem get_incrOrThrow_ne {other : String} (h : key ≠ other) :
    (incrOrThrow counters other).get key = counters.get key :=
  Storage.get_set_ne _ _ h

/-- What a counter has come to is its value. -/
theorem count_eq {counter : Counter} (h : counters.get key = some counter) :
    counters.count key = counter.value := by
  simp [Counters.count, h]

/-- `EXPIRE` leaves the values alone, unless it is given no time. -/
theorem get_expire {other : String} {seconds : Nat} (h : key ≠ other ∨ seconds ≠ 0) :
    (counters.get key = none ∧ (expire counters other seconds).get key = none) ∨
    ∃ counter counter', counters.get key = some counter ∧
      (expire counters other seconds).get key = some counter' ∧
      counter'.value = counter.value := by
  have hsame {c : Counters} (heq : c.get key = counters.get key) :
      (counters.get key = none ∧ c.get key = none) ∨
      ∃ counter counter', counters.get key = some counter ∧ c.get key = some counter' ∧
        counter'.value = counter.value := by
    rw [heq]
    cases counters.get key with
    | none => exact Or.inl ⟨rfl, rfl⟩
    | some counter => exact Or.inr ⟨counter, counter, rfl, rfl, rfl⟩
  unfold expire
  split
  · next hzero =>
      have hne : key ≠ other := h.resolve_right (not_not_intro hzero)
      exact hsame (Storage.get_erase_ne _ hne)
  · split
    · next counter hget =>
        by_cases hkey : key = other
        · subst hkey
          exact Or.inr ⟨counter, _, hget, Storage.get_set_self _ _ _, rfl⟩
        · exact hsame (Storage.get_set_ne _ _ hkey)
    · exact hsame rfl

end

/-! ## Windows -/

section

variable {env : Env} {key : String} {limit : Nat}

/-- The value of a counter, if there is one. -/
def Counters.value (counters : Counters) (key : String) : Option Nat :=
  (counters.get key).map Counter.value

/-- While a window is open, the requests admitted in it and those on their way
are all counted, and the counter is within the limit; between windows nobody is
on the way. -/
def WithinLimit (limit : Nat) (value : Option Nat) (admitted : Nat) (pending : Int) : Prop :=
  match value with
  | some value => (admitted : Int) + pending ≤ value ∧ value ≤ limit
  | none => pending = 0

/-- What holds for a key with this limit at every moment. -/
structure WindowInvariant (env : Env) (key : String) (limit : Nat) (p : Pool Counters Task)
    (l : List LogEntry) : Prop where
  tasks : ∀ id t, p.tasks.get id = some t →
    t.InOrder ∧ (key ∈ t.request.keys → t.request.limit env = some limit)
  within : WithinLimit limit (p.shared.value key) (admissions key l) (p.count (Task.Pending key))

/-- No window is open at the beginning. -/
theorem WindowInvariant.initial : WindowInvariant env key limit (Pool.initial ∅) [] where
  tasks id t hget := by cases hget
  within := Pool.count_initial _

theorem admissions_snoc (l : List LogEntry) (e : LogEntry) :
    admissions key (l ++ [e]) =
      if LogEntry.Opens key e then 0
      else admissions key l + if LogEntry.Admits key e then 1 else 0 := by
  simp [admissions]

/-- A step that neither opens a window nor admits changes no count. -/
theorem admissions_snoc_same {l : List LogEntry} {e : LogEntry}
    (hopens : ¬ LogEntry.Opens key e) (hadmits : ¬ LogEntry.Admits key e) :
    admissions key (l ++ [e]) = admissions key l := by
  rw [admissions_snoc, if_neg hopens, if_neg hadmits, Nat.add_zero]

/-- Setting an expiry changes no value, except for 0 seconds. -/
theorem value_of_get_expire {counters : Counters} {other : String} {seconds : Nat}
    (h : key ≠ other ∨ seconds ≠ 0) :
    (expire counters other seconds).value key = counters.value key := by
  unfold Counters.value
  rcases @get_expire counters key other seconds h with
    ⟨hnone, hnone'⟩ | ⟨counter, counter', hget, hget', hvalue⟩
  · rw [hnone, hnone']
  · rw [hget, hget', Option.map_some, Option.map_some, hvalue]

/-- Nobody is pending once a window has closed. -/
theorem count_of_closesIdle {e : LogEntry} (hidle : LogEntry.ClosesIdle env key e)
    (hcloses : LogEntry.Closes env key e) : e.before.count (Task.Pending key) = 0 :=
  Pool.count_eq_zero
    (Storage.forall_get_of_entries (p := fun _ t => ¬ Task.Pending key t) (hidle hcloses))

/-- The first increment of a window. -/
theorem withinLimit_first {counters : Counters} (hnone : counters.get key = none)
    (hroom : counters.count key < limit) :
    WithinLimit limit ((incrOrThrow counters key).value key) 0 1 := by
  obtain ⟨counter, hafter, hvalue⟩ := @get_incrOrThrow_self counters key
  have hzero : counters.count key = 0 := by simp [Counters.count, hnone]
  simp only [Counters.value, hafter, Option.map_some, hvalue, WithinLimit]
  omega

/-- A later increment: one more request may be on its way. -/
theorem withinLimit_next {counters : Counters} {old : Counter} {admitted : Nat}
    {pending pending' : Int} (hsome : counters.get key = some old)
    (hroom : counters.count key < limit)
    (hwithin : WithinLimit limit (counters.value key) admitted pending)
    (hpending : pending' ≤ pending + 1) :
    WithinLimit limit ((incrOrThrow counters key).value key) admitted pending' := by
  obtain ⟨counter, hafter, hvalue⟩ := @get_incrOrThrow_self counters key
  simp only [Counters.value, hsome, Option.map_some, WithinLimit] at hwithin
  simp only [Counters.value, hafter, Option.map_some, hvalue, WithinLimit]
  rw [count_eq hsome] at hroom ⊢
  omega

/-- A request increments its next key, which may be this one or another. -/
theorem withinLimit_incremented {l : List LogEntry} {e : LogEntry} {id : Nat} {left : Choice}
    {request : Request} {t' : Task} {other : String} {done rest : List String}
    (hinput : e.input = .resume id left)
    (hget : e.before.tasks.get id = some ⟨request, .incrementing done (other :: rest)⟩)
    (hpending : Task.Pending key t' ↔ key ∈ done ++ [other])
    (hbelow : LogEntry.IncrementsBelow env key e)
    (h : WindowInvariant env key limit e.before l) :
    WithinLimit limit ((incrOrThrow e.before.shared other).value key) (admissions key (l ++ [e]))
      ((⟨incrOrThrow e.before.shared other, e.before.tasks.set id t'⟩ :
        Pool Counters Task).count (Task.Pending key)) := by
  obtain ⟨htasks, hwithin⟩ := h
  obtain ⟨hinOrder, hlimit⟩ := htasks id _ hget
  have hadmits : ¬ LogEntry.Admits key e := by simp [LogEntry.Admits, hinput, hget]
  by_cases hkey : key = other
  · -- the increment of this key: it opens a window, or finds the counter below the limit
    subst hkey
    have hincrement : LogEntry.increment key e = some request := by
      simp [LogEntry.increment, hinput, hget]
    have hmine : key ∈ request.keys := by
      have horder : done ++ key :: rest = request.keys := hinOrder
      simp [← horder]
    have hroom : e.before.shared.count key < limit :=
      hbelow request hincrement limit (hlimit hmine)
    have hafter : Task.Pending key t' := hpending.mpr (by simp)
    rw [admissions_snoc, if_neg hadmits]
    cases hbefore : e.before.shared.get key with
    | none =>
        have hopens : LogEntry.Opens key e := ⟨by simp [hincrement], hbefore⟩
        have hzero : e.before.count (Task.Pending key) = 0 := by
          simpa [Counters.value, hbefore, WithinLimit] using hwithin
        have hnot := Pool.not_of_count_le_zero (q := Task.Pending key) (by omega) hget
        rw [if_pos hopens, Pool.count_resume_enter hget _ hnot hafter, hzero]
        exact withinLimit_first hbefore hroom
    | some old =>
        have hopens : ¬ LogEntry.Opens key e := by
          rintro ⟨-, hnone⟩
          rw [hbefore] at hnone
          cases hnone
        rw [if_neg hopens, Nat.add_zero]
        refine withinLimit_next hbefore hroom hwithin ?_
        rw [Pool.count_resume hget, if_pos hafter]
        split <;> omega
  · have hopens : ¬ LogEntry.Opens key e := by
      simp [LogEntry.Opens, LogEntry.increment, hinput, hget, Ne.symm hkey]
    have hsame : Task.Pending key ⟨request, .incrementing done (other :: rest)⟩ ↔
        Task.Pending key t' := by
      rw [hpending]
      simp [Task.Pending, hkey]
    rw [admissions_snoc_same hopens hadmits, Pool.count_resume_of_iff hget _ hsame]
    unfold Counters.value
    rw [get_incrOrThrow_ne hkey]
    exact hwithin

/-- A request sets the time of the key it has just created. -/
theorem withinLimit_expiring {l : List LogEntry} {e : LogEntry} {id : Nat} {left : Choice}
    {request request' : Request} {other : String} {done rest : List String}
    {options : RateLimitOptions} (hinput : e.input = .resume id left)
    (hget : e.before.tasks.get id = some ⟨request, .expiring other done rest⟩)
    (hoptions : request.options = some options) (hidle : LogEntry.ClosesIdle env key e)
    (h : WindowInvariant env key limit e.before l) :
    WithinLimit limit ((expire e.before.shared other (settings env options).ttl).value key)
      (admissions key (l ++ [e]))
      ((⟨expire e.before.shared other (settings env options).ttl,
        e.before.tasks.set id ⟨request', .incrementing done rest⟩⟩ :
          Pool Counters Task).count (Task.Pending key)) := by
  have hopens : ¬ LogEntry.Opens key e := by
    simp [LogEntry.Opens, LogEntry.increment, hinput, hget]
  have hadmits : ¬ LogEntry.Admits key e := by simp [LogEntry.Admits, hinput, hget]
  have hsame : Task.Pending key ⟨request, .expiring other done rest⟩ ↔
      Task.Pending key ⟨request', .incrementing done rest⟩ := Iff.rfl
  rw [admissions_snoc_same hopens hadmits, Pool.count_resume_of_iff hget _ hsame]
  by_cases hcloses : key = other ∧ (settings env options).ttl = 0
  · obtain ⟨rfl, hzero⟩ := hcloses
    have hnone : (expire e.before.shared key (settings env options).ttl).value key = none := by
      simp [expire, hzero, Counters.value]
    rw [hnone]
    refine count_of_closesIdle hidle ?_
    simp [LogEntry.Closes, hinput, hget, hoptions, hzero]
  · have hopen : key ≠ other ∨ (settings env options).ttl ≠ 0 := by
      by_cases hkey : key = other
      · exact Or.inr fun hzero => hcloses ⟨hkey, hzero⟩
      · exact Or.inl hkey
    rw [value_of_get_expire hopen]
    exact h.within

/-- A request that has incremented all its keys is let through. -/
theorem withinLimit_admitted {l : List LogEntry} {e : LogEntry} {id : Nat} {left : Choice}
    {request request' : Request} {done : List String} (hinput : e.input = .resume id left)
    (hget : e.before.tasks.get id = some ⟨request, .incrementing done []⟩)
    (h : WindowInvariant env key limit e.before l) :
    WithinLimit limit (e.before.shared.value key) (admissions key (l ++ [e]))
      ((⟨e.before.shared, e.before.tasks.set id ⟨request', .admitted⟩⟩ :
        Pool Counters Task).count (Task.Pending key)) := by
  obtain ⟨htasks, hwithin⟩ := h
  have hopens : ¬ LogEntry.Opens key e := by
    simp [LogEntry.Opens, LogEntry.increment, hinput, hget]
  have hkeys : done = request.keys := by simpa [Task.InOrder] using (htasks id _ hget).1
  have hadmits : LogEntry.Admits key e ↔ Task.Pending key ⟨request, .incrementing done []⟩ := by
    simp [LogEntry.Admits, hinput, hget, Task.Pending, hkeys]
  have hafter : ¬ Task.Pending key ⟨request', .admitted⟩ := fun h => h
  rw [admissions_snoc, if_neg hopens, if_congr hadmits rfl rfl]
  unfold WithinLimit at hwithin ⊢
  by_cases hpending : Task.Pending key ⟨request, .incrementing done []⟩
  · have hone := Pool.one_le_count hget hpending
    rw [if_pos hpending, Pool.count_resume_leave hget _ hpending hafter]
    split at hwithin <;> omega
  · rw [if_neg hpending, Pool.count_resume_of_iff hget _ (iff_of_false hpending hafter)]
    exact hwithin

/-- A step of a request, in the terms of the key. -/
theorem withinLimit_resumed {l : List LogEntry} {e : LogEntry} {id : Nat} {left : Choice}
    {t t' : Task} {shared : Counters} {options : RateLimitOptions}
    (hinput : e.input = .resume id left) (hget : e.before.tasks.get id = some t)
    (hoptions : t.request.options = some options)
    (hstep : GuardStep e.before.shared shared (settings env options) t t')
    (hbelow : LogEntry.IncrementsBelow env key e) (hidle : LogEntry.ClosesIdle env key e)
    (h : WindowInvariant env key limit e.before l) :
    WithinLimit limit (shared.value key) (admissions key (l ++ [e]))
      ((⟨shared, e.before.tasks.set id t'⟩ : Pool Counters Task).count (Task.Pending key)) := by
  obtain ⟨request, phase⟩ := t
  obtain ⟨request', phase'⟩ := t'
  cases hstep with
  | passed hbefore hafter hquiet hcounters =>
      have hsame : admissions key (l ++ [e]) = admissions key l := by
        apply admissions_snoc_same
        · cases phase <;> simp_all [LogEntry.Opens, LogEntry.increment]
        · cases phase <;> simp_all [LogEntry.Admits]
      subst hcounters
      rw [hsame, Pool.count_resume_of_iff hget _ (iff_of_false (hbefore key) (hafter key))]
      exact h.within
  | incremented other done rest hphase hcounters hphase' =>
      obtain rfl : phase = .incrementing done (other :: rest) := hphase
      have hpending : Task.Pending key ⟨request', phase'⟩ ↔ key ∈ done ++ [other] := by
        rcases hphase' with hphase' | hphase'
        · obtain rfl : phase' = .incrementing (done ++ [other]) rest := hphase'
          exact Iff.rfl
        · obtain rfl : phase' = .expiring other (done ++ [other]) rest := hphase'
          exact Iff.rfl
      subst hcounters
      exact withinLimit_incremented hinput hget hpending hbelow h
  | expiring other done rest hphase hcounters hphase' =>
      obtain rfl : phase = .expiring other done rest := hphase
      obtain rfl : phase' = .incrementing done rest := hphase'
      subst hcounters
      exact withinLimit_expiring hinput hget hoptions hidle h
  | admitted done hphase hcounters hphase' =>
      obtain rfl : phase = .incrementing done [] := hphase
      obtain rfl : phase' = .admitted := hphase'
      subst hcounters
      exact withinLimit_admitted hinput hget h

/-- **Step lemma.** -/
theorem WindowInvariant.step {l : List LogEntry} {e : LogEntry}
    (hfires : (program env).machine.Fires e)
    (hlimit : ∀ id request, e.input = .start id request → key ∈ request.keys →
      request.limit env = some limit)
    (hbelow : LogEntry.IncrementsBelow env key e) (hidle : LogEntry.ClosesIdle env key e)
    (h : WindowInvariant env key limit e.before l) :
    WindowInvariant env key limit e.after (l ++ [e]) := by
  cases (program env).step_cases hfires with
  | started id request hinput hnew hafter =>
      have hrequest : (start request).request = request := by
        unfold start
        split <;> rfl
      have hquiet : ¬ Task.Pending key (start request) := by
        unfold start
        split <;> exact fun h => h
      have hsame : admissions key (l ++ [e]) = admissions key l :=
        admissions_snoc_same (by simp [LogEntry.Opens, LogEntry.increment, hinput])
          (by simp [LogEntry.Admits, hinput])
      rw [hafter]
      refine ⟨fun other t hget => ?_, ?_⟩
      · by_cases hid : other = id
        · subst hid
          rw [Storage.get_set_self] at hget
          cases hget
          refine ⟨inOrder_start request, fun hkey => ?_⟩
          have hkey' : key ∈ request.keys := hrequest ▸ hkey
          exact hrequest.symm ▸ hlimit other request hinput hkey'
        · rw [Storage.get_set_ne _ _ hid] at hget
          exact h.tasks other t hget
      · have hcount := Pool.count_start (q := Task.Pending key) (t := start request) hnew
          e.before.shared
        rw [if_neg hquiet, Int.add_zero] at hcount
        rw [hsame]
        exact hcount.symm ▸ h.within
  | outside other shared hinput houtside hafter =>
      have hsame : admissions key (l ++ [e]) = admissions key l :=
        admissions_snoc_same (by simp [LogEntry.Opens, LogEntry.increment, hinput])
          (by simp [LogEntry.Admits, hinput])
      have hshared : shared = e.before.shared.erase other := by
        change expires e.before.shared other = some shared at houtside
        unfold expires at houtside
        split at houtside
        · split at houtside <;> cases houtside
          rfl
        · cases houtside
      rw [hafter]
      refine ⟨h.tasks, ?_⟩
      rw [hsame, hshared]
      by_cases hkey : key = other
      · subst hkey
        have hzero := count_of_closesIdle hidle (by simp [LogEntry.Closes, hinput])
        simp only [Counters.value, Storage.get_erase_self]
        exact hzero
      · simp only [Counters.value, Storage.get_erase_ne _ hkey]
        exact h.within
  | resumed id left t t' shared hinput hget hresume hafter =>
      obtain ⟨options, hoptions, hresume⟩ := Option.bind_eq_some_iff.mp hresume
      obtain ⟨hstep, hrequest⟩ := guardStep_of_resume hresume
      rw [hafter]
      refine ⟨fun other t₀ hget₀ => ?_,
        withinLimit_resumed hinput hget hoptions hstep hbelow hidle h⟩
      by_cases hid : other = id
      · subst hid
        rw [Storage.get_set_self] at hget₀
        cases hget₀
        obtain ⟨hinOrder, hlimit'⟩ := h.tasks other t hget
        exact ⟨inOrder_resume hresume hinOrder, hrequest.symm ▸ hlimit'⟩
      · rw [Storage.get_set_ne _ _ hid] at hget₀
        exact h.tasks other t₀ hget₀

end

/-! ## The limit -/

/-- **The limit is a limit.**  While a window of the key is open, no more requests
have been admitted in it than the limit says, in every schedule in which each
increment of the key finds its counter below the limit, and no window of the key
ends before the requests counted in it are admitted. -/
theorem admissions_le_limit (env : Env) (key : String) (limit : Nat)
    (schedule : List (PoolAction Request Choice String))
    (hlimit : ∀ id request, PoolAction.start id request ∈ schedule → key ∈ request.keys →
      request.limit env = some limit)
    (hsteps : ∀ e ∈ (program env).log ∅ schedule,
      LogEntry.IncrementsBelow env key e ∧ LogEntry.ClosesIdle env key e)
    (hopen : (((program env).run ∅ schedule).shared.get key).isSome) :
    admissions key ((program env).log ∅ schedule) ≤ limit := by
  have hstarts : ∀ e ∈ (program env).log ∅ schedule, ∀ id request,
      e.input = .start id request → key ∈ request.keys → request.limit env = some limit := by
    intro e he id request hinput
    have hinputs := ((program env).machine.log_inputs_sublist (Pool.initial ∅) schedule).subset
    exact hlimit id request (hinput ▸ hinputs (List.mem_map_of_mem he))
  have hinvariant : WindowInvariant env key limit ((program env).run ∅ schedule)
      ((program env).log ∅ schedule) := by
    refine (program env).machine.invariant_while (I := fun _ _ => True) (fun _ => trivial)
      WindowInvariant.initial ?_ schedule fun e he => And.intro (hstarts e he) (hsteps e he)
    intro l e hfires hboth _ h
    exact h.step hfires hboth.1 hboth.2.1 hboth.2.2
  obtain ⟨counter, hget⟩ := Option.isSome_iff_exists.mp hopen
  have hwithin := hinvariant.within
  have hpending := Pool.count_nonneg (q := Task.Pending key) ((program env).run ∅ schedule)
  rw [Counters.value, hget, Option.map_some] at hwithin
  obtain ⟨hcounted, hle⟩ : ((admissions key ((program env).log ∅ schedule) : Nat) : Int) +
      ((program env).run ∅ schedule).count (Task.Pending key) ≤ counter.value ∧
        counter.value ≤ limit := hwithin
  omega

/-- Nothing set but the limit of two for the routes of the type `auth`. -/
def sampleEnv : Env := ⟨some 60, some 2, none, none, none, none, none, none⟩

/-- A login from one address. -/
def challengeRequest : Request :=
  ⟨some ⟨.auth, none, none⟩, some "203.0.113.7", none, none, none, none, none, none⟩

def sampleKey : String := "ratelimit:auth:ip:203.0.113.7"

/-- The login arrives. -/
def begin (id : Nat) : PoolAction Request Choice String := .start id challengeRequest

/-- One step of a request. -/
def go (id : Nat) : PoolAction Request Choice String := .resume id 45

/-- Two requests one after the other. -/
def twoInTurn : List (PoolAction Request Choice String) :=
  [begin 0, go 0, go 0, go 0, go 0, go 0, begin 1, go 1, go 1, go 1, go 1]

/-- Every request of the sample is the login, with its one counter. -/
theorem start_of_mem_sample {schedule : List (PoolAction Request Choice String)}
    (hsame : ∀ action ∈ schedule, ∀ id request, action = .start id request →
      request = challengeRequest) :
    ∀ id request, PoolAction.start id request ∈ schedule → sampleKey ∈ request.keys →
      request.limit sampleEnv = some 2 := by
  intro id request hmem _
  rw [hsame _ hmem id request rfl]
  decide

/-- Two logins one after the other, both admitted, under a limit of two. -/
theorem admissions_le_limit_in_turn :
    admissions sampleKey ((program sampleEnv).log ∅ twoInTurn) ≤ 2 :=
  admissions_le_limit sampleEnv sampleKey 2 twoInTurn
    (start_of_mem_sample (by simp [twoInTurn, begin, go]))
    (by decide +kernel) (by decide +kernel)

/-- Three requests that all read the counter before any of them increments it are
all admitted under a limit of two. -/
theorem admissions_exceed_limit :
    ¬ ∀ (env : Env) (key : String) (limit : Nat)
      (schedule : List (PoolAction Request Choice String)),
      (∀ id request, PoolAction.start id request ∈ schedule → key ∈ request.keys →
        request.limit env = some limit) →
      (((program env).run ∅ schedule).shared.get key).isSome →
      admissions key ((program env).log ∅ schedule) ≤ limit := by
  intro h
  have hthree := h sampleEnv sampleKey 2
    ([begin 0, begin 1, begin 2, go 0, go 1, go 2, go 0, go 1, go 2] ++
      [go 0, go 1, go 2, go 0, go 0, go 1, go 2])
    (start_of_mem_sample (by simp [begin, go])) (by decide +kernel)
  revert hthree
  decide +kernel

end EcoMint.RateLimit
