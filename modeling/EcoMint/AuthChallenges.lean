import EcoMint.Cid
import EcoMint.Tasks
import Mathlib

/-!
# Login challenges

The server signs a challenge transaction, stores it under the address it was
asked for, and lets whoever returns it with that address's signature log in.  A
new challenge for an address overwrites the old one, and a login attempt takes
the stored one away before it looks at it.

Calls interleave at each of their waits.  A nonce is carried by one call or one
stored record at a time, so a challenge serves one login.  What a record was
when it was taken, the last one issued for its address, is a fact about the log
before that step and stays one whatever happens next.
-/

namespace EcoMint.Auth

open Storage

/-- Five minutes, for which a challenge is good. -/
def CHALLENGE_TTL_SECONDS : Nat := 300

/-- A challenge as it is stored for an address. -/
structure StoredChallenge where
  challenge : String
  nonce : String
  address : String
  timestamp : Nat
  audience : String
deriving DecidableEq, Repr

/-- What a login brings. -/
structure VerifySignatureDto where
  address : String
  signedChallenge : String
  originalChallenge : String
deriving DecidableEq, Repr

/-- What a login returns. -/
structure AuthTokenResponse where
  accessToken : String
  refreshToken : String
  tokenType : String
  expiresIn : String
  refreshExpiresIn : String
deriving DecidableEq, Repr

/-- What `TransactionBuilder.fromXDR` returns. -/
inductive Transaction
  | feeBump (hash : ByteArray)
  /-- the operations are given by their `source` -/
  | plain (hash : ByteArray) (source : String) (operations : List (Option String))
      (signatures : List ByteArray)

/-- The hash that is signed. -/
def Transaction.hash : Transaction → ByteArray
  | .feeBump hash => hash
  | .plain hash _ _ _ => hash

/-- The configuration of the service and the Stellar library; where a library
function throws there is no result. -/
structure AuthEnv where
  audience : String
  /-- `process.env.STELLAR_AUTH_SECRET_KEY || process.env.ADMIN_SECRET_KEY` -/
  serverSecretKey : Option String
  isValidPublicKey : String → Bool
  /-- the public key of a secret key -/
  fromSecret : String → Option String
  /-- the public key behind an address -/
  fromPublicKey : String → Option String
  /-- the signed challenge of a server key for an address, with a value, built at a time -/
  challengeXdr : String → String → List UInt8 → Nat → String
  fromXdr : String → Option Transaction
  /-- whether a key made a signature over a hash -/
  verify : String → ByteArray → ByteArray → Option Bool
  /-- the access and the refresh token for an address and a KYC status -/
  accessToken : String → String → String
  refreshToken : String → String → String
  accessTokenExpiry : String
  refreshTokenExpiry : String

/-- The errors of the service. -/
inductive AuthError
  | badRequest (message : String)
  | internal (message : String)
  | unauthorized (message : String)
  | kycStatus
deriving DecidableEq, Repr

/-! ## Checks -/

/-- `signatures.some(…)`: the first signature that the key made ends the search,
and so does one that cannot be verified at all. -/
def hasSignature (env : AuthEnv) (hash : ByteArray) (signatures : List ByteArray)
    (key : String) : Option Bool :=
  signatures.anyM fun signature => env.verify key hash signature

/-- The body of the `try` block; it fails where the block throws. -/
def checkTransaction (env : AuthEnv) (serverSecretKey : String) (dto : VerifySignatureDto) :
    Option Unit := do
  let serverKey ← env.fromSecret serverSecretKey
  let original ← env.fromXdr dto.originalChallenge
  let signed ← env.fromXdr dto.signedChallenge
  match signed with
  | .feeBump _ => none
  | .plain hash source operations signatures =>
      guard (original.hash = hash ∧ source = serverKey ∧ operations = [some dto.address])
      let server ← hasSignature env hash signatures serverKey
      guard (server = true)
      let addressKey ← env.fromPublicKey dto.address
      let address ← hasSignature env hash signatures addressKey
      guard (address = true)

/-- The checks on a challenge that was taken, at the time `now`. -/
def checkChallenge (env : AuthEnv) (dto : VerifySignatureDto) (stored : StoredChallenge)
    (now : Nat) : Except AuthError Unit :=
  if stored.address ≠ dto.address then
    .error (.unauthorized
      "Challenge was not issued for this address. Please request a fresh challenge.")
  else if stored.challenge ≠ dto.originalChallenge then
    .error (.unauthorized ("Challenge content does not match issued challenge. " ++
      "Please request a fresh challenge."))
  else if (stored.timestamp : Int) < now - CHALLENGE_TTL_SECONDS * 1000 then
    .error (.unauthorized "Challenge has expired. Please request a fresh challenge.")
  else
    match env.serverSecretKey with
    | none => .error (.internal "Missing Stellar authentication signing key")
    | some serverSecretKey =>
        match checkTransaction env serverSecretKey dto with
        | none => .error (.unauthorized "Invalid signature")
        | some () => .ok ()

/-- `crypto.randomBytes(32).toString('hex')` -/
def nonceText (random : BytesN 32) : String := String.ofList (toHex random.bytes)

/-- The synchronous part of `generateChallenge`. -/
def buildChallenge (env : AuthEnv) (address nonce : String) (now : Nat) :
    Except AuthError StoredChallenge :=
  if !env.isValidPublicKey address then .error (.badRequest "Invalid Stellar address")
  else
    match env.serverSecretKey with
    | none => .error (.internal "Missing Stellar authentication signing key")
    | some serverSecretKey =>
        match env.fromSecret serverSecretKey with
        | none => .error (.internal "Invalid Stellar authentication signing key")
        | some serverKey => .ok {
            challenge := env.challengeXdr serverKey address (bufferFromHex nonce.toList) now
            nonce, address, timestamp := now, audience := env.audience }

/-- The two tokens of a login. -/
def tokens (env : AuthEnv) (address kycStatus : String) : AuthTokenResponse where
  accessToken := env.accessToken address kycStatus
  refreshToken := env.refreshToken address kycStatus
  tokenType := "Bearer"
  expiresIn := env.accessTokenExpiry
  refreshExpiresIn := env.refreshTokenExpiry

/-! ## Calls -/

/-- A challenge in Redis: the record, which is stored as JSON, and the last
moment at which it is there. -/
structure Entry where
  stored : StoredChallenge
  last : Nat
deriving DecidableEq, Repr

/-- Redis and the clock. -/
structure AuthState where
  redis : Storage String Entry
  now : Nat

/-- The key of an address's challenge. -/
def challengeKey (address : String) : String := "challenge:" ++ address

/-- `SET key value EX 300` -/
def AuthState.set (s : AuthState) (stored : StoredChallenge) : AuthState :=
  let entry : Entry := ⟨stored, s.now + CHALLENGE_TTL_SECONDS * 1000⟩
  { s with redis := s.redis.set (challengeKey stored.address) entry }

/-- The record under a key, if its time is not over. -/
def AuthState.live (s : AuthState) (address : String) : Option StoredChallenge :=
  ((s.redis.get (challengeKey address)).filter fun entry => s.now ≤ entry.last).map Entry.stored

/-- What `GETDEL key` leaves. -/
def AuthState.taken (s : AuthState) (address : String) : AuthState :=
  { s with redis := s.redis.erase (challengeKey address) }

/-- A challenge is generated with 32 random bytes. -/
inductive Request
  | generateChallenge (address : String) (random : BytesN 32)
  | verifySignature (dto : VerifySignatureDto)
deriving DecidableEq, Repr

/-- A call between two of its waits.  A login keeps the record that it took. -/
inductive Task
  | generating (address : String) (random : BytesN 32)
  | setting (stored : StoredChallenge)
  | issued (challenge nonce : String)
  | taking (dto : VerifySignatureDto)
  | checking (dto : VerifySignatureDto) (stored : StoredChallenge)
  | loadingStatus (dto : VerifySignatureDto) (stored : StoredChallenge)
  | loggedIn (dto : VerifySignatureDto) (stored : StoredChallenge) (response : AuthTokenResponse)
  | rejected (error : AuthError)
deriving DecidableEq, Repr

/-- How each request begins. -/
def Request.task : Request → Task
  | .generateChallenge address random => .generating address random
  | .verifySignature dto => .taking dto

/-- One step of a call; the choice is the KYC status, unless that call fails. -/
def Task.resume (env : AuthEnv) (s : AuthState) (kycStatus : Option String) :
    Task → Option (AuthState × Task)
  | .generating address random =>
      match buildChallenge env address (nonceText random) s.now with
      | .ok stored => some (s, .setting stored)
      | .error error => some (s, .rejected error)
  | .setting stored => some (s.set stored, .issued stored.challenge stored.nonce)
  | .taking dto =>
      match s.live dto.address with
      | some stored => some (s.taken dto.address, .checking dto stored)
      | none => some (s.taken dto.address, .rejected (.unauthorized ("Challenge not found, " ++
          "expired, or already consumed. Please request a fresh challenge.")))
  | .checking dto stored =>
      match checkChallenge env dto stored s.now with
      | .ok () => some (s, .loadingStatus dto stored)
      | .error error => some (s, .rejected error)
  | .loadingStatus dto stored =>
      match kycStatus with
      | some kycStatus => some (s, .loggedIn dto stored (tokens env dto.address kycStatus))
      | none => some (s, .rejected .kycStatus)
  | .issued _ _ | .loggedIn _ _ _ | .rejected _ => none

/-- The service; from outside only time passes. -/
def program (env : AuthEnv) :
    TaskProgram AuthState Task Request (Option String) Nat where
  start := Request.task
  resume s t kycStatus := t.resume env s kycStatus
  outside s elapsed := some { s with now := s.now + elapsed }

/-- The requests under way, with Redis and the clock between them. -/
abbrev AuthPool := Pool AuthState Task

/-- A step of one request, a new request, or time that passes. -/
abbrev AuthAction := PoolAction Request (Option String) Nat

/-- A step of the service as it was made. -/
abbrev AuthEvent := Event AuthPool AuthAction Unit

/-! ## What a run says about a login -/

/-- The event is a step of a task that was at `t`. -/
def Resumes (e : AuthEvent) (id : Nat) (t : Task) : Prop :=
  (∃ kycStatus, e.input = .resume id kycStatus) ∧ e.before.tasks.get id = some t

/-- A challenge that is stored, and when. -/
structure Issuance where
  stored : StoredChallenge
  time : Nat
deriving DecidableEq, Repr

/-- The challenge that a step stores, and when. -/
def issuance (e : AuthEvent) : Option Issuance :=
  match e.input with
  | .resume id _ =>
      match e.before.tasks.get id with
      | some (.setting stored) => some ⟨stored, e.before.shared.now⟩
      | _ => none
  | _ => none

/-- The most recent challenge issued for an address. -/
def lastIssued (log : List AuthEvent) (address : String) : Option Issuance :=
  ((log.filterMap issuance).filter fun issued => issued.stored.address = address).getLast?

/-- What was submitted has the hash of the challenge, and a signature of the
server's key and one of the address's. -/
def SubmissionValid (env : AuthEnv) (dto : VerifySignatureDto) : Prop :=
  ∃ original hash source operations signatures serverSecretKey serverKey addressKey,
    env.fromXdr dto.originalChallenge = some original ∧
    env.fromXdr dto.signedChallenge = some (.plain hash source operations signatures) ∧
    original.hash = hash ∧
    env.serverSecretKey = some serverSecretKey ∧ env.fromSecret serverSecretKey = some serverKey ∧
    env.fromPublicKey dto.address = some addressKey ∧
    (∃ signature ∈ signatures, env.verify serverKey hash signature = some true) ∧
    ∃ signature ∈ signatures, env.verify addressKey hash signature = some true

/-- The login took its record when that was the last one issued for its address,
and looked at it no later than 300 seconds after it was issued. -/
def Granted (env : AuthEnv) (log : List AuthEvent) (id : Nat) (dto : VerifySignatureDto)
    (stored : StoredChallenge) : Prop :=
  stored.challenge = dto.originalChallenge ∧ SubmissionValid env dto ∧
  ∃ before take between check after, log = before ++ take :: (between ++ check :: after) ∧
    Resumes take id (.taking dto) ∧ Resumes check id (.checking dto stored) ∧
    ∃ time, lastIssued before dto.address = some ⟨stored, time⟩ ∧
      check.before.shared.now ≤ time + CHALLENGE_TTL_SECONDS * 1000

/-! ## One step of a call -/

/-- The record has the challenge that was built for its address and nonce. -/
def Built (env : AuthEnv) (stored : StoredChallenge) : Prop :=
  ∃ serverKey random now, stored.nonce = nonceText random ∧
    stored.challenge = env.challengeXdr serverKey stored.address random.bytes now

/-- What one step of a call does. -/
inductive AuthStep (env : AuthEnv) (s s' : AuthState) : Task → Task → Prop
  | built (address : String) (random : BytesN 32) (stored : StoredChallenge)
      (hbuilt : Built env stored) (hnonce : stored.nonce = nonceText random)
      (htime : stored.timestamp = s.now) (hafter : s' = s) :
      AuthStep env s s' (.generating address random) (.setting stored)
  | issued (stored : StoredChallenge) (hafter : s' = s.set stored) :
      AuthStep env s s' (.setting stored) (.issued stored.challenge stored.nonce)
  | taken (dto : VerifySignatureDto) (entry : Entry)
      (hget : s.redis.get (challengeKey dto.address) = some entry)
      (hafter : s' = s.taken dto.address) :
      AuthStep env s s' (.taking dto) (.checking dto entry.stored)
  | missed (dto : VerifySignatureDto) (error : AuthError) (hafter : s' = s.taken dto.address) :
      AuthStep env s s' (.taking dto) (.rejected error)
  | passed (dto : VerifySignatureDto) (stored : StoredChallenge)
      (hchallenge : stored.challenge = dto.originalChallenge)
      (htime : s.now ≤ stored.timestamp + CHALLENGE_TTL_SECONDS * 1000)
      (hvalid : SubmissionValid env dto) (hafter : s' = s) :
      AuthStep env s s' (.checking dto stored) (.loadingStatus dto stored)
  | loggedIn (dto : VerifySignatureDto) (stored : StoredChallenge)
      (response : AuthTokenResponse) (hafter : s' = s) :
      AuthStep env s s' (.loadingStatus dto stored) (.loggedIn dto stored response)
  | rejected (t : Task) (error : AuthError) (hsetting : ∀ stored, t ≠ .setting stored)
      (hafter : s' = s) : AuthStep env s s' t (.rejected error)

/-- Where a signature is found, one of them verifies under the key. -/
theorem exists_of_hasSignature {env : AuthEnv} {hash : ByteArray} {signatures : List ByteArray}
    {key : String} (h : hasSignature env hash signatures key = some true) :
    ∃ signature ∈ signatures, env.verify key hash signature = some true := by
  unfold hasSignature at h
  induction signatures with
  | nil => cases h
  | cons signature rest ih =>
      rw [List.anyM] at h
      cases hverify : env.verify key hash signature with
      | none =>
          rw [hverify] at h
          cases h
      | some valid =>
          rw [hverify] at h
          cases valid with
          | true => exact ⟨signature, List.mem_cons_self, hverify⟩
          | false =>
              obtain ⟨found, hmem, hfound⟩ := ih h
              exact ⟨found, List.mem_cons_of_mem _ hmem, hfound⟩

/-- A transaction that passes the check is signed by both sides. -/
theorem submissionValid_of_checkTransaction {env : AuthEnv} {serverSecretKey : String}
    {dto : VerifySignatureDto} (hsecret : env.serverSecretKey = some serverSecretKey)
    (h : checkTransaction env serverSecretKey dto = some ()) : SubmissionValid env dto := by
  unfold checkTransaction at h
  simp only [Option.bind_eq_bind, Option.bind_eq_some_iff] at h
  obtain ⟨serverKey, hkey, original, horiginal, signed, hsigned, h⟩ := h
  cases signed with
  | feeBump hash => cases h
  | plain hash source operations signatures =>
      simp only [Option.bind_eq_some_iff, Option.guard_eq_some'] at h
      obtain ⟨-, ⟨hhash, -, -⟩, server, hserver, -, rfl, addressKey, haddress, address, hsame,
        rfl⟩ := h
      exact ⟨original, hash, source, operations, signatures, serverSecretKey, serverKey,
        addressKey, horiginal, hsigned, hhash, hsecret, hkey, haddress,
        exists_of_hasSignature hserver, exists_of_hasSignature hsame⟩

/-- A challenge that passes is the stored one, of this address and not too old. -/
theorem passed_of_checkChallenge {env : AuthEnv} {dto : VerifySignatureDto}
    {stored : StoredChallenge} {now : Nat} (h : checkChallenge env dto stored now = .ok ()) :
    stored.challenge = dto.originalChallenge ∧
      now ≤ stored.timestamp + CHALLENGE_TTL_SECONDS * 1000 ∧ SubmissionValid env dto := by
  unfold checkChallenge at h
  split at h
  · cases h
  split at h
  · cases h
  next hchallenge =>
  split at h
  · cases h
  next htime =>
  split at h
  · cases h
  next serverSecretKey hsecret =>
  split at h
  · cases h
  next hcheck =>
  refine ⟨not_not.mp hchallenge, ?_, submissionValid_of_checkTransaction hsecret hcheck⟩
  omega

/-- A challenge that was built is well formed and carries its nonce. -/
theorem built_of_buildChallenge {env : AuthEnv} {address : String} {random : BytesN 32}
    {now : Nat} {stored : StoredChallenge}
    (h : buildChallenge env address (nonceText random) now = .ok stored) :
    Built env stored ∧ stored.nonce = nonceText random ∧ stored.timestamp = now := by
  unfold buildChallenge at h
  split at h
  · cases h
  split at h
  · cases h
  split at h
  · cases h
  next serverKey _ =>
  obtain rfl := Except.ok.inj h
  refine ⟨⟨serverKey, random, now, rfl, ?_⟩, rfl, rfl⟩
  simp only [nonceText, String.toList_ofList, bufferFromHex_toHex]

/-- What a step of a request may do. -/
theorem authStep_of_resume {env : AuthEnv} {s s' : AuthState} {kycStatus : Option String}
    {t t' : Task} (h : t.resume env s kycStatus = some (s', t')) : AuthStep env s s' t t' := by
  cases t with
  | generating address random =>
      simp only [Task.resume] at h
      split at h
      · next stored hbuild =>
          obtain ⟨rfl, rfl⟩ := Prod.mk.inj (Option.some.inj h)
          obtain ⟨hbuilt, hnonce, htime⟩ := built_of_buildChallenge hbuild
          exact .built address random stored hbuilt hnonce htime rfl
      · obtain ⟨rfl, rfl⟩ := Prod.mk.inj (Option.some.inj h)
        exact .rejected _ _ (fun _ h => by cases h) rfl
  | setting stored =>
      obtain ⟨rfl, rfl⟩ := Prod.mk.inj (Option.some.inj h)
      exact .issued stored rfl
  | taking dto =>
      simp only [Task.resume] at h
      split at h
      · next stored hlive =>
          obtain ⟨rfl, rfl⟩ := Prod.mk.inj (Option.some.inj h)
          unfold AuthState.live at hlive
          obtain ⟨entry, hfilter, rfl⟩ := Option.map_eq_some_iff.mp hlive
          exact .taken dto entry (Option.filter_eq_some_iff.mp hfilter).1 rfl
      · obtain ⟨rfl, rfl⟩ := Prod.mk.inj (Option.some.inj h)
        exact .missed dto _ rfl
  | checking dto stored =>
      simp only [Task.resume] at h
      split at h
      · next hcheck =>
          obtain ⟨rfl, rfl⟩ := Prod.mk.inj (Option.some.inj h)
          obtain ⟨hchallenge, htime, hvalid⟩ := passed_of_checkChallenge hcheck
          exact .passed dto stored hchallenge htime hvalid rfl
      · obtain ⟨rfl, rfl⟩ := Prod.mk.inj (Option.some.inj h)
        exact .rejected _ _ (fun _ h => by cases h) rfl
  | loadingStatus dto stored =>
      simp only [Task.resume] at h
      split at h
      · obtain ⟨rfl, rfl⟩ := Prod.mk.inj (Option.some.inj h)
        exact .loggedIn dto stored _ rfl
      · obtain ⟨rfl, rfl⟩ := Prod.mk.inj (Option.some.inj h)
        exact .rejected _ _ (fun _ h => by cases h) rfl
  | issued _ _ => cases h
  | loggedIn _ _ _ => cases h
  | rejected _ => cases h

/-! ## A nonce is in one place -/

/-- The nonce that a call will store, or has taken. -/
def Task.carriedNonce : Task → Option String
  | .generating _ random => some (nonceText random)
  | .setting stored | .checking _ stored | .loadingStatus _ stored | .loggedIn _ stored _ =>
      some stored.nonce
  | _ => none

/-- The request carries this nonce in its hands, neither stored nor used up. -/
def Task.Carries (nonce : String) (t : Task) : Prop := t.carriedNonce = some nonce

instance (nonce : String) : DecidablePred (Task.Carries nonce) :=
  fun t => inferInstanceAs (Decidable (t.carriedNonce = some nonce))

/-- How many stored records have the nonce. -/
def AuthState.holds (s : AuthState) (nonce : String) : Int :=
  s.redis.sum fun _ entry => if entry.stored.nonce = nonce then 1 else 0

/-- In how many places the nonce is. -/
def carried (p : AuthPool) (nonce : String) : Int :=
  p.count (Task.Carries nonce) + p.shared.holds nonce

/-- Storing a challenge leaves at most one copy more of its nonce. -/
theorem AuthState.holds_set_le (s : AuthState) (stored : StoredChallenge) (nonce : String) :
    (s.set stored).holds nonce ≤ s.holds nonce + if stored.nonce = nonce then 1 else 0 := by
  unfold AuthState.holds AuthState.set
  dsimp only
  rw [sum_set]
  cases s.redis.get (challengeKey stored.address) with
  | none => simp
  | some old =>
      rw [Option.elim_some]
      split <;> split <;> omega

/-- Taking a challenge leaves no nonce more often. -/
theorem AuthState.holds_taken_le (s : AuthState) (address nonce : String) :
    (s.taken address).holds nonce ≤ s.holds nonce := by
  unfold AuthState.holds AuthState.taken
  refine List.Sublist.sum_le_sum ((List.kerase_sublist _ _).map _) ?_
  intro n hn
  obtain ⟨entry, -, rfl⟩ := List.mem_map.mp hn
  dsimp only
  split <;> omega

/-- Taking a challenge leaves its nonce once less. -/
theorem AuthState.holds_taken {s : AuthState} {address : String} {entry : Entry}
    (hget : s.redis.get (challengeKey address) = some entry) (nonce : String) :
    (s.taken address).holds nonce = s.holds nonce - if entry.stored.nonce = nonce then 1 else 0 :=
  sum_erase hget _

/-- A step moves a nonce between Redis and the request and makes no copy of it. -/
theorem AuthStep.carried_le {env : AuthEnv} {s s' : AuthState} {t t' : Task}
    (h : AuthStep env s s' t t') (nonce : String) :
    s'.holds nonce + (if t'.Carries nonce then 1 else 0) ≤
      s.holds nonce + if t.Carries nonce then 1 else 0 := by
  unfold Task.Carries
  cases h with
  | built address random stored hbuilt hnonce htime hafter =>
      subst hafter
      simp only [Task.carriedNonce, hnonce]
      rfl
  | issued stored hafter =>
      subst hafter
      have hset := s.holds_set_le stored nonce
      simp only [Task.carriedNonce, reduceCtorEq, if_false, Option.some.injEq]
      omega
  | taken dto entry hget hafter =>
      subst hafter
      rw [AuthState.holds_taken hget]
      simp only [Task.carriedNonce, reduceCtorEq, if_false, Option.some.injEq]
      omega
  | missed dto error hafter =>
      subst hafter
      have herase := s.holds_taken_le dto.address nonce
      simpa only [Task.carriedNonce, reduceCtorEq, if_false, add_zero] using herase
  | passed dto stored hchallenge htime hvalid hafter => exact hafter ▸ le_rfl
  | loggedIn dto stored response hafter => exact hafter ▸ le_rfl
  | rejected t error hsetting hafter =>
      subst hafter
      simp only [Task.carriedNonce, reduceCtorEq, if_false]
      split <;> omega

/-- The nonce of the challenge that is asked for. -/
def startedNonce : AuthAction → Option String
  | .start _ (.generateChallenge _ random) => some (nonceText random)
  | _ => none

/-- A step of the run adds a nonce only when a request for it starts. -/
theorem carried_step {env : AuthEnv} {e : AuthEvent} (hfires : (program env).machine.Fires e)
    (nonce : String) :
    carried e.after nonce ≤
      carried e.before nonce + if startedNonce e.input = some nonce then 1 else 0 := by
  obtain ⟨p, a, out, p'⟩ := e
  have hstep : (program env).Step p p' a := (program env).step_cases hfires
  unfold carried
  cases hstep with
  | started id request hinput hnew hafter =>
      subst hafter hinput
      rw [Pool.count_start hnew]
      cases request with
      | generateChallenge address random =>
          by_cases hsame : nonceText random = nonce <;>
            simp [program, Request.task, Task.Carries, Task.carriedNonce, startedNonce, hsame]
          omega
      | verifySignature dto =>
          simp [program, Request.task, Task.Carries, Task.carriedNonce, startedNonce]
  | resumed id kycStatus t t' shared hinput hget hresume hafter =>
      subst hafter hinput
      have hcarried := (authStep_of_resume hresume).carried_le nonce
      rw [Pool.count_resume hget]
      simp only [startedNonce, reduceCtorEq, if_false]
      omega
  | outside elapsed shared hinput houtside hafter =>
      subst hafter hinput
      obtain rfl := Option.some.inj houtside
      simp [startedNonce, AuthState.holds, Pool.count]

/-- In a run a nonce is about no more often than requests for it were started. -/
theorem carried_run (env : AuthEnv) (now : Nat) (schedule : List AuthAction) (nonce : String) :
    carried ((program env).run ⟨∅, now⟩ schedule) nonce ≤
      (((program env).log ⟨∅, now⟩ schedule).countP
        fun e => startedNonce e.input = some nonce : Nat) := by
  refine (program env).machine.invariant
    (P := fun p log => carried p nonce ≤
      (log.countP fun e => startedNonce e.input = some nonce : Nat)) ?_ ?_ schedule
  · simp [carried, AuthState.holds, sum_empty]
  · intro log e hfires hle
    have hstep := carried_step hfires nonce
    rw [List.countP_append, List.countP_singleton]
    push_cast
    split at hstep <;> simp_all <;> omega

/-- With distinct nonces, a nonce is in one place at most. -/
theorem carried_le_one (env : AuthEnv) (now : Nat) {schedule : List AuthAction}
    (hnonces : (schedule.filterMap startedNonce).Nodup) (nonce : String) :
    carried ((program env).run ⟨∅, now⟩ schedule) nonce ≤ 1 := by
  have hrun := carried_run env now schedule nonce
  have hsub := ((program env).machine.log_inputs_sublist (Pool.initial ⟨∅, now⟩) schedule).filterMap
    startedNonce
  have hcount := List.nodup_iff_count_le_one.mp (hnonces.sublist hsub) nonce
  rw [List.filterMap_map, List.count, List.countP_filterMap] at hcount
  have hle := List.countP_mono_left (l := (program env).log ⟨∅, now⟩ schedule)
    (p := fun e => startedNonce e.input = some nonce)
    (q := fun e => ((startedNonce e.input).map (· == nonce)).getD false)
    fun e _ hstarted => by simp [of_decide_eq_true hstarted]
  have hone := hle.trans hcount
  omega

/-! ## What a login took -/

theorem lastIssued_snoc (log : List AuthEvent) (e : AuthEvent) (address : String) :
    lastIssued (log ++ [e]) address =
      match (issuance e).filter fun issued => issued.stored.address = address with
      | some issued => some issued
      | none => lastIssued log address := by
  unfold lastIssued
  rw [List.filterMap_append, List.filter_append]
  cases hissued : issuance e with
  | none => simp [hissued]
  | some issued =>
      by_cases haddress : issued.stored.address = address <;>
        simp [hissued, haddress, Option.filter]

/-- A login that took a record, when that was the last one issued. -/
def Taken (log : List AuthEvent) (id : Nat) (dto : VerifySignatureDto)
    (stored : StoredChallenge) : Prop :=
  ∃ before take after, log = before ++ take :: after ∧ Resumes take id (.taking dto) ∧
    ∃ time, lastIssued before dto.address = some ⟨stored, time⟩ ∧ stored.timestamp ≤ time

/-- What a call knows at its present step. -/
def Task.Holds (env : AuthEnv) (now : Nat) (log : List AuthEvent) (id : Nat) : Task → Prop
  | .setting stored => Built env stored ∧ stored.timestamp ≤ now
  | .checking dto stored => Built env stored ∧ Taken log id dto stored
  | .loadingStatus dto stored | .loggedIn dto stored _ =>
      Built env stored ∧ Granted env log id dto stored
  | _ => True

theorem Taken.snoc {log : List AuthEvent} {id : Nat} {dto : VerifySignatureDto}
    {stored : StoredChallenge} (h : Taken log id dto stored) (e : AuthEvent) :
    Taken (log ++ [e]) id dto stored := by
  obtain ⟨before, take, after, rfl, hrest⟩ := h
  exact ⟨before, take, after ++ [e], by simp, hrest⟩

theorem Granted.snoc {env : AuthEnv} {log : List AuthEvent} {id : Nat}
    {dto : VerifySignatureDto} {stored : StoredChallenge} (h : Granted env log id dto stored)
    (e : AuthEvent) : Granted env (log ++ [e]) id dto stored := by
  obtain ⟨hchallenge, hvalid, before, take, between, check, after, rfl, hrest⟩ := h
  exact ⟨hchallenge, hvalid, before, take, between, check, after ++ [e], by simp, hrest⟩

theorem Task.Holds.snoc {env : AuthEnv} {now now' : Nat} {log : List AuthEvent} {id : Nat}
    {t : Task} (h : t.Holds env now log id) (hnow : now ≤ now') (e : AuthEvent) :
    t.Holds env now' (log ++ [e]) id := by
  cases t with
  | setting stored => exact ⟨h.1, h.2.trans hnow⟩
  | checking dto stored => exact ⟨h.1, h.2.snoc e⟩
  | loadingStatus dto stored => exact ⟨h.1, h.2.snoc e⟩
  | loggedIn dto stored response => exact ⟨h.1, h.2.snoc e⟩
  | generating _ _ | issued _ _ | taking _ | rejected _ => trivial

/-- The stored record of an address is the last one issued for it, and every
call knows what it should. -/
structure AuthInvariant (env : AuthEnv) (p : AuthPool) (log : List AuthEvent) : Prop where
  stored : ∀ address entry, p.shared.redis.get (challengeKey address) = some entry →
    Built env entry.stored ∧ ∃ time, lastIssued log address = some ⟨entry.stored, time⟩ ∧
      entry.stored.timestamp ≤ time
  calls : ∀ id t, p.tasks.get id = some t → t.Holds env p.shared.now log id

/-- The invariant holds at the beginning. -/
theorem AuthInvariant.initial (env : AuthEnv) (now : Nat) :
    AuthInvariant env (Pool.initial ⟨∅, now⟩) [] where
  stored _ _ h := by simp at h
  calls _ _ h := by simp [Pool.initial] at h

theorem challengeKey_inj {address address' : String} :
    challengeKey address = challengeKey address' ↔ address = address' := by
  simp [challengeKey]

/-- A step that stores no challenge leaves the last ones. -/
theorem lastIssued_snoc_of_none {e : AuthEvent} (h : issuance e = none) (log : List AuthEvent)
    (address : String) : lastIssued (log ++ [e]) address = lastIssued log address := by
  rw [lastIssued_snoc, h]
  rfl

/-- What is stored, after a step that issued nothing and stored nothing. -/
theorem AuthInvariant.stored_snoc {env : AuthEnv} {p : AuthPool} {log : List AuthEvent}
    (hp : AuthInvariant env p log) {e : AuthEvent} (hissued : issuance e = none)
    {redis : Storage String Entry}
    (hredis : ∀ key entry, redis.get key = some entry → p.shared.redis.get key = some entry) :
    ∀ address entry, redis.get (challengeKey address) = some entry →
      Built env entry.stored ∧ ∃ time,
        lastIssued (log ++ [e]) address = some ⟨entry.stored, time⟩ ∧
          entry.stored.timestamp ≤ time := by
  intro address entry hget
  rw [lastIssued_snoc_of_none hissued]
  exact hp.stored address entry (hredis _ entry hget)

/-- What the calls know, after one of them took a step. -/
theorem AuthInvariant.calls_set {env : AuthEnv} {p : AuthPool} {log : List AuthEvent}
    (hp : AuthInvariant env p log) {e : AuthEvent} {id : Nat} {t : Task}
    (ht : t.Holds env p.shared.now (log ++ [e]) id) :
    ∀ id' t', (p.tasks.set id t).get id' = some t' →
      t'.Holds env p.shared.now (log ++ [e]) id' := by
  intro id' t' hget
  rw [get_set] at hget
  split at hget
  · next heq =>
      obtain rfl := Option.some.inj hget
      exact heq ▸ ht
  · exact (hp.calls id' t' hget).snoc le_rfl e

/-- **Step lemma.** -/
theorem AuthInvariant.step {env : AuthEnv} {log : List AuthEvent} {e : AuthEvent}
    (hp : AuthInvariant env e.before log) (hfires : (program env).machine.Fires e) :
    AuthInvariant env e.after (log ++ [e]) := by
  obtain ⟨p, a, out, p'⟩ := e
  have hstep : (program env).Step p p' a := (program env).step_cases hfires
  have hbefore : AuthInvariant env p log := hp
  cases hstep with
  | started id request hinput hnew hafter =>
      subst hafter hinput
      refine ⟨hbefore.stored_snoc rfl fun _ _ h => h, hbefore.calls_set ?_⟩
      cases request <;> trivial
  | outside elapsed shared hinput houtside hafter =>
      subst hafter hinput
      obtain rfl := Option.some.inj houtside
      exact ⟨hbefore.stored_snoc rfl fun _ _ h => h,
        fun id t hget => (hbefore.calls id t hget).snoc (Nat.le_add_right _ _) _⟩
  | resumed id kycStatus t t' shared hinput hget hresume hafter =>
      subst hafter hinput
      have hknows := hbefore.calls id t hget
      cases authStep_of_resume hresume with
      | built address random stored hbuilt hnonce htime hshared =>
          subst hshared
          exact ⟨hbefore.stored_snoc (by simp [issuance, hget]) fun _ _ h => h,
            hbefore.calls_set ⟨hbuilt, htime.le⟩⟩
      | issued stored hshared =>
          subst hshared
          refine ⟨fun address entry hentry => ?_, hbefore.calls_set trivial⟩
          have hissued : issuance ⟨p, .resume id kycStatus, out,
              ⟨p.shared.set stored, p.tasks.set id (.issued stored.challenge stored.nonce)⟩⟩ =
                some ⟨stored, p.shared.now⟩ := by
            simp [issuance, hget]
          have hset : Storage.get (p.shared.redis.set (challengeKey stored.address)
              ⟨stored, p.shared.now + CHALLENGE_TTL_SECONDS * 1000⟩) (challengeKey address) =
                some entry := hentry
          rw [lastIssued_snoc, hissued]
          rw [get_set] at hset
          split at hset
          · next hkey =>
              obtain rfl := Option.some.inj hset
              obtain rfl := challengeKey_inj.mp hkey
              refine ⟨hknows.1, p.shared.now, ?_, hknows.2⟩
              simp [Option.filter]
          · next hkey =>
              have haddress : stored.address ≠ address := fun h => hkey (h ▸ rfl)
              simpa [Option.filter, haddress] using hbefore.stored address entry hset
      | taken dto entry hentry hshared =>
          subst hshared
          obtain ⟨hbuilt, time, hlast, htime⟩ := hbefore.stored dto.address entry hentry
          exact ⟨hbefore.stored_snoc (by simp [issuance, hget]) fun _ _ h => get_erase_some h,
            hbefore.calls_set ⟨hbuilt, log, _, [], rfl, ⟨⟨kycStatus, rfl⟩, hget⟩,
              time, hlast, htime⟩⟩
      | missed dto error hshared =>
          subst hshared
          exact ⟨hbefore.stored_snoc (by simp [issuance, hget]) fun _ _ h => get_erase_some h,
            hbefore.calls_set trivial⟩
      | passed dto stored hchallenge hnow hvalid hshared =>
          subst hshared
          obtain ⟨hbuilt, before, take, after, rfl, htake, time, hlast, htime⟩ := hknows
          refine ⟨hbefore.stored_snoc (by simp [issuance, hget]) fun _ _ h => h,
            hbefore.calls_set ⟨hbuilt, hchallenge, hvalid, before, take, after, _, [],
              List.append_assoc before (take :: after) [_], htake, ⟨⟨kycStatus, rfl⟩, hget⟩, time,
              hlast, ?_⟩⟩
          exact hnow.trans (Nat.add_le_add_right htime _)
      | loggedIn dto stored response hshared =>
          subst hshared
          exact ⟨hbefore.stored_snoc (by simp [issuance, hget]) fun _ _ h => h,
            hbefore.calls_set ⟨hknows.1, hknows.2.snoc _⟩⟩
      | rejected _ error hsetting hshared =>
          subst hshared
          have hissued : issuance ⟨p, .resume id kycStatus, out,
              ⟨p.shared, p.tasks.set id (.rejected error)⟩⟩ = none := by
            cases t <;> simp [issuance, hget]
            exact hsetting _ rfl
          exact ⟨hbefore.stored_snoc hissued fun _ _ h => h, hbefore.calls_set trivial⟩

/-- The invariant holds after every run. -/
theorem AuthInvariant.run (env : AuthEnv) (now : Nat) (schedule : List AuthAction) :
    AuthInvariant env ((program env).run ⟨∅, now⟩ schedule)
      ((program env).log ⟨∅, now⟩ schedule) :=
  (program env).machine.invariant (AuthInvariant.initial env now)
    (fun _ _ hfires hp => hp.step hfires) schedule

/-- The transaction text carries the value, so distinct values give distinct texts. -/
def AuthEnv.TellsValues (env : AuthEnv) : Prop :=
  ∀ serverKey serverKey' address address' value value' now now',
    env.challengeXdr serverKey address value now =
      env.challengeXdr serverKey' address' value' now' → value = value'

/-- Two logins never share a challenge, and a login was granted to its address on
the last challenge issued for that address when the login took it. -/
theorem login_once_per_challenge (env : AuthEnv) (hxdr : env.TellsValues) (now : Nat)
    (schedule : List AuthAction) (hnonces : (schedule.filterMap startedNonce).Nodup) :
    (∀ id id' dto dto' stored stored' response response',
      ((program env).run ⟨∅, now⟩ schedule).tasks.get id = some (.loggedIn dto stored response) →
      ((program env).run ⟨∅, now⟩ schedule).tasks.get id' =
        some (.loggedIn dto' stored' response') →
      dto.originalChallenge = dto'.originalChallenge → id = id') ∧
    ∀ id dto stored response,
      ((program env).run ⟨∅, now⟩ schedule).tasks.get id = some (.loggedIn dto stored response) →
      Granted env ((program env).log ⟨∅, now⟩ schedule) id dto stored := by
  have hinvariant := AuthInvariant.run env now schedule
  refine ⟨?_, fun id dto stored response hget => (hinvariant.calls id _ hget).2⟩
  intro id id' dto dto' stored stored' response response' hget hget' hsame
  obtain ⟨⟨serverKey, random, time, hnonce, hbuilt⟩, hchallenge, -⟩ := hinvariant.calls id _ hget
  obtain ⟨⟨serverKey', random', time', hnonce', hbuilt'⟩, hchallenge', -⟩ :=
    hinvariant.calls id' _ hget'
  -- the same challenge was built from the same nonce, which is in one place
  have hbytes : random.bytes = random'.bytes := by
    refine hxdr serverKey serverKey' stored.address stored'.address _ _ time time' ?_
    rw [← hbuilt, ← hbuilt', hchallenge, hchallenge', hsame]
  have htext : stored'.nonce = stored.nonce := by
    rw [hnonce, hnonce', nonceText, nonceText, hbytes]
  have hone := carried_le_one env now hnonces stored.nonce
  have hholds : 0 ≤ ((program env).run ⟨∅, now⟩ schedule).shared.holds stored.nonce :=
    sum_nonneg fun _ entry _ => by split <;> omega
  refine Pool.eq_of_count_le_one (q := Task.Carries stored.nonce) ?_ hget rfl hget'
    (congrArg some htext)
  unfold carried at hone
  omega

/-- Texts in place of transactions, and one signature for both keys. -/
def sampleEnv : AuthEnv where
  audience := "ecomint.io"
  serverSecretKey := some "SSERVER"
  isValidPublicKey _ := true
  fromSecret _ := some "GSERVER"
  fromPublicKey address := some address
  challengeXdr _ _ value _ := String.ofList (toHex value)
  fromXdr text := some (.plain text.toUTF8 "GSERVER" [some "GHOLDER"] ["signature".toUTF8])
  verify _ _ _ := some true
  accessToken address _ := address
  refreshToken address _ := address
  accessTokenExpiry := "15m"
  refreshTokenExpiry := "7d"

/-- The sample's environment tells values apart. -/
theorem sampleEnv_tellsValues : sampleEnv.TellsValues := by
  intro _ _ _ _ value value' _ _ h
  exact toHex_inj.mp (String.ofList_injective h)

def sampleRandom : BytesN 32 := ⟨List.replicate 32 5, rfl⟩

def sampleDto : VerifySignatureDto :=
  ⟨"GHOLDER", nonceText sampleRandom, nonceText sampleRandom⟩

/-- One challenge, and two logins with it. -/
def twoLogins : List AuthAction := [
  .start 0 (.generateChallenge "GHOLDER" sampleRandom), .resume 0 none, .resume 0 none,
  .start 1 (.verifySignature sampleDto), .start 2 (.verifySignature sampleDto),
  .resume 1 none, .resume 2 none, .outside 300000, .resume 1 none, .resume 1 (some "verified")]

example : ((program sampleEnv).run ⟨∅, 1000⟩ twoLogins).tasks.get 1 =
    some (.loggedIn sampleDto
      ⟨nonceText sampleRandom, nonceText sampleRandom, "GHOLDER", 1000, "ecomint.io"⟩
      (tokens sampleEnv "GHOLDER" "verified")) := by
  decide +kernel

/-- Two logins with one challenge. -/
theorem login_once_per_challenge_sample :
    (∀ id id' dto dto' stored stored' response response',
      ((program sampleEnv).run ⟨∅, 1000⟩ twoLogins).tasks.get id =
        some (.loggedIn dto stored response) →
      ((program sampleEnv).run ⟨∅, 1000⟩ twoLogins).tasks.get id' =
        some (.loggedIn dto' stored' response') →
      dto.originalChallenge = dto'.originalChallenge → id = id') ∧
    ∀ id dto stored response,
      ((program sampleEnv).run ⟨∅, 1000⟩ twoLogins).tasks.get id =
        some (.loggedIn dto stored response) →
      Granted sampleEnv ((program sampleEnv).log ⟨∅, 1000⟩ twoLogins) id dto stored :=
  login_once_per_challenge sampleEnv sampleEnv_tellsValues 1000 twoLogins (by decide +kernel)

end EcoMint.Auth
