import EcoMint.AuthChallenges
import EcoMint.JsonParse

/-!
# Sessions after a login

A login answers with an access token and a refresh token.  Whoever brings an
access token is taken for the address in it, and whoever brings a refresh token
gets a new access token with the same address and KYC status; nothing is looked
up, so a session lives until its last token runs out.

What a refresh gives does not refresh again: it has no `tokenType`, even where
both kinds are signed with one secret.  So whatever interleaves, behind each
accepted request stands a login of its address, with a challenge that this address
signed, and no longer ago than the two lifetimes together.
-/

namespace EcoMint.Auth

open Storage

/-- What is in a token; the times are in seconds. -/
structure Claims where
  sub : String
  kycStatus : String
  tokenType : Option String := none
  exp : Nat
deriving DecidableEq, Repr

/-- The token library.  `verify` finds the claims under a good signature and does
not look at the time. -/
structure JwtLibrary where
  sign : String → Claims → String
  verify : String → String → Option Claims

/-- A token is good for the secret it was signed with, and for no other. -/
structure JwtLibrary.Lawful (jwt : JwtLibrary) : Prop where
  verify_sign : ∀ secret claims, jwt.verify secret (jwt.sign secret claims) = some claims
  verify_other : ∀ secret secret' claims, secret ≠ secret' →
    jwt.verify secret (jwt.sign secret' claims) = none

/-- What the service is configured with; the lifetimes are in seconds. -/
structure JwtConfig where
  jwtSecret : String
  jwtRefreshSecret : String
  jwtExpiry : Nat
  jwtRefreshExpiry : Nat

/-- `request.user` -/
structure AuthenticatedUser where
  walletAddress : String
  kycStatus : String
deriving DecidableEq, Repr

/-! ## Signing and checking -/

/-- `jwtService.sign({ sub, kycStatus })` at a time in milliseconds -/
def JwtConfig.accessClaims (config : JwtConfig) (now : Nat) (sub kycStatus : String) : Claims where
  sub := sub
  kycStatus := kycStatus
  exp := now / 1000 + config.jwtExpiry

/-- `{ ...payload, tokenType: 'refresh' }` -/
def JwtConfig.refreshClaims (config : JwtConfig) (now : Nat) (sub kycStatus : String) :
    Claims where
  sub := sub
  kycStatus := kycStatus
  tokenType := some "refresh"
  exp := now / 1000 + config.jwtRefreshExpiry

/-- The environment of a login at `now`: its tokens are signed then. -/
def AuthEnv.signing (env : AuthEnv) (jwt : JwtLibrary) (config : JwtConfig) (now : Nat) :
    AuthEnv :=
  { env with
    accessToken := fun sub kycStatus =>
      jwt.sign config.jwtSecret (config.accessClaims now sub kycStatus)
    refreshToken := fun sub kycStatus =>
      jwt.sign config.jwtRefreshSecret (config.refreshClaims now sub kycStatus) }

/-- `jwtService.verify(token, { secret })`: the signature, then the time. -/
def JwtLibrary.check (jwt : JwtLibrary) (secret token : String) (now : Nat) : Option Claims :=
  (jwt.verify secret token).filter fun claims => now / 1000 < claims.exp

/-- `AuthService.refreshToken`: the new access token. -/
def refreshToken (jwt : JwtLibrary) (config : JwtConfig) (now : Nat) (token : String) :
    Except AuthError String :=
  match jwt.check config.jwtRefreshSecret token now with
  | some payload =>
      if payload.tokenType = some "refresh" then
        .ok (jwt.sign config.jwtSecret (config.accessClaims now payload.sub payload.kycStatus))
      else .error (.unauthorized "Invalid or expired token")
  | none => .error (.unauthorized "Invalid or expired token")

/-- `JwtAuthGuard` with `JwtStrategy.validate`. -/
def jwtAuthGuard (jwt : JwtLibrary) (config : JwtConfig) (now : Nat) (token : String) :
    Except AuthError AuthenticatedUser :=
  match jwt.check config.jwtSecret token now with
  | some payload => .ok ⟨payload.sub, payload.kycStatus⟩
  | none => .error (.unauthorized "Invalid or expired token")

/-! ## Sessions -/

/-- The calls of the login service, with Redis and the clock, and every token that
the service has given out. -/
structure SessionState where
  pool : AuthPool
  signed : List String

/-- The time by the clock of the API. -/
def SessionState.now (s : SessionState) : Nat := s.pool.shared.now

/-- What may happen to the sessions. -/
inductive SessionAction
  /-- a step of a login, or time passes -/
  | auth (action : AuthAction)
  /-- `POST auth/refresh` -/
  | refreshToken (token : String)
  /-- a request with a bearer token -/
  | request (token : String)

/-- What the caller gets. -/
inductive SessionOutput
  | stepped
  | refreshed (accessToken : String)
  | user (user : AuthenticatedUser)
deriving DecidableEq, Repr

/-- A step of the sessions as it was made. -/
abbrev SessionEvent := Event SessionState SessionAction SessionOutput

/-- The tokens that a step of a login returns. -/
def returned (pool : AuthPool) : AuthAction → List String
  | .resume id _ =>
      match pool.tasks.get id with
      | some (.loggedIn _ _ response) => [response.accessToken, response.refreshToken]
      | _ => []
  | .start _ _ | .outside _ => []

section

variable (jwt : JwtLibrary) (config : JwtConfig) (env : AuthEnv)

/-- Nobody but the service can sign: a token that anyone brings was given out, or
neither secret is good for it. -/
def SessionState.Presentable (s : SessionState) (token : String) : Prop :=
  token ∈ s.signed ∨
    jwt.verify config.jwtSecret token = none ∧ jwt.verify config.jwtRefreshSecret token = none

instance (s : SessionState) (token : String) : Decidable (s.Presentable jwt config token) :=
  inferInstanceAs (Decidable (_ ∨ _))

/-- A step that does not apply has no error. -/
def sessionCall (s : SessionState) :
    SessionAction → Except (Option AuthError) (SessionOutput × SessionState)
  | .auth action =>
      match (program (env.signing jwt config s.now)).call s.pool action with
      | .ok (_, pool) => .ok (.stepped, ⟨pool, s.signed ++ returned pool action⟩)
      | .error _ => .error none
  | .refreshToken token =>
      if s.Presentable jwt config token then
        match refreshToken jwt config s.now token with
        | .ok accessToken =>
            .ok (.refreshed accessToken, { s with signed := s.signed ++ [accessToken] })
        | .error error => .error (some error)
      else .error none
  | .request token =>
      if s.Presentable jwt config token then
        match jwtAuthGuard jwt config s.now token with
        | .ok user => .ok (.user user, s)
        | .error error => .error (some error)
      else .error none

/-- The service and everyone who uses it. -/
def sessions : Machine SessionState SessionAction SessionOutput (Option AuthError) :=
  ⟨sessionCall jwt config env⟩

end

/-- Nobody has asked for anything yet. -/
def noSessions (now : Nat) : SessionState := ⟨Pool.initial ⟨∅, now⟩, []⟩

/-! ## The login behind a token -/

/-- The step of the login service in a step of the whole. -/
def authEvent (e : SessionEvent) : Option AuthEvent :=
  match e.input with
  | .auth action => some ⟨e.before.pool, action, (), e.after.pool⟩
  | .refreshToken _ | .request _ => none

/-- At `time` a login of the address was answered, with this KYC status; its
challenge had been signed by the address. -/
def LoginAt (env : AuthEnv) (log : List SessionEvent) (address kycStatus : String)
    (time : Nat) : Prop :=
  ∃ before login after id dto stored, log = before ++ login :: after ∧
    login.input = .auth (.resume id (some kycStatus)) ∧
    login.before.pool.tasks.get id = some (.loadingStatus dto stored) ∧
    dto.address = address ∧ login.before.now = time ∧
    Granted env (before.filterMap authEvent) id dto stored

theorem LoginAt.snoc {env : AuthEnv} {log : List SessionEvent} {address kycStatus : String}
    {time : Nat} (h : LoginAt env log address kycStatus time) (e : SessionEvent) :
    LoginAt env (log ++ [e]) address kycStatus time := by
  obtain ⟨before, login, after, id, dto, stored, rfl, hrest⟩ := h
  exact ⟨before, login, after ++ [e], id, dto, stored, by simp, hrest⟩

/-- A token that a login stands behind: one of the two kinds, and what is left of
its time. -/
inductive SignedFor (jwt : JwtLibrary) (config : JwtConfig) (env : AuthEnv)
    (log : List SessionEvent) (token : String) : Prop
  | access (claims : Claims) (time : Nat)
      (htoken : token = jwt.sign config.jwtSecret claims) (htype : claims.tokenType = none)
      (hlogin : LoginAt env log claims.sub claims.kycStatus time)
      (hexp : claims.exp ≤ time / 1000 + config.jwtRefreshExpiry + config.jwtExpiry)
  | refresh (claims : Claims) (time : Nat)
      (htoken : token = jwt.sign config.jwtRefreshSecret claims)
      (hlogin : LoginAt env log claims.sub claims.kycStatus time)
      (hexp : claims.exp ≤ time / 1000 + config.jwtRefreshExpiry)

section

variable {jwt : JwtLibrary} {config : JwtConfig} {env : AuthEnv}

theorem SignedFor.snoc {log : List SessionEvent} {token : String}
    (h : SignedFor jwt config env log token) (e : SessionEvent) :
    SignedFor jwt config env (log ++ [e]) token := by
  cases h with
  | access claims time htoken htype hlogin hexp =>
      exact .access claims time htoken htype (hlogin.snoc e) hexp
  | refresh claims time htoken hlogin hexp => exact .refresh claims time htoken (hlogin.snoc e) hexp

theorem check_eq_some {secret token : String} {now : Nat} {claims : Claims}
    (h : jwt.check secret token now = some claims) :
    jwt.verify secret token = some claims ∧ now / 1000 < claims.exp := by
  unfold JwtLibrary.check at h
  rw [Option.filter_eq_some_iff] at h
  simpa using h

/-- What verifies was signed with this secret and these claims. -/
theorem eq_of_verify_sign (hjwt : jwt.Lawful) {secret secret' : String} {claims claims' : Claims}
    (h : jwt.verify secret (jwt.sign secret' claims') = some claims) :
    secret = secret' ∧ claims = claims' := by
  by_cases hsecret : secret = secret'
  · subst hsecret
    rw [hjwt.verify_sign] at h
    exact ⟨rfl, (Option.some.inj h).symm⟩
  · rw [hjwt.verify_other _ _ _ hsecret] at h
    cases h

/-- A token that is good was given out. -/
theorem SessionState.Presentable.mem_signed {s : SessionState} {secret token : String}
    {claims : Claims} (h : s.Presentable jwt config token)
    (hsecret : secret = config.jwtSecret ∨ secret = config.jwtRefreshSecret)
    (hverify : jwt.verify secret token = some claims) : token ∈ s.signed := by
  rcases h with hsigned | ⟨haccess, hrefresh⟩
  · exact hsigned
  · rcases hsecret with rfl | rfl
    · rw [haccess] at hverify
      cases hverify
    · rw [hrefresh] at hverify
      cases hverify

end

/-- What the sessions keep. -/
structure SessionInvariant (jwt : JwtLibrary) (config : JwtConfig) (env : AuthEnv)
    (s : SessionState) (log : List SessionEvent) : Prop where
  auth : AuthInvariant env s.pool (log.filterMap authEvent)
  signed : ∀ token ∈ s.signed, SignedFor jwt config env log token
  responses : ∀ id dto stored response, s.pool.tasks.get id = some (.loggedIn dto stored response) →
    ∃ claims, response.refreshToken = jwt.sign config.jwtRefreshSecret claims

theorem sessionInvariant_initial (jwt : JwtLibrary) (config : JwtConfig) (env : AuthEnv)
    (now : Nat) : SessionInvariant jwt config env (noSessions now) [] where
  auth := AuthInvariant.initial env now
  signed _ h := by simp [noSessions] at h
  responses _ _ _ _ h := by simp [noSessions, Pool.initial] at h

section

variable {jwt : JwtLibrary} {config : JwtConfig} {env : AuthEnv}

/-- When tokens are signed is nothing to the login itself. -/
theorem AuthInvariant.signing {pool : AuthPool} {log : List AuthEvent}
    (h : AuthInvariant env pool log) (now : Nat) :
    AuthInvariant (env.signing jwt config now) pool log := ⟨h.stored, h.calls⟩

/-- The invariant of the logins does not depend on how tokens are made. -/
theorem AuthInvariant.of_signing {pool : AuthPool} {log : List AuthEvent} {now : Nat}
    (h : AuthInvariant (env.signing jwt config now) pool log) : AuthInvariant env pool log :=
  ⟨h.stored, h.calls⟩

/-- A call that is logged in after a step was so before, or was waiting for the KYC
status. -/
theorem loggedIn_cases {pool pool' : AuthPool} {action : AuthAction}
    (hstep : (program env).Step pool pool' action) {id : Nat} {dto : VerifySignatureDto}
    {stored : StoredChallenge} {response : AuthTokenResponse}
    (hget : pool'.tasks.get id = some (.loggedIn dto stored response)) :
    pool.tasks.get id = some (.loggedIn dto stored response) ∨
      ∃ kycStatus, action = .resume id (some kycStatus) ∧
        pool.tasks.get id = some (.loadingStatus dto stored) ∧
        response = tokens env dto.address kycStatus := by
  cases hstep with
  | started id' request hinput hnew hafter =>
      subst hafter
      dsimp only at hget
      rw [get_set] at hget
      split at hget
      · cases request <;> cases hget
      · exact Or.inl hget
  | outside elapsed shared hinput houtside hafter =>
      subst hafter
      exact Or.inl hget
  | resumed id' choice t t' shared hinput hold hresume hafter =>
      subst hafter
      dsimp only at hget
      rw [get_set] at hget
      split at hget
      · next hid =>
          subst hid
          obtain rfl := Option.some.inj hget
          change t.resume env pool.shared choice = some (shared, _) at hresume
          cases t with
          | loadingStatus dto' stored' =>
              cases choice with
              | some kycStatus =>
                  obtain ⟨-, hafter⟩ := Prod.mk.inj (Option.some.inj hresume)
                  cases hafter
                  exact Or.inr ⟨kycStatus, hinput, hold, rfl⟩
              | none => simp [Task.resume] at hresume
          | generating _ _ | taking _ | checking _ _ =>
              simp only [Task.resume] at hresume
              split at hresume <;> simp at hresume
          | setting _ => simp [Task.resume] at hresume
          | issued _ _ | loggedIn _ _ _ | rejected _ => cases hresume
      · exact Or.inl hget

/-- One step of a login. -/
theorem SessionInvariant.auth_step {s : SessionState} {log : List SessionEvent}
    (hs : SessionInvariant jwt config env s log) {action : AuthAction} {pool : AuthPool}
    {out : Unit}
    (hcall : (program (env.signing jwt config s.now)).call s.pool action = .ok (out, pool)) :
    SessionInvariant jwt config env ⟨pool, s.signed ++ returned pool action⟩
      (log ++ [⟨s, .auth action, .stepped, ⟨pool, s.signed ++ returned pool action⟩⟩]) := by
  let event : SessionEvent :=
    ⟨s, .auth action, .stepped, ⟨pool, s.signed ++ returned pool action⟩⟩
  have hstep := (program (env.signing jwt config s.now)).step_of_call hcall
  have hlogs : (log ++ [event]).filterMap authEvent =
      log.filterMap authEvent ++ [⟨s.pool, action, (), pool⟩] := by
    rw [List.filterMap_append]
    rfl
  constructor
  case auth =>
    rw [hlogs]
    exact ((hs.auth.signing s.now).step (e := ⟨s.pool, action, (), pool⟩) hcall).of_signing
  case signed =>
    intro token htoken
    rcases List.mem_append.mp htoken with hold | hnew
    · exact (hs.signed token hold).snoc event
    · cases action with
      | start id request => simp [returned] at hnew
      | outside elapsed => simp [returned] at hnew
      | resume id choice =>
          simp only [returned] at hnew
          split at hnew
          · next dto stored response hget =>
              rcases loggedIn_cases hstep hget with hbefore | ⟨kycStatus, hinput, hbefore, rfl⟩
              · -- a call that was answered takes no step
                simp [TaskProgram.call, program, Task.resume, hbefore] at hcall
              · obtain ⟨-, rfl⟩ := PoolAction.resume.inj hinput
                have hgranted := (hs.auth.calls id _ hbefore).2
                have hlogin : LoginAt env (log ++ [event]) dto.address kycStatus s.now :=
                  ⟨log, event, [], id, dto, stored, rfl, rfl, hbefore, rfl, rfl, hgranted⟩
                rcases List.mem_cons.mp hnew with rfl | hnew
                · refine .access (config.accessClaims s.now dto.address kycStatus) s.now rfl rfl
                    hlogin ?_
                  dsimp only [JwtConfig.accessClaims]
                  omega
                · obtain rfl := List.mem_singleton.mp hnew
                  exact .refresh (config.refreshClaims s.now dto.address kycStatus) s.now rfl
                    hlogin (Nat.le_refl _)
          · simp at hnew
  case responses =>
    intro id dto stored response hget
    rcases loggedIn_cases hstep hget with hbefore | ⟨kycStatus, -, -, rfl⟩
    · exact hs.responses id dto stored response hbefore
    · exact ⟨_, rfl⟩

/-- A step that is none of a login. -/
theorem SessionInvariant.keep {s : SessionState} {log : List SessionEvent}
    (hs : SessionInvariant jwt config env s log) {e : SessionEvent} (hauth : authEvent e = none)
    {signed : List String}
    (hsigned : ∀ token ∈ signed, token ∈ s.signed ∨ SignedFor jwt config env log token) :
    SessionInvariant jwt config env { s with signed } (log ++ [e]) where
  auth := by
    rw [List.filterMap_append, List.filterMap_cons, hauth, List.filterMap_nil, List.append_nil]
    exact hs.auth
  signed token htoken := by
    rcases hsigned token htoken with hold | hnew
    · exact (hs.signed token hold).snoc e
    · exact hnew.snoc e
  responses := hs.responses

/-- A refresh: only a refresh token of a login has the right type. -/
theorem SessionInvariant.refreshed (hjwt : jwt.Lawful) {s : SessionState}
    {log : List SessionEvent} (hs : SessionInvariant jwt config env s log)
    {token accessToken : String} (hpresent : s.Presentable jwt config token)
    (hrefresh : refreshToken jwt config s.now token = .ok accessToken) :
    SignedFor jwt config env log accessToken := by
  unfold Auth.refreshToken at hrefresh
  split at hrefresh
  · next payload hcheck =>
      split at hrefresh
      · next htype =>
          obtain rfl := Except.ok.inj hrefresh
          obtain ⟨hverify, hlive⟩ := check_eq_some hcheck
          cases hs.signed token (hpresent.mem_signed (Or.inr rfl) hverify) with
          | access claims time htoken hnone hlogin hexp =>
              rw [htoken] at hverify
              obtain ⟨-, rfl⟩ := eq_of_verify_sign hjwt hverify
              rw [hnone] at htype
              cases htype
          | refresh claims time htoken hlogin hexp =>
              rw [htoken] at hverify
              obtain ⟨-, rfl⟩ := eq_of_verify_sign hjwt hverify
              refine .access _ time rfl rfl hlogin ?_
              dsimp only [JwtConfig.accessClaims]
              omega
      · cases hrefresh
  · cases hrefresh

/-- **One step** of a login, a refresh or a request. -/
theorem SessionInvariant.step (hjwt : jwt.Lawful) {log : List SessionEvent} {e : SessionEvent}
    (hs : SessionInvariant jwt config env e.before log)
    (hfires : (sessions jwt config env).Fires e) :
    SessionInvariant jwt config env e.after (log ++ [e]) := by
  obtain ⟨s, action, out, s'⟩ := e
  change sessionCall jwt config env s action = .ok (out, s') at hfires
  change SessionInvariant jwt config env s log at hs
  cases action with
  | auth action =>
      simp only [sessionCall] at hfires
      split at hfires
      · next pool hcall =>
          obtain ⟨rfl, rfl⟩ := Prod.mk.inj (Except.ok.inj hfires)
          exact hs.auth_step hcall
      · cases hfires
  | refreshToken token =>
      simp only [sessionCall] at hfires
      split at hfires
      · next hpresent =>
          split at hfires
          · next accessToken hrefresh =>
              obtain ⟨rfl, rfl⟩ := Prod.mk.inj (Except.ok.inj hfires)
              refine hs.keep rfl fun token' hmem => ?_
              rcases List.mem_append.mp hmem with hold | hnew
              · exact Or.inl hold
              · obtain rfl := List.mem_singleton.mp hnew
                exact Or.inr (hs.refreshed hjwt hpresent hrefresh)
          · cases hfires
      · cases hfires
  | request token =>
      simp only [sessionCall] at hfires
      split at hfires
      · split at hfires
        · obtain ⟨rfl, rfl⟩ := Prod.mk.inj (Except.ok.inj hfires)
          exact hs.keep rfl fun _ hmem => Or.inl hmem
        · cases hfires
      · cases hfires

/-- The invariant holds after every run. -/
theorem sessionInvariant_run (hjwt : jwt.Lawful) (config : JwtConfig) (env : AuthEnv) (now : Nat)
    (actions : List SessionAction) :
    SessionInvariant jwt config env ((sessions jwt config env).run (noSessions now) actions)
      ((sessions jwt config env).log (noSessions now) actions) :=
  (sessions jwt config env).invariant (P := SessionInvariant jwt config env)
    (sessionInvariant_initial jwt config env now) (fun _ _ hfires hs => hs.step hjwt hfires) actions

/-! ## Requests -/

/-- What the guard lets through. -/
theorem request_of_fires {e : SessionEvent} (hfires : (sessions jwt config env).Fires e)
    {token : String} (hinput : e.input = .request token) {user : AuthenticatedUser}
    (houtput : e.output = .user user) :
    e.before.Presentable jwt config token ∧ ∃ claims,
      jwt.check config.jwtSecret token e.before.now = some claims ∧
        user = ⟨claims.sub, claims.kycStatus⟩ := by
  obtain ⟨s, action, out, s'⟩ := e
  dsimp only at hinput houtput
  subst hinput houtput
  change sessionCall jwt config env s (.request token) = .ok (.user user, s') at hfires
  simp only [sessionCall] at hfires
  split at hfires
  · next hpresent =>
      split at hfires
      · next found hguard =>
          obtain ⟨huser, -⟩ := Prod.mk.inj (Except.ok.inj hfires)
          obtain rfl := SessionOutput.user.inj huser
          unfold jwtAuthGuard at hguard
          split at hguard
          · next claims hcheck => exact ⟨hpresent, claims, hcheck, (Except.ok.inj hguard).symm⟩
          · cases hguard
      · cases hfires
  · cases hfires

end

/-- **Behind each request a login.**  In every run, whoever brings whatever tokens
in whatever order, the guard lets a request through as an address only if a login of
this address with this KYC status was answered before, with a challenge signed by
the address, less than the two lifetimes together ago; and if the two secrets are
different, it never takes a refresh token for an access token. -/
theorem bearer_from_login (jwt : JwtLibrary) (hjwt : jwt.Lawful) (config : JwtConfig)
    (env : AuthEnv) (now : Nat) (actions : List SessionAction) (before : List SessionEvent)
    (e : SessionEvent)
    (hlogged : before ++ [e] <+: (sessions jwt config env).log (noSessions now) actions)
    (token : String) (hinput : e.input = .request token) (user : AuthenticatedUser)
    (houtput : e.output = .user user) :
    (∃ time, LoginAt env before user.walletAddress user.kycStatus time ∧
      e.before.now / 1000 < time / 1000 + config.jwtRefreshExpiry + config.jwtExpiry) ∧
    (config.jwtSecret ≠ config.jwtRefreshSecret → ∀ id dto stored response,
      e.before.pool.tasks.get id = some (.loggedIn dto stored response) →
        token ≠ response.refreshToken) := by
  obtain ⟨pre, action, -, hfires, hbefore, hlog, -, -⟩ :=
    Machine.exists_call_of_log_prefix (sessions jwt config env) hlogged
  have hs : SessionInvariant jwt config env e.before before :=
    hbefore ▸ hlog ▸ sessionInvariant_run hjwt config env now pre
  obtain ⟨hpresent, claims, hcheck, rfl⟩ := request_of_fires hfires hinput houtput
  obtain ⟨hverify, hlive⟩ := check_eq_some hcheck
  constructor
  · cases hs.signed token (hpresent.mem_signed (Or.inl rfl) hverify) with
    | access claims' time htoken htype hlogin hexp =>
        rw [htoken] at hverify
        obtain ⟨-, rfl⟩ := eq_of_verify_sign hjwt hverify
        exact ⟨time, hlogin, Nat.lt_of_lt_of_le hlive hexp⟩
    | refresh claims' time htoken hlogin hexp =>
        rw [htoken] at hverify
        obtain ⟨-, rfl⟩ := eq_of_verify_sign hjwt hverify
        exact ⟨time, hlogin, by omega⟩
  · intro hsecrets id dto stored response hget htoken
    obtain ⟨claims', hrefresh⟩ := hs.responses id dto stored response hget
    rw [htoken, hrefresh] at hverify
    exact hsecrets (eq_of_verify_sign hjwt hverify).1

/-- A token as the text of a list, with the time in unary. -/
def sampleClaims (secret : String) (claims : Claims) : Json :=
  .arr [.str secret, .str claims.sub, .str claims.kycStatus,
    claims.tokenType.elim .null .str, .arr (List.replicate claims.exp .null)]

def sampleVerify (secret : String) : Json → Option Claims
  | .arr [.str signer, .str sub, .str kycStatus, tokenType, .arr exp] =>
      if signer = secret then
        some ⟨sub, kycStatus, match tokenType with | .str text => some text | _ => none, exp.length⟩
      else none
  | _ => none

def sampleJwt : JwtLibrary where
  sign secret claims := Json.stringify (sampleClaims secret claims)
  verify secret token := (Json.parse token.toList).bind (sampleVerify secret)

/-- A token is read as its claims. -/
theorem sampleJwt_verify (secret secret' : String) (claims : Claims) :
    sampleJwt.verify secret (sampleJwt.sign secret' claims) =
      sampleVerify secret (sampleClaims secret' claims) := by
  simp only [sampleJwt, Json.stringify, String.toList_ofList, Json.parse_write, Option.bind_some]

/-- The sample's tokens are lawful. -/
theorem sampleJwt_lawful : sampleJwt.Lawful where
  verify_sign secret claims := by
    obtain ⟨sub, kycStatus, tokenType, exp⟩ := claims
    rw [sampleJwt_verify]
    cases tokenType <;> simp [sampleVerify, sampleClaims]
  verify_other secret secret' claims hne := by
    rw [sampleJwt_verify]
    simp [sampleVerify, sampleClaims, Ne.symm hne]

def sampleConfig : JwtConfig := ⟨"access", "refresh", 2, 5⟩

/-- The access token that a refresh at `now` gives. -/
def refreshedToken (now : Nat) : String :=
  sampleJwt.sign "access" (sampleConfig.accessClaims now "GHOLDER" "verified")

/-- A login after one second, a refresh after four, and a request after five. -/
def oneSession : List SessionAction := [
  .auth (.start 0 (.generateChallenge "GHOLDER" sampleRandom)), .auth (.resume 0 none),
  .auth (.resume 0 none), .auth (.start 1 (.verifySignature sampleDto)), .auth (.resume 1 none),
  .auth (.resume 1 none), .auth (.resume 1 (some "verified")), .auth (.outside 3000),
  .refreshToken (sampleJwt.sign "refresh" (sampleConfig.refreshClaims 1000 "GHOLDER" "verified")),
  .auth (.outside 1000), .request (refreshedToken 4000)]

/-- The token of a request. -/
def requestToken : SessionAction → Option String
  | .request token => some token
  | .auth _ | .refreshToken _ => none

/-- The last step of the sample is a request with a refreshed token. -/
theorem oneSession_last :
    ((sessions sampleJwt sampleConfig sampleEnv).log (noSessions 1000) oneSession).getLast?.map
      (fun e => (requestToken e.input, e.output, e.before.now)) =
        some (some (refreshedToken 4000), .user ⟨"GHOLDER", "verified"⟩, 5000) := by
  decide +kernel

/-- The bearer of that token has logged in. -/
theorem bearer_from_login_oneSession : ∃ time,
    LoginAt sampleEnv ((sessions sampleJwt sampleConfig sampleEnv).log (noSessions 1000)
      oneSession).dropLast "GHOLDER" "verified" time ∧ 5000 / 1000 < time / 1000 + 5 + 2 := by
  obtain ⟨e, hlast, he⟩ := Option.map_eq_some_iff.mp oneSession_last
  obtain ⟨hinput, houtput, hnow⟩ := Prod.mk.inj he |>.imp id Prod.mk.inj
  have hrequest : e.input = .request (refreshedToken 4000) := by
    unfold requestToken at hinput
    split at hinput
    · next token heq => exact heq.trans (congrArg _ (Option.some.inj hinput))
    · cases hinput
    · cases hinput
  have hlog := List.dropLast_append_getLast? e hlast
  obtain ⟨time, hlogin, htime⟩ := (bearer_from_login sampleJwt sampleJwt_lawful sampleConfig
    sampleEnv 1000 oneSession _ e ⟨[], by rw [hlog, List.append_nil]⟩ _ hrequest _ houtput).1
  exact ⟨time, hlogin, hnow ▸ htime⟩

end EcoMint.Auth
