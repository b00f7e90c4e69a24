import EcoMint.AdminIntents
import EcoMint.Base64
import EcoMint.JsonParse

/-!
# The admin console and the guard

The console in the browser signs a line of five fields, writes the intent with the
signature in Base64 as JSON into a header, and sends it along with the request.
The guard of the API parses the header, takes the target of the action from the
route, puts the line together anew and asks whether the key in its own
configuration signed it.

Two programs in two places have to write the same line.  They do for every action
that the console offers: a request that arrives in time is accepted, once, whatever
anyone else sends before or after, copies of it included.
-/

namespace EcoMint.AdminIntents

open Binary64 Delimited Storage

/-- The keys of the Stellar library: the public key of a secret, and signatures. -/
structure Ed25519 where
  publicKey : String → String
  sign : String → ByteArray → List UInt8
  verify : String → ByteArray → List UInt8 → Bool

/-! ## The console -/

/-- What the console has: the unlocked secret, and the network in its
configuration. -/
structure Console where
  secret : Option String
  networkPassphrase : String

/-- An intent with its signature, as the console sends it. -/
structure SignedAdminIntent extends IntentTexts where
  signature : String

/-- `AdminSecretMissingError` -/
def secretMissing (action : String) : String :=
  "\"" ++ action ++ "\" requires a signed admin intent. Unlock the admin session with your " ++
    "Stellar secret key and try again."

/-- `build`, with the nonce that is drawn -/
def Console.build (console : Console) (action target : String) (now : Nat) (nonce : String) :
    IntentTexts where
  action := action
  target := target
  chain := console.networkPassphrase
  expiry := Number.ofRat (now + 5 * 60 * 1000 : Nat)
  nonce := nonce

/-- `sign` -/
def Console.sign (ed : Ed25519) (console : Console) (payload : IntentTexts) :
    Except String SignedAdminIntent :=
  match console.secret.filter (· ≠ "") with
  | none => .error (secretMissing payload.action)
  | some secret =>
      let signature := String.ofList (Base64.encode (ed.sign secret (canonical payload)))
      .ok ⟨payload, signature⟩

/-- A number as JSON: its text, and `null` for one that is not finite. -/
def numberJson (n : Number) : Json := (Json.numberText n.text).elim .null .num

/-- The signed intent as JSON. -/
def SignedAdminIntent.toJson (intent : SignedAdminIntent) : Json :=
  .obj [("action", .str intent.action), ("target", .str intent.target),
    ("chain", .str intent.chain), ("expiry", numberJson intent.expiry), ("nonce", .str intent.nonce),
    ("signature", .str intent.signature)]

/-- A request to a route of the API: the parameters of its path, the header
`x-admin-intent`, and the body. -/
structure AdminRequest where
  params : List (String × String)
  intentHeader : Option String
  body : Json

/-- `adminIntentHeader` -/
def Console.adminIntentHeader (ed : Ed25519) (console : Console) (action target : String)
    (now : Nat) (nonce : String) : Except String String :=
  (console.sign ed (console.build action target now nonce)).map fun intent =>
    Json.stringify intent.toJson

/-- A request about the bond or project in its path. -/
def Console.request (ed : Ed25519) (console : Console) (action : String) (id : Nat) (body : Json)
    (now : Nat) (nonce : String) : Except String AdminRequest :=
  (console.adminIntentHeader ed action (toString id) now nonce).map fun header =>
    ⟨[("id", toString id)], some header, body⟩

/-! ## The guard -/

/-- The keys and the configuration of the API; `Buffer.from` of a signature that is
no string is given. -/
def intentEnv (ed : Ed25519) (bufferOf : Json → Option (List UInt8))
    (adminPublicKey : Option String) : IntentEnv where
  adminPublicKey := adminPublicKey
  verifies key message signature :=
    let bytes := match signature with
      | .str text => some (Base64.decode text.toList)
      | other => bufferOf other
    (bytes.map (ed.verify key message)).getD false

/-- What a route asks of an intent. -/
structure RequireIntentMeta where
  action : String
  targetKey : String
  fixedTarget : Option String

/-- `@RequireIntent(action)` -/
def RequireIntent (action : String) : RequireIntentMeta := ⟨action, "id", none⟩

/-- `extractIntent` -/
def extractIntent (request : AdminRequest) : Except IntentError (Option Json) :=
  match request.intentHeader.filter (· ≠ "") with
  | some header =>
      match Json.parse header.toList with
      | some raw => .ok (some raw)
      | none => .error (.unauthorized "Admin intent header is not valid JSON")
  | none => .ok ((field request.body "adminIntent").filter isTruthy)

/-- The target of the route; `String` of it may throw. -/
def routeTarget (route : RequireIntentMeta) (request : AdminRequest) : Option String :=
  match route.fixedTarget, request.params.lookup route.targetKey with
  | some target, _ => some target
  | none, some target => some target
  | none, none =>
      match (field request.body route.targetKey).filter fun target => !isNull target with
      | some target => toText target
      | none => some "global"

/-- `IntentGuard.canActivate`, up to the call of `verify`. -/
def canActivate (route : RequireIntentMeta) (request : AdminRequest) (clock : Readings) :
    Except IntentError VerifyCall := do
  let raw ← extractIntent request
  match routeTarget route request with
  | some target => .ok ⟨raw, route.action, target, clock⟩
  | none => .error .typeError

/-! ## The actions -/

/-- An action of the console, and the route of the API that it goes to. -/
structure AdminAction where
  send : Ed25519 → Console → Nat → Nat → String → Except String AdminRequest
  route : RequireIntentMeta

/-- The sweep of what a bond has left over. -/
def sweepUndistributed : AdminAction where
  send ed console id := console.request ed "sweep_undistributed" id (.obj [])
  route := RequireIntent "sweep_undistributed"

/-- The payment of a period. -/
def distributeCoupon (periodIndex : Nat) : AdminAction where
  send ed console id :=
    console.request ed "distribute_coupon" id (.obj [("periodIndex", natJson periodIndex)])
  route := RequireIntent "distribute_coupon"

/-- The maturity of a bond. -/
def mature : AdminAction where
  send ed console id := console.request ed "mature_bond" id (.obj [])
  route := RequireIntent "mature_bond"

/-- The reconciliation of a bond's holders. -/
def reconcileHolders : AdminAction where
  send ed console id := console.request ed "reconcile_holders" id (.obj [])
  route := RequireIntent "reconcile_holders"

/-- The approval of a project. -/
def approveProject : AdminAction where
  send ed console id := console.request ed "approve_project" id (.obj [])
  route := RequireIntent "approve_project"

/-- The rejection of a project. -/
def rejectProject : AdminAction where
  send ed console id := console.request ed "reject_project" id (.obj [])
  route := RequireIntent "reject_project"

/-- The actions that the console offers. -/
def adminActions (periodIndex : Nat) : List AdminAction := [sweepUndistributed,
  distributeCoupon periodIndex, mature, reconcileHolders, approveProject, rejectProject]

/-- What the six have in common. -/
def AdminAction.Agrees (a : AdminAction) : Prop :=
  ∃ action body, a.route = RequireIntent action ∧ action ≠ "" ∧ '|' ∉ action.toList ∧
    ∀ ed console id now nonce, a.send ed console id now nonce =
      console.request ed action id body now nonce

/-- Each action is sent to the route that expects it. -/
theorem adminAction_agrees {periodIndex : Nat} {a : AdminAction}
    (ha : a ∈ adminActions periodIndex) : a.Agrees := by
  simp only [adminActions, List.mem_cons, List.not_mem_nil, or_false] at ha
  rcases ha with rfl | rfl | rfl | rfl | rfl | rfl
  all_goals exact ⟨_, _, rfl, by decide, by decide, fun _ _ _ _ _ => rfl⟩

/-! ## One line in two places -/

/-- A whole number is written with all its digits, and read as what it is. -/
theorem numberJson_natCast {n : Nat} (h : n < 2 ^ 53) :
    numberJson (Number.ofRat n) = .num (Json.ofNat n) := by
  have htext : Json.numberText (Nat.toDigits 10 n) = some (Json.ofNat n) :=
    dif_pos ⟨(Json.ofNat n).grammar, List.all_eq_true.mpr (Json.ofNat n).made⟩
  rw [numberJson, Number.text_ofRat_natCast h, htext]
  rfl

/-- A natural number is read as itself. -/
theorem read_ofNat (n : Nat) : Number.read (Json.ofNat n).text = Number.ofRat n := by
  rw [Json.ofNat, Number.read, DecimalText.value_toDigits]

/-- There is no bar in a number. -/
theorem bar_notMem_toString (id : Nat) : '|' ∉ (toString id).toList := by
  rw [Nat.toString_eq_ofList_toDigits, String.toList_ofList]
  intro h
  exact absurd (Nat.isDigit_of_mem_toDigits (by decide) (by decide) h) (by decide)

/-- A deployment: the console is unlocked with the secret of the key that the API
has, for a network whose name is one field. -/
structure Console.Unlocked (console : Console) (ed : Ed25519) (adminPublicKey : Option String)
    (secret : String) : Prop where
  secret_eq : console.secret = some secret
  secret_ne : secret ≠ ""
  admin_eq : adminPublicKey = some (ed.publicKey secret)
  admin_ne : ed.publicKey secret ≠ ""
  chain_ne : console.networkPassphrase ≠ ""
  chain_plain : '|' ∉ console.networkPassphrase.toList

/-- The intent that arrives. -/
def Console.intent (console : Console) (ed : Ed25519) (secret action target : String) (now : Nat)
    (nonce : String) : SignedAdminIntent where
  toIntentTexts := console.build action target now nonce
  signature := String.ofList
    (Base64.encode (ed.sign secret (canonical (console.build action target now nonce))))

/-- What an unlocked console sends. -/
theorem Console.Unlocked.request {console : Console} {ed : Ed25519}
    {adminPublicKey : Option String} {secret : String}
    (h : console.Unlocked ed adminPublicKey secret) (action : String) (id : Nat) (body : Json)
    (now : Nat) (nonce : String) : console.request ed action id body now nonce =
      .ok ⟨[("id", toString id)], some
        (Json.stringify (console.intent ed secret action (toString id) now nonce).toJson), body⟩ := by
  have hsecret : console.secret.filter (· ≠ "") = some secret := by
    rw [h.secret_eq]
    simp [Option.filter, h.secret_ne]
  simp only [Console.request, Console.adminIntentHeader, Console.sign, hsecret]
  rfl

/-- The guard finds the intent in the header, and the target in the route. -/
theorem canActivate_of_sent (intent : SignedAdminIntent) (action : String) (id : Nat) (body : Json)
    (clock : Readings) :
    canActivate (RequireIntent action)
        ⟨[("id", toString id)], some (Json.stringify intent.toJson), body⟩ clock =
      .ok ⟨some intent.toJson, action, toString id, clock⟩ := by
  have hparse : Json.parse (Json.stringify intent.toJson).toList = some intent.toJson := by
    rw [Json.stringify, String.toList_ofList, Json.parse_write]
  have hne : Json.stringify intent.toJson ≠ "" := by
    intro h
    rw [h] at hparse
    cases hparse
  simp only [canActivate, extractIntent, Option.filter, hne, ne_eq, not_false_eq_true, decide_true,
    if_true, hparse, routeTarget, RequireIntent, List.lookup_cons, beq_self_eq_true]
  rfl

/-- A signature has 64 bytes, and the public key verifies it. -/
structure Ed25519.Lawful (ed : Ed25519) : Prop where
  length_sign : ∀ secret message, (ed.sign secret message).length = 64
  verify_sign : ∀ secret message,
    ed.verify (ed.publicKey secret) message (ed.sign secret message) = true

/-- A signature is not empty. -/
theorem Ed25519.Lawful.signature_ne {ed : Ed25519} (hed : ed.Lawful) (secret : String)
    (message : ByteArray) : String.ofList (Base64.encode (ed.sign secret message)) ≠ "" := by
  intro h
  have hchars := congrArg String.toList h
  rw [String.toList_ofList] at hchars
  have hbytes := Base64.decode_encode (ed.sign secret message)
  rw [hchars] at hbytes
  have hlength := hed.length_sign secret message
  rw [← hbytes] at hlength
  cases hlength

/-- An intent that was sent is read back as it was. -/
theorem read_of_sent (intent : SignedAdminIntent) {n : Nat} (hn : n < 2 ^ 53)
    (hexpiry : intent.expiry = Number.ofRat n) (haction : intent.action ≠ "")
    (hchain : intent.chain ≠ "") (hnonce : intent.nonce ≠ "") (hsignature : intent.signature ≠ "") :
    RawIntent.read intent.toJson = some ⟨.str intent.action, .str intent.target,
      .str intent.chain, .num (Json.ofNat n), .str intent.nonce, .str intent.signature⟩ := by
  simp [RawIntent.read, SignedAdminIntent.toJson, field, List.lookup, Option.filter, isTruthy,
    truthy, isNull, hexpiry, numberJson_natCast hn, haction, hchain, hnonce, hsignature]

/-- The checks of `verify`, one after the other. -/
theorem check_of_read {env : IntentEnv} {call : VerifyCall} {json : Json} {raw : RawIntent}
    {key : String} {token : NumberText} {expiry : Number} {texts : IntentTexts}
    (hraw : call.raw.filter isObject = some json) (hread : RawIntent.read json = some raw)
    (haction : isText call.expectedAction raw.action = true)
    (htarget : toText raw.target = some call.expectedTarget) (htoken : raw.expiry = .num token)
    (hexpiry : Number.read token.text = expiry) (hvalid : ¬ expiry.less call.clock.checked = true)
    (hkey : env.adminPublicKey.filter (· ≠ "") = some key)
    (htexts : (AdminIntent.mk call.expectedAction call.expectedTarget raw.chain expiry raw.nonce
      raw.signature).texts = some texts)
    (hverifies : env.verifies key (canonical texts) raw.signature = true) :
    check env call = .ok (⟨call.expectedAction, call.expectedTarget, raw.chain, expiry, raw.nonce,
      raw.signature⟩, texts) := by
  unfold check
  rw [hraw]
  dsimp only
  rw [hread]
  dsimp only
  rw [haction, htarget, htoken]
  dsimp only
  rw [hexpiry]
  simp only [Bool.not_true, Bool.false_eq_true, if_false, ne_eq, not_true_eq_false, hvalid, hkey,
    htexts, hverifies, if_true]

/-- The intent of the console passes the checks. -/
theorem check_of_sent {ed : Ed25519} (hed : ed.Lawful) (bufferOf : Json → Option (List UInt8))
    {adminPublicKey : Option String} {secret : String} {console : Console}
    (h : console.Unlocked ed adminPublicKey secret) {action target nonce : String}
    (haction : action ≠ "") (hnonce : nonce ≠ "") {now : Nat} {clock : Readings}
    (htime : clock.checked ≤ now + 5 * 60 * 1000) (hnow : now ≤ 8640000000000000) :
    ∃ intent, intent.texts = some (console.build action target now nonce) ∧
      check (intentEnv ed bufferOf adminPublicKey)
        ⟨some (console.intent ed secret action target now nonce).toJson, action, target, clock⟩ =
          .ok (intent, console.build action target now nonce) := by
  have hsmall : now + 5 * 60 * 1000 < 2 ^ 53 := by omega
  have hread := read_of_sent (console.intent ed secret action target now nonce) hsmall rfl haction
    h.chain_ne hnonce (hed.signature_ne secret _)
  have hkey : adminPublicKey.filter (· ≠ "") = some (ed.publicKey secret) := by
    rw [h.admin_eq]
    simp [Option.filter, h.admin_ne]
  have hvalid : ¬ (console.build action target now nonce).expiry.less clock.checked = true := by
    rw [Console.build, Number.ofRat_natCast hsmall, Number.less, decide_eq_true_eq, not_lt]
    exact_mod_cast htime
  have hverifies : (intentEnv ed bufferOf adminPublicKey).verifies (ed.publicKey secret)
      (canonical (console.build action target now nonce))
      (.str (console.intent ed secret action target now nonce).signature) = true := by
    simp only [intentEnv, Console.intent, String.toList_ofList, Base64.decode_encode,
      Option.map_some, Option.getD_some]
    exact hed.verify_sign secret _
  exact ⟨_, rfl, check_of_read rfl hread (beq_self_eq_true action) rfl rfl (read_ofNat _) hvalid hkey rfl
    hverifies⟩

/-! ## Whole runs -/

/-- Behind each reservation stands an accepted intent with its nonce. -/
def ReservedByLog (reservations : Reservations) (log : List IntentEvent) : Prop :=
  ∀ key last, reservations.get key = some last → ∃ e ∈ log, ∃ texts,
    e.output.texts = some texts ∧ key = reservationKey texts.nonce

/-- What is reserved is what was accepted. -/
theorem reservedByLog_run (env : IntentEnv) (calls : List VerifyCall) :
    ReservedByLog ((service env).run ∅ calls) ((service env).log ∅ calls) := by
  refine (service env).invariant (P := ReservedByLog) (fun _ _ hget => by simp at hget) ?_ calls
  intro log e hfires ih key last hget
  obtain ⟨texts, _, _, htexts, -, -, -, hreserved⟩ := verify_ok hfires
  rw [(setNx_eq_some hreserved).2, get_set] at hget
  split at hget
  · next hkey => exact ⟨e, by simp, texts, htexts, hkey⟩
  · obtain ⟨earlier, hmem, hrest⟩ := ih key last hget
    exact ⟨earlier, List.mem_append_left _ hmem, hrest⟩

theorem accepted_le_append (message : ByteArray) (log later : List IntentEvent) :
    accepted message log ≤ accepted message (log ++ later) := by
  unfold accepted
  rw [List.countP_append]
  exact Nat.le_add_right _ _

/-- A call that passes the check and reserves its nonce is accepted. -/
theorem verify_of_check {env : IntentEnv} {reservations after : Reservations} {call : VerifyCall}
    {intent : AdminIntent} {texts : IntentTexts} (hcheck : check env call = .ok (intent, texts))
    (hset : reserve reservations texts call.clock = some after) :
    verify env reservations call = .ok (intent, after) := by
  unfold verify
  rw [hcheck]
  dsimp only
  rw [hset]

/-- A free nonce can be reserved, at any time that a date can be. -/
theorem setNx_of_free {reservations : Reservations} {key : String} {expiry : Nat}
    (clock : Readings) (hfree : reservations.get key = none)
    (hexpiry : expiry ≤ 9000000000000000) (hclock : clock.stored ≤ 9000000000000000) :
    ∃ after, setNx reservations key (ttl expiry clock.computed) clock.stored = some after := by
  have hceil : ⌈((expiry : ℚ) - clock.computed) / 1000⌉ ≤ (9000000000000 : Int) := by
    rw [Int.ceil_le, div_le_iff₀ (by norm_num)]
    have hcast : (expiry : ℚ) ≤ 9000000000000000 := by exact_mod_cast hexpiry
    have hpos : (0 : ℚ) ≤ clock.computed := Nat.cast_nonneg _
    push_cast
    linarith
  have httl : ttl expiry clock.computed ≤ 9000000000300 := by
    unfold ttl
    omega
  have hlimit : ¬ (clock.stored : Int) + ttl expiry clock.computed * 1000 > MAX_TIME := by
    unfold MAX_TIME
    omega
  unfold setNx
  rw [if_neg hlimit, hfree]
  exact ⟨_, rfl⟩

/-- The line of the console can be read in one way only. -/
theorem build_separated {console : Console} {ed : Ed25519} {adminPublicKey : Option String}
    {secret : String} (h : console.Unlocked ed adminPublicKey secret) {action nonce : String}
    (haction : '|' ∉ action.toList) (hnonce : '|' ∉ nonce.toList) (id now : Nat) :
    (console.build action (toString id) now nonce).Separated where
  action := haction
  target := bar_notMem_toString id
  chain := h.chain_plain
  nonce p hp := by
    have hparts : parts '|' nonce.toList = [nonce.toList] := by
      rw [parts, List.splitOn_eq_singleton hnonce]
    change p ∈ (parts '|' nonce.toList).dropLast at hp
    rw [hparts] at hp
    cases hp

/-- The request of the console is accepted, if its intent was not before. -/
theorem accepted_of_sent {ed : Ed25519} (hed : ed.Lawful) (bufferOf : Json → Option (List UInt8))
    {adminPublicKey : Option String} {secret : String} {console : Console}
    (h : console.Unlocked ed adminPublicKey secret) {action target nonce : String}
    (haction : action ≠ "") (hnonce : nonce ≠ "") {now : Nat} {clock : Readings}
    (htime : clock.checked ≤ now + 5 * 60 * 1000) (hnow : now ≤ 8640000000000000)
    (hclock : clock.stored ≤ 8640000000000000) {before : List VerifyCall}
    (hfresh : ∀ e ∈ (service (intentEnv ed bufferOf adminPublicKey)).log ∅ before, ∀ texts,
      e.output.texts = some texts → texts.nonce = nonce →
        texts = console.build action target now nonce) :
    1 ≤ accepted (canonical (console.build action target now nonce))
      ((service (intentEnv ed bufferOf adminPublicKey)).log ∅ (before ++
        [⟨some (console.intent ed secret action target now nonce).toJson, action, target, clock⟩])) := by
  let env := intentEnv ed bufferOf adminPublicKey
  let call : VerifyCall :=
    ⟨some (console.intent ed secret action target now nonce).toJson, action, target, clock⟩
  obtain ⟨intent, htexts, hcheck⟩ : ∃ intent, intent.texts = some (console.build action target now
      nonce) ∧ check env call = .ok (intent, console.build action target now nonce) :=
    check_of_sent hed bufferOf h haction hnonce htime hnow
  rw [Machine.log_append]
  by_cases hearlier : accepted (canonical (console.build action target now nonce))
      ((service env).log ∅ before) = 0
  · -- its nonce is free: whoever had reserved it would have used this intent
    have hfree : ((service env).run ∅ before).get (reservationKey nonce) = none := by
      rw [Option.eq_none_iff_forall_ne_some]
      intro last hget
      obtain ⟨e, hmem, texts, hetexts, hkey⟩ := reservedByLog_run env before _ _ hget
      have hsame : texts.nonce = nonce := by
        simpa [reservationKey] using hkey.symm
      have hmessage : e.output.message =
          some (canonical (console.build action target now nonce)) := by
        rw [AdminIntent.message, hetexts, Option.map_some, hfresh e hmem texts hetexts hsame]
      rw [accepted, List.countP_eq_zero] at hearlier
      exact hearlier e hmem (decide_eq_true hmessage)
    have hsmall : now + 5 * 60 * 1000 < 2 ^ 53 := by omega
    obtain ⟨after, hset⟩ := setNx_of_free clock hfree
      (show now + 5 * 60 * 1000 ≤ 9000000000000000 by omega) (by omega)
    have hafter : reserve ((service env).run ∅ before) (console.build action target now nonce)
        clock = some after := by
      rw [reserve, Console.build, Number.ofRat_natCast hsmall]
      exact hset
    have hcall : verify env ((service env).run ∅ before) call = .ok (intent, after) :=
      verify_of_check hcheck hafter
    have hlog : (service env).log ((service env).run ∅ before) [call] =
        [⟨(service env).run ∅ before, call, intent, after⟩] := by
      have hfires : (service env).call ((service env).run ∅ before) call = .ok (intent, after) :=
        hcall
      rw [Machine.log, hfires]
      rfl
    have hmessage : intent.message =
        some (canonical (console.build action target now nonce)) := by
      rw [AdminIntent.message, htexts, Option.map_some]
    rw [hlog, accepted_snoc]
    dsimp only
    rw [if_pos hmessage]
    omega
  · exact Nat.le_trans (Nat.one_le_iff_ne_zero.mpr hearlier) (accepted_le_append _ _ _)

/-- Signatures that begin with the key and go on with the message. -/
def sampleSignature (key : String) (message : ByteArray) : List UInt8 :=
  ((key.toUTF8 ++ message).toList ++ List.replicate 64 0).take 64

def sampleEd : Ed25519 where
  publicKey secret := "G" ++ secret
  sign secret := sampleSignature ("G" ++ secret)
  verify key message signature := signature = sampleSignature key message

/-- They are lawful. -/
theorem sampleEd_lawful : sampleEd.Lawful where
  length_sign secret message := by simp [sampleEd, sampleSignature]
  verify_sign secret message := by simp [sampleEd]

def sampleConsole : Console := ⟨some "SADMIN", "Test SDF Network ; September 2015"⟩

/-- It is unlocked. -/
theorem sampleConsole_unlocked : sampleConsole.Unlocked sampleEd (some "GSADMIN") "SADMIN" := by
  constructor <;> decide

def sampleClock : Readings := ⟨1000, 1000, 1001, by decide, by decide, by decide⟩

end EcoMint.AdminIntents
