import EcoMint.Binary64
import EcoMint.Delimited
import EcoMint.Machine
import EcoMint.ProjectExport
import EcoMint.Storage
import Mathlib

/-!
# Signed admin intents

An admin signs one line of text: action, target, chain, expiry and nonce with a
bar between them.  Whoever sends it back says which part is which, and only the
nonce that they name is reserved, for longer than the expiry that they name.

If action, target and chain have no bar, and no part of the nonce that a bar
follows is the text of a number, the line can be read in one way only and is
accepted once.  Otherwise it has a second reading, and that is a second intent under
the same signature.

A number comes as JSON and is printed anew, so the texts that count are those that
numbers are printed as: `7` and `1e+21` and, for `1e999`, `Infinity`, but not `007`.
-/

namespace EcoMint.AdminIntents

open Binary64 Delimited Storage

/-! ## Values as texts -/

/-- The value is `null`. -/
def isNull : Json → Bool
  | .null => true
  | _ => false

mutual

/-- `String(value)`; it throws for an object with a `toString` of its own. -/
def toText : Json → Option String
  | .null => some "null"
  | .bool true => some "true"
  | .bool false => some "false"
  | .num value => some (String.ofList (Number.read value.text).text)
  | .str value => some value
  | .arr [] => some ""
  | .arr (item :: rest) => do
      let text ← if isNull item then some "" else toText item
      let texts ← closeTexts rest
      return text ++ texts
  | .obj fields =>
      match fields.lookup "toString" with
      | some _ => none
      | none => some "[object Object]"

/-- The rest of an array after its first item; nothing stands for `null`. -/
def closeTexts : List Json → Option String
  | [] => some ""
  | item :: rest => do
      let text ← if isNull item then some "" else toText item
      let texts ← closeTexts rest
      return "," ++ text ++ texts

end

/-- `!value` is false; a number is written in any way that JSON allows. -/
def isTruthy : Json → Bool
  | .num value => (Number.read value.text).value? ≠ some 0
  | value => truthy value

/-! ## The service -/

/-- The fields of an intent as they are written into the canonical message. -/
structure IntentTexts where
  action : String
  target : String
  chain : String
  expiry : Number
  nonce : String
deriving DecidableEq

/-- The fields of the canonical line, in order. -/
def IntentTexts.fields (t : IntentTexts) : List (List Char) :=
  [t.action.toList, t.target.toList, t.chain.toList] ++ [t.expiry.text, t.nonce.toList]

/-- The line that is signed, as bytes. -/
def canonical (t : IntentTexts) : ByteArray := (String.ofList (line '|' t.fields)).toUTF8

/-- What `verify` returns. -/
structure AdminIntent where
  action : String
  target : String
  chain : Json
  expiry : Number
  nonce : Json
  signature : Json

/-- The texts of an intent that go into the line; `none` where one cannot be made. -/
def AdminIntent.texts (intent : AdminIntent) : Option IntentTexts := do
  let chain ← toText intent.chain
  let nonce ← toText intent.nonce
  return ⟨intent.action, intent.target, chain, intent.expiry, nonce⟩

/-- The message that an intent is signed over. -/
def AdminIntent.message (intent : AdminIntent) : Option ByteArray := intent.texts.map canonical

/-- What the service is given: the configured admin key, and whether a signature
field holds that key's signature over a message. -/
structure IntentEnv where
  adminPublicKey : Option String
  verifies : String → ByteArray → Json → Bool

/-- The errors of the service. -/
inductive IntentError
  | unauthorized (message : String)
  | conflict (message : String)
  | typeError
deriving DecidableEq, Repr

/-- The clock while one call runs: at its expiry check, when it computes the
lifetime of the reservation, and in Redis when the nonce is reserved.  Redis is
healthy: it answers within the 300 seconds that a reservation is kept for longer
than its intent is valid. -/
structure Readings where
  checked : Nat
  computed : Nat
  stored : Nat
  computed_ge : checked ≤ computed
  stored_ge : computed ≤ stored
  prompt : stored ≤ checked + 300000

/-- A call of `verify`, with its readings of the clock. -/
structure VerifyCall where
  raw : Option Json
  expectedAction : String
  expectedTarget : String
  clock : Readings

/-- `typeof raw === 'object'` of a value that is not `null`. -/
def isObject : Json → Bool
  | .arr _ | .obj _ => true
  | _ => false

/-- A property of the value; nothing where it has none. -/
def field (raw : Json) (name : String) : Option Json :=
  match raw with
  | .obj fields => fields.lookup name
  | _ => none

/-- The six fields of an intent, if it is complete. -/
structure RawIntent where
  action : Json
  target : Json
  chain : Json
  expiry : Json
  nonce : Json
  signature : Json

/-- The fields as they arrive; `none` where one is missing. -/
def RawIntent.read (raw : Json) : Option RawIntent := do
  let action ← (field raw "action").filter isTruthy
  let target ← (field raw "target").filter fun target => !isNull target
  let chain ← (field raw "chain").filter isTruthy
  let expiry ← field raw "expiry"
  let nonce ← (field raw "nonce").filter isTruthy
  let signature ← (field raw "signature").filter isTruthy
  return { action, target, chain, expiry, nonce, signature }

/-- The field is the string. -/
def isText (text : String) : Json → Bool
  | .str value => value == text
  | _ => false

/-- Everything that `verify` checks before it reserves the nonce. -/
def check (env : IntentEnv) (call : VerifyCall) :
    Except IntentError (AdminIntent × IntentTexts) :=
  match call.raw.filter isObject with
  | none => .error (.unauthorized "Admin intent required")
  | some raw =>
  match RawIntent.read raw with
  | none => .error (.unauthorized ("Admin intent is incomplete " ++
      "(action, target, chain, expiry, nonce, signature required)"))
  | some raw =>
  if !isText call.expectedAction raw.action then
    .error (.unauthorized
      ("Admin intent action mismatch: expected \"" ++ call.expectedAction ++ "\""))
  else
  match toText raw.target with
  | none => .error .typeError
  | some target =>
  if target ≠ call.expectedTarget then
    .error (.unauthorized
      ("Admin intent target mismatch: expected \"" ++ call.expectedTarget ++ "\""))
  else
  match raw.expiry with
  | .num expiry =>
      let expiry := Number.read expiry.text
      if expiry.less call.clock.checked then .error (.unauthorized "Admin intent expired")
      else
      match env.adminPublicKey.filter (· ≠ "") with
      | none => .error (.unauthorized "Admin key not configured")
      | some adminPublicKey =>
      let intent : AdminIntent :=
        ⟨call.expectedAction, target, raw.chain, expiry, raw.nonce, raw.signature⟩
      match intent.texts with
      | none => .error .typeError
      | some texts =>
      if env.verifies adminPublicKey (canonical texts) raw.signature then .ok (intent, texts)
      else .error (.unauthorized "Invalid admin intent signature")
  | _ => .error (.unauthorized "Admin intent expired")

/-- The reserved nonces, with the last moment at which each is reserved. -/
abbrev Reservations := Storage String Int

/-- The latest time that Redis can keep a key to, in milliseconds. -/
def MAX_TIME : Int := 9223372036854775807

/-- `SET key 1 NX EX seconds`: nothing if the key is there or the lifetime is
refused. -/
def setNx (reservations : Reservations) (key : String) (seconds : Int) (now : Nat) :
    Option Reservations :=
  if now + seconds * 1000 > MAX_TIME then none
  else
    match reservations.get key with
    | some last =>
        if now ≤ last then none else some (reservations.set key (now + seconds * 1000))
    | none => some (reservations.set key (now + seconds * 1000))

/-- The key under which a nonce is reserved. -/
def reservationKey (nonce : String) : String := "admin-intent:" ++ nonce

/-- The lifetime of a reservation, in seconds. -/
def ttl (expiry : ℚ) (now : Nat) : Int := max 60 (⌈(expiry - now) / 1000⌉ + 300)

/-- A lifetime without end, that of an infinite expiry, is refused too. -/
def reserve (reservations : Reservations) (texts : IntentTexts) (clock : Readings) :
    Option Reservations :=
  texts.expiry.value?.bind fun expiry =>
    setNx reservations (reservationKey texts.nonce) (ttl expiry clock.computed) clock.stored

/-- An intent that passes the checks is accepted if its nonce can be reserved. -/
def verify (env : IntentEnv) (reservations : Reservations) (call : VerifyCall) :
    Except IntentError (AdminIntent × Reservations) :=
  match check env call with
  | .error error => .error error
  | .ok (intent, texts) =>
      match reserve reservations texts call.clock with
      | some reservations => .ok (intent, reservations)
      | none => .error (.conflict "Admin intent nonce already used (replay rejected)")

/-- The calls of `verify`, in the order in which they reach Redis. -/
def service (env : IntentEnv) : Machine Reservations VerifyCall AdminIntent IntentError :=
  ⟨verify env⟩

/-- A call that was accepted. -/
abbrev IntentEvent := Event Reservations VerifyCall AdminIntent

/-- How many of the accepted calls were for a message. -/
def accepted (message : ByteArray) (log : List IntentEvent) : Nat :=
  log.countP fun e => e.output.message = some message

/-- The clock of Redis does not run back. -/
def InOrder (calls : List VerifyCall) : Prop :=
  calls.Pairwise fun earlier later => earlier.clock.stored ≤ later.clock.stored

/-! ## One call -/

theorem canonical_inj {t t' : IntentTexts} (h : canonical t = canonical t') :
    line '|' t.fields = line '|' t'.fields :=
  String.ofList_injective (String.toByteArray_inj.mp h)

/-- Intents with one text in each place are one intent. -/
theorem IntentTexts.eq_of_fields {t t' : IntentTexts}
    (hfirst : [t.action.toList, t.target.toList, t.chain.toList] =
      [t'.action.toList, t'.target.toList, t'.chain.toList])
    (hexpiry : t.expiry.text = t'.expiry.text) (hnonce : t.nonce.toList = t'.nonce.toList) :
    t = t' := by
  obtain ⟨action, target, chain, expiry, nonce⟩ := t
  obtain ⟨action', target', chain', expiry', nonce'⟩ := t'
  simp only [List.cons.injEq, String.toList_inj] at hfirst hnonce
  obtain ⟨rfl, rfl, rfl, -⟩ := hfirst
  obtain rfl : expiry = expiry' := Number.text_injective hexpiry
  obtain rfl := hnonce
  rfl

/-- An accepted call returns an intent that has not expired, is signed, and
whose nonce it could reserve. -/
theorem verify_ok {env : IntentEnv} {reservations after : Reservations} {call : VerifyCall}
    {intent : AdminIntent} (h : verify env reservations call = .ok (intent, after)) :
    ∃ texts key expiry, intent.texts = some texts ∧ texts.expiry.value? = some expiry ∧
      call.clock.checked ≤ expiry ∧ env.verifies key (canonical texts) intent.signature = true ∧
      setNx reservations (reservationKey texts.nonce) (ttl expiry call.clock.computed)
        call.clock.stored = some after := by
  unfold verify at h
  split at h
  · cases h
  · next intent' texts hcheck =>
      split at h
      · next reserved hreserved =>
          obtain ⟨rfl, rfl⟩ := Prod.mk.inj (Except.ok.inj h)
          obtain ⟨expiry, hvalue, hset⟩ := Option.bind_eq_some_iff.mp hreserved
          unfold check at hcheck
          split at hcheck
          · cases hcheck
          split at hcheck
          · cases hcheck
          next raw _ =>
          split at hcheck
          · cases hcheck
          split at hcheck
          · cases hcheck
          split at hcheck
          · cases hcheck
          split at hcheck
          · next token _ =>
              dsimp only at hcheck
              split at hcheck
              · cases hcheck
              next hvalid =>
              split at hcheck
              · cases hcheck
              next key _ =>
              split at hcheck
              · cases hcheck
              next texts' htexts =>
              split at hcheck
              · next hsigned =>
                  obtain ⟨rfl, rfl⟩ := Prod.mk.inj (Except.ok.inj hcheck)
                  have hexpiry : texts'.expiry = Number.read token.text := by
                    unfold AdminIntent.texts at htexts
                    simp only [Option.bind_eq_bind, Option.bind_eq_some_iff, Option.pure_def,
                      Option.some.injEq] at htexts
                    obtain ⟨-, -, -, -, rfl⟩ := htexts
                    rfl
                  rw [← hexpiry] at hvalid
                  exact ⟨texts', key, expiry, htexts, hvalue, Number.le_of_not_less hvalid hvalue,
                    hsigned, hset⟩
              · cases hcheck
          · cases hcheck
      · cases h

theorem setNx_eq_some {reservations after : Reservations} {key : String} {seconds : Int}
    {now : Nat} (h : setNx reservations key seconds now = some after) :
    (∀ last, reservations.get key = some last → last < now) ∧
      after = reservations.set key (now + seconds * 1000) := by
  unfold setNx at h
  split at h
  · cases h
  split at h
  · next last hget =>
      split at h
      · cases h
      · refine ⟨fun last' hlast => ?_, (Option.some.inj h).symm⟩
        obtain rfl := Option.some.inj (hget.symm.trans hlast)
        omega
  · next hnone =>
      exact ⟨fun last hlast => (by simp [hnone] at hlast), (Option.some.inj h).symm⟩

/-- A reservation made for an expiry lasts 300 seconds longer. -/
theorem le_reserved_until (expiry : ℚ) {computed stored : Nat} (h : computed ≤ stored) :
    expiry + 300000 ≤ ((stored + ttl expiry computed * 1000 : Int) : ℚ) := by
  have hceil := Int.le_ceil ((expiry - computed) / 1000)
  have hmax : ((⌈(expiry - computed) / 1000⌉ + 300 : Int) : ℚ) ≤ ttl expiry computed :=
    Int.cast_le.mpr (le_max_right _ _)
  have hstored : (computed : ℚ) ≤ stored := Nat.cast_le.mpr h
  push_cast at hmax ⊢
  linarith

/-! ## The readings of a line -/

/-- No field but the nonce has a bar, and no part of the nonce that a bar follows
is the text of a number. -/
structure IntentTexts.Separated (t : IntentTexts) : Prop where
  action : '|' ∉ t.action.toList
  target : '|' ∉ t.target.toList
  chain : '|' ∉ t.chain.toList
  nonce : ∀ p ∈ (parts '|' t.nonce.toList).dropLast, Number.isText p = false

/-- No bar is in a number. -/
theorem bar_notMem_text (n : Number) : '|' ∉ n.text :=
  Number.notMem_text (by decide) (by decide) n

/-- The line of five fields. -/
theorem IntentTexts.line_fields (t : IntentTexts) : line '|' t.fields =
    t.action.toList ++ '|' :: (t.target.toList ++ '|' :: (t.chain.toList ++ '|' ::
      (t.expiry.text ++ '|' :: t.nonce.toList))) := by
  simp [IntentTexts.fields]

/-- Intents with one line have one encoding. -/
theorem canonical_eq {t t' : IntentTexts} (h : line '|' t.fields = line '|' t'.fields) :
    canonical t = canonical t' := by
  unfold canonical
  rw [h]

/-- A separated line can be read in one way only. -/
theorem IntentTexts.Separated.eq_of_canonical {t t' : IntentTexts} (ht : t.Separated)
    (h : canonical t' = canonical t) : t' = t := by
  have hplain : ∀ field ∈ [t.action.toList, t.target.toList, t.chain.toList], '|' ∉ field := by
    simp [ht.action, ht.target, ht.chain]
  have hnumber : Number.isText t'.expiry.text = true := Number.isText_iff.mpr ⟨t'.expiry, rfl⟩
  have hlength : [t'.action.toList, t'.target.toList, t'.chain.toList].length =
      [t.action.toList, t.target.toList, t.chain.toList].length := rfl
  obtain ⟨hfirst, hexpiry, hnonce⟩ := fields_unique (P := fun p => Number.isText p = true) hplain
    (bar_notMem_text t.expiry) (bar_notMem_text t'.expiry) hnumber
    (fun p hp => by simp [ht.nonce p hp]) hlength (canonical_inj h)
  exact IntentTexts.eq_of_fields hfirst hexpiry hnonce

/-- A line that is not separated has a second reading. -/
theorem IntentTexts.separated_of_unique {t : IntentTexts}
    (h : ∀ t', canonical t' = canonical t → t' = t) : t.Separated := by
  have hshift : ∀ t' : IntentTexts, line '|' t'.fields = line '|' t.fields → t' = t :=
    fun t' hline => h t' (canonical_eq hline)
  simp only [IntentTexts.line_fields] at hshift
  constructor
  · intro hmem
    obtain ⟨x, y, hsplit⟩ := List.append_of_mem hmem
    have hsame := hshift
      { t with action := .ofList x, target := .ofList (y ++ '|' :: t.target.toList) }
      (by simp [hsplit])
    have haction := congrArg (fun t => t.action.toList.length) hsame
    simp [hsplit] at haction
  · intro hmem
    obtain ⟨x, y, hsplit⟩ := List.append_of_mem hmem
    have hsame := hshift
      { t with target := .ofList x, chain := .ofList (y ++ '|' :: t.chain.toList) }
      (by simp [hsplit])
    have htarget := congrArg (fun t => t.target.toList.length) hsame
    simp [hsplit] at htarget
  · intro hmem
    obtain ⟨x, y, hsplit⟩ := List.append_of_mem hmem
    have hsame := hshift
      { t with target := .ofList (t.target.toList ++ '|' :: x), chain := .ofList y }
      (by simp [hsplit])
    have htarget := congrArg (fun t => t.target.toList.length) hsame
    simp at htarget
  · intro p hp
    by_contra hnumber
    rw [Bool.not_eq_false] at hnumber
    obtain ⟨n, rfl⟩ := Number.isText_iff.mp hnumber
    obtain ⟨before, after, hsplit, hafter⟩ := eq_of_mem_dropLast_parts hp
    -- the expiry and the parts before the number move into the chain
    have hnonce : t.expiry.text ++ '|' :: t.nonce.toList =
        line '|' (t.expiry.text :: before) ++ '|' :: (n.text ++ '|' :: line '|' after) := by
      rw [← line_parts (d := '|') t.nonce.toList, hsplit, ← line_cons (by simp),
        ← line_cons hafter, ← line_append (by simp) (by simp), List.cons_append]
    have hsame := hshift
      { t with
        chain := .ofList (t.chain.toList ++ '|' :: line '|' (t.expiry.text :: before))
        expiry := n
        nonce := .ofList (line '|' after) }
      (by simp [hnonce])
    have hchain := congrArg (fun t => t.chain.toList.length) hsame
    simp at hchain

/-! ## Whole runs -/

/-- A separated line was accepted once at most; once it was, its nonce is
reserved until no call can find it unexpired, or that time has come. -/
structure UsedOnce (t : IntentTexts) (reservations : Reservations) (log : List IntentEvent) :
    Prop where
  once : accepted (canonical t) log ≤ 1
  reserved : accepted (canonical t) log = 0 ∨ ∃ expiry, t.expiry.value? = some expiry ∧
    ((∃ last, reservations.get (reservationKey t.nonce) = some last ∧
      expiry + 300000 ≤ (last : ℚ)) ∨
    ∃ e ∈ log, expiry + 300000 < e.input.clock.stored)

theorem accepted_snoc (message : ByteArray) (log : List IntentEvent) (e : IntentEvent) :
    accepted message (log ++ [e]) =
      accepted message log + if e.output.message = some message then 1 else 0 := by
  unfold accepted
  rw [List.countP_append, List.countP_singleton]
  simp

/-- **Step lemma.** -/
theorem UsedOnce.step {env : IntentEnv} {t : IntentTexts} {log : List IntentEvent}
    {e : IntentEvent} (ht : t.Separated) (hfires : (service env).Fires e)
    (horder : ∀ earlier ∈ log, earlier.input.clock.stored ≤ e.input.clock.stored)
    (hused : UsedOnce t e.before log) : UsedOnce t e.after (log ++ [e]) := by
  obtain ⟨reservations, call, intent, after⟩ := e
  have hcall : verify env reservations call = .ok (intent, after) := hfires
  obtain ⟨texts, key, expiry, htexts, hvalue, hvalid, -, hreserved⟩ := verify_ok hcall
  obtain ⟨hfree, hafter⟩ := setNx_eq_some hreserved
  subst hafter
  have hcomputed := call.clock.stored_ge
  by_cases hmessage : intent.message = some (canonical t)
  · -- it is this line's one reading, so its nonce was free and is reserved now
    have htexts' : texts = t := by
      unfold AdminIntent.message at hmessage
      rw [htexts] at hmessage
      exact ht.eq_of_canonical (Option.some.inj hmessage)
    subst htexts'
    have hprompt : (call.clock.stored : ℚ) ≤ expiry + 300000 := by
      have hcast : ((call.clock.stored : ℕ) : ℚ) ≤ ((call.clock.checked + 300000 : ℕ) : ℚ) :=
        Nat.cast_le.mpr call.clock.prompt
      push_cast at hcast
      linarith
    have hfirst : accepted (canonical texts) log = 0 := by
      rcases hused.reserved with hnone | ⟨expiry', hvalue', hrest⟩
      · exact hnone
      obtain rfl := Option.some.inj (hvalue.symm.trans hvalue')
      rcases hrest with ⟨last, hget, hlast⟩ | ⟨earlier, hmem, hlate⟩
      · have hover : (last : ℚ) < call.clock.stored := by exact_mod_cast hfree last hget
        linarith
      · have hearlier : ((earlier.input.clock.stored : ℕ) : ℚ) ≤ call.clock.stored :=
          Nat.cast_le.mpr (horder earlier hmem)
        linarith
    refine ⟨?_, Or.inr ⟨expiry, hvalue, Or.inl ⟨_, ?_, le_reserved_until expiry hcomputed⟩⟩⟩
    · rw [accepted_snoc, hfirst]
      split <;> omega
    · exact get_set_self _ _ _
  · have hsame : ∀ after, accepted (canonical t) (log ++ [⟨reservations, call, intent, after⟩]) =
        accepted (canonical t) log := by
      intro after
      rw [accepted_snoc, if_neg hmessage, Nat.add_zero]
    refine ⟨(hsame _).trans_le hused.once, ?_⟩
    rcases hused.reserved with hnone | ⟨expiry', hvalue', hrest⟩
    · exact Or.inl ((hsame _).trans hnone)
    refine Or.inr ⟨expiry', hvalue', ?_⟩
    rcases hrest with ⟨last, hget, hlast⟩ | ⟨earlier, hmem, hlate⟩
    · by_cases hkey : reservationKey t.nonce = reservationKey texts.nonce
      · right
        have hover : (last : ℚ) < call.clock.stored := by exact_mod_cast hfree last (hkey ▸ hget)
        exact ⟨_, List.mem_append_right _ List.mem_cons_self, lt_of_le_of_lt hlast hover⟩
      · left
        exact ⟨last, (get_set_ne _ _ hkey).trans hget, hlast⟩
    · exact Or.inr ⟨earlier, List.mem_append_left _ hmem, hlate⟩

/-- **Run lemma.** -/
theorem UsedOnce.run {env : IntentEnv} {t : IntentTexts} (ht : t.Separated)
    {calls : List VerifyCall} (horder : InOrder calls) :
    UsedOnce t ((service env).run ∅ calls) ((service env).log ∅ calls) := by
  refine (service env).invariant
    (P := fun reservations log => InOrder (log.map Event.input) → UsedOnce t reservations log)
    (fun _ => ⟨by simp [accepted], Or.inl (by simp [accepted])⟩)
    (fun log e hfires ih horder => ?_) calls
    (horder.sublist ((service env).log_inputs_sublist ∅ calls))
  unfold InOrder at horder ih
  rw [List.map_append, List.pairwise_append] at horder
  refine (ih horder.1).step ht hfires fun earlier hmem => ?_
  exact horder.2.2 _ (List.mem_map_of_mem hmem) _ (by simp)

/-- Accepted intents were signed, and a signed line leads to one accepted call at
most and has one reading exactly if it is separated. -/
theorem signed_once_iff (env : IntentEnv) (signed : ByteArray → Prop)
    (hideal : ∀ key message signature, env.verifies key message signature = true →
      signed message) :
    (∀ calls, ∀ e ∈ (service env).log ∅ calls,
      ∃ message, e.output.message = some message ∧ signed message) ∧
    ∀ t : IntentTexts,
      ((∀ calls, InOrder calls → accepted (canonical t) ((service env).log ∅ calls) ≤ 1) ∧
        ∀ t', canonical t' = canonical t → t' = t) ↔ t.Separated := by
  refine ⟨fun calls e he => ?_, fun t => ⟨fun h => IntentTexts.separated_of_unique h.2, ?_⟩⟩
  · obtain ⟨pre, hfires, -⟩ := (service env).exists_run_of_mem_log he
    obtain ⟨texts, key, -, htexts, -, -, hsigned, -⟩ := verify_ok hfires
    exact ⟨canonical texts, by rw [AdminIntent.message, htexts]; rfl,
      hideal key _ _ hsigned⟩
  · exact fun ht => ⟨fun calls horder => (UsedOnce.run ht horder).once,
      fun t' h => ht.eq_of_canonical h⟩

/-- An intent whose nonce has a number before a bar. -/
def sampleTexts : IntentTexts :=
  ⟨"distribute_coupon", "7", "testnet", Number.ofRat 2000000, "3000000|a1"⟩

def sampleEnv : IntentEnv where
  adminPublicKey := some "GADMIN"
  verifies _ message signature :=
    isText "c2lnbmVk" signature && decide (message = canonical sampleTexts)

/-- It is ideal: what verifies was signed. -/
theorem sampleEnv_ideal : ∀ key message signature,
    sampleEnv.verifies key message signature = true → message = canonical sampleTexts := by
  intro key message signature h
  exact of_decide_eq_true (Bool.and_eq_true_iff.mp h).2

/-- In that environment. -/
theorem signed_once_iff_sample :
    (∀ calls, ∀ e ∈ (service sampleEnv).log ∅ calls,
      ∃ message, e.output.message = some message ∧ message = canonical sampleTexts) ∧
    ∀ t : IntentTexts,
      ((∀ calls, InOrder calls → accepted (canonical t) ((service sampleEnv).log ∅ calls) ≤ 1) ∧
        ∀ t', canonical t' = canonical t → t' = t) ↔ t.Separated :=
  signed_once_iff sampleEnv (· = canonical sampleTexts) sampleEnv_ideal

/-- The signed line sent back under a reading of the sender's choice. -/
def readAs (chain nonce : String) (expiry : Nat) (clock : Readings) : VerifyCall where
  raw := some (.obj [("action", .str "distribute_coupon"), ("target", .str "7"),
    ("chain", .str chain), ("expiry", .num (Json.ofNat expiry)), ("nonce", .str nonce),
    ("signature", .str "c2lnbmVk")])
  expectedAction := "distribute_coupon"
  expectedTarget := "7"
  clock := clock

/-- The line once as it was signed, and once with another nonce. -/
def replayedLine : List VerifyCall := [
  readAs "testnet" "3000000|a1" 2000000 ⟨1000000, 1000000, 1000001, by decide, by decide, by decide⟩,
  readAs "testnet|2000000" "a1" 3000000 ⟨1000002, 1000002, 1000003, by decide, by decide, by decide⟩]

/-- The number in the nonce is read as the expiry, and the rest of it reserved. -/
theorem signed_twice :
    ¬ ∀ (env : IntentEnv) (signed : ByteArray → Prop),
      (∀ key message signature, env.verifies key message signature = true → signed message) →
      ∀ calls, InOrder calls → ∀ message, signed message →
        accepted message ((service env).log ∅ calls) ≤ 1 := by
  intro h
  have horder : InOrder replayedLine := by
    unfold InOrder
    decide +kernel
  have honce := h sampleEnv (· = canonical sampleTexts) sampleEnv_ideal replayedLine horder
    (canonical sampleTexts) rfl
  revert honce
  decide +kernel

end EcoMint.AdminIntents
