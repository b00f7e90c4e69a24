import EcoMint.Json
import EcoMint.TextPattern
import EcoMint.TextRuns

/-!
# What the request log shows

The interceptor logs the body and the headers of every request after
`redactLogValue`: what stands under a key that sounds like a secret is replaced,
at any depth, and of every Stellar address in a text only its ends are kept.  The
keys themselves and the URL of the request are logged as they are, so an address that
serves as a key is shown whole.

The pattern of an address is made of word characters between two word boundaries,
so it matches whole words only, and replacing its matches is a map over the words
of a text.  What it leaves has no address as a word, however the addresses stood
side by side, and so it may be redacted again with nothing more to be replaced.
-/

namespace EcoMint.RequestLog

open TextRuns

/-! ## Texts -/

/-- `\w` -/
def isWordChar (c : Char) : Bool := c.isAlphanum || c == '_'

/-- `[A-Z2-7]` -/
def isAddressChar (c : Char) : Bool := c.isUpper || ('2' ≤ c && c ≤ '7')

/-- `STELLAR_ADDRESS_PATTERN` on a whole word -/
def isStellarAddress : List Char → Bool
  | [] => false
  | c :: rest => c == 'G' && rest.all isAddressChar && 20 ≤ rest.length && rest.length ≤ 60

/-- `match.slice(0, 6)...match.slice(-4)` -/
def mask (address : List Char) : List (List Char) :=
  [address.take 6, ['.', '.', '.'], address.drop (address.length - 4)]

/-- A run of word characters that is a Stellar address is masked, every other run is
kept. -/
def redactRun (run : List Char) : List (List Char) :=
  if isStellarAddress run then mask run else [run]

/-- A text with the Stellar addresses in it masked. -/
def redactText (text : String) : String :=
  String.ofList ((runs isWordChar text.toList).flatMap redactRun).flatten

/-! ## Values -/

/-- The text that stands in place of a secret. -/
def REDACTED : String := "[REDACTED]"

/-- A key has one of the given words in it. -/
def namesOneOf (words : List String) (key : String) : Bool :=
  words.any fun word => TextPattern.test (TextPattern.word word) key.toList

/-- The keys whose values are secrets. -/
def SENSITIVE_KEY_PATTERN : String → Bool :=
  namesOneOf ["authorization", "token", "secret", "signature", "signed", "xdr", "private",
    "password", "transaction", "tx"]

/-- The keys whose values are wallets. -/
def WALLET_KEY_PATTERN : String → Bool :=
  namesOneOf ["wallet", "address", "account", "issuer", "holder", "investor", "from", "to"]

/-- A value is a text. -/
def isString : Json → Bool
  | .str _ => true
  | _ => false

mutual

/-- A value as it is logged. -/
def redactLogValue : Json → Json
  | .null => .null
  | .bool value => .bool value
  | .num value => .num value
  | .str value => .str (redactText value)
  | .arr items => .arr (redactItems items)
  | .obj fields => .obj (redactLogObject fields)

/-- An array's items as they are logged. -/
def redactItems : List Json → List Json
  | [] => []
  | item :: items => redactLogValue item :: redactItems items

/-- An object's fields as they are logged: the key as it is, a secret replaced. -/
def redactLogObject : List (String × Json) → List (String × Json)
  | [] => []
  | (key, value) :: fields =>
      (key,
        if SENSITIVE_KEY_PATTERN key then .str REDACTED
        else if WALLET_KEY_PATTERN key && isString value then redactLogValue value
        else redactLogValue value) :: redactLogObject fields

end

/-- The line of a request; a request without a body has no `body` in it. -/
def httpRequest (correlationId method url : String) (body : Option Json)
    (headers : List (String × Json)) : Json :=
  .obj ([("event", .str "http_request"), ("correlationId", .str correlationId),
    ("method", .str method), ("url", .str url)] ++
    (body.map fun value => ("body", redactLogValue value)).toList ++
    [("headers", .obj (redactLogObject headers))])

mutual

/-- The texts in a value, other than its keys, which nothing redacts. -/
def texts : Json → List String
  | .null => []
  | .bool _ => []
  | .num _ => []
  | .str value => [value]
  | .arr items => textsOfItems items
  | .obj fields => textsOfFields fields

/-- The texts in an array's items. -/
def textsOfItems : List Json → List String
  | [] => []
  | item :: items => texts item ++ textsOfItems items

/-- The texts in the values of an object's fields. -/
def textsOfFields : List (String × Json) → List String
  | [] => []
  | (_, value) :: fields => texts value ++ textsOfFields fields

end

mutual

/-- What a value is without what stands under a key that sounds like a secret. -/
def unsecret : Json → Json
  | .null => .null
  | .bool value => .bool value
  | .num value => .num value
  | .str value => .str value
  | .arr items => .arr (unsecretItems items)
  | .obj fields => .obj (unsecretFields fields)

/-- An array's items without their secrets. -/
def unsecretItems : List Json → List Json
  | [] => []
  | item :: items => unsecret item :: unsecretItems items

/-- An object's fields without their secrets. -/
def unsecretFields : List (String × Json) → List (String × Json)
  | [] => []
  | (key, value) :: fields =>
      (key, if SENSITIVE_KEY_PATTERN key then .null else unsecret value) :: unsecretFields fields

end

/-! ## Words -/

/-- No word of the text is an address. -/
def Plain (text : String) : Prop :=
  ∀ run ∈ runs isWordChar text.toList, isStellarAddress run = false

variable {text : String} {run part : List Char} {b : Bool}

/-- Every character of an address is a word character. -/
theorem isWordChar_of_isAddressChar {c : Char} (h : isAddressChar c = true) :
    isWordChar c = true := by
  rw [isAddressChar, Bool.or_eq_true] at h
  rcases h with hupper | hdigit
  · show (((c.isUpper || c.isLower) || c.isDigit) || c == '_') = true
    rw [hupper]
    rfl
  · have hisDigit : c.isDigit = true := by
      simp only [Bool.and_eq_true, decide_eq_true_eq, Char.le_def, UInt32.le_iff_toNat_le] at hdigit
      simp only [Char.isDigit, Bool.and_eq_true, decide_eq_true_eq, ge_iff_le,
        UInt32.le_iff_toNat_le]
      exact ⟨le_trans (by decide) hdigit.1, le_trans hdigit.2 (by decide)⟩
    show ((c.isAlpha || c.isDigit) || c == '_') = true
    rw [hisDigit, Bool.or_true, Bool.true_or]

/-- A Stellar address has at least 21 characters, all of them word characters. -/
theorem isStellarAddress_cases (h : isStellarAddress run = true) :
    21 ≤ run.length ∧ ∀ c ∈ run, isWordChar c = true := by
  cases run with
  | nil => cases h
  | cons c rest =>
      simp only [isStellarAddress, Bool.and_eq_true, beq_iff_eq, decide_eq_true_eq,
        List.all_eq_true] at h
      obtain ⟨⟨⟨rfl, hrest⟩, hlong⟩, -⟩ := h
      refine ⟨by rw [List.length_cons]; omega, fun d hd => ?_⟩
      rcases List.mem_cons.mp hd with rfl | hd
      · decide
      · exact isWordChar_of_isAddressChar (hrest d hd)

/-- What is cut out of an address is all word characters. -/
theorem uniform_of_sublist (h : isStellarAddress run = true) (hsub : part.Sublist run)
    (hne : 0 < part.length) : Uniform isWordChar true part :=
  ⟨List.ne_nil_of_length_pos hne,
    fun c hc => (isStellarAddress_cases h).2 c (hsub.subset hc)⟩

/-- The dots of a mask are no word characters. -/
theorem uniform_dots : Uniform isWordChar false ['.', '.', '.'] := by
  refine ⟨List.cons_ne_nil _ _, fun c hc => ?_⟩
  obtain rfl : c = '.' := by simpa using hc
  decide

/-- The ends of an address are words, with something else between them. -/
theorem mask_replaces (h : isStellarAddress run = true) :
    Replaces isWordChar true (mask run) := by
  have hlong := (isStellarAddress_cases h).1
  have hfirst : Uniform isWordChar true (run.take 6) :=
    uniform_of_sublist h (List.take_sublist 6 run) (by rw [List.length_take]; omega)
  have hlast : Uniform isWordChar true (run.drop (run.length - 4)) :=
    uniform_of_sublist h (List.drop_sublist _ run) (by rw [List.length_drop]; omega)
  constructor
  · exact List.cons_ne_nil _ _
  · refine List.isChain_cons_cons.mpr ⟨⟨true, hfirst, uniform_dots⟩, ?_⟩
    exact List.isChain_cons_cons.mpr ⟨⟨false, uniform_dots, hlast⟩, List.isChain_singleton _⟩
  · intro part hpart
    simp only [mask, List.mem_cons, List.not_mem_nil, or_false] at hpart
    rcases hpart with rfl | rfl | rfl
    · exact ⟨true, hfirst⟩
    · exact ⟨false, uniform_dots⟩
    · exact ⟨true, hlast⟩
  · intro part hpart
    cases hpart
    exact hfirst
  · intro part hpart
    cases hpart
    exact hlast

/-- A redacted run takes the place of the run: its parts alternate as the text's runs do. -/
theorem redactRun_replaces (b : Bool) (run : List Char) (h : Uniform isWordChar b run) :
    Replaces isWordChar b (redactRun run) := by
  unfold redactRun
  split
  · next haddress =>
      have hword := (isStellarAddress_cases haddress).2 _ (List.head_mem h.1)
      rw [← h.2 _ (List.head_mem h.1), hword]
      exact mask_replaces haddress
  · exact h.replaces

/-- What has fewer than 21 characters is not a Stellar address. -/
theorem isStellarAddress_of_short (h : part.length < 21) : isStellarAddress part = false := by
  by_contra haddress
  have hlong := (isStellarAddress_cases (Bool.not_eq_false _ ▸ haddress)).1
  omega

/-- No part of a redacted run is a Stellar address. -/
theorem plain_part (h : part ∈ redactRun run) : isStellarAddress part = false := by
  unfold redactRun at h
  split at h
  · simp only [mask, List.mem_cons, List.not_mem_nil, or_false] at h
    rcases h with rfl | rfl | rfl
    · exact isStellarAddress_of_short (by rw [List.length_take]; omega)
    · rfl
    · exact isStellarAddress_of_short (by rw [List.length_drop]; omega)
  · next hplain =>
      rw [List.mem_singleton.mp h]
      exact Bool.eq_false_iff.mpr hplain

/-- A redacted text shows no Stellar address. -/
theorem plain_redactText (text : String) : Plain (redactText text) := by
  intro run hrun
  rw [redactText, String.toList_ofList, runs_flatMap redactRun_replaces] at hrun
  obtain ⟨_, _, hpart⟩ := List.mem_flatMap.mp hrun
  exact plain_part hpart

/-- A text without addresses is logged as it is. -/
theorem redactText_of_plain (h : Plain text) : redactText text = text := by
  have hsame : ∀ run ∈ runs isWordChar text.toList, redactRun run = [run] := by
    intro run hrun
    rw [redactRun, h run hrun, if_neg Bool.false_ne_true]
  rw [redactText, List.flatMap_congr hsame, List.flatMap_singleton', flatten_runs,
    String.ofList_toList]

/-- The text that replaces a secret shows no Stellar address. -/
theorem plain_redacted : Plain REDACTED := by
  unfold Plain
  decide

/-! ## Values -/

/-- The key decides, and the kind of the value does not. -/
theorem redactLogObject_cons (key : String) (value : Json) (fields : List (String × Json)) :
    redactLogObject ((key, value) :: fields) =
      (key, if SENSITIVE_KEY_PATTERN key then .str REDACTED else redactLogValue value) ::
        redactLogObject fields := by
  rw [redactLogObject, ite_self]

mutual

/-- No text of a redacted value shows a Stellar address. -/
theorem plain_redactLogValue : ∀ value : Json, ∀ text ∈ texts (redactLogValue value), Plain text
  | .null, _, h => nomatch h
  | .bool _, _, h => nomatch h
  | .num _, _, h => nomatch h
  | .str value, _, h => by
      rw [redactLogValue, texts, List.mem_singleton] at h
      exact h ▸ plain_redactText value
  | .arr items, text, h => plain_redactItems items text (by rwa [redactLogValue, texts] at h)
  | .obj fields, text, h =>
      plain_redactLogObject fields text (by rwa [redactLogValue, texts] at h)

/-- No text of redacted items shows a Stellar address. -/
theorem plain_redactItems :
    ∀ items : List Json, ∀ text ∈ textsOfItems (redactItems items), Plain text
  | [], _, h => nomatch h
  | item :: items, text, h => by
      rw [redactItems, textsOfItems, List.mem_append] at h
      rcases h with hitem | hitems
      · exact plain_redactLogValue item text hitem
      · exact plain_redactItems items text hitems

/-- No text in the values of a redacted object's fields shows a Stellar address. -/
theorem plain_redactLogObject :
    ∀ fields : List (String × Json), ∀ text ∈ textsOfFields (redactLogObject fields), Plain text
  | [], _, h => nomatch h
  | (key, value) :: fields, text, h => by
      rw [redactLogObject_cons, textsOfFields, List.mem_append] at h
      rcases h with hvalue | hfields
      · split at hvalue
        · rw [texts, List.mem_singleton] at hvalue
          exact hvalue ▸ plain_redacted
        · exact plain_redactLogValue value text hvalue
      · exact plain_redactLogObject fields text hfields

end

mutual

/-- What is logged of a value does not depend on its secrets. -/
theorem redactLogValue_unsecret : ∀ value : Json,
    redactLogValue (unsecret value) = redactLogValue value
  | .null | .bool _ | .num _ | .str _ => rfl
  | .arr items => by rw [unsecret, redactLogValue, redactLogValue, redactItems_unsecret items]
  | .obj fields => by
      rw [unsecret, redactLogValue, redactLogValue, redactLogObject_unsecret fields]

/-- What is logged of items does not depend on their secrets. -/
theorem redactItems_unsecret : ∀ items : List Json,
    redactItems (unsecretItems items) = redactItems items
  | [] => rfl
  | item :: items => by
      rw [unsecretItems, redactItems, redactItems, redactLogValue_unsecret item,
        redactItems_unsecret items]

/-- What is logged of an object's fields does not depend on their secrets. -/
theorem redactLogObject_unsecret : ∀ fields : List (String × Json),
    redactLogObject (unsecretFields fields) = redactLogObject fields
  | [] => rfl
  | (key, value) :: fields => by
      rw [unsecretFields, redactLogObject_cons, redactLogObject_cons,
        redactLogObject_unsecret fields]
      by_cases hkey : SENSITIVE_KEY_PATTERN key
      · rw [if_pos hkey, if_pos hkey]
      · rw [if_neg hkey, if_neg hkey, if_neg hkey, redactLogValue_unsecret value]

end

mutual

/-- Redacting a redacted value changes nothing. -/
theorem redactLogValue_again : ∀ value : Json,
    redactLogValue (redactLogValue value) = redactLogValue value
  | .null | .bool _ | .num _ => rfl
  | .str value => by
      rw [redactLogValue, redactLogValue, redactText_of_plain (plain_redactText value)]
  | .arr items => by rw [redactLogValue, redactLogValue, redactItems_again items]
  | .obj fields => by rw [redactLogValue, redactLogValue, redactLogObject_again fields]

/-- Redacting redacted items changes nothing. -/
theorem redactItems_again : ∀ items : List Json, redactItems (redactItems items) = redactItems items
  | [] => rfl
  | item :: items => by
      rw [redactItems, redactItems, redactLogValue_again item, redactItems_again items]

/-- Redacting a redacted object's fields changes nothing. -/
theorem redactLogObject_again : ∀ fields : List (String × Json),
    redactLogObject (redactLogObject fields) = redactLogObject fields
  | [] => rfl
  | (key, value) :: fields => by
      rw [redactLogObject_cons, redactLogObject_cons, redactLogObject_again fields]
      by_cases hkey : SENSITIVE_KEY_PATTERN key
      · rw [if_pos hkey, if_pos hkey]
      · rw [if_neg hkey, if_neg hkey, redactLogValue_again value]

end

/-! ## The line -/

/-- The keys of an object stay what they are. -/
theorem keys_redactLogObject (fields : List (String × Json)) :
    (redactLogObject fields).map Prod.fst = fields.map Prod.fst := by
  induction fields with
  | nil => rfl
  | cons field fields ih => rw [redactLogObject, List.map_cons, List.map_cons, ih]

/-- An address that is a key, and one that stands under it. -/
example : redactLogObject [("GABCDEFGHIJKLMNOPQRSTUVW", .str "GABCDEFGHIJKLMNOPQRSTUVW")] =
    [("GABCDEFGHIJKLMNOPQRSTUVW", .str "GABCDE...TUVW")] := rfl

theorem textsOfFields_append (fields later : List (String × Json)) :
    textsOfFields (fields ++ later) = textsOfFields fields ++ textsOfFields later := by
  induction fields with
  | nil => rfl
  | cons field fields ih =>
      rw [List.cons_append, textsOfFields, textsOfFields, ih, List.append_assoc]

/-- A text of the request's line shows no Stellar address, unless it is the id, the
method or the URL. -/
theorem plain_httpRequest {correlationId method url : String} {body : Option Json}
    {headers : List (String × Json)}
    (h : text ∈ texts (httpRequest correlationId method url body headers)) :
    Plain text ∨ text = correlationId ∨ text = method ∨ text = url := by
  rw [httpRequest, texts, textsOfFields_append, textsOfFields_append, List.append_assoc,
    List.mem_append, List.mem_append] at h
  rcases h with hhead | hbody | hheaders
  · simp only [textsOfFields, texts, List.cons_append, List.nil_append, List.mem_cons,
      List.not_mem_nil, or_false] at hhead
    rcases hhead with rfl | hother
    · exact .inl (by unfold Plain; decide)
    · exact .inr hother
  · cases body with
    | none => exact nomatch hbody
    | some value =>
        refine .inl (plain_redactLogValue value text ?_)
        simpa [textsOfFields] using hbody
  · refine .inl (plain_redactLogObject headers text ?_)
    simpa [textsOfFields, texts] using hheaders

/-- For every request: no text of the line has an address for a word, other than the
correlation id, the method, the URL and the keys; the keys of an object stay what they
are; the line is the same whatever stands under a key that sounds like a secret; it is
the same for a request that was redacted before; and a text without addresses is in it
as it is. -/
theorem request_log_redacted (correlationId method url : String) (body : Option Json)
    (headers : List (String × Json)) :
    (∀ text ∈ texts (httpRequest correlationId method url body headers),
        Plain text ∨ text = correlationId ∨ text = method ∨ text = url) ∧
      (∀ fields, (redactLogObject fields).map Prod.fst = fields.map Prod.fst) ∧
      httpRequest correlationId method url (body.map unsecret) (unsecretFields headers) =
        httpRequest correlationId method url body headers ∧
      httpRequest correlationId method url (body.map redactLogValue) (redactLogObject headers) =
        httpRequest correlationId method url body headers ∧
      ∀ text, Plain text → redactText text = text := by
  refine ⟨fun text => plain_httpRequest, keys_redactLogObject, ?_, ?_, fun text => redactText_of_plain⟩
  · rw [httpRequest, redactLogObject_unsecret]
    cases body with
    | none => rfl
    | some value =>
        rw [Option.map_some, Option.map_some, redactLogValue_unsecret]
        rfl
  · rw [httpRequest, redactLogObject_again]
    cases body with
    | none => rfl
    | some value =>
        rw [Option.map_some, Option.map_some, redactLogValue_again]
        rfl

/-- Two addresses side by side. -/
example : redactText "from GABCDEFGHIJKLMNOPQRSTUVW to GZYXWVUTSRQPONMLKJIHGFED!" =
    "from GABCDE...TUVW to GZYXWV...GFED!" := by decide

end EcoMint.RequestLog
