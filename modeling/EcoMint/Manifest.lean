import EcoMint.JsonOrder
import EcoMint.OracleValidator

/-!
# Signed evidence manifests

An adapter signs a manifest over the canonical text of eleven of its fields, and
the API, which has a copy of the code, computes the same text from the manifest
that it is sent.  The canonical text is that of the value with its keys sorted, so
it belongs to one value only, up to the order of keys.  A manifest is therefore
accepted in whatever order its keys arrive, and no other values of the signed
fields are accepted with its signature.

Between the two stands a schema, which may leave properties of a record out, and
`keeps` says which names it copies.  The adapter signs its input as it is and sends
what the schema has copied.  So a manifest verifies exactly when nothing was left out;
a record with a property of its own named `__proto__` is signed and sent without it.
-/

namespace EcoMint

/-! ## Canonical texts -/

mutual

/-- The text of `canonicalJson`. -/
def canonicalChars : Json → List Char
  | .arr items => '[' :: ([','].intercalate (canonicalItems items) ++ [']'])
  | .obj fields =>
      let body := (Json.sortByKey (canonicalFields fields)).map fun field =>
        Json.quote field.1 ++ ':' :: field.2
      '\x7b' :: ([','].intercalate body ++ ['\x7d'])
  | .null => Json.write .null
  | .bool value => Json.write (.bool value)
  | .num value => Json.write (.num value)
  | .str value => Json.write (.str value)

/-- The items of an array, each in its normal form. -/
def canonicalItems : List Json → List (List Char)
  | [] => []
  | item :: rest => canonicalChars item :: canonicalItems rest

/-- The fields of an object, each value in its normal form. -/
def canonicalFields : List (String × Json) → List (String × List Char)
  | [] => []
  | (key, value) :: rest => (key, canonicalChars value) :: canonicalFields rest

end

/-- The normal form of a value. -/
def canonicalJson (value : Json) : String := String.ofList (canonicalChars value)

mutual

/-- The normal form is the text of the value with its keys sorted. -/
theorem canonicalChars_eq : ∀ value : Json, canonicalChars value = Json.write value.sortKeys
  | .null => rfl
  | .bool _ => rfl
  | .num _ => rfl
  | .str _ => rfl
  | .arr items => by
      rw [canonicalChars, canonicalItems_eq items, Json.sortKeys, Json.write_arr]
  | .obj fields => by
      rw [canonicalChars, canonicalFields_eq fields, Json.sortKeys, Json.write_obj,
        ← Json.map_sortByKey, List.map_map]
      rfl

/-- The normal forms of an array's items are the texts of the sorted items. -/
theorem canonicalItems_eq : ∀ items : List Json,
    canonicalItems items = (Json.sortItems items).map Json.write
  | [] => rfl
  | item :: rest => by
      rw [canonicalItems, canonicalChars_eq item, canonicalItems_eq rest, Json.sortItems,
        List.map_cons]

/-- The normal forms of an object's fields are the texts of the sorted fields. -/
theorem canonicalFields_eq : ∀ fields : List (String × Json),
    canonicalFields fields =
      (Json.sortFields fields).map fun field => (field.1, Json.write field.2)
  | [] => rfl
  | (key, value) :: rest => by
      rw [canonicalFields, canonicalChars_eq value, canonicalFields_eq rest, Json.sortFields,
        List.map_cons]

end

/-- The normal form as a string. -/
theorem canonicalJson_eq (value : Json) : canonicalJson value = Json.stringify value.sortKeys := by
  rw [canonicalJson, canonicalChars_eq, Json.stringify]

/-- Values with one canonical text are the same up to the order of keys. -/
theorem same_of_canonicalJson {a b : Json} (h : canonicalJson a = canonicalJson b) :
    Json.Same a b := by
  rw [canonicalJson_eq, canonicalJson_eq, Json.stringify_inj] at h
  exact Json.same_of_sortKeys_eq a b h

/-- Values have one normal form exactly if they are the same up to the order of keys. -/
theorem canonicalJson_eq_iff {a b : Json} (h : a.Distinct) :
    canonicalJson a = canonicalJson b ↔ Json.Same a b := by
  rw [canonicalJson_eq, canonicalJson_eq, Json.stringify_inj, Json.sortKeys_eq_iff h]

/-! ## Manifests -/

/-- The fields that are signed. -/
structure UnsignedPayload where
  projectId : String
  provider : String
  signerPublicKey : String
  methodology : String
  periodStart : String
  periodEnd : String
  carbonSequestered : NumberText
  confidence : NumberText
  rawObservations : List (String × Json)
  transformationParameters : List (String × Json)
  generatedAt : String

/-- A manifest: what is signed, and the signature. -/
structure EvidenceManifest extends UnsignedPayload where
  signature : String

/-- The fields that are signed. -/
def UnsignedPayload.fields (payload : UnsignedPayload) : List (String × Json) :=
  [("project_id", .str payload.projectId), ("provider", .str payload.provider),
    ("signer_public_key", .str payload.signerPublicKey),
    ("methodology", .str payload.methodology), ("period_start", .str payload.periodStart),
    ("period_end", .str payload.periodEnd), ("carbon_sequestered", .num payload.carbonSequestered),
    ("confidence", .num payload.confidence), ("raw_observations", .obj payload.rawObservations),
    ("transformation_parameters", .obj payload.transformationParameters),
    ("generated_at", .str payload.generatedAt)]

/-- What is signed, as JSON. -/
def UnsignedPayload.toJson (payload : UnsignedPayload) : Json := .obj payload.fields

/-- The fields of a manifest. -/
def EvidenceManifest.fields (manifest : EvidenceManifest) : List (String × Json) :=
  manifest.toUnsignedPayload.fields ++ [("signature", .str manifest.signature)]

/-- A manifest as JSON. -/
def EvidenceManifest.toJson (manifest : EvidenceManifest) : Json := .obj manifest.fields

/-! ### The schema -/

/-- `z.string().min(1)` -/
def stringField (fields : List (String × Json)) (name : String) : Option String :=
  match fields.lookup name with
  | some (.str value) => if value ≠ "" then some value else none
  | _ => none

/-- A field that has to be a date. -/
def dateField (fields : List (String × Json)) (name : String) : Option String :=
  match fields.lookup name with
  | some (.str value) => if isoDate value = true then some value else none
  | _ => none

/-- `z.number()` between bounds -/
def numberField (fields : List (String × Json)) (name : String) (inBounds : ℚ → Bool) :
    Option NumberText :=
  match fields.lookup name with
  | some (.num value) => if inBounds (DecimalText.value value.text) = true then some value else none
  | _ => none

/-- `z.record(z.string(), z.unknown())`, which copies the properties that it keeps. -/
def recordField (keeps : String → Bool) (fields : List (String × Json)) (name : String) :
    Option (List (String × Json)) :=
  match fields.lookup name with
  | some (.obj record) => some (record.filter fun field => keeps field.1)
  | _ => none

/-- `EvidenceManifestSchema.parse`; `none` where it throws. -/
def EvidenceManifestSchema (keeps : String → Bool) : Json → Option EvidenceManifest
  | .obj fields => do
      let projectId ← stringField fields "project_id"
      let provider ← stringField fields "provider"
      let signerPublicKey ← stringField fields "signer_public_key"
      let methodology ← stringField fields "methodology"
      let periodStart ← dateField fields "period_start"
      let periodEnd ← dateField fields "period_end"
      let carbonSequestered ← numberField fields "carbon_sequestered" fun n => 0 ≤ n
      let confidence ← numberField fields "confidence" fun n => 0 ≤ n && n ≤ 1
      let rawObservations ← recordField keeps fields "raw_observations"
      let transformationParameters ← recordField keeps fields "transformation_parameters"
      let generatedAt ← stringField fields "generated_at"
      let signature ← stringField fields "signature"
      return { projectId, provider, signerPublicKey, methodology, periodStart, periodEnd,
               carbonSequestered, confidence, rawObservations, transformationParameters,
               generatedAt, signature }
  | _ => none

/-! ### Signing and verifying -/

/-- The secret where none is given. -/
def DEFAULT_MANIFEST_SECRET : String := "ecomint-oracle-provider-secret-key"

/-- The key where none is given. -/
def DEFAULT_SIGNER_KEY : String := "ECOMINT_ORACLE_KEY_V1"

/-- What a manifest is made from. -/
structure CreateManifestInput where
  projectId : String
  provider : String
  signerPublicKey : Option String
  signerSecret : Option String
  methodology : String
  periodStart : String
  periodEnd : String
  carbonSequestered : NumberText
  confidence : NumberText
  rawObservations : List (String × Json)
  transformationParameters : List (String × Json)
  generatedAt : Option String

/-- `value || fallback` for a string that may be missing. -/
def orElse (value : Option String) (fallback : String) : String :=
  match value with
  | some text => if text = "" then fallback else text
  | none => fallback

/-- The payload that is signed for an input at a time. -/
def unsignedPayload (input : CreateManifestInput) (now : String) : UnsignedPayload where
  projectId := input.projectId
  provider := input.provider
  signerPublicKey := orElse input.signerPublicKey DEFAULT_SIGNER_KEY
  methodology := input.methodology
  periodStart := input.periodStart
  periodEnd := input.periodEnd
  carbonSequestered := input.carbonSequestered
  confidence := input.confidence
  rawObservations := input.rawObservations
  transformationParameters := input.transformationParameters
  generatedAt := orElse input.generatedAt now

/-- The secret that signs. -/
def signerSecret (input : CreateManifestInput) : String :=
  orElse input.signerSecret DEFAULT_MANIFEST_SECRET

/-- What the verifier answers. -/
structure Verdict where
  valid : Bool
  error : Option String
deriving DecidableEq, Repr

section

variable (hmac : String → String → String) (keeps : String → Bool) (zodMessage : Json → String)

/-- The hexadecimal HMAC of the canonical text under a secret. -/
def signEvidence (payload : Json) (secret : String) : String := hmac secret (canonicalJson payload)

/-- The manifest is signed and then read by the schema, whose result is returned. -/
def createSignedManifest (input : CreateManifestInput) (now : String) : Option EvidenceManifest :=
  let payload := unsignedPayload input now
  let signature := signEvidence hmac payload.toJson (signerSecret input)
  EvidenceManifestSchema keeps (EvidenceManifest.mk payload signature).toJson

/-- The manifest is read by the schema, and the signature computed again from what it
gives. -/
def verifyManifest (manifest : Json) (expectedSecret : String) : Verdict :=
  match EvidenceManifestSchema keeps manifest with
  | none => ⟨false, some ("Schema validation failed: " ++ zodMessage manifest)⟩
  | some parsed =>
      let expectedSignature := signEvidence hmac parsed.toUnsignedPayload.toJson expectedSecret
      if parsed.signature ≠ expectedSignature then
        ⟨false, some "Signature verification failed (tampered payload or invalid secret)"⟩
      else ⟨true, none⟩

end

/-! ## What the schema makes of a manifest -/

/-- The value has the fields of the manifest, among others and in any order. -/
def HasFields (value : Json) (manifest : EvidenceManifest) : Prop :=
  ∃ fields, value = .obj fields ∧
    ∀ field ∈ manifest.fields, fields.lookup field.1 = some field.2

/-- The schema takes the fields of the manifest. -/
structure SchemaTakes (manifest : EvidenceManifest) : Prop where
  strings : ∀ text ∈ [manifest.projectId, manifest.provider, manifest.signerPublicKey,
    manifest.methodology, manifest.generatedAt, manifest.signature], text ≠ ""
  dates : isoDate manifest.periodStart = true ∧ isoDate manifest.periodEnd = true
  carbonSequestered : 0 ≤ DecimalText.value manifest.carbonSequestered.text
  confidence : 0 ≤ DecimalText.value manifest.confidence.text ∧
    DecimalText.value manifest.confidence.text ≤ 1

/-- What the schema returns of a manifest: of its records only the properties whose
names it keeps. -/
def EvidenceManifest.copied (keeps : String → Bool) (manifest : EvidenceManifest) :
    EvidenceManifest :=
  { manifest with
    rawObservations := manifest.rawObservations.filter fun field => keeps field.1
    transformationParameters :=
      manifest.transformationParameters.filter fun field => keeps field.1 }

/-- A manifest whose names are all kept is copied as it is. -/
theorem EvidenceManifest.copied_of_keeps {keeps : String → Bool} {manifest : EvidenceManifest}
    (h : ∀ field ∈ manifest.rawObservations ++ manifest.transformationParameters,
      keeps field.1 = true) : manifest.copied keeps = manifest := by
  obtain ⟨hraw, hparameters⟩ := List.forall_mem_append.mp h
  rw [copied, List.filter_eq_self.mpr hraw, List.filter_eq_self.mpr hparameters]

/-- A copy is copied as it is. -/
theorem EvidenceManifest.copied_copied (keeps : String → Bool) (manifest : EvidenceManifest) :
    (manifest.copied keeps).copied keeps = manifest.copied keeps := by
  refine copied_of_keeps (List.forall_mem_append.mpr ⟨?_, ?_⟩)
  · exact fun field hfield => (List.mem_filter.mp hfield).2
  · exact fun field hfield => (List.mem_filter.mp hfield).2

/-- A text is read from its field. -/
theorem stringField_of_lookup {fields : List (String × Json)} {name text : String}
    (h : fields.lookup name = some (.str text)) (hne : text ≠ "") :
    stringField fields name = some text := by
  rw [stringField, h]
  exact if_pos hne

/-- A date is read from its field. -/
theorem dateField_of_lookup {fields : List (String × Json)} {name text : String}
    (h : fields.lookup name = some (.str text)) (hdate : isoDate text = true) :
    dateField fields name = some text := by
  rw [dateField, h]
  exact if_pos hdate

/-- A number is read from its field. -/
theorem numberField_of_lookup {fields : List (String × Json)} {name : String} {n : NumberText}
    {inBounds : ℚ → Bool} (h : fields.lookup name = some (.num n))
    (hbounds : inBounds (DecimalText.value n.text) = true) :
    numberField fields name inBounds = some n := by
  rw [numberField, h]
  exact if_pos hbounds

/-- A record is read from its field, as far as its names are kept. -/
theorem recordField_of_lookup {keeps : String → Bool} {fields record : List (String × Json)}
    {name : String} (h : fields.lookup name = some (.obj record)) :
    recordField keeps fields name = some (record.filter fun field => keeps field.1) := by
  rw [recordField, h]

/-- The schema returns its copy of the fields that it takes. -/
theorem schema_of_hasFields {keeps : String → Bool} {value : Json} {manifest : EvidenceManifest}
    (h : HasFields value manifest) (htakes : SchemaTakes manifest) :
    EvidenceManifestSchema keeps value = some (manifest.copied keeps) := by
  obtain ⟨fields, rfl, hfields⟩ := h
  have hstrings := htakes.strings
  simp only [List.forall_mem_cons] at hstrings
  obtain ⟨hproject, hprovider, hsigner, hmethodology, hgenerated, hsignature, -⟩ := hstrings
  have hconfidence : (decide (0 ≤ DecimalText.value manifest.confidence.text) &&
      decide (DecimalText.value manifest.confidence.text ≤ 1)) = true := by
    simp [htakes.confidence]
  simp only [EvidenceManifest.fields, UnsignedPayload.fields, List.cons_append, List.nil_append,
    List.forall_mem_cons] at hfields
  obtain ⟨hf1, hf2, hf3, hf4, hf5, hf6, hf7, hf8, hf9, hf10, hf11, hf12, -⟩ := hfields
  rw [EvidenceManifestSchema, stringField_of_lookup hf1 hproject,
    stringField_of_lookup hf2 hprovider, stringField_of_lookup hf3 hsigner,
    stringField_of_lookup hf4 hmethodology, dateField_of_lookup hf5 htakes.dates.1,
    dateField_of_lookup hf6 htakes.dates.2,
    numberField_of_lookup hf7 (decide_eq_true htakes.carbonSequestered),
    numberField_of_lookup hf8 hconfidence, recordField_of_lookup hf9,
    recordField_of_lookup hf10, stringField_of_lookup hf11 hgenerated,
    stringField_of_lookup hf12 hsignature]
  rfl

theorem manifest_keys_nodup (manifest : EvidenceManifest) :
    (manifest.fields.map Prod.fst).Nodup := by
  change List.Nodup ["project_id", "provider", "signer_public_key", "methodology", "period_start",
    "period_end", "carbon_sequestered", "confidence", "raw_observations",
    "transformation_parameters", "generated_at", "signature"]
  decide

/-- The fields of a manifest are read from its JSON. -/
theorem hasFields_toJson (manifest : EvidenceManifest) : HasFields manifest.toJson manifest :=
  ⟨manifest.fields, rfl, fun _ hfield => Json.lookup_of_mem (manifest_keys_nodup manifest) hfield⟩

/-- What is read from a text's field is the text. -/
theorem of_stringField {fields : List (String × Json)} {name text value : String}
    (h : stringField fields name = some text) (hlookup : fields.lookup name = some (.str value)) :
    text = value ∧ value ≠ "" := by
  rw [stringField, hlookup] at h
  dsimp only at h
  split_ifs at h with hne
  exact ⟨(Option.some.inj h).symm, hne⟩

/-- What is read from a date's field is the date. -/
theorem of_dateField {fields : List (String × Json)} {name text value : String}
    (h : dateField fields name = some text) (hlookup : fields.lookup name = some (.str value)) :
    text = value ∧ isoDate value = true := by
  rw [dateField, hlookup] at h
  dsimp only at h
  split_ifs at h with hdate
  exact ⟨(Option.some.inj h).symm, hdate⟩

/-- What is read from a number's field is the number. -/
theorem of_numberField {fields : List (String × Json)} {name : String} {n value : NumberText}
    {inBounds : ℚ → Bool} (h : numberField fields name inBounds = some n)
    (hlookup : fields.lookup name = some (.num value)) :
    n = value ∧ inBounds (DecimalText.value value.text) = true := by
  rw [numberField, hlookup] at h
  dsimp only at h
  split_ifs at h with hbounds
  exact ⟨(Option.some.inj h).symm, hbounds⟩

/-- What is read from a record's field is what is kept of it. -/
theorem of_recordField {keeps : String → Bool} {fields record value : List (String × Json)}
    {name : String} (h : recordField keeps fields name = some record)
    (hlookup : fields.lookup name = some (.obj value)) :
    record = value.filter fun field => keeps field.1 := by
  rw [recordField_of_lookup hlookup] at h
  exact (Option.some.inj h).symm

/-- The schema returns its copy of a manifest, or does not take it. -/
theorem of_schema_toJson {keeps : String → Bool} {manifest parsed : EvidenceManifest}
    (h : EvidenceManifestSchema keeps manifest.toJson = some parsed) :
    parsed = manifest.copied keeps ∧ SchemaTakes manifest := by
  unfold EvidenceManifest.toJson EvidenceManifestSchema at h
  obtain ⟨projectId, hproject, h⟩ := Option.bind_eq_some_iff.mp h
  obtain ⟨provider, hprovider, h⟩ := Option.bind_eq_some_iff.mp h
  obtain ⟨signerPublicKey, hsigner, h⟩ := Option.bind_eq_some_iff.mp h
  obtain ⟨methodology, hmethodology, h⟩ := Option.bind_eq_some_iff.mp h
  obtain ⟨periodStart, hstart, h⟩ := Option.bind_eq_some_iff.mp h
  obtain ⟨periodEnd, hend, h⟩ := Option.bind_eq_some_iff.mp h
  obtain ⟨carbonSequestered, hcarbon, h⟩ := Option.bind_eq_some_iff.mp h
  obtain ⟨confidence, hconfidence, h⟩ := Option.bind_eq_some_iff.mp h
  obtain ⟨rawObservations, hraw, h⟩ := Option.bind_eq_some_iff.mp h
  obtain ⟨transformationParameters, hparameters, h⟩ := Option.bind_eq_some_iff.mp h
  obtain ⟨generatedAt, hgenerated, h⟩ := Option.bind_eq_some_iff.mp h
  obtain ⟨signature, hsignature, hparsed⟩ := Option.bind_eq_some_iff.mp h
  obtain ⟨rfl, hproject'⟩ := of_stringField hproject rfl
  obtain ⟨rfl, hprovider'⟩ := of_stringField hprovider rfl
  obtain ⟨rfl, hsigner'⟩ := of_stringField hsigner rfl
  obtain ⟨rfl, hmethodology'⟩ := of_stringField hmethodology rfl
  obtain ⟨rfl, hstart'⟩ := of_dateField hstart rfl
  obtain ⟨rfl, hend'⟩ := of_dateField hend rfl
  obtain ⟨rfl, hcarbon'⟩ := of_numberField hcarbon rfl
  obtain ⟨rfl, hconfidence'⟩ := of_numberField hconfidence rfl
  obtain rfl := of_recordField hraw rfl
  obtain rfl := of_recordField hparameters rfl
  obtain ⟨rfl, hgenerated'⟩ := of_stringField hgenerated rfl
  obtain ⟨rfl, hsignature'⟩ := of_stringField hsignature rfl
  refine ⟨(Option.some.inj hparsed).symm, ?_, ⟨hstart', hend'⟩,
    of_decide_eq_true hcarbon', ?_⟩
  · simp only [List.forall_mem_cons]
    exact ⟨hproject', hprovider', hsigner', hmethodology', hgenerated', hsignature', by simp⟩
  · simpa using hconfidence'

/-! ## The signed fields -/

/-- Two payloads have the same values in every field, up to the order of keys. -/
structure UnsignedPayload.SameFields (payload payload' : UnsignedPayload) : Prop where
  projectId : payload.projectId = payload'.projectId
  provider : payload.provider = payload'.provider
  signerPublicKey : payload.signerPublicKey = payload'.signerPublicKey
  methodology : payload.methodology = payload'.methodology
  periodStart : payload.periodStart = payload'.periodStart
  periodEnd : payload.periodEnd = payload'.periodEnd
  carbonSequestered : payload.carbonSequestered = payload'.carbonSequestered
  confidence : payload.confidence = payload'.confidence
  rawObservations : Json.Same (.obj payload.rawObservations) (.obj payload'.rawObservations)
  transformationParameters :
    Json.Same (.obj payload.transformationParameters) (.obj payload'.transformationParameters)
  generatedAt : payload.generatedAt = payload'.generatedAt

/-- Only a text is the same as a text. -/
theorem eq_of_same_str {text : String} {value : Json} (h : Json.Same (.str text) value) :
    value = .str text := by
  cases h
  rfl

/-- Only a number is the same as a number. -/
theorem eq_of_same_num {n : NumberText} {value : Json} (h : Json.Same (.num n) value) :
    value = .num n := by
  cases h
  rfl

/-- Only an object is the same as an object. -/
theorem exists_of_same_obj {fields : List (String × Json)} {value : Json}
    (h : Json.Same (.obj fields) value) :
    ∃ fields', value = .obj fields' ∧ Json.Same (.obj fields) (.obj fields') := by
  cases h with
  | obj hperm hfields => exact ⟨_, rfl, .obj hperm hfields⟩

/-- A text is found in a field that is the same. -/
theorem lookup_str {text name : String} {fields : List (String × Json)}
    (h : ∃ field, fields.lookup name = some field ∧ Json.Same (.str text) field) :
    fields.lookup name = some (.str text) := by
  obtain ⟨field, hfield, hsame⟩ := h
  rw [hfield, eq_of_same_str hsame]

/-- A number is found in a field that is the same. -/
theorem lookup_num {n : NumberText} {name : String} {fields : List (String × Json)}
    (h : ∃ field, fields.lookup name = some field ∧ Json.Same (.num n) field) :
    fields.lookup name = some (.num n) := by
  obtain ⟨field, hfield, hsame⟩ := h
  rw [hfield, eq_of_same_num hsame]

/-- A record is found in a field that is the same, up to the order of keys. -/
theorem lookup_obj {record : List (String × Json)} {name : String} {fields : List (String × Json)}
    (h : ∃ field, fields.lookup name = some field ∧ Json.Same (.obj record) field) :
    ∃ record', fields.lookup name = some (.obj record') ∧
      Json.Same (.obj record) (.obj record') := by
  obtain ⟨field, hfield, hsame⟩ := h
  obtain ⟨record', rfl, hsame'⟩ := exists_of_same_obj hsame
  exact ⟨record', hfield, hsame'⟩

theorem payload_keys_nodup (payload : UnsignedPayload) :
    (payload.fields.map Prod.fst).Nodup := by
  have hall := manifest_keys_nodup ⟨payload, ""⟩
  rw [EvidenceManifest.fields, List.map_append] at hall
  exact hall.of_append_left

/-- A manifest whose keys are reordered has the fields of a manifest that is the
same in every field. -/
theorem exists_hasFields {manifest : EvidenceManifest} {value : Json}
    (h : Json.Same manifest.toJson value) :
    ∃ manifest' : EvidenceManifest, HasFields value manifest' ∧
      manifest.toUnsignedPayload.SameFields manifest'.toUnsignedPayload ∧
      manifest'.signature = manifest.signature := by
  obtain ⟨fields, rfl, hlookup⟩ := Json.Same.lookup h (manifest_keys_nodup manifest)
  have hf1 := lookup_str (hlookup "project_id" _ rfl)
  have hf2 := lookup_str (hlookup "provider" _ rfl)
  have hf3 := lookup_str (hlookup "signer_public_key" _ rfl)
  have hf4 := lookup_str (hlookup "methodology" _ rfl)
  have hf5 := lookup_str (hlookup "period_start" _ rfl)
  have hf6 := lookup_str (hlookup "period_end" _ rfl)
  have hf7 := lookup_num (hlookup "carbon_sequestered" _ rfl)
  have hf8 := lookup_num (hlookup "confidence" _ rfl)
  obtain ⟨raw, hf9, hraw⟩ := lookup_obj (hlookup "raw_observations" _ rfl)
  obtain ⟨parameters, hf10, hparameters⟩ :=
    lookup_obj (hlookup "transformation_parameters" _ rfl)
  have hf11 := lookup_str (hlookup "generated_at" _ rfl)
  have hf12 := lookup_str (hlookup "signature" _ rfl)
  refine ⟨{ manifest with
    rawObservations := raw
    transformationParameters := parameters }, ⟨fields, rfl, ?_⟩,
    ⟨rfl, rfl, rfl, rfl, rfl, rfl, rfl, rfl, hraw, hparameters, rfl⟩, rfl⟩
  simp only [EvidenceManifest.fields, UnsignedPayload.fields, List.cons_append, List.nil_append,
    List.forall_mem_cons]
  exact ⟨hf1, hf2, hf3, hf4, hf5, hf6, hf7, hf8, hf9, hf10, hf11, hf12, by simp⟩

/-- The signed text is that of the values of the fields. -/
theorem same_toJson_iff (payload payload' : UnsignedPayload) :
    Json.Same payload.toJson payload'.toJson ↔ payload.SameFields payload' := by
  constructor
  · intro h
    obtain ⟨fields, hfields, hlookup⟩ := Json.Same.lookup h (payload_keys_nodup payload)
    obtain rfl : payload'.fields = fields := Json.obj.inj hfields
    have hstr (name : String) {text text' : String} (h : payload.fields.lookup name = some (.str text))
        (h' : payload'.fields.lookup name = some (.str text')) : text = text' := by
      have hfound := lookup_str (hlookup name _ h)
      rw [h'] at hfound
      exact (Json.str.inj (Option.some.inj hfound)).symm
    have hnum (name : String) {n n' : NumberText}
        (h : payload.fields.lookup name = some (.num n))
        (h' : payload'.fields.lookup name = some (.num n')) : n = n' := by
      have hfound := lookup_num (hlookup name _ h)
      rw [h'] at hfound
      exact (Json.num.inj (Option.some.inj hfound)).symm
    have hobj (name : String) {r r' : List (String × Json)}
        (h : payload.fields.lookup name = some (.obj r))
        (h' : payload'.fields.lookup name = some (.obj r')) : Json.Same (.obj r) (.obj r') := by
      obtain ⟨record, hfound, hsame⟩ := lookup_obj (hlookup name _ h)
      rw [h'] at hfound
      obtain rfl := Json.obj.inj (Option.some.inj hfound)
      exact hsame
    exact
      { projectId := hstr "project_id" rfl rfl
        provider := hstr "provider" rfl rfl
        signerPublicKey := hstr "signer_public_key" rfl rfl
        methodology := hstr "methodology" rfl rfl
        periodStart := hstr "period_start" rfl rfl
        periodEnd := hstr "period_end" rfl rfl
        carbonSequestered := hnum "carbon_sequestered" rfl rfl
        confidence := hnum "confidence" rfl rfl
        rawObservations := hobj "raw_observations" rfl rfl
        transformationParameters := hobj "transformation_parameters" rfl rfl
        generatedAt := hstr "generated_at" rfl rfl }
  · intro h
    apply Json.Same.obj (List.Perm.refl _)
    rw [UnsignedPayload.fields, UnsignedPayload.fields, h.projectId, h.provider, h.signerPublicKey,
      h.methodology, h.periodStart, h.periodEnd, h.carbonSequestered, h.confidence, h.generatedAt]
    exact .cons (.str _) (.cons (.str _) (.cons (.str _) (.cons (.str _) (.cons (.str _)
      (.cons (.str _) (.cons (.num _) (.cons (.num _) (.cons h.rawObservations
        (.cons h.transformationParameters (.cons (.str _) .nil))))))))))

/-- What is signed has distinct keys if its records have. -/
theorem toJson_distinct {payload : UnsignedPayload}
    (hraw : (Json.obj payload.rawObservations).Distinct)
    (hparameters : (Json.obj payload.transformationParameters).Distinct) :
    payload.toJson.Distinct := by
  refine ⟨payload_keys_nodup payload, ?_⟩
  rw [Json.distinctFields_iff]
  simp only [UnsignedPayload.fields, List.forall_mem_cons]
  exact ⟨trivial, trivial, trivial, trivial, trivial, trivial, trivial, trivial, hraw, hparameters,
    trivial, by simp⟩

/-- What the schema takes, it takes in any order of the keys. -/
theorem SchemaTakes.of_same {manifest manifest' : EvidenceManifest} (h : SchemaTakes manifest)
    (hsame : manifest.toUnsignedPayload.SameFields manifest'.toUnsignedPayload)
    (hsignature : manifest'.signature = manifest.signature) : SchemaTakes manifest' := by
  have hstrings := h.strings
  rw [hsame.projectId, hsame.provider, hsame.signerPublicKey, hsame.methodology,
    hsame.generatedAt, ← hsignature] at hstrings
  exact
    { strings := hstrings
      dates := by
        rw [← hsame.periodStart, ← hsame.periodEnd]
        exact h.dates
      carbonSequestered := by
        rw [← hsame.carbonSequestered]
        exact h.carbonSequestered
      confidence := by
        rw [← hsame.confidence]
        exact h.confidence }

/-- The names in a record are kept in any order of its keys. -/
theorem keeps_of_same {keeps : String → Bool} {record record' : List (String × Json)}
    (h : Json.Same (.obj record) (.obj record')) (hkeeps : ∀ field ∈ record, keeps field.1 = true) :
    ∀ field ∈ record', keeps field.1 = true := by
  intro field hfield
  have hkey := h.keys_perm.symm.subset (List.mem_map_of_mem hfield)
  obtain ⟨field', hfield', hkey'⟩ := List.mem_map.mp hkey
  rw [← hkey']
  exact hkeeps field' hfield'

/-- A record that is the same as its copy has only names that are kept. -/
theorem keeps_of_same_filter {keeps : String → Bool} {record : List (String × Json)}
    (h : Json.Same (.obj record) (.obj (record.filter fun field => keeps field.1))) :
    ∀ field ∈ record, keeps field.1 = true := by
  have hlength := h.keys_perm.length_eq
  rw [List.length_map, List.length_map] at hlength
  exact List.length_filter_eq_length_iff.mp hlength.symm

/-! ## Which manifests verify -/

/-- The records of an input are objects: their keys are distinct, at every depth. -/
structure CreateManifestInput.Distinct (input : CreateManifestInput) : Prop where
  rawObservations : (Json.obj input.rawObservations).Distinct
  transformationParameters : (Json.obj input.transformationParameters).Distinct

/-- The schema drops no property of the records. -/
def CreateManifestInput.Kept (keeps : String → Bool) (input : CreateManifestInput) : Prop :=
  ∀ field ∈ input.rawObservations ++ input.transformationParameters, keeps field.1 = true

section

variable {hmac : String → String → String} {keeps : String → Bool} {zodMessage : Json → String}

/-- The input with its signature, before the schema copies it. -/
def signedManifest (hmac : String → String → String) (input : CreateManifestInput) (now : String) :
    EvidenceManifest :=
  ⟨unsignedPayload input now,
    signEvidence hmac (unsignedPayload input now).toJson (signerSecret input)⟩

/-- What the schema takes is signed, and returned as far as its names are kept. -/
theorem createSignedManifest_of_takes {input : CreateManifestInput} {now : String}
    (h : SchemaTakes (signedManifest hmac input now)) :
    createSignedManifest hmac keeps input now = some ((signedManifest hmac input now).copied keeps) :=
  schema_of_hasFields (hasFields_toJson _) h

/-- A signed manifest whose names are all kept is returned as it is. -/
theorem signedManifest_copied {input : CreateManifestInput} (hkept : input.Kept keeps)
    (now : String) :
    (signedManifest hmac input now).copied keeps = signedManifest hmac input now := by
  apply EvidenceManifest.copied_of_keeps
  exact hkept

/-- What is created is the schema's copy of the input with its signature. -/
theorem createSignedManifest_eq {input : CreateManifestInput} {now : String}
    {manifest : EvidenceManifest}
    (h : createSignedManifest hmac keeps input now = some manifest) :
    manifest = (signedManifest hmac input now).copied keeps ∧
      SchemaTakes (signedManifest hmac input now) :=
  of_schema_toJson h

/-- Nothing is lost from an input of which everything is kept. -/
theorem createSignedManifest_eq_of_kept {input : CreateManifestInput} {now : String}
    {manifest : EvidenceManifest} (hkept : input.Kept keeps)
    (h : createSignedManifest hmac keeps input now = some manifest) :
    manifest = signedManifest hmac input now ∧ SchemaTakes manifest := by
  obtain ⟨rfl, htakes⟩ := createSignedManifest_eq h
  rw [signedManifest_copied hkept]
  exact ⟨rfl, htakes⟩

/-- The payload of what the schema reads decides. -/
theorem verifyManifest_of_schema {value : Json} {parsed : EvidenceManifest}
    (h : EvidenceManifestSchema keeps value = some parsed) (secret : String) :
    verifyManifest hmac keeps zodMessage value secret =
      if parsed.signature ≠ signEvidence hmac parsed.toUnsignedPayload.toJson secret then
        ⟨false, some "Signature verification failed (tampered payload or invalid secret)"⟩
      else ⟨true, none⟩ := by
  rw [verifyManifest, h]

/-- A manifest whose names were all kept is accepted under every order of its keys. -/
theorem verifyManifest_of_same {input : CreateManifestInput} {now : String}
    {manifest : EvidenceManifest} (hdistinct : input.Distinct) (hkept : input.Kept keeps)
    (h : createSignedManifest hmac keeps input now = some manifest) {value : Json}
    (hsame : Json.Same manifest.toJson value) :
    verifyManifest hmac keeps zodMessage value (signerSecret input) = ⟨true, none⟩ := by
  obtain ⟨rfl, htakes⟩ := createSignedManifest_eq_of_kept hkept h
  obtain ⟨manifest', hfields, hpayload, hsignature⟩ := exists_hasFields hsame
  have htext : canonicalJson (unsignedPayload input now).toJson =
      canonicalJson manifest'.toUnsignedPayload.toJson :=
    (canonicalJson_eq_iff
      (toJson_distinct hdistinct.rawObservations hdistinct.transformationParameters)).mpr
        ((same_toJson_iff _ _).mpr hpayload)
  have hkept' : ∀ field ∈ manifest'.rawObservations ++ manifest'.transformationParameters,
      keeps field.1 = true := by
    obtain ⟨hraw, hparameters⟩ := List.forall_mem_append.mp hkept
    exact List.forall_mem_append.mpr ⟨keeps_of_same hpayload.rawObservations hraw,
      keeps_of_same hpayload.transformationParameters hparameters⟩
  have hparsed : EvidenceManifestSchema keeps value = some manifest' := by
    rw [schema_of_hasFields hfields (htakes.of_same hpayload hsignature),
      EvidenceManifest.copied_of_keeps hkept']
  rw [verifyManifest_of_schema hparsed, hsignature, signedManifest, signEvidence, signEvidence, htext]
  simp

/-- Only an input of which everything is kept makes a manifest that is accepted: the
others are signed with a property that the manifest does not have. -/
theorem kept_of_verifyManifest (hinj : ∀ secret, Function.Injective (hmac secret))
    {input : CreateManifestInput} {now : String} {manifest : EvidenceManifest}
    (h : createSignedManifest hmac keeps input now = some manifest)
    (haccepted : verifyManifest hmac keeps zodMessage manifest.toJson (signerSecret input) =
      ⟨true, none⟩) : input.Kept keeps := by
  obtain ⟨rfl, htakes⟩ := createSignedManifest_eq h
  have htakes' : SchemaTakes ((signedManifest hmac input now).copied keeps) :=
    ⟨htakes.strings, htakes.dates, htakes.carbonSequestered, htakes.confidence⟩
  have hparsed : EvidenceManifestSchema keeps ((signedManifest hmac input now).copied keeps).toJson =
      some ((signedManifest hmac input now).copied keeps) := by
    rw [schema_of_hasFields (hasFields_toJson _) htakes', EvidenceManifest.copied_copied]
  rw [verifyManifest_of_schema hparsed] at haccepted
  split_ifs at haccepted with hsignature
  · exact absurd haccepted (by simp)
  have htext := hinj _ (not_not.mp hsignature)
  have hsame := (same_toJson_iff _ _).mp (same_of_canonicalJson htext)
  exact List.forall_mem_append.mpr ⟨keeps_of_same_filter hsame.rawObservations,
    keeps_of_same_filter hsame.transformationParameters⟩

/-- A manifest that differs in a signed field is rejected under the signature. -/
theorem verifyManifest_of_different (hinj : ∀ secret, Function.Injective (hmac secret))
    {input : CreateManifestInput} {now : String} {manifest parsed : EvidenceManifest}
    (hkept : input.Kept keeps) (h : createSignedManifest hmac keeps input now = some manifest)
    {value : Json} (hparsed : EvidenceManifestSchema keeps value = some parsed)
    (hsignature : parsed.signature = manifest.signature)
    (hdifferent : ¬ manifest.toUnsignedPayload.SameFields parsed.toUnsignedPayload) :
    verifyManifest hmac keeps zodMessage value (signerSecret input) =
      ⟨false, some "Signature verification failed (tampered payload or invalid secret)"⟩ := by
  obtain ⟨rfl, -⟩ := createSignedManifest_eq_of_kept hkept h
  rw [verifyManifest_of_schema hparsed, hsignature]
  apply if_pos
  intro htext
  apply hdifferent
  rw [← same_toJson_iff]
  exact same_of_canonicalJson (hinj _ htext)

end

/-- Observations with an array and a nested object. -/
def sampleInput : CreateManifestInput where
  projectId := "7"
  provider := "verra"
  signerPublicKey := none
  signerSecret := some "s"
  methodology := "VERRA_VCS"
  periodStart := "2025-01-01"
  periodEnd := "2025-03-31"
  carbonSequestered := Json.ofNat 5000
  confidence := Json.ofNat 1
  rawObservations := [("b", .arr [.num (Json.ofNat 1), .null]), ("a", .obj [("x", .bool true)])]
  transformationParameters := []
  generatedAt := some "2025-04-01T00:00:00.000Z"

/-- A stand-in for the MAC. -/
def sampleMac (secret message : String) : String := secret ++ message

/-- The names that the schema copies into a record. -/
def keptNames (name : String) : Bool := name ≠ "__proto__"

/-- The stand-in tells messages apart. -/
theorem sampleMac_injective (secret : String) : Function.Injective (sampleMac secret) := by
  intro message message' h
  have hchars := congrArg String.toList h
  rw [sampleMac, sampleMac, String.toList_append, String.toList_append] at hchars
  exact String.toList_inj.mp (List.append_cancel_left hchars)

/-- The schema takes the sample with other observations and another amount. -/
theorem sample_takes (records : List (String × Json)) (n : Nat)
    (hn : 0 ≤ DecimalText.value (Json.ofNat n).text) :
    SchemaTakes { signedManifest sampleMac { sampleInput with rawObservations := records } "" with
      carbonSequestered := Json.ofNat n } := by
  have hsignature (text : String) : sampleMac "s" text ≠ "" := by
    simp [sampleMac]
  have hdates : isoDate "2025-01-01" = true ∧ isoDate "2025-03-31" = true := by decide +kernel
  have hconfidence : 0 ≤ DecimalText.value (Json.ofNat 1).text ∧
      DecimalText.value (Json.ofNat 1).text ≤ 1 := by decide +kernel
  refine ⟨?_, hdates, hn, hconfidence⟩
  simp [signedManifest, unsignedPayload, sampleInput, orElse, DEFAULT_SIGNER_KEY, signEvidence,
    signerSecret, hsignature]

/-- Observations with a property of their own that is named `__proto__`. -/
def protoInput : CreateManifestInput :=
  { sampleInput with rawObservations := [("__proto__", .null)] }

end EcoMint
