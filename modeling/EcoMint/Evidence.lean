import EcoMint.CidRoundTrip

/-!
# Evidence hashes of the adapters

`ipfs/evidence.ts` has a base58btc codec of its own and reads a CIDv0 with it.
Both directions of the codec start from one digit zero and then put a zero in
front for every leading zero, so each of them changes the base of a list of
digits and keeps its leading zeros; on the way there and back nothing is lost as
long as some digit is not zero, and otherwise a zero is gained.

The check that the API makes of a reference to evidence reads the same strings
with other code.  The two read the same bytes from every string, so they accept
the same strings and name the same digest.
-/

namespace EcoMint

open Radix

/-! ## The codec -/

/-- The digits of base 58. -/
def ALPHABET_BASE58 : List Char :=
  "123456789ABCDEFGHJKLMNPQRSTUVWXYZabcdefghijkmnopqrstuvwxyz".toList

/-- The code of SHA-256 in a multihash and the length of the digest. -/
def MULTIHASH_SHA2_256 : List UInt8 := [0x12, 0x20]

/-- What the decoder throws. -/
structure InvalidEvidenceHashError where
  message : String
deriving DecidableEq, Repr

/-- The first loop of `decodeBase58btc`, from the bytes so far, the lowest first. -/
def decodeBase58btcLoop (bytes : List Nat) :
    List Char → Except InvalidEvidenceHashError (List Nat)
  | [] => .ok bytes
  | char :: rest =>
      match ALPHABET_BASE58.idxOf? char with
      | some value => decodeBase58btcLoop (mulAdd 256 58 value bytes) rest
      | none => .error ⟨"Invalid base58btc character: \"" ++ String.singleton char ++ "\""⟩

/-- A text as bytes: its leading `1`s are zero bytes, and the rest is a number. -/
def decodeBase58btc (input : String) : Except InvalidEvidenceHashError (List UInt8) := do
  let bytes ← decodeBase58btcLoop [0] input.toList
  let leadingZeros := (input.toList.takeWhile (· = '1')).length
  return List.replicate leadingZeros 0 ++ bytes.reverse.map UInt8.ofNat

/-- Bytes as a text: leading zero bytes are `1`s, and the rest is a number. -/
def encodeBase58btc (input : List UInt8) : String :=
  let digits := input.foldl (fun digits byte => mulAdd 58 256 byte.toNat digits) [0]
  let leadingZeros := (input.takeWhile (· = 0)).length
  String.ofList (List.replicate leadingZeros '1' ++
    digits.reverse.map fun d => ALPHABET_BASE58.getD d '1')

/-! ## References -/

/-- The digest of a CIDv0, which has to be a multihash of 34 bytes. -/
def decodeCidV0 (cid : String) : Except InvalidEvidenceHashError (List UInt8) := do
  if looksLikeCidV0 cid.toList = false then
    throw ⟨"Invalid evidence hash: \"" ++ cid ++ "\" is not a well-formed CIDv0"⟩
  let decoded ← decodeBase58btc cid
  if decoded.length ≠ 34 ∨ decoded.take 2 ≠ MULTIHASH_SHA2_256 then
    throw ⟨"Invalid evidence hash: \"" ++ cid ++
      "\" does not decode to a 32-byte sha2-256 multihash"⟩
  return decoded.drop 2

/-- A digest in hexadecimal digits, or a CIDv0 that can be decoded. -/
def isValidEvidenceHash (value : String) : Bool :=
  isHexDigest value.toList || (decodeCidV0 value).isOk

/-! ## The codec changes the base -/

/-- The text of some bytes is that of their digits in base 58. -/
theorem encodeBase58btc_eq (input : List UInt8) :
    (encodeBase58btc input).toList =
      (rebase 256 58 (input.map UInt8.toNat)).map base58Char := by
  have hleading : ((input.map UInt8.toNat).takeWhile (· = 0)).length =
      (input.takeWhile (· = 0)).length := by
    rw [List.takeWhile_map, List.length_map]
    congr 2
    funext byte
    simp [← UInt8.toNat_inj]
  have hdigits : input.foldl (fun digits byte => mulAdd 58 256 byte.toNat digits) [0] =
      numeral 58 (value 256 (input.map UInt8.toNat)) := base58Digits_eq input
  rw [encodeBase58btc, hdigits, rebase, hleading, List.map_append, List.map_replicate,
    String.toList_ofList]
  rfl

/-- Both decoders have one loop. -/
theorem base58DecodeLoop_eq (bytes : List Nat) (cs : List Char) :
    base58DecodeLoop bytes cs = (decodeBase58btcLoop bytes cs).toOption := by
  induction cs generalizing bytes with
  | nil => rfl
  | cons char rest ih =>
      rw [base58DecodeLoop, decodeBase58btcLoop]
      have halphabet : BASE58_ALPHABET = ALPHABET_BASE58 := rfl
      rw [halphabet]
      cases ALPHABET_BASE58.idxOf? char with
      | none => rfl
      | some value => exact ih _

/-- Where the API's `base58Decode` throws, `decodeBase58btc` does, and elsewhere they
return the same bytes. -/
theorem base58Decode_eq (input : String) :
    base58Decode input.toList = (decodeBase58btc input).toOption := by
  rw [base58Decode, decodeBase58btc, base58DecodeLoop_eq]
  cases decodeBase58btcLoop [0] input.toList with
  | error message => rfl
  | ok bytes =>
      have hreverse (zeros : Nat) : (bytes ++ List.replicate zeros 0).reverse.map UInt8.ofNat =
          List.replicate zeros 0 ++ bytes.reverse.map UInt8.ofNat := by
        rw [List.reverse_append, List.reverse_replicate, List.map_append, List.map_replicate]
        rfl
      exact congrArg some (hreverse _)

/-- The digits of a text over the alphabet. -/
theorem exists_digits {cs : List Char} (h : ∀ c ∈ cs, c ∈ ALPHABET_BASE58) :
    ∃ digits : List Nat, (∀ digit ∈ digits, digit < 58) ∧ digits.map base58Char = cs := by
  induction cs with
  | nil => exact ⟨[], by simp, rfl⟩
  | cons c rest ih =>
      obtain ⟨digits, hdigits, hrest⟩ := ih fun c' hmem => h c' (List.mem_cons_of_mem c hmem)
      obtain ⟨digit, hidx⟩ : ∃ digit, BASE58_ALPHABET.idxOf? c = some digit := by
        have hsome := List.isSome_idxOf?.mpr (h c (List.mem_cons_self ..))
        exact Option.isSome_iff_exists.mp hsome
      obtain ⟨hlt, hchar⟩ := base58Char_of_idxOf hidx
      refine ⟨digit :: digits, ?_, by rw [List.map_cons, hchar, hrest]⟩
      intro digit' hmem
      rcases List.mem_cons.mp hmem with rfl | hmem
      · exact hlt
      · exact hdigits digit' hmem

theorem map_base58Char_inj {digits digits' : List Nat} (hdigits : ∀ digit ∈ digits, digit < 58)
    (hdigits' : ∀ digit ∈ digits', digit < 58)
    (h : digits.map base58Char = digits'.map base58Char) : digits = digits' := by
  have hloop := congrArg (fun cs => cs.map fun c => (BASE58_ALPHABET.idxOf? c).getD 0) h
  have hback {ds : List Nat} (hds : ∀ digit ∈ ds, digit < 58) :
      (ds.map base58Char).map (fun c => (BASE58_ALPHABET.idxOf? c).getD 0) = ds := by
    rw [List.map_map]
    refine (List.map_congr_left fun digit hdigit => ?_).trans (List.map_id ds)
    rw [Function.comp_apply, idxOf_base58Char (hds digit hdigit)]
    rfl
  rwa [hback hdigits, hback hdigits'] at hloop

/-- The leading `1`s are the leading zeros. -/
theorem takeWhile_one_map {digits : List Nat} (hdigits : ∀ digit ∈ digits, digit < 58) :
    ((digits.map base58Char).takeWhile (· = '1')).length = (digits.takeWhile (· = 0)).length := by
  induction digits with
  | nil => rfl
  | cons digit rest ih =>
      have ih' := ih fun digit' hmem => hdigits digit' (List.mem_cons_of_mem digit hmem)
      by_cases hzero : digit = 0
      · subst hzero
        rw [List.map_cons, List.takeWhile_cons_of_pos (by decide),
          List.takeWhile_cons_of_pos (by decide), List.length_cons, List.length_cons, ih']
      · have hchar := base58Char_ne_one (hdigits digit (List.mem_cons_self ..)) hzero
        rw [List.map_cons, List.takeWhile_cons_of_neg (by simpa using hchar),
          List.takeWhile_cons_of_neg (by simpa using hzero)]
        rfl

/-- The bytes of a text are those of its digits. -/
theorem decodeBase58btc_eq {input : String} {digits : List Nat}
    (hdigits : ∀ digit ∈ digits, digit < 58) (hinput : digits.map base58Char = input.toList) :
    decodeBase58btc input = .ok ((rebase 58 256 digits).map UInt8.ofNat) := by
  have hloop : base58DecodeLoop [0] (digits.map base58Char) =
      some (numeral 256 (value 58 digits)) := base58DecodeLoop_map hdigits 0
  rw [base58DecodeLoop_eq, hinput] at hloop
  have hleading := takeWhile_one_map hdigits
  rw [hinput] at hleading
  unfold decodeBase58btc
  cases hbytes : decodeBase58btcLoop [0] input.toList with
  | error message =>
      rw [hbytes] at hloop
      cases hloop
  | ok bytes =>
      rw [hbytes] at hloop
      obtain rfl : bytes = numeral 256 (value 58 digits) := Option.some.inj hloop
      rw [rebase, List.map_append, List.map_replicate, ← hleading]
      rfl

/-! ## There and back -/

/-- Bytes come back exactly if one of them is not zero. -/
theorem decode_encode_iff (buffer : List UInt8) :
    decodeBase58btc (encodeBase58btc buffer) = .ok buffer ↔ ∃ byte ∈ buffer, byte ≠ 0 := by
  have hbytes : ∀ byte ∈ rebase 58 256 (rebase 256 58 (buffer.map UInt8.toNat)), byte < 256 := by
    intro byte hbyte
    exact lt_of_mem_rebase (by decide) hbyte
  have hnonzero : (∃ byte ∈ buffer, byte ≠ 0) ↔ ∃ digit ∈ buffer.map UInt8.toNat, digit ≠ 0 := by
    simp [← UInt8.toNat_inj]
  rw [decodeBase58btc_eq (fun digit hdigit => lt_of_mem_rebase (by decide) hdigit)
    (encodeBase58btc_eq buffer).symm, hnonzero,
    ← rebase_rebase_iff 58 (by decide) lt_of_mem_map_toNat, Except.ok.injEq]
  constructor
  · intro heq
    rw [← map_toNat_ofNat hbytes, heq]
  · intro heq
    rw [heq, map_ofNat_toNat]

/-- A text comes back exactly if one of its characters is not `1`. -/
theorem encode_decode_iff {text : String} (h : ∀ c ∈ text.toList, c ∈ ALPHABET_BASE58) :
    (∃ buffer, decodeBase58btc text = .ok buffer ∧ encodeBase58btc buffer = text) ↔
      ∃ c ∈ text.toList, c ≠ '1' := by
  obtain ⟨digits, hdigits, htext⟩ := exists_digits h
  have hbytes : ∀ byte ∈ rebase 58 256 digits, byte < 256 := by
    intro byte hbyte
    exact lt_of_mem_rebase (by decide) hbyte
  have hnonzero : (∃ c ∈ text.toList, c ≠ '1') ↔ ∃ digit ∈ digits, digit ≠ 0 := by
    rw [← htext]
    constructor
    · rintro ⟨c, hmem, hchar⟩
      obtain ⟨digit, hdigit, rfl⟩ := List.mem_map.mp hmem
      refine ⟨digit, hdigit, ?_⟩
      rintro rfl
      exact hchar rfl
    · rintro ⟨digit, hmem, hdigit⟩
      exact ⟨base58Char digit, List.mem_map_of_mem hmem,
        base58Char_ne_one (hdigits digit hmem) hdigit⟩
  have hback : encodeBase58btc ((rebase 58 256 digits).map UInt8.ofNat) = text ↔
      (rebase 256 58 (rebase 58 256 digits)).map base58Char = digits.map base58Char := by
    rw [← String.toList_inj, encodeBase58btc_eq, map_toNat_ofNat hbytes, htext]
  rw [hnonzero, ← rebase_rebase_iff 256 (by decide) hdigits, decodeBase58btc_eq hdigits htext]
  constructor
  · rintro ⟨buffer, hbuffer, htext'⟩
    obtain rfl := Except.ok.inj hbuffer
    exact map_base58Char_inj (fun digit hdigit => lt_of_mem_rebase (by decide) hdigit) hdigits
      (hback.mp htext')
  · intro heq
    exact ⟨_, rfl, hback.mpr (by rw [heq])⟩

/-- **The codec is a bijection** except for what has no digit other than zero: a
buffer comes back exactly when one of its bytes is not zero, and a text over the
alphabet exactly when one of its characters is not `1`. -/
theorem base58btc_round_trips_iff (buffer : List UInt8) (text : String)
    (h : ∀ c ∈ text.toList, c ∈ ALPHABET_BASE58) :
    (decodeBase58btc (encodeBase58btc buffer) = .ok buffer ↔ ∃ byte ∈ buffer, byte ≠ 0) ∧
    ((∃ bytes, decodeBase58btc text = .ok bytes ∧ encodeBase58btc bytes = text) ↔
      ∃ c ∈ text.toList, c ≠ '1') :=
  ⟨decode_encode_iff buffer, encode_decode_iff h⟩

/-- Two leading zeros survive in both directions. -/
theorem base58btc_round_trips_zeros :
    decodeBase58btc (encodeBase58btc [0, 0, 7]) = .ok [0, 0, 7] ∧
      ∃ bytes, decodeBase58btc "11Qm" = .ok bytes ∧ encodeBase58btc bytes = "11Qm" := by
  have halphabet : ALPHABET_BASE58 = BASE58_ALPHABET := rfl
  have hall : ("11Qm".toList.all fun c => decide (c ∈ ALPHABET_BASE58)) = true := by
    rw [halphabet, alphabet_eq]
    decide
  obtain ⟨hbuffer, htext⟩ := base58btc_round_trips_iff [0, 0, 7] "11Qm"
    fun c hc => of_decide_eq_true (List.all_eq_true.mp hall c hc)
  exact ⟨hbuffer.mpr ⟨7, by simp, by decide⟩, htext.mpr ⟨'Q', by simp, by decide⟩⟩

/-- The empty buffer comes back as two zeros, a zero as three, and the text `1` as
`111`. -/
theorem base58btc_zeros_gained :
    decodeBase58btc (encodeBase58btc []) = .ok [0, 0] ∧
      decodeBase58btc (encodeBase58btc [0]) = .ok [0, 0, 0] ∧
      (∃ bytes, decodeBase58btc "1" = .ok bytes ∧ encodeBase58btc bytes = "111") ∧
      ¬ ∀ buffer, decodeBase58btc (encodeBase58btc buffer) = .ok buffer := by
  have hempty : decodeBase58btc (encodeBase58btc []) = .ok [0, 0] := by decide +kernel
  refine ⟨hempty, by decide +kernel, ⟨[0, 0], by decide +kernel, by decide +kernel⟩, ?_⟩
  intro hall
  rw [hall []] at hempty
  cases hempty

/-! ## One reading of a reference -/

/-- The adapters read the digest of a CIDv0 that the API reads. -/
theorem decodeCidV0_ok_iff {cid : String} {digest : List UInt8}
    (hcid : looksLikeCidV0 cid.toList = true) :
    decodeCidV0 cid = .ok digest ↔ tryExtractDigest cid = some digest := by
  have hdecoded := base58Decode_eq cid
  rw [tryExtractDigest, if_neg (by simp [not_isHexDigest_of_looksLikeCidV0 hcid]), if_pos hcid,
    hdecoded, decodeCidV0, if_neg (by simp [hcid])]
  cases decodeBase58btc cid with
  | error message =>
      constructor
      · intro h
        cases h
      · intro h
        cases h
  | ok decoded =>
      have hcode : CIDV0_PREFIX = MULTIHASH_SHA2_256 := rfl
      by_cases hmultihash : decoded.length = 34 ∧ decoded.take 2 = MULTIHASH_SHA2_256
      · simp [Except.toOption, hcode, hmultihash, bind, Except.bind, pure, Except.pure]
      · have hor : decoded.length ≠ 34 ∨ decoded.take 2 ≠ MULTIHASH_SHA2_256 := by
          by_contra hnot
          rw [not_or, not_not, not_not] at hnot
          exact hmultihash hnot
        simp [Except.toOption, hcode, hmultihash, hor, bind, Except.bind, throw, throwThe,
          MonadExceptOf.throw]

/-- A text without the form of a CIDv0 is not decoded. -/
theorem decodeCidV0_of_not {cid : String} (hcid : looksLikeCidV0 cid.toList ≠ true)
    (digest : List UInt8) : decodeCidV0 cid ≠ .ok digest := by
  rw [decodeCidV0, if_pos (by simpa using hcid)]
  intro h
  cases h

/-- What the check takes for an evidence hash. -/
theorem isValidEvidenceHash_iff (value : String) :
    isValidEvidenceHash value = true ↔
      isHexDigest value.toList = true ∨ ∃ digest, decodeCidV0 value = .ok digest := by
  rw [isValidEvidenceHash, Bool.or_eq_true]
  apply or_congr Iff.rfl
  cases decodeCidV0 value with
  | error message => simp [Except.isOk, Except.toBool]
  | ok digest => simp [Except.isOk, Except.toBool]

/-- **The two checks agree** on every string, and the API and the adapters name
the same digest for every CIDv0 that is accepted. -/
theorem evidence_checks_agree (value : String) :
    isValidCid value = isValidEvidenceHash value ∧
      (looksLikeCidV0 value.toList = true → isValidCid value = true →
        ∃ digest, encodeCid value = .ok digest ∧ decodeCidV0 value = .ok digest.bytes) := by
  constructor
  · rw [Bool.eq_iff_iff, isValidEvidenceHash_iff, isValidCid, Option.isSome_iff_exists]
    by_cases hhex : isHexDigest value.toList = true
    · rw [tryExtractDigest, if_pos hhex]
      exact iff_of_true ⟨_, rfl⟩ (.inl hhex)
    · by_cases hcid : looksLikeCidV0 value.toList = true
      · have hiff : (∃ digest, decodeCidV0 value = .ok digest) ↔
            ∃ digest, tryExtractDigest value = some digest :=
          exists_congr fun digest => decodeCidV0_ok_iff hcid
        rw [hiff]
        exact ⟨.inr, fun h => h.resolve_left hhex⟩
      · rw [tryExtractDigest, if_neg hhex, if_neg hcid]
        constructor
        · rintro ⟨digest, hdigest⟩
          cases hdigest
        · rintro (hhex' | ⟨digest, hdigest⟩)
          · exact absurd hhex' hhex
          · exact absurd hdigest (decodeCidV0_of_not hcid digest)
  · intro hcid hvalid
    obtain ⟨digest, hdigest⟩ := isValidCid_iff_encodeCid.mp hvalid
    exact ⟨digest, hdigest, (decodeCidV0_ok_iff hcid).mpr (encodeCid_ok_iff.mp hdigest)⟩

/-- The sample reference is accepted on both sides. -/
theorem evidence_checks_agree_sample : isValidEvidenceHash sampleCid = true ∧
    ∃ digest, encodeCid sampleCid = .ok digest ∧ decodeCidV0 sampleCid = .ok digest.bytes := by
  have hvalid : isValidCid sampleCid = true := by decide +kernel
  obtain ⟨hagree, hdigest⟩ := evidence_checks_agree sampleCid
  exact ⟨hagree ▸ hvalid, hdigest (by decide) hvalid⟩

end EcoMint
