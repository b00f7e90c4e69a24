import EcoMint.Shared
import Mathlib.Data.Nat.Digits.Defs
import Mathlib.Tactic.IntervalCases

/-!
# Evidence references

The two ways `common/utils/cid.util.ts` lets a reference to evidence be written:
a CIDv0, which is the base-58 text of a multihash of 34 bytes, and the 64
hexadecimal digits of a SHA-256 digest.  Either names a digest of 32 bytes, and
the digest is what a report keeps on-chain.  Anything else is refused.
-/

namespace EcoMint

/-! ## Hexadecimal digits -/

/-- The value of a hexadecimal digit. -/
def hexDigit (c : Char) : Option Nat :=
  if '0' ≤ c ∧ c ≤ '9' then some (c.toNat - '0'.toNat)
  else if 'a' ≤ c ∧ c ≤ 'f' then some (c.toNat - 'a'.toNat + 10)
  else if 'A' ≤ c ∧ c ≤ 'F' then some (c.toNat - 'A'.toNat + 10)
  else none

/-- `Buffer.from(text, 'hex')`: the bytes up to the first pair that is not two
digits. -/
def bufferFromHex : List Char → List UInt8
  | high :: low :: rest =>
      match hexDigit high, hexDigit low with
      | some h, some l => UInt8.ofNat (16 * h + l) :: bufferFromHex rest
      | _, _ => []
  | _ => []

/-- Hexadecimal digits make half as many bytes. -/
theorem length_bufferFromHex : ∀ cs : List Char,
    (∀ c ∈ cs, (hexDigit c).isSome = true) → (bufferFromHex cs).length = cs.length / 2
  | [], _ => rfl
  | [_], _ => by simp [bufferFromHex]
  | high :: low :: rest, h => by
      obtain ⟨x, hx⟩ := Option.isSome_iff_exists.mp (h high (by simp))
      obtain ⟨y, hy⟩ := Option.isSome_iff_exists.mp (h low (by simp))
      have ih := length_bufferFromHex rest fun c hc => h c (by simp [hc])
      simp only [bufferFromHex, hx, hy, List.length_cons, ih]
      omega

/-- `buffer.toString('hex')` -/
def toHex : List UInt8 → List Char
  | [] => []
  | byte :: rest => (byte.toNat / 16).digitChar :: (byte.toNat % 16).digitChar :: toHex rest

/-- A hexadecimal digit is read back. -/
theorem hexDigit_digitChar {d : Nat} (h : d < 16) : hexDigit d.digitChar = some d := by
  interval_cases d <;> decide

/-- Bytes are read back from their hexadecimal digits. -/
theorem bufferFromHex_toHex : ∀ bytes : List UInt8, bufferFromHex (toHex bytes) = bytes
  | [] => rfl
  | byte :: rest => by
      have hlt := byte.toNat_lt
      have hhigh := hexDigit_digitChar (show byte.toNat / 16 < 16 by omega)
      have hlow := hexDigit_digitChar (show byte.toNat % 16 < 16 by omega)
      simp only [toHex, bufferFromHex, hhigh, hlow, bufferFromHex_toHex rest, Nat.div_add_mod,
        UInt8.ofNat_toNat]

/-- The hexadecimal text tells the bytes. -/
theorem toHex_inj {bytes bytes' : List UInt8} : toHex bytes = toHex bytes' ↔ bytes = bytes' := by
  constructor
  · intro h
    rw [← bufferFromHex_toHex bytes, h, bufferFromHex_toHex]
  · rintro rfl
    rfl

/-! ## Base 58 -/

/-- The digits of base 58. -/
def BASE58_ALPHABET : List Char :=
  "123456789ABCDEFGHJKLMNPQRSTUVWXYZabcdefghijkmnopqrstuvwxyz".toList

/-- `digits * factor + carry` in a base, the lowest digit first; what is left of
the carry after the last digit becomes new digits. -/
def mulAdd (base factor : Nat) : Nat → List Nat → List Nat
  | carry, [] => base.digits carry
  | carry, digit :: rest =>
      (carry + digit * factor) % base :: mulAdd base factor ((carry + digit * factor) / base) rest

/-- The loop of `base58Decode`, from the bytes so far. -/
def base58DecodeLoop (bytes : List Nat) : List Char → Option (List Nat)
  | [] => some bytes
  | char :: rest =>
      match BASE58_ALPHABET.idxOf? char with
      | some c => base58DecodeLoop (mulAdd 256 58 c bytes) rest
      | none => none

/-- The bytes of a base-58 text; `none` where it throws. -/
def base58Decode (str : List Char) : Option (List UInt8) := do
  let bytes ← base58DecodeLoop [0] str
  let leading := List.replicate (str.takeWhile (· = '1')).length 0
  return (bytes ++ leading).reverse.map UInt8.ofNat

/-- The digits of a buffer, the lowest first, from the digit zero. -/
def base58Digits (buffer : List UInt8) : List Nat :=
  buffer.foldl (fun digits byte => mulAdd 58 256 byte.toNat digits) [0]

/-- Bytes as a text: leading zero bytes are `1`s, and the rest is a number. -/
def base58Encode (buffer : List UInt8) : String :=
  String.ofList (List.replicate (buffer.takeWhile (· = 0)).length '1' ++
    (base58Digits buffer).reverse.map fun digit => BASE58_ALPHABET.getD digit '1')

/-! ## Base 32 -/

/-- The digits of base 32. -/
def BASE32_ALPHABET : List Char := "ABCDEFGHIJKLMNOPQRSTUVWXYZ234567".toList

/-- The inner loop of `base32Encode`: a character for every five bits, and how
many bits are left. -/
def base32Drain (value : Nat) : Nat → List Char × Nat
  | bits + 5 =>
      let (output, left) := base32Drain value bits
      (BASE32_ALPHABET.getD (value >>> bits % 32) 'A' :: output, left)
  | bits => ([], bits)

/-- The outer loop; the value is a 32-bit integer. -/
def base32EncodeLoop (value bits : Nat) : List UInt8 → List Char
  | [] => if bits > 0 then [BASE32_ALPHABET.getD (value <<< (5 - bits) % 32) 'A'] else []
  | byte :: rest =>
      let value := (value * 256 + byte.toNat) % 2 ^ 32
      let (output, left) := base32Drain value (bits + 8)
      output ++ base32EncodeLoop value left rest

/-- Bytes as a text, five bits for a character. -/
def base32Encode (buffer : List UInt8) : String := String.ofList (base32EncodeLoop 0 0 buffer)

/-! ## References -/

/-- The bytes before the digest of a CIDv0. -/
def CIDV0_PREFIX : List UInt8 := [0x12, 0x20]

/-- How many bytes a digest has. -/
def DIGEST_LENGTH : Nat := 32

/-- `/^[0-9a-fA-F]\x7b64\x7d$/` -/
def isHexDigest (cs : List Char) : Bool :=
  cs.length = 64 && cs.all fun c => (hexDigit c).isSome

/-- `[1-9A-HJ-NP-Za-km-z]` -/
def isBase58Char (c : Char) : Bool :=
  ('1' ≤ c ∧ c ≤ '9') ∨ ('A' ≤ c ∧ c ≤ 'H') ∨ ('J' ≤ c ∧ c ≤ 'N') ∨ ('P' ≤ c ∧ c ≤ 'Z') ∨
    ('a' ≤ c ∧ c ≤ 'k') ∨ ('m' ≤ c ∧ c ≤ 'z')

/-- `/^Qm[1-9A-HJ-NP-Za-km-z]\x7b44\x7d$/` -/
def looksLikeCidV0 : List Char → Bool
  | 'Q' :: 'm' :: rest => rest.length = 44 && rest.all isBase58Char
  | _ => false

/-- The digest a reference names, or nothing. -/
def tryExtractDigest (cid : String) : Option (List UInt8) :=
  if isHexDigest cid.toList then some (bufferFromHex cid.toList)
  else if looksLikeCidV0 cid.toList then
    match base58Decode cid.toList with
    | some decoded =>
        if decoded.length = 34 ∧ decoded.take 2 = CIDV0_PREFIX then some (decoded.drop 2) else none
    | none => none
  else none

/-- What the encoder throws. -/
structure InvalidEvidenceReferenceError where
  message : String
deriving DecidableEq, Repr

/-- The digest of an evidence reference. -/
def encodeCid (cid : String) : Except InvalidEvidenceReferenceError (BytesN 32) :=
  if cid = "" then .error ⟨"Invalid evidence reference: must be a non-empty string"⟩
  else
    match tryExtractDigest cid with
    | some digest =>
        if h : digest.length = DIGEST_LENGTH then .ok ⟨digest, h⟩
        else .error (unsupported cid)
    | none => .error (unsupported cid)
where
  unsupported (cid : String) : InvalidEvidenceReferenceError :=
    ⟨"Invalid evidence reference: \"" ++ cid ++ "\" is not a supported CIDv0 or " ++
      "64-character hex SHA-256 digest"⟩

/-- The text for the bytes that a contract stores, of which the length and the
first bytes say what they are. -/
def decodeCid (bytes : List UInt8) : String :=
  if bytes = [] then ""
  else if bytes.length = 34 ∧ bytes.take 2 = CIDV0_PREFIX then base58Encode bytes
  else if bytes.length > 2 ∧ bytes.head? = some 0x01 then base32Encode bytes
  else if bytes.length = DIGEST_LENGTH then base58Encode (CIDV0_PREFIX ++ bytes)
  else base32Encode bytes

/-- An evidence reference has a digest. -/
def isValidCid (cid : String) : Bool := (tryExtractDigest cid).isSome

/-- A digest that is found has the length of a digest. -/
theorem length_of_tryExtractDigest {cid : String} {digest : List UInt8}
    (h : tryExtractDigest cid = some digest) : digest.length = DIGEST_LENGTH := by
  unfold tryExtractDigest at h
  split at h
  · rename_i hhex
    obtain rfl : bufferFromHex cid.toList = digest := by simpa using h
    simp only [isHexDigest, Bool.and_eq_true, decide_eq_true_eq, List.all_eq_true] at hhex
    rw [length_bufferFromHex _ hhex.2, hhex.1]
    rfl
  · split at h
    · split at h
      · split at h
        · rename_i decoded _ hdecoded
          obtain rfl : decoded.drop 2 = digest := by simpa using h
          rw [List.length_drop, hdecoded.1]
          rfl
        · cases h
      · cases h
    · cases h

/-- `isValidCid` says whether `encodeCid` returns. -/
theorem isValidCid_iff_encodeCid {cid : String} :
    isValidCid cid = true ↔ ∃ digest, encodeCid cid = .ok digest := by
  have hempty : isValidCid "" = false := rfl
  constructor
  · intro hvalid
    obtain ⟨digest, hdigest⟩ := Option.isSome_iff_exists.mp hvalid
    have hne : cid ≠ "" := by
      rintro rfl
      simp [hempty] at hvalid
    have hlength := length_of_tryExtractDigest hdigest
    exact ⟨⟨digest, hlength⟩, by simp [encodeCid, hne, hdigest, hlength]⟩
  · rintro ⟨digest, hdigest⟩
    unfold encodeCid at hdigest
    split at hdigest
    · cases hdigest
    · split at hdigest
      · rename_i found hfound
        exact Option.isSome_iff_exists.mpr ⟨found, hfound⟩
      · cases hdigest

end EcoMint
