import EcoMint.Cid
import EcoMint.Radix

/-!
# From evidence to the chain and back

The base-58 loops of `cid.util.ts` keep the numeral of the number that they have
read so far, so on a text and on a buffer that do not begin with a zero digit
each undoes the other.  A digest with the prefix of a multihash is such a buffer,
and its text begins with `Qm`.  The way back fails for one reason only:
`decodeCid` takes a digest whose first byte is one for a CIDv1.
-/

namespace EcoMint

open Radix

/-! ## The loops keep numerals -/

/-- One pass of a loop over the digits multiplies and adds. -/
theorem mulAdd_digits {base factor : Nat} (hbase : 1 < base) (hfactor : 0 < factor)
    (carry n : Nat) :
    mulAdd base factor carry (base.digits n) = base.digits (n * factor + carry) := by
  induction n using Nat.strongRecOn generalizing carry with
  | _ n ih =>
      rcases Nat.eq_zero_or_pos n with rfl | hn
      · simp [mulAdd]
      · have hsum : 0 < n * factor + carry := by
          have := Nat.mul_pos hn hfactor
          omega
        have hparts : n * factor + carry =
            carry + n % base * factor + base * (n / base * factor) := by
          conv_lhs => rw [← Nat.mod_add_div n base]
          ring
        rw [Nat.digits_def' hbase hn, mulAdd, ih (n / base) (Nat.div_lt_self hn hbase),
          Nat.digits_def' hbase hsum, hparts, Nat.add_mul_mod_self_left,
          Nat.add_mul_div_left _ _ (by omega), Nat.add_comm (n / base * factor)]

/-- One pass from a numeral leaves the numeral of the next number. -/
theorem mulAdd_numeral {base factor : Nat} (hbase : 1 < base) (hfactor : 0 < factor)
    (carry n : Nat) :
    mulAdd base factor carry (numeral base n) = numeral base (n * factor + carry) := by
  unfold numeral
  split
  · next hzero =>
      subst hzero
      rw [Nat.zero_mul, Nat.zero_add]
      split
      · next hcarry => simp [hcarry, mulAdd]
      · next hcarry =>
          rw [Nat.digits_def' hbase (Nat.pos_of_ne_zero hcarry)]
          simp [mulAdd]
  · next hn =>
      have hpos := Nat.mul_pos (Nat.pos_of_ne_zero hn) hfactor
      rw [mulAdd_digits hbase hfactor, if_neg (by omega)]

/-- The base-58 digits of a buffer are those of the number that its bytes write. -/
theorem base58Digits_eq (buffer : List UInt8) :
    base58Digits buffer = numeral 58 (value 256 (buffer.map UInt8.toNat)) := by
  induction buffer using List.reverseRecOn with
  | nil => rfl
  | append_singleton buffer byte ih =>
      unfold base58Digits at ih ⊢
      rw [List.foldl_append, ih, List.map_append, List.map_singleton, value_snoc,
        List.foldl_cons, List.foldl_nil, mulAdd_numeral (by decide) (by decide)]

/-- The character of a base-58 digit. -/
def base58Char (digit : Nat) : Char := BASE58_ALPHABET.getD digit '1'

/-- The digits of base 58. -/
theorem alphabet_eq : BASE58_ALPHABET =
    ['1', '2', '3', '4', '5', '6', '7', '8', '9', 'A', 'B', 'C', 'D', 'E', 'F', 'G', 'H', 'J', 'K',
      'L', 'M', 'N', 'P', 'Q', 'R', 'S', 'T', 'U', 'V', 'W', 'X', 'Y', 'Z', 'a', 'b', 'c', 'd', 'e',
      'f', 'g', 'h', 'i', 'j', 'k', 'm', 'n', 'o', 'p', 'q', 'r', 's', 't', 'u', 'v', 'w', 'x', 'y',
      'z'] := String.toList_ofList

/-- There are 58 of them. -/
theorem length_alphabet : BASE58_ALPHABET.length = 58 := by
  rw [alphabet_eq]
  rfl

/-- The characters of the alphabet ascend. -/
theorem nodup_alphabet : BASE58_ALPHABET.Nodup := by
  have hchain : (BASE58_ALPHABET.map Char.toNat).IsChain (· < ·) := by
    rw [alphabet_eq]
    decide
  exact List.Nodup.of_map Char.toNat (hchain.pairwise.imp ne_of_lt)

/-- A digit's character stands at its place. -/
theorem base58Char_eq_getElem {digit : Nat} (h : digit < BASE58_ALPHABET.length) :
    base58Char digit = BASE58_ALPHABET[digit] := by
  rw [base58Char, List.getD_eq_getElem?_getD, List.getElem?_eq_getElem h, Option.getD_some]

/-- A digit is found from its character. -/
theorem idxOf_base58Char {digit : Nat} (h : digit < 58) :
    BASE58_ALPHABET.idxOf? (base58Char digit) = some digit := by
  have hlt : digit < BASE58_ALPHABET.length := by rwa [length_alphabet]
  rw [base58Char_eq_getElem hlt, List.idxOf?_eq_some_iff]
  refine ⟨hlt, rfl, ?_⟩
  intro earlier hearlier heq
  have hsame := nodup_alphabet.getElem_inj_iff.mp heq
  omega

/-- A character that is found is that of its digit. -/
theorem base58Char_of_idxOf {c : Char} {digit : Nat} (h : BASE58_ALPHABET.idxOf? c = some digit) :
    digit < 58 ∧ base58Char digit = c := by
  obtain ⟨hlt, hget, -⟩ := List.idxOf?_eq_some_iff.mp h
  refine ⟨by rwa [← length_alphabet], ?_⟩
  rw [base58Char_eq_getElem hlt, hget]

/-- A digit's character is one of base 58. -/
theorem isBase58Char_base58Char {digit : Nat} (h : digit < 58) :
    isBase58Char (base58Char digit) = true := by
  have hlt : digit < BASE58_ALPHABET.length := by rwa [length_alphabet]
  have hall : BASE58_ALPHABET.all isBase58Char = true := by
    rw [alphabet_eq]
    rfl
  rw [base58Char_eq_getElem hlt]
  exact List.all_eq_true.mp hall _ (List.getElem_mem hlt)

/-- Decoding the text of some digits, from the bytes of a number. -/
theorem base58DecodeLoop_map {digits : List Nat} (hdigits : ∀ digit ∈ digits, digit < 58)
    (n : Nat) : base58DecodeLoop (numeral 256 n) (digits.map base58Char) =
      some (numeral 256 (digits.foldl (fun n digit => n * 58 + digit) n)) := by
  induction digits generalizing n with
  | nil => rfl
  | cons digit rest ih =>
      rw [List.map_cons, base58DecodeLoop, idxOf_base58Char (hdigits digit (List.mem_cons_self ..))]
      dsimp only
      rw [mulAdd_numeral (by decide) (by decide), List.foldl_cons]
      exact ih (fun digit' hmem => hdigits digit' (List.mem_cons_of_mem digit hmem)) _

/-- A text that can be decoded is the text of some digits. -/
theorem exists_digits_of_base58DecodeLoop {cs : List Char} {start bytes : List Nat}
    (h : base58DecodeLoop start cs = some bytes) :
    ∃ digits : List Nat, (∀ digit ∈ digits, digit < 58) ∧ digits.map base58Char = cs := by
  induction cs generalizing start with
  | nil => exact ⟨[], by simp, rfl⟩
  | cons c rest ih =>
      unfold base58DecodeLoop at h
      split at h
      · next digit hdigit =>
          obtain ⟨digits, hdigits, hrest⟩ := ih h
          obtain ⟨hlt, hchar⟩ := base58Char_of_idxOf hdigit
          refine ⟨digit :: digits, ?_, by rw [List.map_cons, hchar, hrest]⟩
          intro digit' hmem
          rcases List.mem_cons.mp hmem with rfl | hmem
          · exact hlt
          · exact hdigits digit' hmem
      · cases h

/-! ## Base 58 there and back -/

/-- Only the digit 0 is written `1`. -/
theorem base58Char_ne_one {digit : Nat} (h : digit < 58) (hne : digit ≠ 0) :
    base58Char digit ≠ '1' := by
  intro hone
  have hidx := idxOf_base58Char h
  rw [hone] at hidx
  exact hne (Option.some.inj hidx).symm

/-- Bytes are below 256. -/
theorem lt_of_mem_map_toNat {bytes : List UInt8} : ∀ byte ∈ bytes.map UInt8.toNat, byte < 256 := by
  intro byte hbyte
  obtain ⟨byte, -, rfl⟩ := List.mem_map.mp hbyte
  exact byte.toNat_lt

/-- Bytes are their own numbers. -/
theorem map_ofNat_toNat (bytes : List UInt8) :
    (bytes.map UInt8.toNat).map UInt8.ofNat = bytes := by
  rw [List.map_map]
  exact List.map_id'' (fun byte => UInt8.ofNat_toNat) bytes

/-- Numbers below 256 are their own bytes. -/
theorem map_toNat_ofNat {digits : List Nat} (h : ∀ digit ∈ digits, digit < 256) :
    (digits.map UInt8.ofNat).map UInt8.toNat = digits := by
  rw [List.map_map]
  refine (List.map_congr_left fun digit hdigit => ?_).trans (List.map_id digits)
  exact UInt8.toNat_ofNat_of_lt' (h digit hdigit)

/-- A buffer that does not begin with zero has the text of a numeral. -/
theorem base58Encode_eq {buffer : List UInt8} (hhead : buffer.head? ≠ some 0) :
    (base58Encode buffer).toList =
      (numeral 58 (value 256 (buffer.map UInt8.toNat))).reverse.map base58Char := by
  have hleading : buffer.takeWhile (· = 0) = [] := by
    cases buffer with
    | nil => rfl
    | cons byte rest => exact List.takeWhile_cons_of_neg (by simpa using hhead)
  rw [base58Encode, hleading, base58Digits_eq]
  simp [base58Char]

/-- A text that does not begin with the digit zero stands for the bytes of the
number that it writes. -/
theorem base58Decode_map {digits : List Nat} (hdigits : ∀ digit ∈ digits, digit < 58)
    (hhead : digits.head? ≠ some 0) :
    base58Decode (digits.map base58Char) =
      some ((numeral 256 (value 58 digits)).reverse.map UInt8.ofNat) := by
  have hleading : (digits.map base58Char).takeWhile (· = '1') = [] := by
    cases digits with
    | nil => rfl
    | cons digit rest =>
        have hne : digit ≠ 0 := by simpa using hhead
        have hchar := base58Char_ne_one (hdigits digit (List.mem_cons_self ..)) hne
        exact List.takeWhile_cons_of_neg (by simpa using hchar)
  have hloop : base58DecodeLoop [0] (digits.map base58Char) =
      some (numeral 256 (value 58 digits)) := base58DecodeLoop_map hdigits 0
  rw [base58Decode, hloop, hleading]
  simp

/-- A buffer that does not begin with 0 is decoded from its text. -/
theorem base58Decode_base58Encode {buffer : List UInt8} (hhead : buffer.head? ≠ some 0)
    (hne : buffer ≠ []) : base58Decode (base58Encode buffer).toList = some buffer := by
  have hhead' : (buffer.map UInt8.toNat).head? ≠ some 0 := by
    cases buffer with
    | nil => simp
    | cons byte rest =>
        intro hzero
        have hbyte : byte.toNat = 0 := by simpa using hzero
        exact hhead (congrArg some (UInt8.toNat_inj.mp hbyte))
  have hne' : buffer.map UInt8.toNat ≠ [] := by simpa using hne
  have hn := value_ne_zero (by decide) lt_of_mem_map_toNat hhead' hne'
  have hdigits : ∀ digit ∈ (numeral 58 (value 256 (buffer.map UInt8.toNat))).reverse,
      digit < 58 := by
    intro digit hdigit
    exact lt_of_mem_numeral (by decide) (List.mem_reverse.mp hdigit)
  rw [base58Encode_eq hhead, base58Decode_map hdigits (head?_reverse_numeral 58 hn),
    value_reverse_numeral, numeral_value (by decide) lt_of_mem_map_toNat hhead' hne',
    List.reverse_reverse, map_ofNat_toNat]

/-- A text that does not begin with `1` is encoded from its buffer. -/
theorem base58Encode_of_base58Decode {cs : List Char} {buffer : List UInt8}
    (h : base58Decode cs = some buffer) (hhead : cs.head? ≠ some '1') (hne : cs ≠ []) :
    (base58Encode buffer).toList = cs := by
  have hloop : ∃ bytes, base58DecodeLoop [0] cs = some bytes := by
    cases hloop : base58DecodeLoop [0] cs with
    | none => simp [base58Decode, hloop] at h
    | some bytes => exact ⟨bytes, rfl⟩
  obtain ⟨bytes, hloop⟩ := hloop
  obtain ⟨digits, hdigits, rfl⟩ := exists_digits_of_base58DecodeLoop hloop
  have hhead' : digits.head? ≠ some 0 := by
    cases digits with
    | nil => simp
    | cons digit rest =>
        intro hzero
        obtain rfl : digit = 0 := by simpa using hzero
        exact hhead rfl
  have hne' : digits ≠ [] := by simpa using hne
  have hn := value_ne_zero (by decide) hdigits hhead' hne'
  have hbytes : ∀ byte ∈ (numeral 256 (value 58 digits)).reverse, byte < 256 := by
    intro byte hbyte
    exact lt_of_mem_numeral (by decide) (List.mem_reverse.mp hbyte)
  rw [base58Decode_map hdigits hhead'] at h
  obtain rfl := Option.some.inj h
  have hbuffer : ((numeral 256 (value 58 digits)).reverse.map UInt8.ofNat).head? ≠ some 0 := by
    intro hzero
    have htop := head?_reverse_numeral 256 hn
    rw [← map_toNat_ofNat hbytes, List.head?_map, hzero] at htop
    exact htop rfl
  rw [base58Encode_eq hbuffer, map_toNat_ofNat hbytes, value_reverse_numeral,
    numeral_value (by decide) hdigits hhead' hne', List.reverse_reverse]

/-! ## The text of a digest -/

/-- The number that a multihash writes begins with the two digits of `Qm`. -/
theorem multihash_value {digest : List UInt8} (h : digest.length = DIGEST_LENGTH) :
    58 ^ 45 ≤ value 256 ((CIDV0_PREFIX ++ digest).map UInt8.toNat) ∧
      value 256 ((CIDV0_PREFIX ++ digest).map UInt8.toNat) < 58 ^ 46 ∧
      value 256 ((CIDV0_PREFIX ++ digest).map UInt8.toNat) / 58 ^ 44 = 23 * 58 + 44 := by
  have hrest : value 256 (digest.map UInt8.toNat) <
      256 ^ (digest.map UInt8.toNat).length := value_lt (by decide) lt_of_mem_map_toNat
  have hprefix : value 256 (CIDV0_PREFIX.map UInt8.toNat) = 4640 := by decide
  rw [List.length_map, h, DIGEST_LENGTH] at hrest
  rw [List.map_append, value_append, hprefix, List.length_map, h, DIGEST_LENGTH]
  generalize value 256 (digest.map UInt8.toNat) = rest at hrest
  have hquotient : (4640 * 256 ^ 32 + rest) / 58 ^ 44 = 23 * 58 + 44 := by
    apply Nat.div_eq_of_lt_le <;> norm_num at hrest ⊢ <;> omega
  refine ⟨?_, ?_, hquotient⟩ <;> norm_num at hrest ⊢ <;> omega

/-- The text of a digest is a CIDv0. -/
theorem looksLikeCidV0_multihash {digest : List UInt8} (h : digest.length = DIGEST_LENGTH) :
    looksLikeCidV0 (base58Encode (CIDV0_PREFIX ++ digest)).toList = true := by
  obtain ⟨hlow, hhigh, hquotient⟩ := multihash_value h
  rw [base58Encode_eq (by simp [CIDV0_PREFIX])]
  generalize value 256 ((CIDV0_PREFIX ++ digest).map UInt8.toNat) = n at *
  have hlength := length_numeral (by decide) hlow hhigh
  have htop : (numeral 58 n).drop 44 = [44, 23] := by
    rw [drop_numeral (by decide) (le_trans (by decide) hlow), hquotient]
    decide
  have hsplit : numeral 58 n = (numeral 58 n).take 44 ++ [44, 23] := by
    rw [← htop, List.take_append_drop]
  have hdigits : ∀ digit ∈ (numeral 58 n).take 44, digit < 58 := by
    intro digit hdigit
    exact lt_of_mem_numeral (by decide) (List.mem_of_mem_take hdigit)
  have htext : (numeral 58 n).reverse.map base58Char =
      'Q' :: 'm' :: ((numeral 58 n).take 44).reverse.map base58Char := by
    conv_lhs => rw [hsplit, List.reverse_append]
    rfl
  rw [htext, looksLikeCidV0, Bool.and_eq_true]
  constructor
  · simp [hlength]
  · rw [List.all_eq_true]
    intro c hc
    obtain ⟨digit, hdigit, rfl⟩ := List.mem_map.mp hc
    exact isBase58Char_base58Char (hdigits digit (List.mem_reverse.mp hdigit))

/-- A CIDv0 is not a hexadecimal digest. -/
theorem not_isHexDigest_of_looksLikeCidV0 {cs : List Char} (h : looksLikeCidV0 cs = true) :
    isHexDigest cs = false := by
  unfold looksLikeCidV0 at h
  split at h
  · simp [isHexDigest, hexDigit]
  · cases h

/-- The text of a digest names the digest. -/
theorem tryExtractDigest_multihash {digest : List UInt8} (h : digest.length = DIGEST_LENGTH) :
    tryExtractDigest (base58Encode (CIDV0_PREFIX ++ digest)) = some digest := by
  have hcid := looksLikeCidV0_multihash h
  have hlength : (CIDV0_PREFIX ++ digest).length = 34 := by
    rw [List.length_append, h]
    rfl
  have hprefix : (CIDV0_PREFIX ++ digest).take 2 = CIDV0_PREFIX := rfl
  rw [tryExtractDigest, if_neg (by simp [not_isHexDigest_of_looksLikeCidV0 hcid]), if_pos hcid,
    base58Decode_base58Encode (by simp [CIDV0_PREFIX]) (by simp [CIDV0_PREFIX])]
  dsimp only
  rw [if_pos ⟨hlength, hprefix⟩]
  rfl

/-! ## The text of the bytes in base 32 -/

/-- Draining writes a character for five bits and keeps the rest. -/
theorem base32Drain_spec (value bits : Nat) :
    (base32Drain value bits).1.length = bits / 5 ∧ (base32Drain value bits).2 = bits % 5 := by
  fun_induction base32Drain value bits with
  | case1 bits output left hdrain ih =>
      rw [hdrain] at ih
      simp only [List.length_cons] at ih ⊢
      omega
  | case2 bits hsmall =>
      have hlt : bits < 5 := by
        by_contra hge
        exact hsmall (bits - 5) (by omega)
      simp only [List.length_nil]
      omega

/-- How many characters the loop writes. -/
theorem length_base32EncodeLoop {bits : Nat} (hbits : bits < 5) (value : Nat)
    (bytes : List UInt8) :
    (base32EncodeLoop value bits bytes).length = (bits + 8 * bytes.length + 4) / 5 := by
  induction bytes generalizing value bits with
  | nil =>
      unfold base32EncodeLoop
      split
      · simp only [List.length_singleton, List.length_nil]
        omega
      · simp only [List.length_nil]
        omega
  | cons byte rest ih =>
      unfold base32EncodeLoop
      obtain ⟨hlength, hleft⟩ :=
        base32Drain_spec ((value * 256 + byte.toNat) % 2 ^ 32) (bits + 8)
      dsimp only
      rw [List.length_append, hlength, hleft, ih (Nat.mod_lt _ (by omega)), List.length_cons]
      omega

/-- A digest has 52 characters in base 32. -/
theorem length_base32Encode {digest : List UInt8} (h : digest.length = DIGEST_LENGTH) :
    (base32Encode digest).toList.length = 52 := by
  rw [base32Encode, String.toList_ofList, length_base32EncodeLoop (by omega), h]
  rfl

/-- A CIDv0 has 46 characters. -/
theorem length_of_looksLikeCidV0 {cs : List Char} (h : looksLikeCidV0 cs = true) :
    cs.length = 46 := by
  unfold looksLikeCidV0 at h
  split at h
  · rw [Bool.and_eq_true, decide_eq_true_eq] at h
    rw [List.length_cons, List.length_cons, h.1]
  · cases h

/-- The base-32 text of a digest is no reference. -/
theorem tryExtractDigest_base32 {digest : List UInt8} (h : digest.length = DIGEST_LENGTH) :
    tryExtractDigest (base32Encode digest) = none := by
  have hlength := length_base32Encode h
  have hhex : isHexDigest (base32Encode digest).toList = false := by
    simp [isHexDigest, hlength]
  have hcid : looksLikeCidV0 (base32Encode digest).toList ≠ true := by
    intro hcid
    have := length_of_looksLikeCidV0 hcid
    omega
  rw [tryExtractDigest, if_neg (by simp [hhex]), if_neg hcid]

/-! ## Which references come back -/

/-- Encoding gives the digest that is found in the text. -/
theorem encodeCid_ok_iff {cid : String} {digest : BytesN 32} :
    encodeCid cid = .ok digest ↔ tryExtractDigest cid = some digest.bytes := by
  have hempty : tryExtractDigest "" = none := rfl
  unfold encodeCid
  split
  · next hnone =>
      subst hnone
      simp [hempty]
  · split
    · next found hfound =>
        have hlength := length_of_tryExtractDigest hfound
        rw [dif_pos hlength, hfound, Except.ok.injEq, Option.some.injEq]
        constructor
        · rintro rfl
          rfl
        · intro hbytes
          obtain ⟨bytes, hbytes'⟩ := digest
          subst hbytes
          rfl
    · next hnone => simp [hnone]

/-- A digest that does not begin with one is shown as a CIDv0. -/
theorem decodeCid_digest {digest : List UInt8} (h : digest.length = DIGEST_LENGTH)
    (hhead : digest.head? ≠ some 1) :
    decodeCid digest = base58Encode (CIDV0_PREFIX ++ digest) := by
  have hne : digest ≠ [] := by
    rintro rfl
    cases h
  have hmultihash : ¬ (digest.length = 34 ∧ digest.take 2 = CIDV0_PREFIX) := by
    rw [h, DIGEST_LENGTH]
    omega
  rw [decodeCid, if_neg hne, if_neg hmultihash, if_neg (fun hone => hhead hone.2), if_pos h]

/-- A digest that begins with one is taken for a CIDv1. -/
theorem decodeCid_one {digest : List UInt8} (h : digest.length = DIGEST_LENGTH)
    (hhead : digest.head? = some 1) : decodeCid digest = base32Encode digest := by
  have hne : digest ≠ [] := by
    rintro rfl
    cases h
  have hmultihash : ¬ (digest.length = 34 ∧ digest.take 2 = CIDV0_PREFIX) := by
    rw [h, DIGEST_LENGTH]
    omega
  have hlong : digest.length > 2 := by
    rw [h, DIGEST_LENGTH]
    omega
  rw [decodeCid, if_neg hne, if_neg hmultihash, if_pos ⟨hlong, hhead⟩]

/-- What is stored for a reference gives it back: a CIDv0 itself, and a
hexadecimal digest up to how it is written. -/
def RoundTrips (cid : String) : Prop :=
  ∃ digest, encodeCid cid = .ok digest ∧
    if looksLikeCidV0 cid.toList then decodeCid digest.bytes = cid
    else encodeCid (decodeCid digest.bytes) = .ok digest

/-- A digest is shown as a CIDv0 that names it. -/
def DigestRoundTrips (digest : BytesN 32) : Prop :=
  looksLikeCidV0 (decodeCid digest.bytes).toList = true ∧
    encodeCid (decodeCid digest.bytes) = .ok digest

/-- A CIDv0 is the text of the digest that it names. -/
theorem base58Encode_of_cidV0 {cid : String} {digest : List UInt8}
    (hcid : looksLikeCidV0 cid.toList = true) (h : tryExtractDigest cid = some digest) :
    base58Encode (CIDV0_PREFIX ++ digest) = cid := by
  rw [tryExtractDigest, if_neg (by simp [not_isHexDigest_of_looksLikeCidV0 hcid]),
    if_pos hcid] at h
  split at h
  · next decoded hdecoded =>
      split at h
      · next hmultihash =>
          obtain rfl := Option.some.inj h
          have hbuffer : CIDV0_PREFIX ++ decoded.drop 2 = decoded := by
            rw [← hmultihash.2, List.take_append_drop]
          have hhead : cid.toList.head? ≠ some '1' := by
            unfold looksLikeCidV0 at hcid
            split at hcid
            · next hcs => simp [hcs]
            · cases hcid
          have hne : cid.toList ≠ [] := by
            intro hnil
            rw [hnil] at hcid
            cases hcid
          rw [hbuffer]
          exact String.toList_injective (base58Encode_of_base58Decode hdecoded hhead hne)
      · cases h
  · cases h

/-- A digest comes back exactly if it does not begin with 1. -/
theorem digestRoundTrips_iff (digest : BytesN 32) :
    DigestRoundTrips digest ↔ digest.bytes.head? ≠ some 1 := by
  have hlength : digest.bytes.length = DIGEST_LENGTH := digest.length_eq
  unfold DigestRoundTrips
  constructor
  · rintro ⟨-, hencode⟩ hone
    rw [decodeCid_one hlength hone, encodeCid_ok_iff, tryExtractDigest_base32 hlength] at hencode
    cases hencode
  · intro hhead
    rw [decodeCid_digest hlength hhead]
    exact ⟨looksLikeCidV0_multihash hlength,
      encodeCid_ok_iff.mpr (tryExtractDigest_multihash hlength)⟩

/-- A text comes back exactly if its digest does not begin with 1. -/
theorem roundTrips_iff {cid : String} {digest : BytesN 32} (h : encodeCid cid = .ok digest) :
    RoundTrips cid ↔ digest.bytes.head? ≠ some 1 := by
  have hlength : digest.bytes.length = DIGEST_LENGTH := digest.length_eq
  have hroundTrips : RoundTrips cid ↔
      if looksLikeCidV0 cid.toList then decodeCid digest.bytes = cid
      else encodeCid (decodeCid digest.bytes) = .ok digest := by
    unfold RoundTrips
    rw [h]
    constructor
    · rintro ⟨digest', hdigest, hback⟩
      obtain rfl := Except.ok.inj hdigest
      exact hback
    · intro hback
      exact ⟨digest, rfl, hback⟩
  rw [hroundTrips]
  split
  · next hcid =>
      constructor
      · intro hback hone
        rw [decodeCid_one hlength hone] at hback
        have hshort := length_of_looksLikeCidV0 hcid
        rw [← hback, length_base32Encode hlength] at hshort
        cases hshort
      · intro hhead
        rw [decodeCid_digest hlength hhead, base58Encode_of_cidV0 hcid (encodeCid_ok_iff.mp h)]
  · constructor
    · intro hback hone
      rw [decodeCid_one hlength hone, encodeCid_ok_iff, tryExtractDigest_base32 hlength] at hback
      cases hback
    · intro hhead
      exact ((digestRoundTrips_iff digest).mpr hhead).2

/-- **Evidence round trips**, exactly for the digests whose first byte is not
one: every reference to such a digest, and the digest itself. -/
theorem evidence_round_trips_iff (cid : String) (digest : BytesN 32)
    (hvalid : isValidCid cid = true) :
    (∃ stored, encodeCid cid = .ok stored ∧
      (RoundTrips cid ↔ stored.bytes.head? ≠ some 1)) ∧
    (DigestRoundTrips digest ↔ digest.bytes.head? ≠ some 1) := by
  obtain ⟨stored, hstored⟩ := isValidCid_iff_encodeCid.mp hvalid
  exact ⟨⟨stored, hstored, roundTrips_iff hstored⟩, digestRoundTrips_iff digest⟩

/-- A reference is valid when it names a digest. -/
theorem isValidCid_of_head {cid : String} {first : Option UInt8}
    (h : (tryExtractDigest cid).map List.head? = some first) : isValidCid cid = true := by
  unfold isValidCid
  rw [← Option.isSome_map, h, Option.isSome_some]

def sampleCid : String := "QmT78zSuBmuS4z925WZfrqQ1qHaJ56DQaTfyMUF7F8ff5o"

def sampleDigest : BytesN 32 := ⟨List.replicate 32 6, rfl⟩

/-- A CIDv0 and a digest come back. -/
theorem evidence_round_trips_sample : RoundTrips sampleCid ∧ DigestRoundTrips sampleDigest := by
  have hbytes : (tryExtractDigest sampleCid).map List.head? = some (some 70) := by decide +kernel
  obtain ⟨⟨digest, hdigest, hiff⟩, hback⟩ :=
    evidence_round_trips_iff sampleCid sampleDigest (isValidCid_of_head hbytes)
  rw [encodeCid_ok_iff.mp hdigest] at hbytes
  have hhead : digest.bytes.head? = some 70 := Option.some.inj hbytes
  exact ⟨hiff.mpr (by simp [hhead]), hback.mpr (by decide)⟩

/-- A digest whose first byte is one, in hexadecimal. -/
def digestOfOne : String := "0100000000000000000000000000000000000000000000000000000000000000"

/-- A CIDv0 whose digest begins with 1. -/
theorem digest_of_one_lost : isValidCid digestOfOne = true ∧ ¬ RoundTrips digestOfOne := by
  have hbytes : (tryExtractDigest digestOfOne).map List.head? = some (some 1) := by
    decide +kernel
  have hvalid := isValidCid_of_head hbytes
  obtain ⟨digest, hdigest⟩ := isValidCid_iff_encodeCid.mp hvalid
  rw [encodeCid_ok_iff.mp hdigest] at hbytes
  have hhead : digest.bytes.head? = some 1 := Option.some.inj hbytes
  refine ⟨hvalid, fun hback => ?_⟩
  exact (roundTrips_iff hdigest).mp hback hhead

end EcoMint
