import Mathlib.Data.List.Basic

/-!
# Bytes of a text

The UTF-8 bytes of a text, and the text that a decoder makes of any bytes: where
they do not go on as a character has to, U+FFFD stands for what was begun.

A text that was cut off in front at any byte is decoded to U+FFFD once for every
byte of a split character, and then to the characters that are whole
(`decode_drop_encode`).
-/

namespace Utf8

/-- The bytes of a text. -/
def encode (text : List Char) : List UInt8 := text.flatMap String.utf8EncodeChar

/-- What stands for bytes that are no character. -/
def replacement : Char := '\uFFFD'

/-- A character that was begun: how many bytes are missing, between which bounds
the next one is, and the bits so far. -/
structure Pending where
  missing : Nat
  lower : Nat
  upper : Nat
  bits : Nat

/-- The first byte of a character. -/
def start (byte : Nat) : List Char × Option Pending :=
  if byte ≤ 0x7f then ([Char.ofNat byte], none)
  else if 0xc2 ≤ byte ∧ byte ≤ 0xdf then ([], some ⟨1, 0x80, 0xbf, byte - 0xc0⟩)
  else if 0xe0 ≤ byte ∧ byte ≤ 0xef then
    ([], some ⟨2, if byte = 0xe0 then 0xa0 else 0x80, if byte = 0xed then 0x9f else 0xbf,
      byte - 0xe0⟩)
  else if 0xf0 ≤ byte ∧ byte ≤ 0xf4 then
    ([], some ⟨3, if byte = 0xf0 then 0x90 else 0x80, if byte = 0xf4 then 0x8f else 0xbf,
      byte - 0xf0⟩)
  else ([replacement], none)

/-- One byte; one that cannot go on starts anew. -/
def feed : Option Pending → Nat → List Char × Option Pending
  | none, byte => start byte
  | some p, byte =>
      if p.lower ≤ byte ∧ byte ≤ p.upper then
        let bits := 64 * p.bits + (byte - 0x80)
        if p.missing = 1 then ([Char.ofNat bits], none)
        else ([], some ⟨p.missing - 1, 0x80, 0xbf, bits⟩)
      else (replacement :: (start byte).1, (start byte).2)

/-- Decodes bytes from a sequence that may already be open. -/
def decodeFrom : Option Pending → List UInt8 → List Char
  | none, [] => []
  | some _, [] => [replacement]
  | p, byte :: rest => (feed p byte.toNat).1 ++ decodeFrom (feed p byte.toNat).2 rest

/-- `toString('utf8')` of a buffer -/
def decode (bytes : List UInt8) : List Char := decodeFrom none bytes

/-- A byte inside of a character. -/
def Continues (byte : UInt8) : Prop := 0x80 ≤ byte.toNat ∧ byte.toNat ≤ 0xbf

theorem encode_cons (c : Char) (text : List Char) :
    encode (c :: text) = String.utf8EncodeChar c ++ encode text := List.flatMap_cons

theorem encode_append (text text' : List Char) :
    encode (text ++ text') = encode text ++ encode text' := List.flatMap_append

/-- A continuation byte with no sequence open gives the replacement character. -/
theorem decode_continues {byte : UInt8} (h : Continues byte) (rest : List UInt8) :
    decode (byte :: rest) = replacement :: decode rest := by
  obtain ⟨hlow, hhigh⟩ := h
  have hstart : start byte.toNat = ([replacement], none) := by
    unfold start
    rw [if_neg (by omega), if_neg (by omega), if_neg (by omega), if_neg (by omega)]
  simp [decode, decodeFrom, feed, hstart]

/-- The bytes of a character, by their number. -/
theorem encodeChar_cases (c : Char) :
    (c.toNat ≤ 0x7f ∧ String.utf8EncodeChar c = [UInt8.ofNat c.toNat]) ∨
    (0x7f < c.toNat ∧ c.toNat ≤ 0x7ff ∧ String.utf8EncodeChar c =
      [UInt8.ofNat (c.toNat / 64 + 0xc0), UInt8.ofNat (c.toNat % 64 + 0x80)]) ∨
    (0x7ff < c.toNat ∧ c.toNat ≤ 0xffff ∧ String.utf8EncodeChar c =
      [UInt8.ofNat (c.toNat / 4096 + 0xe0), UInt8.ofNat (c.toNat / 64 % 64 + 0x80),
        UInt8.ofNat (c.toNat % 64 + 0x80)]) ∨
    (0xffff < c.toNat ∧ String.utf8EncodeChar c =
      [UInt8.ofNat (c.toNat / 262144 + 0xf0), UInt8.ofNat (c.toNat / 4096 % 64 + 0x80),
        UInt8.ofNat (c.toNat / 64 % 64 + 0x80), UInt8.ofNat (c.toNat % 64 + 0x80)]) := by
  have hvalid : c.toNat < 0xd800 ∨ 0xdfff < c.toNat ∧ c.toNat < 0x110000 := c.valid
  have hval : c.val.toNat = c.toNat := rfl
  unfold String.utf8EncodeChar
  simp only [hval]
  split_ifs with h1 h2 h3
  · exact Or.inl ⟨h1, rfl⟩
  · have htop : c.toNat / 64 % 0x20 = c.toNat / 64 := Nat.mod_eq_of_lt (by omega)
    rw [htop]
    exact Or.inr (Or.inl ⟨by omega, h2, rfl⟩)
  · have htop : c.toNat / 4096 % 0x10 = c.toNat / 4096 := Nat.mod_eq_of_lt (by omega)
    rw [htop]
    exact Or.inr (Or.inr (Or.inl ⟨by omega, h3, rfl⟩))
  · have htop : c.toNat / 262144 % 0x08 = c.toNat / 262144 := Nat.mod_eq_of_lt (by omega)
    rw [htop]
    exact Or.inr (Or.inr (Or.inr ⟨by omega, rfl⟩))

theorem decodeFrom_cons (p : Option Pending) {n : Nat} (hn : n < 256) (rest : List UInt8) :
    decodeFrom p (UInt8.ofNat n :: rest) = (feed p n).1 ++ decodeFrom (feed p n).2 rest := by
  have htoNat : (UInt8.ofNat n).toNat = n := by
    rw [UInt8.toNat_ofNat']
    omega
  cases p <;> rw [decodeFrom, htoNat]

/-- A byte within the bounds, while more are missing. -/
theorem feed_more {missing lower upper bits byte : Nat} (hmissing : missing ≠ 0)
    (h : lower ≤ byte ∧ byte ≤ upper) :
    feed (some ⟨missing + 1, lower, upper, bits⟩) byte =
      ([], some ⟨missing, 0x80, 0xbf, 64 * bits + (byte - 0x80)⟩) := by
  simp [feed, h, hmissing]

/-- The last byte of a sequence completes its character. -/
theorem feed_last {lower upper bits byte : Nat} (h : lower ≤ byte ∧ byte ≤ upper) :
    feed (some ⟨1, lower, upper, bits⟩) byte = ([Char.ofNat (64 * bits + (byte - 0x80))], none) := by
  simp [feed, h]

/-- A whole character is decoded, whatever follows. -/
theorem decode_encodeChar_append (c : Char) (rest : List UInt8) :
    decode (String.utf8EncodeChar c ++ rest) = c :: decode rest := by
  have hvalid : c.toNat < 0xd800 ∨ 0xdfff < c.toNat ∧ c.toNat < 0x110000 := c.valid
  have hc : ∀ n, n = c.toNat → Char.ofNat n = c := by
    rintro _ rfl
    exact Char.ofNat_toNat c
  unfold decode
  rcases encodeChar_cases c with
    ⟨h1, hbytes⟩ | ⟨h1, h2, hbytes⟩ | ⟨h2, h3, hbytes⟩ | ⟨h3, hbytes⟩ <;>
    simp only [hbytes, List.cons_append, List.nil_append]
  · rw [decodeFrom_cons _ (by omega)]
    simp [feed, start, h1, hc]
  · have hstart : feed none (c.toNat / 64 + 0xc0) = ([], some ⟨1, 0x80, 0xbf, c.toNat / 64⟩) := by
      simp only [feed, start]
      rw [if_neg (by omega), if_pos (by omega), Nat.add_sub_cancel]
    rw [decodeFrom_cons _ (by omega), hstart, decodeFrom_cons _ (by omega),
      feed_last (by omega), hc _ (by omega)]
    rfl
  · have hstart : feed none (c.toNat / 4096 + 0xe0) =
        ([], some ⟨2, if c.toNat / 4096 + 0xe0 = 0xe0 then 0xa0 else 0x80,
          if c.toNat / 4096 + 0xe0 = 0xed then 0x9f else 0xbf, c.toNat / 4096⟩) := by
      simp only [feed, start]
      rw [if_neg (by omega), if_neg (by omega), if_pos (by omega), Nat.add_sub_cancel]
    rw [decodeFrom_cons _ (by omega), hstart, decodeFrom_cons _ (by omega),
      feed_more (by decide) (by split_ifs <;> omega), decodeFrom_cons _ (by omega),
      feed_last (by omega), hc _ (by omega)]
    rfl
  · have hstart : feed none (c.toNat / 262144 + 0xf0) =
        ([], some ⟨3, if c.toNat / 262144 + 0xf0 = 0xf0 then 0x90 else 0x80,
          if c.toNat / 262144 + 0xf0 = 0xf4 then 0x8f else 0xbf, c.toNat / 262144⟩) := by
      simp only [feed, start]
      rw [if_neg (by omega), if_neg (by omega), if_neg (by omega), if_pos (by omega),
        Nat.add_sub_cancel]
    rw [decodeFrom_cons _ (by omega), hstart, decodeFrom_cons _ (by omega),
      feed_more (by decide) (by split_ifs <;> omega), decodeFrom_cons _ (by omega),
      feed_more (by decide) (by omega), decodeFrom_cons _ (by omega),
      feed_last (by omega), hc _ (by omega)]
    rfl

theorem decode_encode_append (text : List Char) (rest : List UInt8) :
    decode (encode text ++ rest) = text ++ decode rest := by
  induction text with
  | nil => rfl
  | cons c text ih =>
      rw [encode_cons, List.append_assoc, decode_encodeChar_append, ih, List.cons_append]

/-- Decoding takes encoding back. -/
theorem decode_encode (text : List Char) : decode (encode text) = text := by
  have h := decode_encode_append text []
  rwa [List.append_nil, show decode [] = [] from rfl, List.append_nil] at h

theorem decode_continues_append {bytes : List UInt8} (h : ∀ byte ∈ bytes, Continues byte)
    (rest : List UInt8) :
    decode (bytes ++ rest) = List.replicate bytes.length replacement ++ decode rest := by
  induction bytes with
  | nil => rfl
  | cons byte bytes ih =>
      rw [List.forall_mem_cons] at h
      rw [List.cons_append, decode_continues h.1, ih h.2, List.length_cons,
        List.replicate_succ, List.cons_append]

/-- The bytes from `0x80` up to `0xbf` are continuation bytes. -/
theorem continues_ofNat {n : Nat} (h : n < 64) : Continues (UInt8.ofNat (n + 0x80)) := by
  have htoNat : (UInt8.ofNat (n + 0x80)).toNat = n + 0x80 := by
    rw [UInt8.toNat_ofNat']
    omega
  unfold Continues
  omega

/-- All bytes of a character but the first are inside of it. -/
theorem continues_of_mem_tail {c : Char} {byte : UInt8}
    (h : byte ∈ (String.utf8EncodeChar c).tail) : Continues byte := by
  rcases encodeChar_cases c with ⟨_, hbytes⟩ | ⟨_, _, hbytes⟩ | ⟨_, _, hbytes⟩ | ⟨_, hbytes⟩ <;>
    simp only [hbytes, List.tail_cons, List.mem_cons, List.not_mem_nil, or_false] at h
  · subst h
    exact continues_ofNat (Nat.mod_lt _ (by decide))
  · rcases h with rfl | rfl <;> exact continues_ofNat (Nat.mod_lt _ (by decide))
  · rcases h with rfl | rfl | rfl <;> exact continues_ofNat (Nat.mod_lt _ (by decide))

/-- Only the ASCII characters are encoded in one byte. -/
theorem length_encodeChar_le_one_iff {c : Char} :
    (String.utf8EncodeChar c).length ≤ 1 ↔ c.toNat ≤ 0x7f := by
  rcases encodeChar_cases c with ⟨_, hbytes⟩ | ⟨_, _, hbytes⟩ | ⟨_, _, hbytes⟩ | ⟨_, hbytes⟩ <;>
    simp only [hbytes, List.length_cons, List.length_nil] <;> omega

/-- No text is longer than its encoding. -/
theorem length_le_encode (text : List Char) : text.length ≤ (encode text).length := by
  induction text with
  | nil => exact Nat.le_refl _
  | cons c text ih =>
      have hchar : 1 ≤ (String.utf8EncodeChar c).length := by
        rcases encodeChar_cases c with
          ⟨_, hbytes⟩ | ⟨_, _, hbytes⟩ | ⟨_, _, hbytes⟩ | ⟨_, hbytes⟩ <;> simp [hbytes]
      rw [encode_cons, List.length_append, List.length_cons]
      omega

/-- A text that lost its first bytes, up to `before`: of the last character of
that, if it is split, some bytes are left. -/
structure CutAt (lost : Nat) (before after : List Char) (split : Nat) : Prop where
  bytes : lost + split = (encode before).length
  split_char : split ≠ 0 → ∃ (text : List Char) (c : Char), before = text ++ [c] ∧ 0x7f < c.toNat
  decoded : ∀ rest, decode ((encode (before ++ after)).drop lost ++ rest) =
    List.replicate split replacement ++ (after ++ decode rest)

/-- **A cut text.**  It is decoded to U+FFFD for every byte of a split character,
and to the whole characters. -/
theorem decode_drop_encode (text : List Char) (lost : Nat) (h : lost ≤ (encode text).length) :
    ∃ before after split, text = before ++ after ∧ CutAt lost before after split := by
  induction text generalizing lost with
  | nil =>
      obtain rfl : lost = 0 := Nat.le_zero.mp h
      exact ⟨[], [], 0, rfl, rfl, fun h => absurd rfl h, fun _ => rfl⟩
  | cons c text ih =>
      by_cases hwhole : (String.utf8EncodeChar c).length ≤ lost
      · have hle : lost - (String.utf8EncodeChar c).length ≤ (encode text).length := by
          rw [encode_cons, List.length_append] at h
          omega
        obtain ⟨before, after, split, rfl, hcut⟩ := ih _ hle
        refine ⟨c :: before, after, split, rfl, ?_, ?_, ?_⟩
        · have hbytes := hcut.bytes
          have hlength : (encode (c :: before)).length =
              (String.utf8EncodeChar c).length + (encode before).length := by
            rw [encode_cons, List.length_append]
          omega
        · intro hsplit
          obtain ⟨text, c', rfl, hc'⟩ := hcut.split_char hsplit
          exact ⟨c :: text, c', rfl, hc'⟩
        · intro rest
          rw [List.cons_append, encode_cons, List.drop_append, List.drop_of_length_le hwhole,
            List.nil_append]
          exact hcut.decoded rest
      · by_cases hzero : lost = 0
        · subst hzero
          exact ⟨[], c :: text, 0, rfl, rfl, fun h => absurd rfl h, decode_encode_append _⟩
        · have hinside : ∀ byte ∈ (String.utf8EncodeChar c).drop lost, Continues byte := by
            intro byte hbyte
            refine continues_of_mem_tail (c := c) ?_
            rw [← List.drop_one]
            exact (List.drop_subset_drop_left _ (by omega)) hbyte
          refine ⟨[c], text, (String.utf8EncodeChar c).length - lost, rfl, ?_, ?_, ?_⟩
          · have hlength : (encode [c]).length = (String.utf8EncodeChar c).length := by
              rw [encode_cons, show encode [] = [] from rfl, List.append_nil]
            omega
          · intro _
            refine ⟨[], c, rfl, ?_⟩
            have hlong := length_encodeChar_le_one_iff (c := c)
            omega
          · intro rest
            rw [List.singleton_append, encode_cons, List.drop_append,
              Nat.sub_eq_zero_of_le (by omega), List.drop_zero, List.append_assoc,
              decode_continues_append hinside, decode_encode_append, List.length_drop]

end Utf8
