import Mathlib.Data.List.Basic

/-!
# Base64

Three bytes are four digits of six bits each; one or two bytes at the end are two
or three digits, and the text is filled up with `=`.  A decoder of the lenient kind
takes the digits of a text, in either alphabet, and passes over everything else.
It takes an encoding back (`decode_encode`).
-/

namespace Base64

/-- The 64 digits, in the order of their values. -/
def ALPHABET : List Char :=
  "ABCDEFGHIJKLMNOPQRSTUVWXYZabcdefghijklmnopqrstuvwxyz0123456789+/".toList

/-- The character of a digit below 64. -/
def digit (n : Nat) : Char := ALPHABET.getD n '='

/-- The digit of a character, if it is one; `-` and `_` are those of the alphabet
for addresses. -/
def value (c : Char) : Option Nat :=
  if c = '-' then some 62
  else if c = '_' then some 63
  else if c ∈ ALPHABET then some (ALPHABET.idxOf c)
  else none

/-- Bytes as digits of six bits. -/
def sextets : List UInt8 → List Nat
  | a :: b :: c :: rest =>
      a.toNat / 4 :: (a.toNat % 4 * 16 + b.toNat / 16) ::
        (b.toNat % 16 * 4 + c.toNat / 64) :: c.toNat % 64 :: sextets rest
  | [a, b] => [a.toNat / 4, a.toNat % 4 * 16 + b.toNat / 16, b.toNat % 16 * 4]
  | [a] => [a.toNat / 4, a.toNat % 4 * 16]
  | [] => []

/-- Digits of six bits as bytes; what is left over at the end is no byte. -/
def octets : List Nat → List UInt8
  | w :: x :: y :: z :: rest =>
      UInt8.ofNat (w * 4 + x / 16) :: UInt8.ofNat (x % 16 * 16 + y / 4) ::
        UInt8.ofNat (y % 4 * 64 + z) :: octets rest
  | [w, x, y] => [UInt8.ofNat (w * 4 + x / 16), UInt8.ofNat (x % 16 * 16 + y / 4)]
  | [w, x] => [UInt8.ofNat (w * 4 + x / 16)]
  | [_] => []
  | [] => []

/-- How many characters fill up the last group. -/
def fill (bytes : List UInt8) : Nat := (3 - bytes.length % 3) % 3

/-- The text of bytes: a digit for each sextet, filled up to a multiple of four. -/
def encode (bytes : List UInt8) : List Char :=
  (sextets bytes).map digit ++ List.replicate (fill bytes) '='

/-- The bytes of a text: what is not a digit is skipped. -/
def decode (text : List Char) : List UInt8 := octets (text.filterMap value)

/-! ## Round trip -/

/-- Each digit's value is its place, checked over the whole alphabet. -/
theorem value_digit_fin : ∀ n : Fin 64, value (digit n.val) = some n.val := by
  decide +kernel

/-- Each digit's value is its place. -/
theorem value_digit {n : Nat} (h : n < 64) : value (digit n) = some n := value_digit_fin ⟨n, h⟩

/-- Every sextet is below 64. -/
theorem sextets_lt (bytes : List UInt8) : ∀ n ∈ sextets bytes, n < 64 := by
  fun_induction sextets bytes with
  | case1 a b c rest ih =>
      have ha := a.toNat_lt
      have hb := b.toNat_lt
      have hc := c.toNat_lt
      simp only [List.forall_mem_cons]
      exact ⟨by omega, by omega, by omega, by omega, ih⟩
  | case2 a b =>
      have ha := a.toNat_lt
      have hb := b.toNat_lt
      simp only [List.forall_mem_cons, List.not_mem_nil, false_implies, implies_true, and_true]
      exact ⟨by omega, by omega, by omega⟩
  | case3 a =>
      have ha := a.toNat_lt
      simp only [List.forall_mem_cons, List.not_mem_nil, false_implies, implies_true, and_true]
      exact ⟨by omega, by omega⟩
  | case4 => simp

/-- A number that is a byte's value is that byte. -/
theorem ofNat_eq {n : Nat} {a : UInt8} (h : n = a.toNat) : UInt8.ofNat n = a := by
  rw [h, UInt8.ofNat_toNat]

/-- Bytes cut into sextets and put together again are the same bytes. -/
theorem octets_sextets (bytes : List UInt8) : octets (sextets bytes) = bytes := by
  fun_induction sextets bytes with
  | case1 a b c rest ih =>
      have hb := b.toNat_lt
      have hc := c.toNat_lt
      rw [octets, ih, ofNat_eq (a := a) (by omega), ofNat_eq (a := b) (by omega),
        ofNat_eq (a := c) (by omega)]
  | case2 a b =>
      have hb := b.toNat_lt
      rw [octets, ofNat_eq (a := a) (by omega), ofNat_eq (a := b) (by omega)]
  | case3 a => rw [octets, ofNat_eq (a := a) (by omega)]
  | case4 => rfl

/-- Reading back the digits gives their values. -/
theorem filterMap_value_digit {digits : List Nat} (h : ∀ n ∈ digits, n < 64) :
    (digits.map digit).filterMap value = digits := by
  induction digits with
  | nil => rfl
  | cons n rest ih =>
      rw [List.map_cons, List.filterMap_cons, value_digit (h n List.mem_cons_self),
        ih fun n hn => h n (List.mem_cons_of_mem _ hn)]

/-- The fill is skipped. -/
theorem filterMap_value_fill (n : Nat) : (List.replicate n '=').filterMap value = [] := by
  induction n with
  | zero => rfl
  | succ n ih =>
      rw [List.replicate_succ, List.filterMap_cons, ih]
      rfl

/-- **Decoding takes encoding back.** -/
theorem decode_encode (bytes : List UInt8) : decode (encode bytes) = bytes := by
  rw [decode, encode, List.filterMap_append, filterMap_value_digit (sextets_lt bytes),
    filterMap_value_fill, List.append_nil, octets_sextets]

example : encode [77, 97, 110, 33] = "TWFuIQ==".toList := by decide

end Base64
