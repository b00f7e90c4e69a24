import Mathlib.Algebra.Field.Rat
import Mathlib.Algebra.Order.Field.Basic
import Mathlib.Algebra.Order.Ring.Rat
import Mathlib.Data.List.TakeWhile
import Mathlib.Data.Rat.Cast.Defs
import Mathlib.Tactic.FieldSimp
import Mathlib.Tactic.Ring

/-!
# Decimal texts

The number that a decimal text stands for, and the text that a number with some
significant digits is laid out as: without an exponent while the decimal point is
near the digits, in scientific form otherwise.

Reading inverts the layout (`magnitude_layout`): whichever form is chosen, the
digits and the place of the point are still there.
-/

namespace DecimalText

/-! ## Reading -/

/-- The value of a run of digits. -/
def digitsValue (digits : List Char) : Nat := Nat.ofDigitChars 10 digits 0

/-- The number after the `e`, with its sign. -/
def exponentValue : List Char → Int
  | '-' :: digits => -(digitsValue digits : Int)
  | '+' :: digits => digitsValue digits
  | digits => digitsValue digits

/-- The character is no `e` and no `E`. -/
def isMantissaChar (c : Char) : Bool := c ≠ 'e' ∧ c ≠ 'E'

/-- The decimal point. -/
def isPoint (c : Char) : Bool := c = '.'

/-- The value of an unsigned number text. -/
def magnitude (text : List Char) : ℚ :=
  let mantissa := text.takeWhile isMantissaChar
  let exponent := (text.dropWhile isMantissaChar).drop 1
  let fraction := (mantissa.dropWhile (! isPoint ·)).drop 1
  let digits := mantissa.takeWhile (! isPoint ·) ++ fraction
  digitsValue digits * 10 ^ (exponentValue exponent - fraction.length)

/-- The number that a text stands for. -/
def value : List Char → ℚ
  | '-' :: text => -magnitude text
  | text => magnitude text

/-! ## Writing -/

/-- The exponent `n`, with its sign. -/
def exponentText (n : Int) : List Char :=
  (if 0 ≤ n then '+' else '-') :: Nat.toDigits 10 n.natAbs

/-- The digits of a number below ten, with the point after the first one. -/
def pointed : List Char → List Char
  | d :: e :: rest => d :: '.' :: e :: rest
  | digits => digits

/-- The significant digits of a number, with the decimal point after the first `n`
of them. -/
def layout (digits : List Char) (n : Int) : List Char :=
  if digits.length ≤ n ∧ n ≤ 21 then
    digits ++ List.replicate (n - digits.length).toNat '0'
  else if 0 < n ∧ n ≤ 21 then digits.take n.toNat ++ '.' :: digits.drop n.toNat
  else if -6 < n ∧ n ≤ 0 then '0' :: '.' :: (List.replicate (-n).toNat '0' ++ digits)
  else pointed digits ++ 'e' :: exponentText (n - 1)

/-! ## Reading what is written -/

/-- All characters are digits. -/
def AreDigits (text : List Char) : Prop := ∀ c ∈ text, c.isDigit = true

/-- The digits of a natural number are digits. -/
theorem areDigits_toDigits (n : Nat) : AreDigits (Nat.toDigits 10 n) := fun _ hc =>
  Nat.isDigit_of_mem_toDigits (by decide) (by decide) hc

/-- So are zeros. -/
theorem areDigits_zeros (n : Nat) : AreDigits (List.replicate n '0') := by
  intro c hc
  obtain rfl := List.eq_of_mem_replicate hc
  decide

/-- Two lists of digits are one. -/
theorem AreDigits.append {a b : List Char} (ha : AreDigits a) (hb : AreDigits b) :
    AreDigits (a ++ b) := by
  intro c hc
  rcases List.mem_append.mp hc with hc | hc
  · exact ha c hc
  · exact hb c hc

/-- The first of some digits are digits. -/
theorem AreDigits.take {a : List Char} (ha : AreDigits a) (n : Nat) : AreDigits (a.take n) :=
  fun c hc => ha c (List.mem_of_mem_take hc)

/-- So are the last ones. -/
theorem AreDigits.drop {a : List Char} (ha : AreDigits a) (n : Nat) : AreDigits (a.drop n) :=
  fun c hc => ha c (List.mem_of_mem_drop hc)

/-- A digit belongs to the mantissa. -/
theorem isMantissaChar_of_isDigit {c : Char} (h : c.isDigit = true) : isMantissaChar c = true := by
  refine decide_eq_true ⟨?_, ?_⟩ <;> rintro rfl <;> exact absurd h (by decide)

/-- A digit is no point. -/
theorem not_isPoint_of_isDigit {c : Char} (h : c.isDigit = true) : (!isPoint c) = true := by
  rw [Bool.not_eq_true', isPoint, decide_eq_false_iff_not]
  rintro rfl
  exact absurd h (by decide)

/-- The digits of a natural number have it for their value. -/
theorem digitsValue_toDigits (n : Nat) : digitsValue (Nat.toDigits 10 n) = n :=
  Nat.ofDigitChars_ten_toDigits

theorem digitsValue_zeros_append (n : Nat) (digits : List Char) :
    digitsValue (List.replicate n '0' ++ digits) = digitsValue digits := by
  rw [digitsValue, Nat.ofDigitChars_append, Nat.ofDigitChars_replicate_zero, Nat.mul_zero]
  rfl

/-- Zeros at the end count as powers of ten. -/
theorem digitsValue_append_zeros (digits : List Char) (n : Nat) :
    digitsValue (digits ++ List.replicate n '0') = digitsValue digits * 10 ^ n := by
  rw [digitsValue, Nat.ofDigitChars_append, Nat.ofDigitChars_replicate_zero, Nat.mul_comm]
  rfl

/-- An exponent is read as it is written. -/
theorem exponentValue_exponentText (n : Int) : exponentValue (exponentText n) = n := by
  unfold exponentText
  split
  · rw [exponentValue, digitsValue_toDigits]
    omega
  · rw [exponentValue, digitsValue_toDigits]
    omega

/-- A run that has the property all along, and what follows it from where the
property ends. -/
theorem takeWhile_dropWhile_append {p : Char → Bool} {a : List Char} (ha : ∀ c ∈ a, p c = true)
    {c : Char} (hc : p c = false) (b : List Char) :
    (a ++ c :: b).takeWhile p = a ∧ (a ++ c :: b).dropWhile p = c :: b := by
  rw [List.takeWhile_append_of_pos ha, List.dropWhile_append_of_pos ha]
  simp [hc]

/-- What has a property throughout is taken as a whole. -/
theorem takeWhile_dropWhile_self {p : Char → Bool} {a : List Char} (ha : ∀ c ∈ a, p c = true) :
    a.takeWhile p = a ∧ a.dropWhile p = [] :=
  ⟨List.takeWhile_eq_self_iff.mpr ha, List.dropWhile_eq_nil_iff.mpr ha⟩

/-- The value of digits alone. -/
theorem magnitude_digits {a : List Char} (ha : AreDigits a) : magnitude a = digitsValue a := by
  obtain ⟨htake, hdrop⟩ := takeWhile_dropWhile_self fun c hc => isMantissaChar_of_isDigit (ha c hc)
  obtain ⟨htake', hdrop'⟩ := takeWhile_dropWhile_self fun c hc => not_isPoint_of_isDigit (ha c hc)
  simp only [magnitude, htake, hdrop, htake', hdrop', List.drop_nil, List.append_nil]
  simp [exponentValue, digitsValue]

/-- The magnitude of a natural number's digits is the number. -/
theorem magnitude_toDigits (n : Nat) : magnitude (Nat.toDigits 10 n) = n := by
  rw [magnitude_digits (areDigits_toDigits n), digitsValue_toDigits]

/-- The value of digits with a point among them. -/
theorem magnitude_point {a b : List Char} (ha : AreDigits a) (hb : AreDigits b) :
    magnitude (a ++ '.' :: b) = digitsValue (a ++ b) * 10 ^ (-(b.length : Int)) := by
  have hmantissa : ∀ c ∈ a ++ '.' :: b, isMantissaChar c = true := by
    intro c hc
    rcases List.mem_append.mp hc with hc | hc
    · exact isMantissaChar_of_isDigit (ha c hc)
    rcases List.mem_cons.mp hc with rfl | hc
    · decide
    · exact isMantissaChar_of_isDigit (hb c hc)
  obtain ⟨htake, hdrop⟩ := takeWhile_dropWhile_self hmantissa
  obtain ⟨htake', hdrop'⟩ := takeWhile_dropWhile_append
    (fun c hc => not_isPoint_of_isDigit (ha c hc)) (show (!isPoint '.') = false by decide) b
  simp only [magnitude, htake, hdrop, htake', hdrop', List.drop_succ_cons, List.drop_zero,
    List.drop_nil]
  simp [exponentValue, digitsValue]

/-- The value of a mantissa with an exponent after it. -/
theorem magnitude_exponent {a : List Char} (ha : ∀ c ∈ a, isMantissaChar c = true) (n : Int) :
    magnitude (a ++ 'e' :: exponentText n) = magnitude a * 10 ^ n := by
  obtain ⟨htake, hdrop⟩ := takeWhile_dropWhile_append ha
    (show isMantissaChar 'e' = false by decide) (exponentText n)
  obtain ⟨htake', hdrop'⟩ := takeWhile_dropWhile_self ha
  simp only [magnitude, htake, hdrop, htake', hdrop', List.drop_succ_cons, List.drop_zero,
    exponentValue_exponentText, List.drop_nil]
  have hnone : exponentValue [] = 0 := rfl
  rw [hnone, mul_assoc, ← zpow_add₀ (by norm_num)]
  congr 2
  ring

/-- The magnitude of digits with a point after the first. -/
theorem magnitude_pointed {digits : List Char} (hdigits : AreDigits digits) (hne : digits ≠ []) :
    magnitude (pointed digits) = digitsValue digits * 10 ^ (1 - (digits.length : Int)) := by
  match digits, hne with
  | [d], _ => simp [pointed, magnitude_digits hdigits]
  | d :: e :: rest, _ =>
      have happ : pointed (d :: e :: rest) =
          (d :: e :: rest).take 1 ++ '.' :: (d :: e :: rest).drop 1 := rfl
      rw [happ, magnitude_point (hdigits.take 1) (hdigits.drop 1), List.take_append_drop]
      congr 2

/-- Such digits belong to the mantissa. -/
theorem isMantissaChar_pointed {digits : List Char} (hdigits : AreDigits digits) :
    ∀ c ∈ pointed digits, isMantissaChar c = true := by
  intro c hc
  match digits with
  | [] => cases hc
  | [d] => exact isMantissaChar_of_isDigit (hdigits c hc)
  | d :: e :: rest =>
      rcases List.mem_cons.mp hc with rfl | hc
      · exact isMantissaChar_of_isDigit (hdigits c List.mem_cons_self)
      rcases List.mem_cons.mp hc with rfl | hc
      · decide
      · exact isMantissaChar_of_isDigit (hdigits c (List.mem_cons_of_mem d hc))

/-- **Reading inverts the layout.** -/
theorem magnitude_layout {digits : List Char} (hdigits : AreDigits digits) (hne : digits ≠ [])
    (n : Int) :
    magnitude (layout digits n) = digitsValue digits * 10 ^ (n - digits.length) := by
  unfold layout
  split_ifs with hwhole hpoint hsmall
  · -- zeros after the digits
    have hzeros : n - digits.length = ((n - digits.length).toNat : Int) := by omega
    rw [magnitude_digits (hdigits.append (areDigits_zeros _)), digitsValue_append_zeros, hzeros,
      zpow_natCast]
    push_cast
    rfl
  · -- the point among the digits
    rw [magnitude_point (hdigits.take _) (hdigits.drop _), List.take_append_drop, List.length_drop]
    congr 2
    omega
  · -- zeros before the digits
    have happ : '0' :: '.' :: (List.replicate (-n).toNat '0' ++ digits) =
        List.replicate 1 '0' ++ '.' :: (List.replicate (-n).toNat '0' ++ digits) := rfl
    rw [happ, magnitude_point (areDigits_zeros 1) ((areDigits_zeros _).append hdigits),
      digitsValue_zeros_append, digitsValue_zeros_append, List.length_append,
      List.length_replicate]
    congr 2
    omega
  · rw [magnitude_exponent (isMantissaChar_pointed hdigits), magnitude_pointed hdigits hne,
      mul_assoc, ← zpow_add₀ (by norm_num)]
    congr 2
    ring

/-- A text begins with a digit. -/
theorem exists_head_layout {digits : List Char} (hdigits : AreDigits digits) (hne : digits ≠ [])
    (n : Int) : ∃ c rest, layout digits n = c :: rest ∧ c.isDigit = true := by
  match digits, hne with
  | d :: rest, _ =>
      have hd := hdigits d List.mem_cons_self
      unfold layout
      split_ifs with hwhole hpoint hsmall
      · exact ⟨d, _, rfl, hd⟩
      · obtain ⟨m, hm⟩ : ∃ m, n.toNat = m + 1 := ⟨n.toNat - 1, by omega⟩
        rw [hm, List.take_succ_cons]
        exact ⟨d, _, rfl, hd⟩
      · exact ⟨'0', _, rfl, by decide⟩
      · cases rest with
        | nil => exact ⟨d, _, rfl, hd⟩
        | cons e rest => exact ⟨d, _, rfl, hd⟩

theorem magnitude_nonneg (text : List Char) : 0 ≤ magnitude text := by
  unfold magnitude
  exact mul_nonneg (Nat.cast_nonneg _) (zpow_nonneg (by norm_num) _)

/-- A text that begins with a digit has no sign. -/
theorem value_of_isDigit {c : Char} {rest : List Char} (h : c.isDigit = true) :
    value (c :: rest) = magnitude (c :: rest) := by
  unfold value
  split
  · next heq =>
      obtain rfl := (List.cons.inj heq).1
      exact absurd h (by decide)
  · rfl

/-- The value of a natural number's digits is the number. -/
theorem value_toDigits (n : Nat) : value (Nat.toDigits 10 n) = n := by
  cases hdigits : Nat.toDigits 10 n with
  | nil => exact absurd hdigits Nat.toDigits_ne_nil
  | cons c rest =>
      have hdigit := areDigits_toDigits n c (hdigits ▸ List.mem_cons_self)
      rw [value_of_isDigit hdigit, ← hdigits, magnitude_toDigits]

/-- The characters of a decimal text. -/
def isDecimalChar (c : Char) : Bool := c.isDigit || c = '+' || c = '-' || c = '.' || c = 'e'

/-- A digit is a character of decimals. -/
theorem isDecimalChar_of_isDigit {c : Char} (h : c.isDigit = true) : isDecimalChar c = true := by
  simp [isDecimalChar, h]

/-- A layout has only characters of decimals. -/
theorem isDecimalChar_layout {digits : List Char} (hdigits : AreDigits digits) (n : Int) :
    ∀ c ∈ layout digits n, isDecimalChar c = true := by
  have hof : ∀ {a : List Char}, AreDigits a → ∀ c ∈ a, isDecimalChar c = true :=
    fun ha c hc => isDecimalChar_of_isDigit (ha c hc)
  have hpointed : ∀ c ∈ pointed digits, isDecimalChar c = true := by
    intro c hc
    match digits with
    | [] => cases hc
    | [d] => exact hof hdigits c hc
    | d :: e :: rest =>
        rcases List.mem_cons.mp hc with rfl | hc
        · exact hof hdigits c List.mem_cons_self
        rcases List.mem_cons.mp hc with rfl | hc
        · decide
        · exact hof hdigits c (List.mem_cons_of_mem d hc)
  have hexponent : ∀ c ∈ exponentText (n - 1), isDecimalChar c = true := by
    intro c hc
    rcases List.mem_cons.mp hc with rfl | hc
    · split <;> decide
    · exact hof (areDigits_toDigits _) c hc
  intro c hc
  unfold layout at hc
  split_ifs at hc
  · exact hof (hdigits.append (areDigits_zeros _)) c hc
  · rcases List.mem_append.mp hc with hc | hc
    · exact hof (hdigits.take _) c hc
    rcases List.mem_cons.mp hc with rfl | hc
    · decide
    · exact hof (hdigits.drop _) c hc
  · rcases List.mem_cons.mp hc with rfl | hc
    · decide
    rcases List.mem_cons.mp hc with rfl | hc
    · decide
    · exact hof ((areDigits_zeros _).append hdigits) c hc
  · rcases List.mem_append.mp hc with hc | hc
    · exact hpointed c hc
    rcases List.mem_cons.mp hc with rfl | hc
    · decide
    · exact hexponent c hc

end DecimalText
