import EcoMint.DecimalText
import EcoMint.HalfEven
import Mathlib.Algebra.Order.Field.Power
import Mathlib.Data.Int.Log
import Mathlib.Data.Nat.Factorization.Basic
import Mathlib.Data.Rat.Floor
import Mathlib.Tactic.Linarith
import Mathlib.Tactic.Positivity

/-!
# Numbers of 64 bits and their texts

The finite numbers of the format have 53 significant bits and no bit below
`2 ^ -1074`; beyond `2 ^ 1024` there are the two infinities.  A rational is read as
the nearest of them, the even one of two.

A number is printed with as few digits as suffice to read it back, and of the texts
with that many digits the nearest one.  So two numbers never have the same text
(`Number.text_injective`), and whole numbers below `2 ^ 53` are printed with all
their digits (`Number.text_ofRat_natCast`).  There is one zero, and not-a-number
is none of the numbers.
-/

namespace Binary64

/-! ## Rounding -/

/-- The nearest whole number to a rational that is not negative; the even one of
two. -/
def roundEven (q : ℚ) : Nat := HalfEven.roundDiv q.num.natAbs q.den

/-- The last place of a positive rational with 53 significant bits. -/
def unit (q : ℚ) : ℚ := 2 ^ max (Int.log 2 q - 52) (-1074)

/-- The double that is nearest to a positive rational, ties to the even one. -/
def nearest (q : ℚ) : ℚ := roundEven (q / unit q) * unit q

/-- A multiple of a power of two that the significant bits can hold. -/
def IsDyadic (x : ℚ) : Prop :=
  ∃ (m : Nat) (e : Int), m < 2 ^ 53 ∧ -1074 ≤ e ∧ x = m * 2 ^ e

/-- The magnitude of a finite number. -/
def IsFinite (x : ℚ) : Prop := x < 2 ^ 1024 ∧ IsDyadic x

/-- A natural number is rounded to itself. -/
theorem roundEven_natCast (n : Nat) : roundEven n = n := by
  simpa [roundEven] using HalfEven.roundDiv_mul_of_dvd Nat.one_pos (one_dvd n)

/-- Rounding up or down is no less than rounding down. -/
theorem div_le_roundDiv (n unit : Nat) : n / unit ≤ HalfEven.roundDiv n unit := by
  unfold HalfEven.roundDiv
  split <;> omega

/-- Rounding is at most one more than rounding down. -/
theorem roundDiv_le_div_succ (n unit : Nat) : HalfEven.roundDiv n unit ≤ n / unit + 1 := by
  unfold HalfEven.roundDiv
  split <;> omega

/-- The quotient of numerator and denominator is the part before the point. -/
theorem num_div_den_eq_floor {q : ℚ} (hq : 0 ≤ q) : q.num.natAbs / q.den = ⌊q⌋₊ := by
  have hfloor : ((q.num.natAbs / q.den : Nat) : Int) = ⌊q⌋ := by
    rw [Rat.floor_def', Int.natCast_div, Int.natAbs_of_nonneg (Rat.num_nonneg.mpr hq)]
  rw [← Int.floor_toNat, ← hfloor, Int.toNat_natCast]

/-- Rounding does not fall below a natural number. -/
theorem le_roundEven {q : ℚ} {n : Nat} (h : (n : ℚ) ≤ q) : n ≤ roundEven q := by
  have hq : 0 ≤ q := (Nat.cast_nonneg n).trans h
  have hfloor := (Nat.le_floor_iff hq).mpr h
  rw [← num_div_den_eq_floor hq] at hfloor
  exact hfloor.trans (div_le_roundDiv _ _)

/-- Rounding does not pass a natural number. -/
theorem roundEven_le {q : ℚ} (hq : 0 ≤ q) {n : Nat} (h : q < n) : roundEven q ≤ n := by
  have hfloor := (Nat.floor_lt hq).mpr h
  rw [← num_div_den_eq_floor hq] at hfloor
  exact (roundDiv_le_div_succ _ _).trans hfloor

theorem unit_pos (q : ℚ) : 0 < unit q := by
  unfold unit
  positivity

@[simp] theorem nearest_zero : nearest 0 = 0 := by
  have hzero : roundEven 0 = 0 := roundEven_natCast 0
  rw [nearest, zero_div, hzero, Nat.cast_zero, zero_mul]

/-- What the bits can hold is kept. -/
theorem nearest_of_isDyadic {x : ℚ} (hx : IsDyadic x) : nearest x = x := by
  obtain ⟨m, e, hm, he, rfl⟩ := hx
  rcases Nat.eq_zero_or_pos m with rfl | hpos
  · simp
  · have hposQ : (0 : ℚ) < m * 2 ^ e := by positivity
    have hlog : Int.log 2 ((m : ℚ) * 2 ^ e) < 53 + e := by
      rw [← Int.lt_zpow_iff_log_lt (by decide) hposQ]
      push_cast
      rw [zpow_add₀ (by norm_num)]
      exact mul_lt_mul_of_pos_right (by exact_mod_cast hm) (by positivity)
    obtain ⟨k, hk⟩ : ∃ k : Nat, e = max (Int.log 2 ((m : ℚ) * 2 ^ e) - 52) (-1074) + k :=
      ⟨(e - max (Int.log 2 ((m : ℚ) * 2 ^ e) - 52) (-1074)).toNat, by omega⟩
    have hquot : (m : ℚ) * 2 ^ e / unit (m * 2 ^ e) = ((m * 2 ^ k : Nat) : ℚ) := by
      rw [div_eq_iff (unit_pos _).ne']
      unfold unit
      generalize max (Int.log 2 ((m : ℚ) * 2 ^ e) - 52) (-1074) = place at hk ⊢
      rw [hk, zpow_add₀ (by norm_num), zpow_natCast]
      push_cast
      ring
    rw [nearest, hquot, roundEven_natCast, ← hquot, div_mul_cancel₀ _ (unit_pos _).ne']

/-- The nearest number fits into the bits. -/
theorem isDyadic_nearest {q : ℚ} (hq : 0 ≤ q) : IsDyadic (nearest q) := by
  have hbound : q / unit q < ((2 ^ 53 : Nat) : ℚ) := by
    rw [div_lt_iff₀ (unit_pos q), unit]
    have hlog := Int.lt_zpow_succ_log_self (b := 2) (by decide) q
    calc q < 2 ^ (Int.log 2 q + 1) := by exact_mod_cast hlog
      _ ≤ 2 ^ ((53 : Nat) + max (Int.log 2 q - 52) (-1074) : Int) :=
          zpow_le_zpow_right₀ (by norm_num) (by omega)
      _ = (2 ^ 53 : Nat) * 2 ^ max (Int.log 2 q - 52) (-1074) := by
          rw [zpow_add₀ (by norm_num), zpow_natCast]
          push_cast
          rfl
  have hround := roundEven_le (div_nonneg hq (unit_pos q).le) hbound
  rcases hround.lt_or_eq with hlt | heq
  · exact ⟨_, _, hlt, le_max_right _ _, rfl⟩
  · refine ⟨2 ^ 52, max (Int.log 2 q - 52) (-1074) + 1, by decide, by omega, ?_⟩
    rw [nearest, heq, unit, zpow_add₀ (by norm_num)]
    push_cast
    ring

/-- A number with more than 53 bits is not rounded below them. -/
theorem le_nearest {q : ℚ} (h : 2 ^ 53 ≤ q) : 2 ^ 53 ≤ nearest q := by
  have hpos : 0 < q := lt_of_lt_of_le (by norm_num) h
  have hlog : (53 : Int) ≤ Int.log 2 q := by
    rw [← Int.zpow_le_iff_le_log (by decide) hpos]
    exact_mod_cast h
  have hplace : max (Int.log 2 q - 52) (-1074) = Int.log 2 q - 52 := by omega
  have hself := Int.zpow_log_le_self (b := 2) (by decide) hpos
  have hquot : ((2 ^ 52 : Nat) : ℚ) ≤ q / unit q := by
    rw [le_div_iff₀ (unit_pos q), unit, hplace]
    calc ((2 ^ 52 : Nat) : ℚ) * 2 ^ (Int.log 2 q - 52)
        = 2 ^ ((52 : Nat) + (Int.log 2 q - 52) : Int) := by
          rw [zpow_add₀ (by norm_num), zpow_natCast]
          push_cast
          rfl
      _ = 2 ^ Int.log 2 q := by
          congr 1
          omega
      _ ≤ q := by exact_mod_cast hself
  have hround : ((2 ^ 52 : Nat) : ℚ) ≤ roundEven (q / unit q) := by
    exact_mod_cast le_roundEven hquot
  calc (2 : ℚ) ^ 53 = (2 ^ 52 : Nat) * 2 ^ (1 : Int) := by norm_num
    _ ≤ roundEven (q / unit q) * unit q := by
        refine mul_le_mul hround ?_ (by positivity) (by positivity)
        rw [unit, hplace]
        exact zpow_le_zpow_right₀ (by norm_num) (by omega)

/-! ## The shortest digits -/

/-- The multiple of `10 ^ p` next to `x` that is read back as `x`; the nearest one,
if both are. -/
def digitsAt (x : ℚ) (p : Int) : Option Nat :=
  let closest := roundEven (x / 10 ^ p)
  let other := 2 * ⌊x / 10 ^ p⌋₊ + 1 - closest
  if nearest (closest * 10 ^ p) = x then some closest
  else if nearest (other * 10 ^ p) = x then some other
  else none

/-- The digits at the first place that suffices, from the place `p` on. -/
def search (x : ℚ) : Nat → Int → Nat × Int
  | 0, p => (⌊x / 10 ^ p⌋₊, p)
  | places + 1, p =>
      match digitsAt x p with
      | some digits => (digits, p)
      | none => search x places (p - 1)

/-- The fewest digits, and their last place. -/
def shortest (x : ℚ) : Nat × Int :=
  search x (Int.log 10 x + 1 + 1074).toNat (Int.log 10 x + 1)

/-- The text of a positive number. -/
def digitsText (x : ℚ) : List Char :=
  let (digits, p) := shortest x
  let text := Nat.toDigits 10 digits
  DecimalText.layout text (p + text.length)

/-- Digits that were accepted round back to the number. -/
theorem nearest_of_digitsAt {x : ℚ} {p : Int} {digits : Nat} (h : digitsAt x p = some digits) :
    nearest (digits * 10 ^ p) = x := by
  unfold digitsAt at h
  dsimp only at h
  split_ifs at h with hclosest hother
  · exact Option.some.inj h ▸ hclosest
  · exact Option.some.inj h ▸ hother

/-- Below the last bit of the format every number is written out. -/
theorem exists_natCast_of_le {x : ℚ} (hx : IsDyadic x) {p : Int} (hp : p ≤ -1074) :
    ∃ n : Nat, x / 10 ^ p = n := by
  obtain ⟨m, e, -, he, rfl⟩ := hx
  obtain ⟨a, ha⟩ : ∃ a : Nat, (e - p : Int) = a := ⟨(e - p).toNat, by omega⟩
  obtain ⟨b, hb⟩ : ∃ b : Nat, (-p : Int) = b := ⟨(-p).toNat, by omega⟩
  refine ⟨m * 2 ^ a * 5 ^ b, ?_⟩
  have hten : (10 : ℚ) ^ p = 2 ^ p * 5 ^ p := by rw [← mul_zpow]; norm_num
  have htwo : (2 : ℚ) ^ e = 2 ^ p * 2 ^ a := by
    rw [← zpow_natCast, ← ha, ← zpow_add₀ (by norm_num)]
    congr 1
    ring
  have hfive : (5 : ℚ) ^ p * 5 ^ b = 1 := by
    rw [← zpow_natCast, ← hb, ← zpow_add₀ (by norm_num), add_neg_cancel, zpow_zero]
  rw [hten, div_eq_iff (by positivity), htwo]
  push_cast
  calc (m : ℚ) * (2 ^ p * 2 ^ a) = m * 2 ^ a * 2 ^ p * (5 ^ p * 5 ^ b) := by rw [hfive]; ring
    _ = m * 2 ^ a * 5 ^ b * (2 ^ p * 5 ^ p) := by ring

/-- What the search finds is read back as the number. -/
theorem nearest_search {x : ℚ} (hx : IsDyadic x) (places : Nat) (p : Int)
    (hp : p - places ≤ -1074) :
    nearest ((search x places p).1 * 10 ^ (search x places p).2) = x := by
  induction places generalizing p with
  | zero =>
      obtain ⟨n, hn⟩ := exists_natCast_of_le hx (p := p) (by simpa using hp)
      rw [search, hn, Nat.floor_natCast, ← hn, div_mul_cancel₀ _ (by positivity),
        nearest_of_isDyadic hx]
  | succ places ih =>
      rw [search]
      cases hdigits : digitsAt x p with
      | some digits => exact nearest_of_digitsAt hdigits
      | none => exact ih (p - 1) (by push_cast at hp; omega)

/-- The shortest digits of a double round back to it. -/
theorem nearest_shortest {x : ℚ} (hx : IsDyadic x) :
    nearest ((shortest x).1 * 10 ^ (shortest x).2) = x :=
  nearest_search hx _ _ (by omega)

/-- **The text of a positive number is read back as the number.** -/
theorem nearest_magnitude_digitsText {x : ℚ} (hx : IsDyadic x) :
    nearest (DecimalText.magnitude (digitsText x)) = x := by
  have hread : DecimalText.magnitude (digitsText x) = (shortest x).1 * 10 ^ (shortest x).2 := by
    unfold digitsText
    rw [DecimalText.magnitude_layout (DecimalText.areDigits_toDigits _) Nat.toDigits_ne_nil,
      DecimalText.digitsValue_toDigits, add_sub_cancel_right]
  rw [hread, nearest_shortest hx]

/-! ## Numbers -/

/-- A number; not-a-number is none. -/
inductive Number
  | finite (value : ℚ) (isFinite : IsFinite |value|)
  | infinity
  | negInfinity
deriving DecidableEq

theorem nearest_nonneg (q : ℚ) : 0 ≤ nearest q :=
  mul_nonneg (Nat.cast_nonneg _) (unit_pos q).le

/-- What is rounded below 2^1024 is a finite double. -/
theorem isFinite_nearest {q : ℚ} (h : nearest |q| < 2 ^ 1024) : IsFinite |nearest (|q|)| := by
  rw [abs_of_nonneg (nearest_nonneg _)]
  exact ⟨h, isDyadic_nearest (abs_nonneg q)⟩

namespace Number

/-- The nearest number to a rational. -/
def ofRat (q : ℚ) : Number :=
  if h : nearest |q| < 2 ^ 1024 then
    if q < 0 then .finite (-nearest |q|) (by rw [abs_neg]; exact isFinite_nearest h)
    else .finite (nearest |q|) (isFinite_nearest h)
  else if q < 0 then .negInfinity
  else .infinity

/-- The value of a finite number. -/
def value? : Number → Option ℚ
  | finite value _ => some value
  | _ => none

/-- The number is less than a rational. -/
def less (n : Number) (q : ℚ) : Bool :=
  match n with
  | finite value _ => value < q
  | infinity => false
  | negInfinity => true

/-- The number is greater than a rational. -/
def greater (n : Number) (q : ℚ) : Bool :=
  match n with
  | finite value _ => q < value
  | infinity => true
  | negInfinity => false

/-- What is not less than a bound is at least it. -/
theorem le_of_not_less {n : Number} {q value : ℚ} (h : ¬ n.less q = true)
    (hvalue : n.value? = some value) : q ≤ value := by
  cases n with
  | finite value' _ =>
      obtain rfl := Option.some.inj hvalue
      simpa [less] using h
  | infinity => cases hvalue
  | negInfinity => cases hvalue

/-- The text that a number is printed as. -/
def text : Number → List Char
  | finite value _ =>
      if value < 0 then '-' :: digitsText (-value)
      else if value = 0 then ['0']
      else digitsText value
  | infinity => "Infinity".toList
  | negInfinity => "-Infinity".toList

/-- The number that a decimal text is read as. -/
def read (text : List Char) : Number := ofRat (DecimalText.value text)

/-- The number that a text is the text of, if it is one. -/
def ofText (text : List Char) : Number :=
  if text = "Infinity".toList then infinity
  else if text = "-Infinity".toList then negInfinity
  else read text

/-- The text is the text of a number. -/
def isText (text : List Char) : Bool := (ofText text).text = text

/-- Rationals with one nearest number, and one sign, are read as one number. -/
theorem ofRat_eq_of_nearest {q value : ℚ} (h : IsFinite |value|) (hnearest : nearest |q| = |value|)
    (hsign : q < 0 ↔ value < 0) : ofRat q = finite value h := by
  have hlt : nearest |q| < 2 ^ 1024 := hnearest ▸ h.1
  unfold ofRat
  rw [dif_pos hlt]
  split_ifs with hneg
  · simp only [hnearest, abs_of_neg (hsign.mp hneg), neg_neg]
  · simp only [hnearest, abs_of_nonneg (not_lt.mp (mt hsign.mpr hneg))]

/-- A finite double is read as itself. -/
theorem ofRat_of_isFinite {value : ℚ} (h : IsFinite |value|) : ofRat value = finite value h :=
  ofRat_eq_of_nearest h (nearest_of_isDyadic h.2) Iff.rfl

/-- The digits begin with a digit. -/
theorem exists_head_digitsText (x : ℚ) :
    ∃ c rest, digitsText x = c :: rest ∧ c.isDigit = true :=
  DecimalText.exists_head_layout (DecimalText.areDigits_toDigits _) Nat.toDigits_ne_nil _

/-- The text of digits has no sign. -/
theorem value_digitsText (x : ℚ) :
    DecimalText.value (digitsText x) = DecimalText.magnitude (digitsText x) := by
  obtain ⟨c, rest, htext, hdigit⟩ := exists_head_digitsText x
  rw [htext, DecimalText.value_of_isDigit hdigit]

/-- A finite number is read back from its text. -/
theorem read_text_finite {value : ℚ} (h : IsFinite |value|) :
    read (finite value h).text = finite value h := by
  unfold read text
  dsimp only
  split_ifs with hneg hzero
  · have hx : IsDyadic (-value) := abs_of_neg hneg ▸ h.2
    have hback := nearest_magnitude_digitsText hx
    have hpos : 0 < DecimalText.magnitude (digitsText (-value)) := by
      refine lt_of_le_of_ne (DecimalText.magnitude_nonneg _) fun hzero => ?_
      rw [← hzero, nearest_zero] at hback
      linarith
    have hvalue : DecimalText.value ('-' :: digitsText (-value)) =
        -DecimalText.magnitude (digitsText (-value)) := rfl
    refine ofRat_eq_of_nearest h ?_ (by simp [hvalue, hpos, hneg])
    rw [hvalue, abs_neg, abs_of_pos hpos, hback, abs_of_neg hneg]
  · subst hzero
    have hvalue : DecimalText.value ['0'] = 0 := by
      have hzeros : DecimalText.AreDigits ['0'] := DecimalText.areDigits_zeros 1
      rw [DecimalText.value_of_isDigit (by decide), DecimalText.magnitude_digits hzeros]
      rfl
    rw [hvalue]
    exact ofRat_of_isFinite h
  · have hpos : 0 < value := lt_of_le_of_ne (not_lt.mp hneg) (Ne.symm hzero)
    have hback := nearest_magnitude_digitsText (abs_of_pos hpos ▸ h.2)
    have hmagnitude := DecimalText.magnitude_nonneg (digitsText value)
    refine ofRat_eq_of_nearest h ?_ ?_
    · rw [value_digitsText, abs_of_nonneg hmagnitude, hback, abs_of_pos hpos]
    · rw [value_digitsText]
      exact iff_of_false (not_lt.mpr hmagnitude) hneg

/-- The characters of the text of a finite number. -/
theorem isDecimalChar_text {value : ℚ} (h : IsFinite |value|) :
    ∀ c ∈ (finite value h).text, DecimalText.isDecimalChar c = true := by
  have hdigits (x : ℚ) : ∀ c ∈ digitsText x, DecimalText.isDecimalChar c = true :=
    DecimalText.isDecimalChar_layout (DecimalText.areDigits_toDigits _) _
  intro c hc
  unfold text at hc
  dsimp only at hc
  split_ifs at hc
  · rcases List.mem_cons.mp hc with rfl | hc
    · decide
    · exact hdigits _ c hc
  · obtain rfl := List.mem_singleton.mp hc
    decide
  · exact hdigits _ c hc

/-- The text of a finite number has only characters of decimals. -/
theorem text_finite_ne {value : ℚ} (h : IsFinite |value|) {other : List Char}
    (hother : ∃ c ∈ other, DecimalText.isDecimalChar c = false) :
    (finite value h).text ≠ other := by
  rintro rfl
  obtain ⟨c, hmem, hc⟩ := hother
  rw [isDecimalChar_text h c hmem] at hc
  cases hc

/-- **Every number is read back from its text.** -/
theorem ofText_text (n : Number) : ofText n.text = n := by
  cases n with
  | finite value h =>
      rw [ofText, if_neg (text_finite_ne h ⟨'I', by decide, by decide⟩),
        if_neg (text_finite_ne h ⟨'I', by decide, by decide⟩), read_text_finite]
  | infinity => rfl
  | negInfinity => rfl

/-- Numbers have texts of their own. -/
theorem text_injective {n n' : Number} (h : n.text = n'.text) : n = n' := by
  rw [← ofText_text n, h, ofText_text]

/-- The test finds exactly the texts of numbers. -/
theorem isText_iff {text : List Char} : isText text = true ↔ ∃ n : Number, n.text = text := by
  constructor
  · intro h
    exact ⟨ofText text, of_decide_eq_true h⟩
  · rintro ⟨n, rfl⟩
    exact decide_eq_true (by rw [ofText_text])

/-- A character that is in no decimal and not in `-Infinity` is in no text. -/
theorem notMem_text {c : Char} (hdecimal : DecimalText.isDecimalChar c = false)
    (hinfinity : c ∉ "-Infinity".toList) (n : Number) : c ∉ n.text := by
  intro hc
  cases n with
  | finite value h =>
      rw [isDecimalChar_text h c hc] at hdecimal
      cases hdecimal
  | infinity => exact hinfinity (List.mem_cons_of_mem '-' hc)
  | negInfinity => exact hinfinity hc

end Number

/-! ## Whole numbers -/

/-- A natural number below 2^53 is dyadic. -/
theorem isDyadic_natCast {n : Nat} (h : n < 2 ^ 53) : IsDyadic n :=
  ⟨n, 0, h, by decide, by simp⟩

/-- It is its own nearest double. -/
theorem nearest_natCast {n : Nat} (h : n < 2 ^ 53) : nearest n = n :=
  nearest_of_isDyadic (isDyadic_natCast h)

/-- It is finite. -/
theorem isFinite_natCast {n : Nat} (h : n < 2 ^ 53) : IsFinite |(n : ℚ)| := by
  rw [Nat.abs_cast]
  refine ⟨?_, isDyadic_natCast h⟩
  calc (n : ℚ) < 2 ^ 53 := by exact_mod_cast h
    _ ≤ 2 ^ 1024 := pow_le_pow_right₀ (by norm_num) (by norm_num)

/-- Two whole numbers are not read as one where the bits can hold the second. -/
theorem nearest_natCast_ne {m n : Nat} (hn : n < 2 ^ 53) (hne : m ≠ n) :
    nearest m ≠ (n : ℚ) := by
  by_cases hm : m < 2 ^ 53
  · rw [nearest_natCast hm]
    exact_mod_cast hne
  · have hlarge := le_nearest (q := m) (by exact_mod_cast not_lt.mp hm)
    have hsmall : (n : ℚ) < 2 ^ 53 := by exact_mod_cast hn
    exact (lt_of_lt_of_le hsmall hlarge).ne'

/-- No digits above the last one that is not zero suffice. -/
theorem digitsAt_eq_none {n p : Nat} (hn : n < 2 ^ 53) (hp : ¬ 10 ^ p ∣ n) :
    digitsAt n p = none := by
  have hmiss (digits : Nat) : nearest (digits * 10 ^ (p : Int)) ≠ (n : ℚ) := by
    have hne : digits * 10 ^ p ≠ n := fun heq => hp (heq ▸ Nat.dvd_mul_left _ _)
    have hcast : (digits * 10 ^ (p : Int) : ℚ) = (digits * 10 ^ p : Nat) := by
      push_cast
      rw [zpow_natCast]
    rw [hcast]
    exact nearest_natCast_ne hn hne
  simp only [digitsAt, hmiss, if_false]

/-- The search finds the digits of a whole number up to its last one that is not
zero. -/
theorem search_natCast {n s z : Nat} (hn : n < 2 ^ 53) (hsplit : n = 10 ^ z * s)
    (hs : ¬ 10 ∣ s) (d places : Nat) (hd : d ≤ places) :
    search n places ((z + d : Nat) : Int) = (s, (z : Int)) := by
  induction d generalizing places with
  | zero =>
      have hquot : (n : ℚ) / 10 ^ (z : Int) = (s : ℚ) := by
        rw [zpow_natCast, div_eq_iff (by positivity), hsplit]
        push_cast
        ring
      have hback : nearest (s * 10 ^ (z : Int)) = (n : ℚ) := by
        rw [← hquot, div_mul_cancel₀ _ (by positivity), nearest_natCast hn]
      rw [Nat.add_zero]
      cases places with
      | zero => rw [search, hquot, Nat.floor_natCast]
      | succ places =>
          have hdigits : digitsAt n z = some s := by
            simp only [digitsAt, hquot, roundEven_natCast, hback, if_true]
          rw [search, hdigits]
  | succ d ih =>
      obtain ⟨places, rfl⟩ : ∃ k, places = k + 1 := ⟨places - 1, by omega⟩
      have hp : ¬ 10 ^ (z + (d + 1)) ∣ n := by
        rw [hsplit, pow_add, Nat.mul_dvd_mul_iff_left (by positivity)]
        exact fun h => hs ((dvd_pow_self 10 (Nat.succ_ne_zero d)).trans h)
      have hprev : ((z + (d + 1) : Nat) : Int) - 1 = ((z + d : Nat) : Int) := by omega
      rw [search, digitsAt_eq_none hn hp, hprev]
      exact ih places (by omega)

/-- The digits of a multiple of a power of ten end with zeros. -/
theorem toDigits_pow_mul {s : Nat} (hs : 0 < s) (z : Nat) :
    Nat.toDigits 10 (10 ^ z * s) = Nat.toDigits 10 s ++ List.replicate z '0' := by
  induction z with
  | zero => simp
  | succ z ih =>
      have hsplit : 10 ^ (z + 1) * s = 10 * (10 ^ z * s) + 0 := by ring
      rw [hsplit, ← Nat.toDigits_append_toDigits (by decide) (by positivity) (by decide), ih,
        List.append_assoc, List.replicate_succ']
      rfl

/-- A whole number that the bits can hold is printed with all its digits. -/
theorem digitsText_natCast {n : Nat} (hpos : 0 < n) (hn : n < 2 ^ 53) :
    digitsText n = Nat.toDigits 10 n := by
  obtain ⟨z, s, hs, hsplit⟩ := Nat.exists_eq_pow_mul_and_not_dvd hpos.ne' 10 (by decide)
  have hspos : 0 < s := Nat.pos_of_ne_zero fun h => hs (h ▸ dvd_zero 10)
  have hlog : z ≤ Nat.log 10 n := by
    refine Nat.le_log_of_pow_le (by decide) ?_
    rw [hsplit]
    exact Nat.le_mul_of_pos_right _ hspos
  have hshortest : shortest n = (s, (z : Int)) := by
    obtain ⟨d, hd⟩ : ∃ d, Nat.log 10 n + 1 = z + d := ⟨Nat.log 10 n + 1 - z, by omega⟩
    have hstart : Int.log 10 (n : ℚ) + 1 = ((z + d : Nat) : Int) := by
      rw [Int.log_natCast]
      omega
    unfold shortest
    rw [hstart]
    exact search_natCast hn hsplit hs d _ (by omega)
  have hdigits := toDigits_pow_mul hspos z
  rw [← hsplit] at hdigits
  have hlength : (Nat.toDigits 10 s).length + z ≤ 16 := by
    have hshort : (Nat.toDigits 10 n).length ≤ 16 :=
      (Nat.length_toDigits_le_iff (by decide) (by decide)).mpr (hn.trans (by norm_num))
    rwa [hdigits, List.length_append, List.length_replicate] at hshort
  unfold digitsText
  rw [hshortest]
  dsimp only
  unfold DecimalText.layout
  rw [if_pos (by omega), hdigits]
  congr 2
  omega

namespace Number

/-- It is read as itself. -/
theorem ofRat_natCast {n : Nat} (h : n < 2 ^ 53) :
    ofRat n = finite n (isFinite_natCast h) := ofRat_of_isFinite _

/-- It is printed with its own digits. -/
theorem text_ofRat_natCast {n : Nat} (h : n < 2 ^ 53) :
    (ofRat n).text = Nat.toDigits 10 n := by
  have hneg : ¬ (n : ℚ) < 0 := not_lt.mpr (Nat.cast_nonneg n)
  rw [ofRat_natCast h]
  unfold text
  dsimp only
  rw [if_neg hneg]
  by_cases hzero : (n : ℚ) = 0
  · rw [if_pos hzero, Nat.cast_eq_zero.mp hzero, Nat.toDigits_zero]
  · rw [if_neg hzero, digitsText_natCast (Nat.pos_of_ne_zero (by exact_mod_cast hzero)) h]

/-- Texts are printed anew: with another exponent, shorter, or as infinity. -/
example : (read "12e21".toList).text = "1.2e+22".toList ∧
    (read "0.1000000000000000055".toList).text = "0.1".toList ∧
    (read "1e999".toList).text = "Infinity".toList := by decide +kernel

end Number

end Binary64
