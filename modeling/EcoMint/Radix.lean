import Mathlib.Data.Nat.Digits.Lemmas

/-!
# Positional numerals

A list of digits, the highest first, writes a number in a base; `numeral` is the
list of digits of a number, the lowest first, with the digit zero for zero.  A
list whose highest digit is not zero is the numeral of the number it writes, so
two such lists that write one number are the same list.  `rebase` keeps the zeros
in front of a list and writes what follows them in another base.
-/

namespace Radix

/-- The number that a list of digits writes, the highest first. -/
def value (base : Nat) (digits : List Nat) : Nat :=
  digits.foldl (fun n digit => n * base + digit) 0

/-- The digits of a number, the lowest first; zero has the digit zero. -/
def numeral (base n : Nat) : List Nat := if n = 0 then [0] else base.digits n

@[simp] theorem value_nil (base : Nat) : value base [] = 0 := rfl

@[simp] theorem value_snoc (base : Nat) (digits : List Nat) (digit : Nat) :
    value base (digits ++ [digit]) = value base digits * base + digit := by
  simp [value]

/-- The value agrees with the library's own reading of a list of digits, which starts at
the other end. -/
theorem value_eq_ofDigits (base : Nat) (digits : List Nat) :
    value base digits = Nat.ofDigits base digits.reverse := by
  induction digits using List.reverseRecOn with
  | nil => rfl
  | append_singleton digits digit ih =>
      rw [value_snoc, ih, List.reverse_append, List.reverse_singleton, List.singleton_append,
        Nat.ofDigits_cons, Nat.mul_comm, Nat.add_comm]

theorem value_append (base : Nat) (digits digits' : List Nat) :
    value base (digits ++ digits') =
      value base digits * base ^ digits'.length + value base digits' := by
  simp only [value_eq_ofDigits, List.reverse_append, Nat.ofDigits_append, List.length_reverse]
  rw [Nat.mul_comm, Nat.add_comm]

/-- The numeral of a number, read back, is that number. -/
theorem value_reverse_numeral (base n : Nat) : value base (numeral base n).reverse = n := by
  rw [value_eq_ofDigits, List.reverse_reverse]
  unfold numeral
  split
  · next hzero => simp [hzero]
  · exact Nat.ofDigits_digits base n

/-- A numeral starts with no zero. -/
theorem head?_reverse_numeral (base : Nat) {n : Nat} (hn : n ≠ 0) :
    (numeral base n).reverse.head? ≠ some 0 := by
  rw [numeral, if_neg hn, List.head?_reverse, List.getLast?_eq_some_getLast
    (Nat.digits_ne_nil_iff_ne_zero.mpr hn)]
  intro hzero
  exact Nat.getLast_digit_ne_zero base hn (Option.some.inj hzero)

variable {base : Nat} (hbase : 1 < base)

include hbase

/-- Digits below the base are worth less than the base to the power of their number. -/
theorem value_lt {digits : List Nat} (hdigits : ∀ digit ∈ digits, digit < base) :
    value base digits < base ^ digits.length := by
  rw [value_eq_ofDigits, ← List.length_reverse]
  apply Nat.ofDigits_lt_base_pow_length hbase
  intro digit hdigit
  exact hdigits digit (List.mem_reverse.mp hdigit)

/-- A list with a highest digit is the list of digits of the number it writes. -/
theorem digits_value {digits : List Nat} (hdigits : ∀ digit ∈ digits, digit < base)
    (hhead : digits.head? ≠ some 0) : base.digits (value base digits) = digits.reverse := by
  rw [value_eq_ofDigits]
  apply Nat.digits_ofDigits base hbase
  · intro digit hdigit
    exact hdigits digit (List.mem_reverse.mp hdigit)
  · intro hne hzero
    rw [List.getLast_reverse] at hzero
    have hdigits' : digits ≠ [] := fun h => hne (by rw [h, List.reverse_nil])
    exact hhead (by rw [List.head?_eq_some_head hdigits', hzero])

theorem value_ne_zero {digits : List Nat} (hdigits : ∀ digit ∈ digits, digit < base)
    (hhead : digits.head? ≠ some 0) (hne : digits ≠ []) : value base digits ≠ 0 := by
  intro hzero
  have hreverse := digits_value hbase hdigits hhead
  rw [hzero, Nat.digits_zero] at hreverse
  exact hne (List.reverse_eq_nil_iff.mp hreverse.symm)

/-- The numeral of what a list with a highest digit writes is that list. -/
theorem numeral_value {digits : List Nat} (hdigits : ∀ digit ∈ digits, digit < base)
    (hhead : digits.head? ≠ some 0) (hne : digits ≠ []) :
    numeral base (value base digits) = digits.reverse := by
  rw [numeral, if_neg (value_ne_zero hbase hdigits hhead hne), digits_value hbase hdigits hhead]

/-- Every digit of a numeral is below the base. -/
theorem lt_of_mem_numeral {n digit : Nat} (h : digit ∈ numeral base n) : digit < base := by
  unfold numeral at h
  split at h
  · rw [List.mem_singleton.mp h]
    omega
  · exact Nat.digits_lt_base hbase h

/-- A number between two powers of the base has that many digits. -/
theorem length_numeral {n k : Nat} (hlow : base ^ k ≤ n) (hhigh : n < base ^ (k + 1)) :
    (numeral base n).length = k + 1 := by
  have hn : n ≠ 0 := (Nat.lt_of_lt_of_le (Nat.pow_pos (by omega)) hlow).ne'
  rw [numeral, if_neg hn]
  have hle := (Nat.digits_length_le_iff hbase (k := k + 1) n).mpr hhigh
  have hlt := (Nat.lt_digits_length_iff hbase (k := k) n).mpr hlow
  omega

/-- Without its lowest digits, the numeral is that of the quotient. -/
theorem drop_numeral {n k : Nat} (hlow : base ^ k ≤ n) :
    (numeral base n).drop k = numeral base (n / base ^ k) := by
  have hpow : 0 < base ^ k := Nat.pow_pos (by omega)
  have hn : n ≠ 0 := (Nat.lt_of_lt_of_le hpow hlow).ne'
  have hquotient : n / base ^ k ≠ 0 := (Nat.div_pos hlow hpow).ne'
  have hvalue := Nat.self_div_pow_eq_ofDigits_drop k n hbase
  rw [numeral, if_neg hn, numeral, if_neg hquotient, hvalue]
  symm
  apply Nat.digits_ofDigits base hbase
  · intro digit hdigit
    exact Nat.digits_lt_base hbase (List.mem_of_mem_drop hdigit)
  · intro hne
    rw [List.getLast_drop]
    exact Nat.getLast_digit_ne_zero base hn

omit hbase

/-! ## From base to base -/

/-- A zero for every zero in front of the list, and the number that the list
writes in the other base. -/
def rebase (base base' : Nat) (digits : List Nat) : List Nat :=
  List.replicate (digits.takeWhile (· = 0)).length 0 ++ (numeral base' (value base digits)).reverse

theorem exists_zeros_append (digits : List Nat) :
    ∃ (zeros : Nat) (rest : List Nat), digits = List.replicate zeros 0 ++ rest ∧
      rest.head? ≠ some 0 := by
  induction digits with
  | nil => exact ⟨0, [], rfl, by simp⟩
  | cons digit rest ih =>
      by_cases hzero : digit = 0
      · obtain ⟨zeros, rest', hrest, hhead⟩ := ih
        exact ⟨zeros + 1, rest', by rw [hzero, hrest, List.replicate_succ, List.cons_append], hhead⟩
      · exact ⟨0, digit :: rest, rfl, by simpa using hzero⟩

theorem value_zeros_append (base zeros : Nat) (digits : List Nat) :
    value base (List.replicate zeros 0 ++ digits) = value base digits := by
  induction zeros with
  | zero => rfl
  | succ zeros ih =>
      rw [List.replicate_succ, List.cons_append, ← ih]
      simp [value]

theorem rebase_zeros_append (base base' zeros : Nat) {digits : List Nat}
    (hhead : digits.head? ≠ some 0) :
    rebase base base' (List.replicate zeros 0 ++ digits) =
      List.replicate zeros 0 ++ (numeral base' (value base digits)).reverse := by
  have hzeros : ((List.replicate zeros 0 ++ digits).takeWhile (· = 0)).length = zeros := by
    have hrest : digits.takeWhile (· = 0) = [] := by
      cases digits with
      | nil => rfl
      | cons digit rest => exact List.takeWhile_cons_of_neg (by simpa using hhead)
    rw [List.takeWhile_append_of_pos (by simp), hrest, List.append_nil, List.length_replicate]
  rw [rebase, hzeros, value_zeros_append]

/-- A list of zeros gains one zero on the way. -/
theorem rebase_zeros (base base' zeros : Nat) :
    rebase base base' (List.replicate zeros 0) = List.replicate (zeros + 1) 0 := by
  have hnil : ([] : List Nat).head? ≠ some 0 := by simp
  have h := rebase_zeros_append base base' zeros hnil
  rwa [List.append_nil, value_nil, numeral, if_pos rfl, List.reverse_singleton,
    ← List.replicate_succ'] at h

/-- Every digit of a rebased list is below the new base. -/
theorem lt_of_mem_rebase {base base' digit : Nat} {digits : List Nat} (hbase' : 1 < base')
    (h : digit ∈ rebase base base' digits) : digit < base' := by
  rcases List.mem_append.mp h with hzero | hdigit
  · rw [(List.mem_replicate.mp hzero).2]
    omega
  · exact lt_of_mem_numeral hbase' (List.mem_reverse.mp hdigit)

/-- The way there and back gives the list again exactly when some digit of it is
not zero. -/
theorem rebase_rebase_iff {base : Nat} (base' : Nat) (hbase : 1 < base)
    {digits : List Nat} (hdigits : ∀ digit ∈ digits, digit < base) :
    rebase base' base (rebase base base' digits) = digits ↔ ∃ digit ∈ digits, digit ≠ 0 := by
  obtain ⟨zeros, rest, rfl, hhead⟩ := exists_zeros_append digits
  by_cases hne : rest = []
  · subst hne
    rw [List.append_nil, rebase_zeros, rebase_zeros]
    constructor
    · intro heq
      have hlength := congrArg List.length heq
      rw [List.length_replicate, List.length_replicate] at hlength
      omega
    · rintro ⟨digit, hmem, hdigit⟩
      exact absurd (List.mem_replicate.mp hmem).2 hdigit
  · have hrest : ∀ digit ∈ rest, digit < base := by
      intro digit hmem
      exact hdigits digit (List.mem_append_right _ hmem)
    have hvalue := value_ne_zero hbase hrest hhead hne
    rw [rebase_zeros_append base base' zeros hhead,
      rebase_zeros_append base' base zeros (head?_reverse_numeral base' hvalue),
      value_reverse_numeral, numeral_value hbase hrest hhead hne, List.reverse_reverse]
    refine iff_of_true rfl ⟨rest.head hne, ?_, ?_⟩
    · exact List.mem_append_right _ (List.head_mem hne)
    · intro hzero
      exact hhead (by rw [List.head?_eq_some_head hne, hzero])

end Radix
