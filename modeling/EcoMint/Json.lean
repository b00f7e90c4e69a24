import Mathlib.Data.List.Sort
import Mathlib.Data.List.Infix
import Mathlib.Data.List.TakeWhile

/-!
# JSON texts

JSON values, the compact text that serialises them, and the selection of
property names that a serialiser may be told to keep.  Objects keep the order of
their properties.

Every text ends where its value ends, whatever follows it: the quotes, brackets
and braces close what they opened, and a number is followed by a character that
no number contains.  From this, `write_inj`: two values with the same text are
the same value, so nothing is lost in the text itself.  What a selection drops
is lost before.
-/

/-- A character that may stand in a number. -/
def isNumberChar (c : Char) : Bool :=
  c.isDigit || c = '-' || c = '+' || c = '.' || c = 'e' || c = 'E'

namespace Json

/-! ## The grammar of numbers -/

/-- One digit or more. -/
def dropDigits : List Char → Option (List Char)
  | c :: s => if c.isDigit then some (s.dropWhile Char.isDigit) else none
  | [] => none

/-- The whole part of a number, without leading zeros. -/
def dropInteger : List Char → Option (List Char)
  | '0' :: s => some s
  | s => dropDigits s

/-- The part after the point, if there is one. -/
def dropFraction : List Char → Option (List Char)
  | '.' :: s => dropDigits s
  | s => some s

/-- The exponent, if there is one. -/
def dropExponent : List Char → Option (List Char)
  | c :: s =>
      if c = 'e' ∨ c = 'E' then
        match s with
        | '+' :: s => dropDigits s
        | '-' :: s => dropDigits s
        | s => dropDigits s
      else some (c :: s)
  | [] => some []

/-- The sign, if there is one. -/
def dropSign : List Char → List Char
  | '-' :: s => s
  | s => s

/-- The text is a number of the grammar. -/
def isNumber (text : List Char) : Bool :=
  ((dropInteger (dropSign text)).bind dropFraction).bind dropExponent = some []

/-- A whole part begins with a digit. -/
theorem starts_of_dropInteger {c : Char} {s rest : List Char}
    (h : dropInteger (c :: s) = some rest) : c.isDigit = true := by
  unfold dropInteger at h
  split at h
  · next hzero =>
      obtain rfl := (List.cons.inj hzero).1
      decide
  · by_contra hdigit
    simp [dropDigits, hdigit] at h

/-- A number begins with a digit or a sign. -/
theorem starts_of_isNumber {text : List Char} (h : isNumber text = true) :
    ∃ c rest, text = c :: rest ∧ (c.isDigit = true ∨ c = '-') := by
  have hinteger : ∃ rest, dropInteger (dropSign text) = some rest := by
    cases hrest : dropInteger (dropSign text) with
    | none => simp [isNumber, hrest] at h
    | some rest => exact ⟨rest, rfl⟩
  obtain ⟨rest, hinteger⟩ := hinteger
  cases text with
  | nil => cases hinteger
  | cons c s =>
      refine ⟨c, s, rfl, ?_⟩
      by_cases hminus : c = '-'
      · exact Or.inr hminus
      · have hsign : dropSign (c :: s) = c :: s := by
          unfold dropSign
          split
          · next heq => exact absurd (List.cons.inj heq).1 hminus
          · rfl
        rw [hsign] at hinteger
        exact Or.inl (starts_of_dropInteger hinteger)

end Json

/-- A number, as the text it is written as: a text of the grammar. -/
structure NumberText where
  text : List Char
  grammar : Json.isNumber text = true
  made : ∀ c ∈ text, isNumberChar c = true
deriving DecidableEq

/-- The text of a number begins with a digit or a minus. -/
theorem NumberText.starts (n : NumberText) :
    ∃ c rest, n.text = c :: rest ∧ (c.isDigit = true ∨ c = '-') :=
  Json.starts_of_isNumber n.grammar

/-- JSON values; the fields of an object in their order. -/
inductive Json
  | null
  | bool (value : Bool)
  | num (value : NumberText)
  | str (value : String)
  | arr (items : List Json)
  | obj (fields : List (String × Json))

namespace Json

/-! ## Texts -/

/-- What follows the backslash when a character is escaped; `none` for one that
stands for itself. -/
def escapeCode (n : Nat) : Option (List Char) :=
  if n = 0x22 then some ['\x22']
  else if n = 0x5c then some ['\x5c']
  else if n = 0x08 then some ['b']
  else if n = 0x0c then some ['f']
  else if n = 0x0a then some ['n']
  else if n = 0x0d then some ['r']
  else if n = 0x09 then some ['t']
  else if n < 0x20 then some ['u', '0', '0', (n / 16).digitChar, (n % 16).digitChar]
  else none

/-- A character as it stands in quotes. -/
def escapeChar (c : Char) : List Char :=
  match escapeCode c.toNat with
  | some code => '\x5c' :: code
  | none => [c]

/-- The rest of a string literal whose opening quote is written. -/
def closeString : List Char → List Char
  | [] => ['\x22']
  | c :: rest => escapeChar c ++ closeString rest

/-- A text in quotes. -/
def quote (s : String) : List Char := '\x22' :: closeString s.toList

mutual

/-- The text of a value. -/
def write : Json → List Char
  | .null => ['n', 'u', 'l', 'l']
  | .bool true => ['t', 'r', 'u', 'e']
  | .bool false => ['f', 'a', 'l', 's', 'e']
  | .num value => value.text
  | .str value => quote value
  | .arr [] => ['[', ']']
  | .arr (item :: rest) => '[' :: (write item ++ closeArray rest)
  | .obj [] => ['\x7b', '\x7d']
  | .obj ((key, value) :: rest) =>
      '\x7b' :: (quote key ++ ':' :: (write value ++ closeObject rest))

/-- The rest of an array after its first item. -/
def closeArray : List Json → List Char
  | [] => [']']
  | item :: rest => ',' :: (write item ++ closeArray rest)

/-- The rest of an object after its first property. -/
def closeObject : List (String × Json) → List Char
  | [] => ['\x7d']
  | (key, value) :: rest => ',' :: (quote key ++ ':' :: (write value ++ closeObject rest))

end

/-- The text of a value, as a string. -/
def stringify (j : Json) : String := String.ofList (write j)

/-! ## Selections -/

/-- The properties with the allowed names, in the order of the names. -/
def select (allowed : List String) (fields : List (String × Json)) : List (String × Json) :=
  allowed.filterMap fun key => (fields.lookup key).map fun value => (key, value)

mutual

/-- The value with only the allowed properties left, in every object at any
depth. -/
def pick (allowed : List String) : Json → Json
  | .arr items => .arr (pickItems allowed items)
  | .obj fields => .obj (select allowed (pickFields allowed fields))
  | .null => .null
  | .bool value => .bool value
  | .num value => .num value
  | .str value => .str value

/-- The items of an array with the fields that are allowed. -/
def pickItems (allowed : List String) : List Json → List Json
  | [] => []
  | item :: rest => pick allowed item :: pickItems allowed rest

/-- The fields that are allowed, and what is allowed in them. -/
def pickFields (allowed : List String) : List (String × Json) → List (String × Json)
  | [] => []
  | (key, value) :: rest => (key, pick allowed value) :: pickFields allowed rest

end

/-- The property names of an object. -/
def keys : Json → List String
  | .obj fields => fields.map Prod.fst
  | _ => []

/-- Every field is kept; what is left out is within its value. -/
theorem pickFields_keys (allowed : List String) (fields : List (String × Json)) :
    (pickFields allowed fields).map Prod.fst = fields.map Prod.fst := by
  induction fields with
  | nil => rfl
  | cons field rest ih =>
      obtain ⟨key, value⟩ := field
      rw [pickFields, List.map_cons, List.map_cons, ih]

/-- An object none of whose properties is allowed is left without any. -/
theorem pick_obj_of_foreign {allowed : List String} {fields : List (String × Json)}
    (names : List String) (hnames : fields.map Prod.fst = names)
    (h : ∀ key ∈ allowed, key ∉ names) : pick allowed (.obj fields) = .obj [] := by
  have hnone : select allowed (pickFields allowed fields) = [] := by
    unfold select
    refine List.filterMap_eq_nil_iff.mpr fun key hkey => ?_
    have hfresh := h key hkey
    rw [← hnames, ← pickFields_keys allowed fields] at hfresh
    rw [Option.map_eq_none_iff, List.lookup_eq_none_iff]
    intro entry hentry
    simp only [ne_eq, bne_iff_ne]
    rintro rfl
    exact hfresh (List.mem_map_of_mem hentry)
  rw [pick, hnone]

/-- Picking from an array is picking from each item. -/
theorem pickItems_map {α : Type} (allowed : List String) (f : α → Json) (l : List α) :
    pickItems allowed (l.map f) = l.map fun x => pick allowed (f x) := by
  induction l with
  | nil => rfl
  | cons x rest ih => rw [List.map_cons, pickItems, ih, List.map_cons]

/-! ## Numbers from naturals -/

/-- Digits are characters of numbers. -/
theorem isNumberChar_of_isDigit {c : Char} (h : c.isDigit = true) : isNumberChar c = true := by
  simp [isNumberChar, h]

/-- The digits of a positive number begin with no zero. -/
theorem toDigits_head {n : Nat} (hn : 0 < n) (rest : List Char) :
    Nat.toDigits 10 n ≠ '0' :: rest := by
  induction n using Nat.strongRecOn generalizing rest with
  | ind n ih =>
      by_cases hsmall : n < 10
      · rw [Nat.toDigits_of_lt_base hsmall]
        intro h
        have hzero : ∀ d : Fin 10, 0 < d.val → d.val.digitChar ≠ '0' := by decide
        exact hzero ⟨n, hsmall⟩ hn (List.cons.inj h).1
      · rw [Nat.toDigits_of_base_le (by decide) (by omega)]
        intro h
        cases hdigits : Nat.toDigits 10 (n / 10) with
        | nil => exact absurd hdigits Nat.toDigits_ne_nil
        | cons c rest' =>
            rw [hdigits] at h
            obtain rfl := (List.cons.inj h).1
            exact ih (n / 10) (by omega) (by omega) rest' hdigits

/-- The digits of a natural number are a number. -/
theorem isNumber_toDigits (n : Nat) : isNumber (Nat.toDigits 10 n) = true := by
  have hdigit : ∀ c ∈ Nat.toDigits 10 n, c.isDigit = true := fun c hc =>
    Nat.isDigit_of_mem_toDigits (by decide) (by decide) hc
  rcases Nat.eq_zero_or_pos n with rfl | hn
  · decide
  · cases hdigits : Nat.toDigits 10 n with
    | nil => exact absurd hdigits Nat.toDigits_ne_nil
    | cons c rest =>
        rw [hdigits] at hdigit
        have hzero : c ≠ '0' := by
          rintro rfl
          exact toDigits_head hn rest hdigits
        have hminus : c ≠ '-' := by
          rintro rfl
          exact absurd (hdigit '-' List.mem_cons_self) (by decide)
        have hsign : dropSign (c :: rest) = c :: rest := by
          unfold dropSign
          split
          · next heq => exact absurd (List.cons.inj heq).1 hminus
          · rfl
        have hall : rest.dropWhile Char.isDigit = [] :=
          List.dropWhile_eq_nil_iff.mpr fun d hd => hdigit d (List.mem_cons_of_mem c hd)
        have hinteger : dropInteger (c :: rest) = some [] := by
          unfold dropInteger
          split
          · next heq => exact absurd (List.cons.inj heq).1 hzero
          · rw [dropDigits, if_pos (hdigit c List.mem_cons_self), hall]
        rw [isNumber, hsign, hinteger]
        rfl

/-- The decimal text of a natural number. -/
def ofNat (n : Nat) : NumberText where
  text := Nat.toDigits 10 n
  grammar := isNumber_toDigits n
  made c hc := isNumberChar_of_isDigit
    (Nat.isDigit_of_mem_toDigits (by decide) (by decide) hc)

theorem ofNat_inj {m n : Nat} : ofNat m = ofNat n ↔ m = n := by
  constructor
  · intro h
    have htext : Nat.toDigits 10 m = Nat.toDigits 10 n := congrArg NumberText.text h
    rw [← Nat.ofDigitChars_ten_toDigits (n := m), htext, Nat.ofDigitChars_ten_toDigits]
  · rintro rfl
    rfl

/-! ## A text ends where its value ends -/

/-- Nothing in `r` could continue a number. -/
def Ends (r : List Char) : Prop := ∀ c rest, r = c :: rest → isNumberChar c = false

/-- Two runs of characters of one kind that stop where the kind stops. -/
theorem append_inj_of_all {p : Char → Bool} {a a' r r' : List Char}
    (ha : ∀ c ∈ a, p c = true) (ha' : ∀ c ∈ a', p c = true)
    (hr : ∀ c rest, r = c :: rest → p c = false) (hr' : ∀ c rest, r' = c :: rest → p c = false)
    (h : a ++ r = a' ++ r') : a = a' ∧ r = r' := by
  induction a generalizing a' with
  | nil =>
      cases a' with
      | nil => exact ⟨rfl, h⟩
      | cons c' rest' =>
          have hin := ha' c' List.mem_cons_self
          rw [hr c' _ h] at hin
          cases hin
  | cons c rest ih =>
      cases a' with
      | nil =>
          have hin := ha c List.mem_cons_self
          rw [hr' c _ h.symm] at hin
          cases hin
      | cons c' rest' =>
          obtain ⟨rfl, htail⟩ := List.cons.inj h
          obtain ⟨rfl, hrest⟩ := ih (fun d hd => ha d (List.mem_cons_of_mem c hd))
            (fun d hd => ha' d (List.mem_cons_of_mem c hd)) htail
          exact ⟨rfl, hrest⟩

theorem NumberText.append_inj {n n' : NumberText} {r r' : List Char} (hr : Ends r)
    (hr' : Ends r') (h : n.text ++ r = n'.text ++ r') : n = n' ∧ r = r' := by
  obtain ⟨htext, hrest⟩ := append_inj_of_all n.made n'.made hr hr' h
  refine ⟨?_, hrest⟩
  cases n
  cases n'
  congr

/-! ### Strings -/

/-- The codes whose escape is a single letter, with this letter. -/
def shortEscapes : List (Nat × Char) :=
  [(0x22, '\x22'), (0x5c, '\x5c'), (0x08, 'b'), (0x0c, 'f'), (0x0a, 'n'), (0x0d, 'r'), (0x09, 't')]

/-- The short escapes, as they are written. -/
theorem escapeCode_short : ∀ p ∈ shortEscapes, escapeCode p.1 = some [p.2] := by decide

/-- Every other control character is written with four hexadecimal digits. -/
theorem escapeCode_other {n : Nat} (h : ∀ p ∈ shortEscapes, n ≠ p.1) : escapeCode n =
    if n < 0x20 then some ['u', '0', '0', (n / 16).digitChar, (n % 16).digitChar] else none := by
  simp only [shortEscapes, List.forall_mem_cons] at h
  obtain ⟨hquote, hslash, hb, hf, hn, hr, ht, -⟩ := h
  rw [escapeCode, if_neg hquote, if_neg hslash, if_neg hb, if_neg hf, if_neg hn, if_neg hr,
    if_neg ht]

/-- **The escapes.**  A code has a letter of its own, or it is a control
character, or it stands for itself. -/
theorem escapeCode_cases (n : Nat) :
    (∃ e, (n, e) ∈ shortEscapes ∧ escapeCode n = some [e]) ∨
      (n < 0x20 ∧ (∀ p ∈ shortEscapes, n ≠ p.1) ∧ escapeCode n =
        some ['u', '0', '0', (n / 16).digitChar, (n % 16).digitChar]) ∨
      0x20 ≤ n ∧ (∀ p ∈ shortEscapes, n ≠ p.1) ∧ escapeCode n = none := by
  by_cases hshort : ∃ p ∈ shortEscapes, n = p.1
  · obtain ⟨p, hp, rfl⟩ := hshort
    exact Or.inl ⟨p.2, hp, escapeCode_short p hp⟩
  · have hother : ∀ p ∈ shortEscapes, n ≠ p.1 := fun p hp heq => hshort ⟨p, hp, heq⟩
    refine Or.inr ?_
    rw [escapeCode_other hother]
    by_cases hcontrol : n < 0x20
    · exact Or.inl ⟨hcontrol, hother, if_pos hcontrol⟩
    · exact Or.inr ⟨Nat.le_of_not_lt hcontrol, hother, if_neg hcontrol⟩

/-- The code whose escape begins the text: two hexadecimal digits after `u00`, a
letter of its own otherwise. -/
def readEscape : List Char → Option Nat
  | '\x22' :: _ => some 0x22
  | '\x5c' :: _ => some 0x5c
  | 'b' :: _ => some 0x08
  | 'f' :: _ => some 0x0c
  | 'n' :: _ => some 0x0a
  | 'r' :: _ => some 0x0d
  | 't' :: _ => some 0x09
  | 'u' :: '0' :: '0' :: high :: low :: _ => some (16 * hexDigit high + hexDigit low)
  | _ => none
where
  hexDigit (c : Char) : Nat := if c.toNat < 0x3a then c.toNat - 0x30 else c.toNat - 0x57

/-- A hexadecimal digit is read back. -/
theorem hexDigit_digitChar : ∀ d : Fin 16, readEscape.hexDigit d.val.digitChar = d := by decide

/-- A short escape is read back. -/
theorem readEscape_short (r : List Char) :
    ∀ p ∈ shortEscapes, readEscape (p.2 :: r) = some p.1 := by
  simp only [shortEscapes, List.forall_mem_cons]
  exact ⟨rfl, rfl, rfl, rfl, rfl, rfl, rfl, fun _ hp => absurd hp List.not_mem_nil⟩

/-- An escape can be read off the beginning of a text. -/
theorem readEscape_append {n : Nat} {code r : List Char} (h : escapeCode n = some code) :
    readEscape (code ++ r) = some n := by
  rcases escapeCode_cases n with ⟨e, he, heq⟩ | ⟨hcontrol, -, heq⟩ | ⟨-, -, heq⟩
  · cases heq.symm.trans h
    exact readEscape_short r (n, e) he
  · cases heq.symm.trans h
    have hhigh : readEscape.hexDigit (n / 16).digitChar = n / 16 :=
      hexDigit_digitChar ⟨n / 16, by omega⟩
    have hlow : readEscape.hexDigit (n % 16).digitChar = n % 16 :=
      hexDigit_digitChar ⟨n % 16, by omega⟩
    simp only [List.cons_append, readEscape, hhigh, hlow, Nat.div_add_mod]
  · cases heq.symm.trans h

/-- A character that stands for itself is no quote and no backslash. -/
theorem escapeCode_eq_none {c : Char} (h : escapeCode c.toNat = none) :
    c ≠ '\x22' ∧ c ≠ '\x5c' := by
  refine ⟨?_, ?_⟩ <;> (rintro rfl; revert h; decide)

theorem escapeCode_append_inj {m n : Nat} {code code' r r' : List Char}
    (h : escapeCode m = some code) (h' : escapeCode n = some code')
    (heq : code ++ r = code' ++ r') : m = n ∧ r = r' := by
  have hmn : m = n := by
    have hread := readEscape_append h (r := r)
    rw [heq, readEscape_append h'] at hread
    exact (Option.some.inj hread).symm
  subst hmn
  obtain rfl : code = code' := Option.some.inj (h.symm.trans h')
  exact ⟨rfl, List.append_cancel_left heq⟩

theorem escapeChar_append_inj {c c' : Char} {r r' : List Char}
    (h : escapeChar c ++ r = escapeChar c' ++ r') : c = c' ∧ r = r' := by
  unfold escapeChar at h
  cases hcode : escapeCode c.toNat with
  | none =>
      cases hcode' : escapeCode c'.toNat with
      | none =>
          simp only [hcode, hcode', List.singleton_append, List.cons.injEq] at h
          exact h
      | some code' =>
          simp only [hcode, hcode', List.cons_append, List.cons.injEq] at h
          exact absurd h.1 (escapeCode_eq_none hcode).2
  | some code =>
      cases hcode' : escapeCode c'.toNat with
      | none =>
          simp only [hcode, hcode', List.cons_append, List.cons.injEq] at h
          exact absurd h.1.symm (escapeCode_eq_none hcode').2
      | some code' =>
          simp only [hcode, hcode', List.cons_append, List.cons.injEq, true_and] at h
          obtain ⟨hchar, hrest⟩ := escapeCode_append_inj hcode hcode' h
          exact ⟨Char.toNat_inj.mp hchar, hrest⟩

/-- An escaped character does not begin with a quote. -/
theorem escapeChar_ne_quote {c : Char} {r r' : List Char} :
    '\x22' :: r ≠ escapeChar c ++ r' := by
  unfold escapeChar
  cases hcode : escapeCode c.toNat with
  | none =>
      intro h
      exact (escapeCode_eq_none hcode).1 (List.cons.inj h).1.symm
  | some code =>
      intro h
      have hhead := (List.cons.inj h).1
      revert hhead
      decide

theorem closeString_append_inj {cs cs' r r' : List Char}
    (h : closeString cs ++ r = closeString cs' ++ r') : cs = cs' ∧ r = r' := by
  induction cs generalizing cs' with
  | nil =>
      cases cs' with
      | nil => exact ⟨rfl, (List.cons.inj h).2⟩
      | cons c' rest' =>
          rw [closeString, closeString, List.append_assoc] at h
          exact absurd h escapeChar_ne_quote
  | cons c rest ih =>
      cases cs' with
      | nil =>
          rw [closeString, closeString, List.append_assoc] at h
          exact absurd h.symm escapeChar_ne_quote
      | cons c' rest' =>
          rw [closeString, closeString, List.append_assoc, List.append_assoc] at h
          obtain ⟨rfl, htail⟩ := escapeChar_append_inj h
          obtain ⟨rfl, hrest⟩ := ih htail
          exact ⟨rfl, hrest⟩

theorem quote_append_inj {s s' : String} {r r' : List Char}
    (h : quote s ++ r = quote s' ++ r') : s = s' ∧ r = r' := by
  obtain ⟨hchars, hrest⟩ := closeString_append_inj (List.cons.inj h).2
  exact ⟨String.toList_inj.mp hchars, hrest⟩

/-- A property begins with its name, which ends where the name ends. -/
theorem key_append_inj {key key' : String} {text text' tail tail' r r' : List Char}
    (h : quote key ++ ':' :: (text ++ tail) ++ r = quote key' ++ ':' :: (text' ++ tail') ++ r') :
    key = key' ∧ text ++ (tail ++ r) = text' ++ (tail' ++ r') := by
  rw [List.append_assoc, List.append_assoc] at h
  obtain ⟨rfl, htail⟩ := quote_append_inj h
  rw [List.cons_append, List.cons_append, List.append_assoc, List.append_assoc] at htail
  exact ⟨rfl, (List.cons.inj htail).2⟩

/-! ### Values -/

/-- The six forms of a value. -/
inductive Form
  | null
  | bool
  | num
  | str
  | arr
  | obj
deriving DecidableEq

/-- The form of a value. -/
def form : Json → Form
  | .null => .null
  | .bool _ => .bool
  | .num _ => .num
  | .str _ => .str
  | .arr _ => .arr
  | .obj _ => .obj

/-- The form that a first character announces. -/
def formOf (c : Char) : Form :=
  if c = 'n' then .null
  else if c = 't' ∨ c = 'f' then .bool
  else if c = '\x22' then .str
  else if c = '[' then .arr
  else if c = '\x7b' then .obj
  else .num

/-- A number is told by its first character. -/
theorem formOf_number {c : Char} (h : c.isDigit = true ∨ c = '-') :
    formOf c = .num ∧ c ≠ ']' := by
  have hne : ∀ d : Char, d.isDigit = false → d ≠ '-' → c ≠ d := by
    rintro d hdigit hminus rfl
    rcases h with h | h
    · rw [hdigit] at h
      cases h
    · exact hminus h
  refine ⟨?_, hne ']' (by decide) (by decide)⟩
  unfold formOf
  rw [if_neg (hne _ (by decide) (by decide)), if_neg, if_neg (hne _ (by decide) (by decide)),
    if_neg (hne _ (by decide) (by decide)), if_neg (hne _ (by decide) (by decide))]
  rintro (hc | hc)
  · exact hne 't' (by decide) (by decide) hc
  · exact hne 'f' (by decide) (by decide) hc

/-- A text announces the form of its value with its first character. -/
theorem write_eq_cons (j : Json) :
    ∃ c rest, write j = c :: rest ∧ formOf c = j.form ∧ c ≠ ']' := by
  cases j with
  | null => exact ⟨_, _, rfl, rfl, by decide⟩
  | bool value => cases value <;> exact ⟨_, _, rfl, rfl, by decide⟩
  | num value =>
      obtain ⟨c, rest, htext, hstarts⟩ := value.starts
      obtain ⟨hform, hclose⟩ := formOf_number hstarts
      exact ⟨c, rest, by rw [write, htext], hform, hclose⟩
  | str value => exact ⟨_, _, rfl, rfl, by decide⟩
  | arr items => cases items <;> exact ⟨_, _, by rw [write], rfl, by decide⟩
  | obj fields =>
      cases fields with
      | nil => exact ⟨_, _, rfl, rfl, by decide⟩
      | cons field rest =>
          obtain ⟨key, value⟩ := field
          exact ⟨_, _, by rw [write], rfl, by decide⟩

/-- Values with one text have one form. -/
theorem form_eq {j j' : Json} {r r' : List Char} (h : write j ++ r = write j' ++ r') :
    j.form = j'.form := by
  obtain ⟨c, rest, hwrite, hform, -⟩ := write_eq_cons j
  obtain ⟨c', rest', hwrite', hform', -⟩ := write_eq_cons j'
  rw [hwrite, hwrite'] at h
  rw [← hform, ← hform', (List.cons.inj h).1]

/-- No value begins with a closing bracket. -/
theorem close_ne_write {j : Json} {r r' : List Char} : ']' :: r ≠ write j ++ r' := by
  obtain ⟨c, rest, hwrite, -, hclose⟩ := write_eq_cons j
  rw [hwrite]
  intro h
  exact hclose (List.cons.inj h).1.symm

theorem ends_cons {c : Char} {r : List Char} (h : isNumberChar c = false) : Ends (c :: r) := by
  intro d rest heq
  rw [← (List.cons.inj heq).1]
  exact h

/-- What follows an item ends a number. -/
theorem ends_closeArray (items : List Json) (r : List Char) : Ends (closeArray items ++ r) := by
  cases items with
  | nil => exact ends_cons (by decide)
  | cons item rest =>
      rw [closeArray]
      exact ends_cons (by decide)

/-- What follows a field ends a number. -/
theorem ends_closeObject (fields : List (String × Json)) (r : List Char) :
    Ends (closeObject fields ++ r) := by
  cases fields with
  | nil => exact ends_cons (by decide)
  | cons field rest =>
      obtain ⟨key, value⟩ := field
      rw [closeObject]
      exact ends_cons (by decide)

mutual

/-- Texts of two values that are followed by something that ends them. -/
theorem write_append_inj : ∀ (j j' : Json) (r r' : List Char), Ends r → Ends r' →
    write j ++ r = write j' ++ r' → j = j' ∧ r = r'
  | .null, j', r, r', _, _, h => by
      cases j' with
      | null => exact ⟨rfl, List.append_cancel_left h⟩
      | bool | num | str | arr | obj => cases form_eq h
  | .bool value, j', r, r', _, _, h => by
      cases j' with
      | bool value' =>
          cases value <;> cases value' <;> simp [write] at h
          · exact ⟨rfl, h⟩
          · exact ⟨rfl, h⟩
      | null | num | str | arr | obj => cases form_eq h
  | .num value, j', r, r', hr, hr', h => by
      cases j' with
      | num value' =>
          rw [write, write] at h
          obtain ⟨rfl, hrest⟩ := NumberText.append_inj hr hr' h
          exact ⟨rfl, hrest⟩
      | null | bool | str | arr | obj => cases form_eq h
  | .str value, j', r, r', _, _, h => by
      cases j' with
      | str value' =>
          rw [write, write] at h
          obtain ⟨rfl, hrest⟩ := quote_append_inj h
          exact ⟨rfl, hrest⟩
      | null | bool | num | arr | obj => cases form_eq h
  | .arr [], j', r, r', _, _, h => by
      cases j' with
      | arr items' =>
          cases items' with
          | nil => exact ⟨rfl, List.append_cancel_left h⟩
          | cons item' rest' =>
              simp only [write, List.cons_append, List.append_assoc] at h
              exact absurd (List.cons.inj h).2 close_ne_write
      | null | bool | num | str | obj => cases form_eq h
  | .arr (item :: rest), j', r, r', _, _, h => by
      cases j' with
      | arr items' =>
          cases items' with
          | nil =>
              simp only [write, List.cons_append, List.append_assoc] at h
              exact absurd (List.cons.inj h).2.symm close_ne_write
          | cons item' rest' =>
              rw [write, write, List.cons_append, List.cons_append, List.append_assoc,
                List.append_assoc] at h
              obtain ⟨rfl, htail⟩ := write_append_inj item item' _ _ (ends_closeArray rest r)
                (ends_closeArray rest' r') (List.cons.inj h).2
              obtain ⟨rfl, hrest⟩ := closeArray_append_inj rest rest' r r' htail
              exact ⟨rfl, hrest⟩
      | null | bool | num | str | obj => cases form_eq h
  | .obj [], j', r, r', _, _, h => by
      cases j' with
      | obj fields' =>
          cases fields' with
          | nil => exact ⟨rfl, List.append_cancel_left h⟩
          | cons field' rest' =>
              obtain ⟨key', value'⟩ := field'
              rw [write, write] at h
              simp [quote] at h
      | null | bool | num | str | arr => cases form_eq h
  | .obj ((key, value) :: rest), j', r, r', _, _, h => by
      cases j' with
      | obj fields' =>
          cases fields' with
          | nil =>
              rw [write, write] at h
              simp [quote] at h
          | cons field' rest' =>
              obtain ⟨key', value'⟩ := field'
              rw [write, write, List.cons_append, List.cons_append] at h
              obtain ⟨rfl, hvalue⟩ := key_append_inj (List.cons.inj h).2
              obtain ⟨rfl, hclose⟩ := write_append_inj value value' _ _ (ends_closeObject rest r)
                (ends_closeObject rest' r') hvalue
              obtain ⟨rfl, hrest⟩ := closeObject_append_inj rest rest' r r' hclose
              exact ⟨rfl, hrest⟩
      | null | bool | num | str | arr => cases form_eq h

theorem closeArray_append_inj : ∀ (items items' : List Json) (r r' : List Char),
    closeArray items ++ r = closeArray items' ++ r' → items = items' ∧ r = r'
  | [], items', r, r', h => by
      cases items' with
      | nil => exact ⟨rfl, List.append_cancel_left h⟩
      | cons item' rest' =>
          rw [closeArray, closeArray] at h
          simp at h
  | item :: rest, items', r, r', h => by
      cases items' with
      | nil =>
          rw [closeArray, closeArray] at h
          simp at h
      | cons item' rest' =>
          rw [closeArray, closeArray, List.cons_append, List.cons_append, List.append_assoc,
            List.append_assoc] at h
          obtain ⟨rfl, htail⟩ := write_append_inj item item' _ _ (ends_closeArray rest r)
            (ends_closeArray rest' r') (List.cons.inj h).2
          obtain ⟨rfl, hrest⟩ := closeArray_append_inj rest rest' r r' htail
          exact ⟨rfl, hrest⟩

theorem closeObject_append_inj : ∀ (fields fields' : List (String × Json)) (r r' : List Char),
    closeObject fields ++ r = closeObject fields' ++ r' → fields = fields' ∧ r = r'
  | [], fields', r, r', h => by
      cases fields' with
      | nil => exact ⟨rfl, List.append_cancel_left h⟩
      | cons field' rest' =>
          obtain ⟨key', value'⟩ := field'
          rw [closeObject, closeObject] at h
          simp at h
  | (key, value) :: rest, fields', r, r', h => by
      cases fields' with
      | nil =>
          rw [closeObject, closeObject] at h
          simp at h
      | cons field' rest' =>
          obtain ⟨key', value'⟩ := field'
          rw [closeObject, closeObject, List.cons_append, List.cons_append] at h
          obtain ⟨rfl, hvalue⟩ := key_append_inj (List.cons.inj h).2
          obtain ⟨rfl, hclose⟩ := write_append_inj value value' _ _ (ends_closeObject rest r)
            (ends_closeObject rest' r') hvalue
          obtain ⟨rfl, hrest⟩ := closeObject_append_inj rest rest' r r' hclose
          exact ⟨rfl, hrest⟩

end

/-- **A text belongs to one value only.** -/
theorem stringify_inj {j j' : Json} : stringify j = stringify j' ↔ j = j' := by
  constructor
  · intro h
    have htext := String.ofList_injective h
    have hends : Ends [] := fun c rest heq => by cases heq
    exact (write_append_inj j j' [] [] hends hends (by rw [htext])).1
  · rintro rfl
    rfl

end Json
