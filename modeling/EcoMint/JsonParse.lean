import EcoMint.Json
import Mathlib.Data.List.TakeWhile

/-!
# Parsing JSON texts

The parser of the grammar of JSON, with a bound on the depth and the number of
items that the length of the text always meets.  It takes the text of every value
back to the value (`parse_write`).
-/

namespace Json

/-! ## Strings -/

/-- The blanks of JSON. -/
def isSpace (c : Char) : Bool := c = ' ' || c = '\t' || c = '\n' || c = '\r'

/-- The text after its blanks. -/
def skipSpace (s : List Char) : List Char := s.dropWhile isSpace

/-- The value of a hexadecimal digit. -/
def hexValue (c : Char) : Option Nat :=
  if c.isDigit then some (c.toNat - 0x30)
  else if 0x61 ≤ c.toNat ∧ c.toNat ≤ 0x66 then some (c.toNat - 0x57)
  else if 0x41 ≤ c.toNat ∧ c.toNat ≤ 0x46 then some (c.toNat - 0x37)
  else none

/-- The code unit of an escape. -/
def hexUnit (a b c d : Char) : Option Nat := do
  let a ← hexValue a
  let b ← hexValue b
  let c ← hexValue c
  let d ← hexValue d
  return 4096 * a + 256 * b + 16 * c + d

/-- The character of a short escape. -/
def simpleEscape (c : Char) : Option Char :=
  if c = '\x22' ∨ c = '\x5c' ∨ c = '/' then some c
  else if c = 'b' then some '\x08'
  else if c = 'f' then some '\x0c'
  else if c = 'n' then some '\n'
  else if c = 'r' then some '\r'
  else if c = 't' then some '\t'
  else none

/-- A string up to its closing quote: its characters, and the code units that
are escaped, and what follows it. -/
def parsePieces : List Char → Option (List (Char ⊕ Nat) × List Char)
  | [] => none
  | c :: s =>
      if c = '\x22' then some ([], s)
      else if c = '\x5c' then
        match s with
        | 'u' :: a :: b :: c :: d :: s =>
            match hexUnit a b c d, parsePieces s with
            | some unit, some (pieces, s) => some (.inr unit :: pieces, s)
            | _, _ => none
        | e :: s =>
            match simpleEscape e, parsePieces s with
            | some c, some (pieces, s) => some (.inl c :: pieces, s)
            | _, _ => none
        | [] => none
      else if c.toNat < 0x20 then none
      else
        match parsePieces s with
        | some (pieces, s) => some (.inl c :: pieces, s)
        | none => none

/-- The character of a code unit; half a surrogate pair has none. -/
def loneUnit (unit : Nat) : Char :=
  if 0xd800 ≤ unit ∧ unit ≤ 0xdfff then '\uFFFD' else Char.ofNat unit

/-- The characters, those of two code units put together. -/
def joinPieces : List (Char ⊕ Nat) → List Char
  | [] => []
  | .inl c :: rest => c :: joinPieces rest
  | .inr high :: .inr low :: rest =>
      if 0xd800 ≤ high ∧ high ≤ 0xdbff ∧ 0xdc00 ≤ low ∧ low ≤ 0xdfff then
        Char.ofNat (0x10000 + 0x400 * (high - 0xd800) + (low - 0xdc00)) :: joinPieces rest
      else loneUnit high :: joinPieces (.inr low :: rest)
  | .inr unit :: rest => loneUnit unit :: joinPieces rest

/-- A string after its first quote. -/
def parseString (s : List Char) : Option (String × List Char) :=
  (parsePieces s).map fun (pieces, s) => (String.ofList (joinPieces pieces), s)

/-! ## Numbers -/

/-- A text as a number, if it is one. -/
def numberText (text : List Char) : Option NumberText :=
  if h : isNumber text = true ∧ text.all isNumberChar = true then
    some ⟨text, h.1, List.all_eq_true.mp h.2⟩
  else none

/-- All that could belong to a number has to. -/
def parseNumber (s : List Char) : Option (Json × List Char) :=
  (numberText (s.takeWhile isNumberChar)).map fun text =>
    (.num text, s.dropWhile isNumberChar)

/-! ## Values -/

/-- A literal, if the text begins with it. -/
def parseLiteral (literal : List Char) (value : Json) (s : List Char) :
    Option (Json × List Char) :=
  if literal.isPrefixOf s then some (value, s.drop literal.length) else none

/-- A property at the beginning of the text, and what follows it. -/
def parseField (parseValue : List Char → Option (Json × List Char)) (s : List Char) :
    Option ((String × Json) × List Char) :=
  match skipSpace s with
  | '"' :: s =>
      match parseString s with
      | some (key, s) =>
          match skipSpace s with
          | ':' :: s => (parseValue s).map fun (value, s) => ((key, value), s)
          | _ => none
      | none => none
  | _ => none

mutual

/-- A value at the beginning of the text, and what follows it. -/
def parseValue : Nat → List Char → Option (Json × List Char)
  | 0, _ => none
  | fuel + 1, s =>
      match skipSpace s with
      | [] => none
      | c :: s =>
          if c = '"' then (parseString s).map fun (value, s) => (.str value, s)
          else if c = '[' then
            match skipSpace s with
            | ']' :: s => some (.arr [], s)
            | s =>
                match parseValue fuel s with
                | some (item, s) =>
                    (parseItems fuel s).map fun (items, s) => (.arr (item :: items), s)
                | none => none
          else if c = '{' then
            match skipSpace s with
            | '}' :: s => some (.obj [], s)
            | s =>
                match parseField (parseValue fuel) s with
                | some (field, s) =>
                    (parseFields fuel s).map fun (fields, s) => (.obj (field :: fields), s)
                | none => none
          else if c = 'n' then parseLiteral ['u', 'l', 'l'] .null s
          else if c = 't' then parseLiteral ['r', 'u', 'e'] (.bool true) s
          else if c = 'f' then parseLiteral ['a', 'l', 's', 'e'] (.bool false) s
          else parseNumber (c :: s)

/-- The rest of an array after an item. -/
def parseItems : Nat → List Char → Option (List Json × List Char)
  | 0, _ => none
  | fuel + 1, s =>
      match skipSpace s with
      | ',' :: s =>
          match parseValue fuel s with
          | some (item, s) => (parseItems fuel s).map fun (items, s) => (item :: items, s)
          | none => none
      | ']' :: s => some ([], s)
      | _ => none

/-- The rest of an object after a property. -/
def parseFields : Nat → List Char → Option (List (String × Json) × List Char)
  | 0, _ => none
  | fuel + 1, s =>
      match skipSpace s with
      | ',' :: s =>
          match parseField (parseValue fuel) s with
          | some (field, s) => (parseFields fuel s).map fun (fields, s) => (field :: fields, s)
          | none => none
      | '}' :: s => some ([], s)
      | _ => none

end

/-- `JSON.parse` -/
def parse (s : List Char) : Option Json :=
  match parseValue (s.length + 1) s with
  | some (value, s) => if s.all isSpace then some value else none
  | none => none

/-! ## Round trip -/

/-- A written digit has its value. -/
theorem hexValue_digitChar : ∀ d : Fin 16, hexValue d.val.digitChar = some d.val := by decide

/-- The piece that a written character is read as. -/
def pieceOf (c : Char) : Char ⊕ Nat :=
  if c.toNat < 0x20 ∧ c ≠ '\x08' ∧ c ≠ '\x0c' ∧ c ≠ '\n' ∧ c ≠ '\r' ∧ c ≠ '\t' then .inr c.toNat
  else .inl c

/-- A string ends at its quote. -/
theorem parsePieces_quote (s : List Char) : parsePieces ('\x22' :: s) = some ([], s) := by
  rw [parsePieces.eq_def]
  rfl

/-- A character with an escape of its own. -/
theorem parsePieces_simple {e c : Char} (hescape : simpleEscape e = some c) (s : List Char) :
    parsePieces ('\x5c' :: e :: s) =
      (parsePieces s).map fun (pieces, s) => (.inl c :: pieces, s) := by
  have hne : e ≠ 'u' := by
    rintro rfl
    cases hescape
  rw [parsePieces.eq_def]
  simp only [Char.reduceEq, if_true, if_false]
  split
  · next heq => exact absurd (List.cons.inj heq).1 hne
  · next heq =>
      obtain ⟨rfl, rfl⟩ := List.cons.inj heq
      rw [hescape]
      cases parsePieces s <;> rfl
  · next heq => cases heq

/-- A control character without one. -/
theorem parsePieces_control {n : Nat} (hn : n < 0x20) (s : List Char) :
    parsePieces ('\x5c' :: 'u' :: '0' :: '0' :: (n / 16).digitChar :: (n % 16).digitChar :: s) =
      (parsePieces s).map fun (pieces, s) => (.inr n :: pieces, s) := by
  have hhigh : hexValue (n / 16).digitChar = some (n / 16) :=
    hexValue_digitChar ⟨n / 16, by omega⟩
  have hlow : hexValue (n % 16).digitChar = some (n % 16) :=
    hexValue_digitChar ⟨n % 16, by omega⟩
  have hzero : hexValue '0' = some 0 := by decide
  have hunit : hexUnit '0' '0' (n / 16).digitChar (n % 16).digitChar = some n := by
    simp only [hexUnit, hzero, hhigh, hlow, Option.bind_eq_bind, Option.bind_some, Option.pure_def,
      Option.some.injEq]
    omega
  rw [parsePieces.eq_def]
  simp only [Char.reduceEq, if_true, if_false, hunit]
  cases parsePieces s <;> rfl

/-- A character that needs no escape is a piece. -/
theorem parsePieces_plain {c : Char} (hquote : c ≠ '\x22') (hslash : c ≠ '\x5c')
    (hlow : 0x20 ≤ c.toNat) (s : List Char) :
    parsePieces (c :: s) = (parsePieces s).map fun (pieces, s) => (.inl c :: pieces, s) := by
  rw [parsePieces.eq_def]
  simp only
  rw [if_neg hquote, if_neg hslash, if_neg (by omega)]
  cases parsePieces s <;> rfl

/-- A written character is a piece. -/
theorem parsePieces_escapeChar (c : Char) (s : List Char) :
    parsePieces (escapeChar c ++ s) =
      (parsePieces s).map fun (pieces, s) => (pieceOf c :: pieces, s) := by
  have hshort : ∀ p ∈ shortEscapes, simpleEscape p.2 = some (Char.ofNat p.1) ∧
      pieceOf (Char.ofNat p.1) = .inl (Char.ofNat p.1) := by decide
  unfold escapeChar
  rcases escapeCode_cases c.toNat with ⟨e, he, hcode⟩ | ⟨hlow, hother, hcode⟩ |
    ⟨hhigh, hother, hcode⟩
  · obtain ⟨hescape, hpiece⟩ := hshort _ he
    rw [Char.ofNat_toNat] at hescape hpiece
    rw [hcode, hpiece]
    exact parsePieces_simple hescape s
  · simp only [shortEscapes, List.forall_mem_cons] at hother
    obtain ⟨-, -, hb, hf, hn, hr, ht, -⟩ := hother
    have hpiece : pieceOf c = .inr c.toNat :=
      if_pos ⟨hlow, fun h => hb (congrArg Char.toNat h), fun h => hf (congrArg Char.toNat h),
        fun h => hn (congrArg Char.toNat h), fun h => hr (congrArg Char.toNat h),
        fun h => ht (congrArg Char.toNat h)⟩
    rw [hcode, hpiece]
    exact parsePieces_control hlow s
  · have hpiece : pieceOf c = .inl c := if_neg fun h => absurd h.1 (Nat.not_lt_of_le hhigh)
    simp only [shortEscapes, List.forall_mem_cons] at hother
    obtain ⟨hquote, hslash, -⟩ := hother
    rw [hcode, hpiece]
    exact parsePieces_plain (fun h => hquote (congrArg Char.toNat h))
      (fun h => hslash (congrArg Char.toNat h)) hhigh s

/-- The pieces of a text are joined to it. -/
theorem joinPieces_pieceOf (cs : List Char) : joinPieces (cs.map pieceOf) = cs := by
  have hlone : ∀ c : Char, c.toNat < 0x20 → loneUnit c.toNat = c := by
    intro c hc
    rw [loneUnit, if_neg (by omega), Char.ofNat_toNat]
  induction cs with
  | nil => rfl
  | cons c cs ih =>
      rw [List.map_cons]
      by_cases hcontrol : pieceOf c = .inl c
      · rw [hcontrol, joinPieces, ih]
      · have hlow : c.toNat < 0x20 ∧ pieceOf c = .inr c.toNat := by
          unfold pieceOf at hcontrol ⊢
          split_ifs at hcontrol ⊢ with h
          · exact ⟨h.1, rfl⟩
          · exact absurd rfl hcontrol
        rw [hlow.2]
        -- a control character is no half of a surrogate pair
        cases hrest : cs.map pieceOf with
        | nil =>
            rw [hrest] at ih
            rw [joinPieces, ih, hlone c hlow.1]
            simp
        | cons piece pieces =>
            rw [hrest] at ih
            cases piece with
            | inl d => rw [joinPieces, ih, hlone c hlow.1]; simp
            | inr low => rw [joinPieces, if_neg (by omega), ih, hlone c hlow.1]

/-- A written string is parsed. -/
theorem parseString_closeString (cs s : List Char) :
    parseString (closeString cs ++ s) = some (String.ofList cs, s) := by
  have hpieces : parsePieces (closeString cs ++ s) = some (cs.map pieceOf, s) := by
    induction cs with
    | nil => exact parsePieces_quote s
    | cons c cs ih => rw [closeString, List.append_assoc, parsePieces_escapeChar, ih]; rfl
  rw [parseString, hpieces, Option.map_some]
  simp only [joinPieces_pieceOf]

/-! ### Numbers -/

/-- What has a property up to a character without it is taken as a whole. -/
theorem dropWhile_append_stop {p : Char → Bool} {a r : List Char} (ha : ∀ c ∈ a, p c = true)
    (hr : ∀ c rest, r = c :: rest → p c = false) :
    (a ++ r).takeWhile p = a ∧ (a ++ r).dropWhile p = r := by
  have hstop : r.takeWhile p = [] ∧ r.dropWhile p = r := by
    cases r with
    | nil => exact ⟨rfl, rfl⟩
    | cons c rest => simp [hr c rest rfl]
  rw [List.takeWhile_append_of_pos ha, List.dropWhile_append_of_pos ha, hstop.1, hstop.2,
    List.append_nil]
  exact ⟨rfl, rfl⟩

theorem parseNumber_append (n : NumberText) {r : List Char} (hr : Ends r) :
    parseNumber (n.text ++ r) = some (.num n, r) := by
  obtain ⟨htake, hdrop⟩ := dropWhile_append_stop n.made hr
  rw [parseNumber, htake, hdrop, numberText, dif_pos ⟨n.grammar, List.all_eq_true.mpr n.made⟩]
  rfl

/-! ### Values -/

theorem skipSpace_cons {c : Char} (h : isSpace c = false) (s : List Char) :
    skipSpace (c :: s) = c :: s := by
  simp [skipSpace, h]

/-- No number begins with a blank. -/
theorem isSpace_of_number {c : Char} (h : c.isDigit = true ∨ c = '-') : isSpace c = false := by
  rw [Bool.eq_false_iff]
  intro hspace
  simp only [isSpace, Bool.or_eq_true, decide_eq_true_eq] at hspace
  rcases hspace with ((rfl | rfl) | rfl) | rfl <;> revert h <;> decide

/-- No space stands in front of a value. -/
theorem skipSpace_write (j : Json) (r : List Char) : skipSpace (write j ++ r) = write j ++ r := by
  have hhead : ∃ c rest, write j = c :: rest ∧ isSpace c = false := by
    cases j with
    | null => exact ⟨_, _, rfl, by decide⟩
    | bool value => cases value <;> exact ⟨_, _, rfl, by decide⟩
    | num value =>
        obtain ⟨c, rest, htext, hstarts⟩ := value.starts
        exact ⟨c, rest, by rw [write, htext], isSpace_of_number hstarts⟩
    | str value => exact ⟨_, _, rfl, by decide⟩
    | arr items => cases items <;> exact ⟨_, _, by rw [write], by decide⟩
    | obj fields =>
        cases fields with
        | nil => exact ⟨_, _, rfl, by decide⟩
        | cons field rest =>
            obtain ⟨key, value⟩ := field
            exact ⟨_, _, by rw [write], by decide⟩
  obtain ⟨c, rest, hwrite, hspace⟩ := hhead
  rw [hwrite, List.cons_append, skipSpace_cons hspace]

/-- A written field is parsed, if its value is. -/
theorem parseField_write {parseValue : List Char → Option (Json × List Char)} {value : Json}
    {r : List Char} (key : String) (hvalue : parseValue (write value ++ r) = some (value, r)) :
    parseField parseValue (quote key ++ ':' :: (write value ++ r)) = some ((key, value), r) := by
  have hquote : skipSpace (quote key ++ ':' :: (write value ++ r)) =
      '\x22' :: (closeString key.toList ++ ':' :: (write value ++ r)) :=
    skipSpace_cons (by decide) _
  rw [parseField, hquote]
  simp only [parseString_closeString, skipSpace_cons (show isSpace ':' = false by decide), hvalue,
    Option.map_some, String.ofList_toList]

mutual

/-- A value is read back from its text, by what its length allows. -/
theorem parseValue_write : ∀ (j : Json) (fuel : Nat) (r : List Char), Ends r →
    (write j).length < fuel → parseValue fuel (write j ++ r) = some (j, r)
  | _, 0, _, _, hfuel => absurd hfuel (Nat.not_lt_zero _)
  | .null, fuel + 1, r, _, _ => by
      rw [parseValue, skipSpace_write]
      rfl
  | .bool value, fuel + 1, r, _, _ => by
      rw [parseValue, skipSpace_write]
      cases value <;> rfl
  | .num value, fuel + 1, r, hr, _ => by
      obtain ⟨c, rest, htext, hstarts⟩ := value.starts
      have hne : ∀ d : Char, d.isDigit = false → d ≠ '-' → c ≠ d := by
        rintro d hdigit hminus rfl
        rcases hstarts with h | h
        · rw [hdigit] at h
          cases h
        · exact hminus h
      have hparse := parseNumber_append value (r := r) hr
      rw [parseValue, skipSpace_write, write]
      rw [htext] at hparse ⊢
      rw [List.cons_append] at hparse ⊢
      simp only [hne '\x22' (by decide) (by decide), hne '[' (by decide) (by decide),
        hne '\x7b' (by decide) (by decide), hne 'n' (by decide) (by decide),
        hne 't' (by decide) (by decide), hne 'f' (by decide) (by decide), if_false, hparse]
  | .str value, fuel + 1, r, _, _ => by
      rw [parseValue, skipSpace_write, write, quote, List.cons_append]
      simp only [if_true, parseString_closeString, Option.map_some, String.ofList_toList]
  | .arr [], fuel + 1, r, _, _ => by
      rw [parseValue, skipSpace_write]
      rfl
  | .arr (item :: rest), fuel + 1, r, _, hfuel => by
      rw [write, List.length_cons, List.length_append] at hfuel
      have hitem := parseValue_write item fuel (closeArray rest ++ r)
        (ends_closeArray rest r) (by omega)
      have hrest := parseItems_closeArray rest fuel r (by omega)
      rw [parseValue, skipSpace_write, write, List.cons_append, List.append_assoc]
      simp only [Char.reduceEq, if_false, if_true, skipSpace_write]
      split
      · next heq => exact absurd heq.symm close_ne_write
      · rw [hitem]
        simp only [hrest, Option.map_some]
  | .obj [], fuel + 1, r, _, _ => by
      rw [parseValue, skipSpace_write]
      rfl
  | .obj ((key, value) :: rest), fuel + 1, r, _, hfuel => by
      rw [write, List.length_cons, List.length_append, List.length_cons,
        List.length_append] at hfuel
      have hfield := parseField_write key (parseValue_write value fuel (closeObject rest ++ r)
        (ends_closeObject rest r) (by omega))
      have hrest := parseFields_closeObject rest fuel r (by omega)
      rw [parseValue, skipSpace_write, write, List.cons_append, List.append_assoc,
        List.cons_append, List.append_assoc]
      have hquote : skipSpace (quote key ++ ':' :: (write value ++ (closeObject rest ++ r))) =
          quote key ++ ':' :: (write value ++ (closeObject rest ++ r)) :=
        skipSpace_cons (by decide) _
      simp only [Char.reduceEq, if_false, if_true, hquote]
      split
      · next heq => exact absurd (List.cons.inj heq).1 (by decide)
      · rw [hfield]
        simp only [hrest, Option.map_some]

/-- The written items of an array are parsed. -/
theorem parseItems_closeArray : ∀ (items : List Json) (fuel : Nat) (r : List Char),
    (closeArray items).length ≤ fuel →
    parseItems fuel (closeArray items ++ r) = some (items, r)
  | [], 0, _, hfuel => absurd hfuel (by decide)
  | _ :: _, 0, _, hfuel => by
      rw [closeArray, List.length_cons] at hfuel
      omega
  | [], fuel + 1, r, _ => by
      rw [parseItems, closeArray, List.singleton_append, skipSpace_cons (by decide)]
      rfl
  | item :: rest, fuel + 1, r, hfuel => by
      rw [closeArray, List.length_cons, List.length_append] at hfuel
      have hlength : 0 < (closeArray rest).length := by
        cases rest <;> simp [closeArray]
      have hitem := parseValue_write item fuel (closeArray rest ++ r)
        (ends_closeArray rest r) (by omega)
      have hrest := parseItems_closeArray rest fuel r (by omega)
      rw [parseItems, closeArray, List.cons_append, skipSpace_cons (by decide), List.append_assoc]
      simp only [hitem, hrest, Option.map_some]

/-- The written fields of an object are parsed. -/
theorem parseFields_closeObject : ∀ (fields : List (String × Json)) (fuel : Nat) (r : List Char),
    (closeObject fields).length ≤ fuel →
    parseFields fuel (closeObject fields ++ r) = some (fields, r)
  | [], 0, _, hfuel => absurd hfuel (by decide)
  | _ :: _, 0, _, hfuel => by
      rw [closeObject, List.length_cons] at hfuel
      omega
  | [], fuel + 1, r, _ => by
      rw [parseFields, closeObject, List.singleton_append, skipSpace_cons (by decide)]
      rfl
  | (key, value) :: rest, fuel + 1, r, hfuel => by
      rw [closeObject, List.length_cons, List.length_append, List.length_cons,
        List.length_append] at hfuel
      have hfield := parseField_write key (parseValue_write value fuel (closeObject rest ++ r)
        (ends_closeObject rest r) (by omega))
      have hrest := parseFields_closeObject rest fuel r (by omega)
      rw [parseFields, closeObject, List.cons_append, skipSpace_cons (by decide),
        List.append_assoc, List.cons_append, List.append_assoc]
      simp only [hfield, hrest, Option.map_some]

end

/-- **Parsing takes writing back.** -/
theorem parse_write (j : Json) : parse (write j) = some j := by
  have hends : Ends [] := fun c rest heq => by cases heq
  have hvalue := parseValue_write j ((write j).length + 1) [] hends (Nat.lt_succ_self _)
  rw [List.append_nil] at hvalue
  rw [parse, hvalue]
  rfl

end Json
