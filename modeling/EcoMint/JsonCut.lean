import EcoMint.JsonParse
import Mathlib.Data.List.DropRight

/-!
# JSON texts in lines

A text of JSON is written without control characters, so it fits in a line
(`printable_write`).  Then, what is left of one that lost its first characters.
The rest of an object whose properties are texts, numbers and nulls is never a
text of JSON itself (`parse_suffix`): to end as it does it would have to be an
object, so it would begin with an opening brace inside of a string, and the quote
that closes this string would open the first key.
-/

namespace Json

/-! ## A text fits in a line -/

/-- Printable characters, checked one by one. -/
theorem printable_of_all {l : List Char} (h : (l.all fun c => 0x20 ≤ c.toNat) = true) :
    ∀ c ∈ l, 0x20 ≤ c.toNat := fun c hc => of_decide_eq_true (List.all_eq_true.mp h c hc)

/-- An escaped character is printable. -/
theorem printable_escapeChar (c : Char) : ∀ d ∈ escapeChar c, 0x20 ≤ d.toNat := by
  have hshort : ∀ p ∈ shortEscapes, 0x20 ≤ p.2.toNat := by decide
  have hcontrol : ∀ n : Fin 0x20,
      (['u', '0', '0', (n.val / 16).digitChar, (n.val % 16).digitChar].all
        fun c => 0x20 ≤ c.toNat) = true := by decide
  unfold escapeChar
  rcases escapeCode_cases c.toNat with ⟨e, he, hcode⟩ | ⟨hlow, -, hcode⟩ | ⟨hhigh, -, hcode⟩
  · rw [hcode, List.forall_mem_cons, List.forall_mem_singleton]
    exact ⟨by decide, hshort _ he⟩
  · rw [hcode, List.forall_mem_cons]
    exact ⟨by decide, printable_of_all (hcontrol ⟨c.toNat, hlow⟩)⟩
  · rw [hcode, List.forall_mem_singleton]
    exact hhigh

/-- A text in quotes is printable. -/
theorem printable_closeString (cs : List Char) : ∀ c ∈ closeString cs, 0x20 ≤ c.toNat := by
  induction cs with
  | nil => exact printable_of_all (by decide)
  | cons c cs ih =>
      rw [closeString]
      exact List.forall_mem_append.mpr ⟨printable_escapeChar c, ih⟩

/-- So is it with both of its quotes. -/
theorem printable_quote (s : String) : ∀ c ∈ quote s, 0x20 ≤ c.toNat :=
  List.forall_mem_cons.mpr ⟨by decide, printable_closeString _⟩

/-- The characters of numbers are printable. -/
theorem printable_of_isNumberChar {c : Char} (h : isNumberChar c = true) : 0x20 ≤ c.toNat := by
  simp only [isNumberChar, Bool.or_eq_true, decide_eq_true_eq] at h
  rcases h with ((((h | rfl) | rfl) | rfl) | rfl) | rfl
  · simp only [Char.isDigit, Bool.and_eq_true, decide_eq_true_eq, UInt32.le_iff_toNat_le] at h
    exact Nat.le_trans (by decide) h.1
  all_goals decide

mutual

/-- No control character is written. -/
theorem printable_write : ∀ j : Json, ∀ c ∈ write j, 0x20 ≤ c.toNat
  | .null => by rw [write]; exact printable_of_all (by decide)
  | .bool true => by rw [write]; exact printable_of_all (by decide)
  | .bool false => by rw [write]; exact printable_of_all (by decide)
  | .num value => fun c hc => printable_of_isNumberChar (value.made c hc)
  | .str value => by rw [write]; exact printable_quote value
  | .arr [] => by rw [write]; exact printable_of_all (by decide)
  | .arr (item :: rest) => by
      rw [write, List.forall_mem_cons, List.forall_mem_append]
      exact ⟨by decide, printable_write item, printable_closeArray rest⟩
  | .obj [] => by rw [write]; exact printable_of_all (by decide)
  | .obj ((key, value) :: rest) => by
      rw [write, List.forall_mem_cons, List.forall_mem_append, List.forall_mem_cons,
        List.forall_mem_append]
      exact ⟨by decide, printable_quote key, by decide, printable_write value,
        printable_closeObject rest⟩

/-- The rest of an array is printable. -/
theorem printable_closeArray : ∀ items : List Json, ∀ c ∈ closeArray items, 0x20 ≤ c.toNat
  | [] => by rw [closeArray]; exact printable_of_all (by decide)
  | item :: rest => by
      rw [closeArray, List.forall_mem_cons, List.forall_mem_append]
      exact ⟨by decide, printable_write item, printable_closeArray rest⟩

/-- The rest of an object is printable. -/
theorem printable_closeObject : ∀ fields : List (String × Json),
    ∀ c ∈ closeObject fields, 0x20 ≤ c.toNat
  | [] => by rw [closeObject]; exact printable_of_all (by decide)
  | (key, value) :: rest => by
      rw [closeObject, List.forall_mem_cons, List.forall_mem_append, List.forall_mem_cons,
        List.forall_mem_append]
      exact ⟨by decide, printable_quote key, by decide, printable_write value,
        printable_closeObject rest⟩

end

/-! ## What a parser has left -/

/-- Skipping blanks leaves an end of the text. -/
theorem skipSpace_suffix (s : List Char) : skipSpace s <:+ s := List.dropWhile_suffix _

/-- After the blanks there are none. -/
theorem skipSpace_skipSpace (s : List Char) : skipSpace (skipSpace s) = skipSpace s :=
  List.dropWhile_idempotent _ _

/-- What follows the first character after the blanks is an end of the text. -/
theorem suffix_of_skipSpace {c : Char} {s s' : List Char} (h : skipSpace s = c :: s') :
    s' <:+ s :=
  (List.suffix_cons c s').trans (h ▸ skipSpace_suffix s)

/-- A string ends with a quote. -/
theorem suffix_of_parsePieces (s : List Char) : ∀ {pieces rest},
    parsePieces s = some (pieces, rest) → '\x22' :: rest <:+ s := by
  fun_induction parsePieces s with
  | case2 s =>
      intro pieces rest h
      cases h
      exact List.suffix_refl _
  | case3 s a b c d unit pieces' s' hpieces _ _ ih =>
      intro pieces rest h
      cases h
      exact (ih hpieces).trans (List.suffix_append ['\x5c', 'u', s, a, b, c] _)
  | case5 e s _ c pieces' s' hpieces _ _ ih =>
      intro pieces rest h
      cases h
      exact (ih hpieces).trans (List.suffix_append ['\x5c', e] _)
  | case9 c s _ _ _ pieces' s' hpieces ih =>
      intro pieces rest h
      cases h
      exact (ih hpieces).trans (List.suffix_cons c _)
  | _ => intro pieces rest h; cases h

/-- A string that was parsed ends with a quote, and its rest with it is an end of the
text. -/
theorem suffix_of_parseString {s rest : List Char} {value : String}
    (h : parseString s = some (value, rest)) : '\x22' :: rest <:+ s := by
  obtain ⟨⟨pieces, s'⟩, hpieces, heq⟩ := Option.map_eq_some_iff.mp h
  cases heq
  exact suffix_of_parsePieces s hpieces

/-- What a field leaves is an end of the text. -/
theorem suffix_of_parseField {parseValue : List Char → Option (Json × List Char)}
    {s rest : List Char} {field : String × Json}
    (hvalue : ∀ {s j rest}, parseValue s = some (j, rest) → rest <:+ s)
    (h : parseField parseValue s = some (field, rest)) : rest <:+ s := by
  unfold parseField at h
  split at h
  · next s1 hquote =>
      split at h
      · next key s2 hkey =>
          split at h
          · next s3 hcolon =>
              obtain ⟨⟨value, s4⟩, hvalue', heq⟩ := Option.map_eq_some_iff.mp h
              cases heq
              calc rest <:+ s3 := hvalue hvalue'
                _ <:+ s2 := suffix_of_skipSpace hcolon
                _ <:+ '\x22' :: s2 := List.suffix_cons _ _
                _ <:+ s1 := suffix_of_parseString hkey
                _ <:+ s := suffix_of_skipSpace hquote
          · cases h
      · cases h
  · cases h

/-- A literal stands before its rest. -/
theorem append_of_parseLiteral {literal s rest : List Char} {value j : Json}
    (h : parseLiteral literal value s = some (j, rest)) : literal ++ rest = s := by
  unfold parseLiteral at h
  split_ifs at h with hprefix
  cases h
  obtain ⟨rest, rfl⟩ := List.isPrefixOf_iff_prefix.mp hprefix
  rw [List.drop_left]

/-- A number ends with a character of a number. -/
theorem suffix_of_parseNumber {s rest : List Char} {j : Json}
    (h : parseNumber s = some (j, rest)) : ∃ c, isNumberChar c = true ∧ c :: rest <:+ s := by
  obtain ⟨text, htext, heq⟩ := Option.map_eq_some_iff.mp h
  cases heq
  unfold numberText at htext
  split_ifs at htext with hnumber
  obtain ⟨c, tail, hcons, -⟩ := starts_of_isNumber hnumber.1
  rcases List.eq_nil_or_concat (s.takeWhile isNumberChar) with hnil | ⟨init, d, hconcat⟩
  · rw [hnil] at hcons
    cases hcons
  · refine ⟨d, List.all_eq_true.mp hnumber.2 d (by simp [hconcat]), init, ?_⟩
    calc init ++ d :: s.dropWhile isNumberChar
        = s.takeWhile isNumberChar ++ s.dropWhile isNumberChar := by
          rw [hconcat, List.concat_append]
      _ = s := List.takeWhile_append_dropWhile

/-- What follows an ending of a text is one itself. -/
theorem suffix_of_ending {P : Char → Prop} {s rest : List Char}
    (h : ∃ c, c :: rest <:+ s ∧ P c) : rest <:+ s := by
  obtain ⟨c, hsuffix, -⟩ := h
  exact (List.suffix_cons c rest).trans hsuffix

mutual

/-- What a value ends with; only an object ends with a closing brace. -/
theorem suffix_of_parseValue : ∀ (fuel : Nat) {s rest : List Char} {j : Json},
    parseValue fuel s = some (j, rest) →
    ∃ c, c :: rest <:+ s ∧ (c = '\x7d' → ∃ s', skipSpace s = '\x7b' :: s')
  | 0, _, _, _, h => by
      rw [parseValue] at h
      cases h
  | fuel + 1, s, rest, j, h => by
      rw [parseValue] at h
      split at h
      · cases h
      · next c s' hskip =>
          have hs' := suffix_of_skipSpace hskip
          split_ifs at h with hquote harray hobject hnull htrue hfalse
          · obtain ⟨⟨value, s1⟩, hstring, heq⟩ := Option.map_eq_some_iff.mp h
            cases heq
            exact ⟨'\x22', (suffix_of_parseString hstring).trans hs',
              fun hbrace => absurd hbrace (by decide)⟩
          · refine ⟨']', ?_, fun hbrace => absurd hbrace (by decide)⟩
            split at h
            · next s1 hclose =>
                cases h
                exact (hclose ▸ skipSpace_suffix s').trans hs'
            · split at h
              · next item s2 hitem =>
                  obtain ⟨⟨items, s3⟩, hitems, heq⟩ := Option.map_eq_some_iff.mp h
                  cases heq
                  calc ']' :: rest <:+ s2 := suffix_of_parseItems fuel hitems
                    _ <:+ skipSpace s' := suffix_of_ending (suffix_of_parseValue fuel hitem)
                    _ <:+ s' := skipSpace_suffix s'
                    _ <:+ s := hs'
              · cases h
          · subst hobject
            refine ⟨'\x7d', ?_, fun _ => ⟨s', hskip⟩⟩
            split at h
            · next s1 hclose =>
                cases h
                exact (hclose ▸ skipSpace_suffix s').trans hs'
            · split at h
              · next field s2 hfield =>
                  obtain ⟨⟨fields, s3⟩, hfields, heq⟩ := Option.map_eq_some_iff.mp h
                  cases heq
                  calc '\x7d' :: rest <:+ s2 := suffix_of_parseFields fuel hfields
                    _ <:+ skipSpace s' := suffix_of_parseField
                        (fun h => suffix_of_ending (suffix_of_parseValue fuel h)) hfield
                    _ <:+ s' := skipSpace_suffix s'
                    _ <:+ s := hs'
              · cases h
          · obtain rfl := append_of_parseLiteral h
            exact ⟨'l', (List.suffix_append ['u', 'l'] _).trans hs',
              fun hbrace => absurd hbrace (by decide)⟩
          · obtain rfl := append_of_parseLiteral h
            exact ⟨'e', (List.suffix_append ['r', 'u'] _).trans hs',
              fun hbrace => absurd hbrace (by decide)⟩
          · obtain rfl := append_of_parseLiteral h
            exact ⟨'e', (List.suffix_append ['a', 'l', 's'] _).trans hs',
              fun hbrace => absurd hbrace (by decide)⟩
          · obtain ⟨d, hd, hsuffix⟩ := suffix_of_parseNumber h
            refine ⟨d, hsuffix.trans (hskip ▸ skipSpace_suffix s), ?_⟩
            rintro rfl
            cases hd

/-- What the items leave, with their bracket, is an end of the text. -/
theorem suffix_of_parseItems : ∀ (fuel : Nat) {s rest : List Char} {items : List Json},
    parseItems fuel s = some (items, rest) → ']' :: rest <:+ s
  | 0, _, _, _, h => by
      rw [parseItems] at h
      cases h
  | fuel + 1, s, rest, items, h => by
      rw [parseItems] at h
      split at h
      · next s1 hcomma =>
          split at h
          · next item s2 hitem =>
              obtain ⟨⟨items, s3⟩, hitems, heq⟩ := Option.map_eq_some_iff.mp h
              cases heq
              calc ']' :: rest <:+ s2 := suffix_of_parseItems fuel hitems
                _ <:+ s1 := suffix_of_ending (suffix_of_parseValue fuel hitem)
                _ <:+ s := suffix_of_skipSpace hcomma
          · cases h
      · next s1 hclose =>
          cases h
          exact hclose ▸ skipSpace_suffix s
      · cases h

/-- What the fields leave, with their brace, is an end of the text. -/
theorem suffix_of_parseFields : ∀ (fuel : Nat) {s rest : List Char}
    {fields : List (String × Json)},
    parseFields fuel s = some (fields, rest) → '\x7d' :: rest <:+ s
  | 0, _, _, _, h => by
      rw [parseFields] at h
      cases h
  | fuel + 1, s, rest, fields, h => by
      rw [parseFields] at h
      split at h
      · next s1 hcomma =>
          split at h
          · next field s2 hfield =>
              obtain ⟨⟨fields, s3⟩, hfields, heq⟩ := Option.map_eq_some_iff.mp h
              cases heq
              calc '\x7d' :: rest <:+ s2 := suffix_of_parseFields fuel hfields
                _ <:+ s1 := suffix_of_parseField
                    (fun h => suffix_of_ending (suffix_of_parseValue fuel h)) hfield
                _ <:+ s := suffix_of_skipSpace hcomma
          · cases h
      · next s1 hclose =>
          cases h
          exact hclose ▸ skipSpace_suffix s
      · cases h

end

/-! ## A text cut off in front -/

/-- A text, a number or null, under a name of letters. -/
structure FlatField (field : String × Json) : Prop where
  named : field.1.toList ≠ []
  letters : ∀ c ∈ field.1.toList, c.isAlpha = true
  scalar : field.2.form = .null ∨ field.2.form = .num ∨ field.2.form = .str

/-- Letters are none of the signs. -/
theorem ne_of_isAlpha {c d : Char} (h : c.isAlpha = true) (hd : d.isAlpha = false) : c ≠ d := by
  rintro rfl
  rw [hd] at h
  cases h

/-- A letter is not escaped. -/
theorem escapeChar_of_isAlpha {c : Char} (h : c.isAlpha = true) : escapeChar c = [c] := by
  have hcode : escapeCode c.toNat = none := by
    have hrange : 65 ≤ c.toNat ∧ c.toNat ≠ 0x5c := by
      refine ⟨?_, fun heq => ne_of_isAlpha h (d := '\x5c') (by decide) (Char.toNat_inj.mp heq)⟩
      rcases (Bool.or_eq_true c.isUpper c.isLower).mp h with hupper | hlower
      · exact UInt32.le_iff_toNat_le.mp (of_decide_eq_true hupper).1
      · have hle := ((Bool.and_eq_true _ _).mp hlower).1
        exact Nat.le_trans (by decide) (UInt32.le_iff_toNat_le.mp (of_decide_eq_true hle))
    unfold escapeCode
    repeat rw [if_neg (by omega)]
  rw [escapeChar, hcode]

/-- A word is written as it is. -/
theorem closeString_of_isAlpha {cs : List Char} (h : ∀ c ∈ cs, c.isAlpha = true) :
    closeString cs = cs ++ ['\x22'] := by
  induction cs with
  | nil => rfl
  | cons c cs ih =>
      rw [List.forall_mem_cons] at h
      rw [closeString, escapeChar_of_isAlpha h.1, ih h.2, List.singleton_append, List.cons_append]

/-- What begins with a character that the first part lacks begins after it. -/
theorem suffix_of_not_mem {c : Char} {a b t : List Char} (hc : c ∉ a) (h : c :: t <:+ a ++ b) :
    c :: t <:+ b := by
  obtain ⟨pre, h⟩ := h
  rcases List.append_eq_append_iff.mp h with ⟨mid, hpre, hb⟩ | ⟨mid, ha, hb⟩
  · cases mid with
    | nil => exact ⟨[], hb.symm ▸ rfl⟩
    | cons d mid =>
        obtain ⟨rfl, -⟩ := List.cons.inj hb
        exact absurd (hpre ▸ List.mem_append_right _ List.mem_cons_self) hc
  · exact ⟨mid, hb.symm⟩

/-- No escape has a brace in it. -/
theorem eq_brace_of_mem_escapeChar {c : Char} (h : '\x7b' ∈ escapeChar c) : c = '\x7b' := by
  have hshort : ∀ p ∈ shortEscapes, '\x7b' ∉ ['\x5c', p.2] := by decide
  have hcontrol : ∀ n : Fin 0x20, '\x7b' ∉
      ['\x5c', 'u', '0', '0', (n.val / 16).digitChar, (n.val % 16).digitChar] := by decide
  unfold escapeChar at h
  rcases escapeCode_cases c.toNat with ⟨e, he, hcode⟩ | ⟨hlow, -, hcode⟩ | ⟨-, -, hcode⟩
  · rw [hcode] at h
    exact absurd h (hshort _ he)
  · rw [hcode] at h
    exact absurd h (hcontrol ⟨c.toNat, hlow⟩)
  · rw [hcode] at h
    exact (List.mem_singleton.mp h).symm

/-- A brace in a quoted text is in its characters, or after it. -/
theorem suffix_of_brace_closeString {cs b t : List Char} (h : '\x7b' :: t <:+ closeString cs ++ b) :
    '\x7b' :: t <:+ b ∨ ∃ cs', t = closeString cs' ++ b := by
  induction cs with
  | nil => exact Or.inl (suffix_of_not_mem (by decide) h)
  | cons c cs ih =>
      rw [closeString, List.append_assoc] at h
      by_cases hc : c = '\x7b'
      · subst hc
        rcases List.suffix_cons_iff.mp h with heq | h
        · exact Or.inr ⟨cs, (List.cons.inj heq).2⟩
        · exact ih h
      · exact ih (suffix_of_not_mem (fun hmem => hc (eq_brace_of_mem_escapeChar hmem)) h)

/-- An opening brace that is not the first one stands in the text of a property. -/
theorem suffix_of_brace_closeObject {fields : List (String × Json)} {t : List Char}
    (hflat : ∀ field ∈ fields, FlatField field) (h : '\x7b' :: t <:+ closeObject fields) :
    ∃ cs rest, (∀ field ∈ rest, FlatField field) ∧ t = closeString cs ++ closeObject rest := by
  induction fields with
  | nil => exact absurd (h.mem List.mem_cons_self) (by decide)
  | cons field rest ih =>
      obtain ⟨key, value⟩ := field
      rw [List.forall_mem_cons] at hflat
      obtain ⟨hfield, hrest⟩ := hflat
      have hkey : '\x7b' ∉ ',' :: quote key ++ [':'] := by
        rw [quote, closeString_of_isAlpha hfield.letters]
        intro hmem
        have hletter : '\x7b' ∈ key.toList := by simpa using hmem
        exact absurd (hfield.letters _ hletter) (by decide)
      have htext : closeObject ((key, value) :: rest) =
          (',' :: quote key ++ [':']) ++ (write value ++ closeObject rest) := by
        rw [closeObject]
        simp
      rw [htext] at h
      have hvalue := suffix_of_not_mem hkey h
      cases value with
      | null =>
          rw [write] at hvalue
          exact ih hrest (suffix_of_not_mem (by decide) hvalue)
      | num value =>
          refine ih hrest (suffix_of_not_mem (fun hmem => ?_) hvalue)
          exact absurd (value.made _ hmem) (by decide)
      | str value =>
          rw [write, quote, List.cons_append] at hvalue
          have hstring := suffix_of_not_mem (a := ['\x22']) (by decide) hvalue
          rcases suffix_of_brace_closeString hstring with hafter | ⟨cs, hinside⟩
          · exact ih hrest hafter
          · exact ⟨cs, rest, hrest, hinside⟩
      | bool | arr | obj =>
          rcases hfield.scalar with hform | hform | hform <;> cases hform

/-- A quote that only spaces precede is the one that closes the string. -/
theorem eq_of_skipSpace_closeString {cs b s : List Char}
    (h : skipSpace (closeString cs ++ b) = '\x22' :: s) : s = b := by
  induction cs with
  | nil =>
      rw [closeString, List.singleton_append, skipSpace_cons (by decide)] at h
      exact (List.cons.inj h).2.symm
  | cons c cs ih =>
      rw [closeString, List.append_assoc] at h
      by_cases hspace : c = ' '
      · subst hspace
        exact ih h
      · exfalso
        unfold escapeChar at h
        cases hcode : escapeCode c.toNat with
        | some code =>
            simp only [hcode, List.cons_append] at h
            rw [skipSpace_cons (by decide)] at h
            exact absurd (List.cons.inj h).1 (by decide)
        | none =>
            have hplain : isSpace c = false := by
              rw [Bool.eq_false_iff]
              intro h
              simp only [isSpace, Bool.or_eq_true, decide_eq_true_eq, hspace, false_or] at h
              rcases h with (rfl | rfl) | rfl <;> cases hcode
            simp only [hcode, List.singleton_append] at h
            rw [skipSpace_cons hplain] at h
            exact (escapeCode_eq_none hcode).1 (List.cons.inj h).1

/-- From within a key no field can be parsed. -/
theorem parseField_inside {parseValue : List Char → Option (Json × List Char)}
    {fields : List (String × Json)} (hflat : ∀ field ∈ fields, FlatField field) (cs : List Char) :
    parseField parseValue (closeString cs ++ closeObject fields) = none := by
  unfold parseField
  split
  · next s hquote =>
      obtain rfl := eq_of_skipSpace_closeString hquote
      cases fields with
      | nil => rfl
      | cons field rest =>
          obtain ⟨key, value⟩ := field
          rw [List.forall_mem_cons] at hflat
          obtain ⟨hfield, -⟩ := hflat
          -- the comma between the properties is all of the first name
          have hkey : parseString (closeObject ((key, value) :: rest)) =
              some (",", closeString key.toList ++ ':' :: (write value ++ closeObject rest)) :=
            parseString_closeString [','] _
          rw [hkey]
          cases hname : key.toList with
          | nil => exact absurd hname hfield.named
          | cons c name =>
              have hletter : c.isAlpha = true := hfield.letters c (hname ▸ List.mem_cons_self)
              have hspace : isSpace c = false := by
                simp [isSpace, ne_of_isAlpha hletter (d := ' ') (by decide),
                  ne_of_isAlpha hletter (d := '\t') (by decide),
                  ne_of_isAlpha hletter (d := '\n') (by decide),
                  ne_of_isAlpha hletter (d := '\r') (by decide)]
              simp only [closeString, escapeChar_of_isAlpha hletter, List.cons_append,
                skipSpace_cons hspace]
              split
              · next heq =>
                  exact absurd (List.cons.inj heq).1 (ne_of_isAlpha hletter (by decide))
              · rfl
  · rfl

/-- A field may begin with blanks. -/
theorem parseField_skipSpace (parseValue : List Char → Option (Json × List Char)) (s : List Char) :
    parseField parseValue (skipSpace s) = parseField parseValue s := by
  rw [parseField, skipSpace_skipSpace, ← parseField]

/-- An object that would begin in the text of a property. -/
theorem parseValue_inside {fields : List (String × Json)} {cs s : List Char}
    (hflat : ∀ field ∈ fields, FlatField field)
    (hs : skipSpace s = '\x7b' :: (closeString cs ++ closeObject fields)) (fuel : Nat) (j : Json) :
    parseValue fuel s ≠ some (j, []) := by
  cases fuel with
  | zero => rw [parseValue]; simp
  | succ fuel =>
      have hquote : '\x22' ∈ closeString cs := by
        clear hs
        induction cs with
        | nil => exact List.mem_singleton_self _
        | cons c cs ih => exact List.mem_append_right _ ih
      rw [parseValue, hs]
      simp only [Char.reduceEq, if_false, if_true]
      split
      · next s' hclose =>
          intro h
          cases h
          have hskipped := List.takeWhile_append_dropWhile (p := isSpace)
            (l := closeString cs ++ closeObject fields)
          rw [show List.dropWhile isSpace _ = ['\x7d'] from hclose] at hskipped
          have hmem := List.mem_append_left (closeObject fields) hquote
          rw [← hskipped, List.mem_append] at hmem
          rcases hmem with hmem | hmem
          · exact absurd (List.mem_takeWhile_imp hmem) (by decide)
          · exact absurd hmem (by decide)
      · rw [parseField_skipSpace, parseField_inside hflat]
        simp

theorem write_obj_cons (field : String × Json) (rest : List (String × Json)) :
    ∃ text, write (.obj (field :: rest)) = '\x7b' :: text ∧
      closeObject (field :: rest) = ',' :: text := by
  obtain ⟨key, value⟩ := field
  exact ⟨_, by rw [write], by rw [closeObject]⟩

/-- The rest of an object ends with its brace. -/
theorem brace_suffix_closeObject (fields : List (String × Json)) :
    ['\x7d'] <:+ closeObject fields := by
  induction fields with
  | nil => exact List.suffix_refl _
  | cons field rest ih =>
      obtain ⟨key, value⟩ := field
      rw [closeObject]
      refine ih.trans ⟨',' :: (quote key ++ ':' :: write value), ?_⟩
      simp

/-- A written object ends with its brace. -/
theorem brace_suffix_write (fields : List (String × Json)) :
    ['\x7d'] <:+ write (.obj fields) := by
  cases fields with
  | nil => exact List.suffix_cons _ _
  | cons field rest =>
      obtain ⟨text, hwrite, hclose⟩ := write_obj_cons field rest
      have hsuffix := hclose ▸ brace_suffix_closeObject (field :: rest)
      rcases List.suffix_cons_iff.mp hsuffix with heq | hsuffix
      · cases heq
      · exact hwrite ▸ hsuffix.trans (List.suffix_cons _ _)

/-- **The text of a flat object that was cut off in front is no text of JSON.** -/
theorem parse_suffix {fields : List (String × Json)} {s : List Char}
    (hflat : ∀ field ∈ fields, FlatField field) (hs : s <:+ write (.obj fields))
    (hproper : s ≠ write (.obj fields)) : parse s = none := by
  by_cases hempty : s = []
  · subst hempty
    rfl
  have hbrace : ['\x7d'] <:+ s :=
    List.suffix_of_suffix_length_le (brace_suffix_write fields) hs (List.length_pos_of_ne_nil hempty)
  unfold parse
  split
  · next j rest hvalue =>
      split_ifs with hspaces
      · exfalso
        obtain ⟨c, hsuffix, hobject⟩ := suffix_of_parseValue _ hvalue
        have hrest : rest = [] := by
          by_contra hne
          have htail : ['\x7d'] <:+ rest :=
            List.suffix_of_suffix_length_le hbrace ((List.suffix_cons c rest).trans hsuffix)
              (List.length_pos_of_ne_nil hne)
          have hspace := List.all_eq_true.mp hspaces _ (htail.mem (List.mem_singleton_self _))
          exact absurd hspace (by decide)
        subst hrest
        have hc : c = '\x7d' := by
          have hsame : ['\x7d'] <:+ [c] :=
            List.suffix_of_suffix_length_le hbrace hsuffix (Nat.le_refl 1)
          exact (List.mem_singleton.mp (hsame.mem (List.mem_singleton_self _))).symm
        obtain ⟨s', hskip⟩ := hobject hc
        have hinside : '\x7b' :: s' <:+ s := hskip ▸ skipSpace_suffix s
        cases fields with
        | nil =>
            have hwrite : write (.obj []) = ['\x7b', '\x7d'] := rfl
            rw [hwrite] at hs hproper
            rcases List.suffix_cons_iff.mp (hinside.trans hs) with heq | hsuffix'
            · exact hproper (hs.eq_of_length_le (heq ▸ hinside.length_le))
            · exact absurd (hsuffix'.mem List.mem_cons_self) (by decide)
        | cons field rest =>
            obtain ⟨text, hwrite, hclose⟩ := write_obj_cons field rest
            rw [hwrite] at hs hproper
            rcases List.suffix_cons_iff.mp (hinside.trans hs) with heq | hsuffix'
            · exact hproper (hs.eq_of_length_le (heq ▸ hinside.length_le))
            · have hlater : '\x7b' :: s' <:+ closeObject (field :: rest) :=
                hclose ▸ hsuffix'.trans (List.suffix_cons _ _)
              obtain ⟨cs, rest', hflat', rfl⟩ := suffix_of_brace_closeObject hflat hlater
              exact parseValue_inside hflat' hskip _ j hvalue
      · rfl
  · rfl

/-- What stands for a split character begins no text of JSON. -/
theorem parse_replacement (s : List Char) : parse ('\uFFFD' :: s) = none := by
  have hspace : skipSpace ('\uFFFD' :: s) = '\uFFFD' :: s := skipSpace_cons (by decide) s
  have hnumber : parseNumber ('\uFFFD' :: s) = none := rfl
  rw [parse, parseValue, hspace]
  simp only [Char.reduceEq, if_false, hnumber]

end Json
