import EcoMint.Anomaly
import EcoMint.JsonCut
import EcoMint.JsonOrder
import EcoMint.KycStore
import EcoMint.Utf8

/-!
# The tail of the audit log

The audit log is a file with a line of JSON for every entry.  `listAudit` wants
the last entries, up to a limit, and reads the last ten bytes of the file for
every entry of the limit.  What is cut off in front of the first whole line is
never taken for an entry (`Json.parse_suffix`), and sometimes a whole line is
dropped with it; `readAuditTail_auditFile` says which entries are left.

No entry fits in ten bytes, so always fewer are left than the limit.  The last
ones of an address are found exactly if none of its entries is missed.
-/

namespace EcoMint.Kyc

/-! ## The file -/

/-- The name of a status. -/
def KycStatus.text : KycStatus → String
  | .none => "none"
  | .pending => "pending"
  | .verified => "verified"
  | .accredited => "accredited"
  | .expired => "expired"
  | .rejected => "rejected"

/-- The name of a source. -/
def KycStatusSource.text : KycStatusSource → String
  | .provider => "provider"
  | .admin => "admin"
  | .system => "system"
  | .imported => "import"

/-- A value or `null`. -/
def orNull {α : Type} (f : α → Json) : Option α → Json
  | some value => f value
  | none => .null

/-- The fields of an entry, in the order of the literal. -/
def KycAuditEntry.fields (entry : KycAuditEntry) : List (String × Json) :=
  [("id", .str entry.id),
    ("address", .str entry.address),
    ("fromStatus", orNull (fun status => .str status.text) entry.fromStatus),
    ("toStatus", .str entry.toStatus.text),
    ("source", .str entry.source.text),
    ("actor", orNull .str entry.actor),
    ("reason", orNull .str entry.reason),
    ("providerReference", orNull .str entry.providerReference),
    ("expiresAt", orNull (fun n => .num (Json.ofNat n)) entry.expiresAt),
    ("timestamp", .num (Json.ofNat entry.timestamp))]

/-- An entry as JSON. -/
def KycAuditEntry.toJson (entry : KycAuditEntry) : Json := .obj entry.fields

/-- The line of an entry in the log. -/
def auditLine (entry : KycAuditEntry) : List Char := Json.write entry.toJson ++ ['\n']

/-- `appendAuditLine`; the file is created by its first line. -/
def appendAuditLine (file : Option (List UInt8)) (entry : KycAuditEntry) : Option (List UInt8) :=
  some (file.getD [] ++ Utf8.encode (auditLine entry))

/-- The audit log with these entries. -/
def auditFile (entries : List KycAuditEntry) : Option (List UInt8) :=
  entries.foldl appendAuditLine none

/-! ## Reading -/

/-- `length` of a string -/
def utf16Length (text : List Char) : Nat := (text.flatMap Json.charUnits).length

/-- `readAuditTail` -/
def readAuditTail (file : Option (List UInt8)) (maxBytes : Nat) : List Json :=
  match file with
  | none => []
  | some bytes =>
      let raw := Utf8.decode (bytes.drop (bytes.length - maxBytes))
      let lines := (raw.splitOn '\n').filter fun l => Anomaly.trim l ≠ []
      let lines := if maxBytes ≤ utf16Length raw then lines.drop 1 else lines
      lines.filterMap Json.parse

/-- `e.address === address`; there is no property of `null` to read. -/
def addressIs (address : String) : Json → Option Bool
  | .null => none
  | .obj fields =>
      match fields.reverse.lookup "address" with
      | some (.str value) => some (value = address)
      | _ => some false
  | _ => some false

/-- `all.filter((e) => e.address === address)` -/
def filterAddress (address : String) : List Json → Option (List Json)
  | [] => some []
  | e :: rest =>
      match addressIs address e, filterAddress address rest with
      | some true, some rest => some (e :: rest)
      | some false, some rest => some rest
      | _, _ => none

/-- `slice(-limit)` -/
def sliceLast {α : Type} (limit : Nat) (l : List α) : List α :=
  if limit = 0 then l else l.drop (l.length - limit)

/-- `listAudit`; an empty address is no address. -/
def listAudit (file : Option (List UInt8)) (address : Option String) (limit : Nat) :
    Option (List Json) :=
  let all := readAuditTail file (limit * 10)
  let filtered :=
    match address with
    | none => some all
    | some address => if address = "" then some all else filterAddress address all
  filtered.map (sliceLast limit)

/-! ## A line -/

/-- The names of the fields are words. -/
theorem fields_names (entry : KycAuditEntry) :
    ∀ field ∈ entry.fields,
      field.1.toList ≠ [] ∧ ∀ c ∈ field.1.toList, c.isAlpha = true := by
  have hnames : ∀ name ∈ ["id", "address", "fromStatus", "toStatus", "source", "actor", "reason",
      "providerReference", "expiresAt", "timestamp"],
      name.toList ≠ [] ∧ name.toList.all Char.isAlpha = true := by decide
  intro field hfield
  obtain ⟨hnamed, hletters⟩ := hnames field.1 (List.mem_map_of_mem (f := Prod.fst) hfield)
  exact ⟨hnamed, List.all_eq_true.mp hletters⟩

/-- A value that may be missing is `null`, a text or a number. -/
theorem orNull_values {α : Type} {f : α → Json}
    (hf : ∀ x, (∃ s, f x = .str s) ∨ ∃ n, f x = .num (Json.ofNat n)) (value : Option α) :
    orNull f value = .null ∨ (∃ s, orNull f value = .str s) ∨
      ∃ n, orNull f value = .num (Json.ofNat n) := by
  cases value with
  | none => exact Or.inl rfl
  | some x => exact Or.inr (hf x)

/-- The values of an entry are `null`, texts and numbers. -/
theorem fields_values (entry : KycAuditEntry) :
    ∀ field ∈ entry.fields,
      field.2 = .null ∨ (∃ s, field.2 = .str s) ∨ ∃ n, field.2 = .num (Json.ofNat n) := by
  have hstr : ∀ s : String, Json.str s = .null ∨ (∃ t, Json.str s = .str t) ∨
      ∃ n, Json.str s = .num (Json.ofNat n) := fun s => Or.inr (Or.inl ⟨s, rfl⟩)
  simp only [KycAuditEntry.fields, List.forall_mem_cons]
  refine ⟨hstr _, hstr _, orNull_values (fun _ => Or.inl ⟨_, rfl⟩) _, hstr _, hstr _,
    orNull_values (fun _ => Or.inl ⟨_, rfl⟩) _, orNull_values (fun _ => Or.inl ⟨_, rfl⟩) _,
    orNull_values (fun _ => Or.inl ⟨_, rfl⟩) _, orNull_values (fun _ => Or.inr ⟨_, rfl⟩) _,
    Or.inr (Or.inr ⟨_, rfl⟩), fun _ h => absurd h List.not_mem_nil⟩

/-- No value of an entry is an array or an object. -/
theorem flatField_fields (entry : KycAuditEntry) :
    ∀ field ∈ entry.fields, Json.FlatField field := by
  intro field hfield
  obtain ⟨hnamed, hletters⟩ := fields_names entry field hfield
  refine ⟨hnamed, hletters, ?_⟩
  rcases fields_values entry field hfield with hnull | ⟨s, hstr⟩ | ⟨n, hnum⟩
  · exact Or.inl (by rw [hnull]; rfl)
  · exact Or.inr (Or.inr (by rw [hstr]; rfl))
  · exact Or.inr (Or.inl (by rw [hnum]; rfl))

/-- A line ends with its closing brace. -/
theorem exists_write_toJson (entry : KycAuditEntry) :
    ∃ body, Json.write entry.toJson = body ++ ['\x7d'] := by
  obtain ⟨body, hbody⟩ := Json.brace_suffix_write entry.fields
  exact ⟨body, hbody.symm⟩

/-- JSON has no line break in it. -/
theorem newline_not_mem_write (j : Json) : '\n' ∉ Json.write j := fun h =>
  absurd (Json.printable_write j _ h) (by decide)

theorem trim_ne_nil {l : List Char} {c : Char} (hc : c ∈ l)
    (hspace : Anomaly.isWhiteSpace c = false) : Anomaly.trim l ≠ [] := by
  have hkept : ∀ {l : List Char}, c ∈ l → c ∈ l.dropWhile Anomaly.isWhiteSpace := by
    intro l hc
    induction l with
    | nil => exact hc
    | cons d l ih =>
        rw [List.dropWhile_cons]
        split_ifs with hd
        · rcases List.mem_cons.mp hc with rfl | hc
          · rw [hspace] at hd
            cases hd
          · exact ih hc
        · exact hc
  have hmem : c ∈ Anomaly.trim l :=
    List.mem_reverse.mpr (hkept (List.mem_reverse.mpr (hkept hc)))
  exact List.ne_nil_of_mem hmem

/-! ## The lines of a log -/

/-- The text of the log with these entries. -/
def auditText (entries : List KycAuditEntry) : List Char := entries.flatMap auditLine

theorem auditText_cons (entry : KycAuditEntry) (rest : List KycAuditEntry) :
    auditText (entry :: rest) = auditLine entry ++ auditText rest := List.flatMap_cons

/-- A file to which entries were appended, one by one. -/
theorem foldl_appendAuditLine (file : Option (List UInt8)) (entries : List KycAuditEntry) :
    (entries.foldl appendAuditLine file).getD [] =
      file.getD [] ++ Utf8.encode (auditText entries) := by
  induction entries generalizing file with
  | nil => exact (List.append_nil _).symm
  | cons entry rest ih =>
      rw [List.foldl_cons, ih, auditText_cons, Utf8.encode_append, ← List.append_assoc]
      rfl

/-- A missing log is read as an empty one. -/
theorem readAuditTail_eq (entries : List KycAuditEntry) (maxBytes : Nat) :
    readAuditTail (auditFile entries) maxBytes =
      readAuditTail (some (Utf8.encode (auditText entries))) maxBytes := by
  have hbytes := foldl_appendAuditLine none entries
  rw [Option.getD_none, List.nil_append] at hbytes
  change (auditFile entries).getD [] = _ at hbytes
  rw [← hbytes]
  cases auditFile entries with
  | some bytes => rfl
  | none =>
      rw [Option.getD_none, readAuditTail, readAuditTail, List.drop_nil]
      rw [show (Utf8.decode []).splitOn '\n' = [[]] from rfl]
      simp [Anomaly.trim]

/-- The lines that are kept: those that are not blank. -/
def keptLines (raw : List Char) : List (List Char) :=
  (raw.splitOn '\n').filter fun l => Anomaly.trim l ≠ []

theorem keptLines_append {l : List Char} (hl : '\n' ∉ l) (hkept : Anomaly.trim l ≠ [])
    (rest : List Char) : keptLines (l ++ '\n' :: rest) = l :: keptLines rest := by
  rw [keptLines, List.splitOn_append_cons_self_of_not_mem hl, List.filter_cons_of_pos (by simpa)]
  rfl

/-- An empty line is left out. -/
theorem keptLines_newline (rest : List Char) : keptLines ('\n' :: rest) = keptLines rest := by
  have hsplit : ('\n' :: rest).splitOn '\n' = [] :: rest.splitOn '\n' :=
    List.splitOn_append_cons_self_of_not_mem List.not_mem_nil rest
  rw [keptLines, hsplit, List.filter_cons_of_neg (by simp [Anomaly.trim])]
  rfl

/-- The lines of a log are its entries. -/
theorem keptLines_auditText (entries : List KycAuditEntry) :
    keptLines (auditText entries) = entries.map fun entry => Json.write entry.toJson := by
  induction entries with
  | nil => rfl
  | cons entry rest ih =>
      obtain ⟨body, hbody⟩ := exists_write_toJson entry
      have hkept : Anomaly.trim (Json.write entry.toJson) ≠ [] :=
        trim_ne_nil (c := '\x7d') (by simp [hbody]) (by decide)
      rw [auditText_cons, auditLine, List.append_assoc, List.singleton_append,
        keptLines_append (newline_not_mem_write _) hkept, ih, List.map_cons]

/-- Every line parses to its entry. -/
theorem parse_auditText (entries : List KycAuditEntry) :
    (entries.map fun entry => Json.write entry.toJson).filterMap Json.parse =
      entries.map KycAuditEntry.toJson := by
  induction entries with
  | nil => rfl
  | cons entry rest ih =>
      rw [List.map_cons, List.filterMap_cons_some (Json.parse_write entry.toJson), ih, List.map_cons]

/-! ## Sizes -/

/-- The text has no character outside of ASCII. -/
def Ascii (text : List Char) : Prop := ∀ c ∈ text, c.toNat ≤ 0x7f

instance (text : List Char) : Decidable (Ascii text) :=
  List.decidableBAll (fun c : Char => c.toNat ≤ 0x7f) text

theorem utf16Length_cons (c : Char) (text : List Char) :
    utf16Length (c :: text) = (Json.charUnits c).length + utf16Length text := by
  rw [utf16Length, List.flatMap_cons, List.length_append]
  rfl

/-- A character has no more code units than bytes, and as many only in ASCII. -/
theorem length_charUnits (c : Char) :
    (Json.charUnits c).length ≤ (String.utf8EncodeChar c).length ∧
    ((String.utf8EncodeChar c).length ≤ (Json.charUnits c).length ↔ c.toNat ≤ 0x7f) := by
  have hunits : (Json.charUnits c).length = if c.toNat < 0x10000 then 1 else 2 := by
    unfold Json.charUnits
    split_ifs <;> rfl
  rcases Utf8.encodeChar_cases c with
    ⟨_, hbytes⟩ | ⟨_, _, hbytes⟩ | ⟨_, _, hbytes⟩ | ⟨_, hbytes⟩ <;>
    rw [hunits, hbytes] <;> simp only [List.length_cons, List.length_nil] <;>
    split_ifs <;> omega

/-- The bytes of a text are at least as many as its code units, and more if not
all are ASCII. -/
theorem utf16Length_le (text : List Char) :
    utf16Length text ≤ (Utf8.encode text).length ∧
    ((Utf8.encode text).length ≤ utf16Length text ↔ Ascii text) := by
  induction text with
  | nil => simp [utf16Length, Utf8.encode, Ascii]
  | cons c text ih =>
      obtain ⟨hle, hiff⟩ := length_charUnits c
      have hbytes : (Utf8.encode (c :: text)).length =
          (String.utf8EncodeChar c).length + (Utf8.encode text).length := by
        rw [Utf8.encode_cons, List.length_append]
      rw [hbytes, utf16Length_cons, Ascii, List.forall_mem_cons, ← hiff, ← Ascii, ← ih.2]
      have hrest := ih.1
      omega

/-! ## What is left of a log -/

/-- The bytes of a log with these entries. -/
def logSize (entries : List KycAuditEntry) : Nat := (Utf8.encode (auditText entries)).length

theorem logSize_cons (entry : KycAuditEntry) (rest : List KycAuditEntry) :
    logSize (entry :: rest) = (Utf8.encode (auditLine entry)).length + logSize rest := by
  rw [logSize, auditText_cons, Utf8.encode_append, List.length_append, ← logSize]

theorem logSize_append (entries rest : List KycAuditEntry) :
    logSize (entries ++ rest) = logSize entries + logSize rest := by
  rw [logSize, auditText, List.flatMap_append, Utf8.encode_append, List.length_append]
  rfl

/-- The entries whose lines begin before the last bytes of the log. -/
def outside (maxBytes : Nat) : List KycAuditEntry → List KycAuditEntry
  | [] => []
  | entry :: rest =>
      if logSize (entry :: rest) ≤ maxBytes then [] else entry :: outside maxBytes rest

/-- The entries whose lines are among the last bytes of the log. -/
def inside (maxBytes : Nat) : List KycAuditEntry → List KycAuditEntry
  | [] => []
  | entry :: rest =>
      if logSize (entry :: rest) ≤ maxBytes then entry :: rest else inside maxBytes rest

/-- The bytes go back to the beginning of a line, or to the newline in front of
it, and are all ASCII: the line is taken for the rest of one. -/
def TakenForRest (maxBytes : Nat) (entries : List KycAuditEntry) : Prop :=
  maxBytes ≤ logSize entries ∧ maxBytes ≤ logSize (inside maxBytes entries) + 1 ∧
    Ascii (auditText (inside maxBytes entries))

instance (maxBytes : Nat) (entries : List KycAuditEntry) :
    Decidable (TakenForRest maxBytes entries) := by
  unfold TakenForRest
  infer_instance

/-- The entries that are not read. -/
def missed (maxBytes : Nat) (entries : List KycAuditEntry) : List KycAuditEntry :=
  outside maxBytes entries ++
    if TakenForRest maxBytes entries then (inside maxBytes entries).take 1 else []

/-- The entries that are read. -/
def remaining (maxBytes : Nat) (entries : List KycAuditEntry) : List KycAuditEntry :=
  if TakenForRest maxBytes entries then (inside maxBytes entries).drop 1
  else inside maxBytes entries

/-- A log is what the window misses and what it holds. -/
theorem outside_append_inside (maxBytes : Nat) (entries : List KycAuditEntry) :
    outside maxBytes entries ++ inside maxBytes entries = entries := by
  induction entries with
  | nil => rfl
  | cons entry rest ih =>
      unfold outside inside
      split_ifs
      · rfl
      · rw [List.cons_append, ih]

/-- The misses and the rest make the log as well. -/
theorem missed_append_remaining (maxBytes : Nat) (entries : List KycAuditEntry) :
    missed maxBytes entries ++ remaining maxBytes entries = entries := by
  unfold missed remaining
  split_ifs
  · rw [List.append_assoc, List.take_append_drop, outside_append_inside]
  · rw [List.append_nil, outside_append_inside]

/-- What the window holds fits in it. -/
theorem logSize_inside_le (maxBytes : Nat) (entries : List KycAuditEntry) :
    logSize (inside maxBytes entries) ≤ maxBytes := by
  induction entries with
  | nil => exact Nat.zero_le _
  | cons entry rest ih =>
      unfold inside
      split_ifs with hle
      · exact hle
      · exact ih

/-- Either all lines are among the last bytes, or these begin in the last of the
other lines. -/
theorem outside_cases (maxBytes : Nat) (entries : List KycAuditEntry) :
    (inside maxBytes entries = entries ∧ logSize entries ≤ maxBytes) ∨
    ∃ init entry, entries = init ++ entry :: inside maxBytes entries ∧
      maxBytes < logSize (entry :: inside maxBytes entries) := by
  induction entries with
  | nil => exact Or.inl ⟨rfl, Nat.zero_le _⟩
  | cons entry rest ih =>
      by_cases hle : logSize (entry :: rest) ≤ maxBytes
      · exact Or.inl ⟨by rw [inside, if_pos hle], hle⟩
      · have hinside : inside maxBytes (entry :: rest) = inside maxBytes rest := by
          rw [inside, if_neg hle]
        rw [hinside]
        rcases ih with ⟨hall, -⟩ | ⟨init, last, hrest, hlt⟩
        · exact Or.inr ⟨[], entry, by rw [hall, List.nil_append], by rw [hall]; omega⟩
        · exact Or.inr ⟨entry :: init, last, by rw [List.cons_append, ← hrest], hlt⟩

/-- `readAuditTail` from the text on -/
def readLines (raw : List Char) (maxBytes : Nat) : List Json :=
  (if maxBytes ≤ utf16Length raw then (keptLines raw).drop 1 else keptLines raw).filterMap Json.parse

/-- A text with the lines that are among the last bytes. -/
theorem readLines_whole {raw : List Char} {maxBytes : Nat} {entries : List KycAuditEntry}
    (hlines : keptLines raw = keptLines (auditText (inside maxBytes entries)))
    (hfirst : maxBytes ≤ utf16Length raw ↔ TakenForRest maxBytes entries) :
    readLines raw maxBytes = (remaining maxBytes entries).map KycAuditEntry.toJson := by
  rw [readLines, hlines, keptLines_auditText, remaining]
  by_cases htaken : TakenForRest maxBytes entries
  · rw [if_pos (hfirst.mpr htaken), if_pos htaken, ← List.map_drop, parse_auditText]
  · rw [if_neg (fun h => htaken (hfirst.mp h)), if_neg htaken, parse_auditText]

/-- A text with the rest of a line in front of them. -/
theorem readLines_partial {raw l : List Char} {maxBytes : Nat} {entries : List KycAuditEntry}
    (hlines : keptLines raw = l :: keptLines (auditText (inside maxBytes entries)))
    (hl : Json.parse l = none) (htaken : ¬ TakenForRest maxBytes entries) :
    readLines raw maxBytes = (remaining maxBytes entries).map KycAuditEntry.toJson := by
  rw [readLines, hlines, keptLines_auditText, remaining, if_neg htaken]
  split_ifs
  · rw [List.drop_one, List.tail_cons, parse_auditText]
  · rw [List.filterMap_cons_none hl, parse_auditText]

/-- Where a line may be cut: at its end, before its newline, or so that some of
its JSON is left. -/
theorem auditLine_cases {entry : KycAuditEntry} {lost split : Nat} {before after : List Char}
    (hline : auditLine entry = before ++ after) (hcut : Utf8.CutAt lost before after split) :
    (after = [] ∧ split = 0) ∨ (after = ['\n'] ∧ split = 0) ∨
    ∃ s, s ≠ [] ∧ after = s ++ ['\n'] ∧ before ++ s = Json.write entry.toJson := by
  -- neither the newline nor the closing brace is split
  have hwhole : ∀ c : Char, c.toNat ≤ 0x7f → (∃ text, before = text ++ [c]) → split = 0 := by
    rintro c hc ⟨text, rfl⟩
    by_contra hsplit
    obtain ⟨text', c', heq, hc'⟩ := hcut.split_char hsplit
    obtain rfl := (List.append_singleton_inj.mp heq).2
    omega
  rcases List.eq_nil_or_concat after with rfl | ⟨s, d, rfl⟩
  · refine Or.inl ⟨rfl, hwhole '\n' (by decide) ⟨Json.write entry.toJson, ?_⟩⟩
    rw [← hline.trans (List.append_nil before), auditLine]
  · rw [auditLine, List.concat_eq_append, ← List.append_assoc] at hline
    obtain ⟨hwrite, hd⟩ := List.append_singleton_inj.mp hline
    subst hd
    cases s with
    | nil =>
        obtain ⟨body, hbody⟩ := exists_write_toJson entry
        refine Or.inr (Or.inl ⟨rfl, hwhole '\x7d' (by decide) ⟨body, ?_⟩⟩)
        rw [← hbody, hwrite, List.append_nil]
    | cons c s => exact Or.inr (Or.inr ⟨c :: s, by simp, List.concat_eq_append, hwrite.symm⟩)

/-- The rest of the JSON of a line is not read. -/
theorem parse_rest {entry : KycAuditEntry} {before s : List Char} (split : Nat)
    (hwrite : before ++ s = Json.write entry.toJson) (hcut : before ≠ [] ∨ split ≠ 0) :
    Json.parse (List.replicate split Utf8.replacement ++ s) = none := by
  cases split with
  | succ split => exact Json.parse_replacement _
  | zero =>
      refine Json.parse_suffix (flatField_fields entry) ⟨before, hwrite⟩ ?_
      rintro rfl
      rcases hcut with hbefore | hsplit
      · exact hbefore (List.append_left_eq_self.mp hwrite)
      · exact hsplit rfl

/-- The rest of the JSON of a line is a line. -/
theorem keptLines_rest {entry : KycAuditEntry} {before s : List Char} (split : Nat)
    (hs : s ≠ []) (hwrite : before ++ s = Json.write entry.toJson) (rest : List Char) :
    keptLines (List.replicate split Utf8.replacement ++ (s ++ ['\n'] ++ rest)) =
      (List.replicate split Utf8.replacement ++ s) :: keptLines rest := by
  have hnewline : '\n' ∉ List.replicate split Utf8.replacement ++ s := by
    intro hmem
    rcases List.mem_append.mp hmem with hmem | hmem
    · exact absurd (List.eq_of_mem_replicate hmem) (by decide)
    · exact newline_not_mem_write entry.toJson (hwrite ▸ List.mem_append_right _ hmem)
  have hbrace : '\x7d' ∈ s := by
    have hsuffix : ['\x7d'] <:+ s :=
      List.suffix_of_suffix_length_le (Json.brace_suffix_write entry.fields) ⟨before, hwrite⟩
        (List.length_pos_of_ne_nil hs)
    exact hsuffix.mem (List.mem_singleton_self _)
  rw [← keptLines_append hnewline
    (trim_ne_nil (List.mem_append_right _ hbrace) (by decide)) rest]
  simp

/-- The last bytes of a log, as text. -/
theorem decode_tail {maxBytes : Nat} {init within : List KycAuditEntry} {entry : KycAuditEntry}
    {before after : List Char} {lost split : Nat} (hline : auditLine entry = before ++ after)
    (hcut : Utf8.CutAt lost before after split)
    (hlost : lost + maxBytes = (Utf8.encode (auditLine entry)).length + logSize within)
    (hle : logSize within ≤ maxBytes) :
    Utf8.decode ((Utf8.encode (auditText (init ++ entry :: within))).drop
      ((Utf8.encode (auditText (init ++ entry :: within))).length - maxBytes)) =
      List.replicate split Utf8.replacement ++ (after ++ auditText within) := by
  have htext : auditText (init ++ entry :: within) =
      auditText init ++ (auditLine entry ++ auditText within) := by
    rw [auditText, List.flatMap_append, ← auditText, ← auditText, auditText_cons]
  have hstart : (Utf8.encode (auditText (init ++ entry :: within))).length - maxBytes =
      (Utf8.encode (auditText init)).length + lost := by
    change logSize (init ++ entry :: within) - maxBytes = logSize init + lost
    rw [logSize_append, logSize_cons]
    omega
  rw [hstart, htext, Utf8.encode_append, Utf8.encode_append, List.drop_length_add_append,
    List.drop_append_of_le_length (by omega), hline, hcut.decoded, Utf8.decode_encode]

/-- **The tail of a log.**  All entries are read but those that are missed. -/
theorem readAuditTail_auditFile (maxBytes : Nat) (entries : List KycAuditEntry) :
    readAuditTail (auditFile entries) maxBytes =
      (remaining maxBytes entries).map KycAuditEntry.toJson := by
  rw [readAuditTail_eq]
  change readLines (Utf8.decode ((Utf8.encode (auditText entries)).drop
    ((Utf8.encode (auditText entries)).length - maxBytes))) maxBytes = _
  have hunits := utf16Length_le (auditText (inside maxBytes entries))
  change utf16Length _ ≤ logSize _ ∧ (logSize _ ≤ utf16Length _ ↔ _) at hunits
  have hle := logSize_inside_le maxBytes entries
  rcases outside_cases maxBytes entries with ⟨hall, hsize⟩ | ⟨init, entry, hentries, hlt⟩
  · have hraw : Utf8.decode ((Utf8.encode (auditText entries)).drop
        ((Utf8.encode (auditText entries)).length - maxBytes)) = auditText entries := by
      change logSize entries ≤ maxBytes at hsize
      rw [show (Utf8.encode (auditText entries)).length = logSize entries from rfl,
        Nat.sub_eq_zero_of_le hsize, List.drop_zero, Utf8.decode_encode]
    rw [hraw]
    rw [hall] at hunits
    refine readLines_whole (by rw [hall]) ?_
    rw [TakenForRest, hall, ← hunits.2]
    omega
  · have hlog : logSize entries = logSize init +
        ((Utf8.encode (auditLine entry)).length + logSize (inside maxBytes entries)) := by
      rw [← logSize_cons, ← logSize_append, ← hentries]
    rw [logSize_cons] at hlt
    obtain ⟨before, after, split, hline, hcut⟩ := Utf8.decode_drop_encode (auditLine entry)
      ((Utf8.encode (auditLine entry)).length + logSize (inside maxBytes entries) - maxBytes)
      (by omega)
    have hbytes := hcut.bytes
    have hlength : (Utf8.encode (auditLine entry)).length =
        (Utf8.encode before).length + (Utf8.encode after).length := by
      rw [hline, Utf8.encode_append, List.length_append]
    have hraw := @decode_tail maxBytes init _ _ _ _ _ _ hline hcut (by omega) hle
    rw [← hentries] at hraw
    rw [hraw]
    rcases auditLine_cases hline hcut with ⟨rfl, rfl⟩ | ⟨rfl, rfl⟩ | ⟨s, hs, rfl, hwrite⟩
    · rw [List.replicate_zero, List.nil_append, List.nil_append]
      refine readLines_whole rfl ?_
      have hzero : (Utf8.encode []).length = 0 := rfl
      rw [TakenForRest, ← hunits.2]
      omega
    · rw [List.replicate_zero, List.nil_append, List.singleton_append]
      refine readLines_whole (keptLines_newline _) ?_
      have hone : (Utf8.encode ['\n']).length = 1 := rfl
      have hunit : (Json.charUnits '\n').length = 1 := rfl
      rw [TakenForRest, ← hunits.2, utf16Length_cons, hunit]
      omega
    · -- more than the newline in front of the first whole line
      have hlong : 2 ≤ (Utf8.encode (s ++ ['\n'])).length := by
        have hs' := List.length_pos_of_ne_nil hs
        have hle := Utf8.length_le_encode (s ++ ['\n'])
        rw [List.length_append, List.length_singleton] at hle
        omega
      have hbefore : before ≠ [] ∨ split ≠ 0 := by
        rw [← not_and_or]
        rintro ⟨rfl, rfl⟩
        have hzero : (Utf8.encode []).length = 0 := rfl
        omega
      refine readLines_partial (keptLines_rest split hs hwrite _)
        (parse_rest split hwrite hbefore) ?_
      rintro ⟨-, hfirst, -⟩
      omega

/-! ## The last entries -/

/-- The entry is one of the address, or of any if there is none. -/
def wanted (address : Option String) (entry : KycAuditEntry) : Bool :=
  match address with
  | none => true
  | some address => entry.address = address

/-- The last entries of an address, in the order of the log; all of them if there
are no more than the limit. -/
def lastWanted (address : Option String) (limit : Nat) (entries : List KycAuditEntry) :
    List KycAuditEntry :=
  let own := entries.filter (wanted address)
  own.drop (own.length - limit)

/-- Filtering by address is filtering the entries. -/
theorem filterAddress_toJson (address : String) (entries : List KycAuditEntry) :
    filterAddress address (entries.map KycAuditEntry.toJson) =
      some ((entries.filter (wanted (some address))).map KycAuditEntry.toJson) := by
  induction entries with
  | nil => rfl
  | cons entry rest ih =>
      have hfield : addressIs address entry.toJson = some (wanted (some address) entry) := rfl
      rw [List.map_cons, filterAddress, ih, hfield]
      cases hwanted : wanted (some address) entry with
      | true => rw [List.filter_cons_of_pos hwanted, List.map_cons]
      | false => rw [List.filter_cons_of_neg (by simp [hwanted])]

/-- What a call returns, by the entries that are read. -/
theorem listAudit_auditFile {address : Option String} (haddress : address ≠ some "")
    (entries : List KycAuditEntry) (limit : Nat) :
    listAudit (auditFile entries) address limit =
      some (sliceLast limit (((remaining (limit * 10) entries).filter (wanted address)).map
        KycAuditEntry.toJson)) := by
  unfold listAudit
  rw [readAuditTail_auditFile]
  cases address with
  | none =>
      have hall : wanted none = fun _ => true := rfl
      simp only [hall, List.filter_true, Option.map_some]
  | some address =>
      have hne : address ≠ "" := fun h => haddress (h ▸ rfl)
      simp only [hne, if_false, filterAddress_toJson, Option.map_some]

/-- No entry fits in ten bytes. -/
theorem length_le_logSize (entries : List KycAuditEntry) : 11 * entries.length ≤ logSize entries := by
  induction entries with
  | nil => exact Nat.zero_le _
  | cons entry rest ih =>
      have hline : 11 ≤ (auditLine entry).length := by
        rw [auditLine, KycAuditEntry.toJson, KycAuditEntry.fields, Json.write, Json.closeObject]
        simp only [List.length_append, List.length_cons, Json.quote]
        have hid : (Json.closeString "id".toList).length = 3 := by decide
        have haddress : (Json.closeString "address".toList).length = 8 := by decide
        omega
      have hbytes := Utf8.length_le_encode (auditLine entry)
      rw [logSize_cons, List.length_cons]
      omega

/-- Always fewer entries are read than the limit. -/
theorem length_remaining_lt {limit : Nat} (hlimit : 1 ≤ limit) (entries : List KycAuditEntry) :
    (remaining (limit * 10) entries).length < limit := by
  have hle := logSize_inside_le (limit * 10) entries
  have hlong := length_le_logSize (inside (limit * 10) entries)
  have hremaining : (remaining (limit * 10) entries).length ≤
      (inside (limit * 10) entries).length := by
    unfold remaining
    split_ifs
    · rw [List.length_drop]
      omega
    · exact Nat.le_refl _
  omega

/-- **The last entries of an address are found exactly if none of its entries is
missed.** -/
theorem listAudit_complete_iff (entries : List KycAuditEntry) (address : Option String)
    (limit : Nat) (haddress : address ≠ some "") (hlimit : 1 ≤ limit) :
    listAudit (auditFile entries) address limit =
        some ((lastWanted address limit entries).map KycAuditEntry.toJson) ↔
      ∀ entry ∈ missed (limit * 10) entries, wanted address entry = false := by
  have hfew : ((remaining (limit * 10) entries).filter (wanted address)).length < limit :=
    Nat.lt_of_le_of_lt (List.length_filter_le _ _) (length_remaining_lt hlimit entries)
  have hown : entries.filter (wanted address) =
      (missed (limit * 10) entries).filter (wanted address) ++
        (remaining (limit * 10) entries).filter (wanted address) := by
    rw [← List.filter_append, missed_append_remaining]
  have hslice : sliceLast limit (((remaining (limit * 10) entries).filter (wanted address)).map
      KycAuditEntry.toJson) =
      ((remaining (limit * 10) entries).filter (wanted address)).map KycAuditEntry.toJson := by
    rw [sliceLast, if_neg (by omega), List.length_map, Nat.sub_eq_zero_of_le (by omega),
      List.drop_zero]
  rw [listAudit_auditFile haddress, hslice, Option.some.injEq, lastWanted, hown]
  constructor
  · intro heq
    have hlength := congrArg List.length heq
    simp only [List.length_map, List.length_drop, List.length_append] at hlength
    have hnone : (missed (limit * 10) entries).filter (wanted address) = [] :=
      List.eq_nil_of_length_eq_zero (by omega)
    intro entry hentry
    simpa using List.filter_eq_nil_iff.mp hnone entry hentry
  · intro hnone
    have hnil : (missed (limit * 10) entries).filter (wanted address) = [] :=
      List.filter_eq_nil_iff.mpr fun entry hentry => by simp [hnone entry hentry]
    rw [hnil, List.nil_append, Nat.sub_eq_zero_of_le (by omega), List.drop_zero]

/-- An address, and the entry of one of its transitions. -/
def sampleAddress : String := String.ofList ('G' :: List.replicate 55 'A')

def sampleEntry (n : Nat) : KycAuditEntry where
  id := String.ofList (List.replicate 31 '0' ++ [n.digitChar])
  address := sampleAddress
  fromStatus := some .pending
  toStatus := .verified
  source := .admin
  actor := none
  reason := none
  providerReference := none
  expiresAt := none
  timestamp := 1767225600000 + n

/-- A log that fits in the window is listed in full. -/
theorem short_log_is_listed :
    listAudit (auditFile [sampleEntry 0]) (some sampleAddress) 100 =
      some ((lastWanted (some sampleAddress) 100 [sampleEntry 0]).map KycAuditEntry.toJson) :=
  (listAudit_complete_iff [sampleEntry 0] (some sampleAddress) 100 (by decide) (by decide)).mpr
    (by decide +kernel)

/-- Four entries take more than a thousand bytes. -/
theorem listAudit_misses_entry :
    listAudit (auditFile ((List.range 4).map sampleEntry)) (some sampleAddress) 100 ≠
      some ((lastWanted (some sampleAddress) 100 ((List.range 4).map sampleEntry)).map
        KycAuditEntry.toJson) := by
  have hread : remaining (100 * 10) ((List.range 4).map sampleEntry) =
      [sampleEntry 1, sampleEntry 2, sampleEntry 3] := by decide +kernel
  rw [listAudit_auditFile (by decide), hread]
  intro heq
  have hlength := congrArg (Option.map List.length) heq
  revert hlength
  decide +kernel

end EcoMint.Kyc
