import EcoMint.Binary64
import EcoMint.Evidence
import EcoMint.Json
import EcoMint.OracleCalls

/-!
# Checks before a report goes on-chain

The adapters check a report twice before it is submitted: against the schema of
a report, and against the rules that `OracleConsumer` and the encoder of evidence
references will apply.  The second check has patterns of its own for the evidence
hash and leaves the comparison of the two dates to `Date`.

A text with the pattern of a CIDv0 is one only when the number that it writes
begins with the two bytes of a multihash, and a date with the pattern of a date is
an instant only when its month and its day are in range; a comparison with
something that is no instant is false, so such a period passes.  Neither check asks
whether the seconds and the amount fit the types that the contract has for them: a
period before 1970 and an amount from `2 ^ 127` on pass as well.  Apart from these a
report that passes can be submitted.
-/

namespace EcoMint

open Binary64 Radix

/-! ## Dates -/

/-- A date as it is written. -/
structure CalendarDate where
  year : Nat
  month : Nat
  day : Nat
deriving DecidableEq, Repr

/-- `/^\d\x7b4\x7d-\d\x7b2\x7d-\d\x7b2\x7d$/`, and the numbers in the date. -/
def readIsoDate : List Char → Option CalendarDate
  | [y1, y2, y3, y4, h1, m1, m2, h2, d1, d2] =>
      if [y1, y2, y3, y4, m1, m2, d1, d2].all Char.isDigit = true ∧ h1 = '-' ∧ h2 = '-' then
        some ⟨DecimalText.digitsValue [y1, y2, y3, y4], DecimalText.digitsValue [m1, m2],
          DecimalText.digitsValue [d1, d2]⟩
      else none
  | _ => none

/-- The strings that the schema takes for dates. -/
def isoDate (text : String) : Bool := (readIsoDate text.toList).isSome

/-- Month and day are among those that a date can name. -/
def CalendarDate.InRange (date : CalendarDate) : Prop :=
  (1 ≤ date.month ∧ date.month ≤ 12) ∧ 1 ≤ date.day ∧ date.day ≤ 31

instance (date : CalendarDate) : Decidable date.InRange := by
  unfold CalendarDate.InRange; infer_instance

/-- Days from the epoch to the first day of a year. -/
def dayFromYear (year : Int) : Int :=
  365 * (year - 1970) + (year - 1969) / 4 - (year - 1901) / 100 + (year - 1601) / 400

/-- The year has a 29th of February. -/
def isLeapYear (year : Nat) : Bool :=
  year % 4 = 0 && (year % 100 ≠ 0 || year % 400 = 0)

/-- Days from the first day of a year to the first day of a month. -/
def dayOfMonth (year month : Nat) : Nat :=
  [0, 31, 59, 90, 120, 151, 181, 212, 243, 273, 304, 334].getD (month - 1) 0 +
    if isLeapYear year && 2 < month then 1 else 0

/-- A day in milliseconds. -/
def msPerDay : Int := 86400000

/-- The time value of midnight UTC; days past the end of the month run over into
the next one. -/
def CalendarDate.time (date : CalendarDate) : Int :=
  (dayFromYear date.year + dayOfMonth date.year date.month + (date.day - 1)) * msPerDay

/-- `new Date(text).getTime()` for a text that the schema takes for a date; `none`
is `NaN`. -/
def getTime (text : String) : Option Int := do
  let date ← readIsoDate text.toList
  if date.InRange then some date.time else none

/-- `x <= y` for two numbers; it is false when one of them is `NaN`. -/
def lessEq : Option Int → Option Int → Bool
  | some x, some y => x ≤ y
  | _, _ => false

/-! ## Reports -/

/-- The report of an adapter.  Its numbers may be infinite, as JSON can make them, and
its evidence is a record. -/
structure OracleReport where
  projectId : String
  provider : String
  methodology : String
  periodStart : String
  periodEnd : String
  carbonSequestered : Number
  confidence : Number
  ipfsEvidenceHash : String
  evidence : List (String × Json)

/-- What the schema asks of the fields beyond their types. -/
def OracleReportSchema (report : OracleReport) : Bool :=
  report.projectId ≠ "" && report.provider ≠ "" && report.methodology ≠ "" &&
    isoDate report.periodStart && isoDate report.periodEnd &&
    !report.carbonSequestered.less 0 &&
    !report.confidence.less 0 && !report.confidence.greater 1 &&
    report.ipfsEvidenceHash ≠ ""

/-- What the check throws. -/
structure OracleValidationError where
  message : String
deriving DecidableEq, Repr

/-- `[a-zA-Z0-9_]` -/
def isSymbolChar (c : Char) : Bool :=
  ('a' ≤ c ∧ c ≤ 'z') ∨ ('A' ≤ c ∧ c ≤ 'Z') ∨ ('0' ≤ c ∧ c ≤ '9') ∨ c = '_'

/-- `/^[a-zA-Z0-9_]\x7b1,32\x7d$/` -/
def isSorobanSymbol (text : String) : Bool :=
  1 ≤ text.toList.length && text.toList.length ≤ 32 && text.toList.all isSymbolChar

/-- The check before a report goes on chain: the period, the amount, the methodology and
the form of the hash. -/
def validateForOnChain (report : OracleReport) : Except OracleValidationError Unit :=
  let start := getTime report.periodStart
  let stop := getTime report.periodEnd
  if lessEq stop start = true then
    .error ⟨"Invalid reporting period: period_end (" ++ report.periodEnd ++
      ") must be after period_start (" ++ report.periodStart ++ ")"⟩
  else if report.carbonSequestered.less 0 then
    .error ⟨"Invalid sequestration: carbon_sequestered must be non-negative, got " ++
      String.ofList report.carbonSequestered.text⟩
  else if isSorobanSymbol report.methodology = false then
    .error ⟨"Invalid methodology: must be a valid Soroban Symbol (1-32 chars, a-z, A-Z, 0-9, _), " ++
      "got \"" ++ report.methodology ++ "\""⟩
  else if looksLikeCidV0 report.ipfsEvidenceHash.toList = false then
    .error ⟨"Invalid evidence hash: ipfs_evidence_hash must be a valid IPFS CIDv0 starting with " ++
      "'Qm', got \"" ++ report.ipfsEvidenceHash ++ "\""⟩
  else .ok ()

/-- What a report has that passes the check. -/
theorem validateForOnChain_ok_iff (report : OracleReport) :
    validateForOnChain report = .ok () ↔
      lessEq (getTime report.periodEnd) (getTime report.periodStart) = false ∧
      report.carbonSequestered.less 0 = false ∧
      isSorobanSymbol report.methodology = true ∧
      looksLikeCidV0 report.ipfsEvidenceHash.toList = true := by
  unfold validateForOnChain
  dsimp only
  split_ifs with hperiod hcarbon hsymbol hcid
  · simp [hperiod]
  · simp [hcarbon]
  · simp [hsymbol]
  · simp [hcid]
  · simp [hperiod, hcarbon, hsymbol, hcid]

/-! ## Which hashes name a digest -/

/-- The number that a base-58 text writes. -/
def base58Number (text : String) : Nat :=
  value 58 (text.toList.map fun c => BASE58_ALPHABET.idxOf c)

/-- The number begins with the two bytes of a SHA-256 multihash and has 32 bytes
after them. -/
def WritesMultihash (text : String) : Prop := base58Number text / 256 ^ 32 = 0x1220

instance (text : String) : Decidable (WritesMultihash text) := by
  unfold WritesMultihash; infer_instance

/-- The bytes of a number are a multihash exactly when the number begins as one. -/
theorem multihash_bytes_iff (n : Nat) :
    ((numeral 256 n).length = 34 ∧ (numeral 256 n).drop 32 = [0x20, 0x12]) ↔
      n / 256 ^ 32 = 0x1220 := by
  constructor
  · rintro ⟨hlength, htop⟩
    have hvalue := value_reverse_numeral 256 n
    rw [← List.take_append_drop 32 (numeral 256 n), htop, List.reverse_append, value_append,
      List.length_reverse, List.length_take, hlength] at hvalue
    have hlow : value 256 ((numeral 256 n).take 32).reverse < 256 ^ 32 := by
      have hlt : ∀ byte ∈ ((numeral 256 n).take 32).reverse, byte < 256 := by
        intro byte hbyte
        exact lt_of_mem_numeral (by decide) (List.mem_of_mem_take (List.mem_reverse.mp hbyte))
      have hbound := value_lt (by decide) hlt
      rwa [List.length_reverse, List.length_take, hlength] at hbound
    have hhigh : value 256 [0x20, 0x12].reverse = 0x1220 := by decide
    rw [hhigh] at hvalue
    change 0x1220 * 256 ^ 32 + _ = n at hvalue
    rw [← hvalue, Nat.mul_comm, Nat.mul_add_div (by positivity), Nat.div_eq_of_lt hlow]
  · intro hquotient
    have hn : 0x1220 * 256 ^ 32 ≤ n ∧ n < 0x1221 * 256 ^ 32 := by
      have hdiv := Nat.div_add_mod n (256 ^ 32)
      have hmod := Nat.mod_lt n (show 0 < 256 ^ 32 by positivity)
      rw [hquotient] at hdiv
      omega
    refine ⟨length_numeral (by decide) ?_ ?_, ?_⟩
    · exact le_trans (by norm_num) hn.1
    · exact lt_of_lt_of_le hn.2 (by norm_num)
    · rw [drop_numeral (by decide) (le_trans (by norm_num) hn.1), hquotient]
      decide

/-- The pattern of a CIDv0 allows digits of base 58 only. -/
theorem mem_alphabet_of_isBase58Char {c : Char} (h : isBase58Char c = true) :
    c ∈ BASE58_ALPHABET := by
  have hall : ∀ n < 128, isBase58Char (Char.ofNat n) = true → n ∈ BASE58_ALPHABET.map Char.toNat := by
    rw [alphabet_eq]
    decide +kernel
  have hlt : c.toNat < 128 := by
    simp only [isBase58Char, decide_eq_true_eq] at h
    rcases h with h | h | h | h | h | h <;>
      exact lt_of_le_of_lt (UInt32.le_iff_toNat_le.mp h.2) (by decide)
  have hc := hall c.toNat hlt
  rw [Char.ofNat_toNat] at hc
  obtain ⟨c', hmem, hcode⟩ := List.mem_map.mp (hc h)
  rwa [← Char.toNat_inj.mp hcode]

/-- The digits that a text with the pattern of a CIDv0 writes. -/
theorem exists_digits_of_looksLikeCidV0 {cs : List Char} (h : looksLikeCidV0 cs = true) :
    ∃ digits : List Nat, (∀ digit ∈ digits, digit < 58) ∧ digits.head? = some 23 ∧
      digits.map base58Char = cs := by
  unfold looksLikeCidV0 at h
  split at h
  · next rest =>
      rw [Bool.and_eq_true, List.all_eq_true] at h
      obtain ⟨digits, hdigits, hrest⟩ :=
        exists_digits fun c hc => mem_alphabet_of_isBase58Char (h.2 c hc)
      refine ⟨23 :: 44 :: digits, ?_, rfl, ?_⟩
      swap
      · have hQ : base58Char 23 = 'Q' := by
          rw [base58Char, alphabet_eq]
          rfl
        have hm : base58Char 44 = 'm' := by
          rw [base58Char, alphabet_eq]
          rfl
        rw [List.map_cons, List.map_cons, hQ, hm, hrest]
      intro digit hdigit
      rcases List.mem_cons.mp hdigit with rfl | hdigit
      · decide
      rcases List.mem_cons.mp hdigit with rfl | hdigit
      · decide
      · exact hdigits digit hdigit
  · cases h

/-- The number that a text writes in base 58, from its digits. -/
theorem base58Number_eq {text : String} {digits : List Nat} (hdigits : ∀ digit ∈ digits, digit < 58)
    (htext : digits.map base58Char = text.toList) : base58Number text = value 58 digits := by
  unfold base58Number
  rw [← htext, List.map_map]
  have hback : digits.map ((fun c => BASE58_ALPHABET.idxOf c) ∘ base58Char) = digits := by
    refine (List.map_congr_left fun digit hdigit => ?_).trans (List.map_id digits)
    rw [Function.comp_apply, List.idxOf_eq_getD_idxOf?,
      idxOf_base58Char (hdigits digit hdigit), Option.getD_some]
    rfl
  rw [hback]

/-- A text of the form of a CIDv0 is encoded exactly if it writes a multihash. -/
theorem encodeCid_iff_writesMultihash {text : String} (h : looksLikeCidV0 text.toList = true) :
    (∃ digest, encodeCid text = .ok digest) ↔ WritesMultihash text := by
  obtain ⟨digits, hdigits, hhead, htext⟩ := exists_digits_of_looksLikeCidV0 h
  have hhead' : digits.head? ≠ some 0 := by simp [hhead]
  have hbytes : ∀ byte ∈ numeral 256 (value 58 digits), byte < 256 := by
    intro byte hbyte
    exact lt_of_mem_numeral (by decide) hbyte
  rw [← isValidCid_iff_encodeCid, isValidCid, tryExtractDigest,
    if_neg (by simp [not_isHexDigest_of_looksLikeCidV0 h]), if_pos h, ← htext,
    base58Decode_map hdigits hhead', WritesMultihash, base58Number_eq hdigits htext,
    ← multihash_bytes_iff]
  generalize numeral 256 (value 58 digits) = bytes at *
  have htop : bytes.length = 34 → ((bytes.reverse.map UInt8.ofNat).take 2 = CIDV0_PREFIX ↔
      bytes.drop 32 = [0x20, 0x12]) := by
    intro hlength
    have hback : (bytes.reverse.map UInt8.ofNat).take 2 = (bytes.drop 32).reverse.map UInt8.ofNat := by
      rw [← List.map_take, List.take_reverse, hlength]
    rw [hback]
    constructor
    · intro heq
      have hnat := congrArg (List.map UInt8.toNat) heq
      rw [map_toNat_ofNat fun byte hbyte =>
        hbytes byte (List.mem_of_mem_drop (List.mem_reverse.mp hbyte))] at hnat
      rw [← List.reverse_reverse (bytes.drop 32), hnat]
      rfl
    · intro heq
      rw [heq]
      rfl
  dsimp only
  rw [List.length_map, List.length_reverse]
  split
  · next hmultihash => simpa [hmultihash.1] using (htop hmultihash.1).mp hmultihash.2
  · next hnot =>
      apply iff_of_false
      · simp
      · rintro ⟨hlength, hdrop⟩
        exact hnot ⟨hlength, (htop hlength).mpr hdrop⟩

/-! ## Which dates are instants -/

/-- The date has a month and a day that exist. -/
def InCalendar (text : String) : Prop := ∃ date ∈ readIsoDate text.toList, date.InRange

instance (text : String) : Decidable (InCalendar text) := by
  unfold InCalendar; infer_instance

/-- A text of the form of a date has a time exactly if it is in the calendar. -/
theorem getTime_isSome_iff (text : String) :
    (∃ time, getTime text = some time) ↔ InCalendar text := by
  unfold getTime InCalendar
  cases readIsoDate text.toList with
  | none => simp
  | some date =>
      by_cases hrange : date.InRange
      · simp [hrange]
      · simp [hrange]

/-! ## Which reports can be submitted -/

namespace OracleConsumer

open Fallible

/-- A report with a period and no negative amount passes the checks of its
arguments, whatever else the contract has against it. -/
theorem submitReport_ne_invalidSignature {env : Env} {s : State} {provider : Address}
    {projectId : BytesN 32} {periodStart periodEnd : Nat} {carbonSequestered : Int}
    {methodology : Symbol} {ipfsEvidenceHash : BytesN 32} {nonce : Nat}
    (hperiod : periodStart < periodEnd) (hcarbon : 0 ≤ carbonSequestered) :
    submitReport env s provider projectId periodStart periodEnd carbonSequestered .absent
      methodology ipfsEvidenceHash nonce ≠ .error (.error .invalidSignature) := by
  have hoverlap (s : State) (ids : List Nat) : checkOverlap s provider methodology periodStart
      periodEnd ids ≠ .error (.error .invalidSignature) := by
    induction ids with
    | nil => simp [checkOverlap, pure, Except.pure]
    | cons id rest ih => simp [checkOverlap, bind_error_iff, okOr_error_iff, rejectIf_error_iff, ih]
  have hchecks : ¬ (periodEnd ≤ periodStart ∨ carbonSequestered < 0) := by omega
  simp [submitReport, bind_error_iff, Env.requireAuth, trapUnless_error_iff, consumeNonce, useNonce,
    rejectIf_error_iff, okOr_error_iff, negativeMetrics, hchecks, hoverlap, pure, Except.pure]

end OracleConsumer

/-- The report passes the schema and the checks. -/
structure Accepted (report : OracleReport) : Prop where
  schema : OracleReportSchema report = true
  checks : validateForOnChain report = .ok ()

instance (report : OracleReport) : Decidable (Accepted report) :=
  decidable_of_iff (OracleReportSchema report = true ∧ validateForOnChain report = .ok ())
    ⟨fun h => ⟨h.1, h.2⟩, fun h => ⟨h.schema, h.checks⟩⟩

/-- The arguments that the contract is called with: a digest, two `u64`s and an
`i128`. -/
structure ReportArguments where
  digest : BytesN 32
  periodStart : Nat
  periodEnd : Nat
  carbonSequestered : Int
  start_u64 : IntRange.u64.Fits periodStart
  end_u64 : IntRange.u64.Fits periodEnd
  amount_i128 : IntRange.i128.Fits carbonSequestered

/-- The arguments are those of the report: its digest, the seconds of its dates, and
its amount in whole units. -/
structure ReportArguments.Encode (args : ReportArguments) (report : OracleReport) : Prop where
  digest : encodeCid report.ipfsEvidenceHash = .ok args.digest
  periodStart : getTime report.periodStart = some (1000 * args.periodStart)
  periodEnd : getTime report.periodEnd = some (1000 * args.periodEnd)
  amount : report.carbonSequestered.value?.map Int.floor = some args.carbonSequestered

/-- The evidence hash names a digest, the dates are instants in order, the
methodology is a symbol, and the report can be written as arguments that the contract
has nothing against. -/
structure Submittable (report : OracleReport) : Prop where
  digest : ∃ digest, encodeCid report.ipfsEvidenceHash = .ok digest
  period : ∃ start stop, getTime report.periodStart = some start ∧
    getTime report.periodEnd = some stop ∧ start < stop
  methodology : isSorobanSymbol report.methodology = true
  arguments : ∃ args : ReportArguments, args.Encode report ∧ ∀ env s provider projectId nonce,
    OracleConsumer.submitReport env s provider projectId args.periodStart args.periodEnd
      args.carbonSequestered .absent report.methodology args.digest nonce ≠
        .error (.error .invalidSignature)

/-- The date is of 1970 or later. -/
def SinceEpoch (text : String) : Prop := ∃ date ∈ readIsoDate text.toList, 1970 ≤ date.year

instance (text : String) : Decidable (SinceEpoch text) := by
  unfold SinceEpoch; infer_instance

/-- The amount is finite and below `2 ^ 127`. -/
def AmountFits (n : Number) : Prop := ∃ value ∈ n.value?, value < 2 ^ 127

instance (n : Number) : Decidable (AmountFits n) := by
  unfold AmountFits; infer_instance

/-- A date has four digits of the year. -/
theorem year_lt_of_readIsoDate {cs : List Char} {date : CalendarDate}
    (h : readIsoDate cs = some date) : date.year < 10000 := by
  unfold readIsoDate at h
  split at h
  · next y1 y2 y3 y4 _ _ _ _ _ _ =>
      split at h
      · next hdigits =>
          obtain rfl := (Option.some.inj h).symm
          have hdigit : ∀ c ∈ [y1, y2, y3, y4], c.toNat ≤ 57 := by
            intro c hc
            have hc := List.all_eq_true.mp hdigits.1 c (List.mem_append_left _ hc)
            exact (Char.isDigit_iff_toNat.mp hc).2
          simp only [List.forall_mem_cons] at hdigit
          simp only [DecimalText.digitsValue, Nat.ofDigitChars_cons, Nat.ofDigitChars_nil,
            Char.reduceToNat]
          omega
      · cases h
  · cases h

/-- Where a month begins in its year, at the latest. -/
theorem dayOfMonth_le (year : Nat) {month : Nat} (h : month ≤ 12) :
    dayOfMonth year month ≤ 334 + if isLeapYear year then 1 else 0 := by
  have hmonths : ∀ m < 12,
      [0, 31, 59, 90, 120, 151, 181, 212, 243, 273, 304, 334].getD m 0 ≤ 334 := by decide
  have hmonth := hmonths (month - 1) (by omega)
  unfold dayOfMonth
  split_ifs with hlater hleap hleap
  · omega
  · exact absurd (Bool.and_eq_true_iff.mp hlater).1 hleap
  · omega
  · omega

/-- Midnight of a date that exists is a whole number of days from the epoch, and not
before it exactly when the year is not. -/
theorem CalendarDate.exists_days {date : CalendarDate} (h : date.InRange)
    (hyear : date.year < 10000) :
    ∃ days : Int, date.time = days * msPerDay ∧ days < 4000000 ∧
      (0 ≤ days ↔ 1970 ≤ date.year) := by
  obtain ⟨⟨-, hmonth⟩, hday, hday'⟩ := h
  have hmonths := dayOfMonth_le date.year hmonth
  refine ⟨_, rfl, ?_⟩
  by_cases hleap : isLeapYear date.year
  · -- a leap year has one day more, and 1969 is none
    have hfour : date.year % 4 = 0 := by
      simp only [isLeapYear, Bool.and_eq_true, decide_eq_true_eq] at hleap
      exact hleap.1
    rw [if_pos hleap] at hmonths
    unfold dayFromYear
    omega
  · rw [if_neg hleap] at hmonths
    unfold dayFromYear
    omega

/-- What is known of the time value of a date. -/
theorem exists_days_of_getTime {text : String} {time : Int} (h : getTime text = some time) :
    ∃ days : Int, time = days * msPerDay ∧ days < 4000000 ∧ (0 ≤ days ↔ SinceEpoch text) := by
  unfold getTime at h
  simp only [Option.bind_eq_bind, Option.bind_eq_some_iff, Option.ite_none_right_eq_some] at h
  obtain ⟨date, hdate, hrange, heq⟩ := h
  obtain rfl := Option.some.inj heq
  obtain ⟨days, htime, hbound, hsince⟩ :=
    CalendarDate.exists_days hrange (year_lt_of_readIsoDate hdate)
  exact ⟨days, htime, hbound, by simp [SinceEpoch, hdate, hsince]⟩

/-- A date is of 1970 or later exactly if its time is not negative. -/
theorem sinceEpoch_iff {text : String} {time : Int} (h : getTime text = some time) :
    SinceEpoch text ↔ 0 ≤ time := by
  obtain ⟨days, rfl, -, hsince⟩ := exists_days_of_getTime h
  rw [← hsince]
  unfold msPerDay
  omega

/-- The seconds since the epoch fit into a `u64`. -/
theorem exists_seconds {text : String} {time : Int} (h : getTime text = some time)
    (hnonneg : 0 ≤ time) :
    ∃ seconds : Nat, time = 1000 * seconds ∧ IntRange.u64.Fits seconds := by
  obtain ⟨days, rfl, hbound, -⟩ := exists_days_of_getTime h
  unfold msPerDay at hnonneg ⊢
  refine ⟨(days * 86400).toNat, by omega, ?_⟩
  unfold IntRange.Fits IntRange.u64
  dsimp only
  omega

/-- What is not less than a bound is at least it. -/
theorem le_of_less_eq_false {n : Number} {q value : ℚ} (h : n.less q = false)
    (hvalue : n.value? = some value) : q ≤ value :=
  Number.le_of_not_less (by simp [h]) hvalue

/-- A report of the first quarter of 2025. -/
def quarterReport (ipfsEvidenceHash periodEnd : String) : OracleReport where
  projectId := "7"
  provider := "verra"
  methodology := "VERRA_VCS"
  periodStart := "2025-01-01"
  periodEnd := periodEnd
  carbonSequestered := Number.ofRat 5000
  confidence := Number.ofRat 1
  ipfsEvidenceHash := ipfsEvidenceHash
  evidence := []

/-- Text with the pattern of a CIDv0 whose bytes begin otherwise. -/
def noMultihash : String := "Qmzzzzzzzzzzzzzzzzzzzzzzzzzzzzzzzzzzzzzzzzzzzz"

/-- `1e39`, the nearest number to it. -/
def hugeAmount : Number := Number.ofRat (10 ^ 39)

end EcoMint
