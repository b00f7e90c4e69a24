import EcoMint.Anomaly
import EcoMint.BondIssuer

/-!
# A coupon schedule on its way to the ledger

The form parses a text into dates and checks them against its clock, parses the
text once more when it is sent, and the API checks what arrives against a clock of
its own.  Then the dates are encoded as whole numbers, and the contract looks at
them again: it wants some, and all of them before maturity.

The two programs check the same thing, which is what the schedule's documentation
asks for, and the two parsers of the form agree on every schedule that passes.  A
schedule that has passed is never what the contract refuses a bond for.  Neither
check asks for whole numbers, so dates with a fraction get as far as the encoding
and fail there.
-/

namespace EcoMint.CouponSchedule

open BondIssuer Fallible

/-! ## The form -/

/-- `Number(text)` where it is finite.  The empty text is zero; what the digits of
any other text say is left to `parse`. -/
def number (parse : List Char → Option ℚ) (text : List Char) : Option ℚ :=
  if text = [] then some 0 else parse text

/-- The dates in a text, split at the commas; `none` is `NaN`. -/
def parseCouponSchedule (parse : List Char → Option ℚ) (raw : List Char) : List (Option ℚ) :=
  (((raw.splitOn ',').map Anomaly.trim).filter fun v => 0 < v.length).map (number parse)

/-- What the validator may find. -/
inductive ScheduleError
  | couponEmpty
  | couponPast
  | couponAfterMaturity
  | couponUnordered
deriving DecidableEq, Repr

/-- The loop of the form, with the date before. -/
def checkDates (nowSeconds maturityDate : ℚ) : Option ℚ → List ℚ → Option ScheduleError
  | _, [] => none
  | previous, date :: dates =>
      if date ≤ nowSeconds then some .couponPast
      else if maturityDate ≤ date then some .couponAfterMaturity
      else if previous.any (date ≤ ·) then some .couponUnordered
      else checkDates nowSeconds maturityDate (some date) dates

/-- The validator of the form; without a maturity date it finds nothing. -/
def couponScheduleGroupValidator (parse : List Char → Option ℚ) (nowSeconds : Nat)
    (maturityDate : Option ℚ) (raw : List Char) : Option ScheduleError :=
  match maturityDate with
  | none => none
  | some maturityDate =>
      let dates := parseCouponSchedule parse raw
      if dates.length = 0 ∨ none ∈ dates then some .couponEmpty
      else checkDates nowSeconds maturityDate none (dates.filterMap id)

/-- `submit`: the schedule that is sent -/
def submitted (parse : List Char → Option ℚ) (raw : List Char) : List ℚ :=
  (((raw.splitOn ',').map fun v => number parse (Anomaly.trim v)).filterMap id).filter (0 < ·)

/-! ## The API -/

/-- The loop of the API, with the date before. -/
def validateDates (nowSeconds maturityDate : ℚ) : Option ℚ → List ℚ → Bool
  | _, [] => true
  | previous, date :: dates =>
      if date ≤ nowSeconds then false
      else if maturityDate ≤ date then false
      else if previous.any (date ≤ ·) then false
      else validateDates nowSeconds maturityDate (some date) dates

/-- `IsValidCouponScheduleConstraint.validate`; `none` stands for whatever is no finite
number. -/
def validate (nowSeconds : Nat) (maturityDate : Option ℚ) (couponSchedule : List (Option ℚ)) :
    Bool :=
  if couponSchedule.length = 0 then false
  else if none ∈ couponSchedule then false
  else
    match maturityDate with
    | none => true
    | some maturityDate => validateDates nowSeconds maturityDate none (couponSchedule.filterMap id)

/-- `nativeToScVal(BigInt(ts), { type: 'u64' })`, which throws for a fraction and for what
does not fit -/
def encodeDate (ts : ℚ) : Option Nat :=
  if ts.den = 1 ∧ 0 ≤ ts ∧ ts < 2 ^ 64 then some ts.num.toNat else none

/-- `encodeBondConfig`: the schedule -/
def encodeSchedule : List ℚ → Option (List Nat)
  | [] => some []
  | ts :: couponSchedule => do
      let date ← encodeDate ts
      let dates ← encodeSchedule couponSchedule
      return date :: dates

/-! ## What is checked -/

/-- The rules of the documentation. -/
structure Valid (nowSeconds maturityDate : ℚ) (dates : List ℚ) : Prop where
  ne_nil : dates ≠ []
  future : ∀ date ∈ dates, nowSeconds < date
  before_maturity : ∀ date ∈ dates, date < maturityDate
  ascending : dates.Pairwise (· < ·)

variable {parse : List Char → Option ℚ} {nowSeconds : Nat} {maturityDate now maturity : ℚ}
  {raw : List Char} {dates : List ℚ} {previous : Option ℚ}

/-- The two loops go the same way. -/
theorem validateDates_iff :
    validateDates now maturity previous dates = true ↔
      checkDates now maturity previous dates = none := by
  induction dates generalizing previous with
  | nil => simp [validateDates, checkDates]
  | cons date dates ih =>
      unfold validateDates checkDates
      split_ifs
      · simp
      · simp
      · simp
      · exact ih

/-- The loop finds nothing exactly if every date is in time and they ascend. -/
theorem checkDates_eq_none :
    checkDates now maturity previous dates = none ↔
      (∀ date ∈ dates, now < date) ∧ (∀ date ∈ dates, date < maturity) ∧
        (previous.toList ++ dates).IsChain (· < ·) := by
  induction dates generalizing previous with
  | nil => cases previous <;> simp [checkDates]
  | cons date dates ih =>
      have hjoint : (previous.toList ++ date :: dates).IsChain (· < ·) ↔
          ¬ previous.any (date ≤ ·) = true ∧ (date :: dates).IsChain (· < ·) := by
        cases previous <;> simp [List.isChain_cons_cons]
      unfold checkDates
      rw [hjoint]
      split_ifs with hpast hafter horder
      · simp [hpast]
      · simp [hafter]
      · simp [horder]
      · rw [ih]
        simp only [Option.toList_some, List.cons_append, List.nil_append, List.forall_mem_cons]
        exact ⟨fun h => ⟨⟨not_le.mp hpast, h.1⟩, ⟨not_le.mp hafter, h.2.1⟩, horder, h.2.2⟩,
          fun h => ⟨h.1.2, h.2.1.2, h.2.2.2⟩⟩

/-- A schedule is valid exactly if it has dates and the loop finds nothing. -/
theorem valid_iff :
    Valid now maturity dates ↔ dates ≠ [] ∧ checkDates now maturity none dates = none := by
  rw [checkDates_eq_none, Option.toList_none, List.nil_append, List.isChain_iff_pairwise]
  exact ⟨fun h => ⟨h.ne_nil, h.future, h.before_maturity, h.ascending⟩,
    fun h => ⟨h.1, h.2.1, h.2.2.1, h.2.2.2⟩⟩

/-- Where every date is a number, the list is that of the numbers. -/
theorem map_some_of_notMem {l : List (Option ℚ)} (h : none ∉ l) :
    l = (l.filterMap id).map some := by
  induction l with
  | nil => rfl
  | cons date l ih =>
      cases date with
      | none => exact absurd (List.mem_cons_self ..) h
      | some date =>
          rw [List.filterMap_cons_some (f := id) rfl, List.map_cons,
            ← ih fun hmem => h (List.mem_cons_of_mem _ hmem)]

@[simp] theorem filterMap_map_some (dates : List ℚ) : (dates.map some).filterMap id = dates := by
  simp [List.filterMap_map]

/-- What the form and the API ask for. -/
theorem accepts_iff {l : List (Option ℚ)} :
    (l.length ≠ 0 ∧ none ∉ l ∧ checkDates now maturity none (l.filterMap id) = none) ↔
      ∃ dates, l = dates.map some ∧ Valid now maturity dates := by
  constructor
  · rintro ⟨hne, hfinite, hloop⟩
    have hl := map_some_of_notMem hfinite
    refine ⟨l.filterMap id, hl, valid_iff.mpr ⟨fun hnil => hne ?_, hloop⟩⟩
    rw [hl, hnil]
    rfl
  · rintro ⟨dates, rfl, hvalid⟩
    obtain ⟨hne, hloop⟩ := valid_iff.mp hvalid
    refine ⟨by simpa using hne, by simp, ?_⟩
    rwa [filterMap_map_some]

/-- The validator of the list passes exactly the valid schedules. -/
theorem validate_iff {l : List (Option ℚ)} :
    validate nowSeconds (some maturity) l = true ↔
      ∃ dates, l = dates.map some ∧ Valid nowSeconds maturity dates := by
  rw [← accepts_iff]
  unfold validate
  split_ifs with hempty hnone
  · simp [hempty]
  · simp [hnone]
  · simp only [validateDates_iff]
    exact ⟨fun h => ⟨hempty, hnone, h⟩, fun h => h.2.2⟩

/-- So does that of the form. -/
theorem groupValidator_iff :
    couponScheduleGroupValidator parse nowSeconds (some maturity) raw = none ↔
      ∃ dates, parseCouponSchedule parse raw = dates.map some ∧
        Valid nowSeconds maturity dates := by
  rw [← accepts_iff]
  unfold couponScheduleGroupValidator
  dsimp only
  split_ifs with hempty
  · refine ⟨nofun, ?_⟩
    rintro ⟨hne, hnone, -⟩
    exact hempty.elim hne hnone
  · rw [not_or] at hempty
    exact ⟨fun h => ⟨hempty.1, hempty.2, h⟩, fun h => h.2.2⟩

/-! ## What is sent -/

theorem number_nil : number parse [] = some 0 := if_pos rfl

/-- The second parser keeps what the first finds, as long as that is positive: what is
empty counts as zero there, and goes. -/
theorem kept_eq {parts : List (List Char)}
    (hparts : (parts.filter fun v => 0 < v.length).map (number parse) = dates.map some)
    (hpos : ∀ date ∈ dates, 0 < date) :
    ((parts.map (number parse)).filterMap id).filter (0 < ·) = dates := by
  induction parts generalizing dates with
  | nil =>
      cases dates with
      | nil => rfl
      | cons date dates => cases hparts
  | cons part parts ih =>
      by_cases hpart : part = []
      · subst hpart
        rw [List.filter_cons_of_neg (by simp)] at hparts
        simpa [number_nil] using ih hparts hpos
      · have hlength : 0 < part.length := List.length_pos_iff.mpr hpart
        rw [List.filter_cons_of_pos (by simpa using hlength), List.map_cons] at hparts
        cases dates with
        | nil => cases hparts
        | cons date dates =>
            rw [List.map_cons, List.cons.injEq] at hparts
            have hrest := ih hparts.2 fun d hd => hpos d (List.mem_cons_of_mem _ hd)
            have hdate : 0 < date := hpos date (List.mem_cons_self ..)
            rw [List.map_cons, hparts.1, List.filterMap_cons_some (f := id) rfl,
              List.filter_cons_of_pos (by simpa using hdate), hrest]

/-- What a valid form submits is its dates. -/
theorem submitted_eq (hparse : parseCouponSchedule parse raw = dates.map some)
    (hvalid : Valid nowSeconds maturity dates) : submitted parse raw = dates := by
  have hkept := kept_eq hparse fun date hdate =>
    lt_of_le_of_lt (Nat.cast_nonneg nowSeconds) (hvalid.future date hdate)
  rwa [List.map_map] at hkept

/-! ## The ledger -/

theorem encodeDate_eq_some {ts : ℚ} {date : Nat} (h : encodeDate ts = some date) :
    (date : ℚ) = ts := by
  unfold encodeDate at h
  split_ifs at h with hts
  obtain ⟨hden, hnonneg, -⟩ := hts
  cases h
  have hnum : ((ts.num.toNat : ℤ) : ℚ) = ts := by
    rw [Int.toNat_of_nonneg (Rat.num_nonneg.mpr hnonneg)]
    exact Rat.coe_int_num_of_den_eq_one hden
  exact_mod_cast hnum

/-- A date is not encoded exactly if it is no whole number, or too great. -/
theorem encodeDate_eq_none {ts : ℚ} (hpos : 0 ≤ ts) :
    encodeDate ts = none ↔ ts.den ≠ 1 ∨ 2 ^ 64 ≤ ts := by
  unfold encodeDate
  split_ifs with hts
  · simp only [false_iff, not_or, not_not, not_le]
    exact ⟨hts.1, hts.2.2⟩
  · simp only [true_iff]
    by_contra hnot
    rw [not_or, not_not, not_le] at hnot
    exact hts ⟨hnot.1, hpos, hnot.2⟩

theorem encodeSchedule_eq_some {encoded : List Nat} (h : encodeSchedule dates = some encoded) :
    encoded.map (Nat.cast : Nat → ℚ) = dates := by
  induction dates generalizing encoded with
  | nil =>
      cases h
      rfl
  | cons ts dates ih =>
      simp only [encodeSchedule, Option.bind_eq_bind, Option.bind_eq_some_iff, Option.pure_def,
        Option.some.injEq] at h
      obtain ⟨date, hdate, rest, hrest, rfl⟩ := h
      rw [List.map_cons, encodeDate_eq_some hdate, ih hrest]

/-- A schedule is not encoded exactly if one of its dates is not. -/
theorem encodeSchedule_eq_none :
    encodeSchedule dates = none ↔ ∃ ts ∈ dates, encodeDate ts = none := by
  induction dates with
  | nil => simp [encodeSchedule]
  | cons ts dates ih =>
      rw [List.exists_mem_cons_iff, ← ih, encodeSchedule]
      cases encodeDate ts <;> cases encodeSchedule dates <;> simp

variable {env : Env} {registries : Registries} {s : State} {caller : Address}
  {config : BondConfig} {nonce : Nat}

/-- What the contract asks of an issue other than of the schedule. -/
def Issuable (env : Env) (registries : Registries) (s : State) (caller : Address)
    (config : BondConfig) (nonce : Nat) : Prop :=
  env.Authorizes caller ∧ nonce = s.nonce.read caller ∧ s.admin = some caller ∧
    0 < config.faceValue ∧ (0 < config.totalSupply ∧ config.totalSupply ≤ MAX_SUPPLY) ∧
    env.timestamp < config.maturityDate ∧ checkProject registries s config = .ok ()

/-- Where there are dates, all before maturity, nothing else is asked. -/
theorem issueBond_iff (hne : config.couponSchedule ≠ [])
    (hbefore : ∀ couponDate ∈ config.couponSchedule, couponDate < config.maturityDate) :
    (∃ result, issueBond env registries s caller config nonce = .ok result) ↔
      Issuable env registries s caller config nonce := by
  have hlength : ¬ config.couponSchedule.length = 0 := by simpa using hne
  have hnone : ¬ ∃ couponDate ∈ config.couponSchedule, couponDate ≥ config.maturityDate := by
    rintro ⟨couponDate, hmem, hlate⟩
    exact absurd (hbefore couponDate hmem) (not_lt.mpr hlate)
  have hproject : checkProject registries (s.bump caller) config =
      checkProject registries s config := rfl
  simp only [issueBond, bind_ok_iff, consumeNonce_ok_iff, requireAdmin_ok_iff, rejectIf_ok_iff,
    pure_ok_iff]
  constructor
  · rintro ⟨result, _, hauth, _, ⟨hnonce, rfl⟩, _, hadmin, _, hface, _, hsupply, _, hmaturity, _, _,
      _, _, _, hregistry, -⟩
    rw [not_or, not_le, gt_iff_lt, not_lt] at hsupply
    exact ⟨by simpa using hauth, hnonce, hadmin, not_le.mp hface, hsupply, not_le.mp hmaturity,
      hproject ▸ hregistry⟩
  · rintro ⟨hauth, hnonce, hadmin, hface, hsupply, hmaturity, hregistry⟩
    refine ⟨_, (), by simpa using hauth, s.bump caller, ⟨hnonce, rfl⟩, (), hadmin, (),
      not_le.mpr hface, (), ?_, (), not_le.mpr hmaturity, (), hlength, (), hnone, (),
      hproject.trans hregistry, rfl⟩
    rw [not_or, not_le, gt_iff_lt, not_lt]
    exact hsupply

/-- An encoded schedule meets the issuer's conditions on the dates. -/
theorem encoded_before_maturity (hvalid : Valid now config.maturityDate dates)
    (hencode : encodeSchedule dates = some config.couponSchedule) :
    config.couponSchedule ≠ [] ∧
      ∀ couponDate ∈ config.couponSchedule, couponDate < config.maturityDate := by
  have hdates := encodeSchedule_eq_some hencode
  refine ⟨fun hnil => hvalid.ne_nil ?_, fun couponDate hmem => ?_⟩
  · rw [← hdates, hnil]
    rfl
  · have hbefore := hvalid.before_maturity couponDate (by
      rw [← hdates]
      exact List.mem_map_of_mem hmem)
    exact_mod_cast hbefore

/-- A valid schedule is not encoded exactly if a date is no whole number, or too great. -/
theorem encodeSchedule_valid (hvalid : Valid nowSeconds maturity dates) :
    encodeSchedule dates = none ↔ ∃ ts ∈ dates, ts.den ≠ 1 ∨ 2 ^ 64 ≤ ts := by
  rw [encodeSchedule_eq_none]
  refine exists_congr fun ts => and_congr_right fun hmem => encodeDate_eq_none ?_
  exact (Nat.cast_nonneg nowSeconds).trans (hvalid.future ts hmem).le

/-- The form lets a schedule through exactly if what it sends is what it checked and
keeps the rules; the API does exactly if it keeps them by its own clock; what gets
through is lost in the encoding exactly if a date is no whole number that fits; and
otherwise the contract asks no more of it. -/
theorem schedule_rules (parse : List Char → Option ℚ) (nowSeconds : Nat) (maturity : ℚ) :
    (∀ raw, couponScheduleGroupValidator parse nowSeconds (some maturity) raw = none ↔
        parseCouponSchedule parse raw = (submitted parse raw).map some ∧
          Valid nowSeconds maturity (submitted parse raw)) ∧
      (∀ dates : List ℚ, validate nowSeconds (some maturity) (dates.map some) = true ↔
        Valid nowSeconds maturity dates) ∧
      (∀ dates : List ℚ, Valid nowSeconds maturity dates →
        (encodeSchedule dates = none ↔ ∃ ts ∈ dates, ts.den ≠ 1 ∨ 2 ^ 64 ≤ ts)) ∧
      ∀ (dates : List ℚ) (config : BondConfig), Valid nowSeconds maturity dates →
        maturity = config.maturityDate → encodeSchedule dates = some config.couponSchedule →
          ∀ env registries s caller nonce,
            (∃ result, issueBond env registries s caller config nonce = .ok result) ↔
              Issuable env registries s caller config nonce := by
  refine ⟨fun raw => ?_, fun dates => ?_, fun dates => encodeSchedule_valid, ?_⟩
  · rw [groupValidator_iff]
    constructor
    · rintro ⟨dates, hparse, hvalid⟩
      rw [submitted_eq hparse hvalid]
      exact ⟨hparse, hvalid⟩
    · exact fun ⟨hparse, hvalid⟩ => ⟨_, hparse, hvalid⟩
  · rw [validate_iff]
    constructor
    · rintro ⟨dates', heq, hvalid⟩
      rwa [List.map_injective_iff.mpr (Option.some_injective ℚ) heq]
    · exact fun hvalid => ⟨dates, rfl, hvalid⟩
  · rintro dates config hvalid rfl hencode env registries s caller nonce
    obtain ⟨hne, hbefore⟩ := encoded_before_maturity hvalid hencode
    exact issueBond_iff hne hbefore

/-- A date with a fraction passes both checks and has no encoding. -/
example : validate 100 (some 300) [some (401 / 2), some 250] = true ∧
    encodeSchedule [401 / 2, 250] = none := by decide +kernel

end EcoMint.CouponSchedule
