import EcoMint.CouponBatch

/-!
# Exactly when a coupon batch succeeds

The holder loop fails only where a product, a sum or a balance leaves `i128`,
so its success is a list of bounds: on the two shares of every holder, on the
three balances along the accruals, and on the total.  `BatchFits` collects them
with the bounds of the bookkeeping, `Findings.after` is the storage the batch
leaves, and `distributeCouponBatch_ok_iff` says that a batch succeeds exactly if
it finds what it needs, within these bounds.
-/

namespace EcoMint.CouponEngine

open Fallible IntRange Storage

/-! ## The bounds of the holder loop -/

/-- A holder's share at a rate can be computed. -/
def RatioFits (rate balance : Int) : Prop :=
  i128.Fits (rate * balance) ∧ i128.Fits (share rate balance)

/-- What a holder of so many tokens gets can be computed. -/
def SharesFit (creditType : CreditType) (rates : Rates) (balance : Int) : Prop :=
  match creditType with
  | .carbon | .blueCarbon | .biodiversity => RatioFits rates.creditsPerToken balance
  | .basket => RatioFits rates.carbonPerToken balance ∧
      RatioFits rates.biodiversityPerToken balance ∧
      i128.Fits (share rates.carbonPerToken balance + share rates.biodiversityPerToken balance)

/-- What every holder of a slice gets can be computed. -/
def RatiosFit (issuer : BondIssuer.State) (creditType : CreditType) (rates : Rates)
    (bondId : Nat) (slice : List Address) : Prop :=
  ∀ holder ∈ slice, 0 < BondIssuer.getHolderBalance issuer bondId holder →
    SharesFit creditType rates (BondIssuer.getHolderBalance issuer bondId holder)

/-- Accruing the entries one after the other stays within `i128`. -/
def AccrualsFit (bondId periodIndex : Nat) : State → List Entry → Prop
  | _, [] => True
  | s, e :: rest =>
      i128.Fits (s.accruedCreditsByType.read (bondId, e.holder, e.creditType) + e.amount) ∧
      i128.Fits (s.periodHolder.read (bondId, periodIndex, e.holder, e.creditType) + e.amount) ∧
      i128.Fits (s.accruedCredits.read (bondId, e.holder) + e.amount) ∧
      AccrualsFit bondId periodIndex (s.accrueAll bondId periodIndex [e]) rest

theorem accrualsFit_append {bondId periodIndex : Nat} {s : State} {l l' : List Entry} :
    AccrualsFit bondId periodIndex s (l ++ l') ↔
      AccrualsFit bondId periodIndex s l ∧
        AccrualsFit bondId periodIndex (s.accrueAll bondId periodIndex l) l' := by
  induction l generalizing s with
  | nil => simp [AccrualsFit]
  | cons e rest ih =>
      have hcons : s.accrueAll bondId periodIndex (e :: rest) =
          (s.accrueAll bondId periodIndex [e]).accrueAll bondId periodIndex rest :=
        accrueAll_append s bondId periodIndex [e] rest
      rw [List.cons_append, hcons]
      simp only [AccrualsFit, ih, and_assoc]

/-- Only the three ledgers of accrued credits matter. -/
theorem accrualsFit_congr {bondId periodIndex : Nat} {s s' : State} {l : List Entry}
    (hcredits : s'.accruedCredits = s.accruedCredits)
    (htype : s'.accruedCreditsByType = s.accruedCreditsByType)
    (hperiod : s'.periodHolder = s.periodHolder) :
    AccrualsFit bondId periodIndex s' l ↔ AccrualsFit bondId periodIndex s l := by
  induction l generalizing s s' with
  | nil => exact Iff.rfl
  | cons e rest ih =>
      have hrest : AccrualsFit bondId periodIndex (s'.accrueAll bondId periodIndex [e]) rest ↔
          AccrualsFit bondId periodIndex (s.accrueAll bondId periodIndex [e]) rest := by
        apply ih
        · simp only [State.accrueAll, hcredits]
        · simp only [State.accrueAll, htype]
        · simp only [State.accrueAll, hperiod]
      simp only [AccrualsFit, hcredits, htype, hperiod, hrest]

theorem entriesTotal_nonneg {entries : List Entry} (hpos : ∀ e ∈ entries, 0 < e.amount) :
    0 ≤ entriesTotal entries := by
  apply List.sum_nonneg
  intro x hx
  obtain ⟨e, he, rfl⟩ := List.mem_map.mp hx
  exact (hpos e he).le

/-! ## The holder loop -/

/-- The share is computed exactly when its product fits, and is then the exact share. -/
theorem checkedRatio_share_ok_iff {rate balance q : Int} :
    checkedRatio rate balance FIXED_POINT = .ok q ↔
      RatioFits rate balance ∧ share rate balance = q := by
  rw [checkedRatio_ok_iff]
  constructor
  · rintro ⟨-, hproduct, hshare, hq⟩
    exact ⟨⟨hproduct, hshare⟩, hq⟩
  · rintro ⟨⟨hproduct, hshare⟩, hq⟩
    exact ⟨by decide, hproduct, hshare, hq⟩

/-- A positive amount is accrued exactly when the sums fit, and an amount of zero or
less is left out. -/
theorem accruePositive_ok_iff {s s' : State} {bondId periodIndex : Nat} {holder : Address}
    {creditType : CreditType} {amount : Int} :
    accruePositive s bondId periodIndex holder creditType amount = .ok s' ↔
      AccrualsFit bondId periodIndex s (entryOf holder creditType amount) ∧
        s.accrueAll bondId periodIndex (entryOf holder creditType amount) = s' := by
  unfold accruePositive entryOf
  split
  · simp [AccrualsFit, accrueCredits_ok_iff, and_assoc]
  · simp [AccrualsFit]

/-- When a holder can be paid in one credit type. -/
theorem paySingle_pays_iff {bondId periodIndex : Nat} {holder : Address}
    {creditType : CreditType} {rate balance : Int} {paid : Payments} (hrate : 0 ≤ rate)
    (hbalance : 0 ≤ balance) (htotal : i128.Fits paid.totalHolderCredits) :
    (∃ paid', paySingle bondId periodIndex holder creditType rate balance paid = .ok paid') ↔
      RatioFits rate balance ∧
        AccrualsFit bondId periodIndex paid.state
          (entryOf holder creditType (share rate balance)) ∧
        i128.Fits (paid.totalHolderCredits +
          entriesTotal (entryOf holder creditType (share rate balance))) := by
  have hshare := share_nonneg hrate hbalance
  rw [entriesTotal_entryOf hshare]
  simp only [paySingle, bind_ok_iff, checkedRatio_share_ok_iff]
  by_cases hpos : 0 < share rate balance
  · have hentry : entryOf holder creditType (share rate balance) =
        [⟨holder, creditType, share rate balance⟩] := if_pos hpos
    rw [hentry]
    constructor
    · rintro ⟨paid', credits, ⟨hratio, rfl⟩, hpaid⟩
      rw [if_pos hpos] at hpaid
      simp only [bind_ok_iff, okOr_ok_iff, checkedAdd, checked_eq_some,
        accrueCredits_ok_iff] at hpaid
      obtain ⟨_, ⟨hsum, rfl⟩, _, ⟨h1, h2, h3, -⟩, -⟩ := hpaid
      exact ⟨hratio, ⟨h1, h2, h3, trivial⟩, hsum⟩
    · rintro ⟨hratio, ⟨h1, h2, h3, -⟩, hsum⟩
      refine ⟨⟨paid.state.accrueAll bondId periodIndex [⟨holder, creditType, share rate balance⟩],
        paid.totalHolderCredits + share rate balance, paid.holderCount + 1⟩, _,
        ⟨hratio, rfl⟩, ?_⟩
      rw [if_pos hpos]
      simp only [bind_ok_iff, okOr_ok_iff, checkedAdd, checked_eq_some, accrueCredits_ok_iff,
        pure_ok_iff]
      exact ⟨_, ⟨hsum, rfl⟩, _, ⟨h1, h2, h3, rfl⟩, rfl⟩
  · have hzero : share rate balance = 0 := by omega
    have hentry : entryOf holder creditType (share rate balance) = [] := if_neg hpos
    rw [hentry, hzero, Int.add_zero]
    constructor
    · rintro ⟨paid', credits, ⟨hratio, -⟩, -⟩
      exact ⟨hratio, trivial, htotal⟩
    · rintro ⟨hratio, -, -⟩
      exact ⟨paid, 0, ⟨hratio, rfl⟩, if_neg (by decide)⟩

/-- When a holder can be paid both parts of a basket. -/
theorem payBasket_pays_iff {bondId periodIndex : Nat} {holder : Address}
    {carbonRate biodiversityRate balance : Int} {paid : Payments} (hcarbon : 0 ≤ carbonRate)
    (hbiodiversity : 0 ≤ biodiversityRate) (hbalance : 0 ≤ balance)
    (htotal : i128.Fits paid.totalHolderCredits) :
    (∃ paid', payBasket bondId periodIndex holder carbonRate biodiversityRate balance paid =
        .ok paid') ↔
      (RatioFits carbonRate balance ∧ RatioFits biodiversityRate balance ∧
        i128.Fits (share carbonRate balance + share biodiversityRate balance)) ∧
      AccrualsFit bondId periodIndex paid.state
        (entryOf holder .carbon (share carbonRate balance) ++
          entryOf holder .biodiversity (share biodiversityRate balance)) ∧
      i128.Fits (paid.totalHolderCredits +
        (share carbonRate balance + share biodiversityRate balance)) := by
  have hc := share_nonneg hcarbon hbalance
  have hb := share_nonneg hbiodiversity hbalance
  rw [accrualsFit_append]
  simp only [payBasket, bind_ok_iff, checkedRatio_share_ok_iff, okOr_ok_iff, checkedAdd,
    checked_eq_some]
  by_cases hpos : 0 < share carbonRate balance + share biodiversityRate balance
  · constructor
    · rintro ⟨paid', _, ⟨hratioC, rfl⟩, _, ⟨hratioB, rfl⟩, _, ⟨hsum, rfl⟩, hpaid⟩
      rw [if_pos hpos] at hpaid
      simp only [bind_ok_iff, okOr_ok_iff, checked_eq_some, accruePositive_ok_iff] at hpaid
      obtain ⟨_, ⟨htotal', rfl⟩, _, ⟨hfitsC, rfl⟩, _, ⟨hfitsB, -⟩, -⟩ := hpaid
      exact ⟨⟨hratioC, hratioB, hsum⟩, ⟨hfitsC, hfitsB⟩, htotal'⟩
    · rintro ⟨⟨hratioC, hratioB, hsum⟩, ⟨hfitsC, hfitsB⟩, htotal'⟩
      let state := paid.state.accrueAll bondId periodIndex
        (entryOf holder .carbon (share carbonRate balance))
      refine ⟨⟨state.accrueAll bondId periodIndex
          (entryOf holder .biodiversity (share biodiversityRate balance)),
        paid.totalHolderCredits + (share carbonRate balance + share biodiversityRate balance),
        paid.holderCount + 1⟩, _, ⟨hratioC, rfl⟩, _, ⟨hratioB, rfl⟩, _, ⟨hsum, rfl⟩, ?_⟩
      rw [if_pos hpos]
      simp only [bind_ok_iff, okOr_ok_iff, checked_eq_some, accruePositive_ok_iff, pure_ok_iff]
      exact ⟨_, ⟨htotal', rfl⟩, _, ⟨hfitsC, rfl⟩, _, ⟨hfitsB, rfl⟩, rfl⟩
  · have hc0 : share carbonRate balance = 0 := by omega
    have hb0 : share biodiversityRate balance = 0 := by omega
    rw [hc0, hb0]
    constructor
    · rintro ⟨paid', _, ⟨hratioC, -⟩, _, ⟨hratioB, -⟩, -⟩
      exact ⟨⟨hratioC, hratioB, by decide⟩, ⟨trivial, trivial⟩, by simpa using htotal⟩
    · rintro ⟨⟨hratioC, hratioB, -⟩, -⟩
      exact ⟨paid, 0, ⟨hratioC, rfl⟩, 0, ⟨hratioB, rfl⟩, 0, ⟨by decide, rfl⟩,
        if_neg (by decide)⟩

/-- When one holder can be paid. -/
theorem payIfHolding_pays_iff {creditType : CreditType} {rates : Rates}
    {bondId periodIndex : Nat} {holder : Address} {balance : Int} {paid : Payments}
    (hrates : rates.Nonneg) (htotal : i128.Fits paid.totalHolderCredits) :
    (∃ paid', payIfHolding creditType rates bondId periodIndex holder balance paid = .ok paid') ↔
      (0 < balance → SharesFit creditType rates balance) ∧
        AccrualsFit bondId periodIndex paid.state
          (holderEntries creditType rates balance holder) ∧
        i128.Fits (paid.totalHolderCredits +
          entriesTotal (holderEntries creditType rates balance holder)) := by
  unfold payIfHolding holderEntries
  by_cases hbalance : 0 < balance
  · have hle : ¬ balance ≤ 0 := by omega
    rw [if_pos hbalance, if_neg hle]
    simp only [hbalance, true_imp_iff]
    cases creditType with
    | carbon => exact paySingle_pays_iff hrates.credits hbalance.le htotal
    | blueCarbon => exact paySingle_pays_iff hrates.credits hbalance.le htotal
    | biodiversity => exact paySingle_pays_iff hrates.credits hbalance.le htotal
    | basket =>
        have hc := share_nonneg hrates.carbon hbalance.le
        have hb := share_nonneg hrates.biodiversity hbalance.le
        rw [entriesTotal_append, entriesTotal_entryOf hc, entriesTotal_entryOf hb]
        exact payBasket_pays_iff hrates.carbon hrates.biodiversity hbalance.le htotal
  · have hle : balance ≤ 0 := by omega
    rw [if_neg hbalance, if_pos hle]
    simp [AccrualsFit, entriesTotal, hbalance, htotal]

theorem sliceEntries_cons (issuer : BondIssuer.State) (creditType : CreditType) (rates : Rates)
    (bondId : Nat) (holder : Address) (rest : List Address) :
    sliceEntries issuer creditType rates bondId (holder :: rest) =
      holderEntries creditType rates (BondIssuer.getHolderBalance issuer bondId holder) holder ++
        sliceEntries issuer creditType rates bondId rest :=
  List.flatMap_cons ..

theorem sliceEntries_append (issuer : BondIssuer.State) (creditType : CreditType) (rates : Rates)
    (bondId : Nat) (slice rest : List Address) :
    sliceEntries issuer creditType rates bondId (slice ++ rest) =
      sliceEntries issuer creditType rates bondId slice ++
        sliceEntries issuer creditType rates bondId rest :=
  List.flatMap_append ..

/-- A sum of nonnegative parts fits exactly if all of it does. -/
theorem fits_add_add_iff {total part rest : Int} (htotal : i128.Fits total) (hpart : 0 ≤ part)
    (hrest : 0 ≤ rest) :
    i128.Fits (total + part) ∧ i128.Fits (total + part + rest) ↔
      i128.Fits (total + (part + rest)) := by
  simp only [Fits] at *
  omega

theorem holderEntries_total_nonneg (creditType : CreditType) (rates : Rates) (balance : Int)
    (holder : Address) : 0 ≤ entriesTotal (holderEntries creditType rates balance holder) :=
  entriesTotal_nonneg fun _ he => (mem_holderEntries he).1

theorem sliceEntries_total_nonneg (issuer : BondIssuer.State) (creditType : CreditType)
    (rates : Rates) (bondId : Nat) (slice : List Address) :
    0 ≤ entriesTotal (sliceEntries issuer creditType rates bondId slice) :=
  entriesTotal_nonneg fun _ he => (mem_sliceEntries he).1

/-- The holders at the positions of a loop are new there. -/
def FreshBetween (holders : List Address) (start stop : Nat) : Prop :=
  ∀ j holder, start ≤ j → j < stop → holders[j]? = some holder → holder ∉ holders.take j

/-- The holders of a stretch are new there exactly when those of its two parts are. -/
theorem freshBetween_split {holders : List Address} {start middle stop : Nat}
    (hstart : start ≤ middle) (hstop : middle ≤ stop) :
    FreshBetween holders start stop ↔
      FreshBetween holders start middle ∧ FreshBetween holders middle stop := by
  constructor
  · intro h
    constructor
    · intro j holder hle hlt
      exact h j holder hle (by omega)
    · intro j holder hle hlt
      exact h j holder (by omega) hlt
  · rintro ⟨hfirst, hsecond⟩ j holder hle hlt
    by_cases hj : j < middle
    · exact hfirst j holder hle hj
    · exact hsecond j holder (by omega) hlt

/-- **When the loop finishes**: its positions are in the list, its holders are
new, and everything it computes stays within bounds. -/
theorem payHolders_pays_iff {issuer : BondIssuer.State} {creditType : CreditType} {rates : Rates}
    {bondId periodIndex : Nat} {holders : List Address} {remaining i : Nat} {paid : Payments}
    (hrates : rates.Nonneg) (htotal : i128.Fits paid.totalHolderCredits)
    (hend : i + remaining ≤ holders.length) :
    (∃ paid', payHolders issuer creditType rates bondId periodIndex holders remaining i paid =
        .ok paid') ↔
      FreshBetween holders i (i + remaining) ∧
        RatiosFit issuer creditType rates bondId ((holders.drop i).take remaining) ∧
        AccrualsFit bondId periodIndex paid.state
          (sliceEntries issuer creditType rates bondId ((holders.drop i).take remaining)) ∧
        i128.Fits (paid.totalHolderCredits + entriesTotal
          (sliceEntries issuer creditType rates bondId ((holders.drop i).take remaining))) := by
  induction remaining generalizing i paid with
  | zero =>
      constructor
      · intro _
        refine ⟨fun j holder hle hlt => by omega, fun holder hmem => ?_, trivial, ?_⟩
        · simp at hmem
        · simpa [sliceEntries, entriesTotal] using htotal
      · intro _
        exact ⟨paid, rfl⟩
  | succ remaining ih =>
      have hlt : i < holders.length := by omega
      have hget : holders[i]? = some holders[i] := List.getElem?_eq_getElem hlt
      have hslice : (holders.drop i).take (remaining + 1) =
          holders[i] :: (holders.drop (i + 1)).take remaining := by
        rw [List.drop_eq_getElem_cons hlt, List.take_succ_cons]
      have hfresh : FreshBetween holders i (i + (remaining + 1)) ↔
          holders[i] ∉ holders.take i ∧ FreshBetween holders (i + 1) (i + 1 + remaining) := by
        rw [freshBetween_split (Nat.le_succ i) (by omega),
          show i + (remaining + 1) = i + 1 + remaining by omega]
        refine and_congr_left fun _ => ?_
        constructor
        · intro h
          exact h i holders[i] le_rfl (Nat.lt_succ_self i) hget
        · intro h j holder hle hlt' hget'
          obtain rfl : j = i := by omega
          obtain rfl : holders[j] = holder := by simpa [hget] using hget'
          exact h
      rw [hslice, sliceEntries_cons, accrualsFit_append, entriesTotal_append, hfresh]
      have hpart := holderEntries_total_nonneg creditType rates
        (BondIssuer.getHolderBalance issuer bondId holders[i]) holders[i]
      have hrest := sliceEntries_total_nonneg issuer creditType rates bondId
        ((holders.drop (i + 1)).take remaining)
      rw [← fits_add_add_iff htotal hpart hrest]
      constructor
      · rintro ⟨paid', h⟩
        simp only [payHolders, bind_ok_iff, okOr_ok_iff, rejectIf_ok_iff, hget,
          Option.some.injEq] at h
        obtain ⟨_, rfl, _, hnew, middle, hpay, hloop⟩ := h
        obtain ⟨hshares, haccruals, hsum⟩ :=
          (payIfHolding_pays_iff hrates htotal).mp ⟨middle, hpay⟩
        obtain ⟨hstate, hmiddle⟩ := payIfHolding_ok hrates hpay
        rw [← hmiddle] at hsum
        obtain ⟨hfreshRest, hratios, haccrualsRest, hsumRest⟩ :=
          (ih hsum (by omega)).mp ⟨paid', hloop⟩
        rw [hmiddle] at hsum hsumRest
        rw [hstate] at haccrualsRest
        refine ⟨⟨by simpa [appearsBefore] using hnew, hfreshRest⟩, ?_,
          ⟨haccruals, haccrualsRest⟩, hsum, hsumRest⟩
        intro holder hmem
        rcases List.mem_cons.mp hmem with rfl | hmem
        · exact hshares
        · exact hratios holder hmem
      · rintro ⟨⟨hnew, hfreshRest⟩, hratios, ⟨haccruals, haccrualsRest⟩, hsum, hsumRest⟩
        obtain ⟨middle, hpay⟩ := (payIfHolding_pays_iff hrates htotal).mpr
          ⟨hratios _ (List.mem_cons_self ..), haccruals, hsum⟩
        obtain ⟨hstate, hmiddle⟩ := payIfHolding_ok hrates hpay
        rw [← hmiddle] at hsum hsumRest
        rw [← hstate] at haccrualsRest
        obtain ⟨paid', hloop⟩ := (ih hsum (by omega)).mpr
          ⟨hfreshRest, fun holder hmem => hratios holder (List.mem_cons_of_mem _ hmem),
            haccrualsRest, hsumRest⟩
        refine ⟨paid', ?_⟩
        simp only [payHolders, bind_ok_iff, okOr_ok_iff, rejectIf_ok_iff, hget,
          Option.some.injEq]
        exact ⟨_, rfl, (), by simpa [appearsBefore] using hnew, middle, hpay, hloop⟩

/-! ## The batch as a whole -/

/-- Everything a batch computes stays within its type. -/
structure BatchFits (s : State) (batch : Batch) (f : Findings) : Prop where
  worth : i128.Fits f.totalCredits
  stop : u32.Fits batch.stop
  ratios : RatiosFit f.issuer f.creditType f.rates batch.bondId batch.slice
  accruals : AccrualsFit batch.bondId batch.periodIndex s (f.entries batch)
  paid : i128.Fits (entriesTotal (f.entries batch))
  earned : i128.Fits (earnedBefore s batch.period + entriesTotal (f.entries batch))
  rest : batch.stop = batch.holders.length → i128.Fits
    (f.totalCredits - (earnedBefore s batch.period + entriesTotal (f.entries batch)))
  pool : 0 < (f.periodInfo s batch).undistributed → i128.Fits
    (s.undistributedTotal.read batch.bondId + (f.periodInfo s batch).undistributed)

/-- **When a batch succeeds, and what it leaves.**  The caller is the admin, with
its next nonce; the batch is short enough, finds what it needs, and computes
nothing out of range. -/
theorem distributeCouponBatch_ok_iff {env : Env} {peers : Peers} {s s' : State}
    {caller : Address} (batch : Batch) {nonce : Nat} :
    (∃ result, distributeCouponBatch env peers s caller batch.bondId batch.periodIndex
        batch.holders batch.reportId batch.offset batch.limit nonce = .ok (result, s')) ↔
      env.Authorizes caller ∧ nonce = s.nonce.read caller ∧ s.admin = some caller ∧
        batch.limit ≤ MAX_COUPON_BATCH_SIZE ∧
        ∃ f, BatchFound peers s batch f ∧ BatchFits s batch f ∧
          f.after (s.bump caller) batch = s' := by
  have hzero : i128.Fits 0 := by decide
  have hbump : ∀ l, AccrualsFit batch.bondId batch.periodIndex (s.bump caller) l ↔
      AccrualsFit batch.bondId batch.periodIndex s l := fun l => accrualsFit_congr rfl rfl rfl
  constructor
  · rintro ⟨result, h⟩
    simp only [distributeCouponBatch, consumeNonce_ok_iff, bind_ok_iff, pure_ok_iff, okOr_ok_iff,
      orTrap_ok_iff, invoke_ok_iff, rejectIf_ok_iff, not_not, checkPeriod_ok_iff,
      checkSlice_ok_iff, checkedAdd, checked_eq_some, requireAdmin, checkAdmin_ok_iff,
      Env.requireAuth_ok_iff, Prod.mk.injEq, Prod.exists] at h
    obtain ⟨-, hauth, base, ⟨hnonce, hbase⟩, -, hadmin, projectId, hproject, oracleAddress,
      horacleAddress, oracle, horacle, report, hreport, h⟩ := h
    obtain ⟨-, hverified, -, hproject', -, hunpaid, issuerAddress, hissuerAddress, creditType,
      hcreditType, carbonTotal, biodiversityTotal, htotals, h⟩ := h
    obtain ⟨-, ⟨hworth, rfl⟩, issuer, hissuer, totalSubscribed, hsubscribed, creditsPerToken,
      hcredits, carbonPerToken, hcarbon, biodiversityPerToken, hbiodiversity, h⟩ := h
    obtain ⟨-, ⟨hlimit, -, hfits, rfl, hstop, hoffset⟩, paid, hpaid, info, s'', hrecord, -,
      rfl⟩ := h
    subst hbase hproject'
    let f : Findings := ⟨report, creditType, carbonTotal, biodiversityTotal, issuer,
      totalSubscribed, ⟨creditsPerToken, carbonPerToken, biodiversityPerToken⟩⟩
    have hrates : f.rates.Nonneg :=
      ⟨perToken_nonneg hcredits, perToken_nonneg hcarbon, perToken_nonneg hbiodiversity⟩
    rw [Nat.add_sub_cancel_left] at hpaid
    obtain ⟨hfresh, hratios, haccruals, hsum⟩ :=
      (payHolders_pays_iff hrates hzero hstop).mp ⟨paid, hpaid⟩
    obtain ⟨⟨hstate, htotal⟩, -⟩ := payHolders_ok hrates hpaid
    rw [Int.zero_add] at hsum
    rw [htotal, hstate, Int.zero_add] at hrecord
    obtain ⟨hearned, hrest, hpool, -, hafter⟩ := (recordBatch_ok_iff (f := f)).mp hrecord
    refine ⟨hauth, hnonce, hadmin, hlimit, f, ?_, ?_, hafter⟩
    · exact ⟨⟨_, hissuerAddress, hissuer⟩,
        ⟨_, _, horacleAddress, horacle, okOr_ok_iff.mp hreport⟩, hverified, hproject, hcreditType,
        hunpaid, htotals, hsubscribed, hcredits, hcarbon, hbiodiversity, hoffset, hstop, hfresh⟩
    · exact ⟨hworth, hfits, hratios, (hbump _).mp haccruals, hsum, hearned,
        hrest, hpool⟩
  · rintro ⟨hauth, hnonce, hadmin, hlimit, f, hfound, hfits, hafter⟩
    obtain ⟨issuerAddress, hissuerAddress, hissuer⟩ := hfound.issuer
    obtain ⟨oracleAddress, oracle, horacleAddress, horacle, hreport⟩ := hfound.report
    have hrates : f.rates.Nonneg := ⟨perToken_nonneg hfound.creditsPerToken,
      perToken_nonneg hfound.carbonPerToken, perToken_nonneg hfound.biodiversityPerToken⟩
    obtain ⟨paid, hpaid⟩ : ∃ paid, payHolders f.issuer f.creditType f.rates batch.bondId
        batch.periodIndex batch.holders batch.limit batch.offset ⟨s.bump caller, 0, 0⟩ =
          .ok paid := by
      apply (payHolders_pays_iff hrates hzero hfound.stop_le).mpr
      refine ⟨hfound.fresh, hfits.ratios, (hbump _).mpr hfits.accruals, ?_⟩
      rw [Int.zero_add]
      exact hfits.paid
    obtain ⟨⟨hstate, htotal⟩, -⟩ := payHolders_ok hrates hpaid
    have hrecord := (recordBatch_ok_iff (s := s.bump caller) (f := f)).mpr
      ⟨hfits.earned, hfits.rest, hfits.pool, rfl, hafter⟩
    have htotal' : paid.totalHolderCredits = entriesTotal (f.entries batch) := by
      rw [htotal, Int.zero_add]
      rfl
    refine ⟨⟨batch.bondId, batch.periodIndex,
      (f.periodInfo (s.bump caller) batch).totalCreditsEarned, paid.holderCount,
      f.rates.creditsPerToken⟩, ?_⟩
    simp only [distributeCouponBatch, consumeNonce_ok_iff, bind_ok_iff, pure_ok_iff, okOr_ok_iff,
      orTrap_ok_iff, invoke_ok_iff, rejectIf_ok_iff, not_not, checkPeriod_ok_iff,
      checkSlice_ok_iff, checkedAdd, checked_eq_some, requireAdmin, checkAdmin_ok_iff,
      Env.requireAuth_ok_iff, Prod.mk.injEq, Prod.exists]
    refine ⟨(), hauth, _, ⟨hnonce, rfl⟩, (), hadmin, _, hfound.project, _, horacleAddress, _,
      horacle, _, okOr_ok_iff.mpr hreport, (), hfound.verified, (), rfl, (), hfound.unpaid, _,
      hissuerAddress, _, hfound.creditType, _, _, hfound.totals, _, ⟨hfits.worth, rfl⟩, _, hissuer,
      _, hfound.subscribed, _, hfound.creditsPerToken, _, hfound.carbonPerToken, _,
      hfound.biodiversityPerToken, _, ⟨hlimit, ?_, hfits.stop, rfl, hfound.stop_le,
        hfound.offset_eq⟩, paid, ?_, _, _, ?_, rfl, rfl⟩
    · exact (Nat.le_add_right _ _).trans hfound.stop_le
    · rw [Nat.add_sub_cancel_left]
      exact hpaid
    · rw [htotal', hstate]
      exact hrecord

/-- What batches of one bond and one report find is told by what the engine is
registered with. -/
theorem BatchFound.determined {peers : Peers} {s s' : State} {batch batch' : Batch}
    {f f' : Findings} (h : BatchFound peers s batch f) (h' : BatchFound peers s' batch' f')
    (hissuerAddress : s'.bondIssuerAddress = s.bondIssuerAddress)
    (horacleAddress : s'.oracleConsumerAddress = s.oracleConsumerAddress)
    (hcreditType : s'.bondCreditType = s.bondCreditType) (hbond : batch'.bondId = batch.bondId)
    (hreportId : batch'.reportId = batch.reportId) : f = f' := by
  obtain ⟨address, haddress, hissuer⟩ := h.issuer
  obtain ⟨address', haddress', hissuer'⟩ := h'.issuer
  obtain ⟨oracleAddress, oracle, horacleAt, horacle, hreport⟩ := h.report
  obtain ⟨oracleAddress', oracle', horacleAt', horacle', hreport'⟩ := h'.report
  rw [hissuerAddress] at haddress'
  rw [horacleAddress] at horacleAt'
  rw [hreportId] at hreport'
  have hcreditType' := h'.creditType
  have hsubscribed' := h'.subscribed
  rw [hcreditType, hbond] at hcreditType'
  rw [hbond] at hsubscribed'
  obtain rfl := Option.some.inj (haddress.symm.trans haddress')
  obtain rfl := Option.some.inj (horacleAt.symm.trans horacleAt')
  obtain rfl := Option.some.inj (horacle.symm.trans horacle')
  have hsame : f.issuer = f'.issuer := Option.some.inj (hissuer.symm.trans hissuer')
  have hreports : f.report = f'.report := Option.some.inj (hreport.symm.trans hreport')
  have htypes : f.creditType = f'.creditType :=
    Option.some.inj (h.creditType.symm.trans hcreditType')
  have htotals := h.totals
  rw [hreports, htypes] at htotals
  obtain ⟨hcarbon, hbiodiversity⟩ := Prod.mk.inj (Except.ok.inj (htotals.symm.trans h'.totals))
  have hsubscribed := h.subscribed
  rw [hsame] at hsubscribed
  have htotal := Except.ok.inj (hsubscribed.symm.trans hsubscribed')
  have hworth : f.totalCredits = f'.totalCredits := by
    unfold Findings.totalCredits
    rw [hcarbon, hbiodiversity]
  have hcredits := h.creditsPerToken
  have hcarbonRate := h.carbonPerToken
  have hbiodiversityRate := h.biodiversityPerToken
  rw [hworth, htotal] at hcredits
  rw [hcarbon, htotal] at hcarbonRate
  rw [hbiodiversity, htotal] at hbiodiversityRate
  have hrate1 := Except.ok.inj (hcredits.symm.trans h'.creditsPerToken)
  have hrate2 := Except.ok.inj (hcarbonRate.symm.trans h'.carbonPerToken)
  have hrate3 := Except.ok.inj (hbiodiversityRate.symm.trans h'.biodiversityPerToken)
  obtain ⟨report, creditType, carbon, biodiversity, issuer, total, rate1, rate2, rate3⟩ := f
  obtain ⟨report', creditType', carbon', biodiversity', issuer', total', rate1', rate2',
    rate3'⟩ := f'
  simp_all

/-- A batch finds one thing only. -/
theorem BatchFound.unique {peers : Peers} {s : State} {batch : Batch} {f f' : Findings}
    (h : BatchFound peers s batch f) (h' : BatchFound peers s batch f') : f = f' :=
  h.determined h' rfl rfl rfl rfl rfl

/-- A successful batch, whichever entry point it came through. -/
theorem exec_batch_ok {env : Env} {peers : Peers} {s s' : State} {call : Call} {out : Output}
    {batch : Batch} (hcall : call.batch? = some batch)
    (h : exec env peers s call = .ok (out, s')) :
    ∃ caller f, BatchFound peers s batch f ∧ BatchFits s batch f ∧
      f.after (s.bump caller) batch = s' := by
  have hpaid : ∀ {caller nonce result}, distributeCouponBatch env peers s caller batch.bondId
      batch.periodIndex batch.holders batch.reportId batch.offset batch.limit nonce =
        .ok (result, s') → ∃ caller f, BatchFound peers s batch f ∧ BatchFits s batch f ∧
          f.after (s.bump caller) batch = s' := by
    intro caller nonce result hresult
    obtain ⟨-, -, -, -, f, hfound, hfits, hafter⟩ :=
      (distributeCouponBatch_ok_iff batch).mp ⟨result, hresult⟩
    exact ⟨caller, f, hfound, hfits, hafter⟩
  cases call with
  | distributeCoupon caller bondId periodIndex holders reportId nonce =>
      obtain rfl := Option.some.inj hcall
      obtain ⟨result, hresult, -⟩ := returning_ok_iff.mp h
      exact hpaid hresult
  | distributeCouponBatch caller bondId periodIndex holders reportId offset limit nonce =>
      obtain rfl := Option.some.inj hcall
      obtain ⟨result, hresult, -⟩ := returning_ok_iff.mp h
      exact hpaid hresult
  | registerBond caller bondId projectId nonce => cases hcall
  | claimCredits caller bondId nonce => cases hcall
  | sweepUndistributed caller bondId nonce => cases hcall
  | setAdmin currentAdmin newAdmin nonce => cases hcall

end EcoMint.CouponEngine
