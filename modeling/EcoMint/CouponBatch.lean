import EcoMint.CouponEngine

/-!
# What a coupon batch does

The holder loop of `distribute_coupon_batch` is a list of accruals: one entry
for each holder of the slice and each credit type in which the holder's share
is positive.  `payHolders_ok` computes that list, and `BatchFound` and
`BatchWrote` collect everything a successful batch found and wrote, so that no
later proof opens the loop again.  The other entry points have one such lemma
each.
-/

namespace EcoMint.CouponEngine

open Fallible IntRange Storage

/-! ## Accruals -/

/-- The storage after `addr` used up its nonce. -/
def State.bump (s : State) (addr : Address) : State :=
  { s with nonce := s.nonce.set addr (s.nonce.read addr + 1) }

/-- A nonce is taken if it is the next one, and then one more is used. -/
theorem consumeNonce_ok_iff {s s' : State} {addr : Address} {nonce : Nat} :
    consumeNonce s addr nonce = .ok s' ↔ nonce = s.nonce.read addr ∧ s.bump addr = s' := by
  simp [consumeNonce, State.bump, and_assoc]

/-- One accrual: `amount` credits of a type to a holder. -/
structure Entry where
  holder : Address
  creditType : CreditType
  amount : Int

/-- The storage after accruing a list of entries to a period of a bond. -/
def State.accrueAll (s : State) (bondId periodIndex : Nat) (entries : List Entry) : State :=
  { s with
    accruedCreditsByType := s.accruedCreditsByType.creditAll
      (entries.map fun e => ((bondId, e.holder, e.creditType), e.amount))
    periodHolder := s.periodHolder.creditAll
      (entries.map fun e => ((bondId, periodIndex, e.holder, e.creditType), e.amount))
    accruedCredits := s.accruedCredits.creditAll
      (entries.map fun e => ((bondId, e.holder), e.amount)) }

@[simp] theorem accrueAll_nil (s : State) (bondId periodIndex : Nat) :
    s.accrueAll bondId periodIndex [] = s := rfl

theorem accrueAll_append (s : State) (bondId periodIndex : Nat) (l l' : List Entry) :
    s.accrueAll bondId periodIndex (l ++ l') =
      (s.accrueAll bondId periodIndex l).accrueAll bondId periodIndex l' := by
  simp [State.accrueAll, creditAll_append]

/-- When a holder can be credited, and the state that it leaves. -/
theorem accrueCredits_ok_iff {s s' : State} {bondId periodIndex : Nat} {holder : Address}
    {creditType : CreditType} {amount : Int} :
    accrueCredits s bondId periodIndex holder creditType amount = .ok s' ↔
      i128.Fits (s.accruedCreditsByType.read (bondId, holder, creditType) + amount) ∧
      i128.Fits (s.periodHolder.read (bondId, periodIndex, holder, creditType) + amount) ∧
      i128.Fits (s.accruedCredits.read (bondId, holder) + amount) ∧
      s.accrueAll bondId periodIndex [⟨holder, creditType, amount⟩] = s' := by
  simp [accrueCredits, checkedAdd, State.accrueAll, creditAll, credit]

/-- Credits in a list of entries. -/
def entriesTotal (entries : List Entry) : Int := (entries.map Entry.amount).sum

theorem entriesTotal_append (l l' : List Entry) :
    entriesTotal (l ++ l') = entriesTotal l + entriesTotal l' := by
  simp [entriesTotal]

/-! ## Shares -/

/-- A holder's share at a scaled rate. -/
def share (rate balance : Int) : Int := (rate * balance).tdiv FIXED_POINT

/-- The entry for an amount, if there is anything to accrue. -/
def entryOf (holder : Address) (creditType : CreditType) (amount : Int) : List Entry :=
  if 0 < amount then [⟨holder, creditType, amount⟩] else []

/-- The entries of one holder of a slice. -/
def holderEntries (creditType : CreditType) (rates : Rates) (balance : Int)
    (holder : Address) : List Entry :=
  if balance ≤ 0 then []
  else
    match creditType with
    | .carbon | .blueCarbon =>
        entryOf holder .carbon (share rates.creditsPerToken balance)
    | .biodiversity => entryOf holder .biodiversity (share rates.creditsPerToken balance)
    | .basket =>
        entryOf holder .carbon (share rates.carbonPerToken balance) ++
          entryOf holder .biodiversity (share rates.biodiversityPerToken balance)

/-- The entries of all holders of a slice. -/
def sliceEntries (issuer : BondIssuer.State) (creditType : CreditType) (rates : Rates)
    (bondId : Nat) (slice : List Address) : List Entry :=
  slice.flatMap fun holder =>
    holderEntries creditType rates (BondIssuer.getHolderBalance issuer bondId holder) holder

/-- The rates of a batch are never negative. -/
structure Rates.Nonneg (rates : Rates) : Prop where
  credits : 0 ≤ rates.creditsPerToken
  carbon : 0 ≤ rates.carbonPerToken
  biodiversity : 0 ≤ rates.biodiversityPerToken

/-- When a ratio is computed, and what it is. -/
theorem checkedRatio_ok_iff {value multiplier divisor q : Int} :
    checkedRatio value multiplier divisor = .ok q ↔
      0 < divisor ∧ i128.Fits (value * multiplier) ∧
        i128.Fits ((value * multiplier).tdiv divisor) ∧ (value * multiplier).tdiv divisor = q := by
  simp only [checkedRatio, checkedMul, bind_ok_iff, rejectIf_ok_iff, okOr_ok_iff,
    checked_eq_some, checkedDiv_eq_some, not_le]
  constructor
  · rintro ⟨_, hpos, _, ⟨hfits, rfl⟩, -, hfits', rfl⟩
    exact ⟨hpos, hfits, hfits', rfl⟩
  · rintro ⟨hpos, hfits, hfits', rfl⟩
    exact ⟨(), hpos, _, ⟨hfits, rfl⟩, by omega, hfits', rfl⟩

theorem share_nonneg {rate balance : Int} (hrate : 0 ≤ rate) (hbalance : 0 ≤ balance) :
    0 ≤ share rate balance :=
  Int.tdiv_nonneg (Int.mul_nonneg hrate hbalance) (by decide)

/-- The entry of an amount has it for its total. -/
theorem entriesTotal_entryOf {amount : Int} (h : 0 ≤ amount) (holder : Address)
    (creditType : CreditType) : entriesTotal (entryOf holder creditType amount) = amount := by
  unfold entryOf
  split
  · simp [entriesTotal]
  · simp only [entriesTotal, List.map_nil, List.sum_nil]
    omega

/-! ## The holder loop -/

/-- `paid'` is `paid` with the entries accrued and counted. -/
def Payments.Extends (bondId periodIndex : Nat) (entries : List Entry)
    (paid paid' : Payments) : Prop :=
  paid'.state = paid.state.accrueAll bondId periodIndex entries ∧
    paid'.totalHolderCredits = paid.totalHolderCredits + entriesTotal entries

theorem Payments.Extends.refl (bondId periodIndex : Nat) (paid : Payments) :
    paid.Extends bondId periodIndex [] paid :=
  ⟨rfl, by simp [entriesTotal]⟩

theorem Payments.Extends.trans {bondId periodIndex : Nat} {l l' : List Entry}
    {paid paid' paid'' : Payments} (h : paid.Extends bondId periodIndex l paid')
    (h' : paid'.Extends bondId periodIndex l' paid'') :
    paid.Extends bondId periodIndex (l ++ l') paid'' := by
  obtain ⟨hstate, htotal⟩ := h
  obtain ⟨hstate', htotal'⟩ := h'
  exact ⟨by rw [hstate', hstate, accrueAll_append],
    by rw [htotal', htotal, entriesTotal_append, Int.add_assoc]⟩

/-- A holder of a bond with one credit type is paid its share. -/
theorem paySingle_ok {bondId periodIndex : Nat} {holder : Address} {creditType : CreditType}
    {rate balance : Int} {paid paid' : Payments}
    (h : paySingle bondId periodIndex holder creditType rate balance paid = .ok paid') :
    paid.Extends bondId periodIndex (entryOf holder creditType (share rate balance)) paid' := by
  simp only [paySingle, bind_ok_iff, checkedRatio_ok_iff] at h
  obtain ⟨credits, ⟨-, -, -, hcredits⟩, h⟩ := h
  unfold share entryOf
  rw [hcredits]
  split at h
  · next hpos =>
      simp only [bind_ok_iff, okOr_ok_iff, checkedAdd, checked_eq_some, accrueCredits_ok_iff,
        pure_ok_iff] at h
      obtain ⟨_, ⟨-, rfl⟩, _, ⟨-, -, -, rfl⟩, rfl⟩ := h
      rw [if_pos hpos]
      exact ⟨rfl, by simp [entriesTotal]⟩
  · next hpos =>
      obtain rfl := pure_ok_iff.mp h
      rw [if_neg hpos]
      exact .refl ..

/-- A positive amount is credited, and nothing else. -/
theorem accruePositive_ok {s s' : State} {bondId periodIndex : Nat} {holder : Address}
    {creditType : CreditType} {amount : Int}
    (h : accruePositive s bondId periodIndex holder creditType amount = .ok s') :
    s' = s.accrueAll bondId periodIndex (entryOf holder creditType amount) := by
  unfold accruePositive at h
  unfold entryOf
  split at h
  · next hpos =>
      obtain ⟨-, -, -, rfl⟩ := accrueCredits_ok_iff.mp h
      rw [if_pos hpos]
  · next hpos =>
      obtain rfl := pure_ok_iff.mp h
      rw [if_neg hpos, accrueAll_nil]

/-- Both parts of a basket share are nonnegative, so their sum is positive as
soon as one of them is. -/
theorem payBasket_ok {bondId periodIndex : Nat} {holder : Address}
    {carbonRate biodiversityRate balance : Int} {paid paid' : Payments}
    (hcarbon : 0 ≤ carbonRate) (hbiodiversity : 0 ≤ biodiversityRate) (hbalance : 0 ≤ balance)
    (h : payBasket bondId periodIndex holder carbonRate biodiversityRate balance paid =
      .ok paid') :
    paid.Extends bondId periodIndex
      (entryOf holder .carbon (share carbonRate balance) ++
        entryOf holder .biodiversity (share biodiversityRate balance)) paid' := by
  have hc := share_nonneg hcarbon hbalance
  have hb := share_nonneg hbiodiversity hbalance
  simp only [payBasket, bind_ok_iff, checkedRatio_ok_iff, okOr_ok_iff, checkedAdd,
    checked_eq_some] at h
  obtain ⟨carbon, ⟨-, -, -, hcarbon'⟩, biodiversity, ⟨-, -, -, hbiodiversity'⟩, _,
    ⟨-, rfl⟩, h⟩ := h
  unfold share at hc hb ⊢
  rw [hcarbon'] at hc ⊢
  rw [hbiodiversity'] at hb ⊢
  split at h
  · simp only [bind_ok_iff, okOr_ok_iff, checked_eq_some, pure_ok_iff] at h
    obtain ⟨_, ⟨-, rfl⟩, s₁, h₁, s₂, h₂, rfl⟩ := h
    obtain rfl := accruePositive_ok h₁
    obtain rfl := accruePositive_ok h₂
    refine ⟨(accrueAll_append ..).symm, ?_⟩
    rw [entriesTotal_append, entriesTotal_entryOf hc, entriesTotal_entryOf hb]
  · next hsum =>
      obtain rfl := pure_ok_iff.mp h
      have hc0 : ¬ 0 < carbon := by omega
      have hb0 : ¬ 0 < biodiversity := by omega
      simp only [entryOf, hc0, hb0, if_false, List.append_nil]
      exact .refl ..

/-- A holder is paid by its credit type, and one without tokens is not. -/
theorem payIfHolding_ok {creditType : CreditType} {rates : Rates} {bondId periodIndex : Nat}
    {holder : Address} {balance : Int} {paid paid' : Payments} (hrates : rates.Nonneg)
    (h : payIfHolding creditType rates bondId periodIndex holder balance paid = .ok paid') :
    paid.Extends bondId periodIndex (holderEntries creditType rates balance holder) paid' := by
  unfold payIfHolding at h
  unfold holderEntries
  split at h
  · next hbalance =>
      rw [if_neg (by omega)]
      cases creditType with
      | carbon => exact paySingle_ok h
      | blueCarbon => exact paySingle_ok h
      | biodiversity => exact paySingle_ok h
      | basket => exact payBasket_ok hrates.carbon hrates.biodiversity hbalance.le h
  · next hbalance =>
      obtain rfl := pure_ok_iff.mp h
      rw [if_pos (by omega)]
      exact .refl ..

/-- **Loop lemma.**  A finished loop accrued the entries of its slice, and every
holder of the slice was absent from the list before its own position. -/
theorem payHolders_ok {issuer : BondIssuer.State} {creditType : CreditType} {rates : Rates}
    {bondId periodIndex : Nat} {holders : List Address} {remaining i : Nat}
    {paid paid' : Payments} (hrates : rates.Nonneg)
    (h : payHolders issuer creditType rates bondId periodIndex holders remaining i paid =
      .ok paid') :
    paid.Extends bondId periodIndex
        (sliceEntries issuer creditType rates bondId ((holders.drop i).take remaining)) paid' ∧
      ∀ j holder, i ≤ j → j < i + remaining → holders[j]? = some holder →
        holder ∉ holders.take j := by
  induction remaining generalizing i paid with
  | zero =>
      obtain rfl := pure_ok_iff.mp h
      refine ⟨?_, fun j holder hle hlt => by omega⟩
      simpa [sliceEntries] using Payments.Extends.refl bondId periodIndex paid
  | succ remaining ih =>
      simp only [payHolders, bind_ok_iff, okOr_ok_iff, rejectIf_ok_iff] at h
      obtain ⟨holder, hholder, _, hfresh, middle, hpay, hrest⟩ := h
      obtain ⟨hextends, hfresh'⟩ := ih hrest
      have hslice : (holders.drop i).take (remaining + 1) =
          holder :: (holders.drop (i + 1)).take remaining := by
        obtain ⟨hlt, hget⟩ := List.getElem?_eq_some_iff.mp hholder
        rw [List.drop_eq_getElem_cons hlt, hget, List.take_succ_cons]
      constructor
      · rw [hslice]
        exact (payIfHolding_ok hrates hpay).trans hextends
      · intro j holder' hle hlt hget
        by_cases hj : j = i
        · subst hj
          obtain rfl : holder = holder' := by simpa [hholder] using hget
          simpa [appearsBefore] using hfresh
        · exact hfresh' j holder' (by omega) (by omega) hget

/-- The credit types in which a bond pays its holders. -/
def heldTypes : CreditType → List CreditType
  | .carbon | .blueCarbon => [.carbon]
  | .biodiversity => [.biodiversity]
  | .basket => [.carbon, .biodiversity]

/-- The entry of an amount is positive. -/
theorem mem_entryOf {holder : Address} {creditType : CreditType} {amount : Int} {e : Entry}
    (h : e ∈ entryOf holder creditType amount) :
    0 < amount ∧ e = ⟨holder, creditType, amount⟩ := by
  unfold entryOf at h
  split at h
  · next hpos => exact ⟨hpos, List.mem_singleton.mp h⟩
  · simp at h

/-- Entries are positive, go to their holder, and have a type the bond pays in. -/
theorem mem_holderEntries {creditType : CreditType} {rates : Rates} {balance : Int}
    {holder : Address} {e : Entry} (h : e ∈ holderEntries creditType rates balance holder) :
    0 < e.amount ∧ e.holder = holder ∧ e.creditType ∈ heldTypes creditType := by
  unfold holderEntries at h
  split at h
  · simp at h
  · cases creditType with
    | carbon | blueCarbon | biodiversity =>
        obtain ⟨hpos, rfl⟩ := mem_entryOf h
        exact ⟨hpos, rfl, by simp [heldTypes]⟩
    | basket =>
        rcases List.mem_append.mp h with h | h <;> obtain ⟨hpos, rfl⟩ := mem_entryOf h <;>
          exact ⟨hpos, rfl, by simp [heldTypes]⟩

/-- The entries of a slice are positive and name holders of it. -/
theorem mem_sliceEntries {issuer : BondIssuer.State} {creditType : CreditType} {rates : Rates}
    {bondId : Nat} {slice : List Address} {e : Entry}
    (h : e ∈ sliceEntries issuer creditType rates bondId slice) :
    0 < e.amount ∧ e.holder ∈ slice ∧ e.creditType ∈ heldTypes creditType := by
  obtain ⟨holder, hmem, he⟩ := List.mem_flatMap.mp h
  obtain ⟨hpos, rfl, htype⟩ := mem_holderEntries he
  exact ⟨hpos, hmem, htype⟩

/-! ## The batch as a whole -/

/-- The arguments of a batch, whichever entry point it came through. -/
structure Batch where
  bondId : Nat
  periodIndex : Nat
  holders : List Address
  reportId : Nat
  offset : Nat
  limit : Nat

/-- The holder positions a batch processes. -/
def Batch.slice (batch : Batch) : List Address :=
  (batch.holders.drop batch.offset).take batch.limit

/-- The position after the last one processed. -/
def Batch.stop (batch : Batch) : Nat := batch.offset + batch.limit

/-- The key of the batch's period. -/
def Batch.period (batch : Batch) : Nat × Nat := (batch.bondId, batch.periodIndex)

/-- `distribute_coupon` is the batch that processes the whole list. -/
def Call.batch? : Call → Option Batch
  | .distributeCoupon _ bondId periodIndex holders reportId _ =>
      some ⟨bondId, periodIndex, holders, reportId, 0, holders.length⟩
  | .distributeCouponBatch _ bondId periodIndex holders reportId offset limit _ =>
      some ⟨bondId, periodIndex, holders, reportId, offset, limit⟩
  | _ => none

/-- What a batch found: its report, the bond's credit type, what the report is
worth, and the issuer's view of the bond. -/
structure Findings where
  report : OracleConsumer.Report
  creditType : CreditType
  carbonTotal : Int
  biodiversityTotal : Int
  issuer : BondIssuer.State
  totalSubscribed : Int
  rates : Rates

/-- What a batch's period earns in all. -/
def Findings.totalCredits (f : Findings) : Int := f.carbonTotal + f.biodiversityTotal

/-- Who a batch credits with what. -/
def Findings.entries (f : Findings) (batch : Batch) : List Entry :=
  sliceEntries f.issuer f.creditType f.rates batch.bondId batch.slice

theorem Findings.entries_pos {f : Findings} {batch : Batch} {entry : Entry}
    (h : entry ∈ f.entries batch) : 0 < entry.amount :=
  (mem_sliceEntries h).1

/-- Credits of a period before a batch. -/
def earnedBefore (s : State) (period : Nat × Nat) : Int :=
  ((s.periodInfo.get period).map PeriodInfo.totalCreditsEarned).getD 0

/-- The period record a batch writes. -/
def Findings.periodInfo (f : Findings) (s : State) (batch : Batch) : PeriodInfo where
  periodIndex := batch.periodIndex
  startTime := f.report.periodStart
  endTime := f.report.periodEnd
  totalCreditsEarned := earnedBefore s batch.period + entriesTotal (f.entries batch)
  distributed := decide (batch.stop = batch.holders.length)
  reportId := batch.reportId
  undistributed :=
    if batch.stop = batch.holders.length then
      f.totalCredits - (earnedBefore s batch.period + entriesTotal (f.entries batch))
    else 0

/-- What a batch read before it wrote anything. -/
structure BatchFound (peers : Peers) (s : State) (batch : Batch) (f : Findings) : Prop where
  issuer : ∃ address, s.bondIssuerAddress = some address ∧
    peers.issuerAt address = some f.issuer
  report : ∃ address oracle, s.oracleConsumerAddress = some address ∧
    peers.oracleAt address = some oracle ∧ oracle.report.get batch.reportId = some f.report
  verified : f.report.status = .verified
  project : s.bondProject.get batch.bondId = some f.report.projectId
  creditType : s.bondCreditType.get batch.bondId = some f.creditType
  unpaid : ∀ info, s.periodInfo.get batch.period = some info →
    info.distributed = false ∧ info.reportId = batch.reportId
  totals : creditTotals f.creditType f.report = .ok (f.carbonTotal, f.biodiversityTotal)
  subscribed : BondIssuer.totalSubscribed f.issuer batch.bondId = .ok f.totalSubscribed
  creditsPerToken : perToken f.totalCredits f.totalSubscribed = .ok f.rates.creditsPerToken
  carbonPerToken : perToken f.carbonTotal f.totalSubscribed = .ok f.rates.carbonPerToken
  biodiversityPerToken :
    perToken f.biodiversityTotal f.totalSubscribed = .ok f.rates.biodiversityPerToken
  offset_eq : batch.offset = s.periodBatchCursor.read batch.period
  stop_le : batch.stop ≤ batch.holders.length
  fresh : ∀ j holder, batch.offset ≤ j → j < batch.stop → batch.holders[j]? = some holder →
    holder ∉ batch.holders.take j

/-- The storage after a batch, its nonce apart. -/
def Findings.after (f : Findings) (s : State) (batch : Batch) : State :=
  { s.accrueAll batch.bondId batch.periodIndex (f.entries batch) with
    periodInfo := s.periodInfo.set batch.period (f.periodInfo s batch)
    periodBatchCursor := s.periodBatchCursor.set batch.period batch.stop
    undistributedTotal :=
      if 0 < (f.periodInfo s batch).undistributed then
        s.undistributedTotal.set batch.bondId
          (s.undistributedTotal.read batch.bondId + (f.periodInfo s batch).undistributed)
      else s.undistributedTotal
    periodCount :=
      if batch.stop = batch.holders.length then
        s.periodCount.set batch.bondId (s.periodCount.read batch.bondId + 1)
      else s.periodCount }

/-- What a batch wrote. -/
structure BatchWrote (s s' : State) (batch : Batch) (f : Findings) : Prop where
  accruedCredits : s'.accruedCredits = s.accruedCredits.creditAll
    ((f.entries batch).map fun e => ((batch.bondId, e.holder), e.amount))
  accruedCreditsByType : s'.accruedCreditsByType = s.accruedCreditsByType.creditAll
    ((f.entries batch).map fun e => ((batch.bondId, e.holder, e.creditType), e.amount))
  periodInfo : s'.periodInfo = s.periodInfo.set batch.period (f.periodInfo s batch)
  periodBatchCursor : s'.periodBatchCursor = s.periodBatchCursor.set batch.period batch.stop
  undistributedTotal : ∀ b, s'.undistributedTotal.read b = s.undistributedTotal.read b +
    if b = batch.bondId ∧ batch.stop = batch.holders.length then
      max (f.periodInfo s batch).undistributed 0
    else 0
  bondProject : s'.bondProject = s.bondProject
  bondCreditType : s'.bondCreditType = s.bondCreditType
  bondIssuerAddress : s'.bondIssuerAddress = s.bondIssuerAddress
  oracleConsumerAddress : s'.oracleConsumerAddress = s.oracleConsumerAddress

theorem perToken_nonneg {total totalSubscribed rate : Int}
    (h : perToken total totalSubscribed = .ok rate) : 0 ≤ rate := by
  unfold perToken at h
  split at h
  · next hpos =>
      obtain ⟨-, -, -, rfl⟩ := checkedRatio_ok_iff.mp h
      exact Int.tdiv_nonneg (Int.mul_nonneg hpos.2.le (by decide)) hpos.1.le
  · exact (pure_ok_iff.mp h).le

/-- A period can be paid if it has no record, or an unfinished one of this report. -/
theorem checkPeriod_ok_iff {existing : Option PeriodInfo} {reportId : Nat} {u : Unit} :
    checkPeriod existing reportId = .ok u ↔
      ∀ info, existing = some info → info.distributed = false ∧ info.reportId = reportId := by
  cases existing <;> simp [checkPeriod]

/-- When a slice may be paid, and where it ends. -/
theorem checkSlice_ok_iff {cursor offset limit holderLen stop : Nat} :
    checkSlice cursor offset limit holderLen = .ok stop ↔
      limit ≤ MAX_COUPON_BATCH_SIZE ∧ offset ≤ holderLen ∧
        u32.Fits ((offset + limit : Nat) : Int) ∧ offset + limit = stop ∧ stop ≤ holderLen ∧
        offset = cursor := by
  simp only [checkSlice, bind_ok_iff, rejectIf_ok_iff, okOr_ok_iff, checkedAddNat_eq_some,
    pure_ok_iff, not_or, not_lt, not_not, gt_iff_lt]
  constructor
  · rintro ⟨_, ⟨hlimit, hoffset⟩, _, ⟨hfits, rfl⟩, _, hstop, _, hcursor, rfl⟩
    exact ⟨hlimit, hoffset, hfits, rfl, hstop, hcursor⟩
  · rintro ⟨hlimit, hoffset, hfits, rfl, hstop, hcursor⟩
    exact ⟨(), ⟨hlimit, hoffset⟩, _, ⟨hfits, rfl⟩, (), hstop, (), hcursor, rfl⟩

/-- When what is left over can be pooled, and the state that it leaves. -/
theorem poolUndistributed_ok_iff {s s' : State} {bondId : Nat} {undistributed : Int} :
    poolUndistributed s bondId undistributed = .ok s' ↔
      (0 < undistributed → i128.Fits (s.undistributedTotal.read bondId + undistributed)) ∧
        { s with undistributedTotal :=
            if 0 < undistributed then
              s.undistributedTotal.set bondId (s.undistributedTotal.read bondId + undistributed)
            else s.undistributedTotal } = s' := by
  unfold poolUndistributed
  split <;> simp_all [checkedAdd]

/-- When the bookkeeping after the loop succeeds, and what it writes. -/
theorem recordBatch_ok_iff {s s' : State} {batch : Batch} {f : Findings} {info : PeriodInfo} :
    recordBatch (s.accrueAll batch.bondId batch.periodIndex (f.entries batch)) batch.bondId
        batch.periodIndex f.report batch.reportId f.totalCredits (entriesTotal (f.entries batch))
        batch.stop batch.holders.length = .ok (info, s') ↔
      i128.Fits (earnedBefore s batch.period + entriesTotal (f.entries batch)) ∧
      (batch.stop = batch.holders.length → i128.Fits
        (f.totalCredits - (earnedBefore s batch.period + entriesTotal (f.entries batch)))) ∧
      (0 < (f.periodInfo s batch).undistributed → i128.Fits
        (s.undistributedTotal.read batch.bondId + (f.periodInfo s batch).undistributed)) ∧
      f.periodInfo s batch = info ∧ f.after s batch = s' := by
  have hinfo : f.periodInfo s batch =
      { periodIndex := batch.periodIndex, startTime := f.report.periodStart
        endTime := f.report.periodEnd
        totalCreditsEarned := earnedBefore s batch.period + entriesTotal (f.entries batch)
        distributed := decide (batch.stop = batch.holders.length), reportId := batch.reportId
        undistributed := (f.periodInfo s batch).undistributed } := rfl
  unfold recordBatch undistributedRest Findings.after
  by_cases hcomplete : batch.stop = batch.holders.length
  · have hrest : (f.periodInfo s batch).undistributed = f.totalCredits -
        (earnedBefore s batch.period + entriesTotal (f.entries batch)) := if_pos hcomplete
    rw [hinfo, hrest]
    simp only [hcomplete, decide_true, if_true, bind_ok_iff, okOr_ok_iff, checkedAdd, checkedSub,
      checked_eq_some, poolUndistributed_ok_iff, pure_ok_iff, Prod.mk.injEq, true_imp_iff]
    constructor
    · rintro ⟨_, ⟨hearned, rfl⟩, _, ⟨hfits, rfl⟩, _, ⟨hpool, rfl⟩, rfl, rfl⟩
      exact ⟨hearned, hfits, hpool, rfl, rfl⟩
    · rintro ⟨hearned, hfits, hpool, rfl, rfl⟩
      exact ⟨_, ⟨hearned, rfl⟩, _, ⟨hfits, rfl⟩, _, ⟨hpool, rfl⟩, rfl, rfl⟩
  · have hrest : (f.periodInfo s batch).undistributed = 0 := if_neg hcomplete
    rw [hinfo, hrest]
    simp only [hcomplete, decide_false, if_false, Bool.false_eq_true, bind_ok_iff, okOr_ok_iff,
      checkedAdd, checked_eq_some, pure_ok_iff, Prod.mk.injEq, false_imp_iff, true_and,
      lt_irrefl]
    constructor
    · rintro ⟨_, ⟨hearned, rfl⟩, _, rfl, rfl, rfl⟩
      exact ⟨hearned, rfl, rfl⟩
    · rintro ⟨hearned, rfl, rfl⟩
      exact ⟨_, ⟨hearned, rfl⟩, _, rfl, rfl, rfl⟩

/-- The storage after a batch, seen ledger by ledger. -/
theorem batchWrote_after (f : Findings) (s : State) (batch : Batch) :
    BatchWrote s (f.after s batch) batch f := by
  refine ⟨rfl, rfl, rfl, rfl, fun b => ?_, rfl, rfl, rfl, rfl⟩
  show (if _ then _ else _ : Storage Nat Int).read b = _
  by_cases hrest : 0 < (f.periodInfo s batch).undistributed
  · have hcomplete : batch.stop = batch.holders.length := by
      by_contra hopen
      have hnone : (f.periodInfo s batch).undistributed = 0 := if_neg hopen
      omega
    rw [if_pos hrest, read_set, max_eq_left hrest.le]
    by_cases hbond : b = batch.bondId <;> simp [hbond, hcomplete]
  · rw [if_neg hrest, max_eq_right (by omega)]
    simp

/-- **Batch lemma.**  What a successful batch found, wrote and returned. -/
theorem distributeCouponBatch_ok {env : Env} {peers : Peers} {s s' : State} {caller : Address}
    (batch : Batch) {nonce : Nat} {result : CouponResult}
    (h : distributeCouponBatch env peers s caller batch.bondId batch.periodIndex batch.holders
      batch.reportId batch.offset batch.limit nonce = .ok (result, s')) :
    ∃ f, BatchFound peers s batch f ∧ BatchWrote s s' batch f ∧
      result.totalCredits = (f.periodInfo s batch).totalCreditsEarned ∧
      nonce = s.nonce.read caller ∧ s'.nonce = (s.bump caller).nonce := by
  simp only [distributeCouponBatch, consumeNonce_ok_iff, bind_ok_iff, pure_ok_iff, okOr_ok_iff,
    orTrap_ok_iff, invoke_ok_iff, rejectIf_ok_iff, not_not, checkPeriod_ok_iff,
    checkSlice_ok_iff, checkedAdd, checked_eq_some, Prod.mk.injEq, Prod.exists] at h
  obtain ⟨-, -, base, ⟨hnonce, hbase⟩, -, -, projectId, hproject, oracleAddress, horacleAddress,
    oracle, horacle, report, hreport, h⟩ := h
  obtain ⟨-, hverified, -, hproject', -, hunpaid, issuerAddress, hissuerAddress, creditType,
    hcreditType, carbonTotal, biodiversityTotal, htotals, h⟩ := h
  obtain ⟨-, ⟨-, rfl⟩, issuer, hissuer, totalSubscribed, hsubscribed, creditsPerToken, hcredits,
    carbonPerToken, hcarbon, biodiversityPerToken, hbiodiversity, h⟩ := h
  obtain ⟨-, ⟨-, -, -, rfl, hstop, hoffset⟩, paid, hpaid, info, s'', hrecord, rfl, rfl⟩ := h
  subst hbase hproject'
  let f : Findings := ⟨report, creditType, carbonTotal, biodiversityTotal, issuer,
    totalSubscribed, ⟨creditsPerToken, carbonPerToken, biodiversityPerToken⟩⟩
  have hrates : f.rates.Nonneg :=
    ⟨perToken_nonneg hcredits, perToken_nonneg hcarbon, perToken_nonneg hbiodiversity⟩
  rw [Nat.add_sub_cancel_left] at hpaid
  obtain ⟨⟨hstate, htotal⟩, hfresh⟩ := payHolders_ok hrates hpaid
  rw [htotal, Int.zero_add, hstate] at hrecord
  obtain ⟨-, -, -, rfl, rfl⟩ := (recordBatch_ok_iff (f := f)).mp hrecord
  obtain ⟨h1, h2, h3, h4, h5, h6, h7, h8, h9⟩ := batchWrote_after f (s.bump caller) batch
  exact ⟨f, ⟨⟨_, hissuerAddress, hissuer⟩, ⟨_, _, horacleAddress, horacle, okOr_ok_iff.mp hreport⟩,
    hverified, hproject, hcreditType, hunpaid, htotals, hsubscribed, hcredits, hcarbon,
    hbiodiversity, hoffset, hstop, hfresh⟩, ⟨h1, h2, h3, h4, h5, h6, h7, h8, h9⟩, rfl, hnonce,
    rfl⟩

/-! ## The other entry points -/

/-- When `registerBond` succeeds, and the state it leaves. -/
theorem registerBond_ok_iff {env : Env} {peers : Peers} {s s' : State} {caller : Address}
    {bondId : Nat} {projectId : BytesN 32} {nonce : Nat} :
    registerBond env peers s caller bondId projectId nonce = .ok s' ↔
      env.Authorizes caller ∧ nonce = s.nonce.read caller ∧ s.admin = some caller ∧
        ∃ address, s.bondIssuerAddress = some address ∧
        ∃ issuer, peers.issuerAt address = some issuer ∧
        ∃ config, issuer.bondConfig.get bondId = some config ∧
          { s.bump caller with
            bondProject := s.bondProject.set bondId projectId
            bondCreditType := s.bondCreditType.set bondId config.creditType } = s' := by
  simp [registerBond, consumeNonce_ok_iff, requireAdmin, BondIssuer.getBond, State.bump]

/-- What a successful claim wrote: the claimer's combined balance is zero, and
so are the by-type balances the bond pays in, if there was anything to claim. -/
structure ClaimWrote (s s' : State) (caller : Address) (bondId : Nat) : Prop where
  accruedCredits : s'.accruedCredits = s.accruedCredits.set (bondId, caller) 0
  accruedCreditsByType : ∀ k, s'.accruedCreditsByType.read k =
    if k.1 = bondId ∧ k.2.1 = caller ∧ 0 < s.accruedCredits.read (bondId, caller) ∧
        ∃ creditType, s.bondCreditType.get bondId = some creditType ∧
          k.2.2 ∈ heldTypes creditType
    then 0 else s.accruedCreditsByType.read k
  periodInfo : s'.periodInfo = s.periodInfo
  periodBatchCursor : s'.periodBatchCursor = s.periodBatchCursor
  undistributedTotal : s'.undistributedTotal = s.undistributedTotal
  bondProject : s'.bondProject = s.bondProject
  bondCreditType : s'.bondCreditType = s.bondCreditType
  bondIssuerAddress : s'.bondIssuerAddress = s.bondIssuerAddress
  oracleConsumerAddress : s'.oracleConsumerAddress = s.oracleConsumerAddress

/-- Clearing the itemised ledger touches nothing else. -/
theorem clearPeriods_eq (bondId : Nat) (caller : Address) (s : State) (periods : List Nat) :
    ∃ ledger, clearPeriods bondId caller s periods = { s with periodHolder := ledger } := by
  induction periods generalizing s with
  | nil => exact ⟨s.periodHolder, rfl⟩
  | cons periodIndex rest ih => exact ih _

/-- Clearing by type touches only the accrued credits by type. -/
theorem clearByType_eq (s : State) (bondId : Nat) (caller : Address) :
    ∃ ledger, clearByType s bondId caller = { s with accruedCreditsByType := ledger } ∧
      ∀ k, ledger.read k =
        if k.1 = bondId ∧ k.2.1 = caller ∧
            ∃ creditType, s.bondCreditType.get bondId = some creditType ∧
              k.2.2 ∈ heldTypes creditType
        then 0 else s.accruedCreditsByType.read k := by
  have hkey : ∀ (k : Nat × Address × CreditType) creditType,
      k = (bondId, caller, creditType) ↔ k.1 = bondId ∧ k.2.1 = caller ∧ k.2.2 = creditType := by
    rintro ⟨b, h, t⟩ creditType
    simp
  unfold clearByType
  cases hget : s.bondCreditType.get bondId with
  | none => exact ⟨_, rfl, fun k => by simp⟩
  | some creditType =>
      cases creditType with
      | carbon | blueCarbon | biodiversity =>
          exact ⟨_, rfl, fun k => by simp [read_set, hkey, heldTypes]⟩
      | basket =>
          refine ⟨_, rfl, fun k => ?_⟩
          simp only [clearAccrued, read_set, hkey, heldTypes, Option.some.injEq, exists_eq_left',
            List.mem_cons, List.not_mem_nil, or_false]
          grind

/-- When `claimCredits` succeeds, what it returns and the state it leaves. -/
theorem claimCredits_ok {env : Env} {s s' : State} {caller : Address} {bondId nonce : Nat}
    {amount : Int} (h : claimCredits env s caller bondId nonce = .ok (amount, s')) :
    env.Authorizes caller ∧ amount = s.accruedCredits.read (bondId, caller) ∧
      ClaimWrote s s' caller bondId := by
  simp only [claimCredits, consumeNonce_ok_iff, bind_ok_iff, Env.requireAuth_ok_iff] at h
  obtain ⟨_, hauth, _, ⟨-, rfl⟩, h⟩ := h
  refine ⟨hauth, ?_⟩
  split at h
  · next hpos =>
      simp only [pure_ok_iff, Prod.mk.injEq] at h
      obtain ⟨rfl, rfl⟩ := h
      obtain ⟨byType, hbyType, hread⟩ := clearByType_eq
        { s.bump caller with accruedCredits := s.accruedCredits.set (bondId, caller) 0 }
        bondId caller
      obtain ⟨ledger, hledger⟩ := clearPeriods_eq bondId caller
        { s.bump caller with
          accruedCredits := s.accruedCredits.set (bondId, caller) 0
          accruedCreditsByType := byType }
        (List.range (s.periodCount.read bondId))
      refine ⟨rfl, ?_⟩
      simp only [State.bump] at hbyType hledger ⊢
      rw [hbyType, hledger]
      refine ⟨rfl, fun k => ?_, rfl, rfl, rfl, rfl, rfl, rfl, rfl⟩
      refine (hread k).trans (if_congr ?_ rfl rfl)
      constructor
      · rintro ⟨hbond, hcaller, htype⟩
        exact ⟨hbond, hcaller, hpos, htype⟩
      · rintro ⟨hbond, hcaller, -, htype⟩
        exact ⟨hbond, hcaller, htype⟩
  · next hpos =>
      simp only [pure_ok_iff, Prod.mk.injEq] at h
      obtain ⟨rfl, rfl⟩ := h
      refine ⟨rfl, rfl, fun k => ?_, rfl, rfl, rfl, rfl, rfl, rfl, rfl⟩
      rw [if_neg (by rintro ⟨-, -, h, -⟩; exact hpos h)]
      rfl

/-- What a sweep returns, and the state it leaves. -/
theorem sweepUndistributed_ok {env : Env} {s s' : State} {caller : Address}
    {bondId nonce : Nat} {amount : Int}
    (h : sweepUndistributed env s caller bondId nonce = .ok (amount, s')) :
    amount = s.undistributedTotal.read bondId ∧
      { s.bump caller with undistributedTotal := s.undistributedTotal.set bondId 0 } = s' := by
  simp only [sweepUndistributed, consumeNonce_ok_iff, bind_ok_iff, pure_ok_iff,
    Prod.mk.injEq] at h
  obtain ⟨_, _, _, ⟨_, rfl⟩, _, _, rfl, rfl⟩ := h
  exact ⟨rfl, rfl⟩

/-- The state that `setAdmin` leaves. -/
theorem setAdmin_ok {env : Env} {s s' : State} {currentAdmin newAdmin : Address} {nonce : Nat}
    (h : setAdmin env s currentAdmin newAdmin nonce = .ok s') :
    { s.bump currentAdmin with admin := some newAdmin } = s' := by
  simp only [setAdmin, consumeNonce_ok_iff, bind_ok_iff, pure_ok_iff] at h
  obtain ⟨_, _, _, ⟨_, rfl⟩, _, _, rfl⟩ := h
  rfl

/-- One successful call of the engine. -/
inductive EngineStep (env : Env) (peers : Peers) (s s' : State) (call : Call) (out : Output) :
    Prop
  | registered (caller : Address) (bondId : Nat) (projectId : BytesN 32) (nonce : Nat)
      (issuer : BondIssuer.State) (config : BondConfig)
      (hcall : call = .registerBond caller bondId projectId nonce)
      (hissuer : ∃ address, s.bondIssuerAddress = some address ∧
        peers.issuerAt address = some issuer)
      (hconfig : issuer.bondConfig.get bondId = some config)
      (hafter : s' = { s.bump caller with
        bondProject := s.bondProject.set bondId projectId
        bondCreditType := s.bondCreditType.set bondId config.creditType })
  | paid (batch : Batch) (f : Findings) (hcall : call.batch? = some batch)
      (hfound : BatchFound peers s batch f) (hwrote : BatchWrote s s' batch f)
  | claimed (caller : Address) (bondId nonce : Nat) (amount : Int)
      (hcall : call = .claimCredits caller bondId nonce) (hout : out = .amount amount)
      (hauth : env.Authorizes caller)
      (hamount : amount = s.accruedCredits.read (bondId, caller))
      (hwrote : ClaimWrote s s' caller bondId)
  | swept (caller : Address) (bondId nonce : Nat) (amount : Int)
      (hcall : call = .sweepUndistributed caller bondId nonce) (hout : out = .amount amount)
      (hamount : amount = s.undistributedTotal.read bondId)
      (hafter : s' = { s.bump caller with
        undistributedTotal := s.undistributedTotal.set bondId 0 })
  | administered (currentAdmin newAdmin : Address) (nonce : Nat)
      (hcall : call = .setAdmin currentAdmin newAdmin nonce)
      (hafter : s' = { s.bump currentAdmin with admin := some newAdmin })

/-- A call with a result succeeds as the function under it does. -/
theorem returning_ok_iff {α : Type} {tag : α → Output} {r : Fallible BondError (α × State)}
    {out : Output} {s' : State} :
    returning tag r = .ok (out, s') ↔ ∃ value, r = .ok (value, s') ∧ out = tag value := by
  simp only [returning, bind_ok_iff, pure_ok_iff, Prod.mk.injEq, Prod.exists]
  constructor
  · rintro ⟨value, s, hr, rfl, rfl⟩
    exact ⟨value, hr, rfl⟩
  · rintro ⟨value, hr, rfl⟩
    exact ⟨value, s', hr, rfl, rfl⟩

/-- **Step lemma.**  Every successful call is an `EngineStep`. -/
theorem engineStep_exec {env : Env} {peers : Peers} {s s' : State} {call : Call} {out : Output}
    (h : exec env peers s call = .ok (out, s')) : EngineStep env peers s s' call out := by
  cases call with
  | registerBond caller bondId projectId nonce =>
      simp only [exec, silent, bind_ok_iff, pure_ok_iff, Prod.mk.injEq] at h
      obtain ⟨_, hregister, -, rfl⟩ := h
      obtain ⟨-, -, -, address, haddress, issuer, hissuer, config, hconfig, rfl⟩ :=
        registerBond_ok_iff.mp hregister
      exact .registered caller bondId projectId nonce issuer config rfl
        ⟨address, haddress, hissuer⟩ hconfig rfl
  | distributeCoupon caller bondId periodIndex holders reportId nonce =>
      obtain ⟨result, hpaid, -⟩ := returning_ok_iff.mp h
      obtain ⟨f, hfound, hwrote, -⟩ := distributeCouponBatch_ok
        ⟨bondId, periodIndex, holders, reportId, 0, holders.length⟩ hpaid
      exact .paid _ f rfl hfound hwrote
  | distributeCouponBatch caller bondId periodIndex holders reportId offset limit nonce =>
      obtain ⟨result, hpaid, -⟩ := returning_ok_iff.mp h
      obtain ⟨f, hfound, hwrote, -⟩ := distributeCouponBatch_ok
        ⟨bondId, periodIndex, holders, reportId, offset, limit⟩ hpaid
      exact .paid _ f rfl hfound hwrote
  | claimCredits caller bondId nonce =>
      obtain ⟨amount, hclaim, rfl⟩ := returning_ok_iff.mp h
      obtain ⟨hauth, hamount, hwrote⟩ := claimCredits_ok hclaim
      exact .claimed caller bondId nonce amount rfl rfl hauth hamount hwrote
  | sweepUndistributed caller bondId nonce =>
      obtain ⟨amount, hsweep, rfl⟩ := returning_ok_iff.mp h
      obtain ⟨hamount, hafter⟩ := sweepUndistributed_ok hsweep
      exact .swept caller bondId nonce amount rfl rfl hamount hafter.symm
  | setAdmin currentAdmin newAdmin nonce =>
      simp only [exec, silent, bind_ok_iff, pure_ok_iff, Prod.mk.injEq] at h
      obtain ⟨_, hset, -, rfl⟩ := h
      exact .administered currentAdmin newAdmin nonce rfl (setAdmin_ok hset).symm

end EcoMint.CouponEngine
