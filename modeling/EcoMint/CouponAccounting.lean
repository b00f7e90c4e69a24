import EcoMint.CouponItems
import EcoMint.PeriodIssuance

/-!
# The accounting of a coupon

Whatever the credit type of a bond, a coupon pays each holder a proportional
share of the carbon credits and one of the biodiversity credits; the branches of
the holder loop only leave out what is zero.  Everything the coupon books is
therefore told by the two totals and the balances: how much is booked, for whom,
what stays undistributed, how much the roundings take, and that no product of
the loop leaves `i128`.
-/

namespace EcoMint.CouponEngine

open Fallible IntRange Storage

/-! ## One share of each kind -/

/-- What a batch has computed when it enters the holder loop. -/
structure Findings.Computed (f : Findings) (bondId : Nat) : Prop where
  totals : creditTotals f.creditType f.report = .ok (f.carbonTotal, f.biodiversityTotal)
  worth : i128.checkedAdd f.carbonTotal f.biodiversityTotal = some f.totalCredits
  subscribed : BondIssuer.totalSubscribed f.issuer bondId = .ok f.totalSubscribed
  creditsPerToken : perToken f.totalCredits f.totalSubscribed = .ok f.rates.creditsPerToken
  carbonPerToken : perToken f.carbonTotal f.totalSubscribed = .ok f.rates.carbonPerToken
  biodiversityPerToken :
    perToken f.biodiversityTotal f.totalSubscribed = .ok f.rates.biodiversityPerToken

/-- A batch whose report is worth a number has computed its rates. -/
theorem BatchFound.computed {peers : Peers} {s : State} {batch : Batch} {f : Findings}
    (hfound : BatchFound peers s batch f) (hworth : i128.Fits f.totalCredits) :
    f.Computed batch.bondId :=
  ⟨hfound.totals, checked_of_fits i128 hworth, hfound.subscribed, hfound.creditsPerToken,
    hfound.carbonPerToken, hfound.biodiversityPerToken⟩

/-- An amount of carbon and one of biodiversity, by credit type. -/
def byType (carbon biodiversity : Int) : CreditType → Int
  | .carbon => carbon
  | .biodiversity => biodiversity
  | .blueCarbon | .basket => 0

theorem byType_nonneg {carbon biodiversity : Int} (hcarbon : 0 ≤ carbon)
    (hbiodiversity : 0 ≤ biodiversity) (creditType : CreditType) :
    0 ≤ byType carbon biodiversity creditType := by
  cases creditType
  · exact hcarbon
  · exact hbiodiversity
  · exact le_rfl
  · exact le_rfl

/-- A bond that does not pay in a kind of credit is worth none of it. -/
theorem creditTotals_other {creditType : CreditType} {report : OracleConsumer.Report}
    {carbon biodiversity : Int} (h : creditTotals creditType report = .ok (carbon, biodiversity)) :
    (creditType = .biodiversity → carbon = 0) ∧
      (creditType = .carbon ∨ creditType = .blueCarbon → biodiversity = 0) := by
  simp only [creditTotals, bind_ok_iff] at h
  obtain ⟨whole, -, total, -, h⟩ := h
  cases creditType with
  | carbon | blueCarbon =>
      obtain ⟨-, rfl⟩ := Prod.mk.inj (pure_ok_iff.mp h)
      simp
  | biodiversity =>
      obtain ⟨-, -, h⟩ := bind_ok_iff.mp h
      obtain ⟨rfl, -⟩ := Prod.mk.inj (pure_ok_iff.mp h)
      simp
  | basket => simp

/-- The share of a balance in one kind of credit. -/
def Findings.gain (f : Findings) (creditType : CreditType) (balance : Int) : Int :=
  share (byType f.rates.carbonPerToken f.rates.biodiversityPerToken creditType) balance

section Computed

variable {f : Findings} {bondId : Nat} (h : f.Computed bondId) (hsound : f.report.Sound)

include h

/-- The branches of the loop, as one: a share of each kind, where it is positive. -/
theorem Findings.Computed.holderEntries_eq {balance : Int} (hbalance : 0 ≤ balance)
    (holder : Address) :
    holderEntries f.creditType f.rates balance holder =
      entryOf holder .carbon (f.gain .carbon balance) ++
        entryOf holder .biodiversity (f.gain .biodiversity balance) := by
  obtain ⟨hnoCarbon, hnoBiodiversity⟩ := creditTotals_other h.totals
  have hcredits := h.creditsPerToken
  have hcarbon := h.carbonPerToken
  have hbiodiversity := h.biodiversityPerToken
  -- a kind the bond is not worth anything in has rate zero
  have hzero : ∀ {rate}, perToken 0 f.totalSubscribed = .ok rate → rate = 0 := by
    intro rate hrate
    have hzero : 0 = rate := by simpa [perToken] using hrate
    exact hzero.symm
  unfold holderEntries Findings.gain byType
  split
  · next hnone =>
      obtain rfl : balance = 0 := by omega
      simp [share, entryOf]
  · cases hcreditType : f.creditType with
    | carbon | blueCarbon =>
        rw [Findings.totalCredits, hnoBiodiversity (by simp [hcreditType]), Int.add_zero,
          hcarbon] at hcredits
        rw [hnoBiodiversity (by simp [hcreditType])] at hbiodiversity
        rw [← Except.ok.inj hcredits, hzero hbiodiversity, share_zero]
        simp [entryOf]
    | biodiversity =>
        rw [Findings.totalCredits, hnoCarbon hcreditType, Int.zero_add, hbiodiversity] at hcredits
        rw [hnoCarbon hcreditType] at hcarbon
        rw [← Except.ok.inj hcredits, hzero hcarbon, share_zero]
        simp [entryOf]
    | basket => rfl

include hsound

theorem Findings.Computed.byType_nonneg (creditType : CreditType) :
    0 ≤ byType f.carbonTotal f.biodiversityTotal creditType := by
  obtain ⟨hcarbon, hbiodiversity⟩ := creditTotals_nonneg hsound h.totals
  exact CouponEngine.byType_nonneg hcarbon hbiodiversity creditType

/-- A holder's gain is its share of the total by way of the rate. -/
theorem Findings.Computed.gain_eq {balance : Int} (hparts : 0 < f.totalSubscribed)
    (hbalance : 0 ≤ balance) (creditType : CreditType) :
    f.gain creditType balance =
      ProRata.share FIXED_POINT (byType f.carbonTotal f.biodiversityTotal creditType)
        f.totalSubscribed balance := by
  obtain ⟨hcarbon, hbiodiversity⟩ := creditTotals_nonneg hsound h.totals
  have hrate : byType f.rates.carbonPerToken f.rates.biodiversityPerToken creditType =
      ProRata.rate FIXED_POINT (byType f.carbonTotal f.biodiversityTotal creditType)
        f.totalSubscribed := by
    have hc := perToken_eq h.carbonPerToken hcarbon
    have hb := perToken_eq h.biodiversityPerToken hbiodiversity
    rw [if_pos hparts] at hc hb
    cases creditType with
    | carbon => exact hc
    | biodiversity => exact hb
    | blueCarbon | basket => simp [byType, ProRata.rate]
  rw [Findings.gain, hrate]
  exact share_rate_eq (h.byType_nonneg hsound creditType) hparts hbalance

theorem Findings.Computed.gain_eq_zero {balance : Int} (hparts : f.totalSubscribed ≤ 0)
    (creditType : CreditType) : f.gain creditType balance = 0 := by
  obtain ⟨hcarbon, hbiodiversity⟩ := creditTotals_nonneg hsound h.totals
  have hc := perToken_eq h.carbonPerToken hcarbon
  have hb := perToken_eq h.biodiversityPerToken hbiodiversity
  rw [if_neg (by omega)] at hc hb
  rw [Findings.gain, hc, hb]
  cases creditType <;> exact share_zero balance

theorem Findings.Computed.gain_nonneg {balance : Int} (hbalance : 0 ≤ balance)
    (creditType : CreditType) : 0 ≤ f.gain creditType balance := by
  rcases lt_or_ge 0 f.totalSubscribed with hparts | hparts
  · rw [h.gain_eq hsound hparts hbalance]
    exact ProRata.share_nonneg (by decide) (h.byType_nonneg hsound creditType) hparts.le hbalance
  · exact (h.gain_eq_zero hsound hparts creditType).ge

/-- The gains of a list of balances are within the total. -/
theorem Findings.Computed.sum_gain_le {balances : List Int}
    (hbalances : ∀ balance ∈ balances, 0 ≤ balance) (hsum : balances.sum ≤ f.totalSubscribed)
    (creditType : CreditType) :
    (balances.map (f.gain creditType)).sum ≤
      byType f.carbonTotal f.biodiversityTotal creditType := by
  have htotal := h.byType_nonneg hsound creditType
  rcases lt_or_ge 0 f.totalSubscribed with hparts | hparts
  · have hgain : balances.map (f.gain creditType) = balances.map (ProRata.share FIXED_POINT
        (byType f.carbonTotal f.biodiversityTotal creditType) f.totalSubscribed) :=
      List.map_congr_left fun balance hmem =>
        h.gain_eq hsound hparts (hbalances balance hmem) creditType
    rw [hgain]
    exact ProRata.sum_share_le (by decide) htotal hparts hbalances hsum
  · rw [List.sum_eq_zero]
    · exact htotal
    · intro x hx
      obtain ⟨balance, -, rfl⟩ := List.mem_map.mp hx
      exact h.gain_eq_zero hsound hparts creditType

/-- What a slice is paid, by kind of credit. -/
theorem Findings.Computed.entriesTotal_slice {slice : List Address}
    (hbalances : ∀ holder ∈ slice, 0 ≤ BondIssuer.getHolderBalance f.issuer bondId holder) :
    entriesTotal (sliceEntries f.issuer f.creditType f.rates bondId slice) =
      ((slice.map (BondIssuer.getHolderBalance f.issuer bondId)).map (f.gain .carbon)).sum +
        ((slice.map (BondIssuer.getHolderBalance f.issuer bondId)).map
          (f.gain .biodiversity)).sum := by
  induction slice with
  | nil => rfl
  | cons holder rest ih =>
      have hbalance := hbalances holder (List.mem_cons_self ..)
      have hrest := ih fun holder' hmem => hbalances holder' (List.mem_cons_of_mem holder hmem)
      rw [sliceEntries_cons, entriesTotal_append, h.holderEntries_eq hbalance,
        entriesTotal_append, entriesTotal_entryOf (h.gain_nonneg hsound hbalance _),
        entriesTotal_entryOf (h.gain_nonneg hsound hbalance _), hrest]
      simp only [List.map_cons, List.sum_cons]
      omega

/-- Holders of no more tokens than there are get no more than the report is worth. -/
theorem Findings.Computed.entriesTotal_le {slice : List Address}
    (hbalances : ∀ holder ∈ slice, 0 ≤ BondIssuer.getHolderBalance f.issuer bondId holder)
    (hsum : (slice.map (BondIssuer.getHolderBalance f.issuer bondId)).sum ≤ f.totalSubscribed) :
    entriesTotal (sliceEntries f.issuer f.creditType f.rates bondId slice) ≤ f.totalCredits := by
  have hnonneg : ∀ balance ∈ slice.map (BondIssuer.getHolderBalance f.issuer bondId),
      0 ≤ balance := by
    intro balance hmem
    obtain ⟨holder, hholder, rfl⟩ := List.mem_map.mp hmem
    exact hbalances holder hholder
  rw [h.entriesTotal_slice hsound hbalances]
  exact add_le_add (h.sum_gain_le hsound hnonneg hsum .carbon)
    (h.sum_gain_le hsound hnonneg hsum .biodiversity)

end Computed

/-! ## The loop never leaves `i128` -/

/-- A holder's share can be computed once the rate could. -/
theorem ratioFits_of_perToken {total parts rate balance : Int}
    (h : perToken total parts = .ok rate) (htotal : 0 ≤ total) (hbalance : 0 ≤ balance)
    (hparts : balance ≤ parts) : RatioFits rate balance := by
  have hrate := perToken_nonneg h
  have hproduct := Int.mul_nonneg hrate hbalance
  have hfits : i128.Fits (rate * balance) := by
    unfold perToken at h
    split at h
    · next hpos =>
        -- the first division rounded down a product that fitted
        obtain ⟨-, hscaled, -, hratio⟩ := checkedRatio_ok_iff.mp h
        have hscaled0 := Int.mul_nonneg htotal (by decide : 0 ≤ FIXED_POINT)
        rw [Int.tdiv_eq_ediv_of_nonneg hscaled0] at hratio
        refine hscaled.of_nonneg_of_le i128 hproduct ?_
        rw [← hratio]
        exact ProRata.rate_mul_held_le (by decide) htotal hpos.1 hparts
    · obtain rfl := pure_ok_iff.mp h
      rw [Int.zero_mul]
      decide
  refine ⟨hfits, hfits.of_nonneg_of_le i128 (share_nonneg hrate hbalance) ?_⟩
  rw [share, Int.tdiv_eq_ediv_of_nonneg hproduct]
  exact Int.ediv_le_self _ hproduct

/-- Once the rates are computed, the shares of a holder of no more tokens than
there are can be too. -/
theorem Findings.Computed.sharesFit {f : Findings} {bondId : Nat} (h : f.Computed bondId)
    (hsound : f.report.Sound) {balance : Int} (hbalance : 0 ≤ balance)
    (hparts : balance ≤ f.totalSubscribed) : SharesFit f.creditType f.rates balance := by
  obtain ⟨hcarbon, hbiodiversity⟩ := creditTotals_nonneg hsound h.totals
  have hworth : i128.Fits f.totalCredits := ((checked_eq_some i128).mp h.worth).1
  have hsingle := ratioFits_of_perToken h.creditsPerToken (Int.add_nonneg hcarbon hbiodiversity)
    hbalance hparts
  unfold SharesFit
  cases f.creditType with
  | carbon | blueCarbon | biodiversity => exact hsingle
  | basket =>
      have hgain : ∀ creditType, f.gain creditType balance ≤
          byType f.carbonTotal f.biodiversityTotal creditType := by
        intro creditType
        have hsum : ([balance].map (f.gain creditType)).sum ≤
            byType f.carbonTotal f.biodiversityTotal creditType :=
          h.sum_gain_le hsound (by simpa) (by simpa) creditType
        simpa using hsum
      refine ⟨ratioFits_of_perToken h.carbonPerToken hcarbon hbalance hparts,
        ratioFits_of_perToken h.biodiversityPerToken hbiodiversity hbalance hparts, ?_⟩
      refine hworth.of_nonneg_of_le i128 ?_ (add_le_add (hgain .carbon) (hgain .biodiversity))
      exact Int.add_nonneg (share_nonneg (perToken_nonneg h.carbonPerToken) hbalance)
        (share_nonneg (perToken_nonneg h.biodiversityPerToken) hbalance)

/-- The turn of a holder computes its shares and adds them to the credits paid. -/
def TurnComputes (creditType : CreditType) (rates : Rates) (balance paid : Int) : Prop :=
  match creditType with
  | .carbon | .blueCarbon | .biodiversity =>
      ∃ credits, checkedRatio rates.creditsPerToken balance FIXED_POINT = .ok credits ∧
        (i128.checkedAdd paid credits).isSome
  | .basket =>
      ∃ carbon biodiversity credits,
        checkedRatio rates.carbonPerToken balance FIXED_POINT = .ok carbon ∧
        checkedRatio rates.biodiversityPerToken balance FIXED_POINT = .ok biodiversity ∧
        i128.checkedAdd carbon biodiversity = some credits ∧
        (i128.checkedAdd paid credits).isSome

/-- A turn computes exactly if its shares fit and so does the sum. -/
theorem turnComputes_iff {creditType : CreditType} {rates : Rates} {balance paid : Int}
    (hrates : rates.Nonneg) (hbalance : 0 < balance) (holder : Address) :
    TurnComputes creditType rates balance paid ↔ SharesFit creditType rates balance ∧
      i128.Fits (paid + entriesTotal (holderEntries creditType rates balance holder)) := by
  have hle : ¬ balance ≤ 0 := by omega
  have hcredits := share_nonneg hrates.credits hbalance.le
  have hcarbon := share_nonneg hrates.carbon hbalance.le
  have hbiodiversity := share_nonneg hrates.biodiversity hbalance.le
  unfold TurnComputes SharesFit holderEntries
  rw [if_neg hle]
  cases creditType with
  | carbon | blueCarbon | biodiversity =>
      simp only [checkedRatio_share_ok_iff, checkedAdd, Option.isSome_iff_exists, checked_eq_some,
        entriesTotal_entryOf hcredits]
      constructor
      · rintro ⟨_, ⟨hratio, rfl⟩, _, hsum, -⟩
        exact ⟨hratio, hsum⟩
      · rintro ⟨hratio, hsum⟩
        exact ⟨_, ⟨hratio, rfl⟩, _, hsum, rfl⟩
  | basket =>
      simp only [checkedRatio_share_ok_iff, checkedAdd, Option.isSome_iff_exists, checked_eq_some,
        entriesTotal_append, entriesTotal_entryOf hcarbon, entriesTotal_entryOf hbiodiversity]
      constructor
      · rintro ⟨_, _, _, ⟨hratioC, rfl⟩, ⟨hratioB, rfl⟩, ⟨hboth, rfl⟩, _, hsum, -⟩
        exact ⟨⟨hratioC, hratioB, hboth⟩, hsum⟩
      · rintro ⟨⟨hratioC, hratioB, hboth⟩, hsum⟩
        exact ⟨_, _, _, ⟨hratioC, rfl⟩, ⟨hratioB, rfl⟩, ⟨hboth, rfl⟩, _, hsum, rfl⟩

/-- **No arithmetic failure in the holder loop.**  Once the rates are computed,
every turn of the loop computes its shares and adds them up, for any list whose
balances are nonnegative and add up to no more than what is subscribed. -/
theorem holder_turn_computes {f : Findings} {bondId periodIndex : Nat}
    (hcomputed : f.Computed bondId) (hsound : f.report.Sound) {holders : List Address}
    (hbalances : ∀ holder ∈ holders, 0 ≤ BondIssuer.getHolderBalance f.issuer bondId holder)
    (hsum : (holders.map (BondIssuer.getHolderBalance f.issuer bondId)).sum ≤ f.totalSubscribed)
    {s : State} {offset turns : Nat} {paid : Payments}
    (hloop : payHolders f.issuer f.creditType f.rates bondId periodIndex holders turns offset
      ⟨s, 0, 0⟩ = .ok paid)
    {holder : Address} (hholder : holders[offset + turns]? = some holder)
    (hbalance : 0 < BondIssuer.getHolderBalance f.issuer bondId holder) :
    TurnComputes f.creditType f.rates (BondIssuer.getHolderBalance f.issuer bondId holder)
      paid.totalHolderCredits := by
  have hworth : i128.Fits f.totalCredits := ((checked_eq_some i128).mp hcomputed.worth).1
  have hrates : f.rates.Nonneg := ⟨perToken_nonneg hcomputed.creditsPerToken,
    perToken_nonneg hcomputed.carbonPerToken, perToken_nonneg hcomputed.biodiversityPerToken⟩
  have hnonneg : ∀ balance ∈ holders.map (BondIssuer.getHolderBalance f.issuer bondId),
      0 ≤ balance := by
    intro balance hmem
    obtain ⟨holder', hmem', rfl⟩ := List.mem_map.mp hmem
    exact hbalances holder' hmem'
  have hmem : holder ∈ holders := List.mem_of_getElem? hholder
  have hparts := (List.single_le_sum hnonneg _ (List.mem_map_of_mem hmem)).trans hsum
  -- the credits paid so far and those of this turn are those of a part of the list
  have hslice : (holders.drop offset).take (turns + 1) =
      (holders.drop offset).take turns ++ [holder] := by
    rw [List.take_add_one, List.getElem?_drop, hholder]
    rfl
  have hsublist : ((holders.drop offset).take (turns + 1)).Sublist holders :=
    (List.take_sublist ..).trans (List.drop_sublist ..)
  have hpartSum := (List.Sublist.sum_le_sum (hsublist.map _) hnonneg).trans hsum
  have htotal := hcomputed.entriesTotal_le hsound
    (fun holder' hmem' => hbalances holder' (hsublist.subset hmem')) hpartSum
  have hpaid := (payHolders_ok hrates hloop).1.2
  rw [Int.zero_add] at hpaid
  rw [turnComputes_iff hrates hbalance holder]
  refine ⟨hcomputed.sharesFit hsound hbalance.le hparts, ?_⟩
  have hsum' : paid.totalHolderCredits + entriesTotal (holderEntries f.creditType f.rates
      (BondIssuer.getHolderBalance f.issuer bondId holder) holder) =
        entriesTotal (sliceEntries f.issuer f.creditType f.rates bondId
          ((holders.drop offset).take (turns + 1))) := by
    rw [hslice, sliceEntries_append, entriesTotal_append, hpaid]
    simp [sliceEntries]
  rw [hsum']
  exact hworth.of_nonneg_of_le i128 (sliceEntries_total_nonneg ..) htotal

/-- A basket bond with six hundred tokens, of which two hundred were transferred. -/
def basketIssuer : BondIssuer.State :=
  BondIssuer.machine.run (BondIssuer.constructor 0) [
    BondIssuer.sampleTx 1 0 (.issueBond 0 { BondIssuer.sampleConfig with creditType := .basket } 0),
    BondIssuer.sampleTx 2 1 (.subscribe 1 1 600 0),
    BondIssuer.sampleTx 2 1 (.transfer 1 2 1 200 1)]

/-- A verified report of both kinds of metrics. -/
def basketReport : OracleConsumer.Report where
  id := 1
  provider := 5
  projectId := BondIssuer.sampleConfig.projectId
  periodStart := 10
  periodEnd := 20
  carbonSequestered := 1500
  biodiversity := .present 2 3 4
  methodology := "verra_vcs"
  ipfsEvidenceHash := BondIssuer.sampleConfig.projectId
  status := .verified
  submittedAt := 2
  verifiedAt := 3
  providerStakeAtVerification := none

/-- What a batch finds and computes there. -/
def basketFindings : Findings where
  report := basketReport
  creditType := .basket
  carbonTotal := 1000000
  biodiversityTotal := 6300000
  issuer := basketIssuer
  totalSubscribed := 600
  rates := ⟨121666666666, 16666666666, 105000000000⟩

/-- The sample's report is sound. -/
theorem basketReport_sound : basketReport.Sound := ⟨by decide, by decide⟩

/-- The turn of the second holder, once the first was paid. -/
theorem holder_turn_computes_sample :
    ∃ paid, payHolders basketIssuer .basket basketFindings.rates 1 0 [1, 2] 1 0
        ⟨constructor 0 101 102, 0, 0⟩ = .ok paid ∧
      TurnComputes .basket basketFindings.rates 200 paid.totalHolderCredits := by
  have hcomputed : basketFindings.Computed 1 := ⟨rfl, by decide, rfl, rfl, rfl, rfl⟩
  have hbalances : ∀ holder ∈ [1, 2], 0 ≤ BondIssuer.getHolderBalance basketIssuer 1 holder :=
    by decide +kernel
  obtain ⟨paid, hpaid⟩ := exists_of_isOk (r := payHolders basketIssuer .basket
    basketFindings.rates 1 0 [1, 2] 1 0 ⟨constructor 0 101 102, 0, 0⟩) (by decide +kernel)
  exact ⟨paid, hpaid, holder_turn_computes hcomputed basketReport_sound hbalances
    (by decide +kernel) hpaid rfl (by decide +kernel)⟩

/-! ## What a coupon books -/

theorem paidIn_append (l l' : List Entry) (holder : Address) (creditType : CreditType) :
    paidIn (l ++ l') holder creditType = paidIn l holder creditType +
      paidIn l' holder creditType := by
  simp [paidIn]

/-- What one entry pays. -/
theorem paidIn_entryOf {amount : Int} (hamount : 0 ≤ amount) (holder payee : Address)
    (creditType kind : CreditType) :
    paidIn (entryOf payee kind amount) holder creditType =
      if holder = payee ∧ creditType = kind then amount else 0 := by
  unfold entryOf
  split
  · simp [paidIn]
  · obtain rfl : amount = 0 := by omega
    simp [paidIn]

/-- What is booked by type after a batch. -/
theorem accruedCreditsByType_after (f : Findings) (s : State) (batch : Batch) (bondId : Nat)
    (holder : Address) (creditType : CreditType) :
    (f.after s batch).accruedCreditsByType.read (bondId, holder, creditType) =
      s.accruedCreditsByType.read (bondId, holder, creditType) +
        if bondId = batch.bondId then paidIn (f.entries batch) holder creditType else 0 := by
  show (s.accruedCreditsByType.creditAll _).read _ = _
  rw [read_creditAll, List.map_map]
  congr 1
  by_cases hbond : bondId = batch.bondId
  · simp [paidIn, hbond, Function.comp_def]
  · simp [hbond, Function.comp_def]

/-- Entries of others pay a holder nothing. -/
theorem paidIn_eq_zero {entries : List Entry} {holder : Address}
    (hothers : ∀ e ∈ entries, e.holder ≠ holder) (creditType : CreditType) :
    paidIn entries holder creditType = 0 := by
  refine List.sum_eq_zero fun x hx => ?_
  obtain ⟨e, he, rfl⟩ := List.mem_map.mp hx
  exact if_neg fun hkey => hothers e he hkey.1.symm

theorem paidTo_eq_zero {entries : List Entry} {holder : Address}
    (hothers : ∀ e ∈ entries, e.holder ≠ holder) : paidTo entries holder = 0 := by
  refine List.sum_eq_zero fun x hx => ?_
  obtain ⟨e, he, rfl⟩ := List.mem_map.mp hx
  exact if_neg fun hkey => hothers e he hkey.symm

/-- What a batch adds to the pool of its bond. -/
theorem undistributedTotal_after (f : Findings) (s : State) (batch : Batch) (bondId : Nat) :
    (f.after s batch).undistributedTotal.read bondId = s.undistributedTotal.read bondId +
      if bondId = batch.bondId then max (f.periodInfo s batch).undistributed 0 else 0 := by
  show (if _ then _ else _ : Storage Nat Int).read bondId = _
  by_cases hrest : 0 < (f.periodInfo s batch).undistributed
  · rw [if_pos hrest, read_set, max_eq_left hrest.le]
    by_cases hbond : bondId = batch.bondId <;> simp [hbond]
  · rw [if_neg hrest, max_eq_right (by omega)]
    simp

section Bookings

variable {f : Findings} {bondId : Nat} (h : f.Computed bondId) (hsound : f.report.Sound)

include h hsound

/-- Distinct holders each get their gain, and nobody else gets anything. -/
theorem Findings.Computed.paidIn_slice {slice : List Address} (hnodup : slice.Nodup)
    (hbalances : ∀ holder ∈ slice, 0 ≤ BondIssuer.getHolderBalance f.issuer bondId holder)
    (holder : Address) (creditType : CreditType) :
    paidIn (sliceEntries f.issuer f.creditType f.rates bondId slice) holder creditType =
      if holder ∈ slice then
        f.gain creditType (BondIssuer.getHolderBalance f.issuer bondId holder)
      else 0 := by
  induction slice with
  | nil => rfl
  | cons first rest ih =>
      obtain ⟨hnew, hrestNodup⟩ := List.nodup_cons.mp hnodup
      have hbalance := hbalances first (List.mem_cons_self ..)
      have hrest := ih hrestNodup fun holder' hmem =>
        hbalances holder' (List.mem_cons_of_mem first hmem)
      have hfirst : paidIn (holderEntries f.creditType f.rates
          (BondIssuer.getHolderBalance f.issuer bondId first) first) holder creditType =
            if holder = first then
              f.gain creditType (BondIssuer.getHolderBalance f.issuer bondId first)
            else 0 := by
        rw [h.holderEntries_eq hbalance, paidIn_append,
          paidIn_entryOf (h.gain_nonneg hsound hbalance _),
          paidIn_entryOf (h.gain_nonneg hsound hbalance _)]
        by_cases hholder : holder = first
        · cases creditType <;> simp [hholder, Findings.gain, byType, share_zero]
        · simp [hholder]
      rw [sliceEntries_cons, paidIn_append, hfirst, hrest]
      by_cases hholder : holder = first
      · subst hholder
        simp [hnew]
      · simp [hholder]

/-- What the holders of a list are paid is all that is paid. -/
theorem Findings.Computed.sum_paidTo {slice : List Address} (hnodup : slice.Nodup)
    (hbalances : ∀ holder ∈ slice, 0 ≤ BondIssuer.getHolderBalance f.issuer bondId holder) :
    (slice.map (paidTo (sliceEntries f.issuer f.creditType f.rates bondId slice))).sum =
      entriesTotal (sliceEntries f.issuer f.creditType f.rates bondId slice) := by
  have hpaid : ∀ holder ∈ slice,
      paidTo (sliceEntries f.issuer f.creditType f.rates bondId slice) holder =
        f.gain .carbon (BondIssuer.getHolderBalance f.issuer bondId holder) +
          f.gain .biodiversity (BondIssuer.getHolderBalance f.issuer bondId holder) := by
    intro holder hmem
    rw [paidTo_eq fun e he => heldTypes_subset (mem_sliceEntries he).2.2,
      h.paidIn_slice hsound hnodup hbalances, h.paidIn_slice hsound hnodup hbalances,
      if_pos hmem, if_pos hmem]
  rw [List.map_congr_left hpaid, List.sum_map_add, h.entriesTotal_slice hsound hbalances,
    List.map_map, List.map_map]
  rfl

end Bookings

/-! ## A period that starts -/

/-- A period whose cursor has not moved has earned nothing. -/
def State.StartsEmpty (s : State) : Prop :=
  ∀ period, s.periodBatchCursor.read period = 0 → earnedBefore s period = 0

theorem State.StartsEmpty.congr {s s' : State} (hs : s.StartsEmpty)
    (hinfo : s'.periodInfo = s.periodInfo) (hcursor : s'.periodBatchCursor = s.periodBatchCursor) :
    s'.StartsEmpty := by
  unfold State.StartsEmpty earnedBefore
  rw [hinfo, hcursor]
  exact hs

/-- A batch that leaves the cursor at the start paid nobody. -/
theorem State.StartsEmpty.batch {peers : Peers} {s s' : State} {batch : Batch} {f : Findings}
    (hs : s.StartsEmpty) (hfound : BatchFound peers s batch f)
    (hwrote : BatchWrote s s' batch f) : s'.StartsEmpty := by
  intro period hcursor
  rw [hwrote.periodBatchCursor, read_set] at hcursor
  unfold earnedBefore
  rw [hwrote.periodInfo, get_set]
  by_cases hperiod : period = batch.period
  · rw [if_pos hperiod] at hcursor ⊢
    have hoffset : batch.offset = 0 := by
      unfold Batch.stop at hcursor
      omega
    have hlimit : batch.limit = 0 := by
      unfold Batch.stop at hcursor
      omega
    have hbefore := hs batch.period (hfound.offset_eq.symm.trans hoffset)
    have hnone : f.entries batch = [] := by
      simp [Findings.entries, Batch.slice, hlimit, sliceEntries]
    simp [Findings.periodInfo, hbefore, hnone, entriesTotal]
  · rw [if_neg hperiod] at hcursor ⊢
    exact hs period hcursor

/-- No call of the engine spoils it. -/
theorem State.StartsEmpty.step {e : EngineEvent} (hs : e.before.StartsEmpty)
    (hfires : engineMachine.Fires e) : e.after.StartsEmpty := by
  cases engineStep_exec hfires with
  | registered _ _ _ _ _ _ _ _ _ hafter =>
      exact hs.congr (by rw [hafter]; rfl) (by rw [hafter]; rfl)
  | paid batch f _ hfound hwrote => exact hs.batch hfound hwrote
  | claimed _ _ _ _ _ _ _ _ hwrote => exact hs.congr hwrote.periodInfo hwrote.periodBatchCursor
  | swept _ _ _ _ _ _ _ hafter => exact hs.congr (by rw [hafter]; rfl) (by rw [hafter]; rfl)
  | administered _ _ _ _ hafter => exact hs.congr (by rw [hafter]; rfl) (by rw [hafter]; rfl)

/-- Some run of the engine leads to the storage, whatever contracts it met. -/
def State.Reached (s : State) : Prop :=
  ∃ admin issuer oracle txs, engineMachine.run (constructor admin issuer oracle) txs = s

/-- It holds in every reached state. -/
theorem State.Reached.startsEmpty {s : State} (hs : s.Reached) : s.StartsEmpty := by
  obtain ⟨admin, issuer, oracle, txs, rfl⟩ := hs
  refine engineMachine.invariant (P := fun s _ => s.StartsEmpty) ?_ ?_ txs
  · intro period _
    simp [earnedBefore, constructor]
  · intro _ e hfires hs
    exact hs.step hfires

/-! ## Whole coupons -/

/-- The issuer storage the engine reads. -/
def State.issuerIn (s : State) (peers : Peers) : Option BondIssuer.State :=
  s.bondIssuerAddress.bind peers.issuerAt

/-- The report the engine reads. -/
def State.reportIn (s : State) (peers : Peers) (reportId : Nat) : Option OracleConsumer.Report :=
  (s.oracleConsumerAddress.bind peers.oracleAt).bind fun oracle => oracle.report.get reportId

/-- The issuer that a batch asks. -/
theorem BatchFound.issuerIn {peers : Peers} {s : State} {batch : Batch} {f : Findings}
    (hfound : BatchFound peers s batch f) : s.issuerIn peers = some f.issuer := by
  obtain ⟨address, haddress, hissuer⟩ := hfound.issuer
  simp [State.issuerIn, haddress, hissuer]

/-- The report that a batch reads. -/
theorem BatchFound.reportIn {peers : Peers} {s : State} {batch : Batch} {f : Findings}
    (hfound : BatchFound peers s batch f) :
    s.reportIn peers batch.reportId = some f.report := by
  obtain ⟨address, oracle, haddress, horacle, hreport⟩ := hfound.report
  simp [State.reportIn, haddress, horacle, hreport]

/-- The batch that pays a whole list. -/
def couponBatch (bondId periodIndex : Nat) (holders : List Address) (reportId : Nat) : Batch :=
  ⟨bondId, periodIndex, holders, reportId, 0, holders.length⟩

/-- The slice of the whole list is the list. -/
theorem couponBatch_slice (bondId periodIndex : Nat) (holders : List Address) (reportId : Nat) :
    (couponBatch bondId periodIndex holders reportId).slice = holders := by
  simp [couponBatch, Batch.slice]

/-- The batch of the whole list ends where the list does. -/
theorem couponBatch_stop (bondId periodIndex : Nat) (holders : List Address) (reportId : Nat) :
    (couponBatch bondId periodIndex holders reportId).stop = holders.length := by
  simp [couponBatch, Batch.stop]

/-- What a call adds to a holder's credits of a type. -/
def creditsAdded (s s' : State) (bondId : Nat) (holder : Address) (creditType : CreditType) :
    Int :=
  getAccruedCreditsByType s' bondId holder creditType -
    getAccruedCreditsByType s bondId holder creditType

/-- Everything outside one bond, one period and one list is as it was. -/
structure OnlyTouches (s s' : State) (bondId periodIndex : Nat) (holders : List Address) :
    Prop where
  accruedCredits : ∀ b holder, b ≠ bondId ∨ holder ∉ holders →
    s'.accruedCredits.read (b, holder) = s.accruedCredits.read (b, holder)
  accruedCreditsByType : ∀ b holder creditType, b ≠ bondId ∨ holder ∉ holders →
    s'.accruedCreditsByType.read (b, holder, creditType) =
      s.accruedCreditsByType.read (b, holder, creditType)
  periodHolder : ∀ period holder creditType, period ≠ (bondId, periodIndex) ∨ holder ∉ holders →
    s'.periodHolder.read (period.1, period.2, holder, creditType) =
      s.periodHolder.read (period.1, period.2, holder, creditType)
  periodInfo : ∀ period, period ≠ (bondId, periodIndex) →
    s'.periodInfo.get period = s.periodInfo.get period
  periodBatchCursor : ∀ period, period ≠ (bondId, periodIndex) →
    s'.periodBatchCursor.read period = s.periodBatchCursor.read period
  periodCount : ∀ b, b ≠ bondId → s'.periodCount.read b = s.periodCount.read b
  undistributedTotal : ∀ b, b ≠ bondId →
    s'.undistributedTotal.read b = s.undistributedTotal.read b
  bondProject : s'.bondProject = s.bondProject
  bondCreditType : s'.bondCreditType = s.bondCreditType

/-- The accounts of a coupon: what was booked for the holders against their
tokens, what the report was worth, and what was left. -/
structure Accounted (s s' : State) (issuer : BondIssuer.State) (bondId periodIndex : Nat)
    (holders : List Address) (carbon biodiversity : Int) (info : PeriodInfo) : Prop where
  info_eq : getPeriodInfo s' bondId periodIndex = .ok info
  distributed : info.distributed = true
  booked_eq : (holders.map fun holder =>
    getAccruedCredits s' bondId holder - getAccruedCredits s bondId holder).sum =
      info.totalCreditsEarned
  worth_eq : info.totalCreditsEarned + info.undistributed = carbon + biodiversity
  rest_nonneg : 0 ≤ info.undistributed
  kinds_eq : ∀ holder, getAccruedCredits s' bondId holder - getAccruedCredits s bondId holder =
    creditsAdded s s' bondId holder .carbon + creditsAdded s s' bondId holder .biodiversity
  items_eq : ∀ holder creditType,
    s'.periodHolder.read (bondId, periodIndex, holder, creditType) -
      s.periodHolder.read (bondId, periodIndex, holder, creditType) =
        creditsAdded s s' bondId holder creditType
  share_nonneg : ∀ holder creditType, 0 ≤ creditsAdded s s' bondId holder creditType
  share_le : 0 < issuer.subscribedTotal bondId → ∀ holder creditType,
    creditsAdded s s' bondId holder creditType * issuer.subscribedTotal bondId ≤
      byType carbon biodiversity creditType * BondIssuer.getHolderBalance issuer bondId holder
  pool_eq : getUndistributedTotal s' bondId =
    getUndistributedTotal s bondId + info.undistributed
  frame : OnlyTouches s s' bondId periodIndex holders

/-- What a batch adds for a holder, in the three ledgers. -/
theorem creditsAdded_after (f : Findings) (s : State) (caller : Address) (batch : Batch)
    (holder : Address) (creditType : CreditType) :
    creditsAdded s (f.after (s.bump caller) batch) batch.bondId holder creditType =
      paidIn (f.entries batch) holder creditType := by
  unfold creditsAdded getAccruedCreditsByType
  rw [accruedCreditsByType_after, if_pos rfl]
  exact add_sub_cancel_left ..

/-- What a batch adds to the accrued credits is what it pays. -/
theorem accruedAdded_after (f : Findings) (s : State) (caller : Address) (batch : Batch)
    (holder : Address) :
    getAccruedCredits (f.after (s.bump caller) batch) batch.bondId holder -
      getAccruedCredits s batch.bondId holder = paidTo (f.entries batch) holder := by
  unfold getAccruedCredits
  rw [accruedCredits_after, if_pos rfl]
  exact add_sub_cancel_left ..

/-- What a batch adds to the items is what it pays of their type. -/
theorem itemsAdded_after (f : Findings) (s : State) (caller : Address) (batch : Batch)
    (holder : Address) (creditType : CreditType) :
    (f.after (s.bump caller) batch).periodHolder.read
        (batch.bondId, batch.periodIndex, holder, creditType) -
      s.periodHolder.read (batch.bondId, batch.periodIndex, holder, creditType) =
        paidIn (f.entries batch) holder creditType := by
  have hread := periodHolder_after f (s.bump caller) batch batch.period holder creditType
  rw [if_pos rfl] at hread
  exact Int.sub_eq_iff_eq_add'.mpr hread

/-- A batch touches its bond, its period and its slice only. -/
theorem onlyTouches_after (f : Findings) (s : State) (caller : Address) (batch : Batch) :
    OnlyTouches s (f.after (s.bump caller) batch) batch.bondId batch.periodIndex batch.slice := by
  have hothers : ∀ {holder}, holder ∉ batch.slice → ∀ e ∈ f.entries batch, e.holder ≠ holder := by
    rintro holder hnot e he rfl
    exact hnot (mem_sliceEntries he).2.1
  constructor
  case accruedCredits =>
    intro b holder houtside
    rw [accruedCredits_after]
    rcases houtside with hbond | hnot
    · rw [if_neg hbond, Int.add_zero]
      rfl
    · rw [paidTo_eq_zero (hothers hnot), ite_self, Int.add_zero]
      rfl
  case accruedCreditsByType =>
    intro b holder creditType houtside
    rw [accruedCreditsByType_after]
    rcases houtside with hbond | hnot
    · rw [if_neg hbond, Int.add_zero]
      rfl
    · rw [paidIn_eq_zero (hothers hnot), ite_self, Int.add_zero]
      rfl
  case periodHolder =>
    intro period holder creditType houtside
    rw [periodHolder_after]
    rcases houtside with hperiod | hnot
    · have hother : period ≠ batch.period := hperiod
      rw [if_neg hother, Int.add_zero]
      rfl
    · rw [paidIn_eq_zero (hothers hnot), ite_self, Int.add_zero]
      rfl
  case periodInfo =>
    intro period hperiod
    exact get_set_ne _ _ hperiod
  case periodBatchCursor =>
    intro period hperiod
    exact read_set_ne _ _ hperiod
  case periodCount =>
    intro b hbond
    rw [periodCount_after, if_neg fun hboth => hbond hboth.1]
    rfl
  case undistributedTotal =>
    intro b hbond
    rw [undistributedTotal_after, if_neg hbond, Int.add_zero]
    rfl
  case bondProject => rfl
  case bondCreditType => rfl

/-- A coupon is a batch that pays the whole list. -/
theorem distributeCoupon_ok {env : Env} {peers : Peers} {s s' : State} {caller : Address}
    {bondId periodIndex : Nat} {holders : List Address} {reportId nonce : Nat}
    {result : CouponResult}
    (h : distributeCoupon env peers s caller bondId periodIndex holders reportId nonce =
      .ok (result, s')) :
    ∃ f, BatchFound peers s (couponBatch bondId periodIndex holders reportId) f ∧
      f.Computed bondId ∧ holders.Nodup ∧
        f.after (s.bump caller) (couponBatch bondId periodIndex holders reportId) = s' := by
  obtain ⟨-, -, -, -, f, hfound, hfits, hafter⟩ :=
    (distributeCouponBatch_ok_iff (couponBatch bondId periodIndex holders reportId)).mp
      ⟨result, h⟩
  have hnodup := hfound.slice_nodup
  rw [couponBatch_slice] at hnodup
  exact ⟨f, hfound, hfound.computed hfits.worth, hnodup, hafter⟩

/-- The entries of the whole list. -/
theorem couponBatch_entries (f : Findings) (bondId periodIndex : Nat) (holders : List Address)
    (reportId : Nat) : f.entries (couponBatch bondId periodIndex holders reportId) =
      sliceEntries f.issuer f.creditType f.rates bondId holders := by
  unfold Findings.entries
  rw [couponBatch_slice]
  rfl

/-- The record of a coupon that starts its period. -/
theorem couponInfo {peers : Peers} {s : State} (hs : s.StartsEmpty) {bondId periodIndex : Nat}
    {holders : List Address} {reportId : Nat} {f : Findings}
    (hfound : BatchFound peers s (couponBatch bondId periodIndex holders reportId) f)
    (caller : Address) :
    (f.periodInfo (s.bump caller)
      (couponBatch bondId periodIndex holders reportId)).totalCreditsEarned =
        entriesTotal (f.entries (couponBatch bondId periodIndex holders reportId)) ∧
    (f.periodInfo (s.bump caller)
      (couponBatch bondId periodIndex holders reportId)).undistributed =
        f.totalCredits -
          entriesTotal (f.entries (couponBatch bondId periodIndex holders reportId)) := by
  have hbefore : earnedBefore (s.bump caller)
      (couponBatch bondId periodIndex holders reportId).period = 0 :=
    hs _ hfound.offset_eq.symm
  have hcomplete : (couponBatch bondId periodIndex holders reportId).stop =
      (couponBatch bondId periodIndex holders reportId).holders.length := couponBatch_stop ..
  simp [Findings.periodInfo, hbefore, hcomplete]

/-- A coupon adds its gains for the holders of the list, and nothing for others. -/
theorem coupon_creditsAdded {peers : Peers} {s : State} {bondId periodIndex : Nat}
    {holders : List Address} {reportId : Nat} {f : Findings}
    (hfound : BatchFound peers s (couponBatch bondId periodIndex holders reportId) f)
    (hcomputed : f.Computed bondId) (hsound : f.report.Sound)
    (hsupply : f.issuer.AddsUp bondId) (caller holder : Address)
    (creditType : CreditType) :
    creditsAdded s (f.after (s.bump caller) (couponBatch bondId periodIndex holders reportId))
        bondId holder creditType =
      if holder ∈ holders then
        f.gain creditType (BondIssuer.getHolderBalance f.issuer bondId holder)
      else 0 := by
  have hnodup := hfound.slice_nodup
  rw [couponBatch_slice] at hnodup
  have hadded := creditsAdded_after f s caller (couponBatch bondId periodIndex holders reportId)
    holder creditType
  rw [couponBatch_entries] at hadded
  exact hadded.trans (hcomputed.paidIn_slice hsound hnodup
    (fun holder' _ => hsupply.balance_nonneg holder') holder creditType)

/-- **Exact accounting.**  A coupon of a reached storage, on a bond whose tokens
add up and a report without negative metrics, books what it records,
leaves the rest of the report's worth, gives nobody more than the exact share of
each type, and touches nothing else. -/
theorem distributeCoupon_accounted {env : Env} {peers : Peers} {s s' : State}
    (hreached : s.Reached) {caller : Address} {bondId periodIndex : Nat}
    {holders : List Address} {reportId nonce : Nat} {result : CouponResult}
    {issuer : BondIssuer.State} (hissuer : s.issuerIn peers = some issuer)
    (hsupply : issuer.AddsUp bondId) {report : OracleConsumer.Report}
    (hreport : s.reportIn peers reportId = some report) (hsound : report.Sound)
    (h : distributeCoupon env peers s caller bondId periodIndex holders reportId nonce =
      .ok (result, s')) :
    ∃ creditType carbon biodiversity info, getBondCreditType s bondId = .ok creditType ∧
      creditTotals creditType report = .ok (carbon, biodiversity) ∧
      Accounted s s' issuer bondId periodIndex holders carbon biodiversity info := by
  obtain ⟨f, hfound, hcomputed, hnodup, rfl⟩ := distributeCoupon_ok h
  obtain rfl := Option.some.inj (hfound.issuerIn.symm.trans hissuer)
  obtain rfl := Option.some.inj (hfound.reportIn.symm.trans hreport)
  have hbalance := hsupply.balance_nonneg
  have hparts : f.totalSubscribed = f.issuer.subscribedTotal bondId := hfound.totalSubscribed_eq
  have hheld := hsupply.held_le hnodup
  rw [← hparts] at hheld
  obtain ⟨hearned, hrest⟩ := couponInfo hreached.startsEmpty hfound caller
  have hle := hcomputed.entriesTotal_le hsound (fun holder _ => hbalance holder) hheld
  have hcombined := accruedAdded_after f s caller
    (couponBatch bondId periodIndex holders reportId)
  have hadded := creditsAdded_after f s caller (couponBatch bondId periodIndex holders reportId)
  have hitems := itemsAdded_after f s caller (couponBatch bondId periodIndex holders reportId)
  have hkinds := paidTo_entries f (couponBatch bondId periodIndex holders reportId)
  rw [couponBatch_entries] at hearned hrest hcombined hadded hitems hkinds
  have hgains := coupon_creditsAdded hfound hcomputed hsound hsupply caller
  refine ⟨f.creditType, f.carbonTotal, f.biodiversityTotal,
    f.periodInfo (s.bump caller) (couponBatch bondId periodIndex holders reportId),
    okOr_ok_iff.mpr hfound.creditType, hfound.totals, ?_⟩
  constructor
  case info_eq => exact okOr_ok_iff.mpr (get_set_self ..)
  case distributed => exact decide_eq_true (couponBatch_stop ..)
  case booked_eq =>
    rw [hearned, ← hcomputed.sum_paidTo hsound hnodup fun holder _ => hbalance holder]
    exact congrArg List.sum (List.map_congr_left fun holder _ => hcombined holder)
  case worth_eq =>
    rw [hearned, hrest]
    exact add_sub_cancel ..
  case rest_nonneg =>
    rw [hrest]
    omega
  case kinds_eq =>
    intro holder
    calc _ = _ := hcombined holder
      _ = _ := hkinds holder
      _ = _ := congrArg₂ (· + ·) (hadded holder .carbon).symm (hadded holder .biodiversity).symm
  case items_eq =>
    intro holder creditType
    exact (hitems holder creditType).trans (hadded holder creditType).symm
  case share_nonneg =>
    intro holder creditType
    rw [hgains]
    split
    · exact hcomputed.gain_nonneg hsound (hbalance holder) creditType
    · exact le_rfl
  case share_le =>
    intro hpositive holder creditType
    have hworth := hcomputed.byType_nonneg hsound creditType
    rw [hgains]
    split
    · rw [← hparts] at hpositive ⊢
      rw [hcomputed.gain_eq hsound hpositive (hbalance holder)]
      exact ProRata.share_mul_le _ (by decide) hpositive (hbalance holder)
    · rw [Int.zero_mul]
      exact Int.mul_nonneg hworth (hbalance holder)
  case pool_eq =>
    have hpool := undistributedTotal_after f (s.bump caller)
      (couponBatch bondId periodIndex holders reportId) bondId
    have hrest0 : 0 ≤ (f.periodInfo (s.bump caller)
        (couponBatch bondId periodIndex holders reportId)).undistributed := by
      rw [hrest]
      omega
    rw [max_eq_left hrest0] at hpool
    exact hpool.trans (congrArg _ (if_pos rfl))
  case frame =>
    have hframe := onlyTouches_after f s caller (couponBatch bondId periodIndex holders reportId)
    rw [couponBatch_slice] at hframe
    exact hframe

/-- The contracts of the sample coupon. -/
def basketPeers : Peers where
  issuerAt address := if address = 101 then some basketIssuer else none
  oracleAt address := if address = 102 then
    some { OracleConsumer.constructor 0 with
      report := (OracleConsumer.constructor 0).report.set 1 basketReport }
    else none

/-- A call signed by the admin of the sample engine. -/
def basketEnv : Env := ⟨5, [0], none, 7, false⟩

/-- The engine once the basket bond is registered. -/
def basketEngine : State :=
  engineMachine.run (constructor 0 101 102) [
    ⟨basketEnv, basketPeers, .registerBond 0 1 BondIssuer.sampleConfig.projectId 0⟩]

/-- The sample's engine is reached. -/
theorem basketEngine_reached : basketEngine.Reached := ⟨0, 101, 102, _, rfl⟩

/-- The sample's coupon is paid. -/
theorem basketCoupon_ok :
    ∃ paid, distributeCoupon basketEnv basketPeers basketEngine 0 1 0 [1, 2] 1 1 = .ok paid :=
  exists_of_isOk (by decide +kernel)

/-- Of a coupon of a basket bond with two holders. -/
theorem distributeCoupon_accounted_sample :
    ∃ result s', distributeCoupon basketEnv basketPeers basketEngine 0 1 0 [1, 2] 1 1 =
        .ok (result, s') ∧
      ∃ creditType carbon biodiversity info,
        getBondCreditType basketEngine 1 = .ok creditType ∧
        creditTotals creditType basketReport = .ok (carbon, biodiversity) ∧
        Accounted basketEngine s' basketIssuer 1 0 [1, 2] carbon biodiversity info := by
  obtain ⟨⟨result, s'⟩, h⟩ := basketCoupon_ok
  exact ⟨result, s', h, distributeCoupon_accounted basketEngine_reached rfl
    ((BondIssuer.supplyInvariant_run 0 _).addsUp 1) rfl basketReport_sound h⟩

/-! ## Dust -/

/-- How many kinds of credit there is something of. -/
def positiveKinds (carbon biodiversity : Int) : Nat :=
  (if 0 < carbon then 1 else 0) + if 0 < biodiversity then 1 else 0

/-- When all tokens are held, a kind of credit leaves less than the tokens over
the scale and one unit for each holder, and nothing if there is none of it. -/
theorem Findings.Computed.dust_le {f : Findings} {bondId : Nat} (h : f.Computed bondId)
    (hsound : f.report.Sound) (hpositive : 0 < f.totalSubscribed) {balances : List Int}
    (hbalances : ∀ balance ∈ balances, 0 ≤ balance) (hsum : balances.sum = f.totalSubscribed)
    (creditType : CreditType) :
    FIXED_POINT * (byType f.carbonTotal f.biodiversityTotal creditType -
        (balances.map (f.gain creditType)).sum) ≤
      (if 0 < byType f.carbonTotal f.biodiversityTotal creditType then 1 else 0) *
        (FIXED_POINT * balances.length + f.totalSubscribed) := by
  have hgain : balances.map (f.gain creditType) = balances.map (ProRata.share FIXED_POINT
      (byType f.carbonTotal f.biodiversityTotal creditType) f.totalSubscribed) :=
    List.map_congr_left fun balance hmem =>
      h.gain_eq hsound hpositive (hbalances balance hmem) creditType
  split
  · rw [hgain, one_mul]
    exact ProRata.dust_le (by decide) hpositive hbalances hsum
  · next hnone =>
      have hworth := h.byType_nonneg hsound creditType
      have hnonneg : 0 ≤ (balances.map (f.gain creditType)).sum := by
        apply List.sum_nonneg
        intro x hx
        obtain ⟨balance, hmem, rfl⟩ := List.mem_map.mp hx
        exact h.gain_nonneg hsound (hbalances balance hmem) creditType
      rw [zero_mul]
      exact mul_nonpos_of_nonneg_of_nonpos (by decide) (by omega)

/-- **Dust.**  When the list names everyone who holds tokens, a coupon leaves, of
each kind of credit there is something of, less than one unit for each holder and
one for every `10 ^ 7` tokens; a holder loses less than one unit and the tokens
held over `10 ^ 7`. -/
theorem distributeCoupon_dust_le {env : Env} {peers : Peers} {s s' : State}
    (hreached : s.Reached) {caller : Address} {bondId periodIndex : Nat}
    {holders : List Address} {reportId nonce : Nat} {result : CouponResult}
    {issuer : BondIssuer.State} (hissuer : s.issuerIn peers = some issuer)
    (hsupply : issuer.AddsUp bondId) {report : OracleConsumer.Report}
    (hreport : s.reportIn peers reportId = some report) (hsound : report.Sound)
    (hpositive : 0 < issuer.subscribedTotal bondId)
    (hall : ∀ holder, 0 < BondIssuer.getHolderBalance issuer bondId holder → holder ∈ holders)
    (h : distributeCoupon env peers s caller bondId periodIndex holders reportId nonce =
      .ok (result, s')) :
    ∃ creditType carbon biodiversity info, getBondCreditType s bondId = .ok creditType ∧
      creditTotals creditType report = .ok (carbon, biodiversity) ∧
      getPeriodInfo s' bondId periodIndex = .ok info ∧
      10 ^ 7 * info.undistributed ≤ positiveKinds carbon biodiversity *
        (10 ^ 7 * holders.length + issuer.subscribedTotal bondId) ∧
      ∀ holder creditType,
        (byType carbon biodiversity creditType *
            BondIssuer.getHolderBalance issuer bondId holder / issuer.subscribedTotal bondId : ℚ) -
          creditsAdded s s' bondId holder creditType <
            BondIssuer.getHolderBalance issuer bondId holder / 10 ^ 7 + 1 := by
  obtain ⟨f, hfound, hcomputed, hnodup, rfl⟩ := distributeCoupon_ok h
  obtain rfl := Option.some.inj (hfound.issuerIn.symm.trans hissuer)
  obtain rfl := Option.some.inj (hfound.reportIn.symm.trans hreport)
  have hbalance := hsupply.balance_nonneg
  have hparts : f.totalSubscribed = f.issuer.subscribedTotal bondId := hfound.totalSubscribed_eq
  rw [← hparts] at hpositive ⊢
  refine ⟨f.creditType, f.carbonTotal, f.biodiversityTotal,
    f.periodInfo (s.bump caller) (couponBatch bondId periodIndex holders reportId),
    okOr_ok_iff.mpr hfound.creditType, hfound.totals, okOr_ok_iff.mpr (get_set_self ..), ?_, ?_⟩
  · have hnonneg : ∀ balance ∈ holders.map (BondIssuer.getHolderBalance f.issuer bondId),
        0 ≤ balance := by
      intro balance hmem
      obtain ⟨holder, -, rfl⟩ := List.mem_map.mp hmem
      exact hbalance holder
    have hheld := hsupply.held_eq_of_all hnodup hall
    rw [← hparts] at hheld
    have hdust := hcomputed.dust_le hsound hpositive hnonneg hheld
    have hcarbon := hdust .carbon
    have hbiodiversity := hdust .biodiversity
    simp only [byType, List.length_map] at hcarbon hbiodiversity
    obtain ⟨-, hrest⟩ := couponInfo hreached.startsEmpty hfound caller
    rw [couponBatch_entries, hcomputed.entriesTotal_slice hsound fun holder _ => hbalance holder,
      Findings.totalCredits] at hrest
    rw [hrest, positiveKinds]
    have hscale : (10 : Int) ^ 7 = FIXED_POINT := by decide
    have hboth := add_le_add hcarbon hbiodiversity
    rw [← mul_add, ← add_mul] at hboth
    rw [hscale, sub_add_eq_sub_sub, add_sub_right_comm, add_sub_assoc]
    exact_mod_cast hboth
  · intro holder creditType
    rw [coupon_creditsAdded hfound hcomputed hsound hsupply]
    split
    · rw [hcomputed.gain_eq hsound hpositive (hbalance holder)]
      exact_mod_cast ProRata.loss_lt_rat (by decide : 0 < FIXED_POINT) hpositive (hbalance holder)
    · next hnot =>
        have hzero : BondIssuer.getHolderBalance f.issuer bondId holder = 0 :=
          le_antisymm (not_lt.mp fun hpos => hnot (hall holder hpos)) (hbalance holder)
        simp [hzero]

/-- Holders of the sample bond. -/
theorem basketIssuer_holders (holder : Address)
    (hpos : 0 < BondIssuer.getHolderBalance basketIssuer 1 holder) : holder ∈ [1, 2] := by
  have hkeys : ∀ k ∈ basketIssuer.holderBalance.keys, k.2 ∈ [1, 2] := by decide +kernel
  refine hkeys (1, holder) (AList.mem_keys.mp (AList.lookup_isSome.mp ?_))
  by_contra hnone
  have hget : basketIssuer.holderBalance.get (1, holder) = none := by
    simpa [Storage.get] using hnone
  simp [BondIssuer.getHolderBalance, Storage.read, hget] at hpos

/-- The same coupon. -/
theorem distributeCoupon_dust_le_sample :
    ∃ result s', distributeCoupon basketEnv basketPeers basketEngine 0 1 0 [1, 2] 1 1 =
        .ok (result, s') ∧
      ∃ creditType carbon biodiversity info,
        getBondCreditType basketEngine 1 = .ok creditType ∧
        creditTotals creditType basketReport = .ok (carbon, biodiversity) ∧
        getPeriodInfo s' 1 0 = .ok info ∧
        10 ^ 7 * info.undistributed ≤ positiveKinds carbon biodiversity *
          (10 ^ 7 * ([1, 2] : List Address).length + basketIssuer.subscribedTotal 1) ∧
        ∀ holder creditType,
          (byType carbon biodiversity creditType *
              BondIssuer.getHolderBalance basketIssuer 1 holder /
                basketIssuer.subscribedTotal 1 : ℚ) -
            creditsAdded basketEngine s' 1 holder creditType <
              BondIssuer.getHolderBalance basketIssuer 1 holder / 10 ^ 7 + 1 := by
  obtain ⟨⟨result, s'⟩, h⟩ := basketCoupon_ok
  exact ⟨result, s', h, distributeCoupon_dust_le basketEngine_reached rfl
    ((BondIssuer.supplyInvariant_run 0 _).addsUp 1) rfl basketReport_sound (by decide +kernel)
    basketIssuer_holders h⟩

end EcoMint.CouponEngine
