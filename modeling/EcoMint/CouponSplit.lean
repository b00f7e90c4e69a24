import EcoMint.CouponAccounting

/-!
# Coupons in batches

A list of holders can be paid in one call or in several consecutive batches.
Two neighbouring batches do what one batch over both stretches does, and succeed
when it does; so every way to split a list leaves the storage that one batch
over the whole list leaves, its caller's nonce apart.
-/

namespace EcoMint.CouponEngine

open Fallible IntRange Storage

attribute [ext] State

/-! ## Two neighbouring batches -/

/-- The batch that pays another stretch of the same list. -/
def Batch.stretch (whole : Batch) (offset limit : Nat) : Batch :=
  { whole with offset, limit }

@[simp] theorem stretch_period (whole : Batch) (offset limit : Nat) :
    (whole.stretch offset limit).period = whole.period := rfl

@[simp] theorem stretch_bondId (whole : Batch) (offset limit : Nat) :
    (whole.stretch offset limit).bondId = whole.bondId := rfl

@[simp] theorem stretch_holders (whole : Batch) (offset limit : Nat) :
    (whole.stretch offset limit).holders = whole.holders := rfl

/-- Two stretches in a row stop where the one stretch over both does. -/
theorem stretch_stop (whole : Batch) (offset first rest : Nat) :
    (whole.stretch (offset + first) rest).stop = (whole.stretch offset (first + rest)).stop :=
  Nat.add_assoc ..

/-- The slice of a stretch is the slice of its first part followed by that of the rest. -/
theorem stretch_slice (whole : Batch) (offset first rest : Nat) :
    (whole.stretch offset (first + rest)).slice =
      (whole.stretch offset first).slice ++ (whole.stretch (offset + first) rest).slice := by
  simp only [Batch.slice, Batch.stretch]
  rw [List.take_add, List.drop_drop]

/-- The entries of a stretch are those of its first part followed by those of the rest. -/
theorem stretch_entries (f : Findings) (whole : Batch) (offset first rest : Nat) :
    f.entries (whole.stretch offset (first + rest)) =
      f.entries (whole.stretch offset first) ++
        f.entries (whole.stretch (offset + first) rest) := by
  unfold Findings.entries
  rw [stretch_slice]
  exact sliceEntries_append ..

theorem entries_total_nonneg (f : Findings) (batch : Batch) :
    0 ≤ entriesTotal (f.entries batch) :=
  sliceEntries_total_nonneg ..

section Merge

variable (f : Findings) (s : State) (whole : Batch) (offset first rest : Nat)

/-- After the first part has been paid, what the period earned is what it earned before
and what that part pays. -/
theorem earnedBefore_after : earnedBefore (f.after s (whole.stretch offset first)) whole.period =
    earnedBefore s whole.period + entriesTotal (f.entries (whole.stretch offset first)) := by
  show (((s.periodInfo.set whole.period
    (f.periodInfo s (whole.stretch offset first))).get whole.period).map
      PeriodInfo.totalCreditsEarned).getD 0 = _
  rw [get_set_self]
  rfl

/-- The record of a batch, once the batch before it is recorded, is the record
of both. -/
theorem periodInfo_merge :
    f.periodInfo (f.after s (whole.stretch offset first))
        (whole.stretch (offset + first) rest) =
      f.periodInfo s (whole.stretch offset (first + rest)) := by
  simp only [Findings.periodInfo, stretch_period, earnedBefore_after, stretch_stop,
    stretch_entries, entriesTotal_append, Int.add_assoc]
  rfl

variable {f s whole offset first rest}

/-- **Merge lemma, storage.**  Two neighbouring batches leave what one batch over
both stretches leaves, unless the first already completes the list. -/
theorem after_merge (hopen : offset + first ≠ whole.holders.length) :
    f.after (f.after s (whole.stretch offset first)) (whole.stretch (offset + first) rest) =
      f.after s (whole.stretch offset (first + rest)) := by
  have hinfo := periodInfo_merge f s whole offset first rest
  have hstop := stretch_stop whole offset first rest
  have hnotYet : ¬ 0 < (f.periodInfo s (whole.stretch offset first)).undistributed := by
    have hzero : (f.periodInfo s (whole.stretch offset first)).undistributed = 0 := if_neg hopen
    omega
  have hpool : (f.after s (whole.stretch offset first)).undistributedTotal =
      s.undistributedTotal := if_neg hnotYet
  have hcount : (f.after s (whole.stretch offset first)).periodCount = s.periodCount :=
    if_neg hopen
  have haccrued : ((s.accrueAll whole.bondId whole.periodIndex
      (f.entries (whole.stretch offset first))).accrueAll whole.bondId whole.periodIndex
        (f.entries (whole.stretch (offset + first) rest))) =
      s.accrueAll whole.bondId whole.periodIndex
        (f.entries (whole.stretch offset (first + rest))) := by
    rw [stretch_entries, accrueAll_append]
  apply State.ext
  case admin | bondProject | bondCreditType | bondIssuerAddress | oracleConsumerAddress | nonce =>
    rfl
  case periodInfo =>
    show (s.periodInfo.set whole.period _).set whole.period _ = s.periodInfo.set whole.period _
    rw [hinfo]
    exact AList.insert_insert _
  case periodBatchCursor =>
    show (s.periodBatchCursor.set whole.period _).set whole.period _ =
      s.periodBatchCursor.set whole.period _
    rw [hstop]
    exact AList.insert_insert _
  case periodCount =>
    show (if _ then _ else _ : Storage Nat Nat) = if _ then _ else _
    rw [hstop, hcount]
    rfl
  case undistributedTotal =>
    show (if _ then _ else _ : Storage Nat Int) = if _ then _ else _
    rw [hinfo, hpool]
    rfl
  case accruedCredits =>
    have hledger := congrArg State.accruedCredits haccrued
    exact hledger
  case accruedCreditsByType =>
    have hledger := congrArg State.accruedCreditsByType haccrued
    exact hledger
  case periodHolder =>
    have hledger := congrArg State.periodHolder haccrued
    exact hledger

/-- **Merge lemma, findings.** -/
theorem found_merge {peers : Peers} (hrest : 0 < rest) :
    BatchFound peers s (whole.stretch offset first) f ∧
        BatchFound peers (f.after s (whole.stretch offset first))
          (whole.stretch (offset + first) rest) f ↔
      BatchFound peers s (whole.stretch offset (first + rest)) f := by
  have hstop := stretch_stop whole offset first rest
  have hsplit : FreshBetween whole.holders offset (offset + (first + rest)) ↔
      FreshBetween whole.holders offset (offset + first) ∧
        FreshBetween whole.holders (offset + first) (offset + first + rest) := by
    rw [← Nat.add_assoc]
    exact freshBetween_split (Nat.le_add_right ..) (Nat.le_add_right ..)
  constructor
  · rintro ⟨h, h'⟩
    exact ⟨h.issuer, h.report, h.verified, h.project, h.creditType, h.unpaid, h.totals,
      h.subscribed, h.creditsPerToken, h.carbonPerToken, h.biodiversityPerToken, h.offset_eq,
      hstop ▸ h'.stop_le, hsplit.mpr ⟨h.fresh, h'.fresh⟩⟩
  · intro h
    obtain ⟨hfresh, hfresh'⟩ := hsplit.mp h.fresh
    have hle : offset + (first + rest) ≤ whole.holders.length := h.stop_le
    have hopen : (whole.stretch offset first).stop ≠ whole.holders.length := by
      show offset + first ≠ whole.holders.length
      omega
    have hunpaid : ∀ info,
        (f.after s (whole.stretch offset first)).periodInfo.get whole.period = some info →
          info.distributed = false ∧ info.reportId = whole.reportId := by
      intro info hget
      obtain rfl := Option.some.inj ((get_set_self ..).symm.trans hget)
      exact ⟨decide_eq_false hopen, rfl⟩
    have hcursor : offset + first =
        (f.after s (whole.stretch offset first)).periodBatchCursor.read whole.period :=
      (read_set_self ..).symm
    constructor
    · exact ⟨h.issuer, h.report, h.verified, h.project, h.creditType, h.unpaid, h.totals,
        h.subscribed, h.creditsPerToken, h.carbonPerToken, h.biodiversityPerToken, h.offset_eq,
        (Nat.add_le_add_left (Nat.le_add_right first rest) offset).trans hle, hfresh⟩
    · exact ⟨h.issuer, h.report, h.verified, h.project, h.creditType, hunpaid, h.totals,
        h.subscribed, h.creditsPerToken, h.carbonPerToken, h.biodiversityPerToken, hcursor,
        hstop.trans_le h.stop_le, hfresh'⟩

/-- **Merge lemma, bounds.**  What a period earned before is not negative, so the
sums of a part stay within the sums of the whole. -/
theorem fits_merge (hbefore : 0 ≤ earnedBefore s whole.period)
    (hopen : offset + first ≠ whole.holders.length) :
    BatchFits s (whole.stretch offset first) f ∧
        BatchFits (f.after s (whole.stretch offset first))
          (whole.stretch (offset + first) rest) f ↔
      BatchFits s (whole.stretch offset (first + rest)) f := by
  have hstop := stretch_stop whole offset first rest
  have hinfo := periodInfo_merge f s whole offset first rest
  have hnone : (f.periodInfo s (whole.stretch offset first)).undistributed = 0 := if_neg hopen
  have hpool : (f.after s (whole.stretch offset first)).undistributedTotal =
      s.undistributedTotal := by
    refine if_neg ?_
    omega
  have hearned : earnedBefore (f.after s (whole.stretch offset first)) whole.period +
      entriesTotal (f.entries (whole.stretch (offset + first) rest)) =
        earnedBefore s whole.period +
          entriesTotal (f.entries (whole.stretch offset (first + rest))) := by
    rw [earnedBefore_after, stretch_entries, entriesTotal_append, Int.add_assoc]
  have htotal : entriesTotal (f.entries (whole.stretch offset (first + rest))) =
      entriesTotal (f.entries (whole.stretch offset first)) +
        entriesTotal (f.entries (whole.stretch (offset + first) rest)) := by
    rw [stretch_entries, entriesTotal_append]
  have hfirst0 := entries_total_nonneg f (whole.stretch offset first)
  have hrest0 := entries_total_nonneg f (whole.stretch (offset + first) rest)
  have hratios : RatiosFit f.issuer f.creditType f.rates whole.bondId
      (whole.stretch offset (first + rest)).slice ↔
        RatiosFit f.issuer f.creditType f.rates whole.bondId (whole.stretch offset first).slice ∧
          RatiosFit f.issuer f.creditType f.rates whole.bondId
            (whole.stretch (offset + first) rest).slice := by
    rw [stretch_slice]
    exact List.forall_mem_append
  have haccruals : AccrualsFit whole.bondId whole.periodIndex s
      (f.entries (whole.stretch offset (first + rest))) ↔
        AccrualsFit whole.bondId whole.periodIndex s (f.entries (whole.stretch offset first)) ∧
          AccrualsFit whole.bondId whole.periodIndex (f.after s (whole.stretch offset first))
            (f.entries (whole.stretch (offset + first) rest)) := by
    rw [stretch_entries, accrualsFit_append]
    exact and_congr_right fun _ => accrualsFit_congr rfl rfl rfl
  constructor
  · rintro ⟨h, h'⟩
    have hsum := h'.earned
    have hlast := h'.rest
    have hpooled := h'.pool
    simp only [stretch_period, stretch_bondId, stretch_holders, hearned, hinfo, hpool,
      hstop] at hsum hlast hpooled
    refine ⟨h.worth, hstop ▸ h'.stop, hratios.mpr ⟨h.ratios, h'.ratios⟩,
      haccruals.mpr ⟨h.accruals, h'.accruals⟩, ?_, hsum, hlast, hpooled⟩
    exact hsum.of_nonneg_of_le i128 (by omega) (by omega)
  · intro h
    obtain ⟨hratiosFirst, hratiosRest⟩ := hratios.mp h.ratios
    obtain ⟨haccrualsFirst, haccrualsRest⟩ := haccruals.mp h.accruals
    have hsum : i128.Fits (earnedBefore s whole.period +
      entriesTotal (f.entries (whole.stretch offset (first + rest)))) := h.earned
    have hpaid := h.paid
    have hstopped : (whole.stretch offset first).stop ≤
        (whole.stretch offset (first + rest)).stop :=
      Nat.add_le_add_left (Nat.le_add_right first rest) offset
    constructor
    · refine ⟨h.worth, ?_, hratiosFirst, haccrualsFirst, ?_, ?_,
        fun hcomplete => absurd hcomplete hopen, ?_⟩
      · exact h.stop.of_nonneg_of_le u32 (Int.natCast_nonneg _) (by exact_mod_cast hstopped)
      · exact hpaid.of_nonneg_of_le i128 hfirst0 (by omega)
      · exact hsum.of_nonneg_of_le i128 (by simp only [stretch_period]; omega)
          (by simp only [stretch_period]; omega)
      · intro hpos
        omega
    · refine ⟨h.worth, hstop ▸ h.stop, hratiosRest, haccrualsRest, ?_, ?_, ?_, ?_⟩
      · exact hpaid.of_nonneg_of_le i128 hrest0 (by omega)
      · simpa only [stretch_period, hearned] using hsum
      · simpa only [stretch_period, stretch_holders, hearned, hstop] using h.rest
      · simpa only [stretch_bondId, hinfo, hpool] using h.pool

end Merge

/-! ## Nonces between the batches -/

/-- The storage after `addr` used up so many nonces. -/
def State.bumpTimes (s : State) (addr : Address) : Nat → State
  | 0 => s
  | n + 1 => (s.bump addr).bumpTimes addr n

/-- Bumping a nonce several times changes the nonces only. -/
theorem bumpTimes_eq (s : State) (addr : Address) (n : Nat) :
    s.bumpTimes addr n = { s with nonce := (s.bumpTimes addr n).nonce } := by
  induction n generalizing s with
  | zero => rfl
  | succ n ih => exact ih (s.bump addr)

/-- Bumping one address's nonce leaves everybody else's as it is. -/
theorem bumpTimes_nonce_ne (s : State) {addr other : Address} (hne : other ≠ addr) (n : Nat) :
    (s.bumpTimes addr n).nonce.read other = s.nonce.read other := by
  induction n generalizing s with
  | zero => rfl
  | succ n ih => exact (ih (s.bump addr)).trans (read_set_ne _ _ hne)

/-- Bumping a nonce and paying a batch can be done in either order. -/
theorem after_bump (f : Findings) (s : State) (addr : Address) (batch : Batch) :
    f.after (s.bump addr) batch = (f.after s batch).bump addr := rfl

/-- What a batch finds does not depend on the caller's nonce. -/
theorem found_bump {peers : Peers} {s : State} {addr : Address} {batch : Batch} {f : Findings} :
    BatchFound peers (s.bump addr) batch f ↔ BatchFound peers s batch f := by
  constructor <;> rintro ⟨h1, h2, h3, h4, h5, h6, h7, h8, h9, h10, h11, h12, h13, h14⟩ <;>
    exact ⟨h1, h2, h3, h4, h5, h6, h7, h8, h9, h10, h11, h12, h13, h14⟩

/-- Whether a batch's sums fit does not depend on the caller's nonce. -/
theorem fits_bump {s : State} {addr : Address} {batch : Batch} {f : Findings} :
    BatchFits (s.bump addr) batch f ↔ BatchFits s batch f := by
  have haccruals : AccrualsFit batch.bondId batch.periodIndex (s.bump addr) (f.entries batch) ↔
      AccrualsFit batch.bondId batch.periodIndex s (f.entries batch) :=
    accrualsFit_congr rfl rfl rfl
  constructor
  · intro h
    exact ⟨h.worth, h.stop, h.ratios, haccruals.mp h.accruals, h.paid, h.earned, h.rest, h.pool⟩
  · intro h
    exact ⟨h.worth, h.stop, h.ratios, haccruals.mpr h.accruals, h.paid, h.earned, h.rest, h.pool⟩

/-! ## Splitting a list -/

/-- Consecutive batches of a list from a position on, each in its environment
and with its length, by one caller who uses one nonce after the other. -/
def distributeInBatches (peers : Peers) (caller : Address) (bondId periodIndex : Nat)
    (holders : List Address) (reportId : Nat) :
    (offset nonce : Nat) → List (Env × Nat) → State → Fallible BondError State
  | _, _, [], s => return s
  | offset, nonce, (env, limit) :: rest, s => do
      let (_, s) ← distributeCouponBatch env peers s caller bondId periodIndex holders reportId
        offset limit nonce
      distributeInBatches peers caller bondId periodIndex holders reportId (offset + limit)
        (nonce + 1) rest s

/-- The first batch, and the rest from the storage it leaves. -/
theorem distributeInBatches_cons_ok_iff {peers : Peers} {caller : Address}
    {bondId periodIndex : Nat} {holders : List Address} {reportId offset nonce limit : Nat}
    {env : Env} {rest : List (Env × Nat)} {s s' : State} :
    distributeInBatches peers caller bondId periodIndex holders reportId offset nonce
        ((env, limit) :: rest) s = .ok s' ↔
      env.Authorizes caller ∧ nonce = s.nonce.read caller ∧ s.admin = some caller ∧
        limit ≤ MAX_COUPON_BATCH_SIZE ∧
        ∃ f, BatchFound peers s
            ((couponBatch bondId periodIndex holders reportId).stretch offset limit) f ∧
          BatchFits s ((couponBatch bondId periodIndex holders reportId).stretch offset limit) f ∧
          distributeInBatches peers caller bondId periodIndex holders reportId (offset + limit)
            (nonce + 1) rest ((f.after s ((couponBatch bondId periodIndex holders reportId).stretch
              offset limit)).bump caller) = .ok s' := by
  have hfirst : ∀ s₁, (∃ result, distributeCouponBatch env peers s caller bondId periodIndex
      holders reportId offset limit nonce = .ok (result, s₁)) ↔ _ := fun s₁ =>
    distributeCouponBatch_ok_iff
      ((couponBatch bondId periodIndex holders reportId).stretch offset limit)
  simp only [distributeInBatches, bind_ok_iff, Prod.exists]
  constructor
  · rintro ⟨result, s₁, hbatch, hrest⟩
    obtain ⟨hauth, hnonce, hadmin, hlimit, f, hfound, hfits, rfl⟩ := (hfirst s₁).mp ⟨result, hbatch⟩
    exact ⟨hauth, hnonce, hadmin, hlimit, f, hfound, hfits, hrest⟩
  · rintro ⟨hauth, hnonce, hadmin, hlimit, f, hfound, hfits, hrest⟩
    obtain ⟨result, hbatch⟩ := (hfirst _).mpr
      ⟨hauth, hnonce, hadmin, hlimit, f, hfound, hfits, rfl⟩
    exact ⟨result, _, hbatch, hrest⟩

/-- **Run lemma.**  Consecutive batches succeed exactly if one batch over all of
them would, and leave what it would leave. -/
theorem distributeInBatches_ok_iff {peers : Peers} {caller : Address} {bondId periodIndex : Nat}
    {holders : List Address} {reportId offset nonce : Nat} {batches : List (Env × Nat)}
    {s s' : State} (hne : batches ≠ []) (hpos : ∀ b ∈ batches.tail, 0 < b.2)
    (hlimit : ∀ b ∈ batches, b.2 ≤ MAX_COUPON_BATCH_SIZE)
    (hbefore : 0 ≤ earnedBefore s (bondId, periodIndex)) :
    distributeInBatches peers caller bondId periodIndex holders reportId offset nonce batches s =
        .ok s' ↔
      (∀ b ∈ batches, b.1.Authorizes caller) ∧ nonce = s.nonce.read caller ∧
        s.admin = some caller ∧
        ∃ f, BatchFound peers s ((couponBatch bondId periodIndex holders reportId).stretch offset
            (batches.map Prod.snd).sum) f ∧
          BatchFits s ((couponBatch bondId periodIndex holders reportId).stretch offset
            (batches.map Prod.snd).sum) f ∧
          (f.after s ((couponBatch bondId periodIndex holders reportId).stretch offset
            (batches.map Prod.snd).sum)).bumpTimes caller batches.length = s' := by
  induction batches generalizing offset nonce s with
  | nil => exact absurd rfl hne
  | cons batch rest ih =>
      obtain ⟨env, limit⟩ := batch
      let whole := couponBatch bondId periodIndex holders reportId
      rw [distributeInBatches_cons_ok_iff]
      simp only [List.map_cons, List.sum_cons, List.forall_mem_cons, List.length_cons]
      cases hlater : rest with
      | nil =>
          simp only [distributeInBatches, pure_ok_iff, List.map_nil, List.sum_nil, Nat.add_zero,
            List.length_nil, List.not_mem_nil, false_imp_iff, implies_true, and_true]
          constructor
          · rintro ⟨hauth, hnonce, hadmin, -, f, hfound, hfits, rfl⟩
            exact ⟨hauth, hnonce, hadmin, f, hfound, hfits, rfl⟩
          · rintro ⟨hauth, hnonce, hadmin, f, hfound, hfits, rfl⟩
            exact ⟨hauth, hnonce, hadmin, hlimit _ (List.mem_cons_self ..), f, hfound, hfits, rfl⟩
      | cons next later =>
          rw [← hlater]
          have hnonempty : rest ≠ [] := by simp [hlater]
          have hsum : 0 < (rest.map Prod.snd).sum := by
            have hnext := hpos next (by simp [hlater])
            rw [hlater, List.map_cons, List.sum_cons]
            omega
          have hrestPos : ∀ b ∈ rest.tail, 0 < b.2 :=
            fun b hmem => hpos b (List.mem_of_mem_tail hmem)
          have hrestLimit : ∀ b ∈ rest, b.2 ≤ MAX_COUPON_BATCH_SIZE :=
            fun b hmem => hlimit b (List.mem_cons_of_mem _ hmem)
          -- the rest runs as one batch, from the storage the first batch leaves
          have hrest : ∀ f : Findings,
              distributeInBatches peers caller bondId periodIndex holders reportId
                  (offset + limit) (nonce + 1) rest
                  ((f.after s (whole.stretch offset limit)).bump caller) = .ok s' ↔
                (∀ b ∈ rest, b.1.Authorizes caller) ∧ nonce = s.nonce.read caller ∧
                  s.admin = some caller ∧
                  ∃ f', BatchFound peers (f.after s (whole.stretch offset limit))
                      (whole.stretch (offset + limit) (rest.map Prod.snd).sum) f' ∧
                    BatchFits (f.after s (whole.stretch offset limit))
                      (whole.stretch (offset + limit) (rest.map Prod.snd).sum) f' ∧
                    (f'.after (f.after s (whole.stretch offset limit))
                      (whole.stretch (offset + limit) (rest.map Prod.snd).sum)).bumpTimes
                        caller (rest.length + 1) = s' := by
            intro f
            have hearned : 0 ≤ earnedBefore ((f.after s (whole.stretch offset limit)).bump caller)
                (bondId, periodIndex) := by
              have hafter := earnedBefore_after f s whole offset limit
              have hpaid := entries_total_nonneg f (whole.stretch offset limit)
              exact (Int.add_nonneg hbefore hpaid).trans_eq hafter.symm
            have hread : ((f.after s (whole.stretch offset limit)).bump caller).nonce.read caller =
                s.nonce.read caller + 1 := read_set_self ..
            rw [ih hnonempty hrestPos hrestLimit hearned, hread, Nat.add_right_cancel_iff]
            simp only [found_bump, fits_bump, after_bump]
            rfl
          have hopen : ∀ f, BatchFound peers s
              (whole.stretch offset (limit + (rest.map Prod.snd).sum)) f →
                offset + limit ≠ whole.holders.length := by
            intro f hfound
            have hle : offset + (limit + (rest.map Prod.snd).sum) ≤ whole.holders.length :=
              hfound.stop_le
            omega
          constructor
          · rintro ⟨hauth, hnonce, hadmin, -, f, hfound, hfits, hdone⟩
            obtain ⟨hauths, -, -, f', hfound', hfits', rfl⟩ := (hrest f).mp hdone
            obtain rfl := hfound.determined hfound' rfl rfl rfl rfl rfl
            have hboth := (found_merge hsum).mp ⟨hfound, hfound'⟩
            refine ⟨⟨hauth, hauths⟩, hnonce, hadmin, f, hboth,
              (fits_merge hbefore (hopen f hboth)).mp ⟨hfits, hfits'⟩, ?_⟩
            rw [after_merge (hopen f hboth)]
          · rintro ⟨⟨hauth, hauths⟩, hnonce, hadmin, f, hboth, hfitsBoth, rfl⟩
            obtain ⟨hfound, hfound'⟩ := (found_merge hsum).mpr hboth
            obtain ⟨hfits, hfits'⟩ := (fits_merge hbefore (hopen f hboth)).mpr hfitsBoth
            refine ⟨hauth, hnonce, hadmin, hlimit _ (List.mem_cons_self ..), f, hfound, hfits,
              (hrest f).mpr ⟨hauths, hnonce, hadmin, f, hfound', hfits', ?_⟩⟩
            rw [after_merge (hopen f hboth)]

/-! ## The ways to pay a list -/

/-- A way to pay a list: the single call, or at least one batch. -/
inductive Way
  | single (env : Env)
  | batches (first : Env × Nat) (rest : List (Env × Nat))

/-- The environments of a way's calls. -/
def Way.envs : Way → List Env
  | .single env => [env]
  | .batches first rest => (first :: rest).map Prod.fst

/-- The calls of a way, one after the other. -/
def Way.run (way : Way) (peers : Peers) (s : State) (caller : Address)
    (bondId periodIndex : Nat) (holders : List Address) (reportId nonce : Nat) :
    Fallible BondError State :=
  match way with
  | .single env => do
      let (_, s) ← distributeCoupon env peers s caller bondId periodIndex holders reportId nonce
      return s
  | .batches first rest =>
      distributeInBatches peers caller bondId periodIndex holders reportId 0 nonce
        (first :: rest) s

/-- The way pays the list: its batches have at least one holder each, at most as
many as the contract allows, and together all of the list. -/
def Way.Splits (way : Way) (holders : List Address) : Prop :=
  match way with
  | .single _ => holders.length ≤ MAX_COUPON_BATCH_SIZE
  | .batches first rest =>
      (∀ batch ∈ first :: rest, 0 < batch.2 ∧ batch.2 ≤ MAX_COUPON_BATCH_SIZE) ∧
        ((first :: rest).map Prod.snd).sum = holders.length

/-- Whatever the way, it does what one batch over the whole list would do. -/
theorem Way.run_ok_iff {way : Way} {peers : Peers} {s s' : State} {caller : Address}
    {bondId periodIndex : Nat} {holders : List Address} {reportId nonce : Nat}
    (hsplits : way.Splits holders) (hbefore : 0 ≤ earnedBefore s (bondId, periodIndex)) :
    way.run peers s caller bondId periodIndex holders reportId nonce = .ok s' ↔
      (∀ env ∈ way.envs, env.Authorizes caller) ∧ nonce = s.nonce.read caller ∧
        s.admin = some caller ∧
        ∃ f, BatchFound peers s (couponBatch bondId periodIndex holders reportId) f ∧
          BatchFits s (couponBatch bondId periodIndex holders reportId) f ∧
          (f.after s (couponBatch bondId periodIndex holders reportId)).bumpTimes caller
            way.envs.length = s' := by
  cases way with
  | single env =>
      have hrun : (Way.single env).run peers s caller bondId periodIndex holders reportId nonce =
          distributeInBatches peers caller bondId periodIndex holders reportId 0 nonce
            [(env, holders.length)] s := rfl
      have hlimit : ∀ b ∈ [(env, holders.length)], b.2 ≤ MAX_COUPON_BATCH_SIZE :=
        List.forall_mem_singleton.mpr hsplits
      rw [hrun, distributeInBatches_ok_iff (by simp) (by simp) hlimit hbefore]
      simp only [List.forall_mem_singleton, Way.envs]
      rfl
  | batches first rest =>
      obtain ⟨hsizes, hsum⟩ := hsplits
      have hpos : ∀ b ∈ (first :: rest).tail, 0 < b.2 :=
        fun b hmem => (hsizes b (List.mem_of_mem_tail hmem)).1
      have hrun : (Way.batches first rest).run peers s caller bondId periodIndex holders reportId
          nonce = distributeInBatches peers caller bondId periodIndex holders reportId 0 nonce
            (first :: rest) s := rfl
      rw [hrun, distributeInBatches_ok_iff (by simp) hpos (fun b hmem => (hsizes b hmem).2)
        hbefore, hsum]
      simp only [Way.envs, List.forall_mem_map, List.length_map]
      rfl

/-- **Batching does not matter.**  Any two ways to pay a list for a period that
has no batch yet, signed alike, are both accepted or both fail, and leave the same
storage, the nonce of the caller apart. -/
theorem split_agrees {peers : Peers} {s : State} {caller : Address} {bondId periodIndex : Nat}
    {holders : List Address} {reportId nonce : Nat} {way way' : Way}
    (hnone : s.periodInfo.get (bondId, periodIndex) = none)
    (hsplits : way.Splits holders) (hsplits' : way'.Splits holders)
    (hsigned : ∀ env ∈ way.envs, ∀ env' ∈ way'.envs,
      (env.Authorizes caller ↔ env'.Authorizes caller)) :
    ((∃ s₁, way.run peers s caller bondId periodIndex holders reportId nonce = .ok s₁) ↔
      ∃ s₂, way'.run peers s caller bondId periodIndex holders reportId nonce = .ok s₂) ∧
    ∀ s₁ s₂, way.run peers s caller bondId periodIndex holders reportId nonce = .ok s₁ →
      way'.run peers s caller bondId periodIndex holders reportId nonce = .ok s₂ →
        s₂ = { s₁ with nonce := s₂.nonce } ∧
          ∀ address, address ≠ caller → s₂.nonce.read address = s₁.nonce.read address := by
  have hbefore : 0 ≤ earnedBefore s (bondId, periodIndex) := by
    simp [earnedBefore, hnone]
  have hnonempty : ∀ w : Way, ∃ env, env ∈ w.envs := by
    rintro (env | ⟨first, rest⟩)
    · exact ⟨env, List.mem_singleton_self env⟩
    · exact ⟨first.1, List.mem_cons_self ..⟩
  have hauth : (∀ env ∈ way.envs, env.Authorizes caller) ↔
      ∀ env' ∈ way'.envs, env'.Authorizes caller := by
    obtain ⟨env, henv⟩ := hnonempty way
    obtain ⟨env', henv'⟩ := hnonempty way'
    constructor
    · intro h env₂ hmem
      exact (hsigned env henv env₂ hmem).mp (h env henv)
    · intro h env₁ hmem
      exact (hsigned env₁ hmem env' henv').mpr (h env' henv')
  constructor
  · simp only [Way.run_ok_iff hsplits hbefore, Way.run_ok_iff hsplits' hbefore, hauth]
    constructor
    · rintro ⟨_, hauths, hnonce, hadmin, f, hfound, hfits, -⟩
      exact ⟨_, hauths, hnonce, hadmin, f, hfound, hfits, rfl⟩
    · rintro ⟨_, hauths, hnonce, hadmin, f, hfound, hfits, -⟩
      exact ⟨_, hauths, hnonce, hadmin, f, hfound, hfits, rfl⟩
  · intro s₁ s₂ h₁ h₂
    obtain ⟨-, -, -, f, hfound, -, rfl⟩ := (Way.run_ok_iff hsplits hbefore).mp h₁
    obtain ⟨-, -, -, f', hfound', -, rfl⟩ := (Way.run_ok_iff hsplits' hbefore).mp h₂
    obtain rfl := hfound.unique hfound'
    constructor
    · rw [bumpTimes_eq _ caller way.envs.length]
      exact bumpTimes_eq ..
    · intro address hne
      rw [bumpTimes_nonce_ne _ hne, bumpTimes_nonce_ne _ hne]

/-- Two holders in one call, and in two batches. -/
theorem split_agrees_sample :
    (∃ s₁, (Way.single basketEnv).run basketPeers basketEngine 0 1 0 [1, 2] 1 1 = .ok s₁) ∧
    ∃ s₂, (Way.batches (basketEnv, 1) [(basketEnv, 1)]).run basketPeers basketEngine 0 1 0
      [1, 2] 1 1 = .ok s₂ := by
  have hsingle : ∃ s₁, (Way.single basketEnv).run basketPeers basketEngine 0 1 0 [1, 2] 1 1 =
      .ok s₁ := exists_of_isOk (by decide +kernel)
  have hsplits : (Way.single basketEnv).Splits [1, 2] :=
    show ([1, 2] : List Address).length ≤ MAX_COUPON_BATCH_SIZE by decide
  have hsplits' : (Way.batches (basketEnv, 1) [(basketEnv, 1)]).Splits [1, 2] :=
    ⟨by decide, by decide⟩
  exact ⟨hsingle, (split_agrees (by decide +kernel) hsplits hsplits'
    (by simp [Way.envs])).1.mp hsingle⟩

end EcoMint.CouponEngine
