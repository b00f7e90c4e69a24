import EcoMint.CouponExact
import EcoMint.CouponLedger

/-!
# The itemised view of claimable credits

`claimable_credits` reads one balance; `claimable_credit_details` lists what
makes it up, over the period indices below the bond's period count.  A batch
books its credits under whatever index its caller chose, and the count moves
when some period is complete, so credits can be booked where the list does not
look yet.  `claim_credits` clears the same indices as the list shows.

The engine runs here on its own: each transaction brings the issuer and the
oracle it meets, in any state.
-/

namespace EcoMint.CouponEngine

open Fallible IntRange Storage

/-- A transaction of the engine: the call, its environment, and the contracts
the engine meets. -/
structure EngineTx where
  env : Env
  peers : Peers
  call : Call

/-- The engine on its own, called by anyone in any order. -/
def engineMachine : Machine State EngineTx Output (Failure BondError) where
  call s tx := exec tx.env tx.peers s tx.call

/-- A successful call of the engine, with the storages around it. -/
abbrev EngineEvent := Event State EngineTx Output

/-- What is booked for a holder under one period index. -/
def State.bookedAt (s : State) (bondId periodIndex : Nat) (holder : Address) : Int :=
  s.periodHolder.read (bondId, periodIndex, holder, .carbon) +
    s.periodHolder.read (bondId, periodIndex, holder, .biodiversity)

/-- What is booked for a holder under the first period indices. -/
def State.bookedBelow (s : State) (bondId : Nat) (holder : Address) (periods : Nat) : Int :=
  ((List.range periods).map fun periodIndex => s.bookedAt bondId periodIndex holder).sum

/-- The amounts of the itemised view add up to the claimable balance, for every
holder of the bond. -/
def State.Itemised (s : State) (bondId : Nat) : Prop :=
  ∀ holder, ((claimableCreditDetails s bondId holder).map ClaimableCreditDetail.amount).sum =
    claimableCredits s bondId holder

/-- A batch shows what it pays: it pays nobody, or its index is one the view
lists already, or it is the next one and the batch completes the period. -/
def EngineEvent.Shows (bondId : Nat) (e : EngineEvent) : Prop :=
  ∀ batch f, e.input.call.batch? = some batch → batch.bondId = bondId →
    BatchFound e.input.peers e.before batch f →
      f.entries batch = [] ∨ batch.periodIndex < e.before.periodCount.read bondId ∨
        batch.periodIndex = e.before.periodCount.read bondId ∧
          batch.stop = batch.holders.length

/-! ## What the view lists -/

/-- Nothing is negative, and what is booked under an index has a period there. -/
structure ItemInvariant (s : State) : Prop where
  booked_nonneg : ∀ k, 0 ≤ s.periodHolder.read k
  backed : ∀ bondId periodIndex holder creditType,
    s.periodHolder.read (bondId, periodIndex, holder, creditType) ≠ 0 →
      ∃ info, s.periodInfo.get (bondId, periodIndex) = some info
  accrued_nonneg : ∀ k, 0 ≤ s.accruedCredits.read k

/-- A line of the view shows what is booked. -/
theorem ItemInvariant.detail_amount {s : State} (hs : ItemInvariant s)
    (bondId periodIndex : Nat) (holder : Address) (creditType : CreditType) :
    ((claimableCreditDetail s bondId holder periodIndex creditType).map
      ClaimableCreditDetail.amount).getD 0 =
        s.periodHolder.read (bondId, periodIndex, holder, creditType) := by
  have hnonneg := hs.booked_nonneg (bondId, periodIndex, holder, creditType)
  unfold claimableCreditDetail
  dsimp only
  split
  · next hnone =>
      simp only [Option.map_none, Option.getD_none]
      omega
  · next hsome =>
      obtain ⟨info, hinfo⟩ := hs.backed bondId periodIndex holder creditType (by omega)
      rw [hinfo]
      rfl

/-- The items that a list gives add up to what each of its elements gives, those that
give none counting as zero. -/
theorem sum_amount_filterMap {α : Type} (f : α → Option ClaimableCreditDetail) (l : List α) :
    ((l.filterMap f).map ClaimableCreditDetail.amount).sum =
      (l.map fun a => ((f a).map ClaimableCreditDetail.amount).getD 0).sum := by
  induction l with
  | nil => rfl
  | cons a rest ih =>
      cases h : f a <;> simp [h, ih]

/-- The view adds up to what is booked below the period count. -/
theorem ItemInvariant.details_sum {s : State} (hs : ItemInvariant s) (bondId : Nat)
    (holder : Address) :
    ((claimableCreditDetails s bondId holder).map ClaimableCreditDetail.amount).sum =
      s.bookedBelow bondId holder (s.periodCount.read bondId) := by
  unfold claimableCreditDetails State.bookedBelow
  induction List.range (s.periodCount.read bondId) with
  | nil => rfl
  | cons periodIndex rest ih =>
      rw [List.flatMap_cons, List.map_append, List.sum_append, ih, List.map_cons, List.sum_cons,
        sum_amount_filterMap]
      simp only [List.map_cons, List.map_nil, List.sum_cons, List.sum_nil, hs.detail_amount,
        Int.add_zero, State.bookedAt]

/-- What is booked below one more period is what is booked below and at it. -/
theorem bookedBelow_succ (s : State) (bondId : Nat) (holder : Address) (periods : Nat) :
    s.bookedBelow bondId holder (periods + 1) =
      s.bookedBelow bondId holder periods + s.bookedAt bondId periods holder := by
  simp [State.bookedBelow, List.range_succ]

/-- Booking under one index is seen by the sum over the indices above it. -/
theorem bookedBelow_add {s s' : State} {bondId periodIndex : Nat} {holder : Address}
    {amount : Int} (h : ∀ index, s'.bookedAt bondId index holder =
      s.bookedAt bondId index holder + if index = periodIndex then amount else 0)
    (periods : Nat) :
    s'.bookedBelow bondId holder periods =
      s.bookedBelow bondId holder periods + if periodIndex < periods then amount else 0 := by
  induction periods with
  | zero => simp [State.bookedBelow]
  | succ periods ih =>
      rw [bookedBelow_succ, bookedBelow_succ, ih, h]
      by_cases hperiod : periods = periodIndex
      · simp [hperiod]
        omega
      · by_cases hbelow : periodIndex < periods
        · have hbelow' : periodIndex < periods + 1 := by omega
          simp [hperiod, hbelow, hbelow']
          omega
        · have hbelow' : ¬ periodIndex < periods + 1 := by omega
          simp [hperiod, hbelow, hbelow']

/-! ## What a batch books -/

/-- What a list of entries pays a holder. -/
def paidTo (entries : List Entry) (holder : Address) : Int :=
  (entries.map fun e => if holder = e.holder then e.amount else 0).sum

theorem paidTo_nonneg {entries : List Entry} (hpos : ∀ e ∈ entries, 0 < e.amount)
    (holder : Address) : 0 ≤ paidTo entries holder :=
  entries_sum_nonneg hpos Entry.holder holder

/-- Entries that pay nobody are none. -/
theorem paidTo_eq_zero_iff {entries : List Entry} (hpos : ∀ e ∈ entries, 0 < e.amount) :
    (∀ holder, paidTo entries holder = 0) ↔ entries = [] := by
  constructor
  · intro h
    cases entries with
    | nil => rfl
    | cons e rest =>
        have hrest := paidTo_nonneg (fun e' he' => hpos e' (List.mem_cons_of_mem e he')) e.holder
        have hfirst := hpos e (List.mem_cons_self ..)
        have hzero := h e.holder
        simp only [paidTo, List.map_cons, List.sum_cons, if_true] at hrest hzero
        omega
  · rintro rfl holder
    rfl

/-- What a list of entries pays a holder in one kind of credit. -/
def paidIn (entries : List Entry) (holder : Address) (creditType : CreditType) : Int :=
  (entries.map fun e =>
    if holder = e.holder ∧ creditType = e.creditType then e.amount else 0).sum

/-- A holder is paid in carbon and in biodiversity. -/
theorem paidTo_eq {entries : List Entry}
    (htypes : ∀ e ∈ entries, e.creditType = .carbon ∨ e.creditType = .biodiversity)
    (holder : Address) :
    paidTo entries holder =
      paidIn entries holder .carbon + paidIn entries holder .biodiversity := by
  unfold paidTo paidIn
  rw [← List.sum_map_add]
  refine congrArg List.sum (List.map_congr_left fun e he => ?_)
  rcases htypes e he with htype | htype <;> simp [htype]

/-- What a batch pays a holder is what it pays them in carbon and in biodiversity. -/
theorem paidTo_entries (f : Findings) (batch : Batch) (holder : Address) :
    paidTo (f.entries batch) holder =
      paidIn (f.entries batch) holder .carbon + paidIn (f.entries batch) holder .biodiversity :=
  paidTo_eq (fun _ he => heldTypes_subset (mem_sliceEntries he).2.2) holder

/-- What is booked in the itemised ledger after a batch. -/
theorem periodHolder_after (f : Findings) (s : State) (batch : Batch) (period : Nat × Nat)
    (holder : Address) (creditType : CreditType) :
    (f.after s batch).periodHolder.read (period.1, period.2, holder, creditType) =
      s.periodHolder.read (period.1, period.2, holder, creditType) +
        if period = batch.period then paidIn (f.entries batch) holder creditType else 0 := by
  show (s.periodHolder.creditAll _).read _ = _
  rw [read_creditAll, List.map_map]
  congr 1
  by_cases hperiod : period = batch.period
  · simp [paidIn, hperiod, Batch.period, Function.comp_def]
  · rw [if_neg hperiod]
    refine List.sum_eq_zero fun x hx => ?_
    obtain ⟨e, -, rfl⟩ := List.mem_map.mp hx
    refine if_neg fun hkey => hperiod ?_
    simp only [Prod.mk.injEq] at hkey
    exact Prod.ext hkey.1 hkey.2.1

/-- Under one index, a batch books what it pays. -/
theorem bookedAt_after (f : Findings) (s : State) (batch : Batch) (bondId periodIndex : Nat)
    (holder : Address) :
    (f.after s batch).bookedAt bondId periodIndex holder =
      s.bookedAt bondId periodIndex holder +
        if bondId = batch.bondId ∧ periodIndex = batch.periodIndex then
          paidTo (f.entries batch) holder
        else 0 := by
  have hperiod : (bondId, periodIndex) = batch.period ↔
      bondId = batch.bondId ∧ periodIndex = batch.periodIndex := Prod.mk_inj
  have hcarbon := periodHolder_after f s batch (bondId, periodIndex) holder .carbon
  have hbiodiversity := periodHolder_after f s batch (bondId, periodIndex) holder .biodiversity
  unfold State.bookedAt
  rw [hcarbon, hbiodiversity, paidTo_entries]
  simp only [hperiod]
  split <;> omega

/-- A batch pays into the balances what its entries say. -/
theorem accruedCredits_after (f : Findings) (s : State) (batch : Batch) (bondId : Nat)
    (holder : Address) :
    (f.after s batch).accruedCredits.read (bondId, holder) =
      s.accruedCredits.read (bondId, holder) +
        if bondId = batch.bondId then paidTo (f.entries batch) holder else 0 := by
  show (s.accruedCredits.creditAll _).read _ = _
  rw [read_creditAll, List.map_map]
  congr 1
  by_cases hbond : bondId = batch.bondId
  · simp [paidTo, hbond, Function.comp_def]
  · simp [hbond, Function.comp_def]

/-- A batch counts its period once it is complete. -/
theorem periodCount_after (f : Findings) (s : State) (batch : Batch) (bondId : Nat) :
    (f.after s batch).periodCount.read bondId = s.periodCount.read bondId +
      if bondId = batch.bondId ∧ batch.stop = batch.holders.length then 1 else 0 := by
  show (if _ then _ else _ : Storage Nat Nat).read bondId = _
  by_cases hcomplete : batch.stop = batch.holders.length
  · rw [if_pos hcomplete, read_set]
    by_cases hbond : bondId = batch.bondId <;> simp [hbond, hcomplete]
  · simp [hcomplete]

/-! ## What a claim clears -/

/-- Clearing periods zeroes both credit types of the caller at those periods, and
nothing else. -/
theorem clearPeriods_read (bondId : Nat) (caller : Address) (s : State) (periods : List Nat)
    (b periodIndex : Nat) (holder : Address) (creditType : CreditType) :
    (clearPeriods bondId caller s periods).periodHolder.read (b, periodIndex, holder, creditType) =
      if b = bondId ∧ holder = caller ∧ periodIndex ∈ periods ∧
          (creditType = .carbon ∨ creditType = .biodiversity) then 0
      else s.periodHolder.read (b, periodIndex, holder, creditType) := by
  induction periods generalizing s with
  | nil => simp [clearPeriods]
  | cons index rest ih =>
      rw [clearPeriods, ih]
      simp only [clearPeriodHolder, read_set, Prod.mk.injEq, List.mem_cons]
      grind

/-- What a claim by `caller` writes in the itemised ledger and the balances. -/
structure ClaimCleared (s s' : State) (caller : Address) (bondId : Nat) : Prop where
  periodInfo : s'.periodInfo = s.periodInfo
  periodCount : s'.periodCount = s.periodCount
  accruedCredits : s'.accruedCredits = s.accruedCredits.set (bondId, caller) 0
  periodHolder : ∀ b periodIndex holder creditType,
    s'.periodHolder.read (b, periodIndex, holder, creditType) =
      if b = bondId ∧ holder = caller ∧ periodIndex < s.periodCount.read bondId ∧
          (creditType = .carbon ∨ creditType = .biodiversity) ∧
          0 < s.accruedCredits.read (bondId, caller) then 0
      else s.periodHolder.read (b, periodIndex, holder, creditType)

/-- An accepted claim clears what the caller has accrued of the bond and every item
below its period count. -/
theorem claimCredits_cleared {env : Env} {s s' : State} {caller : Address} {bondId nonce : Nat}
    {amount : Int} (h : claimCredits env s caller bondId nonce = .ok (amount, s')) :
    ClaimCleared s s' caller bondId := by
  simp only [claimCredits, consumeNonce_ok_iff, bind_ok_iff] at h
  obtain ⟨_, -, _, ⟨-, rfl⟩, h⟩ := h
  split at h
  · next hpos =>
      simp only [pure_ok_iff, Prod.mk.injEq] at h
      obtain ⟨-, rfl⟩ := h
      obtain ⟨byType, hbyType, -⟩ := clearByType_eq
        { s.bump caller with accruedCredits := s.accruedCredits.set (bondId, caller) 0 }
        bondId caller
      simp only [State.bump] at hpos hbyType ⊢
      rw [hbyType]
      obtain ⟨ledger, hledger⟩ := clearPeriods_eq bondId caller
        { s.bump caller with
          accruedCredits := s.accruedCredits.set (bondId, caller) 0
          accruedCreditsByType := byType }
        (List.range (s.periodCount.read bondId))
      have hread := clearPeriods_read bondId caller
        { s.bump caller with
          accruedCredits := s.accruedCredits.set (bondId, caller) 0
          accruedCreditsByType := byType }
        (List.range (s.periodCount.read bondId))
      simp only [State.bump, List.mem_range] at hledger hread
      refine ⟨?_, ?_, ?_, ?_⟩
      · rw [hledger]
      · rw [hledger]
      · rw [hledger]
      · intro b periodIndex holder creditType
        rw [hread]
        simp [hpos]
  · next hpos =>
      simp only [pure_ok_iff, Prod.mk.injEq] at h
      obtain ⟨-, rfl⟩ := h
      refine ⟨rfl, rfl, rfl, fun b periodIndex holder creditType => ?_⟩
      rw [if_neg]
      · rfl
      · rintro ⟨-, -, -, -, hpos'⟩
        exact hpos hpos'

/-! ## Steps -/

/-- What a successful call does to the itemised ledger and the balances. -/
inductive ItemStep (e : EngineEvent) : Prop
  | idle (hbatch : e.input.call.batch? = none) (hinfo : e.after.periodInfo = e.before.periodInfo)
      (hcount : e.after.periodCount = e.before.periodCount)
      (haccrued : e.after.accruedCredits = e.before.accruedCredits)
      (hbooked : e.after.periodHolder = e.before.periodHolder)
  | paid (caller : Address) (batch : Batch) (f : Findings)
      (hbatch : e.input.call.batch? = some batch)
      (hfound : BatchFound e.input.peers e.before batch f)
      (hafter : e.after = f.after (e.before.bump caller) batch)
  | claimed (caller : Address) (bondId : Nat) (hbatch : e.input.call.batch? = none)
      (hcleared : ClaimCleared e.before e.after caller bondId)

/-- **Step lemma.**  Every successful call is an `ItemStep`. -/
theorem itemStep_of_fires {e : EngineEvent} (hfires : engineMachine.Fires e) : ItemStep e := by
  have hexec : exec e.input.env e.input.peers e.before e.input.call = .ok (e.output, e.after) :=
    hfires
  cases hbatch : e.input.call.batch? with
  | some batch =>
      obtain ⟨caller, f, hfound, -, hafter⟩ := exec_batch_ok hbatch hexec
      exact .paid caller batch f hbatch hfound hafter.symm
  | none =>
      cases hcall : e.input.call with
      | claimCredits caller bondId nonce =>
          rw [hcall] at hexec
          obtain ⟨amount, hclaim, -⟩ := returning_ok_iff.mp hexec
          exact .claimed caller bondId hbatch (claimCredits_cleared hclaim)
      | distributeCoupon caller bondId periodIndex holders reportId nonce =>
          rw [hcall] at hbatch
          cases hbatch
      | distributeCouponBatch caller bondId periodIndex holders reportId offset limit nonce =>
          rw [hcall] at hbatch
          cases hbatch
      | registerBond caller bondId projectId nonce =>
          rw [hcall] at hexec
          cases engineStep_exec hexec with
          | registered _ _ _ _ _ _ _ _ _ hafter =>
              exact .idle hbatch (by rw [hafter]; rfl) (by rw [hafter]; rfl) (by rw [hafter]; rfl)
                (by rw [hafter]; rfl)
          | paid _ _ hother => cases hother
          | claimed _ _ _ _ hother => cases hother
          | swept _ _ _ _ hother => cases hother
          | administered _ _ _ hother => cases hother
      | sweepUndistributed caller bondId nonce =>
          rw [hcall] at hexec
          obtain ⟨amount, hsweep, -⟩ := returning_ok_iff.mp hexec
          obtain ⟨-, hafter⟩ := sweepUndistributed_ok hsweep
          exact .idle hbatch (by rw [← hafter]; rfl) (by rw [← hafter]; rfl)
            (by rw [← hafter]; rfl) (by rw [← hafter]; rfl)
      | setAdmin currentAdmin newAdmin nonce =>
          rw [hcall] at hexec
          simp only [exec, silent, bind_ok_iff, pure_ok_iff, Prod.mk.injEq] at hexec
          obtain ⟨_, hset, -, rfl⟩ := hexec
          have hafter := setAdmin_ok hset
          exact .idle hbatch (by rw [← hafter]; rfl) (by rw [← hafter]; rfl)
            (by rw [← hafter]; rfl) (by rw [← hafter]; rfl)

theorem itemInvariant_constructor (admin issuer oracle : Address) :
    ItemInvariant (constructor admin issuer oracle) where
  booked_nonneg k := by simp [constructor]
  backed bondId periodIndex holder creditType hne := by simp [constructor] at hne
  accrued_nonneg k := by simp [constructor]

/-- A batch keeps what the view rests on. -/
theorem ItemInvariant.batch {s : State} (hs : ItemInvariant s) (f : Findings) (batch : Batch) :
    ItemInvariant (f.after s batch) := by
  have hpos : ∀ e ∈ f.entries batch, 0 < e.amount := fun _ he => Findings.entries_pos he
  have hbooked : ∀ k, (f.after s batch).periodHolder.read k = s.periodHolder.read k +
      ((f.entries batch).map fun e =>
        if k = (batch.bondId, batch.periodIndex, e.holder, e.creditType) then e.amount
        else 0).sum := by
    intro k
    show (s.periodHolder.creditAll _).read k = _
    rw [read_creditAll, List.map_map]
    rfl
  constructor
  case booked_nonneg =>
    intro k
    have hold := hs.booked_nonneg k
    have hnew := entries_sum_nonneg hpos
      (fun e => (batch.bondId, batch.periodIndex, e.holder, e.creditType)) k
    rw [hbooked]
    omega
  case backed =>
    intro bondId periodIndex holder creditType hne
    show ∃ info, (s.periodInfo.set batch.period _).get (bondId, periodIndex) = some info
    rw [get_set]
    split
    · exact ⟨_, rfl⟩
    · next hperiod =>
        apply hs.backed bondId periodIndex holder creditType
        intro hold
        rw [hbooked, hold, Int.zero_add] at hne
        obtain ⟨e, -, hkey⟩ := exists_entry_of_sum_ne_zero hne
        simp only [Prod.mk.injEq] at hkey
        exact hperiod (by simp [Batch.period, hkey.1, hkey.2.1])
  case accrued_nonneg =>
    rintro ⟨bondId, holder⟩
    have hold := hs.accrued_nonneg (bondId, holder)
    have hnew := paidTo_nonneg hpos holder
    rw [accruedCredits_after]
    split <;> omega

/-- A claim keeps the invariant of the items. -/
theorem ItemInvariant.claim {s s' : State} {caller : Address} {bondId : Nat}
    (hs : ItemInvariant s) (hcleared : ClaimCleared s s' caller bondId) : ItemInvariant s' := by
  constructor
  case booked_nonneg =>
    rintro ⟨b, periodIndex, holder, creditType⟩
    rw [hcleared.periodHolder]
    split
    · exact le_rfl
    · exact hs.booked_nonneg _
  case backed =>
    intro b periodIndex holder creditType hne
    rw [hcleared.periodHolder] at hne
    rw [hcleared.periodInfo]
    split at hne
    · exact absurd rfl hne
    · exact hs.backed b periodIndex holder creditType hne
  case accrued_nonneg =>
    intro k
    rw [hcleared.accruedCredits, read_set]
    split
    · exact le_rfl
    · exact hs.accrued_nonneg k

/-- Every step of the engine keeps the invariant of the items. -/
theorem ItemInvariant.step {e : EngineEvent} (hs : ItemInvariant e.before) (hstep : ItemStep e) :
    ItemInvariant e.after := by
  cases hstep with
  | idle hbatch hinfo hcount haccrued hbooked =>
      obtain ⟨h1, h2, h3⟩ := hs
      exact ⟨hbooked ▸ h1, hbooked ▸ hinfo ▸ h2, haccrued ▸ h3⟩
  | paid caller batch f hbatch hfound hafter =>
      have hbumped : ItemInvariant (e.before.bump caller) := ⟨hs.1, hs.2, hs.3⟩
      rw [hafter]
      exact hbumped.batch f batch
  | claimed caller bondId hbatch hcleared => exact hs.claim hcleared

/-- The invariant of the items holds after every run. -/
theorem itemInvariant_run (admin issuer oracle : Address) (txs : List EngineTx) :
    ItemInvariant (engineMachine.run (constructor admin issuer oracle) txs) := by
  refine engineMachine.invariant (P := fun s _ => ItemInvariant s)
    (itemInvariant_constructor admin issuer oracle) ?_ txs
  intro _ e hfires hs
  exact hs.step (itemStep_of_fires hfires)

/-! ## When the view adds up -/

/-- Nothing is booked where the view does not look. -/
def State.NothingAhead (s : State) (bondId : Nat) : Prop :=
  ∀ periodIndex holder, s.periodCount.read bondId ≤ periodIndex →
    s.bookedAt bondId periodIndex holder = 0

/-- The items tell a bond's accrued credits exactly when what is booked below its period
count adds up to them. -/
theorem ItemInvariant.itemised_iff_booked {s : State} (hs : ItemInvariant s) (bondId : Nat) :
    s.Itemised bondId ↔ ∀ holder,
      s.bookedBelow bondId holder (s.periodCount.read bondId) =
        s.accruedCredits.read (bondId, holder) := by
  refine forall_congr' fun holder => ?_
  rw [hs.details_sum]
  rfl

/-- The view adds up after a batch exactly if the batch shows what it pays, and
then nothing is booked ahead. -/
theorem itemised_batch {s : State} (hs : ItemInvariant s) (f : Findings) (batch : Batch)
    {bondId : Nat} (hitems : s.Itemised bondId) (hahead : s.NothingAhead bondId) :
    ((f.after s batch).Itemised bondId ↔ (batch.bondId = bondId →
      f.entries batch = [] ∨ batch.periodIndex < s.periodCount.read bondId ∨
        batch.periodIndex = s.periodCount.read bondId ∧ batch.stop = batch.holders.length)) ∧
    ((f.after s batch).Itemised bondId → (f.after s batch).NothingAhead bondId) := by
  have hpos : ∀ e ∈ f.entries batch, 0 < e.amount := fun _ he => Findings.entries_pos he
  have hbelow := (hs.itemised_iff_booked bondId).mp hitems
  rw [(hs.batch f batch).itemised_iff_booked]
  by_cases hbond : batch.bondId = bondId
  · subst hbond
    simp only [true_imp_iff]
    have hcount : (f.after s batch).periodCount.read batch.bondId =
        s.periodCount.read batch.bondId +
          if batch.stop = batch.holders.length then 1 else 0 := by
      rw [periodCount_after]
      simp
    have hbooked : ∀ holder index, (f.after s batch).bookedAt batch.bondId index holder =
        s.bookedAt batch.bondId index holder +
          if index = batch.periodIndex then paidTo (f.entries batch) holder else 0 := by
      intro holder index
      rw [bookedAt_after]
      simp
    -- the indices the view lists now held nothing beyond those it listed before
    have hsame : ∀ holder, s.bookedBelow batch.bondId holder
        ((f.after s batch).periodCount.read batch.bondId) =
          s.bookedBelow batch.bondId holder (s.periodCount.read batch.bondId) := by
      intro holder
      rw [hcount]
      split
      · rw [bookedBelow_succ, hahead _ holder le_rfl, Int.add_zero]
      · rw [Nat.add_zero]
    have hmeaning : (∀ holder, (f.after s batch).bookedBelow batch.bondId holder
        ((f.after s batch).periodCount.read batch.bondId) =
          (f.after s batch).accruedCredits.read (batch.bondId, holder)) ↔
        f.entries batch = [] ∨
          batch.periodIndex < (f.after s batch).periodCount.read batch.bondId := by
      by_cases hlisted : batch.periodIndex < (f.after s batch).periodCount.read batch.bondId
      · refine iff_of_true (fun holder => ?_) (Or.inr hlisted)
        rw [bookedBelow_add (hbooked holder), if_pos hlisted, hsame, hbelow,
          accruedCredits_after, if_pos rfl]
      · rw [← paidTo_eq_zero_iff hpos, or_iff_left hlisted]
        refine forall_congr' fun holder => ?_
        rw [bookedBelow_add (hbooked holder), if_neg hlisted, hsame, hbelow,
          accruedCredits_after, if_pos rfl]
        omega
    constructor
    · rw [hmeaning, hcount]
      refine or_congr_right ?_
      split <;> omega
    · rw [hmeaning]
      intro hshows periodIndex holder hle
      have hold : s.bookedAt batch.bondId periodIndex holder = 0 := by
        refine hahead periodIndex holder (le_trans ?_ hle)
        rw [hcount]
        exact Nat.le_add_right _ _
      rw [hbooked, hold, Int.zero_add]
      rcases hshows with hnone | hlisted
      · simp [hnone, paidTo]
      · rw [if_neg (by omega)]
  · have hcount : (f.after s batch).periodCount.read bondId = s.periodCount.read bondId := by
      rw [periodCount_after, if_neg (fun h => hbond h.1.symm), Nat.add_zero]
    have hbooked : ∀ index holder, (f.after s batch).bookedAt bondId index holder =
        s.bookedAt bondId index holder := by
      intro index holder
      rw [bookedAt_after, if_neg (fun h => hbond h.1.symm), Int.add_zero]
    constructor
    · refine iff_of_true (fun holder => ?_) (fun h => absurd h hbond)
      rw [hcount, accruedCredits_after, if_neg (fun h => hbond h.symm), Int.add_zero,
        ← hbelow holder]
      simp only [State.bookedBelow, hbooked]
    · intro _ periodIndex holder hle
      rw [hcount] at hle
      rw [hbooked]
      exact hahead periodIndex holder hle

/-- After a claim nothing is booked for the caller at the periods cleared, and
everything else is as before. -/
theorem bookedAt_claim {s s' : State} {caller : Address} {bondId : Nat}
    (hcleared : ClaimCleared s s' caller bondId) (b periodIndex : Nat) (holder : Address) :
    s'.bookedAt b periodIndex holder =
      if b = bondId ∧ holder = caller ∧ periodIndex < s.periodCount.read bondId ∧
          0 < s.accruedCredits.read (bondId, caller) then 0
      else s.bookedAt b periodIndex holder := by
  unfold State.bookedAt
  rw [hcleared.periodHolder, hcleared.periodHolder]
  simp only [true_or, or_true, true_and]
  split <;> rfl

/-- A claim clears what the view lists, with the balance. -/
theorem itemised_claim {s s' : State} {caller : Address} {bondId : Nat} (hs : ItemInvariant s)
    (hcleared : ClaimCleared s s' caller bondId) {b : Nat} (hitems : s.Itemised b)
    (hahead : s.NothingAhead b) : s'.Itemised b ∧ s'.NothingAhead b := by
  have hbelow := (hs.itemised_iff_booked b).mp hitems
  constructor
  · rw [(hs.claim hcleared).itemised_iff_booked]
    intro holder
    rw [hcleared.periodCount, hcleared.accruedCredits, read_set]
    by_cases hclaimer : (b, holder) = (bondId, caller)
    · obtain ⟨rfl, rfl⟩ := Prod.mk.inj hclaimer
      rw [if_pos rfl]
      have hnonneg := hs.accrued_nonneg (b, holder)
      by_cases hpos : 0 < s.accruedCredits.read (b, holder)
      · refine List.sum_eq_zero fun x hx => ?_
        obtain ⟨periodIndex, hindex, rfl⟩ := List.mem_map.mp hx
        rw [bookedAt_claim hcleared,
          if_pos ⟨rfl, rfl, List.mem_range.mp hindex, hpos⟩]
      · have hsame : ∀ periodIndex,
            s'.bookedAt b periodIndex holder = s.bookedAt b periodIndex holder := by
          intro periodIndex
          rw [bookedAt_claim hcleared, if_neg (fun h => hpos h.2.2.2)]
        have hzero := hbelow holder
        unfold State.bookedBelow at hzero ⊢
        simp only [hsame]
        omega
    · rw [if_neg hclaimer, ← hbelow holder]
      have hsame : ∀ periodIndex,
          s'.bookedAt b periodIndex holder = s.bookedAt b periodIndex holder := by
        intro periodIndex
        rw [bookedAt_claim hcleared, if_neg]
        rintro ⟨rfl, rfl, -⟩
        exact hclaimer rfl
      simp only [State.bookedBelow, hsame]
  · intro periodIndex holder hle
    rw [hcleared.periodCount] at hle
    rw [bookedAt_claim hcleared]
    split
    · rfl
    · exact hahead periodIndex holder hle

/-- **Step lemma.**  From a storage whose view adds up, with nothing booked
ahead, the view adds up after a call exactly if the call shows what it pays. -/
theorem itemised_step {e : EngineEvent} (hfires : engineMachine.Fires e)
    (hs : ItemInvariant e.before) {bondId : Nat} (hitems : e.before.Itemised bondId)
    (hahead : e.before.NothingAhead bondId) :
    (e.after.Itemised bondId ↔ EngineEvent.Shows bondId e) ∧
      (e.after.Itemised bondId → e.after.NothingAhead bondId) := by
  -- a call that is no batch has nothing to show
  have hnobatch : e.input.call.batch? = none → EngineEvent.Shows bondId e := by
    intro hnone batch f hbatch
    rw [hnone] at hbatch
    cases hbatch
  cases itemStep_of_fires hfires with
  | idle hbatch hinfo hcount haccrued hbooked =>
      have hitems' : e.after.Itemised bondId := by
        intro holder
        have hholder := hitems holder
        unfold claimableCreditDetails claimableCreditDetail claimableCredits
          getAccruedCredits at hholder ⊢
        rw [hinfo, hcount, haccrued, hbooked]
        exact hholder
      refine ⟨iff_of_true hitems' (hnobatch hbatch), fun _ => ?_⟩
      unfold State.NothingAhead State.bookedAt
      rw [hcount, hbooked]
      exact hahead
  | paid caller batch f hbatch hfound hafter =>
      have hbumped : ItemInvariant (e.before.bump caller) := ⟨hs.1, hs.2, hs.3⟩
      obtain ⟨hiff, hnext⟩ := itemised_batch hbumped f batch hitems hahead
      rw [← hafter] at hiff hnext
      refine ⟨hiff.trans ?_, hnext⟩
      constructor
      · intro h batch' f' hbatch' hbond hfound'
        obtain rfl : batch = batch' := by simpa [hbatch] using hbatch'
        obtain rfl := hfound.unique hfound'
        exact h hbond
      · intro h hbond
        exact h batch f hbatch hbond hfound
  | claimed caller claimed hbatch hcleared =>
      obtain ⟨hitems', hahead'⟩ := itemised_claim hs hcleared hitems hahead
      exact ⟨iff_of_true hitems' (hnobatch hbatch), fun _ => hahead'⟩

/-- **The itemised view.**  In every state of a run the amounts of the view of a
bond add up to the claimable balance, for every holder, exactly if every batch
of the bond shows what it pays. -/
theorem itemised_iff (admin issuer oracle : Address) (txs : List EngineTx) (bondId : Nat) :
    (∀ pre, pre <+: txs →
        (engineMachine.run (constructor admin issuer oracle) pre).Itemised bondId) ↔
      ∀ e ∈ engineMachine.log (constructor admin issuer oracle) txs,
        EngineEvent.Shows bondId e := by
  rw [← Machine.forall_prefix_iff_forall_mem, ← engineMachine.holds_iff
    (I := fun s _ => ItemInvariant s)
    (P := fun s _ => s.Itemised bondId ∧ s.NothingAhead bondId)
    (itemInvariant_run admin issuer oracle) ?_ ?_ txs]
  · constructor
    · intro hitems pre hpre
      induction pre using List.reverseRecOn with
      | nil => exact ⟨hitems [] hpre, fun periodIndex holder _ => rfl⟩
      | append_singleton pre tx ih =>
          have hitems' := hitems (pre ++ [tx]) hpre
          have hbefore := ih ((List.prefix_append pre [tx]).trans hpre)
          rcases engineMachine.snoc_cases (constructor admin issuer oracle) pre tx with
            ⟨hrun, -⟩ | ⟨e, hfires, -, hstart, hrun, -⟩
          · rwa [hrun]
          · have hs := itemInvariant_run admin issuer oracle pre
            rw [← hstart] at hs hbefore
            rw [hrun] at hitems' ⊢
            exact ⟨hitems', (itemised_step hfires hs hbefore.1 hbefore.2).2 hitems'⟩
    · intro h pre hpre
      exact (h pre hpre).1
  · refine ⟨?_, fun periodIndex holder _ => rfl⟩
    rw [(itemInvariant_constructor admin issuer oracle).itemised_iff_booked]
    intro holder
    rfl
  · rintro l e hfires hs ⟨hitems, hahead⟩
    obtain ⟨hiff, hnext⟩ := itemised_step hfires hs hitems hahead
    rw [← hiff]
    exact ⟨fun h => h.1, fun h => ⟨h, hnext h⟩⟩

/-- The contracts of the sample deployment once the bond has a verified report. -/
def samplePeers : Peers := (machine.run (deploy sampleDeployment) reportedBond).enginePeers

/-- A call of the sample engine, signed by the admin. -/
def engineTx (call : Call) : EngineTx := ⟨⟨5, [0], none, 7, false⟩, samplePeers, call⟩

/-- The first of two holders is paid, the period is not complete yet. -/
def halfPaidPeriod : List EngineTx := [
  engineTx (.registerBond 0 1 BondIssuer.sampleConfig.projectId 0),
  engineTx (.distributeCouponBatch 0 1 0 [1, 2] 1 0 1 1)]

/-- The holder can claim a million minor units, and the view lists none. -/
theorem half_paid_period_hidden :
    ¬ (engineMachine.run (constructor 0 101 102) halfPaidPeriod).Itemised 1 := by
  have hlisted : claimableCreditDetails
      (engineMachine.run (constructor 0 101 102) halfPaidPeriod) 1 1 = [] := by decide +kernel
  have hbalance : claimableCredits
      (engineMachine.run (constructor 0 101 102) halfPaidPeriod) 1 1 = 1000000 := by
    decide +kernel
  intro h
  have hsum := h 1
  rw [hlisted, hbalance] at hsum
  simp at hsum

end EcoMint.CouponEngine
