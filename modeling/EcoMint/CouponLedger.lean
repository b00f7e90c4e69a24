import EcoMint.Protocol
import EcoMint.RedemptionSolvency

/-!
# Conservation in the coupon engine

The engine keeps four ledgers: what each period earned, what each holder has
accrued in total and by credit type, and what periods left undistributed.  A
batch writes the first three from one list of entries, a claim clears a holder
in both accrual ledgers, and a sweep clears the undistributed pool of a bond.
`Ledger` says how they stay in step with the amounts claimed and swept.

The by-type ledger is cleared by the credit type stored for the bond, so the
argument needs that this type never changes; it is read from the bond's
configuration, which the issuer never rewrites.
-/

namespace EcoMint

open Storage

namespace CouponEngine

/-- Credits earned over all periods of a bond. -/
def State.earnedTotal (s : State) (bondId : Nat) : Int :=
  s.periodInfo.sum fun k info => if k.1 = bondId then info.totalCreditsEarned else 0

/-- Credits accrued on a bond over all holders. -/
def State.accruedTotal (s : State) (bondId : Nat) : Int :=
  s.accruedCredits.sumOn fun k => k.1 = bondId

/-- What the complete periods of a bond left undistributed. -/
def State.undistributedEarned (s : State) (bondId : Nat) : Int :=
  s.periodInfo.sum fun k info =>
    if k.1 = bondId ∧ info.distributed = true then max info.undistributed 0 else 0

/-- The four ledgers agree with each other and with what was paid out. -/
structure Ledger (s : State) (claimed swept : Nat → Int) : Prop where
  type_nonneg : ∀ k, 0 ≤ s.accruedCreditsByType.read k
  split : ∀ b h, s.accruedCredits.read (b, h) =
    s.accruedCreditsByType.read (b, h, .carbon) +
      s.accruedCreditsByType.read (b, h, .biodiversity)
  held_type : ∀ b h t, s.accruedCreditsByType.read (b, h, t) ≠ 0 →
    ∃ creditType, s.bondCreditType.get b = some creditType ∧ t ∈ heldTypes creditType
  earned : ∀ b, s.earnedTotal b = claimed b + s.accruedTotal b
  undistributed : ∀ b, s.undistributedTotal.read b + swept b = s.undistributedEarned b

theorem Ledger.accrued_nonneg {s : State} {claimed swept : Nat → Int}
    (hs : Ledger s claimed swept) (b : Nat) (h : Address) :
    0 ≤ s.accruedCredits.read (b, h) := by
  have hcarbon := hs.type_nonneg (b, h, .carbon)
  have hbiodiversity := hs.type_nonneg (b, h, .biodiversity)
  rw [hs.split]
  omega

theorem ledger_constructor (admin issuer oracle : Address) :
    Ledger (constructor admin issuer oracle) 0 0 where
  type_nonneg k := by simp [constructor]
  split b h := by simp [constructor]
  held_type b h t hne := by simp [constructor] at hne
  earned b := by simp [constructor, State.earnedTotal, State.accruedTotal]
  undistributed b := by simp [constructor, State.undistributedEarned]

/-! ## A batch -/

/-- A list of entries adds to an account what its entries for that account say. -/
theorem entries_split {entries : List Entry} {b bondId : Nat} {h : Address}
    (htypes : ∀ e ∈ entries, e.creditType = .carbon ∨ e.creditType = .biodiversity) :
    (entries.map fun e => if (b, h) = (bondId, e.holder) then e.amount else 0).sum =
      (entries.map fun e =>
        if (b, h, CreditType.carbon) = (bondId, e.holder, e.creditType) then e.amount
        else 0).sum +
      (entries.map fun e =>
        if (b, h, CreditType.biodiversity) = (bondId, e.holder, e.creditType) then e.amount
        else 0).sum := by
  rw [← List.sum_map_add]
  refine congrArg List.sum (List.map_congr_left fun e he => ?_)
  simp only [Prod.mk.injEq]
  rcases htypes e he with htype | htype <;> simp [htype]

/-- A bond pays in carbon, in biodiversity or in both. -/
theorem heldTypes_subset {creditType t : CreditType} (h : t ∈ heldTypes creditType) :
    t = .carbon ∨ t = .biodiversity := by
  cases creditType <;> simp [heldTypes] at h <;> tauto

theorem entries_sum_nonneg {κ : Type} [DecidableEq κ] {entries : List Entry}
    (hpos : ∀ e ∈ entries, 0 < e.amount) (key : Entry → κ) (k : κ) :
    0 ≤ (entries.map fun e => if k = key e then e.amount else 0).sum := by
  apply List.sum_nonneg
  intro x hx
  obtain ⟨e, he, rfl⟩ := List.mem_map.mp hx
  have := hpos e he
  split <;> omega

/-- An account that some entry credits is the account of an entry. -/
theorem exists_entry_of_sum_ne_zero {κ : Type} [DecidableEq κ] {entries : List Entry}
    {key : Entry → κ} {k : κ}
    (h : (entries.map fun e => if k = key e then e.amount else 0).sum ≠ 0) :
    ∃ e ∈ entries, k = key e := by
  by_contra hnone
  push Not at hnone
  refine h (List.sum_eq_zero fun x hx => ?_)
  obtain ⟨e, he, rfl⟩ := List.mem_map.mp hx
  exact if_neg (hnone e he)

/-- A batch adds its entries to what its period earned. -/
theorem earnedTotal_batch {s s' : State} {batch : Batch} {f : Findings}
    (hwrote : BatchWrote s s' batch f) (b : Nat) :
    s'.earnedTotal b = s.earnedTotal b +
      if b = batch.bondId then entriesTotal (f.entries batch) else 0 := by
  unfold State.earnedTotal
  rw [hwrote.periodInfo, sum_set]
  have hold : (s.periodInfo.get batch.period).elim 0 (fun info : PeriodInfo =>
      if batch.period.1 = b then info.totalCreditsEarned else 0) =
        if b = batch.bondId then earnedBefore s batch.period else 0 := by
    unfold earnedBefore
    cases s.periodInfo.get batch.period <;> simp [Batch.period, eq_comm]
  rw [hold]
  simp only [Findings.periodInfo, Batch.period, eq_comm (a := batch.bondId)]
  split <;> omega

/-- A batch adds its entries to what holders have accrued. -/
theorem accruedTotal_batch {s s' : State} {batch : Batch} {f : Findings}
    (hwrote : BatchWrote s s' batch f) (b : Nat) :
    s'.accruedTotal b = s.accruedTotal b +
      if b = batch.bondId then entriesTotal (f.entries batch) else 0 := by
  unfold State.accruedTotal
  rw [hwrote.accruedCredits, sumOn_creditAll, List.map_map]
  congr 1
  by_cases hb : b = batch.bondId
  · subst hb
    simp [Function.comp_def, entriesTotal]
  · simp [Function.comp_def, hb, Ne.symm hb]

/-- A batch that completes its period adds what the period left undistributed;
before that the period counted nothing. -/
theorem undistributedEarned_batch {peers : Peers} {s s' : State} {batch : Batch} {f : Findings}
    (hfound : BatchFound peers s batch f) (hwrote : BatchWrote s s' batch f) (b : Nat) :
    s'.undistributedEarned b = s.undistributedEarned b +
      if b = batch.bondId ∧ batch.stop = batch.holders.length then
        max (f.periodInfo s batch).undistributed 0
      else 0 := by
  unfold State.undistributedEarned
  rw [hwrote.periodInfo, sum_set]
  have hold : (s.periodInfo.get batch.period).elim 0 (fun info : PeriodInfo =>
      if batch.period.1 = b ∧ info.distributed = true then max info.undistributed 0 else 0) =
        0 := by
    cases hget : s.periodInfo.get batch.period with
    | none => rfl
    | some info => simp [(hfound.unpaid info hget).1]
  rw [hold]
  simp only [Findings.periodInfo, Batch.period, decide_eq_true_eq, eq_comm (a := batch.bondId)]
  omega

/-- A batch keeps the four ledgers in step. -/
theorem Ledger.batch {peers : Peers} {s s' : State} {batch : Batch} {f : Findings}
    {claimed swept : Nat → Int} (hs : Ledger s claimed swept)
    (hfound : BatchFound peers s batch f) (hwrote : BatchWrote s s' batch f) :
    Ledger s' claimed swept := by
  have hpos : ∀ e ∈ f.entries batch, 0 < e.amount := fun _ he => Findings.entries_pos he
  have htypes : ∀ e ∈ f.entries batch, e.creditType ∈ heldTypes f.creditType :=
    fun _ he => (mem_sliceEntries he).2.2
  have htype : ∀ k, s'.accruedCreditsByType.read k = s.accruedCreditsByType.read k +
      ((f.entries batch).map fun e =>
        if k = (batch.bondId, e.holder, e.creditType) then e.amount else 0).sum := by
    intro k
    rw [hwrote.accruedCreditsByType, read_creditAll, List.map_map]
    rfl
  have haccrued : ∀ k, s'.accruedCredits.read k = s.accruedCredits.read k +
      ((f.entries batch).map fun e =>
        if k = (batch.bondId, e.holder) then e.amount else 0).sum := by
    intro k
    rw [hwrote.accruedCredits, read_creditAll, List.map_map]
    rfl
  constructor
  case type_nonneg =>
    intro k
    have hold := hs.type_nonneg k
    have hnew := entries_sum_nonneg hpos (fun e => (batch.bondId, e.holder, e.creditType)) k
    rw [htype]
    omega
  case split =>
    intro b h
    rw [haccrued, htype, htype, hs.split, entries_split fun e he =>
      heldTypes_subset (htypes e he)]
    omega
  case held_type =>
    intro b h t hne
    rw [hwrote.bondCreditType]
    rw [htype] at hne
    by_cases hold : s.accruedCreditsByType.read (b, h, t) = 0
    · rw [hold, Int.zero_add] at hne
      obtain ⟨e, he, hkey⟩ := exists_entry_of_sum_ne_zero hne
      obtain ⟨rfl, -, rfl⟩ : b = batch.bondId ∧ h = e.holder ∧ t = e.creditType := by
        simpa using hkey
      exact ⟨f.creditType, hfound.creditType, htypes e he⟩
    · exact hs.held_type b h t hold
  case earned =>
    intro b
    rw [earnedTotal_batch hwrote, accruedTotal_batch hwrote, hs.earned]
    omega
  case undistributed =>
    intro b
    have hold := hs.undistributed b
    rw [hwrote.undistributedTotal, undistributedEarned_batch hfound hwrote]
    omega

/-! ## Claims, sweeps and registrations -/

/-- A claim moves a holder's accrued credits to what was claimed.  What it does
not clear by type was zero already. -/
theorem Ledger.claim {s s' : State} {caller : Address} {bondId : Nat}
    {claimed swept : Nat → Int} (hs : Ledger s claimed swept)
    (hwrote : ClaimWrote s s' caller bondId) :
    Ledger s' (fun b => claimed b +
      if b = bondId then s.accruedCredits.read (bondId, caller) else 0) swept := by
  have hnonneg := hs.accrued_nonneg bondId caller
  have hcleared : ∀ t, t = CreditType.carbon ∨ t = .biodiversity →
      s'.accruedCreditsByType.read (bondId, caller, t) = 0 := by
    intro t ht
    rw [hwrote.accruedCreditsByType]
    split
    · rfl
    · next hkept =>
        by_contra hne
        obtain ⟨creditType, hget, hmem⟩ := hs.held_type bondId caller t hne
        have hcarbon := hs.type_nonneg (bondId, caller, .carbon)
        have hbiodiversity := hs.type_nonneg (bondId, caller, .biodiversity)
        have hsplit := hs.split bondId caller
        refine hkept ⟨rfl, rfl, ?_, creditType, hget, hmem⟩
        rcases ht with rfl | rfl <;> omega
  have hkept : ∀ b h t, (b, h) ≠ (bondId, caller) →
      s'.accruedCreditsByType.read (b, h, t) = s.accruedCreditsByType.read (b, h, t) := by
    intro b h t hne
    rw [hwrote.accruedCreditsByType, if_neg]
    rintro ⟨rfl, rfl, -⟩
    exact hne rfl
  constructor
  case type_nonneg =>
    intro k
    rw [hwrote.accruedCreditsByType]
    split
    · exact le_rfl
    · exact hs.type_nonneg k
  case split =>
    intro b h
    rw [hwrote.accruedCredits, read_set]
    split
    · next hkey =>
        obtain ⟨rfl, rfl⟩ := Prod.mk.inj hkey
        rw [hcleared .carbon (Or.inl rfl), hcleared .biodiversity (Or.inr rfl)]
        rfl
    · next hkey =>
        rw [hkept b h _ hkey, hkept b h _ hkey]
        exact hs.split b h
  case held_type =>
    intro b h t hne
    rw [hwrote.bondCreditType]
    apply hs.held_type b h t
    rw [hwrote.accruedCreditsByType] at hne
    split at hne
    · exact absurd rfl hne
    · exact hne
  case earned =>
    intro b
    have hearned := hs.earned b
    simp only [State.earnedTotal, State.accruedTotal, hwrote.periodInfo,
      hwrote.accruedCredits] at hearned ⊢
    rw [sumOn_set]
    simp only [eq_comm (a := bondId)]
    split <;> omega
  case undistributed =>
    intro b
    have hundistributed := hs.undistributed b
    simpa only [State.undistributedEarned, hwrote.periodInfo,
      hwrote.undistributedTotal] using hundistributed

/-- A sweep moves the undistributed pool to what has been swept. -/
theorem Ledger.sweep {s s' : State} {bondId : Nat} {claimed swept : Nat → Int}
    (hs : Ledger s claimed swept) (hperiod : s'.periodInfo = s.periodInfo)
    (haccrued : s'.accruedCredits = s.accruedCredits)
    (htype : s'.accruedCreditsByType = s.accruedCreditsByType)
    (hcredit : s'.bondCreditType = s.bondCreditType)
    (hpool : s'.undistributedTotal = s.undistributedTotal.set bondId 0) :
    Ledger s' claimed (fun b => swept b +
      if b = bondId then s.undistributedTotal.read bondId else 0) := by
  obtain ⟨h1, h2, h3, h4, h5⟩ := hs
  refine ⟨htype ▸ h1, htype ▸ haccrued ▸ h2, htype ▸ hcredit ▸ h3, fun b => ?_, fun b => ?_⟩
  · have := h4 b
    simpa only [State.earnedTotal, State.accruedTotal, hperiod, haccrued] using this
  · have := h5 b
    simp only [State.undistributedEarned, hperiod] at this ⊢
    rw [hpool, read_set]
    split
    · next hb =>
        subst hb
        omega
    · omega

/-- Storing for a bond the type it already has, or one for a bond that has none. -/
theorem Ledger.register {s s' : State} {bondId : Nat} {creditType : CreditType}
    {claimed swept : Nat → Int} (hs : Ledger s claimed swept)
    (hsame : ∀ t, s.bondCreditType.get bondId = some t → t = creditType)
    (hperiod : s'.periodInfo = s.periodInfo)
    (haccrued : s'.accruedCredits = s.accruedCredits)
    (htype : s'.accruedCreditsByType = s.accruedCreditsByType)
    (hpool : s'.undistributedTotal = s.undistributedTotal)
    (hcredit : s'.bondCreditType = s.bondCreditType.set bondId creditType) :
    Ledger s' claimed swept := by
  obtain ⟨h1, h2, h3, h4, h5⟩ := hs
  refine ⟨htype ▸ h1, htype ▸ haccrued ▸ h2, fun b h t hne => ?_, fun b => ?_, fun b => ?_⟩
  · rw [htype] at hne
    obtain ⟨old, hget, hmem⟩ := h3 b h t hne
    refine ⟨old, ?_, hmem⟩
    rw [hcredit, get_set]
    split
    · next hb => rw [hsame old (hb ▸ hget)]
    · exact hget
  · have := h4 b
    simpa only [State.earnedTotal, State.accruedTotal, hperiod, haccrued] using this
  · have := h5 b
    simpa only [State.undistributedEarned, hperiod, hpool] using this

/-- The bond, holder and amount of a claim. -/
def claimOf : Call → Output → Option (Nat × Address × Int)
  | .claimCredits caller bondId _, .amount amount => some (bondId, caller, amount)
  | _, _ => none

/-- The bond and amount of a sweep. -/
def sweepOf : Call → Output → Option (Nat × Int)
  | .sweepUndistributed _ bondId _, .amount amount => some (bondId, amount)
  | _, _ => none

/-- A batch claims nothing and sweeps nothing. -/
theorem claimOf_of_batch {call : Call} {batch : Batch} (h : call.batch? = some batch)
    (out : Output) : claimOf call out = none ∧ sweepOf call out = none := by
  cases call <;> first | exact ⟨rfl, rfl⟩ | simp [Call.batch?] at h

end CouponEngine

/-! ## In the deployment -/

/-- The bond, holder and amount of a claim. -/
def LogEntry.claim? (e : LogEntry) : Option (Nat × Address × Int) :=
  match e.input.call, e.output with
  | .engine call, .engine out => CouponEngine.claimOf call out
  | _, _ => none

/-- The bond and amount of a sweep. -/
def LogEntry.sweep? (e : LogEntry) : Option (Nat × Int) :=
  match e.input.call, e.output with
  | .engine call, .engine out => CouponEngine.sweepOf call out
  | _, _ => none

/-- What is no call of the engine claims nothing and sweeps nothing. -/
theorem LogEntry.claim?_of_not_engine {e : LogEntry}
    (h : ∀ call, e.input.call ≠ .engine call) : e.claim? = none ∧ e.sweep? = none := by
  unfold LogEntry.claim? LogEntry.sweep?
  constructor <;> split <;> first | rfl | exact absurd ‹e.input.call = _› (h _)

/-- What a call of the engine claims and sweeps is what the engine says. -/
theorem LogEntry.claim?_of_engine {e : LogEntry} {call : CouponEngine.Call}
    {out : CouponEngine.Output} (hcall : e.input.call = .engine call)
    (hout : e.output = .engine out) :
    e.claim? = CouponEngine.claimOf call out ∧ e.sweep? = CouponEngine.sweepOf call out := by
  simp [LogEntry.claim?, LogEntry.sweep?, hcall, hout]

/-- Credits claimed on a bond by anyone, in one transaction. -/
def LogEntry.claimedOn (bondId : Nat) (e : LogEntry) : Int :=
  e.claim?.elim 0 fun c => if bondId = c.1 then c.2.2 else 0

/-- Undistributed credits of a bond swept in one transaction. -/
def LogEntry.sweptOn (bondId : Nat) (e : LogEntry) : Int :=
  e.sweep?.elim 0 fun c => if bondId = c.1 then c.2 else 0

/-- Everything claimed on a bond in a run. -/
def claimedTotal (bondId : Nat) (l : List LogEntry) : Int :=
  Machine.total (LogEntry.claimedOn bondId) l

/-- Everything swept from a bond in a run. -/
def sweptTotal (bondId : Nat) (l : List LogEntry) : Int :=
  Machine.total (LogEntry.sweptOn bondId) l

/-- The engine stores for a bond the credit type of its configuration. -/
def World.CreditTypesAgree (w : World) : Prop :=
  ∀ bondId creditType, w.engine.bondCreditType.get bondId = some creditType →
    ∃ config, w.issuer.bondConfig.get bondId = some config ∧ config.creditType = creditType

/-- A bond keeps its configuration in every transaction. -/
theorem WorldStep.bondConfig {w w' : World} {tx : Tx} {out : Output}
    (h : WorldStep w tx out w') (hs : BondIssuer.SupplyInvariant w.issuer) {bondId : Nat}
    {config : BondConfig} (hget : w.issuer.bondConfig.get bondId = some config) :
    w'.issuer.bondConfig.get bondId = some config := by
  rcases h.issuer_exec with hsame | ⟨env, registries, call, o, hexec⟩
  · rw [hsame, hget]
  · exact BondIssuer.bondConfig_exec hs hexec hget

/-- One transaction keeps the engine's credit types in agreement with the issuer's. -/
theorem World.CreditTypesAgree.step {w w' : World} {tx : Tx} {out : Output}
    (hw : w.CreditTypesAgree) (hs : BondIssuer.SupplyInvariant w.issuer)
    (h : WorldStep w tx out w') : w'.CreditTypesAgree := by
  have hold : ∀ bondId creditType, w.engine.bondCreditType.get bondId = some creditType →
      ∃ config, w'.issuer.bondConfig.get bondId = some config ∧
        config.creditType = creditType := by
    intro bondId creditType hget
    obtain ⟨config, hconfig, htype⟩ := hw bondId creditType hget
    exact ⟨config, h.bondConfig hs hconfig, htype⟩
  intro bondId creditType hget
  rcases h.registration_cases with
    ⟨-, hsame⟩ | ⟨caller, bondId', projectId, nonce, config, -, hconfig, -, hset⟩
  · exact hold bondId creditType (hsame ▸ hget)
  · rw [hset, get_set] at hget
    split at hget
    · next hbond =>
        subst hbond
        exact ⟨config, h.bondConfig hs hconfig, Option.some.inj hget⟩
    · exact hold bondId creditType hget

/-- The engine of a deployment stores the credit types of the configurations. -/
theorem creditTypesAgree (d : Deployment) (txs : List Tx) :
    (machine.run (deploy d) txs).CreditTypesAgree := by
  refine machine.invariant_under (I := fun w _ => BondIssuer.SupplyInvariant w.issuer)
    (P := fun w _ => w.CreditTypesAgree) (supplyInvariant d) ?_ ?_ txs
  · intro bondId creditType hget
    simp [deploy, CouponEngine.constructor] at hget
  · intro _ e hfires hs hw
    exact hw.step hs (worldStep_of_execute hfires)

open CouponEngine in
/-- The four ledgers agree in the deployment. -/
theorem ledger (d : Deployment) (txs : List Tx) :
    Ledger (machine.run (deploy d) txs).engine
      (fun b => claimedTotal b (machine.log (deploy d) txs))
      (fun b => sweptTotal b (machine.log (deploy d) txs)) := by
  refine machine.invariant_under (I := fun w _ => w.CreditTypesAgree)
    (P := fun w l => Ledger w.engine (fun b => claimedTotal b l) (fun b => sweptTotal b l))
    (creditTypesAgree d) (ledger_constructor _ _ _) ?_ txs
  intro l (e : LogEntry) hfires hagree hledger
  have hclaimed : ∀ b, claimedTotal b (l ++ [e]) =
      claimedTotal b l + e.claim?.elim 0 fun c => if b = c.1 then c.2.2 else 0 :=
    fun b => Machine.total_snoc _ l e
  have hswept : ∀ b, sweptTotal b (l ++ [e]) =
      sweptTotal b l + e.sweep?.elim 0 fun c => if b = c.1 then c.2 else 0 :=
    fun b => Machine.total_snoc _ l e
  simp only [hclaimed, hswept]
  rcases (worldStep_of_execute hfires).engine_cases with
    ⟨hidle, hcall⟩ | ⟨call, o, hcall, hout, -, hstep⟩
  · obtain ⟨hclaim, hsweep⟩ := LogEntry.claim?_of_not_engine hcall
    simpa [hidle, hclaim, hsweep] using hledger
  · obtain ⟨hclaim, hsweep⟩ := LogEntry.claim?_of_engine hcall hout
    rw [hclaim, hsweep]
    cases hstep with
    | registered caller bondId projectId nonce issuer config hcall' hissuer hconfig hs' =>
        obtain ⟨address, -, hissuer⟩ := hissuer
        obtain rfl := World.eq_issuer_of_issuerAt hissuer
        have hsame : ∀ t, e.before.engine.bondCreditType.get bondId = some t →
            t = config.creditType := by
          intro t hget
          obtain ⟨config', hconfig', rfl⟩ := hagree bondId t hget
          rw [Option.some.inj (hconfig'.symm.trans hconfig)]
        rw [hcall', hs']
        simp only [claimOf, sweepOf, Option.elim_none, Int.add_zero]
        exact hledger.register hsame rfl rfl rfl rfl rfl
    | paid batch f hbatch hfound hwrote =>
        obtain ⟨hnoclaim, hnosweep⟩ := claimOf_of_batch hbatch o
        simpa [hnoclaim, hnosweep] using hledger.batch hfound hwrote
    | claimed caller bondId nonce amount hcall' hout' _ hamount hwrote =>
        subst hcall' hout' hamount
        simpa [claimOf, sweepOf] using hledger.claim hwrote
    | swept caller bondId nonce amount hcall' hout' hamount hs' =>
        rw [hcall', hout', hamount, hs']
        simp only [claimOf, sweepOf, Option.elim_none, Option.elim_some, Int.add_zero]
        exact hledger.sweep rfl rfl rfl rfl rfl
    | administered currentAdmin newAdmin nonce hcall' hs' =>
        obtain ⟨h1, h2, h3, h4, h5⟩ := hledger
        rw [hcall', hs']
        simpa [claimOf, sweepOf] using ⟨h1, h2, h3, h4, h5⟩

open CouponEngine in
/-- **Coupon ledger conservation.**  In every reachable state and for every
bond: what its periods earned is what was claimed plus what holders have
accrued; a holder's accrued credits split into the carbon and the biodiversity
ledger, and nothing is negative; and the undistributed pool plus what was swept
is what its complete periods left undistributed. -/
theorem coupon_ledger_conserved (d : Deployment) (txs : List Tx) (bondId : Nat) :
    (machine.run (deploy d) txs).engine.earnedTotal bondId =
        claimedTotal bondId (machine.log (deploy d) txs) +
          (machine.run (deploy d) txs).engine.accruedTotal bondId ∧
      (∀ holder,
        getAccruedCredits (machine.run (deploy d) txs).engine bondId holder =
            getAccruedCreditsByType (machine.run (deploy d) txs).engine bondId holder .carbon +
              getAccruedCreditsByType (machine.run (deploy d) txs).engine bondId holder
                .biodiversity ∧
          0 ≤ getAccruedCreditsByType (machine.run (deploy d) txs).engine bondId holder .carbon ∧
          0 ≤ getAccruedCreditsByType (machine.run (deploy d) txs).engine bondId holder
            .biodiversity ∧
          0 ≤ getAccruedCredits (machine.run (deploy d) txs).engine bondId holder) ∧
      getUndistributedTotal (machine.run (deploy d) txs).engine bondId +
          sweptTotal bondId (machine.log (deploy d) txs) =
        (machine.run (deploy d) txs).engine.undistributedEarned bondId := by
  have hledger := ledger d txs
  refine ⟨hledger.earned bondId, fun holder => ?_, hledger.undistributed bondId⟩
  exact ⟨hledger.split bondId holder, hledger.type_nonneg _, hledger.type_nonneg _,
    hledger.accrued_nonneg bondId holder⟩

end EcoMint
