import EcoMint.CreditSpending

/-!
# The credit type of a retirement

The engine keeps what a holder accrued by credit type, carbon and biodiversity
apart.  The retirement contract looks at the sum of the two only, and stores as
the type of a record whatever its holder stated.  So without claims a holder
retires at most what was accrued over both types, in whatever types the holder
likes to name.
-/

namespace EcoMint

open Storage

/-- The ledger a credit type is accrued in; blue carbon counts as carbon. -/
def CreditType.accruedAs : CreditType → CreditType
  | .blueCarbon => .carbon
  | creditType => creditType

/-- The amounts of the retirement records of a holder on a bond that state a
credit type. -/
def CreditRetirement.State.retiredAs (s : CreditRetirement.State) (bondId : Nat)
    (holder : Address) (creditType : CreditType) : Int :=
  s.retirement.sum fun _ r =>
    if r.bondId = bondId ∧ r.holder = holder ∧ r.creditType.accruedAs = creditType then r.amount
    else 0

/-- A call of `claim_credits`. -/
def LogEntry.Claims (e : LogEntry) : Prop :=
  ∃ caller bondId nonce, e.input.call = .engine (.claimCredits caller bondId nonce)

/-- The retirement call that a record tells of. -/
def LogEntry.Records (e : LogEntry) (record : CreditRetirement.RetirementRecord) : Prop :=
  ∃ nonce, e.input.call = .retirement (.retireCredits record.holder record.bondId record.amount
    record.creditType record.certificateIpfsHash nonce)

/-- Nothing is retired beyond what is accrued, as long as nobody claims. -/
def RetiredWithin (w : World) (l : List LogEntry) : Prop :=
  (∀ e ∈ l, ¬ LogEntry.Claims e) → ∀ b h, w.retirement.retiredTotal b h ≤
    CouponEngine.getAccruedCredits w.engine b h

/-- One transaction keeps what is retired within what has accrued. -/
theorem RetiredWithin.step {l : List LogEntry} {e : LogEntry} (hfires : machine.Fires e)
    (hI : SpendingInvariant e.before l) (hw : RetiredWithin e.before l) :
    RetiredWithin e.after (l ++ [e]) := by
  intro hnone b h
  have hle := hw (fun e' he' => hnone e' (List.mem_append_left _ he')) b h
  rcases (retired_step hfires hI.books).2 b h with hsame | ⟨-, hafter⟩
  · rcases accrued_of_claim hfires b h with ⟨⟨nonce, hclaim⟩, -⟩ | ⟨-, hmono⟩
    · have hlast := hnone e (List.mem_append_right _ (List.mem_singleton_self e))
      exact absurd ⟨h, b, nonce, hclaim⟩ hlast
    · omega
  · exact hafter

/-- In every reachable world what is retired stays within what has accrued. -/
theorem retiredWithin (d : Deployment) (txs : List Tx) :
    RetiredWithin (machine.run (deploy d) txs) (machine.log (deploy d) txs) := by
  refine machine.invariant_under (I := SpendingInvariant) (P := RetiredWithin)
    (spendingInvariant d) ?_ (fun _ _ => RetiredWithin.step) txs
  intro _ b h
  simp [deploy, CreditRetirement.constructor, CreditRetirement.State.retiredTotal,
    CouponEngine.constructor, CouponEngine.getAccruedCredits]

/-- Every record tells of an accepted call. -/
theorem record_origin (d : Deployment) (txs : List Tx) {id : Nat}
    {record : CreditRetirement.RetirementRecord}
    (hget : (machine.run (deploy d) txs).retirement.retirement.get id = some record) :
    ∃ e ∈ machine.log (deploy d) txs, LogEntry.Records e record := by
  refine machine.invariant (P := fun w l => ∀ id record,
    w.retirement.retirement.get id = some record → ∃ e ∈ l, LogEntry.Records e record) ?_ ?_ txs
    id record hget
  · intro id record hget
    simp [deploy, CreditRetirement.constructor] at hget
  · intro l (e : LogEntry) hfires hs id record hget
    have hold : e.before.retirement.retirement.get id = some record →
        ∃ e' ∈ l ++ [e], LogEntry.Records e' record := by
      intro hbefore
      obtain ⟨e', he', hrecords⟩ := hs id record hbefore
      exact ⟨e', List.mem_append_left _ he', hrecords⟩
    rcases (worldStep_of_execute hfires).retirement_cases with
      hsame | ⟨call, o, hcall, -, hexec⟩
    · exact hold (hsame ▸ hget)
    · rcases CreditRetirement.exec_cases hexec with
        ⟨holder, bondId, amount, creditType, hash, nonce, hretire, -, -, hwrote⟩ |
        ⟨_, _, _, -, hrecords, -⟩
      · rw [hwrote.record, get_set] at hget
        split at hget
        · obtain rfl := Option.some.inj hget
          exact ⟨e, List.mem_append_right _ (List.mem_singleton_self e), nonce,
            hcall.trans (congrArg Call.retirement hretire)⟩
        · exact hold hget
      · exact hold (hrecords ▸ hget)

/-- **Retirement over all types.**  In a run without claims the records of a
holder on a bond add up, over all the types they state, to at most what the
engine accrued to the holder there as carbon and as biodiversity credits; and
the type of a record is the one its retirement stated. -/
theorem retired_over_all_types (d : Deployment) (txs : List Tx)
    (hnone : ∀ e ∈ machine.log (deploy d) txs, ¬ LogEntry.Claims e) :
    (∀ bondId holder, (machine.run (deploy d) txs).retirement.retiredTotal bondId holder ≤
      CouponEngine.getAccruedCreditsByType (machine.run (deploy d) txs).engine bondId holder
          .carbon +
        CouponEngine.getAccruedCreditsByType (machine.run (deploy d) txs).engine bondId holder
          .biodiversity) ∧
    ∀ id record, (machine.run (deploy d) txs).retirement.retirement.get id = some record →
      ∃ e ∈ machine.log (deploy d) txs, LogEntry.Records e record := by
  refine ⟨fun bondId holder => ?_, fun id record hget => record_origin d txs hget⟩
  have hsplit := (ledger d txs).split bondId holder
  have hwithin := retiredWithin d txs hnone bondId holder
  unfold CouponEngine.getAccruedCredits at hwithin
  unfold CouponEngine.getAccruedCreditsByType
  omega

/-- Account 1 holds a carbon bond, accrues a million minor units, and retires
them, one half as carbon and one half as biodiversity credits. -/
def retireTwoTypes : List Tx := reportedBond ++ [
  sampleTx 5 0 (.engine (.distributeCoupon 0 1 0 [1] 1 1)),
  sampleTx 6 1 (.retirement (.retireCredits 1 1 500000 .carbon BondIssuer.sampleConfig.projectId
    0)),
  sampleTx 7 1 (.retirement (.retireCredits 1 1 500000 .biodiversity
    BondIssuer.sampleConfig.projectId 1))]

/-- Nothing is claimed in the run that retires two types. -/
theorem retireTwoTypes_unclaimed (e : LogEntry)
    (he : e ∈ machine.log (deploy sampleDeployment) retireTwoTypes) : ¬ LogEntry.Claims e := by
  rintro ⟨caller, bondId, nonce, hcall⟩
  have hmem := (machine.log_inputs_sublist (deploy sampleDeployment) retireTwoTypes).subset
    (List.mem_map_of_mem he)
  simp [retireTwoTypes, reportedBond, sampleTx] at hmem
  rcases hmem with h | h | h | h | h | h | h | h | h <;> simp [h] at hcall

/-- In the sample run no more than the accrued total is retired. -/
theorem retired_over_all_types_sample :
    (machine.run (deploy sampleDeployment) retireTwoTypes).retirement.retiredTotal 1 1 ≤
      1000000 := by
  have hle := (retired_over_all_types sampleDeployment retireTwoTypes
    retireTwoTypes_unclaimed).1 1 1
  refine hle.trans (le_of_eq ?_)
  decide +kernel

/-- The bond of the sample never accrues biodiversity credits. -/
theorem biodiversity_retired_on_carbon_bond :
    ¬ ∀ (d : Deployment) (txs : List Tx),
      (∀ e ∈ machine.log (deploy d) txs, ¬ LogEntry.Claims e) →
      ∀ bondId holder creditType, creditType = .carbon ∨ creditType = .biodiversity →
        (machine.run (deploy d) txs).retirement.retiredAs bondId holder creditType ≤
          CouponEngine.getAccruedCreditsByType (machine.run (deploy d) txs).engine bondId holder
            creditType := by
  intro h
  have hle := h sampleDeployment retireTwoTypes retireTwoTypes_unclaimed 1 1 .biodiversity
    (Or.inr rfl)
  have hretired : (machine.run (deploy sampleDeployment) retireTwoTypes).retirement.retiredAs 1 1
      .biodiversity = 500000 := by decide +kernel
  have haccrued : CouponEngine.getAccruedCreditsByType
      (machine.run (deploy sampleDeployment) retireTwoTypes).engine 1 1 .biodiversity = 0 := by
    decide +kernel
  omega

end EcoMint
