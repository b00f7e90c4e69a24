import EcoMint.CouponLedger

/-!
# Can accrued credits be spent twice?

A holder spends accrued credits by claiming them from the coupon engine or by
retiring them.  Retirement compares its own running total with the engine's
accrued balance, but a claim pays out that whole balance without asking what
was retired against it.  So the credits of a holder on a bond are spent at most
once for as long as the holder claims only what nothing was retired against.
-/

namespace EcoMint

open Storage

/-- What the engine accrued to a holder of a bond in one transaction. -/
def LogEntry.accruedTo (bondId : Nat) (holder : Address) (e : LogEntry) : Int :=
  match e.input.call with
  | .engine call =>
      if call.batch?.isSome then
        CouponEngine.getAccruedCredits e.after.engine bondId holder -
          CouponEngine.getAccruedCredits e.before.engine bondId holder
      else 0
  | _ => 0

/-- What a holder claimed on a bond in one transaction. -/
def LogEntry.claimedBy (bondId : Nat) (holder : Address) (e : LogEntry) : Int :=
  e.claim?.elim 0 fun c => if bondId = c.1 ∧ holder = c.2.1 then c.2.2 else 0

/-- All credits ever accrued to a holder on a bond. -/
def accruedEver (bondId : Nat) (holder : Address) (l : List LogEntry) : Int :=
  Machine.total (LogEntry.accruedTo bondId holder) l

/-- All amounts returned by a holder's claims on a bond. -/
def claimedEver (bondId : Nat) (holder : Address) (l : List LogEntry) : Int :=
  Machine.total (LogEntry.claimedBy bondId holder) l

/-- The amounts of all retirement records of a holder on a bond. -/
def CreditRetirement.State.retiredTotal (s : CreditRetirement.State) (bondId : Nat)
    (holder : Address) : Int :=
  s.retirement.sum fun _ r => if r.bondId = bondId ∧ r.holder = holder then r.amount else 0

/-- No holder has spent more on a bond than the engine accrued there. -/
def SpentOnce (w : World) (l : List LogEntry) : Prop :=
  ∀ b h, claimedEver b h l + w.retirement.retiredTotal b h ≤ accruedEver b h l

/-- Whoever claims on a bond has retired nothing on it. -/
def LogEntry.ClaimsUnretired (e : LogEntry) : Prop :=
  ∀ h b nonce, e.input.call = .engine (.claimCredits h b nonce) →
    e.before.retirement.retiredTotal b h = 0

/-! ## The retirement records

The contract checks a retirement against its running total.  That total is
what its records add up to, because record ids are never used twice.
-/

namespace CreditRetirement

/-- The running totals are the sums of the records. -/
structure BooksAgree (s : State) : Prop where
  records : ∀ b h, s.retiredTotal b h = s.retiredPerBond.read (b, h)
  unused : ∀ id, s.retirementCount < id → s.retirement.get id = none
  nonneg : ∀ k, 0 ≤ s.retiredPerBond.read k

theorem booksAgree_constructor (admin issuer engine : Address) :
    BooksAgree (constructor admin issuer engine) where
  records b h := by simp [constructor, State.retiredTotal]
  unused id _ := by simp [constructor]
  nonneg k := by simp [constructor]

/-- A retirement keeps the books in agreement. -/
theorem BooksAgree.retire {env : Env} {s s' : State} {holder : Address} {bondId : Nat}
    {amount : Int} {creditType : CreditType} {certificateHash : BytesN 32}
    (hs : BooksAgree s) (hpos : 0 < amount)
    (hwrote : RetireWrote env s s' holder bondId amount creditType certificateHash) :
    BooksAgree s' := by
  have hfree : s.retirement.get (s.retirementCount + 1) = none := hs.unused _ (by omega)
  constructor
  case records =>
    intro b h
    have hold := hs.records b h
    unfold State.retiredTotal at hold ⊢
    rw [hwrote.record, sum_set, hfree, hold, hwrote.perBond, read_credit, Option.elim_none]
    simp only [Prod.mk.injEq, eq_comm (a := bondId), eq_comm (a := holder)]
    omega
  case unused =>
    intro id hid
    rw [hwrote.count] at hid
    rw [hwrote.record, get_set_ne _ _ (by omega)]
    exact hs.unused id (by omega)
  case nonneg =>
    intro k
    have hold := hs.nonneg k
    rw [hwrote.perBond, read_credit]
    split <;> omega

end CreditRetirement

/-! ## What one transaction does to the three totals -/

/-- The accrued balances move by what was accrued and claimed. -/
theorem accrued_step {e : LogEntry} (hfires : machine.Fires e) (b : Nat) (h : Address) :
    CouponEngine.getAccruedCredits e.after.engine b h =
      CouponEngine.getAccruedCredits e.before.engine b h + LogEntry.accruedTo b h e -
        LogEntry.claimedBy b h e ∧ 0 ≤ LogEntry.accruedTo b h e := by
  rcases (worldStep_of_execute hfires).engine_cases with
    ⟨hidle, hcall⟩ | ⟨call, o, hcall, hout, -, hstep⟩
  · have haccrued : LogEntry.accruedTo b h e = 0 := by
      unfold LogEntry.accruedTo
      split
      · next call hengine => exact absurd hengine (hcall call)
      · rfl
    have hclaimed : LogEntry.claimedBy b h e = 0 := by
      unfold LogEntry.claimedBy
      rw [(LogEntry.claim?_of_not_engine hcall).1, Option.elim_none]
    rw [hidle, haccrued, hclaimed]
    omega
  · have hclaim := (LogEntry.claim?_of_engine hcall hout).1
    simp only [LogEntry.accruedTo, LogEntry.claimedBy, hcall, hclaim,
      CouponEngine.getAccruedCredits]
    cases hstep with
    | registered _ _ _ _ _ _ hcall' _ _ hs' =>
        rw [hcall', hs']
        simp [CouponEngine.claimOf, CouponEngine.Call.batch?, CouponEngine.State.bump]
    | administered _ _ _ hcall' hs' =>
        rw [hcall', hs']
        simp [CouponEngine.claimOf, CouponEngine.Call.batch?, CouponEngine.State.bump]
    | swept _ _ _ _ hcall' _ _ hs' =>
        rw [hcall', hs']
        simp [CouponEngine.claimOf, CouponEngine.Call.batch?, CouponEngine.State.bump]
    | paid batch f hbatch hfound hwrote =>
        have hpos : ∀ entry ∈ f.entries batch, 0 < entry.amount :=
          fun _ hentry => CouponEngine.Findings.entries_pos hentry
        have hsum := CouponEngine.entries_sum_nonneg hpos
          (fun entry => (batch.bondId, entry.holder)) (b, h)
        rw [hbatch, (CouponEngine.claimOf_of_batch hbatch o).1, hwrote.accruedCredits,
          read_creditAll, List.map_map]
        simp only [Function.comp_def, Option.isSome_some, if_true, Option.elim_none]
        omega
    | claimed caller bondId nonce amount hcall' hout' _ hamount hwrote =>
        subst hcall' hout' hamount
        simp only [CouponEngine.claimOf, CouponEngine.Call.batch?, hwrote.accruedCredits,
          read_set, Option.isSome_none, Option.elim_some, Prod.mk.injEq]
        by_cases hkey : b = bondId ∧ h = caller
        · obtain ⟨rfl, rfl⟩ := hkey
          simp
        · simp [hkey]

theorem LogEntry.exists_claim_of_claimedBy_ne_zero {e : LogEntry} {b : Nat} {h : Address}
    (hne : LogEntry.claimedBy b h e ≠ 0) :
    ∃ nonce, e.input.call = .engine (.claimCredits h b nonce) := by
  unfold LogEntry.claimedBy LogEntry.claim? at hne
  split at hne
  · next _ _ call out hcall _ =>
      unfold CouponEngine.claimOf at hne
      split at hne
      · next caller bondId nonce amount _ =>
          by_cases hkey : b = bondId ∧ h = caller
          · obtain ⟨rfl, rfl⟩ := hkey
            exact ⟨nonce, hcall⟩
          · exact absurd (if_neg hkey) hne
      · simp at hne
  · simp at hne

/-- A claim leaves nothing accrued to its caller; nothing else lowers what a
holder has accrued. -/
theorem accrued_of_claim {e : LogEntry} (hfires : machine.Fires e) (b : Nat) (h : Address) :
    (∃ nonce, e.input.call = .engine (.claimCredits h b nonce)) ∧
        CouponEngine.getAccruedCredits e.after.engine b h = 0 ∨
      (∀ nonce, e.input.call ≠ .engine (.claimCredits h b nonce)) ∧
        CouponEngine.getAccruedCredits e.before.engine b h ≤
          CouponEngine.getAccruedCredits e.after.engine b h := by
  by_cases hclaim : ∃ nonce, e.input.call = .engine (.claimCredits h b nonce)
  · left
    refine ⟨hclaim, ?_⟩
    obtain ⟨nonce, hclaim⟩ := hclaim
    rcases (worldStep_of_execute hfires).engine_cases with
      ⟨-, hcall⟩ | ⟨call, o, hcall, -, -, hstep⟩
    · exact absurd hclaim (hcall _)
    · obtain rfl := Call.engine.inj (hclaim.symm.trans hcall)
      cases hstep with
      | claimed caller bondId nonce amount hcall' _ _ _ hwrote =>
          obtain ⟨rfl, rfl, rfl⟩ := CouponEngine.Call.claimCredits.inj hcall'
          simp [CouponEngine.getAccruedCredits, hwrote.accruedCredits]
      | paid batch f hbatch => cases hbatch
      | registered _ _ _ _ _ _ hcall' => cases hcall'
      | swept _ _ _ _ hcall' => cases hcall'
      | administered _ _ _ hcall' => cases hcall'
  · right
    push Not at hclaim
    refine ⟨hclaim, ?_⟩
    have hclaimed : LogEntry.claimedBy b h e = 0 := by
      by_contra hne
      obtain ⟨nonce, hcall⟩ := LogEntry.exists_claim_of_claimedBy_ne_zero hne
      exact hclaim nonce hcall
    obtain ⟨haccrued, hnonneg⟩ := accrued_step hfires b h
    omega

/-- A transaction keeps the retirement books, and raises what is retired only
up to what is accrued. -/
theorem retired_step {e : LogEntry} (hfires : machine.Fires e)
    (hs : CreditRetirement.BooksAgree e.before.retirement) :
    CreditRetirement.BooksAgree e.after.retirement ∧ ∀ b h,
      e.after.retirement.retiredTotal b h = e.before.retirement.retiredTotal b h ∨
        (∀ call, e.input.call ≠ .engine call) ∧
          e.after.retirement.retiredTotal b h ≤
            CouponEngine.getAccruedCredits e.after.engine b h := by
  rcases (worldStep_of_execute hfires).retirement_cases with
    hsame | ⟨call, o, hcall, hafter, hexec⟩
  · exact ⟨hsame ▸ hs, fun b h => Or.inl (by rw [hsame])⟩
  have hengine : e.after.engine = e.before.engine := by rw [hafter]
  rcases CreditRetirement.exec_cases hexec with
    ⟨holder, bondId, amount, creditType, hash, nonce, -, hpos, hpeer, hwrote⟩ |
    ⟨_, _, _, -, hrecords, hcount, hperBond, -, -⟩
  · obtain ⟨address, engine, -, hpeer, henough⟩ := hpeer
    obtain rfl := World.eq_engine_of_engineAt hpeer
    have hagree := hs.retire hpos hwrote
    refine ⟨hagree, fun b h => ?_⟩
    rw [hagree.records, hs.records, hwrote.perBond, read_credit, hengine]
    by_cases hkey : (b, h) = (bondId, holder)
    · obtain ⟨rfl, rfl⟩ := Prod.mk.inj hkey
      exact Or.inr ⟨by simp [hcall], by simpa using henough⟩
    · exact Or.inl (by simp [hkey])
  · obtain ⟨h1, h2, h3⟩ := hs
    have htotal : ∀ b h, e.after.retirement.retiredTotal b h =
        e.before.retirement.retiredTotal b h := by
      intro b h
      rw [CreditRetirement.State.retiredTotal, hrecords]
      rfl
    refine ⟨⟨fun b h => ?_, fun id hid => ?_, fun k => ?_⟩, fun b h => Or.inl (htotal b h)⟩
    · rw [htotal, hperBond]
      exact h1 b h
    · rw [hrecords]
      exact h2 id (hcount ▸ hid)
    · rw [hperBond]
      exact h3 k

/-! ## Runs -/

/-- What the two contracts' books say after a run. -/
structure SpendingInvariant (w : World) (l : List LogEntry) : Prop where
  books : CreditRetirement.BooksAgree w.retirement
  accrued : ∀ b h, accruedEver b h l =
    claimedEver b h l + CouponEngine.getAccruedCredits w.engine b h

/-- One transaction keeps the invariant of spending. -/
theorem SpendingInvariant.step {l : List LogEntry} {e : LogEntry} (hfires : machine.Fires e)
    (hI : SpendingInvariant e.before l) : SpendingInvariant e.after (l ++ [e]) := by
  refine ⟨(retired_step hfires hI.books).1, fun b h => ?_⟩
  have hold := hI.accrued b h
  have hnew := (accrued_step hfires b h).1
  have haccrued : accruedEver b h (l ++ [e]) = accruedEver b h l + LogEntry.accruedTo b h e :=
    Machine.total_snoc _ l e
  have hclaimed : claimedEver b h (l ++ [e]) = claimedEver b h l + LogEntry.claimedBy b h e :=
    Machine.total_snoc _ l e
  omega

/-- The invariant of spending holds in every reachable world. -/
theorem spendingInvariant (d : Deployment) (txs : List Tx) :
    SpendingInvariant (machine.run (deploy d) txs) (machine.log (deploy d) txs) := by
  refine machine.invariant (P := SpendingInvariant) ?_ (fun _ _ => SpendingInvariant.step) txs
  refine ⟨CreditRetirement.booksAgree_constructor _ _ _, fun b h => ?_⟩
  simp [accruedEver, claimedEver, deploy, CouponEngine.constructor,
    CouponEngine.getAccruedCredits]

/-- Between the two books, spending once means retiring no more than what is
still accrued. -/
theorem SpendingInvariant.spentOnce_iff {w : World} {l : List LogEntry}
    (hI : SpendingInvariant w l) :
    SpentOnce w l ↔ ∀ b h, w.retirement.retiredTotal b h ≤
      CouponEngine.getAccruedCredits w.engine b h := by
  unfold SpentOnce
  refine forall_congr' fun b => forall_congr' fun h => ?_
  have := hI.accrued b h
  omega

/-- **When accrued credits are spent once.**  In a run of the deployment no
holder ever claims and retires more on a bond than the engine accrued to the
holder there, exactly if every accepted claim was made by a holder with nothing
retired on that bond. -/
theorem credits_spent_once_iff (d : Deployment) (txs : List Tx) :
    (∀ pre, pre <+: txs → SpentOnce (machine.run (deploy d) pre) (machine.log (deploy d) pre)) ↔
      ∀ e ∈ machine.log (deploy d) txs, LogEntry.ClaimsUnretired e := by
  rw [← Machine.forall_prefix_iff_forall_mem]
  refine machine.holds_iff (I := fun w l => SpendingInvariant w l)
    (P := SpentOnce) (C := fun _ e => LogEntry.ClaimsUnretired e)
    (spendingInvariant d) ?_ ?_ txs
  · intro b h
    simp [claimedEver, accruedEver, deploy, CreditRetirement.constructor,
      CreditRetirement.State.retiredTotal]
  · intro l (e : LogEntry) hfires hI hbefore
    rw [hI.spentOnce_iff] at hbefore
    rw [(hI.step hfires).spentOnce_iff]
    have hretired := (retired_step hfires hI.books).2
    constructor
    · intro hafter h b nonce hcall
      have hle := hafter b h
      have hnonneg := hI.books.nonneg (b, h)
      rw [← hI.books.records] at hnonneg
      rcases hretired b h with hsame | ⟨hnotengine, -⟩
      · rcases accrued_of_claim hfires b h with ⟨-, hzero⟩ | ⟨hnoclaim, -⟩
        · omega
        · exact absurd hcall (hnoclaim nonce)
      · exact absurd hcall (hnotengine _)
    · intro hunretired b h
      rcases hretired b h with hsame | ⟨-, hle⟩
      · rcases accrued_of_claim hfires b h with ⟨⟨nonce, hcall⟩, hzero⟩ | ⟨-, hmono⟩
        · have := hunretired h b nonce hcall
          omega
        · have := hbefore b h
          omega
      · exact hle


/-- Account 1 accrues a million minor units, retires all of them and then claims
all of them. -/
def retireThenClaim : List Tx := reportedBond ++ [
  sampleTx 5 0 (.engine (.distributeCoupon 0 1 0 [1] 1 1)),
  sampleTx 6 1 (.retirement (.retireCredits 1 1 1000000 .carbon BondIssuer.sampleConfig.projectId
    0)),
  sampleTx 7 1 (.engine (.claimCredits 1 1 0))]

/-- Credits that have been retired can still be claimed. -/
theorem credits_spent_twice_by_claim :
    ¬ ∀ (d : Deployment) (txs : List Tx) (b : Nat) (h : Address),
      claimedEver b h (machine.log (deploy d) txs) +
          (machine.run (deploy d) txs).retirement.retiredTotal b h ≤
        accruedEver b h (machine.log (deploy d) txs) := by
  intro hspent
  have hclaimed : claimedEver 1 1 (machine.log (deploy sampleDeployment) retireThenClaim) =
      1000000 := by decide +kernel
  have hretired : (machine.run (deploy sampleDeployment)
      retireThenClaim).retirement.retiredTotal 1 1 = 1000000 := by decide +kernel
  have haccrued : accruedEver 1 1 (machine.log (deploy sampleDeployment) retireThenClaim) =
      1000000 := by decide +kernel
  have := hspent sampleDeployment retireThenClaim 1 1
  omega

end EcoMint
