import EcoMint.CreditSpending

/-!
# What is retired was issued

A claim and a retirement do not see each other, so credits can be spent twice;
but each road out of the coupon engine is bounded by what came in.  The argument
keeps a ledger that no contract keeps: everything ever credited to a holder on a
bond.  A batch adds the same amount to it as to the total of its period, a claim
takes nothing off, and retirements stay below it.
-/

namespace EcoMint

open Storage

namespace CreditRetirement

/-- The amounts of all retirement records on a bond. -/
def State.retiredOn (s : State) (bondId : Nat) : Int :=
  s.retirement.sum fun _ r => if r.bondId = bondId then r.amount else 0

/-- The records on a bond add up to the running totals of its holders. -/
def State.BondBooksAgree (s : State) : Prop :=
  ∀ b, s.retiredOn b = s.retiredPerBond.sumOn fun k => k.1 = b

theorem bondBooksAgree_constructor (admin issuer engine : Address) :
    (constructor admin issuer engine).BondBooksAgree := by
  intro b
  simp [constructor, State.retiredOn]

/-- Every accepted call keeps the totals in agreement by bond. -/
theorem bondBooksAgree_exec {env : Env} {peers : Peers} {s s' : State} {call : Call}
    {out : Output} (hs : BooksAgree s) (hagree : s.BondBooksAgree)
    (h : exec env peers s call = .ok (out, s')) : s'.BondBooksAgree := by
  intro b
  have hold := hagree b
  unfold State.retiredOn at hold ⊢
  rcases exec_cases h with
    ⟨holder, bondId, amount, creditType, hash, nonce, -, -, -, hwrote⟩ |
    ⟨-, -, -, -, hrecords, -, hperBond, -, -⟩
  · have hfree : s.retirement.get (s.retirementCount + 1) = none := hs.unused _ (by omega)
    rw [hwrote.record, sum_set, hfree, hold, hwrote.perBond, sumOn_credit, Option.elim_none]
    dsimp only
    omega
  · rw [hrecords, hperBond, hold]

end CreditRetirement

/-! ## Everything ever credited -/

/-- The ledger of everything ever credited agrees with the periods and with the
log, and bounds what is accrued and what is retired. -/
structure Issuance (w : World) (l : List LogEntry) (ever : Storage (Nat × Address) Int) :
    Prop where
  earned : ∀ b, (ever.sumOn fun k => k.1 = b) = w.engine.earnedTotal b
  logged : ∀ b h, ever.read (b, h) = accruedEver b h l
  accrued : ∀ k, w.engine.accruedCredits.read k ≤ ever.read k
  nonneg : ∀ k, 0 ≤ ever.read k
  retired : ∀ k, w.retirement.retiredPerBond.read k ≤ ever.read k

/-- A transaction that credits nobody. -/
theorem Issuance.of_same {e : LogEntry} {l : List LogEntry}
    {ever : Storage (Nat × Address) Int} (hs : Issuance e.before l ever)
    (hperiods : e.after.engine.periodInfo = e.before.engine.periodInfo)
    (hcredited : ∀ b h, LogEntry.accruedTo b h e = 0)
    (haccrued : ∀ k, e.after.engine.accruedCredits.read k ≤ ever.read k)
    (hretired : ∀ k, e.after.retirement.retiredPerBond.read k ≤ ever.read k) :
    Issuance e.after (l ++ [e]) ever where
  earned b := by
    rw [hs.earned b, CouponEngine.State.earnedTotal, CouponEngine.State.earnedTotal, hperiods]
  logged b h := by
    rw [accruedEver, Machine.total_snoc, hcredited, add_zero]
    exact hs.logged b h
  accrued := haccrued
  nonneg := hs.nonneg
  retired := hretired

/-- A batch enters the same amounts everywhere. -/
theorem Issuance.batch {e : LogEntry} {l : List LogEntry} {ever : Storage (Nat × Address) Int}
    {call : CouponEngine.Call} {batch : CouponEngine.Batch} {f : CouponEngine.Findings}
    (hs : Issuance e.before l ever) (hcall : e.input.call = .engine call)
    (hbatch : call.batch? = some batch)
    (hwrote : CouponEngine.BatchWrote e.before.engine e.after.engine batch f)
    (hretirement : e.after.retirement = e.before.retirement) :
    Issuance e.after (l ++ [e])
      (ever.creditAll ((f.entries batch).map fun x => ((batch.bondId, x.holder), x.amount))) := by
  have hpos : ∀ x ∈ f.entries batch, 0 < x.amount :=
    fun _ hx => CouponEngine.Findings.entries_pos hx
  have hgain : ∀ k : Nat × Address, 0 ≤ ((((f.entries batch).map fun x =>
      ((batch.bondId, x.holder), x.amount)).map fun x => if k = x.1 then x.2 else 0).sum : Int) := by
    intro k
    rw [List.map_map]
    exact CouponEngine.entries_sum_nonneg hpos (fun x => (batch.bondId, x.holder)) k
  constructor
  case earned =>
    intro b
    rw [CouponEngine.earnedTotal_batch hwrote b, sumOn_creditAll, hs.earned b, List.map_map]
    congr 1
    by_cases hb : b = batch.bondId
    · subst hb
      simp [Function.comp_def, CouponEngine.entriesTotal]
    · simp [Function.comp_def, hb, Ne.symm hb]
  case logged =>
    intro b h
    have hcredited : LogEntry.accruedTo b h e =
        CouponEngine.getAccruedCredits e.after.engine b h -
          CouponEngine.getAccruedCredits e.before.engine b h := by
      simp only [LogEntry.accruedTo, hcall, hbatch, Option.isSome_some, if_true]
    rw [accruedEver, Machine.total_snoc, hcredited, CouponEngine.getAccruedCredits,
      CouponEngine.getAccruedCredits, hwrote.accruedCredits, read_creditAll, read_creditAll,
      hs.logged b h, accruedEver]
    omega
  case accrued =>
    intro k
    rw [hwrote.accruedCredits, read_creditAll, read_creditAll]
    exact Int.add_le_add_right (hs.accrued k) _
  case nonneg =>
    intro k
    rw [read_creditAll]
    exact Int.add_nonneg (hs.nonneg k) (hgain k)
  case retired =>
    intro k
    have hold := hs.retired k
    have hgain := hgain k
    rw [hretirement, read_creditAll]
    omega

/-- **One transaction** keeps the ledger or enters a batch. -/
theorem Issuance.step {e : LogEntry} {l : List LogEntry} {ever : Storage (Nat × Address) Int}
    (hfires : machine.Fires e) (hbooks : CreditRetirement.BooksAgree e.before.retirement)
    (hs : Issuance e.before l ever) : ∃ ever', Issuance e.after (l ++ [e]) ever' := by
  have hstep := worldStep_of_execute hfires
  rcases hstep.engine_cases with ⟨hidle, hcall⟩ | ⟨call, o, hcall, -, hafter, hengine⟩
  · have hcredited : ∀ b h, LogEntry.accruedTo b h e = 0 := by
      intro b h
      unfold LogEntry.accruedTo
      split
      · next call hengine => exact absurd hengine (hcall call)
      · rfl
    refine ⟨ever, hs.of_same (by rw [hidle]) hcredited (fun k => hidle ▸ hs.accrued k) ?_⟩
    obtain ⟨hbooks', hretired⟩ := retired_step hfires hbooks
    intro k
    rw [← hbooks'.records k.1 k.2]
    rcases hretired k.1 k.2 with hsame | ⟨-, hle⟩
    · rw [hsame, hbooks.records]
      exact hs.retired k
    · exact Int.le_trans hle (hidle ▸ hs.accrued k)
  · have hretirement : e.after.retirement = e.before.retirement := by rw [hafter]
    have hkept : ∀ k, e.after.retirement.retiredPerBond.read k ≤ ever.read k := by
      intro k
      rw [hretirement]
      exact hs.retired k
    cases hengine with
    | paid batch f hbatch hfound hwrote => exact ⟨_, hs.batch hcall hbatch hwrote hretirement⟩
    | claimed caller bondId nonce amount hclaim _ _ _ hwrote =>
        refine ⟨ever, hs.of_same hwrote.periodInfo ?_ ?_ hkept⟩
        · intro b h
          simp [LogEntry.accruedTo, hcall, hclaim, CouponEngine.Call.batch?]
        · intro k
          rw [hwrote.accruedCredits, read_set]
          split
          · exact hs.nonneg k
          · exact hs.accrued k
    | registered _ _ _ _ _ _ hregister _ _ hs' =>
        refine ⟨ever, hs.of_same (by rw [hs']; rfl) ?_ (fun k => ?_) hkept⟩
        · intro b h
          simp [LogEntry.accruedTo, hcall, hregister, CouponEngine.Call.batch?]
        · rw [hs']
          exact hs.accrued k
    | swept _ _ _ _ hsweep _ _ hs' =>
        refine ⟨ever, hs.of_same (by rw [hs']; rfl) ?_ (fun k => ?_) hkept⟩
        · intro b h
          simp [LogEntry.accruedTo, hcall, hsweep, CouponEngine.Call.batch?]
        · rw [hs']
          exact hs.accrued k
    | administered _ _ _ hadmin hs' =>
        refine ⟨ever, hs.of_same (by rw [hs']; rfl) ?_ (fun k => ?_) hkept⟩
        · intro b h
          simp [LogEntry.accruedTo, hcall, hadmin, CouponEngine.Call.batch?]
        · rw [hs']
          exact hs.accrued k

/-! ## Runs -/

theorem issuance_deploy (d : Deployment) : Issuance (deploy d) [] ∅ where
  earned b := by simp [deploy, CouponEngine.constructor, CouponEngine.State.earnedTotal]
  logged b h := by simp [accruedEver]
  accrued k := by simp [deploy, CouponEngine.constructor]
  nonneg k := by simp
  retired k := by simp [deploy, CreditRetirement.constructor]

/-- The issuance is in order after every run. -/
theorem issuance_run (d : Deployment) (txs : List Tx) :
    ∃ ever, Issuance (machine.run (deploy d) txs) (machine.log (deploy d) txs) ever := by
  refine machine.invariant_under (I := SpendingInvariant)
    (P := fun w l => ∃ ever, Issuance w l ever) (spendingInvariant d) ⟨∅, issuance_deploy d⟩ ?_ txs
  intro l e hfires hspending hs
  obtain ⟨ever, hs⟩ := hs
  exact hs.step hfires hspending.books

/-- The totals agree by bond in every reachable world. -/
theorem bondBooksAgree (d : Deployment) (txs : List Tx) :
    (machine.run (deploy d) txs).retirement.BondBooksAgree := by
  refine machine.invariant_under (I := SpendingInvariant)
    (P := fun w _ => w.retirement.BondBooksAgree) (spendingInvariant d)
    (CreditRetirement.bondBooksAgree_constructor _ _ _) ?_ txs
  intro _ e hfires hspending hs
  rcases (worldStep_of_execute hfires).retirement_cases with hsame | ⟨call, o, -, -, hexec⟩
  · exact hsame ▸ hs
  · exact CreditRetirement.bondBooksAgree_exec hspending.books hs hexec

/-- **What is retired was issued.**  In every run of the deployment the records
on a bond add up to no more than its periods distributed, and neither did its
holders claim more; and no holder retired more on a bond than was ever credited
to it there. -/
theorem retired_within_issued (d : Deployment) (txs : List Tx) (bondId : Nat) :
    (machine.run (deploy d) txs).retirement.retiredOn bondId ≤
        (machine.run (deploy d) txs).engine.earnedTotal bondId ∧
      claimedTotal bondId (machine.log (deploy d) txs) ≤
        (machine.run (deploy d) txs).engine.earnedTotal bondId ∧
      ∀ holder, (machine.run (deploy d) txs).retirement.retiredTotal bondId holder ≤
        accruedEver bondId holder (machine.log (deploy d) txs) := by
  obtain ⟨ever, hissuance⟩ := issuance_run d txs
  have hledger := ledger d txs
  have hbooks := bondBooksAgree d txs
  have hspending := spendingInvariant d txs
  generalize machine.run (deploy d) txs = w at *
  generalize machine.log (deploy d) txs = l at *
  refine ⟨?_, ?_, fun holder => ?_⟩
  · rw [hbooks bondId, ← hissuance.earned bondId]
    exact sumOn_le_sumOn (fun k : Nat × Address => k.1 = bondId)
      (fun k _ => hissuance.retired k) fun k _ => hissuance.nonneg k
  · have hearned := hledger.earned bondId
    have haccrued : (∅ : Storage (Nat × Address) Int).sumOn (fun k => k.1 = bondId) ≤
        w.engine.accruedCredits.sumOn fun k => k.1 = bondId := by
      refine sumOn_le_sumOn (fun k : Nat × Address => k.1 = bondId) (fun k _ => ?_) fun k _ => ?_
      · rw [read_empty]
        exact hledger.accrued_nonneg k.1 k.2
      · exact hledger.accrued_nonneg k.1 k.2
    rw [sumOn_empty] at haccrued
    unfold CouponEngine.State.accruedTotal at hearned
    omega
  · rw [hspending.books.records, ← hissuance.logged]
    exact hissuance.retired (bondId, holder)

end EcoMint
