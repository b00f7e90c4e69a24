import EcoMint.CreditSpending

/-!
# The ledger of retirements

One retirement writes a record, the counter, two running totals and the list of
its holder.  All of them tell the same story in every reachable state, whatever
the issuer and the engine answered: the records are numbered without a gap and
never rewritten, and the totals and lists are what the records say.
-/

namespace EcoMint.CreditRetirement

open Fallible Storage

/-- A transaction: the call, its environment, and the contracts it can reach. -/
structure Tx where
  env : Env
  peers : Peers
  call : Call

/-- The contract on its own, called by anyone in any order. -/
def machine : Machine State Tx Output (Failure CreditError) where
  call s tx := exec tx.env tx.peers s tx.call

/-- What one successful call does: it adds a record and enters it everywhere, or
changes the admin. -/
inductive LedgerStep (env : Env) (s s' : State) (call : Call) : Prop
  | retired (holder : Address) (bondId : Nat) (amount : Int) (creditType : CreditType)
      (certificateHash : BytesN 32) (nonce : Nat)
      (hcall : call = .retireCredits holder bondId amount creditType certificateHash nonce)
      (hpos : 0 < amount)
      (hwrote : RetireWrote env s s' holder bondId amount creditType certificateHash)
      (hlisted : s'.holderRetirements = s.holderRetirements.set holder
        (getHolderRetirements s holder ++ [s.retirementCount + 1]))
  | administered (currentAdmin newAdmin : Address) (nonce : Nat)
      (hcall : call = .setAdmin currentAdmin newAdmin nonce)
      (hafter : s' = { s with
        admin := some newAdmin
        nonce := s.nonce.set currentAdmin (s.nonce.read currentAdmin + 1) })

/-- A retirement is entered in the list of its holder. -/
theorem retireCredits_listed {env : Env} {peers : Peers} {s s' : State} {holder : Address}
    {bondId : Nat} {amount : Int} {creditType : CreditType} {certificateHash : BytesN 32}
    {nonce id : Nat}
    (h : retireCredits env peers s holder bondId amount creditType certificateHash nonce =
      .ok (id, s')) :
    s'.holderRetirements = s.holderRetirements.set holder
      (getHolderRetirements s holder ++ [s.retirementCount + 1]) := by
  simp only [retireCredits, consumeNonce, bind_ok_iff, pure_ok_iff, Prod.mk.injEq] at h
  obtain ⟨_, _, _, ⟨_, hnonce, rfl⟩, _, _, _, _, _, _, _, _, _, _, _, _, _, _, _, _, _, _, _, _, -,
    rfl⟩ := h
  rfl

/-- **Step lemma.**  Every successful call is a `LedgerStep`. -/
theorem ledgerStep_exec {env : Env} {peers : Peers} {s s' : State} {call : Call} {out : Output}
    (h : exec env peers s call = .ok (out, s')) : LedgerStep env s s' call := by
  cases call with
  | retireCredits holder bondId amount creditType certificateHash nonce =>
      simp only [exec, bind_ok_iff, pure_ok_iff, Prod.mk.injEq, Prod.exists] at h
      obtain ⟨id, s'', hretire, -, rfl⟩ := h
      obtain ⟨hpos, -, hwrote⟩ := retireCredits_ok hretire
      exact .retired holder bondId amount creditType certificateHash nonce rfl hpos hwrote
        (retireCredits_listed hretire)
  | setAdmin currentAdmin newAdmin nonce =>
      simp only [exec, setAdmin, consumeNonce, bind_ok_iff, pure_ok_iff, useNonce_ok_iff,
        Prod.mk.injEq] at h
      obtain ⟨_, ⟨_, _, _, ⟨_, ⟨_, rfl⟩, rfl⟩, _, _, rfl⟩, -, rfl⟩ := h
      exact .administered currentAdmin newAdmin nonce rfl rfl

/-- The amounts of all retirement records of a holder. -/
def State.recordedTotal (s : State) (holder : Address) : Int :=
  s.retirement.sum fun _ r => if r.holder = holder then r.amount else 0

/-- The running totals of a holder over all bonds. -/
def State.perBondTotal (s : State) (holder : Address) : Int :=
  s.retiredPerBond.sumOn fun k => k.2 = holder

/-- Records, totals and lists tell the same story. -/
structure RetirementLedger (s : State) : Prop where
  books : BooksAgree s
  dense : ∀ id, (s.retirement.get id).isSome = true ↔ 1 ≤ id ∧ id ≤ s.retirementCount
  numbered : ∀ id r, s.retirement.get id = some r → r.id = id
  total : ∀ h, getTotalRetired s h = s.recordedTotal h
  perBond : ∀ h, getTotalRetired s h = s.perBondTotal h
  ascending : ∀ h, (getHolderRetirements s h).Pairwise (· < ·)
  listed : ∀ h id, id ∈ getHolderRetirements s h ↔
    ∃ r, s.retirement.get id = some r ∧ r.holder = h

theorem retirementLedger_constructor (admin issuer engine : Address) :
    RetirementLedger (constructor admin issuer engine) where
  books := booksAgree_constructor admin issuer engine
  dense id := by simp [constructor]; omega
  numbered id r h := by simp [constructor] at h
  total h := by simp [constructor, getTotalRetired, State.recordedTotal]
  perBond h := by simp [constructor, getTotalRetired, State.perBondTotal]
  ascending h := by simp [constructor, getHolderRetirements]
  listed h id := by simp [constructor, getHolderRetirements]

/-- A record has an id that was given out. -/
theorem RetirementLedger.id_le {s : State} (hs : RetirementLedger s) {id : Nat}
    {r : RetirementRecord} (hget : s.retirement.get id = some r) :
    1 ≤ id ∧ id ≤ s.retirementCount :=
  (hs.dense id).mp (by rw [hget]; rfl)

/-- A retirement keeps the ledger in order. -/
theorem RetirementLedger.retire {env : Env} {s s' : State} {holder : Address} {bondId : Nat}
    {amount : Int} {creditType : CreditType} {certificateHash : BytesN 32}
    (hs : RetirementLedger s) (hpos : 0 < amount)
    (hwrote : RetireWrote env s s' holder bondId amount creditType certificateHash)
    (hlisted : s'.holderRetirements = s.holderRetirements.set holder
      (getHolderRetirements s holder ++ [s.retirementCount + 1])) :
    RetirementLedger s' := by
  have hfree : s.retirement.get (s.retirementCount + 1) = none := hs.books.unused _ (by omega)
  have hrecord : ∀ id, s'.retirement.get id =
      if id = s.retirementCount + 1 then
        some ⟨s.retirementCount + 1, holder, bondId, amount, creditType, env.timestamp,
          certificateHash⟩
      else s.retirement.get id := by
    intro id
    rw [hwrote.record, get_set]
  have htotal : ∀ h, getTotalRetired s' h =
      getTotalRetired s h + if h = holder then amount else 0 := by
    intro h
    unfold getTotalRetired
    rw [hwrote.total, read_credit]
  have hlist : ∀ h, getHolderRetirements s' h =
      if h = holder then getHolderRetirements s h ++ [s.retirementCount + 1]
      else getHolderRetirements s h := by
    intro h
    show (s'.holderRetirements.get h).getD [] = _
    rw [hlisted, get_set]
    split
    · next hh => rw [hh]; rfl
    · rfl
  constructor
  case books =>
    exact hs.books.retire hpos hwrote
  case dense =>
    intro id
    rw [hrecord, hwrote.count]
    split
    · next hid =>
        simp only [Option.isSome_some, true_iff]
        omega
    · next hid =>
        rw [hs.dense id]
        omega
  case numbered =>
    intro id r hget
    rw [hrecord] at hget
    split at hget
    · next hid =>
        obtain rfl := Option.some.inj hget
        exact hid.symm
    · exact hs.numbered id r hget
  case total =>
    intro h
    have hold := hs.total h
    unfold State.recordedTotal at hold ⊢
    rw [htotal, hold, hwrote.record, sum_set, hfree, Option.elim_none]
    simp only [eq_comm (a := holder)]
    omega
  case perBond =>
    intro h
    have hold := hs.perBond h
    unfold State.perBondTotal at hold ⊢
    rw [htotal, hold, hwrote.perBond, sumOn_credit]
    simp only [eq_comm (a := holder)]
  case ascending =>
    intro h
    rw [hlist]
    split
    · refine List.pairwise_append.mpr ⟨hs.ascending h, List.pairwise_singleton _ _, ?_⟩
      intro id hid id' hid'
      obtain ⟨r, hget, -⟩ := (hs.listed h id).mp hid
      have hle := hs.id_le hget
      obtain rfl := List.mem_singleton.mp hid'
      omega
    · exact hs.ascending h
  case listed =>
    intro h id
    rw [hlist, hrecord]
    by_cases hid : id = s.retirementCount + 1
    · -- the new id is listed for its holder only
      subst hid
      have hnew : s.retirementCount + 1 ∉ getHolderRetirements s h := by
        intro hmem
        obtain ⟨r, hget, -⟩ := (hs.listed h _).mp hmem
        rw [hfree] at hget
        cases hget
      by_cases hh : h = holder
      · simp [hh]
      · simp [hh, hnew, Ne.symm hh]
    · rw [if_neg hid, ← hs.listed h id]
      split
      · simp [hid]
      · exact Iff.rfl

/-- Storage that agrees on everything but the admin and the nonces keeps the
ledger. -/
theorem RetirementLedger.of_same {s : State} (hs : RetirementLedger s) (admin : Option Address)
    (nonce : Storage Address Nat) :
    RetirementLedger { s with admin := admin, nonce := nonce } := by
  obtain ⟨⟨h1, h2, h3⟩, h4, h5, h6, h7, h8, h9⟩ := hs
  exact ⟨⟨h1, h2, h3⟩, h4, h5, h6, h7, h8, h9⟩

/-- Every step keeps the ledger in order. -/
theorem RetirementLedger.step {env : Env} {s s' : State} {call : Call} (hs : RetirementLedger s)
    (hstep : LedgerStep env s s' call) : RetirementLedger s' := by
  cases hstep with
  | retired _ _ _ _ _ _ _ hpos hwrote hlisted => exact hs.retire hpos hwrote hlisted
  | administered _ _ _ _ hafter => exact hafter ▸ hs.of_same _ _

/-- A record is never rewritten. -/
theorem LedgerStep.record {env : Env} {s s' : State} {call : Call} (hs : RetirementLedger s)
    (hstep : LedgerStep env s s' call) {id : Nat} {r : RetirementRecord}
    (hget : s.retirement.get id = some r) : s'.retirement.get id = some r := by
  cases hstep with
  | retired _ _ _ _ _ _ _ _ hwrote _ =>
      have hle := hs.id_le hget
      rw [hwrote.record, get_set_ne _ _ (by omega), hget]
  | administered _ _ _ _ hafter => exact hafter ▸ hget

/-- The ledger is in order after every run. -/
theorem retirementLedger_run (admin issuer engine : Address) (txs : List Tx) :
    RetirementLedger (machine.run (constructor admin issuer engine) txs) :=
  machine.invariant (P := fun s _ => RetirementLedger s)
    (retirementLedger_constructor admin issuer engine)
    (fun _ _ hfires hs => hs.step (ledgerStep_exec hfires)) txs

/-- A record stays as it was written. -/
theorem record_run (admin issuer engine : Address) {pre txs : List Tx} (hpre : pre <+: txs)
    {id : Nat} {r : RetirementRecord}
    (hget : (machine.run (constructor admin issuer engine) pre).retirement.get id = some r) :
    (machine.run (constructor admin issuer engine) txs).retirement.get id = some r := by
  obtain ⟨rest, rfl⟩ := hpre
  rw [Machine.run_append]
  refine machine.invariant_under (I := fun s _ => RetirementLedger s)
    (P := fun s _ => s.retirement.get id = some r) ?_ hget ?_ rest
  · intro calls
    rw [← Machine.run_append]
    exact retirementLedger_run admin issuer engine (pre ++ calls)
  · intro _ e hfires hs hstored
    exact (ledgerStep_exec hfires).record hs hstored

/-- **The retirement ledger.**  After any calls: the record ids are those from
one to the counter; a holder's list has the ids of its records, ascending; its
total is the sum of their amounts and of its totals on all bonds, each of which
is the sum over its records on that bond; and records never change. -/
theorem retirement_ledger_consistent (admin issuer engine : Address) (txs : List Tx) :
    (∀ id, (∃ r, (machine.run (constructor admin issuer engine) txs).retirement.get id = some r ∧
        r.id = id) ↔
      1 ≤ id ∧ id ≤ totalRetirements (machine.run (constructor admin issuer engine) txs)) ∧
    (∀ holder,
      (getHolderRetirements (machine.run (constructor admin issuer engine) txs) holder).Pairwise
          (· < ·) ∧
      (∀ id, id ∈ getHolderRetirements (machine.run (constructor admin issuer engine) txs) holder ↔
        ∃ r, (machine.run (constructor admin issuer engine) txs).retirement.get id = some r ∧
          r.holder = holder) ∧
      getTotalRetired (machine.run (constructor admin issuer engine) txs) holder =
        (machine.run (constructor admin issuer engine) txs).recordedTotal holder ∧
      getTotalRetired (machine.run (constructor admin issuer engine) txs) holder =
        (machine.run (constructor admin issuer engine) txs).perBondTotal holder ∧
      ∀ bondId,
        (machine.run (constructor admin issuer engine) txs).retiredPerBond.read (bondId, holder) =
          (machine.run (constructor admin issuer engine) txs).retiredTotal bondId holder) ∧
    ∀ pre, pre <+: txs → ∀ id r,
      (machine.run (constructor admin issuer engine) pre).retirement.get id = some r →
        (machine.run (constructor admin issuer engine) txs).retirement.get id = some r := by
  have hs := retirementLedger_run admin issuer engine txs
  refine ⟨fun id => ?_, fun holder => ⟨hs.ascending holder, hs.listed holder, hs.total holder,
    hs.perBond holder, fun bondId => (hs.books.records bondId holder).symm⟩,
    fun pre hpre id r => record_run admin issuer engine hpre⟩
  refine Iff.trans ⟨?_, ?_⟩ (hs.dense id)
  · rintro ⟨r, hget, -⟩
    rw [hget]
    rfl
  · intro hstored
    obtain ⟨r, hget⟩ := Option.isSome_iff_exists.mp hstored
    exact ⟨r, hget, hs.numbered id r hget⟩

end EcoMint.CreditRetirement
