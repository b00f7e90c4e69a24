import EcoMint.Protocol

/-!
# The batches of one coupon period

A period of a bond is paid in batches.  Between two of them the engine keeps
only a cursor, the number of positions already paid, and the period record with
the report that backs it; every batch brings its own holder list.

So two questions are asked of a whole run.  Is an address ever paid twice in a
period?  The duplicate check reads the list of the current batch, up to the
current position, and sees nobody else.  Is a report ever paid twice on a bond?
The record of a period holds on to its report, but one period never looks at
another.
-/

namespace EcoMint

open Storage

/-- The batch a transaction distributed. -/
def LogEntry.batch? (e : LogEntry) : Option CouponEngine.Batch :=
  match e.input.call with
  | .engine call => call.batch?
  | _ => none

/-- A batch in the deployment reads the deployed oracle and issuer. -/
theorem World.report_of_batchFound {w : World} {batch : CouponEngine.Batch}
    {f : CouponEngine.Findings} (h : CouponEngine.BatchFound w.enginePeers w.engine batch f) :
    w.oracle.report.get batch.reportId = some f.report := by
  obtain ⟨address, oracle, -, horacle, hreport⟩ := h.report
  obtain rfl := World.eq_oracle_of_oracleAt horacle
  exact hreport

/-- The issuer that a batch finds is that of the world it is called in. -/
theorem World.issuer_of_batchFound {w : World} {batch : CouponEngine.Batch}
    {f : CouponEngine.Findings} (h : CouponEngine.BatchFound w.enginePeers w.engine batch f) :
    f.issuer = w.issuer := by
  obtain ⟨address, -, hissuer⟩ := h.issuer
  exact World.eq_issuer_of_issuerAt hissuer

/-- A transaction distributes one batch, or leaves all period records and
cursors alone. -/
theorem period_step {e : LogEntry} (hfires : machine.Fires e) :
    (LogEntry.batch? e = none ∧ e.after.engine.periodInfo = e.before.engine.periodInfo ∧
        e.after.engine.periodBatchCursor = e.before.engine.periodBatchCursor) ∨
      ∃ batch f, LogEntry.batch? e = some batch ∧
        e.after = { e.before with engine := e.after.engine } ∧
        CouponEngine.BatchFound e.before.enginePeers e.before.engine batch f ∧
        CouponEngine.BatchWrote e.before.engine e.after.engine batch f := by
  rcases (worldStep_of_execute hfires).engine_cases with
    ⟨hidle, hcall⟩ | ⟨call, o, hcall, -, hafter, hstep⟩
  · left
    refine ⟨?_, by rw [hidle], by rw [hidle]⟩
    unfold LogEntry.batch?
    split
    · next call hengine => exact absurd hengine (hcall call)
    · rfl
  · have hbatch : LogEntry.batch? e = call.batch? := by simp [LogEntry.batch?, hcall]
    rw [hbatch]
    cases hstep with
    | paid batch f hcall' hfound hwrote =>
        exact Or.inr ⟨batch, f, hcall', hafter, hfound, hwrote⟩
    | claimed _ _ _ _ hcall' _ _ _ hwrote =>
        exact Or.inl ⟨by rw [hcall']; rfl, hwrote.periodInfo, hwrote.periodBatchCursor⟩
    | registered _ _ _ _ _ _ hcall' _ _ hs' =>
        rw [hcall', hs']
        exact Or.inl ⟨rfl, rfl, rfl⟩
    | swept _ _ _ _ hcall' _ _ hs' =>
        rw [hcall', hs']
        exact Or.inl ⟨rfl, rfl, rfl⟩
    | administered _ _ _ hcall' hs' =>
        rw [hcall', hs']
        exact Or.inl ⟨rfl, rfl, rfl⟩

/-! ## Is an address paid twice? -/

/-- The positions a transaction processed for a period. -/
def LogEntry.processedIn (period : Nat × Nat) (e : LogEntry) : List Address :=
  e.batch?.elim [] fun batch => if batch.period = period then batch.slice else []

/-- All positions processed for a period in a run, in order. -/
def processed (period : Nat × Nat) (l : List LogEntry) : List Address :=
  l.flatMap (LogEntry.processedIn period)

theorem processed_snoc (period : Nat × Nat) (l : List LogEntry) (e : LogEntry) :
    processed period (l ++ [e]) = processed period l ++ LogEntry.processedIn period e := by
  simp [processed]

/-- The positions a batch skips at the head of its list name everybody whom the
period has paid already. -/
def LogEntry.ListsPaid (period : Nat × Nat) (l : List LogEntry) (e : LogEntry) : Prop :=
  ∀ batch, e.batch? = some batch → batch.period = period → ∀ holder ∈ processed period l,
    holder ∈ batch.holders.take batch.offset

namespace CouponEngine

/-- The place of a holder in a batch's slice is its place in the list, counted from the
offset. -/
theorem Batch.slice_getElem? {batch : Batch} {j : Nat} {holder : Address} :
    batch.slice[j]? = some holder ↔
      j < batch.limit ∧ batch.holders[batch.offset + j]? = some holder := by
  unfold Batch.slice
  rw [List.getElem?_take, List.getElem?_drop]
  by_cases hj : j < batch.limit <;> simp [hj]

/-- Nobody in the slice of an accepted batch stands earlier in its list. -/
theorem BatchFound.slice_fresh {peers : Peers} {s : State} {batch : Batch} {f : Findings}
    (hfound : BatchFound peers s batch f) {j : Nat} {holder : Address}
    (hget : batch.slice[j]? = some holder) : holder ∉ batch.holders.take (batch.offset + j) := by
  obtain ⟨hlt, hholder⟩ := Batch.slice_getElem?.mp hget
  exact hfound.fresh _ holder (by omega) (by unfold Batch.stop; omega) hholder

/-- Whoever an accepted batch pays has not stood in the list before its offset. -/
theorem BatchFound.not_mem_take {peers : Peers} {s : State} {batch : Batch} {f : Findings}
    (hfound : BatchFound peers s batch f) {holder : Address} (hmem : holder ∈ batch.slice) :
    holder ∉ batch.holders.take batch.offset := by
  obtain ⟨j, hget⟩ := List.mem_iff_getElem?.mp hmem
  intro hbefore
  exact hfound.slice_fresh hget (List.take_subset_take_left _ (by omega) hbefore)

/-- The slice of an accepted batch has no duplicates. -/
theorem BatchFound.slice_nodup {peers : Peers} {s : State} {batch : Batch} {f : Findings}
    (hfound : BatchFound peers s batch f) : batch.slice.Nodup := by
  rw [List.nodup_iff_getElem?_ne_getElem?]
  intro i j hij hj heq
  have hget : batch.slice[j]? = some batch.slice[j] := List.getElem?_eq_getElem hj
  obtain ⟨-, hholder⟩ := Batch.slice_getElem?.mp (heq.trans hget)
  refine hfound.slice_fresh hget (List.mem_iff_getElem?.mpr ⟨batch.offset + i, ?_⟩)
  rw [List.getElem?_take, if_pos (by omega), hholder]

end CouponEngine

/-- A batch of a period processed its slice for it. -/
theorem LogEntry.processedIn_of_batch {e : LogEntry} {batch : CouponEngine.Batch}
    (hbatch : e.batch? = some batch) (period : Nat × Nat) :
    LogEntry.processedIn period e = if batch.period = period then batch.slice else [] := by
  simp [LogEntry.processedIn, hbatch]

/-- A transaction that brings no batch processes nobody. -/
theorem LogEntry.processedIn_of_none {e : LogEntry} (hbatch : e.batch? = none)
    (period : Nat × Nat) : LogEntry.processedIn period e = [] := by
  simp [LogEntry.processedIn, hbatch]

/-- A batch whose skipped positions name everybody paid before pays nobody again:
its duplicate check looks at just these positions. -/
theorem processed_nodup_step {l : List LogEntry} {e : LogEntry} (hfires : machine.Fires e)
    {period : Nat × Nat} (hl : (processed period l).Nodup)
    (hlists : LogEntry.ListsPaid period l e) : (processed period (l ++ [e])).Nodup := by
  rw [processed_snoc]
  rcases period_step hfires with ⟨hnone, -⟩ | ⟨batch, f, hbatch, -, hfound, -⟩
  · rwa [LogEntry.processedIn_of_none hnone, List.append_nil]
  · rw [LogEntry.processedIn_of_batch hbatch]
    by_cases hperiod : batch.period = period
    · rw [if_pos hperiod]
      refine List.nodup_append.mpr ⟨hl, hfound.slice_nodup, ?_⟩
      intro holder hpaid holder' hmem heq
      subst heq
      exact hfound.not_mem_take hmem (hlists batch hbatch hperiod holder hpaid)
    · rwa [if_neg hperiod, List.append_nil]

/-- All batches of a period bring one list. -/
def BringsOneList (l : List LogEntry) (period : Nat × Nat) (holders : List Address) : Prop :=
  ∀ e ∈ l, ∀ batch, LogEntry.batch? e = some batch → batch.period = period →
    batch.holders = holders

theorem BringsOneList.mono {l l' : List LogEntry} {period : Nat × Nat} {holders : List Address}
    (h : BringsOneList l' period holders) (hsub : l ⊆ l') : BringsOneList l period holders :=
  fun e he => h e (hsub he)

/-- While all batches of a period bring one list, what they processed is the
part of it before the cursor. -/
theorem processed_eq_take (d : Deployment) (txs : List Tx) {period : Nat × Nat}
    {holders : List Address}
    (hsame : BringsOneList (machine.log (deploy d) txs) period holders) :
    processed period (machine.log (deploy d) txs) =
      holders.take ((machine.run (deploy d) txs).engine.periodBatchCursor.read period) := by
  refine machine.invariant_while (I := fun _ _ => True) (P := fun w l =>
    processed period l = holders.take (w.engine.periodBatchCursor.read period))
    (fun _ => trivial) ?_ ?_ txs hsame
  · simp [processed, deploy, CouponEngine.constructor]
  · intro l (e : LogEntry) hfires hlists _ hold
    rw [processed_snoc, hold]
    rcases period_step hfires with ⟨hnone, -, hcursor⟩ | ⟨batch, f, hbatch, -, hfound, hwrote⟩
    · rw [LogEntry.processedIn_of_none hnone, hcursor, List.append_nil]
    · rw [LogEntry.processedIn_of_batch hbatch, hwrote.periodBatchCursor, read_set]
      by_cases hperiod : batch.period = period
      · have hlist := hlists batch hbatch hperiod
        have hoffset := hfound.offset_eq
        rw [hperiod] at hoffset
        rw [if_pos hperiod, if_pos hperiod.symm, CouponEngine.Batch.stop, List.take_add,
          CouponEngine.Batch.slice, hlist, hoffset]
      · rw [if_neg hperiod, if_neg (Ne.symm hperiod), List.append_nil]

/-- While all batches bring one list, each skips exactly the holders paid before. -/
theorem listsPaid_of_one_list (d : Deployment) (txs : List Tx) {period : Nat × Nat}
    {holders : List Address}
    (hsame : BringsOneList (machine.log (deploy d) txs) period holders)
    (l : List LogEntry) (e : LogEntry) (hlogged : l ++ [e] <+: machine.log (deploy d) txs) :
    LogEntry.ListsPaid period l e := by
  intro batch hbatch hperiod holder hpaid
  obtain ⟨pre, a, -, hfires, hbefore, rfl, -, -⟩ := machine.exists_call_of_log_prefix hlogged
  have hmem : e ∈ machine.log (deploy d) txs := hlogged.subset (by simp)
  have htake := processed_eq_take d pre
    (hsame.mono (List.Subset.trans (List.subset_append_left _ [e]) hlogged.subset))
  rcases period_step hfires with ⟨hnone, -⟩ | ⟨batch', f, hbatch', -, hfound, -⟩
  · simp [hbatch] at hnone
  · obtain rfl : batch = batch' := by simpa [hbatch] using hbatch'
    rw [hsame e hmem batch hbatch hperiod, hfound.offset_eq, hperiod, hbefore, ← htake]
    exact hpaid

/-- **Nobody is paid again** in a period while every batch skips whom it paid. -/
theorem processed_nodup_of_listsPaid (d : Deployment) (txs : List Tx) {period : Nat × Nat}
    (hlists : ∀ l e, l ++ [e] <+: machine.log (deploy d) txs → LogEntry.ListsPaid period l e) :
    ∀ pre, pre <+: txs → (processed period (machine.log (deploy d) pre)).Nodup := by
  refine machine.holds_while (I := fun _ _ => True)
    (P := fun _ l => (processed period l).Nodup)
    (C := fun l e => LogEntry.ListsPaid period l e) (fun _ => trivial) ?_ ?_ txs hlists
  · simp [processed]
  · intro l e hfires _ hl hlist
    exact processed_nodup_step hfires hl hlist

/-- While every batch of a period brings the same holder list, no holder is processed
twice for it. -/
theorem processed_nodup_of_one_list (d : Deployment) (txs : List Tx) {period : Nat × Nat}
    {holders : List Address}
    (hsame : BringsOneList (machine.log (deploy d) txs) period holders) :
    (processed period (machine.log (deploy d) txs)).Nodup :=
  processed_nodup_of_listsPaid d txs (listsPaid_of_one_list d txs hsame) txs List.prefix_rfl

/-- **Paid once in a period.**  While the positions that each accepted batch of a
period skips in its own list name everybody the period has paid so far, no
address ever comes to two processed positions of the period. -/
theorem coupon_paid_once (d : Deployment) (txs : List Tx) (bondId periodIndex : Nat)
    (hlists : ∀ l e, l ++ [e] <+: machine.log (deploy d) txs →
      LogEntry.ListsPaid (bondId, periodIndex) l e) :
    ∀ pre, pre <+: txs → ∀ holder,
      (processed (bondId, periodIndex) (machine.log (deploy d) pre)).count holder ≤ 1 := by
  intro pre hpre
  exact List.nodup_iff_count_le_one.mp (processed_nodup_of_listsPaid d txs hlists pre hpre)

/-- Two batches of one list, the second from where the first stopped. -/
def oneListInTwoBatches : List Tx := reportedBond ++ [
  sampleTx 5 0 (.engine (.distributeCouponBatch 0 1 0 [1, 2] 1 0 1 1)),
  sampleTx 6 0 (.engine (.distributeCouponBatch 0 1 0 [1, 2] 1 1 1 2))]

/-- One list of two holders, brought in two batches of one: both are paid once, at every
moment of the run. -/
theorem coupon_paid_once_sample :
    processed (1, 0) (machine.log (deploy sampleDeployment) oneListInTwoBatches) = [1, 2] ∧
      ∀ pre, pre <+: oneListInTwoBatches → ∀ holder,
        (processed (1, 0) (machine.log (deploy sampleDeployment) pre)).count holder ≤ 1 := by
  have hlists : ((machine.log (deploy sampleDeployment) oneListInTwoBatches).filterMap
      LogEntry.batch?).map CouponEngine.Batch.holders = [[1, 2], [1, 2]] := by decide +kernel
  have hone : BringsOneList (machine.log (deploy sampleDeployment) oneListInTwoBatches) (1, 0)
      [1, 2] := by
    intro e he batch hbatch _
    have hmem : batch.holders ∈ [[1, 2], [1, 2]] := by
      rw [← hlists]
      exact List.mem_map_of_mem (List.mem_filterMap.mpr ⟨e, he, hbatch⟩)
    simpa using hmem
  exact ⟨by decide +kernel, coupon_paid_once sampleDeployment oneListInTwoBatches 1 0
    (listsPaid_of_one_list _ _ hone)⟩

/-- The second batch brings the same two holders in the other order. -/
def reorderedList : List Tx := reportedBond ++ [
  sampleTx 5 0 (.engine (.distributeCouponBatch 0 1 0 [1, 2] 1 0 1 1)),
  sampleTx 6 0 (.engine (.distributeCouponBatch 0 1 0 [2, 1] 1 1 1 2))]

/-- Account 1 is paid at both positions of the period. -/
theorem coupon_paid_twice_by_reordered_list :
    ¬ ∀ (d : Deployment) (txs : List Tx) (bondId periodIndex : Nat) (holder : Address),
      (processed (bondId, periodIndex) (machine.log (deploy d) txs)).count holder ≤ 1 := by
  intro hpaid
  have hpositions : processed (1, 0) (machine.log (deploy sampleDeployment) reorderedList) =
      [1, 1] := by decide +kernel
  have := hpaid sampleDeployment reorderedList 1 0 1
  rw [hpositions] at this
  simp at this

/-! ## Is a report paid twice? -/

/-- No two periods of a bond carry one report. -/
def World.ReportsDistinct (w : World) (bondId : Nat) : Prop :=
  ∀ p q info info', p ≠ q → w.engine.periodInfo.get (bondId, p) = some info →
    w.engine.periodInfo.get (bondId, q) = some info' → info.reportId ≠ info'.reportId

/-- The batch names a report that no other period of the bond carries yet. -/
def LogEntry.NamesOwnReport (bondId : Nat) (e : LogEntry) : Prop :=
  ∀ batch, e.batch? = some batch → batch.bondId = bondId → ∀ q info, q ≠ batch.periodIndex →
    e.before.engine.periodInfo.get (bondId, q) = some info → info.reportId ≠ batch.reportId

/-- Every batch of a period named the report in its record. -/
def World.CarriesReports (w : World) (l : List LogEntry) : Prop :=
  ∀ e ∈ l, ∀ batch, LogEntry.batch? e = some batch →
    ∃ info, w.engine.periodInfo.get batch.period = some info ∧ info.reportId = batch.reportId

/-- One transaction keeps every period that is booked carrying a report that was
distributed for it. -/
theorem World.CarriesReports.step {l : List LogEntry} {e : LogEntry} (hfires : machine.Fires e)
    (hw : e.before.CarriesReports l) : e.after.CarriesReports (l ++ [e]) := by
  intro e' he' batch' hbatch'
  rcases period_step hfires with ⟨hnone, hperiod, -⟩ | ⟨batch, f, hbatch, -, hfound, hwrote⟩
  · rw [hperiod]
    rcases List.mem_append.mp he' with he' | he'
    · exact hw e' he' batch' hbatch'
    · obtain rfl := List.mem_singleton.mp he'
      simp [hnone] at hbatch'
  · rw [hwrote.periodInfo, get_set]
    split
    · next hsame =>
        refine ⟨_, rfl, ?_⟩
        rcases List.mem_append.mp he' with he' | he'
        · obtain ⟨info, hget, hreport⟩ := hw e' he' batch' hbatch'
          have hkept := (hfound.unpaid info (hsame ▸ hget)).2
          exact hkept.symm.trans hreport
        · obtain rfl := List.mem_singleton.mp he'
          obtain rfl : batch = batch' := by simpa [hbatch] using hbatch'
          rfl
    · next hother =>
        rcases List.mem_append.mp he' with he' | he'
        · exact hw e' he' batch' hbatch'
        · obtain rfl := List.mem_singleton.mp he'
          obtain rfl : batch = batch' := by simpa [hbatch] using hbatch'
          exact absurd rfl hother

/-- In every reachable world each period that is booked carries a report that was
distributed for it. -/
theorem carriesReports (d : Deployment) (txs : List Tx) :
    (machine.run (deploy d) txs).CarriesReports (machine.log (deploy d) txs) := by
  refine machine.invariant (P := World.CarriesReports) ?_
    (fun _ _ => World.CarriesReports.step) txs
  intro e he
  simp at he

/-- A complete period is never paid again, nor its record changed. -/
theorem complete_step {e : LogEntry} (hfires : machine.Fires e) {period : Nat × Nat}
    {info : CouponEngine.PeriodInfo}
    (hget : e.before.engine.periodInfo.get period = some info) (hcomplete : info.distributed) :
    e.after.engine.periodInfo.get period = some info := by
  rcases period_step hfires with ⟨-, hperiod, -⟩ | ⟨batch, f, -, -, hfound, hwrote⟩
  · rw [hperiod, hget]
  · have hother : period ≠ batch.period := by
      rintro rfl
      simp [(hfound.unpaid info hget).1] at hcomplete
    rw [hwrote.periodInfo, get_set_ne _ _ hother, hget]

/-- A period that is complete stays as it is. -/
theorem complete_forever (d : Deployment) {pre txs : List Tx} (hpre : pre <+: txs)
    {period : Nat × Nat} {info : CouponEngine.PeriodInfo}
    (hget : (machine.run (deploy d) pre).engine.periodInfo.get period = some info)
    (hcomplete : info.distributed) :
    (machine.run (deploy d) txs).engine.periodInfo.get period = some info := by
  obtain ⟨rest, rfl⟩ := hpre
  rw [Machine.run_append]
  exact machine.invariant (P := fun w _ => w.engine.periodInfo.get period = some info) hget
    (fun _ _ hfires hget => complete_step hfires hget hcomplete) rest

/-- A transaction keeps the reports of a bond's periods apart exactly if its
batch, when it distributes one on the bond, names a report of its own. -/
theorem reportsDistinct_step {e : LogEntry} (hfires : machine.Fires e) {bondId : Nat}
    (hw : e.before.ReportsDistinct bondId) :
    e.after.ReportsDistinct bondId ↔ LogEntry.NamesOwnReport bondId e := by
  unfold World.ReportsDistinct at hw ⊢
  unfold LogEntry.NamesOwnReport
  rcases period_step hfires with ⟨hnone, hperiod, -⟩ | ⟨batch, f, hbatch, -, hfound, hwrote⟩
  · rw [hperiod]
    simpa [hnone] using hw
  · simp only [hbatch, Option.some.injEq, forall_eq', hwrote.periodInfo]
    by_cases hbond : batch.bondId = bondId
    · subst hbond
      have hkept : ∀ q, q ≠ batch.periodIndex →
          (e.before.engine.periodInfo.set batch.period
            (f.periodInfo e.before.engine batch)).get (batch.bondId, q) =
              e.before.engine.periodInfo.get (batch.bondId, q) := by
        intro q hq
        exact get_set_ne _ _ fun hperiod => hq (Prod.mk.inj hperiod).2
      have hnew : (e.before.engine.periodInfo.set batch.period
          (f.periodInfo e.before.engine batch)).get (batch.bondId, batch.periodIndex) =
            some (f.periodInfo e.before.engine batch) := get_set_self ..
      constructor
      · intro hafter _ q info hq hget
        exact hafter q batch.periodIndex info _ hq (by rw [hkept q hq, hget]) hnew
      · intro hown p q info info' hpq hget hget'
        by_cases hp : p = batch.periodIndex
        · subst hp
          obtain rfl := Option.some.inj (hnew.symm.trans hget)
          rw [hkept q (Ne.symm hpq)] at hget'
          exact (hown rfl q info' (Ne.symm hpq) hget').symm
        · rw [hkept p hp] at hget
          by_cases hq : q = batch.periodIndex
          · subst hq
            obtain rfl := Option.some.inj (hnew.symm.trans hget')
            exact hown rfl p info hp hget
          · rw [hkept q hq] at hget'
            exact hw p q info info' hpq hget hget'
    · have hother : ∀ p, (bondId, p) ≠ batch.period := by
        intro p hp
        exact hbond (Prod.mk.inj hp).1.symm
      simpa [hbond, get_set_ne _ _ (hother _)] using hw

/-- **One report for one period.**  Every accepted batch of a period named the
report its record carries, and a complete record never changes.  Two periods of
a bond come to carry one report exactly when an accepted batch names a report
that another period of the bond carries. -/
theorem period_report_unique (d : Deployment) (txs : List Tx) (bondId : Nat) :
    (∀ e ∈ machine.log (deploy d) txs, ∀ batch, LogEntry.batch? e = some batch →
        batch.bondId = bondId → ∃ info,
          (machine.run (deploy d) txs).engine.periodInfo.get (bondId, batch.periodIndex) =
            some info ∧ info.reportId = batch.reportId) ∧
      (∀ pre, pre <+: txs → ∀ periodIndex info,
        (machine.run (deploy d) pre).engine.periodInfo.get (bondId, periodIndex) = some info →
        info.distributed = true →
        (machine.run (deploy d) txs).engine.periodInfo.get (bondId, periodIndex) = some info) ∧
      ((∀ pre, pre <+: txs → (machine.run (deploy d) pre).ReportsDistinct bondId) ↔
        ∀ e ∈ machine.log (deploy d) txs, LogEntry.NamesOwnReport bondId e) := by
  refine ⟨?_, ?_, ?_⟩
  · intro e he batch hbatch hbond
    subst hbond
    exact carriesReports d txs e he batch hbatch
  · intro pre hpre periodIndex info hget hcomplete
    exact complete_forever d hpre hget hcomplete
  · rw [← Machine.forall_prefix_iff_forall_mem]
    refine machine.holds_iff (I := fun _ _ => True)
      (P := fun w _ => w.ReportsDistinct bondId)
      (C := fun _ e => LogEntry.NamesOwnReport bondId e) (fun _ => trivial) ?_ ?_ txs
    · intro p q info info' _ hget
      simp [deploy, CouponEngine.constructor] at hget
    · intro _ e hfires _ hw
      exact reportsDistinct_step hfires hw

/-- Report 1 is distributed in full for period 0 and again for period 1. -/
def reportForTwoPeriods : List Tx := reportedBond ++ [
  sampleTx 5 0 (.engine (.distributeCoupon 0 1 0 [1] 1 1)),
  sampleTx 6 0 (.engine (.distributeCoupon 0 1 1 [1] 1 2))]

/-- One report can be paid for two periods of one bond. -/
theorem report_paid_for_two_periods :
    ¬ ∀ (d : Deployment) (txs : List Tx) (bondId : Nat),
      (machine.run (deploy d) txs).ReportsDistinct bondId := by
  intro hdistinct
  have hreport : ∀ p : Fin 2, ((machine.run (deploy sampleDeployment)
      reportForTwoPeriods).engine.periodInfo.get (1, p)).map CouponEngine.PeriodInfo.reportId =
        some 1 := by decide +kernel
  obtain ⟨info, hget, hinfo⟩ := Option.map_eq_some_iff.mp (hreport 0)
  obtain ⟨info', hget', hinfo'⟩ := Option.map_eq_some_iff.mp (hreport 1)
  exact hdistinct sampleDeployment reportForTwoPeriods 1 0 1 info info' (by decide) hget hget'
    (hinfo.trans hinfo'.symm)

end EcoMint
