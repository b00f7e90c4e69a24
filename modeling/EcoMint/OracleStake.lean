import EcoMint.OracleChallenges

/-!
# What became of a provider's stake

A provider's stake is what it added, less what it withdrew, less what slashes
took; it never goes below zero, since a penalty is cut down to the stake it is
taken from.  A provider is slashed once for each of its reports that was
rejected, and for nothing else.
-/

namespace EcoMint.OracleConsumer

open Fallible Storage IntRange

/-- What the call adds to the stake of an address. -/
def Call.stakeAdded (addr : Address) : Call → Int
  | .addStake provider amount _ => if addr = provider then amount else 0
  | _ => 0

/-- What the call takes from the stake of an address and pays out. -/
def Call.stakeWithdrawn (addr : Address) : Call → Int
  | .withdrawStake provider amount _ => if addr = provider then amount else 0
  | _ => 0

/-- All that was added to the stake of an address. -/
def added (addr : Address) (l : List LogEntry) : Int :=
  Machine.total (fun e : LogEntry => e.input.call.stakeAdded addr) l

/-- All that was withdrawn from the stake of an address. -/
def withdrawn (addr : Address) (l : List LogEntry) : Int :=
  Machine.total (fun e : LogEntry => e.input.call.stakeWithdrawn addr) l

/-- All that slashes took from an address, by its slash history. -/
def State.penalties (s : State) (addr : Address) : Int :=
  ((getSlashHistory s addr).map SlashRecord.penalty).sum

/-! ## The penalty -/

/-- What a slash is meant to take: a tenth, rounded down, and all of a stake
below ten. -/
def tenth (stake : Int) : Int := if 10 ≤ stake then stake / 10 else stake

/-- What a slash makes of the product of stake and rate. -/
def cutPenalty (stake scaled : Int) : Int :=
  if scaled < 1000000 then stake else min (scaled / 1000000) stake

/-- The product of a stake and the penalty rate, in the build at hand. -/
theorem slashPenalty_ok_iff {env : Env} {stake penalty : Int} :
    slashPenalty env stake = .ok penalty ↔
      (i128.Fits (stake * SLASH_PENALTY_PPM) ∨ env.overflowChecks = false) ∧
        penalty = cutPenalty stake (i128.wrap (stake * SLASH_PENALTY_PPM)) := by
  have hcut : ∀ scaled : Int,
      (if (if scaled.tdiv 1000000 ≤ 0 then stake else scaled.tdiv 1000000) > stake then stake
        else if scaled.tdiv 1000000 ≤ 0 then stake else scaled.tdiv 1000000) =
          cutPenalty stake scaled := by
    intro scaled
    unfold cutPenalty
    rcases Int.le_total 0 scaled with hpos | hneg
    · rw [Int.tdiv_eq_ediv_of_nonneg hpos]
      split_ifs <;> omega
    · have hmirror : 0 ≤ (-scaled).tdiv 1000000 := Int.tdiv_nonneg (by omega) (by decide)
      rw [Int.neg_tdiv] at hmirror
      split_ifs <;> omega
  simp only [slashPenalty, Env.mulI128, bind_ok_iff, pure_ok_iff, hcut]
  by_cases hfits : i128.Fits (stake * SLASH_PENALTY_PPM)
  · simp only [hfits, if_true, true_or, true_and, Except.ok.injEq, exists_eq_left']
    rw [wrap_of_fits _ hfits, eq_comm]
  · cases env.overflowChecks
    · simp [hfits, eq_comm]
    · simp [hfits]

/-- The cut of an exact product is a tenth of the stake. -/
theorem cutPenalty_exact {stake : Int} (hstake : 0 ≤ stake) :
    cutPenalty stake (stake * SLASH_PENALTY_PPM) = tenth stake := by
  simp only [cutPenalty, tenth, SLASH_PENALTY_PPM]
  split_ifs <;> omega

/-- A penalty is neither negative nor more than the stake. -/
theorem slashPenalty_bounds {env : Env} {stake penalty : Int}
    (h : slashPenalty env stake = .ok penalty) (hstake : 0 ≤ stake) :
    0 ≤ penalty ∧ penalty ≤ stake := by
  obtain ⟨-, rfl⟩ := slashPenalty_ok_iff.mp h
  unfold cutPenalty
  split <;> omega

/-! ## How one call moves stakes -/

/-- What a call does to stakes and slash histories: nothing, add to one stake,
withdraw from one, or slash one and put it on record. -/
inductive StakeStep (s s' : State) (call : Call) : Prop
  | kept (hstake : ∀ addr, s'.stakeOf addr = s.stakeOf addr)
      (hhistory : s'.slashHistory = s.slashHistory)
      (hadded : ∀ addr, call.stakeAdded addr = 0)
      (hwithdrawn : ∀ addr, call.stakeWithdrawn addr = 0)
  | added (provider : Address) (amount : Int) (hamount : 0 < amount)
      (hstake : ∀ addr, s'.stakeOf addr = s.stakeOf addr + if addr = provider then amount else 0)
      (hhistory : s'.slashHistory = s.slashHistory)
      (hadded : ∀ addr, call.stakeAdded addr = if addr = provider then amount else 0)
      (hwithdrawn : ∀ addr, call.stakeWithdrawn addr = 0)
  | withdrawn (provider : Address) (amount : Int) (hcovered : amount ≤ s.stakeOf provider)
      (hstake : ∀ addr, s'.stakeOf addr = s.stakeOf addr - if addr = provider then amount else 0)
      (hhistory : s'.slashHistory = s.slashHistory)
      (hadded : ∀ addr, call.stakeAdded addr = 0)
      (hwithdrawn : ∀ addr, call.stakeWithdrawn addr = if addr = provider then amount else 0)
  | slashed (provider : Address) (record : SlashRecord)
      (hpenalty : 0 ≤ s.stakeOf provider →
        0 ≤ record.penalty ∧ record.penalty ≤ s.stakeOf provider)
      (hremaining : record.remainingStake = s.stakeOf provider - record.penalty)
      (hstake : ∀ addr, s'.stakeOf addr =
        s.stakeOf addr - if addr = provider then record.penalty else 0)
      (hhistory : s'.slashHistory =
        s.slashHistory.set provider (getSlashHistory s provider ++ [record]))
      (hadded : ∀ addr, call.stakeAdded addr = 0)
      (hwithdrawn : ∀ addr, call.stakeWithdrawn addr = 0)

/-- The stake of a provider that there is. -/
theorem stakeOf_of_get {s : State} {provider : Address} {p : OracleProvider}
    (h : s.provider.get provider = some p) : s.stakeOf provider = p.stake := by
  simp [State.stakeOf, h]

/-- The stakes after one provider is written. -/
theorem stakeOf_of_set {s s' : State} {provider : Address} {p : OracleProvider}
    (h : s'.provider = s.provider.set provider p) (addr : Address) :
    s'.stakeOf addr = if addr = provider then p.stake else s.stakeOf addr := by
  unfold State.stakeOf
  rw [h, get_set]
  split <;> rfl

/-- The stakes after one provider is written with its stake moved by `d`. -/
theorem stakeOf_of_move {s s' : State} {provider : Address} {p p' : OracleProvider} {d : Int}
    (hget : s.provider.get provider = some p) (h : s'.provider = s.provider.set provider p')
    (hstake : p'.stake = p.stake + d) (addr : Address) :
    s'.stakeOf addr = s.stakeOf addr + if addr = provider then d else 0 := by
  rw [stakeOf_of_set h]
  split
  · next haddr => rw [haddr, stakeOf_of_get hget, hstake]
  · omega

/-- A call about providers moves stakes as it says. -/
theorem ProviderStep.stakeStep {env : Env} {s s' : State} {call : Call}
    (h : ProviderStep env s s' call) : StakeStep s s' call := by
  cases h with
  | administered currentAdmin newAdmin hcall hadmin hafter =>
      subst hcall hafter
      exact .kept (fun addr => rfl) rfl (fun addr => rfl) (fun addr => rfl)
  | registered caller provider methodology nonce hcall hadmin hnew hafter =>
      have hset : s'.provider = s.provider.set provider
          ⟨provider, methodology, 0, true, env.timestamp⟩ := by rw [hafter]
      subst hcall
      refine .kept ?_ (by rw [hafter]; rfl) (fun addr => rfl) (fun addr => rfl)
      intro addr
      rw [stakeOf_of_set hset]
      split
      · next haddr => simp [State.stakeOf, haddr, hnew]
      · rfl
  | removed caller provider nonce p hcall hadmin hget hafter =>
      have hset : s'.provider = s.provider.set provider { p with active := false } := by
        rw [hafter]
      subst hcall
      refine .kept ?_ (by rw [hafter]; rfl) (fun addr => rfl) (fun addr => rfl)
      intro addr
      rw [stakeOf_of_move (d := 0) hget hset (by simp)]
      simp
  | thresholdSet caller threshold nonce hcall hadmin hafter =>
      subst hcall hafter
      exact .kept (fun addr => rfl) rfl (fun addr => rfl) (fun addr => rfl)
  | minimumSet caller stake nonce hcall hadmin hstake hafter =>
      subst hcall hafter
      exact .kept (fun addr => rfl) rfl (fun addr => rfl) (fun addr => rfl)
  | staked provider amount nonce p hcall hamount hget hrange hafter =>
      have hset : s'.provider = s.provider.set provider { p with stake := p.stake + amount } := by
        rw [hafter]
      subst hcall
      exact .added provider amount hamount (stakeOf_of_move hget hset rfl)
        (by rw [hafter]; rfl) (fun addr => rfl) (fun addr => rfl)
  | withdrawn provider amount nonce p hcall hamount hget hcovered hafter =>
      have hset : s'.provider = s.provider.set provider { p with stake := p.stake - amount } := by
        rw [hafter]
      subst hcall
      refine .withdrawn provider amount (stakeOf_of_get hget ▸ hcovered) ?_
        (by rw [hafter]; rfl) (fun addr => rfl) (fun addr => rfl)
      intro addr
      rw [stakeOf_of_move (d := -amount) hget hset (Int.sub_eq_add_neg ..)]
      split <;> omega

/-- Every call moves stakes as its kind says. -/
theorem OracleStep.stakeStep {env : Env} {s s' : State} {call : Call}
    (h : OracleStep env s s' call) : StakeStep s s' call := by
  cases h with
  | managed hstep => exact hstep.stakeStep
  | submitted report p nonce hcall hprovider hactive hfresh hperiod hsound hapart hafter =>
      subst hcall hafter
      exact .kept (fun addr => rfl) rfl (fun addr => rfl) (fun addr => rfl)
  | counted caller reportId nonce report hcall hcan hafter hshort =>
      obtain ⟨verifiers, counts, hrecorded⟩ := recordVerifier_frame (s.bump caller) caller reportId
      rw [hrecorded] at hafter
      subst hcall hafter
      exact .kept (fun addr => rfl) rfl (fun addr => rfl) (fun addr => rfl)
  | verified caller reportId nonce report hcall hcan hafter hquorum =>
      obtain ⟨verifiers, counts, hrecorded⟩ := recordVerifier_frame (s.bump caller) caller reportId
      rw [hrecorded] at hafter
      subst hcall hafter
      exact .kept (fun addr => rfl) rfl (fun addr => rfl) (fun addr => rfl)
  | challenged challenger reportId hash nonce report hcall hget hstatus hwindow hfresh hafter =>
      subst hcall hafter
      exact .kept (fun addr => rfl) rfl (fun addr => rfl) (fun addr => rfl)
  | dismissed caller reportId nonce resolution challenge hcall hadmin hchallenge hclosed hafter =>
      subst hcall hafter
      exact .kept (fun addr => rfl) rfl (fun addr => rfl) (fun addr => rfl)
  | upheld caller reportId nonce challenge report hcall hadmin hchallenge hopen hget hafter =>
      subst hcall hafter
      exact .kept (fun addr => rfl) rfl (fun addr => rfl) (fun addr => rfl)
  | rejected caller reportId nonce challenge report p penalty hcall hadmin hchallenge hopen hget
      hprovider hpenalty hafter =>
      have hset : s'.provider = s.provider.set report.provider (p.slashed penalty) := by
        rw [hafter]
        rfl
      have hstake : s.stakeOf report.provider = p.stake := stakeOf_of_get hprovider
      subst hcall
      refine .slashed report.provider
        ⟨reportId, penalty, p.stake - penalty, env.timestamp, (p.slashed penalty).active⟩
        ?_ (hstake ▸ rfl) ?_ (by rw [hafter]; rfl) (fun addr => rfl) (fun addr => rfl)
      · intro hnonneg
        rw [hstake] at hnonneg ⊢
        exact slashPenalty_bounds hpenalty hnonneg
      · intro addr
        rw [stakeOf_of_move (d := -penalty) hprovider hset (Int.sub_eq_add_neg ..)]
        dsimp only
        split <;> omega

/-! ## Stakes and penalties along a run -/

/-- Every stake is accounted for and no amount on record is negative. -/
structure StakeInvariant (s : State) (l : List LogEntry) : Prop where
  balance : ∀ addr, s.stakeOf addr = added addr l - withdrawn addr l - s.penalties addr
  nonneg : ∀ addr, 0 ≤ s.stakeOf addr
  records : ∀ addr, ∀ record ∈ getSlashHistory s addr,
    0 ≤ record.penalty ∧ 0 ≤ record.remainingStake

theorem stakeInvariant_constructor (admin : Address) : StakeInvariant (constructor admin) [] := by
  constructor <;> simp [constructor, State.stakeOf, State.penalties, getSlashHistory, added,
    withdrawn]

/-- The penalties of a provider after they were written. -/
theorem getSlashHistory_of_set {s s' : State} {provider : Address} {history : List SlashRecord}
    (h : s'.slashHistory = s.slashHistory.set provider history) (addr : Address) :
    getSlashHistory s' addr = if addr = provider then history else getSlashHistory s addr := by
  unfold getSlashHistory
  rw [h, get_set]
  split <;> rfl

/-- The penalties where none was written. -/
theorem getSlashHistory_of_eq {s s' : State} (h : s'.slashHistory = s.slashHistory)
    (addr : Address) : getSlashHistory s' addr = getSlashHistory s addr := by
  unfold getSlashHistory
  rw [h]

theorem added_snoc (addr : Address) (l : List LogEntry) (e : LogEntry) :
    added addr (l ++ [e]) = added addr l + e.input.call.stakeAdded addr :=
  Machine.total_snoc _ l e

theorem withdrawn_snoc (addr : Address) (l : List LogEntry) (e : LogEntry) :
    withdrawn addr (l ++ [e]) = withdrawn addr l + e.input.call.stakeWithdrawn addr :=
  Machine.total_snoc _ l e

/-- Stakes move by what the call adds and withdraws, and no slash is put on
record. -/
theorem StakeInvariant.move {l : List LogEntry} {e : LogEntry} (hs : StakeInvariant e.before l)
    (d : Address → Int) (hstake : ∀ addr, e.after.stakeOf addr = e.before.stakeOf addr + d addr)
    (hhistory : e.after.slashHistory = e.before.slashHistory)
    (hmoved : ∀ addr,
      d addr = e.input.call.stakeAdded addr - e.input.call.stakeWithdrawn addr)
    (hnonneg : ∀ addr, 0 ≤ e.before.stakeOf addr + d addr) :
    StakeInvariant e.after (l ++ [e]) where
  balance addr := by
    have hbalance := hs.balance addr
    unfold State.penalties at *
    rw [getSlashHistory_of_eq hhistory, added_snoc, withdrawn_snoc, hstake, hmoved]
    omega
  nonneg addr := by
    rw [hstake]
    exact hnonneg addr
  records addr := by
    rw [getSlashHistory_of_eq hhistory]
    exact hs.records addr

/-- **Step lemma** for the stakes. -/
theorem StakeInvariant.step {l : List LogEntry} {e : LogEntry} (hs : StakeInvariant e.before l)
    (hstep : StakeStep e.before e.after e.input.call) : StakeInvariant e.after (l ++ [e]) := by
  cases hstep with
  | kept hstake hhistory hadded hwithdrawn =>
      refine hs.move (fun _ => 0) ?stake hhistory ?moved ?nonneg
      case stake =>
        intro addr
        rw [hstake]
        omega
      case moved =>
        intro addr
        rw [hadded, hwithdrawn]
        omega
      case nonneg =>
        intro addr
        have hnonneg := hs.nonneg addr
        omega
  | added provider amount hamount hstake hhistory hadded hwithdrawn =>
      refine hs.move (fun addr => if addr = provider then amount else 0) hstake hhistory
        ?moved ?nonneg
      case moved =>
        intro addr
        rw [hadded, hwithdrawn]
        omega
      case nonneg =>
        intro addr
        have hnonneg := hs.nonneg addr
        split <;> omega
  | withdrawn provider amount hcovered hstake hhistory hadded hwithdrawn =>
      refine hs.move (fun addr => -(if addr = provider then amount else 0)) ?stake hhistory
        ?moved ?nonneg
      case stake =>
        intro addr
        rw [hstake]
        omega
      case moved =>
        intro addr
        rw [hadded, hwithdrawn]
        omega
      case nonneg =>
        intro addr
        have hnonneg := hs.nonneg addr
        split
        · next haddr => rw [haddr]; omega
        · omega
  | slashed provider record hpenalty hremaining hstake hhistory hadded hwithdrawn =>
      obtain ⟨hpenalty, hcovered⟩ := hpenalty (hs.nonneg provider)
      constructor
      case balance =>
        intro addr
        have hbalance := hs.balance addr
        unfold State.penalties at *
        rw [getSlashHistory_of_set hhistory, added_snoc, withdrawn_snoc, hadded, hwithdrawn,
          hstake]
        by_cases haddr : addr = provider
        · rw [if_pos haddr, if_pos haddr, List.map_append, List.sum_append, ← haddr]
          simp only [List.map_cons, List.map_nil, List.sum_cons, List.sum_nil]
          omega
        · rw [if_neg haddr, if_neg haddr]
          omega
      case nonneg =>
        intro addr
        have hnonneg := hs.nonneg addr
        rw [hstake]
        split
        · next haddr => rw [haddr]; omega
        · omega
      case records =>
        intro addr
        rw [getSlashHistory_of_set hhistory]
        split
        · intro record' hrecord'
          rcases List.mem_append.mp hrecord' with hold | hnew
          · exact hs.records provider record' hold
          · obtain rfl : record' = record := by simpa using hnew
            exact ⟨hpenalty, by omega⟩
        · exact hs.records addr

/-- The equation of the stakes holds after every run. -/
theorem stakeInvariant_run (admin : Address) (txs : List Tx) :
    StakeInvariant (machine.run (constructor admin) txs)
      (machine.log (constructor admin) txs) := by
  refine machine.invariant (P := StakeInvariant) (stakeInvariant_constructor admin) ?_ txs
  intro l e hfires hs
  exact hs.step (oracleStep_of_fires hfires).stakeStep

/-! ## One slash for each rejected report -/

/-- The slash history of a provider has one record for each of its rejected
reports, and no other. -/
structure SlashInvariant (s : State) : Prop where
  nodup : ∀ provider, ((getSlashHistory s provider).map SlashRecord.reportId).Nodup
  slashed : ∀ provider id, id ∈ (getSlashHistory s provider).map SlashRecord.reportId ↔
    ∃ report, s.report.get id = some report ∧ report.provider = provider ∧
      report.status = .rejected

theorem slashInvariant_constructor (admin : Address) : SlashInvariant (constructor admin) := by
  constructor <;> simp [constructor, getSlashHistory]

/-- Reports and penalties that stay the same keep the invariant. -/
theorem SlashInvariant.same {s s' : State} (hs : SlashInvariant s)
    (hreport : s'.report = s.report) (hhistory : s'.slashHistory = s.slashHistory) :
    SlashInvariant s' where
  nodup provider := by
    rw [getSlashHistory_of_eq hhistory]
    exact hs.nodup provider
  slashed provider id := by
    rw [getSlashHistory_of_eq hhistory, hreport]
    exact hs.slashed provider id

/-- One report is written that neither was nor becomes rejected. -/
theorem SlashInvariant.move {s s' : State} (hs : SlashInvariant s) (id : Nat) (report : Report)
    (hreport : s'.report = s.report.set id report)
    (hhistory : s'.slashHistory = s.slashHistory)
    (hbefore : ∀ old, s.report.get id = some old → old.status ≠ .rejected)
    (hafter : report.status ≠ .rejected) : SlashInvariant s' := by
  constructor
  · intro provider
    rw [getSlashHistory_of_eq hhistory]
    exact hs.nodup provider
  · intro provider other
    rw [getSlashHistory_of_eq hhistory, hs.slashed, hreport, get_set]
    by_cases hother : other = id
    · rw [if_pos hother, hother]
      constructor
      · intro h
        obtain ⟨old, hget, -, hrejected⟩ := h
        exact absurd hrejected (hbefore old hget)
      · intro h
        obtain ⟨stored, hstored, -, hrejected⟩ := h
        obtain rfl := Option.some.inj hstored
        exact absurd hrejected hafter
    · rw [if_neg hother]

/-- A report that was not rejected is rejected and its provider slashed. -/
theorem SlashInvariant.reject {s s' : State} (hs : SlashInvariant s) (id : Nat)
    {report report' : Report} {record : SlashRecord}
    (hreport : s'.report = s.report.set id report')
    (hhistory : s'.slashHistory =
      s.slashHistory.set report.provider (getSlashHistory s report.provider ++ [record]))
    (hget : s.report.get id = some report) (hbefore : report.status ≠ .rejected)
    (hprovider : report'.provider = report.provider) (hafter : report'.status = .rejected)
    (hrecord : record.reportId = id) : SlashInvariant s' := by
  have hnew : ∀ provider, id ∉ (getSlashHistory s provider).map SlashRecord.reportId := by
    intro provider hmem
    obtain ⟨old, hold, -, hrejected⟩ := (hs.slashed provider id).mp hmem
    obtain rfl : report = old := by simpa [hget] using hold
    exact hbefore hrejected
  constructor
  · intro provider
    rw [getSlashHistory_of_set hhistory]
    split
    · rw [List.map_append, List.map_singleton, hrecord, ← List.concat_eq_append]
      exact (hs.nodup report.provider).concat (hnew report.provider)
    · exact hs.nodup provider
  · intro provider other
    rw [getSlashHistory_of_set hhistory, hreport, get_set]
    by_cases howner : provider = report.provider
    · rw [if_pos howner, List.map_append, List.map_singleton, hrecord, List.mem_append,
        List.mem_singleton, ← howner, hs.slashed]
      by_cases hother : other = id
      · rw [if_pos hother]
        simp [hother, hprovider, howner, hafter]
      · rw [if_neg hother]
        simp [hother]
    · rw [if_neg howner, hs.slashed]
      by_cases hother : other = id
      · have hforeign : report.provider ≠ provider := fun h => howner h.symm
        rw [if_pos hother, hother, hget]
        simp [hprovider, hforeign]
      · rw [if_neg hother]

/-- A call keeps it. -/
theorem SlashInvariant.step {env : Env} {s s' : State} {call : Call} (hs : SlashInvariant s)
    (hindex : ReportIndex s)
    (hmatched : ∀ id report, s.report.get id = some report → report.Matches (s.challenge.get id))
    (hstep : OracleStep env s s' call) : SlashInvariant s' := by
  -- A report whose challenge is open is challenged, so not rejected yet.
  have hchallenged : ∀ {id report challenge}, s.report.get id = some report →
      s.challenge.get id = some challenge → challenge.resolved = false →
        report.status = .challenged := by
    intro id report challenge hget hstored hopen
    exact (hmatched id report hget).challenged_iff.mpr ⟨challenge, hstored, hopen⟩
  cases hstep with
  | managed hstep => exact hs.same hstep.sameReports.report hstep.sameReports.slashHistory
  | submitted report p nonce hcall hprovider hactive hfresh hperiod hsound hapart hafter =>
      rw [hafter]
      refine hs.move (s.reportCount + 1) report rfl rfl ?_ ?_
      · intro old hold
        rw [hindex.unused _ (Nat.lt_succ_self _)] at hold
        cases hold
      · rw [hfresh.status_eq]
        decide
  | counted caller reportId nonce report hcall hcan hafter hshort =>
      obtain ⟨verifiers, counts, hrecorded⟩ := recordVerifier_frame (s.bump caller) caller reportId
      rw [hafter, hrecorded]
      exact hs.same rfl rfl
  | verified caller reportId nonce report hcall hcan hafter hquorum =>
      obtain ⟨verifiers, counts, hrecorded⟩ := recordVerifier_frame (s.bump caller) caller reportId
      rw [hafter, hrecorded]
      refine hs.move reportId _ rfl rfl ?_ (by simp [Report.verify])
      intro old hold
      obtain rfl : report = old := by simpa [hcan.stored] using hold
      rw [hcan.pending]
      decide
  | challenged challenger reportId hash nonce report hcall hget hstatus hwindow hfresh hafter =>
      rw [hafter]
      refine hs.move reportId _ rfl rfl ?_ (by simp)
      intro old hold
      obtain rfl : report = old := by simpa [hget] using hold
      rcases hstatus with hstatus | hstatus <;> simp [hstatus]
  | dismissed caller reportId nonce resolution challenge hcall hadmin hchallenge hclosed hafter =>
      rw [hafter]
      exact hs.same rfl rfl
  | upheld caller reportId nonce challenge report hcall hadmin hchallenge hopen hget hafter =>
      rw [hafter]
      refine hs.move reportId _ rfl rfl ?_ (by simp)
      intro old hold
      obtain rfl : report = old := by simpa [hget] using hold
      rw [hchallenged hget hchallenge hopen]
      decide
  | rejected caller reportId nonce challenge report p penalty hcall hadmin hchallenge hopen hget
      hprovider hpenalty hafter =>
      have hstatus := hchallenged hget hchallenge hopen
      rw [hafter]
      exact hs.reject reportId rfl rfl hget (by simp [hstatus]) rfl rfl rfl

/-- It holds after every run. -/
theorem slashInvariant_run (admin : Address) (txs : List Tx) :
    SlashInvariant (machine.run (constructor admin) txs) := by
  refine machine.invariant_under (P := fun s _ => SlashInvariant s)
    (I := fun s l => ReportIndex s ∧ ChallengeInvariant s l)
    (fun calls => ⟨reportIndex_run admin calls, challengeInvariant_run admin calls⟩)
    (slashInvariant_constructor admin) ?_ txs
  intro l e hfires hI hs
  exact hs.step hI.1 hI.2.matched (oracleStep_of_fires hfires)

/-- **Conservation of stake.**  In every reachable storage the stake of a provider
is what it added less what it withdrew and what slashes took, and not negative;
it was slashed once for each of its reports that was rejected, and for no other;
and no amount on record is negative. -/
theorem stake_conserved (admin : Address) (txs : List Tx) :
    (∀ provider p, (machine.run (constructor admin) txs).provider.get provider = some p →
      p.stake = added provider (machine.log (constructor admin) txs) -
        withdrawn provider (machine.log (constructor admin) txs) -
        (machine.run (constructor admin) txs).penalties provider ∧ 0 ≤ p.stake) ∧
    ∀ provider,
      ((getSlashHistory (machine.run (constructor admin) txs) provider).map
        SlashRecord.reportId).Nodup ∧
      (∀ id, id ∈ (getSlashHistory (machine.run (constructor admin) txs) provider).map
          SlashRecord.reportId ↔
        ∃ report, (machine.run (constructor admin) txs).report.get id = some report ∧
          report.provider = provider ∧
          (machine.run (constructor admin) txs).ResolvedTo id .rejected) ∧
      ∀ record ∈ getSlashHistory (machine.run (constructor admin) txs) provider,
        0 ≤ record.penalty ∧ 0 ≤ record.remainingStake := by
  have hstake := stakeInvariant_run admin txs
  have hslash := slashInvariant_run admin txs
  have hmatched := (challengeInvariant_run admin txs).matched
  constructor
  · intro provider p hget
    rw [← stakeOf_of_get hget]
    exact ⟨hstake.balance provider, hstake.nonneg provider⟩
  · intro provider
    refine ⟨hslash.nodup provider, ?_, hstake.records provider⟩
    intro id
    rw [hslash.slashed]
    constructor
    · intro h
      obtain ⟨report, hget, howner, hrejected⟩ := h
      exact ⟨report, hget, howner, (hmatched id report hget).rejected_iff.mp hrejected⟩
    · intro h
      obtain ⟨report, hget, howner, hresolved⟩ := h
      exact ⟨report, hget, howner, (hmatched id report hget).rejected_iff.mpr hresolved⟩

end EcoMint.OracleConsumer
