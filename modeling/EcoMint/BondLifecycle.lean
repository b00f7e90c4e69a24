import EcoMint.RedemptionSolvency

/-!
# The life of a bond

A bond is issued active, trades until its maturity date, and is redeemed after
the admin matured it.  Between the maturity date and `mature_bond` it is still
active, and there its tokens cannot move: `subscribe` and `transfer` look at the
clock, and `redeem` looks at the status.

`LifeStep` says once what a call can do to an issued bond.
-/

namespace EcoMint.BondIssuer

open Fallible IntRange Storage

/-- A successful call of the issuer, with the storages around it. -/
abbrev LogEntry := Event State Tx Output

/-- The ledger time of a call. -/
def LogEntry.time (e : LogEntry) : Nat := e.input.env.timestamp

/-- A call that trades tokens. -/
def Call.Trades : Call → Prop
  | .subscribe _ _ _ _ | .transfer _ _ _ _ _ => True
  | _ => False

/-- No holder's balance of the bond moved. -/
def SameBalances (s s' : State) (b : Nat) : Prop :=
  ∀ holder, s'.holderBalance.read (b, holder) = s.holderBalance.read (b, holder)

theorem SameBalances.refl (s : State) (b : Nat) : SameBalances s s b := fun _ => rfl

/-- The storage after a redemption. -/
def State.redeemed (s : State) (b : Nat) (config : BondConfig) (record : BondState)
    (holder : Address) (amount : Int) : State :=
  { s.bump holder with
    redemptionPool := s.redemptionPool.credit b (-(amount * config.faceValue))
    holderBalance := s.holderBalance.credit (b, holder) (-amount)
    bondState := s.bondState.set b
      { record with totalSubscribed := record.totalSubscribed - amount } }

/-- What one successful call at a time does to an issued bond. -/
inductive LifeStep (time : Nat) (s s' : State) (b : Nat) (config : BondConfig)
    (record : BondState) (call : Call) : Prop
  | untouched (hrecord : s'.bondState.get b = some record) (hbalance : SameBalances s s' b)
  | traded (record' : BondState) (hactive : record.status = .active)
      (hearly : time < config.maturityDate) (hrecord : s'.bondState.get b = some record')
      (hactive' : record'.status = .active)
  | matured (hactive : record.status = .active) (hlate : config.maturityDate ≤ time)
      (hrecord : s'.bondState.get b = some { record with status := .matured })
      (hbalance : SameBalances s s' b)
  | redeemed (holder : Address) (amount : Int) (nonce : Nat)
      (hcall : call = .redeem holder b amount nonce) (hmatured : record.status = .matured)
      (hafter : s' = s.redeemed b config record holder amount)

/-- **Step lemma.**  Every successful call is a `LifeStep` of every issued bond. -/
theorem lifeStep_exec {env : Env} {registries : Registries} {s s' : State} {call : Call}
    {out : Output} {b : Nat} {config : BondConfig} {record : BondState}
    (hs : SupplyInvariant s) (hconfig : s.bondConfig.get b = some config)
    (hrecord : s.bondState.get b = some record)
    (h : exec env registries s call = .ok (out, s')) :
    LifeStep env.timestamp s s' b config record call := by
  cases call with
  | setAdmin currentAdmin newAdmin =>
      obtain ⟨-, -, rfl⟩ := setAdmin_ok_iff.mp (silent_ok_iff.mp h).1
      exact .untouched hrecord (.refl s b)
  | setProjectRegistry caller registry nonce =>
      obtain ⟨-, -, -, rfl⟩ := setProjectRegistry_ok_iff.mp (silent_ok_iff.mp h).1
      exact .untouched hrecord (.refl s b)
  | issueBond caller config' nonce =>
      simp only [exec, bind_ok_iff, pure_ok_iff, Prod.mk.injEq] at h
      obtain ⟨⟨bondId, s''⟩, hissue, -, rfl⟩ := h
      obtain ⟨-, -, -, -, -, rfl⟩ := issueBond_ok hissue
      have hne : b ≠ s.bondCount + 1 := by
        rintro rfl
        rw [hs.unissued _ (Nat.lt_succ_self _)] at hrecord
        cases hrecord
      exact .untouched ((get_set_ne _ _ hne).trans hrecord) (.refl s b)
  | subscribe investor bondId amount nonce =>
      obtain ⟨-, -, -, config', hconfig', state, hstate, hactive, hearly, -, -, -, rfl⟩ :=
        subscribe_ok_iff.mp (silent_ok_iff.mp h).1
      by_cases hb : b = bondId
      · subst hb
        obtain rfl := Option.some.inj (hconfig.symm.trans hconfig')
        obtain rfl := Option.some.inj (hrecord.symm.trans hstate)
        exact .traded _ hactive hearly (get_set_self _ _ _) hactive
      · refine .untouched ((get_set_ne _ _ hb).trans hrecord) fun holder => ?_
        exact read_credit_ne _ _ fun hkey => hb (Prod.mk.inj hkey).1
  | transfer sender recipient bondId amount nonce =>
      obtain ⟨-, -, -, -, config', hconfig', state, hstate, hactive, hearly, -, -, -, rfl⟩ :=
        transfer_ok_iff.mp (silent_ok_iff.mp h).1
      by_cases hb : b = bondId
      · subst hb
        obtain rfl := Option.some.inj (hconfig.symm.trans hconfig')
        obtain rfl := Option.some.inj (hrecord.symm.trans hstate)
        exact .traded record hactive hearly hrecord hactive
      · refine .untouched hrecord fun holder => ?_
        have hkey : ∀ owner, (b, holder) ≠ (bondId, owner) :=
          fun owner hkey => hb (Prod.mk.inj hkey).1
        show ((s.holderBalance.credit _ _).credit _ _).read _ = _
        rw [read_credit_ne _ _ (hkey recipient), read_credit_ne _ _ (hkey sender)]
  | fundRedemption caller bondId amount nonce =>
      obtain ⟨-, -, -, -, -, -, rfl⟩ := fundRedemption_ok_iff.mp (silent_ok_iff.mp h).1
      exact .untouched hrecord (.refl s b)
  | redeem holder bondId amount nonce =>
      obtain ⟨-, -, -, state, hstate, config', hconfig', hmatured, -, -, -, -, -, rfl⟩ :=
        redeem_ok_iff.mp (silent_ok_iff.mp h).1
      by_cases hb : b = bondId
      · subst hb
        obtain rfl := Option.some.inj (hconfig.symm.trans hconfig')
        obtain rfl := Option.some.inj (hrecord.symm.trans hstate)
        exact .redeemed holder amount nonce rfl hmatured rfl
      · refine .untouched ((get_set_ne _ _ hb).trans hrecord) fun owner => ?_
        exact read_credit_ne _ _ fun hkey => hb (Prod.mk.inj hkey).1
  | matureBond caller bondId nonce =>
      obtain ⟨-, -, -, config', hconfig', state, hstate, hactive, hlate, rfl⟩ :=
        matureBond_ok_iff.mp (silent_ok_iff.mp h).1
      by_cases hb : b = bondId
      · subst hb
        obtain rfl := Option.some.inj (hconfig.symm.trans hconfig')
        obtain rfl := Option.some.inj (hrecord.symm.trans hstate)
        exact .matured hactive hlate (get_set_self _ _ _) (.refl s b)
      · exact .untouched ((get_set_ne _ _ hb).trans hrecord) (.refl s b)

/-- A record that comes into being is active. -/
theorem unissued_exec {env : Env} {registries : Registries} {s s' : State} {call : Call}
    {out : Output} {b : Nat} (hnone : s.bondState.get b = none)
    (h : exec env registries s call = .ok (out, s')) :
    s'.bondState.get b = none ∨
      ∃ record, s'.bondState.get b = some record ∧ record.status = .active := by
  have hother : ∀ {bondId : Nat} {state record : BondState},
      s.bondState.get bondId = some state → (s.bondState.set bondId record).get b = none := by
    intro bondId state record hget
    have hne : b ≠ bondId := by
      rintro rfl
      rw [hnone] at hget
      cases hget
    exact (get_set_ne _ _ hne).trans hnone
  cases call with
  | setAdmin currentAdmin newAdmin =>
      obtain ⟨-, -, rfl⟩ := setAdmin_ok_iff.mp (silent_ok_iff.mp h).1
      exact Or.inl hnone
  | setProjectRegistry caller registry nonce =>
      obtain ⟨-, -, -, rfl⟩ := setProjectRegistry_ok_iff.mp (silent_ok_iff.mp h).1
      exact Or.inl hnone
  | issueBond caller config nonce =>
      simp only [exec, bind_ok_iff, pure_ok_iff, Prod.mk.injEq] at h
      obtain ⟨⟨bondId, s''⟩, hissue, -, rfl⟩ := h
      obtain ⟨-, -, -, -, -, rfl⟩ := issueBond_ok hissue
      by_cases hb : b = s.bondCount + 1
      · exact Or.inr ⟨freshBond env, by rw [hb]; exact get_set_self _ _ _, rfl⟩
      · exact Or.inl ((get_set_ne _ _ hb).trans hnone)
  | subscribe investor bondId amount nonce =>
      obtain ⟨-, -, -, _, -, state, hstate, -, -, -, -, -, rfl⟩ :=
        subscribe_ok_iff.mp (silent_ok_iff.mp h).1
      exact Or.inl (hother hstate)
  | transfer sender recipient bondId amount nonce =>
      obtain ⟨-, -, -, -, _, -, _, -, -, -, -, -, -, rfl⟩ :=
        transfer_ok_iff.mp (silent_ok_iff.mp h).1
      exact Or.inl hnone
  | fundRedemption caller bondId amount nonce =>
      obtain ⟨-, -, -, -, -, -, rfl⟩ := fundRedemption_ok_iff.mp (silent_ok_iff.mp h).1
      exact Or.inl hnone
  | redeem holder bondId amount nonce =>
      obtain ⟨-, -, -, state, hstate, _, -, -, -, -, -, -, -, rfl⟩ :=
        redeem_ok_iff.mp (silent_ok_iff.mp h).1
      exact Or.inl (hother hstate)
  | matureBond caller bondId nonce =>
      obtain ⟨-, -, -, _, -, state, hstate, -, -, rfl⟩ :=
        matureBond_ok_iff.mp (silent_ok_iff.mp h).1
      exact Or.inl (hother hstate)

/-! ## The status over a whole run -/

/-- The status of a bond, if it is issued. -/
def State.statusOf (s : State) (b : Nat) : Option BondStatus :=
  (s.bondState.get b).map BondState.status

/-- A bond's status is what its record says. -/
theorem statusOf_of_get {s : State} {b : Nat} {record : BondState}
    (h : s.bondState.get b = some record) : s.statusOf b = some record.status := by
  simp [State.statusOf, h]

/-- The call moved the status of the bond, other than by issuing it. -/
def LogEntry.ChangesStatus (b : Nat) (e : LogEntry) : Prop :=
  e.before.statusOf b ≠ none ∧ e.after.statusOf b ≠ e.before.statusOf b

instance (b : Nat) (e : LogEntry) : Decidable (LogEntry.ChangesStatus b e) := by
  unfold LogEntry.ChangesStatus; infer_instance

/-- How often the status of a bond changed. -/
def statusChanges (b : Nat) (l : List LogEntry) : Nat :=
  l.countP fun e => LogEntry.ChangesStatus b e

/-- A call keeps the status of a bond, issues it active, or matures it at a time
that its maturity date does not exceed. -/
theorem status_step {e : LogEntry} (hs : SupplyInvariant e.before) (hfires : machine.Fires e)
    (b : Nat) :
    e.after.statusOf b = e.before.statusOf b ∨
      (e.before.statusOf b = none ∧ e.after.statusOf b = some .active) ∨
      (e.before.statusOf b = some .active ∧ e.after.statusOf b = some .matured ∧
        ∃ config, e.before.bondConfig.get b = some config ∧
          config.maturityDate ≤ LogEntry.time e) := by
  cases hrecord : e.before.bondState.get b with
  | none =>
      have hnone : e.before.statusOf b = none := by simp [State.statusOf, hrecord]
      rcases unissued_exec hrecord hfires with hafter | ⟨record, hafter, hactive⟩
      · left
        rw [hnone]
        simp [State.statusOf, hafter]
      · right
        left
        exact ⟨hnone, by rw [statusOf_of_get hafter, hactive]⟩
  | some record =>
      have hissued : (e.before.bondConfig.get b).isSome = true := by
        rw [← hs.issued_iff, hrecord]
        rfl
      obtain ⟨config, hconfig⟩ := Option.isSome_iff_exists.mp hissued
      have hbefore := statusOf_of_get hrecord
      cases lifeStep_exec hs hconfig hrecord hfires with
      | untouched hafter _ =>
          left
          rw [statusOf_of_get hafter, hbefore]
      | traded record' hactive _ hafter hactive' =>
          left
          rw [statusOf_of_get hafter, hbefore, hactive, hactive']
      | matured hactive hlate hafter _ =>
          right
          right
          exact ⟨by rw [hbefore, hactive], statusOf_of_get hafter, config, hconfig, hlate⟩
      | redeemed holder amount nonce _ hmatured hafter =>
          left
          have hset : e.after.bondState.get b =
              some { record with totalSubscribed := record.totalSubscribed - amount } := by
            rw [hafter]
            exact get_set_self _ _ _
          rw [statusOf_of_get hset, hbefore]

/-- What a run tells about a bond: if it is matured, a call came after its
maturity date and the status changed once; otherwise it never changed. -/
structure LifeHistory (b : Nat) (s : State) (l : List LogEntry) : Prop where
  due : s.statusOf b = some .matured → ∀ config, s.bondConfig.get b = some config →
    ∃ e ∈ l, config.maturityDate ≤ LogEntry.time e
  changes : statusChanges b l ≤ if s.statusOf b = some .matured then 1 else 0

/-- A bond's history is told by the log after every run. -/
theorem lifeHistory_run (admin : Address) (txs : List Tx) (b : Nat) :
    LifeHistory b (machine.run (constructor admin) txs)
      (machine.log (constructor admin) txs) := by
  refine machine.invariant_under (I := fun s _ => SupplyInvariant s)
    (P := LifeHistory b) (supplyInvariant_run admin) ?_ ?_ txs
  · constructor
    · intro hmatured
      simp [constructor, State.statusOf] at hmatured
    · exact Nat.zero_le _
  · intro l e hfires hs hl
    have hstep := status_step hs hfires b
    constructor
    case due =>
      intro hmatured config hconfig
      rcases hstep with hsame | ⟨-, hactive⟩ | ⟨hactive, -, config', hconfig', hlate⟩
      · -- the bond was matured before, when its configuration was the same
        have hbefore : e.before.statusOf b = some .matured := hsame ▸ hmatured
        obtain ⟨record, hrecord, -⟩ := Option.map_eq_some_iff.mp hbefore
        have hissued : (e.before.bondConfig.get b).isSome = true := by
          rw [← hs.issued_iff, hrecord]
          rfl
        obtain ⟨config', hconfig'⟩ := Option.isSome_iff_exists.mp hissued
        have hkept := bondConfig_exec hs hfires hconfig'
        obtain rfl := Option.some.inj (hkept.symm.trans hconfig)
        obtain ⟨e', he', hlate⟩ := hl.due hbefore config' hconfig'
        exact ⟨e', List.mem_append_left _ he', hlate⟩
      · rw [hactive] at hmatured
        cases hmatured
      · have hkept := bondConfig_exec hs hfires hconfig'
        obtain rfl := Option.some.inj (hkept.symm.trans hconfig)
        exact ⟨e, by simp, hlate⟩
    case changes =>
      have hcount : statusChanges b (l ++ [e]) =
          statusChanges b l + if LogEntry.ChangesStatus b e then 1 else 0 := by
        simp [statusChanges, List.countP_append, List.countP_singleton]
      have hchanges := hl.changes
      rw [hcount]
      rcases hstep with hsame | ⟨hnone, hactive⟩ | ⟨hactive, hmatured, -⟩
      · have hquiet : ¬ LogEntry.ChangesStatus b e := fun hchange => hchange.2 hsame
        rw [if_neg hquiet, hsame]
        exact hchanges
      · have hquiet : ¬ LogEntry.ChangesStatus b e := fun hchange => hchange.1 hnone
        rw [if_neg hquiet, hactive]
        rw [hnone] at hchanges
        simpa using hchanges
      · rw [hactive] at hchanges
        rw [hmatured]
        simp only [reduceCtorEq, if_false, if_true, Option.some.injEq] at hchanges ⊢
        split <;> omega

/-- A bond keeps its configuration for the rest of a run. -/
theorem bondConfig_run (admin : Address) {pre txs : List Tx} (hpre : pre <+: txs) {b : Nat}
    {config : BondConfig}
    (hget : (machine.run (constructor admin) pre).bondConfig.get b = some config) :
    (machine.run (constructor admin) txs).bondConfig.get b = some config := by
  obtain ⟨rest, rfl⟩ := hpre
  rw [Machine.run_append]
  refine machine.invariant_under (I := fun s _ => SupplyInvariant s)
    (P := fun s _ => s.bondConfig.get b = some config) ?_ hget ?_ rest
  · intro calls
    rw [← Machine.run_append]
    exact supplyInvariant_run admin (pre ++ calls)
  · intro _ e hfires hs hconfig
    exact bondConfig_exec hs hfires hconfig

/-- **The life of a bond.**  In every run whose clock does not run back: a bond
keeps its configuration; its status is active when it is issued and changes at
most once, to matured, at a time that its maturity date does not exceed; from
that date on nobody's balance moves by trading; and a redemption comes at such a
time, finds the bond matured, and takes the redeemed tokens from the holder and
from the recorded total, and their face value from the pool. -/
theorem bond_lifecycle (admin : Address) (txs : List Tx) (b : Nat)
    (htimes : (txs.map fun tx => tx.env.timestamp).Pairwise (· ≤ ·)) :
    (∀ pre, pre <+: txs → ∀ config,
      (machine.run (constructor admin) pre).bondConfig.get b = some config →
        (machine.run (constructor admin) txs).bondConfig.get b = some config) ∧
    (∀ e ∈ machine.log (constructor admin) txs,
      e.after.statusOf b = e.before.statusOf b ∨
        (e.before.statusOf b = none ∧ e.after.statusOf b = some .active) ∨
        (e.before.statusOf b = some .active ∧ e.after.statusOf b = some .matured ∧
          ∃ config, e.before.bondConfig.get b = some config ∧
            config.maturityDate ≤ LogEntry.time e)) ∧
    statusChanges b (machine.log (constructor admin) txs) ≤ 1 ∧
    (∀ e ∈ machine.log (constructor admin) txs, ∀ config,
      e.before.bondConfig.get b = some config → config.maturityDate ≤ LogEntry.time e →
        e.input.call.Trades → SameBalances e.before e.after b) ∧
    ∀ e ∈ machine.log (constructor admin) txs, ∀ holder amount nonce,
      e.input.call = .redeem holder b amount nonce →
        ∃ config record, e.before.bondConfig.get b = some config ∧
          e.before.bondState.get b = some record ∧ config.maturityDate ≤ LogEntry.time e ∧
          record.status = .matured ∧ 0 < amount ∧
          amount ≤ getHolderBalance e.before b holder ∧
          e.after = e.before.redeemed b config record holder amount := by
  refine ⟨fun pre hpre config => bondConfig_run admin hpre, ?_, ?_, ?_, ?_⟩
  · intro e he
    obtain ⟨pre, hfires, hbefore⟩ := machine.exists_run_of_mem_log he
    exact status_step (hbefore ▸ supplyInvariant_run admin pre) hfires b
  · have hchanges := (lifeHistory_run admin txs b).changes
    split at hchanges <;> omega
  · intro e he config hconfig hlate htrades
    obtain ⟨pre, hfires, hbefore⟩ := machine.exists_run_of_mem_log he
    have hs : SupplyInvariant e.before := hbefore ▸ supplyInvariant_run admin pre
    have hissued : (e.before.bondState.get b).isSome = true := by
      rw [hs.issued_iff, hconfig]
      rfl
    obtain ⟨record, hrecord⟩ := Option.isSome_iff_exists.mp hissued
    cases lifeStep_exec hs hconfig hrecord hfires with
    | untouched _ hbalance => exact hbalance
    | traded _ _ hearly _ _ => exact absurd hearly (not_lt.mpr hlate)
    | matured _ _ _ hbalance => exact hbalance
    | redeemed holder amount nonce hcall _ _ =>
        rw [hcall] at htrades
        exact htrades.elim
  · intro e he holder amount nonce hcall
    obtain ⟨l, rest, hlog⟩ := List.append_of_mem he
    have hpre : l ++ [e] <+: machine.log (constructor admin) txs := ⟨rest, by simp [hlog]⟩
    obtain ⟨pre, -, -, hfires, hbefore, hl, -⟩ := machine.exists_call_of_log_prefix hpre
    have hredeem : redeem e.input.env e.before holder b amount nonce = .ok e.after := by
      have hexec : exec e.input.env e.input.registries e.before e.input.call =
          .ok (e.output, e.after) := hfires
      rw [hcall] at hexec
      exact (silent_ok_iff.mp hexec).1
    obtain ⟨-, -, hpos, record, hrecord, config, hconfig, hmatured, henough, -, -, -, -, hafter⟩ :=
      redeem_ok_iff.mp hredeem
    refine ⟨config, record, hconfig, hrecord, ?_, hmatured, hpos, henough, hafter.symm⟩
    -- some earlier call was past the maturity date, and the clock does not run back
    have hhistory := lifeHistory_run admin pre b
    rw [← hbefore, hl] at hhistory
    have hstatus : e.before.statusOf b = some .matured := by
      rw [statusOf_of_get hrecord, hmatured]
    obtain ⟨e', he', hlate⟩ := hhistory.due hstatus config hconfig
    have hordered : ((machine.log (constructor admin) txs).map LogEntry.time).Pairwise (· ≤ ·) := by
      have hsub := (machine.log_inputs_sublist (constructor admin) txs).map
        fun tx => tx.env.timestamp
      rw [List.map_map] at hsub
      exact htimes.sublist hsub
    have hlast := hordered.sublist (hpre.sublist.map LogEntry.time)
    rw [List.map_append] at hlast
    have hle := (List.pairwise_append.mp hlast).2.2 (LogEntry.time e')
      (List.mem_map_of_mem he') (LogEntry.time e) (by simp)
    omega

/-- In the sample run the bond's status changes at most once. -/
theorem bond_lifecycle_sample :
    statusChanges 1 (machine.log (constructor 0) sampleTxs) ≤ 1 :=
  (bond_lifecycle 0 sampleTxs 1 (by decide)).2.2.1

end EcoMint.BondIssuer
