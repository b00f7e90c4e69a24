import EcoMint.RedemptionSolvency
import Mathlib.Algebra.BigOperators.Ring.List

/-!
# Liabilities and coverage of a bond

`redemption_coverage` reports the principal due of a bond, what its pool holds,
the shortfall, and the covered fraction in basis points.  The principal due is
the sum of what the holders are owed one by one.

The fraction is rounded down from a product that saturates at the end of
`u128`, so it is the exact one as long as no whole multiple of the principal is
lost there.
-/

namespace EcoMint.BondIssuer

open Fallible IntRange Storage

/-! ## What a coverage reports -/

/-- The covered part of the principal in basis points, rounded down. -/
def exactFractionBps (funded due : Int) : Int :=
  if due = 0 then 10000 else min funded due * 10000 / due

/-- The coverage is computed exactly when the bond is known and what is due fits. -/
theorem redemptionCoverage_ok_iff {s : State} {b : Nat} {coverage : RedemptionCoverage} :
    redemptionCoverage s b = .ok coverage ↔
      ∃ config, s.bondConfig.get b = some config ∧ ∃ state, s.bondState.get b = some state ∧
        i128.Fits (state.totalSubscribed * config.faceValue) ∧
        coverage.totalPrincipalDue = state.totalSubscribed * config.faceValue ∧
        coverage.fundedAmount = s.redemptionPool.read b ∧
        coverage.shortfall =
          (if coverage.totalPrincipalDue > s.redemptionPool.read b then
            coverage.totalPrincipalDue - s.redemptionPool.read b else 0) ∧
        coverage.coverageFractionBps =
          (if coverage.totalPrincipalDue = 0 then 10000
            else min (u128.saturatingMul (u128.wrap (s.redemptionPool.read b)) 10000 /
              u128.wrap coverage.totalPrincipalDue) 10000 : Int).toNat := by
  obtain ⟨due, funded, shortfall, bps⟩ := coverage
  simp only [redemptionCoverage, bind_ok_iff, pure_ok_iff, okOr_ok_iff, checkedMul,
    checked_eq_some, RedemptionCoverage.mk.injEq]
  constructor
  · intro h
    obtain ⟨config, hconfig, state, hstate, _, ⟨hfits, rfl⟩, rfl, rfl, rfl, rfl⟩ := h
    exact ⟨config, hconfig, state, hstate, hfits, rfl, rfl, rfl, rfl⟩
  · intro h
    obtain ⟨config, hconfig, state, hstate, hfits, rfl, rfl, rfl, rfl⟩ := h
    exact ⟨config, hconfig, state, hstate, _, ⟨hfits, rfl⟩, rfl, rfl, rfl, rfl⟩

/-! ## Liabilities -/

/-- The addresses with a stored balance of a bond. -/
def State.holders (s : State) (bondId : Nat) : List Address :=
  (s.holderBalance.keys.filter fun k => k.1 = bondId).map Prod.snd

/-- A bond's holders are listed once each. -/
theorem State.nodup_holders (s : State) (b : Nat) : (s.holders b).Nodup := by
  apply List.Nodup.map_on
  · intro k hk k' hk' hsnd
    have hfst : k.1 = k'.1 := by
      rw [List.mem_filter, decide_eq_true_eq] at hk hk'
      rw [hk.2, hk'.2]
    exact Prod.ext hfst hsnd
  · exact s.holderBalance.keys_nodup.filter _

/-- Whoever has tokens of a bond is among its holders. -/
theorem State.mem_holders_of_read {s : State} {b : Nat} {holder : Address}
    (h : s.holderBalance.read (b, holder) ≠ 0) : holder ∈ s.holders b := by
  have hkey : (b, holder) ∈ s.holderBalance.keys := by
    cases hget : s.holderBalance.get (b, holder) with
    | none => simp [Storage.read, hget] at h
    | some amount => exact AList.lookup_isSome.mp (Option.isSome_of_mem hget)
  exact List.mem_map.mpr ⟨(b, holder), List.mem_filter.mpr ⟨hkey, by simp⟩, rfl⟩

/-- The stored balances of a bond add up to what its holders have. -/
theorem State.sum_holders (s : State) (b : Nat) :
    ((s.holders b).map fun holder => s.holderBalance.read (b, holder)).sum = s.heldTotal b := by
  have hkeys : (s.holders b).map (fun holder => (b, holder)) =
      s.holderBalance.keys.filter fun k => k.1 = b := by
    unfold State.holders
    rw [List.map_map]
    refine (List.map_congr_left fun k hk => ?_).trans (List.map_id _)
    rw [List.mem_filter, decide_eq_true_eq] at hk
    exact Prod.ext hk.2.symm rfl
  have hnodup : ((s.holders b).map fun holder => (b, holder)).Nodup :=
    (s.nodup_holders b).map fun _ _ h => (Prod.mk.inj h).2
  have hsum := sum_read_eq_sumOn (fun k : Nat × Address => k.1 = b) (s := s.holderBalance) hnodup
    (fun k hk => by
      obtain ⟨holder, -, rfl⟩ := List.mem_map.mp hk
      rfl)
    (fun k hk hne => by
      obtain ⟨b', holder⟩ := k
      obtain rfl : b' = b := hk
      exact List.mem_map.mpr ⟨holder, State.mem_holders_of_read hne, rfl⟩)
  rw [List.map_map] at hsum
  exact hsum

/-- Where the aggregate fits, no holder's liability saturates. -/
theorem holderRedemptionLiability_eq {s : State} {b : Nat} {config : BondConfig}
    {state : BondState} (hs : SupplyInvariant s) (hconfig : s.bondConfig.get b = some config)
    (hstate : s.bondState.get b = some state)
    (hfits : i128.Fits (state.totalSubscribed * config.faceValue)) (holder : Address) :
    holderRedemptionLiability s b holder =
      .ok (s.holderBalance.read (b, holder) * config.faceValue) := by
  have hface := hs.face_pos b config hconfig
  have hnonneg := hs.balance_nonneg (b, holder)
  have hle : s.holderBalance.read (b, holder) ≤ state.totalSubscribed :=
    subscribedTotal_of_get hstate ▸ hs.balance_le b holder
  have hproduct : i128.Fits (s.holderBalance.read (b, holder) * config.faceValue) :=
    hfits.of_nonneg_of_le _ (Int.mul_nonneg hnonneg hface.le)
      (Int.mul_le_mul_of_nonneg_right hle hface.le)
  unfold holderRedemptionLiability
  dsimp only
  split
  · next hzero =>
      rw [hzero, Int.zero_mul]
      rfl
  · have hclamp : i128.saturatingMul (s.holderBalance.read (b, holder)) config.faceValue =
        s.holderBalance.read (b, holder) * config.faceValue := clamp_of_fits _ hproduct
    rw [hconfig, ← hclamp]
    rfl

/-- **Liabilities add up.**  In every run, whenever the coverage of a bond is
reported, every address has a liability, only the holders owe their share to
it, the liabilities of the holders sum to the principal due, and the shortfall
is what the pool lacks of it. -/
theorem liabilities_add_up (admin : Address) (txs : List Tx) (bondId : Nat)
    (coverage : RedemptionCoverage)
    (hok : redemptionCoverage (machine.run (constructor admin) txs) bondId = .ok coverage) :
    let s := machine.run (constructor admin) txs
    (∃ liability : Address → Int,
      (∀ holder, holderRedemptionLiability s bondId holder = .ok (liability holder)) ∧
      (∀ holder, holder ∉ s.holders bondId → liability holder = 0) ∧
      ((s.holders bondId).map liability).sum = coverage.totalPrincipalDue) ∧
    (s.holders bondId).Nodup ∧
    coverage.shortfall = max 0 (coverage.totalPrincipalDue - getRedemptionPool s bondId) := by
  intro s
  have hs : SupplyInvariant s := supplyInvariant_run admin txs
  obtain ⟨config, hconfig, state, hstate, hfits, hdue, -, hshortfall, -⟩ :=
    redemptionCoverage_ok_iff.mp hok
  refine ⟨⟨fun holder => s.holderBalance.read (bondId, holder) * config.faceValue,
    holderRedemptionLiability_eq hs hconfig hstate hfits, ?_, ?_⟩, s.nodup_holders bondId, ?_⟩
  · intro holder hout
    have hzero : s.holderBalance.read (bondId, holder) = 0 := by
      by_contra hne
      exact hout (State.mem_holders_of_read hne)
    simp only [hzero, Int.zero_mul]
  · calc ((s.holders bondId).map fun holder =>
          s.holderBalance.read (bondId, holder) * config.faceValue).sum
        = s.heldTotal bondId * config.faceValue := by
          rw [List.sum_map_mul_right, s.sum_holders]
      _ = state.totalSubscribed * config.faceValue := by
          rw [hs.held_eq, subscribedTotal_of_get hstate]
      _ = coverage.totalPrincipalDue := hdue.symm
  · show coverage.shortfall = max 0 (coverage.totalPrincipalDue - s.redemptionPool.read bondId)
    rw [hshortfall]
    change (if _ > s.redemptionPool.read bondId then _ - s.redemptionPool.read bondId else 0) = _
    split <;> omega

/-- The holders of the sample bond are owed face value 100 for 550 tokens. -/
theorem liabilities_add_up_sample : ∃ liability : Address → Int,
    (∀ holder, holderRedemptionLiability (machine.run (constructor 0) sampleTxs) 1 holder =
      .ok (liability holder)) ∧
    (((machine.run (constructor 0) sampleTxs).holders 1).map liability).sum = 55000 := by
  have hok : redemptionCoverage (machine.run (constructor 0) sampleTxs) 1 =
      .ok ⟨55000, 65000, 0, 10000⟩ := by decide +kernel
  obtain ⟨⟨liability, heach, -, hsum⟩, -⟩ := liabilities_add_up 0 sampleTxs 1 _ hok
  exact ⟨liability, heach, hsum⟩

/-! ## The covered fraction -/

/-- No whole multiple of the principal, up to the covered part in basis points,
is beyond `u128`. -/
def NoMultipleLost (funded due : Int) : Prop :=
  ∀ k : Int, k * due ≤ min funded due * 10000 → k * due ≤ u128.hi

/-- The quotient of the smaller is the smaller of the quotients. -/
theorem min_ediv {a b c : Int} (hc : 0 < c) : min a b / c = min (a / c) (b / c) := by
  rcases Int.le_total a b with hle | hle
  · rw [min_eq_left hle, min_eq_left (Int.ediv_le_ediv hc hle)]
  · rw [min_eq_right hle, min_eq_right (Int.ediv_le_ediv hc hle)]

/-- The exact fraction of a positive principal, with the minimum outside. -/
theorem exactFractionBps_eq {funded due : Int} (hdue : 0 < due) :
    exactFractionBps funded due = min (funded * 10000 / due) 10000 := by
  have hwhole : due * 10000 / due = 10000 := Int.mul_ediv_cancel_left _ hdue.ne'
  have hsplit : min funded due * 10000 = min (funded * 10000) (due * 10000) := by omega
  unfold exactFractionBps
  rw [if_neg hdue.ne', hsplit, min_ediv hdue, hwhole]

/-- The saturated product gives the exact fraction of a positive principal exactly
if its largest whole multiple of the principal is not lost. -/
theorem saturated_quotient_eq_iff {funded due : Int} (hfunded : 0 ≤ funded) (hdue : 0 < due) :
    min (u128.saturatingMul funded 10000 / due) 10000 = exactFractionBps funded due ↔
      NoMultipleLost funded due := by
  have hclamp : u128.saturatingMul funded 10000 = min (funded * 10000) u128.hi :=
    clamp_of_nonneg _ (Int.mul_nonneg hfunded (by decide))
  have hcomputed : min (u128.saturatingMul funded 10000 / due) 10000 =
      min (exactFractionBps funded due) (u128.hi / due) := by
    rw [hclamp, min_ediv hdue, exactFractionBps_eq hdue, min_right_comm]
  have hquotient : exactFractionBps funded due = min funded due * 10000 / due := if_neg hdue.ne'
  rw [hcomputed, min_eq_left_iff, Int.le_ediv_iff_mul_le hdue]
  constructor
  · intro hlargest k hk
    have hle : k ≤ exactFractionBps funded due := by
      rw [hquotient]
      exact (Int.le_ediv_iff_mul_le hdue).mpr hk
    exact (Int.mul_le_mul_of_nonneg_right hle hdue.le).trans hlargest
  · intro hnone
    apply hnone
    rw [hquotient]
    exact Int.ediv_mul_le _ hdue.ne'

/-- A bond without principal is covered, however the product comes out. -/
theorem saturated_fraction_eq_iff {funded due : Int} (hfunded : 0 ≤ funded) (hdue : 0 ≤ due) :
    (if due = 0 then 10000 else min (u128.saturatingMul funded 10000 / due) 10000) =
        exactFractionBps funded due ↔ NoMultipleLost funded due := by
  rcases hdue.eq_or_lt with rfl | hpos
  · simp [exactFractionBps, NoMultipleLost, u128]
  · rw [if_neg hpos.ne']
    exact saturated_quotient_eq_iff hfunded hpos

/-- Exactly the bonds without a shortfall are covered in full. -/
theorem exactFractionBps_eq_whole_iff (funded : Int) {due : Int} (hdue : 0 ≤ due) :
    exactFractionBps funded due = 10000 ↔ due ≤ funded ∨ due = 0 := by
  rcases hdue.eq_or_lt with rfl | hpos
  · simp [exactFractionBps]
  · rw [exactFractionBps_eq hpos, min_eq_right_iff, Int.le_ediv_iff_mul_le hpos]
    omega

/-- The fraction reported for amounts that are nonnegative `i128`s. -/
theorem coverageFractionBps_eq {funded due : Int} {bps : Nat}
    (hbps : bps = (if due = 0 then 10000
      else min (u128.saturatingMul (u128.wrap funded) 10000 / u128.wrap due) 10000 : Int).toNat)
    (hdueFits : i128.Fits due) (hfundedFits : i128.Fits funded) (hdue : 0 ≤ due)
    (hfunded : 0 ≤ funded) :
    (bps : Int) = if due = 0 then 10000 else min (u128.saturatingMul funded 10000 / due) 10000 := by
  have hunsigned : ∀ {x : Int}, i128.Fits x → 0 ≤ x → u128.wrap x = x := by
    intro x hx hx0
    apply wrap_of_fits
    have hhi := hx.2
    constructor
    · exact hx0
    · simp only [u128, i128] at *
      omega
  have hquotient : 0 ≤ u128.saturatingMul funded 10000 / due :=
    Int.ediv_nonneg (clamp_nonneg _ (Int.mul_nonneg hfunded (by decide))) hdue
  rw [hbps, hunsigned hdueFits hdue, hunsigned hfundedFits hfunded]
  split <;> omega

/-- **When the covered fraction is exact.**  In every run a reported coverage
has the exact fraction, and is 10000 exactly when there is no shortfall, if and
only if no whole multiple of the principal is lost beyond `u128`. -/
theorem coverage_exact_iff (admin : Address) (txs : List Tx) (bondId : Nat)
    (config : BondConfig) (state : BondState) (coverage : RedemptionCoverage)
    (hconfig : getBond (machine.run (constructor admin) txs) bondId = .ok config)
    (hstate : getBondState (machine.run (constructor admin) txs) bondId = .ok state)
    (hok : redemptionCoverage (machine.run (constructor admin) txs) bondId = .ok coverage) :
    ((coverage.coverageFractionBps : Int) =
        exactFractionBps coverage.fundedAmount coverage.totalPrincipalDue ∧
      (coverage.coverageFractionBps = 10000 ↔ coverage.shortfall = 0)) ↔
      NoMultipleLost (getRedemptionPool (machine.run (constructor admin) txs) bondId)
        (state.totalSubscribed * config.faceValue) := by
  have hs := supplyInvariant_run admin txs
  have hp := poolInvariant_run admin txs
  obtain ⟨config', hconfig', state', hstate', hfits, hdue, hfunded, hshortfall, hbps⟩ :=
    redemptionCoverage_ok_iff.mp hok
  obtain rfl : config' = config := Option.some.inj (hconfig'.symm.trans (okOr_ok_iff.mp hconfig))
  obtain rfl : state' = state := Option.some.inj (hstate'.symm.trans (okOr_ok_iff.mp hstate))
  have hpool : getRedemptionPool (machine.run (constructor admin) txs) bondId =
      coverage.fundedAmount := hfunded.symm
  have hsubscribed : 0 ≤ state'.totalSubscribed :=
    subscribedTotal_of_get hstate' ▸ hs.subscribed_nonneg bondId
  have hduePos : 0 ≤ coverage.totalPrincipalDue :=
    hdue ▸ Int.mul_nonneg hsubscribed (hs.face_pos bondId config' hconfig').le
  have hfundedPos : 0 ≤ coverage.fundedAmount := hfunded ▸ hp.nonneg bondId
  rw [hpool, ← hdue]
  rw [← hdue] at hfits
  rw [← hfunded] at hshortfall hbps
  have hreported := coverageFractionBps_eq hbps hfits (hfunded ▸ hp.fits bondId) hduePos hfundedPos
  have hexact := saturated_fraction_eq_iff hfundedPos hduePos
  rw [← hreported] at hexact
  have hwhole := exactFractionBps_eq_whole_iff coverage.fundedAmount hduePos
  constructor
  · intro h
    exact hexact.mp h.1
  · intro h
    have hvalue := hexact.mpr h
    refine ⟨hvalue, ?_⟩
    rw [← hvalue] at hwhole
    rw [hshortfall]
    split <;> omega

/-- In the sample run the coverage is the exact fraction. -/
theorem coverage_exact_iff_sample : (10000 : Int) = exactFractionBps 65000 55000 :=
  ((coverage_exact_iff 0 sampleTxs 1 sampleConfig ⟨550, .matured, 1⟩ ⟨55000, 65000, 0, 10000⟩
    (by decide +kernel) (by decide +kernel) (by decide +kernel)).mpr (by
      intro k hk
      have hpool : getRedemptionPool (machine.run (constructor 0) sampleTxs) 1 = 65000 := by
        decide +kernel
      rw [hpool] at hk
      simp only [sampleConfig, u128] at hk ⊢
      omega)).1

/-- One token of a high face value is subscribed to and funded in full. -/
def highFaceValue : List Tx := [
  sampleTx 1 0 (.issueBond 0 { sampleConfig with faceValue := 10 ^ 36 } 0),
  sampleTx 2 1 (.subscribe 1 1 1 0),
  sampleTx 3 0 (.fundRedemption 0 1 (10 ^ 36) 1)]

/-- A bond that is funded in full is reported as covered to 340 basis points. -/
theorem full_coverage_reported_short :
    redemptionCoverage (machine.run (constructor 0) highFaceValue) 1 =
        .ok ⟨10 ^ 36, 10 ^ 36, 0, 340⟩ ∧
      exactFractionBps (10 ^ 36) (10 ^ 36) = 10000 := by
  constructor <;> decide +kernel

end EcoMint.BondIssuer
