import EcoMint.OracleQuorum
import EcoMint.OracleStake

/-!
# What a slash takes

A slash multiplies the stake before it divides, with the plain `i128` product.
As long as the product fits, it takes a tenth of the stake, or all of a stake
below ten.  Beyond that it traps or takes something else, depending on the
build.

`preview_slash` computes the same penalty but derives the activity from the
stake that remains, where a slash keeps the flag it finds.
-/

namespace EcoMint.OracleConsumer

open Fallible Storage IntRange

/-- The largest stake whose product with the penalty rate is an `i128`. -/
def maxExactStake : Int := i128.hi / SLASH_PENALTY_PPM

/-- The slash succeeds, takes a tenth, and deactivates the provider exactly if
nothing remains. -/
def SlashesTenth (env : Env) (s : State) (provider : Address) (reportId : Nat)
    (p : OracleProvider) : Prop :=
  ∃ s', slashProvider env s provider reportId = .ok s' ∧
    s'.provider.get provider = some { p with
      stake := p.stake - tenth p.stake
      active := if p.stake - tenth p.stake = 0 then false else p.active }

/-- A slash right after a preview puts on record what the preview said. -/
def PreviewAgrees (env : Env) (s : State) (provider : Address) (reportId : Nat)
    (preview : SlashPreview) : Prop :=
  ∃ s' record, slashProvider env s provider reportId = .ok s' ∧
    getSlashHistory s' provider = getSlashHistory s provider ++ [record] ∧
    record.reportId = reportId ∧ record.penalty = preview.penalty ∧
    record.remainingStake = preview.remainingStake ∧ record.activeAfter = preview.activeAfter

/-! ## The penalty -/

/-- Exactly the stakes up to the largest exact one have a product that fits. -/
theorem fits_product_iff {stake : Int} (hstake : 0 ≤ stake) :
    i128.Fits (stake * SLASH_PENALTY_PPM) ↔ stake ≤ maxExactStake := by
  have hrate : (0 : Int) < SLASH_PENALTY_PPM := by decide
  unfold maxExactStake
  rw [Int.le_ediv_iff_mul_le hrate]
  exact i128.fits_iff_of_nonneg (Int.mul_nonneg hstake hrate.le)

/-- A wrapped product never gives a tenth: it is too small by a whole `i128`
range, or it takes the whole stake. -/
theorem cutPenalty_wrapped {stake : Int} (hstake : 0 ≤ stake)
    (hwrapped : ¬ i128.Fits (stake * SLASH_PENALTY_PPM)) :
    cutPenalty stake (i128.wrap (stake * SLASH_PENALTY_PPM)) ≠ tenth stake := by
  have hrate : (0 : Int) ≤ SLASH_PENALTY_PPM := by decide
  rw [i128.fits_iff_of_nonneg (Int.mul_nonneg hstake hrate), not_le] at hwrapped
  have hsmall := wrap_le_sub i128 hwrapped
  simp only [cutPenalty, tenth, SLASH_PENALTY_PPM, i128] at *
  split_ifs <;> omega

/-- The whole stake goes exactly where the product rounds to nothing. -/
theorem cutPenalty_eq_stake_iff {stake : Int} (hstake : 0 ≤ stake) :
    cutPenalty stake (i128.wrap (stake * SLASH_PENALTY_PPM)) = stake ↔
      i128.wrap (stake * SLASH_PENALTY_PPM) < 1000000 := by
  have hrate : (0 : Int) ≤ SLASH_PENALTY_PPM := by decide
  have hle := wrap_le i128 (Int.mul_nonneg hstake hrate)
  simp only [cutPenalty, SLASH_PENALTY_PPM] at *
  split_ifs <;> omega

/-- A slash goes through exactly when its product fits or the build lets it wrap, and
then takes what was computed. -/
theorem slashProvider_after (env : Env) {s s' : State} {provider : Address} (reportId : Nat)
    {p : OracleProvider} (hget : s.provider.get provider = some p) :
    slashProvider env s provider reportId = .ok s' ↔
      (i128.Fits (p.stake * SLASH_PENALTY_PPM) ∨ env.overflowChecks = false) ∧
        s' = s.slash env provider reportId p
          (cutPenalty p.stake (i128.wrap (p.stake * SLASH_PENALTY_PPM))) := by
  rw [slashProvider_ok_iff]
  constructor
  · intro h
    obtain ⟨p', penalty, hget', hpenalty, rfl⟩ := h
    obtain rfl := Option.some.inj (hget'.symm.trans hget)
    obtain ⟨hbuild, rfl⟩ := slashPenalty_ok_iff.mp hpenalty
    exact ⟨hbuild, rfl⟩
  · intro h
    obtain ⟨hbuild, rfl⟩ := h
    exact ⟨p, _, hget, slashPenalty_ok_iff.mpr ⟨hbuild, rfl⟩, rfl⟩

/-- **When a slash takes a tenth.**  In every run a slash of a stored provider
succeeds and takes a tenth of its stake, and the product does not overflow, if
and only if the stake is at most the largest one whose product is an `i128`. -/
theorem slash_takes_tenth_iff (admin : Address) (txs : List Tx) (env : Env)
    (provider : Address) (reportId : Nat) (p : OracleProvider)
    (hget : getProvider (machine.run (constructor admin) txs) provider = .ok p) :
    (SlashesTenth env (machine.run (constructor admin) txs) provider reportId p ↔
        p.stake ≤ maxExactStake) ∧
      (i128.Fits (p.stake * SLASH_PENALTY_PPM) ↔ p.stake ≤ maxExactStake) := by
  have hstored := okOr_ok_iff.mp hget
  have hstake : 0 ≤ p.stake :=
    stakeOf_of_get hstored ▸ (stakeInvariant_run admin txs).nonneg provider
  refine ⟨?_, fits_product_iff hstake⟩
  rw [← fits_product_iff hstake]
  constructor
  · intro h
    obtain ⟨s', hslash, hafter⟩ := h
    obtain ⟨-, rfl⟩ := (slashProvider_after env reportId hstored).mp hslash
    by_contra hwrapped
    have htaken := congrArg OracleProvider.stake
      (Option.some.inj ((get_set_self _ _ _).symm.trans hafter))
    simp only [OracleProvider.slashed] at htaken
    exact cutPenalty_wrapped hstake hwrapped (by omega)
  · intro hfits
    have hslash := (slashProvider_after env reportId hstored).mpr ⟨Or.inl hfits, rfl⟩
    rw [wrap_of_fits _ hfits, cutPenalty_exact hstake] at hslash
    exact ⟨_, hslash, get_set_self _ _ _⟩

/-- The builds of a released contract and of a debug one. -/
def releaseEnv : Env := ⟨9, [0], none, 5, false⟩

/-- The sample environment with overflow checks. -/
def checkedEnv : Env := { releaseEnv with overflowChecks := true }

/-- A provider stakes more than the largest exact stake. -/
def largeStake : List Tx := [
  sampleTx 1 0 (.registerProvider 0 1 "VCS" 0),
  sampleTx 2 1 (.addStake 1 (2 * 10 ^ 33) 0)]

/-- A provider whose stake times the penalty exceeds what `i128` can hold. -/
def largeStakeProvider : OracleProvider := ⟨1, "VCS", 2 * 10 ^ 33, true, 1⟩

/-- In the sample run a tenth of the stake is taken. -/
theorem slash_takes_tenth_iff_sample :
    SlashesTenth releaseEnv (machine.run (constructor 0) sampleVerification) 2 1
      ⟨2, "VCS", 10000, true, 1⟩ :=
  (slash_takes_tenth_iff 0 sampleVerification releaseEnv 2 1 ⟨2, "VCS", 10000, true, 1⟩
    (by decide +kernel)).1.mpr (by decide)

/-- In a release build the provider loses everything; in a checked build the
slash traps. -/
theorem large_stake_not_slashed_by_tenth :
    getProvider (machine.run (constructor 0) largeStake) 1 = .ok largeStakeProvider ∧
      ¬ SlashesTenth releaseEnv (machine.run (constructor 0) largeStake) 1 1
        largeStakeProvider ∧
      ¬ SlashesTenth checkedEnv (machine.run (constructor 0) largeStake) 1 1
        largeStakeProvider := by
  have hrelease : (slashProvider releaseEnv (machine.run (constructor 0) largeStake) 1 1).map
      (fun s' => s'.stakeOf 1) = .ok 0 := by decide +kernel
  have hchecked : (slashProvider checkedEnv (machine.run (constructor 0) largeStake) 1 1).map
      (fun s' => s'.stakeOf 1) = .error .trap := by decide +kernel
  refine ⟨by decide +kernel, ?_, ?_⟩
  · intro h
    obtain ⟨s', hslash, hafter⟩ := h
    rw [hslash] at hrelease
    have hlost : s'.stakeOf 1 = 0 := Except.ok.inj hrelease
    rw [stakeOf_of_get hafter] at hlost
    simp [largeStakeProvider, tenth] at hlost
  · intro h
    obtain ⟨s', hslash, -⟩ := h
    rw [hslash] at hchecked
    cases hchecked

/-! ## The preview -/

/-- A stake that a call added to is an `i128`, and no call withdraws a negative
amount. -/
theorem OracleStep.stake_moves {env : Env} {s s' : State} {call : Call}
    (h : OracleStep env s s' call) (addr : Address) :
    (0 < call.stakeAdded addr → i128.Fits (s'.stakeOf addr)) ∧ 0 ≤ call.stakeWithdrawn addr := by
  cases h with
  | managed hstep =>
      cases hstep with
      | staked provider amount nonce p hcall hamount hget hrange hafter =>
          have hset : s'.provider =
              s.provider.set provider { p with stake := p.stake + amount } := by rw [hafter]
          refine ⟨fun hadded => ?_, by simp [hcall, Call.stakeWithdrawn]⟩
          have haddr : addr = provider := by
            by_contra hne
            simp [hcall, Call.stakeAdded, hne] at hadded
          rw [stakeOf_of_set hset, if_pos haddr]
          exact hrange
      | withdrawn provider amount nonce p hcall hamount hget hcovered hafter =>
          refine ⟨by simp [hcall, Call.stakeAdded], ?_⟩
          simp only [hcall, Call.stakeWithdrawn]
          split <;> omega
      | administered _ _ hcall => simp [hcall, Call.stakeAdded, Call.stakeWithdrawn]
      | registered _ _ _ _ hcall => simp [hcall, Call.stakeAdded, Call.stakeWithdrawn]
      | removed _ _ _ _ hcall => simp [hcall, Call.stakeAdded, Call.stakeWithdrawn]
      | thresholdSet _ _ _ hcall => simp [hcall, Call.stakeAdded, Call.stakeWithdrawn]
      | minimumSet _ _ _ hcall => simp [hcall, Call.stakeAdded, Call.stakeWithdrawn]
  | submitted _ _ _ hcall => simp [hcall, Call.stakeAdded, Call.stakeWithdrawn]
  | counted _ _ _ _ hcall => simp [hcall, Call.stakeAdded, Call.stakeWithdrawn]
  | verified _ _ _ _ hcall => simp [hcall, Call.stakeAdded, Call.stakeWithdrawn]
  | challenged _ _ _ _ _ hcall => simp [hcall, Call.stakeAdded, Call.stakeWithdrawn]
  | dismissed _ _ _ _ _ hcall => simp [hcall, Call.stakeAdded, Call.stakeWithdrawn]
  | upheld _ _ _ _ _ hcall => simp [hcall, Call.stakeAdded, Call.stakeWithdrawn]
  | rejected _ _ _ _ _ _ _ hcall => simp [hcall, Call.stakeAdded, Call.stakeWithdrawn]

/-- No call makes a stake leave `i128`: only adding raises one, and that is checked. -/
theorem stake_fits_step {env : Env} {s s' : State} {call : Call} (h : OracleStep env s s' call)
    (hs : ∀ addr, i128.Fits (s.stakeOf addr)) (hnonneg : ∀ addr, 0 ≤ s.stakeOf addr)
    (hnonneg' : ∀ addr, 0 ≤ s'.stakeOf addr) (addr : Address) : i128.Fits (s'.stakeOf addr) := by
  obtain ⟨hraised, hlowered⟩ := h.stake_moves addr
  have hpos' := hnonneg' addr
  cases h.stakeStep with
  | kept hstake =>
      rw [hstake]
      exact hs addr
  | added provider amount hamount hstake _ hadded =>
      by_cases haddr : addr = provider
      · apply hraised
        rw [hadded, if_pos haddr]
        exact hamount
      · rw [hstake, if_neg haddr, Int.add_zero]
        exact hs addr
  | withdrawn provider amount hcovered hstake _ hadded hwithdrawn =>
      rw [hwithdrawn] at hlowered
      refine (hs addr).of_nonneg_of_le _ hpos' ?_
      rw [hstake]
      omega
  | slashed provider record hpenalty hremaining hstake =>
      have hrecord := hpenalty (hnonneg provider)
      refine (hs addr).of_nonneg_of_le _ hpos' ?_
      rw [hstake]
      split <;> omega

/-- Every stake fits in `i128`. -/
theorem stake_fits_run (admin : Address) (txs : List Tx) (addr : Address) :
    i128.Fits ((machine.run (constructor admin) txs).stakeOf addr) := by
  have hinvariant := machine.invariant
    (P := fun s l => StakeInvariant s l ∧ ∀ addr, i128.Fits (s.stakeOf addr))
    ⟨stakeInvariant_constructor admin, fun addr => by simp [constructor, State.stakeOf]; decide⟩
    (fun l e hfires hs => ?_) txs
  · exact hinvariant.2 addr
  · have hstep := oracleStep_of_fires hfires
    have hstakes := hs.1.step hstep.stakeStep
    exact ⟨hstakes, stake_fits_step hstep hs.2 hs.1.nonneg hstakes.nonneg⟩

/-- What a preview says about a stored provider. -/
theorem previewSlash_ok {env : Env} {s : State} {provider : Address} {reportId : Nat}
    {p : OracleProvider} {preview : SlashPreview} (hget : s.provider.get provider = some p)
    (hstake : 0 ≤ p.stake) (hfits : i128.Fits p.stake)
    (h : previewSlash env s provider reportId = .ok preview) :
    (i128.Fits (p.stake * SLASH_PENALTY_PPM) ∨ env.overflowChecks = false) ∧
      preview.penalty = cutPenalty p.stake (i128.wrap (p.stake * SLASH_PENALTY_PPM)) ∧
      preview.penalty ≤ p.stake ∧ preview.remainingStake = p.stake - preview.penalty ∧
      preview.activeAfter = decide (0 < p.stake - preview.penalty) := by
  simp only [previewSlash, bind_ok_iff, pure_ok_iff, okOr_ok_iff] at h
  obtain ⟨p', hget', penalty, hpenalty, rfl⟩ := h
  obtain rfl := Option.some.inj (hget'.symm.trans hget)
  obtain ⟨hnonneg, hle⟩ := slashPenalty_bounds hpenalty hstake
  obtain ⟨hbuild, hvalue⟩ := slashPenalty_ok_iff.mp hpenalty
  have hexact : i128.saturatingSub p'.stake penalty = p'.stake - penalty :=
    clamp_of_fits _ (hfits.of_nonneg_of_le _ (by omega) (by omega))
  exact ⟨hbuild, hvalue, hle, hexact, by simp [hexact]⟩

/-- What a slash puts on record. -/
theorem getSlashHistory_slash (s : State) (env : Env) (provider : Address) (reportId : Nat)
    (p : OracleProvider) (penalty : Int) :
    getSlashHistory (s.slash env provider reportId p penalty) provider =
      getSlashHistory s provider ++
        [⟨reportId, penalty, p.stake - penalty, env.timestamp, (p.slashed penalty).active⟩] := by
  simp [getSlashHistory, State.slash]

/-- A slash that takes what a preview said agrees with it as soon as the flags do. -/
theorem previewAgrees_iff {env : Env} {s : State} {provider : Address} {reportId : Nat}
    {p : OracleProvider} {preview : SlashPreview}
    (hslash : slashProvider env s provider reportId =
      .ok (s.slash env provider reportId p preview.penalty))
    (hremaining : preview.remainingStake = p.stake - preview.penalty) :
    PreviewAgrees env s provider reportId preview ↔
      (p.slashed preview.penalty).active = preview.activeAfter := by
  constructor
  · intro h
    obtain ⟨s', record, hslash', hhistory, -, -, -, hflag⟩ := h
    obtain rfl := Except.ok.inj (hslash.symm.trans hslash')
    rw [getSlashHistory_slash] at hhistory
    obtain rfl := List.singleton_inj.mp (List.append_cancel_left hhistory)
    exact hflag
  · intro hflag
    exact ⟨_, _, hslash, getSlashHistory_slash .., rfl, rfl, hremaining.symm, hflag⟩

/-- The flag a slash leaves tells whether stake remains, for an active provider or
where none remains. -/
theorem slashed_active_eq_iff {p : OracleProvider} {penalty : Int} (hle : penalty ≤ p.stake) :
    (p.slashed penalty).active = decide (0 < p.stake - penalty) ↔
      p.active = true ∨ penalty = p.stake := by
  unfold OracleProvider.slashed
  dsimp only
  split
  · next hnone =>
      have hspent : penalty = p.stake := by omega
      simp [hspent]
  · next hsome =>
      have hleft : penalty < p.stake := by omega
      have hkept : penalty ≠ p.stake := by omega
      simp [hleft, hkept]

/-- **When the preview agrees.**  In every run a slash that follows a preview in
the same build of the contract puts on record what the preview said, if and
only if the provider is active or the product of its stake, wrapped to an
`i128`, rounds to nothing, so that no stake remains. -/
theorem preview_agrees_iff (admin : Address) (txs : List Tx) (env slashEnv : Env)
    (provider : Address) (reportId : Nat) (p : OracleProvider) (preview : SlashPreview)
    (hget : getProvider (machine.run (constructor admin) txs) provider = .ok p)
    (hbuild : slashEnv.overflowChecks = env.overflowChecks)
    (hpreview : previewSlash env (machine.run (constructor admin) txs) provider reportId =
      .ok preview) :
    PreviewAgrees slashEnv (machine.run (constructor admin) txs) provider reportId preview ↔
      p.active = true ∨ i128.wrap (p.stake * SLASH_PENALTY_PPM) < 1000000 := by
  have hstored := okOr_ok_iff.mp hget
  have hstake : 0 ≤ p.stake :=
    stakeOf_of_get hstored ▸ (stakeInvariant_run admin txs).nonneg provider
  have hfits : i128.Fits p.stake := stakeOf_of_get hstored ▸ stake_fits_run admin txs provider
  obtain ⟨hproduct, hpenalty, hle, hremaining, hactive⟩ :=
    previewSlash_ok hstored hstake hfits hpreview
  rw [← hbuild] at hproduct
  have hslash := (slashProvider_after slashEnv reportId hstored).mpr ⟨hproduct, rfl⟩
  rw [← hpenalty] at hslash
  have hall := cutPenalty_eq_stake_iff hstake
  rw [← hpenalty] at hall
  rw [previewAgrees_iff hslash hremaining, hactive, slashed_active_eq_iff hle, hall]

/-- In the sample run the preview agrees with the slash. -/
theorem preview_agrees_iff_sample :
    PreviewAgrees releaseEnv (machine.run (constructor 0) sampleVerification) 2 1
      ⟨1, 2, 10000, 1000, 9000, true⟩ :=
  (preview_agrees_iff 0 sampleVerification releaseEnv releaseEnv 2 1
    ⟨2, "VCS", 10000, true, 1⟩ ⟨1, 2, 10000, 1000, 9000, true⟩ (by decide +kernel) rfl
    (by decide +kernel)).mpr (Or.inl rfl)

/-- A provider with a stake is removed. -/
def removedProvider : List Tx := [
  sampleTx 1 0 (.registerProvider 0 1 "VCS" 0),
  sampleTx 2 1 (.addStake 1 100 0),
  sampleTx 3 0 (.removeProvider 0 1 1)]

/-- The preview calls a removed provider active after the slash; the slash does not. -/
theorem preview_revives_removed_provider :
    previewSlash releaseEnv (machine.run (constructor 0) removedProvider) 1 1 =
        .ok ⟨1, 1, 100, 10, 90, true⟩ ∧
      ¬ PreviewAgrees releaseEnv (machine.run (constructor 0) removedProvider) 1 1
        ⟨1, 1, 100, 10, 90, true⟩ := by
  refine ⟨by decide +kernel, ?_⟩
  intro h
  obtain ⟨s', record, hslash, hhistory, -, -, -, hflag⟩ := h
  have hbefore : getSlashHistory (machine.run (constructor 0) removedProvider) 1 = [] := by
    decide +kernel
  have hafter : (slashProvider releaseEnv (machine.run (constructor 0) removedProvider) 1 1).map
      (fun s' => (getSlashHistory s' 1).map SlashRecord.activeAfter) = .ok [false] := by
    decide +kernel
  rw [hslash] at hafter
  have hrecorded : (getSlashHistory s' 1).map SlashRecord.activeAfter = [false] :=
    Except.ok.inj hafter
  rw [hhistory, hbefore] at hrecorded
  simp [hflag] at hrecorded

end EcoMint.OracleConsumer
