import EcoMint.CouponAccounting

/-!
# The biodiversity total of a coupon

`compute_biodiversity_credits` saturates where the rest of the engine checks.
A total cut off at the upper end of `i128` is still too large for the checked
product that scales it to a rate, so a batch on a bond with subscribed tokens
fails rather than pay it.  What a successful batch shares out is the exact worth
of the metrics.
-/

namespace EcoMint.CouponEngine

open Fallible IntRange

/-- The results of the seven operations of `compute_biodiversity_credits`, in
their order, over any arithmetic. -/
def creditSteps (add mul div : Int → Int → Int) (habitat species units : Int) : List Int :=
  let habitatCredits := mul habitat HABITAT_CREDIT_RATE
  let speciesCredits := mul species SPECIES_CREDIT_RATE
  let areaCredits := add habitatCredits speciesCredits
  let unitCredits := mul units UNIT_CREDIT_RATE
  let credits := add areaCredits unitCredits
  let minorUnits := mul credits CREDIT_MINOR_UNITS
  [habitatCredits, speciesCredits, areaCredits, unitCredits, credits, minorUnits,
    div minorUnits HABITAT_CREDIT_RATE]

/-- The steps as the engine takes them. -/
def saturatingSteps : Int → Int → Int → List Int :=
  creditSteps i128.saturatingAdd i128.saturatingMul i128.saturatingDiv

/-- The steps over the unbounded integers. -/
def exactSteps : Int → Int → Int → List Int :=
  creditSteps (· + ·) (· * ·) Int.tdiv

/-- The last step is what the engine computes. -/
theorem saturatingSteps_getLast? (habitat species units : Int) :
    (saturatingSteps habitat species units).getLast? =
      some (computeBiodiversityCredits (.present habitat species units)) := rfl

/-- What the metrics are worth. -/
def metricsWorth (habitat species units : Int) : Int :=
  habitat * 10 ^ 6 + species * 10 ^ 5 + units * 10 ^ 6

/-- The last of the exact steps is what the metrics are worth. -/
theorem exactSteps_getLast? (habitat species units : Int) :
    (exactSteps habitat species units).getLast? = some (metricsWorth habitat species units) :=
  congrArg some (Int.mul_tdiv_cancel _ (by decide))

section Metrics

variable {habitat species units : Int} (hhabitat : 0 ≤ habitat) (hspecies : 0 ≤ species)
  (hunits : 0 ≤ units)

include hhabitat hspecies hunits

theorem metricsWorth_nonneg : 0 ≤ metricsWorth habitat species units := by
  unfold metricsWorth
  omega

/-- All clamping can be left to the product with the minor units. -/
theorem computeBiodiversityCredits_eq :
    computeBiodiversityCredits (.present habitat species units) =
      i128.saturatingDiv (i128.clamp (metricsWorth habitat species units * CREDIT_MINOR_UNITS))
        HABITAT_CREDIT_RATE := by
  have hfirst : 0 ≤ habitat * HABITAT_CREDIT_RATE := Int.mul_nonneg hhabitat (by decide)
  have hsecond : 0 ≤ species * SPECIES_CREDIT_RATE := Int.mul_nonneg hspecies (by decide)
  have hthird : 0 ≤ units * UNIT_CREDIT_RATE := Int.mul_nonneg hunits (by decide)
  have harea := Int.add_nonneg hfirst hsecond
  show i128.saturatingDiv (i128.saturatingMul (i128.saturatingAdd (i128.saturatingAdd
    (i128.clamp (habitat * HABITAT_CREDIT_RATE)) (i128.clamp (species * SPECIES_CREDIT_RATE)))
    (i128.clamp (units * UNIT_CREDIT_RATE))) CREDIT_MINOR_UNITS) HABITAT_CREDIT_RATE = _
  rw [i128.saturatingAdd_clamp hfirst hsecond, i128.saturatingAdd_clamp harea hthird,
    i128.saturatingMul_clamp (Int.add_nonneg harea hthird) (by decide)]
  rfl

/-- As long as the worth in minor units fits, no step saturates: every exact
result is between zero and that product. -/
theorem saturatingSteps_eq
    (hfits : i128.Fits (metricsWorth habitat species units * CREDIT_MINOR_UNITS)) :
    saturatingSteps habitat species units = exactSteps habitat species units := by
  unfold metricsWorth at hfits
  have hexact : ∀ x, 0 ≤ x → x ≤ (habitat * 10 ^ 6 + species * 10 ^ 5 + units * 10 ^ 6) *
      CREDIT_MINOR_UNITS → i128.clamp x = x := by
    intro x hx hle
    exact i128.clamp_of_fits (hfits.of_nonneg_of_le _ hx hle)
  have hdiv : ∀ x : Int, (x * 1000000).tdiv 1000000 = x := by
    intro x
    exact Int.mul_tdiv_cancel x (by decide)
  simp only [CREDIT_MINOR_UNITS] at hexact
  simp only [saturatingSteps, exactSteps, creditSteps, saturatingMul, saturatingAdd,
    saturatingDiv, HABITAT_CREDIT_RATE, SPECIES_CREDIT_RATE, UNIT_CREDIT_RATE,
    CREDIT_MINOR_UNITS]
  rw [hexact (habitat * 1000000) (by omega) (by omega),
    hexact (species * 100000) (by omega) (by omega),
    hexact (habitat * 1000000 + species * 100000) (by omega) (by omega),
    hexact (units * 1000000) (by omega) (by omega),
    hexact (habitat * 1000000 + species * 100000 + units * 1000000) (by omega) (by omega),
    hexact ((habitat * 1000000 + species * 100000 + units * 1000000) * 1000000) (by omega)
      (by omega), hdiv,
    hexact (habitat * 1000000 + species * 100000 + units * 1000000) (by omega) (by omega)]

end Metrics

/-- **Overflow lemma.**  A total cut off at the upper end has no rate. -/
theorem perToken_clamped {totalSubscribed rate : Int} (hpositive : 0 < totalSubscribed) :
    perToken (i128.saturatingDiv i128.hi HABITAT_CREDIT_RATE) totalSubscribed ≠ .ok rate := by
  intro h
  unfold perToken at h
  rw [if_pos ⟨hpositive, by decide⟩] at h
  obtain ⟨-, hfits, -, -⟩ := checkedRatio_ok_iff.mp h
  exact absurd hfits (by decide)

/-- A bond that pays biodiversity credits is worth what the metrics compute to. -/
theorem creditTotals_biodiversity {creditType : CreditType} {report : OracleConsumer.Report}
    {carbon biodiversity : Int}
    (hpays : creditType = .biodiversity ∨ creditType = .basket)
    (h : creditTotals creditType report = .ok (carbon, biodiversity)) :
    biodiversity = computeBiodiversityCredits report.biodiversity := by
  simp only [creditTotals, bind_ok_iff] at h
  obtain ⟨whole, -, total, -, h⟩ := h
  rcases hpays with rfl | rfl
  · obtain ⟨-, -, h⟩ := bind_ok_iff.mp h
    exact (Prod.mk.inj (pure_ok_iff.mp h)).2.symm
  · obtain ⟨-, -, h⟩ := bind_ok_iff.mp h
    exact (Prod.mk.inj (pure_ok_iff.mp h)).2.symm

/-- What a rate is computed from was not cut off. -/
theorem minorUnits_fits {habitat species units totalSubscribed rate : Int}
    (hhabitat : 0 ≤ habitat) (hspecies : 0 ≤ species) (hunits : 0 ≤ units)
    (hpositive : 0 < totalSubscribed)
    (h : perToken (computeBiodiversityCredits (.present habitat species units))
      totalSubscribed = .ok rate) :
    i128.Fits (metricsWorth habitat species units * CREDIT_MINOR_UNITS) := by
  have hworth := metricsWorth_nonneg hhabitat hspecies hunits
  rw [i128.fits_iff_of_nonneg (Int.mul_nonneg hworth (by decide))]
  by_contra hlarge
  rw [computeBiodiversityCredits_eq hhabitat hspecies hunits,
    i128.clamp_of_le (not_le.mp hlarge).le] at h
  exact perToken_clamped hpositive h

/-- **No clamped amount is paid.**  When a batch succeeds on a bond that pays
biodiversity credits and has subscribed tokens, none of the saturating operations
saturated, and the total it shared out is the exact worth of the metrics. -/
theorem biodiversity_total_exact {env : Env} {peers : Peers} {s s' : State} {caller : Address}
    (batch : Batch) {nonce : Nat} {result : CouponResult} {report : OracleConsumer.Report}
    (hreport : s.reportIn peers batch.reportId = some report)
    {habitat species units : Int} (hmetrics : report.biodiversity = .present habitat species units)
    (hhabitat : 0 ≤ habitat) (hspecies : 0 ≤ species) (hunits : 0 ≤ units)
    {creditType : CreditType} (hcreditType : s.bondCreditType.get batch.bondId = some creditType)
    (hpays : creditType = .biodiversity ∨ creditType = .basket)
    {issuer : BondIssuer.State} (hissuer : s.issuerIn peers = some issuer)
    {totalSubscribed : Int}
    (hsubscribed : BondIssuer.totalSubscribed issuer batch.bondId = .ok totalSubscribed)
    (hpositive : 0 < totalSubscribed)
    (h : distributeCouponBatch env peers s caller batch.bondId batch.periodIndex batch.holders
      batch.reportId batch.offset batch.limit nonce = .ok (result, s')) :
    saturatingSteps habitat species units = exactSteps habitat species units ∧
      ∃ f, BatchFound peers s batch f ∧ BatchWrote s s' batch f ∧
        f.biodiversityTotal = habitat * 10 ^ 6 + species * 10 ^ 5 + units * 10 ^ 6 := by
  obtain ⟨f, hfound, hwrote, -⟩ := distributeCouponBatch_ok batch h
  obtain rfl := Option.some.inj (hfound.reportIn.symm.trans hreport)
  obtain rfl := Option.some.inj (hfound.creditType.symm.trans hcreditType)
  obtain rfl := Option.some.inj (hfound.issuerIn.symm.trans hissuer)
  obtain rfl := Except.ok.inj (hfound.subscribed.symm.trans hsubscribed)
  have htotal := creditTotals_biodiversity hpays hfound.totals
  rw [hmetrics] at htotal
  have hrate := hfound.biodiversityPerToken
  rw [htotal] at hrate
  have hfits := minorUnits_fits hhabitat hspecies hunits hpositive hrate
  have hsteps := saturatingSteps_eq hhabitat hspecies hunits hfits
  refine ⟨hsteps, f, hfound, hwrote, ?_⟩
  -- the last of the steps is the total
  have hlast := congrArg List.getLast? hsteps
  rw [saturatingSteps_getLast?, exactSteps_getLast?, ← htotal] at hlast
  exact Option.some.inj hlast

/-- In the sample call no step saturates, and the batch is paid with the exact total. -/
theorem biodiversity_total_exact_sample :
    ∃ result s', distributeCoupon basketEnv basketPeers basketEngine 0 1 0 [1, 2] 1 1 =
        .ok (result, s') ∧
      saturatingSteps 2 3 4 = exactSteps 2 3 4 ∧
        ∃ f, BatchFound basketPeers basketEngine (couponBatch 1 0 [1, 2] 1) f ∧
          BatchWrote basketEngine s' (couponBatch 1 0 [1, 2] 1) f ∧
          f.biodiversityTotal = 2 * 10 ^ 6 + 3 * 10 ^ 5 + 4 * 10 ^ 6 := by
  obtain ⟨⟨result, s'⟩, h⟩ := basketCoupon_ok
  have hreport : basketEngine.reportIn basketPeers 1 = some basketReport := rfl
  have hcreditType : basketEngine.bondCreditType.get 1 = some .basket := by decide +kernel
  have hissuer : basketEngine.issuerIn basketPeers = some basketIssuer := rfl
  have hsubscribed : BondIssuer.totalSubscribed basketIssuer 1 =
      .ok (basketIssuer.subscribedTotal 1) := by decide +kernel
  exact ⟨result, s', h, biodiversity_total_exact (couponBatch 1 0 [1, 2] 1) hreport rfl
    (by decide) (by decide) (by decide) hcreditType (Or.inr rfl) hissuer hsubscribed
    (by decide +kernel) h⟩

end EcoMint.CouponEngine
