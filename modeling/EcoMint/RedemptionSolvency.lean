import EcoMint.BondSupply
import Mathlib.Tactic.Ring

/-!
# Redemption solvency

The redemption pool of a bond is exactly what was funded minus the face value
of what was redeemed, and it never goes below zero.  Once a matured bond's pool
covers all its tokens at face value it stays covered, because redeeming `a`
tokens takes `a * face_value` off both sides; a covered bond refuses no holder.

`BondStep` says once what a call can do to one bond after it was issued; the
two results read it off.
-/

namespace EcoMint.BondIssuer

open Fallible IntRange Storage

/-- What a successful call pays into a bond's pool. -/
def fundedBy (bondId : Nat) : Call → Int
  | .fundRedemption _ b amount _ => if b = bondId then amount else 0
  | _ => 0

/-- The tokens of a bond that a successful call redeems. -/
def redeemedBy (bondId : Nat) : Call → Int
  | .redeem _ b amount _ => if b = bondId then amount else 0
  | _ => 0

/-- All funding of a bond in a run. -/
def fundedTotal (bondId : Nat) (l : List (Event State Tx Output)) : Int :=
  Machine.total (fun e => fundedBy bondId e.input.call) l

/-- All tokens of a bond redeemed in a run. -/
def redeemedTotal (bondId : Nat) (l : List (Event State Tx Output)) : Int :=
  Machine.total (fun e => redeemedBy bondId e.input.call) l

/-- What one successful call does to the pool, the configuration and the record
of bond `b`. -/
inductive BondStep (s s' : State) (b : Nat) (call : Call) : Prop
  | unissued (hnone : s.bondConfig.get b = none)
      (hpool : s'.redemptionPool.read b = s.redemptionPool.read b)
      (hfunded : fundedBy b call = 0) (hredeemed : redeemedBy b call = 0)
  | steady (config : BondConfig) (hconfig : s.bondConfig.get b = some config)
      (hconfig' : s'.bondConfig.get b = some config)
      (hpool : s'.redemptionPool.read b = s.redemptionPool.read b)
      (hfunded : fundedBy b call = 0) (hredeemed : redeemedBy b call = 0)
      (hmatured : ∀ state, s.bondState.get b = some state → state.status = .matured →
        s'.bondState.get b = some state)
  | funded (config : BondConfig) (hconfig : s.bondConfig.get b = some config)
      (hconfig' : s'.bondConfig.get b = some config) (hpos : 0 < fundedBy b call)
      (hfits : i128.Fits (s.redemptionPool.read b + fundedBy b call))
      (hpool : s'.redemptionPool.read b = s.redemptionPool.read b + fundedBy b call)
      (hredeemed : redeemedBy b call = 0)
      (hstate : s'.bondState.get b = s.bondState.get b)
  | redeemed (config : BondConfig) (state : BondState)
      (hconfig : s.bondConfig.get b = some config)
      (hconfig' : s'.bondConfig.get b = some config)
      (hstate : s.bondState.get b = some state)
      (hstate' : s'.bondState.get b =
        some { state with totalSubscribed := state.totalSubscribed - redeemedBy b call })
      (hpos : 0 < redeemedBy b call)
      (henough : redeemedBy b call * config.faceValue ≤ s.redemptionPool.read b)
      (hpool : s'.redemptionPool.read b =
        s.redemptionPool.read b - redeemedBy b call * config.faceValue)
      (hfunded : fundedBy b call = 0)

/-- A call that leaves the pool and the configuration of `b` alone, and its
record too unless the bond is still active. -/
theorem BondStep.untouched {s s' : State} {b : Nat} {call : Call}
    (hpool : s'.redemptionPool.read b = s.redemptionPool.read b)
    (hconfig : s'.bondConfig.get b = s.bondConfig.get b)
    (hmatured : ∀ state, s.bondState.get b = some state → state.status = .matured →
      s'.bondState.get b = some state)
    (hfunded : fundedBy b call = 0) (hredeemed : redeemedBy b call = 0) :
    BondStep s s' b call := by
  cases hget : s.bondConfig.get b with
  | none => exact .unissued hget hpool hfunded hredeemed
  | some config => exact .steady config hget (hconfig.trans hget) hpool hfunded hredeemed hmatured

/-- Rewriting the record of an active bond does not touch a matured one. -/
theorem matured_get_set {s : State} {b b' : Nat} {active record state : BondState}
    (hactive : s.bondState.get b' = some active) (hstatus : active.status = .active)
    (hget : s.bondState.get b = some state) (hmatured : state.status = .matured) :
    (s.bondState.set b' record).get b = some state := by
  have hne : b ≠ b' := by
    rintro rfl
    obtain rfl : active = state := by simpa [hactive] using hget
    simp [hstatus] at hmatured
  rw [get_set_ne _ _ hne, hget]

/-- Issuing a bond is a step of every bond. -/
theorem bondStep_issueBond {env : Env} {registries : Registries} {s s' : State}
    {caller : Address} {config : BondConfig} {nonce bondId : Nat} (hs : SupplyInvariant s)
    (h : issueBond env registries s caller config nonce = .ok (bondId, s')) (b : Nat) :
    BondStep s s' b (.issueBond caller config nonce) := by
  obtain ⟨-, -, -, -, -, rfl⟩ := issueBond_ok h
  by_cases hb : b = s.bondCount + 1
  · have hnone := hs.unissued b (by omega)
    have hconfig := hs.issued_iff b
    exact .unissued (by simpa [hnone] using hconfig) rfl rfl rfl
  · refine .untouched rfl (get_set_ne _ _ hb) (fun state hget _ => ?_) rfl rfl
    exact (get_set_ne _ _ hb).trans hget

/-- Funding a redemption is a step of every bond. -/
theorem bondStep_fundRedemption {env : Env} {s s' : State} {caller : Address} {bondId : Nat}
    {amount : Int} {nonce : Nat}
    (h : fundRedemption env s caller bondId amount nonce = .ok s') (b : Nat) :
    BondStep s s' b (.fundRedemption caller bondId amount nonce) := by
  obtain ⟨-, -, -, hpos, ⟨config, hconfig⟩, hfits, rfl⟩ := fundRedemption_ok_iff.mp h
  by_cases hb : bondId = b
  · subst hb
    exact .funded config hconfig hconfig (by simpa [fundedBy]) (by simpa [fundedBy])
      (by simp [fundedBy]) rfl rfl
  · exact .untouched (read_credit_ne _ _ (Ne.symm hb)) rfl (fun _ hget _ => hget)
      (by simp [fundedBy, hb]) rfl

/-- A redemption is a step of every bond. -/
theorem bondStep_redeem {env : Env} {s s' : State} {holder : Address} {bondId : Nat}
    {amount : Int} {nonce : Nat} (h : redeem env s holder bondId amount nonce = .ok s')
    (b : Nat) : BondStep s s' b (.redeem holder bondId amount nonce) := by
  obtain ⟨-, -, hpos, state, hstate, config, hconfig, -, -, -, henough, -, -, rfl⟩ :=
    redeem_ok_iff.mp h
  by_cases hb : bondId = b
  · subst hb
    exact .redeemed config state hconfig hconfig hstate (by simp [redeemedBy])
      (by simpa [redeemedBy]) (by simpa [redeemedBy])
      (by simp [redeemedBy, Int.sub_eq_add_neg]) rfl
  · refine .untouched (read_credit_ne _ _ (Ne.symm hb)) rfl (fun record hget _ => ?_) rfl
      (by simp [redeemedBy, hb])
    exact (get_set_ne _ _ (Ne.symm hb)).trans hget

/-- **Step lemma.**  Every successful call is a `BondStep` of every bond. -/
theorem bondStep_exec {env : Env} {registries : Registries} {s s' : State} {call : Call}
    {out : Output} (hs : SupplyInvariant s)
    (h : exec env registries s call = .ok (out, s')) (b : Nat) : BondStep s s' b call := by
  cases call with
  | setAdmin currentAdmin newAdmin =>
      obtain ⟨-, -, rfl⟩ := setAdmin_ok_iff.mp (silent_ok_iff.mp h).1
      exact .untouched rfl rfl (fun _ hget _ => hget) rfl rfl
  | setProjectRegistry caller registry nonce =>
      obtain ⟨-, -, -, rfl⟩ := setProjectRegistry_ok_iff.mp (silent_ok_iff.mp h).1
      exact .untouched rfl rfl (fun _ hget _ => hget) rfl rfl
  | issueBond caller config nonce =>
      simp only [exec, bind_ok_iff, pure_ok_iff, Prod.mk.injEq] at h
      obtain ⟨⟨bondId, s''⟩, hissue, -, rfl⟩ := h
      exact bondStep_issueBond hs hissue b
  | subscribe investor bondId amount nonce =>
      obtain ⟨-, -, -, config, -, state, hstate, hactive, -, -, -, -, rfl⟩ :=
        subscribe_ok_iff.mp (silent_ok_iff.mp h).1
      exact .untouched rfl rfl (fun _ => matured_get_set hstate hactive) rfl rfl
  | transfer sender recipient bondId amount nonce =>
      obtain ⟨-, -, -, -, -, -, -, -, -, -, -, -, -, rfl⟩ :=
        transfer_ok_iff.mp (silent_ok_iff.mp h).1
      exact .untouched rfl rfl (fun _ hget _ => hget) rfl rfl
  | fundRedemption caller bondId amount nonce =>
      exact bondStep_fundRedemption (silent_ok_iff.mp h).1 b
  | redeem holder bondId amount nonce => exact bondStep_redeem (silent_ok_iff.mp h).1 b
  | matureBond caller bondId nonce =>
      obtain ⟨-, -, -, config, -, state, hstate, hactive, -, rfl⟩ :=
        matureBond_ok_iff.mp (silent_ok_iff.mp h).1
      exact .untouched rfl rfl (fun _ => matured_get_set hstate hactive) rfl rfl

/-- A bond keeps its configuration for ever. -/
theorem bondConfig_exec {env : Env} {registries : Registries} {s s' : State} {call : Call}
    {out : Output} {b : Nat} {config : BondConfig} (hs : SupplyInvariant s)
    (h : exec env registries s call = .ok (out, s')) (hget : s.bondConfig.get b = some config) :
    s'.bondConfig.get b = some config := by
  cases bondStep_exec hs h b with
  | unissued hnone => simp [hget] at hnone
  | steady config' hbefore hafter => rw [hafter, ← hbefore, hget]
  | funded config' hbefore hafter => rw [hafter, ← hbefore, hget]
  | redeemed config' _ hbefore hafter => rw [hafter, ← hbefore, hget]

/-! ## The pool ledger -/

/-- The pool of every bond is its funding minus what it paid out, and holds a
nonnegative `i128`. -/
structure PoolInvariant (s : State) (l : List (Event State Tx Output)) : Prop where
  unissued : ∀ b, s.bondConfig.get b = none →
    redeemedTotal b l = 0 ∧ s.redemptionPool.read b = fundedTotal b l
  ledger : ∀ b config, s.bondConfig.get b = some config →
    s.redemptionPool.read b = fundedTotal b l - config.faceValue * redeemedTotal b l
  nonneg : ∀ b, 0 ≤ s.redemptionPool.read b
  fits : ∀ b, i128.Fits (s.redemptionPool.read b)

theorem poolInvariant_constructor (admin : Address) : PoolInvariant (constructor admin) [] where
  unissued b _ := by simp [constructor, redeemedTotal, fundedTotal]
  ledger b config h := by simp [constructor] at h
  nonneg b := by simp [constructor]
  fits b := by simp only [constructor, read_empty]; decide

/-- **Step lemma.**  A call that is a `BondStep` of every bond keeps the ledger. -/
theorem PoolInvariant.snoc {l : List (Event State Tx Output)} {e : Event State Tx Output}
    (hs : SupplyInvariant e.before) (hp : PoolInvariant e.before l)
    (hstep : ∀ b, BondStep e.before e.after b e.input.call) :
    PoolInvariant e.after (l ++ [e]) := by
  have hfunded : ∀ b, fundedTotal b (l ++ [e]) = fundedTotal b l + fundedBy b e.input.call :=
    fun b => Machine.total_snoc _ l e
  have hredeemed : ∀ b,
      redeemedTotal b (l ++ [e]) = redeemedTotal b l + redeemedBy b e.input.call :=
    fun b => Machine.total_snoc _ l e
  constructor
  case unissued =>
    intro b hnone'
    rw [hfunded, hredeemed]
    cases hstep b with
    | unissued hnone hpool hf hr =>
        obtain ⟨hzero, heq⟩ := hp.unissued b hnone
        omega
    | steady config _ hconfig' => simp [hconfig'] at hnone'
    | funded config _ hconfig' => simp [hconfig'] at hnone'
    | redeemed config state _ hconfig' => simp [hconfig'] at hnone'
  case ledger =>
    intro b config hconfig
    rw [hfunded, hredeemed]
    cases hstep b with
    | unissued hnone hpool hf hr =>
        obtain ⟨hzero, heq⟩ := hp.unissued b hnone
        rw [hpool, heq, hzero, hf, hr]
        simp
    | steady config' hbefore hafter hpool hf hr _ =>
        obtain rfl : config' = config := by simpa [hafter] using hconfig
        rw [hpool, hp.ledger b config' hbefore, hf, hr]
        simp
    | funded config' hbefore hafter _ _ hpool hr _ =>
        obtain rfl : config' = config := by simpa [hafter] using hconfig
        rw [hpool, hp.ledger b config' hbefore, hr]
        ring
    | redeemed config' state hbefore hafter _ _ _ _ hpool hf =>
        obtain rfl : config' = config := by simpa [hafter] using hconfig
        rw [hpool, hp.ledger b config' hbefore, hf]
        ring
  case nonneg =>
    intro b
    have := hp.nonneg b
    cases hstep b <;> omega
  case fits =>
    intro b
    have hfits := hp.fits b
    have hnonneg := hp.nonneg b
    cases hstep b with
    | unissued _ hpool => rwa [hpool]
    | steady _ _ _ hpool => rwa [hpool]
    | funded _ _ _ _ hfits' hpool => rwa [hpool]
    | redeemed config state _ _ _ _ hpos henough hpool =>
        have hpaid := Int.mul_nonneg hpos.le (hs.face_pos b config ‹_›).le
        rw [hpool]
        exact hfits.of_nonneg_of_le _ (by omega) (by omega)

/-- **Run lemma.**  The ledger holds after every run. -/
theorem poolInvariant_run (admin : Address) (txs : List Tx) :
    PoolInvariant (machine.run (constructor admin) txs) (machine.log (constructor admin) txs) := by
  refine (machine.invariant (P := fun s l => SupplyInvariant s ∧ PoolInvariant s l)
    ⟨supplyInvariant_constructor admin, poolInvariant_constructor admin⟩ ?_ txs).2
  rintro l e hfires ⟨hs, hp⟩
  exact ⟨hs.exec hfires, hp.snoc hs (bondStep_exec hs hfires)⟩

/-! ## Covered bonds -/

/-- A matured bond whose pool covers all its tokens at face value. -/
def Covered (s : State) (b : Nat) (config : BondConfig) : Prop :=
  s.bondConfig.get b = some config ∧
    ∃ state, s.bondState.get b = some state ∧ state.status = .matured ∧
      state.totalSubscribed * config.faceValue ≤ s.redemptionPool.read b

/-- Redeeming takes the same amount off the liability and off the pool; every
other call leaves the liability alone and never lowers the pool. -/
theorem Covered.step {s s' : State} {b : Nat} {config : BondConfig} {call : Call}
    (hc : Covered s b config) (hstep : BondStep s s' b call) : Covered s' b config := by
  obtain ⟨hconfig, state, hstate, hmatured, hcover⟩ := hc
  cases hstep with
  | unissued hnone => simp [hconfig] at hnone
  | steady config' hget hget' hpool _ _ hkeep =>
      obtain rfl : config' = config := by simpa [hget] using hconfig
      exact ⟨hget', state, hkeep state hstate hmatured, hmatured, hpool ▸ hcover⟩
  | funded config' hget hget' hpos _ hpool _ hkeep =>
      obtain rfl : config' = config := by simpa [hget] using hconfig
      exact ⟨hget', state, hkeep.trans hstate, hmatured, by omega⟩
  | redeemed config' state' hget hget' hrecord hrecord' _ _ hpool _ =>
      obtain rfl : config' = config := by simpa [hget] using hconfig
      obtain rfl : state' = state := by simpa [hrecord] using hstate
      refine ⟨hget', _, hrecord', hmatured, ?_⟩
      rw [hpool, Int.sub_mul]
      omega

/-- A covered bond stays covered in every later state. -/
theorem Covered.run {s : State} {b : Nat} {config : BondConfig} (hs : SupplyInvariant s)
    (hc : Covered s b config) (later : List Tx) : Covered (machine.run s later) b config := by
  refine (machine.invariant (P := fun s _ => SupplyInvariant s ∧ Covered s b config)
    ⟨hs, hc⟩ ?_ later).2
  rintro l e hfires ⟨hs, hc⟩
  exact ⟨hs.exec hfires, hc.step (bondStep_exec hs hfires b)⟩

/-- A covered bond pays any holder any part of the holder's tokens: the payout
is at most the pool, so neither it nor the remaining amounts overflow. -/
theorem Covered.redeem_ok {s : State} {b : Nat} {config : BondConfig} {env : Env}
    {holder : Address} {amount : Int} {l : List (Event State Tx Output)}
    (hs : SupplyInvariant s) (hp : PoolInvariant s l) (hc : Covered s b config)
    (hauth : env.Authorizes holder) (hpos : 0 < amount)
    (henough : amount ≤ s.holderBalance.read (b, holder)) :
    ∃ s', redeem env s holder b amount (s.nonce.read holder) = .ok s' := by
  obtain ⟨hconfig, state, hstate, hmatured, hcover⟩ := hc
  have hheld : s.holderBalance.read (b, holder) ≤ state.totalSubscribed :=
    subscribedTotal_of_get hstate ▸ hs.balance_le b holder
  have hface := hs.face_pos b config hconfig
  have hpaid : 0 ≤ amount * config.faceValue := Int.mul_nonneg hpos.le hface.le
  have hpayout : amount * config.faceValue ≤ s.redemptionPool.read b := by
    calc amount * config.faceValue
        ≤ state.totalSubscribed * config.faceValue :=
          Int.mul_le_mul_of_nonneg_right (henough.trans hheld) hface.le
      _ ≤ s.redemptionPool.read b := hcover
  have htotal : state.totalSubscribed ≤ MAX_SUPPLY := by
    obtain ⟨hcap, hmax⟩ := hs.supply_le b config hconfig
    exact subscribedTotal_of_get hstate ▸ hcap.trans hmax
  have hmax : i128.Fits MAX_SUPPLY := by decide
  exact ⟨_, redeem_ok_iff.mpr ⟨hauth, rfl, hpos, state, hstate, config, hconfig, hmatured,
    henough, (hp.fits b).of_nonneg_of_le _ hpaid hpayout, hpayout,
    hmax.of_nonneg_of_le _ (by omega) (by omega), hmax.of_nonneg_of_le _ (by omega) (by omega),
    rfl⟩⟩

/-- **Redemption solvency.**  In every reachable state the pool of a bond is its
funding minus face value times the tokens redeemed, and is nonnegative.  Once
the bond is matured and the pool covers all its tokens, every later state is
covered too, and every authorised redemption of at most the holder's balance
with the current nonce succeeds there. -/
theorem redemption_solvent (admin : Address) (txs : List Tx) (bondId : Nat)
    (config : BondConfig)
    (hconfig : getBond (machine.run (constructor admin) txs) bondId = .ok config) :
    (getRedemptionPool (machine.run (constructor admin) txs) bondId =
        fundedTotal bondId (machine.log (constructor admin) txs) -
          config.faceValue * redeemedTotal bondId (machine.log (constructor admin) txs) ∧
      0 ≤ getRedemptionPool (machine.run (constructor admin) txs) bondId) ∧
    ∀ state, getBondState (machine.run (constructor admin) txs) bondId = .ok state →
      state.status = .matured →
      state.totalSubscribed * config.faceValue ≤
        getRedemptionPool (machine.run (constructor admin) txs) bondId →
      ∀ later : List Tx,
        getBond (machine.run (constructor admin) (txs ++ later)) bondId = .ok config ∧
        (∃ state',
          getBondState (machine.run (constructor admin) (txs ++ later)) bondId = .ok state' ∧
          state'.status = .matured ∧
          state'.totalSubscribed * config.faceValue ≤
            getRedemptionPool (machine.run (constructor admin) (txs ++ later)) bondId) ∧
        ∀ env holder amount, env.Authorizes holder → 0 < amount →
          amount ≤ getHolderBalance (machine.run (constructor admin) (txs ++ later))
            bondId holder →
          ∃ s', redeem env (machine.run (constructor admin) (txs ++ later)) holder bondId amount
            (getNonce (machine.run (constructor admin) (txs ++ later)) holder) = .ok s' := by
  have hs := supplyInvariant_run admin txs
  have hp := poolInvariant_run admin txs
  have hget := okOr_ok_iff.mp hconfig
  refine ⟨⟨hp.ledger bondId config hget, hp.nonneg bondId⟩, ?_⟩
  intro state hstate hmatured hcover later
  have hcovered : Covered (machine.run (constructor admin) (txs ++ later)) bondId config := by
    rw [Machine.run_append]
    exact Covered.run hs ⟨hget, state, okOr_ok_iff.mp hstate, hmatured, hcover⟩ later
  obtain ⟨hget', state', hstate', hmatured', hcover'⟩ := hcovered
  refine ⟨okOr_ok_iff.mpr hget', ⟨state', okOr_ok_iff.mpr hstate', hmatured', hcover'⟩, ?_⟩
  intro env holder amount hauth hpos henough
  exact Covered.redeem_ok (supplyInvariant_run admin _) (poolInvariant_run admin _)
    ⟨hget', state', hstate', hmatured', hcover'⟩ hauth hpos henough

/-- The sample bond after maturity, fully funded and partly redeemed. -/
theorem redemption_solvent_sample :
    getRedemptionPool (machine.run (constructor 0) sampleTxs) 1 = 70000 - 100 * 50 ∧
      ∃ s', redeem ⟨103, [1], none, 9, false⟩ (machine.run (constructor 0) sampleTxs) 1 1 400
        (getNonce (machine.run (constructor 0) sampleTxs) 1) = .ok s' := by
  obtain ⟨⟨hpool, -⟩, hsolvent⟩ := redemption_solvent 0 sampleTxs 1 sampleConfig rfl
  obtain ⟨-, -, hredeem⟩ := hsolvent ⟨550, .matured, 1⟩ rfl rfl (by decide) []
  exact ⟨hpool, hredeem ⟨103, [1], none, 9, false⟩ 1 400 (by decide) (by decide) (by decide)⟩

end EcoMint.BondIssuer
