import EcoMint.BondIssuer
import EcoMint.SecondaryIndex

/-!
# The bond supply invariant

Tokens enter a bond only by `subscribe`, leave it only by `redeem` and move
inside it only by `transfer`; the first two move `total_subscribed` by the same
amount.  `SupplyInvariant` therefore survives every call of the issuer, and so
holds after every run, whoever makes the calls and whatever contract answers
the registry questions of `issue_bond`.
-/

namespace EcoMint.BondIssuer

open Fallible IntRange Storage

/-- Tokens of a bond summed over all holders. -/
def State.heldTotal (s : State) (bondId : Nat) : Int :=
  s.holderBalance.sumOn fun k => k.1 = bondId

/-- The recorded `total_subscribed`, zero for a bond never issued. -/
def State.subscribedTotal (s : State) (bondId : Nat) : Int :=
  (s.bondState.get bondId).elim 0 BondState.totalSubscribed

/-- What every reachable issuer storage satisfies. -/
structure SupplyInvariant (s : State) : Prop where
  balance_nonneg : ∀ k, 0 ≤ s.holderBalance.read k
  held_eq : ∀ b, s.heldTotal b = s.subscribedTotal b
  issued_iff : ∀ b, (s.bondState.get b).isSome ↔ (s.bondConfig.get b).isSome
  unissued : ∀ b, s.bondCount < b → s.bondState.get b = none
  supply_le : ∀ b config, s.bondConfig.get b = some config →
    s.subscribedTotal b ≤ config.totalSupply ∧ config.totalSupply ≤ MAX_SUPPLY
  face_pos : ∀ b config, s.bondConfig.get b = some config → 0 < config.faceValue

/-- Crediting a balance adds the amount to its bond's total. -/
theorem heldTotal_credit (s : State) (b b' : Nat) (h : Address) (a : Int) :
    (s.holderBalance.credit (b, h) a).sumOn (fun k => k.1 = b') =
      s.heldTotal b' + if b = b' then a else 0 := by
  simp [State.heldTotal, sumOn_credit]

/-- Writing a bond record changes the recorded total of that bond only. -/
theorem subscribedTotal_set (s : State) (b b' : Nat) (state : BondState) :
    ((s.bondState.set b state).get b').elim 0 BondState.totalSubscribed =
      if b' = b then state.totalSubscribed else s.subscribedTotal b' := by
  unfold State.subscribedTotal
  rw [get_set]
  split <;> rfl

/-- What is subscribed of a bond is what its record says. -/
theorem subscribedTotal_of_get {s : State} {b : Nat} {state : BondState}
    (h : s.bondState.get b = some state) : s.subscribedTotal b = state.totalSubscribed := by
  simp [State.subscribedTotal, h]

/-- One holder's tokens are at most all tokens of the bond. -/
theorem SupplyInvariant.balance_le {s : State} (hs : SupplyInvariant s) (b : Nat)
    (h : Address) : s.holderBalance.read (b, h) ≤ s.subscribedTotal b := by
  rw [← hs.held_eq b]
  exact read_le_sumOn _ (fun k _ => hs.balance_nonneg k) rfl

theorem SupplyInvariant.subscribed_nonneg {s : State} (hs : SupplyInvariant s) (b : Nat) :
    0 ≤ s.subscribedTotal b :=
  (hs.balance_nonneg (b, 0)).trans (hs.balance_le b 0)

/-- The tokens of one bond add up: no balance is negative, and together they are
the recorded total. -/
structure State.AddsUp (s : State) (b : Nat) : Prop where
  balance_nonneg : ∀ holder, 0 ≤ getHolderBalance s b holder
  held_eq : s.heldTotal b = s.subscribedTotal b

/-- The balances of a bond add up to the tokens placed. -/
theorem SupplyInvariant.addsUp {s : State} (hs : SupplyInvariant s) (b : Nat) : s.AddsUp b :=
  ⟨fun holder => hs.balance_nonneg (b, holder), hs.held_eq b⟩

/-- Distinct holders own at most all tokens of a bond. -/
theorem State.AddsUp.held_le {s : State} {b : Nat} (hs : s.AddsUp b) {holders : List Address}
    (hnodup : holders.Nodup) : (holders.map (getHolderBalance s b)).sum ≤ s.subscribedTotal b := by
  have hpos : ∀ k : Nat × Address, k.1 = b → 0 ≤ s.holderBalance.read k := by
    rintro ⟨_, holder⟩ rfl
    exact hs.balance_nonneg holder
  have hsum := sum_read_le_sumOn (fun k : Nat × Address => k.1 = b) hpos
    (hnodup.map (Prod.mk_right_injective b)) (by simp)
  rw [← hs.held_eq]
  rwa [List.map_map] at hsum

/-- Distinct holders, nobody left out, own all tokens of a bond. -/
theorem State.AddsUp.held_eq_of_all {s : State} {b : Nat} (hs : s.AddsUp b)
    {holders : List Address} (hnodup : holders.Nodup)
    (hall : ∀ holder, 0 < getHolderBalance s b holder → holder ∈ holders) :
    (holders.map (getHolderBalance s b)).sum = s.subscribedTotal b := by
  have hall' : ∀ k : Nat × Address, k.1 = b → s.holderBalance.read k ≠ 0 →
      k ∈ holders.map (Prod.mk b) := by
    rintro ⟨_, holder⟩ rfl hne
    exact List.mem_map_of_mem (hall holder (lt_of_le_of_ne (hs.balance_nonneg holder) hne.symm))
  have hsum := sum_read_eq_sumOn (fun k : Nat × Address => k.1 = b)
    (hnodup.map (Prod.mk_right_injective b)) (by simp) hall'
  rw [← hs.held_eq]
  rwa [List.map_map] at hsum

theorem supplyInvariant_constructor (admin : Address) :
    SupplyInvariant (constructor admin) where
  balance_nonneg k := by simp [constructor]
  held_eq b := by simp [constructor, State.heldTotal, State.subscribedTotal]
  issued_iff b := by simp [constructor]
  unissued b _ := by simp [constructor]
  supply_le b config h := by simp [constructor] at h
  face_pos b config h := by simp [constructor] at h

/-! ## One lemma for each balance-changing entry point -/

/-- Storage that agrees on the bond fields keeps the invariant. -/
theorem SupplyInvariant.of_same {s s' : State} (hs : SupplyInvariant s)
    (hbalance : s'.holderBalance = s.holderBalance) (hstate : s'.bondState = s.bondState)
    (hconfig : s'.bondConfig = s.bondConfig) (hcount : s'.bondCount = s.bondCount) :
    SupplyInvariant s' := by
  obtain ⟨h1, h2, h3, h4, h5, h6⟩ := hs
  constructor <;>
    simp only [State.heldTotal, State.subscribedTotal, hbalance, hstate, hconfig, hcount] at * <;>
    assumption

/-- A freshly issued bond has no tokens, and its id was never used. -/
theorem SupplyInvariant.issueBond {env : Env} {registries : Registries} {s s' : State}
    {caller : Address} {config : BondConfig} {nonce bondId : Nat} (hs : SupplyInvariant s)
    (h : issueBond env registries s caller config nonce = .ok (bondId, s')) :
    SupplyInvariant s' := by
  obtain ⟨hface, hpos, hmax, -, -, rfl⟩ := issueBond_ok h
  have hfresh : s.subscribedTotal (s.bondCount + 1) = 0 := by
    simp [State.subscribedTotal, hs.unissued (s.bondCount + 1) (by omega)]
  constructor
  case balance_nonneg =>
    exact hs.balance_nonneg
  case held_eq =>
    intro b
    show s.heldTotal b = ((s.bondState.set _ (freshBond env)).get b).elim 0 _
    rw [subscribedTotal_set, hs.held_eq]
    split
    · next hb => rw [hb, hfresh]; rfl
    · rfl
  case issued_iff =>
    intro b
    simp only [get_set]
    split
    · simp
    · exact hs.issued_iff b
  case unissued =>
    intro b hb
    have hb' : b ≠ s.bondCount + 1 := by
      rintro rfl
      simp at hb
    rw [get_set_ne _ _ hb']
    exact hs.unissued b (by simp only at hb; omega)
  case supply_le =>
    intro b config' hget
    simp only [State.subscribedTotal] at *
    rw [subscribedTotal_set]
    by_cases hb : b = s.bondCount + 1
    · subst hb
      obtain rfl : config = config' := by simpa using hget
      simpa [freshBond] using ⟨hpos.le, hmax⟩
    · rw [get_set_ne _ _ hb] at hget
      simpa [hb] using hs.supply_le b config' hget
  case face_pos =>
    intro b config' hget
    by_cases hb : b = s.bondCount + 1
    · subst hb
      obtain rfl : config = config' := by simpa using hget
      exact hface
    · rw [get_set_ne _ _ hb] at hget
      exact hs.face_pos b config' hget

/-- The common shape of the remaining calls: the record of one bond is
rewritten, and the tokens held move by the change of its recorded total. -/
theorem SupplyInvariant.rewrite {s s' : State} {b : Nat} {state : BondState}
    (hs : SupplyInvariant s) (state' : BondState) (hget : s.bondState.get b = some state)
    (hconfig : s'.bondConfig = s.bondConfig) (hcount : s'.bondCount = s.bondCount)
    (hstate : ∀ b', s'.bondState.get b' = if b' = b then some state' else s.bondState.get b')
    (hnonneg : ∀ k, 0 ≤ s'.holderBalance.read k)
    (hheld : ∀ b', s'.heldTotal b' = s.heldTotal b' +
      if b = b' then state'.totalSubscribed - state.totalSubscribed else 0)
    (hcap : ∀ config, s.bondConfig.get b = some config →
      state'.totalSubscribed ≤ config.totalSupply) :
    SupplyInvariant s' := by
  have htotal : ∀ b', s'.subscribedTotal b' =
      if b' = b then state'.totalSubscribed else s.subscribedTotal b' := by
    intro b'
    unfold State.subscribedTotal
    rw [hstate]
    split <;> rfl
  constructor
  case balance_nonneg =>
    exact hnonneg
  case held_eq =>
    intro b'
    rw [hheld, htotal, hs.held_eq]
    by_cases hb : b' = b
    · subst hb
      rw [subscribedTotal_of_get hget]
      simp
    · simp [hb, Ne.symm hb]
  case issued_iff =>
    intro b'
    rw [hstate, hconfig, ← hs.issued_iff b']
    by_cases hb : b' = b
    · subst hb
      simp [hget]
    · simp [hb]
  case unissued =>
    intro b' hb'
    rw [hcount] at hb'
    have hnone := hs.unissued b' hb'
    have hne : b' ≠ b := by
      rintro rfl
      simp [hget] at hnone
    rw [hstate, if_neg hne, hnone]
  case supply_le =>
    intro b' config hconf
    rw [hconfig] at hconf
    obtain ⟨hle, hmax⟩ := hs.supply_le b' config hconf
    refine ⟨?_, hmax⟩
    rw [htotal]
    split
    · next hb => exact hcap config (hb ▸ hconf)
    · exact hle
  case face_pos =>
    intro b' config hconf
    rw [hconfig] at hconf
    exact hs.face_pos b' config hconf

/-- New tokens go to one holder and into the recorded total. -/
theorem SupplyInvariant.subscribe {env : Env} {s s' : State} {investor : Address}
    {bondId : Nat} {amount : Int} {nonce : Nat} (hs : SupplyInvariant s)
    (h : subscribe env s investor bondId amount nonce = .ok s') : SupplyInvariant s' := by
  obtain ⟨-, -, hpos, config, hconfig, state, hstate, -, -, -, hcap, -, rfl⟩ :=
    subscribe_ok_iff.mp h
  refine hs.rewrite _ hstate rfl rfl (get_set s.bondState bondId · _) ?_ ?_ ?_
  · intro k
    show 0 ≤ (s.holderBalance.credit _ _).read k
    have := hs.balance_nonneg k
    rw [read_credit]
    split <;> omega
  · intro b'
    rw [show state.totalSubscribed + amount - state.totalSubscribed = amount by omega]
    exact heldTotal_credit ..
  · intro config' hconfig'
    obtain rfl : config = config' := by simpa [hconfig] using hconfig'
    exact hcap

/-- Tokens move between two holders of one bond. -/
theorem SupplyInvariant.transfer {env : Env} {s s' : State} {sender recipient : Address}
    {bondId : Nat} {amount : Int} {nonce : Nat} (hs : SupplyInvariant s)
    (h : transfer env s sender recipient bondId amount nonce = .ok s') :
    SupplyInvariant s' := by
  obtain ⟨-, -, -, hpos, config, hconfig, state, hstate, -, -, henough, -, -, rfl⟩ :=
    transfer_ok_iff.mp h
  refine hs.rewrite state hstate rfl rfl ?_ ?_ ?_ ?_
  · intro b'
    show s.bondState.get b' = _
    split
    · next hb => rw [hb, hstate]
    · rfl
  · intro k
    show 0 ≤ ((s.holderBalance.credit _ _).credit _ _).read k
    have := hs.balance_nonneg k
    rw [read_credit, read_credit]
    by_cases hk : k = (bondId, sender)
    · subst hk
      simp only [if_true]
      split <;> omega
    · simp only [hk, if_false]
      split <;> omega
  · intro b'
    show ((s.holderBalance.credit _ _).credit _ _).sumOn _ = _
    rw [sumOn_credit, heldTotal_credit]
    simp only [Int.sub_self, ite_self]
    split <;> omega
  · intro config' hconfig'
    rw [← subscribedTotal_of_get hstate]
    exact (hs.supply_le _ _ hconfig').1

/-- Redeemed tokens leave one holder and the recorded total. -/
theorem SupplyInvariant.redeem {env : Env} {s s' : State} {holder : Address} {bondId : Nat}
    {amount : Int} {nonce : Nat} (hs : SupplyInvariant s)
    (h : redeem env s holder bondId amount nonce = .ok s') : SupplyInvariant s' := by
  obtain ⟨-, -, hpos, state, hstate, config, hconfig, -, henough, -, -, -, -, rfl⟩ :=
    redeem_ok_iff.mp h
  refine hs.rewrite _ hstate rfl rfl (get_set s.bondState bondId · _) ?_ ?_ ?_
  · intro k
    show 0 ≤ (s.holderBalance.credit _ _).read k
    have := hs.balance_nonneg k
    rw [read_credit]
    split
    · next hk => subst hk; omega
    · omega
  · intro b'
    rw [show state.totalSubscribed - amount - state.totalSubscribed = -amount by omega]
    exact heldTotal_credit ..
  · intro config' hconfig'
    have := (hs.supply_le _ _ hconfig').1
    rw [subscribedTotal_of_get hstate] at this
    show state.totalSubscribed - amount ≤ _
    omega

/-- Maturing changes no amount. -/
theorem SupplyInvariant.matureBond {env : Env} {s s' : State} {caller : Address}
    {bondId nonce : Nat} (hs : SupplyInvariant s)
    (h : matureBond env s caller bondId nonce = .ok s') : SupplyInvariant s' := by
  obtain ⟨-, -, -, config, hconfig, state, hstate, -, -, rfl⟩ := matureBond_ok_iff.mp h
  refine hs.rewrite _ hstate rfl rfl (get_set s.bondState bondId · _) hs.balance_nonneg ?_ ?_
  · intro b'
    show s.heldTotal b' = _
    simp
  · intro config' hconfig'
    rw [← subscribedTotal_of_get hstate]
    exact (hs.supply_le _ _ hconfig').1

/-! ## Every call, every run -/

/-- **Step lemma.**  Every successful call of the issuer keeps the invariant. -/
theorem SupplyInvariant.exec {env : Env} {registries : Registries} {s s' : State} {call : Call}
    {out : Output} (hs : SupplyInvariant s)
    (h : exec env registries s call = .ok (out, s')) : SupplyInvariant s' := by
  cases call with
  | setAdmin currentAdmin newAdmin =>
      obtain ⟨-, -, rfl⟩ := setAdmin_ok_iff.mp (silent_ok_iff.mp h).1
      exact hs.of_same rfl rfl rfl rfl
  | setProjectRegistry caller registry nonce =>
      obtain ⟨-, -, -, rfl⟩ := setProjectRegistry_ok_iff.mp (silent_ok_iff.mp h).1
      exact hs.of_same rfl rfl rfl rfl
  | issueBond caller config nonce =>
      simp only [BondIssuer.exec, bind_ok_iff, pure_ok_iff, Prod.mk.injEq] at h
      obtain ⟨⟨bondId, s''⟩, hissue, -, rfl⟩ := h
      exact hs.issueBond hissue
  | subscribe investor bondId amount nonce => exact hs.subscribe (silent_ok_iff.mp h).1
  | transfer sender recipient bondId amount nonce =>
      exact hs.transfer (silent_ok_iff.mp h).1
  | fundRedemption caller bondId amount nonce =>
      obtain ⟨-, -, -, -, -, -, rfl⟩ := fundRedemption_ok_iff.mp (silent_ok_iff.mp h).1
      exact hs.of_same rfl rfl rfl rfl
  | redeem holder bondId amount nonce => exact hs.redeem (silent_ok_iff.mp h).1
  | matureBond caller bondId nonce => exact hs.matureBond (silent_ok_iff.mp h).1

/-- **Run lemma.**  Every storage reachable from deployment has it. -/
theorem supplyInvariant_run (admin : Address) (txs : List Tx) :
    SupplyInvariant (machine.run (constructor admin) txs) :=
  machine.invariant (P := fun s _ => SupplyInvariant s) (supplyInvariant_constructor admin)
    (fun _ _ hfires hs => hs.exec hfires) txs

/-- **Bond supply.**  After any calls, failed or successful, by any addresses:
every balance of an issued bond is nonnegative, the balances of all holders add
up to `total_subscribed`, and `0 ≤ total_subscribed ≤ total_supply ≤ MAX_SUPPLY`. -/
theorem bond_supply_conserved (admin : Address) (txs : List Tx) (bondId : Nat)
    (config : BondConfig) (state : BondState)
    (hconfig : getBond (machine.run (constructor admin) txs) bondId = .ok config)
    (hstate : getBondState (machine.run (constructor admin) txs) bondId = .ok state) :
    (∀ holder, 0 ≤ getHolderBalance (machine.run (constructor admin) txs) bondId holder) ∧
      (machine.run (constructor admin) txs).heldTotal bondId = state.totalSubscribed ∧
      0 ≤ state.totalSubscribed ∧ state.totalSubscribed ≤ config.totalSupply ∧
      config.totalSupply ≤ MAX_SUPPLY := by
  have hs := supplyInvariant_run admin txs
  have hconfig' := okOr_ok_iff.mp hconfig
  have htotal := subscribedTotal_of_get (okOr_ok_iff.mp hstate)
  obtain ⟨hcap, hmax⟩ := hs.supply_le bondId config hconfig'
  refine ⟨fun holder => hs.balance_nonneg (bondId, holder), ?_, ?_, ?_, hmax⟩
  · rw [hs.held_eq, htotal]
  · exact htotal ▸ hs.subscribed_nonneg bondId
  · exact htotal ▸ hcap

/-- A bond used to exercise the model: one thousand tokens of face value 100. -/
def sampleConfig : BondConfig where
  projectId := ⟨List.replicate 32 1, rfl⟩
  faceValue := 100
  couponSchedule := [50]
  creditType := .carbon
  maturityDate := 100
  totalSupply := 1000

/-- A call at a time and signed by one account, in a release build, with no
registry in reach. -/
def sampleTx (time : Nat) (signer : Address) (call : Call) : Tx :=
  ⟨⟨time, [signer], none, 9, false⟩, fun _ => none, call⟩

/-- One bond is issued, subscribed to, split between two holders, funded,
matured and partly redeemed; one call in between fails. -/
def sampleTxs : List Tx := [
  sampleTx 1 0 (.issueBond 0 sampleConfig 0),
  sampleTx 2 1 (.subscribe 1 1 600 0),
  sampleTx 2 1 (.transfer 1 2 1 700 1),
  sampleTx 3 1 (.transfer 1 2 1 200 1),
  sampleTx 100 0 (.matureBond 0 1 1),
  sampleTx 101 0 (.fundRedemption 0 1 70000 2),
  sampleTx 102 2 (.redeem 2 1 50 0)]

/-- In the sample run nobody has a negative balance, and 550 of the bond's 1000 tokens
are placed. -/
theorem bond_supply_conserved_sample :
    (∀ holder, 0 ≤ getHolderBalance (machine.run (constructor 0) sampleTxs) 1 holder) ∧
      (machine.run (constructor 0) sampleTxs).heldTotal 1 = 550 ∧
      (0 : Int) ≤ 550 ∧ (550 : Int) ≤ 1000 ∧ (1000 : Int) ≤ MAX_SUPPLY :=
  bond_supply_conserved 0 sampleTxs 1 sampleConfig ⟨550, .matured, 1⟩ rfl rfl

/-! ## Numbers -/

/-- The bonds with a configuration are those with the numbers given out. -/
def NumberedBonds (s : State) : Prop :=
  ∀ b, (s.bondConfig.get b).isSome = true ↔ 1 ≤ b ∧ b ≤ s.bondCount

theorem numberedBonds_constructor (admin : Address) : NumberedBonds (constructor admin) :=
  numbered_empty

/-- Issuing a bond keeps the bonds numbered. -/
theorem NumberedBonds.issueBond {env : Env} {registries : Registries} {s s' : State}
    {caller : Address} {config : BondConfig} {nonce bondId : Nat} (hs : NumberedBonds s)
    (h : issueBond env registries s caller config nonce = .ok (bondId, s')) :
    NumberedBonds s' := by
  obtain ⟨-, -, -, -, -, rfl⟩ := issueBond_ok h
  have hnumbered : Numbered s.bondConfig s.bondCount := hs
  exact hnumbered.added _

/-- Every accepted call keeps the bonds numbered. -/
theorem NumberedBonds.exec {env : Env} {registries : Registries} {s s' : State} {call : Call}
    {out : Output} (hs : NumberedBonds s) (h : exec env registries s call = .ok (out, s')) :
    NumberedBonds s' := by
  cases call with
  | setAdmin currentAdmin newAdmin =>
      obtain ⟨-, -, rfl⟩ := setAdmin_ok_iff.mp (silent_ok_iff.mp h).1
      exact hs
  | setProjectRegistry caller registry nonce =>
      obtain ⟨-, -, -, rfl⟩ := setProjectRegistry_ok_iff.mp (silent_ok_iff.mp h).1
      exact hs
  | issueBond caller config nonce =>
      simp only [BondIssuer.exec, bind_ok_iff, pure_ok_iff, Prod.mk.injEq] at h
      obtain ⟨⟨bondId, s''⟩, hissue, -, rfl⟩ := h
      exact hs.issueBond hissue
  | subscribe investor bondId amount nonce =>
      obtain ⟨-, -, -, _, -, _, -, -, -, -, -, -, rfl⟩ :=
        subscribe_ok_iff.mp (silent_ok_iff.mp h).1
      exact hs
  | transfer sender recipient bondId amount nonce =>
      obtain ⟨-, -, -, -, _, -, _, -, -, -, -, -, -, rfl⟩ :=
        transfer_ok_iff.mp (silent_ok_iff.mp h).1
      exact hs
  | fundRedemption caller bondId amount nonce =>
      obtain ⟨-, -, -, -, -, -, rfl⟩ := fundRedemption_ok_iff.mp (silent_ok_iff.mp h).1
      exact hs
  | redeem holder bondId amount nonce =>
      obtain ⟨-, -, -, _, -, _, -, -, -, -, -, -, -, rfl⟩ :=
        redeem_ok_iff.mp (silent_ok_iff.mp h).1
      exact hs
  | matureBond caller bondId nonce =>
      obtain ⟨-, -, -, _, -, _, -, -, -, rfl⟩ := matureBond_ok_iff.mp (silent_ok_iff.mp h).1
      exact hs

/-- The bonds are numbered in every reachable issuer. -/
theorem numberedBonds_run (admin : Address) (txs : List Tx) :
    NumberedBonds (machine.run (constructor admin) txs) :=
  machine.invariant (P := fun s _ => NumberedBonds s) (numberedBonds_constructor admin)
    (fun _ _ hfires hs => hs.exec hfires) txs

end EcoMint.BondIssuer
