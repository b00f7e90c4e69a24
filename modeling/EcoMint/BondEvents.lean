import EcoMint.BondLifecycle

/-!
# What the events of the issuer tell

Every entry point of the issuer but one publishes an event when it succeeds, and
indexers are to build on these.  They may: whoever replays the events of a run,
from the admin it was deployed with, has the admin, the projects behind the bonds,
every balance and every pool, and of every bond how much is subscribed and whether
it has matured, at every moment.

Nothing is published of the registry that the admin sets, and of a new bond only the
project; its terms have to be read from the contract.
-/

namespace EcoMint.BondIssuer

open Fallible Storage

/-! ## The events -/

/-- The events that the issuer publishes, with their topics and data. -/
inductive BondEvent
  | adminChanged (currentAdmin newAdmin : Address)
  | bondIssued (bondId : Nat) (projectId : BytesN 32)
  | subscribed (bondId : Nat) (investor : Address) (amount : Int)
  | transferred (bondId : Nat) (sender recipient : Address) (amount : Int)
  | redemptionFunded (bondId : Nat) (caller : Address) (amount : Int)
  | redeemed (bondId : Nat) (holder : Address) (amount payout : Int)
  | bondMatured (bondId : Nat)
deriving DecidableEq

/-- What a successful call publishes; `redeem` computes the payout from the terms. -/
def published (s : State) (call : Call) (out : Output) : Option BondEvent :=
  match call with
  | .setAdmin currentAdmin newAdmin => some (.adminChanged currentAdmin newAdmin)
  | .setProjectRegistry _ _ _ => none
  | .issueBond _ config _ => out.map fun bondId => .bondIssued bondId config.projectId
  | .subscribe investor bondId amount _ => some (.subscribed bondId investor amount)
  | .transfer sender recipient bondId amount _ =>
      some (.transferred bondId sender recipient amount)
  | .fundRedemption caller bondId amount _ => some (.redemptionFunded bondId caller amount)
  | .redeem holder bondId amount _ =>
      (s.bondConfig.get bondId).map fun config =>
        .redeemed bondId holder amount (amount * config.faceValue)
  | .matureBond _ bondId _ => some (.bondMatured bondId)

/-- The events of a run. -/
def stream (l : List LogEntry) : List BondEvent :=
  l.filterMap fun e => published e.before e.input.call e.output

/-! ## An indexer -/

/-- What an indexer keeps. -/
structure Index where
  admin : Option Address
  project : Nat → Option (BytesN 32)
  balance : Nat → Address → Int
  subscribed : Nat → Int
  pool : Nat → Int
  matured : Nat → Bool

/-- What an indexer knows of a fresh deployment: the administrator. -/
def Index.deployed (admin : Address) : Index where
  admin := some admin
  project _ := none
  balance _ _ := 0
  subscribed _ := 0
  pool _ := 0
  matured _ := false

/-- An amount is added to what a holder has of a bond. -/
def Index.credit (i : Index) (bondId : Nat) (holder : Address) (amount : Int) : Index :=
  { i with balance := fun b h => i.balance b h + if (b, h) = (bondId, holder) then amount else 0 }

/-- An amount is added to what is subscribed of a bond. -/
def Index.subscribe (i : Index) (bondId : Nat) (amount : Int) : Index :=
  { i with subscribed := fun b => i.subscribed b + if b = bondId then amount else 0 }

/-- An amount is added to a bond's redemption pool. -/
def Index.fund (i : Index) (bondId : Nat) (amount : Int) : Index :=
  { i with pool := fun b => i.pool b + if b = bondId then amount else 0 }

/-- What an indexer makes of one event. -/
def Index.apply (i : Index) : BondEvent → Index
  | .adminChanged _ newAdmin => { i with admin := some newAdmin }
  | .bondIssued bondId projectId =>
      { i with
        project := fun b => if b = bondId then some projectId else i.project b
        subscribed := fun b => if b = bondId then 0 else i.subscribed b
        matured := fun b => if b = bondId then false else i.matured b }
  | .subscribed bondId investor amount =>
      (i.credit bondId investor amount).subscribe bondId amount
  | .transferred bondId sender recipient amount =>
      (i.credit bondId sender (-amount)).credit bondId recipient amount
  | .redemptionFunded bondId _ amount => i.fund bondId amount
  | .redeemed bondId holder amount payout =>
      ((i.credit bondId holder (-amount)).subscribe bondId (-amount)).fund bondId (-payout)
  | .bondMatured bondId => { i with matured := fun b => if b = bondId then true else i.matured b }

/-- What an indexer makes of a list of events. -/
def Index.replay (i : Index) (events : List BondEvent) : Index := events.foldl Index.apply i

/-- What it says of a bond. -/
def Index.bond (i : Index) (bondId : Nat) : Option (Int × BondStatus) :=
  (i.project bondId).map fun _ =>
    (i.subscribed bondId, if i.matured bondId then .matured else .active)

/-! ## The index follows the contract -/

/-- The index has what the contract has. -/
structure Follows (s : State) (i : Index) : Prop where
  admin : s.admin = i.admin
  project : ∀ b, (s.bondConfig.get b).map BondConfig.projectId = i.project b
  balance : ∀ b h, s.holderBalance.read (b, h) = i.balance b h
  pool : ∀ b, s.redemptionPool.read b = i.pool b
  bond : ∀ b, (s.bondState.get b).map (fun state => (state.totalSubscribed, state.status)) =
    i.bond b

variable {s s' : State} {i : Index} {bondId : Nat} {holder : Address} {state : BondState}
  {amount : Int}

theorem follows_deployed (admin : Address) :
    Follows (constructor admin) (Index.deployed admin) where
  admin := rfl
  project _ := rfl
  balance _ _ := rfl
  pool _ := rfl
  bond _ := rfl

/-- What the index has of a bond that exists. -/
theorem Follows.of_get (h : Follows s i) (hget : s.bondState.get bondId = some state) :
    (∃ projectId, i.project bondId = some projectId) ∧
      i.subscribed bondId = state.totalSubscribed ∧
      (if i.matured bondId then BondStatus.matured else .active) = state.status := by
  have hbond := h.bond bondId
  rw [hget, Option.map_some, Index.bond] at hbond
  cases hproject : i.project bondId with
  | none => rw [hproject] at hbond; cases hbond
  | some projectId =>
      rw [hproject, Option.map_some, Option.some.injEq, Prod.mk.injEq] at hbond
      exact ⟨⟨projectId, rfl⟩, hbond.1.symm, hbond.2.symm⟩

/-- Crediting a balance in the contract and in the index keeps them equal. -/
theorem balance_credit (h : ∀ b h, s.holderBalance.read (b, h) = i.balance b h) (b : Nat)
    (h' : Address) :
    (s.holderBalance.credit (bondId, holder) amount).read (b, h') =
      (i.credit bondId holder amount).balance b h' := by
  rw [read_credit, h b h']
  rfl

/-- Crediting a pool in the contract and in the index keeps them equal. -/
theorem pool_credit (h : ∀ b, s.redemptionPool.read b = i.pool b) (b : Nat) :
    (s.redemptionPool.credit bondId amount).read b = (i.fund bondId amount).pool b := by
  rw [read_credit, h b]
  rfl

/-- What more is subscribed of a bond. -/
theorem Follows.bond_subscribe (h : Follows s i) (hget : s.bondState.get bondId = some state)
    (b : Nat) : (i.subscribe bondId amount).bond b =
      if b = bondId then some (state.totalSubscribed + amount, state.status) else i.bond b := by
  obtain ⟨⟨projectId, hproject⟩, hsubscribed, hstatus⟩ := h.of_get hget
  show (i.project b).map (fun _ => (i.subscribed b + (if b = bondId then amount else 0),
    if i.matured b then BondStatus.matured else .active)) = _
  by_cases hb : b = bondId
  · subst hb
    rw [if_pos rfl, if_pos rfl, hproject, Option.map_some, hsubscribed, hstatus]
  · rw [if_neg hb, if_neg hb, Int.add_zero]
    rfl

/-- The event of a maturity tells the index that the bond has matured, with the tokens
placed as they were. -/
theorem Follows.bond_matured (h : Follows s i) (hget : s.bondState.get bondId = some state)
    (b : Nat) : (i.apply (.bondMatured bondId)).bond b =
      if b = bondId then some (state.totalSubscribed, .matured) else i.bond b := by
  obtain ⟨⟨projectId, hproject⟩, hsubscribed, -⟩ := h.of_get hget
  by_cases hb : b = bondId
  · subst hb
    simp [Index.bond, Index.apply, hproject, hsubscribed]
  · simp [Index.bond, Index.apply, hb]

/-- The record of one bond is written anew, in the contract and in the index. -/
theorem bond_set {i' : Index} {state' : BondState}
    (h : ∀ b, (s.bondState.get b).map (fun state => (state.totalSubscribed, state.status)) =
      i.bond b)
    (hset : ∀ b, i'.bond b =
      if b = bondId then some (state'.totalSubscribed, state'.status) else i.bond b) (b : Nat) :
    ((s.bondState.set bondId state').get b).map
      (fun state => (state.totalSubscribed, state.status)) = i'.bond b := by
  rw [hset, get_set]
  split
  · rfl
  · exact h b

/-- **Step lemma.**  The index follows the contract through every successful call. -/
theorem Follows.exec {env : Env} {registries : Registries} {call : Call} {out : Output}
    (hf : Follows s i) (h : exec env registries s call = .ok (out, s')) :
    Follows s' ((published s call out).elim i i.apply) := by
  cases call with
  | setAdmin currentAdmin newAdmin =>
      obtain ⟨-, -, rfl⟩ := setAdmin_ok_iff.mp (silent_ok_iff.mp h).1
      exact ⟨rfl, hf.project, hf.balance, hf.pool, hf.bond⟩
  | setProjectRegistry caller registry nonce =>
      obtain ⟨-, -, -, rfl⟩ := setProjectRegistry_ok_iff.mp (silent_ok_iff.mp h).1
      exact ⟨hf.admin, hf.project, hf.balance, hf.pool, hf.bond⟩
  | issueBond caller config nonce =>
      simp only [BondIssuer.exec, bind_ok_iff, pure_ok_iff, Prod.mk.injEq] at h
      obtain ⟨⟨bondId, s''⟩, hissue, rfl, rfl⟩ := h
      obtain ⟨-, -, -, -, rfl, rfl⟩ := issueBond_ok hissue
      refine ⟨hf.admin, fun b => ?_, hf.balance, hf.pool, bond_set hf.bond fun b => ?_⟩
      · rw [get_set]
        show _ = if b = s.bondCount + 1 then some config.projectId else i.project b
        split
        · rfl
        · exact hf.project b
      · by_cases hb : b = s.bondCount + 1
        · simp [published, Index.bond, Index.apply, freshBond, hb]
        · simp [published, Index.bond, Index.apply, hb]
  | subscribe investor bondId amount nonce =>
      obtain ⟨-, -, -, config, -, state, hstate, -, -, -, -, -, rfl⟩ :=
        subscribe_ok_iff.mp (silent_ok_iff.mp h).1
      exact ⟨hf.admin, hf.project, balance_credit hf.balance, hf.pool,
        bond_set hf.bond fun b => hf.bond_subscribe hstate b⟩
  | transfer sender recipient bondId amount nonce =>
      obtain ⟨-, -, -, -, config, -, state, -, -, -, -, -, -, rfl⟩ :=
        transfer_ok_iff.mp (silent_ok_iff.mp h).1
      refine ⟨hf.admin, hf.project, fun b holder => ?_, hf.pool, hf.bond⟩
      rw [read_credit, balance_credit hf.balance]
      rfl
  | fundRedemption caller bondId amount nonce =>
      obtain ⟨-, -, -, -, -, -, rfl⟩ := fundRedemption_ok_iff.mp (silent_ok_iff.mp h).1
      exact ⟨hf.admin, hf.project, hf.balance, pool_credit hf.pool, hf.bond⟩
  | redeem holder bondId amount nonce =>
      obtain ⟨-, -, -, state, hstate, config, hconfig, -, -, -, -, -, -, rfl⟩ :=
        redeem_ok_iff.mp (silent_ok_iff.mp h).1
      rw [published, hconfig]
      exact ⟨hf.admin, hf.project, balance_credit hf.balance, pool_credit hf.pool,
        bond_set hf.bond fun b => hf.bond_subscribe hstate b⟩
  | matureBond caller bondId nonce =>
      obtain ⟨-, -, -, config, -, state, hstate, -, -, rfl⟩ :=
        matureBond_ok_iff.mp (silent_ok_iff.mp h).1
      exact ⟨hf.admin, hf.project, hf.balance, hf.pool,
        bond_set hf.bond fun b => hf.bond_matured hstate b⟩

theorem replay_stream_snoc (l : List LogEntry) (e : LogEntry) :
    i.replay (stream (l ++ [e])) =
      (published e.before e.input.call e.output).elim (i.replay (stream l))
        (i.replay (stream l)).apply := by
  rw [stream, Machine.filterMap_snoc, Index.replay, List.foldl_append]
  cases published e.before e.input.call e.output <;> rfl

/-- After any calls by any addresses, whoever has replayed what the successful ones
published has what the contract has. -/
theorem events_tell (admin : Address) (txs : List Tx) :
    Follows (machine.run (constructor admin) txs)
      ((Index.deployed admin).replay (stream (machine.log (constructor admin) txs))) := by
  refine machine.invariant
    (P := fun s l => Follows s ((Index.deployed admin).replay (stream l)))
    (follows_deployed admin) (fun l e hfires hf => ?_) txs
  rw [replay_stream_snoc]
  exact hf.exec hfires

end EcoMint.BondIssuer
