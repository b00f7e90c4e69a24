import EcoMint.CouponItems
import EcoMint.CreditSpending
import EcoMint.DexEscrow
import EcoMint.OrderIndex

/-!
# Bonds do not touch each other

All bonds share five storages, one nonce for each account and contract, and the
quote balances at the router.  A transaction is about the bond it names; one about
an order is about the bond of that order, a sweep about the bonds of all orders it
looks at, and issuing a bond about the bond that it creates.

Everything that the contracts keep about a bond, collected from the five storages,
changes only in transactions about this bond, in whatever order the others come.
-/

namespace EcoMint

open Fallible Storage

/-! ## The bond issuer -/

namespace BondIssuer

/-- What the issuer keeps about one bond. -/
structure BondAccount where
  config : Option BondConfig
  state : Option BondState
  tokens : Address → Int
  redemptionPool : Int

/-- What the issuer keeps of one bond. -/
def State.bond (s : State) (b : Nat) : BondAccount where
  config := s.bondConfig.get b
  state := s.bondState.get b
  tokens addr := s.holderBalance.read (b, addr)
  redemptionPool := s.redemptionPool.read b

/-- The bond that a call is about. -/
def Call.bond (s : State) : Call → Option Nat
  | .setAdmin _ _ => none
  | .setProjectRegistry _ _ _ => none
  | .issueBond _ _ _ => some (s.bondCount + 1)
  | .subscribe _ bondId _ _ => some bondId
  | .transfer _ _ bondId _ _ => some bondId
  | .fundRedemption _ bondId _ _ => some bondId
  | .redeem _ bondId _ _ => some bondId
  | .matureBond _ bondId _ => some bondId

/-- A transfer leaves every other bond as it is. -/
theorem transfer_bond {env : Env} {s s' : State} {sender recipient : Address} {bondId : Nat}
    {amount : Int} {nonce : Nat} (h : transfer env s sender recipient bondId amount nonce = .ok s')
    {b : Nat} (hother : b ≠ bondId) : s'.bond b = s.bond b := by
  obtain ⟨-, -, -, -, -, -, -, -, -, -, -, -, -, rfl⟩ := transfer_ok_iff.mp h
  simp [State.bond, State.bump, read_credit, hother]

/-- A call leaves every bond that it is not about as it was. -/
theorem bond_exec {env : Env} {registries : Registries} {s s' : State} {call : Call} {out : Output}
    (h : exec env registries s call = .ok (out, s')) {b : Nat} (hother : call.bond s ≠ some b) :
    s'.bond b = s.bond b := by
  cases call with
  | setAdmin currentAdmin newAdmin =>
      obtain ⟨-, -, rfl⟩ := setAdmin_ok_iff.mp (silent_ok_iff.mp h).1
      rfl
  | setProjectRegistry caller registry nonce =>
      obtain ⟨-, -, -, rfl⟩ := setProjectRegistry_ok_iff.mp (silent_ok_iff.mp h).1
      rfl
  | issueBond caller config nonce =>
      simp only [exec, bind_ok_iff, pure_ok_iff, Prod.mk.injEq, Prod.exists] at h
      obtain ⟨id, s'', hissue, -, rfl⟩ := h
      obtain ⟨-, -, -, -, -, rfl⟩ := issueBond_ok hissue
      have hne : b ≠ s.bondCount + 1 := fun heq => hother (heq ▸ rfl)
      simp [State.bond, State.bump, get_set, hne]
  | subscribe investor bondId amount nonce =>
      obtain ⟨-, -, -, _, -, _, -, -, -, -, -, -, rfl⟩ := subscribe_ok_iff.mp (silent_ok_iff.mp h).1
      have hne : b ≠ bondId := fun heq => hother (heq ▸ rfl)
      simp [State.bond, State.bump, get_set, read_credit, hne]
  | transfer sender recipient bondId amount nonce =>
      exact transfer_bond (silent_ok_iff.mp h).1 fun heq => hother (heq ▸ rfl)
  | fundRedemption caller bondId amount nonce =>
      obtain ⟨-, -, -, -, -, -, rfl⟩ := fundRedemption_ok_iff.mp (silent_ok_iff.mp h).1
      have hne : b ≠ bondId := fun heq => hother (heq ▸ rfl)
      simp [State.bond, State.bump, read_credit, hne]
  | redeem holder bondId amount nonce =>
      obtain ⟨-, -, -, _, -, _, -, -, -, -, -, -, -, rfl⟩ := redeem_ok_iff.mp (silent_ok_iff.mp h).1
      have hne : b ≠ bondId := fun heq => hother (heq ▸ rfl)
      simp [State.bond, State.bump, get_set, read_credit, hne]
  | matureBond caller bondId nonce =>
      obtain ⟨-, -, -, _, -, _, -, -, -, rfl⟩ := matureBond_ok_iff.mp (silent_ok_iff.mp h).1
      have hne : b ≠ bondId := fun heq => hother (heq ▸ rfl)
      simp [State.bond, State.bump, get_set, hne]

end BondIssuer

/-! ## The coupon engine -/

namespace CouponEngine

/-- What the engine keeps about one bond. -/
structure BondAccount where
  project : Option (BytesN 32)
  creditType : Option CreditType
  period : Nat → Option PeriodInfo
  batchCursor : Nat → Nat
  periodCount : Nat
  accrued : Address → Int
  accruedByType : Address → CreditType → Int
  item : Nat → Address → CreditType → Int
  undistributed : Int

/-- What the engine keeps of one bond. -/
def State.bond (s : State) (b : Nat) : BondAccount where
  project := s.bondProject.get b
  creditType := s.bondCreditType.get b
  period periodIndex := s.periodInfo.get (b, periodIndex)
  batchCursor periodIndex := s.periodBatchCursor.read (b, periodIndex)
  periodCount := s.periodCount.read b
  accrued addr := s.accruedCredits.read (b, addr)
  accruedByType addr creditType := s.accruedCreditsByType.read (b, addr, creditType)
  item periodIndex addr creditType := s.periodHolder.read (b, periodIndex, addr, creditType)
  undistributed := s.undistributedTotal.read b

/-- The bond that a call is about. -/
def Call.bond : Call → Option Nat
  | .registerBond _ bondId _ _ => some bondId
  | .distributeCoupon _ bondId _ _ _ _ => some bondId
  | .distributeCouponBatch _ bondId _ _ _ _ _ _ => some bondId
  | .claimCredits _ bondId _ => some bondId
  | .sweepUndistributed _ bondId _ => some bondId
  | .setAdmin _ _ _ => none

/-- A batch leaves every other bond as it is. -/
theorem Findings.bond_after (f : Findings) (s : State) (batch : Batch) {b : Nat}
    (hother : b ≠ batch.bondId) : (f.after s batch).bond b = s.bond b := by
  have hperiod : ∀ periodIndex, (b, periodIndex) ≠ batch.period := by
    intro periodIndex heq
    exact hother (congrArg Prod.fst heq)
  have hwrote := batchWrote_after f s batch
  have hcount : (f.after s batch).periodCount.read b = s.periodCount.read b := by
    simp only [Findings.after]
    split
    · exact read_set_ne _ _ hother
    · rfl
  have hitems : ∀ periodIndex addr creditType,
      (f.after s batch).periodHolder.read (b, periodIndex, addr, creditType) =
        s.periodHolder.read (b, periodIndex, addr, creditType) := by
    intro periodIndex addr creditType
    rw [periodHolder_after f s batch (b, periodIndex), if_neg (hperiod periodIndex), add_zero]
  have haccrued : ∀ addr, (f.after s batch).accruedCredits.read (b, addr) =
      s.accruedCredits.read (b, addr) := by
    intro addr
    rw [hwrote.accruedCredits, read_creditAll_ne]
    intro e he heq
    obtain ⟨entry, -, rfl⟩ := List.mem_map.mp he
    exact hother (congrArg Prod.fst heq)
  have hbyType : ∀ addr creditType, (f.after s batch).accruedCreditsByType.read
      (b, addr, creditType) = s.accruedCreditsByType.read (b, addr, creditType) := by
    intro addr creditType
    rw [hwrote.accruedCreditsByType, read_creditAll_ne]
    intro e he heq
    obtain ⟨entry, -, rfl⟩ := List.mem_map.mp he
    exact hother (congrArg Prod.fst heq)
  simp only [State.bond, hwrote.bondProject, hwrote.bondCreditType, hwrote.periodInfo,
    hwrote.periodBatchCursor, haccrued, hbyType, hwrote.undistributedTotal, hcount, hitems,
    get_set_ne _ _ (hperiod _), read_set_ne _ _ (hperiod _), hother, false_and, if_false, add_zero]

/-- A claim leaves every other bond as it is. -/
theorem claim_bond {env : Env} {s s' : State} {caller : Address} {bondId nonce : Nat} {amount : Int}
    (h : claimCredits env s caller bondId nonce = .ok (amount, s')) {b : Nat}
    (hother : b ≠ bondId) : s'.bond b = s.bond b := by
  obtain ⟨-, -, hwrote⟩ := claimCredits_ok h
  have hcleared := claimCredits_cleared h
  simp only [State.bond, hwrote.bondProject, hwrote.bondCreditType, hwrote.periodInfo,
    hwrote.periodBatchCursor, hwrote.accruedCredits, hwrote.accruedCreditsByType,
    hwrote.undistributedTotal, hcleared.periodCount, hcleared.periodHolder, read_set,
    Prod.mk.injEq, hother, false_and, if_false]

/-- A call leaves every bond that it is not about as it was. -/
theorem bond_exec {env : Env} {peers : Peers} {s s' : State} {call : Call} {out : Output}
    (h : exec env peers s call = .ok (out, s')) {b : Nat} (hother : call.bond ≠ some b) :
    s'.bond b = s.bond b := by
  cases hbatch : call.batch? with
  | some batch =>
      obtain ⟨caller, f, -, -, rfl⟩ := exec_batch_ok hbatch h
      have hne : b ≠ batch.bondId := by
        intro heq
        refine hother ?_
        cases call <;> cases hbatch <;> exact congrArg some heq.symm
      exact f.bond_after (s.bump caller) batch hne
  | none =>
      cases engineStep_exec h with
      | registered caller bondId projectId nonce issuer config hcall _ _ hafter =>
          subst hcall hafter
          have hne : b ≠ bondId := fun heq => hother (heq ▸ rfl)
          simp [State.bond, State.bump, get_set, hne]
      | paid batch f hcall _ _ => simp [hcall] at hbatch
      | claimed caller bondId nonce amount hcall _ _ _ _ =>
          subst hcall
          obtain ⟨amount, hclaim, -⟩ := returning_ok_iff.mp h
          exact claim_bond hclaim fun heq => hother (heq ▸ rfl)
      | swept caller bondId nonce amount hcall _ _ hafter =>
          subst hcall hafter
          have hne : b ≠ bondId := fun heq => hother (heq ▸ rfl)
          simp [State.bond, State.bump, read_set, hne]
      | administered currentAdmin newAdmin nonce _ hafter =>
          subst hafter
          rfl

end CouponEngine

/-! ## The credit retirement -/

namespace CreditRetirement

/-- What the retirement keeps about one bond. -/
structure BondAccount where
  retired : Address → Int
  record : Nat → Option RetirementRecord

/-- What the retirement contract keeps of one bond. -/
def State.bond (s : State) (b : Nat) : BondAccount where
  retired addr := s.retiredPerBond.read (b, addr)
  record id := (s.retirement.get id).filter fun r => r.bondId = b

/-- The bond that a call is about. -/
def Call.bond : Call → Option Nat
  | .retireCredits _ bondId _ _ _ _ => some bondId
  | .setAdmin _ _ _ => none

/-- A call leaves every bond that it is not about as it was. -/
theorem bond_exec {env : Env} {peers : Peers} {s s' : State} {call : Call} {out : Output}
    (hs : BooksAgree s) (h : exec env peers s call = .ok (out, s')) {b : Nat}
    (hother : call.bond ≠ some b) : s'.bond b = s.bond b := by
  rcases exec_cases h with ⟨holder, bondId, amount, creditType, hash, nonce, rfl, -, -, hwrote⟩ |
    ⟨currentAdmin, newAdmin, nonce, rfl, hrecord, -, hretired, -⟩
  · have hne : b ≠ bondId := fun heq => hother (heq ▸ rfl)
    have hrecord : ∀ id, (s'.retirement.get id).filter (fun r => r.bondId = b) =
        (s.retirement.get id).filter fun r => r.bondId = b := by
      intro id
      rw [hwrote.record, get_set]
      split
      · next hid =>
          rw [hid, hs.unused _ (Nat.lt_succ_self _)]
          simp [Option.filter, Ne.symm hne]
      · rfl
    simp only [State.bond, hwrote.perBond, read_credit, Prod.mk.injEq, hne, false_and, if_false,
      add_zero, hrecord]
  · simp only [State.bond, hrecord, hretired]

end CreditRetirement

/-! ## The router -/

namespace DexRouter

/-- What the router keeps about one bond. -/
structure BondAccount where
  escrow : Address → Int
  order : Nat → Option Order
  orderIds : List Nat

/-- What the router keeps of one bond. -/
def State.bond (s : State) (b : Nat) : BondAccount where
  escrow addr := s.bondEscrow.read (b, addr)
  order id := (s.order.get id).filter fun order => order.bondId = b
  orderIds := getBondOrders s b

/-- The bonds that a call is about: a call about orders is about their bonds. -/
def Call.bonds (s : State) : Call → List Nat
  | .setAdmin _ _ => []
  | .listBondTokens _ bondId _ _ _ _ _ => [bondId]
  | .cancelListing _ orderId _ => ((s.order.get orderId).map Order.bondId).toList
  | .executePurchase _ orderId _ _ _ => ((s.order.get orderId).map Order.bondId).toList
  | .depositQuote _ _ _ _ => []
  | .withdrawQuote _ _ _ _ => []
  | .cleanExpiredOrders _ startId limit _ =>
      (sweepWindow s.orderCount startId limit).filterMap fun id =>
        (s.order.get id).map Order.bondId

/-- Writing one order changes no other bond, if its place was not another bond's. -/
theorem filter_get_set {orders : Storage Nat Order} {id : Nat} {order : Order} {b : Nat}
    (hother : order.bondId ≠ b) (hold : ∀ old, orders.get id = some old → old.bondId ≠ b) (k : Nat) :
    ((orders.set id order).get k).filter (fun order => order.bondId = b) =
      (orders.get k).filter fun order => order.bondId = b := by
  rw [get_set]
  split
  · next hk =>
      subst hk
      cases hget : orders.get k with
      | none => simp [Option.filter, hother]
      | some old => simp [Option.filter, hother, hold old hget]
  · rfl

/-- Rewriting an order of another bond in its place changes nothing here. -/
theorem filter_get_rewrite {orders : Storage Nat Order} {id : Nat} {order : Order} (order' : Order) {b : Nat}
    (hget : orders.get id = some order) (hother : order.bondId ≠ b)
    (hbond : order'.bondId = order.bondId) (k : Nat) :
    ((orders.set id order').get k).filter (fun order => order.bondId = b) =
      (orders.get k).filter fun order => order.bondId = b := by
  refine filter_get_set (hbond ▸ hother) ?_ k
  intro old hold
  obtain rfl := Option.some.inj (hget.symm.trans hold)
  exact hother

/-- Filling an order leaves its bond as it is. -/
theorem fill_bondId (order : Order) (amount : Int) : (order.fill amount).bondId = order.bondId := by
  unfold Order.fill
  split <;> rfl

/-- A sweep that looks at no order of a bond changes none. -/
theorem sweepOrders_filter {env : Env} {b : Nat} (ids : List Nat) (s : State) (cleaned : Nat)
    (hother : ∀ id ∈ ids, ∀ order, s.order.get id = some order → order.bondId ≠ b) (k : Nat) :
    ((sweepOrders env ids (cleaned, s)).2.order.get k).filter (fun order => order.bondId = b) =
      (s.order.get k).filter fun order => order.bondId = b := by
  induction ids generalizing s cleaned with
  | nil => rfl
  | cons id rest ih =>
      have hrest := fun id' hmem => hother id' (List.mem_cons_of_mem _ hmem)
      unfold sweepOrders
      cases hget : s.order.get id with
      | none => exact ih s cleaned hrest
      | some order =>
          have hne := hother id (List.mem_cons_self ..) order hget
          dsimp only
          split
          · refine (ih _ _ ?_).trans (filter_get_rewrite { order with status := .expired } hget hne rfl k)
            intro id' hmem order' hget'
            rw [markOrderExpired, get_set] at hget'
            split at hget'
            · obtain rfl := Option.some.inj hget'
              exact hne
            · exact hrest id' hmem order' hget'
          · exact ih s cleaned hrest

/-- A sweep changes the orders in its window, and a nonce. -/
theorem cleanExpiredOrders_ok {env : Env} {s s' : State} {caller : Address}
    {startId limit nonce : Nat} {result : CleanExpiredResult}
    (h : cleanExpiredOrders env s caller startId limit nonce = .ok (result, s')) :
    ∃ base, base.order = s.order ∧ base.bondEscrow = s.bondEscrow ∧
      base.bondOrders = s.bondOrders ∧ s' = (sweepOrders env (sweepWindow s.orderCount startId limit) (0, base)).2 := by
  simp only [cleanExpiredOrders, consumeNonce, bind_ok_iff, pure_ok_iff] at h
  obtain ⟨_, -, _, ⟨nonces, -, rfl⟩, _, -, _, -, h⟩ := h
  refine ⟨{ s with nonce := nonces }, rfl, rfl, rfl, ?_⟩
  split at h
  · next hnone =>
      obtain ⟨-, rfl⟩ := Prod.mk.inj (pure_ok_iff.mp h)
      rw [sweepWindow, if_pos hnone]
      rfl
  · obtain ⟨-, rfl⟩ := Prod.mk.inj (pure_ok_iff.mp h)
    rfl

/-- The bond of an order that a call names is one that the call is about. -/
theorem ne_of_order {s : State} {id b : Nat} {order : Order} (hget : s.order.get id = some order)
    (hother : b ∉ ((s.order.get id).map Order.bondId).toList) : order.bondId ≠ b := by
  rintro rfl
  exact hother (by simp [hget])

/-- A call leaves every bond that it is not about as it was, and the tokens it has
moved at the issuer are tokens of a bond that it is about. -/
theorem bond_exec {env : Env} {issuers : Issuers} {s s' : State}
    {issuer' : Option BondIssuer.State} {call : Call} {out : Output} (hs : EscrowInvariant s)
    (h : exec env issuers s call = .ok (out, issuer', s')) {b : Nat} (hother : b ∉ call.bonds s) :
    s'.bond b = s.bond b ∧ ∀ after, issuer' = some after →
      ∃ address before, issuers address = some before ∧ after.bond b = before.bond b := by
  cases call with
  | setAdmin currentAdmin newAdmin =>
      simp only [exec, silent_ok_iff, setAdmin, bind_ok_iff, pure_ok_iff] at h
      obtain ⟨⟨_, -, _, -, rfl⟩, hissuer, -⟩ := h
      exact ⟨rfl, fun after hafter => by simp [hafter] at hissuer⟩
  | depositQuote caller quoteAsset amount nonce =>
      simp only [exec, silent_ok_iff, depositQuote, consumeNonce, bind_ok_iff, pure_ok_iff] at h
      obtain ⟨⟨_, -, _, ⟨_, -, rfl⟩, _, -, _, -, rfl⟩, hissuer, -⟩ := h
      exact ⟨rfl, fun after hafter => by simp [hafter] at hissuer⟩
  | withdrawQuote caller quoteAsset amount nonce =>
      simp only [exec, silent_ok_iff, withdrawQuote, consumeNonce, bind_ok_iff, pure_ok_iff] at h
      obtain ⟨⟨_, -, _, ⟨_, -, rfl⟩, _, -, _, -, rfl⟩, hissuer, -⟩ := h
      exact ⟨rfl, fun after hafter => by simp [hafter] at hissuer⟩
  | listBondTokens seller bondId amount pricePerToken quoteAsset expiresAfterSeconds nonce =>
      have hne : bondId ≠ b := fun heq => hother (List.mem_singleton.mpr heq.symm)
      simp only [exec, listBondTokens, consumeNonce, bind_ok_iff, pure_ok_iff, Prod.mk.injEq,
        Prod.exists] at h
      obtain ⟨_, _, ⟨_, -, _, ⟨_, -, rfl⟩, _, -, _, -, _, -, _, -, _, -, -, rfl⟩, -, rfl, rfl⟩ := h
      refine ⟨?_, fun after hafter => by cases hafter⟩
      simp only [State.bond, getBondOrders, read_set, get_set, Prod.mk.injEq, Ne.symm hne, false_and,
        if_false]
      congr 1
      funext k
      rw [← get_set]
      refine filter_get_set ?_ ?_ k
      · exact hne
      · intro old hold
        rw [hs.unused _ (Nat.lt_succ_self _)] at hold
        cases hold
  | cancelListing caller orderId nonce =>
      simp only [exec, silent_ok_iff, cancelListing, consumeNonce, bind_ok_iff, pure_ok_iff,
        okOr_ok_iff] at h
      obtain ⟨⟨_, -, _, ⟨_, -, rfl⟩, order, hget, _, -, _, -, rfl⟩, hissuer, -⟩ := h
      have hne := ne_of_order hget hother
      refine ⟨?_, fun after hafter => by simp [hafter] at hissuer⟩
      simp only [State.bond, read_set, Prod.mk.injEq, Ne.symm hne, false_and, if_false]
      congr 1
      funext k
      exact filter_get_rewrite { order with status := .cancelled } hget hne rfl k
  | executePurchase buyer orderId maxPrice amount nonce =>
      simp only [exec, bind_ok_iff, pure_ok_iff, Prod.mk.injEq, Prod.exists] at h
      obtain ⟨after, s'', hpurchase, -, rfl, rfl⟩ := h
      obtain ⟨order, hget, -, -, -, -, -, -, -, -, -, -, -, -, address, -, issuer, hissuer,
        htransfer, rfl⟩ := executePurchase_ok_iff.mp hpurchase
      have hne := ne_of_order hget hother
      constructor
      · simp only [State.bond, State.purchased, read_set, Prod.mk.injEq, Ne.symm hne, false_and,
          if_false]
        congr 1
        funext k
        exact filter_get_rewrite (order.fill amount) hget hne (fill_bondId order amount) k
      · intro after' hafter
        obtain rfl := Option.some.inj hafter
        exact ⟨address, issuer, hissuer, BondIssuer.transfer_bond htransfer (Ne.symm hne)⟩
  | cleanExpiredOrders caller startId limit nonce =>
      simp only [exec, bind_ok_iff, pure_ok_iff, Prod.mk.injEq, Prod.exists] at h
      obtain ⟨result, s'', hclean, -, rfl, rfl⟩ := h
      refine ⟨?_, fun after hafter => by cases hafter⟩
      obtain ⟨base, horder, hescrow, hids, rfl⟩ := cleanExpiredOrders_ok hclean
      have hwindow : ∀ id ∈ sweepWindow s.orderCount startId limit,
          ∀ order, base.order.get id = some order → order.bondId ≠ b := by
        intro id hmem order hget heq
        rw [horder] at hget
        exact hother (List.mem_filterMap.mpr ⟨id, hmem, by simp [hget, heq]⟩)
      simp only [State.bond, getBondOrders, sweepOrders_bondEscrow, hescrow,
        (sweepOrders_lists env base _ 0).2, hids, sweepOrders_filter _ base 0 hwindow, horder]

end DexRouter

/-! ## The deployment -/

/-- What the five contracts keep about one bond; the oracle keeps nothing. -/
structure BondAccount where
  issuer : BondIssuer.BondAccount
  engine : CouponEngine.BondAccount
  retirement : CreditRetirement.BondAccount
  dex : DexRouter.BondAccount

/-- What the contracts keep of one bond. -/
def World.bond (w : World) (b : Nat) : BondAccount where
  issuer := w.issuer.bond b
  engine := w.engine.bond b
  retirement := w.retirement.bond b
  dex := w.dex.bond b

/-- The bonds that a transaction is about. -/
def Tx.bonds (tx : Tx) (w : World) : List Nat :=
  match tx.call with
  | .issuer call => (call.bond w.issuer).toList
  | .oracle _ => []
  | .engine call => call.bond.toList
  | .retirement call => call.bond.toList
  | .dex call => call.bonds w.dex

/-- **One transaction** that is about other bonds. -/
theorem WorldStep.bond_eq {w w' : World} {tx : Tx} {out : Output} (h : WorldStep w tx out w')
    (hbooks : CreditRetirement.BooksAgree w.retirement) (hescrow : DexRouter.EscrowInvariant w.dex)
    {b : Nat} (hother : b ∉ tx.bonds w) : w'.bond b = w.bond b := by
  cases h with
  | issuer call o s hcall _ hexec hafter =>
      subst hafter
      rw [Tx.bonds, hcall, Option.mem_toList] at hother
      simp only [World.bond, BondIssuer.bond_exec hexec hother]
  | oracle call o s hcall _ hexec hafter =>
      subst hafter
      rfl
  | engine call o s hcall _ hexec hafter =>
      subst hafter
      rw [Tx.bonds, hcall, Option.mem_toList] at hother
      simp only [World.bond, CouponEngine.bond_exec hexec hother]
  | retirement call o s hcall _ hexec hafter =>
      subst hafter
      rw [Tx.bonds, hcall, Option.mem_toList] at hother
      simp only [World.bond, CreditRetirement.bond_exec hbooks hexec hother]
  | dex call o issuer' s hcall _ hexec hafter =>
      subst hafter
      rw [Tx.bonds, hcall] at hother
      obtain ⟨hdex, hissuer⟩ := DexRouter.bond_exec hescrow hexec hother
      have hkept : (issuer'.getD w.issuer).bond b = w.issuer.bond b := by
        cases issuer' with
        | none => rfl
        | some after =>
            obtain ⟨address, before, hbefore, hsame⟩ := hissuer after rfl
            rw [Option.getD_some, hsame, World.eq_issuer_of_issuerAt hbefore]
      simp only [World.bond, hdex, hkept]

/-- **Bonds are isolated.**  From any reachable world, in every run in which no
transaction that goes through is about a bond, all that the contracts keep about this
bond stays as it is: its terms and tokens, its coupons, claims and retirements, and
its orders and escrow. -/
theorem bonds_isolated (d : Deployment) (txs later : List Tx) (b : Nat)
    (hothers : ∀ e ∈ machine.log (machine.run (deploy d) txs) later,
      b ∉ e.input.bonds e.before) :
    (machine.run (deploy d) (txs ++ later)).bond b = (machine.run (deploy d) txs).bond b := by
  rw [Machine.run_append]
  refine machine.invariant_while
    (I := fun w _ => CreditRetirement.BooksAgree w.retirement ∧ DexRouter.EscrowInvariant w.dex)
    (P := fun w _ => w.bond b = (machine.run (deploy d) txs).bond b) ?_ rfl ?_ later hothers
  · intro calls
    rw [← Machine.run_append]
    exact ⟨(spendingInvariant d (txs ++ calls)).books, escrowInvariant d (txs ++ calls)⟩
  · intro l e hfires hother hs hbefore
    exact ((worldStep_of_execute hfires).bond_eq hs.1 hs.2 hother).trans hbefore

/-- A second bond is issued and sold, and quote money comes and goes. -/
def otherBond : List Tx := [
  sampleTx 5 0 (.issuer (.issueBond 0 BondIssuer.sampleConfig 1)),
  sampleTx 5 2 (.issuer (.subscribe 2 2 50 0)),
  sampleTx 6 2 (.dex (.listBondTokens 2 2 20 3 "usdc" 100 0)),
  sampleTx 6 3 (.dex (.depositQuote 3 "usdc" 90 0)),
  sampleTx 7 3 (.dex (.executePurchase 3 1 3 10 1))]

/-- Everything that is done with another bond leaves the first as it was. -/
theorem bonds_isolated_otherBond :
    (machine.run (deploy sampleDeployment) (reportedBond ++ otherBond)).bond 1 =
      (machine.run (deploy sampleDeployment) reportedBond).bond 1 :=
  bonds_isolated sampleDeployment reportedBond otherBond 1 (by decide +kernel)

end EcoMint
