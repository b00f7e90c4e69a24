import EcoMint.DexLedger
import EcoMint.BondSupply

/-!
# The life of an order

A listing opens an order; from then on a call either leaves it alone or does
one of three things to a live order: fill part of it, cancel it, or mark it
expired.  `OrderMove` is that list, and `History` says how the stored amount
relates to the fills so far.  The last fill of an order does not touch the
stored amount, so the relation depends on the status.
-/

namespace EcoMint.DexRouter

open Storage

/-- What a call buys of an order. -/
def Call.fillOf (id : Nat) : Call → Option Int
  | .executePurchase _ orderId _ amount _ => if orderId = id then some amount else none
  | _ => none

/-- What a logged call buys of an order. -/
def LogEntry.fillOf (id : Nat) (e : LogEntry) : Option Int := e.input.call.fillOf id

/-- The fills of an order, in order. -/
def fills (id : Nat) (log : List LogEntry) : List Int := log.filterMap (LogEntry.fillOf id)

/-- What a logged call lists under an order id. -/
def LogEntry.listingOf (id : Nat) (e : LogEntry) : Option Int :=
  match e.input.call, e.output with
  | .listBondTokens _ _ amount _ _ _ _, .orderId orderId =>
      if orderId = id then some amount else none
  | _, _ => none

/-- The amounts listed under an order id. -/
def listings (id : Nat) (log : List LogEntry) : List Int := log.filterMap (LogEntry.listingOf id)

/-! ## What one call does to one order -/

/-- What a call does to an order that is already listed. -/
inductive OrderMove (env : Env) (call : Call) (id : Nat) (order : Order) : Order → Prop
  | kept (hfill : call.fillOf id = none) : OrderMove env call id order order
  | cancelled (hfill : call.fillOf id = none) (hlive : order.Live) :
      OrderMove env call id order { order with status := .cancelled }
  | expired (hfill : call.fillOf id = none) (hlive : order.Live) :
      OrderMove env call id order { order with status := .expired }
  | filled (amount : Int) (hfill : call.fillOf id = some amount) (hlive : order.Live)
      (hpos : 0 < amount) (hle : amount ≤ order.amount) (hdue : env.timestamp < order.expiresAt) :
      OrderMove env call id order (order.fill amount)

/-- An order that is filled, cancelled or expired is left alone. -/
theorem OrderMove.eq_of_not_live {env : Env} {call : Call} {id : Nat} {order order' : Order}
    (h : OrderMove env call id order order') (hclosed : ¬ order.Live) :
    order' = order ∧ call.fillOf id = none := by
  cases h with
  | kept hfill => exact ⟨rfl, hfill⟩
  | cancelled _ hlive => exact absurd hlive hclosed
  | expired _ hlive => exact absurd hlive hclosed
  | filled _ _ hlive => exact absurd hlive hclosed

/-- No move changes when an order expires. -/
theorem OrderMove.expiresAt_eq {env : Env} {call : Call} {id : Nat} {order order' : Order}
    (h : OrderMove env call id order order') : order'.expiresAt = order.expiresAt := by
  cases h with
  | filled amount =>
      unfold Order.fill
      split <;> rfl
  | _ => rfl

/-- A fill meets an order that is not due to expire. -/
theorem OrderMove.fill_due {env : Env} {call : Call} {id : Nat} {order order' : Order}
    {amount : Int} (h : OrderMove env call id order order') (hamount : call.fillOf id = some amount) :
    env.timestamp < order.expiresAt := by
  cases h with
  | filled _ _ _ _ _ hdue => exact hdue
  | kept hfill => simp [hfill] at hamount
  | cancelled hfill => simp [hfill] at hamount
  | expired hfill => simp [hfill] at hamount

/-- **Step lemma for one order.**  A call moves every listed order, or it lists
under the next order id, which nothing uses yet. -/
theorem orderMove_of_routerStep {env : Env} {s s' : State} {call : Call} {out : Output}
    (h : RouterStep env s s' call out) {id : Nat} {order : Order}
    (hget : s.order.get id = some order) (hid : id ≤ s.orderCount) :
    ∃ order', s'.order.get id = some order' ∧ OrderMove env call id order order' := by
  cases h with
  | administered _ _ horder => exact ⟨order, horder ▸ hget, .kept rfl⟩
  | listed listing _ _ _ horder =>
      have hother : id ≠ s.orderCount + 1 := by omega
      refine ⟨order, ?_, .kept rfl⟩
      rw [horder, get_set_ne _ _ hother]
      exact hget
  | cancelled caller key _ old hold hlive horder =>
      rw [horder, get_set]
      split
      · next heq =>
          subst heq
          obtain rfl := Option.some.inj (hget.symm.trans hold)
          exact ⟨_, rfl, .cancelled rfl hlive⟩
      · exact ⟨order, hget, .kept rfl⟩
  | bought buyer key maxPrice amount _ old hold hlive hdue hpos hle _ horder =>
      rw [horder, get_set]
      split
      · next heq =>
          subst heq
          obtain rfl := Option.some.inj (hget.symm.trans hold)
          exact ⟨_, rfl, .filled amount (if_pos rfl) hlive hpos hle hdue⟩
      · next hne => exact ⟨order, hget, .kept (if_neg (Ne.symm hne))⟩
  | deposited _ _ _ _ _ horder => exact ⟨order, horder ▸ hget, .kept rfl⟩
  | withdrawn _ _ _ _ _ _ horder => exact ⟨order, horder ▸ hget, .kept rfl⟩
  | swept _ _ _ _ _ ids base hbase horder =>
      rcases sweepOrders_get env base ids 0 id with hsame | ⟨old, hold, hsweep, hexpired⟩
      · refine ⟨order, ?_, .kept rfl⟩
        rw [horder, hsame, hbase]
        exact hget
      · rw [hbase] at hold
        obtain rfl := Option.some.inj (hget.symm.trans hold)
        exact ⟨_, by rw [horder, hexpired], .expired rfl hsweep.1⟩

/-- An order that was not there before was listed by this call. -/
theorem listed_of_routerStep {env : Env} (issuers : Issuers) {s s' : State} {call : Call}
    {out : Output} (h : RouterStep env s s' call out) {id : Nat} (hget : s.order.get id = none)
    {order : Order} (hget' : s'.order.get id = some order) :
    LogEntry.listingOf id ⟨s, ⟨env, issuers, call⟩, out, s'⟩ = some order.amount ∧
      call.fillOf id = none ∧ id = s'.orderCount ∧ 0 < order.amount ∧ order.status = .open := by
  have hset : ∀ {key : Nat} {old new : Order}, s.order.get key = some old →
      s'.order = s.order.set key new → False := by
    intro key old new hold horder
    rw [horder, get_set] at hget'
    split at hget'
    · next heq =>
        subst heq
        simp [hget] at hold
    · simp [hget] at hget'
  cases h with
  | administered _ _ horder => simp [horder, hget] at hget'
  | listed listing _ _ hlisted horder hcount =>
      rw [horder, get_set] at hget'
      split at hget'
      · next heq =>
          obtain rfl := Option.some.inj hget'
          refine ⟨?_, rfl, heq.trans hcount.symm, hlisted.amount_pos, hlisted.status_eq⟩
          simp [LogEntry.listingOf, heq]
      · simp [hget] at hget'
  | cancelled _ _ _ _ hold _ horder => exact (hset hold horder).elim
  | bought _ _ _ _ _ _ hold _ _ _ _ _ horder => exact (hset hold horder).elim
  | deposited _ _ _ _ _ horder => simp [horder, hget] at hget'
  | withdrawn _ _ _ _ _ _ horder => simp [horder, hget] at hget'
  | swept _ _ _ _ _ ids base hbase horder =>
      rcases sweepOrders_get env base ids 0 id with hsame | ⟨old, hold, -, -⟩
      · rw [horder, hsame, hbase, hget] at hget'
        exact absurd hget' (by simp)
      · rw [hbase, hget] at hold
        exact absurd hold (by simp)

/-- A call lists nothing under an id that was given out before. -/
theorem listingOf_eq_none {env : Env} {issuers : Issuers} {s s' : State} {call : Call}
    {out : Output} (h : RouterStep env s s' call out) {id : Nat} (hid : id ≤ s.orderCount) :
    LogEntry.listingOf id ⟨s, ⟨env, issuers, call⟩, out, s'⟩ = none := by
  cases h with
  | listed listing =>
      have hother : s.orderCount + 1 ≠ id := by omega
      simp [LogEntry.listingOf, hother]
  | _ => rfl

/-- A call that leaves an id unused neither lists nor fills it. -/
theorem unlisted_of_routerStep {env : Env} (issuers : Issuers) {s s' : State} {call : Call}
    {out : Output} (h : RouterStep env s s' call out) {id : Nat} (hget : s.order.get id = none)
    (hget' : s'.order.get id = none) :
    LogEntry.listingOf id ⟨s, ⟨env, issuers, call⟩, out, s'⟩ = none ∧ call.fillOf id = none := by
  cases h with
  | listed listing _ _ _ horder =>
      refine ⟨?_, rfl⟩
      have hother : s.orderCount + 1 ≠ id := by
        rintro rfl
        simp [horder] at hget'
      simp [LogEntry.listingOf, hother]
  | bought buyer key _ _ _ old hold =>
      refine ⟨rfl, if_neg ?_⟩
      rintro rfl
      simp [hget] at hold
  | _ => exact ⟨rfl, rfl⟩

/-- The number of orders does not fall. -/
theorem orderCount_mono {env : Env} {s s' : State} {call : Call} {out : Output}
    (h : RouterStep env s s' call out) : s.orderCount ≤ s'.orderCount := by
  cases h with
  | listed _ _ _ _ _ hcount => omega
  | administered _ _ _ hcount => exact hcount.ge
  | cancelled _ _ _ _ _ _ _ hcount => exact hcount.ge
  | bought _ _ _ _ _ _ _ _ _ _ _ _ _ hcount => exact hcount.ge
  | deposited _ _ _ _ _ _ hcount => exact hcount.ge
  | withdrawn _ _ _ _ _ _ _ hcount => exact hcount.ge
  | swept _ _ _ _ _ _ _ _ _ hcount => exact hcount.ge

/-! ## The history of an order -/

/-- How an order stands to the amount listed and to its fills so far. -/
structure Order.History (order : Order) (listed : Int) (fills : List Int) : Prop where
  fills_pos : ∀ amount ∈ fills, 0 < amount
  accounted : order.status ≠ .filled → fills.sum + order.amount = listed ∧ 0 < order.amount
  filled : order.status = .filled → fills.sum = listed
  opened : order.status = .open → fills = []
  partly : order.status = .partiallyFilled → fills ≠ []

/-- A live order is not filled. -/
theorem Order.Live.ne_filled {order : Order} (h : order.Live) : order.status ≠ .filled := by
  rcases h with h | h <;> simp [h]

/-- A move appends its fill to the history. -/
theorem Order.History.move {env : Env} {call : Call} {id : Nat} {order order' : Order}
    {listed : Int} {fs : List Int} (hs : order.History listed fs)
    (h : OrderMove env call id order order') :
    order'.History listed (fs ++ (call.fillOf id).toList) := by
  cases h with
  | kept hfill => simpa [hfill] using hs
  | cancelled hfill hlive =>
      simp only [hfill, Option.toList_none, List.append_nil]
      exact ⟨hs.fills_pos, fun _ => hs.accounted hlive.ne_filled, by simp, by simp, by simp⟩
  | expired hfill hlive =>
      simp only [hfill, Option.toList_none, List.append_nil]
      exact ⟨hs.fills_pos, fun _ => hs.accounted hlive.ne_filled, by simp, by simp, by simp⟩
  | filled amount hfill hlive hpos hle =>
      obtain ⟨hsum, -⟩ := hs.accounted hlive.ne_filled
      have hfills : ∀ a ∈ fs ++ [amount], 0 < a := by
        intro a ha
        rcases List.mem_append.mp ha with ha | ha
        · exact hs.fills_pos a ha
        · obtain rfl := List.mem_singleton.mp ha
          exact hpos
      have htotal : (fs ++ [amount]).sum = fs.sum + amount := by simp
      simp only [hfill, Option.toList_some]
      unfold Order.fill
      split
      · next hall =>
          -- the last fill leaves the stored amount as it was
          exact ⟨hfills, by simp, fun _ => by omega, by simp, by simp⟩
      · exact ⟨hfills, fun _ => by dsimp only; omega, by simp, by simp, by simp⟩

/-- Every order has its history, and an id without an order has none. -/
structure OrderBook (s : State) (log : List LogEntry) : Prop where
  unused : ∀ id, s.orderCount < id → s.order.get id = none
  unlisted : ∀ id, s.order.get id = none → listings id log = [] ∧ fills id log = []
  history : ∀ id order, s.order.get id = some order → ∃ listed,
    listings id log = [listed] ∧ order.History listed (fills id log)
  due : ∀ id order, s.order.get id = some order → ∀ e ∈ log, ∀ amount,
    e.fillOf id = some amount → e.input.env.timestamp < order.expiresAt

theorem orderBook_constructor (admin bondIssuerAddress : Address) :
    OrderBook (constructor admin bondIssuerAddress) [] where
  unused id _ := by simp [constructor]
  unlisted id _ := ⟨rfl, rfl⟩
  history id order hget := by simp [constructor] at hget
  due id order hget := by simp [constructor] at hget

/-- Every order's number is within the count. -/
theorem OrderBook.le_orderCount {s : State} {log : List LogEntry} (hs : OrderBook s log)
    {id : Nat} {order : Order} (hget : s.order.get id = some order) : id ≤ s.orderCount := by
  by_contra hbeyond
  simp [hs.unused id (by omega)] at hget

/-- One transaction keeps the book in step with the log. -/
theorem OrderBook.fires {log : List LogEntry} {e : LogEntry} (hs : OrderBook e.before log)
    (h : machine.Fires e) : OrderBook e.after (log ++ [e]) := by
  obtain ⟨s, ⟨env, issuers, call⟩, out, s'⟩ := e
  have hstep : RouterStep env s s' call out := routerStep_of_fires h
  change OrderBook s log at hs
  have hlistings : ∀ id, listings id (log ++ [⟨s, ⟨env, issuers, call⟩, out, s'⟩]) =
      listings id log ++ (LogEntry.listingOf id ⟨s, ⟨env, issuers, call⟩, out, s'⟩).toList :=
    fun id => Machine.filterMap_snoc _ log _
  have hfills : ∀ id, fills id (log ++ [⟨s, ⟨env, issuers, call⟩, out, s'⟩]) =
      fills id log ++ (call.fillOf id).toList :=
    fun id => Machine.filterMap_snoc _ log _
  -- an order of the new storage was moved, or it is the one just listed
  have hnew : ∀ id order', s'.order.get id = some order' →
      (∃ order, s.order.get id = some order ∧ id ≤ s.orderCount ∧
        OrderMove env call id order order') ∨ s.order.get id = none := by
    intro id order' hget'
    cases hget : s.order.get id with
    | none => exact Or.inr rfl
    | some order =>
        obtain ⟨moved, hmoved, hmove⟩ := orderMove_of_routerStep hstep hget (hs.le_orderCount hget)
        obtain rfl := Option.some.inj (hmoved.symm.trans hget')
        exact Or.inl ⟨order, rfl, hs.le_orderCount hget, hmove⟩
  constructor
  · intro id hbeyond
    cases hget' : s'.order.get id with
    | none => rfl
    | some order' =>
        have hmono := orderCount_mono hstep
        rcases hnew id order' hget' with ⟨order, hget, hid, -⟩ | hnone
        · change s'.orderCount < id at hbeyond
          omega
        · have hid := (listed_of_routerStep issuers hstep hnone hget').2.2.1
          change s'.orderCount < id at hbeyond
          omega
  · intro id hget'
    have hget : s.order.get id = none := by
      cases hget : s.order.get id with
      | none => rfl
      | some order =>
          obtain ⟨moved, hmoved, -⟩ := orderMove_of_routerStep hstep hget (hs.le_orderCount hget)
          exact absurd (hmoved.symm.trans hget') (by simp)
    obtain ⟨hlisting, hfill⟩ := unlisted_of_routerStep issuers hstep hget hget'
    rw [hlistings, hfills, hlisting, hfill]
    simpa using hs.unlisted id hget
  · intro id order' hget'
    rw [hlistings, hfills]
    rcases hnew id order' hget' with ⟨order, hget, hid, hmove⟩ | hnone
    · obtain ⟨listed, hlisted, hhistory⟩ := hs.history id order hget
      refine ⟨listed, ?_, hhistory.move hmove⟩
      rw [listingOf_eq_none hstep hid, hlisted]
      rfl
    · obtain ⟨hlisting, hfill, -, hpos, hstatus⟩ := listed_of_routerStep issuers
        hstep hnone hget'
      obtain ⟨hnolisting, hnofill⟩ := hs.unlisted id hnone
      rw [hlisting, hfill, hnolisting, hnofill]
      exact ⟨order'.amount, rfl, by simp, fun _ => ⟨by simp, hpos⟩, by simp [hstatus],
        fun _ => rfl, by simp [hstatus]⟩
  · intro id order' hget' entry hentry amount hamount
    rcases List.mem_append.mp hentry with hold | hlast
    · rcases hnew id order' hget' with ⟨order, hget, -, hmove⟩ | hnone
      · rw [hmove.expiresAt_eq]
        exact hs.due id order hget entry hold amount hamount
      · have hmem : amount ∈ fills id log := List.mem_filterMap.mpr ⟨entry, hold, hamount⟩
        simp [(hs.unlisted id hnone).2] at hmem
    · obtain rfl := List.mem_singleton.mp hlast
      change call.fillOf id = some amount at hamount
      rcases hnew id order' hget' with ⟨order, hget, -, hmove⟩ | hnone
      · rw [hmove.expiresAt_eq]
        exact hmove.fill_due hamount
      · have hfill := (listed_of_routerStep issuers hstep hnone hget').2.1
        simp [hfill] at hamount

/-- The book is in step with the log after every run. -/
theorem orderBook_run (admin bondIssuerAddress : Address) (calls : List Tx) :
    OrderBook (machine.run (constructor admin bondIssuerAddress) calls)
      (machine.log (constructor admin bondIssuerAddress) calls) :=
  machine.invariant (orderBook_constructor admin bondIssuerAddress)
    (fun _ _ hfires hs => hs.fires hfires) calls

/-- **Closed orders stay closed.**  A filled, cancelled or expired order is
what it is in every later state. -/
theorem closed_order_kept {admin bondIssuerAddress : Address} {calls : List Tx} {id : Nat}
    {order : Order}
    (hget : (machine.run (constructor admin bondIssuerAddress) calls).order.get id = some order)
    (hclosed : ¬ order.Live) (later : List Tx) :
    (machine.run (constructor admin bondIssuerAddress) (calls ++ later)).order.get id =
      some order := by
  induction later using List.reverseRecOn with
  | nil => simpa using hget
  | append_singleton later tx ih =>
      rw [← List.append_assoc]
      have hbook := orderBook_run admin bondIssuerAddress (calls ++ later)
      rcases machine.snoc_cases (constructor admin bondIssuerAddress) (calls ++ later) tx with
        ⟨hrun, -⟩ | ⟨e, hfires, -, hbefore, hrun, -⟩
      · rwa [hrun]
      · rw [hrun]
        rw [← hbefore] at ih hbook
        obtain ⟨order', hget', hmove⟩ := orderMove_of_routerStep (routerStep_of_fires hfires) ih
          (hbook.le_orderCount ih)
        obtain ⟨rfl, -⟩ := hmove.eq_of_not_live hclosed
        exact hget'

/-- **The life of an order.**  It was listed once.  While it is live its fills
and what remains add up to the amount listed; it is filled exactly when the
fills reach that amount; no fill is late; and once closed it stays as it is. -/
theorem order_lifecycle (admin bondIssuerAddress : Address) (calls : List Tx) (id : Nat)
    (order : Order)
    (hget : getOrder (machine.run (constructor admin bondIssuerAddress) calls) id = .ok order) :
    let log := machine.log (constructor admin bondIssuerAddress) calls
    ∃ listed, listings id log = [listed] ∧
      (order.Live → (fills id log).sum + order.amount = listed ∧ 0 < order.amount) ∧
      (order.status = .open → fills id log = []) ∧
      (order.status = .partiallyFilled → fills id log ≠ []) ∧
      (order.status = .filled ↔ (fills id log).sum = listed) ∧
      (fills id log).sum ≤ listed ∧
      (∀ e ∈ log, ∀ amount, LogEntry.fillOf id e = some amount →
        0 < amount ∧ e.input.env.timestamp < order.expiresAt) ∧
      (¬ order.Live → ∀ later,
        getOrder (machine.run (constructor admin bondIssuerAddress) (calls ++ later)) id =
          .ok order) := by
  intro log
  have hstored := Fallible.okOr_ok_iff.mp hget
  have hbook := orderBook_run admin bondIssuerAddress calls
  obtain ⟨listed, hlisted, hhistory⟩ := hbook.history id order hstored
  refine ⟨listed, hlisted, fun hlive => hhistory.accounted hlive.ne_filled, hhistory.opened,
    hhistory.partly, ⟨hhistory.filled, fun hsum => ?_⟩, ?_, ?_, fun hclosed later => ?_⟩
  · by_contra hnot
    have := hhistory.accounted hnot
    change (fills id (machine.log _ calls)).sum = listed at hsum
    omega
  · by_cases hfilled : order.status = .filled
    · exact (hhistory.filled hfilled).le
    · have := hhistory.accounted hfilled
      change (fills id (machine.log _ calls)).sum ≤ listed
      omega
  · intro e he amount hamount
    exact ⟨hhistory.fills_pos amount (List.mem_filterMap.mpr ⟨e, he, hamount⟩),
      hbook.due id order hstored e he amount hamount⟩
  · exact Fallible.okOr_ok_iff.mpr (closed_order_kept hstored hclosed later)

/-- An issuer where account 1 holds 500 tokens of bond 1. -/
def tokenIssuer : BondIssuer.State :=
  { BondIssuer.constructor 0 with
    bondConfig := Storage.set ∅ 1 BondIssuer.sampleConfig
    bondState := Storage.set ∅ 1 ⟨500, .active, 1⟩
    holderBalance := Storage.set ∅ (1, 1) 500 }

/-- A call of the router, with an issuer whose tokens the sellers have. -/
def tokenTx (timestamp : Nat) (signers : List Address) (call : Call) : Tx :=
  ⟨⟨timestamp, signers, none, 50, false⟩, fun _ => some tokenIssuer, call⟩

/-- A listing of 200 tokens of which 80 are bought. -/
def partlyBought : List Tx := [
  tokenTx 3 [1] (.listBondTokens 1 1 200 5 "USDC" 10 0),
  tokenTx 3 [2] (.depositQuote 2 "USDC" 1000 0),
  tokenTx 4 [2, 1] (.executePurchase 2 1 5 80 1)]

/-- In the sample run what has been bought and what is left add up to the amount listed. -/
theorem order_lifecycle_partlyBought :
    (fills 1 (machine.log (constructor 0 9) partlyBought)).sum + 120 = 200 := by
  have hget : getOrder (machine.run (constructor 0 9) partlyBought) 1 =
      .ok ⟨1, 1, 1, 120, 5, "USDC", .partiallyFilled, 3, 13⟩ := by decide +kernel
  obtain ⟨listed, hlisted, hlive, -⟩ := order_lifecycle 0 9 partlyBought 1 _ hget
  have hlisting : listings 1 (machine.log (constructor 0 9) partlyBought) = [200] := by
    decide +kernel
  obtain rfl : listed = 200 := by simpa using hlisted.symm.trans hlisting
  exact (hlive (Or.inr rfl)).1

end EcoMint.DexRouter
