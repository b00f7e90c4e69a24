import EcoMint.Protocol

/-!
# The escrow of the DEX router

Every listing, cancellation and purchase moves the escrow of a seller on a bond
by exactly what it moves the seller's live orders.  The sweep of expired orders
does not: it closes the orders and leaves the escrow where it was.  So the
escrow is never below the live orders, and it equals them for as long as no
sweep closes a live order, and not a step longer.
-/

namespace EcoMint

namespace DexRouter

open Storage IntRange

/-- What an order locks for a seller on a bond. -/
def lockedShare (bondId : Nat) (seller : Address) (order : Order) : Int :=
  if order.bondId = bondId ∧ order.seller = seller ∧ order.Live then order.amount else 0

/-- The remaining amounts of the live orders of a seller on a bond. -/
def State.locked (s : State) (bondId : Nat) (seller : Address) : Int :=
  s.order.sum fun _ order => lockedShare bondId seller order

/-- The part of the escrow that no live order accounts for. -/
def State.excess (s : State) (bondId : Nat) (seller : Address) : Int :=
  s.bondEscrow.read (bondId, seller) - s.locked bondId seller

/-- What every reachable router storage satisfies. -/
structure EscrowInvariant (s : State) : Prop where
  live_pos : ∀ id order, s.order.get id = some order → order.Live → 0 < order.amount
  unused : ∀ id, s.orderCount < id → s.order.get id = none
  excess_nonneg : ∀ bondId seller, 0 ≤ s.excess bondId seller
  fits : ∀ k, i128.Fits (s.bondEscrow.read k)

theorem escrowInvariant_constructor (admin bondIssuerAddress : Address) :
    EscrowInvariant (constructor admin bondIssuerAddress) where
  live_pos id order h := by simp [constructor] at h
  unused id _ := by simp [constructor]
  excess_nonneg bondId seller := by simp [constructor, State.excess, State.locked]
  fits k := by simp only [constructor, read_empty]; decide

/-! ## Shares of one order -/

theorem lockedShare_nonneg {s : State} (hs : EscrowInvariant s) {id : Nat} {order : Order}
    (hget : s.order.get id = some order) (bondId : Nat) (seller : Address) :
    0 ≤ lockedShare bondId seller order := by
  unfold lockedShare
  split
  · next h => exact (hs.live_pos id order hget h.2.2).le
  · exact le_rfl

/-- An order that is not live locks nothing. -/
theorem lockedShare_of_not_live {order : Order} (h : ¬ order.Live) (bondId : Nat)
    (seller : Address) : lockedShare bondId seller order = 0 := by
  simp [lockedShare, h]

/-- A live order locks its amount for its seller. -/
theorem lockedShare_self {order : Order} (h : order.Live) :
    lockedShare order.bondId order.seller order = order.amount := by
  simp [lockedShare, h]

/-- Buying part of a live order unlocks that part. -/
theorem lockedShare_fill {order : Order} (hlive : order.Live) (amount : Int) (bondId : Nat)
    (seller : Address) :
    lockedShare bondId seller (order.fill amount) = lockedShare bondId seller order -
      if (bondId, seller) = (order.bondId, order.seller) then amount else 0 := by
  unfold Order.fill
  split
  · next hall =>
      have hclosed : ¬ ({ order with status := .filled } : Order).Live := by simp [Order.Live]
      rw [lockedShare_of_not_live hclosed, hall]
      simp only [lockedShare, hlive, and_true, Prod.mk.injEq]
      split <;> split <;> first | omega | (exfalso; tauto)
  · have hopen : ({ order with status := .partiallyFilled, amount := order.amount - amount } :
        Order).Live := Or.inr rfl
    simp only [lockedShare, hlive, hopen, and_true, Prod.mk.injEq]
    split <;> split <;> first | omega | (exfalso; tauto)

/-- Writing one order changes what is locked by the change of its share. -/
theorem locked_set (s : State) {id : Nat} {order : Order} (hget : s.order.get id = some order)
    (order' : Order) (bondId : Nat) (seller : Address) :
    (s.order.set id order').sum (fun _ o => lockedShare bondId seller o) =
      s.locked bondId seller - lockedShare bondId seller order +
        lockedShare bondId seller order' := by
  rw [sum_set, hget]
  rfl

/-- One live order is at most everything locked for its seller. -/
theorem amount_le_escrow {s : State} (hs : EscrowInvariant s) {id : Nat} {order : Order}
    (hget : s.order.get id = some order) (hlive : order.Live) :
    order.amount ≤ s.bondEscrow.read (order.bondId, order.seller) := by
  have hshare : lockedShare order.bondId order.seller order ≤
      s.locked order.bondId order.seller :=
    le_sum_of_get (f := fun _ o => lockedShare order.bondId order.seller o)
      (fun id' o hget' => lockedShare_nonneg hs hget' _ _) hget
  rw [lockedShare_self hlive] at hshare
  have hexcess := hs.excess_nonneg order.bondId order.seller
  unfold State.excess at hexcess
  omega

/-! ## The sweep loop -/

/-- Marking an order as expired takes its share out of what is locked. -/
theorem locked_markOrderExpired (s : State) {id : Nat} {order : Order}
    (hget : s.order.get id = some order) (bondId : Nat) (seller : Address) :
    (markOrderExpired s id order).locked bondId seller =
      s.locked bondId seller - lockedShare bondId seller order := by
  have hclosed : ¬ ({ order with status := .expired } : Order).Live := by simp [Order.Live]
  show (s.order.set id { order with status := .expired }).sum _ = _
  rw [locked_set s hget, lockedShare_of_not_live hclosed]
  omega

/-- Marking an order as expired keeps the invariant of the escrow. -/
theorem EscrowInvariant.markOrderExpired {s : State} (hs : EscrowInvariant s) {id : Nat}
    {order : Order} (hget : s.order.get id = some order) :
    EscrowInvariant (markOrderExpired s id order) := by
  constructor
  case live_pos =>
    intro id' order' hget' hlive
    have hget'' : (s.order.set id { order with status := .expired }).get id' = some order' :=
      hget'
    rw [get_set] at hget''
    split at hget''
    · obtain rfl := Option.some.inj hget''
      simp [Order.Live] at hlive
    · exact hs.live_pos id' order' hget'' hlive
  case unused =>
    intro id' hid
    have hne : id' ≠ id := by
      rintro rfl
      simp [hs.unused id' hid] at hget
    exact (get_set_ne _ _ hne).trans (hs.unused id' hid)
  case excess_nonneg =>
    intro bondId seller
    have hshare := lockedShare_nonneg hs hget bondId seller
    have hexcess := hs.excess_nonneg bondId seller
    unfold State.excess at *
    rw [locked_markOrderExpired s hget]
    show 0 ≤ s.bondEscrow.read (bondId, seller) - _
    omega
  case fits =>
    exact hs.fits

/-- A sweep keeps the invariant and the escrow, and never locks more. -/
theorem sweepOrders_spec (env : Env) {s : State} (hs : EscrowInvariant s) (ids : List Nat)
    (cleaned : Nat) :
    EscrowInvariant (sweepOrders env ids (cleaned, s)).2 ∧
      ∀ bondId seller, s.excess bondId seller ≤
        (sweepOrders env ids (cleaned, s)).2.excess bondId seller := by
  induction ids generalizing s cleaned with
  | nil => exact ⟨hs, fun _ _ => le_rfl⟩
  | cons id rest ih =>
      unfold sweepOrders
      cases hget : s.order.get id with
      | none => exact ih hs cleaned
      | some order =>
          dsimp only
          split
          · obtain ⟨hs', hle⟩ := ih (hs.markOrderExpired hget) (cleaned + 1)
            refine ⟨hs', fun bondId seller => (hle bondId seller).trans' ?_⟩
            have hshare := lockedShare_nonneg hs hget bondId seller
            unfold State.excess
            rw [locked_markOrderExpired s hget]
            show _ ≤ s.bondEscrow.read (bondId, seller) - _
            omega
          · exact ih hs cleaned

/-- A sweep never touches the escrow. -/
theorem sweepOrders_bondEscrow {env : Env} (s : State) (ids : List Nat) (cleaned : Nat) :
    (sweepOrders env ids (cleaned, s)).2.bondEscrow = s.bondEscrow := by
  induction ids generalizing s cleaned with
  | nil => rfl
  | cons id rest ih =>
      unfold sweepOrders
      cases s.order.get id with
      | none => exact ih s cleaned
      | some order =>
          dsimp only
          split
          · exact ih (markOrderExpired s id order) (cleaned + 1)
          · exact ih s cleaned

/-- A sweep over orders none of which it may mark changes nothing. -/
theorem sweepOrders_eq_self {env : Env} {s : State} {ids : List Nat}
    (hnone : ∀ id ∈ ids, ∀ order, s.order.get id = some order → ¬ order.sweepable env)
    (cleaned : Nat) : sweepOrders env ids (cleaned, s) = (cleaned, s) := by
  induction ids with
  | nil => rfl
  | cons id rest ih =>
      have hrest := ih fun id' hmem => hnone id' (List.mem_cons_of_mem _ hmem)
      unfold sweepOrders
      cases hget : s.order.get id with
      | none => exact hrest
      | some order =>
          dsimp only
          rw [if_neg (hnone id List.mem_cons_self order hget)]
          exact hrest

/-- A sweep that meets an order to mark leaves its amount in the escrow of its
seller with nothing locked for it. -/
theorem lt_excess_sweepOrders {env : Env} {s : State} (hs : EscrowInvariant s)
    {ids : List Nat} {id : Nat} {order : Order} (hmem : id ∈ ids)
    (hget : s.order.get id = some order) (hsweep : order.sweepable env) (cleaned : Nat) :
    s.excess order.bondId order.seller <
      (sweepOrders env ids (cleaned, s)).2.excess order.bondId order.seller := by
  have hpos := hs.live_pos id order hget hsweep.1
  induction ids generalizing s cleaned with
  | nil => simp at hmem
  | cons head rest ih =>
      unfold sweepOrders
      by_cases hhead : head = id
      · subst hhead
        simp only [hget, hsweep, if_true]
        have hle := (sweepOrders_spec env (hs.markOrderExpired hget) rest
          (cleaned + 1)).2 order.bondId order.seller
        refine lt_of_lt_of_le ?_ hle
        unfold State.excess
        rw [locked_markOrderExpired s hget, lockedShare_self hsweep.1]
        show _ < s.bondEscrow.read (order.bondId, order.seller) - _
        omega
      · have hmem' : id ∈ rest := by
          rcases List.mem_cons.mp hmem with h | h
          · exact absurd h.symm hhead
          · exact h
        cases hget' : s.order.get head with
        | none => exact ih hs hmem' hget cleaned
        | some other =>
            dsimp only
            split
            · have hkept : (markOrderExpired s head other).order.get id = some order :=
                (get_set_ne _ _ (Ne.symm hhead)).trans hget
              refine lt_of_le_of_lt ?_ (ih (hs.markOrderExpired hget') hmem' hkept (cleaned + 1))
              have hshare := lockedShare_nonneg hs hget' order.bondId order.seller
              unfold State.excess
              rw [locked_markOrderExpired s hget']
              show _ ≤ s.bondEscrow.read (order.bondId, order.seller) - _
              omega
            · exact ih hs hmem' hget cleaned

/-! ## One call -/

/-- Taking the same amount off a live order and off the escrow of its seller. -/
theorem EscrowInvariant.take {s s' : State} (hs : EscrowInvariant s) {id : Nat}
    {order order' : Order} {taken : Int} (hget : s.order.get id = some order)
    (hnonneg : 0 ≤ taken) (hle : taken ≤ s.bondEscrow.read (order.bondId, order.seller))
    (hpos : order'.Live → 0 < order'.amount)
    (hshare : ∀ bondId seller, lockedShare bondId seller order' =
      lockedShare bondId seller order -
        if (bondId, seller) = (order.bondId, order.seller) then taken else 0)
    (horder : s'.order = s.order.set id order') (hcount : s'.orderCount = s.orderCount)
    (hread : ∀ k, s'.bondEscrow.read k = s.bondEscrow.read k -
      if k = (order.bondId, order.seller) then taken else 0) :
    EscrowInvariant s' ∧ ∀ bondId seller, s'.excess bondId seller = s.excess bondId seller := by
  have hexcess : ∀ bondId seller, s'.excess bondId seller = s.excess bondId seller := by
    intro bondId seller
    unfold State.excess
    rw [hread, State.locked, horder, locked_set s hget, hshare]
    omega
  refine ⟨⟨?_, ?_, fun b h => hexcess b h ▸ hs.excess_nonneg b h, ?_⟩, hexcess⟩
  · intro id' other hget' hlive
    rw [horder, get_set] at hget'
    split at hget'
    · obtain rfl := Option.some.inj hget'
      exact hpos hlive
    · exact hs.live_pos id' other hget' hlive
  · intro id' hid
    have hne : id' ≠ id := by
      rintro rfl
      simp [hs.unused id' (hcount ▸ hid)] at hget
    rw [horder, get_set_ne _ _ hne]
    exact hs.unused id' (hcount ▸ hid)
  · intro k
    rw [hread]
    split
    · next hk =>
        subst hk
        exact (hs.fits (order.bondId, order.seller)).of_nonneg_of_le _ (by omega) (by omega)
    · simpa using hs.fits k

/-- Listing an order locks its amount and puts it into the escrow. -/
theorem EscrowInvariant.listed {s s' : State} (hs : EscrowInvariant s) {order : Order}
    (hlive : order.Live) (hpos : 0 < order.amount)
    (hfits : i128.Fits (s.bondEscrow.read (order.bondId, order.seller) + order.amount))
    (horder : s'.order = s.order.set (s.orderCount + 1) order)
    (hcount : s'.orderCount = s.orderCount + 1)
    (hescrow : s'.bondEscrow = s.bondEscrow.credit (order.bondId, order.seller) order.amount) :
    EscrowInvariant s' ∧ ∀ bondId seller, s'.excess bondId seller = s.excess bondId seller := by
  have hunused := hs.unused (s.orderCount + 1) (Nat.lt_succ_self _)
  have hexcess : ∀ bondId seller, s'.excess bondId seller = s.excess bondId seller := by
    intro bondId seller
    simp only [State.excess, State.locked, horder, hescrow]
    rw [sum_set, hunused, read_credit]
    simp only [lockedShare, hlive, and_true, Prod.mk.injEq, Option.elim_none]
    split <;> split <;> first | omega | (exfalso; tauto)
  refine ⟨⟨?_, ?_, fun b h => hexcess b h ▸ hs.excess_nonneg b h, ?_⟩, hexcess⟩
  · intro id order' hget hlive'
    rw [horder, get_set] at hget
    split at hget
    · obtain rfl := Option.some.inj hget
      exact hpos
    · exact hs.live_pos id order' hget hlive'
  · intro id hid
    rw [hcount] at hid
    rw [horder, get_set_ne _ _ (by omega)]
    exact hs.unused id (by omega)
  · intro k
    rw [hescrow]
    by_cases hk : k = (order.bondId, order.seller)
    · subst hk
      rwa [read_credit_self]
    · rw [read_credit_ne _ _ hk]
      exact hs.fits k

/-- The call closes no live order by a sweep. -/
def SweepsNothing (env : Env) (s : State) (call : Call) : Prop :=
  ∀ id ∈ sweptIds s call, ∀ order, s.order.get id = some order → ¬ order.sweepable env

/-- **Step lemma.**  A call keeps the escrow invariant, never lowers the excess,
and leaves it as it was exactly if it sweeps no live order. -/
theorem EscrowInvariant.step {env : Env} {issuers : Issuers} {s s' : State}
    {issuer' : Option BondIssuer.State} {call : Call} (hs : EscrowInvariant s)
    (hstep : OrderStep env issuers s s' issuer' call) :
    EscrowInvariant s' ∧
      ((∀ bondId seller, s'.excess bondId seller = s.excess bondId seller) ↔
        SweepsNothing env s call) := by
  cases hstep with
  | idle horder hcount hescrow _ _ hswept =>
      obtain ⟨h1, h2, h3, h4⟩ := hs
      have hexcess : ∀ bondId seller, s'.excess bondId seller = s.excess bondId seller := by
        intro bondId seller
        simp only [State.excess, State.locked, horder, hescrow]
      exact ⟨⟨horder ▸ h1, horder ▸ hcount ▸ h2, fun b h => hexcess b h ▸ h3 b h,
        hescrow ▸ h4⟩, iff_of_true hexcess (by simp [SweepsNothing, hswept])⟩
  | listed order hstatus hpos _ hswept _ hfits horder hcount hescrow _ =>
      obtain ⟨hs', hexcess⟩ := hs.listed (Or.inl hstatus) hpos hfits horder hcount hescrow
      exact ⟨hs', iff_of_true hexcess (by simp [SweepsNothing, hswept])⟩
  | cancelled id order hget hlive horder hcount hescrow _ _ hswept =>
      have hclosed : ¬ ({ order with status := .cancelled } : Order).Live := by
        simp [Order.Live]
      have hpos := hs.live_pos id order hget hlive
      have hle := amount_le_escrow hs hget hlive
      have hfits : i128.Fits (s.bondEscrow.read (order.bondId, order.seller) - order.amount) :=
        (hs.fits (order.bondId, order.seller)).of_nonneg_of_le _ (by omega) (by omega)
      obtain ⟨hs', hexcess⟩ := hs.take hget hpos.le hle (fun h => absurd h hclosed)
        (fun bondId seller => by
          rw [lockedShare_of_not_live hclosed]
          simp only [lockedShare, hlive, and_true, Prod.mk.injEq]
          split <;> split <;> first | omega | (exfalso; tauto))
        horder hcount
        (fun k => by
          rw [hescrow, checkedSub, checked_of_fits _ hfits, Option.getD_some, read_set]
          split
          · next hk => rw [hk]
          · omega)
      exact ⟨hs', iff_of_true hexcess (by simp [SweepsNothing, hswept])⟩
  | bought id order buyer amount hget hlive hpos hle hescrowed _ horder hcount hescrow _
      hswept =>
      have hfill : (order.fill amount).Live → 0 < (order.fill amount).amount := by
        unfold Order.fill
        split
        · intro h
          simp [Order.Live] at h
        · intro _
          show 0 < order.amount - amount
          omega
      obtain ⟨hs', hexcess⟩ := hs.take hget hpos.le hescrowed hfill
        (lockedShare_fill hlive amount) horder hcount
        (fun k => by
          rw [hescrow, read_credit]
          split <;> omega)
      exact ⟨hs', iff_of_true hexcess (by simp [SweepsNothing, hswept])⟩
  | swept base horder hescrow hcount hafter _ _ =>
      have hexcess : ∀ bondId seller, base.excess bondId seller = s.excess bondId seller := by
        intro bondId seller
        simp only [State.excess, State.locked, horder, hescrow]
      have hbase : EscrowInvariant base := by
        obtain ⟨h1, h2, h3, h4⟩ := hs
        exact ⟨horder ▸ h1, horder ▸ hcount ▸ h2, fun b h => hexcess b h ▸ h3 b h,
          hescrow ▸ h4⟩
      subst hafter
      refine ⟨(sweepOrders_spec env hbase (sweptIds s call) 0).1, ?_, ?_⟩
      · intro hsame id hmem order hget hsweep
        have hlt := lt_excess_sweepOrders hbase hmem (horder ▸ hget) hsweep 0
        rw [hsame, hexcess] at hlt
        exact lt_irrefl _ hlt
      · intro hnone bondId seller
        rw [sweepOrders_eq_self (fun id hmem order hget => hnone id hmem order (horder ▸ hget))]
        exact hexcess bondId seller

end DexRouter

open DexRouter in
/-- The escrow invariant holds in the deployment. -/
theorem escrowInvariant (d : Deployment) (txs : List Tx) :
    EscrowInvariant (machine.run (deploy d) txs).dex := by
  refine machine.invariant (P := fun w _ => EscrowInvariant w.dex)
    (escrowInvariant_constructor d.dexAdmin d.issuerAddress) ?_ txs
  intro _ e hfires hs
  rcases (worldStep_of_execute hfires).dex_cases with ⟨hsame, -⟩ | ⟨call, issuer, -, hstep⟩
  · rwa [hsame]
  · exact (hs.step hstep).1

/-- The transaction is not a sweep that closes a live order whose time is up. -/
def LogEntry.SweepsNothing (e : LogEntry) : Prop :=
  ∀ call, e.input.call = .dex call →
    DexRouter.SweepsNothing (e.input.env e.before.dexAddress) e.before.dex call

open DexRouter in
/-- **DEX escrow.**  The escrow equals the live orders, for every seller and
bond and all along a run, exactly if no accepted `clean_expired_orders` of the
run finds an open or partially filled order past its deadline in its window. -/
theorem dex_escrow_exact_iff (d : Deployment) (txs : List Tx) :
    (∀ pre, pre <+: txs → ∀ bondId seller,
      getSellerBondEscrow (machine.run (deploy d) pre).dex seller bondId =
        (machine.run (deploy d) pre).dex.locked bondId seller) ↔
      ∀ e ∈ machine.log (deploy d) txs, LogEntry.SweepsNothing e := by
  rw [← Machine.forall_prefix_iff_forall_mem]
  refine machine.holds_iff (I := fun w _ => EscrowInvariant w.dex)
    (P := fun w _ => ∀ bondId seller, getSellerBondEscrow w.dex seller bondId =
      w.dex.locked bondId seller)
    (C := fun _ e => LogEntry.SweepsNothing e) (fun calls => escrowInvariant d calls) ?_ ?_ txs
  · intro bondId seller
    simp [deploy, DexRouter.constructor, getSellerBondEscrow, State.locked]
  · intro _ e hfires hs hexact
    rcases (worldStep_of_execute hfires).dex_cases with
      ⟨hsame, hcall⟩ | ⟨call, issuer, hcall, hstep⟩
    · exact iff_of_true (hsame ▸ hexact) fun call h => absurd h (hcall call)
    · have hcond : LogEntry.SweepsNothing e ↔
          SweepsNothing (e.input.env e.before.dexAddress) e.before.dex call := by
        simp [LogEntry.SweepsNothing, hcall]
      rw [hcond, ← (hs.step hstep).2]
      refine forall₂_congr fun bondId seller => ?_
      have hbefore : e.before.dex.bondEscrow.read (bondId, seller) =
          e.before.dex.locked bondId seller := hexact bondId seller
      unfold State.excess getSellerBondEscrow
      constructor <;> intro h <;> omega

/-- One bond, one seller, one listing that expires and is swept. -/
def sweptListing : List Tx := [
  sampleTx 1 0 (.issuer (.issueBond 0 BondIssuer.sampleConfig 0)),
  sampleTx 2 1 (.issuer (.subscribe 1 1 500 0)),
  sampleTx 3 1 (.dex (.listBondTokens 1 1 200 5 "USDC" 10 0)),
  sampleTx 20 0 (.dex (.cleanExpiredOrders 0 0 10 0))]

/-- The sweep leaves the 200 tokens of the expired order in the escrow, where
no live order accounts for them. -/
theorem dex_escrow_kept_by_sweep :
    ¬ ∀ (d : Deployment) (txs : List Tx) (bondId : Nat) (seller : Address),
      DexRouter.getSellerBondEscrow (machine.run (deploy d) txs).dex seller bondId =
        (machine.run (deploy d) txs).dex.locked bondId seller := by
  intro h
  have hescrow : DexRouter.getSellerBondEscrow
      (machine.run (deploy sampleDeployment) sweptListing).dex 1 1 = 200 := by decide +kernel
  have hlocked : (machine.run (deploy sampleDeployment) sweptListing).dex.locked 1 1 = 0 := by
    decide +kernel
  rw [h, hlocked] at hescrow
  omega

end EcoMint
