import EcoMint.DexLedger
import EcoMint.SecondaryIndex

/-!
# The orders of a seller and of a bond

Every order is stored under its own id, the ids run from one to the order count,
and the router keeps for every seller and for every bond the ids of their orders.

Only a listing writes to these lists.  Cancellations, purchases and sweeps store
an order again, but never with another id, seller or bond, so the lists go on
saying what the orders say.
-/

namespace EcoMint.DexRouter

open Fallible Storage IntRange

/-- What is never written to again once an order is listed. -/
def Order.origin (order : Order) : Nat × Address × Nat := (order.id, order.seller, order.bondId)

/-! ## What one call does to the index -/

/-- A call lists an order under the next id and appends it to the two lists, or it
leaves the lists and the origin of every order alone. -/
inductive IndexStep (s s' : State) : Prop
  | listed (order : Order) (hid : order.id = s.orderCount + 1)
      (horder : s'.order = s.order.set (s.orderCount + 1) order)
      (hcount : s'.orderCount = s.orderCount + 1)
      (hseller : s'.sellerOrders = s.sellerOrders.set order.seller
        (getSellerOrders s order.seller ++ [s.orderCount + 1]))
      (hbond : s'.bondOrders = s.bondOrders.set order.bondId
        (getBondOrders s order.bondId ++ [s.orderCount + 1]))
  | rewritten (horder : ∀ id, (s'.order.get id).map Order.origin =
        (s.order.get id).map Order.origin)
      (hcount : s'.orderCount = s.orderCount) (hseller : s'.sellerOrders = s.sellerOrders)
      (hbond : s'.bondOrders = s.bondOrders)

/-- Listing appends one order to the two lists. -/
theorem indexStep_listBondTokens {env : Env} {issuers : Issuers} {s s' : State}
    {seller : Address} {bondId : Nat} {amount pricePerToken : Int} {quoteAsset : Symbol}
    {expiresAfterSeconds nonce id : Nat}
    (h : listBondTokens env issuers s seller bondId amount pricePerToken quoteAsset
      expiresAfterSeconds nonce = .ok (id, s')) : IndexStep s s' := by
  simp only [listBondTokens, consumeNonce, bind_ok_iff, pure_ok_iff, Prod.mk.injEq] at h
  obtain ⟨_, _, _, ⟨_, _, rfl⟩, _, _, _, _, _, _, _, _, expiresAt, _, -, rfl⟩ := h
  exact .listed _ rfl rfl rfl rfl rfl

/-- Cancelling leaves the lists and the orders' origins as they are. -/
theorem indexStep_cancelListing {env : Env} {s s' : State} {caller : Address}
    {orderId nonce : Nat} (h : cancelListing env s caller orderId nonce = .ok s') :
    IndexStep s s' := by
  simp only [cancelListing, consumeNonce, bind_ok_iff, pure_ok_iff, okOr_ok_iff] at h
  obtain ⟨_, _, _, ⟨_, _, rfl⟩, order, hget, _, _, _, _, rfl⟩ := h
  have hsame : ({ order with status := .cancelled } : Order).origin = order.origin := rfl
  exact .rewritten (fun id => map_get_set hget hsame id) rfl rfl rfl

/-- Filling an order leaves its origin as it is. -/
theorem Order.fill_origin (order : Order) (amount : Int) :
    (order.fill amount).origin = order.origin := by
  unfold Order.fill
  split <;> rfl

/-- A purchase leaves the lists and the orders' origins as they are. -/
theorem indexStep_executePurchase {env : Env} {issuers : Issuers} {s s' : State}
    {issuer' : BondIssuer.State} {buyer : Address} {orderId : Nat} {maxPrice amount : Int}
    {nonce : Nat}
    (h : executePurchase env issuers s buyer orderId maxPrice amount nonce = .ok (issuer', s')) :
    IndexStep s s' := by
  obtain ⟨order, hget, -, -, -, -, -, -, -, -, -, -, -, -, -, -, -, -, -, rfl⟩ :=
    executePurchase_ok_iff.mp h
  exact .rewritten (fun id => map_get_set hget (order.fill_origin amount) id) rfl rfl rfl

/-- The sweep leaves the lists as they are. -/
theorem sweepOrders_lists (env : Env) (s : State) (ids : List Nat) (cleaned : Nat) :
    (sweepOrders env ids (cleaned, s)).2.sellerOrders = s.sellerOrders ∧
      (sweepOrders env ids (cleaned, s)).2.bondOrders = s.bondOrders := by
  induction ids generalizing s cleaned with
  | nil => exact ⟨rfl, rfl⟩
  | cons id rest ih =>
      unfold sweepOrders
      cases s.order.get id with
      | none => exact ih s cleaned
      | some order =>
          dsimp only
          split
          · exact ih (markOrderExpired s id order) (cleaned + 1)
          · exact ih s cleaned

/-- The sweep leaves the orders' origins as they are. -/
theorem sweepOrders_origin (env : Env) (s : State) (ids : List Nat) (cleaned id : Nat) :
    ((sweepOrders env ids (cleaned, s)).2.order.get id).map Order.origin =
      (s.order.get id).map Order.origin := by
  rcases sweepOrders_get env s ids cleaned id with hsame | ⟨order, hget, -, hexpired⟩
  · rw [hsame]
  · rw [hexpired, hget]
    rfl

/-- Cleaning expired orders leaves the lists and the origins as they are. -/
theorem indexStep_cleanExpiredOrders {env : Env} {s s' : State} {caller : Address}
    {startId limit nonce : Nat} {result : CleanExpiredResult}
    (h : cleanExpiredOrders env s caller startId limit nonce = .ok (result, s')) :
    IndexStep s s' := by
  simp only [cleanExpiredOrders, consumeNonce, bind_ok_iff, pure_ok_iff] at h
  obtain ⟨_, _, _, ⟨nonces, _, rfl⟩, _, _, _, _, h⟩ := h
  split at h
  · obtain ⟨-, rfl⟩ := Prod.mk.inj (pure_ok_iff.mp h)
    exact .rewritten (fun _ => rfl) rfl rfl rfl
  · obtain ⟨-, rfl⟩ := Prod.mk.inj (pure_ok_iff.mp h)
    obtain ⟨-, hcount⟩ := sweepOrders_balance env { s with nonce := nonces }
      (sweepWindow s.orderCount startId limit) 0
    obtain ⟨hseller, hbond⟩ := sweepOrders_lists env { s with nonce := nonces }
      (sweepWindow s.orderCount startId limit) 0
    exact .rewritten (sweepOrders_origin env { s with nonce := nonces } _ 0) hcount hseller hbond

/-- **Step lemma.**  Every successful call is an `IndexStep`. -/
theorem indexStep_of_fires {e : LogEntry} (h : machine.Fires e) : IndexStep e.before e.after := by
  obtain ⟨s, ⟨env, issuers, call⟩, out, s'⟩ := e
  simp only [Machine.Fires, machine, bind_ok_iff, pure_ok_iff, Prod.mk.injEq, Prod.exists] at h
  obtain ⟨_, issuer, _, h, rfl, rfl⟩ := h
  show IndexStep s _
  cases call with
  | setAdmin currentAdmin newAdmin =>
      simp only [exec, silent_ok_iff, setAdmin, bind_ok_iff, pure_ok_iff] at h
      obtain ⟨⟨_, _, _, _, rfl⟩, -, rfl⟩ := h
      exact .rewritten (fun _ => rfl) rfl rfl rfl
  | listBondTokens seller bondId amount pricePerToken quoteAsset expiresAfterSeconds nonce =>
      simp only [exec, bind_ok_iff, pure_ok_iff, Prod.mk.injEq, Prod.exists] at h
      obtain ⟨id, s'', hlist, rfl, rfl, rfl⟩ := h
      exact indexStep_listBondTokens hlist
  | cancelListing caller orderId nonce =>
      simp only [exec, silent_ok_iff] at h
      exact indexStep_cancelListing h.1
  | executePurchase buyer orderId maxPrice amount nonce =>
      simp only [exec, bind_ok_iff, pure_ok_iff, Prod.mk.injEq, Prod.exists] at h
      obtain ⟨after, s'', hpurchase, rfl, rfl, rfl⟩ := h
      exact indexStep_executePurchase hpurchase
  | depositQuote caller quoteAsset amount nonce =>
      simp only [exec, silent_ok_iff, depositQuote, consumeNonce, bind_ok_iff, pure_ok_iff] at h
      obtain ⟨⟨_, _, _, ⟨_, _, rfl⟩, _, _, _, _, rfl⟩, -, -⟩ := h
      exact .rewritten (fun _ => rfl) rfl rfl rfl
  | withdrawQuote caller quoteAsset amount nonce =>
      simp only [exec, silent_ok_iff, withdrawQuote, consumeNonce, bind_ok_iff, pure_ok_iff] at h
      obtain ⟨⟨_, _, _, ⟨_, _, rfl⟩, _, _, _, _, rfl⟩, -, -⟩ := h
      exact .rewritten (fun _ => rfl) rfl rfl rfl
  | cleanExpiredOrders caller startId limit nonce =>
      simp only [exec, bind_ok_iff, pure_ok_iff, Prod.mk.injEq, Prod.exists] at h
      obtain ⟨result, s'', hclean, rfl, rfl, rfl⟩ := h
      exact indexStep_cleanExpiredOrders hclean

/-! ## The index over a run -/

/-- The orders are numbered, each knows its number, and both lists index them. -/
structure OrderIndex (s : State) : Prop where
  numbered : Numbered s.order s.orderCount
  own : ∀ id order, s.order.get id = some order → order.id = id
  bySeller : Indexes s.order Order.seller s.sellerOrders
  byBond : Indexes s.order Order.bondId s.bondOrders

theorem orderIndex_constructor (admin bondIssuerAddress : Address) :
    OrderIndex (constructor admin bondIssuerAddress) where
  numbered := numbered_empty
  own id order hget := by simp [constructor] at hget
  bySeller := indexes_empty _
  byBond := indexes_empty _

/-- Every step keeps the lists in agreement with the orders. -/
theorem OrderIndex.step {s s' : State} (hs : OrderIndex s) (hstep : IndexStep s s') :
    OrderIndex s' := by
  cases hstep with
  | listed order hid horder hcount hseller hbond =>
      have hnew : ∀ id old, s.order.get id = some old → id < s.orderCount + 1 :=
        fun id old hget => Nat.lt_succ_of_le (hs.numbered.le hget)
      constructor
      case numbered =>
        rw [horder, hcount]
        exact hs.numbered.added order
      case own =>
        intro id order' hget
        rw [horder, get_set] at hget
        split at hget
        · next heq => rw [← Option.some.inj hget, hid, heq]
        · exact hs.own id order' hget
      case bySeller =>
        rw [horder, hseller]
        exact hs.bySeller.added hnew order
      case byBond =>
        rw [horder, hbond]
        exact hs.byBond.added hnew order
  | rewritten horder hcount hseller hbond =>
      -- what a field of the origin says is said by the origin
      have hfield : ∀ {γ : Type} (f : Nat × Address × Nat → γ) (id : Nat),
          (s'.order.get id).map (fun order => f order.origin) =
            (s.order.get id).map fun order => f order.origin := by
        intro γ f id
        have horigin := congrArg (Option.map f) (horder id)
        rwa [Option.map_map, Option.map_map] at horigin
      constructor
      case numbered =>
        rw [hcount]
        exact hs.numbered.rewritten horder
      case own =>
        intro id order' hget
        have hid := hfield Prod.fst id
        rw [hget, Option.map_some] at hid
        obtain ⟨order, hbefore, heq⟩ := Option.map_eq_some_iff.mp hid.symm
        exact heq.symm.trans (hs.own id order hbefore)
      case bySeller =>
        rw [hseller]
        exact hs.bySeller.rewritten (hfield fun origin => origin.2.1)
      case byBond =>
        rw [hbond]
        exact hs.byBond.rewritten (hfield fun origin => origin.2.2)

/-- The lists agree with the orders in every reachable router. -/
theorem orderIndex_run (admin bondIssuerAddress : Address) (calls : List Tx) :
    OrderIndex (machine.run (constructor admin bondIssuerAddress) calls) := by
  refine machine.invariant (P := fun s _ => OrderIndex s)
    (orderIndex_constructor admin bondIssuerAddress) ?_ calls
  intro l e hfires hs
  exact hs.step (indexStep_of_fires hfires)

/-- **The index of the orders.**  The stored ids run from one to the order count,
every order is stored under its own id, and the list of a seller or of a bond
holds the ids of their orders in ascending order, each once. -/
theorem order_index_consistent (admin bondIssuerAddress : Address) (calls : List Tx) :
    let s := machine.run (constructor admin bondIssuerAddress) calls
    (∀ id, (s.order.get id).isSome = true ↔ 1 ≤ id ∧ id ≤ s.orderCount) ∧
    (∀ id order, s.order.get id = some order → order.id = id) ∧
    (∀ seller, (getSellerOrders s seller).Pairwise (· < ·) ∧
      ∀ id, id ∈ getSellerOrders s seller ↔
        ∃ order, s.order.get id = some order ∧ order.seller = seller) ∧
    (∀ bondId, (getBondOrders s bondId).Pairwise (· < ·) ∧
      ∀ id, id ∈ getBondOrders s bondId ↔
        ∃ order, s.order.get id = some order ∧ order.bondId = bondId) := by
  intro s
  have hindex : OrderIndex s := orderIndex_run admin bondIssuerAddress calls
  exact ⟨hindex.numbered, hindex.own,
    fun seller => ⟨hindex.bySeller.ascending seller, hindex.bySeller.indexed seller⟩,
    fun bondId => ⟨hindex.byBond.ascending bondId, hindex.byBond.indexed bondId⟩⟩

end EcoMint.DexRouter
