import EcoMint.Machine
import EcoMint.Storage

/-!
# The holder index

The API keeps, for each bond, the addresses it takes for holders, and one time at
which the list was last reconciled with the chain.  A reconcile reads the balance
of every known address; what it cannot read it leaves as it is.  Recording a
subscription or a transfer sets the same time without reading anything, and every
listing of the holders drops those whose balance it reads as zero.

A coupon is distributed to the listed holders if the time is recent.  So the time
vouches for a full reading of the balances only as far as a reconcile stands
behind it, and the list may lose a holder of that moment to someone it does not
know as one.
-/

namespace EcoMint.HolderIndex

/-! ## The store -/

/-- What the store keeps: the holders of each bond, every address it has met, and when a
bond was last taken for reconciled. -/
structure HolderStore where
  holders : Storage Nat (List String)
  knownAddresses : List String
  lastReconciled : Storage Nat Nat

namespace HolderStore

/-- A store that has met nobody. -/
def empty : HolderStore := ⟨∅, [], ∅⟩

/-- The holders of a bond, as far as the store knows. -/
def getHolders (s : HolderStore) (bondId : Nat) : List String := (s.holders.get bondId).getD []

/-- An address among the holders of a bond, once. -/
def addHolder (s : HolderStore) (bondId : Nat) (address : String) : HolderStore :=
  if address ∈ s.getHolders bondId then s
  else { s with holders := s.holders.set bondId (s.getHolders bondId ++ [address]) }

/-- An address is no holder of the bond any more. -/
def removeHolder (s : HolderStore) (bondId : Nat) (address : String) : HolderStore :=
  { s with holders := s.holders.set bondId ((s.getHolders bondId).filter (· ≠ address)) }

/-- An address that was met, once. -/
def addKnownAddress (s : HolderStore) (address : String) : HolderStore :=
  if address ∈ s.knownAddresses then s
  else { s with knownAddresses := s.knownAddresses ++ [address] }

/-- When the bond was last taken for reconciled; 0 is never. -/
def getLastReconciled (s : HolderStore) (bondId : Nat) : Nat :=
  (s.lastReconciled.get bondId).getD 0

/-- The bond is taken for reconciled now. -/
def touch (s : HolderStore) (bondId now : Nat) : HolderStore :=
  { s with lastReconciled := s.lastReconciled.set bondId now }

variable (s : HolderStore) (bondId other : Nat) (address : String)

/-- Adding a holder changes nothing else. -/
theorem mem_addHolder {a : String} :
    a ∈ (s.addHolder bondId address).getHolders other ↔
      a ∈ s.getHolders other ∨ other = bondId ∧ a = address := by
  unfold addHolder
  split
  · next hmem =>
      constructor
      · exact Or.inl
      · rintro (h | ⟨rfl, rfl⟩)
        · exact h
        · exact hmem
  · unfold getHolders
    rw [Storage.get_set]
    split
    · next heq =>
        subst heq
        simp
    · next hne => simp [hne]

/-- Removing a holder changes nothing else. -/
theorem mem_removeHolder {a : String} :
    a ∈ (s.removeHolder bondId address).getHolders other ↔
      a ∈ s.getHolders other ∧ ¬ (other = bondId ∧ a = address) := by
  unfold removeHolder getHolders
  rw [Storage.get_set]
  split
  · next heq =>
      subst heq
      simp
  · next hne => simp [hne]

/-- Nobody is added twice. -/
theorem nodup_addHolder (h : ∀ bondId, (s.getHolders bondId).Nodup) :
    ((s.addHolder bondId address).getHolders other).Nodup := by
  unfold addHolder
  split
  · exact h other
  · next hmem =>
      unfold getHolders
      rw [Storage.get_set]
      split
      · have hdisjoint : ∀ a ∈ s.getHolders bondId, a ≠ address := by
          rintro a ha rfl
          exact hmem ha
        simpa [List.nodup_append] using ⟨h bondId, hdisjoint⟩
      · exact h other

/-- Removal keeps the lists free of duplicates. -/
theorem nodup_removeHolder (h : ∀ bondId, (s.getHolders bondId).Nodup) :
    ((s.removeHolder bondId address).getHolders other).Nodup := by
  unfold removeHolder getHolders
  rw [Storage.get_set]
  split
  · exact (h bondId).filter _
  · exact h other

@[simp] theorem getHolders_addKnownAddress :
    (s.addKnownAddress address).getHolders other = s.getHolders other := by
  unfold addKnownAddress
  split <;> rfl

@[simp] theorem getHolders_touch (now : Nat) :
    (s.touch bondId now).getHolders other = s.getHolders other := rfl

end HolderStore

/-! ## The service -/

/-- The balances that the issuer contract has, by bond and address. -/
abbrev Balances := Storage (Nat × String) Int

/-- Which balance reads of one pass succeed. -/
abbrev Reads := String → Bool

/-- A holder with the balance that was read. -/
structure HolderWithBalance where
  address : String
  balance : Int
deriving DecidableEq

/-- What the caller may ask of the coupon list. -/
structure CouponHoldersOptions where
  requireFresh : Option Bool
  maxStalenessMs : Option Nat

/-- `HOLDER_INDEX_STRICT` and `HOLDER_INDEX_MAX_STALENESS_MS`, if they are set. -/
structure Env where
  strict : Option String
  maxStalenessMs : Option Nat

/-- A fresh list, unless the caller or the environment says otherwise. -/
def requireFresh (env : Env) (opts : CouponHoldersOptions) : Bool :=
  opts.requireFresh.getD (env.strict != some "false")

/-- How old a reconcile may be: the caller's bound, the environment's, or an hour. -/
def maxStalenessMs (env : Env) (opts : CouponHoldersOptions) : Nat :=
  opts.maxStalenessMs.getD (env.maxStalenessMs.getD 3600000)

/-- A subscriber is a holder, and the bond is taken for reconciled. -/
def recordSubscribe (s : HolderStore) (bondId : Nat) (address : String) (now : Nat) : HolderStore :=
  ((s.addHolder bondId address).addKnownAddress address).touch bondId now

/-- A recipient is a holder, and the bond is taken for reconciled. -/
def recordTransfer (s : HolderStore) (bondId : Nat) (fromAddress toAddress : String) (now : Nat) :
    HolderStore :=
  (((s.addKnownAddress fromAddress).addKnownAddress toAddress).addHolder bondId toAddress).touch
    bondId now

/-- The loop of `getHoldersWithBalances`: what it returns, and what it prunes. -/
def listBalances (balances : Balances) (bondId : Nat) (reads : Reads) (s : HolderStore) :
    List String → List HolderWithBalance × HolderStore
  | [] => ([], s)
  | address :: rest =>
      if reads address then
        let balance := balances.read (bondId, address)
        if 0 < balance then
          let (result, s) := listBalances balances bondId reads s rest
          (⟨address, balance⟩ :: result, s)
        else
          listBalances balances bondId reads (s.removeHolder bondId address) rest
      else
        -- a holder whose balance cannot be read stays
        let (result, s) := listBalances balances bondId reads s rest
        (⟨address, 0⟩ :: result, s)

/-- The holders with their balances; who is read without one is dropped. -/
def getHoldersWithBalances (balances : Balances) (s : HolderStore) (bondId : Nat) (reads : Reads) :
    List HolderWithBalance × HolderStore :=
  listBalances balances bondId reads s (s.getHolders bondId)

/-- The addresses whose balance a reconcile asks for. -/
def candidates (s : HolderStore) (bondId : Nat) (extraCandidates : List String) : List String :=
  (s.getHolders bondId ++ s.knownAddresses ++ extraCandidates).eraseDups

/-- One turn of the loop of `reconcileBond`. -/
def reconcileAddress (balances : Balances) (bondId : Nat) (reads : Reads) (s : HolderStore)
    (address : String) : HolderStore :=
  if reads address then
    if 0 < balances.read (bondId, address) then s.addHolder bondId address
    else s.removeHolder bondId address
  else s

/-- `reconcileBond` up to its listing of the holders. -/
def reconcile (balances : Balances) (s : HolderStore) (bondId : Nat)
    (extraCandidates : List String) (reads : Reads) (now : Nat) : HolderStore :=
  ((candidates s bondId extraCandidates).foldl (reconcileAddress balances bondId reads) s).touch
    bondId now

/-- `reconcileBond`; `listing` are the reads of the listing at its end. -/
def reconcileBond (balances : Balances) (s : HolderStore) (bondId : Nat)
    (extraCandidates : List String) (reads listing : Reads) (now : Nat) :
    List HolderWithBalance × HolderStore :=
  getHoldersWithBalances balances (reconcile balances s bondId extraCandidates reads now) bondId
    listing

/-- The bond was never reconciled, or longer ago than allowed. -/
def isStale (s : HolderStore) (bondId maxStalenessMs now : Nat) : Prop :=
  s.getLastReconciled bondId = 0 ∨ maxStalenessMs < now - s.getLastReconciled bondId

instance (s : HolderStore) (bondId maxStalenessMs now : Nat) :
    Decidable (isStale s bondId maxStalenessMs now) := by
  unfold isStale
  infer_instance

/-- The text of the refusal. -/
def unseededMessage (bondId : Nat) : String :=
  "Refusing coupon distribution for bond " ++ toString bondId ++
    ": holder index is empty and has never been seeded. Run the holder reindex command before" ++
    " distributing coupons."

/-- The reads of the passes of one call: its reconcile, the listing at the end of
that, and the listing of the call itself. -/
structure CouponReads where
  reconcile : Reads
  relisting : Reads
  listing : Reads

/-- The index after the part of `getHoldersForCoupon` that reconciles it. -/
def refreshed (env : Env) (balances : Balances) (s : HolderStore) (bondId : Nat)
    (opts : CouponHoldersOptions) (reads : CouponReads) (now : Nat) : HolderStore :=
  if requireFresh env opts ∧ isStale s bondId (maxStalenessMs env opts) now then
    (reconcileBond balances s bondId [] reads.reconcile reads.relisting now).2
  else s

/-- The holders for a coupon, reconciled first where a fresh list is due; an index that
was never seeded is refused. -/
def getHoldersForCoupon (env : Env) (balances : Balances) (s : HolderStore) (bondId : Nat)
    (opts : CouponHoldersOptions) (reads : CouponReads) (now : Nat) :
    Except String (List String) × HolderStore :=
  let s := refreshed env balances s bondId opts reads now
  if requireFresh env opts ∧ s.knownAddresses = [] ∧ s.getHolders bondId = [] then
    (.error (unseededMessage bondId), s)
  else
    let (holders, s) := getHoldersWithBalances balances s bondId reads.listing
    (.ok (holders.map HolderWithBalance.address), s)

/-! ## Histories -/

/-- The store, the balances on chain and the time. -/
structure World where
  store : HolderStore
  balances : Balances
  now : Nat

/-- A call of the service, a change on chain, or the passage of time. -/
inductive Call
  | recordSubscribe (bondId : Nat) (address : String)
  | recordTransfer (bondId : Nat) (fromAddress toAddress : String)
  | reconcileBond (bondId : Nat) (extraCandidates : List String) (reads listing : Reads)
  | markReconciled (bondId : Nat)
  | getHoldersWithBalances (bondId : Nat) (reads : Reads)
  | getHoldersForCoupon (bondId : Nat) (opts : CouponHoldersOptions) (reads : CouponReads)
  | subscribe (bondId : Nat) (address : String) (amount : Nat)
  | transfer (bondId : Nat) (fromAddress toAddress : String) (amount : Nat)
  | pass (ms : Nat)

/-- What a call returns. -/
inductive Answer
  | done
  | balances (holders : List HolderWithBalance)
  | coupon (holders : List String)
  | conflict (message : String)
deriving DecidableEq

/-- What the caller of `getHoldersForCoupon` is told. -/
def Answer.ofCoupon : Except String (List String) → Answer
  | .ok holders => .coupon holders
  | .error message => .conflict message

/-- A call of the service, a transfer on chain outside it, or time that passes. -/
def World.exec (env : Env) (w : World) : Call → Except Unit (Answer × World)
  | .recordSubscribe bondId address =>
      .ok (.done, { w with store := recordSubscribe w.store bondId address w.now })
  | .recordTransfer bondId fromAddress toAddress =>
      .ok (.done, { w with store := recordTransfer w.store bondId fromAddress toAddress w.now })
  | .reconcileBond bondId extraCandidates reads listing =>
      let (holders, store) :=
        reconcileBond w.balances w.store bondId extraCandidates reads listing w.now
      .ok (.balances holders, { w with store := store })
  | .markReconciled bondId => .ok (.done, { w with store := w.store.touch bondId w.now })
  | .getHoldersWithBalances bondId reads =>
      let (holders, store) := getHoldersWithBalances w.balances w.store bondId reads
      .ok (.balances holders, { w with store := store })
  | .getHoldersForCoupon bondId opts reads =>
      let (result, store) := getHoldersForCoupon env w.balances w.store bondId opts reads w.now
      .ok (Answer.ofCoupon result, { w with store := store })
  | .subscribe bondId address amount =>
      .ok (.done, { w with balances := w.balances.credit (bondId, address) amount })
  | .transfer bondId fromAddress toAddress amount =>
      if w.balances.read (bondId, fromAddress) < amount then .error ()
      else
        let balances := w.balances.credit (bondId, fromAddress) (-amount)
        .ok (.done, { w with balances := balances.credit (bondId, toAddress) amount })
  | .pass ms => .ok (.done, { w with now := w.now + ms })

/-- The service in its world. -/
def worldMachine (env : Env) : Machine World Call Answer Unit := ⟨World.exec env⟩

/-- The index before anything was recorded. -/
def World.initial (now : Nat) : World := ⟨HolderStore.empty, ∅, now⟩

/-- A call as it was made. -/
abbrev LogEntry := Event World Call Answer

/-- The calls that were made, from an empty index at the time `now`. -/
abbrev history (env : Env) (now : Nat) (calls : List Call) : List LogEntry :=
  (worldMachine env).log (World.initial now) calls

/-! ## What a call reads -/

/-- The addresses whose balance a listing of the holders reads. -/
def listingReads (s : HolderStore) (bondId : Nat) (reads : Reads) : List String :=
  (s.getHolders bondId).filter reads

/-- The addresses whose balance a reconcile reads, its listing included. -/
def reconcileReads (w : World) (bondId : Nat) (extraCandidates : List String)
    (reads listing : Reads) : List String :=
  (candidates w.store bondId extraCandidates).filter reads ++
    listingReads (reconcile w.balances w.store bondId extraCandidates reads w.now) bondId listing

/-- The addresses whose balance on the bond a call reads. -/
def LogEntry.readsOf (env : Env) (bondId : Nat) (e : LogEntry) : List String :=
  let w := e.before
  match e.input with
  | .reconcileBond other extraCandidates reads listing =>
      if other = bondId then reconcileReads w bondId extraCandidates reads listing else []
  | .getHoldersWithBalances other reads =>
      if other = bondId then listingReads w.store bondId reads else []
  | .getHoldersForCoupon other opts reads =>
      if other = bondId then
        (if requireFresh env opts ∧ isStale w.store bondId (maxStalenessMs env opts) w.now then
          reconcileReads w bondId [] reads.reconcile reads.relisting
        else []) ++
          listingReads (refreshed env w.balances w.store bondId opts reads w.now) bondId
            reads.listing
      else []
  | _ => []

/-- What reading some balances of a bond does to its holders: a holder whose
balance is not read as zero stays, and whoever is read with a balance is one. -/
structure Follows (balances : Balances) (bondId : Nat) (read : List String)
    (s s' : HolderStore) : Prop where
  kept : ∀ a ∈ s.getHolders bondId, (a ∈ read → 0 < balances.read (bondId, a)) →
    a ∈ s'.getHolders bondId
  found : ∀ a ∈ read, 0 < balances.read (bondId, a) → a ∈ s'.getHolders bondId

section

variable {balances : Balances} {bondId other : Nat} {s s' s'' : HolderStore}

/-- What keeps every holder keeps those with a balance. -/
theorem Follows.of_subset (h : ∀ a ∈ s.getHolders bondId, a ∈ s'.getHolders bondId) :
    Follows balances bondId [] s s' where
  kept a ha _ := h a ha
  found a ha := by cases ha

theorem Follows.trans {read read' : List String} (h : Follows balances bondId read s s')
    (h' : Follows balances bondId read' s' s'') :
    Follows balances bondId (read ++ read') s s'' where
  kept a ha hpositive := by
    have hmiddle := h.kept a ha fun hread => hpositive (List.mem_append_left _ hread)
    exact h'.kept a hmiddle fun hread => hpositive (List.mem_append_right _ hread)
  found a ha hpositive := by
    rcases List.mem_append.mp ha with hread | hread
    · exact h'.kept a (h.found a hread hpositive) fun _ => hpositive
    · exact h'.found a hread hpositive

/-! ### The listing -/

/-- A listing drops exactly those that were read without a balance. -/
theorem mem_listBalances {reads : Reads} {addresses : List String} {a : String} :
    a ∈ (listBalances balances bondId reads s addresses).2.getHolders other ↔
      a ∈ s.getHolders other ∧
        ¬ (other = bondId ∧ a ∈ addresses ∧ reads a = true ∧
          ¬ 0 < balances.read (bondId, a)) := by
  induction addresses generalizing s with
  | nil => simp [listBalances]
  | cons address rest ih =>
      unfold listBalances
      by_cases hread : reads address = true
      · by_cases hpositive : 0 < balances.read (bondId, address)
        · simp only [hread, hpositive, if_true, ih, List.mem_cons]
          grind
        · simp only [hread, hpositive, if_true, if_false, ih, List.mem_cons,
            HolderStore.mem_removeHolder]
          grind
      · simp only [if_neg hread, ih, List.mem_cons]
        grind

/-- Listed are those that could not be read, and those that were read with a balance. -/
theorem map_address_listBalances {reads : Reads} {addresses : List String} :
    (listBalances balances bondId reads s addresses).1.map HolderWithBalance.address =
      addresses.filter fun a => !reads a || decide (0 < balances.read (bondId, a)) := by
  induction addresses generalizing s with
  | nil => rfl
  | cons address rest ih =>
      unfold listBalances
      by_cases hread : reads address = true
      · by_cases hpositive : 0 < balances.read (bondId, address)
        · simp [hread, hpositive, ih]
        · simp [hread, hpositive, ih]
      · simp [hread, ih]

/-- A listing keeps the lists free of duplicates. -/
theorem nodup_listBalances {reads : Reads} {addresses : List String}
    (h : ∀ bondId, (s.getHolders bondId).Nodup) :
    ((listBalances balances bondId reads s addresses).2.getHolders other).Nodup := by
  induction addresses generalizing s with
  | nil => exact h other
  | cons address rest ih =>
      unfold listBalances
      by_cases hread : reads address = true
      · by_cases hpositive : 0 < balances.read (bondId, address)
        · simpa only [hread, hpositive, if_true] using ih h
        · simpa only [hread, hpositive, if_true, if_false] using
            ih fun bondId' => HolderStore.nodup_removeHolder s _ bondId' address h
      · simpa only [if_neg hread] using ih h

/-- A listing loses nobody with a balance. -/
theorem follows_getHoldersWithBalances (reads : Reads) :
    Follows balances bondId (listingReads s bondId reads) s
      (getHoldersWithBalances balances s bondId reads).2 where
  kept a ha hpositive := by
    refine mem_listBalances.mpr ⟨ha, fun hpruned => ?_⟩
    exact hpruned.2.2.2 (hpositive (List.mem_filter.mpr ⟨ha, hpruned.2.2.1⟩))
  found a ha hpositive :=
    mem_listBalances.mpr ⟨(List.mem_filter.mp ha).1, fun hpruned => hpruned.2.2.2 hpositive⟩

/-! ### The reconcile -/

/-- A reconciled address is a holder exactly if it has a balance. -/
theorem mem_reconcileAddress {reads : Reads} {address a : String} :
    a ∈ (reconcileAddress balances bondId reads s address).getHolders bondId ↔
      if a = address ∧ reads a = true then 0 < balances.read (bondId, a)
      else a ∈ s.getHolders bondId := by
  unfold reconcileAddress
  split
  · split
    · rw [HolderStore.mem_addHolder]
      grind
    · rw [HolderStore.mem_removeHolder]
      grind
  · grind

/-- A reconcile settles every address that could be read, and leaves the others as they
were. -/
theorem mem_foldl_reconcileAddress {reads : Reads} {addresses : List String} {a : String} :
    a ∈ (addresses.foldl (reconcileAddress balances bondId reads) s).getHolders bondId ↔
      if a ∈ addresses ∧ reads a = true then 0 < balances.read (bondId, a)
      else a ∈ s.getHolders bondId := by
  induction addresses generalizing s with
  | nil => simp
  | cons address rest ih =>
      rw [List.foldl_cons, ih, mem_reconcileAddress]
      grind

/-- A reconcile keeps the lists free of duplicates. -/
theorem nodup_foldl_reconcileAddress {reads : Reads} {addresses : List String}
    (h : ∀ bondId, (s.getHolders bondId).Nodup) :
    ((addresses.foldl (reconcileAddress balances bondId reads) s).getHolders other).Nodup := by
  induction addresses generalizing s with
  | nil => exact h other
  | cons address rest ih =>
      rw [List.foldl_cons]
      refine ih fun bondId' => ?_
      unfold reconcileAddress
      split
      · split
        · exact HolderStore.nodup_addHolder s _ bondId' address h
        · exact HolderStore.nodup_removeHolder s _ bondId' address h
      · exact h bondId'

/-- A reconcile loses nobody with a balance. -/
theorem follows_reconcile (extraCandidates : List String) (reads : Reads) (now : Nat) :
    Follows balances bondId ((candidates s bondId extraCandidates).filter reads) s
      (reconcile balances s bondId extraCandidates reads now) where
  kept a ha hpositive := by
    refine mem_foldl_reconcileAddress.mpr ?_
    split
    · next hread => exact hpositive (List.mem_filter.mpr hread)
    · exact ha
  found a ha hpositive := by
    refine mem_foldl_reconcileAddress.mpr ?_
    rwa [if_pos (List.mem_filter.mp ha)]

end

/-! ## One call -/

section

variable {env : Env} {bondId : Nat}

/-- The same of a reconcile with the listing after it. -/
theorem follows_reconcileBond {w : World} (extraCandidates : List String)
    (reads listing : Reads) :
    Follows w.balances bondId (reconcileReads w bondId extraCandidates reads listing) w.store
      (reconcileBond w.balances w.store bondId extraCandidates reads listing w.now).2 :=
  (follows_reconcile extraCandidates reads w.now).trans (follows_getHoldersWithBalances listing)

/-- The same of the refresh before a coupon list. -/
theorem follows_refreshed {w : World} (opts : CouponHoldersOptions) (reads : CouponReads) :
    Follows w.balances bondId
      (if requireFresh env opts ∧ isStale w.store bondId (maxStalenessMs env opts) w.now then
        reconcileReads w bondId [] reads.reconcile reads.relisting else [])
      w.store (refreshed env w.balances w.store bondId opts reads w.now) := by
  unfold refreshed
  split
  · exact follows_reconcileBond [] reads.reconcile reads.relisting
  · exact Follows.of_subset fun _ h => h

/-- The holders of one bond are not touched by calls for another. -/
theorem getHolders_listBalances_of_ne {balances : Balances} {other : Nat} {reads : Reads}
    {s : HolderStore} {addresses : List String} (hne : bondId ≠ other) {a : String} :
    a ∈ (listBalances balances other reads s addresses).2.getHolders bondId ↔
      a ∈ s.getHolders bondId := by
  rw [mem_listBalances]
  exact and_iff_left fun h => hne h.1

/-- A reconcile of another bond changes nothing here. -/
theorem getHolders_reconcile_of_ne {balances : Balances} {other now : Nat} {reads : Reads}
    {s : HolderStore} {extraCandidates : List String} (hne : bondId ≠ other) {a : String} :
    a ∈ (reconcile balances s other extraCandidates reads now).getHolders bondId ↔
      a ∈ s.getHolders bondId := by
  unfold reconcile
  rw [HolderStore.getHolders_touch]
  generalize candidates s other extraCandidates = addresses
  induction addresses generalizing s with
  | nil => rfl
  | cons address rest ih =>
      rw [List.foldl_cons, ih]
      unfold reconcileAddress
      split
      · split
        · rw [HolderStore.mem_addHolder]
          exact or_iff_left fun h => hne h.1
        · rw [HolderStore.mem_removeHolder]
          exact and_iff_left fun h => hne h.1
      · rfl

/-- A refresh of another bond changes nothing here. -/
theorem getHolders_refreshed_of_ne {w : World} {other : Nat} (opts : CouponHoldersOptions)
    (reads : CouponReads) (hne : bondId ≠ other) {a : String} :
    a ∈ (refreshed env w.balances w.store other opts reads w.now).getHolders bondId ↔
      a ∈ w.store.getHolders bondId := by
  unfold refreshed
  split
  · exact (getHolders_listBalances_of_ne hne).trans (getHolders_reconcile_of_ne hne)
  · rfl

/-- The index after a call for a coupon, and what the call returns. -/
theorem getHoldersForCoupon_cases (balances : Balances) (s : HolderStore)
    (opts : CouponHoldersOptions) (reads : CouponReads) (now : Nat) :
    (getHoldersForCoupon env balances s bondId opts reads now =
        (.error (unseededMessage bondId), refreshed env balances s bondId opts reads now) ∧
      (refreshed env balances s bondId opts reads now).getHolders bondId = []) ∨
    getHoldersForCoupon env balances s bondId opts reads now =
      (.ok ((getHoldersWithBalances balances (refreshed env balances s bondId opts reads now)
          bondId reads.listing).1.map HolderWithBalance.address),
        (getHoldersWithBalances balances (refreshed env balances s bondId opts reads now)
          bondId reads.listing).2) := by
  simp only [getHoldersForCoupon]
  split
  · next h => exact Or.inl ⟨rfl, h.2.2⟩
  · exact Or.inr rfl

/-- The holders for a coupon are read from the refreshed index, or nobody is. -/
theorem follows_getHoldersForCoupon (w : World) (opts : CouponHoldersOptions)
    (reads : CouponReads) :
    Follows w.balances bondId
      ((if requireFresh env opts ∧ isStale w.store bondId (maxStalenessMs env opts) w.now then
          reconcileReads w bondId [] reads.reconcile reads.relisting
        else []) ++
        listingReads (refreshed env w.balances w.store bondId opts reads w.now) bondId
          reads.listing)
      w.store (getHoldersForCoupon env w.balances w.store bondId opts reads w.now).2 := by
  refine (@follows_refreshed env bondId w opts reads).trans ?_
  rcases @getHoldersForCoupon_cases env bondId w.balances w.store opts reads w.now with
    ⟨hcall, hempty⟩ | hcall
  · rw [hcall]
    simp only [listingReads, hempty, List.filter_nil]
    exact Follows.of_subset fun _ h => h
  · rw [hcall]
    exact follows_getHoldersWithBalances reads.listing

/-- A coupon list of another bond drops nobody here. -/
theorem getHolders_getHoldersForCoupon_of_ne {other : Nat} (w : World)
    (opts : CouponHoldersOptions) (reads : CouponReads) (hne : bondId ≠ other) {a : String}
    (ha : a ∈ w.store.getHolders bondId) :
    a ∈ (getHoldersForCoupon env w.balances w.store other opts reads w.now).2.getHolders
      bondId := by
  have hkept := (@getHolders_refreshed_of_ne env bondId w other opts reads hne a).mpr ha
  rcases @getHoldersForCoupon_cases env other w.balances w.store opts reads w.now with
    ⟨hcall, -⟩ | hcall
  · rw [hcall]
    exact hkept
  · rw [hcall]
    exact (getHolders_listBalances_of_ne hne).mpr hkept

/-- **What a call does to the holders of a bond.** -/
theorem follows_of_fires {e : LogEntry} (hfires : (worldMachine env).Fires e) :
    Follows e.before.balances bondId (LogEntry.readsOf env bondId e) e.before.store
      e.after.store := by
  obtain ⟨w, input, output, w'⟩ := e
  change w.exec env input = .ok (output, w') at hfires
  cases input with
  | recordSubscribe other address =>
      cases hfires
      refine Follows.of_subset fun a ha => ?_
      simp only [recordSubscribe, HolderStore.getHolders_touch,
        HolderStore.getHolders_addKnownAddress, HolderStore.mem_addHolder]
      exact Or.inl ha
  | recordTransfer other fromAddress toAddress =>
      cases hfires
      refine Follows.of_subset fun a ha => ?_
      simp only [recordTransfer, HolderStore.getHolders_touch, HolderStore.mem_addHolder,
        HolderStore.getHolders_addKnownAddress]
      exact Or.inl ha
  | reconcileBond other extraCandidates reads listing =>
      cases hfires
      by_cases hbond : other = bondId
      · subst hbond
        simp only [LogEntry.readsOf, if_true]
        exact follows_reconcileBond extraCandidates reads listing
      · simp only [LogEntry.readsOf, if_neg hbond]
        refine Follows.of_subset fun a ha => ?_
        exact (getHolders_listBalances_of_ne (Ne.symm hbond)).mpr
          ((getHolders_reconcile_of_ne (Ne.symm hbond)).mpr ha)
  | markReconciled other =>
      cases hfires
      exact Follows.of_subset fun a ha => ha
  | getHoldersWithBalances other reads =>
      cases hfires
      by_cases hbond : other = bondId
      · subst hbond
        simp only [LogEntry.readsOf, if_true]
        exact follows_getHoldersWithBalances reads
      · simp only [LogEntry.readsOf, if_neg hbond]
        exact Follows.of_subset fun a ha =>
          (getHolders_listBalances_of_ne (Ne.symm hbond)).mpr ha
  | getHoldersForCoupon other opts reads =>
      cases hfires
      by_cases hbond : other = bondId
      · subst hbond
        simp only [LogEntry.readsOf, if_true]
        exact follows_getHoldersForCoupon w opts reads
      · simp only [LogEntry.readsOf, if_neg hbond]
        exact Follows.of_subset fun a ha =>
          getHolders_getHoldersForCoupon_of_ne w opts reads (Ne.symm hbond) ha
  | subscribe other address amount =>
      cases hfires
      exact Follows.of_subset fun a ha => ha
  | transfer other fromAddress toAddress amount =>
      simp only [World.exec] at hfires
      split at hfires <;> cases hfires
      · exact Follows.of_subset fun a ha => ha
  | pass ms =>
      cases hfires
      exact Follows.of_subset fun a ha => ha

/-- The whole reconcile keeps the lists free of duplicates. -/
theorem nodup_reconcile {balances : Balances} {s : HolderStore} {now : Nat} {reads : Reads}
    {extraCandidates : List String} (h : ∀ bondId, (s.getHolders bondId).Nodup) (other : Nat) :
    ((reconcile balances s bondId extraCandidates reads now).getHolders other).Nodup :=
  nodup_foldl_reconcileAddress h

/-- A refresh keeps the lists free of duplicates. -/
theorem nodup_refreshed {w : World} {opts : CouponHoldersOptions} {reads : CouponReads}
    (h : ∀ bondId, (w.store.getHolders bondId).Nodup) (other : Nat) :
    ((refreshed env w.balances w.store bondId opts reads w.now).getHolders other).Nodup := by
  unfold refreshed
  split
  · exact nodup_listBalances (nodup_reconcile h)
  · exact h other

/-- Every call keeps the lists free of duplicates. -/
theorem nodup_of_fires {e : LogEntry} (hfires : (worldMachine env).Fires e)
    (h : ∀ bondId, (e.before.store.getHolders bondId).Nodup) (other : Nat) :
    (e.after.store.getHolders other).Nodup := by
  obtain ⟨w, input, output, w'⟩ := e
  change w.exec env input = .ok (output, w') at hfires
  cases input with
  | recordSubscribe bondId address =>
      cases hfires
      simp only [recordSubscribe, HolderStore.getHolders_touch,
        HolderStore.getHolders_addKnownAddress]
      exact HolderStore.nodup_addHolder w.store bondId other address h
  | recordTransfer bondId fromAddress toAddress =>
      cases hfires
      simp only [recordTransfer, HolderStore.getHolders_touch]
      refine HolderStore.nodup_addHolder _ bondId other toAddress fun b => ?_
      simpa using h b
  | reconcileBond bondId extraCandidates reads listing =>
      cases hfires
      exact nodup_listBalances (nodup_reconcile h)
  | markReconciled bondId =>
      cases hfires
      exact h other
  | getHoldersWithBalances bondId reads =>
      cases hfires
      exact nodup_listBalances h
  | getHoldersForCoupon bondId opts reads =>
      cases hfires
      show ((getHoldersForCoupon env w.balances w.store bondId opts reads w.now).2.getHolders
        other).Nodup
      rcases @getHoldersForCoupon_cases env bondId w.balances w.store opts reads w.now with
        ⟨hcall, -⟩ | hcall
      · rw [hcall]
        exact nodup_refreshed h other
      · rw [hcall]
        exact nodup_listBalances (nodup_refreshed h)
  | subscribe bondId address amount =>
      cases hfires
      exact h other
  | transfer bondId fromAddress toAddress amount =>
      simp only [World.exec] at hfires
      split at hfires <;> cases hfires
      exact h other
  | pass ms =>
      cases hfires
      exact h other

/-! ## Whole histories -/

/-- What holds at every moment: no list of holders has duplicates, and whoever
was read with a balance, and not read without one since, is a holder. -/
structure IndexInvariant (env : Env) (bondId : Nat) (w : World) (l : List LogEntry) : Prop where
  nodup : ∀ other, (w.store.getHolders other).Nodup
  kept : ∀ earlier e later, l = earlier ++ e :: later →
    ∀ a ∈ LogEntry.readsOf env bondId e, 0 < e.before.balances.read (bondId, a) →
      (∀ e' ∈ later, a ∈ LogEntry.readsOf env bondId e' → 0 < e'.before.balances.read (bondId, a)) →
        a ∈ w.store.getHolders bondId

/-- The invariant of an empty store. -/
theorem IndexInvariant.initial (now : Nat) :
    IndexInvariant env bondId (World.initial now) [] where
  nodup other := List.nodup_nil
  kept earlier e later h := by simp at h

/-- A call keeps the invariant. -/
theorem IndexInvariant.step {l : List LogEntry} {e : LogEntry}
    (hfires : (worldMachine env).Fires e) (h : IndexInvariant env bondId e.before l) :
    IndexInvariant env bondId e.after (l ++ [e]) where
  nodup := nodup_of_fires hfires h.nodup
  kept earlier e' later hsplit a ha hpositive hlater := by
    have hfollows := @follows_of_fires env bondId e hfires
    rcases List.eq_nil_or_concat later with rfl | ⟨before, last, rfl⟩
    · -- the call itself reads the balance
      obtain ⟨-, hlast⟩ := List.append_inj' hsplit rfl
      obtain rfl : e = e' := by simpa using hlast
      exact hfollows.found a ha hpositive
    · rw [List.concat_eq_append] at hsplit hlater
      have hsplit' : l ++ [e] = (earlier ++ e' :: before) ++ [last] := by simpa using hsplit
      obtain ⟨hbefore, hlast⟩ := List.append_inj' hsplit' rfl
      obtain rfl : e = last := by simpa using hlast
      rw [List.forall_mem_append, List.forall_mem_singleton] at hlater
      exact hfollows.kept a (h.kept earlier e' before hbefore a ha hpositive hlater.1) hlater.2

/-- The invariant holds after every history. -/
theorem indexInvariant_history (env : Env) (bondId now : Nat) (calls : List Call) :
    IndexInvariant env bondId ((worldMachine env).run (World.initial now) calls)
      (history env now calls) :=
  (worldMachine env).invariant (P := IndexInvariant env bondId) (IndexInvariant.initial now)
    (fun _ _ hfires h => h.step hfires) calls

end

/-! ## Coupons -/

section

variable (env : Env) (bondId : Nat)

/-- A list of holders is complete as of some call, not too long ago, that read
the balance of every address that is known now. -/
def Complete (maxStalenessMs : Nat) (l : List LogEntry) (e : LogEntry) (holders : List String) :
    Prop :=
  holders.Nodup ∧ ∃ e' ∈ l ++ [e], e.before.now ≤ e'.before.now + maxStalenessMs ∧
    ∀ a ∈ e.before.store.knownAddresses, a ∈ LogEntry.readsOf env bondId e' ∧
      (0 < e'.before.balances.read (bondId, a) → a ∈ holders)

/-- The call is a reconcile, or a call for a coupon that makes one, and it asks for
the balances of these addresses and gets each of them. -/
def LogEntry.Reconciles (addresses : List String) (e : LogEntry) : Prop :=
  match e.input with
  | .reconcileBond other extraCandidates reads _ =>
      other = bondId ∧
        ∀ a ∈ addresses, a ∈ candidates e.before.store bondId extraCandidates ∧ reads a = true
  | .getHoldersForCoupon other opts reads =>
      other = bondId ∧ requireFresh env opts ∧
        isStale e.before.store bondId (maxStalenessMs env opts) e.before.now ∧
        ∀ a ∈ addresses, a ∈ candidates e.before.store bondId [] ∧ reads.reconcile a = true
  | _ => False

/-- A reconcile stands behind the list: it is not too long ago, it has got the
balance of every address that is known now, and nobody with a balance then has
been read without one since. -/
def Vouched (maxStalenessMs : Nat) (l : List LogEntry) (e : LogEntry) : Prop :=
  ∃ earlier e' later, l ++ [e] = earlier ++ e' :: later ∧
    e.before.now ≤ e'.before.now + maxStalenessMs ∧
    LogEntry.Reconciles env bondId e.before.store.knownAddresses e' ∧
    ∀ a ∈ e.before.store.knownAddresses, 0 < e'.before.balances.read (bondId, a) →
      ∀ e'' ∈ later, a ∈ LogEntry.readsOf env bondId e'' →
        0 < e''.before.balances.read (bondId, a)

instance (maxStalenessMs : Nat) (l : List LogEntry) (e : LogEntry) (holders : List String) :
    Decidable (Complete env bondId maxStalenessMs l e holders) := by
  unfold Complete
  infer_instance

end

section

variable {env : Env} {bondId : Nat}

/-- Who was reconciled was read. -/
theorem mem_readsOf_of_reconciles {addresses : List String} {e : LogEntry}
    (h : LogEntry.Reconciles env bondId addresses e) :
    ∀ a ∈ addresses, a ∈ LogEntry.readsOf env bondId e := by
  obtain ⟨w, input, output, w'⟩ := e
  intro a ha
  cases input with
  | reconcileBond other extraCandidates reads listing =>
      obtain ⟨rfl, hreads⟩ := h
      simp only [LogEntry.readsOf, if_true]
      exact List.mem_append_left _ (List.mem_filter.mpr (hreads a ha))
  | getHoldersForCoupon other opts reads =>
      obtain ⟨rfl, hfresh, hstale, hreads⟩ := h
      simp only [LogEntry.readsOf, if_true]
      rw [if_pos ⟨hfresh, hstale⟩]
      exact List.mem_append_left _ (List.mem_append_left _ (List.mem_filter.mpr (hreads a ha)))
  | _ => cases h

/-- The list for a coupon is the list of holders afterwards. -/
theorem mem_coupon_of_mem_holders {e : LogEntry} (hfires : (worldMachine env).Fires e)
    {opts : CouponHoldersOptions} {reads : CouponReads} {holders : List String}
    (hinput : e.input = .getHoldersForCoupon bondId opts reads)
    (houtput : e.output = .coupon holders)
    (hnodup : ∀ other, (e.before.store.getHolders other).Nodup) :
    holders.Nodup ∧ ∀ a ∈ e.after.store.getHolders bondId, a ∈ holders := by
  obtain ⟨w, input, output, w'⟩ := e
  obtain rfl : input = .getHoldersForCoupon bondId opts reads := hinput
  obtain rfl : output = .coupon holders := houtput
  change w.exec env (.getHoldersForCoupon bondId opts reads) = .ok (.coupon holders, w') at hfires
  rcases @getHoldersForCoupon_cases env bondId w.balances w.store opts reads w.now with
    ⟨hcall, -⟩ | hcall
  · simp [World.exec, hcall, Answer.ofCoupon] at hfires
  · simp only [World.exec, hcall, Answer.ofCoupon, getHoldersWithBalances,
      map_address_listBalances] at hfires
    cases hfires
    refine ⟨(nodup_refreshed hnodup bondId).filter _, fun a ha => ?_⟩
    obtain ⟨hmem, hkept⟩ := mem_listBalances.mp ha
    refine List.mem_filter.mpr ⟨hmem, ?_⟩
    by_cases hread : reads.listing a = true
    · have hpositive : 0 < w.balances.read (bondId, a) := by
        by_contra hnot
        exact hkept ⟨rfl, hmem, hread, hnot⟩
      simp [hpositive]
    · simp [hread]

end

/-- **Coupon holders.**  A list of holders returned for a coupon is complete as of
a recent reading of all balances, if a reconcile stands behind it. -/
theorem couponHolders_complete (env : Env) (now : Nat) (calls : List Call) (l : List LogEntry)
    (e : LogEntry) (hpre : l ++ [e] <+: history env now calls) (bondId : Nat)
    (opts : CouponHoldersOptions) (reads : CouponReads) (holders : List String)
    (hinput : e.input = .getHoldersForCoupon bondId opts reads)
    (houtput : e.output = .coupon holders)
    (hvouched : Vouched env bondId (maxStalenessMs env opts) l e) :
    Complete env bondId (maxStalenessMs env opts) l e holders := by
  obtain ⟨before, a, -, hfires, hbefore, hl, hrun, hlog⟩ :=
    Machine.exists_call_of_log_prefix (worldMachine env) hpre
  have hinvariant := indexInvariant_history env bondId now (before ++ [a])
  have hnodup : ∀ other, (e.before.store.getHolders other).Nodup :=
    hbefore ▸ (indexInvariant_history env bondId now before).nodup
  unfold history at hinvariant
  rw [hrun, hlog] at hinvariant
  obtain ⟨hholders, hmem⟩ := mem_coupon_of_mem_holders hfires hinput houtput hnodup
  obtain ⟨earlier, e', later, hsplit, hrecent, hreconciles, hlater⟩ := hvouched
  have hmoment : e' ∈ l ++ [e] := by
    rw [hsplit]
    simp
  refine ⟨hholders, e', hmoment, hrecent, fun address hknown => ?_⟩
  have hread := mem_readsOf_of_reconciles hreconciles address hknown
  refine ⟨hread, fun hpositive => hmem address ?_⟩
  exact hinvariant.kept earlier e' later hsplit address hread hpositive
    (hlater address hknown hpositive)

def sampleEnv : Env := ⟨none, none⟩

/-- A fresh list is asked for. -/
def strict : CouponHoldersOptions := ⟨some true, none⟩

/-- No read fails. -/
def allReads : CouponReads := ⟨fun _ => true, fun _ => true, fun _ => true⟩

/-- The list for a coupon on bond 1, which has to be fresh. -/
def couponCall : Call := .getHoldersForCoupon 1 strict allReads

/-- The log entry of a call after others, if it succeeds. -/
def entryAfter (calls : List Call) (call : Call) (output : Answer) : LogEntry :=
  let w := (worldMachine sampleEnv).run (World.initial 1000) calls
  ⟨w, call, output, (worldMachine sampleEnv).step w call⟩

/-- A holder sells a part to another one, an hour and more before the coupon. -/
def soldLongAgo : List Call := [
  .subscribe 1 "GA" 10, .recordSubscribe 1 "GA", .subscribe 2 "GB" 5, .recordSubscribe 2 "GB",
  .transfer 1 "GA" "GB" 4, .pass 3600001]

/-- The index is stale by then, so the call reconciles it and finds the buyer. -/
theorem couponHolders_complete_when_stale :
    Complete sampleEnv 1 3600000 (history sampleEnv 1000 soldLongAgo)
      (entryAfter soldLongAgo couponCall (.coupon ["GA", "GB"])) ["GA", "GB"] :=
  couponHolders_complete sampleEnv 1000 (soldLongAgo ++ [couponCall])
    (history sampleEnv 1000 soldLongAgo)
    (entryAfter soldLongAgo couponCall (.coupon ["GA", "GB"]))
    ⟨[], by unfold history; rw [Machine.log_append, List.append_nil]; rfl⟩ 1 strict allReads
    ["GA", "GB"] rfl rfl
    ⟨_, _, [], rfl, by decide +kernel, ⟨rfl, by decide +kernel, by decide +kernel,
      by decide +kernel⟩, by simp⟩

/-- The same, and the seller subscribes again just before the coupon. -/
def sellerBackAgain : List Call :=
  soldLongAgo ++ [.subscribe 1 "GA" 2, .recordSubscribe 1 "GA"]

/-- The second subscription of the seller passes for a reconcile: the buyer is
left out. -/
theorem couponHolders_miss_buyer :
    ¬ ∀ (env : Env) (now : Nat) (calls : List Call) (l : List LogEntry) (e : LogEntry),
      l ++ [e] <+: history env now calls →
      ∀ (bondId : Nat) (opts : CouponHoldersOptions) (reads : CouponReads)
        (holders : List String), e.input = .getHoldersForCoupon bondId opts reads →
        opts.requireFresh = some true → e.output = .coupon holders →
        Complete env bondId (maxStalenessMs env opts) l e holders := by
  intro h
  have hcomplete := h sampleEnv 1000 (sellerBackAgain ++ [couponCall])
    (history sampleEnv 1000 sellerBackAgain)
    (entryAfter sellerBackAgain couponCall (.coupon ["GA"]))
    ⟨[], by unfold history; rw [Machine.log_append, List.append_nil]; rfl⟩ 1 strict allReads
    ["GA"] rfl rfl rfl
  revert hcomplete
  decide +kernel

end EcoMint.HolderIndex
