import EcoMint.PortfolioFreshness
import EcoMint.ReadPoint

/-!
# The detail of a bond

`BondsService.getBondDetail` promises that its panels are never a mix of values
from before and after a mutation.  It reads the bond's terms, its record, each
indexed holder's balance one after the other, and beside them the undistributed
total: each from the ledger of the moment, and the ledger may change between any
two of them.

`takenFrom_resume` says what one read tells about any ledger the response might
have been taken from; along a run the response was taken from a ledger exactly
if every read was given what that ledger would have given.
-/

namespace EcoMint.BondDetail

open Portfolio (BondResponse BondMaturityStatus)

/-! ## The call -/

/-- A holder with the balance that was read. -/
structure HolderWithBalance where
  address : Address
  balance : Int
deriving DecidableEq

/-- Whether a bond has come to its maturity date, and how long that takes. -/
structure MaturityPanel where
  reached : Bool
  date : Nat
  secondsUntil : Nat
deriving DecidableEq

/-- The answer of `getBondDetail`. -/
structure BondDetailResponse where
  bond : BondResponse
  holders : List HolderWithBalance
  undistributedTotal : Int
  maturity : MaturityPanel
  /-- in milliseconds -/
  loadedAt : Nat
deriving DecidableEq

/-- The ledger reads of a call. -/
inductive Question
  | bond
  | bondState
  | balance (holder : Address)
  | undistributedTotal
deriving DecidableEq

/-- What a question to the ledger is answered with. -/
abbrev Question.Answer : Question → Type
  | .bond => Option BondConfig
  | .bondState => Option BondIssuer.BondState
  | .balance _ => Int
  | .undistributedTotal => Int

/-- What the ledger holds under a question. -/
def answer (bondId : Nat) (w : World) : (question : Question) → question.Answer
  | .bond => (BondIssuer.getBond w.issuer bondId).toOption
  | .bondState => (BondIssuer.getBondState w.issuer bondId).toOption
  | .balance holder => BondIssuer.getHolderBalance w.issuer bondId holder
  | .undistributedTotal => CouponEngine.getUndistributedTotal w.engine bondId

/-- How far a call has come; of the holders, how many are read, and the list so
far. -/
inductive DetailCall
  | start
  | configured (config : BondConfig)
  | panels (bond : BondResponse) (next : Nat) (result : List HolderWithBalance)
      (undistributedTotal : Option Int)
  | returned (response : BondDetailResponse)
  | thrown
deriving DecidableEq

/-- The call has not ended yet. -/
def DetailCall.running : DetailCall → Bool
  | .returned _ => false
  | .thrown => false
  | _ => true

/-- The panels that are loaded side by side. -/
inductive Panel
  | summary
  | holders
  | coupon
deriving DecidableEq

/-- Which panel reads on, whether the read comes back, and the time then. -/
structure Reply where
  panel : Panel
  ok : Bool
  now : Nat

/-- What `simulateCall` returns, unless it throws. -/
def Reply.fetch {α : Type} (reply : Reply) (answer : Option α) : Option α :=
  if reply.ok then answer else none

/-- A read gives a value if it does not fail and there is one. -/
theorem Reply.fetch_eq_some_iff {α : Type} {reply : Reply} {answer : Option α} {a : α} :
    reply.fetch answer = some a ↔ reply.ok = true ∧ answer = some a := by
  simp [fetch]

/-- The bond's summary, from the two reads that it takes. -/
def buildBondResponse (bondId : Nat) (config : BondConfig) (state : BondIssuer.BondState)
    (now : Nat) : BondResponse where
  id := bondId
  config := config
  state := state
  maturityStatus :=
    if state.status = .matured ∨ now / 1000 ≥ config.maturityDate then .matured else .active

/-- The response, when all panels are there. -/
def buildDetail (bond : BondResponse) (holders : List HolderWithBalance)
    (undistributedTotal : Int) (now : Nat) : BondDetailResponse :=
  let nowSeconds := now / 1000
  let reached : Bool := bond.state.status = .matured ∨ nowSeconds ≥ bond.config.maturityDate
  { bond, holders, undistributedTotal
    maturity := {
      reached, date := bond.config.maturityDate
      secondsUntil := if reached then 0 else bond.config.maturityDate - nowSeconds }
    loadedAt := now }

section

variable (bondId : Nat) (addresses : List Address)

/-- The panels are waited for together. -/
def settle (bond : BondResponse) (next : Nat) (result : List HolderWithBalance)
    (undistributedTotal : Option Int) (now : Nat) : DetailCall :=
  match undistributedTotal with
  | some total =>
      if next = addresses.length then .returned (buildDetail bond result total now)
      else .panels bond next result undistributedTotal
  | none => .panels bond next result undistributedTotal

/-- The entry of a holder; one without tokens has none. -/
def entryOf (address : Address) (balance : Int) : List HolderWithBalance :=
  if 0 < balance then [⟨address, balance⟩] else []

/-- The next read of a call. -/
def resume (w : World) (c : DetailCall) (reply : Reply) : Option (Question × DetailCall) :=
  match c, reply.panel with
  | .start, .summary =>
      match reply.fetch (answer bondId w .bond) with
      | some config => some (.bond, .configured config)
      | none => some (.bond, .thrown)
  | .configured config, .summary =>
      match reply.fetch (answer bondId w .bondState) with
      | some state =>
          some (.bondState, .panels (buildBondResponse bondId config state reply.now) 0 [] none)
      | none => some (.bondState, .thrown)
  | .panels bond next result undistributedTotal, .holders =>
      match addresses[next]? with
      | some address =>
          -- a balance that cannot be read is listed as zero
          let entry := if reply.ok then entryOf address (answer bondId w (.balance address))
            else [⟨address, 0⟩]
          some (.balance address,
            settle addresses bond (next + 1) (result ++ entry) undistributedTotal reply.now)
      | none => none
  | .panels bond next result none, .coupon =>
      match reply.fetch (some (answer bondId w .undistributedTotal)) with
      | some total =>
          some (.undistributedTotal, settle addresses bond next result (some total) reply.now)
      | none => some (.undistributedTotal, .thrown)
  | _, _ => none

/-- A call on a ledger that takes transactions meanwhile. -/
def detail : Reader World Tx DetailCall Reply Question where
  running := DetailCall.running
  change w tx := (execute w tx).toOption.map Prod.snd
  resume := resume bondId addresses

end

/-- A read that did not end the call with an error. -/
inductive ReadStep (bondId : Nat) (addresses : List Address) (w : World) (reply : Reply) :
    DetailCall → Question → DetailCall → Prop
  | configured (config : BondConfig) (hok : reply.ok = true)
      (hconfig : answer bondId w .bond = some config) :
      ReadStep bondId addresses w reply .start .bond (.configured config)
  | summary (config : BondConfig) (state : BondIssuer.BondState) (hok : reply.ok = true)
      (hstate : answer bondId w .bondState = some state) :
      ReadStep bondId addresses w reply (.configured config) .bondState
        (.panels (buildBondResponse bondId config state reply.now) 0 [] none)
  | balance (bond : BondResponse) (next : Nat) (result : List HolderWithBalance)
      (undistributedTotal : Option Int) (address : Address)
      (hnext : addresses[next]? = some address) :
      ReadStep bondId addresses w reply (.panels bond next result undistributedTotal)
        (.balance address) (settle addresses bond (next + 1)
          (result ++ if reply.ok then entryOf address (answer bondId w (.balance address))
            else [⟨address, 0⟩]) undistributedTotal reply.now)
  | coupon (bond : BondResponse) (next : Nat) (result : List HolderWithBalance)
      (hok : reply.ok = true) :
      ReadStep bondId addresses w reply (.panels bond next result none) .undistributedTotal
        (settle addresses bond next result (some (answer bondId w .undistributedTotal)) reply.now)

/-- What a read of the call does. -/
theorem readStep_of_resume {bondId : Nat} {addresses : List Address} {w : World}
    {c c' : DetailCall} {reply : Reply} {question : Question}
    (h : resume bondId addresses w c reply = some (question, c')) (hc' : c' ≠ .thrown) :
    ReadStep bondId addresses w reply c question c' := by
  unfold resume at h
  split at h
  · split at h
    · next config hfetch =>
        obtain ⟨rfl, rfl⟩ := Prod.mk.inj (Option.some.inj h)
        obtain ⟨hok, hconfig⟩ := Reply.fetch_eq_some_iff.mp hfetch
        exact .configured config hok hconfig
    · exact absurd (Prod.mk.inj (Option.some.inj h)).2.symm hc'
  · split at h
    · next state hfetch =>
        obtain ⟨rfl, rfl⟩ := Prod.mk.inj (Option.some.inj h)
        obtain ⟨hok, hstate⟩ := Reply.fetch_eq_some_iff.mp hfetch
        exact .summary _ state hok hstate
    · exact absurd (Prod.mk.inj (Option.some.inj h)).2.symm hc'
  · split at h
    · next address hnext =>
        obtain ⟨rfl, rfl⟩ := Prod.mk.inj (Option.some.inj h)
        exact .balance _ _ _ _ address hnext
    · cases h
  · split at h
    · next total hfetch =>
        obtain ⟨rfl, rfl⟩ := Prod.mk.inj (Option.some.inj h)
        obtain ⟨hok, htotal⟩ := Reply.fetch_eq_some_iff.mp hfetch
        obtain rfl := Option.some.inj htotal
        exact .coupon _ _ _ hok
    · exact absurd (Prod.mk.inj (Option.some.inj h)).2.symm hc'
  · cases h

/-! ## One ledger for all panels -/

/-- The entries that a ledger has for some addresses. -/
def holdersIn (bondId : Nat) (w : World) (addresses : List Address) : List HolderWithBalance :=
  addresses.flatMap fun address =>
    entryOf address (BondIssuer.getHolderBalance w.issuer bondId address)

/-- The summary says what the ledger holds. -/
structure SummaryTakenFrom (bondId : Nat) (w : World) (bond : BondResponse) : Prop where
  config : (BondIssuer.getBond w.issuer bondId).toOption = some bond.config
  state : (BondIssuer.getBondState w.issuer bondId).toOption = some bond.state

/-- The summary, the balances and the undistributed total are those of one
ledger. -/
structure BondDetailResponse.TakenFrom (response : BondDetailResponse) (bondId : Nat)
    (addresses : List Address) (w : World) : Prop where
  summary : SummaryTakenFrom bondId w response.bond
  holders : response.holders = holdersIn bondId w addresses
  undistributedTotal :
    response.undistributedTotal = CouponEngine.getUndistributedTotal w.engine bondId

/-- What a call has read so far is what one ledger holds. -/
def DetailCall.TakenFrom (bondId : Nat) (addresses : List Address) (w : World) :
    DetailCall → Prop
  | .start => True
  | .configured config => (BondIssuer.getBond w.issuer bondId).toOption = some config
  | .panels bond next result undistributedTotal => SummaryTakenFrom bondId w bond ∧
      result = holdersIn bondId w (addresses.take next) ∧ ∀ total, undistributedTotal = some total →
        total = CouponEngine.getUndistributedTotal w.engine bondId
  | .returned response => response.TakenFrom bondId addresses w
  | .thrown => False

/-- The list so far has entries of the addresses that were read. -/
def DetailCall.WithinIndex (addresses : List Address) : DetailCall → Prop
  | .panels _ next result _ => ∀ entry ∈ result, entry.address ∈ addresses.take next
  | _ => True

section

variable {bondId : Nat} {addresses : List Address}

/-- What is taken from a ledger stays so when the panels come together. -/
theorem takenFrom_settle {w : World} {bond : BondResponse} {next : Nat}
    {result : List HolderWithBalance} {undistributedTotal : Option Int} {now : Nat} :
    (settle addresses bond next result undistributedTotal now).TakenFrom bondId addresses w ↔
      (DetailCall.panels bond next result undistributedTotal).TakenFrom bondId addresses w := by
  cases undistributedTotal with
  | none => rfl
  | some total =>
      by_cases hall : next = addresses.length
      · simp only [settle, DetailCall.TakenFrom, hall, List.take_length,
          Option.some.injEq, forall_eq']
        constructor
        · exact fun h => ⟨h.summary, h.holders, h.undistributedTotal⟩
        · exact fun ⟨hsummary, hholders, htotal⟩ => ⟨hsummary, hholders, htotal⟩
      · simp only [settle, if_neg hall]

/-- The listed holders are those of the index when the panels come together. -/
theorem withinIndex_settle {bond : BondResponse} {next : Nat} {result : List HolderWithBalance}
    {undistributedTotal : Option Int} {now : Nat}
    (h : ∀ entry ∈ result, entry.address ∈ addresses.take next) :
    (settle addresses bond next result undistributedTotal now).WithinIndex addresses := by
  unfold settle
  split
  · split
    · trivial
    · exact h
  · exact h

/-- Listed is a holder with a balance. -/
theorem mem_entryOf {address : Address} {balance : Int} {entry : HolderWithBalance}
    (h : entry ∈ entryOf address balance) : entry.address = address ∧ 0 < entry.balance := by
  unfold entryOf at h
  split at h
  · next hpos =>
      obtain rfl := List.mem_singleton.mp h
      exact ⟨rfl, hpos⟩
  · cases h

/-- Two balances that are not negative have the same entry if they are equal. -/
theorem entryOf_inj {address : Address} {balance balance' : Int} (h : 0 ≤ balance)
    (h' : 0 ≤ balance') : entryOf address balance = entryOf address balance' ↔
      balance = balance' := by
  unfold entryOf
  by_cases hpos : 0 < balance <;> by_cases hpos' : 0 < balance' <;> simp [hpos, hpos'] <;> omega

/-- An entry that is added for a further address fits a ledger exactly if the
list before and the entry do. -/
theorem append_entry_iff {w : World} (hnodup : addresses.Nodup) {next : Nat} {address : Address}
    (hnext : addresses[next]? = some address) {result entry : List HolderWithBalance}
    (hwithin : ∀ e ∈ result, e.address ∈ addresses.take next)
    (hentry : ∀ e ∈ entry, e.address = address) :
    result ++ entry = holdersIn bondId w (addresses.take (next + 1)) ↔
      result = holdersIn bondId w (addresses.take next) ∧
        entry = entryOf address (BondIssuer.getHolderBalance w.issuer bondId address) := by
  have hsplit : holdersIn bondId w (addresses.take (next + 1)) =
      holdersIn bondId w (addresses.take next) ++
        entryOf address (BondIssuer.getHolderBalance w.issuer bondId address) := by
    simp [holdersIn, List.take_add_one, hnext]
  have hfresh : address ∉ addresses.take next := by
    intro hmem
    obtain ⟨i, hi, hget⟩ := List.mem_take_iff_getElem.mp hmem
    have hlt : i < next := by omega
    have hsame : addresses[i]? = addresses[next]? := by
      rw [hnext, List.getElem?_eq_getElem (by omega), hget]
    exact List.nodup_iff_getElem?_ne_getElem?.mp hnodup i next hlt
      (List.getElem?_eq_some_iff.mp hnext).1 hsame
  have hlisted : ∀ e ∈ holdersIn bondId w (addresses.take next),
      e.address ∈ addresses.take next := by
    intro e he
    obtain ⟨a, ha, hentry⟩ := List.mem_flatMap.mp he
    rwa [(mem_entryOf hentry).1]
  -- the lists of the addresses before have no entry of this one
  have hnone : ∀ l : List HolderWithBalance, (∀ e ∈ l, e.address ∈ addresses.take next) →
      l.filter (fun e => e.address = address) = [] := by
    intro l hl
    rw [List.filter_eq_nil_iff]
    intro e he heq
    rw [decide_eq_true_iff] at heq
    exact hfresh (heq ▸ hl e he)
  have hall : ∀ l : List HolderWithBalance, (∀ e ∈ l, e.address = address) →
      l.filter (fun e => e.address = address) = l := by
    intro l hl
    rw [List.filter_eq_self]
    exact fun e he => decide_eq_true (hl e he)
  rw [hsplit]
  constructor
  · intro heq
    have hlast := congrArg (List.filter fun e => e.address = address) heq
    rw [List.filter_append, List.filter_append, hnone _ hwithin, hnone _ hlisted,
      hall _ hentry, hall _ fun e he => (mem_entryOf he).1, List.nil_append,
      List.nil_append] at hlast
    rw [hlast] at heq
    exact ⟨List.append_cancel_right heq, hlast⟩
  · rintro ⟨rfl, rfl⟩
    rfl

/-- The balances of a ledger are not negative. -/
def Solvent (bondId : Nat) (w : World) : Prop :=
  ∀ holder, 0 ≤ BondIssuer.getHolderBalance w.issuer bondId holder

/-- **Step lemma.**  After a read, a call is taken from a ledger exactly if it
was before and the ledger would have given the same. -/
theorem takenFrom_readStep {w w' : World} {c c' : DetailCall} {reply : Reply}
    {question : Question} (hnodup : addresses.Nodup) (hw : Solvent bondId w)
    (hw' : Solvent bondId w') (hwithin : c.WithinIndex addresses)
    (h : ReadStep bondId addresses w' reply c question c') :
    c'.TakenFrom bondId addresses w ↔ c.TakenFrom bondId addresses w ∧
      reply.ok = true ∧ answer bondId w' question = answer bondId w question := by
  cases h with
  | configured config hok hconfig =>
      rw [hconfig]
      simp only [DetailCall.TakenFrom, hok, true_and]
      exact eq_comm
  | summary config state hok hstate =>
      rw [hstate]
      simp only [DetailCall.TakenFrom, hok, true_and, List.take_zero]
      constructor
      · rintro ⟨hsummary, -, -⟩
        exact ⟨hsummary.config, hsummary.state.symm⟩
      · rintro ⟨hconfig, hsame⟩
        exact ⟨⟨hconfig, hsame.symm⟩, rfl, fun total h => by cases h⟩
  | balance bond next result undistributedTotal address hnext =>
      rw [takenFrom_settle]
      have hlisted : (if reply.ok then entryOf address (answer bondId w' (.balance address))
          else [⟨address, 0⟩]) = entryOf address (BondIssuer.getHolderBalance w.issuer bondId
            address) ↔
          reply.ok = true ∧ answer bondId w' (.balance address) =
            answer bondId w (.balance address) := by
        cases hok : reply.ok with
        | true =>
            rw [if_pos rfl, and_iff_right rfl]
            exact entryOf_inj (hw' address) (hw address)
        | false =>
            have hzero : [⟨address, 0⟩] ≠ entryOf address
                (BondIssuer.getHolderBalance w.issuer bondId address) := by
              intro heq
              have hmem := mem_entryOf (heq ▸ List.mem_singleton_self _)
              exact absurd hmem.2 (lt_irrefl 0)
            simpa using hzero
      have hentry : ∀ e ∈ (if reply.ok then entryOf address (answer bondId w' (.balance address))
          else [⟨address, 0⟩]), e.address = address := by
        intro e he
        split at he
        · exact (mem_entryOf he).1
        · exact congrArg _ (List.mem_singleton.mp he)
      simp only [DetailCall.TakenFrom]
      rw [append_entry_iff hnodup hnext hwithin hentry, hlisted]
      tauto
  | coupon bond next result hok =>
      rw [takenFrom_settle]
      simp only [DetailCall.TakenFrom, hok, true_and, Option.some.injEq, forall_eq', answer]
      constructor
      · rintro ⟨hsummary, hresult, htotal⟩
        exact ⟨⟨hsummary, hresult, fun total h => by cases h⟩, htotal⟩
      · rintro ⟨⟨hsummary, hresult, -⟩, htotal⟩
        exact ⟨hsummary, hresult, htotal⟩

/-- A read keeps the listed holders within the index. -/
theorem withinIndex_readStep {w : World} {c c' : DetailCall} {reply : Reply}
    {question : Question} (hwithin : c.WithinIndex addresses)
    (h : ReadStep bondId addresses w reply c question c') : c'.WithinIndex addresses := by
  cases h with
  | configured => trivial
  | summary => exact fun entry hentry => by cases hentry
  | balance bond next result undistributedTotal address hnext =>
      refine withinIndex_settle fun entry hentry => ?_
      have htake : addresses.take (next + 1) = addresses.take next ++ [address] := by
        rw [List.take_add_one, hnext]
        rfl
      rw [htake]
      rcases List.mem_append.mp hentry with hold | hnew
      · exact List.mem_append_left _ (hwithin entry hold)
      · refine List.mem_append_right _ (List.mem_singleton.mpr ?_)
        split at hnew
        · exact (mem_entryOf hnew).1
        · exact congrArg _ (List.mem_singleton.mp hnew)
  | coupon => exact withinIndex_settle hwithin

/-- The balances of a ledger together are those of its entries. -/
theorem sum_holdersIn {w : World} (hw : Solvent bondId w) (addresses : List Address) :
    ((holdersIn bondId w addresses).map HolderWithBalance.balance).sum =
      (addresses.map (BondIssuer.getHolderBalance w.issuer bondId)).sum := by
  induction addresses with
  | nil => rfl
  | cons address rest ih =>
      have hentry : ((entryOf address (BondIssuer.getHolderBalance w.issuer bondId address)).map
          HolderWithBalance.balance).sum =
            BondIssuer.getHolderBalance w.issuer bondId address := by
        have hbalance := hw address
        unfold entryOf
        split
        · simp
        · simp only [List.map_nil, List.sum_nil]
          omega
      simp only [holdersIn, List.flatMap_cons, List.map_append, List.sum_append, List.map_cons,
        List.sum_cons] at ih ⊢
      rw [hentry, ih]

end

/-! ## Interleavings -/

/-- The holders that the index lists for a bond; nobody is added to it twice. -/
structure IndexedHolders where
  addresses : List Address
  nodup : addresses.Nodup

/-- The states of a call that begins after some transactions, while further
transactions come in. -/
def during (d : Deployment) (txs : List Tx) (bondId : Nat) (index : IndexedHolders)
    (actions : List (ReaderAction Tx Reply)) : World × DetailCall :=
  (detail bondId index.addresses).machine.run (machine.run (deploy d) txs, .start) actions

/-- The steps of such a call, the reads among them. -/
def steps (d : Deployment) (txs : List Tx) (bondId : Nat) (index : IndexedHolders)
    (actions : List (ReaderAction Tx Reply)) : List (detail bondId index.addresses).Logged :=
  (detail bondId index.addresses).machine.log (machine.run (deploy d) txs, .start) actions

/-- If the step is a read, it comes back. -/
def Succeeds {bondId : Nat} {addresses : List Address} (e : (detail bondId addresses).Logged) :
    Prop :=
  ∀ reply, e.input = .read reply → reply.ok = true

section

variable {d : Deployment} {txs : List Tx} {bondId : Nat} {index : IndexedHolders}

/-- The issuer's books are right all along the call. -/
theorem supplyInvariant_during (actions : List (ReaderAction Tx Reply)) :
    BondIssuer.SupplyInvariant (during d txs bondId index actions).1.issuer := by
  refine (detail bondId index.addresses).machine.invariant (P := fun (s : World × DetailCall) _ =>
    BondIssuer.SupplyInvariant s.1.issuer) (supplyInvariant d txs) (fun _ e hfires hs => ?_) actions
  rcases Reader.step_cases _ hfires with ⟨tx, w, -, hchange, -, hafter⟩ | ⟨_, _, _, -, -, -, hafter⟩
  · rw [hafter]
    obtain ⟨⟨out, w'⟩, hexecute, rfl⟩ := Option.map_eq_some_iff.mp hchange
    have hok : execute e.before.1 tx = .ok (out, w') := by
      cases hresult : execute e.before.1 tx with
      | error error => simp [hresult, Except.toOption] at hexecute
      | ok result => simpa [hresult, Except.toOption] using hexecute
    rcases (worldStep_of_execute hok).issuer_exec with hsame | ⟨env, registries, call, o, hexec⟩
    · change BondIssuer.SupplyInvariant w'.issuer
      rw [hsame]
      exact hs
    · exact hs.exec hexec
  · rw [hafter]
    exact hs

/-- So are the balances of the bond. -/
theorem solvent_during (actions : List (ReaderAction Tx Reply)) :
    Solvent bondId (during d txs bondId index actions).1 :=
  fun holder => (supplyInvariant_during actions).balance_nonneg (bondId, holder)

/-- The listed holders are within the index all along the call. -/
theorem withinIndex_during (actions : List (ReaderAction Tx Reply)) :
    (during d txs bondId index actions).2.WithinIndex index.addresses := by
  refine (detail bondId index.addresses).machine.invariant (P := fun (s : World × DetailCall) _ =>
    s.2.WithinIndex index.addresses) ?_ (fun _ e hfires hs => ?_) actions
  · trivial
  rcases Reader.step_cases _ hfires with
    ⟨_, _, -, -, -, hafter⟩ | ⟨reply, question, c, -, hresume, -, hafter⟩
  · rw [hafter]
    exact hs
  · rw [hafter]
    by_cases hthrown : c = .thrown
    · rw [hthrown]
      trivial
    · exact withinIndex_readStep hs (readStep_of_resume hresume hthrown)

/-- **Run lemma.**  A call that goes well was taken from a ledger exactly if no
read failed and each was given what that ledger would have given. -/
theorem takenFrom_during_iff {w : World} (hw : Solvent bondId w)
    (actions : List (ReaderAction Tx Reply))
    (hthrown : (during d txs bondId index actions).2 ≠ .thrown) :
    (during d txs bondId index actions).2.TakenFrom bondId index.addresses w ↔
      (∀ e ∈ steps d txs bondId index actions, Succeeds e) ∧
        Reader.Agreed _ (answer bondId) w (steps d txs bondId index actions) := by
  revert hthrown
  refine (detail bondId index.addresses).machine.invariant_under
    (I := fun (s : World × DetailCall) _ => Solvent bondId s.1 ∧ s.2.WithinIndex index.addresses)
    (P := fun s l => s.2 ≠ .thrown → (s.2.TakenFrom bondId index.addresses w ↔
      (∀ e ∈ l, Succeeds e) ∧ Reader.Agreed _ (answer bondId) w l))
    (fun actions => ⟨solvent_during actions, withinIndex_during actions⟩) ?_ ?_ actions
  · intro _
    simp [DetailCall.TakenFrom, Reader.Agreed]
  · intro l e hfires hbounds ih hthrown
    obtain ⟨hsolvent, hwithin⟩ := hbounds
    rw [Reader.agreed_snoc]
    rcases Reader.step_cases _ hfires with
      ⟨tx, w', hinput, -, hnone, hafter⟩ | ⟨reply, question, c, hinput, hresume, hasks, hafter⟩
    · rw [hafter] at hthrown ⊢
      rw [ih hthrown]
      simp [Succeeds, hinput, hnone, or_imp, forall_and]
    · rw [hafter] at hthrown ⊢
      have hread := readStep_of_resume hresume hthrown
      have hbefore : e.before.2 ≠ .thrown := by
        intro heq
        rw [heq] at hread
        cases hread
      rw [takenFrom_readStep index.nodup hw hsolvent hwithin hread, ih hbefore]
      simp only [List.mem_append, List.mem_singleton, or_imp, forall_and, forall_eq, Succeeds,
        hinput, hasks, ReaderAction.read.injEq, Option.some.injEq, forall_eq']
      exact and_and_and_comm

end

/-! ## Steps in order -/

/-- What a call has still to read. -/
def DetailCall.Pending (addresses : List Address) : DetailCall → Question → Prop
  | .start, .balance holder => holder ∈ addresses
  | .start, _ => True
  | .configured _, .bond => False
  | .configured _, .balance holder => holder ∈ addresses
  | .configured _, _ => True
  | .panels _ next _ _, .balance holder => holder ∈ addresses.drop next
  | .panels _ _ _ undistributedTotal, .undistributedTotal => undistributedTotal = none
  | _, _ => False

section

variable {bondId : Nat} {addresses : List Address}

/-- Nothing is pending in a call that has settled but its own questions. -/
theorem pending_settle {bond : BondResponse} {next : Nat} {result : List HolderWithBalance}
    {undistributedTotal : Option Int} {now : Nat} {question : Question}
    (h : (settle addresses bond next result undistributedTotal now).Pending addresses question) :
    (DetailCall.panels bond next result undistributedTotal).Pending addresses question := by
  unfold settle at h
  split at h
  · split at h
    · cases question <;> cases h
    · exact h
  · exact h

/-- The addresses that are left begin with the next one. -/
theorem drop_of_getElem? {next : Nat} {address : Address}
    (hnext : addresses[next]? = some address) :
    addresses.drop next = address :: addresses.drop (next + 1) := by
  obtain ⟨hlt, hget⟩ := List.getElem?_eq_some_iff.mp hnext
  rw [List.drop_eq_getElem_cons hlt, hget]

/-- A read asks for something that is pending, also if it fails. -/
theorem pending_of_resume {w : World} {c c' : DetailCall} {reply : Reply} {question : Question}
    (h : resume bondId addresses w c reply = some (question, c')) :
    c.Pending addresses question := by
  unfold resume at h
  split at h
  · split at h <;> (obtain ⟨rfl, -⟩ := Prod.mk.inj (Option.some.inj h); trivial)
  · split at h <;> (obtain ⟨rfl, -⟩ := Prod.mk.inj (Option.some.inj h); trivial)
  · split at h
    · next address hnext =>
        obtain ⟨rfl, -⟩ := Prod.mk.inj (Option.some.inj h)
        simp only [DetailCall.Pending]
        rw [drop_of_getElem? hnext]
        exact List.mem_cons_self
    · cases h
  · split at h <;> (obtain ⟨rfl, -⟩ := Prod.mk.inj (Option.some.inj h); rfl)
  · cases h

/-- What is pending after a read was pending before. -/
theorem pending_of_readStep {w : World} {c c' : DetailCall} {reply : Reply}
    {question other : Question} (h : ReadStep bondId addresses w reply c question c')
    (hother : c'.Pending addresses other) : c.Pending addresses other := by
  cases h with
  | configured => cases other <;> first | exact hother | trivial
  | summary => cases other <;> first | exact hother | trivial
  | balance bond next result undistributedTotal address hnext =>
      have hpending := pending_settle hother
      cases other with
      | balance holder =>
          simp only [DetailCall.Pending]
          rw [drop_of_getElem? hnext]
          exact List.mem_cons_of_mem _ hpending
      | bond => exact hpending
      | bondState => exact hpending
      | undistributedTotal => exact hpending
  | coupon =>
      have hpending := pending_settle hother
      cases other with
      | undistributedTotal => cases hpending
      | bond => exact hpending
      | bondState => exact hpending
      | balance holder => exact hpending

/-- A read was pending, and what is pending after it was pending before. -/
theorem pending_resume {w : World} {c c' : DetailCall} {reply : Reply} {question : Question}
    (h : resume bondId addresses w c reply = some (question, c')) :
    c.Pending addresses question ∧
      ∀ other, c'.Pending addresses other → c.Pending addresses other := by
  refine ⟨pending_of_resume h, fun other hother => ?_⟩
  by_cases hc' : c' = .thrown
  · rw [hc'] at hother
    cases other <;> cases hother
  · exact pending_of_readStep (readStep_of_resume h hc') hother

end

/-- The ledger of some moment of the call is the one that the response was taken
from; so its balances, if nobody is missing in the index, sum to its total. -/
def IsSnapshot (d : Deployment) (txs : List Tx) (bondId : Nat) (index : IndexedHolders)
    (actions : List (ReaderAction Tx Reply)) (response : BondDetailResponse) : Prop :=
  ∃ pre, pre <+: actions ∧
    response.TakenFrom bondId index.addresses (during d txs bondId index pre).1 ∧
    ((∀ holder, 0 < BondIssuer.getHolderBalance (during d txs bondId index pre).1.issuer bondId
        holder → holder ∈ index.addresses) →
      (response.holders.map HolderWithBalance.balance).sum = response.bond.state.totalSubscribed)

section

variable {response : BondDetailResponse} {d : Deployment} {txs : List Tx} {bondId : Nat}
  {index : IndexedHolders} {pre : List (ReaderAction Tx Reply)}

/-- The total of a snapshot is that of its ledger. -/
theorem BondDetailResponse.TakenFrom.totalSubscribed_eq
    (h : response.TakenFrom bondId index.addresses (during d txs bondId index pre).1) :
    (during d txs bondId index pre).1.issuer.subscribedTotal bondId =
      response.bond.state.totalSubscribed := by
  refine BondIssuer.subscribedTotal_of_get ?_
  have hget := h.summary.state
  unfold BondIssuer.getBondState at hget
  cases hstate : (during d txs bondId index pre).1.issuer.bondState.get bondId with
  | none => simp [hstate, Fallible.okOr, Except.toOption] at hget
  | some state => simpa [hstate, Fallible.okOr, Except.toOption] using hget

/-- The balances of a snapshot are at most all tokens of the bond. -/
theorem BondDetailResponse.TakenFrom.sum_le
    (h : response.TakenFrom bondId index.addresses (during d txs bondId index pre).1) :
    (response.holders.map HolderWithBalance.balance).sum ≤
      response.bond.state.totalSubscribed := by
  rw [h.holders, sum_holdersIn (solvent_during pre), ← h.totalSubscribed_eq]
  exact ((supplyInvariant_during pre).addsUp bondId).held_le index.nodup

/-- The balances of a snapshot with all holders are all tokens of the bond. -/
theorem BondDetailResponse.TakenFrom.sum_eq
    (h : response.TakenFrom bondId index.addresses (during d txs bondId index pre).1)
    (hall : ∀ holder, 0 < BondIssuer.getHolderBalance (during d txs bondId index pre).1.issuer
      bondId holder → holder ∈ index.addresses) :
    (response.holders.map HolderWithBalance.balance).sum =
      response.bond.state.totalSubscribed := by
  rw [h.holders, sum_holdersIn (solvent_during pre), ← h.totalSubscribed_eq]
  exact ((supplyInvariant_during pre).addsUp bondId).held_eq_of_all index.nodup hall

end

/-- **One ledger or several.**  A detail of a bond is a snapshot of the ledger at
some moment of the call exactly if no read failed, and at some moment of the
call the ledger held what each read was given.  So it is whenever, once a step
has changed what had been read already, no step changes what is still to be
read. -/
theorem detail_is_snapshot_iff (d : Deployment) (txs : List Tx) (bondId : Nat)
    (index : IndexedHolders) (actions : List (ReaderAction Tx Reply))
    (response : BondDetailResponse)
    (hreturned : (during d txs bondId index actions).2 = .returned response) :
    (IsSnapshot d txs bondId index actions response ↔
      (∀ e ∈ steps d txs bondId index actions, Succeeds e) ∧
        ∃ pre, pre <+: actions ∧ Reader.Agreed _ (answer bondId)
          (during d txs bondId index pre).1 (steps d txs bondId index actions)) ∧
    ((∀ e ∈ steps d txs bondId index actions, Succeeds e) →
      (∀ l e, l ++ [e] <+: steps d txs bondId index actions →
        Reader.InOrder _ (answer bondId) (DetailCall.Pending index.addresses) l e) →
      IsSnapshot d txs bondId index actions response) := by
  have hiff : ∀ pre, response.TakenFrom bondId index.addresses (during d txs bondId index pre).1 ↔
      (∀ e ∈ steps d txs bondId index actions, Succeeds e) ∧ Reader.Agreed _ (answer bondId)
        (during d txs bondId index pre).1 (steps d txs bondId index actions) := by
    intro pre
    rw [← takenFrom_during_iff (solvent_during pre) actions (by simp [hreturned]), hreturned]
    rfl
  have hsnapshot : (∀ e ∈ steps d txs bondId index actions, Succeeds e) →
      (∃ pre, pre <+: actions ∧ Reader.Agreed _ (answer bondId)
        (during d txs bondId index pre).1 (steps d txs bondId index actions)) →
      IsSnapshot d txs bondId index actions response := by
    rintro hsucceeds ⟨pre, hpre, hagreed⟩
    have htaken := (hiff pre).mpr ⟨hsucceeds, hagreed⟩
    exact ⟨pre, hpre, htaken, htaken.sum_eq⟩
  refine ⟨⟨?_, fun ⟨hsucceeds, hagreed⟩ => hsnapshot hsucceeds hagreed⟩, ?_⟩
  · rintro ⟨pre, hpre, htaken, -⟩
    obtain ⟨hsucceeds, hagreed⟩ := (hiff pre).mp htaken
    exact ⟨hsucceeds, pre, hpre, hagreed⟩
  · intro hsucceeds horder
    exact hsnapshot hsucceeds (Reader.exists_agreed (fun _ _ _ _ _ => pending_resume) actions horder)

/-- A read that comes back six seconds in. -/
def sampleRead (panel : Panel) : ReaderAction Tx Reply := .read ⟨panel, true, 6000⟩

def sampleDetail (holders : List HolderWithBalance) : BondDetailResponse :=
  buildDetail (buildBondResponse 1 BondIssuer.sampleConfig ⟨100, .active, 1⟩ 6000) holders 0 6000

/-- Nothing happens during the call. -/
def undisturbed : List (ReaderAction Tx Reply) :=
  [sampleRead .summary, sampleRead .summary, sampleRead .holders, sampleRead .coupon]

/-- The one holder passes 40 of its 100 tokens on, after its balance was read and
before the recipient's is. -/
def transferBetween : List (ReaderAction Tx Reply) :=
  [sampleRead .summary, sampleRead .summary, sampleRead .holders,
    .change (sampleTx 6 1 (.issuer (.transfer 1 2 1 40 1))), sampleRead .holders,
    sampleRead .coupon]

/-- Nothing happens during the call. -/
theorem undisturbed_is_snapshot :
    IsSnapshot sampleDeployment reportedBond 1 ⟨[1], by decide⟩ undisturbed
      (sampleDetail [⟨1, 100⟩]) := by
  have hreturned : (during sampleDeployment reportedBond 1 ⟨[1], by decide⟩ undisturbed).2 =
      .returned (sampleDetail [⟨1, 100⟩]) := by decide +kernel
  have hread : ∀ e ∈ steps sampleDeployment reportedBond 1 ⟨[1], by decide⟩ undisturbed,
      ∃ panel, e.input = sampleRead panel := by
    intro e he
    have hinput := (Machine.log_inputs_sublist _ _ _).subset (List.mem_map_of_mem he)
    simp only [undisturbed, List.mem_cons, List.not_mem_nil, or_false] at hinput
    rcases hinput with h | h | h | h <;> exact ⟨_, h⟩
  refine (detail_is_snapshot_iff _ _ _ _ _ _ hreturned).2 ?_ ?_
  · intro e he reply hinput
    obtain ⟨panel, hsample⟩ := hread e he
    obtain rfl := ReaderAction.read.inj (hinput.symm.trans hsample)
    rfl
  · intro l e hlogged
    obtain ⟨_, _, -, hfires, -⟩ := Machine.exists_call_of_log_prefix _ hlogged
    obtain ⟨panel, hsample⟩ := hread e (hlogged.subset (by simp))
    refine Or.inl fun question _ => ?_
    rcases Reader.step_cases _ hfires with ⟨_, _, hchange, -⟩ | ⟨_, _, _, -, -, -, hafter⟩
    · cases hsample.symm.trans hchange
    · rw [hafter]

/-- A transfer between two reads of balances. -/
theorem transfer_between_reads_is_torn :
    ¬ ∀ (d : Deployment) (txs : List Tx) (bondId : Nat) (index : IndexedHolders)
      (actions : List (ReaderAction Tx Reply)) (response : BondDetailResponse),
      (during d txs bondId index actions).2 = .returned response →
        IsSnapshot d txs bondId index actions response := by
  intro hsnapshot
  have hreturned : (during sampleDeployment reportedBond 1 ⟨[1, 2], by decide⟩
      transferBetween).2 = .returned (sampleDetail [⟨1, 100⟩, ⟨2, 40⟩]) := by decide +kernel
  obtain ⟨pre, -, htaken, -⟩ := hsnapshot _ _ _ _ _ _ hreturned
  -- no ledger has 140 tokens of a bond of which it records 100
  exact absurd htaken.sum_le (by decide)

end EcoMint.BondDetail
