import EcoMint.Machine
import EcoMint.Shared

/-!
# The cached account behind every transaction

`ContractService.sendTransaction` takes the sequence number of its transaction
from `StellarService.getAccount`, which keeps an account for thirty seconds after
Horizon answered.  The number in the cache never moves: every transaction that is
built from one answer of Horizon carries the same number, and the ledger applies
no number of an account twice.

So each answer is good for one transaction, however requests, answers and other
users of the account interleave; and as nobody asks Horizon again while an answer
is kept, the transactions of an account that get through come from requests that
either overlap or lie thirty seconds apart.
-/

namespace EcoMint.AccountSequence

/-- Half a minute, for which an account is kept. -/
def CACHE_TTL_MS : Nat := 30000

/-- `this.horizon.loadAccount(publicKey)`: who asked when, what Horizon answered,
and when the answer was stored. -/
structure Load where
  publicKey : Address
  transacts : Bool
  startedAt : Nat
  sequence : Option Nat := none
  storedAt : Option Nat := none
deriving DecidableEq

/-- A cached account, with the load it comes from. -/
structure CacheEntry where
  load : Nat
  sequence : Nat
  expiresAt : Nat
deriving DecidableEq

/-- A signed transaction. -/
structure Transaction where
  publicKey : Address
  load : Nat
  sequence : Nat
deriving DecidableEq

/-- The clock of the process, the sequence numbers on the ledger, the cache, all
loads so far, and the transactions that are built, accepted and applied. -/
structure World where
  now : Nat
  ledger : Storage Address Nat
  accountCache : Storage Address CacheEntry
  loads : List Load
  built : List Transaction
  accepted : List Transaction
  applied : List Transaction

/-- What may happen. -/
inductive Action
  /-- time passes -/
  | wait (milliseconds : Nat)
  /-- `getAccount` is called, by `sendTransaction` or by someone who only looks -/
  | getAccount (publicKey : Address) (transacts : Bool)
  /-- Horizon reads the account for a load -/
  | answer (load : Nat)
  /-- the answer arrives -/
  | arrive (load : Nat)
  /-- the RPC server accepts a transaction -/
  | accept (transaction : Nat)
  /-- the ledger takes up an accepted transaction -/
  | apply (transaction : Nat)
  /-- someone else uses the account -/
  | other (publicKey : Address)
deriving DecidableEq

/-- `new Account(publicKey, sequence)` and `TransactionBuilder.build`, which adds
one. -/
def World.build (w : World) (transacts : Bool) (publicKey : Address) (load sequence : Nat) :
    World :=
  if transacts then { w with built := w.built ++ [⟨publicKey, load, sequence + 1⟩] } else w

/-- `StellarService.getAccount`, up to the answer of Horizon. -/
def getAccount (w : World) (publicKey : Address) (transacts : Bool) : World :=
  match w.accountCache.get publicKey with
  | some cached =>
      if w.now < cached.expiresAt then w.build transacts publicKey cached.load cached.sequence
      else { w with loads := w.loads ++ [{ publicKey, transacts, startedAt := w.now }] }
  | none => { w with loads := w.loads ++ [{ publicKey, transacts, startedAt := w.now }] }

/-- The answer of Horizon is stored and returned. -/
def arrive (w : World) (i : Nat) (load : Load) (sequence : Nat) : World :=
  { w with
    accountCache := w.accountCache.set load.publicKey ⟨i, sequence, w.now + CACHE_TTL_MS⟩
    loads := w.loads.set i { load with storedAt := some w.now } }.build load.transacts
      load.publicKey i sequence

/-- The ledger applies the next sequence number of an account and no other. -/
def applyTransaction (w : World) (i : Nat) (transaction : Transaction) : World :=
  let accepted := w.accepted.eraseIdx i
  if transaction.sequence = w.ledger.read transaction.publicKey + 1 then
    { w with
      accepted
      applied := w.applied ++ [transaction]
      ledger := w.ledger.set transaction.publicKey transaction.sequence }
  else { w with accepted }

/-- One step; one that names nothing there is does not apply. -/
def call (w : World) : Action → Except Unit (Unit × World)
  | .wait milliseconds => .ok ((), { w with now := w.now + milliseconds })
  | .getAccount publicKey transacts => .ok ((), getAccount w publicKey transacts)
  | .answer i =>
      match w.loads[i]? with
      | some load =>
          if load.sequence = none then
            let answered := { load with sequence := some (w.ledger.read load.publicKey) }
            .ok ((), { w with loads := w.loads.set i answered })
          else .error ()
      | none => .error ()
  | .arrive i =>
      match w.loads[i]? with
      | some load =>
          match load.sequence, load.storedAt with
          | some sequence, none => .ok ((), arrive w i load sequence)
          | _, _ => .error ()
      | none => .error ()
  | .accept i =>
      match w.built[i]? with
      | some transaction => .ok ((), { w with
          built := w.built.eraseIdx i
          accepted := w.accepted ++ [transaction] })
      | none => .error ()
  | .apply i =>
      match w.accepted[i]? with
      | some transaction => .ok ((), applyTransaction w i transaction)
      | none => .error ()
  | .other publicKey =>
      .ok ((), { w with ledger := w.ledger.set publicKey (w.ledger.read publicKey + 1) })

/-- The account cache, step by step. -/
def accounts : Machine World Action Unit Unit := ⟨call⟩

/-- The API starts on a ledger. -/
def boot (now : Nat) (ledger : Storage Address Nat) : World where
  now := now
  ledger := ledger
  accountCache := ∅
  loads := []
  built := []
  accepted := []
  applied := []

/-! ## What a load stands for -/

/-- The transaction carries the number that Horizon answered, plus one. -/
def World.From (w : World) (transaction : Transaction) : Prop :=
  ∃ load sequence, w.loads[transaction.load]? = some load ∧
    load.publicKey = transaction.publicKey ∧ load.sequence = some sequence ∧
    load.storedAt.isSome = true ∧ transaction.sequence = sequence + 1

/-- Between two answers that were stored and any other load of the account lie at
least thirty seconds, unless the load started before. -/
def World.Spaced (w : World) : Prop :=
  ∀ load ∈ w.loads, ∀ storedAt ∈ load.storedAt, ∀ later ∈ w.loads,
    later.publicKey = load.publicKey →
      later.startedAt ≤ storedAt ∨ storedAt + CACHE_TTL_MS ≤ later.startedAt

/-! ## What one step keeps -/

/-- Loads are only added to and filled in. -/
def World.Fills (w w' : World) : Prop :=
  ∀ (i : Nat) (load : Load), w.loads[i]? = some load → ∃ load', w'.loads[i]? = some load' ∧
    load'.publicKey = load.publicKey ∧
    (∀ sequence, load.sequence = some sequence → load'.sequence = some sequence) ∧
    (load.storedAt.isSome = true → load'.storedAt.isSome = true)

/-- With the same loads nothing is lost. -/
theorem World.Fills.of_eq {w w' : World} (h : w'.loads = w.loads) : w.Fills w' := by
  intro i load hget
  exact ⟨load, h ▸ hget, rfl, fun _ => id, id⟩

theorem World.Fills.of_append {w w' : World} {load : Load} (h : w'.loads = w.loads ++ [load]) :
    w.Fills w' := by
  intro i old hget
  refine ⟨old, ?_, rfl, fun _ => id, id⟩
  rw [h, List.getElem?_append_left (List.getElem?_eq_some_iff.mp hget).1, hget]

/-- A load that changes in nothing but its progress loses nothing. -/
theorem World.Fills.of_set {w w' : World} {i : Nat} {load load' : Load}
    (hget : w.loads[i]? = some load) (h : w'.loads = w.loads.set i load')
    (hkey : load'.publicKey = load.publicKey)
    (hsequence : ∀ sequence, load.sequence = some sequence → load'.sequence = some sequence)
    (hstored : load.storedAt.isSome = true → load'.storedAt.isSome = true) : w.Fills w' := by
  intro j old hold
  by_cases hj : i = j
  · subst hj
    obtain rfl := Option.some.inj (hget.symm.trans hold)
    refine ⟨load', ?_, hkey, hsequence, hstored⟩
    rw [h, List.getElem?_set_self (List.getElem?_eq_some_iff.mp hget).1]
  · exact ⟨old, by rw [h, List.getElem?_set_ne hj, hold], rfl, fun _ => id, id⟩

/-- Where a transaction comes from is not forgotten. -/
theorem World.From.fills {w w' : World} {transaction : Transaction} (h : w.From transaction)
    (hfills : w.Fills w') : w'.From transaction := by
  obtain ⟨load, sequence, hget, hkey, hsequence, hstored, hnext⟩ := h
  obtain ⟨load', hget', hkey', hsequence', hstored'⟩ := hfills _ load hget
  exact ⟨load', sequence, hget', hkey'.trans hkey, hsequence' sequence hsequence,
    hstored' hstored, hnext⟩

/-- What a step does to the times of the loads: nothing is stored, one load
starts, or one is stored. -/
inductive LoadStep (w w' : World) : Prop
  | kept (hnow : w.now ≤ w'.now) (hcache : w'.accountCache = w.accountCache)
      (hloads : ∀ load' ∈ w'.loads, ∃ load ∈ w.loads, load.publicKey = load'.publicKey ∧
        load.startedAt = load'.startedAt ∧ load.storedAt = load'.storedAt)
  | started (load : Load) (hnow : w'.now = w.now) (hcache : w'.accountCache = w.accountCache)
      (hloads : w'.loads = w.loads ++ [load]) (hstart : load.startedAt = w.now)
      (hopen : load.storedAt = none)
      (hexpired : ∀ entry, w.accountCache.get load.publicKey = some entry →
        entry.expiresAt ≤ w.now)
  | stored (i : Nat) (load : Load) (sequence : Nat) (hnow : w'.now = w.now)
      (hget : w.loads[i]? = some load)
      (hcache : w'.accountCache =
        w.accountCache.set load.publicKey ⟨i, sequence, w.now + CACHE_TTL_MS⟩)
      (hloads : w'.loads = w.loads.set i { load with storedAt := some w.now })

/-- The clauses about times. -/
structure Timed (w : World) : Prop where
  kept : ∀ load ∈ w.loads, ∀ storedAt ∈ load.storedAt,
    ∃ entry, w.accountCache.get load.publicKey = some entry ∧
      storedAt + CACHE_TTL_MS ≤ entry.expiresAt
  started : ∀ load ∈ w.loads, load.startedAt ≤ w.now
  stored : ∀ load ∈ w.loads, ∀ storedAt ∈ load.storedAt, storedAt ≤ w.now
  spaced : w.Spaced

/-- A step of the loads keeps the times in order. -/
theorem Timed.step {w w' : World} (hs : Timed w) (h : LoadStep w w') : Timed w' := by
  cases h with
  | kept hnow hcache hloads =>
      constructor
      case kept =>
        intro load' hload' storedAt hstored
        obtain ⟨load, hload, hkey, -, hsame⟩ := hloads load' hload'
        rw [hcache, ← hkey]
        exact hs.kept load hload storedAt (hsame ▸ hstored)
      case started =>
        intro load' hload'
        obtain ⟨load, hload, -, hstart, -⟩ := hloads load' hload'
        exact hstart ▸ Nat.le_trans (hs.started load hload) hnow
      case stored =>
        intro load' hload' storedAt hstored
        obtain ⟨load, hload, -, -, hsame⟩ := hloads load' hload'
        exact Nat.le_trans (hs.stored load hload storedAt (hsame ▸ hstored)) hnow
      case spaced =>
        intro load' hload' storedAt hstored later' hlater' hkeys
        obtain ⟨load, hload, hkey, -, hsame⟩ := hloads load' hload'
        obtain ⟨later, hlater, hkey', hstart, -⟩ := hloads later' hlater'
        rw [← hstart]
        exact hs.spaced load hload storedAt (hsame ▸ hstored) later hlater
          ((hkey'.trans hkeys).trans hkey.symm)
  | started new hnow hcache hloads hstart hopen hexpired =>
      have hcases : ∀ load ∈ w'.loads, load ∈ w.loads ∨ load = new := by
        intro load hload
        simpa [hloads] using hload
      constructor
      case kept =>
        intro load hload storedAt hstored
        rcases hcases load hload with hold | rfl
        · exact hcache ▸ hs.kept load hold storedAt hstored
        · simp [hopen] at hstored
      case started =>
        intro load hload
        rcases hcases load hload with hold | rfl
        · exact hnow ▸ hs.started load hold
        · rw [hstart, hnow]
      case stored =>
        intro load hload storedAt hstored
        rcases hcases load hload with hold | rfl
        · exact hnow ▸ hs.stored load hold storedAt hstored
        · simp [hopen] at hstored
      case spaced =>
        intro load hload storedAt hstored later hlater hkey
        rcases hcases load hload with hold | rfl
        · rcases hcases later hlater with holder | rfl
          · exact hs.spaced load hold storedAt hstored later holder hkey
          · obtain ⟨entry, hentry, hkept⟩ := hs.kept load hold storedAt hstored
            have hgone := hexpired entry (hkey ▸ hentry)
            exact Or.inr (by omega)
        · simp [hopen] at hstored
  | stored i load sequence hnow hget hcache hloads =>
      have hload : load ∈ w.loads := List.mem_of_getElem? hget
      have hcases : ∀ load' ∈ w'.loads, load' ∈ w.loads ∨
          load' = { load with storedAt := some w.now } := by
        intro load' hload'
        exact List.mem_or_eq_of_mem_set (hloads ▸ hload')
      have hstart : ∀ load' ∈ w'.loads, load'.startedAt ≤ w.now := by
        intro load' hload'
        rcases hcases load' hload' with hold | rfl
        · exact hs.started load' hold
        · exact hs.started load hload
      constructor
      case kept =>
        intro load' hload' storedAt hstored
        rw [hcache, Storage.get_set]
        rcases hcases load' hload' with hold | rfl
        · split
          · have hle := hs.stored load' hold storedAt hstored
            exact ⟨_, rfl, by dsimp only; omega⟩
          · exact hs.kept load' hold storedAt hstored
        · obtain rfl := Option.some.inj hstored
          exact ⟨_, if_pos rfl, Nat.le_refl _⟩
      case started => exact hnow ▸ hstart
      case stored =>
        intro load' hload' storedAt hstored
        rcases hcases load' hload' with hold | rfl
        · exact hnow ▸ hs.stored load' hold storedAt hstored
        · obtain rfl := Option.some.inj hstored
          exact hnow.ge
      case spaced =>
        intro load' hload' storedAt hstored later hlater hkey
        rcases hcases load' hload' with hold | rfl
        · rcases hcases later hlater with holder | rfl
          · exact hs.spaced load' hold storedAt hstored later holder hkey
          · exact hs.spaced load' hold storedAt hstored load hload hkey
        · obtain rfl := Option.some.inj hstored
          exact Or.inl (hstart later hlater)

/-- What the process keeps. -/
structure SequenceInvariant (w : World) : Prop where
  timed : Timed w
  built : ∀ transaction ∈ w.built, w.From transaction
  accepted : ∀ transaction ∈ w.accepted, w.From transaction
  applied : ∀ transaction ∈ w.applied, w.From transaction
  passed : ∀ transaction ∈ w.applied,
    transaction.sequence ≤ w.ledger.read transaction.publicKey
  distinct : (w.applied.map fun transaction =>
    (transaction.publicKey, transaction.sequence)).Nodup
  cached : ∀ publicKey entry, w.accountCache.get publicKey = some entry →
    ∃ load, w.loads[entry.load]? = some load ∧ load.publicKey = publicKey ∧
      load.sequence = some entry.sequence ∧ load.storedAt.isSome = true

/-- The invariant at the beginning. -/
theorem sequenceInvariant_boot (now : Nat) (ledger : Storage Address Nat) :
    SequenceInvariant (boot now ledger) := by
  constructor
  case timed => constructor <;> simp [boot, World.Spaced]
  all_goals simp [boot]

/-- A step after which everything still comes from a load. -/
theorem SequenceInvariant.next {w w' : World} (hs : SequenceInvariant w) (hstep : LoadStep w w')
    (hfills : w.Fills w')
    (hcached : ∀ publicKey entry, w'.accountCache.get publicKey = some entry →
      w.accountCache.get publicKey = some entry ∨
        ∃ load, w'.loads[entry.load]? = some load ∧ load.publicKey = publicKey ∧
          load.sequence = some entry.sequence ∧ load.storedAt.isSome = true)
    (hbuilt : ∀ transaction ∈ w'.built, transaction ∈ w.built ∨ w'.From transaction)
    (haccepted : ∀ transaction ∈ w'.accepted, transaction ∈ w.accepted ∨ transaction ∈ w.built)
    (happlied : w'.applied = w.applied)
    (hledger : ∀ publicKey, w.ledger.read publicKey ≤ w'.ledger.read publicKey) :
    SequenceInvariant w' where
  timed := hs.timed.step hstep
  built transaction hmem := by
    rcases hbuilt transaction hmem with hold | hfrom
    · exact (hs.built transaction hold).fills hfills
    · exact hfrom
  accepted transaction hmem := by
    rcases haccepted transaction hmem with hold | hbuilt
    · exact (hs.accepted transaction hold).fills hfills
    · exact (hs.built transaction hbuilt).fills hfills
  applied transaction hmem := (hs.applied transaction (happlied ▸ hmem)).fills hfills
  passed transaction hmem :=
    Nat.le_trans (hs.passed transaction (happlied ▸ hmem)) (hledger transaction.publicKey)
  distinct := happlied ▸ hs.distinct
  cached publicKey entry hget := by
    rcases hcached publicKey entry hget with hold | hnew
    · obtain ⟨load, hload, hkey, hsequence, hstored⟩ := hs.cached publicKey entry hold
      obtain ⟨load', hload', hkey', hsequence', hstored'⟩ := hfills _ load hload
      exact ⟨load', hload', hkey'.trans hkey, hsequence' _ hsequence, hstored' hstored⟩
    · exact hnew

/-- A step that leaves the loads alone. -/
theorem SequenceInvariant.same {w w' : World} (hs : SequenceInvariant w)
    (hnow : w.now ≤ w'.now) (hcache : w'.accountCache = w.accountCache)
    (hloads : w'.loads = w.loads)
    (hbuilt : ∀ transaction ∈ w'.built, transaction ∈ w.built ∨ w'.From transaction)
    (haccepted : ∀ transaction ∈ w'.accepted, transaction ∈ w.accepted ∨ transaction ∈ w.built)
    (happlied : w'.applied = w.applied)
    (hledger : ∀ publicKey, w.ledger.read publicKey ≤ w'.ledger.read publicKey) :
    SequenceInvariant w' := by
  have hstep : LoadStep w w' := .kept hnow hcache fun load hload =>
    ⟨load, hloads ▸ hload, rfl, rfl, rfl⟩
  exact hs.next hstep (.of_eq hloads) (fun publicKey entry hget => Or.inl (hcache ▸ hget)) hbuilt
    haccepted happlied hledger

/-- A call of `getAccount` keeps it. -/
theorem SequenceInvariant.getAccount {w : World} (hs : SequenceInvariant w) (publicKey : Address)
    (transacts : Bool) : SequenceInvariant (getAccount w publicKey transacts) := by
  have hload : (∀ entry, w.accountCache.get publicKey = some entry → entry.expiresAt ≤ w.now) →
      SequenceInvariant
        { w with loads := w.loads ++ [{ publicKey, transacts, startedAt := w.now }] } := by
    intro hexpired
    exact hs.next (.started _ rfl rfl rfl rfl rfl hexpired) (.of_append rfl)
      (fun _ _ hget => Or.inl hget) (fun _ hmem => Or.inl hmem) (fun _ hmem => Or.inl hmem) rfl
      fun _ => Nat.le_refl _
  unfold AccountSequence.getAccount
  split
  · next cached hcached =>
      split
      · next hfresh =>
          unfold World.build
          split
          · next htransacts =>
              obtain ⟨load, hload, hkey, hsequence, hstored⟩ := hs.cached publicKey cached hcached
              refine hs.same (Nat.le_refl _) rfl rfl ?_ (fun _ hmem => Or.inl hmem) rfl
                fun _ => Nat.le_refl _
              intro transaction hmem
              rcases List.mem_append.mp hmem with hold | hnew
              · exact Or.inl hold
              · obtain rfl := List.mem_singleton.mp hnew
                exact Or.inr ⟨load, cached.sequence, hload, hkey, hsequence, hstored, rfl⟩
          · exact hs
      · next hexpired =>
          refine hload fun entry hentry => ?_
          obtain rfl := Option.some.inj (hcached.symm.trans hentry)
          exact Nat.le_of_not_lt hexpired
  · next hnone => exact hload fun entry hentry => by simp [hnone] at hentry

/-- An answer of Horizon keeps it. -/
theorem SequenceInvariant.arrive {w : World} (hs : SequenceInvariant w) {i sequence : Nat}
    {load : Load} (hget : w.loads[i]? = some load) (hsequence : load.sequence = some sequence) :
    SequenceInvariant (arrive w i load sequence) := by
  let filled : World := { w with
    accountCache := w.accountCache.set load.publicKey ⟨i, sequence, w.now + CACHE_TTL_MS⟩
    loads := w.loads.set i { load with storedAt := some w.now } }
  have hentry : filled.loads[i]? = some { load with storedAt := some w.now } :=
    List.getElem?_set_self (List.getElem?_eq_some_iff.mp hget).1
  have hfilled : SequenceInvariant filled := by
    refine hs.next (.stored i load sequence rfl hget rfl rfl)
      (.of_set hget rfl rfl (fun _ => id) fun _ => rfl) ?_ (fun _ hmem => Or.inl hmem)
      (fun _ hmem => Or.inl hmem) rfl fun _ => Nat.le_refl _
    intro publicKey entry hcached
    have hcached : (w.accountCache.set load.publicKey
      ⟨i, sequence, w.now + CACHE_TTL_MS⟩).get publicKey = some entry := hcached
    rw [Storage.get_set] at hcached
    split at hcached
    · next hkey =>
        obtain rfl := Option.some.inj hcached
        exact Or.inr ⟨_, hentry, hkey.symm, hsequence, rfl⟩
    · exact Or.inl hcached
  change SequenceInvariant (filled.build load.transacts load.publicKey i sequence)
  unfold World.build
  split
  · refine hfilled.same (Nat.le_refl _) rfl rfl ?_ (fun _ hmem => Or.inl hmem) rfl
      fun _ => Nat.le_refl _
    intro transaction hmem
    rcases List.mem_append.mp hmem with hold | hnew
    · exact Or.inl hold
    · obtain rfl := List.mem_singleton.mp hnew
      exact Or.inr ⟨_, sequence, hentry, rfl, hsequence, rfl, rfl⟩
  · exact hfilled

/-- An applied transaction keeps it. -/
theorem SequenceInvariant.apply {w : World} (hs : SequenceInvariant w) {i : Nat}
    {transaction : Transaction} (hget : w.accepted[i]? = some transaction) :
    SequenceInvariant (applyTransaction w i transaction) := by
  have hrest : ∀ other ∈ w.accepted.eraseIdx i, other ∈ w.accepted ∨ other ∈ w.built :=
    fun _ hmem => Or.inl (List.mem_of_mem_eraseIdx hmem)
  unfold applyTransaction
  dsimp only
  split
  · next hnext =>
      let advanced : World := { w with
        accepted := w.accepted.eraseIdx i
        ledger := w.ledger.set transaction.publicKey transaction.sequence }
      have hledger : ∀ publicKey, w.ledger.read publicKey ≤ advanced.ledger.read publicKey := by
        intro publicKey
        rw [Storage.read_set]
        split
        · next hkey => rw [hkey, hnext]; exact Nat.le_succ _
        · exact Nat.le_refl _
      have hadvanced : SequenceInvariant advanced := hs.same (Nat.le_refl _) rfl rfl
        (fun _ hmem => Or.inl hmem) hrest rfl hledger
      have hfrom : advanced.From transaction := hs.accepted transaction (List.mem_of_getElem? hget)
      have happlied : ∀ other ∈ w.applied ++ [transaction],
          other ∈ w.applied ∨ other = transaction := by
        intro other hmem
        simpa using hmem
      constructor
      case timed => exact { hadvanced.timed with }
      case built => exact hadvanced.built
      case accepted => exact hadvanced.accepted
      case applied =>
        intro other hmem
        rcases happlied other hmem with hold | rfl
        · exact hadvanced.applied other hold
        · exact hfrom
      case passed =>
        intro other hmem
        rcases happlied other hmem with hold | rfl
        · exact hadvanced.passed other hold
        · exact (Storage.read_set_self ..).ge
      case distinct =>
        rw [List.map_append, List.nodup_append]
        refine ⟨hs.distinct, List.nodup_singleton _, ?_⟩
        -- an applied number of the account is not the next one
        intro old hold new hnew hsame
        obtain ⟨other, hother, rfl⟩ := List.mem_map.mp hold
        rw [List.map_singleton, List.mem_singleton] at hnew
        obtain ⟨hkey, hsequence⟩ := Prod.mk.inj (hsame.trans hnew)
        have hpassed := hs.passed other hother
        rw [hkey] at hpassed
        omega
      case cached => exact hadvanced.cached
  · exact hs.same (Nat.le_refl _) rfl rfl (fun _ hmem => Or.inl hmem) hrest rfl
      fun _ => Nat.le_refl _

/-- **One step** of the process, the ledger or anyone else. -/
theorem sequenceInvariant_of_fires {e : Event World Action Unit} (hfires : accounts.Fires e)
    (hs : SequenceInvariant e.before) : SequenceInvariant e.after := by
  obtain ⟨w, action, out, w'⟩ := e
  change call w action = .ok (out, w') at hfires
  change SequenceInvariant w at hs
  cases action with
  | wait milliseconds =>
      obtain ⟨-, rfl⟩ := Prod.mk.inj (Except.ok.inj hfires)
      exact hs.same (Nat.le_add_right _ _) rfl rfl (fun _ hmem => Or.inl hmem)
        (fun _ hmem => Or.inl hmem) rfl fun _ => Nat.le_refl _
  | getAccount publicKey transacts =>
      obtain ⟨-, rfl⟩ := Prod.mk.inj (Except.ok.inj hfires)
      exact hs.getAccount publicKey transacts
  | answer i =>
      simp only [call] at hfires
      split at hfires
      · next load hget =>
          split at hfires
          · next hopen =>
              obtain ⟨-, rfl⟩ := Prod.mk.inj (Except.ok.inj hfires)
              have hload : load ∈ w.loads := List.mem_of_getElem? hget
              refine hs.next (.kept (Nat.le_refl _) rfl ?_)
                (.of_set hget rfl rfl (fun sequence hsome => ?_) id)
                (fun _ _ hcached => Or.inl hcached) (fun _ hmem => Or.inl hmem)
                (fun _ hmem => Or.inl hmem) rfl fun _ => Nat.le_refl _
              · intro load' hload'
                rcases List.mem_or_eq_of_mem_set hload' with hold | rfl
                · exact ⟨load', hold, rfl, rfl, rfl⟩
                · exact ⟨load, hload, rfl, rfl, rfl⟩
              · rw [hopen] at hsome
                cases hsome
          · cases hfires
      · cases hfires
  | arrive i =>
      simp only [call] at hfires
      split at hfires
      · next load hget =>
          split at hfires
          · next sequence hsequence hopen =>
              obtain ⟨-, rfl⟩ := Prod.mk.inj (Except.ok.inj hfires)
              exact hs.arrive hget hsequence
          · cases hfires
      · cases hfires
  | accept i =>
      simp only [call] at hfires
      split at hfires
      · next transaction hget =>
          obtain ⟨-, rfl⟩ := Prod.mk.inj (Except.ok.inj hfires)
          refine hs.same (Nat.le_refl _) rfl rfl
            (fun _ hmem => Or.inl (List.mem_of_mem_eraseIdx hmem)) ?_ rfl fun _ => Nat.le_refl _
          intro other hmem
          rcases List.mem_append.mp hmem with hold | hnew
          · exact Or.inl hold
          · exact Or.inr (List.mem_singleton.mp hnew ▸ List.mem_of_getElem? hget)
      · cases hfires
  | apply i =>
      simp only [call] at hfires
      split at hfires
      · next transaction hget =>
          obtain ⟨-, rfl⟩ := Prod.mk.inj (Except.ok.inj hfires)
          exact hs.apply hget
      · cases hfires
  | other publicKey =>
      obtain ⟨-, rfl⟩ := Prod.mk.inj (Except.ok.inj hfires)
      refine hs.same (Nat.le_refl _) rfl rfl (fun _ hmem => Or.inl hmem)
        (fun _ hmem => Or.inl hmem) rfl fun key => ?_
      rw [Storage.read_set]
      split
      · next hkey => rw [hkey]; exact Nat.le_succ _
      · exact Nat.le_refl _

/-- It holds after every run. -/
theorem sequenceInvariant_run (now : Nat) (ledger : Storage Address Nat)
    (actions : List Action) : SequenceInvariant (accounts.run (boot now ledger) actions) :=
  accounts.invariant (P := fun w _ => SequenceInvariant w) (sequenceInvariant_boot now ledger)
    (fun _ _ hfires hs => sequenceInvariant_of_fires hfires hs) actions

/-! ## One answer, one transaction -/

/-- Of the transactions that were built from one load at most one is applied. -/
theorem SequenceInvariant.nodup_loads {w : World} (hs : SequenceInvariant w) :
    (w.applied.map Transaction.load).Nodup := by
  have hdistinct := List.pairwise_map.mp hs.distinct
  refine List.pairwise_map.mpr (hdistinct.imp_of_mem ?_)
  intro a b ha hb hne hload
  obtain ⟨load, sequence, hget, hkey, hsequence, -, hnext⟩ := hs.applied a ha
  obtain ⟨load', sequence', hget', hkey', hsequence', -, hnext'⟩ := hs.applied b hb
  rw [hload] at hget
  obtain rfl := Option.some.inj (hget.symm.trans hget')
  obtain rfl := Option.some.inj (hsequence.symm.trans hsequence')
  exact hne (by rw [← hkey, hkey', hnext, hnext'])

/-- **One answer of Horizon, one transaction.**  In every run, whatever interleaves,
the applied transactions of the API come from different loads of their accounts;
each load was of the same account and stored, and no other load of this account
started within the thirty seconds after. -/
theorem applied_once_per_load (now : Nat) (ledger : Storage Address Nat)
    (actions : List Action) :
    ((accounts.run (boot now ledger) actions).applied.map Transaction.load).Nodup ∧
      ∀ transaction ∈ (accounts.run (boot now ledger) actions).applied, ∃ load storedAt,
        (accounts.run (boot now ledger) actions).loads[transaction.load]? = some load ∧
          load.publicKey = transaction.publicKey ∧ load.storedAt = some storedAt ∧
          ∀ later ∈ (accounts.run (boot now ledger) actions).loads,
            later.publicKey = transaction.publicKey →
              later.startedAt ≤ storedAt ∨ storedAt + CACHE_TTL_MS ≤ later.startedAt := by
  have hs := sequenceInvariant_run now ledger actions
  generalize accounts.run (boot now ledger) actions = w at *
  refine ⟨hs.nodup_loads, fun transaction hmem => ?_⟩
  obtain ⟨load, sequence, hget, hkey, -, hstored, -⟩ := hs.applied transaction hmem
  obtain ⟨storedAt, hstored⟩ := Option.isSome_iff_exists.mp hstored
  refine ⟨load, storedAt, hget, hkey, hstored, fun later hlater hsame => ?_⟩
  exact hs.timed.spaced load (List.mem_of_getElem? hget) storedAt hstored later hlater
    (hsame.trans hkey.symm)

/-- Two transactions of account 7 in a row: the second carries the number of the
first, and the ledger drops it. -/
example : ((accounts.run (boot 0 ∅) [.getAccount 7 true, .answer 0, .arrive 0, .wait 1000,
    .getAccount 7 true, .accept 0, .accept 0, .apply 0, .apply 0]).applied.map
      Transaction.sequence) = [1] := by decide +kernel

end EcoMint.AccountSequence
