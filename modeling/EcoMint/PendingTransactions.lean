import EcoMint.Machine
import EcoMint.Storage

/-!
# Submitted transactions in the browser

`PendingTransactionsService` lists what the user has submitted and polls the API
until the ledger has decided.  Every tab has a list and polls of its own, and all
tabs write the same item of `localStorage`, each the whole of its list.

A poll asks anew every four seconds and drops the question before; it ends with
the first answer that is not `pending`, and with an error, which counts as
`failed`.  So a transaction that is shown as confirmed is on the ledger in every
tab and after every reload, one that is shown as failed may only have met an
error, and none that is shown as pending is without a poll.
-/

namespace EcoMint.PendingTransactions

/-- What is known of a transaction. -/
inductive TransactionStatus
  | pending
  | confirmed
  | failed
deriving DecidableEq, Repr

/-- A transaction that the browser waits for. -/
structure PendingTx where
  hash : String
  operation : String
  status : TransactionStatus
  submittedAt : Nat
deriving DecidableEq, Repr

/-- `rpc.Api.GetTransactionStatus` -/
inductive RpcStatus
  | success
  | failed
  | notFound
deriving DecidableEq, Repr

/-- `ContractService.getTransactionStatus` -/
def getTransactionStatus : RpcStatus → TransactionStatus
  | .success => .confirmed
  | .failed => .failed
  | .notFound => .pending

/-- A poll between two ticks of its timer, while its question is on the way, and
while the answer is. -/
inductive Poll
  | idle
  | asked
  | answered (status : TransactionStatus)
deriving DecidableEq, Repr

/-- The service in one tab. -/
structure Tab where
  entries : List PendingTx
  polls : Storage String Poll

/-- The clock, what the ledger has decided, `localStorage`, and the tabs.
`errors` has the transactions of which a poll ended with an error. -/
structure World where
  now : Nat
  ledger : Storage String Bool
  errors : List String
  stored : List PendingTx
  tabs : Storage Nat Tab

/-! ## The service -/

/-- `persist`; nothing is saved where `localStorage` throws. -/
def World.persist (w : World) (id : Nat) (tab : Tab) (saved : Bool) : World :=
  { w with
    stored := if saved then tab.entries else w.stored
    tabs := w.tabs.set id tab }

/-- The constructor. -/
def openTab (entries : List PendingTx) : Tab where
  entries := entries
  polls := (entries.filter fun entry => entry.status = .pending).foldl
    (fun polls entry => polls.set entry.hash .idle) ∅

/-- `register` -/
def register (tab : Tab) (hash operation : String) (now : Nat) : Tab where
  entries := ⟨hash, operation, .pending, now⟩ :: tab.entries.filter fun entry => entry.hash ≠ hash
  polls := tab.polls.set hash .idle

/-- `updateStatus`, with the end of the poll. -/
def updateStatus (tab : Tab) (hash : String) (status : TransactionStatus) : Tab where
  entries := tab.entries.map fun entry => if entry.hash = hash then { entry with status } else entry
  polls := if status = .pending then tab.polls.set hash .idle else tab.polls.erase hash

/-- What may happen. -/
inductive Action
  | wait (milliseconds : Nat)
  /-- the ledger decides a transaction -/
  | decide (hash : String) (success : Bool)
  /-- a tab is opened or reloaded; it may not be able to read `localStorage` -/
  | load (id : Nat) (readable : Bool)
  | close (id : Nat)
  | register (id : Nat) (hash : Option String) (operation : String) (saved : Bool)
  /-- the timer of a poll -/
  | tick (id : Nat) (hash : String)
  /-- the API asks its RPC server, which may not have seen the transaction yet -/
  | answer (id : Nat) (hash : String) (seen : Bool)
  /-- the answer arrives -/
  | arrive (id : Nat) (hash : String) (saved : Bool)
  /-- the request fails -/
  | fail (id : Nat) (hash : String) (saved : Bool)
deriving DecidableEq, Repr

/-- What the RPC server says of a transaction. -/
def rpcStatus (ledger : Storage String Bool) (hash : String) (seen : Bool) : RpcStatus :=
  match ledger.get hash with
  | some success => if seen then if success then .success else .failed else .notFound
  | none => .notFound

/-- A step of a poll in a tab, if the tab has it. -/
def poll (w : World) (id : Nat) (hash : String) (next : Tab → Poll → Option World) :
    Except Unit (Unit × World) :=
  match w.tabs.get id with
  | some tab =>
      match (tab.polls.get hash).bind (next tab) with
      | some w' => .ok ((), w')
      | none => .error ()
  | none => .error ()

/-- A poll moves on, and nothing else happens. -/
def World.movePoll (w : World) (id : Nat) (tab : Tab) (hash : String) (step : Poll) : World :=
  { w with tabs := w.tabs.set id { tab with polls := tab.polls.set hash step } }

/-- The browser, step by step; what cannot happen fails. -/
def call (w : World) : Action → Except Unit (Unit × World)
  | .wait milliseconds => .ok ((), { w with now := w.now + milliseconds })
  | .decide hash success =>
      match w.ledger.get hash with
      | some _ => .error ()
      | none => .ok ((), { w with ledger := w.ledger.set hash success })
  | .load id readable =>
      .ok ((), { w with tabs := w.tabs.set id (openTab (if readable then w.stored else [])) })
  | .close id => .ok ((), { w with tabs := w.tabs.erase id })
  | .register id hash operation saved =>
      match w.tabs.get id, hash with
      | some tab, some hash =>
          if hash = "" then .error ()
          else .ok ((), w.persist id (PendingTransactions.register tab hash operation w.now) saved)
      | _, _ => .error ()
  | .tick id hash => poll w id hash fun tab _ => some (w.movePoll id tab hash .asked)
  | .answer id hash seen => poll w id hash fun tab step =>
      match step with
      | .asked =>
          let status := getTransactionStatus (rpcStatus w.ledger hash seen)
          some (w.movePoll id tab hash (.answered status))
      | .idle | .answered _ => none
  | .arrive id hash saved => poll w id hash fun tab step =>
      match step with
      | .answered status => some (w.persist id (updateStatus tab hash status) saved)
      | .idle | .asked => none
  | .fail id hash saved => poll w id hash fun tab step =>
      match step with
      | .idle => none
      | .asked | .answered _ =>
          let failed : World := { w with errors := w.errors ++ [hash] }
          some (failed.persist id (updateStatus tab hash .failed) saved)

/-- Any number of tabs, the API and the ledger. -/
def browser : Machine World Action Unit Unit := ⟨call⟩

/-- A browser that has not submitted anything. -/
def fresh (now : Nat) (ledger : Storage String Bool) : World where
  now := now
  ledger := ledger
  errors := []
  stored := []
  tabs := ∅

/-! ## What the lists say -/

/-- No transaction is listed twice, and what a list says was decided was, or a
poll ended with an error. -/
structure Truthful (w : World) (entries : List PendingTx) : Prop where
  nodup : (entries.map PendingTx.hash).Nodup
  confirmed : ∀ entry ∈ entries, entry.status = .confirmed → w.ledger.get entry.hash = some true
  failed : ∀ entry ∈ entries, entry.status = .failed →
    w.ledger.get entry.hash = some false ∨ entry.hash ∈ w.errors

/-- The polls of a tab are those of its pending entries. -/
def Tab.Polled (tab : Tab) : Prop :=
  ∀ hash, (tab.polls.get hash).isSome = true ↔
    ∃ entry ∈ tab.entries, entry.hash = hash ∧ entry.status = .pending

/-- An answer on the way is what the ledger has decided. -/
def Told (w : World) (hash : String) : TransactionStatus → Prop
  | .pending => True
  | .confirmed => w.ledger.get hash = some true
  | .failed => w.ledger.get hash = some false

/-- A tab says nothing about a transaction that it was not told. -/
structure TabInvariant (w : World) (tab : Tab) : Prop where
  truthful : Truthful w tab.entries
  polled : tab.Polled
  told : ∀ hash status, tab.polls.get hash = some (.answered status) → Told w hash status

/-- Neither does what is stored, nor any tab. -/
structure BrowserInvariant (w : World) : Prop where
  stored : Truthful w w.stored
  tabs : ∀ id tab, w.tabs.get id = some tab → TabInvariant w tab

/-- Decisions and errors stay. -/
structure World.Grows (w w' : World) : Prop where
  ledger : ∀ hash success, w.ledger.get hash = some success →
    w'.ledger.get hash = some success
  errors : ∀ hash ∈ w.errors, hash ∈ w'.errors

/-- With the same ledger and the same errors nothing is lost. -/
theorem World.Grows.of_eq {w w' : World} (hledger : w'.ledger = w.ledger)
    (herrors : w'.errors = w.errors) : w.Grows w' :=
  ⟨fun _ _ h => hledger ▸ h, fun _ h => herrors ▸ h⟩

/-- What is truthful stays so while the ledger grows. -/
theorem Truthful.grows {w w' : World} {entries : List PendingTx} (h : Truthful w entries)
    (hgrows : w.Grows w') : Truthful w' entries where
  nodup := h.nodup
  confirmed entry hmem hstatus := hgrows.ledger _ _ (h.confirmed entry hmem hstatus)
  failed entry hmem hstatus := (h.failed entry hmem hstatus).imp (hgrows.ledger _ _)
    (hgrows.errors _)

/-- What was told stays so while the ledger grows. -/
theorem Told.grows {w w' : World} {hash : String} {status : TransactionStatus}
    (h : Told w hash status) (hgrows : w.Grows w') : Told w' hash status := by
  cases status with
  | pending => trivial
  | confirmed => exact hgrows.ledger _ _ h
  | failed => exact hgrows.ledger _ _ h

/-- A tab's invariant stays while the ledger grows. -/
theorem TabInvariant.grows {w w' : World} {tab : Tab} (h : TabInvariant w tab)
    (hgrows : w.Grows w') : TabInvariant w' tab where
  truthful := h.truthful.grows hgrows
  polled := h.polled
  told hash status hget := (h.told hash status hget).grows hgrows

/-! ## The tabs -/

theorem truthful_nil (w : World) : Truthful w [] := by
  constructor <;> simp

/-- The polls that are idle after a tab was opened. -/
theorem get_idle (entries : List PendingTx) (polls : Storage String Poll) (hash : String) :
    (entries.foldl (fun polls entry => polls.set entry.hash .idle) polls).get hash =
      if ∃ entry ∈ entries, entry.hash = hash then some .idle else polls.get hash := by
  induction entries generalizing polls with
  | nil => simp
  | cons entry rest ih =>
      rw [List.foldl_cons, ih, Storage.get_set]
      simp only [List.mem_cons, exists_eq_or_imp, eq_comm (a := hash)]
      by_cases hentry : entry.hash = hash <;> simp [hentry]

/-- A tab that opens with truthful entries keeps the invariant. -/
theorem openTab_invariant {w : World} {entries : List PendingTx} (h : Truthful w entries) :
    TabInvariant w (openTab entries) where
  truthful := h
  polled hash := by
    rw [openTab, get_idle, Storage.get_empty]
    split
    · next hpending =>
        obtain ⟨entry, hmem, hhash⟩ := hpending
        obtain ⟨hentry, hstatus⟩ := List.mem_filter.mp hmem
        simpa using ⟨entry, hentry, hhash, by simpa using hstatus⟩
    · next hnone =>
        simp only [Option.isSome_none, Bool.false_eq_true, false_iff]
        intro hpending
        obtain ⟨entry, hmem, hhash, hstatus⟩ := hpending
        exact hnone ⟨entry, List.mem_filter.mpr ⟨hmem, by simpa using hstatus⟩, hhash⟩
  told hash status hget := by
    simp only [openTab, get_idle, Storage.get_empty] at hget
    split at hget <;> simp at hget

/-- The poll of one transaction, with the others as they were. -/
theorem TabInvariant.move {w : World} {tab : Tab} (h : TabInvariant w tab) {hash : String}
    {old step : Poll} (hget : tab.polls.get hash = some old)
    (htold : ∀ status, step = .answered status → Told w hash status) :
    TabInvariant w { tab with polls := tab.polls.set hash step } where
  truthful := h.truthful
  polled other := by
    rw [← h.polled other, Storage.get_set]
    split
    · next heq => simp [heq, hget]
    · rfl
  told other status hother := by
    rw [Storage.get_set] at hother
    split at hother
    · next heq => exact heq ▸ htold status (Option.some.inj hother)
    · exact h.told other status hother

/-- A registered transaction keeps it. -/
theorem register_invariant {w : World} {tab : Tab} (h : TabInvariant w tab)
    (hash operation : String) (now : Nat) :
    TabInvariant w (register tab hash operation now) := by
  have hold : ∀ entry ∈ tab.entries.filter fun entry => entry.hash ≠ hash,
      entry ∈ tab.entries ∧ entry.hash ≠ hash := by
    intro entry hmem
    simpa using hmem
  constructor
  case truthful =>
    constructor
    case nodup =>
      rw [register, List.map_cons, List.nodup_cons]
      refine ⟨fun hmem => ?_, (List.filter_sublist.map _).nodup h.truthful.nodup⟩
      obtain ⟨entry, hentry, hhash⟩ := List.mem_map.mp hmem
      exact (hold entry hentry).2 hhash
    case confirmed =>
      intro entry hmem hstatus
      rcases List.mem_cons.mp hmem with rfl | hmem
      · cases hstatus
      · exact h.truthful.confirmed entry (hold entry hmem).1 hstatus
    case failed =>
      intro entry hmem hstatus
      rcases List.mem_cons.mp hmem with rfl | hmem
      · cases hstatus
      · exact h.truthful.failed entry (hold entry hmem).1 hstatus
  case polled =>
    intro other
    simp only [register, Storage.get_set, List.mem_cons, List.mem_filter]
    split
    · next heq => simp [heq]
    · next hne =>
        rw [h.polled other]
        constructor
        · intro hpending
          obtain ⟨entry, hmem, rfl, hstatus⟩ := hpending
          exact ⟨entry, Or.inr ⟨hmem, by simpa using hne⟩, rfl, hstatus⟩
        · intro hpending
          obtain ⟨entry, rfl | hmem, rfl, hstatus⟩ := hpending
          · exact absurd rfl hne
          · exact ⟨entry, hmem.1, rfl, hstatus⟩
  case told =>
    intro other status hother
    rw [register, Storage.get_set] at hother
    split at hother
    · cases hother
    · exact h.told other status hother

/-- A status that the ledger bears out, or that stands for an error. -/
theorem updateStatus_invariant {w : World} {tab : Tab} (h : TabInvariant w tab) {hash : String}
    {old : Poll} (hget : tab.polls.get hash = some old) {status : TransactionStatus}
    (hstatus : Told w hash status ∨ status = .failed ∧ hash ∈ w.errors) :
    TabInvariant w (updateStatus tab hash status) := by
  have hcases : ∀ entry' ∈ (updateStatus tab hash status).entries, ∃ entry ∈ tab.entries,
      entry'.hash = entry.hash ∧ (entry.hash = hash ∧ entry'.status = status ∨
        entry.hash ≠ hash ∧ entry' = entry) := by
    intro entry' hmem
    obtain ⟨entry, hentry, rfl⟩ := List.mem_map.mp hmem
    refine ⟨entry, hentry, ?_⟩
    split
    · next heq => exact ⟨rfl, Or.inl ⟨heq, rfl⟩⟩
    · next hne => exact ⟨rfl, Or.inr ⟨hne, rfl⟩⟩
  constructor
  case truthful =>
    constructor
    case nodup =>
      have hhashes : (updateStatus tab hash status).entries.map PendingTx.hash =
          tab.entries.map PendingTx.hash := by
        rw [updateStatus, List.map_map]
        refine List.map_congr_left fun entry _ => ?_
        dsimp only [Function.comp_apply]
        split <;> rfl
      rw [hhashes]
      exact h.truthful.nodup
    case confirmed =>
      intro entry' hmem hconfirmed
      obtain ⟨entry, hentry, hhash, ⟨heq, hnew⟩ | ⟨-, rfl⟩⟩ := hcases entry' hmem
      · obtain rfl := hnew.symm.trans hconfirmed
        rw [hhash, heq]
        exact hstatus.elim id fun hfailed => by cases hfailed.1
      · exact h.truthful.confirmed entry' hentry hconfirmed
    case failed =>
      intro entry' hmem hfailed
      obtain ⟨entry, hentry, hhash, ⟨heq, hnew⟩ | ⟨-, rfl⟩⟩ := hcases entry' hmem
      · obtain rfl := hnew.symm.trans hfailed
        rw [hhash, heq]
        exact hstatus.imp id And.right
      · exact h.truthful.failed entry' hentry hfailed
  case polled =>
    intro other
    have hmap : (∃ entry' ∈ (updateStatus tab hash status).entries,
        entry'.hash = other ∧ entry'.status = .pending) ↔
          if other = hash then status = .pending
          else ∃ entry ∈ tab.entries, entry.hash = other ∧ entry.status = .pending := by
      obtain ⟨listed, hlisted, hhash, -⟩ := (h.polled hash).mp (by simp [hget])
      simp only [updateStatus, List.mem_map]
      split
      · next heq =>
          constructor
          · intro hpending
            obtain ⟨entry', ⟨entry, -, rfl⟩, hother, hpending⟩ := hpending
            by_cases hentry : entry.hash = hash
            · simpa [hentry] using hpending
            · simp [hentry, heq] at hother
          · intro hpending
            exact ⟨_, ⟨listed, hlisted, rfl⟩, by simp [hhash, heq], by simp [hhash, hpending]⟩
      · next hne =>
          constructor
          · intro hpending
            obtain ⟨entry', ⟨entry, hentry, rfl⟩, hother, hpending⟩ := hpending
            by_cases hsame : entry.hash = hash
            · simp only [hsame, if_true] at hother
              exact absurd hother.symm hne
            · simp only [hsame, if_false] at hother hpending
              exact ⟨entry, hentry, hother, hpending⟩
          · intro hpending
            obtain ⟨entry, hentry, hother, hpending⟩ := hpending
            have hsame : entry.hash ≠ hash := fun heq => hne (hother ▸ heq)
            exact ⟨entry, ⟨entry, hentry, if_neg hsame⟩, hother, hpending⟩
    rw [hmap]
    by_cases hpending : status = .pending
    · simp only [updateStatus, hpending, if_true, Storage.get_set]
      split
      · simp
      · exact h.polled other
    · simp only [updateStatus, hpending, if_false]
      split
      · next heq => simp [heq]
      · next hne =>
          rw [Storage.get_erase_ne _ hne]
          exact h.polled other
  case told =>
    intro other told hother
    simp only [updateStatus] at hother
    split at hother
    · rw [Storage.get_set] at hother
      split at hother
      · cases hother
      · exact h.told other told hother
    · exact h.told other told (Storage.get_erase_some hother)

/-! ## The browser -/

/-- A step that leaves `localStorage` and the tabs alone. -/
theorem BrowserInvariant.grows {w w' : World} (h : BrowserInvariant w) (hgrows : w.Grows w')
    (hstored : w'.stored = w.stored) (htabs : w'.tabs = w.tabs) : BrowserInvariant w' where
  stored := hstored ▸ h.stored.grows hgrows
  tabs id tab hget := (h.tabs id tab (htabs ▸ hget)).grows hgrows

/-- A step that gives one tab a new state. -/
theorem BrowserInvariant.set_tab {w : World} (h : BrowserInvariant w) {id : Nat} {tab : Tab}
    (htab : TabInvariant w tab) : BrowserInvariant { w with tabs := w.tabs.set id tab } where
  stored := { h.stored with }
  tabs id' tab' hget := by
    rw [Storage.get_set] at hget
    split at hget
    · exact Option.some.inj hget ▸ htab.grows (.of_eq rfl rfl)
    · exact (h.tabs id' tab' hget).grows (.of_eq rfl rfl)

/-- Storing the entries of a tab keeps the browser's. -/
theorem BrowserInvariant.persist {w : World} (h : BrowserInvariant w) {id : Nat} {tab : Tab}
    (htab : TabInvariant w tab) (saved : Bool) : BrowserInvariant (w.persist id tab saved) where
  stored := by
    unfold World.persist
    dsimp only
    split
    · exact { htab.truthful with }
    · exact { h.stored with }
  tabs id' tab' hget := ((h.set_tab htab).tabs id' tab' hget).grows (.of_eq rfl rfl)

/-- What a step of a poll does. -/
theorem exists_of_poll {w w' : World} {id : Nat} {hash : String}
    {next : Tab → Poll → Option World} {out : Unit} (h : poll w id hash next = .ok (out, w')) :
    ∃ tab step, w.tabs.get id = some tab ∧ tab.polls.get hash = some step ∧
      next tab step = some w' := by
  unfold poll at h
  split at h
  · next tab htab =>
      split at h
      · next after hnext =>
          obtain ⟨-, rfl⟩ := Prod.mk.inj (Except.ok.inj h)
          obtain ⟨step, hstep, hafter⟩ := Option.bind_eq_some_iff.mp hnext
          exact ⟨tab, step, htab, hstep, hafter⟩
      · cases h
  · cases h

/-- The API says what the ledger has decided, or nothing. -/
theorem told_getTransactionStatus (w : World) (hash : String) (seen : Bool) :
    Told w hash (getTransactionStatus (rpcStatus w.ledger hash seen)) := by
  unfold rpcStatus
  split
  · next success hget =>
      cases seen with
      | false => trivial
      | true => cases success <;> exact hget
  · trivial

/-- **One step** of a tab, the API or the ledger. -/
theorem browserInvariant_of_fires {e : Event World Action Unit} (hfires : browser.Fires e)
    (h : BrowserInvariant e.before) : BrowserInvariant e.after := by
  obtain ⟨w, action, out, w'⟩ := e
  change call w action = .ok (out, w') at hfires
  change BrowserInvariant w at h
  cases action with
  | wait milliseconds =>
      obtain ⟨-, rfl⟩ := Prod.mk.inj (Except.ok.inj hfires)
      exact h.grows (.of_eq rfl rfl) rfl rfl
  | decide hash success =>
      simp only [call] at hfires
      split at hfires
      · cases hfires
      · next hopen =>
          obtain ⟨-, rfl⟩ := Prod.mk.inj (Except.ok.inj hfires)
          refine h.grows ⟨fun other outcome hget => ?_, fun _ hmem => hmem⟩ rfl rfl
          have hne : other ≠ hash := fun heq => by simp [heq, hopen] at hget
          rwa [Storage.get_set_ne _ _ hne]
  | load id readable =>
      obtain ⟨-, rfl⟩ := Prod.mk.inj (Except.ok.inj hfires)
      refine h.set_tab (openTab_invariant ?_)
      split
      · exact h.stored
      · exact truthful_nil w
  | close id =>
      obtain ⟨-, rfl⟩ := Prod.mk.inj (Except.ok.inj hfires)
      constructor
      case stored => exact { h.stored with }
      case tabs =>
        intro id' tab hget
        exact (h.tabs id' tab (Storage.get_erase_some hget)).grows (.of_eq rfl rfl)
  | register id hash operation saved =>
      simp only [call] at hfires
      split at hfires
      · next tab hash htab =>
          split at hfires
          · cases hfires
          · obtain ⟨-, rfl⟩ := Prod.mk.inj (Except.ok.inj hfires)
            exact h.persist (register_invariant (h.tabs id tab htab) _ operation w.now) saved
      · cases hfires
  | tick id hash =>
      obtain ⟨tab, step, htab, hget, hnext⟩ := exists_of_poll hfires
      obtain rfl := Option.some.inj hnext
      exact h.set_tab ((h.tabs id tab htab).move hget fun _ heq => by cases heq)
  | answer id hash seen =>
      obtain ⟨tab, step, htab, hget, hnext⟩ := exists_of_poll hfires
      cases step with
      | asked =>
          obtain rfl := Option.some.inj hnext
          refine h.set_tab ((h.tabs id tab htab).move hget fun status heq => ?_)
          exact Poll.answered.inj heq ▸ told_getTransactionStatus w hash seen
      | idle => cases hnext
      | answered _ => cases hnext
  | arrive id hash saved =>
      obtain ⟨tab, step, htab, hget, hnext⟩ := exists_of_poll hfires
      cases step with
      | answered status =>
          obtain rfl := Option.some.inj hnext
          have ht := h.tabs id tab htab
          exact h.persist (updateStatus_invariant ht hget (Or.inl (ht.told hash status hget))) saved
      | idle => cases hnext
      | asked => cases hnext
  | fail id hash saved =>
      obtain ⟨tab, step, htab, hget, hnext⟩ := exists_of_poll hfires
      let failed : World := { w with errors := w.errors ++ [hash] }
      have hgrows : w.Grows failed :=
        ⟨fun _ _ hdecided => hdecided, fun _ hmem => List.mem_append_left _ hmem⟩
      have hfailed : BrowserInvariant (failed.persist id (updateStatus tab hash .failed) saved) := by
        refine (h.grows hgrows rfl rfl).persist ?_ saved
        refine updateStatus_invariant ((h.tabs id tab htab).grows hgrows) hget (Or.inr ⟨rfl, ?_⟩)
        exact List.mem_append_right _ (List.mem_singleton_self hash)
      cases step with
      | idle => cases hnext
      | asked => exact Option.some.inj hnext ▸ hfailed
      | answered _ => exact Option.some.inj hnext ▸ hfailed

/-- The invariant holds after every run. -/
theorem browserInvariant_run (now : Nat) (ledger : Storage String Bool) (actions : List Action) :
    BrowserInvariant (browser.run (fresh now ledger) actions) := by
  refine browser.invariant (P := fun w _ => BrowserInvariant w) ?_
    (fun _ _ hfires h => browserInvariant_of_fires hfires h) actions
  exact ⟨truthful_nil _, fun _ _ hget => by simp [fresh] at hget⟩

/-! ## Questions that are answered -/

/-- A step that can happen happens. -/
theorem step_eq_of_call {w w' : World} {action : Action} (h : call w action = .ok ((), w')) :
    browser.step w action = w' := by
  simp [Machine.step, browser, h]

/-- A poll that asks, is answered and gets the answer shows what the ledger has
decided. -/
theorem shown_of_answered {w : World} {id : Nat} {tab : Tab} {hash : String} {old : Poll}
    (htab : w.tabs.get id = some tab) (hold : tab.polls.get hash = some old) {success : Bool}
    (hdecided : w.ledger.get hash = some success) (saved : Bool) :
    ∃ shown, (browser.run w [.tick id hash, .answer id hash true, .arrive id hash saved]).tabs.get
        id = some shown ∧
      shown.entries = (updateStatus tab hash (if success then .confirmed else .failed)).entries := by
  have hstatus : getTransactionStatus (rpcStatus w.ledger hash true) =
      if success then .confirmed else .failed := by
    cases success <;> simp [rpcStatus, hdecided, getTransactionStatus]
  have htick : call w (.tick id hash) = .ok ((), w.movePoll id tab hash .asked) := by
    simp [call, poll, htab, hold]
  have hanswer : call (w.movePoll id tab hash .asked) (.answer id hash true) =
      .ok ((), (w.movePoll id tab hash .asked).movePoll id
        { tab with polls := tab.polls.set hash .asked } hash
          (.answered (if success then .confirmed else .failed))) := by
    simp [call, poll, World.movePoll, hstatus]
  let told : Poll := .answered (if success then .confirmed else .failed)
  refine ⟨updateStatus { tab with polls := (tab.polls.set hash .asked).set hash told } hash
    (if success then .confirmed else .failed), ?_, rfl⟩
  rw [Machine.run, List.foldl_cons, step_eq_of_call htick, List.foldl_cons,
    step_eq_of_call hanswer, List.foldl_cons, List.foldl_nil]
  simp [Machine.step, browser, call, poll, World.movePoll, World.persist, told]

/-- **The lists tell the truth, and every question is asked.**  In every run, with
any tabs, reloads, errors and lost writes, each tab and `localStorage` list a
transaction at most once, as confirmed only if the ledger has applied it, and as
failed only if it failed there or a poll of it met an error; a tab polls exactly its
pending transactions; and from there one answered question shows what the ledger
has decided. -/
theorem lists_follow_ledger (now : Nat) (ledger : Storage String Bool) (actions : List Action) :
    Truthful (browser.run (fresh now ledger) actions)
        (browser.run (fresh now ledger) actions).stored ∧
      ∀ id tab, (browser.run (fresh now ledger) actions).tabs.get id = some tab →
        Truthful (browser.run (fresh now ledger) actions) tab.entries ∧ tab.Polled ∧
        ∀ entry ∈ tab.entries, entry.status = .pending → ∀ success,
          (browser.run (fresh now ledger) actions).ledger.get entry.hash = some success →
          ∀ saved, ∃ shown, (browser.run (browser.run (fresh now ledger) actions)
              [.tick id entry.hash, .answer id entry.hash true,
                .arrive id entry.hash saved]).tabs.get id = some shown ∧
            { entry with status := if success then .confirmed else .failed } ∈ shown.entries := by
  have h := browserInvariant_run now ledger actions
  generalize browser.run (fresh now ledger) actions = w at *
  refine ⟨h.stored, fun id tab htab => ?_⟩
  have ht := h.tabs id tab htab
  refine ⟨ht.truthful, ht.polled, fun entry hentry hpending success hdecided saved => ?_⟩
  obtain ⟨old, hold⟩ := Option.isSome_iff_exists.mp
    ((ht.polled entry.hash).mpr ⟨entry, hentry, rfl, hpending⟩)
  obtain ⟨shown, hget, hshown⟩ := shown_of_answered htab hold hdecided saved
  exact ⟨shown, hget, hshown ▸ List.mem_map.mpr ⟨entry, hentry, if_pos rfl⟩⟩

/-- Two tabs; the error in the second one is what `localStorage` keeps, though the
ledger has applied the transaction. -/
example : ((browser.run (fresh 0 ∅) [.load 0 true, .register 0 (some "a") "claim" true,
    .load 1 true, .decide "a" true, .tick 0 "a", .answer 0 "a" true, .arrive 0 "a" true,
    .tick 1 "a", .fail 1 "a" true]).stored.map PendingTx.status) = [.failed] := by decide +kernel

end EcoMint.PendingTransactions
