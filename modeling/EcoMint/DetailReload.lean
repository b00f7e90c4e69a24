import EcoMint.BondDetail
import EcoMint.BondLifecycle

/-!
# The page of a bond

The page shows one response of the API at a time.  Every mutation asks for a new
one, also while an older request is under way; the coordinator unsubscribes from the
older one and shows what the newest request brings.  Meanwhile the API reads the
ledger piece by piece for every request that was sent, the ledger takes transactions,
and responses arrive in any order or not at all.

The moments of the ledger are counted by its worlds so far.  What the page shows was
read at moments between the request and its response, and these intervals follow one
another: the page never goes back to an older ledger, so that nothing that is final
on the ledger is ever taken back on the page.
-/

namespace EcoMint.DetailReload

open BondDetail Fallible
open Portfolio (BondResponse)

/-! ## The coordinator -/

/-- Which sections of the page are loading. -/
structure SectionLoading where
  bond : Bool
  holders : Bool
  coupon : Bool
  maturity : Bool
deriving DecidableEq

/-- No section is loading. -/
def IDLE_SECTIONS : SectionLoading := ⟨false, false, false, false⟩

/-- A request that was sent, with the addresses that the index lists then, how far
the API has come with it, and the moment when it was sent. -/
structure Request where
  bondId : Nat
  index : IndexedHolders
  call : DetailCall
  since : Nat

/-- A response that was shown, with the moments of its request and its arrival. -/
structure Shown where
  response : BondDetailResponse
  since : Nat
  upto : Nat

/-- What `HttpClient` reports of a request that failed. -/
structure HttpFailure where
  detail : Option String
  message : Option String

/-- `err?.error?.detail || err?.message || 'Failed to refresh bond data'` -/
def HttpFailure.text (err : HttpFailure) : String :=
  match err.detail.filter (· ≠ "") with
  | some detail => detail
  | none =>
      match err.message.filter (· ≠ "") with
      | some message => message
      | none => "Failed to refresh bond data"

/-- The ledger with the worlds before, the requests that were sent, and the
coordinator's signals; `active` is the subscription that is still open. -/
structure Page where
  world : World
  past : List World
  requests : List Request
  active : Option Nat
  detail : Option BondDetailResponse
  loading : Bool
  sectionLoading : SectionLoading
  lastLoadedAt : Option Nat
  error : Option String
  shown : List Shown

namespace Page

/-- The worlds so far, the present one last. -/
def worlds (p : Page) : List World := p.past ++ [p.world]

/-- The present moment. -/
def now (p : Page) : Nat := p.past.length

/-- The page before its first request. -/
def initial (w : World) : Page where
  world := w
  past := []
  requests := []
  active := none
  detail := none
  loading := false
  sectionLoading := IDLE_SECTIONS
  lastLoadedAt := none
  error := none
  shown := []

/-- The request in front of the open subscription is given up. -/
def reload (p : Page) (id : Nat) (index : IndexedHolders) : Page :=
  { p with
    requests := p.requests ++ [⟨id, index, .start, p.now⟩]
    active := some p.requests.length
    loading := true
    sectionLoading := ⟨true, true, true, true⟩
    error := none }

/-- The page after the last response: nothing is loading. -/
def commitIdle (p : Page) : Page :=
  { p with loading := false, sectionLoading := IDLE_SECTIONS }

/-- `next`, after which the subscription is closed -/
def next (p : Page) (since : Nat) (detail : BondDetailResponse) : Page :=
  commitIdle { p with
    detail := some detail
    lastLoadedAt := some detail.loadedAt
    active := none
    shown := p.shown ++ [⟨detail, since, p.now⟩] }

/-- `error`, after which the subscription is closed -/
def fail (p : Page) (err : HttpFailure) : Page :=
  commitIdle { p with error := some err.text, active := none }

end Page

/-- A transaction on the ledger; the user or a mutation asks for the bond; the API
reads on for a request; its response arrives, or a failure does; the page is left. -/
inductive PageAction
  | transaction (tx : Tx)
  | reload (id : Nat) (index : IndexedHolders)
  | read (n : Nat) (reply : Reply)
  | response (n : Nat)
  | failure (n : Nat) (err : HttpFailure)
  | destroy

/-- One step.  What arrives for a request that was given up changes nothing. -/
def call (p : Page) : PageAction → Except Unit (Unit × Page)
  | .transaction tx =>
      match execute p.world tx with
      | .ok (_, w) => .ok ((), { p with world := w, past := p.past ++ [p.world] })
      | .error _ => .error ()
  | .reload id index => .ok ((), p.reload id index)
  | .read n reply =>
      match p.requests[n]? with
      | some r =>
          match resume r.bondId r.index.addresses p.world r.call reply with
          | some (_, c) => .ok ((), { p with requests := p.requests.set n { r with call := c } })
          | none => .error ()
      | none => .error ()
  | .response n =>
      match p.requests[n]? with
      | some r =>
          match r.call with
          | .returned response => .ok ((), if p.active = some n then p.next r.since response else p)
          | _ => .error ()
      | none => .error ()
  | .failure n err => .ok ((), if p.active = some n then p.fail err else p)
  | .destroy => .ok ((), { p with active := none })

/-- The page over a ledger and an API that many use. -/
def pages : Machine Page PageAction Unit Unit := ⟨call⟩

/-- What a step that is not left out does. -/
inductive PageStep (p p' : Page) : Prop
  | changed (tx : Tx) (out : Output) (w : World) (hexec : execute p.world tx = .ok (out, w))
      (hafter : p' = { p with world := w, past := p.past ++ [p.world] })
  | reloaded (id : Nat) (index : IndexedHolders) (hafter : p' = p.reload id index)
  | read (n : Nat) (r : Request) (question : Question) (reply : Reply) (c : DetailCall)
      (hrequest : p.requests[n]? = some r)
      (hresume : resume r.bondId r.index.addresses p.world r.call reply = some (question, c))
      (hafter : p' = { p with requests := p.requests.set n { r with call := c } })
  | shown (n : Nat) (r : Request) (response : BondDetailResponse)
      (hrequest : p.requests[n]? = some r) (hreturned : r.call = .returned response)
      (hactive : p.active = some n) (hafter : p' = p.next r.since response)
  | failed (err : HttpFailure) (hafter : p' = p.fail err)
  | closed (hafter : p' = { p with active := none })
  | ignored (hafter : p' = p)

/-- **Step lemma.** -/
theorem pageStep_of_call {p p' : Page} {action : PageAction} {out : Unit}
    (h : call p action = .ok (out, p')) : PageStep p p' := by
  unfold call at h
  split at h
  · next tx =>
      split at h
      · next out w hexec =>
          obtain ⟨-, rfl⟩ := Prod.mk.inj (Except.ok.inj h)
          exact .changed tx out w hexec rfl
      · cases h
  · next id index =>
      obtain ⟨-, rfl⟩ := Prod.mk.inj (Except.ok.inj h)
      exact .reloaded id index rfl
  · next n reply =>
      split at h
      · next r hrequest =>
          split at h
          · next question c hresume =>
              obtain ⟨-, rfl⟩ := Prod.mk.inj (Except.ok.inj h)
              exact .read n r question reply c hrequest hresume rfl
          · cases h
      · cases h
  · next n =>
      split at h
      · next r hrequest =>
          split at h
          · next response hreturned =>
              obtain ⟨-, rfl⟩ := Prod.mk.inj (Except.ok.inj h)
              by_cases hactive : p.active = some n
              · rw [if_pos hactive]
                exact .shown n r response hrequest hreturned hactive rfl
              · rw [if_neg hactive]
                exact .ignored rfl
          · cases h
      · cases h
  · next n err =>
      obtain ⟨-, rfl⟩ := Prod.mk.inj (Except.ok.inj h)
      by_cases hactive : p.active = some n
      · rw [if_pos hactive]
        exact .failed err rfl
      · rw [if_neg hactive]
        exact .ignored rfl
  · obtain ⟨-, rfl⟩ := Prod.mk.inj (Except.ok.inj h)
    exact .closed rfl

/-! ## What a call was given -/

/-- Some moment from `since` to `upto` gives this answer. -/
def AnsweredBetween (worlds : List World) (since upto bondId : Nat) (question : Question)
    (given : question.Answer) : Prop :=
  ∃ h w, since ≤ h ∧ h ≤ upto ∧ worlds[h]? = some w ∧ answer bondId w question = given

theorem AnsweredBetween.mono {worlds later : List World} {since upto upto' bondId : Nat}
    (hworlds : worlds <+: later) (hupto : upto ≤ upto') (question : Question)
    (given : question.Answer) (h : AnsweredBetween worlds since upto bondId question given) :
    AnsweredBetween later since upto' bondId question given := by
  obtain ⟨h, w, hsince, hle, hget, hanswer⟩ := h
  obtain ⟨rest, rfl⟩ := hworlds
  have hlt := (List.getElem?_eq_some_iff.mp hget).1
  exact ⟨h, w, hsince, by omega, by rwa [List.getElem?_append_left hlt], hanswer⟩

section

variable {bondId : Nat} {given given' : (question : Question) → question.Answer → Prop}

/-- The summary is of this bond, and was given. -/
structure SummaryGiven (bondId : Nat) (given : (question : Question) → question.Answer → Prop)
    (bond : BondResponse) : Prop where
  id : bond.id = bondId
  config : given .bond (some bond.config)
  state : given .bondState (some bond.state)

/-- Each balance was given; one that could not be read is zero. -/
def HoldersGiven (given : (question : Question) → question.Answer → Prop)
    (holders : List HolderWithBalance) : Prop :=
  ∀ entry ∈ holders, entry.balance = 0 ∨ given (.balance entry.address) entry.balance

/-- Everything in a response was given. -/
structure ResponseGiven (bondId : Nat) (given : (question : Question) → question.Answer → Prop)
    (response : BondDetailResponse) : Prop where
  summary : SummaryGiven bondId given response.bond
  holders : HoldersGiven given response.holders
  undistributedTotal : given .undistributedTotal response.undistributedTotal

/-- Everything that a call has read so far was given. -/
def CallGiven (bondId : Nat) (given : (question : Question) → question.Answer → Prop) :
    DetailCall → Prop
  | .start => True
  | .configured config => given .bond (some config)
  | .panels bond _ result undistributedTotal => SummaryGiven bondId given bond ∧
      HoldersGiven given result ∧
        ∀ total, undistributedTotal = some total → given .undistributedTotal total
  | .returned response => ResponseGiven bondId given response
  | .thrown => True

theorem SummaryGiven.mono (h : ∀ question a, given question a → given' question a)
    {bond : BondResponse} (hs : SummaryGiven bondId given bond) : SummaryGiven bondId given' bond :=
  ⟨hs.id, h _ _ hs.config, h _ _ hs.state⟩

theorem HoldersGiven.mono (h : ∀ question a, given question a → given' question a)
    {holders : List HolderWithBalance} (hs : HoldersGiven given holders) :
    HoldersGiven given' holders :=
  fun entry hentry => (hs entry hentry).imp_right (h _ _)

theorem ResponseGiven.mono (h : ∀ question a, given question a → given' question a)
    {response : BondDetailResponse} (hs : ResponseGiven bondId given response) :
    ResponseGiven bondId given' response :=
  ⟨hs.summary.mono h, hs.holders.mono h, h _ _ hs.undistributedTotal⟩

theorem CallGiven.mono (h : ∀ question a, given question a → given' question a) {c : DetailCall}
    (hs : CallGiven bondId given c) : CallGiven bondId given' c := by
  cases c with
  | start => trivial
  | configured config => exact h _ _ hs
  | panels bond next result undistributedTotal =>
      exact ⟨hs.1.mono h, hs.2.1.mono h, fun total htotal => h _ _ (hs.2.2 total htotal)⟩
  | returned response => exact ResponseGiven.mono h hs
  | thrown => trivial

/-- The call is one of answers when its panels come together. -/
theorem callGiven_settle {addresses : List Address} {bond : BondResponse} {next : Nat}
    {result : List HolderWithBalance} {undistributedTotal : Option Int} {now : Nat}
    (hs : CallGiven bondId given (.panels bond next result undistributedTotal)) :
    CallGiven bondId given (settle addresses bond next result undistributedTotal now) := by
  unfold settle
  split
  · next total =>
      split
      · exact ⟨hs.1, hs.2.1, hs.2.2 total rfl⟩
      · exact hs
  · exact hs

/-- **Read lemma.**  A read adds what the ledger holds at its moment. -/
theorem CallGiven.read {addresses : List Address} {w : World} {c c' : DetailCall} {reply : Reply}
    {question : Question} (hs : CallGiven bondId given c)
    (hnow : ∀ question, given question (answer bondId w question))
    (h : resume bondId addresses w c reply = some (question, c')) : CallGiven bondId given c' := by
  by_cases hthrown : c' = .thrown
  · rw [hthrown]
    trivial
  cases readStep_of_resume h hthrown with
  | configured config _ hconfig =>
      rw [CallGiven, ← hconfig]
      exact hnow .bond
  | summary config state _ hstate =>
      have hgiven : given .bondState (some state) := by
        rw [← hstate]
        exact hnow .bondState
      refine ⟨⟨rfl, hs, hgiven⟩, ?_, fun total htotal => by cases htotal⟩
      intro entry hentry
      cases hentry
  | balance bond next result undistributedTotal address hnext =>
      refine callGiven_settle ⟨hs.1, ?_, hs.2.2⟩
      intro entry hentry
      rcases List.mem_append.mp hentry with hold | hnew
      · exact hs.2.1 entry hold
      · split at hnew
        · unfold entryOf at hnew
          split at hnew
          · obtain rfl := List.mem_singleton.mp hnew
            exact Or.inr (hnow (.balance address))
          · cases hnew
        · obtain rfl := List.mem_singleton.mp hnew
          exact Or.inl rfl
  | coupon bond next result _ =>
      refine callGiven_settle ⟨hs.1, hs.2.1, ?_⟩
      intro total htotal
      obtain rfl := Option.some.inj htotal
      exact hnow .undistributedTotal

end

/-! ## The ledger of a page -/

/-- What is final on the ledger: the terms of a bond, and that it is matured. -/
structure Later (w w' : World) : Prop where
  config : ∀ b config, w.issuer.bondConfig.get b = some config →
    w'.issuer.bondConfig.get b = some config
  matured : ∀ b, w.issuer.statusOf b = some .matured → w'.issuer.statusOf b = some .matured

theorem Later.refl (w : World) : Later w w := ⟨fun _ _ h => h, fun _ h => h⟩

theorem Later.trans {w w' w'' : World} (h : Later w w') (h' : Later w' w'') : Later w w'' :=
  ⟨fun b config hget => h'.config b config (h.config b config hget),
    fun b hmatured => h'.matured b (h.matured b hmatured)⟩

/-- A transaction makes the ledger later. -/
theorem later_of_execute {w w' : World} {tx : Tx} {out : Output}
    (hs : BondIssuer.SupplyInvariant w.issuer) (h : execute w tx = .ok (out, w')) :
    Later w w' ∧ BondIssuer.SupplyInvariant w'.issuer := by
  rcases (worldStep_of_execute h).issuer_exec with hsame | ⟨env, registries, call, o, hexec⟩
  · rw [hsame]
    exact ⟨⟨fun _ _ hget => hsame ▸ hget, fun _ hmatured => hsame ▸ hmatured⟩, hs⟩
  · refine ⟨⟨fun b config => BondIssuer.bondConfig_exec hs hexec, fun b hmatured => ?_⟩,
      hs.exec hexec⟩
    let e : BondIssuer.LogEntry := ⟨w.issuer, ⟨env, registries, call⟩, o, w'.issuer⟩
    have hfires : BondIssuer.machine.Fires e := hexec
    rcases BondIssuer.status_step (e := e) hs hfires b with hsame | ⟨hnone, -⟩ | ⟨hactive, -⟩
    · exact hsame.trans hmatured
    · exact absurd (hnone.symm.trans hmatured) (by decide)
    · exact absurd (hactive.symm.trans hmatured) (by decide)

/-- Of two moments the later one has the later world. -/
theorem later_of_le {worlds : List World} (hs : worlds.Pairwise Later) {h h' : Nat} {w w' : World}
    (hle : h ≤ h') (hget : worlds[h]? = some w) (hget' : worlds[h']? = some w') : Later w w' := by
  obtain ⟨hlt, rfl⟩ := List.getElem?_eq_some_iff.mp hget
  obtain ⟨hlt', rfl⟩ := List.getElem?_eq_some_iff.mp hget'
  rcases Nat.eq_or_lt_of_le hle with heq | hless
  · subst heq
    exact .refl _
  · exact List.pairwise_iff_getElem.mp hs h h' hlt hlt' hless

/-- What a later response says about the same bond takes nothing back. -/
def KeepsWord (earlier later : BondDetailResponse) : Prop :=
  earlier.bond.id = later.bond.id →
    later.bond.config = earlier.bond.config ∧
      (earlier.bond.state.status = .matured → later.bond.state.status = .matured)

/-- A response that is read later takes back nothing of an earlier one. -/
theorem keepsWord_of_ordered {worlds : List World} (hs : worlds.Pairwise Later)
    {earlier later : BondDetailResponse} {since upto since' upto' b b' : Nat} (hle : upto ≤ since')
    (hearlier : ResponseGiven b (AnsweredBetween worlds since upto b) earlier)
    (hlater : ResponseGiven b' (AnsweredBetween worlds since' upto' b') later) :
    KeepsWord earlier later := by
  intro hid
  obtain rfl : b = b' := by rw [← hearlier.summary.id, hid, hlater.summary.id]
  constructor
  · obtain ⟨h, w, -, hle₁, hget, hanswer⟩ := hearlier.summary.config
    obtain ⟨h', w', hle₂, -, hget', hanswer'⟩ := hlater.summary.config
    have hfinal := later_of_le hs (by omega) hget hget'
    simp only [answer, BondIssuer.getBond, Except.toOption_eq_some_iff, okOr_ok_iff] at hanswer hanswer'
    exact Option.some.inj (hanswer'.symm.trans (hfinal.config b _ hanswer))
  · intro hmatured
    obtain ⟨h, w, -, hle₁, hget, hanswer⟩ := hearlier.summary.state
    obtain ⟨h', w', hle₂, -, hget', hanswer'⟩ := hlater.summary.state
    have hfinal := later_of_le hs (by omega) hget hget'
    simp only [answer, BondIssuer.getBondState, Except.toOption_eq_some_iff, okOr_ok_iff]
      at hanswer hanswer'
    have hstatus := hfinal.matured b (by rw [BondIssuer.statusOf_of_get hanswer, hmatured])
    rw [BondIssuer.statusOf_of_get hanswer'] at hstatus
    exact Option.some.inj hstatus

/-! ## Every run -/

/-- What holds between any two steps. -/
structure PageInvariant (p : Page) : Prop where
  ledger : p.worlds.Pairwise Later
  supply : BondIssuer.SupplyInvariant p.world.issuer
  requests : ∀ (n : Nat) (r : Request), p.requests[n]? = some r → r.since ≤ p.now ∧
    CallGiven r.bondId (AnsweredBetween p.worlds r.since p.now r.bondId) r.call
  shown : ∀ s ∈ p.shown, s.upto ≤ p.now ∧ ResponseGiven s.response.bond.id
    (AnsweredBetween p.worlds s.since s.upto s.response.bond.id) s.response
  ordered : p.shown.Pairwise fun earlier later => earlier.upto ≤ later.since
  active : ∀ (n : Nat) (r : Request), p.active = some n → p.requests[n]? = some r → ∀ s ∈ p.shown, s.upto ≤ r.since
  detail : p.detail = p.shown.getLast?.map Shown.response
  sections : p.sectionLoading = ⟨p.loading, p.loading, p.loading, p.loading⟩
  loading : p.active.isSome = true → p.loading = true

theorem pageInvariant_initial {w : World} (hs : BondIssuer.SupplyInvariant w.issuer) :
    PageInvariant (Page.initial w) where
  ledger := List.pairwise_singleton _ _
  supply := hs
  requests n r h := by simp [Page.initial] at h
  shown s h := by simp [Page.initial] at h
  ordered := List.Pairwise.nil
  active n r h := by simp [Page.initial] at h
  detail := rfl
  sections := rfl
  loading h := by simp [Page.initial] at h

/-- A transaction adds a world; what was read stays read. -/
theorem PageInvariant.changed {p : Page} (hs : PageInvariant p) {tx : Tx} {out : Output} {w : World}
    (hexec : execute p.world tx = .ok (out, w)) :
    PageInvariant { p with world := w, past := p.past ++ [p.world] } := by
  obtain ⟨hlater, hsupply⟩ := later_of_execute hs.supply hexec
  have hprefix : p.worlds <+: p.worlds ++ [w] := List.prefix_append ..
  have hnow : p.now ≤ (p.past ++ [p.world]).length := by simp [Page.now]
  refine { hs with ledger := ?_, supply := hsupply, requests := ?_, shown := ?_ }
  · refine List.pairwise_append.mpr ⟨hs.ledger, List.pairwise_singleton _ _, ?_⟩
    intro earlier hearlier last hlast
    obtain rfl := List.mem_singleton.mp hlast
    rcases List.mem_append.mp hearlier with hpast | hpresent
    · have hbefore := (List.pairwise_append.mp hs.ledger).2.2 earlier hpast p.world
        (List.mem_singleton_self _)
      exact hbefore.trans hlater
    · obtain rfl := List.mem_singleton.mp hpresent
      exact hlater
  · intro n r hget
    obtain ⟨hsince, hgiven⟩ := hs.requests n r hget
    exact ⟨hsince.trans hnow, hgiven.mono (AnsweredBetween.mono hprefix hnow)⟩
  · intro s hmem
    obtain ⟨hupto, hgiven⟩ := hs.shown s hmem
    exact ⟨hupto.trans hnow, hgiven.mono (AnsweredBetween.mono hprefix (Nat.le_refl _))⟩

/-- What was shown so far was read before a new request is sent. -/
theorem PageInvariant.reloaded {p : Page} (hs : PageInvariant p) (id : Nat)
    (index : IndexedHolders) : PageInvariant (p.reload id index) := by
  have hnew : ∀ n r, (p.requests ++ [⟨id, index, .start, p.now⟩])[n]? = some r →
      p.requests[n]? = some r ∨ n = p.requests.length ∧ r = ⟨id, index, .start, p.now⟩ := by
    intro n r hget
    rcases Nat.lt_trichotomy n p.requests.length with hlt | rfl | hgt
    · rw [List.getElem?_append_left hlt] at hget
      exact Or.inl hget
    · rw [List.getElem?_concat_length] at hget
      exact Or.inr ⟨rfl, (Option.some.inj hget).symm⟩
    · rw [List.getElem?_eq_none (by simp; omega)] at hget
      cases hget
  refine { hs with requests := ?_, active := ?_, sections := rfl, loading := fun _ => rfl }
  · intro n r hget
    rcases hnew n r hget with hold | ⟨-, rfl⟩
    · exact hs.requests n r hold
    · exact ⟨Nat.le_refl _, trivial⟩
  · intro n r hactive hget s hmem
    obtain rfl := Option.some.inj hactive
    rcases hnew _ r hget with hold | ⟨-, rfl⟩
    · rw [List.getElem?_eq_none (Nat.le_refl _)] at hold
      cases hold
    · exact (hs.shown s hmem).1

/-- The API reads on for one request. -/
theorem PageInvariant.read {p : Page} (hs : PageInvariant p) {n : Nat} {r : Request}
    {question : Question} {reply : Reply} {c : DetailCall} (hrequest : p.requests[n]? = some r)
    (hresume : resume r.bondId r.index.addresses p.world r.call reply = some (question, c)) :
    PageInvariant { p with requests := p.requests.set n { r with call := c } } := by
  have hset : ∀ k r', (p.requests.set n { r with call := c })[k]? = some r' →
      p.requests[k]? = some r' ∨ k = n ∧ r' = { r with call := c } := by
    intro k r' hget
    rw [List.getElem?_set] at hget
    split at hget
    · next heq =>
        split at hget
        · exact Or.inr ⟨heq.symm, (Option.some.inj hget).symm⟩
        · cases hget
    · exact Or.inl hget
  obtain ⟨hsince, hgiven⟩ := hs.requests n r hrequest
  refine { hs with requests := ?_, active := ?_ }
  · intro k r' hget
    rcases hset k r' hget with hold | ⟨-, rfl⟩
    · exact hs.requests k r' hold
    · refine ⟨hsince, hgiven.read ?_ hresume⟩
      intro question
      refine ⟨p.now, p.world, hsince, Nat.le_refl _, ?_, rfl⟩
      exact List.getElem?_concat_length ..
  · intro k r' hactive hget s hmem
    rcases hset k r' hget with hold | ⟨rfl, rfl⟩
    · exact hs.active k r' hactive hold s hmem
    · exact hs.active k r hactive hrequest s hmem

/-- What is shown now was read after all that was shown before. -/
theorem PageInvariant.next {p : Page} (hs : PageInvariant p) {n : Nat} {r : Request}
    {response : BondDetailResponse} (hrequest : p.requests[n]? = some r)
    (hreturned : r.call = .returned response) (hactive : p.active = some n) :
    PageInvariant (p.next r.since response) := by
  obtain ⟨hsince, hgiven⟩ := hs.requests n r hrequest
  rw [hreturned] at hgiven
  have hid : r.bondId = response.bond.id := hgiven.summary.id.symm
  refine { hs with
    shown := ?_, ordered := ?_, active := fun _ _ h => (nomatch h), detail := ?_, sections := rfl
    loading := fun h => (nomatch h) }
  · intro s hmem
    rcases List.mem_append.mp hmem with hold | hnew
    · exact hs.shown s hold
    · obtain rfl := List.mem_singleton.mp hnew
      exact ⟨Nat.le_refl _, hid ▸ hgiven⟩
  · refine List.pairwise_append.mpr ⟨hs.ordered, List.pairwise_singleton _ _, ?_⟩
    intro earlier hearlier last hlast
    obtain rfl := List.mem_singleton.mp hlast
    exact hs.active n r hactive hrequest earlier hearlier
  · simp [Page.next, Page.commitIdle]

/-- A step keeps the invariant. -/
theorem PageInvariant.step {p p' : Page} (hs : PageInvariant p) (h : PageStep p p') :
    PageInvariant p' := by
  cases h with
  | changed tx out w hexec hafter => exact hafter ▸ hs.changed hexec
  | reloaded id index hafter => exact hafter ▸ hs.reloaded id index
  | read n r question reply c hrequest hresume hafter => exact hafter ▸ hs.read hrequest hresume
  | shown n r response hrequest hreturned hactive hafter =>
      exact hafter ▸ hs.next hrequest hreturned hactive
  | failed err hafter =>
      subst hafter
      exact { hs with active := fun _ _ h => (nomatch h), sections := rfl, loading := fun h => (nomatch h) }
  | closed hafter =>
      subst hafter
      exact { hs with active := fun _ _ h => (nomatch h), loading := fun h => (nomatch h) }
  | ignored hafter => exact hafter ▸ hs

/-- The invariant holds after every run. -/
theorem pageInvariant_run (d : Deployment) (txs : List Tx) (actions : List PageAction) :
    PageInvariant (pages.run (Page.initial (machine.run (deploy d) txs)) actions) :=
  pages.invariant (P := fun p _ => PageInvariant p) (pageInvariant_initial (supplyInvariant d txs))
    (fun _ _ hfires hs => hs.step (pageStep_of_call hfires)) actions

/-- **The page follows the ledger.**  In every run, whatever transactions, reads and
responses come in which order: the page shows the last response that was shown;
everything in a shown response was read between its request and its arrival (a balance
that could not be read is zero); the request of a shown response was sent at no earlier
ledger moment than the one at which the response shown before it arrived, so that it
takes back nothing of what the page said about the same bond; and the panels load
together, as long as a response is waited for. -/
theorem page_follows_ledger (d : Deployment) (txs : List Tx) (actions : List PageAction) :
    let p := pages.run (Page.initial (machine.run (deploy d) txs)) actions
    p.detail = p.shown.getLast?.map Shown.response ∧
      (∀ s ∈ p.shown, ResponseGiven s.response.bond.id
        (AnsweredBetween p.worlds s.since s.upto s.response.bond.id) s.response) ∧
      (p.shown.Pairwise fun earlier later =>
        earlier.upto ≤ later.since ∧ KeepsWord earlier.response later.response) ∧
      p.sectionLoading = ⟨p.loading, p.loading, p.loading, p.loading⟩ ∧
      (p.active.isSome = true → p.loading = true) := by
  intro p
  have hs : PageInvariant p := pageInvariant_run d txs actions
  refine ⟨hs.detail, fun s hmem => (hs.shown s hmem).2, ?_, hs.sections, hs.loading⟩
  refine hs.ordered.imp_of_mem ?_
  intro earlier later hearlier hlater hle
  exact ⟨hle, keepsWord_of_ordered hs.ledger hle (hs.shown _ hearlier).2 (hs.shown _ hlater).2⟩

/-- Everything that the API reads for a request, in turn. -/
def readAll (n : Nat) : List PageAction :=
  [.read n ⟨.summary, true, 5000⟩, .read n ⟨.summary, true, 5000⟩, .read n ⟨.holders, true, 5000⟩,
    .read n ⟨.coupon, true, 5000⟩]

def sampleIndex : IndexedHolders := ⟨[1], by decide⟩

/-- The older of two requests is answered last. -/
example : ((pages.run (Page.initial (machine.run (deploy sampleDeployment) reportedBond))
    ([.reload 1 sampleIndex] ++ readAll 0 ++ [.reload 1 sampleIndex] ++ readAll 1 ++
      [.response 1, .response 0])).shown.map fun s => s.response.holders) = [[⟨1, 100⟩]] := by
  decide +kernel

end EcoMint.DetailReload
