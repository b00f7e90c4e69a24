import EcoMint.DexOrders
import EcoMint.Paging

/-!
# The sweep of expired orders

The admin calls `clean_expired_orders` from id 0 and then from each id it
returns, until it returns 0.  Each call scans the next page of the order ids,
so the calls together scan every id once, as long as the end of a page can be
written down: it is computed with saturating arithmetic as `start + batch - 1`,
and that never exceeds `2 ^ 64 - 2`.  With `2 ^ 64 - 1` orders the sweep keeps
returning the last id and never ends.
-/

namespace EcoMint.DexRouter

open Fallible Storage IntRange

/-! ## One pass over a list of ids -/

/-- What a sweep makes of an order. -/
def Order.expireIfDue (env : Env) (order : Order) : Order :=
  if order.sweepable env then { order with status := .expired } else order

/-- The order under an id is to be marked expired. -/
def State.Due (s : State) (env : Env) (id : Nat) : Prop :=
  ∃ order ∈ s.order.get id, order.sweepable env

instance (s : State) (env : Env) (id : Nat) : Decidable (s.Due env id) := by
  unfold State.Due; infer_instance

/-- The ids of the orders to be marked expired. -/
def State.dueOrders (s : State) (env : Env) : List Nat :=
  s.order.keys.filter fun id => s.Due env id

/-- An expired order is not swept again. -/
theorem not_sweepable_expired {env : Env} {order : Order} :
    ¬ ({ order with status := .expired } : Order).sweepable env := by
  simp [Order.sweepable, Order.Live]

/-- Expiring twice is expiring once. -/
theorem expireIfDue_expireIfDue (env : Env) (order : Order) :
    (order.expireIfDue env).expireIfDue env = order.expireIfDue env := by
  by_cases hdue : order.sweepable env
  · have hmarked : order.expireIfDue env = { order with status := .expired } := if_pos hdue
    rw [hmarked]
    exact if_neg not_sweepable_expired
  · have hkept : order.expireIfDue env = order := if_neg hdue
    rw [hkept, hkept]

/-- So it is with an order that may be missing. -/
theorem map_expireIfDue_twice (env : Env) (o : Option Order) :
    (o.map (Order.expireIfDue env)).map (Order.expireIfDue env) =
      o.map (Order.expireIfDue env) := by
  rw [Option.map_map]
  congr 1
  funext order
  exact expireIfDue_expireIfDue env order

/-- An order that was expired if due is not due. -/
theorem not_sweepable_expireIfDue (env : Env) (order : Order) :
    ¬ (order.expireIfDue env).sweepable env := by
  unfold Order.expireIfDue
  split
  · exact not_sweepable_expired
  · assumption

/-- What is stored after an order was marked. -/
theorem markOrderExpired_get (s : State) (env : Env) {id : Nat} {order : Order}
    (hget : s.order.get id = some order) (hdue : order.sweepable env) (id' : Nat) :
    (markOrderExpired s id order).order.get id' =
      if id' = id then (s.order.get id').map (Order.expireIfDue env) else s.order.get id' := by
  have hmarked : order.expireIfDue env = { order with status := .expired } := if_pos hdue
  have hset : (markOrderExpired s id order).order.get id' =
      if id' = id then some { order with status := .expired } else s.order.get id' :=
    get_set s.order id id' { order with status := .expired }
  rw [hset]
  by_cases hid : id' = id
  · subst hid
    simp [hget, hmarked]
  · simp [hid]

/-- A sweep marks the due orders it scans and leaves every other order alone. -/
theorem sweepOrders_order (env : Env) (s : State) (ids : List Nat) (cleaned id : Nat) :
    (sweepOrders env ids (cleaned, s)).2.order.get id =
      if id ∈ ids then (s.order.get id).map (Order.expireIfDue env) else s.order.get id := by
  induction ids generalizing s cleaned with
  | nil => simp [sweepOrders]
  | cons first rest ih =>
      unfold sweepOrders
      cases hfirst : s.order.get first with
      | none =>
          rw [ih]
          by_cases hid : id = first
          · subst hid
            simp [hfirst]
          · simp [hid]
      | some order =>
          dsimp only
          split
          · next hdue =>
              rw [ih, markOrderExpired_get s env hfirst hdue]
              by_cases hid : id = first
              · subst hid
                simp [hfirst, expireIfDue_expireIfDue]
              · simp [hid]
          · next hkept =>
              have hsame : order.expireIfDue env = order := if_neg hkept
              rw [ih]
              by_cases hid : id = first
              · subst hid
                simp [hfirst, hsame]
              · simp [hid]

/-- Marking an order leaves the others due. -/
theorem due_markOrderExpired {s : State} {env : Env} {id id' : Nat} {order : Order}
    (hne : id' ≠ id) : (markOrderExpired s id order).Due env id' ↔ s.Due env id' := by
  have hget : (markOrderExpired s id order).order.get id' = s.order.get id' := get_set_ne _ _ hne
  unfold State.Due
  rw [hget]

/-- A sweep counts the due orders it scans. -/
theorem sweepOrders_cleaned (env : Env) (s : State) {ids : List Nat} (hnodup : ids.Nodup)
    (cleaned : Nat) : (sweepOrders env ids (cleaned, s)).1 =
      cleaned + ids.countP fun id => s.Due env id := by
  induction ids generalizing s cleaned with
  | nil => rfl
  | cons first rest ih =>
      obtain ⟨hfresh, hrest⟩ := List.nodup_cons.mp hnodup
      unfold sweepOrders
      cases hfirst : s.order.get first with
      | none =>
          have hnot : ¬ s.Due env first := by simp [State.Due, hfirst]
          rw [List.countP_cons_of_neg (by simpa using hnot)]
          exact ih s hrest cleaned
      | some order =>
          have hiff : s.Due env first ↔ order.sweepable env := by simp [State.Due, hfirst]
          dsimp only
          split
          · next hdue =>
              have hsame : rest.countP (fun id => (markOrderExpired s first order).Due env id) =
                  rest.countP fun id => s.Due env id := by
                apply List.countP_congr
                intro id hid
                have hne : id ≠ first := fun heq => hfresh (heq ▸ hid)
                simpa using due_markOrderExpired hne
              rw [List.countP_cons_of_pos (by simpa using hiff.mpr hdue),
                ih (markOrderExpired s first order) hrest (cleaned + 1), hsame]
              omega
          · next hkept =>
              rw [List.countP_cons_of_neg (by simpa using fun h => hkept (hiff.mp h))]
              exact ih s hrest cleaned

/-- A sweep does not change the administrator. -/
theorem sweepOrders_admin (env : Env) (s : State) (ids : List Nat) (cleaned : Nat) :
    (sweepOrders env ids (cleaned, s)).2.admin = s.admin := by
  induction ids generalizing s cleaned with
  | nil => rfl
  | cons first rest ih =>
      unfold sweepOrders
      cases s.order.get first with
      | none => exact ih s cleaned
      | some order =>
          dsimp only
          split
          · exact ih (markOrderExpired s first order) (cleaned + 1)
          · exact ih s cleaned

/-! ## One call -/

/-- The storage with a nonce of the caller used up. -/
def State.spendNonce (s : State) (caller : Address) : State :=
  { s with nonce := s.nonce.set caller (s.nonce.read caller + 1) }

/-- The id a sweep returns: where the next call starts, or 0. -/
def sweepNext (count startId limit : Nat) : Nat :=
  if count < sweepStart startId ∨ count ≤ sweepEnd count startId limit then 0
  else sweepEnd count startId limit + 1

/-- What the scan of a window returns. -/
def sweepResult (env : Env) (s : State) (startId limit : Nat) : CleanExpiredResult × State :=
  let (cleaned, s') := sweepOrders env (sweepWindow s.orderCount startId limit) (0, s)
  ({ cleaned, nextStartId := sweepNext s.orderCount startId limit }, s')

/-- A sweep by its window. -/
theorem cleanExpiredOrders_eq (env : Env) (s : State) (caller : Address)
    (startId limit nonce : Nat) : cleanExpiredOrders env s caller startId limit nonce = (do
      env.requireAuth caller
      let s ← consumeNonce s caller nonce
      requireAdmin s caller
      rejectIf (limit = 0) .zeroAmount
      return sweepResult env s startId limit) := by
  unfold cleanExpiredOrders
  congr! 7 with _ s' _ _
  unfold sweepResult
  by_cases hnone : s'.orderCount = 0 ∨ sweepStart startId > s'.orderCount
  · have hnext : sweepNext s'.orderCount startId limit = 0 := by
      refine if_pos (hnone.symm.imp_right fun hcount => ?_)
      rw [hcount]
      exact Nat.zero_le _
    have hwindow : sweepWindow s'.orderCount startId limit = [] := if_pos hnone
    rw [if_pos hnone, hnext, hwindow]
    rfl
  · have hnext : sweepNext s'.orderCount startId limit =
        if sweepEnd s'.orderCount startId limit ≥ s'.orderCount then 0
        else sweepEnd s'.orderCount startId limit + 1 := by
      have hstart : ¬ s'.orderCount < sweepStart startId := fun h => hnone (Or.inr h)
      simp only [sweepNext, hstart, false_or, ge_iff_le]
    rw [if_neg hnone, hnext]

/-- **One call of a sweep** by the admin scans its window and says where to go on. -/
theorem cleanExpiredOrders_ok_iff {env : Env} {s s' : State} {caller : Address}
    {startId limit nonce : Nat} {result : CleanExpiredResult} :
    cleanExpiredOrders env s caller startId limit nonce = .ok (result, s') ↔
      env.Authorizes caller ∧ nonce = s.nonce.read caller ∧ s.admin = some caller ∧ 0 < limit ∧
        sweepResult env (s.spendNonce caller) startId limit = (result, s') := by
  have hspent : ∀ nonces, s.nonce.set caller (s.nonce.read caller + 1) = nonces →
      ({ s with nonce := nonces } : State) = s.spendNonce caller := by
    rintro _ rfl
    rfl
  simp only [cleanExpiredOrders_eq, consumeNonce, requireAdmin, bind_ok_iff, pure_ok_iff,
    rejectIf_ok_iff, Env.requireAuth_ok_iff, useNonce_ok_iff, checkAdmin_ok_iff]
  constructor
  · intro h
    obtain ⟨_, hauth, _, ⟨nonces, ⟨hnonce, hset⟩, rfl⟩, _, hadmin, _, hlimit, hresult⟩ := h
    rw [hspent nonces hset] at hresult
    exact ⟨hauth, hnonce, hadmin, Nat.pos_of_ne_zero hlimit, hresult⟩
  · intro h
    obtain ⟨hauth, hnonce, hadmin, hlimit, hresult⟩ := h
    exact ⟨(), hauth, s.spendNonce caller, ⟨_, ⟨hnonce, rfl⟩, rfl⟩, (), hadmin, (),
      hlimit.ne', hresult⟩

/-! ## The windows are pages -/

/-- However many orders there are, a window ends before the last `u64`. -/
theorem sweepEnd_lt (count startId limit : Nat) : sweepEnd count startId limit < 2 ^ 64 - 1 := by
  simp only [sweepEnd, saturatingAddNat_eq_min, u64]
  omega

/-- A window that starts where a page does ends where the page does. -/
theorem sweepEnd_eq {count startId limit k : Nat} (hcount : count < 2 ^ 64 - 1)
    (hstart : sweepStart startId = k * min limit MAX_CLEAN_BATCH + 1) :
    sweepEnd count startId limit = min ((k + 1) * min limit MAX_CLEAN_BATCH) count := by
  have hbatch : (if limit > MAX_CLEAN_BATCH then MAX_CLEAN_BATCH else limit) =
      min limit MAX_CLEAN_BATCH := by
    split <;> omega
  have hsucc : (k + 1) * min limit MAX_CLEAN_BATCH =
      k * min limit MAX_CLEAN_BATCH + min limit MAX_CLEAN_BATCH := Nat.succ_mul _ _
  simp only [sweepEnd, hbatch, hstart, hsucc, saturatingAddNat_eq_min, u64]
  omega

/-- From the beginning of a page the window is that page. -/
theorem sweepWindow_eq {count startId limit k : Nat} (hcount : count < 2 ^ 64 - 1)
    (hstart : sweepStart startId = k * min limit MAX_CLEAN_BATCH + 1) :
    sweepWindow count startId limit = Paging.page (min limit MAX_CLEAN_BATCH) count k := by
  have hsucc : (k + 1) * min limit MAX_CLEAN_BATCH =
      k * min limit MAX_CLEAN_BATCH + min limit MAX_CLEAN_BATCH := Nat.succ_mul _ _
  unfold sweepWindow Paging.page
  rw [sweepEnd_eq hcount hstart, hstart]
  split
  · next hnone =>
      have hempty : count - k * min limit MAX_CLEAN_BATCH = 0 := by omega
      rw [hempty, Nat.min_zero, List.range'_zero]
  · congr 1
    omega

/-- From the beginning of a page the next start is that of the next page. -/
theorem sweepNext_eq {count startId limit k : Nat} (hcount : count < 2 ^ 64 - 1)
    (hstart : sweepStart startId = k * min limit MAX_CLEAN_BATCH + 1) :
    sweepNext count startId limit =
      if count ≤ (k + 1) * min limit MAX_CLEAN_BATCH then 0
      else (k + 1) * min limit MAX_CLEAN_BATCH + 1 := by
  have hsucc : (k + 1) * min limit MAX_CLEAN_BATCH =
      k * min limit MAX_CLEAN_BATCH + min limit MAX_CLEAN_BATCH := Nat.succ_mul _ _
  unfold sweepNext
  rw [sweepEnd_eq hcount hstart, hstart]
  split <;> split <;> omega

/-! ## A whole sweep -/

/-- A call of a sweep: where it starts, and what it returns. -/
structure SweepCall where
  startId : Nat
  result : CleanExpiredResult

/-- The admin sweeps from an id on: each call starts at the id that the call
before it returned, and the last one returns 0. -/
inductive Sweep (env : Env) (caller : Address) (limit : Nat) :
    Nat → State → List SweepCall → State → Prop
  | last {startId : Nat} {s s' : State} {result : CleanExpiredResult}
      (hcall : cleanExpiredOrders env s caller startId limit (s.nonce.read caller) =
        .ok (result, s'))
      (hend : result.nextStartId = 0) : Sweep env caller limit startId s [⟨startId, result⟩] s'
  | more {startId : Nat} {s s' s'' : State} {result : CleanExpiredResult}
      {calls : List SweepCall}
      (hcall : cleanExpiredOrders env s caller startId limit (s.nonce.read caller) =
        .ok (result, s'))
      (hnext : result.nextStartId ≠ 0)
      (hrest : Sweep env caller limit result.nextStartId s' calls s'') :
      Sweep env caller limit startId s (⟨startId, result⟩ :: calls) s''

/-- The ids that the calls of a sweep over `count` orders scan, in order. -/
def scanned (count limit : Nat) (calls : List SweepCall) : List Nat :=
  calls.flatMap fun c => sweepWindow count c.startId limit

/-- The orders that the calls of a sweep report as cleaned. -/
def totalCleaned (calls : List SweepCall) : Nat := (calls.map fun c => c.result.cleaned).sum

/-- What a sweep from the start is for. -/
structure SweepComplete (env : Env) (caller : Address) (limit : Nat) (s : State)
    (calls : List SweepCall) (s' : State) : Prop where
  few : calls.length ≤ max 1 (s.orderCount ⌈/⌉ min limit MAX_CLEAN_BATCH)
  scans : scanned s.orderCount limit calls = List.range' 1 s.orderCount
  marks : ∀ id, s'.order.get id = (s.order.get id).map (Order.expireIfDue env)
  counts : totalCleaned calls = (s.dueOrders env).length
  again : ∃ calls' s'', Sweep env caller limit 0 s' calls' s'' ∧ totalCleaned calls' = 0

/-- A call changes the orders it scans, and neither the count nor the admin. -/
theorem cleanExpiredOrders_spec {env : Env} {s s' : State} {caller : Address}
    {startId limit nonce : Nat} {result : CleanExpiredResult}
    (h : cleanExpiredOrders env s caller startId limit nonce = .ok (result, s')) :
    result.nextStartId = sweepNext s.orderCount startId limit ∧
      s'.orderCount = s.orderCount ∧ s'.admin = s.admin ∧
      (∀ id, s'.order.get id = if id ∈ sweepWindow s.orderCount startId limit then
        (s.order.get id).map (Order.expireIfDue env) else s.order.get id) ∧
      result.cleaned = (sweepWindow s.orderCount startId limit).countP fun id => s.Due env id := by
  obtain ⟨-, -, -, -, hresult⟩ := cleanExpiredOrders_ok_iff.mp h
  have hnodup : (sweepWindow s.orderCount startId limit).Nodup := by
    unfold sweepWindow
    split
    · exact List.nodup_nil
    · exact List.nodup_range'
  obtain ⟨rfl, rfl⟩ := Prod.mk.inj hresult
  have hcleaned := sweepOrders_cleaned env (s.spendNonce caller) hnodup 0
  rw [Nat.zero_add] at hcleaned
  exact ⟨rfl, (sweepOrders_balance env _ _ 0).2, sweepOrders_admin env _ _ 0,
    sweepOrders_order env _ _ 0, hcleaned⟩

theorem mem_scanned_cons {count limit id : Nat} {c : SweepCall} {calls : List SweepCall} :
    id ∈ scanned count limit (c :: calls) ↔
      id ∈ sweepWindow count c.startId limit ∨ id ∈ scanned count limit calls := by
  simp [scanned]

/-- A sweep marks the due orders that it scans and leaves every other order alone. -/
theorem Sweep.order_get {env : Env} {caller : Address} {limit startId : Nat} {s s' : State}
    {calls : List SweepCall} (h : Sweep env caller limit startId s calls s') (id : Nat) :
    s'.order.get id = if id ∈ scanned s.orderCount limit calls then
      (s.order.get id).map (Order.expireIfDue env) else s.order.get id := by
  induction h with
  | last hcall =>
      obtain ⟨-, -, -, horder, -⟩ := cleanExpiredOrders_spec hcall
      rw [horder]
      simp [scanned]
  | @more startId s middle s'' result calls hcall hnext hrest ih =>
      obtain ⟨-, hcount, -, horder, -⟩ := cleanExpiredOrders_spec hcall
      rw [ih, horder, hcount]
      by_cases hlater : id ∈ scanned s.orderCount limit calls
      · rw [if_pos hlater, if_pos (mem_scanned_cons.mpr (Or.inr hlater))]
        split
        · exact map_expireIfDue_twice env _
        · rfl
      · rw [if_neg hlater]
        congr 1
        simp [mem_scanned_cons, hlater]

/-- A sweep that scans no id twice counts the due orders that it scans. -/
theorem Sweep.totalCleaned_eq {env : Env} {caller : Address} {limit startId : Nat} {s s' : State}
    {calls : List SweepCall} (h : Sweep env caller limit startId s calls s')
    (hnodup : (scanned s.orderCount limit calls).Nodup) :
    totalCleaned calls = (scanned s.orderCount limit calls).countP fun id => s.Due env id := by
  induction h with
  | last hcall =>
      obtain ⟨-, -, -, -, hcleaned⟩ := cleanExpiredOrders_spec hcall
      simpa [scanned, totalCleaned] using hcleaned
  | @more startId s middle s'' result calls hcall hnext hrest ih =>
      obtain ⟨-, hcount, -, horder, hcleaned⟩ := cleanExpiredOrders_spec hcall
      obtain ⟨-, hlater, hapart⟩ := List.nodup_append.mp hnodup
      change (scanned s.orderCount limit calls).Nodup at hlater
      rw [← hcount] at hlater
      -- the later calls scan ids that this one left alone
      have hsame : ∀ id ∈ scanned s.orderCount limit calls, middle.Due env id ↔ s.Due env id := by
        intro id hid
        have hfresh : id ∉ sweepWindow s.orderCount startId limit :=
          fun hmem => hapart id hmem id hid rfl
        unfold State.Due
        rw [horder, if_neg hfresh]
      have hrestCount : (scanned s.orderCount limit calls).countP (fun id => middle.Due env id) =
          (scanned s.orderCount limit calls).countP fun id => s.Due env id := by
        apply List.countP_congr
        intro id hid
        simpa using hsame id hid
      have hsplit : scanned s.orderCount limit (⟨startId, result⟩ :: calls) =
          sweepWindow s.orderCount startId limit ++ scanned s.orderCount limit calls := rfl
      have htotal : totalCleaned (⟨startId, result⟩ :: calls) =
          result.cleaned + totalCleaned calls := List.sum_cons
      rw [htotal, hsplit, List.countP_append, ih hlater, hcount, hrestCount, hcleaned]

/-- A whole sweep changes orders alone. -/
theorem Sweep.frame {env : Env} {caller : Address} {limit startId : Nat} {s s' : State}
    {calls : List SweepCall} (h : Sweep env caller limit startId s calls s') :
    s'.orderCount = s.orderCount ∧ s'.admin = s.admin := by
  induction h with
  | last hcall =>
      obtain ⟨-, hcount, hadmin, -, -⟩ := cleanExpiredOrders_spec hcall
      exact ⟨hcount, hadmin⟩
  | more hcall _ _ ih =>
      obtain ⟨-, hcount, hadmin, -, -⟩ := cleanExpiredOrders_spec hcall
      exact ⟨ih.1.trans hcount, ih.2.trans hadmin⟩

/-- With too many orders the id returned is never 0, so no sweep ends. -/
theorem not_sweep_of_le {env : Env} {caller : Address} {limit startId : Nat} {s s' : State}
    {calls : List SweepCall} (hcount : 2 ^ 64 - 1 ≤ s.orderCount)
    (hstart : sweepStart startId < 2 ^ 64) : ¬ Sweep env caller limit startId s calls s' := by
  have hreturned : ∀ {startId : Nat} {s : State}, 2 ^ 64 - 1 ≤ s.orderCount →
      sweepStart startId < 2 ^ 64 → sweepNext s.orderCount startId limit =
        sweepEnd s.orderCount startId limit + 1 := by
    intro startId s hcount hstart
    have hlast := sweepEnd_lt s.orderCount startId limit
    refine if_neg ?_
    omega
  intro h
  induction h with
  | last hcall hend =>
      have hnext := (cleanExpiredOrders_spec hcall).1
      rw [hend, hreturned hcount hstart] at hnext
      omega
  | @more startId s middle s'' result calls hcall hnext hrest ih =>
      obtain ⟨hresult, hkept, -⟩ := cleanExpiredOrders_spec hcall
      have hlast := sweepEnd_lt s.orderCount startId limit
      rw [hreturned hcount hstart] at hresult
      apply ih
      · rwa [hkept]
      · unfold sweepStart
        split <;> omega

/-- The call that scans a page. -/
theorem exists_call_of_page {env : Env} {caller : Address} {limit k startId : Nat} {s : State}
    (hauth : env.Authorizes caller) (hlimit : 0 < limit) (hadmin : s.admin = some caller)
    (hcount : s.orderCount < 2 ^ 64 - 1)
    (hstart : sweepStart startId = k * min limit MAX_CLEAN_BATCH + 1) :
    ∃ result s', cleanExpiredOrders env s caller startId limit (s.nonce.read caller) =
        .ok (result, s') ∧
      sweepWindow s.orderCount startId limit =
        Paging.page (min limit MAX_CLEAN_BATCH) s.orderCount k ∧
      result.nextStartId = (if s.orderCount ≤ (k + 1) * min limit MAX_CLEAN_BATCH then 0
        else (k + 1) * min limit MAX_CLEAN_BATCH + 1) ∧
      s'.orderCount = s.orderCount ∧ s'.admin = s.admin := by
  have hcall : cleanExpiredOrders env s caller startId limit (s.nonce.read caller) =
      .ok (sweepResult env (s.spendNonce caller) startId limit) :=
    cleanExpiredOrders_ok_iff.mpr ⟨hauth, rfl, hadmin, hlimit, rfl⟩
  obtain ⟨hnext, hkept, hsameAdmin, -, -⟩ := cleanExpiredOrders_spec hcall
  refine ⟨_, _, hcall, sweepWindow_eq hcount hstart, ?_, hkept, hsameAdmin⟩
  rw [hnext, sweepNext_eq hcount hstart]

/-- From the start of a page on, a sweep scans what is left. -/
theorem exists_sweep_from {env : Env} {caller : Address} {limit : Nat}
    (hauth : env.Authorizes caller) (hlimit : 0 < limit) {d k startId : Nat} {s : State}
    (hadmin : s.admin = some caller) (hcount : s.orderCount < 2 ^ 64 - 1)
    (hstart : sweepStart startId = k * min limit MAX_CLEAN_BATCH + 1)
    (hpages : max 1 (s.orderCount ⌈/⌉ min limit MAX_CLEAN_BATCH) = k + d + 1) :
    ∃ calls s', Sweep env caller limit startId s calls s' ∧ calls.length = d + 1 ∧
      scanned s.orderCount limit calls =
        Paging.rest (min limit MAX_CLEAN_BATCH) s.orderCount k := by
  have hbatch : 0 < min limit MAX_CLEAN_BATCH := by
    unfold MAX_CLEAN_BATCH
    omega
  induction d generalizing k startId s with
  | zero =>
      obtain ⟨result, s', hcall, hwindow, hnext, -⟩ :=
        exists_call_of_page hauth hlimit hadmin hcount hstart
      have hend : s.orderCount ≤ (k + 1) * min limit MAX_CLEAN_BATCH :=
        (Paging.ceilDiv_le_iff hbatch).mp (by omega)
      have hnone : Paging.rest (min limit MAX_CLEAN_BATCH) s.orderCount (k + 1) = [] :=
        Paging.rest_eq_nil_iff.mpr hend
      rw [if_pos hend] at hnext
      refine ⟨_, s', .last hcall hnext, rfl, ?_⟩
      rw [← Paging.page_append_rest, hnone, List.append_nil, ← hwindow]
      exact List.flatMap_singleton _ _
  | succ d ih =>
      obtain ⟨result, middle, hcall, hwindow, hnext, hkept, hsameAdmin⟩ :=
        exists_call_of_page hauth hlimit hadmin hcount hstart
      have hgoes : ¬ s.orderCount ≤ (k + 1) * min limit MAX_CLEAN_BATCH := by
        rw [← Paging.ceilDiv_le_iff hbatch]
        omega
      rw [if_neg hgoes] at hnext
      have hstart' : sweepStart result.nextStartId = (k + 1) * min limit MAX_CLEAN_BATCH + 1 := by
        rw [hnext]
        exact if_neg (Nat.succ_ne_zero _)
      obtain ⟨calls, s', hsweep, hlength, hscanned⟩ := ih (hsameAdmin.trans hadmin)
        (hkept ▸ hcount) hstart' (by rw [hkept]; omega)
      refine ⟨⟨startId, result⟩ :: calls, s', .more hcall (by omega) hsweep, by simp [hlength], ?_⟩
      rw [hkept] at hscanned
      rw [← Paging.page_append_rest, ← hwindow, ← hscanned]
      rfl

/-! ## When the sweep is complete -/

/-- Below the last count a sweep from the start scans every id once. -/
theorem exists_sweep {env : Env} {caller : Address} {limit : Nat} {s : State}
    (hauth : env.Authorizes caller) (hlimit : 0 < limit) (hadmin : s.admin = some caller)
    (hcount : s.orderCount < 2 ^ 64 - 1) :
    ∃ calls s', Sweep env caller limit 0 s calls s' ∧
      calls.length ≤ max 1 (s.orderCount ⌈/⌉ min limit MAX_CLEAN_BATCH) ∧
      scanned s.orderCount limit calls = List.range' 1 s.orderCount ∧
      s'.orderCount = s.orderCount ∧ s'.admin = s.admin := by
  obtain ⟨d, hpages⟩ : ∃ d, max 1 (s.orderCount ⌈/⌉ min limit MAX_CLEAN_BATCH) = 0 + d + 1 :=
    ⟨max 1 (s.orderCount ⌈/⌉ min limit MAX_CLEAN_BATCH) - 1, by omega⟩
  have hstart : sweepStart 0 = 0 * min limit MAX_CLEAN_BATCH + 1 := by simp [sweepStart]
  obtain ⟨calls, s', hsweep, hlength, hscanned⟩ :=
    exists_sweep_from hauth hlimit hadmin hcount hstart hpages
  rw [Paging.rest_zero] at hscanned
  exact ⟨calls, s', hsweep, by omega, hscanned, hsweep.frame⟩

/-- The due orders are those among the ids given out, if none is due elsewhere. -/
theorem length_dueOrders {s : State} {env : Env}
    (hdue : ∀ id, s.Due env id → 1 ≤ id ∧ id ≤ s.orderCount) :
    (s.dueOrders env).length =
      (List.range' 1 s.orderCount).countP fun id => s.Due env id := by
  rw [List.countP_eq_length_filter]
  apply List.Perm.length_eq
  unfold State.dueOrders
  rw [List.perm_ext_iff_of_nodup (s.order.keys_nodup.filter _)
    (List.Nodup.filter _ List.nodup_range')]
  intro id
  simp only [List.mem_filter, decide_eq_true_eq, List.mem_range'_1]
  constructor
  · intro h
    have hid := hdue id h.2
    exact ⟨by omega, h.2⟩
  · intro h
    obtain ⟨order, hget, -⟩ := h.2
    exact ⟨AList.lookup_isSome.mp (Option.isSome_of_mem hget), h.2⟩

/-- After a complete pass no order is due. -/
theorem not_due_of_marks {s s' : State} {env : Env}
    (hmarks : ∀ id, s'.order.get id = (s.order.get id).map (Order.expireIfDue env)) (id : Nat) :
    ¬ s'.Due env id := by
  intro hdue
  obtain ⟨order, hget, hsweep⟩ := hdue
  rw [hmarks, Option.mem_map] at hget
  obtain ⟨old, -, rfl⟩ := hget
  exact not_sweepable_expireIfDue env old hsweep

/-- Below the last count, with no due order outside the ids given out, a sweep
is complete. -/
theorem exists_sweepComplete {env : Env} {caller : Address} {limit : Nat} {s : State}
    (hauth : env.Authorizes caller) (hlimit : 0 < limit) (hadmin : s.admin = some caller)
    (hcount : s.orderCount < 2 ^ 64 - 1)
    (hdue : ∀ id, s.Due env id → 1 ≤ id ∧ id ≤ s.orderCount) :
    ∃ calls s', Sweep env caller limit 0 s calls s' ∧
      SweepComplete env caller limit s calls s' := by
  obtain ⟨calls, s', hsweep, hfew, hscans, hcount', hadmin'⟩ :=
    exists_sweep hauth hlimit hadmin hcount
  have hnodup : (scanned s.orderCount limit calls).Nodup := hscans ▸ List.nodup_range'
  have hmarks : ∀ id, s'.order.get id = (s.order.get id).map (Order.expireIfDue env) := by
    intro id
    rw [hsweep.order_get, hscans]
    split
    · rfl
    · next hout =>
        -- an order outside the range is not due, so marking would not change it
        cases hget : s.order.get id with
        | none => rfl
        | some order =>
            have hkept : ¬ order.sweepable env := by
              intro hsweepable
              have hid := hdue id ⟨order, hget, hsweepable⟩
              exact hout (List.mem_range'_1.mpr (by omega))
            exact congrArg some (if_neg hkept).symm
  refine ⟨calls, s', hsweep, hfew, hscans, hmarks, ?_, ?_⟩
  · rw [hsweep.totalCleaned_eq hnodup, hscans, length_dueOrders hdue]
  · obtain ⟨calls', s'', hagain, -, hscans', -⟩ :=
      exists_sweep hauth hlimit (hadmin'.trans hadmin) (hcount' ▸ hcount)
    refine ⟨calls', s'', hagain, ?_⟩
    rw [hagain.totalCleaned_eq (hscans' ▸ List.nodup_range'), List.countP_eq_zero]
    intro id _
    simpa using not_due_of_marks hmarks id

/-- **When the sweep is complete.**  An authorised admin who sweeps from id 0
with a positive limit gets to the end in at most one call a page, scans every id
once, marks exactly the due orders and finds none the next time, if and only if
there are fewer than `2 ^ 64 - 1` orders and no due order is stored outside the
ids given out. -/
theorem sweep_complete_iff {env : Env} {caller : Address} {limit : Nat} {s : State}
    (hauth : env.Authorizes caller) (hadmin : s.admin = some caller) (hlimit : 0 < limit) :
    (∃ calls s', Sweep env caller limit 0 s calls s' ∧ SweepComplete env caller limit s calls s') ↔
      s.orderCount < 2 ^ 64 - 1 ∧ ∀ id, s.Due env id → 1 ≤ id ∧ id ≤ s.orderCount := by
  constructor
  · intro h
    obtain ⟨calls, s', hsweep, hcomplete⟩ := h
    constructor
    · by_contra hmany
      exact not_sweep_of_le (Nat.le_of_not_lt hmany) (by decide) hsweep
    · intro id hdue
      obtain ⟨order, hget, hsweepable⟩ := hdue
      have hget : s.order.get id = some order := hget
      have hmarked : order.expireIfDue env = { order with status := .expired } :=
        if_pos hsweepable
      by_contra hout
      have hkept := hsweep.order_get id
      have hfresh : id ∉ scanned s.orderCount limit calls := by
        rw [hcomplete.scans, List.mem_range'_1]
        omega
      rw [if_neg hfresh, hcomplete.marks, hget, Option.map_some, hmarked] at hkept
      -- the sweep left a live order as it was, and marked it
      have hlive := hsweepable.1
      rw [← Option.some.inj hkept] at hlive
      simp [Order.Live] at hlive
  · intro h
    exact exists_sweepComplete hauth hlimit hadmin h.1 h.2

/-! ## Reachable states -/

/-- There is no order with the number 0. -/
theorem order_zero_run (admin bondIssuerAddress : Address) (calls : List Tx) :
    (machine.run (constructor admin bondIssuerAddress) calls).order.get 0 = none := by
  have hinvariant := machine.invariant (P := fun s log => OrderBook s log ∧ s.order.get 0 = none)
    ⟨orderBook_constructor admin bondIssuerAddress, by simp [constructor]⟩
    (fun log e hfires hs => ⟨hs.1.fires hfires, ?_⟩) calls
  · exact hinvariant.2
  · obtain ⟨s, ⟨env, issuers, call⟩, out, s'⟩ := e
    have hstep : RouterStep env s s' call out := routerStep_of_fires hfires
    have hbefore : s.order.get 0 = none := hs.2
    cases hafter : s'.order.get 0 with
    | none => rfl
    | some order =>
        obtain ⟨hlisting, -⟩ := listed_of_routerStep issuers hstep hbefore hafter
        cases hstep <;> simp [LogEntry.listingOf] at hlisting

/-- In every run the due orders are among the ids given out. -/
theorem due_listed_run (admin bondIssuerAddress : Address) (calls : List Tx) (env : Env)
    (id : Nat) (hdue : (machine.run (constructor admin bondIssuerAddress) calls).Due env id) :
    1 ≤ id ∧ id ≤ (machine.run (constructor admin bondIssuerAddress) calls).orderCount := by
  obtain ⟨order, hget, -⟩ := hdue
  have hget : (machine.run (constructor admin bondIssuerAddress) calls).order.get id =
      some order := hget
  refine ⟨?_, (orderBook_run admin bondIssuerAddress calls).le_orderCount hget⟩
  by_contra hzero
  obtain rfl : id = 0 := by omega
  rw [order_zero_run] at hget
  cases hget

/-- A sweep in a state reached by a run ends and is complete as long as the
last order id is not given out. -/
theorem sweep_complete_run (admin bondIssuerAddress : Address) (calls : List Tx) {env : Env}
    {caller : Address} {limit : Nat} (hauth : env.Authorizes caller) (hlimit : 0 < limit)
    (hadmin : (machine.run (constructor admin bondIssuerAddress) calls).admin = some caller)
    (hcount : (machine.run (constructor admin bondIssuerAddress) calls).orderCount < 2 ^ 64 - 1) :
    ∃ sweep s', Sweep env caller limit 0
        (machine.run (constructor admin bondIssuerAddress) calls) sweep s' ∧
      SweepComplete env caller limit (machine.run (constructor admin bondIssuerAddress) calls)
        sweep s' :=
  exists_sweepComplete hauth hlimit hadmin hcount
    (due_listed_run admin bondIssuerAddress calls env)

/-- Account 1 lists one token of bond 1, time after time. -/
def tokenListings (n : Nat) : List Tx :=
  (List.range n).map fun nonce => tokenTx 3 [1] (.listBondTokens 1 1 1 5 "USDC" 10 nonce)

/-- What the next listing of account 1 does. -/
theorem listBondTokens_again {s : State} {n : Nat} (hissuer : s.bondIssuerAddress = some 9)
    (hnonce : s.nonce.read 1 = n) (hescrow : s.bondEscrow.read (1, 1) = n) (hn : n + 1 < 2 ^ 127) :
    ∃ s', listBondTokens (tokenTx 3 [1] (.setAdmin 1 1)).env (fun _ => some tokenIssuer) s 1 1 1 5
        "USDC" 10 n = .ok (s.orderCount + 1, s') ∧
      s'.orderCount = s.orderCount + 1 ∧ s'.admin = s.admin ∧ s'.bondIssuerAddress = some 9 ∧
      s'.nonce.read 1 = n + 1 ∧ s'.bondEscrow.read (1, 1) = n + 1 := by
  have hsum : s.bondEscrow.read (1, 1) + 1 = (n : Int) + 1 := by rw [hescrow]
  have hfits : i128.Fits (s.bondEscrow.read (1, 1) + 1) := by
    rw [hsum]
    constructor <;> simp only [i128] <;> omega
  have hholder : (1 : Int) ≤ BondIssuer.getHolderBalance tokenIssuer 1 1 := by decide
  simp only [listBondTokens, consumeNonce, bind_ok_iff, pure_ok_iff, okOr_ok_iff,
    rejectIf_ok_iff, verifyHolderBalance_ok_iff, checkedAdd, checked_eq_some,
    checkedAddNat_eq_some, Prod.mk.injEq, Env.requireAuth_ok_iff, useNonce_ok_iff]
  refine ⟨_, ⟨(), by decide, _, ⟨_, ⟨hnonce.symm, rfl⟩, rfl⟩, (), by decide, (), by decide, (),
    ⟨9, tokenIssuer, hissuer, rfl, hholder⟩, _, ⟨hfits, hsum⟩, _, ⟨by decide, rfl⟩, rfl, rfl⟩,
    rfl, rfl, hissuer, ?_, ?_⟩
  · simp [hnonce]
  · simp

/-- A run that lists as many orders as it likes. -/
theorem tokenListings_run {n : Nat} (hn : n < 2 ^ 127) :
    (machine.run (constructor 1 9) (tokenListings n)).orderCount = n ∧
      (machine.run (constructor 1 9) (tokenListings n)).admin = some 1 ∧
      (machine.run (constructor 1 9) (tokenListings n)).bondIssuerAddress = some 9 ∧
      (machine.run (constructor 1 9) (tokenListings n)).nonce.read 1 = n ∧
      (machine.run (constructor 1 9) (tokenListings n)).bondEscrow.read (1, 1) = n := by
  induction n with
  | zero => decide
  | succ n ih =>
      obtain ⟨hcount, hadmin, hissuer, hnonce, hescrow⟩ := ih (by omega)
      obtain ⟨s', hlist, hcount', hadmin', hissuer', hnonce', hescrow'⟩ :=
        listBondTokens_again hissuer hnonce hescrow hn
      have hsplit : tokenListings (n + 1) =
          tokenListings n ++ [tokenTx 3 [1] (.listBondTokens 1 1 1 5 "USDC" 10 n)] := by
        simp [tokenListings, List.range_succ]
      have hcall : machine.call (machine.run (constructor 1 9) (tokenListings n))
          (tokenTx 3 [1] (.listBondTokens 1 1 1 5 "USDC" 10 n)) =
            .ok (.orderId (n + 1), s') := by
        rw [hcount] at hlist
        simp only [machine, exec, tokenTx, bind_ok_iff, pure_ok_iff, Prod.exists, Prod.mk.injEq]
        exact ⟨_, none, s', ⟨_, s', hlist, rfl, rfl, rfl⟩, rfl, rfl⟩
      have hstep : machine.run (constructor 1 9) (tokenListings (n + 1)) = s' := by
        rw [hsplit, machine.run_snoc, Machine.step, hcall]
      rw [hstep]
      exact ⟨hcount'.trans (by rw [hcount]), hadmin'.trans hadmin, hissuer', hnonce',
        by rw [hescrow']; push_cast; rfl⟩

/-- A sweep of an order that was bought in part. -/
theorem sweep_complete_iff_sample :
    ∃ calls s', Sweep ⟨20, [0], none, 9, false⟩ 0 1 0 (machine.run (constructor 0 9) partlyBought)
        calls s' ∧
      SweepComplete ⟨20, [0], none, 9, false⟩ 0 1 (machine.run (constructor 0 9) partlyBought)
        calls s' :=
  (sweep_complete_iff (by decide) (by decide +kernel) (by decide)).mpr
    ⟨by decide +kernel, due_listed_run 0 9 partlyBought _⟩

/-- After `2 ^ 64 - 1` listings the sweep never ends. -/
theorem sweep_never_ends :
    (machine.run (constructor 1 9) (tokenListings (2 ^ 64 - 1))).orderCount = 2 ^ 64 - 1 ∧
      (machine.run (constructor 1 9) (tokenListings (2 ^ 64 - 1))).admin = some 1 ∧
      ¬ ∃ calls s', Sweep ⟨20, [1], none, 9, false⟩ 1 100 0
        (machine.run (constructor 1 9) (tokenListings (2 ^ 64 - 1))) calls s' := by
  obtain ⟨hcount, hadmin, -⟩ := tokenListings_run (n := 2 ^ 64 - 1) (by decide)
  refine ⟨hcount, hadmin, fun h => ?_⟩
  obtain ⟨calls, s', hsweep⟩ := h
  exact not_sweep_of_le hcount.ge (by decide) hsweep

end EcoMint.DexRouter
