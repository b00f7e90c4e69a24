import EcoMint.OrderSweep

/-!
# The scheduler of the expired-order sweep

Every hour the API sweeps expired orders in batches.  `DexScheduler` keeps the
order id to go on from in Redis, and each tick submits a bounded number of
batches from there.  What a batch returns is read off a simulation: the
transaction itself is only accepted by the RPC server and may be applied later,
at another state of the ledger, or never.  Between any two steps other accounts
call the router, ticks may overlap, a tick may break off anywhere, and Redis may
lose a read or a write.

The cursor therefore does not say that the orders below it were swept.  It says
that their batches were submitted: whenever a tick reaches the end, every order
that was due when the scheduler last stood at the start is marked, or lies in a
batch that was accepted and not applied.
-/

namespace EcoMint.DexScheduler

open DexRouter Fallible

/-- The orders that a batch looks at, unless the environment says otherwise. -/
def DEFAULT_BATCH_SIZE : Nat := 50

/-- The batches of a run, unless the environment says otherwise. -/
def DEFAULT_MAX_BATCHES_PER_RUN : Nat := 20

/-- The account the API signs with, `DEX_CLEAN_BATCH_SIZE` and
`DEX_CLEAN_MAX_BATCHES`. -/
structure Config where
  admin : Address
  batchSize : Nat := DEFAULT_BATCH_SIZE
  maxBatches : Nat := DEFAULT_MAX_BATCHES_PER_RUN

/-- A tick between two batches. -/
structure Tick where
  startId : Nat
  batches : Nat
deriving DecidableEq

/-- A batch that the RPC server accepted, with the order ids its simulation
scanned. -/
structure Submission where
  startId : Nat
  nonce : Nat
  scanned : List Nat
deriving DecidableEq

/-- The router's storage, the cursor in Redis, the ticks under way, and the
submissions that are not applied yet and that never will be. -/
structure World where
  router : State
  cursor : Option Nat
  ticks : List Tick
  pending : List Submission
  failed : List Submission

/-- One step of anyone. -/
inductive Action
  /-- someone calls the router -/
  | router (tx : DexRouter.Tx)
  /-- a tick starts; Redis may not answer -/
  | begin (readable : Bool)
  /-- a tick simulates and submits its next batch; the answer of the RPC server
  and the new cursor may get lost -/
  | batch (tick : Nat) (env : Env) (nonce : Nat) (answered stored : Bool)
  /-- a tick breaks off -/
  | abort (tick : Nat)
  /-- the ledger takes up a submission -/
  | apply (submission : Nat) (env : Env)
  /-- a submission expires -/
  | drop (submission : Nat)

/-- What a step achieves: a tick got further, got to the end, or neither. -/
inductive Outcome
  | idle
  | advanced
  | completed
deriving DecidableEq

/-- Where a tick starts: at the cursor, or at 1 without one. -/
def resumeAt (cursor : Option Nat) : Nat :=
  let startId := cursor.getD 1
  if startId < 1 then 1 else startId

/-- `await redis.set(CURSOR_KEY, …)`, unless Redis loses it. -/
def World.store (w : World) (stored : Bool) (startId : Nat) : World :=
  if stored then { w with cursor := some startId } else w

/-- What a batch submits. -/
def submissionOf (cfg : Config) (w : World) (tick : Tick) (nonce : Nat) : Submission :=
  ⟨tick.startId, nonce, sweepWindow w.router.orderCount tick.startId cfg.batchSize⟩

/-- One round of the loop in `cleanExpiredOrders`: a failure ends the tick, and
so does the last batch it may submit. -/
def batchStep (cfg : Config) (w : World) (i : Nat) (tick : Tick) (env : Env) (nonce : Nat)
    (answered stored : Bool) : Outcome × World :=
  let ended := { w with ticks := w.ticks.eraseIdx i }
  if tick.batches < cfg.maxBatches then
    match cleanExpiredOrders env w.router cfg.admin tick.startId cfg.batchSize nonce with
    | .error _ => (.idle, ended)
    | .ok (result, _) =>
        let pending := w.pending ++ [submissionOf cfg w tick nonce]
        if answered = false then (.idle, { ended with pending })
        else if result.nextStartId = 0 then
          (.completed, { ended with pending }.store stored 1)
        else
          let ticks := w.ticks.set i ⟨result.nextStartId, tick.batches + 1⟩
          (.advanced, { w with pending, ticks }.store stored result.nextStartId)
  else (.idle, ended)

/-- The ledger takes up an accepted batch, which may fail there. -/
def applyStep (cfg : Config) (w : World) (i : Nat) (submission : Submission) (env : Env) : World :=
  let pending := w.pending.eraseIdx i
  match cleanExpiredOrders env w.router cfg.admin submission.startId cfg.batchSize
      submission.nonce with
  | .ok (_, router) => { w with router, pending }
  | .error _ => { w with pending, failed := w.failed ++ [submission] }

/-- One step.  It does not apply when it names a tick or a submission that is
not there, or a call that the router refuses. -/
def call (cfg : Config) (w : World) : Action → Except Unit (Outcome × World)
  | .router tx =>
      match machine.call w.router tx with
      | .ok (_, router) => .ok (.idle, { w with router })
      | .error _ => .error ()
  | .begin readable =>
      let cursor := if readable then w.cursor else none
      .ok (.idle, { w with ticks := w.ticks ++ [⟨resumeAt cursor, 0⟩] })
  | .batch i env nonce answered stored =>
      match w.ticks[i]? with
      | some tick => .ok (batchStep cfg w i tick env nonce answered stored)
      | none => .error ()
  | .abort i => .ok (.idle, { w with ticks := w.ticks.eraseIdx i })
  | .apply i env =>
      match w.pending[i]? with
      | some submission => .ok (.idle, applyStep cfg w i submission env)
      | none => .error ()
  | .drop i =>
      match w.pending[i]? with
      | some submission =>
          .ok (.idle, { w with
            pending := w.pending.eraseIdx i
            failed := w.failed ++ [submission] })
      | none => .error ()

/-- The scheduler, the ledger and everyone else. -/
def scheduler (cfg : Config) : Machine World Action Outcome Unit := ⟨call cfg⟩

/-- A step that took place, with the worlds around it. -/
abbrev LogEntry := Event World Action Outcome

/-- A step does not happen before a time. -/
def Action.NotBefore (now : Nat) : Action → Prop
  | .router tx => now ≤ tx.env.timestamp
  | .batch _ env _ _ _ => now ≤ env.timestamp
  | .apply _ env => now ≤ env.timestamp
  | .begin _ | .abort _ | .drop _ => True

/-! ## What is due only goes away -/

/-- The router was set up and called. -/
def Reached (s : State) : Prop :=
  ∃ admin bondIssuerAddress calls, s = machine.run (constructor admin bondIssuerAddress) calls

/-- A call of the router reaches a state from a reached one. -/
theorem Reached.fires {e : DexRouter.LogEntry} (hs : Reached e.before)
    (hfires : machine.Fires e) : Reached e.after := by
  obtain ⟨admin, bondIssuerAddress, calls, hrun⟩ := hs
  refine ⟨admin, bondIssuerAddress, calls ++ [e.input], ?_⟩
  rw [Machine.run_snoc, ← hrun, Machine.step, hfires]

/-- No order of a reached router has a number that is not given out. -/
theorem Reached.le_orderCount {s : State} (hs : Reached s) {id : Nat} {order : Order}
    (hget : s.order.get id = some order) : id ≤ s.orderCount := by
  obtain ⟨admin, bondIssuerAddress, calls, rfl⟩ := hs
  exact (orderBook_run admin bondIssuerAddress calls).le_orderCount hget

/-- An order that is due has a number that is given out. -/
theorem Reached.one_le {s : State} (hs : Reached s) {env : Env} {id : Nat}
    (hdue : s.Due env id) : 1 ≤ id ∧ id ≤ s.orderCount := by
  obtain ⟨admin, bondIssuerAddress, calls, rfl⟩ := hs
  exact due_listed_run admin bondIssuerAddress calls env id hdue

/-- A new order is not expired. -/
theorem listed_unexpired {env : Env} {issuers : Issuers} {s s' : State} {seller : Address}
    {bondId : Nat} {amount pricePerToken : Int} {quoteAsset : Symbol}
    {expiresAfterSeconds nonce id orderId : Nat} {order : Order}
    (h : listBondTokens env issuers s seller bondId amount pricePerToken quoteAsset
      expiresAfterSeconds nonce = .ok (orderId, s'))
    (hbefore : s.order.get id = none) (hafter : s'.order.get id = some order) :
    env.timestamp < order.expiresAt := by
  simp only [listBondTokens, consumeNonce, bind_ok_iff, pure_ok_iff, okOr_ok_iff,
    rejectIf_ok_iff, IntRange.checkedAddNat_eq_some, Prod.mk.injEq] at h
  obtain ⟨_, -, _, ⟨_, -, rfl⟩, _, -, _, hseconds, _, -, _, -, expiresAt, ⟨-, rfl⟩, -, rfl⟩ := h
  dsimp only at hafter
  rw [Storage.get_set] at hafter
  split at hafter
  · obtain rfl := Option.some.inj hafter
    exact Nat.lt_add_of_pos_right (Nat.pos_of_ne_zero hseconds)
  · rw [hbefore] at hafter
    cases hafter

/-- No call makes an order due that was not due before, at times gone by. -/
theorem due_of_fires {e : DexRouter.LogEntry} (hs : Reached e.before) (hfires : machine.Fires e)
    {env : Env} (htime : env.timestamp ≤ e.input.env.timestamp) {id : Nat}
    (hdue : e.after.Due env id) : e.before.Due env id := by
  obtain ⟨s, ⟨now, issuers, call⟩, out, s'⟩ := e
  have hstep : RouterStep now s s' call out := routerStep_of_fires hfires
  have htime : env.timestamp ≤ now.timestamp := htime
  obtain ⟨order', hget', hlive, hexpired⟩ := hdue
  have hget' : s'.order.get id = some order' := hget'
  have hexpired : order'.expiresAt ≤ env.timestamp := hexpired
  cases hget : s.order.get id with
  | some order =>
      obtain ⟨order'', hget'', hmove⟩ := orderMove_of_routerStep hstep hget (hs.le_orderCount hget)
      obtain rfl := Option.some.inj (hget'.symm.trans hget'')
      have hsame := hmove.expiresAt_eq
      cases hmove with
      | kept hfill => exact ⟨_, hget, hlive, hexpired⟩
      | cancelled hfill _ => exact absurd hlive (by simp [Order.Live])
      | expired hfill _ => exact absurd hlive (by simp [Order.Live])
      | filled amount hfill _ hpos hle hunexpired => omega
  | none =>
      obtain ⟨hlisting, -⟩ := listed_of_routerStep issuers hstep hget hget'
      cases call with
      | listBondTokens seller bondId amount pricePerToken quoteAsset expiresAfterSeconds nonce =>
          simp only [Machine.Fires, machine, exec, bind_ok_iff, pure_ok_iff, Prod.mk.injEq,
            Prod.exists] at hfires
          obtain ⟨_, _, s'', ⟨orderId, _, hlist, -, -, rfl⟩, -, rfl⟩ := hfires
          have hunexpired := listed_unexpired hlist hget hget'
          omega
      | _ => cases hlisting

/-! ## Sweeping is a call of the router -/

/-- A sweep that succeeds is a call of the router. -/
theorem fires_of_clean {env : Env} {s s' : State} {caller : Address} {startId limit nonce : Nat}
    {result : CleanExpiredResult}
    (h : cleanExpiredOrders env s caller startId limit nonce = .ok (result, s')) :
    machine.Fires ⟨s, ⟨env, fun _ => none, .cleanExpiredOrders caller startId limit nonce⟩,
      .cleaned result, s'⟩ := by
  simp [Machine.Fires, machine, exec, h]

/-- What a sweep scanned is not due any more. -/
theorem not_due_of_clean {now env : Env} {s s' : State} {caller : Address}
    {startId limit nonce : Nat} {result : CleanExpiredResult}
    (h : cleanExpiredOrders now s caller startId limit nonce = .ok (result, s'))
    (htime : env.timestamp ≤ now.timestamp) {id : Nat}
    (hid : id ∈ sweepWindow s.orderCount startId limit) : ¬ s'.Due env id := by
  obtain ⟨-, -, -, horder, -⟩ := cleanExpiredOrders_spec h
  intro hdue
  obtain ⟨order', hget', hlive, hexpired⟩ := hdue
  rw [horder, if_pos hid] at hget'
  obtain ⟨order, -, rfl⟩ := Option.mem_map.mp hget'
  have hsame : (order.expireIfDue now).expiresAt = order.expiresAt := by
    unfold Order.expireIfDue
    split <;> rfl
  have hexpired' : isOrderExpired now (order.expireIfDue now) := Nat.le_trans hexpired htime
  exact not_sweepable_expireIfDue now order ⟨hlive, hexpired'⟩

/-- A window only grows as orders are listed. -/
theorem sweepWindow_mono {count count' startId limit id : Nat} (hcount : count ≤ count')
    (hid : id ∈ sweepWindow count startId limit) : id ∈ sweepWindow count' startId limit := by
  unfold sweepWindow at *
  split at hid
  · cases hid
  · next hsome =>
      rw [if_neg (by omega)]
      simp only [List.mem_range'_1, sweepEnd] at hid ⊢
      omega

/-- What a batch scans, up to where the next one starts. -/
theorem mem_sweepWindow_of_lt_next {count startId limit id : Nat} (hone : 1 ≤ id)
    (hid : startId ≤ id) (hle : id ≤ count)
    (hnext : sweepNext count startId limit ≠ 0 → id < sweepNext count startId limit) :
    id ∈ sweepWindow count startId limit := by
  have hstart : sweepStart startId ≤ id := by
    unfold sweepStart
    split <;> omega
  unfold sweepWindow
  rw [if_neg (by omega), List.mem_range'_1]
  unfold sweepNext at hnext
  split at hnext
  · omega
  · have hlt := hnext (by omega)
    omega

/-! ## What the cursor stands for -/

/-- The order is in a batch that was accepted and is not applied. -/
def World.Outstanding (w : World) (id : Nat) : Prop :=
  ∃ submission ∈ w.pending ++ w.failed, id ∈ submission.scanned

/-- Below a position every due order is in a batch that was accepted and is not
applied. -/
def World.Covered (w : World) (env : Env) (position : Nat) : Prop :=
  ∀ id, id < position → w.router.Due env id → w.Outstanding id

/-- From one world to the next nothing becomes due, and what is due stays in its
batch. -/
structure World.Continues (env : Env) (w w' : World) : Prop where
  due : ∀ id, w'.router.Due env id → w.router.Due env id
  outstanding : ∀ id, w'.router.Due env id → w.Outstanding id → w'.Outstanding id

/-- What is covered stays so where the world continues. -/
theorem World.Covered.continue {env : Env} {w w' : World} {position : Nat}
    (hs : w.Covered env position) (h : w.Continues env w') : w'.Covered env position := by
  intro id hid hdue
  exact h.outstanding id hdue (hs id hid (h.due id hdue))

/-- More submissions and nothing else. -/
theorem World.Continues.of_submissions {env : Env} {w w' : World} (hrouter : w'.router = w.router)
    (hsubmitted : ∀ submission ∈ w.pending ++ w.failed, submission ∈ w'.pending ++ w'.failed) :
    w.Continues env w' where
  due id hdue := hrouter ▸ hdue
  outstanding id _ h := by
    obtain ⟨submission, hmem, hid⟩ := h
    exact ⟨submission, hsubmitted submission hmem, hid⟩

/-- What the scheduler keeps while it passes over the orders: every position from
which it may go on is covered, and a submission scans at least what its simulation
scanned. -/
structure PassInvariant (cfg : Config) (env : Env) (w : World) : Prop where
  reached : Reached w.router
  cursor : w.Covered env (resumeAt w.cursor)
  ticks : ∀ tick ∈ w.ticks, w.Covered env tick.startId
  windows : ∀ submission ∈ w.pending, ∀ id ∈ submission.scanned,
    id ∈ sweepWindow w.router.orderCount submission.startId cfg.batchSize

/-- The first position is covered: no order has the id 0. -/
theorem covered_one {env : Env} {w : World} (hs : Reached w.router) {position : Nat}
    (hposition : position ≤ 1) : w.Covered env position := by
  intro id hid hdue
  have hone := (hs.one_le hdue).1
  omega

/-- A pass from the first order covers nothing yet. -/
theorem covered_resumeAt_none {env : Env} {w : World} (hs : Reached w.router) :
    w.Covered env (resumeAt none) :=
  covered_one hs (Nat.le_refl 1)

/-- A world that goes on from the positions of the one before. -/
theorem PassInvariant.continue {cfg : Config} {env : Env} {w w' : World}
    (hs : PassInvariant cfg env w) (h : w.Continues env w') (hreached : Reached w'.router)
    (hcount : w.router.orderCount ≤ w'.router.orderCount)
    (hcursor : w'.cursor = w.cursor) (hticks : ∀ tick ∈ w'.ticks, tick ∈ w.ticks)
    (hpending : ∀ submission ∈ w'.pending, submission ∈ w.pending) : PassInvariant cfg env w' where
  reached := hreached
  cursor := hcursor ▸ hs.cursor.continue h
  ticks tick htick := (hs.ticks tick (hticks tick htick)).continue h
  windows submission hsubmission id hid :=
    sweepWindow_mono hcount (hs.windows submission (hpending submission hsubmission) id hid)

/-- Where a batch was submitted, everything below the next batch is covered, and
at the end everything is. -/
theorem covered_of_batch {cfg : Config} {env now : Env} {w : World} {tick : Tick} {nonce : Nat}
    {result : CleanExpiredResult} {router : State} (hs : PassInvariant cfg env w)
    (htick : tick ∈ w.ticks)
    (hclean : cleanExpiredOrders now w.router cfg.admin tick.startId cfg.batchSize nonce =
      .ok (result, router)) {w' : World} (hrouter : w'.router = w.router)
    (hpending : w'.pending = w.pending ++ [submissionOf cfg w tick nonce])
    (hfailed : w'.failed = w.failed) {position : Nat}
    (hposition : result.nextStartId ≠ 0 → position ≤ result.nextStartId) :
    w'.Covered env position := by
  obtain ⟨hnext, -⟩ := cleanExpiredOrders_spec hclean
  have hcontinues : w.Continues env w' := by
    apply World.Continues.of_submissions hrouter
    intro submission hmem
    rw [hpending, hfailed]
    simp only [List.mem_append] at hmem ⊢
    exact hmem.imp_left Or.inl
  intro id hid hdue
  rw [hrouter] at hdue
  by_cases hbelow : id < tick.startId
  · exact (hs.ticks tick htick).continue hcontinues id hbelow (hrouter ▸ hdue)
  · obtain ⟨hone, hle⟩ := hs.reached.one_le hdue
    have hscanned : id ∈ sweepWindow w.router.orderCount tick.startId cfg.batchSize := by
      apply mem_sweepWindow_of_lt_next hone (Nat.le_of_not_lt hbelow) hle
      intro hmore
      rw [hnext] at hposition
      exact Nat.lt_of_lt_of_le hid (hposition hmore)
    have hmem : submissionOf cfg w tick nonce ∈ w'.pending ++ w'.failed := by
      simp [hpending]
    exact ⟨submissionOf cfg w tick nonce, hmem, hscanned⟩

/-- A world that goes on from covered positions, with one more submission. -/
theorem PassInvariant.submit {cfg : Config} {env : Env} {w : World} {tick : Tick} {nonce : Nat}
    (hs : PassInvariant cfg env w) (w' : World) (hrouter : w'.router = w.router)
    (hpending : w'.pending = w.pending ++ [submissionOf cfg w tick nonce])
    (hfailed : w'.failed = w.failed) (hcursor : w'.cursor = w.cursor ∨ w'.Covered env (resumeAt w'.cursor))
    (hticks : ∀ other ∈ w'.ticks, other ∈ w.ticks ∨ w'.Covered env other.startId) :
    PassInvariant cfg env w' ∧ w.Continues env w' := by
  have hcontinues : w.Continues env w' := by
    apply World.Continues.of_submissions hrouter
    intro old hmem
    rw [hpending, hfailed]
    simp only [List.mem_append] at hmem ⊢
    exact hmem.imp_left Or.inl
  refine ⟨?_, hcontinues⟩
  constructor
  case reached => exact hrouter ▸ hs.reached
  case cursor =>
    rcases hcursor with hsame | hcovered
    · exact hsame ▸ hs.cursor.continue hcontinues
    · exact hcovered
  case ticks =>
    intro other hother
    rcases hticks other hother with hold | hcovered
    · exact (hs.ticks other hold).continue hcontinues
    · exact hcovered
  case windows =>
    intro old hold id hid
    rw [hpending, List.mem_append, List.mem_singleton] at hold
    rw [hrouter]
    rcases hold with hold | rfl
    · exact hs.windows old hold id hid
    · exact hid

/-- A tick that ends leaves everything else. -/
theorem PassInvariant.end {cfg : Config} {env : Env} {w : World} (hs : PassInvariant cfg env w)
    (i : Nat) : PassInvariant cfg env { w with ticks := w.ticks.eraseIdx i } ∧
      w.Continues env { w with ticks := w.ticks.eraseIdx i } := by
  have hcontinues : w.Continues env { w with ticks := w.ticks.eraseIdx i } :=
    .of_submissions rfl fun submission hmem => hmem
  exact ⟨hs.continue hcontinues hs.reached (Nat.le_refl _) rfl
    (fun tick htick => List.mem_of_mem_eraseIdx htick) (fun submission hmem => hmem), hcontinues⟩

@[simp] theorem store_router (w : World) (stored : Bool) (startId : Nat) :
    (w.store stored startId).router = w.router := by
  cases stored <;> rfl

@[simp] theorem store_ticks (w : World) (stored : Bool) (startId : Nat) :
    (w.store stored startId).ticks = w.ticks := by
  cases stored <;> rfl

@[simp] theorem store_pending (w : World) (stored : Bool) (startId : Nat) :
    (w.store stored startId).pending = w.pending := by
  cases stored <;> rfl

@[simp] theorem store_failed (w : World) (stored : Bool) (startId : Nat) :
    (w.store stored startId).failed = w.failed := by
  cases stored <;> rfl

/-- The cursor is the new one or, where Redis fails, the old one. -/
theorem store_cursor (w : World) (stored : Bool) (startId : Nat) :
    (w.store stored startId).cursor = w.cursor ∨
      (w.store stored startId).cursor = some startId := by
  cases stored with
  | false => exact Or.inl rfl
  | true => exact Or.inr rfl

/-- A pass goes on from the cursor. -/
theorem resumeAt_some {startId : Nat} (h : 1 ≤ startId) : resumeAt (some startId) = startId :=
  if_neg (Nat.not_lt.mpr h)

/-- **A round of a tick** leaves every position covered from which someone may go
on, and all of them when it gets to the end. -/
theorem PassInvariant.batch {cfg : Config} {env now : Env} {w w' : World} {i : Nat} {tick : Tick}
    {nonce : Nat} {answered stored : Bool} {outcome : Outcome} (hs : PassInvariant cfg env w)
    (htick : w.ticks[i]? = some tick)
    (h : batchStep cfg w i tick now nonce answered stored = (outcome, w')) :
    PassInvariant cfg env w' ∧ w.Continues env w' ∧
      (outcome = .completed → ∀ position, w'.Covered env position) := by
  have hmem : tick ∈ w.ticks := List.mem_of_getElem? htick
  have hrest : ∀ other ∈ w.ticks.eraseIdx i, other ∈ w.ticks :=
    fun other hother => List.mem_of_mem_eraseIdx hother
  unfold batchStep at h
  split at h
  · next hmore =>
      split at h
      · next hfailed =>
          obtain ⟨rfl, rfl⟩ := Prod.mk.inj h
          exact ⟨(hs.end i).1, (hs.end i).2, by simp⟩
      · next result router hclean =>
          dsimp only at h
          split at h
          · next hlost =>
              obtain ⟨rfl, rfl⟩ := Prod.mk.inj h
              have hkept := hs.submit { w with
                ticks := w.ticks.eraseIdx i
                pending := w.pending ++ [submissionOf cfg w tick nonce] }
                rfl rfl rfl (Or.inl rfl) fun other hother => Or.inl (hrest other hother)
              exact ⟨hkept.1, hkept.2, by simp⟩
          · next hanswered =>
              split at h
              · next hend =>
                  obtain ⟨rfl, rfl⟩ := Prod.mk.inj h
                  let ended : World := { w with
                    ticks := w.ticks.eraseIdx i
                    pending := w.pending ++ [submissionOf cfg w tick nonce] }
                  have hcovered : ∀ position, (ended.store stored 1).Covered env position :=
                    fun position => covered_of_batch hs hmem hclean (store_router ended stored 1)
                      (store_pending ended stored 1) (store_failed ended stored 1)
                      fun hmore => absurd hend hmore
                  have hkept := hs.submit (ended.store stored 1) (store_router ended stored 1)
                    (store_pending ended stored 1) (store_failed ended stored 1)
                    (Or.inr (hcovered _)) fun other hother => Or.inr (hcovered _)
                  exact ⟨hkept.1, hkept.2, fun _ => hcovered⟩
              · next hnext =>
                  obtain ⟨rfl, rfl⟩ := Prod.mk.inj h
                  let advanced : World := { w with
                    pending := w.pending ++ [submissionOf cfg w tick nonce]
                    ticks := w.ticks.set i ⟨result.nextStartId, tick.batches + 1⟩ }
                  have hcovered : (advanced.store stored result.nextStartId).Covered env
                      result.nextStartId :=
                    covered_of_batch hs hmem hclean
                      (store_router advanced stored result.nextStartId)
                      (store_pending advanced stored result.nextStartId)
                      (store_failed advanced stored result.nextStartId)
                      fun _ => Nat.le_refl _
                  have hcursor := store_cursor advanced stored result.nextStartId
                  have hkept := hs.submit (advanced.store stored result.nextStartId)
                    (store_router advanced stored result.nextStartId)
                    (store_pending advanced stored result.nextStartId)
                    (store_failed advanced stored result.nextStartId)
                    (hcursor.imp id fun hnew => by
                      rw [hnew, resumeAt_some (Nat.pos_of_ne_zero hnext)]
                      exact hcovered)
                    fun other hother => by
                      rw [store_ticks] at hother
                      rcases List.mem_or_eq_of_mem_set hother with hold | rfl
                      · exact Or.inl hold
                      · exact Or.inr hcovered
                  exact ⟨hkept.1, hkept.2, by simp⟩
  · next hlast =>
      obtain ⟨rfl, rfl⟩ := Prod.mk.inj h
      exact ⟨(hs.end i).1, (hs.end i).2, by simp⟩

/-- An element of a list is the one at an index, or stays when that is taken out. -/
theorem mem_eraseIdx_of_ne {α : Type*} {l : List α} {i : Nat} {a b : α} (ha : l[i]? = some a)
    (hb : b ∈ l) (hne : b ≠ a) : b ∈ l.eraseIdx i := by
  obtain ⟨j, hj⟩ := List.mem_iff_getElem?.mp hb
  refine List.mem_eraseIdx_iff_getElem?.mpr ⟨j, fun hsame => hne ?_, hj⟩
  exact Option.some.inj (hj.symm.trans (hsame ▸ ha))

/-- A submission moves from one list to the other and nothing is lost. -/
theorem mem_of_failed {pending failed : List Submission} {i : Nat} {submission other : Submission}
    (h : pending[i]? = some submission) (hother : other ∈ pending ++ failed) :
    other ∈ pending.eraseIdx i ++ (failed ++ [submission]) := by
  simp only [List.mem_append, List.mem_singleton] at hother ⊢
  by_cases hsame : other = submission
  · exact Or.inr (Or.inr hsame)
  · exact hother.imp (fun hpending => mem_eraseIdx_of_ne h hpending hsame) Or.inl

/-- A submission that is never applied stays on record. -/
theorem PassInvariant.fail {cfg : Config} {env : Env} {w : World} {i : Nat}
    {submission : Submission} (hs : PassInvariant cfg env w)
    (h : w.pending[i]? = some submission) (w' : World)
    (hw' : w' = { w with
      pending := w.pending.eraseIdx i
      failed := w.failed ++ [submission] }) :
    PassInvariant cfg env w' ∧ w.Continues env w' := by
  subst hw'
  have hcontinues : w.Continues env { w with
      pending := w.pending.eraseIdx i
      failed := w.failed ++ [submission] } :=
    .of_submissions rfl fun other hother => mem_of_failed h hother
  exact ⟨hs.continue hcontinues hs.reached (Nat.le_refl _) rfl (fun tick htick => htick)
    (fun other hother => List.mem_of_mem_eraseIdx hother), hcontinues⟩

/-- A submission that is applied marks everything its simulation scanned. -/
theorem PassInvariant.apply {cfg : Config} {env now : Env} {w : World} {i : Nat}
    {submission : Submission} (hs : PassInvariant cfg env w)
    (h : w.pending[i]? = some submission) (htime : env.timestamp ≤ now.timestamp) :
    PassInvariant cfg env (applyStep cfg w i submission now) ∧
      w.Continues env (applyStep cfg w i submission now) := by
  unfold applyStep
  split
  · next result router hclean =>
      have hfires := fires_of_clean hclean
      have hcount : router.orderCount = w.router.orderCount :=
        (cleanExpiredOrders_spec hclean).2.1
      have hcontinues : w.Continues env { w with router, pending := w.pending.eraseIdx i } := by
        constructor
        case due => exact fun id hdue => due_of_fires hs.reached hfires htime hdue
        case outstanding =>
          intro id hdue hout
          obtain ⟨other, hmem, hid⟩ := hout
          by_cases hsame : other = submission
          · subst hsame
            have hscanned := hs.windows other (List.mem_of_getElem? h) id hid
            exact absurd hdue (not_due_of_clean hclean htime hscanned)
          · refine ⟨other, ?_, hid⟩
            rw [List.mem_append] at hmem ⊢
            exact hmem.imp_left fun hpending => mem_eraseIdx_of_ne h hpending hsame
      exact ⟨hs.continue hcontinues (hs.reached.fires hfires) hcount.ge rfl
        (fun tick htick => htick)
        (fun other hother => List.mem_of_mem_eraseIdx hother), hcontinues⟩
  · next hfailed => exact hs.fail h _ rfl

/-- Anyone else's call of the router. -/
theorem PassInvariant.router {cfg : Config} {env : Env} {w : World} {e : DexRouter.LogEntry}
    (hs : PassInvariant cfg env w) (hbefore : e.before = w.router) (hfires : machine.Fires e)
    (htime : env.timestamp ≤ e.input.env.timestamp) :
    PassInvariant cfg env { w with router := e.after } ∧
      w.Continues env { w with router := e.after } := by
  have hreached : Reached e.before := hbefore ▸ hs.reached
  have hcontinues : w.Continues env { w with router := e.after } := by
    constructor
    case due => exact fun id hdue => hbefore ▸ due_of_fires hreached hfires htime hdue
    case outstanding => exact fun id _ hout => hout
  have hcount : w.router.orderCount ≤ e.after.orderCount := by
    rw [← hbefore]
    exact orderCount_mono (routerStep_of_fires hfires)
  exact ⟨hs.continue hcontinues (hreached.fires hfires) hcount rfl (fun tick htick => htick)
    (fun other hother => hother), hcontinues⟩

/-- A tick starts at a covered position, whether Redis answers or not. -/
theorem PassInvariant.begin {cfg : Config} {env : Env} {w : World} (hs : PassInvariant cfg env w)
    (readable : Bool) {cursor : Option Nat} (hcursor : cursor = if readable then w.cursor else none) :
    PassInvariant cfg env { w with ticks := w.ticks ++ [⟨resumeAt cursor, 0⟩] } ∧
      w.Continues env { w with ticks := w.ticks ++ [⟨resumeAt cursor, 0⟩] } := by
  have hcontinues : w.Continues env { w with ticks := w.ticks ++ [⟨resumeAt cursor, 0⟩] } :=
    .of_submissions rfl fun submission hmem => hmem
  have hnew : w.Covered env (resumeAt cursor) := by
    cases readable with
    | false => exact hcursor ▸ covered_resumeAt_none hs.reached
    | true => exact hcursor ▸ hs.cursor
  refine ⟨⟨hs.reached, hs.cursor.continue hcontinues, ?_, hs.windows⟩, hcontinues⟩
  intro tick htick
  rcases List.mem_append.mp htick with hold | hlast
  · exact (hs.ticks tick hold).continue hcontinues
  · obtain rfl := List.mem_singleton.mp hlast
    exact hnew.continue hcontinues

/-- **One step** of anyone, at a time not before `env`'s. -/
theorem passInvariant_of_fires {cfg : Config} {env : Env} {e : LogEntry}
    (hfires : (scheduler cfg).Fires e) (htime : e.input.NotBefore env.timestamp)
    (hs : PassInvariant cfg env e.before) :
    PassInvariant cfg env e.after ∧ e.before.Continues env e.after ∧
      (e.output = .completed → ∀ position, e.after.Covered env position) := by
  obtain ⟨w, action, outcome, w'⟩ := e
  change call cfg w action = .ok (outcome, w') at hfires
  change action.NotBefore env.timestamp at htime
  change PassInvariant cfg env w at hs
  cases action with
  | router tx =>
      simp only [call] at hfires
      split at hfires
      · next out router hcall =>
          obtain ⟨rfl, rfl⟩ := Prod.mk.inj (Except.ok.inj hfires)
          obtain ⟨hs', hcontinues⟩ :=
            PassInvariant.router (e := ⟨w.router, tx, out, router⟩) hs rfl hcall htime
          exact ⟨hs', hcontinues, by simp⟩
      · cases hfires
  | begin readable =>
      obtain ⟨rfl, rfl⟩ := Prod.mk.inj (Except.ok.inj hfires)
      obtain ⟨hs', hcontinues⟩ := hs.begin readable rfl
      exact ⟨hs', hcontinues, by simp⟩
  | batch i now nonce answered stored =>
      simp only [call] at hfires
      split at hfires
      · next tick htick => exact hs.batch htick (Except.ok.inj hfires)
      · cases hfires
  | abort i =>
      obtain ⟨rfl, rfl⟩ := Prod.mk.inj (Except.ok.inj hfires)
      exact ⟨(hs.end i).1, (hs.end i).2, by simp⟩
  | apply i now =>
      simp only [call] at hfires
      split at hfires
      · next submission hsubmission =>
          obtain ⟨rfl, rfl⟩ := Prod.mk.inj (Except.ok.inj hfires)
          obtain ⟨hs', hcontinues⟩ := hs.apply hsubmission htime
          exact ⟨hs', hcontinues, by simp⟩
      · cases hfires
  | drop i =>
      simp only [call] at hfires
      split at hfires
      · next submission hsubmission =>
          obtain ⟨rfl, rfl⟩ := Prod.mk.inj (Except.ok.inj hfires)
          obtain ⟨hs', hcontinues⟩ := hs.fail hsubmission _ rfl
          exact ⟨hs', hcontinues, by simp⟩
      · cases hfires

/-! ## Whole passes -/

/-- The router is set up and the scheduler never ran. -/
def boot (admin bondIssuerAddress : Address) : World where
  router := constructor admin bondIssuerAddress
  cursor := none
  ticks := []
  pending := []
  failed := []

/-- Whoever goes on from here starts at the first order. -/
def World.AtStart (w : World) : Prop :=
  resumeAt w.cursor ≤ 1 ∧ ∀ tick ∈ w.ticks, tick.startId ≤ 1

instance (w : World) : Decidable w.AtStart := by
  unfold World.AtStart; infer_instance

instance (now : Nat) : DecidablePred (Action.NotBefore now)
  | .router _ | .batch _ _ _ _ _ | .apply _ _ => inferInstanceAs (Decidable (_ ≤ _))
  | .begin _ | .abort _ | .drop _ => inferInstanceAs (Decidable True)

/-- What holds after the actions of a pass. -/
structure PassState (cfg : Config) (env : Env) (log : List LogEntry) (w : World) : Prop where
  invariant : PassInvariant cfg env w
  done : (∃ e ∈ log, e.output = .completed) → ∀ position, w.Covered env position

/-- The state of the pass after a run. -/
theorem passState_run {cfg : Config} {env : Env} {w : World} (hs : PassInvariant cfg env w)
    (actions : List Action) (htime : ∀ action ∈ actions, action.NotBefore env.timestamp) :
    PassState cfg env ((scheduler cfg).log w actions) ((scheduler cfg).run w actions) := by
  induction actions using List.reverseRecOn with
  | nil => exact ⟨hs, fun h => absurd h (by simp)⟩
  | append_singleton actions action ih =>
      have hlast : action.NotBefore env.timestamp := htime action (by simp)
      have ih := ih fun a ha => htime a (List.mem_append_left _ ha)
      rcases (scheduler cfg).snoc_cases w actions action with hskip | hstep
      · rw [hskip.1, hskip.2]
        exact ih
      · obtain ⟨e, hfires, rfl, hbefore, hrun, hlog⟩ := hstep
        rw [hrun, hlog]
        obtain ⟨hs', hcontinues, hdone⟩ :=
          passInvariant_of_fires hfires hlast (hbefore ▸ ih.invariant)
        refine ⟨hs', fun h position => ?_⟩
        obtain ⟨e', hmem, hcompleted⟩ := h
        rcases List.mem_append.mp hmem with hold | hnew
        · exact (hbefore ▸ ih.done ⟨e', hold, hcompleted⟩ position).continue hcontinues
        · obtain rfl := List.mem_singleton.mp hnew
          exact hdone hcompleted position

/-- Every submission of a run scans at least what its simulation scanned. -/
theorem passInvariant_of_atStart {cfg : Config} {admin bondIssuerAddress : Address} {env : Env}
    (before : List Action)
    (hstart : ((scheduler cfg).run (boot admin bondIssuerAddress) before).AtStart) :
    PassInvariant cfg env ((scheduler cfg).run (boot admin bondIssuerAddress) before) := by
  have hreached : Reached (boot admin bondIssuerAddress).router :=
    ⟨admin, bondIssuerAddress, [], rfl⟩
  -- at time 0 no action comes too early
  have hboot : PassInvariant cfg { env with timestamp := 0 } (boot admin bondIssuerAddress) :=
    ⟨hreached, covered_resumeAt_none hreached, by simp [boot], by simp [boot]⟩
  have hany : ∀ action ∈ before, action.NotBefore 0 := by
    intro action _
    cases action <;> simp [Action.NotBefore]
  have hrun := (passState_run hboot before hany).invariant
  exact ⟨hrun.reached, covered_one hrun.reached hstart.1,
    fun tick htick => covered_one hrun.reached (hstart.2 tick htick), hrun.windows⟩

/-- **A pass of the scheduler.**  From a moment at which the scheduler stands at
the start, once a tick gets to the end, every order that is still due at that
moment lies in a batch that was accepted and not applied, whatever anyone else
does, however ticks overlap or break off and whatever Redis loses. -/
theorem pass_complete (cfg : Config) (admin bondIssuerAddress : Address)
    (before actions : List Action) (env : Env)
    (hstart : ((scheduler cfg).run (boot admin bondIssuerAddress) before).AtStart)
    (htime : ∀ action ∈ actions, action.NotBefore env.timestamp)
    (hdone : ∃ e ∈ (scheduler cfg).log
      ((scheduler cfg).run (boot admin bondIssuerAddress) before) actions,
      e.output = .completed) (id : Nat)
    (hdue : ((scheduler cfg).run (boot admin bondIssuerAddress) (before ++ actions)).router.Due
      env id) :
    ((scheduler cfg).run (boot admin bondIssuerAddress) (before ++ actions)).Outstanding id := by
  rw [Machine.run_append] at hdue ⊢
  have hpass := passState_run (passInvariant_of_atStart before hstart) actions htime
  exact hpass.done hdone (id + 1) id (Nat.lt_succ_self id) hdue

/-- Two orders expire at 13.  The batch of the first is applied and that of the
second expires, and the scheduler gets to the end. -/
def twoOrders : List Action :=
  [tokenTx 3 [1] (.listBondTokens 1 1 100 5 "USDC" 10 0),
    tokenTx 3 [1] (.listBondTokens 1 1 100 5 "USDC" 10 1)].map .router

/-- Of two batches the second is lost. -/
def lostBatch : List Action := [
  .begin true,
  .batch 0 ⟨20, [0], none, 9, false⟩ 0 true true,
  .apply 0 ⟨20, [0], none, 9, false⟩,
  .batch 0 ⟨21, [0], none, 9, false⟩ 1 true true,
  .drop 0]

/-- With the lost batch: it is outstanding, and nothing else is. -/
theorem pass_complete_lostBatch :
    ((scheduler { admin := 0, batchSize := 1 }).run (boot 0 9) (twoOrders ++ lostBatch)).Outstanding
      2 :=
  pass_complete { admin := 0, batchSize := 1 } 0 9 twoOrders lostBatch ⟨20, [0], none, 9, false⟩
    (by decide +kernel) (by decide +kernel) (by decide +kernel) 2 (by decide +kernel)

end EcoMint.DexScheduler
