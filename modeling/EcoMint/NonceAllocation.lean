import EcoMint.NonceUse
import EcoMint.Tasks

/-!
# The nonces that the API allocates

`NonceService.next` counts in Redis, per contract and address, how many nonces
it handed out; the contract counts how many it accepted.  A request takes its
nonce first and submits its transaction later, and anything may happen in
between: the API gives the request up, other requests run, the contract rejects
the call.  Nothing returns a nonce, so the two counts agree again once all
requests are finished exactly if no request wasted the nonce it took.
-/

namespace EcoMint

open Fallible

/-! ## Requests -/

/-- The service methods that take a nonce, with what they send along.  The
admin's address belongs to the configured admin key. -/
inductive ApiRequest
  | create (adminAddress : Address) (config : BondConfig)
  | subscribe (id : Nat) (investorAddress : Address) (amount : Int)
  | transfer (id : Nat) (fromAddress toAddress : Address) (amount : Int)
  | mature (adminAddress : Address) (id : Nat)
  | distributeCoupon (adminAddress : Address) (id periodIndex : Nat)
      (holderAddresses : List Address) (reportId : Nat)
  | claimCredits (id : Nat) (investorAddress : Address)
  | sweepUndistributed (adminAddress : Address) (id : Nat)
  | register (ownerAddress : Address) (ipfsHash : BytesN 32) (methodology country : Symbol)
  | approve (adminAddress : Address) (id : Nat)
  | reject (adminAddress : Address) (id : Nat)
  | submitReport (providerAddress : Address)
  | challengeReport (reportId : Nat) (challengerAddress : Address)
      (counterEvidenceHash : BytesN 32)
  | registerProvider (adminAddress providerAddress : Address) (methodology : Symbol)
  | listBondTokens (sellerAddress : Address) (bondId : Nat) (amount pricePerToken : Int)
      (quoteAsset : Symbol) (expiresAfterSeconds : Nat)
  | buyBondTokens (buyerAddress : Address) (orderId : Nat) (maxPrice amount : Int)
  | cancelOrder (orderId : Nat) (callerAddress : Address)
  | depositQuote (callerAddress : Address) (asset : Symbol) (amount : Int)
  | withdrawQuote (callerAddress : Address) (asset : Symbol) (amount : Int)
  | cleanExpiredOrders (adminAddress : Address) (startId limit : Nat)
deriving DecidableEq

namespace ApiRequest

/-- The contract and the address for which a request takes its nonce. -/
def nonceKey : ApiRequest → Contract × Address
  | create adminAddress _ => (.bondIssuer, adminAddress)
  | subscribe _ investorAddress _ => (.bondIssuer, investorAddress)
  | transfer _ fromAddress _ _ => (.bondIssuer, fromAddress)
  | mature adminAddress _ => (.bondIssuer, adminAddress)
  | distributeCoupon adminAddress _ _ _ _ => (.couponEngine, adminAddress)
  | claimCredits _ investorAddress => (.couponEngine, investorAddress)
  | sweepUndistributed adminAddress _ => (.couponEngine, adminAddress)
  | register ownerAddress _ _ _ => (.projectRegistry, ownerAddress)
  | approve adminAddress _ => (.projectRegistry, adminAddress)
  | reject adminAddress _ => (.projectRegistry, adminAddress)
  | submitReport providerAddress => (.oracleConsumer, providerAddress)
  | challengeReport _ challengerAddress _ => (.oracleConsumer, challengerAddress)
  | registerProvider adminAddress _ _ => (.oracleConsumer, adminAddress)
  | listBondTokens sellerAddress _ _ _ _ _ => (.dexRouter, sellerAddress)
  | buyBondTokens buyerAddress _ _ _ => (.dexRouter, buyerAddress)
  | cancelOrder _ callerAddress => (.dexRouter, callerAddress)
  | depositQuote callerAddress _ _ => (.dexRouter, callerAddress)
  | withdrawQuote callerAddress _ _ => (.dexRouter, callerAddress)
  | cleanExpiredOrders adminAddress _ _ => (.dexRouter, adminAddress)

/-- The call that a request submits with its nonce.  `submitReport` sends eight
arguments where the contract takes nine, so that no call comes of it. -/
def call (nonce : Nat) : ApiRequest → Option ChainCall
  | create adminAddress config => some (.deployed (.issuer (.issueBond adminAddress config nonce)))
  | subscribe id investorAddress amount =>
      some (.deployed (.issuer (.subscribe investorAddress id amount nonce)))
  | transfer id fromAddress toAddress amount =>
      some (.deployed (.issuer (.transfer fromAddress toAddress id amount nonce)))
  | mature adminAddress id => some (.deployed (.issuer (.matureBond adminAddress id nonce)))
  | distributeCoupon adminAddress id periodIndex holderAddresses reportId =>
      some (.deployed (.engine
        (.distributeCoupon adminAddress id periodIndex holderAddresses reportId nonce)))
  | claimCredits id investorAddress =>
      some (.deployed (.engine (.claimCredits investorAddress id nonce)))
  | sweepUndistributed adminAddress id =>
      some (.deployed (.engine (.sweepUndistributed adminAddress id nonce)))
  | register ownerAddress ipfsHash methodology country =>
      some (.registry (.registerProject ownerAddress ipfsHash methodology country nonce))
  | approve adminAddress id => some (.registry (.approveProject adminAddress id nonce))
  | reject adminAddress id => some (.registry (.rejectProject adminAddress id nonce))
  | submitReport _ => none
  | challengeReport reportId challengerAddress counterEvidenceHash =>
      some (.deployed (.oracle
        (.challengeReport challengerAddress reportId counterEvidenceHash nonce)))
  | registerProvider adminAddress providerAddress methodology =>
      some (.deployed (.oracle (.registerProvider adminAddress providerAddress methodology nonce)))
  | listBondTokens sellerAddress bondId amount pricePerToken quoteAsset expiresAfterSeconds =>
      some (.deployed (.dex (.listBondTokens sellerAddress bondId amount pricePerToken quoteAsset
        expiresAfterSeconds nonce)))
  | buyBondTokens buyerAddress orderId maxPrice amount =>
      some (.deployed (.dex (.executePurchase buyerAddress orderId maxPrice amount nonce)))
  | cancelOrder orderId callerAddress =>
      some (.deployed (.dex (.cancelListing callerAddress orderId nonce)))
  | depositQuote callerAddress asset amount =>
      some (.deployed (.dex (.depositQuote callerAddress asset amount nonce)))
  | withdrawQuote callerAddress asset amount =>
      some (.deployed (.dex (.withdrawQuote callerAddress asset amount nonce)))
  | cleanExpiredOrders adminAddress startId limit =>
      some (.deployed (.dex (.cleanExpiredOrders adminAddress startId limit nonce)))

/-- A request submits its nonce where, and for whom, it took it. -/
theorem nonceTaken_call {request : ApiRequest} {nonce : Nat} {call : ChainCall}
    (h : request.call nonce = some call) :
    call.nonceTaken request.nonceKey.1 = some (request.nonceKey.2, nonce) := by
  cases request <;> cases h <;> rfl

end ApiRequest

/-! ## The API and the chain -/

/-- The counters in Redis, by contract and address, and the chain. -/
structure ApiState where
  counters : Storage (Contract × Address) Nat
  chain : Chain

/-- `INCR` of a key. -/
def incrOrThrow (counters : Storage (Contract × Address) Nat) (key : Contract × Address) :
    Nat × Storage (Contract × Address) Nat :=
  (counters.read key + 1, counters.set key (counters.read key + 1))

/-- Allocate the next nonce of a key. -/
def NonceService.next (counters : Storage (Contract × Address) Nat) (key : Contract × Address) :
    Nat × Storage (Contract × Address) Nat :=
  let (incremented, counters) := incrOrThrow counters key
  (incremented - 1, counters)

/-- The nonce the contract of the key expects from its address. -/
def ApiState.expected (s : ApiState) (key : Contract × Address) : Nat :=
  (s.chain.nonces key.1).read key.2

/-- How far a request has come: its nonce is allocated before it is submitted. -/
inductive RequestPhase
  | received
  | allocated (nonce : Nat)
  | finished
deriving DecidableEq

/-- A request on its way through the API. -/
structure RequestTask where
  request : ApiRequest
  phase : RequestPhase

/-- What the API does next with a request: take the nonce, give the request up,
or submit its transaction. -/
inductive RequestChoice
  | allocate
  | refuse
  | submit (ctx : TxContext)

/-- The call that a request is about to submit. -/
def RequestTask.pendingCall (t : RequestTask) : Option ChainCall :=
  match t.phase with
  | .allocated nonce => t.request.call nonce
  | _ => none

/-- The chain after a request submitted its transaction, if the call is accepted. -/
def RequestTask.submitted (t : RequestTask) (s : ApiState) (ctx : TxContext) : Option Chain :=
  t.pendingCall.bind fun call => (s.chain.execute ctx call).toOption

/-- One step of a request. -/
def RequestTask.resume (s : ApiState) :
    RequestTask → RequestChoice → Option (ApiState × RequestTask)
  | ⟨request, .received⟩, .allocate =>
      let (nonce, counters) := NonceService.next s.counters request.nonceKey
      some ({ s with counters }, ⟨request, .allocated nonce⟩)
  | ⟨request, .received⟩, .refuse => some (s, ⟨request, .finished⟩)
  | ⟨request, .allocated _⟩, .refuse => some (s, ⟨request, .finished⟩)
  | ⟨request, .allocated nonce⟩, .submit ctx =>
      let chain := (RequestTask.submitted ⟨request, .allocated nonce⟩ s ctx).getD s.chain
      some ({ s with chain }, ⟨request, .finished⟩)
  | _, _ => none

/-- The API serving any number of requests, while anybody else may send
transactions of their own. -/
def nonceProgram :
    TaskProgram ApiState RequestTask ApiRequest RequestChoice (TxContext × ChainCall) where
  start request := { request, phase := .received }
  resume := RequestTask.resume
  outside s tx := (s.chain.execute tx.1 tx.2).toOption.map fun chain => { s with chain }

/-- The requests under way, with the counters and the chain between them. -/
abbrev ApiPool := Pool ApiState RequestTask

/-- A step of one request, a new request, or a transaction from outside. -/
abbrev ApiAction := PoolAction ApiRequest RequestChoice (TxContext × ChainCall)

/-- A step of the API as it was made. -/
abbrev ApiEvent := Event ApiPool ApiAction Unit

/-! ## What may go wrong with a nonce -/

section

variable (contract : Contract) (addr : Address)

/-- The request took a nonce of the address at the contract and still holds it. -/
def RequestTask.Holds (t : RequestTask) : Prop :=
  t.request.nonceKey = (contract, addr) ∧ ∃ nonce, t.phase = .allocated nonce

instance (t : RequestTask) : Decidable (t.Holds contract addr) :=
  match t with
  | ⟨request, .allocated nonce⟩ =>
      decidable_of_iff (request.nonceKey = (contract, addr)) (by simp [RequestTask.Holds])
  | ⟨_, .received⟩ => isFalse (by simp [RequestTask.Holds])
  | ⟨_, .finished⟩ => isFalse (by simp [RequestTask.Holds])

/-- The step gives up a nonce without the contract having accepted it. -/
def RequestTask.Wastes (s : ApiState) (t : RequestTask) : RequestChoice → Prop
  | .allocate => False
  | .refuse => True
  | .submit ctx => t.submitted s ctx = none

instance (s : ApiState) (t : RequestTask) (choice : RequestChoice) :
    Decidable (t.Wastes s choice) :=
  match choice with
  | .allocate => isFalse id
  | .refuse => isTrue trivial
  | .submit ctx =>
      if h : (t.submitted s ctx).isNone then isTrue (Option.isNone_iff_eq_none.mp h)
      else isFalse fun hnone => h (Option.isNone_iff_eq_none.mpr hnone)

/-- The event wastes a nonce of the address at the contract: the request that
took it is refused by the API afterwards, or its call is rejected. -/
def ApiEvent.WastesNonce (e : ApiEvent) : Prop :=
  match e.input with
  | .resume id choice =>
      ∃ t ∈ e.before.tasks.get id, t.Holds contract addr ∧ t.Wastes e.before.shared choice
  | _ => False

/-- The event is the success of a transaction that uses a nonce of the address
at the contract though no request took one for it: a transaction from outside
the API, or the purchase of an order of the address. -/
def ApiEvent.UsesUnallocated (e : ApiEvent) : Prop :=
  match e.input with
  | .start _ _ => False
  | .outside tx => tx.2.Uses e.before.shared.chain contract addr
  | .resume id (.submit ctx) =>
      ∃ t ∈ e.before.tasks.get id, t.request.nonceKey ≠ (contract, addr) ∧
        (t.submitted e.before.shared ctx).isSome ∧
        ∃ call ∈ t.pendingCall, call.Uses e.before.shared.chain contract addr
  | .resume _ _ => False

instance : DecidablePred (ApiEvent.WastesNonce contract addr) := by
  intro e
  unfold ApiEvent.WastesNonce
  split <;> infer_instance

instance : DecidablePred (ApiEvent.UsesUnallocated contract addr) := by
  intro e
  unfold ApiEvent.UsesUnallocated
  split <;> infer_instance

end

/-! ## One step of a request -/

/-- What a step of a request does. -/
inductive RequestStep (s s' : ApiState) (t t' : RequestTask) (choice : RequestChoice) : Prop
  | allocated (hphase : t.phase = .received) (hchoice : choice = .allocate)
      (hshared : s' =
        { s with
          counters :=
            s.counters.set t.request.nonceKey (s.counters.read t.request.nonceKey + 1) })
      (htask : t' = ⟨t.request, .allocated (s.counters.read t.request.nonceKey)⟩)
  | dropped (hphase : t.phase = .received) (hchoice : choice = .refuse) (hshared : s' = s)
      (htask : t' = ⟨t.request, .finished⟩)
  | wasted (nonce : Nat) (hphase : t.phase = .allocated nonce) (hwastes : t.Wastes s choice)
      (hshared : s' = s) (htask : t' = ⟨t.request, .finished⟩)
  | accepted (nonce : Nat) (ctx : TxContext) (call : ChainCall) (chain : Chain)
      (hphase : t.phase = .allocated nonce) (hchoice : choice = .submit ctx)
      (hcall : t.request.call nonce = some call) (hexec : s.chain.execute ctx call = .ok chain)
      (hshared : s' = { s with chain }) (htask : t' = ⟨t.request, .finished⟩)

/-- A result that is kept is a success. -/
theorem Except.toOption_eq_some_iff {ε α : Type} {r : Except ε α} {a : α} :
    r.toOption = some a ↔ r = .ok a := by
  cases r <;> simp [Except.toOption]

/-- A submitted request is applied if the chain takes its call. -/
theorem RequestTask.submitted_eq_some_iff {s : ApiState} {t : RequestTask} {ctx : TxContext}
    {chain : Chain} :
    t.submitted s ctx = some chain ↔
      ∃ call, t.pendingCall = some call ∧ s.chain.execute ctx call = .ok chain := by
  simp [RequestTask.submitted, Option.bind_eq_some_iff, Except.toOption_eq_some_iff]

/-- What a step of a request may do. -/
theorem requestStep_of_resume {s s' : ApiState} {t t' : RequestTask} {choice : RequestChoice}
    (h : t.resume s choice = some (s', t')) : RequestStep s s' t t' choice := by
  obtain ⟨request, phase⟩ := t
  cases phase with
  | received =>
      cases choice with
      | allocate =>
          cases h
          exact .allocated rfl rfl rfl rfl
      | refuse =>
          cases h
          exact .dropped rfl rfl rfl rfl
      | submit ctx => cases h
  | allocated nonce =>
      cases choice with
      | allocate => cases h
      | refuse =>
          cases h
          exact .wasted nonce rfl trivial rfl rfl
      | submit ctx =>
          obtain ⟨rfl, rfl⟩ := Prod.mk.inj (Option.some.inj h)
          cases hsubmitted : RequestTask.submitted ⟨request, .allocated nonce⟩ s ctx with
          | none => exact .wasted nonce rfl hsubmitted rfl rfl
          | some chain =>
              obtain ⟨call, hcall, hexec⟩ := RequestTask.submitted_eq_some_iff.mp hsubmitted
              exact .accepted nonce ctx call chain rfl rfl hcall hexec rfl rfl
  | finished => cases choice <;> cases h

/-! ## The distance between the two counts -/

section

variable {contract : Contract} {addr : Address}

@[simp] theorem holds_allocated {request : ApiRequest} {nonce : Nat} :
    RequestTask.Holds contract addr ⟨request, .allocated nonce⟩ ↔
      request.nonceKey = (contract, addr) := by
  simp [RequestTask.Holds]

@[simp] theorem not_holds_received {request : ApiRequest} :
    ¬ RequestTask.Holds contract addr ⟨request, .received⟩ := by
  simp [RequestTask.Holds]

@[simp] theorem not_holds_finished {request : ApiRequest} :
    ¬ RequestTask.Holds contract addr ⟨request, .finished⟩ := by
  simp [RequestTask.Holds]

/-- A step wastes a nonce exactly if its request does. -/
theorem ApiEvent.wastesNonce_iff {e : ApiEvent} {id : Nat} {choice : RequestChoice}
    {t : RequestTask} (hinput : e.input = .resume id choice)
    (hget : e.before.tasks.get id = some t) :
    ApiEvent.WastesNonce contract addr e ↔
      t.Holds contract addr ∧ t.Wastes e.before.shared choice := by
  unfold ApiEvent.WastesNonce
  rw [hinput]
  simp [hget]

/-- How many nonces of the address the API counts beyond those the contract
accepted and those that requests still hold. -/
def ApiPool.gap (p : ApiPool) (contract : Contract) (addr : Address) : Int :=
  p.shared.counters.read (contract, addr) - p.shared.expected (contract, addr) -
    p.count (RequestTask.Holds contract addr)

/-- What an event does to the gap: it grows by one if a nonce is wasted and
stays otherwise. -/
def ApiEvent.MovesGap (contract : Contract) (addr : Address) (e : ApiEvent) : Prop :=
  (ApiEvent.WastesNonce contract addr e ∧
      ApiPool.gap e.after contract addr = ApiPool.gap e.before contract addr + 1) ∨
    ¬ ApiEvent.WastesNonce contract addr e ∧
      ApiPool.gap e.after contract addr = ApiPool.gap e.before contract addr

/-- What the chain expects after a call: one more of the caller's nonces, if the call
has one. -/
theorem expected_execute {s : ApiState} {chain : Chain} {ctx : TxContext} {call : ChainCall}
    (hexec : s.chain.execute ctx call = .ok chain) :
    (⟨s.counters, chain⟩ : ApiState).expected (contract, addr) =
      s.expected (contract, addr) + if call.Uses s.chain contract addr then 1 else 0 :=
  Chain.nonces_execute hexec contract addr

/-- A step of one request moves the gap as it should. -/
theorem movesGap_of_resumed {e : ApiEvent} {id : Nat} {choice : RequestChoice}
    {t t' : RequestTask} {shared : ApiState} (hinput : e.input = .resume id choice)
    (hget : e.before.tasks.get id = some t)
    (hstep : RequestStep e.before.shared shared t t' choice)
    (hafter : e.after = ⟨shared, e.before.tasks.set id t'⟩)
    (hown : ¬ ApiEvent.UsesUnallocated contract addr e) :
    ApiEvent.MovesGap contract addr e := by
  obtain ⟨request, phase⟩ := t
  unfold ApiEvent.MovesGap ApiPool.gap
  rw [ApiEvent.wastesNonce_iff hinput hget, hafter, Pool.count_resume hget]
  cases hstep with
  | allocated hphase hchoice hshared htask =>
      obtain rfl : phase = .received := hphase
      subst hchoice hshared htask
      refine Or.inr ⟨fun h => h.2, ?_⟩
      by_cases hkey : request.nonceKey = (contract, addr)
      · simp [hkey, ApiState.expected]
        omega
      · rw [Storage.read_set_ne _ _ (Ne.symm hkey)]
        simp [hkey, ApiState.expected]
  | dropped hphase hchoice hshared htask =>
      obtain rfl : phase = .received := hphase
      subst hshared htask
      refine Or.inr ⟨fun h => not_holds_received h.1, ?_⟩
      simp
  | wasted nonce hphase hwastes hshared htask =>
      obtain rfl : phase = .allocated nonce := hphase
      subst hshared htask
      by_cases hkey : request.nonceKey = (contract, addr)
      · refine Or.inl ⟨⟨holds_allocated.mpr hkey, hwastes⟩, ?_⟩
        simp [hkey]
        omega
      · refine Or.inr ⟨fun h => hkey (holds_allocated.mp h.1), ?_⟩
        simp [hkey]
  | accepted nonce ctx call chain hphase hchoice hcall hexec hshared htask =>
      obtain rfl : phase = .allocated nonce := hphase
      subst hchoice hshared htask
      have hsubmitted : RequestTask.submitted ⟨request, .allocated nonce⟩ e.before.shared ctx =
          some chain := RequestTask.submitted_eq_some_iff.mpr ⟨call, hcall, hexec⟩
      refine Or.inr ⟨fun h => ?_, ?_⟩
      · have hnone : RequestTask.submitted ⟨request, .allocated nonce⟩ e.before.shared ctx =
            none := h.2
        rw [hsubmitted] at hnone
        cases hnone
      · rw [expected_execute hexec]
        by_cases hkey : request.nonceKey = (contract, addr)
        · have huses : call.Uses e.before.shared.chain contract addr := by
            have htaken := ApiRequest.nonceTaken_call hcall
            rw [hkey] at htaken
            exact Or.inl (by simp [TakesFrom, htaken])
          simp [hkey, huses]
          omega
        · have hforeign : ¬ call.Uses e.before.shared.chain contract addr := by
            intro huses
            refine hown ?_
            unfold ApiEvent.UsesUnallocated
            rw [hinput]
            exact ⟨_, hget, hkey, by rw [hsubmitted]; rfl, call, hcall, huses⟩
          simp [hkey, hforeign]

/-- **Gap lemma.**  The gap grows with every wasted nonce and not otherwise. -/
theorem movesGap {e : ApiEvent} (hfires : nonceProgram.machine.Fires e)
    (hown : ¬ ApiEvent.UsesUnallocated contract addr e) :
    ApiEvent.MovesGap contract addr e := by
  cases nonceProgram.step_cases hfires with
  | resumed id choice t t' shared hinput hget hresume hafter =>
      exact movesGap_of_resumed hinput hget (requestStep_of_resume hresume) hafter hown
  | started id request hinput hnew hafter =>
      unfold ApiEvent.MovesGap ApiPool.gap
      rw [hafter, Pool.count_start hnew]
      refine Or.inr ⟨by simp [ApiEvent.WastesNonce, hinput], ?_⟩
      simp [nonceProgram]
  | outside tx shared hinput houtside hafter =>
      unfold ApiEvent.UsesUnallocated at hown
      rw [hinput] at hown
      simp only [nonceProgram, Option.map_eq_some_iff, Except.toOption_eq_some_iff] at houtside
      obtain ⟨chain, hexec, rfl⟩ := houtside
      unfold ApiEvent.MovesGap ApiPool.gap
      rw [hafter]
      refine Or.inr ⟨by simp [ApiEvent.WastesNonce, hinput], ?_⟩
      rw [expected_execute hexec, if_neg hown]
      rfl

/-- The gap told by the log: it is closed exactly if no nonce was wasted. -/
def GapTold (contract : Contract) (addr : Address) (p : ApiPool) (l : List ApiEvent) : Prop :=
  (∀ e ∈ l, ¬ ApiEvent.UsesUnallocated contract addr e) →
    0 ≤ p.gap contract addr ∧
      (p.gap contract addr = 0 ↔ ∀ e ∈ l, ¬ ApiEvent.WastesNonce contract addr e)

/-- A step keeps the account of the gap. -/
theorem GapTold.step {l : List ApiEvent} {e : ApiEvent} (hfires : nonceProgram.machine.Fires e)
    (h : GapTold contract addr e.before l) : GapTold contract addr e.after (l ++ [e]) := by
  intro hown
  rw [List.forall_mem_append, List.forall_mem_singleton] at hown
  obtain ⟨hnonneg, hclosed⟩ := h hown.1
  rw [List.forall_mem_append, List.forall_mem_singleton]
  rcases movesGap hfires hown.2 with ⟨hwastes, hgap⟩ | ⟨hkeeps, hgap⟩
  · rw [hgap]
    refine ⟨by omega, ⟨fun hzero => by omega, fun hnone => absurd hwastes hnone.2⟩⟩
  · rw [hgap]
    refine ⟨hnonneg, hclosed.trans ⟨fun hnone => ⟨hnone, hkeeps⟩, fun hnone => hnone.1⟩⟩

end

/-! ## Whole runs -/

/-- Redis and the contract agree on the next nonce. -/
def ApiState.InStep (s : ApiState) (contract : Contract) (addr : Address) : Prop :=
  (NonceService.next s.counters (contract, addr)).1 = s.expected (contract, addr)

instance (s : ApiState) (contract : Contract) (addr : Address) :
    Decidable (s.InStep contract addr) := by
  unfold ApiState.InStep; infer_instance

/-- The counter is in step if it is the nonce that the chain expects. -/
theorem inStep_iff {s : ApiState} {contract : Contract} {addr : Address} :
    s.InStep contract addr ↔ s.counters.read (contract, addr) = s.expected (contract, addr) := by
  simp [ApiState.InStep, NonceService.next, incrOrThrow]

/-- The account of the gap holds after every run that began in step. -/
theorem gapTold {contract : Contract} {addr : Address} {start : ApiState}
    (hstart : start.InStep contract addr) (schedule : List ApiAction) :
    GapTold contract addr (nonceProgram.run start schedule) (nonceProgram.log start schedule) := by
  refine nonceProgram.machine.invariant (P := GapTold contract addr) ?_
    (fun l e hfires h => h.step hfires) schedule
  intro _
  have hgap : ApiPool.gap (Pool.initial start) contract addr = 0 := by
    simp [ApiPool.gap, inStep_iff.mp hstart]
  simp [hgap]

/-- **The nonce the API hands out next is the one the contract expects**, once
all requests that took a nonce of the address at the contract are finished,
exactly if none of them wasted its nonce. -/
theorem next_nonce_expected_iff (start : ApiState) (contract : Contract) (addr : Address)
    (hstart : start.InStep contract addr) (schedule : List ApiAction)
    (hown : ∀ e ∈ nonceProgram.log start schedule, ¬ ApiEvent.UsesUnallocated contract addr e)
    (hfinished : ∀ id t, (nonceProgram.run start schedule).tasks.get id = some t →
      t.request.nonceKey = (contract, addr) → t.phase = .finished) :
    (nonceProgram.run start schedule).shared.InStep contract addr ↔
      ∀ e ∈ nonceProgram.log start schedule, ¬ ApiEvent.WastesNonce contract addr e := by
  have htold := (gapTold hstart schedule hown).2
  have hnone : (nonceProgram.run start schedule).count
      (RequestTask.Holds contract addr) = 0 := by
    refine Pool.count_eq_zero fun id t hget => ?_
    rintro ⟨hkey, nonce, hphase⟩
    rw [hfinished id t hget hkey] at hphase
    cases hphase
  rw [← htold, inStep_iff]
  unfold ApiPool.gap
  rw [hnone]
  omega

/-- Redis is empty and the contracts are just deployed. -/
def freshApi : ApiState := ⟨∅, launch sampleDeployment 106 0⟩

/-- A transaction signed by one account. -/
def sampleContext (signer : Address) : TxContext := ⟨1, [signer], none, false⟩

/-- A request that runs to its end on its own. -/
def served (id : Nat) (request : ApiRequest) : List ApiAction :=
  [.start id request, .resume id .allocate, .resume id (.submit (sampleContext request.nonceKey.2))]

/-- An issue through the API leaves the counter in step. -/
theorem next_nonce_expected_after_issue :
    (nonceProgram.run freshApi (served 0 (.create 0 BondIssuer.sampleConfig))).shared.InStep
        .bondIssuer 0 ↔
      ∀ e ∈ nonceProgram.log freshApi (served 0 (.create 0 BondIssuer.sampleConfig)),
        ¬ ApiEvent.WastesNonce .bondIssuer 0 e := by
  refine next_nonce_expected_iff freshApi .bondIssuer 0 (by decide) _ (by decide +kernel) ?_
  exact Storage.forall_get_of_entries (by decide +kernel)

/-- A subscription to a bond that does not exist is rejected, and from then on
the API is one nonce ahead of the contract. -/
theorem next_nonce_lost_by_rejection :
    ¬ ∀ (start : ApiState) (contract : Contract) (addr : Address), start.InStep contract addr →
      ∀ schedule : List ApiAction,
      (∀ e ∈ nonceProgram.log start schedule, ¬ ApiEvent.UsesUnallocated contract addr e) →
      (∀ id t, (nonceProgram.run start schedule).tasks.get id = some t →
        t.request.nonceKey = (contract, addr) → t.phase = .finished) →
      (nonceProgram.run start schedule).shared.InStep contract addr := by
  intro h
  have hlost := h freshApi .bondIssuer 1 (by decide) (served 0 (.subscribe 7 1 100))
    (by decide +kernel) (Storage.forall_get_of_entries (by decide +kernel))
  revert hlost
  decide +kernel

end EcoMint
