import EcoMint.GovernanceSafety
import EcoMint.RegistryGuards

/-!
# A project registry under governance

The registry is deployed with the governance contract as its admin, and
governance calls it only by executing proposals.  Every execution passes the
number of earlier executions on the registry as the nonce.  The registry counts
the same calls in two places, so the numbers agree only for as long as all of
them were counted in one.
-/

namespace EcoMint

open Fallible Storage

namespace ProjectRegistry

open Governance (Val)

/-- The call that the host makes of a method and its arguments; none when there
is no such method or the arguments do not fit it.  The views are left out: none
of them takes an address first and a `u64` last, as governance passes them. -/
def callOf (method : Symbol) (args : List Val) : Option Call :=
  if method = "register_project" then
    match args with
    | [.address caller, .bytes32 hash, .symbol methodology, .symbol country, .u64 nonce] =>
        some (.registerProject caller hash methodology country nonce)
    | _ => none
  else if method = "approve_project" then
    match args with
    | [.address caller, .u64 projectId, .u64 nonce] =>
        some (.approveProject caller projectId nonce)
    | _ => none
  else if method = "reject_project" then
    match args with
    | [.address caller, .u64 projectId, .u64 nonce] => some (.rejectProject caller projectId nonce)
    | _ => none
  else if method = "deactivate_project" then
    match args with
    | [.address caller, .u64 projectId, .u64 nonce] =>
        some (.deactivateProject caller projectId nonce)
    | _ => none
  else if method = "resubmit_project" then
    match args with
    | [.address caller, .u64 projectId, .bytes32 hash, .u64 nonce] =>
        some (.resubmitProject caller projectId hash nonce)
    | _ => none
  else if method = "set_admin" then
    match args with
    | [.address currentAdmin, .address newAdmin, .u64 nonce] =>
        some (.setAdmin currentAdmin newAdmin nonce)
    | _ => none
  else none

/-- The call counts in instance storage exactly if it is a `set_admin`. -/
theorem callOf_countsInInstance {method : Symbol} {args : List Val} {call : Call}
    (h : callOf method args = some call) : call.CountsInInstance ↔ method = "set_admin" := by
  unfold callOf at h
  split_ifs at h with h1 h2 h3 h4 h5 h6
  all_goals
    split at h
    · obtain rfl := Option.some.inj h
      simp [Call.CountsInInstance, *]
    · cases h

/-- The arguments of an execution begin with the governance contract's address and end
with the execution nonce. -/
theorem fullArgs_ends (env : Env) (proposal : Governance.Proposal) (execNonce : Nat) :
    (Governance.fullArgs env proposal execNonce).head? = some (.address env.contract) ∧
      (Governance.fullArgs env proposal execNonce).getLast? = some (.u64 execNonce) := by
  unfold Governance.fullArgs
  exact ⟨rfl, List.getLast?_concat⟩

/-- A call made by governance is made in the name of governance and with the
nonce it appended. -/
theorem callOf_fullArgs {env : Env} {proposal : Governance.Proposal} {execNonce : Nat}
    {call : Call}
    (h : callOf proposal.method (Governance.fullArgs env proposal execNonce) = some call) :
    call.nonceTaken = some (env.contract, execNonce) := by
  obtain ⟨hfirst, hlast⟩ := fullArgs_ends env proposal execNonce
  unfold callOf at h
  split_ifs at h
  all_goals
    split at h
    · next heq =>
        rw [heq] at hfirst hlast
        obtain rfl := Option.some.inj h
        simp at hfirst hlast
        simp [Call.nonceTaken, hfirst, hlast]
    · cases h

end ProjectRegistry

namespace GovernedRegistry

open Governance (Val InvokeContract Proposal)

/-! ## The two contracts together -/

/-- The addresses of the two contracts. -/
structure Deployment where
  governanceAddress : Address
  registryAddress : Address
  distinct : registryAddress ≠ governanceAddress

/-- The storages of the two contracts. -/
structure World where
  governance : Governance.State
  registry : ProjectRegistry.State

/-- The calls of the two contracts. -/
inductive Call
  | governance (call : Governance.Call)
  | registry (call : ProjectRegistry.Call)

/-- What a call of either contract returns. -/
inductive Output
  | governance (out : Governance.Output)
  | registry (out : ProjectRegistry.Output)

/-- The errors of either contract. -/
inductive Error
  | governance (e : GovernanceError)
  | registry (e : RegistryError)

/-- A transaction, with what calls of other contracts than the registry come to. -/
structure Tx where
  timestamp : Nat
  signers : List Address
  invoker : Option Address
  overflowChecks : Bool
  succeeds : Address → Symbol → List Val → Bool
  call : Call

/-- The environment in which the called contract runs. -/
def Tx.env (tx : Tx) (contract : Address) : Env :=
  { timestamp := tx.timestamp, signers := tx.signers, invoker := tx.invoker, contract
    overflowChecks := tx.overflowChecks }

variable (d : Deployment)

/-- The host's `invoke_contract` for a call made by governance: the registry
runs, and any other contract succeeds or fails without touching it.  (What it
may do to the registry in its own name is a transaction of its own.) -/
def invokeContract (w : World) (tx : Tx) : InvokeContract RegistryError ProjectRegistry.State :=
  fun target method args =>
    if target = d.registryAddress then do
      let call ← orTrap (ProjectRegistry.callOf method args)
      let (_, registry) ← ProjectRegistry.exec
        ((tx.env d.governanceAddress).invoking d.registryAddress) w.registry call
      return registry
    else do
      trapUnless (tx.succeeds target method args = true)
      return w.registry

/-- Execute a transaction.  The governance contract signs nothing, so that a
direct call of the registry is never authorised by it. -/
def execute (w : World) (tx : Tx) : Fallible Error (Output × World) :=
  match tx.call with
  | .governance call => do
      let (out, registry, governance) ← mapError .governance
        (Governance.exec (tx.env d.governanceAddress) (invokeContract d w tx) w.governance call)
      return (.governance out, { governance, registry := registry.getD w.registry })
  | .registry call => do
      trapUnless (¬ (tx.env d.registryAddress).Authorizes d.governanceAddress)
      let (out, registry) ← mapError .registry
        (ProjectRegistry.exec (tx.env d.registryAddress) w.registry call)
      return (.registry out, { w with registry })

/-- The two contracts as one machine. -/
def machine : Machine World Tx Output (Failure Error) := ⟨execute d⟩

/-- Governance is the first admin of the registry. -/
def deploy (governance : Governance.State) : World :=
  ⟨governance, ProjectRegistry.constructor d.governanceAddress⟩

/-- A successful transaction, with the worlds around it. -/
abbrev LogEntry := Event World Tx Output

/-- What a successful transaction is: a governance call that may have run the
registry, or a call of the registry that governance did not authorise. -/
inductive WorldStep (w : World) (tx : Tx) (w' : World) : Prop
  | governance (call : Governance.Call) (out : Governance.Output)
      (registry : Option ProjectRegistry.State) (hcall : tx.call = .governance call)
      (hexec : Governance.exec (tx.env d.governanceAddress) (invokeContract d w tx) w.governance
        call = .ok (out, registry, w'.governance))
      (hregistry : w'.registry = registry.getD w.registry)
  | registry (call : ProjectRegistry.Call) (out : ProjectRegistry.Output)
      (hcall : tx.call = .registry call)
      (hforeign : ¬ (tx.env d.registryAddress).Authorizes d.governanceAddress)
      (hexec : ProjectRegistry.exec (tx.env d.registryAddress) w.registry call =
        .ok (out, w'.registry))
      (hgovernance : w'.governance = w.governance)

/-- Every accepted transaction is a step of the joint world. -/
theorem worldStep_of_fires {e : LogEntry} (h : (machine d).Fires e) :
    WorldStep d e.before e.input e.after := by
  unfold Machine.Fires at h
  simp only [machine, execute] at h
  split at h
  · next call hcall =>
      simp only [bind_ok_iff, mapError_ok_iff, pure_ok_iff, Prod.mk.injEq, Prod.exists] at h
      obtain ⟨out, registry, governance, hexec, -, hafter⟩ := h
      rw [← hafter]
      exact .governance call out registry hcall hexec rfl
  · next call hcall =>
      simp only [bind_ok_iff, mapError_ok_iff, trapUnless_ok_iff, pure_ok_iff, Prod.mk.injEq,
        Prod.exists] at h
      obtain ⟨-, hforeign, out, registry, hexec, -, hafter⟩ := h
      rw [← hafter]
      exact .registry call out hcall hforeign hexec rfl

/-- Governance runs beside the registry as it runs on its own. -/
theorem exists_governance_run (governance : Governance.State) (txs : List Tx) :
    ∃ calls, ((machine d).run (deploy d governance) txs).governance =
      Governance.machine.run governance calls := by
  refine (machine d).exists_run_of_simulation Governance.machine World.governance ?_
    (deploy d governance) txs
  intro e hfires
  cases worldStep_of_fires d hfires with
  | registry _ _ _ _ _ hgovernance => exact Or.inl hgovernance
  | governance call out registry _ hexec _ =>
      right
      let tx : Governance.Tx :=
        { env := e.input.env d.governanceAddress, call := call
          succeeds := fun target method args =>
            (invokeContract d e.before e.input target method args).isOk }
      obtain ⟨invocation, hexec'⟩ := Governance.exec_of_exec (g := tx.invokeContract)
        (fun target method args value hvalue => ⟨⟨target, method, args⟩, by
          simp [tx, Governance.Tx.invokeContract, hvalue, Except.isOk, Except.toBool]⟩) hexec
      exact ⟨tx, (out, invocation), by simp [Governance.machine, tx, hexec']⟩

/-! ## Nonces of governance in the registry -/

/-- One for an executed proposal on the registry that counts in the given place
there (instance storage, or persistent storage), zero for any other. -/
def nonceShare (registryAddress : Address) (inInstance : Bool) (proposal : Proposal) : Int :=
  if proposal.status = .executed ∧ proposal.target = registryAddress ∧
      (proposal.method = "set_admin" ↔ inInstance = true) then 1 else 0

theorem nonceShare_nonneg (registryAddress : Address) (inInstance : Bool) (proposal : Proposal) :
    0 ≤ nonceShare registryAddress inInstance proposal := by
  unfold nonceShare
  split <;> decide

/-- Only an executed proposal has a share of the nonces. -/
theorem nonceShare_of_ne {proposal : Proposal} (h : proposal.status ≠ .executed)
    (registryAddress : Address) (inInstance : Bool) :
    nonceShare registryAddress inInstance proposal = 0 := by
  simp [nonceShare, h]

/-- The executed proposals on the registry that count in a place. -/
def World.executions (w : World) (inInstance : Bool) : Int :=
  w.governance.proposal.sum fun _ proposal => nonceShare d.registryAddress inInstance proposal

/-- What every reachable world satisfies: the registry counts, in each place,
the executed proposals that count there, and governance counts them all. -/
structure NonceInvariant (w : World) : Prop where
  unused : ∀ id, w.governance.proposalCount < id → w.governance.proposal.get id = none
  inInstance : (w.registry.nonce.read d.governanceAddress : Int) = w.executions d true
  inPersistent : (w.registry.persistentNonce.read d.governanceAddress : Int) =
    w.executions d false
  total : w.governance.executionNonce.read d.registryAddress =
    w.registry.nonceTotal d.governanceAddress

/-- A governance call that writes one proposal, neither executed before nor
after, and calls nobody. -/
theorem NonceInvariant.of_write {w w' : World} (hw : NonceInvariant d w) {id : Nat}
    {proposal : Proposal}
    (hunused : ∀ id, w'.governance.proposalCount < id → w'.governance.proposal.get id = none)
    (hproposal : w'.governance.proposal = w.governance.proposal.set id proposal)
    (hbefore : ∀ old, w.governance.proposal.get id = some old → old.status ≠ .executed)
    (hstatus : proposal.status ≠ .executed) (hregistry : w'.registry = w.registry)
    (hnonces : w'.governance.executionNonce = w.governance.executionNonce) :
    NonceInvariant d w' := by
  have hexecutions : ∀ inInstance, w'.executions d inInstance = w.executions d inInstance := by
    intro inInstance
    unfold World.executions
    rw [hproposal, sum_set, nonceShare_of_ne hstatus]
    cases hold : w.governance.proposal.get id with
    | none => simp
    | some old => simp [nonceShare_of_ne (hbefore old hold)]
  refine ⟨hunused, ?_, ?_, ?_⟩
  · rw [hregistry, hexecutions, hw.inInstance]
  · rw [hregistry, hexecutions, hw.inPersistent]
  · rw [hregistry, hnonces, hw.total]

/-- The execution of a proposal on the registry, counted there in one place. -/
theorem NonceInvariant.of_execution {w w' : World} (hw : NonceInvariant d w) {env : Env}
    {id : Nat} {proposal : Proposal} (inInstance : Bool)
    (hunused : ∀ id, w'.governance.proposalCount < id → w'.governance.proposal.get id = none)
    (hget : w.governance.proposal.get id = some proposal) (hqueued : proposal.status = .queued)
    (hproposal : w'.governance.proposal = w.governance.proposal.set id (proposal.executedNow env))
    (htarget : proposal.target = d.registryAddress)
    (hplace : proposal.method = "set_admin" ↔ inInstance = true)
    (hnonces : w'.governance.executionNonce = w.governance.executionNonce.set d.registryAddress
      (w.governance.executionNonce.read d.registryAddress + 1))
    (hinstance : w'.registry.nonce.read d.governanceAddress =
      w.registry.nonce.read d.governanceAddress + if inInstance = true then 1 else 0)
    (hpersistent : w'.registry.persistentNonce.read d.governanceAddress =
      w.registry.persistentNonce.read d.governanceAddress + if inInstance = true then 0 else 1) :
    NonceInvariant d w' := by
  have hexecutions : ∀ place, w'.executions d place =
      w.executions d place + if place = inInstance then 1 else 0 := by
    intro place
    have hbefore : nonceShare d.registryAddress place proposal = 0 :=
      nonceShare_of_ne (by simp [hqueued]) _ _
    have hafter : nonceShare d.registryAddress place (proposal.executedNow env) =
        if place = inInstance then 1 else 0 := by
      have hsame : (proposal.method = "set_admin" ↔ place = true) ↔ place = inInstance := by
        rw [hplace]
        cases place <;> cases inInstance <;> simp
      simp [nonceShare, Governance.Proposal.executedNow, htarget, hsame]
    unfold World.executions
    rw [hproposal, sum_set, hget]
    simp only [Option.elim_some, hbefore, hafter]
    omega
  have htotal := hw.total
  have hin := hw.inInstance
  have hout := hw.inPersistent
  unfold ProjectRegistry.State.nonceTotal at htotal
  refine ⟨hunused, ?_, ?_, ?_⟩
  · rw [hexecutions, hinstance, ← hin]
    cases inInstance <;> simp
  · rw [hexecutions, hpersistent, ← hout]
    cases inInstance <;> simp
  · unfold ProjectRegistry.State.nonceTotal
    rw [hnonces, read_set_self, hinstance, hpersistent, htotal]
    cases inInstance <;> simp <;> omega

/-- The execution of a proposal on another contract. -/
theorem NonceInvariant.of_other_execution {w w' : World} (hw : NonceInvariant d w) {env : Env}
    {id : Nat} {proposal : Proposal}
    (hunused : ∀ id, w'.governance.proposalCount < id → w'.governance.proposal.get id = none)
    (hget : w.governance.proposal.get id = some proposal) (hqueued : proposal.status = .queued)
    (hproposal : w'.governance.proposal = w.governance.proposal.set id (proposal.executedNow env))
    (htarget : proposal.target ≠ d.registryAddress)
    (hnonces : w'.governance.executionNonce = w.governance.executionNonce.set proposal.target
      (w.governance.executionNonce.read proposal.target + 1))
    (hregistry : w'.registry = w.registry) : NonceInvariant d w' := by
  have hexecutions : ∀ place, w'.executions d place = w.executions d place := by
    intro place
    have hbefore : nonceShare d.registryAddress place proposal = 0 :=
      nonceShare_of_ne (by simp [hqueued]) _ _
    have hafter : nonceShare d.registryAddress place (proposal.executedNow env) = 0 := by
      simp [nonceShare, Governance.Proposal.executedNow, htarget]
    unfold World.executions
    rw [hproposal, sum_set, hget]
    simp [hbefore, hafter]
  refine ⟨hunused, ?_, ?_, ?_⟩
  · rw [hregistry, hexecutions, hw.inInstance]
  · rw [hregistry, hexecutions, hw.inPersistent]
  · rw [hregistry, hnonces, read_set_ne _ _ (Ne.symm htarget), hw.total]

/-- A direct call of the registry takes no nonce of governance. -/
theorem NonceInvariant.of_foreign_call {w w' : World} {env : Env} {call : ProjectRegistry.Call}
    (hw : NonceInvariant d w) (hforeign : ¬ env.Authorizes d.governanceAddress)
    (hstep : ProjectRegistry.RegistryStep env w.registry w'.registry call)
    (hgovernance : w'.governance = w.governance) : NonceInvariant d w' := by
  have hreads : w'.registry.nonce.read d.governanceAddress =
        w.registry.nonce.read d.governanceAddress ∧
      w'.registry.persistentNonce.read d.governanceAddress =
        w.registry.persistentNonce.read d.governanceAddress := by
    have hother : ∀ addr nonce, call.nonceTaken = some (addr, nonce) →
        d.governanceAddress ≠ addr := by
      intro addr nonce htaken heq
      exact hforeign (heq ▸ hstep.authorizes htaken)
    cases hstep.nonceStep with
    | untouched _ hnonce hpersistent => rw [hnonce, hpersistent]; exact ⟨rfl, rfl⟩
    | inPersistent addr htaken _ hnonce hpersistent =>
        rw [hnonce, hpersistent, read_set_ne _ _ (hother addr _ htaken)]
        exact ⟨rfl, rfl⟩
    | inInstance addr htaken _ hnonce hpersistent =>
        rw [hnonce, hpersistent, read_set_ne _ _ (hother addr _ htaken)]
        exact ⟨rfl, rfl⟩
  obtain ⟨hnonce, hpersistent⟩ := hreads
  have hexecutions : ∀ place, w'.executions d place = w.executions d place := by
    intro place
    unfold World.executions
    rw [hgovernance]
  refine ⟨hgovernance ▸ hw.unused, ?_, ?_, ?_⟩
  · rw [hnonce, hexecutions, hw.inInstance]
  · rw [hpersistent, hexecutions, hw.inPersistent]
  · rw [hgovernance, hw.total, ProjectRegistry.State.nonceTotal, ProjectRegistry.State.nonceTotal,
      hnonce, hpersistent]

/-- **Step lemma.**  Every successful transaction keeps the nonce invariant. -/
theorem NonceInvariant.step {e : LogEntry} (hw : NonceInvariant d e.before)
    (hfires : (machine d).Fires e)
    (hunused : ∀ id, e.after.governance.proposalCount < id →
      e.after.governance.proposal.get id = none) :
    NonceInvariant d e.after := by
  cases worldStep_of_fires d hfires with
  | registry call out hcall hforeign hexec hgovernance =>
      exact hw.of_foreign_call d hforeign (ProjectRegistry.registryStep_exec hexec) hgovernance
  | governance call out registry hcall hexec hregistry =>
      cases Governance.governanceStep_exec hexec with
      | allowListed caller target method nonce allowed _ hafter hresult =>
          have hsame : e.after.registry = e.before.registry := by rw [hregistry, hresult]; rfl
          have hproposal : e.after.governance.proposal = e.before.governance.proposal := by
            rw [hafter]; rfl
          have hnonces : e.after.governance.executionNonce =
              e.before.governance.executionNonce := by rw [hafter]; rfl
          have hexecutions : ∀ place, e.after.executions d place = e.before.executions d place := by
            intro place
            unfold World.executions
            rw [hproposal]
          exact ⟨hunused, by rw [hsame, hexecutions, hw.inInstance],
            by rw [hsame, hexecutions, hw.inPersistent], by rw [hsame, hnonces, hw.total]⟩
      | proposed caller target method args description nonce _ _ _ hafter hresult =>
          have hnew := hw.unused (e.before.governance.proposalCount + 1) (Nat.lt_succ_self _)
          have hproposal : e.after.governance.proposal =
              e.before.governance.proposal.set (e.before.governance.proposalCount + 1)
                (Governance.freshProposal (e.input.env d.governanceAddress) e.before.governance
                  caller target method args description) := by rw [hafter]
          exact hw.of_write d hunused hproposal (by simp [hnew])
            (by simp [Governance.freshProposal]) (by rw [hregistry, hresult]; rfl)
            (by rw [hafter]; rfl)
      | approved caller id nonce proposal _ _ _ _ hget hpending _ hafter hresult =>
          obtain ⟨hstatus, -⟩ := Governance.approve_status proposal
            (e.input.env d.governanceAddress) (e.before.governance.threshold.getD 1) hpending
          have hproposal : e.after.governance.proposal = e.before.governance.proposal.set id
              (proposal.approve (e.input.env d.governanceAddress)
                (e.before.governance.threshold.getD 1)) := by rw [hafter]
          exact hw.of_write d hunused hproposal (by simp [hget, hpending]) hstatus
            (by rw [hregistry, hresult]; rfl) (by rw [hafter]; rfl)
      | vetoed caller id nonce proposal _ _ _ _ hget hpending _ hafter hresult =>
          obtain ⟨hstatus, -⟩ := Governance.veto_status proposal
            (e.before.governance.threshold.getD 1) hpending
          have hproposal : e.after.governance.proposal = e.before.governance.proposal.set id
              (proposal.veto (e.before.governance.threshold.getD 1)) := by rw [hafter]
          exact hw.of_write d hunused hproposal (by simp [hget, hpending]) hstatus
            (by rw [hregistry, hresult]; rfl) (by rw [hafter]; rfl)
      | cancelled caller id nonce proposal _ hget hpending hafter hresult =>
          have hproposal : e.after.governance.proposal = e.before.governance.proposal.set id
              { proposal with status := .cancelled } := by rw [hafter]
          exact hw.of_write d hunused hproposal (by simp [hget, hpending]) (by simp)
            (by rw [hregistry, hresult]; rfl) (by rw [hafter]; rfl)
      | executed caller id nonce proposal registry' _ hget hqueued _ _ hinvoke hafter hresult =>
          have hproposal : e.after.governance.proposal = e.before.governance.proposal.set id
              (proposal.executedNow (e.input.env d.governanceAddress)) := by rw [hafter]
          have hnonces : e.after.governance.executionNonce =
              e.before.governance.executionNonce.set proposal.target
                (e.before.governance.executionNonce.read proposal.target + 1) := by rw [hafter]
          have hreplaced : e.after.registry = registry' := by rw [hregistry, hresult]; rfl
          unfold invokeContract at hinvoke
          by_cases htarget : proposal.target = d.registryAddress
          · rw [if_pos htarget] at hinvoke
            simp only [bind_ok_iff, orTrap_ok_iff, pure_ok_iff, Prod.exists] at hinvoke
            obtain ⟨call', hcallOf, out', registry'', hexec', rfl⟩ := hinvoke
            have htaken := ProjectRegistry.callOf_fullArgs hcallOf
            have hkind := ProjectRegistry.callOf_countsInInstance hcallOf
            rw [htarget] at hnonces
            cases (ProjectRegistry.registryStep_exec hexec').nonceStep with
            | untouched hnone _ _ => simp [hnone] at htaken
            | inPersistent addr htaken' hplace hnonce hpersistent =>
                obtain rfl : addr = d.governanceAddress := by
                  rw [htaken] at htaken'
                  exact (Prod.mk.inj (Option.some.inj htaken')).1.symm
                refine hw.of_execution d false hunused hget hqueued hproposal htarget ?_ hnonces
                  ?_ ?_
                · simpa using fun h => hplace (hkind.mpr h)
                · rw [hreplaced, hnonce]
                  rfl
                · rw [hreplaced, hpersistent, read_set_self]
                  rfl
            | inInstance addr htaken' hplace hnonce hpersistent =>
                obtain rfl : addr = d.governanceAddress := by
                  rw [htaken] at htaken'
                  exact (Prod.mk.inj (Option.some.inj htaken')).1.symm
                refine hw.of_execution d true hunused hget hqueued hproposal htarget ?_ hnonces
                  ?_ ?_
                · simpa using hkind.mp hplace
                · rw [hreplaced, hnonce, read_set_self]
                  rfl
                · rw [hreplaced, hpersistent]
                  rfl
          · rw [if_neg htarget] at hinvoke
            simp only [bind_ok_iff, trapUnless_ok_iff, pure_ok_iff] at hinvoke
            obtain ⟨-, -, rfl⟩ := hinvoke
            exact hw.of_other_execution d hunused hget hqueued hproposal htarget hnonces hreplaced

/-- The invariant of the nonces holds after every run. -/
theorem nonceInvariant_run {signers : List Address} {threshold timelockSeconds : Nat}
    {governance : Governance.State}
    (h : Governance.constructor signers threshold timelockSeconds = .ok governance)
    (txs : List Tx) : NonceInvariant d ((machine d).run (deploy d governance) txs) := by
  have hunused : ∀ calls, ∀ id,
      ((machine d).run (deploy d governance) calls).governance.proposalCount < id →
      ((machine d).run (deploy d governance) calls).governance.proposal.get id = none := by
    intro calls
    obtain ⟨calls', hrun⟩ := exists_governance_run d governance calls
    rw [hrun]
    exact (Governance.ballotInvariant_run h calls').unused
  induction txs using List.reverseRecOn with
  | nil =>
      have hempty : governance.proposal = ∅ ∧ governance.executionNonce = ∅ := by
        obtain ⟨-, -, -, rfl⟩ := Governance.constructor_ok_iff.mp h
        exact ⟨rfl, rfl⟩
      refine ⟨hunused [], ?_, ?_, ?_⟩ <;>
        simp [deploy, ProjectRegistry.constructor, World.executions, hempty,
          ProjectRegistry.State.nonceTotal]
  | append_singleton txs tx ih =>
      rcases (machine d).snoc_cases (deploy d governance) txs tx with
        ⟨hrun, -⟩ | ⟨e, hfires, -, hbefore, hrun, -⟩
      · rwa [hrun]
      · have hunused' := hunused (txs ++ [tx])
        rw [hrun] at hunused' ⊢
        exact (hbefore ▸ ih).step d hfires hunused'

/-! ## Executing a proposal on the registry -/

/-- What the registry checks about a call besides caller and nonce: the caller
is its admin, and a project under review is in the right state. -/
inductive RegistryReady (s : ProjectRegistry.State) (caller : Address) : Symbol → List Val → Prop
  | approveProject (projectId : Nat) (project : ProjectRegistry.Project)
      (hadmin : s.admin = some caller)
      (hget : s.project.get (ProjectRegistry.projectIdToBytes projectId) = some project)
      (hstatus : project.status = .pending) :
      RegistryReady s caller "approve_project" [.u64 projectId]
  | rejectProject (projectId : Nat) (project : ProjectRegistry.Project)
      (hadmin : s.admin = some caller)
      (hget : s.project.get (ProjectRegistry.projectIdToBytes projectId) = some project)
      (hstatus : project.status = .pending) :
      RegistryReady s caller "reject_project" [.u64 projectId]
  | deactivateProject (projectId : Nat) (project : ProjectRegistry.Project)
      (hadmin : s.admin = some caller)
      (hget : s.project.get (ProjectRegistry.projectIdToBytes projectId) = some project)
      (hstatus : project.status = .approved) :
      RegistryReady s caller "deactivate_project" [.u64 projectId]
  | setAdmin (newAdmin : Address) (hadmin : s.admin = some caller) :
      RegistryReady s caller "set_admin" [.address newAdmin]

/-- A call the registry is ready for succeeds exactly if it carries the nonce of
the place where it counts. -/
theorem registry_call_isOk_iff {s : ProjectRegistry.State} {env : Env} {caller : Address}
    {method : Symbol} {args : List Val} {nonce : Nat} (hauth : env.Authorizes caller)
    (hready : RegistryReady s caller method args) :
    (∃ call out s', ProjectRegistry.callOf method (.address caller :: args ++ [.u64 nonce]) =
        some call ∧ ProjectRegistry.exec env s call = .ok (out, s')) ↔
      nonce = if method = "set_admin" then s.nonce.read caller
        else s.persistentNonce.read caller := by
  cases hready with
  | approveProject projectId project hadmin hget hstatus =>
      simp [ProjectRegistry.callOf, ProjectRegistry.exec, ProjectRegistry.silent_ok_iff,
        ProjectRegistry.approveProject, ProjectRegistry.reviewProject_ok_iff, hauth, hadmin, hget,
        hstatus]
  | rejectProject projectId project hadmin hget hstatus =>
      simp [ProjectRegistry.callOf, ProjectRegistry.exec, ProjectRegistry.silent_ok_iff,
        ProjectRegistry.rejectProject, ProjectRegistry.reviewProject_ok_iff, hauth, hadmin, hget,
        hstatus]
  | deactivateProject projectId project hadmin hget hstatus =>
      simp [ProjectRegistry.callOf, ProjectRegistry.exec, ProjectRegistry.silent_ok_iff,
        ProjectRegistry.deactivateProject, ProjectRegistry.reviewProject_ok_iff, hauth, hadmin,
        hget, hstatus]
  | setAdmin newAdmin hadmin =>
      simp [ProjectRegistry.callOf, ProjectRegistry.exec, ProjectRegistry.silent_ok_iff,
        ProjectRegistry.setAdmin_ok_iff, hauth, hadmin]

/-- The proposal was executed on the registry. -/
def World.ExecutedOnRegistry (w : World) (proposal : Proposal) : Prop :=
  (∃ id, w.governance.proposal.get id = some proposal) ∧ proposal.status = .executed ∧
    proposal.target = d.registryAddress

/-- Nothing was executed that counts in a place exactly if every executed
proposal counts in the other. -/
theorem executions_eq_zero_iff (w : World) (inInstance : Bool) :
    w.executions d inInstance = 0 ↔ ∀ proposal, w.ExecutedOnRegistry d proposal →
      ¬ (proposal.method = "set_admin" ↔ inInstance = true) := by
  constructor
  · intro hzero proposal hexecuted hplace
    obtain ⟨⟨id, hget⟩, hstatus, htarget⟩ := hexecuted
    have hle : nonceShare d.registryAddress inInstance proposal ≤ w.executions d inInstance :=
      le_sum_of_get (f := fun _ proposal => nonceShare d.registryAddress inInstance proposal)
        (fun _ _ _ => nonceShare_nonneg _ _ _) hget
    have hone : nonceShare d.registryAddress inInstance proposal = 1 :=
      if_pos ⟨hstatus, htarget, hplace⟩
    omega
  · intro hnone
    apply sum_eq_zero
    intro id proposal hget
    unfold nonceShare
    rw [if_neg]
    intro h
    exact hnone proposal ⟨⟨id, hget⟩, h.1, h.2.1⟩ h.2.2

/-- The nonce governance appends is the one the registry expects exactly if all
executed proposals on the registry count where this one does. -/
theorem nonce_expected_iff {w : World} (hw : NonceInvariant d w) (method : Symbol) :
    (w.governance.executionNonce.read d.registryAddress =
      if method = "set_admin" then w.registry.nonce.read d.governanceAddress
        else w.registry.persistentNonce.read d.governanceAddress) ↔
      ∀ other, w.ExecutedOnRegistry d other →
        (other.method = "set_admin" ↔ method = "set_admin") := by
  have htotal := hw.total
  have hin := hw.inInstance
  have hout := hw.inPersistent
  unfold ProjectRegistry.State.nonceTotal at htotal
  by_cases hmethod : method = "set_admin"
  · have hother : w.executions d false = 0 ↔ _ := executions_eq_zero_iff d w false
    simp only [hmethod, if_true, iff_true]
    simp only [Bool.false_eq_true, iff_false, not_not] at hother
    rw [← hother]
    omega
  · have hother : w.executions d true = 0 ↔ _ := executions_eq_zero_iff d w true
    simp only [hmethod, if_false, iff_false]
    simp only [iff_true] at hother
    rw [← hother]
    omega

/-- **Governed registry.**  In every reachable world, a queued proposal past its
timelock that the registry is ready for is executed successfully exactly if all
proposals executed on the registry before are of its kind: all `set_admin`, or
none. -/
theorem governed_execution_succeeds_iff (signers : List Address)
    (threshold timelockSeconds : Nat) (governance : Governance.State)
    (h : Governance.constructor signers threshold timelockSeconds = .ok governance)
    (txs : List Tx) (tx : Tx) (caller : Address) (id nonce : Nat) (proposal : Proposal)
    (hcall : tx.call = .governance (.execute caller id nonce))
    (hadmits : ((machine d).run (deploy d governance) txs).governance.Admits
      (tx.env d.governanceAddress) caller nonce)
    (hget : ((machine d).run (deploy d governance) txs).governance.proposal.get id = some proposal)
    (hqueued : proposal.status = .queued)
    (hdue : IntRange.u64.saturatingAddNat proposal.queuedAt proposal.timelockSeconds ≤
      tx.timestamp)
    (htarget : proposal.target = d.registryAddress)
    (hready : RegistryReady ((machine d).run (deploy d governance) txs).registry
      d.governanceAddress proposal.method proposal.args) :
    (∃ out w', execute d ((machine d).run (deploy d governance) txs) tx = .ok (out, w')) ↔
      ∀ other, ((machine d).run (deploy d governance) txs).ExecutedOnRegistry d other →
        (other.method = "set_admin" ↔ proposal.method = "set_admin") := by
  have hw := nonceInvariant_run d h txs
  generalize (machine d).run (deploy d governance) txs = w at *
  have hauth : ((tx.env d.governanceAddress).invoking d.registryAddress).Authorizes
      d.governanceAddress := Or.inr rfl
  rw [← nonce_expected_iff d hw, ← registry_call_isOk_iff hauth hready]
  constructor
  · intro hok
    obtain ⟨out, w', hexecute⟩ := hok
    simp only [execute, hcall, bind_ok_iff, mapError_ok_iff, Prod.exists] at hexecute
    obtain ⟨out', registry, governance', hexec, -⟩ := hexecute
    simp only [Governance.exec, bind_ok_iff, Prod.exists] at hexec
    obtain ⟨registry', governance'', hexecuted, -⟩ := hexec
    obtain ⟨-, proposal', hget', -, -, -, hinvoke, -⟩ :=
      Governance.execute_ok_iff.mp hexecuted
    obtain rfl : proposal = proposal' := by simpa [hget] using hget'
    simp only [invokeContract, if_pos htarget, bind_ok_iff, orTrap_ok_iff, Prod.exists] at hinvoke
    obtain ⟨call, hcallOf, out'', s', hcalled, -⟩ := hinvoke
    rw [htarget] at hcallOf
    exact ⟨call, out'', s', hcallOf, hcalled⟩
  · intro hok
    obtain ⟨call, out, registry, hcallOf, hcalled⟩ := hok
    have hinvoke : invokeContract d w tx proposal.target proposal.method
        (Governance.fullArgs (tx.env d.governanceAddress) proposal
          (w.governance.executionNonce.read proposal.target)) = .ok registry := by
      simp only [invokeContract, if_pos htarget, bind_ok_iff, orTrap_ok_iff, Prod.exists]
      exact ⟨call, by rw [htarget]; exact hcallOf, out, registry, hcalled, rfl⟩
    have hother : proposal.target ≠ (tx.env d.governanceAddress).contract :=
      htarget ▸ d.distinct
    have hexecuted := Governance.execute_ok_iff.mpr
      ⟨hadmits, proposal, hget, hqueued, hdue, hother, hinvoke, rfl⟩
    simp only [execute, hcall, Governance.exec]
    rw [hexecuted]
    exact ⟨_, _, rfl⟩

/-! ## Sample runs -/

/-- Governance at address 9, the registry at address 50. -/
def sampleDeployment : Deployment := ⟨9, 50, by decide⟩

/-- Governance with one signer and a timelock of ten seconds. -/
def sampleGovernance : Governance.State where
  signers := some [1]
  threshold := some 1
  timelockSeconds := some 10
  proposal := ∅
  proposalCount := 0
  vote := ∅
  nonce := ∅
  executionNonce := ∅
  allowList := ∅

/-- A transaction at a time, signed by one account, in a release build. -/
def sampleTx (time : Nat) (signer : Address) (call : Call) : Tx :=
  ⟨time, [signer], none, false, fun _ _ _ => true, call⟩

/-- A project is registered; its approval and a change of the registry's admin
are proposed and queued. -/
def queuedProposals : List Tx := [
  sampleTx 1 7 (.registry (.registerProject 7 ProjectRegistry.sampleHash "VCS" "US" 0)),
  sampleTx 1 1 (.governance (.addToAllowList 1 50 "approve_project" 0)),
  sampleTx 1 1 (.governance (.addToAllowList 1 50 "set_admin" 1)),
  sampleTx 2 1 (.governance (.propose 1 50 "approve_project" [.u64 1] "approve" 2)),
  sampleTx 2 1 (.governance (.propose 1 50 "set_admin" [.address 8] "rotate" 3)),
  sampleTx 3 1 (.governance (.voteApprove 1 1 4)),
  sampleTx 3 1 (.governance (.voteApprove 1 2 5))]

/-- The approval is executed. -/
def executedApproval : List Tx :=
  queuedProposals ++ [sampleTx 20 1 (.governance (.execute 1 1 6))]

/-- The queued proposal to approve the project. -/
def approvalProposal : Proposal :=
  ⟨1, 1, 50, "approve_project", [.u64 1], "approve", .queued, 1, 0, 2, 3, 0, 10⟩

/-- The queued proposal to change the admin. -/
def rotationProposal : Proposal :=
  ⟨2, 1, 50, "set_admin", [.address 8], "rotate", .queued, 1, 0, 2, 3, 0, 10⟩

/-- The registry would accept the queued approval. -/
theorem registryReady_queuedProposals :
    RegistryReady ((machine sampleDeployment).run (deploy sampleDeployment sampleGovernance)
      queuedProposals).registry 9 "approve_project" [.u64 1] :=
  .approveProject 1
    (ProjectRegistry.freshProject 1 7 ProjectRegistry.sampleHash "VCS" "US")
    (by decide +kernel) (by decide +kernel) rfl

/-- In the run of queued proposals none has been executed. -/
theorem queuedProposals_not_executed :
    (((machine sampleDeployment).run (deploy sampleDeployment sampleGovernance)
      queuedProposals).governance.proposal.entries.all
        fun e => decide (e.2.status ≠ .executed)) = true := by
  decide +kernel

/-- With nothing executed before, the approval goes through. -/
theorem governed_execution_sample :
    ∃ out w', execute sampleDeployment ((machine sampleDeployment).run
      (deploy sampleDeployment sampleGovernance) queuedProposals)
        (sampleTx 20 1 (.governance (.execute 1 1 6))) = .ok (out, w') := by
  refine (governed_execution_succeeds_iff sampleDeployment [1] 1 10 sampleGovernance rfl
    queuedProposals (sampleTx 20 1 (.governance (.execute 1 1 6))) 1 1 6 approvalProposal rfl
    ⟨by decide, by decide +kernel⟩ rfl rfl (by decide) rfl registryReady_queuedProposals).mpr ?_
  intro other hother
  obtain ⟨⟨id, hget⟩, hstatus, -⟩ := hother
  have hnone := List.all_eq_true.mp queuedProposals_not_executed _ (Storage.mem_entries_iff.mpr hget)
  simp [hstatus] at hnone

set_option maxRecDepth 2000 in
/-- The rotation is queued right after the approval has been executed. -/
theorem rotation_queued : ((machine sampleDeployment).run
    (deploy sampleDeployment sampleGovernance) executedApproval).governance.proposal.get 2 =
      some rotationProposal := by
  rfl

/-- After the approval the change of the admin fails: governance appends nonce 1
where the registry expects 0. -/
theorem governed_rotation_fails_after_approval :
    ¬ ∀ (d : Deployment) (signers : List Address) (threshold timelockSeconds : Nat)
      (governance : Governance.State),
      Governance.constructor signers threshold timelockSeconds = .ok governance →
        ∀ (txs : List Tx) (tx : Tx) (caller : Address) (id nonce : Nat) (proposal : Proposal),
          tx.call = .governance (.execute caller id nonce) →
          ((machine d).run (deploy d governance) txs).governance.Admits
            (tx.env d.governanceAddress) caller nonce →
          ((machine d).run (deploy d governance) txs).governance.proposal.get id =
            some proposal →
          proposal.status = .queued →
          proposal.queuedAt + proposal.timelockSeconds ≤ tx.timestamp →
          proposal.target = d.registryAddress →
          RegistryReady ((machine d).run (deploy d governance) txs).registry
            d.governanceAddress proposal.method proposal.args →
          ∃ out w', execute d ((machine d).run (deploy d governance) txs) tx = .ok (out, w') := by
  intro h
  obtain ⟨out, w', hexecute⟩ := h sampleDeployment [1] 1 10 sampleGovernance rfl executedApproval
    (sampleTx 20 1 (.governance (.execute 1 2 7))) 1 2 7 rotationProposal rfl
    ⟨by decide, by decide +kernel⟩ rotation_queued rfl (by decide) rfl
    (.setAdmin 8 (by decide +kernel))
  have hfails : (execute sampleDeployment ((machine sampleDeployment).run
      (deploy sampleDeployment sampleGovernance) executedApproval)
        (sampleTx 20 1 (.governance (.execute 1 2 7)))).isOk = false := by decide +kernel
  rw [hexecute] at hfails
  cases hfails

end GovernedRegistry

end EcoMint
