import EcoMint.Protocol
import EcoMint.ProjectRegistry

/-!
# The contracts that the API talks to

The five deployed contracts together with the project registry, which the bond
issuer asks when it is configured with its address.  A call of any entry point
of any of them either goes through or leaves everything as it was.
-/

namespace EcoMint

open Fallible

/-- The deployed contracts and the project registry beside them. -/
structure Chain where
  world : World
  registryAddress : Address
  registry : ProjectRegistry.State

/-- The registries that a bond issuer on this chain can reach. -/
def Chain.registries (chain : Chain) : BondIssuer.Registries := fun address =>
  if address = chain.registryAddress then some chain.registry.view else none

/-- A call of one entry point of one contract. -/
inductive ChainCall
  | deployed (call : Call)
  | registry (call : ProjectRegistry.Call)
deriving DecidableEq

/-- What a transaction carries besides the call. -/
structure TxContext where
  timestamp : Nat
  signers : List Address
  invoker : Option Address
  overflowChecks : Bool

/-- A transaction to the deployed contracts. -/
def TxContext.tx (ctx : TxContext) (chain : Chain) (call : Call) : Tx :=
  { timestamp := ctx.timestamp, signers := ctx.signers, invoker := ctx.invoker
    overflowChecks := ctx.overflowChecks, registries := chain.registries, call }

/-- The environment in which the project registry runs. -/
def TxContext.env (ctx : TxContext) (contract : Address) : Env :=
  { timestamp := ctx.timestamp, signers := ctx.signers, invoker := ctx.invoker, contract
    overflowChecks := ctx.overflowChecks }

/-- The errors of a transaction on the chain. -/
inductive ChainError
  | deployed (e : Failure Error)
  | registry (e : Failure RegistryError)
deriving DecidableEq

/-- Execute a call on the chain. -/
def Chain.execute (chain : Chain) (ctx : TxContext) : ChainCall → Except ChainError Chain
  | .deployed call =>
      match EcoMint.execute chain.world (ctx.tx chain call) with
      | .ok (_, world) => .ok { chain with world }
      | .error e => .error (.deployed e)
  | .registry call =>
      match ProjectRegistry.exec (ctx.env chain.registryAddress) chain.registry call with
      | .ok (_, registry) => .ok { chain with registry }
      | .error e => .error (.registry e)

/-- The chain as one machine, called by anyone in any order. -/
def chainMachine : Machine Chain (TxContext × ChainCall) Unit ChainError where
  call chain tx := (chain.execute tx.1 tx.2).map fun chain' => ((), chain')

/-- The storages right after the constructors ran. -/
def launch (d : Deployment) (registryAddress registryAdmin : Address) : Chain where
  world := deploy d
  registryAddress
  registry := ProjectRegistry.constructor registryAdmin

/-- What a successful call changed: the deployed contracts, or the registry. -/
inductive ChainStep (chain : Chain) (ctx : TxContext) (call : ChainCall) (chain' : Chain) : Prop
  | deployed (inner : Call) (out : Output) (world : World) (hcall : call = .deployed inner)
      (hstep : WorldStep chain.world (ctx.tx chain inner) out world)
      (hafter : chain' = { chain with world })
  | registry (inner : ProjectRegistry.Call) (out : ProjectRegistry.Output)
      (registry : ProjectRegistry.State) (hcall : call = .registry inner)
      (hexec : ProjectRegistry.exec (ctx.env chain.registryAddress) chain.registry inner =
        .ok (out, registry))
      (hafter : chain' = { chain with registry })

/-- Every accepted transaction is a step of the chain. -/
theorem chainStep_of_execute {chain chain' : Chain} {ctx : TxContext} {call : ChainCall}
    (h : chain.execute ctx call = .ok chain') : ChainStep chain ctx call chain' := by
  unfold Chain.execute at h
  split at h
  · next inner =>
      split at h
      · next out world hexec =>
          cases h
          exact .deployed inner out world rfl (worldStep_of_execute hexec) rfl
      · cases h
  · next inner =>
      split at h
      · next out registry hexec =>
          cases h
          exact .registry inner out registry rfl hexec rfl
      · cases h

/-- The chain has run since its contracts were deployed. -/
def Chain.Reachable (chain : Chain) : Prop :=
  ∃ d registryAddress registryAdmin txs,
    chain = chainMachine.run (launch d registryAddress registryAdmin) txs

/-- A successful call of the chain is a call of a deployed contract, or one of
the registry that leaves the deployed contracts alone. -/
theorem Chain.world_of_execute {chain chain' : Chain} {ctx : TxContext} {call : ChainCall}
    (h : chain.execute ctx call = .ok chain') :
    chain'.world = chain.world ∨
      ∃ inner out, EcoMint.execute chain.world (ctx.tx chain inner) = .ok (out, chain'.world) := by
  unfold Chain.execute at h
  split at h
  · next inner =>
      split at h
      · next out world hexec =>
          cases h
          exact Or.inr ⟨inner, out, hexec⟩
      · cases h
  · next inner =>
      split at h
      · next out registry hexec =>
          cases h
          exact Or.inl rfl
      · cases h

/-- The deployed contracts of a chain have run on their own. -/
theorem Chain.Reachable.exists_world_run {chain : Chain} (h : chain.Reachable) :
    ∃ d txs, chain.world = machine.run (deploy d) txs := by
  obtain ⟨d, registryAddress, registryAdmin, txs, rfl⟩ := h
  refine ⟨d, chainMachine.exists_run_of_simulation machine Chain.world ?_
    (launch d registryAddress registryAdmin) txs⟩
  intro e hfires
  have hexec : e.before.execute e.input.1 e.input.2 = .ok e.after := by
    unfold Machine.Fires chainMachine at hfires
    cases hexecute : e.before.execute e.input.1 e.input.2 with
    | error err => simp [hexecute, Except.map] at hfires
    | ok chain' => simpa [hexecute, Except.map] using hfires
  rcases Chain.world_of_execute hexec with hsame | ⟨inner, out, hinner⟩
  · exact Or.inl hsame
  · exact Or.inr ⟨e.input.1.tx e.before inner, out, hinner⟩

end EcoMint
