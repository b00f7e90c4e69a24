import EcoMint.BondSupply
import EcoMint.CouponBatch
import EcoMint.CreditRetirement
import EcoMint.DexRouter
import EcoMint.OracleCalls

/-!
# The deployed contracts together

One deployment of the bond issuer, the oracle consumer, the coupon engine, the
credit retirement and the DEX router, wired to each other by the addresses
their constructors stored.  A transaction calls one entry point of one contract;
the calls that contract makes happen inside it, and a failure anywhere reverts
everything.  Anyone may call anything, signed by any accounts, at any time.

`WorldStep` says once what a successful transaction changes; the projections
that follow carry the invariants of a single contract over to the whole.
-/

namespace EcoMint

open Fallible

/-- The storages of the five contracts, with the addresses they live at. -/
structure World where
  issuerAddress : Address
  oracleAddress : Address
  engineAddress : Address
  retirementAddress : Address
  dexAddress : Address
  issuer : BondIssuer.State
  oracle : OracleConsumer.State
  engine : CouponEngine.State
  retirement : CreditRetirement.State
  dex : DexRouter.State
deriving DecidableEq

namespace World

/-- What is deployed at an address, as far as a contract asks for it. -/
def issuerAt (w : World) (a : Address) : Option BondIssuer.State :=
  if a = w.issuerAddress then some w.issuer else none

/-- The oracle, if it is what stands at the address. -/
def oracleAt (w : World) (a : Address) : Option OracleConsumer.State :=
  if a = w.oracleAddress then some w.oracle else none

/-- The engine, if it is what stands at the address. -/
def engineAt (w : World) (a : Address) : Option CouponEngine.State :=
  if a = w.engineAddress then some w.engine else none

/-- The contracts that the engine calls. -/
def enginePeers (w : World) : CouponEngine.Peers := ⟨w.issuerAt, w.oracleAt⟩

/-- The contracts that the retirement contract calls. -/
def retirementPeers (w : World) : CreditRetirement.Peers := ⟨w.issuerAt, w.engineAt⟩

/-- Whatever address the issuer is found at, it is the world's issuer. -/
theorem eq_issuer_of_issuerAt {w : World} {a : Address} {s : BondIssuer.State}
    (h : w.issuerAt a = some s) : s = w.issuer := by
  unfold issuerAt at h
  split at h
  · exact (Option.some.inj h).symm
  · cases h

/-- Whatever address the oracle is found at, it is the world's oracle. -/
theorem eq_oracle_of_oracleAt {w : World} {a : Address} {s : OracleConsumer.State}
    (h : w.oracleAt a = some s) : s = w.oracle := by
  unfold oracleAt at h
  split at h
  · exact (Option.some.inj h).symm
  · cases h

/-- Whatever address the engine is found at, it is the world's engine. -/
theorem eq_engine_of_engineAt {w : World} {a : Address} {s : CouponEngine.State}
    (h : w.engineAt a = some s) : s = w.engine := by
  unfold engineAt at h
  split at h
  · exact (Option.some.inj h).symm
  · cases h

end World

/-- The addresses and first admins of a deployment. -/
structure Deployment where
  issuerAddress : Address
  oracleAddress : Address
  engineAddress : Address
  retirementAddress : Address
  dexAddress : Address
  issuerAdmin : Address
  oracleAdmin : Address
  engineAdmin : Address
  retirementAdmin : Address
  dexAdmin : Address

/-- The storages right after the constructors ran. -/
def deploy (d : Deployment) : World where
  issuerAddress := d.issuerAddress
  oracleAddress := d.oracleAddress
  engineAddress := d.engineAddress
  retirementAddress := d.retirementAddress
  dexAddress := d.dexAddress
  issuer := BondIssuer.constructor d.issuerAdmin
  oracle := OracleConsumer.constructor d.oracleAdmin
  engine := CouponEngine.constructor d.engineAdmin d.issuerAddress d.oracleAddress
  retirement := CreditRetirement.constructor d.retirementAdmin d.issuerAddress d.engineAddress
  dex := DexRouter.constructor d.dexAdmin d.issuerAddress

/-- A call of one entry point of one contract. -/
inductive Call
  | issuer (call : BondIssuer.Call)
  | oracle (call : OracleConsumer.Call)
  | engine (call : CouponEngine.Call)
  | retirement (call : CreditRetirement.Call)
  | dex (call : DexRouter.Call)
deriving DecidableEq

/-- What a call of one of the contracts returns. -/
inductive Output
  | issuer (out : BondIssuer.Output)
  | oracle (out : OracleConsumer.Output)
  | engine (out : CouponEngine.Output)
  | retirement (out : CreditRetirement.Output)
  | dex (out : DexRouter.Output)
deriving DecidableEq

/-- The errors of the contracts. -/
inductive Error
  | bond (e : BondError)
  | oracle (e : OracleError)
  | credit (e : CreditError)
  | dex (e : DEXError)
deriving DecidableEq

/-- A transaction.  The project registries are those the bond issuer may ask. -/
structure Tx where
  timestamp : Nat
  signers : List Address
  invoker : Option Address
  overflowChecks : Bool
  registries : BondIssuer.Registries
  call : Call

/-- The environment in which the called contract runs. -/
def Tx.env (tx : Tx) (contract : Address) : Env :=
  { timestamp := tx.timestamp, signers := tx.signers, invoker := tx.invoker, contract
    overflowChecks := tx.overflowChecks }

/-- Execute a transaction. -/
def execute (w : World) (tx : Tx) : Fallible Error (Output × World) :=
  match tx.call with
  | .issuer call => do
      let (out, issuer) ← mapError .bond
        (BondIssuer.exec (tx.env w.issuerAddress) tx.registries w.issuer call)
      return (.issuer out, { w with issuer })
  | .oracle call => do
      let (out, oracle) ← mapError .oracle
        (OracleConsumer.exec (tx.env w.oracleAddress) w.oracle call)
      return (.oracle out, { w with oracle })
  | .engine call => do
      let (out, engine) ← mapError .bond
        (CouponEngine.exec (tx.env w.engineAddress) w.enginePeers w.engine call)
      return (.engine out, { w with engine })
  | .retirement call => do
      let (out, retirement) ← mapError .credit
        (CreditRetirement.exec (tx.env w.retirementAddress) w.retirementPeers w.retirement call)
      return (.retirement out, { w with retirement })
  | .dex call => do
      let (out, issuer, dex) ← mapError .dex
        (DexRouter.exec (tx.env w.dexAddress) w.issuerAt w.dex call)
      return (.dex out, { w with issuer := issuer.getD w.issuer, dex })

/-- The five contracts as one machine. -/
def machine : Machine World Tx Output (Failure Error) := ⟨execute⟩

/-- A successful transaction, with the worlds around it. -/
abbrev LogEntry := Event World Tx Output

/-! ## Sample runs -/

/-- Five contracts at addresses 101, …, 105, all with admin 0. -/
def sampleDeployment : Deployment := ⟨101, 102, 103, 104, 105, 0, 0, 0, 0, 0⟩

/-- A transaction at a time, signed by one account, in a release build, with no
project registry in reach. -/
def sampleTx (time : Nat) (signer : Address) (call : Call) : Tx :=
  ⟨time, [signer], none, false, fun _ => none, call⟩

/-- A bond is issued, a report on its project worth one credit (a million minor
units) is submitted and verified, the bond is registered for coupons, and
account 1 subscribes to 100 tokens. -/
def reportedBond : List Tx := [
  sampleTx 1 0 (.issuer (.issueBond 0 BondIssuer.sampleConfig 0)),
  sampleTx 1 0 (.oracle (.registerProvider 0 5 "verra_vcs" 0)),
  sampleTx 2 5 (.oracle (.submitReport 5 BondIssuer.sampleConfig.projectId 10 20 1000 .absent
    "verra_vcs" BondIssuer.sampleConfig.projectId 0)),
  sampleTx 3 0 (.oracle (.verifyReport 0 1 1)),
  sampleTx 3 0 (.engine (.registerBond 0 1 BondIssuer.sampleConfig.projectId 0)),
  sampleTx 4 1 (.issuer (.subscribe 1 1 100 0))]

/-! ## What a successful transaction changes -/

/-- The contract that was called, and the only storages that changed. -/
inductive WorldStep (w : World) (tx : Tx) (out : Output) (w' : World) : Prop
  | issuer (call : BondIssuer.Call) (o : BondIssuer.Output) (s : BondIssuer.State)
      (hcall : tx.call = .issuer call) (hout : out = .issuer o)
      (hexec : BondIssuer.exec (tx.env w.issuerAddress) tx.registries w.issuer call = .ok (o, s))
      (hafter : w' = { w with issuer := s })
  | oracle (call : OracleConsumer.Call) (o : OracleConsumer.Output) (s : OracleConsumer.State)
      (hcall : tx.call = .oracle call) (hout : out = .oracle o)
      (hexec : OracleConsumer.exec (tx.env w.oracleAddress) w.oracle call = .ok (o, s))
      (hafter : w' = { w with oracle := s })
  | engine (call : CouponEngine.Call) (o : CouponEngine.Output) (s : CouponEngine.State)
      (hcall : tx.call = .engine call) (hout : out = .engine o)
      (hexec : CouponEngine.exec (tx.env w.engineAddress) w.enginePeers w.engine call =
        .ok (o, s))
      (hafter : w' = { w with engine := s })
  | retirement (call : CreditRetirement.Call) (o : CreditRetirement.Output)
      (s : CreditRetirement.State) (hcall : tx.call = .retirement call)
      (hout : out = .retirement o)
      (hexec : CreditRetirement.exec (tx.env w.retirementAddress) w.retirementPeers w.retirement
        call = .ok (o, s))
      (hafter : w' = { w with retirement := s })
  | dex (call : DexRouter.Call) (o : DexRouter.Output) (issuer : Option BondIssuer.State)
      (s : DexRouter.State) (hcall : tx.call = .dex call) (hout : out = .dex o)
      (hexec : DexRouter.exec (tx.env w.dexAddress) w.issuerAt w.dex call = .ok (o, issuer, s))
      (hafter : w' = { w with issuer := issuer.getD w.issuer, dex := s })

/-- Every accepted transaction is a step of the world. -/
theorem worldStep_of_execute {w w' : World} {tx : Tx} {out : Output}
    (h : execute w tx = .ok (out, w')) : WorldStep w tx out w' := by
  unfold execute at h
  split at h
  · next call hcall =>
      simp only [bind_ok_iff, mapError_ok_iff, pure_ok_iff, Prod.mk.injEq, Prod.exists] at h
      obtain ⟨o, s, hexec, rfl, rfl⟩ := h
      exact .issuer call o s hcall rfl hexec rfl
  · next call hcall =>
      simp only [bind_ok_iff, mapError_ok_iff, pure_ok_iff, Prod.mk.injEq, Prod.exists] at h
      obtain ⟨o, s, hexec, rfl, rfl⟩ := h
      exact .oracle call o s hcall rfl hexec rfl
  · next call hcall =>
      simp only [bind_ok_iff, mapError_ok_iff, pure_ok_iff, Prod.mk.injEq, Prod.exists] at h
      obtain ⟨o, s, hexec, rfl, rfl⟩ := h
      exact .engine call o s hcall rfl hexec rfl
  · next call hcall =>
      simp only [bind_ok_iff, mapError_ok_iff, pure_ok_iff, Prod.mk.injEq, Prod.exists] at h
      obtain ⟨o, s, hexec, rfl, rfl⟩ := h
      exact .retirement call o s hcall rfl hexec rfl
  · next call hcall =>
      simp only [bind_ok_iff, mapError_ok_iff, pure_ok_iff, Prod.mk.injEq, Prod.exists] at h
      obtain ⟨o, issuer, s, hexec, rfl, rfl⟩ := h
      exact .dex call o issuer s hcall rfl hexec rfl

/-! ## Projections to one contract -/

/-- The bond issuer changes only by its own entry points, also inside a
purchase, which calls its `transfer`. -/
theorem WorldStep.issuer_exec {w w' : World} {tx : Tx} {out : Output}
    (h : WorldStep w tx out w') :
    w'.issuer = w.issuer ∨ ∃ env registries call o,
      BondIssuer.exec env registries w.issuer call = .ok (o, w'.issuer) := by
  cases h with
  | issuer call o s hcall hout hexec hafter =>
      subst hafter
      exact Or.inr ⟨_, _, _, _, hexec⟩
  | oracle call o s hcall hout hexec hafter => exact Or.inl (hafter ▸ rfl)
  | engine call o s hcall hout hexec hafter => exact Or.inl (hafter ▸ rfl)
  | retirement call o s hcall hout hexec hafter => exact Or.inl (hafter ▸ rfl)
  | dex call o issuer s hcall hout hexec hafter =>
      subst hafter
      cases DexRouter.orderStep_exec hexec with
      | idle _ _ _ hissuer => exact Or.inl (by simp [hissuer])
      | listed _ _ _ _ _ _ _ _ _ _ hissuer => exact Or.inl (by simp [hissuer])
      | cancelled _ _ _ _ _ _ _ hissuer => exact Or.inl (by simp [hissuer])
      | swept _ _ _ _ _ hissuer => exact Or.inl (by simp [hissuer])
      | bought id order buyer amount _ _ _ _ _ htransfer =>
          obtain ⟨address, before, after, -, hbefore, rfl, htransfer⟩ := htransfer
          obtain rfl := World.eq_issuer_of_issuerAt hbefore
          exact Or.inr ⟨_, tx.registries, .transfer order.seller buyer order.bondId amount _, none,
            BondIssuer.silent_ok_iff.mpr ⟨htransfer, rfl⟩⟩

/-- The issuer of the deployment has run on its own. -/
theorem exists_issuer_run (d : Deployment) (txs : List Tx) :
    ∃ calls, (machine.run (deploy d) txs).issuer =
      BondIssuer.machine.run (BondIssuer.constructor d.issuerAdmin) calls := by
  refine machine.exists_run_of_simulation BondIssuer.machine World.issuer ?_ (deploy d) txs
  intro e hfires
  rcases (worldStep_of_execute hfires).issuer_exec with hsame | ⟨env, registries, call, o, hexec⟩
  · exact Or.inl hsame
  · exact Or.inr ⟨⟨env, registries, call⟩, o, hexec⟩

/-- The bond supply invariant holds in the deployment. -/
theorem supplyInvariant (d : Deployment) (txs : List Tx) :
    BondIssuer.SupplyInvariant (machine.run (deploy d) txs).issuer := by
  obtain ⟨calls, hrun⟩ := exists_issuer_run d txs
  rw [hrun]
  exact BondIssuer.supplyInvariant_run d.issuerAdmin calls

/-- The coupon engine changes only by its own entry points, and they change
nothing else. -/
theorem WorldStep.engine_cases {w w' : World} {tx : Tx} {out : Output}
    (h : WorldStep w tx out w') :
    (w'.engine = w.engine ∧ ∀ call, tx.call ≠ .engine call) ∨
      ∃ call o, tx.call = .engine call ∧ out = .engine o ∧ w' = { w with engine := w'.engine } ∧
        CouponEngine.EngineStep (tx.env w.engineAddress) w.enginePeers w.engine w'.engine call
          o := by
  cases h with
  | engine call o s hcall hout hexec hafter =>
      subst hafter
      exact Or.inr ⟨call, o, hcall, hout, rfl, CouponEngine.engineStep_exec hexec⟩
  | issuer call o s hcall hout hexec hafter =>
      exact Or.inl ⟨by rw [hafter], by simp [hcall]⟩
  | oracle call o s hcall hout hexec hafter =>
      exact Or.inl ⟨by rw [hafter], by simp [hcall]⟩
  | retirement call o s hcall hout hexec hafter =>
      exact Or.inl ⟨by rw [hafter], by simp [hcall]⟩
  | dex call o issuer s hcall hout hexec hafter =>
      exact Or.inl ⟨by rw [hafter], by simp [hcall]⟩

/-- The engine's two maps about bonds change only by a registration, which stores
the credit type it read from the issuer. -/
theorem WorldStep.registration_cases {w w' : World} {tx : Tx} {out : Output}
    (h : WorldStep w tx out w') :
    (w'.engine.bondProject = w.engine.bondProject ∧
        w'.engine.bondCreditType = w.engine.bondCreditType) ∨
      ∃ caller bondId projectId nonce config,
        tx.call = .engine (.registerBond caller bondId projectId nonce) ∧
        w.issuer.bondConfig.get bondId = some config ∧
        w'.engine.bondProject = w.engine.bondProject.set bondId projectId ∧
        w'.engine.bondCreditType =
          w.engine.bondCreditType.set bondId config.creditType := by
  rcases h.engine_cases with ⟨hidle, -⟩ | ⟨call, o, hcall, -, -, hstep⟩
  · exact Or.inl ⟨by rw [hidle], by rw [hidle]⟩
  · cases hstep with
    | paid batch f _ _ hwrote => exact Or.inl ⟨hwrote.bondProject, hwrote.bondCreditType⟩
    | claimed _ _ _ _ _ _ _ _ hwrote => exact Or.inl ⟨hwrote.bondProject, hwrote.bondCreditType⟩
    | swept _ _ _ _ _ _ _ hs' =>
        rw [hs']
        exact Or.inl ⟨rfl, rfl⟩
    | administered _ _ _ _ hs' =>
        rw [hs']
        exact Or.inl ⟨rfl, rfl⟩
    | registered caller bondId projectId nonce issuer config hcall' hissuer hconfig hs' =>
        obtain ⟨address, -, hissuer⟩ := hissuer
        obtain rfl := World.eq_issuer_of_issuerAt hissuer
        rw [hs']
        exact Or.inr ⟨caller, bondId, projectId, nonce, config, by rw [hcall, hcall'], hconfig,
          rfl, rfl⟩

/-- The router changes only by its own entry points. -/
theorem WorldStep.dex_cases {w w' : World} {tx : Tx} {out : Output}
    (h : WorldStep w tx out w') :
    (w'.dex = w.dex ∧ ∀ call, tx.call ≠ .dex call) ∨
      ∃ call issuer, tx.call = .dex call ∧
        DexRouter.OrderStep (tx.env w.dexAddress) w.issuerAt w.dex w'.dex issuer call := by
  cases h with
  | dex call o issuer s hcall hout hexec hafter =>
      subst hafter
      exact Or.inr ⟨call, issuer, hcall, DexRouter.orderStep_exec hexec⟩
  | issuer call o s hcall hout hexec hafter =>
      exact Or.inl ⟨by rw [hafter], by simp [hcall]⟩
  | oracle call o s hcall hout hexec hafter =>
      exact Or.inl ⟨by rw [hafter], by simp [hcall]⟩
  | engine call o s hcall hout hexec hafter =>
      exact Or.inl ⟨by rw [hafter], by simp [hcall]⟩
  | retirement call o s hcall hout hexec hafter =>
      exact Or.inl ⟨by rw [hafter], by simp [hcall]⟩

/-- The retirement contract changes only by its own entry points, and they
change nothing else. -/
theorem WorldStep.retirement_cases {w w' : World} {tx : Tx} {out : Output}
    (h : WorldStep w tx out w') :
    w'.retirement = w.retirement ∨
      ∃ call o, tx.call = .retirement call ∧ w' = { w with retirement := w'.retirement } ∧
        CreditRetirement.exec (tx.env w.retirementAddress) w.retirementPeers w.retirement call =
          .ok (o, w'.retirement) := by
  cases h with
  | retirement call o s hcall hout hexec hafter =>
      subst hafter
      exact Or.inr ⟨call, o, hcall, rfl, hexec⟩
  | issuer call o s hcall hout hexec hafter => exact Or.inl (by rw [hafter])
  | oracle call o s hcall hout hexec hafter => exact Or.inl (by rw [hafter])
  | engine call o s hcall hout hexec hafter => exact Or.inl (by rw [hafter])
  | dex call o issuer s hcall hout hexec hafter => exact Or.inl (by rw [hafter])

/-- The oracle changes only by its own entry points. -/
theorem WorldStep.oracle_reportStep {w w' : World} {tx : Tx} {out : Output}
    (h : WorldStep w tx out w') : OracleConsumer.ReportStep w.oracle w'.oracle := by
  cases h with
  | oracle call o s hcall hout hexec hafter =>
      exact hafter ▸ OracleConsumer.reportStep_exec hexec
  | issuer call o s hcall hout hexec hafter => exact hafter ▸ .same rfl rfl
  | engine call o s hcall hout hexec hafter => exact hafter ▸ .same rfl rfl
  | retirement call o s hcall hout hexec hafter => exact hafter ▸ .same rfl rfl
  | dex call o issuer s hcall hout hexec hafter => exact hafter ▸ .same rfl rfl

/-- The oracle's report invariant holds in the deployment. -/
theorem reportsInvariant (d : Deployment) (txs : List Tx) :
    OracleConsumer.ReportsInvariant (machine.run (deploy d) txs).oracle :=
  machine.invariant (P := fun w _ => OracleConsumer.ReportsInvariant w.oracle)
    (OracleConsumer.reportsInvariant_constructor d.oracleAdmin)
    (fun _ _ hfires hs => hs.step (worldStep_of_execute hfires).oracle_reportStep) txs

end EcoMint
