import EcoMint.Fallible
import EcoMint.MachineInt
import EcoMint.Storage

/-!
# Types shared by the contracts, and the host they run on

The data types and error enumerations of `contracts/shared`, and the part of
the Soroban host the contracts use: the ledger time, the authorisations of the
current call, and the addresses of the caller and of the running contract.

An address is an opaque identifier that is only compared.  A counter that goes
up by one per accepted call (nonces, record ids) is a natural number; every
other quantity keeps the bounds of its machine type through checked arithmetic.
-/

namespace EcoMint

/-- An account or contract address. -/
abbrev Address := Nat

/-- A Soroban symbol. -/
abbrev Symbol := String

/-- Exactly `n` bytes. -/
structure BytesN (n : Nat) where
  bytes : List UInt8
  length_eq : bytes.length = n
deriving DecidableEq, Repr

/-- Every byte is zero. -/
def BytesN.isZero {n : Nat} (b : BytesN n) : Prop := ∀ byte ∈ b.bytes, byte = 0

instance {n : Nat} (b : BytesN n) : Decidable b.isZero :=
  List.decidableBAll (fun byte => byte = 0) b.bytes

/-- What the credits of a bond are. -/
inductive CreditType
  | carbon
  | biodiversity
  | basket
  | blueCarbon
deriving DecidableEq, Repr

/-- Habitat, species and unit metrics of a report, when it carries them. -/
inductive BiodiversityMetrics
  | absent
  | present (habitat species units : Int)
deriving DecidableEq, Repr

/-- The terms of a bond. -/
structure BondConfig where
  projectId : BytesN 32
  faceValue : Int
  couponSchedule : List Nat
  creditType : CreditType
  maturityDate : Nat
  totalSupply : Int
deriving DecidableEq, Repr

/-- What a bond owes, what is there for it, and how far it is covered. -/
structure RedemptionCoverage where
  totalPrincipalDue : Int
  fundedAmount : Int
  shortfall : Int
  coverageFractionBps : Nat
deriving DecidableEq, Repr

/-- What has become of a bond. -/
inductive BondStatus
  | active
  | matured
  | defaulted
deriving DecidableEq, Repr

/-- What has become of a project. -/
inductive ProjectStatus
  | pending
  | approved
  | rejected
  | inactive
deriving DecidableEq, Repr

/-- What has become of a report. -/
inductive ReportStatus
  | pending
  | verified
  | challenged
  | rejected
deriving DecidableEq, Repr

/-- `status as u32`: the position of the variant. -/
def ReportStatus.toU32 : ReportStatus → Nat
  | .pending => 0
  | .verified => 1
  | .challenged => 2
  | .rejected => 3

/-! ## Errors -/

/-- The errors of the bond issuer and of the coupon engine. -/
inductive BondError
  | notInitialized
  | unauthorized
  | invalidNonce
  | bondNotFound
  | bondAlreadyMatured
  | insufficientSupply
  | zeroAmount
  | projectNotApproved
  | overflow
  | reportNotVerified
  | invalidReport
  | invalidSupply
  | redemptionUnderfunded
  | incompatibleMethodologyCreditType
deriving DecidableEq, Repr

/-- The errors of the oracle. -/
inductive OracleError
  | notInitialized
  | unauthorized
  | invalidNonce
  | providerNotFound
  | providerAlreadyExists
  | reportNotFound
  | reportAlreadyVerified
  | challengeWindowExpired
  | insufficientStake
  | invalidSignature
  | invalidResolution
  | overlappingReportPeriod
deriving DecidableEq, Repr

/-- The errors of the router. -/
inductive DEXError
  | notInitialized
  | unauthorized
  | invalidNonce
  | orderNotFound
  | orderAlreadyFilled
  | insufficientBalance
  | selfBuyNotAllowed
  | orderExpired
  | zeroAmount
  | insufficientFunds
  | overflow
deriving DecidableEq, Repr

/-- The errors of the project registry. -/
inductive RegistryError
  | notInitialized
  | unauthorized
  | projectNotFound
  | projectAlreadyExists
  | invalidStatusTransition
  | invalidNonce
  | invalidArgument
deriving DecidableEq, Repr

/-- The errors of the credit retirement. -/
inductive CreditError
  | notInitialized
  | unauthorized
  | insufficientCredits
  | alreadyRetired
  | invalidNonce
  | notAHolder
  | invalidCertificate
  | invalidCreditType
deriving DecidableEq, Repr

/-- The errors of the governance. -/
inductive GovernanceError
  | notInitialized
  | unauthorized
  | invalidNonce
  | notSigner
  | proposalNotFound
  | alreadyVoted
  | notPending
  | timelockNotElapsed
  | notQueued
  | alreadyExecuted
deriving DecidableEq, Repr

/-! ## The host -/

/-- What the host tells the running contract about the current call. -/
structure Env where
  /-- `env.ledger().timestamp()`, in epoch seconds -/
  timestamp : Nat
  /-- the addresses that signed the transaction -/
  signers : List Address
  /-- the contract that directly made this call, if a contract made it -/
  invoker : Option Address
  /-- `env.current_contract_address()` -/
  contract : Address
  /-- the `overflow-checks` setting of the build profile: on for the
  development and test profiles, off for the release profile -/
  overflowChecks : Bool
deriving DecidableEq, Repr

namespace Env

/-- `a.require_auth()` succeeds: `a` signed the transaction, or `a` is the
contract directly making the call. -/
def Authorizes (env : Env) (a : Address) : Prop :=
  a ∈ env.signers ∨ env.invoker = some a

instance (env : Env) (a : Address) : Decidable (env.Authorizes a) := by
  unfold Authorizes; infer_instance

/-- `a.require_auth()` -/
def requireAuth {ε : Type} (env : Env) (a : Address) : Fallible ε Unit :=
  Fallible.trapUnless (env.Authorizes a)

@[simp] theorem requireAuth_ok_iff {ε : Type} {env : Env} {a : Address} {u : Unit} :
    (env.requireAuth a : Fallible ε Unit) = .ok u ↔ env.Authorizes a := by
  simp [requireAuth]

/-- The environment of a call the running contract makes to `callee`. -/
def invoking (env : Env) (callee : Address) : Env :=
  { env with invoker := some env.contract, contract := callee }

/-- The plain `*` on `i128`: a product outside the type panics under overflow
checks and wraps without them. -/
def mulI128 {ε : Type} (env : Env) (a b : Int) : Fallible ε Int :=
  if IntRange.i128.Fits (a * b) then .ok (a * b)
  else if env.overflowChecks then .error .trap
  else .ok (IntRange.i128.wrap (a * b))

/-- The plain `+` on `i128`, which overflows as `*` does. -/
def addI128 {ε : Type} (env : Env) (a b : Int) : Fallible ε Int :=
  if IntRange.i128.Fits (a + b) then .ok (a + b)
  else if env.overflowChecks then .error .trap
  else .ok (IntRange.i128.wrap (a + b))

end Env

/-! ## Nonces and the admin

Every contract keeps a nonce for each address and one admin, and guards its
entry points the same way with its own error values. -/

/-- Use up the nonce of `addr`: it must be the expected one. -/
def useNonce {ε : Type} (nonces : Storage Address Nat) (addr : Address) (nonce : Nat)
    (invalidNonce : ε) : Fallible ε (Storage Address Nat) := do
  let expectedNonce := nonces.read addr
  Fallible.rejectIf (nonce ≠ expectedNonce) invalidNonce
  return nonces.set addr (expectedNonce + 1)

/-- The caller must be the stored admin. -/
def checkAdmin {ε : Type} (admin : Option Address) (caller : Address)
    (notInitialized unauthorized : ε) : Fallible ε Unit := do
  let admin ← Fallible.okOr admin notInitialized
  Fallible.rejectIf (caller ≠ admin) unauthorized

@[simp] theorem useNonce_ok_iff {ε : Type} {nonces nonces' : Storage Address Nat}
    {addr : Address} {nonce : Nat} {e : ε} :
    useNonce nonces addr nonce e = .ok nonces' ↔
      nonce = nonces.read addr ∧ nonces.set addr (nonces.read addr + 1) = nonces' := by
  simp [useNonce]

@[simp] theorem checkAdmin_ok_iff {ε : Type} {admin : Option Address} {caller : Address}
    {e e' : ε} {u : Unit} : checkAdmin admin caller e e' = .ok u ↔ admin = some caller := by
  simp [checkAdmin]

end EcoMint
