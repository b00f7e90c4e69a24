import EcoMint.BondIssuer

/-!
# The project registry contract

The storage and entry points of `contracts/project-registry`.  Projects are
registered by their owners and reviewed by the admin; a rejected one can be
resubmitted by its owner.  A project is stored under the 32 bytes made of its
id, which is also how other contracts name it.

Soroban keeps instance storage and persistent storage apart, so the same key
names two different values: `set_admin` counts nonces in the one and every
other entry point in the other.
-/

namespace EcoMint.ProjectRegistry

open Fallible

/-- A project that an owner has registered. -/
structure Project where
  id : Nat
  owner : Address
  metadataIpfsHash : BytesN 32
  status : ProjectStatus
  methodology : Symbol
  country : Symbol
deriving DecidableEq, Repr

/-- A project as a listing shows it. -/
structure ProjectSummary where
  id : Nat
  name : Symbol
  status : ProjectStatus
  country : Symbol
deriving DecidableEq, Repr

/-- The most documents that a project may have. -/
def MAX_DOCUMENTS : Nat := 10

/-- Contract storage, one field per `DataKey` and storage that holds it. -/
structure State where
  admin : Option Address
  project : Storage (BytesN 32) Project
  projectCount : Nat
  /-- `Nonce` in instance storage -/
  nonce : Storage Address Nat
  /-- `Nonce` in persistent storage -/
  persistentNonce : Storage Address Nat
  ownerProjects : Storage Address (List Nat)
  projectDocuments : Storage Nat (List (BytesN 32))
deriving DecidableEq

/-- The eight bytes of the id, the highest first, and 24 zero bytes. -/
def projectIdToBytes (id : Nat) : BytesN 32 where
  bytes := (List.range 8).map (fun i => UInt8.ofNat (id / 256 ^ (7 - i))) ++ List.replicate 24 0
  length_eq := by simp

/-- The caller is the administrator. -/
def requireAdmin (s : State) (caller : Address) : Fallible RegistryError Unit :=
  checkAdmin s.admin caller .notInitialized .unauthorized

/-- The nonce of an account in instance storage, which only `setAdmin` uses. -/
abbrev getNonce (s : State) (addr : Address) : Nat := s.nonce.read addr

/-- The nonce of an account in instance storage is set. -/
def setNonce (s : State) (addr : Address) (nonce : Nat) : State :=
  { s with nonce := s.nonce.set addr nonce }

/-- The nonce check that starts every entry point but `set_admin`. -/
def consumeNonce (s : State) (addr : Address) (nonce : Nat) : Fallible RegistryError State := do
  let nonces ← useNonce s.persistentNonce addr nonce .invalidNonce
  return { s with persistentNonce := nonces }

/-! ## Entry points -/

/-- The registry as it is deployed: an administrator and nothing else. -/
def constructor (admin : Address) : State where
  admin := some admin
  project := ∅
  projectCount := 0
  nonce := ∅
  persistentNonce := ∅
  ownerProjects := ∅
  projectDocuments := ∅

/-- An owner registers a project under a metadata hash that is not zero. -/
def registerProject (env : Env) (s : State) (caller : Address) (metadataIpfsHash : BytesN 32)
    (methodology country : Symbol) (nonce : Nat) : Fallible RegistryError (Nat × State) := do
  env.requireAuth caller
  let s ← consumeNonce s caller nonce
  rejectIf metadataIpfsHash.isZero .projectNotFound
  let newId := s.projectCount + 1
  let project : Project :=
    { id := newId, owner := caller, metadataIpfsHash, status := .pending, methodology, country }
  return (newId, { s with
    projectCount := newId
    project := s.project.set (projectIdToBytes newId) project
    ownerProjects := s.ownerProjects.set caller
      ((s.ownerProjects.get caller).getD [] ++ [newId]) })

/-- The common body of the three reviews: the admin moves a project from one
status to the next. -/
def reviewProject (required next : ProjectStatus) (env : Env) (s : State) (caller : Address)
    (projectId nonce : Nat) : Fallible RegistryError State := do
  env.requireAuth caller
  let s ← consumeNonce s caller nonce
  requireAdmin s caller
  let key := projectIdToBytes projectId
  let project ← okOr (s.project.get key) .projectNotFound
  rejectIf (project.status ≠ required) .invalidStatusTransition
  return { s with project := s.project.set key { project with status := next } }

/-- A pending project becomes an approved one. -/
def approveProject : Env → State → Address → Nat → Nat → Fallible RegistryError State :=
  reviewProject .pending .approved

/-- A pending project becomes a rejected one. -/
def rejectProject : Env → State → Address → Nat → Nat → Fallible RegistryError State :=
  reviewProject .pending .rejected

/-- An approved project becomes an inactive one. -/
def deactivateProject : Env → State → Address → Nat → Nat → Fallible RegistryError State :=
  reviewProject .approved .inactive

/-- The owner brings a rejected project back with other metadata. -/
def resubmitProject (env : Env) (s : State) (caller : Address) (projectId : Nat)
    (updatedIpfsHash : BytesN 32) (nonce : Nat) : Fallible RegistryError State := do
  env.requireAuth caller
  let s ← consumeNonce s caller nonce
  let key := projectIdToBytes projectId
  let project ← okOr (s.project.get key) .projectNotFound
  rejectIf (project.owner ≠ caller) .unauthorized
  rejectIf (project.status ≠ .rejected) .invalidStatusTransition
  return { s with
    project := s.project.set key
      { project with metadataIpfsHash := updatedIpfsHash, status := .pending } }

/-- Needs nobody's authorisation and no project. -/
def addProjectDocuments (s : State) (projectId : Nat) (documentHashes : List (BytesN 32)) :
    Fallible RegistryError State := do
  rejectIf (documentHashes.length > MAX_DOCUMENTS) .invalidArgument
  return { s with projectDocuments := s.projectDocuments.set projectId documentHashes }

/-- The administrator hands over to another one. -/
def setAdmin (env : Env) (s : State) (currentAdmin newAdmin : Address) (nonce : Nat) :
    Fallible RegistryError State := do
  env.requireAuth currentAdmin
  let expectedNonce := getNonce s currentAdmin
  rejectIf (nonce ≠ expectedNonce) .invalidNonce
  let s := setNonce s currentAdmin (expectedNonce + 1)
  requireAdmin s currentAdmin
  return { s with admin := some newAdmin }

/-! ## Views -/

/-- The key is that of an approved project. -/
def hasApprovedProject (s : State) (key : BytesN 32) : Bool :=
  match s.project.get key with
  | some project => project.status = .approved
  | none => false

/-- The methodology of the project under a key, or no text. -/
def getProjectMethodology (s : State) (key : BytesN 32) : Symbol :=
  match s.project.get key with
  | some project => project.methodology
  | none => ""

/-- What the bond issuer sees of the registry. -/
def State.view (s : State) : BondIssuer.RegistryView :=
  ⟨hasApprovedProject s, getProjectMethodology s⟩

/-- The key that the other contracts know a project by. -/
def projectKey (projectId : Nat) : BytesN 32 := projectIdToBytes projectId

/-- A project. -/
def getProject (s : State) (projectId : Nat) : Fallible RegistryError Project :=
  okOr (s.project.get (projectIdToBytes projectId)) .projectNotFound

/-- A project as a listing shows it, the methodology for its name. -/
def Project.summary (project : Project) : ProjectSummary :=
  { id := project.id, name := project.methodology, status := project.status
    country := project.country }

/-- A page of the projects, of at most fifty. -/
def listProjects (s : State) (page pageSize : Nat) : List ProjectSummary :=
  let count := s.projectCount
  let pageSize := min pageSize 50
  let start := page * pageSize
  if start ≥ count then []
  else
    let last := min (start + pageSize) count
    (List.range' (start + 1) (last - start)).filterMap fun i =>
      (s.project.get (projectIdToBytes i)).map Project.summary

/-- The numbers of an owner's projects, oldest first. -/
def getOwnerProjects (s : State) (owner : Address) : List Nat :=
  (s.ownerProjects.get owner).getD []

/-- The documents of a project. -/
def getProjectDocuments (s : State) (projectId : Nat) : List (BytesN 32) :=
  (s.projectDocuments.get projectId).getD []

/-- The administrator. -/
def getAdmin (s : State) : Fallible RegistryError Address := okOr s.admin .notInitialized

/-! ## Calls -/

/-- A call of a state-changing entry point. -/
inductive Call
  | registerProject (caller : Address) (metadataIpfsHash : BytesN 32)
      (methodology country : Symbol) (nonce : Nat)
  | approveProject (caller : Address) (projectId nonce : Nat)
  | rejectProject (caller : Address) (projectId nonce : Nat)
  | deactivateProject (caller : Address) (projectId nonce : Nat)
  | resubmitProject (caller : Address) (projectId : Nat) (updatedIpfsHash : BytesN 32)
      (nonce : Nat)
  | addProjectDocuments (projectId : Nat) (documentHashes : List (BytesN 32))
  | setAdmin (currentAdmin newAdmin : Address) (nonce : Nat)
deriving DecidableEq

/-- What a call returns: the new project's id for `register_project`, nothing
otherwise. -/
abbrev Output := Option Nat

/-- Run an entry point that returns nothing. -/
def silent (r : Fallible RegistryError State) : Fallible RegistryError (Output × State) := do
  let s ← r
  return (none, s)

/-- A call of the contract, with what it returns and the state it leaves. -/
def exec (env : Env) (s : State) : Call → Fallible RegistryError (Output × State)
  | .registerProject caller metadataIpfsHash methodology country nonce => do
      let (id, s) ← registerProject env s caller metadataIpfsHash methodology country nonce
      return (some id, s)
  | .approveProject caller projectId nonce => silent (approveProject env s caller projectId nonce)
  | .rejectProject caller projectId nonce => silent (rejectProject env s caller projectId nonce)
  | .deactivateProject caller projectId nonce =>
      silent (deactivateProject env s caller projectId nonce)
  | .resubmitProject caller projectId updatedIpfsHash nonce =>
      silent (resubmitProject env s caller projectId updatedIpfsHash nonce)
  | .addProjectDocuments projectId documentHashes =>
      silent (addProjectDocuments s projectId documentHashes)
  | .setAdmin currentAdmin newAdmin nonce => silent (setAdmin env s currentAdmin newAdmin nonce)

/-- A transaction: the call and its environment. -/
structure Tx where
  env : Env
  call : Call

/-- The registry on its own, called by anyone in any order. -/
def machine : Machine State Tx Output (Failure RegistryError) where
  call s tx := exec tx.env s tx.call

/-! ## When a call succeeds, and what it writes -/

/-- The storage after `addr` used up its persistent nonce. -/
def State.bump (s : State) (addr : Address) : State :=
  { s with persistentNonce := s.persistentNonce.set addr (s.persistentNonce.read addr + 1) }

/-- A nonce is taken if it is the next one in persistent storage, and then one more is
used. -/
theorem consumeNonce_ok_iff {s s' : State} {addr : Address} {nonce : Nat} :
    consumeNonce s addr nonce = .ok s' ↔
      nonce = s.persistentNonce.read addr ∧ s.bump addr = s' := by
  simp [consumeNonce, State.bump]

/-- Only the administrator passes. -/
theorem requireAdmin_ok_iff {s : State} {caller : Address} {u : Unit} :
    requireAdmin s caller = .ok u ↔ s.admin = some caller := by
  simp [requireAdmin]

/-- The record `register_project` stores. -/
def freshProject (id : Nat) (owner : Address) (metadataIpfsHash : BytesN 32)
    (methodology country : Symbol) : Project :=
  { id, owner, metadataIpfsHash, status := .pending, methodology, country }

/-- When `registerProject` succeeds, and the state it leaves. -/
theorem registerProject_ok_iff {env : Env} {s s' : State} {caller : Address}
    {metadataIpfsHash : BytesN 32} {methodology country : Symbol} {nonce id : Nat} :
    registerProject env s caller metadataIpfsHash methodology country nonce = .ok (id, s') ↔
      env.Authorizes caller ∧ nonce = s.persistentNonce.read caller ∧
        ¬ metadataIpfsHash.isZero ∧ s.projectCount + 1 = id ∧
        { s.bump caller with
          projectCount := s.projectCount + 1
          project := s.project.set (projectIdToBytes (s.projectCount + 1))
            (freshProject (s.projectCount + 1) caller metadataIpfsHash methodology country)
          ownerProjects := s.ownerProjects.set caller
            ((s.ownerProjects.get caller).getD [] ++ [s.projectCount + 1]) } = s' := by
  simp [registerProject, consumeNonce_ok_iff, State.bump, freshProject]

/-- When a review succeeds, and the state it leaves. -/
theorem reviewProject_ok_iff {required next : ProjectStatus} {env : Env} {s s' : State}
    {caller : Address} {projectId nonce : Nat} :
    reviewProject required next env s caller projectId nonce = .ok s' ↔
      env.Authorizes caller ∧ nonce = s.persistentNonce.read caller ∧ s.admin = some caller ∧
        ∃ project, s.project.get (projectIdToBytes projectId) = some project ∧
          project.status = required ∧
          { s.bump caller with
            project := s.project.set (projectIdToBytes projectId)
              { project with status := next } } = s' := by
  simp [reviewProject, consumeNonce_ok_iff, requireAdmin_ok_iff, State.bump]

/-- When `resubmitProject` succeeds, and the state it leaves. -/
theorem resubmitProject_ok_iff {env : Env} {s s' : State} {caller : Address} {projectId : Nat}
    {updatedIpfsHash : BytesN 32} {nonce : Nat} :
    resubmitProject env s caller projectId updatedIpfsHash nonce = .ok s' ↔
      env.Authorizes caller ∧ nonce = s.persistentNonce.read caller ∧
        ∃ project, s.project.get (projectIdToBytes projectId) = some project ∧
          project.owner = caller ∧ project.status = .rejected ∧
          { s.bump caller with
            project := s.project.set (projectIdToBytes projectId)
              { project with metadataIpfsHash := updatedIpfsHash, status := .pending } } = s' := by
  simp [resubmitProject, consumeNonce_ok_iff, State.bump]

/-- When `addProjectDocuments` succeeds, and the state it leaves. -/
theorem addProjectDocuments_ok_iff {s s' : State} {projectId : Nat}
    {documentHashes : List (BytesN 32)} :
    addProjectDocuments s projectId documentHashes = .ok s' ↔
      documentHashes.length ≤ MAX_DOCUMENTS ∧
        { s with projectDocuments := s.projectDocuments.set projectId documentHashes } = s' := by
  simp [addProjectDocuments]

/-- When `setAdmin` succeeds, and the state it leaves. -/
theorem setAdmin_ok_iff {env : Env} {s s' : State} {currentAdmin newAdmin : Address}
    {nonce : Nat} :
    setAdmin env s currentAdmin newAdmin nonce = .ok s' ↔
      env.Authorizes currentAdmin ∧ nonce = s.nonce.read currentAdmin ∧
        s.admin = some currentAdmin ∧
        { setNonce s currentAdmin (s.nonce.read currentAdmin + 1) with
          admin := some newAdmin } = s' := by
  simp [setAdmin, requireAdmin_ok_iff, setNonce]

/-- A silent call succeeds as the function under it does, and returns nothing. -/
theorem silent_ok_iff {r : Fallible RegistryError State} {out : Output} {s' : State} :
    silent r = .ok (out, s') ↔ r = .ok s' ∧ out = none := by
  simp [silent, eq_comm]

/-- The status a review asks for and the one it leaves, with the admin, the
project and the nonce, for the three calls that are reviews. -/
def Call.review : Call → Option (ProjectStatus × ProjectStatus × Address × Nat × Nat)
  | .approveProject caller projectId nonce => some (.pending, .approved, caller, projectId, nonce)
  | .rejectProject caller projectId nonce => some (.pending, .rejected, caller, projectId, nonce)
  | .deactivateProject caller projectId nonce =>
      some (.approved, .inactive, caller, projectId, nonce)
  | _ => none

/-- **What a successful call does**: register a project, review one, resubmit
one, store a list of documents, or change the admin. -/
inductive RegistryStep (env : Env) (s s' : State) (call : Call) : Prop
  | registered (caller : Address) (metadataIpfsHash : BytesN 32) (methodology country : Symbol)
      (nonce : Nat)
      (hcall : call = .registerProject caller metadataIpfsHash methodology country nonce)
      (hauth : env.Authorizes caller) (hnonce : nonce = s.persistentNonce.read caller)
      (hafter : s' = { s.bump caller with
        projectCount := s.projectCount + 1
        project := s.project.set (projectIdToBytes (s.projectCount + 1))
          (freshProject (s.projectCount + 1) caller metadataIpfsHash methodology country)
        ownerProjects := s.ownerProjects.set caller
          ((s.ownerProjects.get caller).getD [] ++ [s.projectCount + 1]) })
  | reviewed (required next : ProjectStatus) (caller : Address) (projectId nonce : Nat)
      (project : Project) (hcall : call.review = some (required, next, caller, projectId, nonce))
      (hauth : env.Authorizes caller) (hnonce : nonce = s.persistentNonce.read caller)
      (hadmin : s.admin = some caller)
      (hget : s.project.get (projectIdToBytes projectId) = some project)
      (hstatus : project.status = required)
      (hafter : s' = { s.bump caller with
        project := s.project.set (projectIdToBytes projectId) { project with status := next } })
  | resubmitted (caller : Address) (projectId : Nat) (updatedIpfsHash : BytesN 32) (nonce : Nat)
      (project : Project) (hcall : call = .resubmitProject caller projectId updatedIpfsHash nonce)
      (hauth : env.Authorizes caller) (hnonce : nonce = s.persistentNonce.read caller)
      (hget : s.project.get (projectIdToBytes projectId) = some project)
      (howner : project.owner = caller) (hstatus : project.status = .rejected)
      (hafter : s' = { s.bump caller with
        project := s.project.set (projectIdToBytes projectId)
          { project with metadataIpfsHash := updatedIpfsHash, status := .pending } })
  | documented (projectId : Nat) (documentHashes : List (BytesN 32))
      (hcall : call = .addProjectDocuments projectId documentHashes)
      (hafter : s' = { s with
        projectDocuments := s.projectDocuments.set projectId documentHashes })
  | administered (currentAdmin newAdmin : Address) (nonce : Nat)
      (hcall : call = .setAdmin currentAdmin newAdmin nonce)
      (hauth : env.Authorizes currentAdmin) (hnonce : nonce = s.nonce.read currentAdmin)
      (hadmin : s.admin = some currentAdmin)
      (hafter : s' = { setNonce s currentAdmin (s.nonce.read currentAdmin + 1) with
        admin := some newAdmin })

/-- What a review does to the projects. -/
theorem registryStep_reviewProject {required next : ProjectStatus} {env : Env} {s s' : State}
    {caller : Address} {projectId nonce : Nat} {call : Call}
    (hcall : call.review = some (required, next, caller, projectId, nonce))
    (h : reviewProject required next env s caller projectId nonce = .ok s') :
    RegistryStep env s s' call := by
  obtain ⟨hauth, hnonce, hadmin, project, hget, hstatus, hafter⟩ := reviewProject_ok_iff.mp h
  exact .reviewed required next caller projectId nonce project hcall hauth hnonce hadmin hget
    hstatus hafter.symm

/-- **Step lemma.**  Every successful call is a `RegistryStep`. -/
theorem registryStep_exec {env : Env} {s s' : State} {call : Call} {out : Output}
    (h : exec env s call = .ok (out, s')) : RegistryStep env s s' call := by
  cases call with
  | registerProject caller metadataIpfsHash methodology country nonce =>
      simp only [exec, bind_ok_iff, pure_ok_iff, Prod.mk.injEq, Prod.exists] at h
      obtain ⟨id, s'', hregister, -, rfl⟩ := h
      obtain ⟨hauth, hnonce, -, -, hafter⟩ := registerProject_ok_iff.mp hregister
      exact .registered caller metadataIpfsHash methodology country nonce rfl hauth hnonce
        hafter.symm
  | approveProject caller projectId nonce =>
      exact registryStep_reviewProject rfl (silent_ok_iff.mp h).1
  | rejectProject caller projectId nonce =>
      exact registryStep_reviewProject rfl (silent_ok_iff.mp h).1
  | deactivateProject caller projectId nonce =>
      exact registryStep_reviewProject rfl (silent_ok_iff.mp h).1
  | resubmitProject caller projectId updatedIpfsHash nonce =>
      obtain ⟨hauth, hnonce, project, hget, howner, hstatus, hafter⟩ :=
        resubmitProject_ok_iff.mp (silent_ok_iff.mp h).1
      exact .resubmitted caller projectId updatedIpfsHash nonce project rfl hauth hnonce hget
        howner hstatus hafter.symm
  | addProjectDocuments projectId documentHashes =>
      obtain ⟨-, hafter⟩ := addProjectDocuments_ok_iff.mp (silent_ok_iff.mp h).1
      exact .documented projectId documentHashes rfl hafter.symm
  | setAdmin currentAdmin newAdmin nonce =>
      obtain ⟨hauth, hnonce, hadmin, hafter⟩ := setAdmin_ok_iff.mp (silent_ok_iff.mp h).1
      exact .administered currentAdmin newAdmin nonce rfl hauth hnonce hadmin hafter.symm

end EcoMint.ProjectRegistry
