import EcoMint.ProjectRegistry

/-!
# Nonces and authorisation in the project registry

Two guards are meant to stand before every write of the registry: a nonce that
is used once, and the authorisation of somebody entitled to the write.  Each
has one gap.  The nonces of an address are counted in two places, one for
`set_admin` and one for everything else, so an address that does both uses every
nonce twice; and `add_project_documents` asks nobody.
-/

namespace EcoMint.ProjectRegistry

open Fallible Storage

/-- A successful call, with the storages around it. -/
abbrev LogEntry := Event State Tx Output

/-! ## Nonces -/

/-- The address and the nonce a call takes. -/
def Call.nonceTaken : Call → Option (Address × Nat)
  | .registerProject caller _ _ _ nonce => some (caller, nonce)
  | .approveProject caller _ nonce => some (caller, nonce)
  | .rejectProject caller _ nonce => some (caller, nonce)
  | .deactivateProject caller _ nonce => some (caller, nonce)
  | .resubmitProject caller _ _ nonce => some (caller, nonce)
  | .addProjectDocuments _ _ => none
  | .setAdmin currentAdmin _ nonce => some (currentAdmin, nonce)

/-- The call counts its nonce in instance storage. -/
def Call.CountsInInstance : Call → Prop
  | .setAdmin _ _ _ => True
  | _ => False

instance (call : Call) : Decidable call.CountsInInstance := by
  unfold Call.CountsInInstance
  split <;> infer_instance

/-- Accepted calls of an address, over both places its nonces are counted in. -/
def State.nonceTotal (s : State) (addr : Address) : Nat :=
  s.nonce.read addr + s.persistentNonce.read addr

/-- How a successful call moves the nonces: not at all, or by one in the place
where the call counts, whose next nonce it took. -/
inductive NonceStep (s s' : State) (call : Call) : Prop
  | untouched (hcall : call.nonceTaken = none) (hnonce : s'.nonce = s.nonce)
      (hpersistent : s'.persistentNonce = s.persistentNonce)
  | inPersistent (addr : Address) (hcall : call.nonceTaken = some (addr, s.persistentNonce.read addr))
      (hplace : ¬ call.CountsInInstance) (hnonce : s'.nonce = s.nonce)
      (hpersistent : s'.persistentNonce =
        s.persistentNonce.set addr (s.persistentNonce.read addr + 1))
  | inInstance (addr : Address) (hcall : call.nonceTaken = some (addr, s.nonce.read addr))
      (hplace : call.CountsInInstance)
      (hnonce : s'.nonce = s.nonce.set addr (s.nonce.read addr + 1))
      (hpersistent : s'.persistentNonce = s.persistentNonce)

/-- A review takes its caller's nonce, and none from the instance. -/
theorem nonceTaken_of_review {call : Call} {required next : ProjectStatus} {caller : Address}
    {projectId nonce : Nat} (h : call.review = some (required, next, caller, projectId, nonce)) :
    call.nonceTaken = some (caller, nonce) ∧ ¬ call.CountsInInstance := by
  cases call <;> simp [Call.review] at h <;> simp [Call.nonceTaken, Call.CountsInInstance, h]

/-- Every step of the registry takes the nonce that its call names. -/
theorem RegistryStep.nonceStep {env : Env} {s s' : State} {call : Call}
    (h : RegistryStep env s s' call) : NonceStep s s' call := by
  cases h with
  | registered caller metadataIpfsHash methodology country nonce hcall _ hnonce hafter =>
      subst hcall hafter hnonce
      exact .inPersistent caller rfl (fun h => h) rfl rfl
  | reviewed required next caller projectId nonce project hcall _ hnonce _ _ _ hafter =>
      obtain ⟨htaken, hplace⟩ := nonceTaken_of_review hcall
      subst hafter hnonce
      exact .inPersistent caller htaken hplace rfl rfl
  | resubmitted caller projectId updatedIpfsHash nonce project hcall _ hnonce _ _ _ hafter =>
      subst hcall hafter hnonce
      exact .inPersistent caller rfl (fun h => h) rfl rfl
  | documented projectId documentHashes hcall hafter =>
      subst hcall hafter
      exact .untouched rfl rfl rfl
  | administered currentAdmin newAdmin nonce hcall _ hnonce _ hafter =>
      subst hcall hafter hnonce
      exact .inInstance currentAdmin rfl trivial rfl rfl

/-- A nonce is taken only from an address that authorised the call. -/
theorem RegistryStep.authorizes {env : Env} {s s' : State} {call : Call} {addr : Address}
    {nonce : Nat} (h : RegistryStep env s s' call)
    (htaken : call.nonceTaken = some (addr, nonce)) : env.Authorizes addr := by
  cases h with
  | registered caller _ _ _ _ hcall hauth _ _ =>
      obtain ⟨rfl, -⟩ : caller = addr ∧ _ := by simpa [hcall, Call.nonceTaken] using htaken
      exact hauth
  | reviewed _ _ caller _ _ _ hcall hauth _ _ _ _ _ =>
      obtain ⟨rfl, -⟩ : caller = addr ∧ _ := by
        simpa [(nonceTaken_of_review hcall).1] using htaken
      exact hauth
  | resubmitted caller _ _ _ _ hcall hauth _ _ _ _ _ =>
      obtain ⟨rfl, -⟩ : caller = addr ∧ _ := by simpa [hcall, Call.nonceTaken] using htaken
      exact hauth
  | documented _ _ hcall _ => simp [hcall, Call.nonceTaken] at htaken
  | administered currentAdmin _ _ hcall hauth _ _ _ =>
      obtain ⟨rfl, -⟩ : currentAdmin = addr ∧ _ := by simpa [hcall, Call.nonceTaken] using htaken
      exact hauth

/-- The nonce an accepted call took from an address. -/
def LogEntry.nonceFrom (addr : Address) (e : LogEntry) : Option Nat :=
  match e.input.call.nonceTaken with
  | some (a, nonce) => if a = addr then some nonce else none
  | none => none

/-- The nonces accepted from an address, in the order of acceptance. -/
def acceptedNonces (addr : Address) (l : List LogEntry) : List Nat :=
  l.filterMap (LogEntry.nonceFrom addr)

theorem acceptedNonces_snoc (addr : Address) (l : List LogEntry) (e : LogEntry) :
    acceptedNonces addr (l ++ [e]) =
      acceptedNonces addr l ++ (LogEntry.nonceFrom addr e).toList :=
  Machine.filterMap_snoc ..

/-- Every accepted call of an address is counted in one of the two places. -/
theorem length_acceptedNonces (admin : Address) (txs : List Tx) (addr : Address) :
    (acceptedNonces addr (machine.log (constructor admin) txs)).length =
      (machine.run (constructor admin) txs).nonceTotal addr := by
  refine machine.invariant
    (P := fun s l => (acceptedNonces addr l).length = s.nonceTotal addr) ?_ ?_ txs
  · simp [acceptedNonces, constructor, State.nonceTotal]
  · intro l e hfires hlength
    rw [acceptedNonces_snoc, List.length_append, hlength]
    unfold State.nonceTotal LogEntry.nonceFrom
    cases (registryStep_exec hfires).nonceStep with
    | untouched hcall hnonce hpersistent =>
        rw [hcall, hnonce, hpersistent]
        rfl
    | inPersistent a hcall _ hnonce hpersistent =>
        rw [hcall, hnonce, hpersistent, read_set]
        by_cases ha : addr = a
        · subst ha
          simp
          omega
        · simp [ha, Ne.symm ha]
    | inInstance a hcall _ hnonce hpersistent =>
        rw [hcall, hnonce, hpersistent, read_set]
        by_cases ha : addr = a
        · subst ha
          simp
          omega
        · simp [ha, Ne.symm ha]

/-- A list of nonces that is 0, 1, 2, … in this order, and so repeats none. -/
def InOrder (nonces : List Nat) : Prop :=
  nonces.Nodup ∧ nonces = List.range nonces.length

/-- One more nonce keeps the order exactly if it is the next one. -/
theorem inOrder_snoc_iff {nonces : List Nat} (h : InOrder nonces) (nonce : Nat) :
    InOrder (nonces ++ [nonce]) ↔ nonce = nonces.length := by
  obtain ⟨-, hrange⟩ := h
  have hsnoc : nonces ++ [nonce] = List.range (nonces ++ [nonce]).length ↔
      nonce = nonces.length := by
    rw [List.length_append, List.length_singleton, List.range_succ, ← hrange]
    simp
  constructor
  · intro h'
    exact hsnoc.mp h'.2
  · intro hnonce
    have heq := hsnoc.mpr hnonce
    refine ⟨?_, heq⟩
    rw [heq]
    exact List.nodup_range

/-- The beginning of a list in order is in order. -/
theorem InOrder.initial {nonces nonces' : List Nat} (h : InOrder nonces')
    (hpre : nonces <+: nonces') : InOrder nonces := by
  refine ⟨h.1.sublist hpre.sublist, ?_⟩
  have htake := List.prefix_iff_eq_take.mp hpre
  have hle := hpre.length_le
  rw [h.2, List.take_range] at htake
  rwa [Nat.min_eq_left hle] at htake

/-- The address of the call has no accepted call counted in the other place. -/
def LogEntry.CountsInOnePlace (e : LogEntry) : Prop :=
  ∀ addr nonce, e.input.call.nonceTaken = some (addr, nonce) →
    if e.input.call.CountsInInstance then e.before.persistentNonce.read addr = 0
    else e.before.nonce.read addr = 0

/-- An accepted call takes the next nonce of its address exactly if the address
has no accepted call counted in the other place. -/
theorem inOrder_step_iff {l : List LogEntry} {e : LogEntry} (hfires : machine.Fires e)
    (hlength : ∀ addr, (acceptedNonces addr l).length = e.before.nonceTotal addr)
    (horder : ∀ addr, InOrder (acceptedNonces addr l)) :
    (∀ addr, InOrder (acceptedNonces addr (l ++ [e]))) ↔ LogEntry.CountsInOnePlace e := by
  unfold LogEntry.CountsInOnePlace
  have hsnoc : ∀ addr nonce, e.input.call.nonceTaken = some (addr, nonce) →
      ((∀ addr, InOrder (acceptedNonces addr (l ++ [e]))) ↔ nonce = e.before.nonceTotal addr) := by
    intro addr nonce hcall
    have hfrom : ∀ a, LogEntry.nonceFrom a e = if addr = a then some nonce else none := by
      intro a
      simp [LogEntry.nonceFrom, hcall]
    rw [← hlength addr, ← inOrder_snoc_iff (horder addr)]
    constructor
    · intro h
      simpa [acceptedNonces_snoc, hfrom] using h addr
    · intro h a
      rw [acceptedNonces_snoc, hfrom]
      by_cases ha : addr = a
      · subst ha
        simpa using h
      · simpa [ha] using horder a
  cases (registryStep_exec hfires).nonceStep with
  | untouched hcall _ _ =>
      have hsame : ∀ addr, acceptedNonces addr (l ++ [e]) = acceptedNonces addr l := by
        intro addr
        simp [acceptedNonces_snoc, LogEntry.nonceFrom, hcall]
      simp [hsame, horder, hcall]
  | inPersistent addr hcall hplace _ _ =>
      rw [hsnoc _ _ hcall]
      simp [hcall, hplace, State.nonceTotal]
  | inInstance addr hcall hplace _ _ =>
      rw [hsnoc _ _ hcall]
      simp [hcall, hplace, State.nonceTotal]

/-- **Registry nonces.**  From every address exactly the nonces 0, 1, 2, … are
accepted, in this order and each once, exactly if no address has both an
accepted `set_admin` and an accepted call of another kind. -/
theorem nonces_used_once_iff (admin : Address) (txs : List Tx) :
    (∀ addr, InOrder (acceptedNonces addr (machine.log (constructor admin) txs))) ↔
      ∀ e ∈ machine.log (constructor admin) txs, LogEntry.CountsInOnePlace e := by
  have hevery : (∀ addr, InOrder (acceptedNonces addr (machine.log (constructor admin) txs))) ↔
      ∀ pre, pre <+: txs →
        ∀ addr, InOrder (acceptedNonces addr (machine.log (constructor admin) pre)) := by
    constructor
    · intro h pre hpre addr
      exact (h addr).initial ((machine.log_prefix (constructor admin) hpre).filterMap _)
    · intro h
      exact h txs List.prefix_rfl
  rw [hevery, ← Machine.forall_prefix_iff_forall_mem]
  refine machine.holds_iff
    (I := fun s l => ∀ addr, (acceptedNonces addr l).length = s.nonceTotal addr)
    (P := fun _ l => ∀ addr, InOrder (acceptedNonces addr l))
    (C := fun _ e => LogEntry.CountsInOnePlace e)
    (fun calls addr => length_acceptedNonces admin calls addr) ?_ ?_ txs
  · intro addr
    exact ⟨List.nodup_nil, rfl⟩
  · intro l e hfires hlength horder
    exact inOrder_step_iff hfires hlength horder

/-- A call signed by one account, in a release build. -/
def sampleTx (signer : Address) (call : Call) : Tx := ⟨⟨1, [signer], none, 9, false⟩, call⟩

/-- Some 32 bytes that are not all zero. -/
def sampleHash : BytesN 32 := ⟨List.replicate 32 3, rfl⟩

/-- The admin approves a project and then hands over the administration. -/
def approvalThenRotation : List Tx := [
  sampleTx 1 (.registerProject 1 sampleHash "VCS" "US" 0),
  sampleTx 0 (.approveProject 0 1 0),
  sampleTx 0 (.setAdmin 0 2 0)]

/-- Both calls of the admin take nonce 0. -/
theorem nonce_used_twice_by_rotation :
    ¬ ∀ (admin : Address) (txs : List Tx) (addr : Address),
      InOrder (acceptedNonces addr (machine.log (constructor admin) txs)) := by
  intro h
  have htwice : acceptedNonces 0 (machine.log (constructor 0) approvalThenRotation) = [0, 0] := by
    decide +kernel
  have horder := (h 0 approvalThenRotation 0).1
  rw [htwice] at horder
  simp at horder

/-! ## Authorisation -/

/-- The address whose authorisation the entry point asks for. -/
def Call.authorizer : Call → Option Address
  | .registerProject caller _ _ _ _ => some caller
  | .approveProject caller _ _ => some caller
  | .rejectProject caller _ _ => some caller
  | .deactivateProject caller _ _ => some caller
  | .resubmitProject caller _ _ _ => some caller
  | .addProjectDocuments _ _ => none
  | .setAdmin currentAdmin _ _ => some currentAdmin

/-- A review is authorised by its caller. -/
theorem authorizer_of_review {call : Call} {required next : ProjectStatus} {caller : Address}
    {projectId nonce : Nat} (h : call.review = some (required, next, caller, projectId, nonce)) :
    call.authorizer = some caller := by
  cases call <;> simp [Call.review] at h <;> simp [Call.authorizer, h]

/-- What a successful call writes about projects: one record, left to an owner
or by an admin who authorised the call, one list of documents, or nothing. -/
inductive WriteStep (env : Env) (s s' : State) (call : Call) : Prop
  | record (key : BytesN 32) (project : Project) (addr : Address)
      (hcall : call.authorizer = some addr) (hauth : env.Authorizes addr)
      (hentitled : addr = project.owner ∨ s.admin = some addr)
      (hproject : s'.project = s.project.set key project)
      (hdocuments : s'.projectDocuments = s.projectDocuments)
  | documents (projectId : Nat) (documentHashes : List (BytesN 32))
      (hcall : call = .addProjectDocuments projectId documentHashes)
      (hproject : s'.project = s.project)
      (hdocuments : s'.projectDocuments = s.projectDocuments.set projectId documentHashes)
  | nothing (addr : Address) (hcall : call.authorizer = some addr)
      (hproject : s'.project = s.project) (hdocuments : s'.projectDocuments = s.projectDocuments)

/-- What a step of the registry writes, its call's authoriser has signed. -/
theorem RegistryStep.writeStep {env : Env} {s s' : State} {call : Call}
    (h : RegistryStep env s s' call) : WriteStep env s s' call := by
  cases h with
  | registered caller metadataIpfsHash methodology country nonce hcall hauth _ hafter =>
      subst hcall hafter
      exact .record _ _ caller rfl hauth (Or.inl rfl) rfl rfl
  | reviewed required next caller id nonce project hcall hauth _ hadmin _ _ hafter =>
      subst hafter
      exact .record _ _ caller (authorizer_of_review hcall) hauth (Or.inr hadmin) rfl rfl
  | resubmitted caller id updatedIpfsHash nonce project hcall hauth _ _ howner _ hafter =>
      subst hcall hafter
      refine .record _ _ caller rfl hauth (Or.inl ?_) rfl rfl
      exact howner.symm
  | documented id documentHashes hcall hafter =>
      subst hcall hafter
      exact .documents id documentHashes rfl rfl rfl
  | administered currentAdmin newAdmin nonce hcall _ _ _ hafter =>
      subst hcall hafter
      exact .nothing currentAdmin rfl rfl rfl

/-- The call changes what is stored for a project. -/
def LogEntry.Changes (e : LogEntry) (projectId : Nat) : Prop :=
  e.after.project.get (projectIdToBytes projectId) ≠
      e.before.project.get (projectIdToBytes projectId) ∨
    e.after.projectDocuments.get projectId ≠ e.before.projectDocuments.get projectId

/-- The project exists after the call, and the call was authorised by its owner
or by the admin. -/
def LogEntry.AuthorisedFor (e : LogEntry) (projectId : Nat) : Prop :=
  ∃ project, e.after.project.get (projectIdToBytes projectId) = some project ∧
    ∃ addr, e.input.call.authorizer = some addr ∧ e.input.env.Authorizes addr ∧
      (addr = project.owner ∨ e.before.admin = some addr)

/-- The call stores no list of documents other than the one already there. -/
def LogEntry.KeepsDocuments (e : LogEntry) : Prop :=
  ∀ projectId documentHashes, e.input.call = .addProjectDocuments projectId documentHashes →
    e.before.projectDocuments.get projectId = some documentHashes

/-- A call that asks for somebody's authorisation stores no documents. -/
theorem keepsDocuments_of_authorizer {e : LogEntry} {addr : Address}
    (h : e.input.call.authorizer = some addr) : LogEntry.KeepsDocuments e := by
  intro projectId documentHashes hcall
  rw [hcall] at h
  cases h

/-- Where writing one project record changed the storage, that record is now. -/
theorem get_of_changed {projects : Storage (BytesN 32) Project} {key key' : BytesN 32}
    {project : Project} (h : (projects.set key project).get key' ≠ projects.get key') :
    (projects.set key project).get key' = some project := by
  by_cases hkey : key' = key
  · rw [hkey, get_set_self]
  · exact absurd (get_set_ne _ _ hkey) h

/-- **Registry authorisation.**  For every accepted call of every run: whatever
project it changes, the project exists afterwards and its owner or the admin
authorised the call, exactly if the call is not an `add_project_documents` that
changes the stored list. -/
theorem writes_authorised_iff (admin : Address) (txs : List Tx) (e : LogEntry)
    (he : e ∈ machine.log (constructor admin) txs) :
    (∀ projectId, LogEntry.Changes e projectId → LogEntry.AuthorisedFor e projectId) ↔
      LogEntry.KeepsDocuments e := by
  obtain ⟨pre, hfires, -⟩ := machine.exists_run_of_mem_log he
  cases (registryStep_exec hfires).writeStep with
  | record key project addr hcall hauth hentitled hproject hdocuments =>
      refine iff_of_true (fun projectId hchanges => ?_) (keepsDocuments_of_authorizer hcall)
      unfold LogEntry.Changes at hchanges
      rw [hproject, hdocuments] at hchanges
      have hchanged := hchanges.resolve_right (fun h => h rfl)
      exact ⟨project, hproject ▸ get_of_changed hchanged, addr, hcall, hauth, hentitled⟩
  | documents id documentHashes hcall hproject hdocuments =>
      -- nobody is asked, so nothing may change
      have hnobody : ∀ projectId, ¬ LogEntry.AuthorisedFor e projectId := by
        intro projectId h
        obtain ⟨_, _, _, hasked, -⟩ := h
        rw [hcall] at hasked
        cases hasked
      have hchanges : ∀ projectId, LogEntry.Changes e projectId ↔
          projectId = id ∧ e.before.projectDocuments.get id ≠ some documentHashes := by
        intro projectId
        unfold LogEntry.Changes
        rw [hproject, hdocuments, get_set]
        by_cases hid : projectId = id
        · subst hid
          simp [eq_comm]
        · simp [hid]
      constructor
      · intro h id' documentHashes' hcall'
        obtain ⟨rfl, rfl⟩ : id = id' ∧ documentHashes = documentHashes' := by
          simpa [hcall] using hcall'
        by_contra hne
        exact hnobody id (h id ((hchanges id).mpr ⟨rfl, hne⟩))
      · intro hkeeps projectId hchange
        exact absurd (hkeeps id documentHashes hcall) ((hchanges projectId).mp hchange).2
  | nothing addr hcall hproject hdocuments =>
      refine iff_of_true (fun projectId hchange => ?_) (keepsDocuments_of_authorizer hcall)
      exact absurd hchange (by simp [LogEntry.Changes, hproject, hdocuments])

/-- The owner of a project registers it; a stranger then stores documents for
it. -/
def strangersDocuments : List Tx := [
  sampleTx 1 (.registerProject 1 sampleHash "VCS" "US" 0),
  sampleTx 7 (.addProjectDocuments 1 [sampleHash])]

/-- The log entry of the owner's registration. -/
def sampleRegistration : LogEntry where
  before := constructor 0
  input := sampleTx 1 (.registerProject 1 sampleHash "VCS" "US" 0)
  output := some 1
  after := machine.run (constructor 0) (strangersDocuments.take 1)

/-- The log entry of the stranger's call. -/
def sampleIntrusion : LogEntry where
  before := machine.run (constructor 0) (strangersDocuments.take 1)
  input := sampleTx 7 (.addProjectDocuments 1 [sampleHash])
  output := none
  after := machine.run (constructor 0) strangersDocuments

/-- The registration is authorised for the project it stores. -/
theorem registration_authorised : LogEntry.AuthorisedFor sampleRegistration 1 :=
  (writes_authorised_iff 0 strangersDocuments sampleRegistration
    (List.mem_of_getElem? (i := 0) rfl)).mpr (keepsDocuments_of_authorizer rfl) 1
      (Or.inl (by decide +kernel))

/-- The stranger's call changes the documents of the owner's project with no
authorisation at all. -/
theorem documents_stored_by_stranger :
    ¬ ∀ (admin : Address) (txs : List Tx), ∀ e ∈ machine.log (constructor admin) txs,
      ∀ projectId, LogEntry.Changes e projectId → LogEntry.AuthorisedFor e projectId := by
  intro h
  have hchanges : LogEntry.Changes sampleIntrusion 1 := by
    right
    decide +kernel
  obtain ⟨_, _, _, hasked, -⟩ := h 0 strangersDocuments sampleIntrusion
    (List.mem_of_getElem? (i := 1) rfl) 1 hchanges
  cases hasked

end EcoMint.ProjectRegistry
