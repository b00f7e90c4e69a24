import EcoMint.GovernanceBallots

/-!
# Executing a proposal

A proposal is executed once: only after enough signers approved it, only if its
call was allow-listed when it was proposed, and only after its timelock.  The
sum of queueing time and timelock saturates at the largest `u64`, which is
therefore the latest moment from which any queued proposal can be executed.
-/

namespace EcoMint.Governance

open Fallible Storage IntRange

/-- The proposal can no longer be voted on, cancelled or executed. -/
def Proposal.Closed (proposal : Proposal) : Prop :=
  proposal.status = .executed ∨ proposal.status = .rejected ∨ proposal.status = .cancelled

/-- The call of a target that the execution of a proposal made. -/
def LogEntry.invocationFor (id : Nat) (e : LogEntry) : Option Invocation :=
  match e.input.call with
  | .execute _ proposalId _ => if id = proposalId then e.output.2 else none
  | _ => none

/-- The calls of targets made for a proposal. -/
def invocations (id : Nat) (l : List LogEntry) : List Invocation :=
  l.filterMap (LogEntry.invocationFor id)

theorem invocations_snoc (id : Nat) (l : List LogEntry) (e : LogEntry) :
    invocations id (l ++ [e]) = invocations id l ++ (LogEntry.invocationFor id e).toList :=
  Machine.filterMap_snoc ..

/-- The proposal was made while its method of its target was allow-listed. -/
def ProposedAllowed (l : List LogEntry) (id : Nat) (proposal : Proposal) : Prop :=
  ∃ e ∈ l, (∃ caller args description nonce, e.input.call =
      .propose caller proposal.target proposal.method args description nonce) ∧
    e.output.1 = some id ∧ isMethodAllowed e.before proposal.target proposal.method = true

theorem ProposedAllowed.snoc {l : List LogEntry} {id : Nat} {proposal proposal' : Proposal}
    (h : ProposedAllowed l id proposal) (htarget : proposal'.target = proposal.target)
    (hmethod : proposal'.method = proposal.method) (e : LogEntry) :
    ProposedAllowed (l ++ [e]) id proposal' := by
  obtain ⟨e', he', hcall, hout, hallowed⟩ := h
  refine ⟨e', List.mem_append_left [e] he', ?_, hout, ?_⟩
  · rwa [htarget, hmethod]
  · rwa [htarget, hmethod]

/-- One for an executed proposal with this target, zero for any other. -/
def executedShare (target : Address) (proposal : Proposal) : Int :=
  if proposal.status = .executed ∧ proposal.target = target then 1 else 0

/-- Only an executed proposal has a share of the executions. -/
theorem executedShare_of_ne {proposal : Proposal} (h : proposal.status ≠ .executed)
    (target : Address) : executedShare target proposal = 0 := by
  simp [executedShare, h]

/-- The number of executed proposals with this target. -/
def State.executedOn (s : State) (target : Address) : Int :=
  s.proposal.sum fun _ proposal => executedShare target proposal

/-- What every reachable storage satisfies, against the log that led to it. -/
structure ExecutionInvariant (signers : List Address) (threshold : Nat) (s : State)
    (l : List LogEntry) : Prop where
  ballots : BallotInvariant signers s l
  threshold_eq : s.threshold = some threshold
  quorum : ∀ id proposal, s.proposal.get id = some proposal →
    proposal.status = .queued ∨ proposal.status = .executed → threshold ≤ proposal.approvalCount
  allowed : ∀ id proposal, s.proposal.get id = some proposal → ProposedAllowed l id proposal
  due : ∀ id proposal, s.proposal.get id = some proposal → proposal.status = .executed →
    u64.saturatingAddNat proposal.queuedAt proposal.timelockSeconds ≤ proposal.executedAt
  invoked : ∀ id proposal, s.proposal.get id = some proposal → proposal.status = .executed →
    ∃ invocation, invocations id l = [invocation] ∧ invocation.target = proposal.target ∧
      invocation.method = proposal.method
  uninvoked : ∀ id, (∀ proposal, s.proposal.get id = some proposal →
    proposal.status ≠ .executed) → invocations id l = []
  nonces : ∀ target, (s.executionNonce.read target : Int) = s.executedOn target

/-- A call that writes one proposal, neither executed before nor after. -/
theorem ExecutionInvariant.of_write {signers : List Address} {threshold : Nat} {s s' : State}
    {l : List LogEntry} {e : LogEntry} (hs : ExecutionInvariant signers threshold s l)
    (hballots : BallotInvariant signers s' (l ++ [e])) {id : Nat} {proposal : Proposal}
    (hproposal : s'.proposal = s.proposal.set id proposal)
    (hbefore : ∀ old, s.proposal.get id = some old → old.status ≠ .executed)
    (hstatus : proposal.status ≠ .executed)
    (hquorum : proposal.status = .queued → threshold ≤ proposal.approvalCount)
    (hallowed : ProposedAllowed (l ++ [e]) id proposal)
    (hcall : ∀ id, LogEntry.invocationFor id e = none)
    (hthreshold : s'.threshold = s.threshold) (hnonces : s'.executionNonce = s.executionNonce) :
    ExecutionInvariant signers threshold s' (l ++ [e]) := by
  have hinvocations : ∀ id', invocations id' (l ++ [e]) = invocations id' l := by
    intro id'
    simp [invocations_snoc, hcall]
  have hget : ∀ id' other, s'.proposal.get id' = some other →
      (id' = id ∧ other = proposal) ∨ (id' ≠ id ∧ s.proposal.get id' = some other) := by
    intro id' other h
    rw [hproposal, get_set] at h
    by_cases hid : id' = id
    · rw [if_pos hid] at h
      exact Or.inl ⟨hid, (Option.some.inj h).symm⟩
    · rw [if_neg hid] at h
      exact Or.inr ⟨hid, h⟩
  constructor
  case ballots =>
    exact hballots
  case threshold_eq =>
    rw [hthreshold, hs.threshold_eq]
  case quorum =>
    intro id' other h hqueued
    rcases hget id' other h with ⟨rfl, rfl⟩ | ⟨-, hold⟩
    · exact hquorum (hqueued.resolve_right hstatus)
    · exact hs.quorum id' other hold hqueued
  case allowed =>
    intro id' other h
    rcases hget id' other h with ⟨rfl, rfl⟩ | ⟨-, hold⟩
    · exact hallowed
    · exact (hs.allowed id' other hold).snoc rfl rfl e
  case due =>
    intro id' other h hexecuted
    rcases hget id' other h with ⟨rfl, rfl⟩ | ⟨-, hold⟩
    · exact absurd hexecuted hstatus
    · exact hs.due id' other hold hexecuted
  case invoked =>
    intro id' other h hexecuted
    rw [hinvocations]
    rcases hget id' other h with ⟨rfl, rfl⟩ | ⟨-, hold⟩
    · exact absurd hexecuted hstatus
    · exact hs.invoked id' other hold hexecuted
  case uninvoked =>
    intro id' hnone
    rw [hinvocations]
    apply hs.uninvoked
    intro old hold
    by_cases hid : id' = id
    · exact hbefore old (hid ▸ hold)
    · exact hnone old (by rwa [hproposal, get_set_ne _ _ hid])
  case nonces =>
    intro target
    rw [hnonces, hs.nonces target]
    unfold State.executedOn
    rw [hproposal, sum_set, executedShare_of_ne hstatus]
    cases hold : s.proposal.get id with
    | none => simp
    | some old => simp [executedShare_of_ne (hbefore old hold)]

/-- The execution of a queued proposal, which invokes its target. -/
theorem ExecutionInvariant.of_execute {signers : List Address} {threshold : Nat} {s s' : State}
    {l : List LogEntry} {e : LogEntry} (hs : ExecutionInvariant signers threshold s l)
    (hballots : BallotInvariant signers s' (l ++ [e])) {env : Env} {id : Nat}
    {proposal : Proposal} {invocation : Invocation}
    (hget : s.proposal.get id = some proposal) (hqueued : proposal.status = .queued)
    (hdue : u64.saturatingAddNat proposal.queuedAt proposal.timelockSeconds ≤ env.timestamp)
    (hproposal : s'.proposal = s.proposal.set id (proposal.executedNow env))
    (hcall : ∀ id', LogEntry.invocationFor id' e = if id' = id then some invocation else none)
    (htarget : invocation.target = proposal.target) (hmethod : invocation.method = proposal.method)
    (hthreshold : s'.threshold = s.threshold)
    (hnonces : s'.executionNonce = s.executionNonce.set proposal.target
      (s.executionNonce.read proposal.target + 1)) :
    ExecutionInvariant signers threshold s' (l ++ [e]) := by
  have hother : ∀ id' other, id' ≠ id → s'.proposal.get id' = some other →
      s.proposal.get id' = some other := by
    intro id' other hid h
    rwa [hproposal, get_set_ne _ _ hid] at h
  have hself : s'.proposal.get id = some (proposal.executedNow env) := by
    rw [hproposal, get_set_self]
  have hinvocations : ∀ id', id' ≠ id → invocations id' (l ++ [e]) = invocations id' l := by
    intro id' hid
    simp [invocations_snoc, hcall, hid]
  have hfirst : invocations id l = [] := by
    apply hs.uninvoked
    intro old hold
    obtain rfl : proposal = old := by simpa [hget] using hold
    simp [hqueued]
  constructor
  case ballots =>
    exact hballots
  case threshold_eq =>
    rw [hthreshold, hs.threshold_eq]
  case quorum =>
    intro id' other h hstatus
    by_cases hid : id' = id
    · subst hid
      obtain rfl : proposal.executedNow env = other := by simpa [hself] using h
      exact hs.quorum id' proposal hget (Or.inl hqueued)
    · exact hs.quorum id' other (hother id' other hid h) hstatus
  case allowed =>
    intro id' other h
    by_cases hid : id' = id
    · subst hid
      obtain rfl : proposal.executedNow env = other := by simpa [hself] using h
      exact (hs.allowed id' proposal hget).snoc rfl rfl e
    · exact (hs.allowed id' other (hother id' other hid h)).snoc rfl rfl e
  case due =>
    intro id' other h hstatus
    by_cases hid : id' = id
    · subst hid
      obtain rfl : proposal.executedNow env = other := by simpa [hself] using h
      exact hdue
    · exact hs.due id' other (hother id' other hid h) hstatus
  case invoked =>
    intro id' other h hstatus
    by_cases hid : id' = id
    · subst hid
      obtain rfl : proposal.executedNow env = other := by simpa [hself] using h
      refine ⟨invocation, ?_, htarget, hmethod⟩
      simp [invocations_snoc, hfirst, hcall]
    · rw [hinvocations id' hid]
      exact hs.invoked id' other (hother id' other hid h) hstatus
  case uninvoked =>
    intro id' hnone
    have hid : id' ≠ id := by
      intro heq
      subst heq
      exact hnone _ hself rfl
    rw [hinvocations id' hid]
    apply hs.uninvoked
    intro old hold
    exact hnone old (by rwa [hproposal, get_set_ne _ _ hid])
  case nonces =>
    intro target
    have hold := hs.nonces target
    have hqueuedShare : executedShare target proposal = 0 :=
      executedShare_of_ne (by simp [hqueued]) target
    unfold State.executedOn at *
    rw [hproposal, sum_set, hget, hnonces, read_set]
    simp only [Option.elim_some, hqueuedShare]
    by_cases htarget : target = proposal.target
    · subst htarget
      simp [executedShare, Proposal.executedNow, hold]
    · simp [executedShare, Proposal.executedNow, hold, htarget, Ne.symm htarget]

/-- An approval executes nothing, and queues a proposal only at the threshold. -/
theorem approve_status (proposal : Proposal) (env : Env) (threshold : Nat)
    (hpending : proposal.status = .pending) :
    (proposal.approve env threshold).status ≠ .executed ∧
      ((proposal.approve env threshold).status = .queued →
        threshold ≤ (proposal.approve env threshold).approvalCount) ∧
      (proposal.approve env threshold).target = proposal.target ∧
      (proposal.approve env threshold).method = proposal.method := by
  unfold Proposal.approve
  dsimp only
  split
  · next hreached => exact ⟨by simp, fun _ => hreached, rfl, rfl⟩
  · exact ⟨by simp [hpending], by simp [hpending], rfl, rfl⟩

/-- A veto executes and queues nothing, and leaves what the proposal calls. -/
theorem veto_status (proposal : Proposal) (threshold : Nat)
    (hpending : proposal.status = .pending) :
    (proposal.veto threshold).status ≠ .executed ∧
      (proposal.veto threshold).status ≠ .queued ∧
      (proposal.veto threshold).target = proposal.target ∧
      (proposal.veto threshold).method = proposal.method := by
  unfold Proposal.veto
  dsimp only
  split
  · exact ⟨by simp, by simp, rfl, rfl⟩
  · exact ⟨by simp [hpending], by simp [hpending], rfl, rfl⟩

/-- The host of governance on its own records exactly what it was asked to call. -/
theorem invokeContract_ok {tx : Tx} {target : Address} {method : Symbol} {args : List Val}
    {invocation : Invocation} (h : tx.invokeContract target method args = .ok invocation) :
    invocation = ⟨target, method, args⟩ := by
  simp only [Tx.invokeContract, bind_ok_iff, pure_ok_iff] at h
  obtain ⟨-, -, hinvocation⟩ := h
  exact hinvocation.symm

/-- **Step lemma.**  Every successful call keeps the execution invariant. -/
theorem ExecutionInvariant.step {signers : List Address} {threshold : Nat} {l : List LogEntry}
    {e : LogEntry} (hs : ExecutionInvariant signers threshold e.before l)
    (hfires : machine.Fires e) : ExecutionInvariant signers threshold e.after (l ++ [e]) := by
  have hballots := hs.ballots.step hfires
  cases governanceStep_of_fires hfires with
  | allowListed caller target method nonce allowed hcall hafter _ =>
      have hnone : ∀ id, LogEntry.invocationFor id e = none := by
        intro id
        rcases hcall with hcall | hcall <;> simp [LogEntry.invocationFor, hcall]
      have hinvocations : ∀ id, invocations id (l ++ [e]) = invocations id l := by
        intro id
        simp [invocations_snoc, hnone]
      have hproposal : e.after.proposal = e.before.proposal := by rw [hafter]; rfl
      have hthreshold : e.after.threshold = e.before.threshold := by rw [hafter]; rfl
      have hnonces : e.after.executionNonce = e.before.executionNonce := by rw [hafter]; rfl
      obtain ⟨-, h1, h2, h3, h4, h5, h6, h7⟩ := hs
      refine ⟨hballots, hthreshold ▸ h1, hproposal ▸ h2, ?_, hproposal ▸ h4, ?_, ?_, ?_⟩
      · intro id proposal hget
        exact (h3 id proposal (hproposal ▸ hget)).snoc rfl rfl e
      · intro id proposal hget
        rw [hinvocations]
        exact h5 id proposal (hproposal ▸ hget)
      · intro id hnot
        rw [hinvocations]
        exact h6 id (hproposal ▸ hnot)
      · intro target'
        unfold State.executedOn
        rw [hnonces, hproposal]
        exact h7 target'
  | proposed caller target method args description nonce hcall hallowed hout hafter _ =>
      have hnew := hs.ballots.unused (e.before.proposalCount + 1) (Nat.lt_succ_self _)
      have hproposal : e.after.proposal = e.before.proposal.set (e.before.proposalCount + 1)
          (freshProposal e.input.env e.before caller target method args description) := by
        rw [hafter]
      refine hs.of_write hballots hproposal ?_ (by simp [freshProposal]) (by simp [freshProposal])
        ?_ ?_ (by rw [hafter]; rfl) (by rw [hafter]; rfl)
      · intro old hold
        simp [hnew] at hold
      · exact ⟨e, by simp, ⟨caller, args, description, nonce, hcall⟩, hout, hallowed⟩
      · intro id
        simp [LogEntry.invocationFor, hcall]
  | approved caller id nonce proposal _ hcall _ _ hget hpending _ hafter _ =>
      have hproposal : e.after.proposal = e.before.proposal.set id
          (proposal.approve e.input.env (e.before.threshold.getD 1)) := by rw [hafter]
      obtain ⟨hstatus, hquorum, htarget, hmethod⟩ :=
        approve_status proposal e.input.env (e.before.threshold.getD 1) hpending
      have hthreshold : e.before.threshold.getD 1 = threshold := by simp [hs.threshold_eq]
      refine hs.of_write hballots hproposal ?_ hstatus (by rwa [hthreshold] at hquorum ⊢)
        ((hs.allowed id proposal hget).snoc htarget hmethod e) ?_ (by rw [hafter]; rfl)
        (by rw [hafter]; rfl)
      · intro old hold
        obtain rfl : proposal = old := by simpa [hget] using hold
        simp [hpending]
      · intro id'
        simp [LogEntry.invocationFor, hcall]
  | vetoed caller id nonce proposal _ hcall _ _ hget hpending _ hafter _ =>
      have hproposal : e.after.proposal = e.before.proposal.set id
          (proposal.veto (e.before.threshold.getD 1)) := by rw [hafter]
      obtain ⟨hstatus, hqueued, htarget, hmethod⟩ :=
        veto_status proposal (e.before.threshold.getD 1) hpending
      refine hs.of_write hballots hproposal ?_ hstatus (fun h => absurd h hqueued)
        ((hs.allowed id proposal hget).snoc htarget hmethod e) ?_ (by rw [hafter]; rfl)
        (by rw [hafter]; rfl)
      · intro old hold
        obtain rfl : proposal = old := by simpa [hget] using hold
        simp [hpending]
      · intro id'
        simp [LogEntry.invocationFor, hcall]
  | cancelled caller id nonce proposal hcall hget hpending hafter _ =>
      have hproposal : e.after.proposal = e.before.proposal.set id
          { proposal with status := .cancelled } := by rw [hafter]
      refine hs.of_write hballots hproposal ?_ (by simp) (by simp)
        ((hs.allowed id proposal hget).snoc rfl rfl e) ?_ (by rw [hafter]; rfl)
        (by rw [hafter]; rfl)
      · intro old hold
        obtain rfl : proposal = old := by simpa [hget] using hold
        simp [hpending]
      · intro id'
        simp [LogEntry.invocationFor, hcall]
  | executed caller id nonce proposal invocation hcall hget hqueued hdue _ hinvoke hafter hresult =>
      have hinvocation := invokeContract_ok hinvoke
      have hinvoked : ∀ id', LogEntry.invocationFor id' e =
          if id' = id then some invocation else none := by
        intro id'
        simp [LogEntry.invocationFor, hcall, hresult]
      exact hs.of_execute hballots hget hqueued hdue (by rw [hafter]) hinvoked
        (by rw [hinvocation]) (by rw [hinvocation]) (by rw [hafter]; rfl) (by rw [hafter])

/-- The invariant of the executions holds after every run. -/
theorem executionInvariant_run {signers : List Address} {threshold timelockSeconds : Nat}
    {s₀ : State} (h : constructor signers threshold timelockSeconds = .ok s₀) (txs : List Tx) :
    ExecutionInvariant signers threshold (machine.run s₀ txs) (machine.log s₀ txs) := by
  refine machine.invariant (P := fun s l => ExecutionInvariant signers threshold s l) ?_
    (fun _ _ hfires hs => hs.step hfires) txs
  have hballots := ballotInvariant_run h []
  obtain ⟨-, -, -, rfl⟩ := constructor_ok_iff.mp h
  refine ⟨hballots, rfl, ?_, ?_, ?_, ?_, ?_, ?_⟩ <;> simp [invocations, State.executedOn]

/-! ## Closed proposals -/

/-- A closed proposal is never written again. -/
theorem closed_step {signers : List Address} {l : List LogEntry} {e : LogEntry}
    (hs : BallotInvariant signers e.before l) (hfires : machine.Fires e) {id : Nat}
    {proposal : Proposal} (hget : e.before.proposal.get id = some proposal)
    (hclosed : proposal.Closed) : e.after.proposal.get id = some proposal := by
  have hkept : ∀ id' written, (∀ old, e.before.proposal.get id' = some old → ¬ old.Closed) →
      e.after.proposal = e.before.proposal.set id' written →
      e.after.proposal.get id = some proposal := by
    intro id' written hopen hproposal
    have hne : id ≠ id' := by
      intro heq
      subst heq
      exact hopen proposal hget hclosed
    rwa [hproposal, get_set_ne _ _ hne]
  have hfound : ∀ id' found, e.before.proposal.get id' = some found →
      found.status = .pending ∨ found.status = .queued →
      ∀ old, e.before.proposal.get id' = some old → ¬ old.Closed := by
    intro id' found hfound hstatus old hold
    obtain rfl : found = old := by simpa [hfound] using hold
    unfold Proposal.Closed
    rcases hstatus with hstatus | hstatus <;> simp [hstatus]
  cases governanceStep_of_fires hfires with
  | allowListed caller target method nonce allowed _ hafter _ => rwa [hafter]
  | proposed caller target method args description nonce _ _ _ hafter _ =>
      have hnew := hs.unused (e.before.proposalCount + 1) (Nat.lt_succ_self _)
      exact hkept (e.before.proposalCount + 1) _ (by simp [hnew]) (by rw [hafter])
  | approved caller id' nonce found _ _ _ _ hfound' hpending _ hafter _ =>
      exact hkept _ _ (hfound id' found hfound' (Or.inl hpending)) (by rw [hafter])
  | vetoed caller id' nonce found _ _ _ _ hfound' hpending _ hafter _ =>
      exact hkept _ _ (hfound id' found hfound' (Or.inl hpending)) (by rw [hafter])
  | cancelled caller id' nonce found _ hfound' hpending hafter _ =>
      exact hkept _ _ (hfound id' found hfound' (Or.inl hpending)) (by rw [hafter])
  | executed caller id' nonce found _ _ hfound' hqueued _ _ _ hafter _ =>
      exact hkept _ _ (hfound id' found hfound' (Or.inr hqueued)) (by rw [hafter])

/-- **Run lemma.**  Once closed, a proposal stays as it is. -/
theorem closed_run {signers : List Address} {threshold timelockSeconds : Nat} {s₀ : State}
    (h : constructor signers threshold timelockSeconds = .ok s₀) (txs later : List Tx) {id : Nat}
    {proposal : Proposal} (hget : (machine.run s₀ txs).proposal.get id = some proposal)
    (hclosed : proposal.Closed) :
    (machine.run s₀ (txs ++ later)).proposal.get id = some proposal := by
  induction later using List.reverseRecOn with
  | nil => simpa using hget
  | append_singleton later tx ih =>
      rw [← List.append_assoc]
      rcases machine.snoc_cases s₀ (txs ++ later) tx with ⟨hrun, -⟩ | ⟨e, hfires, -, hbefore, hrun, -⟩
      · rwa [hrun]
      · rw [hrun]
        have hballots := ballotInvariant_run h (txs ++ later)
        rw [← hbefore] at hballots ih
        exact closed_step hballots hfires ih hclosed

/-! ## Governance execution safety -/

/-- Whoever voted `true` on a proposal is counted once. -/
theorem approvalCount_eq_votes {signers : List Address} {s : State} {l : List LogEntry}
    (hs : BallotInvariant signers s l) (hsigners : signers.Nodup) {id : Nat}
    {proposal : Proposal} (hget : s.proposal.get id = some proposal) :
    proposal.approvalCount = (signers.filter fun a => s.vote.get (id, a) = some true).length := by
  rw [(hs.counts id proposal hget).1]
  apply List.Perm.length_eq
  rw [List.perm_ext_iff_of_nodup (hs.nodup id) (hsigners.filter _)]
  intro a
  rw [List.mem_filter, decide_eq_true_iff, hs.vote_true]
  constructor
  · intro ha
    exact ⟨hs.members id a (Or.inl ha), ha⟩
  · intro ha
    exact ha.2

/-- What an executed proposal went through. -/
structure ExecutedSafely (signers : List Address) (threshold : Nat) (l : List LogEntry)
    (id : Nat) (proposal : Proposal) : Prop where
  approved : ∃ voters : List Address, voters.Nodup ∧ threshold ≤ voters.length ∧
    ∀ a ∈ voters, a ∈ signers ∧ ∃ e ∈ l, ∃ nonce, e.input.call = .voteApprove a id nonce
  allowed : ProposedAllowed l id proposal
  due : min ((proposal.queuedAt + proposal.timelockSeconds : Nat) : Int) u64.hi ≤
    proposal.executedAt
  invokedOnce : ∃ invocation, invocations id l = [invocation] ∧
    invocation.target = proposal.target ∧ invocation.method = proposal.method

/-- Every approver has sent an approval. -/
theorem approval_of_mem {id : Nat} {a : Address} {l : List LogEntry} (h : a ∈ approvers id l) :
    ∃ e ∈ l, ∃ nonce, e.input.call = .voteApprove a id nonce := by
  obtain ⟨e, he, hon⟩ := List.mem_filterMap.mp h
  refine ⟨e, he, ?_⟩
  unfold LogEntry.approvalOn at hon
  cases hcall : e.input.call <;> simp [hcall] at hon
  next caller proposalId nonce =>
    obtain ⟨rfl, rfl⟩ := hon
    exact ⟨nonce, rfl⟩

/-- Under the invariant every executed proposal was executed safely. -/
theorem ExecutionInvariant.executedSafely {signers : List Address} {threshold : Nat} {s : State}
    {l : List LogEntry} (hs : ExecutionInvariant signers threshold s l) {id : Nat}
    {proposal : Proposal} (hget : s.proposal.get id = some proposal)
    (hexecuted : proposal.status = .executed) :
    ExecutedSafely signers threshold l id proposal := by
  have hquorum := hs.quorum id proposal hget (Or.inr hexecuted)
  rw [(hs.ballots.counts id proposal hget).1] at hquorum
  refine ⟨⟨approvers id l, hs.ballots.nodup id, hquorum, fun a ha => ?_⟩,
    hs.allowed id proposal hget, ?_, hs.invoked id proposal hget hexecuted⟩
  · exact ⟨hs.ballots.members id a (Or.inl ha), approval_of_mem ha⟩
  · have hdue := hs.due id proposal hget hexecuted
    rw [saturatingAddNat_eq_min] at hdue
    omega

/-- **Governance execution safety.**  In every reachable storage: the approvals
of a proposal are the signers whose vote is `true`; an executed proposal has a
quorum of distinct signers, was allow-listed when proposed, was executed no
earlier than its timelock allows (and than the largest `u64`, if that is
earlier), and its target was invoked once; closed proposals never change; and
the execution nonce of a target counts the executed proposals with it. -/
theorem execution_safety (signers : List Address) (threshold timelockSeconds : Nat) (s₀ : State)
    (h : constructor signers threshold timelockSeconds = .ok s₀) (txs : List Tx) :
    (∀ id proposal, (machine.run s₀ txs).proposal.get id = some proposal →
      (proposal.status = .executed →
        ExecutedSafely signers threshold (machine.log s₀ txs) id proposal) ∧
      proposal.approvalCount =
        (signers.filter fun a => (machine.run s₀ txs).vote.get (id, a) = some true).length ∧
      (proposal.Closed → ∀ later,
        (machine.run s₀ (txs ++ later)).proposal.get id = some proposal)) ∧
    ∀ target, ((machine.run s₀ txs).executionNonce.read target : Int) =
      (machine.run s₀ txs).executedOn target := by
  have hs := executionInvariant_run h txs
  obtain ⟨-, -, hsigners, -⟩ := constructor_ok_iff.mp h
  refine ⟨fun id proposal hget => ⟨?_, ?_, ?_⟩, hs.nonces⟩
  · intro hexecuted
    exact hs.executedSafely hget hexecuted
  · exact approvalCount_eq_votes hs.ballots hsigners hget
  · intro hclosed later
    exact closed_run h txs later hget hclosed

/-- Two signers queue a proposal at time 3, and a stranger executes it at the
last possible time. -/
def sampleExecution : List Tx := proposedCall ++ [
  sampleTx 3 2 (.voteApprove 2 1 0),
  sampleTx 3 3 (.voteApprove 3 1 0),
  sampleTx (2 ^ 64 - 1) 9 (.execute 9 1 0)]

/-- The same signers with the longest timelock there is. -/
def longTimelock : State := { sampleState with timelockSeconds := some (2 ^ 64 - 1) }

/-- In the sample run the target's execution nonce counts what was executed on it. -/
theorem execution_safety_sample :
    ((machine.run sampleState sampleExecution).executionNonce.read 50 : Int) =
      (machine.run sampleState sampleExecution).executedOn 50 :=
  (execution_safety [1, 2, 3] 2 10 sampleState rfl sampleExecution).2 50

/-- With the longest timelock the exact sum exceeds every time, yet the proposal
is executed. -/
theorem executed_before_exact_timelock :
    ¬ ∀ (signers : List Address) (threshold timelockSeconds : Nat) (s₀ : State),
      constructor signers threshold timelockSeconds = .ok s₀ →
        ∀ (txs : List Tx) (id : Nat) (proposal : Proposal),
          (machine.run s₀ txs).proposal.get id = some proposal → proposal.status = .executed →
            proposal.queuedAt + proposal.timelockSeconds ≤ proposal.executedAt := by
  intro h
  have hstored : ((machine.run longTimelock sampleExecution).proposal.get 1).map
      (fun proposal => (proposal.status, proposal.queuedAt, proposal.timelockSeconds,
        proposal.executedAt)) = some (.executed, 3, 2 ^ 64 - 1, 2 ^ 64 - 1) := by
    decide +kernel
  obtain ⟨proposal, hget, hfields⟩ := Option.map_eq_some_iff.mp hstored
  simp only [Prod.mk.injEq] at hfields
  obtain ⟨hstatus, hqueued, htimelock, hexecuted⟩ := hfields
  have hle := h [1, 2, 3] 2 (2 ^ 64 - 1) longTimelock rfl sampleExecution 1 proposal hget hstatus
  rw [hqueued, htimelock, hexecuted] at hle
  omega

end EcoMint.Governance
