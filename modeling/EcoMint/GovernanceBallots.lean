import Mathlib.Data.List.Dedup
import Mathlib.Data.List.Perm.Subperm
import EcoMint.Governance

/-!
# One signer, one ballot?

A vote is stored as one boolean for a signer and a proposal, and a vote is
refused when that boolean is `true`.  An approval therefore counts once.  A veto
is stored as `false`, which reads like no vote at all: the signer can veto again
or approve afterwards.  The counters are right exactly as long as nobody who
vetoed a proposal votes on it again.
-/

namespace EcoMint.Governance

open Fallible Storage

/-- A successful call, with the storages around it and what it invoked. -/
abbrev LogEntry := Event State Tx (Output × Option Invocation)

/-- Every accepted transaction is a step of the governance contract. -/
theorem governanceStep_of_fires {e : LogEntry} (h : machine.Fires e) :
    GovernanceStep e.input.env e.input.invokeContract e.before e.after e.input.call e.output.1
      e.output.2 := by
  unfold Machine.Fires at h
  simp only [machine, bind_ok_iff, pure_ok_iff, Prod.mk.injEq, Prod.exists] at h
  obtain ⟨out, invocation, s, hexec, hout, hs⟩ := h
  rw [← hout, ← hs]
  exact governanceStep_exec hexec

/-! ## The ballots of a log -/

/-- The signer whose approval of a proposal was accepted. -/
def LogEntry.approvalOn (id : Nat) (e : LogEntry) : Option Address :=
  match e.input.call with
  | .voteApprove caller proposalId _ => if id = proposalId then some caller else none
  | _ => none

/-- The signer whose veto of a proposal was accepted. -/
def LogEntry.vetoOn (id : Nat) (e : LogEntry) : Option Address :=
  match e.input.call with
  | .voteVeto caller proposalId _ => if id = proposalId then some caller else none
  | _ => none

/-- The signers of the accepted approvals of a proposal, with repetitions. -/
def approvers (id : Nat) (l : List LogEntry) : List Address :=
  l.filterMap (LogEntry.approvalOn id)

/-- The signers of the accepted vetoes of a proposal, with repetitions. -/
def vetoers (id : Nat) (l : List LogEntry) : List Address :=
  l.filterMap (LogEntry.vetoOn id)

theorem approvers_snoc (id : Nat) (l : List LogEntry) (e : LogEntry) :
    approvers id (l ++ [e]) = approvers id l ++ (LogEntry.approvalOn id e).toList :=
  Machine.filterMap_snoc ..

theorem vetoers_snoc (id : Nat) (l : List LogEntry) (e : LogEntry) :
    vetoers id (l ++ [e]) = vetoers id l ++ (LogEntry.vetoOn id e).toList :=
  Machine.filterMap_snoc ..

/-- The proposal and the signer of a ballot of either kind. -/
def Call.ballot : Call → Option (Nat × Address)
  | .voteApprove caller proposalId _ => some (proposalId, caller)
  | .voteVeto caller proposalId _ => some (proposalId, caller)
  | _ => none

/-- A call that is no ballot adds none. -/
theorem ballots_snoc_of_none {e : LogEntry} (h : e.input.call.ballot = none) (id : Nat)
    (l : List LogEntry) :
    approvers id (l ++ [e]) = approvers id l ∧ vetoers id (l ++ [e]) = vetoers id l := by
  rw [approvers_snoc, vetoers_snoc]
  unfold LogEntry.approvalOn LogEntry.vetoOn
  cases hcall : e.input.call <;> simp [Call.ballot, hcall] at h ⊢

/-! ## The counters and the log -/

/-- What every reachable storage satisfies, against the log that led to it. -/
structure BallotInvariant (signers : List Address) (s : State) (l : List LogEntry) : Prop where
  signers_eq : s.signers = some signers
  unused : ∀ id, s.proposalCount < id → s.proposal.get id = none
  unproposed : ∀ id, s.proposal.get id = none → approvers id l = [] ∧ vetoers id l = []
  counts : ∀ id proposal, s.proposal.get id = some proposal →
    proposal.approvalCount = (approvers id l).length ∧
      proposal.vetoCount = (vetoers id l).length
  vote_true : ∀ id a, s.vote.get (id, a) = some true ↔ a ∈ approvers id l
  vote_none : ∀ id a, s.vote.get (id, a) = none ↔ a ∉ approvers id l ∧ a ∉ vetoers id l
  nodup : ∀ id, (approvers id l).Nodup
  members : ∀ id a, a ∈ approvers id l ∨ a ∈ vetoers id l → a ∈ signers

/-- A call that is no ballot, and that leaves every proposal it finds with the
same counters. -/
theorem BallotInvariant.of_no_ballot {signers : List Address} {s : State} {l : List LogEntry}
    {e : LogEntry} (hs : BallotInvariant signers s l) (hcall : e.input.call.ballot = none)
    {s' : State} (hsigners : s'.signers = s.signers) (hvote : s'.vote = s.vote)
    (hunused : ∀ id, s'.proposalCount < id → s'.proposal.get id = none)
    (hfound : ∀ id proposal', s'.proposal.get id = some proposal' →
      (s.proposal.get id = none ∧ proposal'.approvalCount = 0 ∧ proposal'.vetoCount = 0) ∨
      ∃ proposal, s.proposal.get id = some proposal ∧
        proposal'.approvalCount = proposal.approvalCount ∧
        proposal'.vetoCount = proposal.vetoCount)
    (hnone : ∀ id, s'.proposal.get id = none → s.proposal.get id = none) :
    BallotInvariant signers s' (l ++ [e]) := by
  have happrovers := fun id => (ballots_snoc_of_none hcall id l).1
  have hvetoers := fun id => (ballots_snoc_of_none hcall id l).2
  constructor
  case signers_eq => rw [hsigners, hs.signers_eq]
  case unused => exact hunused
  case unproposed =>
    intro id hget
    rw [happrovers, hvetoers]
    exact hs.unproposed id (hnone id hget)
  case counts =>
    intro id proposal' hget
    rw [happrovers, hvetoers]
    rcases hfound id proposal' hget with ⟨hnew, happroval, hveto⟩ | ⟨proposal, hold, happroval, hveto⟩
    · obtain ⟨hnoApprovals, hnoVetoes⟩ := hs.unproposed id hnew
      simp [happroval, hveto, hnoApprovals, hnoVetoes]
    · rw [happroval, hveto]
      exact hs.counts id proposal hold
  case vote_true =>
    intro id a
    rw [hvote, happrovers]
    exact hs.vote_true id a
  case vote_none =>
    intro id a
    rw [hvote, happrovers, hvetoers]
    exact hs.vote_none id a
  case nodup =>
    intro id
    rw [happrovers]
    exact hs.nodup id
  case members =>
    intro id a
    rw [happrovers, hvetoers]
    exact hs.members id a

/-- Rewriting one stored proposal takes up no unused id. -/
theorem BallotInvariant.unused_set {signers : List Address} {s : State} {l : List LogEntry}
    (hs : BallotInvariant signers s l) {id : Nat} {proposal : Proposal}
    (hget : s.proposal.get id = some proposal) (proposal' : Proposal) :
    ∀ id', s.proposalCount < id' → (s.proposal.set id proposal').get id' = none := by
  intro id' hid
  have hne : id' ≠ id := by
    intro heq
    subst heq
    simp [hs.unused id' hid] at hget
  rw [get_set_ne _ _ hne]
  exact hs.unused id' hid

/-- Rewriting one stored proposal without touching its counters. -/
theorem BallotInvariant.of_rewrite {signers : List Address} {s : State} {l : List LogEntry}
    {e : LogEntry} (hs : BallotInvariant signers s l) (hcall : e.input.call.ballot = none)
    {s' : State} {id : Nat} {proposal proposal' : Proposal}
    (hget : s.proposal.get id = some proposal)
    (happroval : proposal'.approvalCount = proposal.approvalCount)
    (hveto : proposal'.vetoCount = proposal.vetoCount)
    (hsigners : s'.signers = s.signers) (hvote : s'.vote = s.vote)
    (hcount : s'.proposalCount = s.proposalCount)
    (hproposal : s'.proposal = s.proposal.set id proposal') :
    BallotInvariant signers s' (l ++ [e]) := by
  refine hs.of_no_ballot hcall hsigners hvote ?_ ?_ ?_
  · rw [hcount, hproposal]
    exact hs.unused_set hget proposal'
  · intro id' other hother
    right
    rw [hproposal, get_set] at hother
    by_cases hid : id' = id
    · rw [if_pos hid] at hother
      obtain rfl := Option.some.inj hother
      exact ⟨proposal, hid ▸ hget, happroval, hveto⟩
    · rw [if_neg hid] at hother
      exact ⟨other, hother, rfl, rfl⟩
  · intro id' hother
    rw [hproposal, get_set] at hother
    by_cases hid : id' = id
    · simp [hid] at hother
    · rwa [if_neg hid] at hother

/-- An approval raises the approvals by one and leaves the vetoes. -/
theorem approve_counts (proposal : Proposal) (env : Env) (threshold : Nat) :
    (proposal.approve env threshold).approvalCount = proposal.approvalCount + 1 ∧
      (proposal.approve env threshold).vetoCount = proposal.vetoCount := by
  unfold Proposal.approve
  dsimp only
  split <;> exact ⟨rfl, rfl⟩

/-- A veto raises the vetoes by one and leaves the approvals. -/
theorem veto_counts (proposal : Proposal) (threshold : Nat) :
    (proposal.veto threshold).approvalCount = proposal.approvalCount ∧
      (proposal.veto threshold).vetoCount = proposal.vetoCount + 1 := by
  unfold Proposal.veto
  dsimp only
  split <;> exact ⟨rfl, rfl⟩

/-- An accepted ballot of a signer on a stored proposal: the flag of the signer
is written, and the counter of the kind of ballot goes up by one. -/
theorem BallotInvariant.of_ballot {signers : List Address} {s s' : State} {l : List LogEntry}
    {e : LogEntry} (hs : BallotInvariant signers s l) (approve : Bool) {id : Nat}
    {caller : Address} {proposal proposal' : Proposal}
    (happrovers : ∀ id', approvers id' (l ++ [e]) =
      if id' = id ∧ approve = true then approvers id' l ++ [caller] else approvers id' l)
    (hvetoers : ∀ id', vetoers id' (l ++ [e]) =
      if id' = id ∧ approve = false then vetoers id' l ++ [caller] else vetoers id' l)
    (hsigner : caller ∈ signers) (hget : s.proposal.get id = some proposal)
    (hunvoted : s.vote.get (id, caller) ≠ some true)
    (happroval : proposal'.approvalCount =
      proposal.approvalCount + if approve = true then 1 else 0)
    (hveto : proposal'.vetoCount = proposal.vetoCount + if approve = false then 1 else 0)
    (hsigners : s'.signers = s.signers) (hvote : s'.vote = s.vote.set (id, caller) approve)
    (hcount : s'.proposalCount = s.proposalCount)
    (hproposal : s'.proposal = s.proposal.set id proposal') :
    BallotInvariant signers s' (l ++ [e]) := by
  have hfresh : caller ∉ approvers id l := by
    intro hmem
    exact hunvoted ((hs.vote_true id caller).mpr hmem)
  constructor
  case signers_eq => rw [hsigners, hs.signers_eq]
  case unused =>
    rw [hcount, hproposal]
    exact hs.unused_set hget proposal'
  case unproposed =>
    intro id' hnone
    rw [hproposal, get_set] at hnone
    by_cases hid : id' = id
    · simp [hid] at hnone
    · rw [if_neg hid] at hnone
      simpa [happrovers, hvetoers, hid] using hs.unproposed id' hnone
  case counts =>
    intro id' other hother
    rw [hproposal, get_set] at hother
    by_cases hid : id' = id
    · rw [if_pos hid] at hother
      obtain rfl := Option.some.inj hother
      subst hid
      obtain ⟨holdApprovals, holdVetoes⟩ := hs.counts id' proposal hget
      rw [happrovers, hvetoers, happroval, hveto]
      cases approve <;> simp [holdApprovals, holdVetoes]
    · rw [if_neg hid] at hother
      simpa [happrovers, hvetoers, hid] using hs.counts id' other hother
  case vote_true =>
    intro id' a
    have hold := hs.vote_true id' a
    rw [hvote, get_set, happrovers]
    by_cases hid : id' = id
    · subst hid
      by_cases ha : a = caller
      · subst ha
        cases approve <;> simp [hfresh]
      · cases approve <;> simp [ha, hold]
    · simp [hid, hold]
  case vote_none =>
    intro id' a
    have hold := hs.vote_none id' a
    rw [hvote, get_set, happrovers, hvetoers]
    by_cases hid : id' = id
    · subst hid
      by_cases ha : a = caller
      · subst ha
        cases approve <;> simp
      · cases approve <;> simp [ha, hold]
    · simp [hid, hold]
  case nodup =>
    intro id'
    rw [happrovers]
    by_cases hid : id' = id ∧ approve = true
    · rw [if_pos hid, ← List.concat_eq_append]
      exact (hs.nodup id').concat (hid.1 ▸ hfresh)
    · rw [if_neg hid]
      exact hs.nodup id'
  case members =>
    intro id' a
    have hold := hs.members id' a
    rw [happrovers, hvetoers]
    by_cases ha : a = caller
    · intro _
      exact ha ▸ hsigner
    · intro h
      apply hold
      cases approve <;> by_cases hid : id' = id <;> simp_all

/-- **Step lemma.**  Every successful call keeps the ballot invariant. -/
theorem BallotInvariant.step {signers : List Address} {l : List LogEntry} {e : LogEntry}
    (hs : BallotInvariant signers e.before l) (hfires : machine.Fires e) :
    BallotInvariant signers e.after (l ++ [e]) := by
  cases governanceStep_of_fires hfires with
  | allowListed caller target method nonce allowed hcall hafter _ =>
      have hballot : e.input.call.ballot = none := by
        rcases hcall with hcall | hcall <;> rw [hcall] <;> rfl
      rw [hafter]
      refine hs.of_no_ballot hballot rfl rfl hs.unused (fun id proposal hget => ?_)
        (fun _ hget => hget)
      exact Or.inr ⟨proposal, hget, rfl, rfl⟩
  | proposed caller target method args description nonce hcall _ _ hafter _ =>
      have hballot : e.input.call.ballot = none := by rw [hcall]; rfl
      have hnew := hs.unused (e.before.proposalCount + 1) (Nat.lt_succ_self _)
      rw [hafter]
      refine hs.of_no_ballot hballot rfl rfl ?_ ?_ ?_
      · intro id hid
        have hlt : e.before.proposalCount + 1 < id := hid
        exact (get_set_ne _ _ (by omega)).trans (hs.unused id (by omega))
      · intro id proposal hget
        simp only [get_set] at hget
        by_cases hid : id = e.before.proposalCount + 1
        · rw [if_pos hid] at hget
          obtain rfl := Option.some.inj hget
          exact Or.inl ⟨hid ▸ hnew, rfl, rfl⟩
        · rw [if_neg hid] at hget
          exact Or.inr ⟨proposal, hget, rfl, rfl⟩
      · intro id hget
        simp only [get_set] at hget
        by_cases hid : id = e.before.proposalCount + 1
        · exact hid ▸ hnew
        · rwa [if_neg hid] at hget
  | approved caller id nonce proposal signers' hcall hsigners hsigner hget _ hunvoted hafter _ =>
      obtain rfl : signers = signers' := by simpa [hs.signers_eq] using hsigners
      obtain ⟨happroval, hveto⟩ :=
        approve_counts proposal e.input.env (e.before.threshold.getD 1)
      refine hs.of_ballot true ?_ ?_ hsigner hget hunvoted happroval hveto
        (by rw [hafter]; rfl) (by rw [hafter]) (by rw [hafter]; rfl) (by rw [hafter])
      · intro id'
        rw [approvers_snoc]
        by_cases hid : id' = id <;> simp [LogEntry.approvalOn, hcall, hid]
      · intro id'
        rw [vetoers_snoc]
        simp [LogEntry.vetoOn, hcall]
  | vetoed caller id nonce proposal signers' hcall hsigners hsigner hget _ hunvoted hafter _ =>
      obtain rfl : signers = signers' := by simpa [hs.signers_eq] using hsigners
      obtain ⟨happroval, hveto⟩ := veto_counts proposal (e.before.threshold.getD 1)
      refine hs.of_ballot false ?_ ?_ hsigner hget hunvoted happroval hveto
        (by rw [hafter]; rfl) (by rw [hafter]) (by rw [hafter]; rfl) (by rw [hafter])
      · intro id'
        rw [approvers_snoc]
        simp [LogEntry.approvalOn, hcall]
      · intro id'
        rw [vetoers_snoc]
        by_cases hid : id' = id <;> simp [LogEntry.vetoOn, hcall, hid]
  | cancelled caller id nonce proposal hcall hget _ hafter _ =>
      have hballot : e.input.call.ballot = none := by rw [hcall]; rfl
      have hproposal : e.after.proposal =
          e.before.proposal.set id { proposal with status := .cancelled } := by rw [hafter]
      exact hs.of_rewrite hballot hget (by rfl) (by rfl) (by rw [hafter]; rfl) (by rw [hafter]; rfl)
        (by rw [hafter]; rfl) hproposal
  | executed caller id nonce proposal value hcall hget _ _ _ _ hafter _ =>
      have hballot : e.input.call.ballot = none := by rw [hcall]; rfl
      have hproposal : e.after.proposal =
          e.before.proposal.set id (proposal.executedNow e.input.env) := by rw [hafter]
      exact hs.of_rewrite hballot hget (by rfl) (by rfl) (by rw [hafter]; rfl) (by rw [hafter]; rfl)
        (by rw [hafter]; rfl) hproposal

/-- The ballots and the counts agree after every run. -/
theorem ballotInvariant_run {signers : List Address} {threshold timelockSeconds : Nat}
    {s₀ : State} (h : constructor signers threshold timelockSeconds = .ok s₀) (txs : List Tx) :
    BallotInvariant signers (machine.run s₀ txs) (machine.log s₀ txs) := by
  refine machine.invariant (P := fun s l => BallotInvariant signers s l) ?_
    (fun _ _ hfires hs => hs.step hfires) txs
  obtain ⟨-, -, -, rfl⟩ := constructor_ok_iff.mp h
  constructor <;> simp [approvers, vetoers]

/-! ## When every signer has one ballot -/

/-- The counters of every proposal count distinct signers, nobody on both sides
and no more than there are. -/
def BallotsCounted (signers : List Address) (s : State) (l : List LogEntry) : Prop :=
  ∀ id proposal, s.proposal.get id = some proposal →
    proposal.approvalCount = (approvers id l).dedup.length ∧
      proposal.vetoCount = (vetoers id l).dedup.length ∧
      (approvers id l).Disjoint (vetoers id l) ∧
      proposal.approvalCount + proposal.vetoCount ≤ signers.length

/-- The ballots of a proposal, of either kind. -/
def ballots (id : Nat) (l : List LogEntry) : List Address := approvers id l ++ vetoers id l

/-- A ballot is one more name in its proposal's list and changes no other list. -/
theorem ballots_snoc_of_some {e : LogEntry} {id : Nat} {caller : Address}
    (h : e.input.call.ballot = some (id, caller)) (l : List LogEntry) :
    (∃ left right, ballots id l = left ++ right ∧
        ballots id (l ++ [e]) = left ++ caller :: right) ∧
      ∀ id', id' ≠ id → ballots id' (l ++ [e]) = ballots id' l := by
  unfold ballots
  cases hkind : e.input.call with
  | voteApprove caller' id' nonce =>
      obtain ⟨rfl, rfl⟩ : id' = id ∧ caller' = caller := by simpa [Call.ballot, hkind] using h
      refine ⟨⟨approvers id' l, vetoers id' l, rfl, ?_⟩, fun other hother => ?_⟩
      · simp [approvers_snoc, vetoers_snoc, LogEntry.approvalOn, LogEntry.vetoOn, hkind]
      · simp [approvers_snoc, vetoers_snoc, LogEntry.approvalOn, LogEntry.vetoOn, hkind, hother]
  | voteVeto caller' id' nonce =>
      obtain ⟨rfl, rfl⟩ : id' = id ∧ caller' = caller := by simpa [Call.ballot, hkind] using h
      refine ⟨⟨approvers id' l ++ vetoers id' l, [], by simp, ?_⟩, fun other hother => ?_⟩
      · simp [approvers_snoc, vetoers_snoc, LogEntry.approvalOn, LogEntry.vetoOn, hkind]
      · simp [approvers_snoc, vetoers_snoc, LogEntry.approvalOn, LogEntry.vetoOn, hkind, hother]
  | addToAllowList | removeFromAllowList | propose | cancel | execute =>
      simp [Call.ballot, hkind] at h

/-- The counters are right exactly if nobody cast two ballots on one proposal. -/
theorem ballotsCounted_iff {signers : List Address} {s : State} {l : List LogEntry}
    (hs : BallotInvariant signers s l) :
    BallotsCounted signers s l ↔ ∀ id, (ballots id l).Nodup := by
  constructor
  · intro h id
    cases hget : s.proposal.get id with
    | none =>
        obtain ⟨happrovers, hvetoers⟩ := hs.unproposed id hget
        simp [ballots, happrovers, hvetoers]
    | some proposal =>
        obtain ⟨-, hveto, hdisjoint, -⟩ := h id proposal hget
        have hvetoes : (vetoers id l).Nodup := by
          rw [(hs.counts id proposal hget).2] at hveto
          rw [← List.dedup_eq_self]
          exact (List.dedup_sublist _).eq_of_length hveto.symm
        exact List.nodup_append'.mpr ⟨hs.nodup id, hvetoes, hdisjoint⟩
  · intro h id proposal hget
    obtain ⟨hnodup, hvetoes, hdisjoint⟩ := List.nodup_append'.mp (h id)
    obtain ⟨happroval, hveto⟩ := hs.counts id proposal hget
    have hsubset : ballots id l ⊆ signers := by
      intro a ha
      exact hs.members id a (List.mem_append.mp ha)
    have hle : (ballots id l).length ≤ signers.length :=
      ((h id).subperm hsubset).length_le
    refine ⟨?_, ?_, hdisjoint, ?_⟩
    · rw [hnodup.dedup, happroval]
    · rw [hvetoes.dedup, hveto]
    · rwa [happroval, hveto, ← List.length_append]

/-- The ballot is the signer's first on this proposal. -/
def LogEntry.FirstBallot (e : LogEntry) : Prop :=
  match e.input.call.ballot with
  | some ballot => e.before.vote.get ballot = none
  | none => True

instance (e : LogEntry) : Decidable (LogEntry.FirstBallot e) := by
  unfold LogEntry.FirstBallot
  split <;> infer_instance

/-- An accepted call keeps ballots distinct exactly if it is no second ballot. -/
theorem ballots_step_iff {signers : List Address} {l : List LogEntry} {e : LogEntry}
    (hs : BallotInvariant signers e.before l) (h : ∀ id, (ballots id l).Nodup) :
    (∀ id, (ballots id (l ++ [e])).Nodup) ↔ LogEntry.FirstBallot e := by
  unfold LogEntry.FirstBallot
  cases hcall : e.input.call.ballot with
  | none =>
      have hsame : ∀ id, ballots id (l ++ [e]) = ballots id l := by
        intro id
        obtain ⟨happrovers, hvetoers⟩ := ballots_snoc_of_none hcall id l
        rw [ballots, happrovers, hvetoers, ballots]
      simpa [hsame] using h
  | some ballot =>
      obtain ⟨id, caller⟩ := ballot
      obtain ⟨⟨left, right, hold, hnew⟩, hothers⟩ := ballots_snoc_of_some hcall l
      have hfirst : e.before.vote.get (id, caller) = none ↔ (ballots id (l ++ [e])).Nodup := by
        rw [hs.vote_none, hnew, List.nodup_middle, ← hold, List.nodup_cons, ballots,
          List.mem_append, not_or]
        exact (and_iff_left (h id)).symm
      constructor
      · intro hafter
        exact hfirst.mpr (hafter id)
      · intro hvote id'
        by_cases hid : id' = id
        · subst hid
          exact hfirst.mp hvote
        · rw [hothers id' hid]
          exact h id'

/-- **One signer, one ballot.**  The counters of every proposal equal the numbers
of distinct signers whose approvals and vetoes were accepted, with nobody on
both sides, all along a run exactly if every accepted ballot is its signer's
first on that proposal. -/
theorem one_ballot_iff (signers : List Address) (threshold timelockSeconds : Nat) (s₀ : State)
    (h : constructor signers threshold timelockSeconds = .ok s₀) (txs : List Tx) :
    (∀ pre, pre <+: txs → BallotsCounted signers (machine.run s₀ pre) (machine.log s₀ pre)) ↔
      ∀ e ∈ machine.log s₀ txs, LogEntry.FirstBallot e := by
  rw [← Machine.forall_prefix_iff_forall_mem]
  refine machine.holds_iff (I := fun s l => BallotInvariant signers s l)
    (P := fun s l => BallotsCounted signers s l) (C := fun _ e => LogEntry.FirstBallot e)
    (fun calls => ballotInvariant_run h calls) ?_ ?_ txs
  · obtain ⟨-, -, -, rfl⟩ := constructor_ok_iff.mp h
    intro id proposal hget
    simp at hget
  · intro l e hfires hs hcounted
    rw [ballotsCounted_iff (hs.step hfires)]
    exact ballots_step_iff hs ((ballotsCounted_iff hs).mp hcounted)

/-- A transaction at a time, signed by one account, in a release build; every
call of a target succeeds. -/
def sampleTx (time : Nat) (signer : Address) (call : Call) : Tx :=
  ⟨⟨time, [signer], none, 9, false⟩, fun _ _ _ => true, call⟩

/-- Three signers, two of whom decide, with a timelock of ten seconds. -/
def sampleState : State where
  signers := some [1, 2, 3]
  threshold := some 2
  timelockSeconds := some 10
  proposal := ∅
  proposalCount := 0
  vote := ∅
  nonce := ∅
  executionNonce := ∅
  allowList := ∅

/-- A method is allow-listed and its call proposed. -/
def proposedCall : List Tx := [
  sampleTx 1 1 (.addToAllowList 1 50 "set_fee" 0),
  sampleTx 2 1 (.propose 1 50 "set_fee" [.u64 7] "fee" 1)]

/-- Two signers vote, one each way. -/
def dividedVote : List Tx := proposedCall ++ [
  sampleTx 3 2 (.voteVeto 2 1 0),
  sampleTx 3 3 (.voteApprove 3 1 0)]

/-- In the sample run with a divided vote every ballot is counted. -/
theorem ballots_counted_dividedVote :
    BallotsCounted [1, 2, 3] (machine.run sampleState dividedVote)
      (machine.log sampleState dividedVote) :=
  (one_ballot_iff [1, 2, 3] 2 10 sampleState rfl dividedVote).mpr (by decide +kernel) dividedVote
    List.prefix_rfl

/-- One signer vetoes twice. -/
def doubleVeto : List Tx := proposedCall ++ [
  sampleTx 3 2 (.voteVeto 2 1 0),
  sampleTx 4 2 (.voteVeto 2 1 1)]

/-- Both vetoes count, and with them a single signer rejects the proposal. -/
theorem second_ballot_counted :
    ¬ ∀ (signers : List Address) (threshold timelockSeconds : Nat) (s₀ : State),
      constructor signers threshold timelockSeconds = .ok s₀ → ∀ txs : List Tx,
        BallotsCounted signers (machine.run s₀ txs) (machine.log s₀ txs) := by
  intro h
  have hcounted := h [1, 2, 3] 2 10 sampleState rfl doubleVeto
  have hstored : ((machine.run sampleState doubleVeto).proposal.get 1).map
      (fun proposal => (proposal.status, proposal.vetoCount)) = some (.rejected, 2) := by
    decide +kernel
  have hdistinct : (vetoers 1 (machine.log sampleState doubleVeto)).dedup.length = 1 := by
    decide +kernel
  obtain ⟨proposal, hget, hfields⟩ := Option.map_eq_some_iff.mp hstored
  have hveto := (hcounted 1 proposal hget).2.1
  rw [hdistinct, (Prod.mk.inj hfields).2] at hveto
  omega

end EcoMint.Governance
