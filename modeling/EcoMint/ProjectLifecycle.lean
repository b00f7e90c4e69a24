import EcoMint.RegistryGuards

/-!
# The life of a project

Projects are numbered in the order of their registration, and the number, the
owner, the methodology and the country of a project are for good.  Its status
moves along four arrows only, and its evidence is replaced along one of them.

A project is stored under bytes made of its number, which tell numbers apart
as long as the counter is the `u64` it is declared to be.
-/

namespace EcoMint.ProjectRegistry

open Fallible IntRange Storage

/-- The call asked for the authorisation of an address and had it. -/
def LogEntry.MadeBy (e : LogEntry) (addr : Address) : Prop :=
  e.input.call.authorizer = some addr ∧ e.input.env.Authorizes addr

/-- The call was made by the admin of the moment. -/
def LogEntry.MadeByAdmin (e : LogEntry) : Prop :=
  ∃ addr, e.before.admin = some addr ∧ e.MadeBy addr

/-- What a call can make of a stored project. -/
inductive Project.Moves (e : LogEntry) (project : Project) : Project → Prop
  | approved (hadmin : e.MadeByAdmin) (hfrom : project.status = .pending) :
      Moves e project { project with status := .approved }
  | rejected (hadmin : e.MadeByAdmin) (hfrom : project.status = .pending) :
      Moves e project { project with status := .rejected }
  | deactivated (hadmin : e.MadeByAdmin) (hfrom : project.status = .approved) :
      Moves e project { project with status := .inactive }
  | resubmitted (updatedIpfsHash : BytesN 32) (howner : e.MadeBy project.owner)
      (hfrom : project.status = .rejected) :
      Moves e project { project with metadataIpfsHash := updatedIpfsHash, status := .pending }

/-- What a call does under one key of the storage of projects. -/
inductive ProjectStep (e : LogEntry) (key : BytesN 32) : Prop
  | same (hsame : e.after.project.get key = e.before.project.get key)
  | registered (project : Project) (hnone : e.before.project.get key = none)
      (hafter : e.after.project.get key = some project)
      (hid : project.id = e.before.projectCount + 1) (howner : e.MadeBy project.owner)
      (hstatus : project.status = .pending)
  | moved (project project' : Project) (hget : e.before.project.get key = some project)
      (hafter : e.after.project.get key = some project') (hmoves : project.Moves e project')

/-- What never changes about a project. -/
structure Project.SameProject (project project' : Project) : Prop where
  id : project'.id = project.id
  owner : project'.owner = project.owner
  methodology : project'.methodology = project.methodology
  country : project'.country = project.country

/-- The projects are numbered 1, 2, … without gap, each stored under its
number, and the index by owner lists them in this order. -/
structure State.Numbered (s : State) : Prop where
  keyed : ∀ key project, s.project.get key = some project →
    key = projectIdToBytes project.id ∧ 1 ≤ project.id ∧ project.id ≤ s.projectCount
  dense : ∀ id, 1 ≤ id → id ≤ s.projectCount →
    ∃ project, s.project.get (projectIdToBytes id) = some project ∧ project.id = id
  ascending : ∀ owner, (getOwnerProjects s owner).Pairwise (· < ·)
  owned : ∀ owner id, id ∈ getOwnerProjects s owner ↔
    ∃ project, s.project.get (projectIdToBytes id) = some project ∧ project.id = id ∧
      project.owner = owner

/-! ## Keys and numbers -/

/-- Numbers with the same digits are the same. -/
theorem eq_of_digits {base digits : Nat} {x y : Nat} (hx : x < base ^ digits)
    (hy : y < base ^ digits)
    (h : ∀ i, i < digits → x / base ^ i % base = y / base ^ i % base) : x = y := by
  induction digits generalizing x y with
  | zero =>
      rw [Nat.pow_zero] at hx hy
      omega
  | succ digits ih =>
      have hlast : x % base = y % base := by simpa using h 0 (Nat.succ_pos digits)
      have hfront : x / base = y / base := by
        apply ih
        · exact Nat.div_lt_of_lt_mul (by rwa [Nat.pow_succ'] at hx)
        · exact Nat.div_lt_of_lt_mul (by rwa [Nat.pow_succ'] at hy)
        · intro i hi
          rw [Nat.div_div_eq_div_mul, Nat.div_div_eq_div_mul, ← Nat.pow_succ']
          exact h (i + 1) (Nat.succ_lt_succ hi)
      rw [← Nat.div_add_mod x base, hfront, hlast, Nat.div_add_mod]

/-- The bytes of a number tell it from every other number of the type. -/
theorem projectIdToBytes_injective {id id' : Nat} (hid : u64.Fits id) (hid' : u64.Fits id')
    (h : projectIdToBytes id = projectIdToBytes id') : id = id' := by
  have hbytes := congrArg (fun key => key.bytes.take 8) h
  have hlength : ∀ x, ((List.range 8).map fun i => UInt8.ofNat (x / 256 ^ (7 - i))).length = 8 :=
    fun x => by simp
  simp only [projectIdToBytes, List.take_left' (hlength _), List.map_inj_left,
    List.mem_range] at hbytes
  have hbound : ∀ x : Nat, u64.Fits x → x < 256 ^ 8 := by
    intro x hx
    simp only [Fits, u64] at hx
    omega
  refine eq_of_digits (hbound id hid) (hbound id' hid') fun i hi => ?_
  have hbyte := congrArg UInt8.toNat (hbytes (7 - i) (by omega))
  rw [UInt8.toNat_ofNat', UInt8.toNat_ofNat', Nat.sub_sub_self (by omega)] at hbyte
  exact hbyte

/-- A counter below one that fits fits too. -/
theorem fits_count_of_le {count count' : Nat} (h : u64.Fits count') (hle : count ≤ count') :
    u64.Fits count := by
  simp only [Fits, u64] at h ⊢
  omega

/-- No call lowers the count of projects. -/
theorem RegistryStep.count_le {env : Env} {s s' : State} {call : Call}
    (h : RegistryStep env s s' call) : s.projectCount ≤ s'.projectCount := by
  cases h with
  | registered caller hash methodology country nonce hcall hauth hnonce hafter =>
      rw [hafter]
      exact Nat.le_succ _
  | reviewed required next caller id nonce project hcall hauth hnonce hadmin hget hstatus hafter =>
      rw [hafter]
      exact le_rfl
  | resubmitted caller id hash nonce project hcall hauth hnonce hget howner hstatus hafter =>
      rw [hafter]
      exact le_rfl
  | documented id hashes hcall hafter =>
      rw [hafter]
  | administered currentAdmin newAdmin nonce hcall hauth hnonce hadmin hafter =>
      rw [hafter]
      exact le_rfl

/-- The key of the next project is free. -/
theorem State.Numbered.next_free {s : State} (hs : s.Numbered)
    (hcount : u64.Fits (s.projectCount + 1 : Nat)) :
    s.project.get (projectIdToBytes (s.projectCount + 1)) = none := by
  cases hget : s.project.get (projectIdToBytes (s.projectCount + 1)) with
  | none => rfl
  | some project =>
      obtain ⟨hkey, -, hle⟩ := hs.keyed _ project hget
      have hid := projectIdToBytes_injective hcount
        (fits_count_of_le hcount (by omega)) hkey
      omega

/-! ## What one call does -/

/-- A review by the administrator moves a project on from the status that the review
requires. -/
theorem moves_of_review {e : LogEntry} {required next : ProjectStatus} {caller : Address}
    {id nonce : Nat} {project : Project}
    (hcall : e.input.call.review = some (required, next, caller, id, nonce))
    (hauth : e.input.env.Authorizes caller) (hadmin : e.before.admin = some caller)
    (hstatus : project.status = required) :
    project.Moves e { project with status := next } := by
  have hby : e.MadeByAdmin := ⟨caller, hadmin, authorizer_of_review hcall, hauth⟩
  unfold Call.review at hcall
  split at hcall
  · obtain ⟨rfl, rfl, -⟩ := Prod.mk.inj (Option.some.inj hcall) |>.imp_right Prod.mk.inj
    exact .approved hby hstatus
  · obtain ⟨rfl, rfl, -⟩ := Prod.mk.inj (Option.some.inj hcall) |>.imp_right Prod.mk.inj
    exact .rejected hby hstatus
  · obtain ⟨rfl, rfl, -⟩ := Prod.mk.inj (Option.some.inj hcall) |>.imp_right Prod.mk.inj
    exact .deactivated hby hstatus
  · cases hcall

/-- **Step lemma.**  Every successful call is a `ProjectStep` under every key,
as long as the counter is a `u64`. -/
theorem RegistryStep.projectStep {e : LogEntry}
    (h : RegistryStep e.input.env e.before e.after e.input.call) (hs : e.before.Numbered)
    (hcount : u64.Fits e.after.projectCount) (key : BytesN 32) : ProjectStep e key := by
  cases h with
  | registered caller hash methodology country nonce hcall hauth hnonce hafter =>
      rw [hafter] at hcount
      by_cases hkey : key = projectIdToBytes (e.before.projectCount + 1)
      · subst hkey
        refine .registered
          (freshProject (e.before.projectCount + 1) caller hash methodology country)
          (hs.next_free hcount) ?_ rfl ⟨?_, hauth⟩ rfl
        · rw [hafter]
          exact get_set_self _ _ _
        · rw [hcall]
          rfl
      · refine .same ?_
        rw [hafter]
        exact get_set_ne _ _ hkey
  | reviewed required next caller id nonce project hcall hauth hnonce hadmin hget hstatus hafter =>
      by_cases hkey : key = projectIdToBytes id
      · subst hkey
        refine .moved project _ hget ?_ (moves_of_review hcall hauth hadmin hstatus)
        rw [hafter]
        exact get_set_self _ _ _
      · refine .same ?_
        rw [hafter]
        exact get_set_ne _ _ hkey
  | resubmitted caller id hash nonce project hcall hauth hnonce hget howner hstatus hafter =>
      by_cases hkey : key = projectIdToBytes id
      · subst hkey
        have hby : e.MadeBy project.owner := ⟨by rw [hcall, howner]; rfl, howner ▸ hauth⟩
        refine .moved project _ hget ?_ (.resubmitted hash hby hstatus)
        rw [hafter]
        exact get_set_self _ _ _
      · refine .same ?_
        rw [hafter]
        exact get_set_ne _ _ hkey
  | documented id hashes hcall hafter => exact .same (by rw [hafter])
  | administered currentAdmin newAdmin nonce hcall hauth hnonce hadmin hafter =>
      exact .same (by rw [hafter]; rfl)

/-! ## The numbering -/

theorem Project.SameProject.refl (project : Project) : project.SameProject project :=
  ⟨rfl, rfl, rfl, rfl⟩

theorem Project.SameProject.trans {project project' project'' : Project}
    (h : project.SameProject project') (h' : project'.SameProject project'') :
    project.SameProject project'' :=
  ⟨h'.id.trans h.id, h'.owner.trans h.owner, h'.methodology.trans h.methodology,
    h'.country.trans h.country⟩

/-- A move keeps what makes a project the same project. -/
theorem Project.Moves.sameProject {e : LogEntry} {project project' : Project}
    (h : project.Moves e project') : project.SameProject project' := by
  cases h <;> exact ⟨rfl, rfl, rfl, rfl⟩

/-- Nothing that counts for the numbering changes. -/
theorem State.Numbered.same {s s' : State} (hs : s.Numbered) (hproject : s'.project = s.project)
    (hcount : s'.projectCount = s.projectCount) (howner : s'.ownerProjects = s.ownerProjects) :
    s'.Numbered where
  keyed := by rw [hproject, hcount]; exact hs.keyed
  dense := by rw [hproject, hcount]; exact hs.dense
  ascending := by unfold getOwnerProjects; rw [howner]; exact hs.ascending
  owned := by unfold getOwnerProjects; rw [howner, hproject]; exact hs.owned

/-- A stored project is replaced by one with the same number and owner. -/
theorem State.Numbered.replace {s s' : State} (hs : s.Numbered) {key : BytesN 32}
    {project project' : Project} (hget : s.project.get key = some project)
    (hsame : project.SameProject project') (hproject : s'.project = s.project.set key project')
    (hcount : s'.projectCount = s.projectCount) (howner : s'.ownerProjects = s.ownerProjects) :
    s'.Numbered := by
  have hset : ∀ key', s'.project.get key' =
      if key' = key then some project' else s.project.get key' := by
    intro key'
    rw [hproject, get_set]
  constructor
  case keyed =>
    intro key' stored hstored
    rw [hcount]
    rw [hset] at hstored
    split at hstored
    · next hkey =>
        obtain rfl := Option.some.inj hstored
        rw [hkey, hsame.id]
        exact hs.keyed key project hget
    · exact hs.keyed key' stored hstored
  case dense =>
    intro id hpos hle
    rw [hcount] at hle
    obtain ⟨stored, hstored, hid⟩ := hs.dense id hpos hle
    rw [hset]
    split
    · next hkey =>
        obtain rfl : project = stored := by simpa [← hkey, hstored] using hget.symm
        exact ⟨project', rfl, hsame.id.trans hid⟩
    · exact ⟨stored, hstored, hid⟩
  case ascending =>
    unfold getOwnerProjects
    rw [howner]
    exact hs.ascending
  case owned =>
    intro owner id
    have hlist : getOwnerProjects s' owner = getOwnerProjects s owner := by
      unfold getOwnerProjects
      rw [howner]
    rw [hlist, hs.owned, hset]
    split
    · next hkey =>
        constructor
        · intro h
          obtain ⟨stored, hstored, hid, howned⟩ := h
          obtain rfl : project = stored := by simpa [← hkey, hstored] using hget.symm
          exact ⟨project', rfl, hsame.id.trans hid, hsame.owner.trans howned⟩
        · intro h
          obtain ⟨stored, hstored, hid, howned⟩ := h
          obtain rfl := Option.some.inj hstored
          exact ⟨project, hkey ▸ hget, hsame.id.symm.trans hid, hsame.owner.symm.trans howned⟩
    · rfl

/-- The next project is registered. -/
theorem State.Numbered.register {s s' : State} (hs : s.Numbered) {project : Project}
    (hcount : u64.Fits (s.projectCount + 1 : Nat)) (hid : project.id = s.projectCount + 1)
    (hproject : s'.project = s.project.set (projectIdToBytes (s.projectCount + 1)) project)
    (hcount' : s'.projectCount = s.projectCount + 1)
    (howner : s'.ownerProjects = s.ownerProjects.set project.owner
      (getOwnerProjects s project.owner ++ [s.projectCount + 1])) : s'.Numbered := by
  have hlist : ∀ owner, getOwnerProjects s' owner =
      if owner = project.owner then getOwnerProjects s owner ++ [s.projectCount + 1]
      else getOwnerProjects s owner := by
    intro owner
    unfold getOwnerProjects
    rw [howner, get_set]
    split
    · next howner => rw [howner]; rfl
    · rfl
  -- the numbers in use are told apart from the next one by their keys
  have hkey : ∀ id, id ≤ s.projectCount →
      projectIdToBytes id ≠ projectIdToBytes (s.projectCount + 1) := by
    intro id hle heq
    have heq' := projectIdToBytes_injective (fits_count_of_le hcount (by omega)) hcount heq
    omega
  have hlisted : ∀ owner id, id ∈ getOwnerProjects s owner → id ≤ s.projectCount := by
    intro owner id hmem
    obtain ⟨stored, hstored, rfl, -⟩ := (hs.owned owner id).mp hmem
    exact (hs.keyed _ stored hstored).2.2
  constructor
  case keyed =>
    intro key stored hstored
    rw [hproject, get_set] at hstored
    rw [hcount']
    split at hstored
    · next hkey' =>
        obtain rfl := Option.some.inj hstored
        rw [hid]
        exact ⟨hkey', by omega, le_rfl⟩
    · obtain ⟨hstoredKey, hpos, hle⟩ := hs.keyed key stored hstored
      exact ⟨hstoredKey, hpos, by omega⟩
  case dense =>
    intro id hpos hle
    rw [hcount'] at hle
    rw [hproject]
    by_cases hlast : id = s.projectCount + 1
    · subst hlast
      exact ⟨project, get_set_self _ _ _, hid⟩
    · have hle' : id ≤ s.projectCount := by omega
      rw [get_set_ne _ _ (hkey id hle')]
      exact hs.dense id hpos hle'
  case ascending =>
    intro owner
    rw [hlist]
    split
    · refine List.pairwise_append.mpr ⟨hs.ascending owner, List.pairwise_singleton _ _, ?_⟩
      intro id hmem id' hmem'
      have hle := hlisted owner id hmem
      rw [List.mem_singleton] at hmem'
      omega
    · exact hs.ascending owner
  case owned =>
    intro owner id
    rw [hlist, hproject]
    by_cases hlast : id = s.projectCount + 1
    · subst hlast
      have hnot : s.projectCount + 1 ∉ getOwnerProjects s owner := by
        intro hmem
        have hle := hlisted owner _ hmem
        omega
      rw [get_set_self]
      by_cases howned : owner = project.owner
      · simp [howned, hid]
      · simp [howned, hnot, hid, eq_comm]
    · have hmem : id ∈ (if owner = project.owner then
          getOwnerProjects s owner ++ [s.projectCount + 1] else getOwnerProjects s owner) ↔
          id ∈ getOwnerProjects s owner := by
        split <;> simp [hlast]
      rw [hmem]
      by_cases hle : id ≤ s.projectCount
      · rw [get_set_ne _ _ (hkey id hle)]
        exact hs.owned owner id
      · constructor
        · intro h
          exact absurd (hlisted owner id h) hle
        · intro h
          obtain ⟨stored, hstored, rfl, howned⟩ := h
          rw [get_set] at hstored
          split at hstored
          · obtain rfl := Option.some.inj hstored
            exact absurd hid hlast
          · exact absurd (hs.keyed _ stored hstored).2.2 hle

/-- **Step lemma** for the numbering. -/
theorem State.Numbered.step {env : Env} {s s' : State} {call : Call} (hs : s.Numbered)
    (h : RegistryStep env s s' call) (hcount : u64.Fits s'.projectCount) : s'.Numbered := by
  cases h with
  | registered caller hash methodology country nonce hcall hauth hnonce hafter =>
      rw [hafter] at hcount ⊢
      refine hs.register hcount ?_ rfl rfl rfl
      rfl
  | reviewed required next caller id nonce project hcall hauth hnonce hadmin hget hstatus hafter =>
      rw [hafter]
      refine hs.replace hget ?_ rfl rfl rfl
      exact ⟨rfl, rfl, rfl, rfl⟩
  | resubmitted caller id hash nonce project hcall hauth hnonce hget howner hstatus hafter =>
      rw [hafter]
      refine hs.replace hget ?_ rfl rfl rfl
      exact ⟨rfl, rfl, rfl, rfl⟩
  | documented id hashes hcall hafter =>
      rw [hafter]
      exact hs.same rfl rfl rfl
  | administered currentAdmin newAdmin nonce hcall hauth hnonce hadmin hafter =>
      rw [hafter]
      exact hs.same rfl rfl rfl

/-! ## Whole runs -/

theorem numbered_constructor (admin : Address) : (constructor admin).Numbered where
  keyed := by simp [constructor]
  dense := by
    intro id hpos hle
    simp only [constructor] at hle
    omega
  ascending := by simp [constructor, getOwnerProjects]
  owned := by simp [constructor, getOwnerProjects]

/-- Projects are numbered in every reachable registry whose counter fits. -/
theorem numbered_run (admin : Address) (txs : List Tx)
    (hcount : u64.Fits (machine.run (constructor admin) txs).projectCount) :
    (machine.run (constructor admin) txs).Numbered := by
  refine machine.invariant (P := fun s _ => u64.Fits s.projectCount → s.Numbered)
    (fun _ => numbered_constructor admin) ?_ txs hcount
  intro l e hfires hs hafter
  have hstep := registryStep_exec hfires
  exact (hs (fits_count_of_le hafter hstep.count_le)).step hstep hafter

/-- The count of projects never goes down. -/
theorem count_le_run (admin : Address) (txs later : List Tx) :
    (machine.run (constructor admin) txs).projectCount ≤
      (machine.run (constructor admin) (txs ++ later)).projectCount := by
  induction later using List.reverseRecOn with
  | nil => simp
  | append_singleton later tx ih =>
      rw [← List.append_assoc]
      rcases machine.snoc_cases (constructor admin) (txs ++ later) tx with
        ⟨hrun, -⟩ | ⟨e, hfires, -, hbefore, hrun, -⟩
      · rwa [hrun]
      · rw [hrun]
        rw [← hbefore] at ih
        exact ih.trans (registryStep_exec hfires).count_le

/-- Every logged call is a `ProjectStep` under every key. -/
theorem projectStep_of_mem_log {admin : Address} {txs : List Tx}
    (hcount : u64.Fits (machine.run (constructor admin) txs).projectCount) {e : LogEntry}
    (he : e ∈ machine.log (constructor admin) txs) (key : BytesN 32) : ProjectStep e key := by
  obtain ⟨l, rest, hlog⟩ := List.append_of_mem he
  have hpre : l ++ [e] <+: machine.log (constructor admin) txs := ⟨rest, by simp [hlog]⟩
  obtain ⟨pre, tx, ⟨later, htxs⟩, hfires, hbefore, -, hafter, -⟩ :=
    machine.exists_call_of_log_prefix hpre
  have hstep := registryStep_exec hfires
  have hle := count_le_run admin (pre ++ [tx]) later
  rw [htxs, hafter] at hle
  have hfits := fits_count_of_le hcount hle
  have hs : e.before.Numbered := by
    rw [hbefore]
    apply numbered_run
    rw [← hbefore]
    exact fits_count_of_le hfits hstep.count_le
  exact hstep.projectStep hs hfits key

/-- What a later state holds of a project stored now. -/
def Project.KeptIn (project : Project) (s : State) (key : BytesN 32) : Prop :=
  ∃ project', s.project.get key = some project' ∧ project.SameProject project' ∧
    (project.status = .inactive → project' = project)

/-- One transaction keeps a project that is stored under its key. -/
theorem Project.KeptIn.step {project : Project} {e : LogEntry} {key : BytesN 32}
    (hs : project.KeptIn e.before key) (hstep : ProjectStep e key) :
    project.KeptIn e.after key := by
  obtain ⟨stored, hstored, hsame, hinactive⟩ := hs
  cases hstep with
  | same hunchanged => exact ⟨stored, hunchanged.trans hstored, hsame, hinactive⟩
  | registered added hnone hafter hid howner hstatus =>
      rw [hnone] at hstored
      cases hstored
  | moved old new hget hafter hmoves =>
      obtain rfl : stored = old := by simpa [hstored] using hget
      refine ⟨new, hafter, hsame.trans hmoves.sameProject, ?_⟩
      intro hstatus
      have hterminal : stored.status = .inactive := by rw [hinactive hstatus, hstatus]
      cases hmoves with
      | approved hadmin hfrom => simp [hterminal] at hfrom
      | rejected hadmin hfrom => simp [hterminal] at hfrom
      | deactivated hadmin hfrom => simp [hterminal] at hfrom
      | resubmitted hash howner hfrom => simp [hterminal] at hfrom

/-- A stored project stays the project it is, and an inactive one stays as it
is, for the rest of the run. -/
theorem kept_run (admin : Address) (txs later : List Tx) {key : BytesN 32} {project : Project}
    (hget : (machine.run (constructor admin) txs).project.get key = some project)
    (hcount : u64.Fits (machine.run (constructor admin) (txs ++ later)).projectCount) :
    project.KeptIn (machine.run (constructor admin) (txs ++ later)) key := by
  induction later using List.reverseRecOn with
  | nil => exact ⟨project, by simpa using hget, .refl project, fun _ => rfl⟩
  | append_singleton later tx ih =>
      rw [← List.append_assoc] at hcount ⊢
      have hkept := ih (fits_count_of_le hcount (count_le_run admin (txs ++ later) [tx]))
      rcases machine.snoc_cases (constructor admin) (txs ++ later) tx with
        ⟨hrun, -⟩ | ⟨e, hfires, -, hbefore, hrun, hlog⟩
      · rwa [hrun]
      · have he : e ∈ machine.log (constructor admin) (txs ++ later ++ [tx]) := by
          rw [hlog]
          simp
        have hstep := projectStep_of_mem_log hcount he key
        rw [← hbefore] at hkept
        rw [hrun]
        exact hkept.step hstep

/-- **The life of a project.**  In every run, as long as the counter of
projects is a `u64`: the projects are numbered without gap and listed by owner
in this order; a call registers the next project, pending, or moves a project
along one of the four arrows, or leaves it alone; and a project keeps its
number, owner, methodology and country for good, and everything once it is
inactive. -/
theorem project_lifecycle (admin : Address) (txs later : List Tx)
    (hcount : u64.Fits (machine.run (constructor admin) (txs ++ later)).projectCount) :
    (machine.run (constructor admin) txs).Numbered ∧
    (∀ e ∈ machine.log (constructor admin) txs, ∀ key, ProjectStep e key) ∧
    ∀ key project, (machine.run (constructor admin) txs).project.get key = some project →
      project.KeptIn (machine.run (constructor admin) (txs ++ later)) key := by
  have hfits := fits_count_of_le hcount (count_le_run admin txs later)
  refine ⟨numbered_run admin txs hfits, ?_, ?_⟩
  · intro e he key
    exact projectStep_of_mem_log hfits he key
  · intro key project hget
    exact kept_run admin txs later hget hcount

/-- A project is rejected, resubmitted, approved and deactivated; its owner
registers a second one. -/
def sampleLife : List Tx := [
  sampleTx 1 (.registerProject 1 sampleHash "VCS" "US" 0),
  sampleTx 0 (.rejectProject 0 1 0),
  sampleTx 1 (.resubmitProject 1 1 sampleHash 1),
  sampleTx 0 (.approveProject 0 1 1),
  sampleTx 0 (.deactivateProject 0 1 2),
  sampleTx 1 (.registerProject 1 sampleHash "GS" "US" 2)]

/-- In the sample life the projects are numbered. -/
theorem project_lifecycle_sample : (machine.run (constructor 0) sampleLife).Numbered :=
  (project_lifecycle 0 sampleLife [] (by decide +kernel)).1

example : getOwnerProjects (machine.run (constructor 0) sampleLife) 1 = [1, 2] := by decide +kernel

/-! ## Evidence -/

/-- Every stored project names its evidence. -/
def State.HasEvidence (s : State) : Prop :=
  ∀ key project, s.project.get key = some project → ¬ project.metadataIpfsHash.isZero

/-- What the call resubmits names its evidence, if it is a resubmission. -/
def LogEntry.ResubmitsEvidence (e : LogEntry) : Prop :=
  ∀ caller projectId updatedIpfsHash nonce,
    e.input.call = .resubmitProject caller projectId updatedIpfsHash nonce →
      ¬ updatedIpfsHash.isZero

/-- Registration asks for evidence. -/
theorem evidence_of_register {env : Env} {s s' : State} {caller : Address}
    {metadataIpfsHash : BytesN 32} {methodology country : Symbol} {nonce : Nat} {out : Output}
    (h : exec env s (.registerProject caller metadataIpfsHash methodology country nonce) =
      .ok (out, s')) : ¬ metadataIpfsHash.isZero := by
  simp only [exec, bind_ok_iff, pure_ok_iff, Prod.mk.injEq, Prod.exists] at h
  obtain ⟨id, s'', hregister, -, -⟩ := h
  obtain ⟨-, -, hevidence, -⟩ := registerProject_ok_iff.mp hregister
  exact hevidence

/-- Storing a project with evidence keeps every project having evidence. -/
theorem State.HasEvidence.set {s s' : State} (hs : s.HasEvidence) {key : BytesN 32}
    {project : Project} (hproject : s'.project = s.project.set key project)
    (hevidence : ¬ project.metadataIpfsHash.isZero) : s'.HasEvidence := by
  intro key' stored hstored
  rw [hproject, get_set] at hstored
  split at hstored
  · obtain rfl := Option.some.inj hstored
    exact hevidence
  · exact hs key' stored hstored

/-- **Step lemma.**  Every project has evidence after a call exactly if the
call resubmits none without. -/
theorem hasEvidence_step_iff {e : LogEntry} (hfires : machine.Fires e)
    (hs : e.before.HasEvidence) : e.after.HasEvidence ↔ e.ResubmitsEvidence := by
  -- a call other than a resubmission resubmits nothing
  have hnone : (∀ caller id hash nonce,
      e.input.call ≠ .resubmitProject caller id hash nonce) → e.ResubmitsEvidence := by
    intro hne caller id hash nonce hcall
    exact absurd hcall (hne caller id hash nonce)
  cases registryStep_exec hfires with
  | registered caller hash methodology country nonce hcall hauth hnonce hafter =>
      refine iff_of_true ?_ (hnone (by simp [hcall]))
      have hexec : exec e.input.env e.before e.input.call = .ok (e.output, e.after) := hfires
      rw [hcall] at hexec
      have hevidence := evidence_of_register hexec
      exact hs.set (by rw [hafter]) hevidence
  | reviewed required next caller id nonce project hcall hauth hnonce hadmin hget hstatus hafter =>
      refine iff_of_true ?_ (hnone ?_)
      · refine hs.set (by rw [hafter]) ?_
        exact hs _ project hget
      · intro caller id hash nonce hresubmit
        rw [hresubmit] at hcall
        cases hcall
  | resubmitted caller id hash nonce project hcall hauth hnonce hget howner hstatus hafter =>
      constructor
      · intro h caller' id' hash' nonce' hcall'
        obtain ⟨-, -, rfl, -⟩ := Call.resubmitProject.inj (hcall.symm.trans hcall')
        have hstored : e.after.project.get (projectIdToBytes id) =
            some { project with metadataIpfsHash := hash, status := .pending } := by
          rw [hafter]
          exact get_set_self _ _ _
        exact h _ _ hstored
      · intro h
        refine hs.set (by rw [hafter]) ?_
        exact h caller id hash nonce hcall
  | documented id hashes hcall hafter =>
      refine iff_of_true ?_ (hnone (by simp [hcall]))
      rw [hafter]
      exact hs
  | administered currentAdmin newAdmin nonce hcall hauth hnonce hadmin hafter =>
      refine iff_of_true ?_ (hnone (by simp [hcall]))
      rw [hafter]
      exact hs

/-- **Evidence.**  Every project stored in a run has evidence, in every state,
exactly if every accepted resubmission came with evidence: registration checks
it, resubmission does not. -/
theorem evidence_iff (admin : Address) (txs : List Tx) :
    (∀ pre, pre <+: txs → (machine.run (constructor admin) pre).HasEvidence) ↔
      ∀ e ∈ machine.log (constructor admin) txs, LogEntry.ResubmitsEvidence e := by
  rw [← Machine.forall_prefix_iff_forall_mem]
  refine machine.holds_iff (I := fun _ _ => True) (P := fun s _ => s.HasEvidence)
    (fun _ => trivial) ?_ ?_ txs
  · intro key project hget
    simp [constructor] at hget
  · intro l e hfires _ hs
    exact hasEvidence_step_iff hfires hs

/-- The hash of 32 zero bytes, which `register_project` refuses. -/
def zeroHash : BytesN 32 := ⟨List.replicate 32 0, rfl⟩

/-- A rejected project is resubmitted with no evidence. -/
def resubmittedEmpty : List Tx := [
  sampleTx 1 (.registerProject 1 sampleHash "VCS" "US" 0),
  sampleTx 0 (.rejectProject 0 1 0),
  sampleTx 1 (.resubmitProject 1 1 zeroHash 1)]

/-- A resubmission can leave a project without evidence. -/
theorem evidence_lost_by_resubmission :
    ¬ (machine.run (constructor 0) resubmittedEmpty).HasEvidence := by
  intro h
  have hget : (machine.run (constructor 0) resubmittedEmpty).project.get (projectIdToBytes 1) =
      some ⟨1, 1, zeroHash, .pending, "VCS", "US"⟩ := by
    decide +kernel
  exact h _ _ hget (by decide)

end EcoMint.ProjectRegistry
