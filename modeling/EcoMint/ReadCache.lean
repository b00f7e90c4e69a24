import EcoMint.Tasks

/-!
# Scripts that read through a cache

A script queries a world, submits transactions to it, and keeps what it learned
in a cache, where other scripts find it.  Scripts run as tasks, so that between
any two steps of one script the others run, entries expire, and deletions that
nobody waits for arrive.

The world is at version `n` after `n` accepted transactions, and everything
that a script learned carries the versions at which it was read.  An entry
carries besides the version *since* which it is known to be good: when it was
stored on an absent key, or the oldest version in it.  `reads_fresh` is the rule
for whole runs: a script started at version `n` or later, that only finds
entries refreshed since `n`, knows nothing older than `n`, provided that no such
entry is overwritten by older knowledge.
-/

namespace ReadCache

/-- An asynchronous program over a cache with keys `κ` and values `δ`, for a
world with queries `q` and transactions `t` that are answered in `r`. -/
inductive Script (κ δ t r : Type) (q : Type → Type) : Type → Type 1
  | done {β : Type} (result : β) : Script κ δ t r q β
  | query {α β : Type} (question : q α) (next : Option α → Script κ δ t r q β) : Script κ δ t r q β
  | submit {β : Type} (transaction : t) (next : Option r → Script κ δ t r q β) :
      Script κ δ t r q β
  | find {β : Type} (key : κ) (next : Option δ → Script κ δ t r q β) : Script κ δ t r q β
  | store {β : Type} (key : κ) (data : δ) (next : Script κ δ t r q β) : Script κ δ t r q β
  | delete {β : Type} (key : κ) (next : Script κ δ t r q β) : Script κ δ t r q β
  /-- a deletion that is sent and not waited for -/
  | detach {β : Type} (key : κ) (next : Script κ δ t r q β) : Script κ δ t r q β
  | scan {β : Type} (key : κ) (next : Bool → Script κ δ t r q β) : Script κ δ t r q β
  /-- a call of something else that may fail -/
  | attempt {β : Type} (next : Bool → Script κ δ t r q β) : Script κ δ t r q β
  | clock {β : Type} (next : Nat → Script κ δ t r q β) : Script κ δ t r q β
  | both {α α' β : Type} (left : Script κ δ t r q α) (right : Script κ δ t r q α')
      (next : α → α' → Script κ δ t r q β) : Script κ δ t r q β

namespace Script

variable {κ δ t r : Type} {q : Type → Type} {α β : Type}

/-- One script after another. -/
def bind : {α : Type} → Script κ δ t r q α → (α → Script κ δ t r q β) → Script κ δ t r q β
  | _, .done result, f => f result
  | _, .query question next, f => .query question fun answer => (next answer).bind f
  | _, .submit transaction next, f => .submit transaction fun output => (next output).bind f
  | _, .find key next, f => .find key fun data => (next data).bind f
  | _, .store key data next, f => .store key data (next.bind f)
  | _, .delete key next, f => .delete key (next.bind f)
  | _, .detach key next, f => .detach key (next.bind f)
  | _, .scan key next, f => .scan key fun there => (next there).bind f
  | _, .attempt next, f => .attempt fun ok => (next ok).bind f
  | _, .clock next, f => .clock fun time => (next time).bind f
  | _, .both left right next, f => .both left right fun a a' => (next a a').bind f

instance : Monad (Script κ δ t r q) where
  pure := .done
  bind := bind

/-- Two scripts side by side, until both are done. -/
def pair {α' : Type} (left : Script κ δ t r q α) (right : Script κ δ t r q α') :
    Script κ δ t r q (α × α') :=
  .both left right fun a a' => .done (a, a')

/-- Any number of scripts side by side, until all are done. -/
def all : List (Script κ δ t r q α) → Script κ δ t r q (List α)
  | [] => .done []
  | script :: rest => .both script (all rest) fun a others => .done (a :: others)

/-- A script for each element in turn, and the results there are. -/
def collect {γ : Type} (f : γ → Script κ δ t r q (Option α)) : List γ → Script κ δ t r q (List α)
  | [] => .done []
  | c :: rest => do
      let a ← f c
      let others ← collect f rest
      return a.toList ++ others

/-- The script looks up no key outside of `K`. -/
def Finds (K : κ → Prop) : {β : Type} → Script κ δ t r q β → Prop
  | _, .done _ => True
  | _, .query _ next => ∀ answer, (next answer).Finds K
  | _, .submit _ next => ∀ output, (next output).Finds K
  | _, .find key next => K key ∧ ∀ data, (next data).Finds K
  | _, .store _ _ next => next.Finds K
  | _, .delete _ next => next.Finds K
  | _, .detach _ next => next.Finds K
  | _, .scan _ next => ∀ there, (next there).Finds K
  | _, .attempt next => ∀ ok, (next ok).Finds K
  | _, .clock next => ∀ time, (next time).Finds K
  | _, .both left right next => left.Finds K ∧ right.Finds K ∧ ∀ a a', (next a a').Finds K

variable {K : κ → Prop}

/-- A sequence looks where its parts look. -/
theorem finds_bind {script : Script κ δ t r q α} {f : α → Script κ δ t r q β}
    (hscript : script.Finds K) (hf : ∀ a, (f a).Finds K) : (script >>= f).Finds K := by
  change (script.bind f).Finds K
  induction script with
  | done result => exact hf result
  | query question next ih => exact fun answer => ih answer (hscript answer) hf
  | submit transaction next ih => exact fun output => ih output (hscript output) hf
  | find key next ih => exact ⟨hscript.1, fun data => ih data (hscript.2 data) hf⟩
  | store key data next ih => exact ih hscript hf
  | delete key next ih => exact ih hscript hf
  | detach key next ih => exact ih hscript hf
  | scan key next ih => exact fun there => ih there (hscript there) hf
  | attempt next ih => exact fun ok => ih ok (hscript ok) hf
  | clock next ih => exact fun time => ih time (hscript time) hf
  | both left right next _ _ ih =>
      obtain ⟨hleft, hright, hnext⟩ := hscript
      exact ⟨hleft, hright, fun a a' => ih a a' (hnext a a') hf⟩

@[simp] theorem finds_pure (result : β) : (pure result : Script κ δ t r q β).Finds K := trivial

/-- A pair looks where its sides look. -/
theorem finds_pair {α' : Type} {left : Script κ δ t r q α} {right : Script κ δ t r q α'}
    (hleft : left.Finds K) (hright : right.Finds K) : (pair left right).Finds K :=
  ⟨hleft, hright, fun _ _ => trivial⟩

/-- Scripts side by side look where each of them looks. -/
theorem finds_all {scripts : List (Script κ δ t r q α)} (h : ∀ script ∈ scripts, script.Finds K) :
    (all scripts).Finds K := by
  induction scripts with
  | nil => trivial
  | cons script rest ih =>
      rw [List.forall_mem_cons] at h
      exact ⟨h.1, ih h.2, fun _ _ => trivial⟩

/-- A loop looks where its rounds look. -/
theorem finds_collect {γ : Type} {f : γ → Script κ δ t r q (Option α)} {elements : List γ}
    (h : ∀ c ∈ elements, (f c).Finds K) : (collect f elements).Finds K := by
  induction elements with
  | nil => trivial
  | cons c rest ih =>
      rw [List.forall_mem_cons] at h
      unfold collect
      exact finds_bind h.1 fun a => finds_bind (ih h.2) fun others => finds_pure _

end Script

/-- A script in progress, with the versions at which it read what it knows. -/
inductive Running (κ δ t r : Type) (q : Type → Type) : Type → Type 1
  | alone {β : Type} (reads : List Nat) (script : Script κ δ t r q β) : Running κ δ t r q β
  | both {α α' β : Type} (reads : List Nat) (left : Running κ δ t r q α)
      (right : Running κ δ t r q α') (next : α → α' → Script κ δ t r q β) : Running κ δ t r q β

/-- A world that can be queried and changed, also by others. -/
structure Backend (ω θ x t r : Type) (q : Type → Type) where
  answer : {α : Type} → ω → q α → Option α
  submit : ω → θ → t → Option (r × ω)
  foreign : ω → x → Option ω

/-- What a step leaves open: whether the call goes through, the time, and what a
transaction carries besides. -/
structure Reply (θ : Type) where
  ok : Bool
  time : Nat
  ctx : θ

/-- Which of the parts that run side by side takes the step. -/
inductive Choice (θ : Type)
  | own (reply : Reply θ)
  | left (choice : Choice θ)
  | right (choice : Choice θ)

/-- A cache entry, with the versions that it was read from. -/
structure Entry (δ : Type) where
  data : δ
  reads : List Nat
  since : Nat

/-- The world and the cache, with the deletions that are on their way. -/
structure Cached (ω κ δ : Type) where
  world : ω
  version : Nat
  cache : Storage κ (Entry δ)
  inFlight : List κ

/-- What may happen besides the scripts. -/
inductive Outside (κ x : Type)
  | expire (key : κ)
  | deliver (key : κ)
  | foreign (transaction : x)

/-- The oldest of the versions read, and not more than the present one. -/
def oldest (version : Nat) (reads : List Nat) : Nat := reads.foldr min version

/-- The oldest of some versions is late enough if all of them are. -/
theorem le_oldest_iff {n version : Nat} {reads : List Nat} :
    n ≤ oldest version reads ↔ n ≤ version ∧ ∀ v ∈ reads, n ≤ v := by
  unfold oldest
  induction reads with
  | nil => simp
  | cons v rest ih =>
      rw [List.foldr_cons, le_min_iff, ih, List.forall_mem_cons]
      exact and_left_comm

section

variable {ω κ δ θ x t r : Type} {q : Type → Type} [DecidableEq κ]

namespace Cached

/-- The world without any entry in the cache. -/
def initial (world : ω) : Cached ω κ δ := ⟨world, 0, ∅, []⟩

/-- The version since which a key is known to have been refreshed. -/
def refreshed (s : Cached ω κ δ) (key : κ) : Nat :=
  match s.cache.get key with
  | none => s.version
  | some entry => entry.since

/-- An entry is written. -/
def store (s : Cached ω κ δ) (key : κ) (data : δ) (reads : List Nat) : Cached ω κ δ :=
  let since := max (s.refreshed key) (oldest s.version reads)
  { s with cache := s.cache.set key ⟨data, reads, since⟩ }

/-- An entry is deleted. -/
def delete (s : Cached ω κ δ) (key : κ) : Cached ω κ δ := { s with cache := s.cache.erase key }

/-- The world goes on by one version. -/
def advance (s : Cached ω κ δ) (world : ω) : Cached ω κ δ :=
  { s with world, version := s.version + 1 }

end Cached

/-! ## Steps -/

/-- One step of a script that runs alone.  A reply may get lost after the
transaction was accepted, and a cache that does not answer has no entry. -/
def resumeAlone (b : Backend ω θ x t r q) (s : Cached ω κ δ) (reads : List Nat) (reply : Reply θ)
    {β : Type} : Script κ δ t r q β → Option (Cached ω κ δ × Running κ δ t r q β)
  | .done _ => none
  | .query question next =>
      let answer := if reply.ok then b.answer s.world question else none
      some (s, .alone (reads ++ [s.version]) (next answer))
  | .submit transaction next =>
      match b.submit s.world reply.ctx transaction with
      | some (output, world) =>
          let answer := if reply.ok then some output else none
          some (s.advance world, .alone (reads ++ [s.version + 1]) (next answer))
      | none => some (s, .alone reads (next none))
  | .find key next =>
      match s.cache.get key with
      | some entry =>
          if reply.ok then some (s, .alone (reads ++ entry.reads) (next (some entry.data)))
          else some (s, .alone reads (next none))
      | none => some (s, .alone reads (next none))
  | .store key data next =>
      some (if reply.ok then s.store key data reads else s, .alone reads next)
  | .delete key next => some (if reply.ok then s.delete key else s, .alone reads next)
  | .detach key next => some ({ s with inFlight := key :: s.inFlight }, .alone reads next)
  | .scan key next => some (s, .alone reads (next (reply.ok && (s.cache.get key).isSome)))
  | .attempt next => some (s, .alone reads (next reply.ok))
  | .clock next => some (s, .alone reads (next reply.time))
  | .both left right next => some (s, .both reads (.alone [] left) (.alone [] right) next)

/-! ## Runs of one script -/

/-- What a step does with the cache that matters to others. -/
inductive CacheOp (κ : Type)
  | find (key : κ)
  | store (key : κ) (reads : List Nat)

/-- The next operation on the cache of a script on its own. -/
def opAlone (reads : List Nat) {β : Type} : Script κ δ t r q β → Option (CacheOp κ)
  | .find key _ => some (.find key)
  | .store key _ _ => some (.store key reads)
  | _ => none

end

namespace Running

variable {ω κ δ θ x t r : Type} {q : Type → Type}

/-- What a script returned, with all that it knows. -/
def result : {β : Type} → Running κ δ t r q β → Option (β × List Nat)
  | _, .alone reads (.done result) => some (result, reads)
  | _, _ => none

/-- The versions of everything the script knows. -/
def allReads : {β : Type} → Running κ δ t r q β → List Nat
  | _, .alone reads _ => reads
  | _, .both reads left right _ => reads ++ left.allReads ++ right.allReads

/-- Where a running script may still look. -/
def Finds (K : κ → Prop) : {β : Type} → Running κ δ t r q β → Prop
  | _, .alone _ script => script.Finds K
  | _, .both _ left right next => left.Finds K ∧ right.Finds K ∧ ∀ a a', (next a a').Finds K

variable [DecidableEq κ]

/-- One step of a script. -/
def resume (b : Backend ω θ x t r q) (s : Cached ω κ δ) :
    {β : Type} → Running κ δ t r q β → Choice θ → Option (Cached ω κ δ × Running κ δ t r q β)
  | _, .alone reads script, .own reply => resumeAlone b s reads reply script
  | _, .both reads left right next, .own _ =>
      match left.result, right.result with
      | some (a, leftReads), some (a', rightReads) =>
          some (s, .alone (reads ++ leftReads ++ rightReads) (next a a'))
      | _, _ => none
  | _, .both reads left right next, .left choice =>
      (left.resume b s choice).map fun (s, left) => (s, .both reads left right next)
  | _, .both reads left right next, .right choice =>
      (right.resume b s choice).map fun (s, right) => (s, .both reads left right next)
  | _, .alone _ _, _ => none

/-- What the next step of a script does with the cache. -/
def op : {β : Type} → Running κ δ t r q β → Choice θ → Option (CacheOp κ)
  | _, .alone reads script, .own reply => if reply.ok then opAlone reads script else none
  | _, .both _ left _ _, .left choice => left.op choice
  | _, .both _ _ right _, .right choice => right.op choice
  | _, _, _ => none

omit [DecidableEq κ] in
/-- All reads of a script that has ended are those of its result. -/
theorem allReads_of_result {β : Type} {running : Running κ δ t r q β} {a : β} {reads : List Nat}
    (h : running.result = some (a, reads)) : running.allReads = reads := by
  unfold result at h
  split at h
  · next reads' result => exact (Prod.mk.inj (Option.some.inj h)).2
  · cases h

end Running

section

variable {ω κ δ θ x t r β : Type} {q : Type → Type} [DecidableEq κ]
variable {b : Backend ω θ x t r q} {s s' : Cached ω κ δ}

/-- What a step does to the cache. -/
inductive Effect (s s' : Cached ω κ δ) (op : Option (CacheOp κ)) : Prop
  | kept (hcache : s'.cache = s.cache) (hversion : s.version ≤ s'.version)
  | stored (key : κ) (data : δ) (reads : List Nat) (hop : op = some (.store key reads))
      (hafter : s' = s.store key data reads)
  | deleted (key : κ) (hafter : s' = s.delete key)

/-- What a script may know after a step that does `op`: what it knew, what it
reads from the world now, and what is in an entry that it finds. -/
def MayKnow (s : Cached ω κ δ) (known : List Nat) (op : Option (CacheOp κ)) (v : Nat) : Prop :=
  v ∈ known ∨ s.version ≤ v ∨
    ∃ key entry, op = some (.find key) ∧ s.cache.get key = some entry ∧ v ∈ entry.reads

theorem MayKnow.mono {known known' : List Nat} {op : Option (CacheOp κ)} {v : Nat}
    (h : MayKnow s known op v) (hsub : known ⊆ known') : MayKnow s known' op v :=
  h.imp_left fun hv => hsub hv

/-- What one step of a script that runs alone does. -/
theorem of_resumeAlone {reads : List Nat} {reply : Reply θ} {script : Script κ δ t r q β}
    {running : Running κ δ t r q β} (h : resumeAlone b s reads reply script = some (s', running)) :
    Effect s s' (if reply.ok then opAlone reads script else none) ∧
      (∀ v ∈ running.allReads,
        MayKnow s reads (if reply.ok then opAlone reads script else none) v) ∧
      ∀ K : κ → Prop, script.Finds K → running.Finds K := by
  have hknown : ∀ v ∈ reads, ∀ op : Option (CacheOp κ), MayKnow s reads op v :=
    fun v hv op => Or.inl hv
  cases script with
  | done result => cases h
  | query question next =>
      cases h
      refine ⟨.kept rfl le_rfl, fun v hv => ?_, fun K hfinds => hfinds _⟩
      rcases List.mem_append.mp hv with hv | hv
      · exact hknown v hv _
      · exact Or.inr (Or.inl (le_of_eq (List.mem_singleton.mp hv).symm))
  | submit transaction next =>
      simp only [resumeAlone] at h
      split at h
      · cases h
        refine ⟨.kept rfl (Nat.le_succ _), fun v hv => ?_, fun K hfinds => hfinds _⟩
        rcases List.mem_append.mp hv with hv | hv
        · exact hknown v hv _
        · rw [List.mem_singleton] at hv
          exact Or.inr (Or.inl (by omega))
      · cases h
        exact ⟨.kept rfl le_rfl, fun v hv => hknown v hv _, fun K hfinds => hfinds _⟩
  | find key next =>
      simp only [resumeAlone] at h
      split at h
      · next entry hentry =>
          split at h
          · next hok =>
              cases h
              refine ⟨.kept rfl le_rfl, fun v hv => ?_, fun K hfinds => hfinds.2 _⟩
              rcases List.mem_append.mp hv with hv | hv
              · exact hknown v hv _
              · exact Or.inr (Or.inr ⟨key, entry, by rw [if_pos hok]; rfl, hentry, hv⟩)
          · cases h
            exact ⟨.kept rfl le_rfl, fun v hv => hknown v hv _, fun K hfinds => hfinds.2 _⟩
      · cases h
        exact ⟨.kept rfl le_rfl, fun v hv => hknown v hv _, fun K hfinds => hfinds.2 _⟩
  | store key data next =>
      cases h
      refine ⟨?_, fun v hv => hknown v hv _, fun K hfinds => hfinds⟩
      by_cases hok : reply.ok
      · rw [if_pos hok, if_pos hok]
        exact .stored key data reads rfl rfl
      · rw [if_neg hok]
        exact .kept rfl le_rfl
  | delete key next =>
      cases h
      refine ⟨?_, fun v hv => hknown v hv _, fun K hfinds => hfinds⟩
      by_cases hok : reply.ok
      · rw [if_pos hok]
        exact .deleted key rfl
      · rw [if_neg hok]
        exact .kept rfl le_rfl
  | detach key next =>
      cases h
      exact ⟨.kept rfl le_rfl, fun v hv => hknown v hv _, fun K hfinds => hfinds⟩
  | scan key next =>
      cases h
      exact ⟨.kept rfl le_rfl, fun v hv => hknown v hv _, fun K hfinds => hfinds _⟩
  | attempt next =>
      cases h
      exact ⟨.kept rfl le_rfl, fun v hv => hknown v hv _, fun K hfinds => hfinds _⟩
  | clock next =>
      cases h
      exact ⟨.kept rfl le_rfl, fun v hv => hknown v hv _, fun K hfinds => hfinds _⟩
  | both left right next =>
      cases h
      refine ⟨.kept rfl le_rfl, fun v hv => ?_, fun K hfinds => hfinds⟩
      simp only [Running.allReads, List.append_nil] at hv
      exact hknown v hv _

/-- **What one step of a script does**: one change to the cache that its next
step announces, and knowledge that is old, new or found. -/
theorem of_resume {running running' : Running κ δ t r q β} {choice : Choice θ}
    (h : running.resume b s choice = some (s', running')) :
    Effect s s' (running.op choice) ∧
      (∀ v ∈ running'.allReads, MayKnow s running.allReads (running.op choice) v) ∧
      ∀ K : κ → Prop, running.Finds K → running'.Finds K := by
  induction running generalizing choice s' with
  | alone reads script =>
      cases choice with
      | own reply => exact of_resumeAlone h
      | left choice => cases h
      | right choice => cases h
  | both reads left right next ihleft ihright =>
      cases choice with
      | own reply =>
          simp only [Running.resume] at h
          split at h
          · next a leftReads a' rightReads hleft hright =>
              cases h
              refine ⟨.kept rfl le_rfl, fun v hv => Or.inl ?_, fun K hfinds => hfinds.2.2 a a'⟩
              simpa only [Running.allReads, Running.allReads_of_result hleft,
                Running.allReads_of_result hright] using hv
          · cases h
      | left choice =>
          simp only [Running.resume, Option.map_eq_some_iff] at h
          obtain ⟨⟨s₁, left'⟩, hleft, hsame⟩ := h
          cases hsame
          obtain ⟨heffect, hreads, hfinds⟩ := ihleft hleft
          refine ⟨heffect, fun v hv => ?_, fun K h => ⟨hfinds K h.1, h.2⟩⟩
          simp only [Running.allReads, List.mem_append] at hv
          rcases hv with (hv | hv) | hv
          · exact Or.inl (by simp [Running.allReads, hv])
          · exact (hreads v hv).mono fun w hw => by simp [Running.allReads, hw]
          · exact Or.inl (by simp [Running.allReads, hv])
      | right choice =>
          simp only [Running.resume, Option.map_eq_some_iff] at h
          obtain ⟨⟨s₁, right'⟩, hright, hsame⟩ := h
          cases hsame
          obtain ⟨heffect, hreads, hfinds⟩ := ihright hright
          refine ⟨heffect, fun v hv => ?_, fun K h => ⟨h.1, hfinds K h.2.1, h.2.2⟩⟩
          simp only [Running.allReads, List.mem_append] at hv
          rcases hv with (hv | hv) | hv
          · exact Or.inl (by simp [Running.allReads, hv])
          · exact Or.inl (by simp [Running.allReads, hv])
          · exact (hreads v hv).mono fun w hw => by simp [Running.allReads, hw]

omit [DecidableEq κ] in
/-- A script looks up the keys that it finds. -/
theorem mem_of_find {K : κ → Prop} {running : Running κ δ t r q β} {choice : Choice θ} {key : κ}
    (hfinds : running.Finds K) (hop : running.op choice = some (.find key)) : K key := by
  induction running generalizing choice with
  | alone reads script =>
      cases choice with
      | own reply =>
          simp only [Running.op] at hop
          split at hop
          · cases script with
            | find key' next =>
                cases hop
                exact hfinds.1
            | _ => cases hop
          · cases hop
      | left choice => cases hop
      | right choice => cases hop
  | both reads left right next ihleft ihright =>
      cases choice with
      | own reply => cases hop
      | left choice => exact ihleft hfinds.1 hop
      | right choice => exact ihright hfinds.2.1 hop

end

/-! ## The cache -/

section

variable {ω κ δ : Type} [DecidableEq κ] {K : κ → Prop} {n : Nat} {s s' : Cached ω κ δ}

/-- Entries of `K` that were refreshed since version `n` have nothing older, and
no entry is ahead of the world. -/
structure Clean (K : κ → Prop) (n : Nat) (s : Cached ω κ δ) : Prop where
  current : ∀ key entry, s.cache.get key = some entry → entry.since ≤ s.version
  fresh : ∀ key entry, K key → s.cache.get key = some entry → n ≤ entry.since →
    ∀ v ∈ entry.reads, n ≤ v

/-- An empty cache is clean. -/
theorem Clean.initial (world : ω) : Clean K n (Cached.initial world : Cached ω κ δ) where
  current _ _ hget := by cases hget
  fresh _ _ _ hget := by cases hget

/-- An entry that is there was refreshed when it says. -/
theorem refreshed_of_get {key : κ} {entry : Entry δ} (hget : s.cache.get key = some entry) :
    s.refreshed key = entry.since := by
  unfold Cached.refreshed
  rw [hget]

/-- No entry is refreshed later than now. -/
theorem Clean.refreshed_le (h : Clean K n s) (key : κ) : s.refreshed key ≤ s.version := by
  cases hget : s.cache.get key with
  | none =>
      unfold Cached.refreshed
      rw [hget]
  | some entry =>
      rw [refreshed_of_get hget]
      exact h.current key entry hget

/-- A clean cache stays so while nothing is written. -/
theorem Clean.kept (h : Clean K n s) (hcache : s'.cache = s.cache)
    (hversion : s.version ≤ s'.version) : Clean K n s' where
  current key entry hget := (h.current key entry (hcache ▸ hget)).trans hversion
  fresh key entry hK hget := h.fresh key entry hK (hcache ▸ hget)

/-- A deletion keeps a cache clean. -/
theorem Clean.delete (h : Clean K n s) (key : κ) : Clean K n (s.delete key) := by
  have hold : ∀ key' entry, (s.delete key).cache.get key' = some entry →
      s.cache.get key' = some entry := by
    intro key' entry hget
    by_cases hkey : key' = key
    · subst hkey
      simp [Cached.delete] at hget
    · rwa [← Storage.get_erase_ne _ hkey]
  exact ⟨fun key' entry hget => h.current key' entry (hold key' entry hget),
    fun key' entry hK hget => h.fresh key' entry hK (hold key' entry hget)⟩

/-- Storing keeps the cache clean unless older knowledge overwrites an entry
that was refreshed. -/
theorem Clean.store (h : Clean K n s) {key : κ} {data : δ} {reads : List Nat}
    (hreads : K key → n ≤ s.refreshed key → ∀ v ∈ reads, n ≤ v) :
    Clean K n (s.store key data reads) := by
  have hget : ∀ key' entry, (s.store key data reads).cache.get key' = some entry →
      (key' = key ∧ entry = ⟨data, reads, max (s.refreshed key) (oldest s.version reads)⟩) ∨
        s.cache.get key' = some entry := by
    intro key' entry hget
    by_cases hkey : key' = key
    · subst hkey
      simp only [Cached.store, Storage.get_set_self, Option.some.injEq] at hget
      exact Or.inl ⟨rfl, hget.symm⟩
    · simp only [Cached.store] at hget
      rw [Storage.get_set_ne _ _ hkey] at hget
      exact Or.inr hget
  constructor
  · intro key' entry hentry
    rcases hget key' entry hentry with ⟨rfl, rfl⟩ | hold
    · have holdest : oldest s.version reads ≤ s.version := (le_oldest_iff.mp le_rfl).1
      exact max_le (h.refreshed_le key') holdest
    · exact h.current key' entry hold
  · intro key' entry hK hentry hsince
    rcases hget key' entry hentry with ⟨rfl, rfl⟩ | hold
    · rcases le_max_iff.mp hsince with hrefreshed | holdest
      · exact hreads hK hrefreshed
      · exact (le_oldest_iff.mp holdest).2
    · exact h.fresh key' entry hK hold hsince

/-- No step takes the world back. -/
theorem Effect.version_le {op : Option (CacheOp κ)} (heffect : Effect s s' op) :
    s.version ≤ s'.version := by
  cases heffect with
  | kept hcache hversion => exact hversion
  | stored key data reads hop hafter => rw [hafter]; exact le_rfl
  | deleted key hafter => rw [hafter]; exact le_rfl

/-- A write of fresh data keeps a cache clean. -/
theorem Clean.effect {op : Option (CacheOp κ)} (h : Clean K n s) (heffect : Effect s s' op)
    (hop : ∀ key reads, op = some (.store key reads) → K key → n ≤ s.refreshed key →
      ∀ v ∈ reads, n ≤ v) : Clean K n s' := by
  cases heffect with
  | kept hcache hversion => exact h.kept hcache hversion
  | stored key data reads hstore hafter =>
      rw [hafter]
      exact h.store (hop key reads hstore)
  | deleted key hafter =>
      rw [hafter]
      exact h.delete key

end

/-! ## Scripts as tasks -/

/-- A script in progress, with the input that it was started on. -/
structure Task {ι : Type} (res : ι → Type) (κ δ t r : Type) (q : Type → Type) where
  input : ι
  running : Running κ δ t r q (res input)

section

variable {ω κ δ θ x t r ι : Type} {q : Type → Type} {res : ι → Type} [DecidableEq κ]
variable (b : Backend ω θ x t r q) (script : (input : ι) → Script κ δ t r q (res input))

/-- What may happen from outside: an entry expires, a deletion arrives, the world goes
on. -/
def outside (s : Cached ω κ δ) : Outside κ x → Option (Cached ω κ δ)
  | .expire key => some (s.delete key)
  | .deliver key =>
      if key ∈ s.inFlight then some { s.delete key with inFlight := s.inFlight.erase key }
      else none
  | .foreign transaction => (b.foreign s.world transaction).map s.advance

/-- The scripts as a program, with the cache and the world between them. -/
def program : TaskProgram (Cached ω κ δ) (Task res κ δ t r q) ι (Choice θ) (Outside κ x) where
  start input := ⟨input, .alone [] (script input)⟩
  resume s task choice :=
    (task.running.resume b s choice).map fun (s, running) => (s, ⟨task.input, running⟩)
  outside := outside b

/-- What an event does with the cache, and which task does it. -/
def cacheOp (e : Event (Pool (Cached ω κ δ) (Task res κ δ t r q))
    (PoolAction ι (Choice θ) (Outside κ x)) Unit) : Option (Nat × CacheOp κ) :=
  match e.input with
  | .resume id choice =>
      (e.before.tasks.get id).bind fun task => (task.running.op choice).map fun op => (id, op)
  | _ => none

/-- If task `id` finds an entry, it was refreshed since `n`; and if any task
overwrites an entry of `K` that was refreshed since `n`, it knows nothing older. -/
def UsesRefreshed (K : κ → Prop) (id n : Nat)
    (e : Event (Pool (Cached ω κ δ) (Task res κ δ t r q))
      (PoolAction ι (Choice θ) (Outside κ x)) Unit) : Prop :=
  match cacheOp e with
  | some (own, .find key) => own = id → n ≤ e.before.shared.refreshed key
  | some (_, .store key reads) => K key → n ≤ e.before.shared.refreshed key → ∀ v ∈ reads, n ≤ v
  | none => True

instance (K : κ → Prop) [DecidablePred K] (id n : Nat)
    (e : Event (Pool (Cached ω κ δ) (Task res κ δ t r q))
      (PoolAction ι (Choice θ) (Outside κ x)) Unit) : Decidable (UsesRefreshed K id n e) := by
  unfold UsesRefreshed
  split <;> infer_instance

variable {b script} {K : κ → Prop} {id n : Nat}
variable {e : Event (Pool (Cached ω κ δ) (Task res κ δ t r q))
  (PoolAction ι (Choice θ) (Outside κ x)) Unit}

omit [DecidableEq κ] in
/-- The operation of a step is that of its request. -/
theorem cacheOp_of_resumed {own : Nat} {choice : Choice θ} {task : Task res κ δ t r q}
    {op : CacheOp κ} (hinput : e.input = .resume own choice)
    (hget : e.before.tasks.get own = some task) (hop : task.running.op choice = some op) :
    cacheOp e = some (own, op) := by
  unfold cacheOp
  rw [hinput]
  simp [hget, hop]

/-- A lookup of this request finds an entry that was refreshed. -/
theorem UsesRefreshed.find {own : Nat} {key : κ} (h : UsesRefreshed K id n e)
    (hop : cacheOp e = some (own, .find key)) (hown : own = id) :
    n ≤ e.before.shared.refreshed key := by
  unfold UsesRefreshed at h
  rw [hop] at h
  exact h hown

/-- A write under such a key is of fresh data. -/
theorem UsesRefreshed.store {own : Nat} {key : κ} {reads : List Nat} (h : UsesRefreshed K id n e)
    (hop : cacheOp e = some (own, .store key reads)) :
    K key → n ≤ e.before.shared.refreshed key → ∀ v ∈ reads, n ≤ v := by
  unfold UsesRefreshed at h
  rw [hop] at h
  exact h

/-- What happens from outside keeps a cache clean. -/
theorem outside_cases {s s' : Cached ω κ δ} {event : Outside κ x}
    (h : outside b s event = some s') :
    s.version ≤ s'.version ∧ (Clean K n s → Clean K n s') := by
  cases event with
  | expire key =>
      cases h
      exact ⟨le_rfl, fun hclean => hclean.delete key⟩
  | deliver key =>
      simp only [outside] at h
      split at h
      · cases h
        exact ⟨le_rfl, fun hclean => (hclean.delete key).kept rfl le_rfl⟩
      · cases h
  | foreign transaction =>
      simp only [outside, Option.map_eq_some_iff] at h
      obtain ⟨world, -, rfl⟩ := h
      exact ⟨Nat.le_succ _, fun hclean => hclean.kept rfl (Nat.le_succ _)⟩

/-- **Step lemma for the cache.**  It stays clean, and the world moves on. -/
theorem Clean.step (hfires : (program b script).machine.Fires e)
    (huses : UsesRefreshed K id n e) (h : Clean K n e.before.shared) :
    e.before.shared.version ≤ e.after.shared.version ∧ Clean K n e.after.shared := by
  cases (program b script).step_cases hfires with
  | started new input hinput hnew hafter =>
      rw [hafter]
      exact ⟨le_rfl, h⟩
  | resumed own choice task task' shared hinput hget hresume hafter =>
      simp only [program, Option.map_eq_some_iff] at hresume
      obtain ⟨⟨shared', running⟩, hstep, hsame⟩ := hresume
      cases hsame
      obtain ⟨heffect, -, -⟩ := of_resume hstep
      rw [hafter]
      refine ⟨heffect.version_le, h.effect heffect fun key reads hop => ?_⟩
      exact huses.store (cacheOp_of_resumed hinput hget hop)
  | outside event shared hinput houtside hafter =>
      obtain ⟨hversion, hclean⟩ := outside_cases (K := K) (n := n) houtside
      rw [hafter]
      exact ⟨hversion, hclean h⟩

/-- The cache is clean, and task `id` knows nothing from before version `n`. -/
structure Fresh (K : κ → Prop) (id n : Nat) (input : ι)
    (p : Pool (Cached ω κ δ) (Task res κ δ t r q)) : Prop where
  clean : Clean K n p.shared
  version : n ≤ p.shared.version
  task : ∃ running, p.tasks.get id = some ⟨input, running⟩ ∧ running.Finds K ∧
    ∀ v ∈ running.allReads, n ≤ v

/-- **Step lemma for a task.**  It reads the world as it is, and finds what was
refreshed. -/
theorem Fresh.step {input : ι} (hfires : (program b script).machine.Fires e)
    (huses : UsesRefreshed K id n e) (h : Fresh K id n input e.before) :
    Fresh K id n input e.after := by
  obtain ⟨hversion, hclean⟩ := h.clean.step hfires huses
  refine ⟨hclean, h.version.trans hversion, ?_⟩
  obtain ⟨running, hget, hfinds, hreads⟩ := h.task
  cases (program b script).step_cases hfires with
  | started new input' hinput hnew hafter =>
      have hne : id ≠ new := by
        rintro rfl
        rw [hnew] at hget
        cases hget
      refine ⟨running, ?_, hfinds, hreads⟩
      rw [hafter]
      exact (Storage.get_set_ne _ _ hne).trans hget
  | outside event shared hinput houtside hafter =>
      rw [hafter]
      exact ⟨running, hget, hfinds, hreads⟩
  | resumed own choice task task' shared hinput howns hresume hafter =>
      rw [hafter]
      by_cases hown : own = id
      · subst hown
        obtain rfl : task = ⟨input, running⟩ := Option.some.inj (howns.symm.trans hget)
        simp only [program, Option.map_eq_some_iff] at hresume
        obtain ⟨⟨shared', running'⟩, hstep, hsame⟩ := hresume
        cases hsame
        obtain ⟨-, hknown, hkeeps⟩ := of_resume hstep
        refine ⟨running', Storage.get_set_self _ _ _, hkeeps K hfinds, fun v hv => ?_⟩
        rcases hknown v hv with hold | hnow | ⟨key, entry, hop, hentry, hv⟩
        · exact hreads v hold
        · exact h.version.trans hnow
        · have hsince := huses.find (cacheOp_of_resumed hinput hget hop) rfl
          rw [refreshed_of_get hentry] at hsince
          exact h.clean.fresh key entry (mem_of_find hfinds hop) hentry hsince v hv
      · refine ⟨running, ?_, hfinds, hreads⟩
        exact (Storage.get_set_ne _ _ (Ne.symm hown)).trans hget

/-! ## Whole runs -/

/-- **Step lemma for the version.**  It never goes back. -/
theorem version_le_of_fires (hfires : (program b script).machine.Fires e) :
    e.before.shared.version ≤ e.after.shared.version := by
  cases (program b script).step_cases hfires with
  | started new input hinput hnew hafter =>
      rw [hafter]
  | resumed own choice task task' shared hinput hget hresume hafter =>
      simp only [program, Option.map_eq_some_iff] at hresume
      obtain ⟨⟨shared', running⟩, hstep, hsame⟩ := hresume
      cases hsame
      rw [hafter]
      exact (of_resume hstep).1.version_le
  | outside event shared hinput houtside hafter =>
      rw [hafter]
      exact (outside_cases (K := fun _ => True) (n := 0) houtside).1

/-- The world only goes on. -/
theorem version_le_run (s : Cached ω κ δ)
    (pre later : List (PoolAction ι (Choice θ) (Outside κ x))) :
    ((program b script).run s pre).shared.version ≤
      ((program b script).run s (pre ++ later)).shared.version := by
  unfold TaskProgram.run
  rw [Machine.run_append]
  exact (program b script).machine.invariant
    (P := fun p _ => ((program b script).run s pre).shared.version ≤ p.shared.version)
    le_rfl (fun _ _ hfires h => h.trans (version_le_of_fires hfires)) later

/-- A run that uses refreshed entries keeps the cache clean. -/
theorem Clean.run (world : ω) {schedule : List (PoolAction ι (Choice θ) (Outside κ x))}
    (huses : ∀ e ∈ (program b script).log (.initial world) schedule, UsesRefreshed K id n e) :
    Clean K n ((program b script).run (.initial world) schedule).shared := by
  refine (program b script).machine.invariant_while (I := fun _ _ => True)
    (P := fun p _ => Clean K n p.shared) (fun _ => trivial) (Clean.initial world) ?_ schedule huses
  intro l e hfires huses _ h
  exact (h.step hfires huses).2

/-- It keeps everything fresh that the request has read. -/
theorem Fresh.run {input : ι} {p : Pool (Cached ω κ δ) (Task res κ δ t r q)}
    (hp : Fresh K id n input p) {schedule : List (PoolAction ι (Choice θ) (Outside κ x))}
    (huses : ∀ e ∈ (program b script).machine.log p schedule, UsesRefreshed K id n e) :
    Fresh K id n input ((program b script).machine.run p schedule) := by
  refine (program b script).machine.invariant_while (I := fun _ _ => True)
    (P := fun p _ => Fresh K id n input p) (fun _ => trivial) hp ?_ schedule huses
  intro l e hfires huses _ h
  exact h.step hfires huses

/-- **Freshness rule.**  A task that is started at version `n` or later, and only
finds what was refreshed since, knows nothing from before version `n`. -/
theorem reads_fresh (world : ω) (pre later : List (PoolAction ι (Choice θ) (Outside κ x)))
    {input : ι} (hfinds : (script input).Finds K)
    (hversion : n ≤ ((program b script).run (.initial world) pre).shared.version)
    (hnew : ((program b script).run (.initial world) pre).tasks.get id = none)
    (huses : ∀ e ∈ (program b script).log (.initial world) (pre ++ .start id input :: later),
      UsesRefreshed K id n e) :
    ∃ running, ((program b script).run (.initial world)
        (pre ++ .start id input :: later)).tasks.get id = some ⟨input, running⟩ ∧
      ∀ v ∈ running.allReads, n ≤ v := by
  unfold TaskProgram.run TaskProgram.log at *
  set m := (program b script).machine with hm
  set p := m.run (Pool.initial (.initial world)) pre with hp
  have hcall : m.call p (.start id input) =
      .ok ((), ⟨p.shared, p.tasks.set id ⟨input, .alone [] (script input)⟩⟩) := by
    simp only [hm, TaskProgram.machine, TaskProgram.call, hnew]
    rfl
  have hrun : m.run (Pool.initial (.initial world)) (pre ++ .start id input :: later) =
      m.run ⟨p.shared, p.tasks.set id ⟨input, .alone [] (script input)⟩⟩ later := by
    rw [Machine.run_append, ← hp, Machine.run, List.foldl_cons, Machine.step, hcall]
    rfl
  rw [Machine.log_append, ← hp, List.forall_mem_append, Machine.log, hcall,
    List.forall_mem_cons] at huses
  obtain ⟨hpre, -, hlater⟩ := huses
  have hclean : Clean K n p.shared := Clean.run world hpre
  have hstarted : Fresh K id n input
      ⟨p.shared, p.tasks.set id ⟨input, .alone [] (script input)⟩⟩ := by
    refine ⟨hclean, hversion, _, Storage.get_set_self _ _ _, hfinds, fun v hv => ?_⟩
    cases hv
  obtain ⟨running, hget, -, hreads⟩ := (Fresh.run hstarted hlater).task
  exact ⟨running, hrun ▸ hget, hreads⟩

end

end ReadCache
