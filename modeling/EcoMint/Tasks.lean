import EcoMint.Machine
import EcoMint.Storage

/-!
# Tasks that share a state

Many tasks run one program over a shared state.  A task takes one atomic step
at a time, and between two of its steps any other task may take any number of
steps of its own: a schedule is a list of single steps in any order, so every
interleaving is one.  What the program does not decide (the outcome of a call,
the time) is the choice that comes with a step, and what happens to the shared
state from outside is a step of its own.

`step_cases` says once what a step can do.  Invariants that bound how many
tasks are in some phase go through `count`, which moves by at most one.
-/

/-- A program for tasks: how a task starts on an input, what one atomic step of
it does, and what may happen to the shared state from outside. -/
structure TaskProgram (σ τ ι κ η : Type*) where
  start : ι → τ
  resume : σ → τ → κ → Option (σ × τ)
  outside : σ → η → Option σ

/-- The shared state, and every task that was started, by its id. -/
structure Pool (σ τ : Type*) where
  shared : σ
  tasks : Storage Nat τ

/-- One step of a schedule. -/
inductive PoolAction (ι κ η : Type*)
  | start (id : Nat) (input : ι)
  | resume (id : Nat) (choice : κ)
  | outside (event : η)

namespace Storage

variable {κ ν M : Type*} [DecidableEq κ] [AddCommGroup M]

/-- The total without one entry. -/
theorem sum_erase {s : Storage κ ν} {k : κ} {v : ν} (hget : s.get k = some v) (f : κ → ν → M) :
    Storage.sum (s.erase k) f = s.sum f - f k v := by
  have hsame : (s.set k v).sum f = s.sum f := by
    rw [sum_set, hget, Option.elim_some]
    abel
  have hsplit : (s.set k v).sum f = f k v + Storage.sum (s.erase k) f := by
    rw [sum, set, AList.entries_insert, List.map_cons, List.sum_cons]
    rfl
  rw [← hsame, hsplit]
  abel

omit [DecidableEq κ] in
/-- A sum over a storage grows with what each entry gives. -/
theorem sum_le_sum {s : Storage κ ν} {f g : κ → ν → Int} (h : ∀ k v, f k v ≤ g k v) :
    s.sum f ≤ s.sum g :=
  List.sum_le_sum fun entry _ => h entry.1 entry.2

/-- What holds of every entry holds of everything that is found. -/
theorem forall_get_of_entries {s : Storage κ ν} {p : κ → ν → Prop}
    (h : ∀ entry ∈ s.entries, p entry.1 entry.2) : ∀ k v, s.get k = some v → p k v :=
  fun k v hget => h ⟨k, v⟩ (AList.mem_lookup_iff.mp hget)

end Storage

namespace Pool

open Storage

variable {σ τ : Type*}

/-- The pool before anything was started. -/
def initial (s : σ) : Pool σ τ := ⟨s, ∅⟩

@[simp] theorem initial_shared (s : σ) : (initial s : Pool σ τ).shared = s := rfl

/-- How many tasks are in a phase. -/
def count (p : Pool σ τ) (q : τ → Prop) [DecidablePred q] : Int :=
  p.tasks.sum fun _ t => if q t then 1 else 0

variable {p : Pool σ τ} {q : τ → Prop} [DecidablePred q] {id id' : Nat} {t u : τ}

@[simp] theorem count_initial (s : σ) : (initial s : Pool σ τ).count q = 0 :=
  sum_empty _

theorem count_nonneg (p : Pool σ τ) : 0 ≤ p.count q := by
  refine sum_nonneg fun id t hget => ?_
  split <;> omega

/-- A task that starts is counted if it is where the count looks. -/
theorem count_start (hnew : p.tasks.get id = none) (s : σ) :
    (⟨s, p.tasks.set id t⟩ : Pool σ τ).count q = p.count q + if q t then 1 else 0 := by
  unfold count
  rw [sum_set, hnew, Option.elim_none]
  omega

/-- A task that moves on leaves the count it was in and enters the one it moves to. -/
theorem count_resume (hget : p.tasks.get id = some t) (s : σ) :
    (⟨s, p.tasks.set id u⟩ : Pool σ τ).count q =
      p.count q - (if q t then 1 else 0) + if q u then 1 else 0 := by
  unfold count
  rw [sum_set, hget, Option.elim_some]

/-- A task that stays in the phase, or out of it. -/
theorem count_resume_of_iff (hget : p.tasks.get id = some t) (s : σ) (h : q t ↔ q u) :
    (⟨s, p.tasks.set id u⟩ : Pool σ τ).count q = p.count q := by
  rw [count_resume hget]
  by_cases ht : q t
  · rw [if_pos ht, if_pos (h.mp ht)]
    omega
  · rw [if_neg ht, if_neg (fun hu => ht (h.mpr hu))]
    omega

/-- A task that enters the phase. -/
theorem count_resume_enter (hget : p.tasks.get id = some t) (s : σ) (ht : ¬ q t) (hu : q u) :
    (⟨s, p.tasks.set id u⟩ : Pool σ τ).count q = p.count q + 1 := by
  rw [count_resume hget, if_neg ht, if_pos hu]
  omega

/-- A task that leaves the phase. -/
theorem count_resume_leave (hget : p.tasks.get id = some t) (s : σ) (ht : q t) (hu : ¬ q u) :
    (⟨s, p.tasks.set id u⟩ : Pool σ τ).count q = p.count q - 1 := by
  rw [count_resume hget, if_pos ht, if_neg hu]
  omega

/-- A task at a place is counted there. -/
theorem one_le_count (hget : p.tasks.get id = some t) (hq : q t) : 1 ≤ p.count q := by
  have hle := le_sum_of_get (s := p.tasks) (f := fun _ t => if q t then (1 : Int) else 0)
    (fun id t _ => by split <;> omega) hget
  rwa [if_pos hq] at hle

/-- A wider place counts no fewer tasks. -/
theorem count_le_count {q' : τ → Prop} [DecidablePred q'] (h : ∀ t, q t → q' t)
    (p : Pool σ τ) : p.count q ≤ p.count q' := by
  refine sum_le_sum fun _ t => ?_
  by_cases hq : q t
  · rw [if_pos hq, if_pos (h t hq)]
  · rw [if_neg hq]
    split <;> omega

theorem count_eq_zero (h : ∀ id t, p.tasks.get id = some t → ¬ q t) : p.count q = 0 :=
  sum_eq_zero fun id t hget => if_neg (h id t hget)

theorem not_of_count_le_zero (h : p.count q ≤ 0) (hget : p.tasks.get id = some t) : ¬ q t := by
  intro hq
  have hone := one_le_count hget hq
  omega

/-- If a phase has room for one task only, whoever is in it is the same task. -/
theorem eq_of_count_le_one (h : p.count q ≤ 1) (hget : p.tasks.get id = some t) (hq : q t)
    (hget' : p.tasks.get id' = some u) (hq' : q u) : id = id' := by
  by_contra hne
  have hother : Storage.get (p.tasks.erase id) id' = some u := by
    rwa [get_erase_ne _ (Ne.symm hne)]
  have hone : 1 ≤ (⟨p.shared, p.tasks.erase id⟩ : Pool σ τ).count q := one_le_count hother hq'
  unfold count at h hone
  rw [sum_erase hget, if_pos hq] at hone
  omega

end Pool

namespace TaskProgram

variable {σ τ ι κ η : Type*} (prog : TaskProgram σ τ ι κ η)

/-- The pool as a machine.  A step that is not enabled changes nothing. -/
def call (p : Pool σ τ) : PoolAction ι κ η → Except Unit (Unit × Pool σ τ)
  | .start id input =>
      match p.tasks.get id with
      | some _ => .error ()
      | none => .ok ((), ⟨p.shared, p.tasks.set id (prog.start input)⟩)
  | .resume id choice =>
      match p.tasks.get id with
      | none => .error ()
      | some t =>
          match prog.resume p.shared t choice with
          | none => .error ()
          | some (shared, t') => .ok ((), ⟨shared, p.tasks.set id t'⟩)
  | .outside event =>
      match prog.outside p.shared event with
      | none => .error ()
      | some shared => .ok ((), ⟨shared, p.tasks⟩)

/-- The schedules of the program. -/
def machine : Machine (Pool σ τ) (PoolAction ι κ η) Unit Unit := ⟨prog.call⟩

/-- The pool after a schedule that starts with no task. -/
abbrev run (s : σ) (schedule : List (PoolAction ι κ η)) : Pool σ τ :=
  prog.machine.run (Pool.initial s) schedule

/-- The steps of a schedule that were enabled, in order. -/
abbrev log (s : σ) (schedule : List (PoolAction ι κ η)) :
    List (Event (Pool σ τ) (PoolAction ι κ η) Unit) :=
  prog.machine.log (Pool.initial s) schedule

/-- What an enabled step does. -/
inductive Step (p p' : Pool σ τ) (a : PoolAction ι κ η) : Prop
  | started (id : Nat) (input : ι) (hinput : a = .start id input)
      (hnew : p.tasks.get id = none)
      (hafter : p' = ⟨p.shared, p.tasks.set id (prog.start input)⟩)
  | resumed (id : Nat) (choice : κ) (t t' : τ) (shared : σ) (hinput : a = .resume id choice)
      (hget : p.tasks.get id = some t)
      (hresume : prog.resume p.shared t choice = some (shared, t'))
      (hafter : p' = ⟨shared, p.tasks.set id t'⟩)
  | outside (event : η) (shared : σ) (hinput : a = .outside event)
      (houtside : prog.outside p.shared event = some shared) (hafter : p' = ⟨shared, p.tasks⟩)

/-- An accepted action on the pool is a step of the program. -/
theorem step_of_call {p p' : Pool σ τ} {a : PoolAction ι κ η} {out : Unit}
    (h : prog.call p a = .ok (out, p')) : prog.Step p p' a := by
  unfold call at h
  split at h
  · next id input =>
      split at h
      · cases h
      · next hnew =>
          cases h
          exact .started id input rfl hnew rfl
  · next id choice =>
      split at h
      · cases h
      · next t hget =>
          split at h
          · cases h
          · next shared t' hresume =>
              cases h
              exact .resumed id choice t t' shared rfl hget hresume rfl
  · next event =>
      split at h
      · cases h
      · next shared houtside =>
          cases h
          exact .outside event shared rfl houtside rfl

/-- Every accepted action of a run is a step of the program. -/
theorem step_cases {e : Event (Pool σ τ) (PoolAction ι κ η) Unit} (h : prog.machine.Fires e) :
    prog.Step e.before e.after e.input :=
  prog.step_of_call h

end TaskProgram
