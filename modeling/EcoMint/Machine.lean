import Mathlib.Algebra.BigOperators.Group.List.Basic
import Mathlib.Data.List.Basic
import Mathlib.Data.List.Infix

/-!
# Machines whose failed calls leave no trace

A machine answers a call either with an output and a new state or with an
error; an error keeps the old state.  A run executes a list of calls, and its
log records the successful ones in order.  Four rules carry every argument
about whole runs:

* `invariant` — what the initial state has and every successful call keeps,
  every run has, for a property of the state and the log together;
* `holds_while` — when a successful call that meets a condition keeps a property,
  the property holds all along a run whose logged calls all meet it;
* `holds_iff` — when a successful call keeps a property exactly if a condition
  on that call is met, the property holds all along a run exactly if every
  logged call met its condition;
* `exists_run_of_simulation` — when every successful call is matched by at
  most one call of a second machine, every run projects to a run of that one.
-/

/-- A machine: a call in a state gives an output and a new state, or fails. -/
structure Machine (σ α ρ ε : Type*) where
  call : σ → α → Except ε (ρ × σ)

/-- A successful call, with the states around it. -/
structure Event (σ α ρ : Type*) where
  before : σ
  input : α
  output : ρ
  after : σ

namespace Machine

variable {σ α ρ ε : Type*} (m : Machine σ α ρ ε)

/-- `e` is a successful call of the machine. -/
def Fires (e : Event σ α ρ) : Prop :=
  m.call e.before e.input = .ok (e.output, e.after)

/-- The state after one call; a failed call changes nothing. -/
def step (s : σ) (a : α) : σ :=
  match m.call s a with
  | .ok (_, s') => s'
  | .error _ => s

/-- The state after a list of calls. -/
def run (s : σ) (calls : List α) : σ := calls.foldl m.step s

/-- The successful calls of a run, in order. -/
def log : σ → List α → List (Event σ α ρ)
  | _, [] => []
  | s, a :: rest =>
      match m.call s a with
      | .ok (r, s') => ⟨s, a, r, s'⟩ :: log s' rest
      | .error _ => log s rest

@[simp] theorem run_nil (s : σ) : m.run s [] = s := rfl

@[simp] theorem log_nil (s : σ) : m.log s [] = [] := rfl

@[simp] theorem run_snoc (s : σ) (calls : List α) (a : α) :
    m.run s (calls ++ [a]) = m.step (m.run s calls) a := by
  simp [run]

theorem run_append (s : σ) (calls later : List α) :
    m.run s (calls ++ later) = m.run (m.run s calls) later := by
  simp [run]

theorem log_append (s : σ) (calls later : List α) :
    m.log s (calls ++ later) = m.log s calls ++ m.log (m.run s calls) later := by
  induction calls generalizing s with
  | nil => rfl
  | cons a rest ih =>
      cases hcall : m.call s a with
      | error _ => simpa [run, step, log, hcall] using ih s
      | ok result => simpa [run, step, log, hcall] using ih result.2

/-- A run extended by one call: the call fails and changes nothing, or it
fires and is logged last. -/
theorem snoc_cases (s : σ) (calls : List α) (a : α) :
    (m.run s (calls ++ [a]) = m.run s calls ∧
      m.log s (calls ++ [a]) = m.log s calls) ∨
    ∃ e, m.Fires e ∧ e.input = a ∧ e.before = m.run s calls ∧
      m.run s (calls ++ [a]) = e.after ∧
      m.log s (calls ++ [a]) = m.log s calls ++ [e] := by
  induction calls generalizing s with
  | nil =>
      cases hcall : m.call s a with
      | error _ => exact Or.inl ⟨by simp [run, step, hcall], by simp [log, hcall]⟩
      | ok result =>
          exact Or.inr ⟨⟨s, a, result.1, result.2⟩, hcall, rfl, rfl,
            by simp [run, step, hcall], by simp [log, hcall]⟩
  | cons b rest ih =>
      cases hcall : m.call s b with
      | error _ => simpa [run, step, log, hcall] using ih s
      | ok result => simpa [run, step, log, hcall] using ih result.2

/-- **Invariant rule**, above an invariant `I` already known to hold. -/
theorem invariant_under {I P : σ → List (Event σ α ρ) → Prop} {s₀ : σ}
    (hI : ∀ calls, I (m.run s₀ calls) (m.log s₀ calls))
    (hinit : P s₀ [])
    (hstep : ∀ l e, m.Fires e → I e.before l → P e.before l → P e.after (l ++ [e]))
    (calls : List α) : P (m.run s₀ calls) (m.log s₀ calls) := by
  induction calls using List.reverseRecOn with
  | nil => exact hinit
  | append_singleton calls a ih =>
      rcases m.snoc_cases s₀ calls a with ⟨hrun, hlog⟩ | ⟨e, hfires, _, hbefore, hrun, hlog⟩
      · rwa [hrun, hlog]
      · rw [hrun, hlog]
        exact hstep _ e hfires (by simpa [hbefore] using hI calls) (by rwa [hbefore])

/-- **Invariant rule.**  A property of state and log that holds at the start
and survives every successful call holds after every run. -/
theorem invariant {P : σ → List (Event σ α ρ) → Prop} {s₀ : σ}
    (hinit : P s₀ [])
    (hstep : ∀ l e, m.Fires e → P e.before l → P e.after (l ++ [e]))
    (calls : List α) : P (m.run s₀ calls) (m.log s₀ calls) :=
  m.invariant_under (I := fun _ _ => True) (fun _ => trivial) hinit
    (fun l e hfires _ hP => hstep l e hfires hP) calls

/-- Total of `f` over the logged calls. -/
def total {M : Type*} [AddCommMonoid M] (f : Event σ α ρ → M) (l : List (Event σ α ρ)) : M :=
  (l.map f).sum

@[simp] theorem total_nil {M : Type*} [AddCommMonoid M] (f : Event σ α ρ → M) :
    total f [] = 0 := rfl

@[simp] theorem total_snoc {M : Type*} [AddCommMonoid M] (f : Event σ α ρ → M)
    (l : List (Event σ α ρ)) (e : Event σ α ρ) : total f (l ++ [e]) = total f l + f e := by
  simp [total]

/-- What one more logged call adds to what `f` picks from the log. -/
theorem filterMap_snoc {β : Type*} (f : Event σ α ρ → Option β) (l : List (Event σ α ρ))
    (e : Event σ α ρ) : (l ++ [e]).filterMap f = l.filterMap f ++ (f e).toList := by
  rw [List.filterMap_append]
  cases h : f e <;> simp [h]

/-- The log of a prefix is a prefix of the log. -/
theorem log_prefix (s₀ : σ) {pre calls : List α} (hpre : pre <+: calls) :
    m.log s₀ pre <+: m.log s₀ calls := by
  obtain ⟨rest, rfl⟩ := hpre
  induction rest using List.reverseRecOn with
  | nil => simp
  | append_singleton rest a ih =>
      rw [← List.append_assoc]
      rcases m.snoc_cases s₀ (pre ++ rest) a with ⟨_, hlog⟩ | ⟨e, _, _, _, _, hlog⟩
      · rwa [hlog]
      · rw [hlog]
        exact ih.trans (List.prefix_append _ [e])

/-- The logged inputs are some of the calls, in order. -/
theorem log_inputs_sublist (s : σ) (calls : List α) :
    ((m.log s calls).map Event.input).Sublist calls := by
  induction calls generalizing s with
  | nil => exact List.Sublist.refl []
  | cons a rest ih =>
      unfold log
      split
      · exact (ih _).cons_cons a
      · exact (ih _).cons a

/-- Every logged call fired after the calls logged before it. -/
theorem exists_call_of_log_prefix {s₀ : σ} {calls : List α}
    {l : List (Event σ α ρ)} {e : Event σ α ρ}
    (hpre : l ++ [e] <+: m.log s₀ calls) :
    ∃ pre a, pre ++ [a] <+: calls ∧ m.Fires e ∧ e.before = m.run s₀ pre ∧
      m.log s₀ pre = l ∧ m.run s₀ (pre ++ [a]) = e.after ∧
      m.log s₀ (pre ++ [a]) = l ++ [e] := by
  induction calls using List.reverseRecOn with
  | nil => simp at hpre
  | append_singleton calls a ih =>
      have hshorter : calls <+: calls ++ [a] := List.prefix_append calls [a]
      rcases m.snoc_cases s₀ calls a with ⟨_, hlog⟩ | ⟨e', hfires, _, hbefore, hrun, hlog⟩
      · obtain ⟨pre, a', hprefix, hrest⟩ := ih (hlog ▸ hpre)
        exact ⟨pre, a', hprefix.trans hshorter, hrest⟩
      · rw [hlog, List.prefix_concat_iff] at hpre
        rcases hpre with heq | hpre
        · obtain ⟨hl, he⟩ := List.append_inj' heq rfl
          obtain rfl : e = e' := by simpa using he
          exact ⟨calls, a, List.prefix_rfl, hfires, hbefore, hl.symm, hrun, hl ▸ hlog⟩
        · obtain ⟨pre, a', hprefix, hrest⟩ := ih hpre
          exact ⟨pre, a', hprefix.trans hshorter, hrest⟩

/-- Every logged call fired after some of the calls. -/
theorem exists_run_of_mem_log {s₀ : σ} {calls : List α} {e : Event σ α ρ}
    (he : e ∈ m.log s₀ calls) : ∃ pre, m.Fires e ∧ e.before = m.run s₀ pre := by
  obtain ⟨l, rest, hlog⟩ := List.append_of_mem he
  have hpre : l ++ [e] <+: m.log s₀ calls := ⟨rest, by simp [hlog]⟩
  obtain ⟨pre, -, -, hfires, hbefore, -⟩ := m.exists_call_of_log_prefix hpre
  exact ⟨pre, hfires, hbefore⟩

/-- **Condition rule.**  Suppose `I` always holds, and a successful call that
meets `C` where `P` holds keeps `P`.  Then `P` holds after every prefix of a run
whose logged calls all meet `C`. -/
theorem holds_while {I P : σ → List (Event σ α ρ) → Prop}
    {C : List (Event σ α ρ) → Event σ α ρ → Prop} {s₀ : σ}
    (hI : ∀ calls, I (m.run s₀ calls) (m.log s₀ calls))
    (hinit : P s₀ [])
    (hstep : ∀ l e, m.Fires e → I e.before l → P e.before l → C l e → P e.after (l ++ [e]))
    (calls : List α) (hC : ∀ l e, l ++ [e] <+: m.log s₀ calls → C l e) :
    ∀ pre, pre <+: calls → P (m.run s₀ pre) (m.log s₀ pre) := by
  intro pre hprefix
  induction pre using List.reverseRecOn with
  | nil => exact hinit
  | append_singleton pre a ih =>
      have hP := ih ((List.prefix_append pre [a]).trans hprefix)
      rcases m.snoc_cases s₀ pre a with ⟨hrun, hlog⟩ | ⟨e, hfires, _, hbefore, hrun, hlog⟩
      · rwa [hrun, hlog]
      · have hlogged : m.log s₀ pre ++ [e] <+: m.log s₀ calls := by
          rw [← hlog]
          exact m.log_prefix s₀ hprefix
        rw [hrun, hlog]
        exact hstep _ e hfires (by simpa [hbefore] using hI pre) (by simpa [hbefore] using hP)
          (hC _ e hlogged)

/-- **Exact-condition rule.**  Suppose `I` always holds, and a successful call
made where `P` holds keeps `P` exactly if it meets `C`.  Then `P` holds after
every prefix of a run exactly if every logged call met `C`. -/
theorem holds_iff {I P : σ → List (Event σ α ρ) → Prop}
    {C : List (Event σ α ρ) → Event σ α ρ → Prop} {s₀ : σ}
    (hI : ∀ calls, I (m.run s₀ calls) (m.log s₀ calls))
    (hinit : P s₀ [])
    (hstep : ∀ l e, m.Fires e → I e.before l → P e.before l →
      (P e.after (l ++ [e]) ↔ C l e))
    (calls : List α) :
    (∀ pre, pre <+: calls → P (m.run s₀ pre) (m.log s₀ pre)) ↔
      ∀ l e, l ++ [e] <+: m.log s₀ calls → C l e := by
  constructor
  · intro hP l e hpre
    obtain ⟨pre, a, hprefix, hfires, hbefore, hl, hrun, hlog⟩ :=
      m.exists_call_of_log_prefix hpre
    have hIe : I e.before l := by simpa [hbefore, hl] using hI pre
    have hPe : P e.before l := by
      simpa [hbefore, hl] using hP pre ((List.prefix_append pre [a]).trans hprefix)
    refine (hstep l e hfires hIe hPe).mp ?_
    simpa [← hrun, ← hlog] using hP (pre ++ [a]) hprefix
  · exact m.holds_while hI hinit (fun l e hfires hIe hPe => (hstep l e hfires hIe hPe).mpr) calls

/-- A condition on each logged call, with or without the log before it. -/
theorem forall_prefix_iff_forall_mem {C : Event σ α ρ → Prop} {l : List (Event σ α ρ)} :
    (∀ before e, before ++ [e] <+: l → C e) ↔ ∀ e ∈ l, C e := by
  constructor
  · intro h e he
    obtain ⟨before, after, rfl⟩ := List.append_of_mem he
    exact h before e ⟨after, by simp⟩
  · rintro h before e ⟨after, rfl⟩
    exact h e (by simp)

/-- **Invariant rule under a condition**, above an invariant `I` already known to hold.
A property that the successful calls keep which meet `C` holds after every run whose
logged calls all do. -/
theorem invariant_while {I P : σ → List (Event σ α ρ) → Prop} {C : Event σ α ρ → Prop} {s₀ : σ}
    (hI : ∀ calls, I (m.run s₀ calls) (m.log s₀ calls))
    (hinit : P s₀ [])
    (hstep : ∀ l e, m.Fires e → C e → I e.before l → P e.before l → P e.after (l ++ [e]))
    (calls : List α) (hC : ∀ e ∈ m.log s₀ calls, C e) :
    P (m.run s₀ calls) (m.log s₀ calls) := by
  have hall := forall_prefix_iff_forall_mem.mpr hC
  refine m.holds_while (C := fun _ => C) hI hinit ?_ calls hall calls List.prefix_rfl
  intro l e hfires hIe hP hCe
  exact hstep l e hfires hCe hIe hP

/-- **Projection rule.**  If every successful call is invisible through `f` or
is one successful call of `m'`, every run shows a run of `m'` through `f`. -/
theorem exists_run_of_simulation {σ' α' ρ' ε' : Type*} (m' : Machine σ' α' ρ' ε')
    (f : σ → σ')
    (hsim : ∀ e, m.Fires e → f e.after = f e.before ∨
      ∃ a' r', m'.call (f e.before) a' = .ok (r', f e.after))
    (s₀ : σ) (calls : List α) : ∃ calls', f (m.run s₀ calls) = m'.run (f s₀) calls' := by
  induction calls using List.reverseRecOn with
  | nil => exact ⟨[], rfl⟩
  | append_singleton calls a ih =>
      obtain ⟨calls', hrun'⟩ := ih
      rcases m.snoc_cases s₀ calls a with ⟨hrun, _⟩ | ⟨e, hfires, _, hbefore, hrun, _⟩
      · exact ⟨calls', by rw [hrun, hrun']⟩
      · rcases hsim e hfires with hsame | ⟨a', r', hcall⟩
        · exact ⟨calls', by rw [hrun, hsame, hbefore, hrun']⟩
        · refine ⟨calls' ++ [a'], ?_⟩
          rw [hrun, run_snoc, ← hrun', ← hbefore]
          simp [step, hcall]

end Machine
