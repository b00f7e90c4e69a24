import EcoMint.Machine

/-!
# Many reads, one world

A process reads a world piece by piece, each read atomic, while others change the
world between its reads.  What it was given need not fit any one world.  It
does if some moment of the run serves for all reads: each was given what it
would have been given at that moment.

`exists_agreed` is the rule for runs.  As long as nobody changes what was read
already, the present moment serves.  Once somebody has, the moment before has to
serve for the rest of the run, and does if nobody changes what is still to be
read.
-/

/-- A process over a world that others change. -/
structure Reader (ω τ π χ q : Type*) where
  running : π → Bool
  change : ω → τ → Option ω
  resume : ω → π → χ → Option (q × π)

/-- A change by others, or the next read of the process. -/
inductive ReaderAction (τ χ : Type*)
  | change (transaction : τ)
  | read (choice : χ)

namespace Reader

variable {ω τ π χ q : Type*} (r : Reader ω τ π χ q)

/-- One step, with the question that was asked if it is a read.  Nothing happens
after the process has ended. -/
def call (s : ω × π) : ReaderAction τ χ → Except Unit (Option q × (ω × π))
  | .change transaction =>
      if r.running s.2 then
        match r.change s.1 transaction with
        | some w => .ok (none, (w, s.2))
        | none => .error ()
      else .error ()
  | .read choice =>
      match r.resume s.1 s.2 choice with
      | some (question, p) => .ok (some question, (s.1, p))
      | none => .error ()

/-- The readers and what they read, as a machine. -/
def machine : Machine (ω × π) (ReaderAction τ χ) (Option q) Unit := ⟨r.call⟩

/-- A logged step of the reader. -/
abbrev Logged (_ : Reader ω τ π χ q) := Event (ω × π) (ReaderAction τ χ) (Option q)

/-- **Step lemma.**  A step changes the world and nothing else, or it is a read
that leaves the world alone. -/
theorem step_cases {e : r.Logged} (h : r.machine.Fires e) :
    (∃ transaction w, e.input = .change transaction ∧ r.change e.before.1 transaction = some w ∧
        e.output = none ∧ e.after = (w, e.before.2)) ∨
      ∃ choice question p, e.input = .read choice ∧
        r.resume e.before.1 e.before.2 choice = some (question, p) ∧
        e.output = some question ∧ e.after = (e.before.1, p) := by
  obtain ⟨before, input, output, after⟩ := e
  change r.call before input = .ok (output, after) at h
  cases input with
  | change transaction =>
      simp only [call] at h
      split at h
      · split at h
        · next w hchange =>
            obtain ⟨rfl, rfl⟩ := Prod.mk.inj (Except.ok.inj h)
            exact Or.inl ⟨transaction, w, rfl, hchange, rfl, rfl⟩
        · cases h
      · cases h
  | read choice =>
      simp only [call] at h
      split at h
      · next question p hresume =>
          obtain ⟨rfl, rfl⟩ := Prod.mk.inj (Except.ok.inj h)
          exact Or.inr ⟨choice, question, p, rfl, hresume, rfl, rfl⟩
      · cases h

/-! ## Moments that serve for all reads -/

variable {α : q → Type*} (answer : ω → (question : q) → α question)

/-- Every read was given what it would have been given in the world `w`. -/
def Agreed (w : ω) (l : List r.Logged) : Prop :=
  ∀ e ∈ l, ∀ question, e.output = some question → answer e.before.1 question = answer w question

/-- The step changes nothing that was read before. -/
def KeepsRead (l : List r.Logged) (e : r.Logged) : Prop :=
  ∀ e' ∈ l, ∀ question, e'.output = some question →
    answer e.before.1 question = answer e.after.1 question

/-- The step changes nothing that is still to be read. -/
def KeepsPending (pending : π → q → Prop) (e : r.Logged) : Prop :=
  ∀ question, pending e.before.2 question →
    answer e.before.1 question = answer e.after.1 question

/-- The step changes nothing that is still to be read, unless no step so far has
changed anything that had been read. -/
def InOrder (pending : π → q → Prop) (l : List r.Logged) (e : r.Logged) : Prop :=
  r.KeepsPending answer pending e ∨
    ∀ l' e', l' ++ [e'] <+: l ++ [e] → r.KeepsRead answer l' e'

variable {r answer}

theorem agreed_snoc {w : ω} {l : List r.Logged} {e : r.Logged} :
    r.Agreed answer w (l ++ [e]) ↔ r.Agreed answer w l ∧
      ∀ question, e.output = some question → answer e.before.1 question = answer w question := by
  simp [Agreed, or_imp, forall_and]

/-- While nobody changes what was read, the present moment serves. -/
theorem agreed_now {s₀ : ω × π} (actions : List (ReaderAction τ χ))
    (h : ∀ l e, l ++ [e] <+: r.machine.log s₀ actions → r.KeepsRead answer l e) :
    r.Agreed answer (r.machine.run s₀ actions).1 (r.machine.log s₀ actions) := by
  refine (r.machine.holds_iff (I := fun _ _ => True)
    (P := fun s l => r.Agreed answer s.1 l)
    (C := fun l e => r.KeepsRead answer l e) (fun _ => trivial) ?_ ?_ actions).mpr h actions
    List.prefix_rfl
  · intro e he
    cases he
  · intro l e hfires _ hagreed
    rw [agreed_snoc]
    have hlast : ∀ question, e.output = some question →
        answer e.before.1 question = answer e.after.1 question := by
      intro question houtput
      rcases r.step_cases hfires with ⟨_, _, -, -, hnone, -⟩ | ⟨_, _, _, -, -, -, hafter⟩
      · simp [hnone] at houtput
      · rw [hafter]
    constructor
    · rintro ⟨hafter, -⟩ e' he' question houtput
      rw [← hagreed e' he' question houtput, hafter e' he' question houtput]
    · intro hkeeps
      refine ⟨fun e' he' question houtput => ?_, hlast⟩
      rw [hagreed e' he' question houtput, hkeeps e' he' question houtput]

/-- **Run rule.**  If every step is in order, some moment of the run serves for
all reads. -/
theorem exists_agreed {pending : π → q → Prop} {s₀ : ω × π}
    (hasked : ∀ w p choice question p', r.resume w p choice = some (question, p') →
      pending p question ∧ ∀ other, pending p' other → pending p other)
    (actions : List (ReaderAction τ χ))
    (h : ∀ l e, l ++ [e] <+: r.machine.log s₀ actions → r.InOrder answer pending l e) :
    ∃ pre, pre <+: actions ∧
      r.Agreed answer (r.machine.run s₀ pre).1 (r.machine.log s₀ actions) := by
  -- the moment serves for what was read, and for what would be read at once
  suffices hserves : ∃ pre, pre <+: actions ∧
      r.Agreed answer (r.machine.run s₀ pre).1 (r.machine.log s₀ actions) ∧
      ∀ question, pending (r.machine.run s₀ actions).2 question →
        answer (r.machine.run s₀ actions).1 question =
          answer (r.machine.run s₀ pre).1 question by
    obtain ⟨pre, hpre, hagreed, -⟩ := hserves
    exact ⟨pre, hpre, hagreed⟩
  induction actions using List.reverseRecOn with
  | nil =>
      refine ⟨[], List.prefix_rfl, ?_, fun _ _ => rfl⟩
      intro e he
      cases he
  | append_singleton actions a ih =>
      have hlonger : actions <+: actions ++ [a] := List.prefix_append actions [a]
      obtain ⟨pre, hpre, hagreed, hpending⟩ :=
        ih fun l e hl => h l e (hl.trans (r.machine.log_prefix s₀ hlonger))
      rcases r.machine.snoc_cases s₀ actions a with
        ⟨hrun, hlog⟩ | ⟨e, hfires, -, hbefore, hrun, hlog⟩
      · rw [hrun, hlog]
        exact ⟨pre, hpre.trans hlonger, hagreed, hpending⟩
      · have horder := h _ e (by rw [hlog])
        rw [hrun, hlog]
        rw [← hbefore] at hpending
        rcases horder with hkeeps | hread
        · refine ⟨pre, hpre.trans hlonger, agreed_snoc.mpr ⟨hagreed, ?_⟩, ?_⟩
          · intro question houtput
            rcases r.step_cases hfires with ⟨_, _, -, -, hnone, -⟩ | ⟨_, _, _, -, hresume, hasks, -⟩
            · simp [hnone] at houtput
            · obtain rfl := Option.some.inj (hasks.symm.trans houtput)
              exact hpending _ (hasked _ _ _ _ _ hresume).1
          · intro question hquestion
            rcases r.step_cases hfires with ⟨_, _, -, -, -, hafter⟩ | ⟨_, _, _, -, hresume, -, hafter⟩
            · rw [hafter] at hquestion
              rw [← hkeeps question hquestion, hpending question hquestion]
            · rw [hafter] at hquestion ⊢
              exact hpending question ((hasked _ _ _ _ _ hresume).2 question hquestion)
        · refine ⟨actions ++ [a], List.prefix_rfl, ?_, ?_⟩
          · rw [← hlog]
            exact agreed_now _ fun l' e' hl' => hread l' e' (by rwa [← hlog])
          · rw [hrun]
            exact fun _ _ => rfl

end Reader
