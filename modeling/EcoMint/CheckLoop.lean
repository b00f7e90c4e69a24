import Mathlib.Data.List.Basic

/-!
# Loops that check one item after another

A check looks at an item in a state, reports what it finds or fails, and leaves a
state behind in either case; a failure ends the loop.  Three rules say what a loop
does: `run_total`, that it ends and reports only what some check reports, when every
check does; `run_keeps`, that it keeps what every check keeps, however it ends; and
`run_result`, that what a check makes true of its item still holds in the end, when
no other check undoes it.
-/

namespace CheckLoop

variable {α β σ : Type*} (check : α → σ → Option (List β) × σ)

/-- The checks of the items in order, with everything they report. -/
def run : List α → σ → Option (List β) × σ
  | [], s => (some [], s)
  | item :: rest, s =>
      match check item s with
      | (none, s) => (none, s)
      | (some found, s) =>
          match run rest s with
          | (none, s) => (none, s)
          | (some more, s) => (some (found ++ more), s)

variable {check}

theorem run_cons_eq_some {item : α} {rest : List α} {s s' : σ} {reported : List β}
    (h : run check (item :: rest) s = (some reported, s')) :
    ∃ found middle more, check item s = (some found, middle) ∧
      run check rest middle = (some more, s') ∧ reported = found ++ more := by
  rw [run] at h
  split at h
  · cases h
  · next found middle hcheck =>
      split at h
      · cases h
      · next more last hmore =>
          obtain ⟨hreported, rfl⟩ := Prod.mk.inj h
          exact ⟨found, middle, more, hcheck, hmore, (Option.some.inj hreported).symm⟩

/-- A loop whose checks all succeed from states with a property succeeds, and ends in
one. -/
theorem run_total {P : σ → Prop} {Q : β → Prop} {items : List α}
    (hcheck : ∀ item ∈ items, ∀ s, P s → ∃ found s', check item s = (some found, s') ∧ P s' ∧
      ∀ report ∈ found, Q report) {s : σ} (hs : P s) :
    ∃ reported s', run check items s = (some reported, s') ∧ P s' ∧
      ∀ report ∈ reported, Q report := by
  induction items generalizing s with
  | nil => exact ⟨[], s, rfl, hs, by simp⟩
  | cons item rest ih =>
      obtain ⟨hitem, hrest⟩ := List.forall_mem_cons.mp hcheck
      obtain ⟨found, middle, hfound, hmiddle, hreports⟩ := hitem s hs
      obtain ⟨more, s', hmore, hs', hreports'⟩ := ih hrest hmiddle
      refine ⟨found ++ more, s', by simp [run, hfound, hmore], hs', ?_⟩
      intro report hmem
      rcases List.mem_append.mp hmem with hmem | hmem
      · exact hreports report hmem
      · exact hreports' report hmem

/-- What every check keeps, the loop keeps. -/
theorem run_keeps {P : σ → Prop} {items : List α}
    (hkeep : ∀ item ∈ items, ∀ s, P s → P (check item s).2) {s : σ} (hs : P s) :
    P (run check items s).2 := by
  induction items generalizing s with
  | nil => exact hs
  | cons item rest ih =>
      obtain ⟨hitem, hrest⟩ := List.forall_mem_cons.mp hkeep
      have hmiddle := hitem s hs
      rw [run]
      split
      · next hcheck => rwa [hcheck] at hmiddle
      · next found middle hcheck =>
          rw [hcheck] at hmiddle
          have hlast := ih hrest hmiddle
          split
          · next hmore => rwa [hmore] at hlast
          · next hmore => rwa [hmore] at hlast

/-- What each check establishes, and later checks keep, holds for every item at the end. -/
theorem run_result {A : α → σ → Prop} {reported : List β}
    (hcheck : ∀ item s found s', check item s = (some found, s') → found ⊆ reported → A item s')
    (hkeep : ∀ item item' s, A item s → A item (check item' s).2) {items : List α} {s s' : σ}
    {found : List β} (h : run check items s = (some found, s')) (hfound : found ⊆ reported) :
    ∀ item ∈ items, A item s' := by
  induction items generalizing s found with
  | nil => simp
  | cons first rest ih =>
      obtain ⟨found', middle, more, hfirst, hmore, rfl⟩ := run_cons_eq_some h
      have hsplit := List.append_subset.mp hfound
      intro item hitem
      rcases List.mem_cons.mp hitem with rfl | hrest
      · have hkept : A item (run check rest middle).2 :=
          run_keeps (fun item' _ s => hkeep item item' s)
            (hcheck item s found' middle hfirst hsplit.1)
        rwa [hmore] at hkept
      · exact ih hmore hsplit.2 item hrest

end CheckLoop
