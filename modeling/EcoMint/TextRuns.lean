import Mathlib.Data.List.SplitBy

/-!
# Runs of a class of characters

A text is cut wherever it goes from one class of characters to the other, as a
regular expression sees its word boundaries.  A run may be replaced by several:
as long as they alternate, and begin and end in the class of the run, they are the
runs of the new text.
-/

namespace TextRuns

variable {α : Type*} (p : α → Bool)

/-- The text cut at its boundaries. -/
def runs (text : List α) : List (List α) := text.splitBy fun c d => p c == p d

/-- A part of a text that is inside the class, or outside of it. -/
def Uniform (b : Bool) (part : List α) : Prop :=
  part ≠ [] ∧ ∀ c ∈ part, p c = b

/-- Two parts with a boundary between them. -/
def Differ (part next : List α) : Prop :=
  ∃ b, Uniform p b part ∧ Uniform p (!b) next

/-- What a run may be replaced by. -/
structure Replaces (b : Bool) (parts : List (List α)) : Prop where
  ne_nil : parts ≠ []
  alternate : parts.IsChain (Differ p)
  uniform : ∀ part ∈ parts, ∃ b', Uniform p b' part
  first : ∀ part ∈ parts.head?, Uniform p b part
  last : ∀ part ∈ parts.getLast?, Uniform p b part

variable {p} {b b' : Bool} {text part next : List α} {parts : List (List α)}

/-- A part whose neighbours agree is uniform. -/
theorem uniform_of_chain {c : α} (h : (c :: part).IsChain fun c d => p c == p d) :
    Uniform p (p c) (c :: part) := by
  refine ⟨List.cons_ne_nil _ _, ?_⟩
  induction part generalizing c with
  | nil => simp
  | cons d part ih =>
      rw [List.isChain_cons_cons] at h
      have hsame : p c = p d := by simpa using h.1
      intro x hx
      rcases List.mem_cons.mp hx with rfl | hx
      · rfl
      · rw [hsame]
        exact ih h.2 x hx

/-- In a uniform part neighbours agree. -/
theorem Uniform.chain (h : Uniform p b part) : part.IsChain fun c d => p c == p d := by
  refine List.Pairwise.isChain (List.pairwise_of_forall_mem_list ?_)
  intro c hc d hd
  simp [h.2 c hc, h.2 d hd]

/-- A uniform part can stand for itself. -/
theorem Uniform.replaces (h : Uniform p b part) : Replaces p b [part] where
  ne_nil := List.cons_ne_nil _ _
  alternate := List.isChain_singleton _
  uniform other hother := ⟨b, by rwa [List.mem_singleton.mp hother]⟩
  first other hother := by
    cases hother
    exact h
  last other hother := by
    cases hother
    exact h

/-- At the boundary of two parts that differ the kind of character changes. -/
theorem Differ.boundary (h : Differ p part next) :
    ∃ ha hb, (p (part.getLast ha) == p (next.head hb)) = false := by
  obtain ⟨b, hpart, hnext⟩ := h
  refine ⟨hpart.1, hnext.1, ?_⟩
  rw [hpart.2 _ (List.getLast_mem _), hnext.2 _ (List.head_mem _)]
  cases b <;> rfl

/-- The runs of a text make it up. -/
@[simp] theorem flatten_runs (text : List α) : (runs p text).flatten = text :=
  List.flatten_splitBy _ _

/-- Every run is uniform. -/
theorem exists_uniform (h : part ∈ runs p text) : ∃ b, Uniform p b part := by
  cases part with
  | nil => exact absurd h (List.nil_notMem_splitBy _ _)
  | cons c part => exact ⟨_, uniform_of_chain (List.isChain_of_mem_splitBy h)⟩

/-- Two uniform parts with a change at their boundary differ. -/
theorem differ_of_boundary (hpart : Uniform p b part) (hnext : Uniform p b' next)
    (h : ∃ ha hb, (p (part.getLast ha) == p (next.head hb)) = false) : Differ p part next := by
  obtain ⟨ha, hb, hne⟩ := h
  rw [hpart.2 _ (List.getLast_mem ha), hnext.2 _ (List.head_mem hb)] at hne
  refine ⟨b, hpart, ?_⟩
  cases b <;> cases b' <;> first | exact hnext | exact nomatch hne

/-- The runs of a text alternate. -/
theorem alternate_runs (text : List α) : (runs p text).IsChain (Differ p) := by
  refine (List.isChain_getLast_head_splitBy (fun c d => p c == p d) text).imp_of_mem_imp ?_
  intro part next hpart hnext hboundary
  obtain ⟨b, hb⟩ := exists_uniform hpart
  obtain ⟨b', hb'⟩ := exists_uniform hnext
  exact differ_of_boundary hb hb' hboundary

/-- Parts with boundaries between them are the runs of what they make up. -/
theorem runs_flatten (huniform : ∀ part ∈ parts, ∃ b, Uniform p b part)
    (halternate : parts.IsChain (Differ p)) : runs p parts.flatten = parts := by
  refine List.splitBy_flatten ?_ ?_ ?_
  · intro hnil
    obtain ⟨b, hb⟩ := huniform [] hnil
    exact hb.1 rfl
  · intro part hpart
    obtain ⟨b, hb⟩ := huniform part hpart
    exact hb.chain
  · exact halternate.imp fun _ _ h => h.boundary

/-- **Replacement rule.**  Where every run is replaced by parts that begin and end in
its class, the parts are the runs of the new text. -/
theorem runs_flatMap {f : List α → List (List α)}
    (hf : ∀ b part, Uniform p b part → Replaces p b (f part)) (text : List α) :
    runs p ((runs p text).flatMap f).flatten = (runs p text).flatMap f := by
  refine runs_flatten ?_ ?_
  · intro part hpart
    obtain ⟨run, hrun, hmem⟩ := List.mem_flatMap.mp hpart
    obtain ⟨b, hb⟩ := exists_uniform hrun
    exact (hf b run hb).uniform part hmem
  · have hne : [] ∉ (runs p text).map f := by
      intro hnil
      obtain ⟨run, hrun, hempty⟩ := List.mem_map.mp hnil
      obtain ⟨b, hb⟩ := exists_uniform hrun
      exact (hf b run hb).ne_nil hempty
    rw [List.flatMap_def, List.isChain_flatten hne]
    refine ⟨fun parts hparts => ?_, (List.isChain_map f).mpr ?_⟩
    · obtain ⟨run, hrun, rfl⟩ := List.mem_map.mp hparts
      obtain ⟨b, hb⟩ := exists_uniform hrun
      exact (hf b run hb).alternate
    · refine (alternate_runs text).imp fun run next hdiffer x hx y hy => ?_
      obtain ⟨b, hrun, hnext⟩ := hdiffer
      exact ⟨b, (hf b run hrun).last x hx, (hf (!b) next hnext).first y hy⟩

end TextRuns
