import Mathlib.Data.List.Basic
import Mathlib.Data.List.Infix

/-!
# Fields joined by a delimiter

A line is made of fields with a delimiter between them, and nothing is escaped.
Splitting the line gives back the parts of all fields in order, so a field that
has the delimiter is more than one part.

If the first fields have no delimiter, and the field after them is known by a
property that no part of the last field has (other than its final part), the
line can be read in one way only: `fields_unique`.
-/

namespace Delimited

variable {α : Type*} {d : α}

/-- The line of some fields. -/
abbrev line (d : α) (fields : List (List α)) : List α := [d].intercalate fields

theorem line_cons {field : List α} {fields : List (List α)} (h : fields ≠ []) :
    line d (field :: fields) = field ++ d :: line d fields := by
  obtain ⟨next, rest, rfl⟩ := List.exists_cons_of_ne_nil h
  rw [line, List.intercalate_cons_cons, List.append_assoc, List.singleton_append]

theorem line_append {fields later : List (List α)} (hfields : fields ≠ []) (hlater : later ≠ []) :
    line d (fields ++ later) = line d fields ++ d :: line d later := by
  induction fields with
  | nil => exact absurd rfl hfields
  | cons field fields ih =>
      by_cases hnil : fields = []
      · subst hnil
        rw [List.singleton_append, line_cons hlater, line, line, List.intercalate_singleton]
      · rw [List.cons_append, line_cons (by simp [hnil]), ih hnil, line_cons hnil,
          List.append_assoc, List.cons_append]

variable [DecidableEq α]

/-- The parts of a field. -/
abbrev parts (d : α) (field : List α) : List (List α) := field.splitOn d

/-- The parts of a field make it up again. -/
theorem line_parts (field : List α) : line d (parts d field) = field :=
  List.intercalate_splitOn d

theorem parts_inj {field field' : List α} (h : parts d field = parts d field') :
    field = field' := by
  rw [← line_parts (d := d) field, h, line_parts]

theorem eq_of_parts_singleton {field p : List α} (h : parts d field = [p]) : field = p := by
  rw [← line_parts (d := d) field, h, line, List.intercalate_singleton]

/-- Every field has a part. -/
theorem one_le_parts (field : List α) : 1 ≤ (parts d field).length :=
  List.length_pos_iff.mpr (List.splitOn_ne_nil d field)

/-- The parts of a line are the parts of its fields. -/
theorem parts_line {fields : List (List α)} (h : fields ≠ []) :
    parts d (line d fields) = fields.flatMap (parts d) := by
  induction fields with
  | nil => exact absurd rfl h
  | cons field fields ih =>
      by_cases hnil : fields = []
      · simp [hnil]
      · rw [List.flatMap_cons, ← ih hnil, line_cons hnil, parts, List.splitOn_append_cons_self]

/-- Fields have at least as many parts as there are of them. -/
theorem length_le_parts (fields : List (List α)) :
    fields.length ≤ (fields.flatMap (parts d)).length := by
  induction fields with
  | nil => simp
  | cons field fields ih =>
      have hone := one_le_parts (d := d) field
      rw [List.flatMap_cons, List.length_append, List.length_cons]
      omega

/-- Fields without the delimiter are their own parts. -/
theorem flatMap_parts_of_plain {fields : List (List α)} (h : ∀ field ∈ fields, d ∉ field) :
    fields.flatMap (parts d) = fields := by
  induction fields with
  | nil => rfl
  | cons field fields ih =>
      rw [List.forall_mem_cons] at h
      rw [List.flatMap_cons, ih h.2, parts, List.splitOn_eq_singleton h.1, List.singleton_append]

/-- Fields that have no more parts than there are fields are their own parts. -/
theorem eq_of_flatMap_parts {fields ps : List (List α)} (h : fields.flatMap (parts d) = ps)
    (hlength : ps.length = fields.length) : fields = ps := by
  induction fields generalizing ps with
  | nil => exact h
  | cons field fields ih =>
      have hone := one_le_parts (d := d) field
      have hrest := length_le_parts (d := d) fields
      rw [List.flatMap_cons] at h
      have hsum := congrArg List.length h
      rw [List.length_append, hlength, List.length_cons] at hsum
      obtain ⟨p, hp⟩ := List.length_eq_one_iff.mp (by omega : (parts d field).length = 1)
      rw [hp, List.singleton_append] at h
      subst h
      rw [eq_of_parts_singleton hp, ← ih rfl (by omega)]

/-- A field without the delimiter that is followed by it in a line is a part,
and not the last. -/
theorem mem_dropLast_parts {last p : List α} {ps : List (List α)} {after : List α}
    (h : parts d last = ps ++ p :: parts d after) : p ∈ (parts d last).dropLast := by
  rw [h, List.dropLast_append_cons, List.dropLast_cons_of_ne_nil (List.splitOn_ne_nil d after)]
  simp

/-- **Unique reading.**  Two lines of as many first fields, a marked field and a
last one are the same only if the fields are. -/
theorem fields_unique {P : List α → Prop} {first first' : List (List α)}
    {marked marked' last last' : List α} (hplain : ∀ field ∈ first, d ∉ field)
    (hmarked : d ∉ marked) (hmarked' : d ∉ marked') (hP' : P marked')
    (hlast : ∀ p ∈ (parts d last).dropLast, ¬ P p) (hlength : first'.length = first.length)
    (h : line d (first' ++ [marked', last']) = line d (first ++ [marked, last])) :
    first' = first ∧ marked' = marked ∧ last' = last := by
  have hparts : first'.flatMap (parts d) ++ marked' :: parts d last' =
      first ++ marked :: parts d last := by
    have hsplit := congrArg (parts d) h
    rw [parts_line (by simp), parts_line (by simp), List.flatMap_append, List.flatMap_append,
      flatMap_parts_of_plain hplain] at hsplit
    simpa [List.splitOn_eq_singleton hmarked, List.splitOn_eq_singleton hmarked'] using hsplit
  have hmany := length_le_parts (d := d) first'
  rcases List.append_eq_append_iff.mp hparts with ⟨m, hfirst, hrest⟩ | ⟨m, hfirst, hrest⟩
  · have hshort := congrArg List.length hfirst
    rw [List.length_append] at hshort
    obtain rfl : m = [] := List.length_eq_zero_iff.mp (by omega)
    rw [List.append_nil] at hfirst
    obtain ⟨hsame, hlasts⟩ := List.cons.inj hrest
    exact ⟨eq_of_flatMap_parts hfirst.symm hlength.symm, hsame, parts_inj hlasts⟩
  · cases m with
    | nil =>
        rw [List.append_nil] at hfirst
        obtain ⟨hsame, hlasts⟩ := List.cons.inj hrest
        exact ⟨eq_of_flatMap_parts hfirst hlength.symm, hsame.symm, parts_inj hlasts.symm⟩
    | cons p m =>
        obtain ⟨-, hlater⟩ := List.cons.inj hrest
        exact absurd hP' (hlast marked' (mem_dropLast_parts hlater))

/-- A part that is not the last one splits the field there. -/
theorem eq_of_mem_dropLast_parts {field p : List α} (h : p ∈ (parts d field).dropLast) :
    ∃ before after, parts d field = before ++ p :: after ∧ after ≠ [] := by
  obtain ⟨before, after, hdrop⟩ := List.append_of_mem h
  have hall := List.dropLast_append_getLast (List.splitOn_ne_nil d field)
  refine ⟨before, after ++ [(parts d field).getLast (List.splitOn_ne_nil d field)], ?_, by simp⟩
  rw [← List.cons_append, ← List.append_assoc, ← hdrop]
  exact hall.symm

end Delimited
