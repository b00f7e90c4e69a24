import EcoMint.Paging
import EcoMint.ProjectLifecycle

/-!
# Listing the projects page by page

A reader asks for page 0, 1, … until a page comes back empty.  The page size is
capped before the offset is computed, so the pages are those of the capped
size, and the reader sees every project once as long as there are no more
projects than pages that a `u32` can number.
-/

namespace EcoMint.ProjectRegistry

open Fallible IntRange Storage

/-- The page size that `list_projects` works with. -/
def cappedSize (pageSize : Nat) : Nat := min pageSize 50

/-- The pages that a `u32` numbers, until the first empty one, put together. -/
def listAllProjects (s : State) (pageSize : Nat) : List ProjectSummary :=
  (((List.range (2 ^ 32)).map fun page => listProjects s page pageSize).takeWhile
    fun summaries => !summaries.isEmpty).flatten

/-- The start of a page, the first id and the last id on it are `u64`s. -/
structure PageFits (page pageSize : Nat) : Prop where
  start : u64.Fits (page * cappedSize pageSize : Nat)
  first : u64.Fits (page * cappedSize pageSize + 1 : Nat)
  last : u64.Fits (page * cappedSize pageSize + cappedSize pageSize : Nat)

theorem cappedSize_pos {pageSize : Nat} (hsize : 1 ≤ pageSize) : 0 < cappedSize pageSize := by
  unfold cappedSize
  omega

/-- Every page number of 32 bits fits, whatever the size asked for. -/
theorem pageFits_of_lt {page : Nat} (pageSize : Nat) (hpage : page < 2 ^ 32) :
    PageFits page pageSize := by
  have hcap : cappedSize pageSize ≤ 50 := Nat.min_le_right _ _
  have hstart : page * cappedSize pageSize ≤ 2 ^ 32 * 50 := Nat.mul_le_mul hpage.le hcap
  constructor <;> constructor <;> simp only [u64] <;> omega

/-- The summary stored for an id. -/
def summaryOf (s : State) (id : Nat) : Option ProjectSummary :=
  (s.project.get (projectIdToBytes id)).map Project.summary

/-- A page lists the stored projects among its numbers. -/
theorem listProjects_eq (s : State) (page pageSize : Nat) :
    listProjects s page pageSize =
      (Paging.page (cappedSize pageSize) s.projectCount page).filterMap (summaryOf s) := by
  unfold listProjects Paging.page cappedSize
  dsimp only
  split
  · next hbeyond =>
      have hempty : s.projectCount - page * min pageSize 50 = 0 := by omega
      rw [hempty, Nat.min_zero, List.range'_zero, List.filterMap_nil]
  · have hlast : min (page * min pageSize 50 + min pageSize 50) s.projectCount -
        page * min pageSize 50 = min (min pageSize 50) (s.projectCount - page * min pageSize 50) := by
      omega
    rw [hlast]
    rfl

/-- Where every number has its project, a page has one summary for each of its
numbers. -/
theorem State.Numbered.map_id_listProjects {s : State} (hs : s.Numbered) (page pageSize : Nat) :
    (listProjects s page pageSize).map ProjectSummary.id =
      Paging.page (cappedSize pageSize) s.projectCount page := by
  rw [listProjects_eq, List.map_filterMap, List.filterMap_congr, List.filterMap_some]
  intro id hid
  obtain ⟨hlow, -, hhigh⟩ := Paging.mem_page.mp hid
  obtain ⟨project, hget, hnumber⟩ := hs.dense id (by omega) hhigh
  simp [summaryOf, hget, Project.summary, hnumber]

/-- A page comes back empty exactly once the pages before it have covered the projects. -/
theorem State.Numbered.listProjects_eq_nil_iff {s : State} (hs : s.Numbered) {pageSize : Nat}
    (hsize : 1 ≤ pageSize) (page : Nat) :
    listProjects s page pageSize = [] ↔ s.projectCount ≤ page * cappedSize pageSize := by
  rw [← Paging.page_eq_nil_iff (cappedSize_pos hsize), ← hs.map_id_listProjects, List.map_eq_nil_iff]

/-- The reader stops after the pages that hold a project. -/
theorem State.Numbered.listAllProjects_eq {s : State} (hs : s.Numbered) {pageSize : Nat}
    (hsize : 1 ≤ pageSize) (hcount : s.projectCount ≤ 2 ^ 32 * cappedSize pageSize) :
    listAllProjects s pageSize = (List.range (s.projectCount ⌈/⌉ cappedSize pageSize)).flatMap
      fun page => listProjects s page pageSize := by
  have hbatch := cappedSize_pos hsize
  have hempty : ∀ page, (listProjects s page pageSize).isEmpty = true ↔
      s.projectCount ⌈/⌉ cappedSize pageSize ≤ page := by
    intro page
    rw [List.isEmpty_iff, hs.listProjects_eq_nil_iff hsize, Paging.ceilDiv_le_iff hbatch]
  unfold listAllProjects
  rw [List.takeWhile_map, Paging.takeWhile_range ((Paging.ceilDiv_le_iff hbatch).mpr hcount),
    List.flatMap_def]
  · intro page hpage
    have hnot := mt (hempty page).mp (by omega)
    simpa using hnot
  · intro _
    simpa using (hempty _).mpr le_rfl

/-- **The pages cover the projects.**  In every run with no more projects than
the pages of a `u32` hold, the pages up to the first empty one list every
project once, in order, as it is stored; no page number overflows; and behind
an empty page all pages are empty. -/
theorem project_pages_cover (admin : Address) (txs : List Tx) (pageSize : Nat)
    (hsize : 1 ≤ pageSize)
    (hcount : (machine.run (constructor admin) txs).projectCount ≤ 2 ^ 32 * min pageSize 50) :
    let s := machine.run (constructor admin) txs
    (listAllProjects s pageSize).map ProjectSummary.id = List.range' 1 s.projectCount ∧
      (∀ summary ∈ listAllProjects s pageSize, ∃ project,
        getProject s summary.id = .ok project ∧ summary = project.summary) ∧
      (∀ page, page < 2 ^ 32 → PageFits page pageSize) ∧
      ∀ page later, listProjects s page pageSize = [] → page ≤ later →
        listProjects s later pageSize = [] := by
  intro s
  have hfits : u64.Fits s.projectCount := by
    have hcap : min pageSize 50 ≤ 50 := Nat.min_le_right _ _
    have hle : s.projectCount ≤ 2 ^ 32 * 50 := hcount.trans (Nat.mul_le_mul_left _ hcap)
    constructor <;> simp only [u64] <;> omega
  have hs : s.Numbered := numbered_run admin txs hfits
  have hall := hs.listAllProjects_eq hsize hcount
  refine ⟨?_, ?_, fun page => pageFits_of_lt pageSize, ?_⟩
  · simp only [hall, List.map_flatMap, hs.map_id_listProjects]
    exact Paging.flatMap_pages (cappedSize_pos hsize)
  · intro summary hmem
    rw [hall] at hmem
    obtain ⟨page, -, hmem⟩ := List.mem_flatMap.mp hmem
    rw [listProjects_eq] at hmem
    obtain ⟨id, hid, hsummary⟩ := List.mem_filterMap.mp hmem
    obtain ⟨hlow, -, hhigh⟩ := Paging.mem_page.mp hid
    obtain ⟨project, hget, hnumber⟩ := hs.dense id (by omega) hhigh
    rw [summaryOf, hget] at hsummary
    obtain rfl := Option.some.inj hsummary
    refine ⟨project, ?_, rfl⟩
    simp [getProject, okOr_ok_iff, Project.summary, hnumber, hget]
  · intro page later hempty hlater
    rw [hs.listProjects_eq_nil_iff hsize] at hempty ⊢
    exact hempty.trans (Nat.mul_le_mul_right _ hlater)

/-- The two projects of the sample life are listed, one on a page. -/
theorem project_pages_cover_sample :
    (listAllProjects (machine.run (constructor 0) sampleLife) 1).map ProjectSummary.id = [1, 2] :=
  (project_pages_cover 0 sampleLife 1 (by decide) (by decide +kernel)).1.trans (by decide +kernel)

end EcoMint.ProjectRegistry
