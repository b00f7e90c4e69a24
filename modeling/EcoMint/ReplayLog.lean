import EcoMint.Storage
import Mathlib.Data.List.Induction

/-!
# Logs of partial updates

A log of partial updates is replayed over a state by a fold.  A field that the
log treats as a register — the last update that names it wins, or the first one
does — does not notice a second replay of what it has already seen, since in
either case the log as a whole acts on it as one update.  A record is made of
such fields, and a keyed store of such records, one for each key.

So a log may be replayed over whatever state some part of it has already built:
`foldl_absorb_prefix`.
-/

namespace ReplayLog

variable {σ ε β κ ν : Type*}

/-- Replaying the log over what it has built changes nothing. -/
def Absorbs (u : σ → ε → σ) (s : σ) (log : List ε) : Prop :=
  log.foldl u (log.foldl u s) = log.foldl u s

/-- **Replay over a prefix.**  If every part of a log is absorbed, the log may be
replayed over the state that an earlier part of it has left. -/
theorem foldl_absorb_prefix {u : σ → ε → σ} {s : σ} {seen log : List ε} (hpre : seen <+: log)
    (habsorbs : Absorbs u s seen) : log.foldl u (seen.foldl u s) = log.foldl u s := by
  obtain ⟨rest, rfl⟩ := hpre
  rw [List.foldl_append, List.foldl_append, habsorbs]

/-! ## Registers -/

section

variable {u : σ → ε → σ} {q : σ → Option β} {f : ε → Option β}

/-- What a log does to a register that keeps the last value it is given. -/
theorem foldl_last_wins (h : ∀ s e, q (u s e) = (f e).or (q s)) (log : List ε) :
    ∃ x, ∀ s, q (log.foldl u s) = Option.or x (q s) := by
  induction log with
  | nil => exact ⟨none, fun s => rfl⟩
  | cons e rest ih =>
      obtain ⟨x, hx⟩ := ih
      refine ⟨x.or (f e), fun s => ?_⟩
      rw [List.foldl_cons, hx, h, Option.or_assoc]

/-- What a log does to a register that keeps the first value it is given. -/
theorem foldl_first_wins (h : ∀ s e, q (u s e) = (q s).or (f e)) (log : List ε) :
    ∃ x, ∀ s, q (log.foldl u s) = (q s).or x := by
  induction log with
  | nil => exact ⟨none, fun s => by simp⟩
  | cons e rest ih =>
      obtain ⟨x, hx⟩ := ih
      refine ⟨(f e).or x, fun s => ?_⟩
      rw [List.foldl_cons, hx, h, Option.or_assoc]

/-- A value that the last entry decides is the same after the log has been replayed
twice. -/
theorem absorbs_last (h : ∀ s e, q (u s e) = (f e).or (q s)) (s : σ) (log : List ε) :
    q (log.foldl u (log.foldl u s)) = q (log.foldl u s) := by
  obtain ⟨x, hx⟩ := foldl_last_wins h log
  rw [hx (log.foldl u s), hx s, ← Option.or_assoc, Option.or_self]

/-- A value that the first entry decides is the same after the log has been replayed
twice. -/
theorem absorbs_first (h : ∀ s e, q (u s e) = (q s).or (f e)) (s : σ) (log : List ε) :
    q (log.foldl u (log.foldl u s)) = q (log.foldl u s) := by
  obtain ⟨x, hx⟩ := foldl_first_wins h log
  rw [hx (log.foldl u s), hx s, Option.or_assoc, Option.or_self]

end

/-! ## Keyed stores -/

variable [DecidableEq κ]

/-- Update the value under the key that the entry names. -/
def updateKey (key : ε → κ) (u : Option ν → ε → ν) (s : Storage κ ν) (e : ε) : Storage κ ν :=
  s.set (key e) (u (s.get (key e)) e)

/-- Each key sees the entries that name it. -/
theorem get_foldl_updateKey (key : ε → κ) (u : Option ν → ε → ν) (s : Storage κ ν)
    (log : List ε) (k : κ) :
    (log.foldl (updateKey key u) s).get k =
      (log.filter fun e => key e = k).foldl (fun v e => some (u v e)) (s.get k) := by
  induction log generalizing s with
  | nil => rfl
  | cons e rest ih =>
      rw [List.foldl_cons, ih]
      by_cases hkey : key e = k
      · rw [List.filter_cons_of_pos (by simpa using hkey), List.foldl_cons]
        subst hkey
        rw [updateKey, Storage.get_set_self]
      · rw [List.filter_cons_of_neg (by simpa using hkey), updateKey,
          Storage.get_set_ne _ _ (Ne.symm hkey)]

/-- A key is there once an entry has named it. -/
theorem get_foldl_updateKey_empty (key : ε → κ) (u : Option ν → ε → ν) (log : List ε) (k : κ) :
    (log.foldl (updateKey key u) ∅).get k = none ↔ ∀ e ∈ log, key e ≠ k := by
  rw [get_foldl_updateKey]
  induction log using List.reverseRecOn with
  | nil => simp
  | append_singleton log e ih =>
      rw [List.forall_mem_append, List.forall_mem_singleton]
      by_cases hkey : key e = k
      · simp [List.filter_append, hkey]
      · simpa [List.filter_append, hkey] using ih

/-- **Replay of a keyed log.**  If each key absorbs its part of the log, the log
replayed over what an earlier part of it has left gives each key the same value
as the log alone. -/
theorem get_replay_over_prefix {key : ε → κ} {u : Option ν → ε → ν}
    (habsorbs : ∀ v log, Absorbs (fun v e => some (u v e)) v log) {seen log : List ε}
    (hpre : seen <+: log) (s : Storage κ ν) (k : κ) :
    (log.foldl (updateKey key u) (seen.foldl (updateKey key u) s)).get k =
      (log.foldl (updateKey key u) s).get k := by
  rw [get_foldl_updateKey, get_foldl_updateKey, get_foldl_updateKey]
  exact foldl_absorb_prefix (hpre.filter _) (habsorbs _ _)

end ReplayLog
