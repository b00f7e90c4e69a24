import Mathlib.Data.List.Induction
import Mathlib.Data.List.Nodup

/-!
# Maps in order of insertion

The entries of a map, each key once, in the order in which the keys first came.
An update inserts an entry for a key that has none.  `gather` files the items of
a list one after another under their keys; the entry of a key is then what its
own items make, in their order, whatever the other items are.
-/

namespace InsertionMap

variable {κ γ γ' α : Type*} [DecidableEq κ]

/-- The entry of a key, or the initial value where it has none, is changed. -/
def update : List (κ × γ) → κ → γ → (γ → γ) → List (κ × γ)
  | [], key, init, change => [(key, change init)]
  | (k, value) :: rest, key, init, change =>
      if k = key then (k, change value) :: rest else (k, value) :: update rest key init change

/-- Every item is filed under its key. -/
def gather (key : α → κ) (init : α → γ) (push : γ → α → γ) (items : List α) : List (κ × γ) :=
  items.foldl (fun map item => update map (key item) (init item) (push · item)) []

/-- What the items of one key make. -/
def collect (init : α → γ) (push : γ → α → γ) : List α → Option γ
  | [] => none
  | item :: rest => some ((item :: rest).foldl push (init item))

theorem gather_snoc (key : α → κ) (init : α → γ) (push : γ → α → γ) (items : List α) (item : α) :
    gather key init push (items ++ [item]) =
      update (gather key init push items) (key item) (init item) (push · item) := by
  rw [gather, List.foldl_append]
  rfl

theorem collect_snoc (init : α → γ) (push : γ → α → γ) (items : List α) (item : α) :
    collect init push (items ++ [item]) =
      some (push ((collect init push items).getD (init item)) item) := by
  cases items with
  | nil => rfl
  | cons first rest => simp [collect]

/-- An update has the keys there were and the one updated. -/
theorem mem_keys_update {map : List (κ × γ)} {key k : κ} {init : γ} {change : γ → γ} :
    k ∈ (update map key init change).map Prod.fst ↔ k ∈ map.map Prod.fst ∨ k = key := by
  fun_induction update map key init change with
  | case1 => simp
  | case2 value rest key init change =>
      simp only [List.map_cons, List.mem_cons]
      tauto
  | case3 k' value rest key init change h ih =>
      rw [List.map_cons, List.mem_cons, ih, List.map_cons, List.mem_cons, or_assoc]

/-- An update keeps the keys distinct. -/
theorem nodup_update {map : List (κ × γ)} (h : (map.map Prod.fst).Nodup) (key : κ) (init : γ)
    (change : γ → γ) : ((update map key init change).map Prod.fst).Nodup := by
  fun_induction update map key init change with
  | case1 => simp
  | case2 => exact h
  | case3 k value rest key init change hne ih =>
      obtain ⟨hfresh, hrest⟩ := List.nodup_cons.mp h
      refine List.nodup_cons.mpr ⟨?_, ih hrest⟩
      intro hmem
      rcases mem_keys_update.mp hmem with hold | hnew
      · exact hfresh hold
      · exact hne hnew

/-- A lookup after an update finds the changed value at its key, and at every other key
what was there. -/
theorem lookup_update (map : List (κ × γ)) (key k : κ) (init : γ) (change : γ → γ) :
    (update map key init change).lookup k =
      if k = key then some (change ((map.lookup key).getD init)) else map.lookup k := by
  fun_induction update map key init change with
  | case1 key init change =>
      by_cases h : k = key
      · simp [h]
      · simp [List.lookup_cons, h, beq_eq_false_iff_ne.mpr h]
  | case2 value rest key init change =>
      by_cases h : k = key
      · simp [h]
      · simp [List.lookup_cons, h, beq_eq_false_iff_ne.mpr h]
  | case3 k' value rest key init change hne ih =>
      have hother : (key == k') = false := beq_eq_false_iff_ne.mpr (Ne.symm hne)
      by_cases h : k = k'
      · subst h
        simp [hne]
      · have hthis : (k == k') = false := beq_eq_false_iff_ne.mpr h
        simp only [List.lookup_cons, hthis, hother, ih]

/-- The keys of what is gathered are distinct. -/
theorem nodup_gather (key : α → κ) (init : α → γ) (push : γ → α → γ) (items : List α) :
    ((gather key init push items).map Prod.fst).Nodup := by
  induction items using List.reverseRecOn with
  | nil => exact List.nodup_nil
  | append_singleton items item ih =>
      rw [gather_snoc]
      exact nodup_update ih _ _ _

/-- The entry of a key is made of the items of that key. -/
theorem lookup_gather (key : α → κ) (init : α → γ) (push : γ → α → γ) (items : List α) (k : κ) :
    (gather key init push items).lookup k =
      collect init push (items.filter fun item => key item = k) := by
  induction items using List.reverseRecOn generalizing k with
  | nil => rfl
  | append_singleton items item ih =>
      rw [gather_snoc, lookup_update, List.filter_append]
      by_cases h : k = key item
      · subst h
        rw [if_pos rfl, ih, List.filter_cons_of_pos (by simp), List.filter_nil, collect_snoc]
      · rw [if_neg h, ih, List.filter_cons_of_neg (by simpa using Ne.symm h), List.filter_nil,
          List.append_nil]

/-- With distinct keys an entry is in the map exactly when a lookup finds it. -/
theorem mem_iff_lookup {map : List (κ × γ)} (h : (map.map Prod.fst).Nodup) {k : κ} {value : γ} :
    (k, value) ∈ map ↔ map.lookup k = some value := by
  induction map with
  | nil => simp
  | cons entry rest ih =>
      obtain ⟨k', value'⟩ := entry
      obtain ⟨hfresh, hrest⟩ := List.nodup_cons.mp h
      rw [List.mem_cons, List.lookup_cons]
      by_cases heq : k = k'
      · subst heq
        have hnot : (k, value) ∉ rest := fun hmem =>
          hfresh (List.mem_map.mpr ⟨(k, value), hmem, rfl⟩)
        simp [hnot, eq_comm]
      · rw [beq_eq_false_iff_ne.mpr heq, ih hrest]
        simp [heq]

/-- The entries after all items are filed. -/
theorem mem_gather {key : α → κ} {init : α → γ} {push : γ → α → γ} {items : List α} {k : κ}
    {value : γ} : (k, value) ∈ gather key init push items ↔
      collect init push (items.filter fun item => key item = k) = some value := by
  rw [mem_iff_lookup (nodup_gather key init push items), lookup_gather]

/-- The first entry with a key is the one that a lookup finds. -/
theorem find?_key (map : List (κ × γ)) (k : κ) :
    (map.find? fun entry => entry.1 = k) = (map.lookup k).map fun value => (k, value) := by
  induction map with
  | nil => rfl
  | cons entry rest ih =>
      obtain ⟨k', value⟩ := entry
      by_cases h : k' = k
      · subst h
        simp
      · rw [List.find?_cons_of_neg (by simpa using h), ih, List.lookup_cons,
          beq_eq_false_iff_ne.mpr (Ne.symm h)]

/-- Gathering mapped items is gathering the items under the mapped functions. -/
theorem gather_map {β : Type*} (key : α → κ) (init : α → γ) (push : γ → α → γ) (f : β → α)
    (items : List β) : gather key init push (items.map f) =
      gather (fun item => key (f item)) (fun item => init (f item))
        (fun value item => push value (f item)) items := by
  rw [gather, List.foldl_map]
  rfl

/-! ## Two maps of the same items -/

/-- A lookup in a mapped map finds the mapped value. -/
theorem lookup_map (h : γ → γ') (map : List (κ × γ)) (k : κ) :
    (map.map (Prod.map id h)).lookup k = (map.lookup k).map h := by
  induction map with
  | nil => rfl
  | cons entry rest ih =>
      obtain ⟨k', value⟩ := entry
      rw [List.map_cons, Prod.map_apply, id_eq, List.lookup_cons, List.lookup_cons, ih]
      cases k == k' <;> rfl

/-- Mapping the values commutes with an update whose change they agree on. -/
theorem map_update (h : γ → γ') (change' : γ' → γ') {map : List (κ × γ)} {key : κ} {init : γ}
    {change : γ → γ} (hchange : ∀ value, h (change value) = change' (h value)) :
    (update map key init change).map (Prod.map id h) =
      update (map.map (Prod.map id h)) key (h init) change' := by
  fun_induction update map key init change with
  | case1 => simp [update, hchange]
  | case2 => simp [update, hchange]
  | case3 k value rest key init change hne ih => simp [update, hne, ih hchange]

/-- A map that keeps less of every item has the same entries, with less in them. -/
theorem map_gather (h : γ → γ') (key : α → κ) {init : α → γ} {init' : α → γ'}
    {push : γ → α → γ} {push' : γ' → α → γ'} (hinit : ∀ item, h (init item) = init' item)
    (hpush : ∀ value item, h (push value item) = push' (h value) item) (items : List α) :
    (gather key init push items).map (Prod.map id h) = gather key init' push' items := by
  induction items using List.reverseRecOn with
  | nil => rfl
  | append_singleton items item ih =>
      rw [gather_snoc, gather_snoc, map_update h (push' · item) (hpush · item), ih, hinit]

/-! ## The items in another order -/

/-- Maps with the same entry for every key differ in their order alone. -/
theorem perm_of_lookup {map map' : List (κ × γ)} (h : (map.map Prod.fst).Nodup)
    (h' : (map'.map Prod.fst).Nodup) (hlookup : ∀ k, map.lookup k = map'.lookup k) :
    map.Perm map' := by
  rw [List.perm_ext_iff_of_nodup h.of_map h'.of_map]
  rintro ⟨k, value⟩
  rw [mem_iff_lookup h, mem_iff_lookup h', hlookup]

/-- What is said of the values is the same in another order, if it is for the
items of each key. -/
theorem perm_map_gather (f : γ → γ') {key : α → κ} {init : α → γ} {push : γ → α → γ}
    {items items' : List α}
    (h : ∀ k, (collect init push (items.filter fun item => key item = k)).map f =
      (collect init push (items'.filter fun item => key item = k)).map f) :
    ((gather key init push items).map fun entry => f entry.2).Perm
      ((gather key init push items').map fun entry => f entry.2) := by
  have hkeys (items : List α) :
      (((gather key init push items).map (Prod.map id f)).map Prod.fst).Nodup := by
    rw [List.map_map]
    exact nodup_gather key init push items
  have hmaps : ((gather key init push items).map (Prod.map id f)).Perm
      ((gather key init push items').map (Prod.map id f)) := by
    apply perm_of_lookup (hkeys items) (hkeys items')
    intro k
    rw [lookup_map, lookup_map, lookup_gather, lookup_gather]
    exact h k
  have hvalues := hmaps.map Prod.snd
  rwa [List.map_map, List.map_map] at hvalues

end InsertionMap
