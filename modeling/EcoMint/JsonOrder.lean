import EcoMint.Json
import Mathlib.Data.List.Lex
import Mathlib.Data.List.Perm.Basic

/-!
# JSON values up to the order of their keys

Two values are the same up to order when one is the other with the properties of
its objects, at any depth, in another order.  Sorting the properties of every
object by their keys, as UTF-16 code units, picks one value of every such class:
if no object has a key twice, two values are the same up to order exactly when
they are equal once sorted, and then they have the same text.
-/

namespace Json

/-! ## The order of keys -/

/-- The UTF-16 code units of a character. -/
def charUnits (c : Char) : List Nat :=
  if c.toNat < 0x10000 then [c.toNat]
  else [0xd800 + (c.toNat - 0x10000) / 0x400, 0xdc00 + (c.toNat - 0x10000) % 0x400]

/-- The code units of a text, by which the keys are ordered. -/
def codeUnits (s : String) : List Nat := s.toList.flatMap charUnits

/-- The order in which strings are sorted by default. -/
def keyLe (s s' : String) : Bool := decide (codeUnits s ≤ codeUnits s')

theorem flatMap_charUnits_inj {cs cs' : List Char}
    (h : cs.flatMap charUnits = cs'.flatMap charUnits) : cs = cs' := by
  induction cs generalizing cs' with
  | nil =>
      cases cs' with
      | nil => rfl
      | cons c' rest' =>
          rw [List.flatMap_nil, List.flatMap_cons, charUnits] at h
          split at h <;> cases h
  | cons c rest ih =>
      cases cs' with
      | nil =>
          rw [List.flatMap_nil, List.flatMap_cons, charUnits] at h
          split at h <;> cases h
      | cons c' rest' =>
          rw [List.flatMap_cons, List.flatMap_cons, charUnits, charUnits] at h
          have hvalid : c.toNat < 0xd800 ∨ 0xdfff < c.toNat ∧ c.toNat < 0x110000 := c.valid
          have hvalid' : c'.toNat < 0xd800 ∨ 0xdfff < c'.toNat ∧ c'.toNat < 0x110000 := c'.valid
          -- a first unit in the surrogate range tells the long form from the short one
          have hboth : c.toNat = c'.toNat ∧ rest.flatMap charUnits = rest'.flatMap charUnits := by
            split at h
            · split at h
              · exact List.cons.inj h
              · have hunit := (List.cons.inj h).1
                omega
            · split at h
              · have hunit := (List.cons.inj h).1
                omega
              · obtain ⟨hhigh, htail⟩ := List.cons.inj h
                obtain ⟨hlow, hrest⟩ := List.cons.inj htail
                exact ⟨by omega, hrest⟩
          rw [Char.toNat_inj.mp hboth.1, ih hboth.2]

theorem codeUnits_inj {s s' : String} (h : codeUnits s = codeUnits s') : s = s' :=
  String.toList_inj.mp (flatMap_charUnits_inj h)

/-- The order of keys is transitive. -/
theorem keyLe_trans {s s' s'' : String} (h : keyLe s s' = true) (h' : keyLe s' s'' = true) :
    keyLe s s'' = true := by
  simp only [keyLe, decide_eq_true_eq] at h h' ⊢
  exact le_trans h h'

/-- Of two keys one comes first. -/
theorem keyLe_total (s s' : String) : (keyLe s s' || keyLe s' s) = true := by
  simp only [keyLe, Bool.or_eq_true, decide_eq_true_eq]
  exact le_total _ _

/-- Keys that come before each other are one. -/
theorem keyLe_antisymm {s s' : String} (h : keyLe s s' = true) (h' : keyLe s' s = true) :
    s = s' := by
  simp only [keyLe, decide_eq_true_eq] at h h'
  exact codeUnits_inj (le_antisymm h h')

/-- Properties by their keys. -/
def sortByKey {α : Type} (fields : List (String × α)) : List (String × α) :=
  fields.mergeSort fun field field' => keyLe field.1 field'.1

/-- Sorting keeps the fields. -/
theorem sortByKey_perm {α : Type} (fields : List (String × α)) :
    (sortByKey fields).Perm fields := List.mergeSort_perm _ _

/-- Sorting by key leaves the values out of account. -/
theorem map_sortByKey {α β : Type} (f : α → β) (fields : List (String × α)) :
    (sortByKey fields).map (fun field => (field.1, f field.2)) =
      sortByKey (fields.map fun field => (field.1, f field.2)) := by
  apply List.map_mergeSort
  intro field _ field' _
  rfl

/-- Sorting forgets the order, if no key is there twice. -/
theorem sortByKey_eq_of_perm {α : Type} {fields fields' : List (String × α)}
    (hperm : fields.Perm fields') (hnodup : (fields.map Prod.fst).Nodup) :
    sortByKey fields = sortByKey fields' := by
  have hsorted (l : List (String × α)) :
      (sortByKey l).Pairwise fun field field' => keyLe field.1 field'.1 = true := by
    apply List.pairwise_mergeSort
    · intro _ _ _ h h'
      exact keyLe_trans h h'
    · intro _ _
      exact keyLe_total _ _
  have hperm' : (sortByKey fields).Perm (sortByKey fields') :=
    (sortByKey_perm fields).trans (hperm.trans (sortByKey_perm fields').symm)
  refine List.Perm.eq_of_pairwise ?_ (hsorted fields) (hsorted fields') hperm'
  intro field field' hmem hmem' hle hle'
  have hkey := keyLe_antisymm hle hle'
  have hin := (sortByKey_perm fields).subset hmem
  have hin' := hperm.symm.subset ((sortByKey_perm fields').subset hmem')
  exact List.inj_on_of_nodup_map hnodup hin hin' hkey

/-! ## Values -/

mutual

/-- The properties of every object sorted by their keys, at any depth. -/
def sortKeys : Json → Json
  | .arr items => .arr (sortItems items)
  | .obj fields => .obj (sortByKey (sortFields fields))
  | .null => .null
  | .bool value => .bool value
  | .num value => .num value
  | .str value => .str value

/-- The items with their keys sorted. -/
def sortItems : List Json → List Json
  | [] => []
  | item :: rest => sortKeys item :: sortItems rest

/-- The values with their keys sorted. -/
def sortFields : List (String × Json) → List (String × Json)
  | [] => []
  | (key, value) :: rest => (key, sortKeys value) :: sortFields rest

end

mutual

/-- The same value up to the order of keys. -/
inductive Same : Json → Json → Prop
  | null : Same .null .null
  | bool (value : Bool) : Same (.bool value) (.bool value)
  | num (value : NumberText) : Same (.num value) (.num value)
  | str (value : String) : Same (.str value) (.str value)
  | arr {items items' : List Json} : SameItems items items' → Same (.arr items) (.arr items')
  | obj {fields middle fields' : List (String × Json)} :
      fields.Perm middle → SameFields middle fields' → Same (.obj fields) (.obj fields')

/-- Arrays with the same items, up to the order of keys in them. -/
inductive SameItems : List Json → List Json → Prop
  | nil : SameItems [] []
  | cons {item item' : Json} {rest rest' : List Json} :
      Same item item' → SameItems rest rest' → SameItems (item :: rest) (item' :: rest')

/-- Fields with the same keys, in one order, and the same values. -/
inductive SameFields : List (String × Json) → List (String × Json) → Prop
  | nil : SameFields [] []
  | cons {key : String} {value value' : Json} {rest rest' : List (String × Json)} :
      Same value value' → SameFields rest rest' →
        SameFields ((key, value) :: rest) ((key, value') :: rest')

end

mutual

/-- No object has a key twice. -/
def Distinct : Json → Prop
  | .arr items => DistinctItems items
  | .obj fields => (fields.map Prod.fst).Nodup ∧ DistinctFields fields
  | _ => True

/-- The keys of every item are distinct. -/
def DistinctItems : List Json → Prop
  | [] => True
  | item :: rest => item.Distinct ∧ DistinctItems rest

/-- The keys of every value are distinct. -/
def DistinctFields : List (String × Json) → Prop
  | [] => True
  | (_, value) :: rest => value.Distinct ∧ DistinctFields rest

end

/-- Sorting within fields is sorting within each value. -/
theorem sortFields_eq (fields : List (String × Json)) :
    sortFields fields = fields.map fun field => (field.1, field.2.sortKeys) := by
  induction fields with
  | nil => rfl
  | cons field rest ih =>
      obtain ⟨key, value⟩ := field
      rw [sortFields, ih, List.map_cons]

/-- Distinct within fields is distinct within each value. -/
theorem distinctFields_iff (fields : List (String × Json)) :
    DistinctFields fields ↔ ∀ field ∈ fields, field.2.Distinct := by
  induction fields with
  | nil => simp [DistinctFields]
  | cons field rest ih =>
      obtain ⟨key, value⟩ := field
      rw [DistinctFields, ih, List.forall_mem_cons]

/-- Same fields have the same keys. -/
theorem SameFields.keys {fields fields' : List (String × Json)} (h : SameFields fields fields') :
    fields.map Prod.fst = fields'.map Prod.fst := by
  match h with
  | .nil => rfl
  | .cons _ hrest => rw [List.map_cons, List.map_cons, hrest.keys]

mutual

/-- Values that are the same up to order are equal once sorted. -/
theorem Same.sortKeys_eq : ∀ {j j' : Json}, Same j j' → j.Distinct → j.sortKeys = j'.sortKeys
  | _, _, .null, _ => rfl
  | _, _, .bool _, _ => rfl
  | _, _, .num _, _ => rfl
  | _, _, .str _, _ => rfl
  | _, _, .arr hitems, h => by
      rw [sortKeys, sortKeys, hitems.sortItems_eq h]
  | _, _, @Same.obj fields middle _ hperm hfields, h => by
      have hmiddle : DistinctFields middle := by
        rw [distinctFields_iff]
        intro field hfield
        exact (distinctFields_iff fields).mp h.2 field (hperm.symm.subset hfield)
      have hsorted : sortByKey (sortFields fields) = sortByKey (sortFields middle) := by
        rw [sortFields_eq, sortFields_eq]
        apply sortByKey_eq_of_perm (hperm.map _)
        rw [List.map_map]
        exact h.1
      rw [sortKeys, sortKeys, hsorted, hfields.sortFields_eq hmiddle]

/-- Same items are sorted to one array. -/
theorem SameItems.sortItems_eq : ∀ {items items' : List Json}, SameItems items items' →
    DistinctItems items → sortItems items = sortItems items'
  | _, _, .nil, _ => rfl
  | _, _, .cons hitem hrest, h => by
      rw [sortItems, sortItems, hitem.sortKeys_eq h.1, hrest.sortItems_eq h.2]

/-- Same fields are sorted to one list. -/
theorem SameFields.sortFields_eq : ∀ {fields fields' : List (String × Json)},
    SameFields fields fields' → DistinctFields fields → sortFields fields = sortFields fields'
  | _, _, .nil, _ => rfl
  | _, _, .cons hvalue hrest, h => by
      rw [sortFields, sortFields, hvalue.sortKeys_eq h.1, hrest.sortFields_eq h.2]

end

/-- Lists of properties whose values are the same one by one. -/
theorem sameFields_of_map {fields fields' : List (String × Json)}
    (hvalue : ∀ field ∈ fields, ∀ j, field.2.sortKeys = sortKeys j → Same field.2 j)
    (h : sortFields fields = sortFields fields') : SameFields fields fields' := by
  induction fields generalizing fields' with
  | nil =>
      cases fields' with
      | nil => exact .nil
      | cons field' rest' =>
          obtain ⟨key', value'⟩ := field'
          cases h
  | cons field rest ih =>
      obtain ⟨key, value⟩ := field
      cases fields' with
      | nil => cases h
      | cons field' rest' =>
          obtain ⟨key', value'⟩ := field'
          rw [sortFields, sortFields] at h
          obtain ⟨hfield, hrest⟩ := List.cons.inj h
          obtain ⟨rfl, hsorted⟩ := Prod.mk.inj hfield
          apply SameFields.cons
          · exact hvalue (key, value) (List.mem_cons_self ..) value' hsorted
          · exact ih (fun field hfield => hvalue field (List.mem_cons_of_mem _ hfield)) hrest

mutual

/-- Values that are equal once sorted are the same up to order. -/
theorem same_of_sortKeys_eq : ∀ j j' : Json, j.sortKeys = j'.sortKeys → Same j j'
  | .null, j', h => by
      cases j' with
      | null => exact .null
      | bool | num | str | arr | obj => cases h
  | .bool value, j', h => by
      cases j' with
      | bool value' =>
          cases h
          exact .bool value
      | null | num | str | arr | obj => cases h
  | .num value, j', h => by
      cases j' with
      | num value' =>
          cases h
          exact .num value
      | null | bool | str | arr | obj => cases h
  | .str value, j', h => by
      cases j' with
      | str value' =>
          cases h
          exact .str value
      | null | bool | num | arr | obj => cases h
  | .arr items, j', h => by
      cases j' with
      | arr items' => exact .arr (sameItems_of_sortItems_eq items items' (Json.arr.inj h))
      | null | bool | num | str | obj => cases h
  | .obj fields, j', h => by
      cases j' with
      | obj fields' =>
          have hperm : (sortFields fields').Perm (sortFields fields) := by
            have hsorted : sortByKey (sortFields fields) = sortByKey (sortFields fields') :=
              Json.obj.inj h
            exact (sortByKey_perm _).symm.trans (hsorted ▸ sortByKey_perm _)
          -- the permutation of the sorted properties is one of the properties themselves
          obtain ⟨middle, hmiddle, hperm'⟩ : ∃ middle, sortFields fields' = sortFields middle ∧
              middle.Perm fields := by
            rw [sortFields_eq fields] at hperm
            have hcomp := congrFun₂ (List.eq_map_comp_perm
              fun field : String × Json => (field.1, field.2.sortKeys)) (sortFields fields') fields
            obtain ⟨middle, hmap, hperm'⟩ := hcomp.mpr hperm
            exact ⟨middle, by rw [hmap, sortFields_eq middle], hperm'⟩
          apply Same.obj hperm'.symm
          apply sameFields_of_map
          · intro field hfield
            exact same_of_field_sortKeys_eq fields field (hperm'.subset hfield)
          · exact hmiddle.symm
      | null | bool | num | str | arr => cases h

/-- What is sorted to one array was the same. -/
theorem sameItems_of_sortItems_eq : ∀ items items' : List Json,
    sortItems items = sortItems items' → SameItems items items'
  | [], items', h => by
      cases items' with
      | nil => exact .nil
      | cons item' rest' => cases h
  | item :: rest, items', h => by
      cases items' with
      | nil => cases h
      | cons item' rest' =>
          rw [sortItems, sortItems] at h
          obtain ⟨hitem, hrest⟩ := List.cons.inj h
          exact .cons (same_of_sortKeys_eq item item' hitem)
            (sameItems_of_sortItems_eq rest rest' hrest)

/-- What is sorted to one value was the same. -/
theorem same_of_field_sortKeys_eq : ∀ fields : List (String × Json), ∀ field ∈ fields, ∀ j : Json,
    field.2.sortKeys = j.sortKeys → Same field.2 j
  | (key, value) :: rest, field, hfield, j, h => by
      rcases List.mem_cons.mp hfield with rfl | hrest
      · exact same_of_sortKeys_eq value j h
      · exact same_of_field_sortKeys_eq rest field hrest j h

end

/-- **Sorting picks one value** of those that are the same up to order. -/
theorem sortKeys_eq_iff {j j' : Json} (h : j.Distinct) :
    j.sortKeys = j'.sortKeys ↔ Same j j' :=
  ⟨same_of_sortKeys_eq j j', fun hsame => hsame.sortKeys_eq h⟩

/-! ## Properties of objects -/

/-- A field is found under its key. -/
theorem lookup_of_mem {α : Type} {fields : List (String × α)}
    (hnodup : (fields.map Prod.fst).Nodup) {field : String × α} (h : field ∈ fields) :
    fields.lookup field.1 = some field.2 := by
  induction fields with
  | nil => cases h
  | cons first rest ih =>
      obtain ⟨key, value⟩ := first
      obtain ⟨hfresh, hnodup'⟩ := List.nodup_cons.mp hnodup
      rcases List.mem_cons.mp h with rfl | hrest
      · simp
      · have hne : field.1 ≠ key := by
          intro heq
          exact hfresh (List.mem_map.mpr ⟨field, hrest, heq⟩)
        rw [List.lookup_cons, beq_eq_false_iff_ne.mpr hne]
        exact ih hnodup' hrest

/-- The order of the fields does not matter to what is found. -/
theorem lookup_of_perm {α : Type} {fields fields' : List (String × α)} (hperm : fields.Perm fields')
    (hnodup : (fields.map Prod.fst).Nodup) (key : String) :
    fields.lookup key = fields'.lookup key := by
  induction hperm with
  | nil => rfl
  | cons field hperm ih =>
      obtain ⟨key', value⟩ := field
      rw [List.lookup_cons, List.lookup_cons, ih (List.nodup_cons.mp hnodup).2]
  | swap field field' rest =>
      obtain ⟨key', value⟩ := field
      obtain ⟨key'', value'⟩ := field'
      have hne : key'' ≠ key' := by
        intro heq
        simp [heq] at hnodup
      simp only [List.lookup_cons]
      rcases Bool.eq_false_or_eq_true (key == key'') with hkey | hkey
      · rcases Bool.eq_false_or_eq_true (key == key') with hkey' | hkey'
        · exact absurd ((beq_iff_eq.mp hkey).symm.trans (beq_iff_eq.mp hkey')) hne
        · simp [hkey, hkey']
      · rcases Bool.eq_false_or_eq_true (key == key') with hkey' | hkey' <;> simp [hkey, hkey']
  | trans hperm hperm' ih ih' =>
      exact (ih hnodup).trans (ih' ((hperm.map _).nodup_iff.mp hnodup))

/-- In same fields the same value is found. -/
theorem SameFields.lookup {fields fields' : List (String × Json)} (h : SameFields fields fields')
    {key : String} {value : Json} (hlookup : fields.lookup key = some value) :
    ∃ value', fields'.lookup key = some value' ∧ Same value value' := by
  match h with
  | .nil => cases hlookup
  | @SameFields.cons key' _ value' _ _ hvalue hrest =>
      rw [List.lookup_cons] at hlookup
      cases hkey : key == key' with
      | true =>
          rw [hkey] at hlookup
          obtain rfl := Option.some.inj hlookup
          exact ⟨value', by rw [List.lookup_cons, hkey], hvalue⟩
      | false =>
          rw [hkey] at hlookup
          obtain ⟨found, hfound, hsame⟩ := hrest.lookup hlookup
          exact ⟨found, by rw [List.lookup_cons, hkey, hfound], hsame⟩

/-- Objects that are the same have the same keys. -/
theorem Same.keys_perm {fields fields' : List (String × Json)}
    (h : Same (.obj fields) (.obj fields')) :
    (fields.map Prod.fst).Perm (fields'.map Prod.fst) := by
  cases h with
  | obj hperm hfields =>
      rw [← hfields.keys]
      exact hperm.map _

/-- Objects that are the same up to order have the same value under every key. -/
theorem Same.lookup {fields : List (String × Json)} {j : Json} (h : Same (.obj fields) j)
    (hnodup : (fields.map Prod.fst).Nodup) :
    ∃ fields', j = .obj fields' ∧ ∀ key value, fields.lookup key = some value →
      ∃ value', fields'.lookup key = some value' ∧ Same value value' := by
  cases h with
  | @obj _ middle fields' hperm hfields =>
      refine ⟨fields', rfl, fun key value hvalue => ?_⟩
      rw [lookup_of_perm hperm hnodup key] at hvalue
      exact hfields.lookup hvalue

mutual

theorem Same.refl : ∀ j : Json, Same j j
  | .null => .null
  | .bool value => .bool value
  | .num value => .num value
  | .str value => .str value
  | .arr items => .arr (SameItems.refl items)
  | .obj fields => .obj (List.Perm.refl fields) (SameFields.refl fields)

theorem SameItems.refl : ∀ items : List Json, SameItems items items
  | [] => .nil
  | item :: rest => .cons (Same.refl item) (SameItems.refl rest)

theorem SameFields.refl : ∀ fields : List (String × Json), SameFields fields fields
  | [] => .nil
  | (_, value) :: rest => .cons (Same.refl value) (SameFields.refl rest)

end

/-! ## Texts -/

/-- The rest of an array, item by item. -/
theorem closeArray_eq (items : List Json) :
    closeArray items = (items.map fun item => ',' :: write item).flatten ++ [']'] := by
  induction items with
  | nil => rfl
  | cons item rest ih => rw [closeArray, ih, List.map_cons, List.flatten_cons]; simp

/-- The rest of an object, field by field. -/
theorem closeObject_eq (fields : List (String × Json)) :
    closeObject fields =
      (fields.map fun field => ',' :: (quote field.1 ++ ':' :: write field.2)).flatten ++
        ['\x7d'] := by
  induction fields with
  | nil => rfl
  | cons field rest ih =>
      obtain ⟨key, value⟩ := field
      rw [closeObject, ih, List.map_cons, List.flatten_cons]
      simp

/-- Joining with commas is putting one before each text but the first. -/
theorem intercalate_cons_comma (text : List Char) (texts : List (List Char)) :
    [','].intercalate (text :: texts) = text ++ (texts.map fun t => ',' :: t).flatten := by
  induction texts generalizing text with
  | nil => simp [List.intercalate]
  | cons text' rest ih =>
      rw [List.intercalate_cons_cons, ih, List.map_cons, List.flatten_cons]
      simp

/-- The text of an array: the texts of its items with commas between them. -/
theorem write_arr (items : List Json) :
    write (.arr items) = '[' :: ([','].intercalate (items.map write) ++ [']']) := by
  cases items with
  | nil => rfl
  | cons item rest =>
      rw [write, closeArray_eq, List.map_cons, intercalate_cons_comma, List.map_map,
        List.append_assoc]
      rfl

/-- The text of an object: its properties with commas between them. -/
theorem write_obj (fields : List (String × Json)) :
    write (.obj fields) = '\x7b' ::
      ([','].intercalate (fields.map fun field => quote field.1 ++ ':' :: write field.2) ++
        ['\x7d']) := by
  cases fields with
  | nil => rfl
  | cons field rest =>
      obtain ⟨key, value⟩ := field
      rw [write, closeObject_eq, List.map_cons, intercalate_cons_comma, List.map_map]
      simp [Function.comp_def]

end Json
