import Mathlib.Data.List.Nodup
import Mathlib.Data.Bool.Basic

/-!
# Dictionaries as lists of entries

A dictionary of the source language keeps its entries in insertion order.  Here it is the list of its
entries; `List.lookup` reads a key and `dictSet` sets one.
-/

namespace AgentPark.Lib

section
variable {κ β : Type*} [BEq κ] [LawfulBEq κ]

/-- What is looked up is an entry. -/
theorem mem_of_lookup {fields : List (κ × β)} {key : κ} {value : β}
    (found : fields.lookup key = some value) : (key, value) ∈ fields := by
  obtain ⟨front, back, rfl, -⟩ := List.lookup_eq_some_iff.mp found
  exact List.mem_append_right _ List.mem_cons_self

/-- With distinct keys an entry is what is looked up. -/
theorem lookup_of_mem {fields : List (κ × β)} {key : κ} {value : β}
    (nodup : (fields.map Prod.fst).Nodup) (mem : (key, value) ∈ fields) :
    fields.lookup key = some value := by
  cases found : fields.lookup key with
  | none =>
    have absent := List.lookup_eq_none_iff.mp found _ mem
    simp at absent
  | some other =>
    have same := List.inj_on_of_nodup_map nodup (mem_of_lookup found) mem rfl
    rw [(Prod.mk.inj same).2]

end

variable {κ β : Type*} [DecidableEq κ]

/-- Set a key of a dictionary: the entry keeps its place when the key is there. -/
def dictSet (fields : List (κ × β)) (key : κ) (value : β) : List (κ × β) :=
  if key ∈ fields.map Prod.fst then
    fields.map fun entry => if entry.1 = key then (key, value) else entry
  else fields ++ [(key, value)]

theorem keys_dictSet (fields : List (κ × β)) (key : κ) (value : β) :
    (dictSet fields key value).map Prod.fst =
      if key ∈ fields.map Prod.fst then fields.map Prod.fst else fields.map Prod.fst ++ [key] := by
  unfold dictSet
  split_ifs with old
  · rw [List.map_map]
    refine List.map_congr_left fun field _ => ?_
    by_cases same : field.1 = key
    · simp [same]
    · simp [same]
  · rw [List.map_append, List.map_singleton]

/-- The keys stay distinct. -/
theorem nodup_dictSet {fields : List (κ × β)} (nodup : (fields.map Prod.fst).Nodup)
    (key : κ) (value : β) : ((dictSet fields key value).map Prod.fst).Nodup := by
  rw [keys_dictSet]
  split_ifs with old
  · exact nodup
  · refine List.nodup_append.mpr ⟨nodup, by simp, fun k mem l isKey same => ?_⟩
    rw [List.mem_singleton.mp isKey] at same
    exact old (same ▸ mem)

theorem forall_mem_dictSet {P : β → Prop} {fields : List (κ × β)}
    (all : ∀ f ∈ fields, P f.2) (key : κ) {value : β} (new : P value) :
    ∀ f ∈ dictSet fields key value, P f.2 := by
  unfold dictSet
  split_ifs with old
  · intro f mem
    obtain ⟨field, inFields, rfl⟩ := List.mem_map.mp mem
    by_cases same : field.1 = key
    · simpa [same] using new
    · simpa [same] using all field inFields
  · rw [List.forall_mem_append]
    exact ⟨all, by simpa using new⟩

theorem lookup_map_set (fields : List (κ × β)) (key other : κ) (value : β) :
    (fields.map fun entry => if entry.1 = key then (key, value) else entry).lookup other =
      if other = key then (fields.lookup key).map (fun _ => value) else fields.lookup other := by
  induction fields with
  | nil => simp
  | cons field fields ih =>
    rw [List.map_cons, List.lookup_cons, List.lookup_cons, List.lookup_cons, ih]
    grind

/-- What is looked up after a key was set. -/
theorem lookup_dictSet (fields : List (κ × β)) (key other : κ) (value : β) :
    (dictSet fields key value).lookup other =
      if other = key then some value else fields.lookup other := by
  unfold dictSet
  split_ifs with old same same
  · obtain ⟨v, found⟩ : ∃ v, fields.lookup key = some v := by
      rw [← Option.isSome_iff_exists, List.lookup_isSome_iff]
      grind
    rw [lookup_map_set, if_pos same, found, Option.map_some]
  · rw [lookup_map_set, if_neg same]
  · have absent : fields.lookup key = none := by
      rw [List.lookup_eq_none_iff]
      grind
    simp [List.lookup_append, same, absent]
  · have skip : (other == key) = false := beq_false_of_ne same
    rw [List.lookup_append, List.lookup_cons, skip, List.lookup_nil, Option.or_none]

omit [DecidableEq κ] in
theorem keys_filterMap_sublist {γ : Type*} {f : κ × β → Option (κ × γ)}
    (keeps : ∀ entry new, f entry = some new → new.1 = entry.1) (fields : List (κ × β)) :
    ((fields.filterMap f).map Prod.fst).Sublist (fields.map Prod.fst) := by
  induction fields with
  | nil => exact .slnil
  | cons field fields ih =>
    rw [List.map_cons, List.filterMap_cons]
    split
    · exact ih.cons _
    · rename_i new isNew
      rw [List.map_cons, keeps field new isNew]
      exact ih.cons_cons _

theorem lookup_filter_of_pos {fields : List (κ × β)} {key : κ} {value : β} {p : κ × β → Bool}
    (found : fields.lookup key = some value) (holds : p (key, value) = true) :
    (fields.filter p).lookup key = some value := by
  induction fields with
  | nil => cases found
  | cons field fields ih =>
    rw [List.lookup_cons] at found
    rw [List.filter_cons]
    grind

theorem lookup_filter {fields : List (κ × β)} (nodup : (fields.map Prod.fst).Nodup) (p : κ × β → Bool)
    (key : κ) : (fields.filter p).lookup key = (fields.lookup key).filter fun value => p (key, value) := by
  induction fields with
  | nil => rfl
  | cons field fields ih =>
    rw [List.map_cons, List.nodup_cons] at nodup
    by_cases same : key = field.1
    · subst same
      rw [List.lookup_cons_self]
      cases holds : p field with
      | true => rw [List.filter_cons_of_pos holds, List.lookup_cons_self, Option.filter_some, if_pos holds]
      | false =>
        have absent : fields.lookup field.1 = none := by
          rw [List.lookup_eq_none_iff]
          grind
        rw [List.filter_cons_of_neg (by rw [holds]; decide), ih nodup.2, absent, Option.filter_some,
          if_neg (by rw [holds]; decide)]
        rfl
    · have skip : (key == field.1) = false := beq_false_of_ne same
      rw [List.lookup_cons, skip, ← ih nodup.2, List.filter_cons]
      split
      · rw [List.lookup_cons, skip]
      · rfl

/-- Take a key out of a dictionary. -/
def dictErase (fields : List (κ × β)) (key : κ) : List (κ × β) :=
  fields.filter fun entry => entry.1 ≠ key

theorem lookup_dictErase (fields : List (κ × β)) (key other : κ) :
    (dictErase fields key).lookup other =
      if other = key then none else fields.lookup other := by
  unfold dictErase
  induction fields with
  | nil => simp
  | cons field fields ih =>
    rw [List.filter_cons, List.lookup_cons]
    grind

theorem nodup_dictErase {fields : List (κ × β)} (nodup : (fields.map Prod.fst).Nodup) (key : κ) :
    ((dictErase fields key).map Prod.fst).Nodup :=
  nodup.sublist (List.filter_sublist.map _)

/-! ### Rows by a key -/

section Rows

variable (key : β → κ) {rows : List β} {table : List (κ × β)}

theorem mem_keys_foldl_dictSet {k : κ} :
    k ∈ (rows.foldl (fun table row => dictSet table (key row) row) table).map Prod.fst ↔
      k ∈ table.map Prod.fst ∨ k ∈ rows.map key := by
  induction rows generalizing table with
  | nil => simp
  | cons row rows ih =>
    rw [List.foldl_cons, ih, keys_dictSet, List.map_cons, List.mem_cons]
    split_ifs with old
    · grind
    · rw [List.mem_append, List.mem_singleton]
      tauto

theorem lookup_foldl_dictSet_of_notMem {k : κ} (absent : k ∉ rows.map key) :
    (rows.foldl (fun table row => dictSet table (key row) row) table).lookup k =
      table.lookup k := by
  induction rows generalizing table with
  | nil => rfl
  | cons row rows ih =>
    rw [List.map_cons, List.mem_cons, not_or] at absent
    rw [List.foldl_cons, ih absent.2, lookup_dictSet, if_neg absent.1]

/-- Rows that are put into a dictionary by a key of theirs. -/
theorem lookup_foldl_dictSet_of_mem (nodup : (rows.map key).Nodup) {row : β} (mem : row ∈ rows) :
    (rows.foldl (fun table row => dictSet table (key row) row) table).lookup (key row) =
      some row := by
  induction rows generalizing table with
  | nil => cases mem
  | cons first rows ih =>
    obtain ⟨absent, nodup⟩ := List.nodup_cons.mp nodup
    rw [List.foldl_cons]
    rcases List.mem_cons.mp mem with rfl | mem
    · rw [lookup_foldl_dictSet_of_notMem key absent, lookup_dictSet, if_pos rfl]
    · exact ih nodup mem

end Rows

theorem lookup_concat {front : List (κ × β)} {key : κ} (fresh : key ∉ front.map Prod.fst)
    (value : β) : (front ++ [(key, value)]).lookup key = some value := by
  rw [List.lookup_eq_some_iff]
  refine ⟨front, [], rfl, fun entry mem => ?_⟩
  have other : key ≠ entry.1 := by
    rintro rfl
    exact fresh (List.mem_map_of_mem mem)
  simpa using other

theorem dictSet_concat {front : List (κ × β)} {key : κ} (fresh : key ∉ front.map Prod.fst)
    (old value : β) : dictSet (front ++ [(key, old)]) key value = front ++ [(key, value)] := by
  have kept : front.map (fun entry => if entry.1 = key then (key, value) else entry) = front := by
    refine (List.map_congr_left fun entry mem => ?_).trans (List.map_id front)
    have other : entry.1 ≠ key := by
      rintro rfl
      exact fresh (List.mem_map_of_mem mem)
    rw [if_neg other, id]
  rw [dictSet, if_pos (by simp), List.map_append, kept, List.map_singleton, if_pos rfl]

/-- Setting a key that is there changes that one entry. -/
theorem dictSet_of_lookup {fields : List (κ × β)} {key : κ} {old : β}
    (nodup : (fields.map Prod.fst).Nodup) (found : fields.lookup key = some old) (value : β) :
    ∃ front back, fields = front ++ (key, old) :: back ∧
      dictSet fields key value = front ++ (key, value) :: back := by
  obtain ⟨front, back, rfl, notFront⟩ := List.lookup_eq_some_iff.mp found
  have notBack : ∀ entry ∈ back, entry.1 ≠ key := by
    intro entry mem same
    rw [List.map_append, List.map_cons] at nodup
    have later := (List.nodup_cons.mp (List.nodup_append.mp nodup).2.1).1
    exact later (List.mem_map.mpr ⟨entry, mem, same⟩)
  refine ⟨front, back, rfl, ?_⟩
  rw [dictSet, if_pos (by simp), List.map_append, List.map_cons, if_pos rfl]
  congr 1
  · refine (List.map_congr_left fun entry mem => ?_).trans (List.map_id front)
    have other : entry.1 ≠ key := by
      intro same
      have := notFront entry mem
      simp [same] at this
    rw [if_neg other, id]
  · congr 1
    refine (List.map_congr_left fun entry mem => ?_).trans (List.map_id back)
    rw [if_neg (notBack entry mem), id]

theorem dictSet_cons_of_ne {first key : κ} (other : key ≠ first) (old value : β) (fields : List (κ × β)) :
    dictSet ((first, old) :: fields) key value = (first, old) :: dictSet fields key value := by
  have sameKeys : key ∈ ((first, old) :: fields).map Prod.fst ↔ key ∈ fields.map Prod.fst := by
    rw [List.map_cons, List.mem_cons, or_iff_right other]
  by_cases isThere : key ∈ fields.map Prod.fst
  · rw [dictSet, if_pos (sameKeys.mpr isThere), dictSet, if_pos isThere, List.map_cons, if_neg other.symm]
  · rw [dictSet, if_neg fun there => isThere (sameKeys.mp there), dictSet, if_neg isThere, List.cons_append]

theorem dictSet_cons_self {key : κ} {fields : List (κ × β)} (fresh : key ∉ fields.map Prod.fst) (old value : β) :
    dictSet ((key, old) :: fields) key value = (key, value) :: fields := by
  have same : fields.map (fun entry => if entry.1 = key then (key, value) else entry) = fields := by
    refine (List.map_congr_left fun entry mem => ?_).trans (List.map_id fields)
    have other : entry.1 ≠ key := by
      rintro rfl
      exact fresh (List.mem_map_of_mem mem)
    rw [if_neg other, id]
  rw [dictSet, List.map_cons, List.map_cons, if_pos List.mem_cons_self, if_pos rfl, same]

theorem foldl_dictSet_cons {first : κ} {old : β} {writes : List (κ × β)} (others : ∀ write ∈ writes, write.1 ≠ first)
    (fields : List (κ × β)) :
    writes.foldl (fun fields write => dictSet fields write.1 write.2) ((first, old) :: fields) =
      (first, old) :: writes.foldl (fun fields write => dictSet fields write.1 write.2) fields := by
  induction writes generalizing fields with
  | nil => rfl
  | cons write writes ih =>
    obtain ⟨other, others⟩ := List.forall_mem_cons.mp others
    rw [List.foldl_cons, List.foldl_cons, dictSet_cons_of_ne other, ih others]

/-- Setting some of the keys that are there. -/
theorem foldl_dictSet_rows {ρ : Type*} (key : ρ → κ) (old : ρ → β) (new : ρ → Option β) {rows : List ρ}
    (nodup : (rows.map key).Nodup) :
    (rows.filterMap fun row => (new row).map (key row, ·)).foldl (fun fields write => dictSet fields write.1 write.2)
        (rows.map fun row => (key row, old row)) =
      rows.map fun row => (key row, (new row).getD (old row)) := by
  induction rows with
  | nil => rfl
  | cons row rows ih =>
    obtain ⟨fresh, nodup⟩ := List.nodup_cons.mp nodup
    have others : ∀ write ∈ rows.filterMap fun row => (new row).map (key row, ·), write.1 ≠ key row := by
      intro write mem same
      obtain ⟨other, inRows, isWrite⟩ := List.mem_filterMap.mp mem
      obtain ⟨value, -, rfl⟩ := Option.map_eq_some_iff.mp isWrite
      exact fresh (List.mem_map.mpr ⟨other, inRows, same⟩)
    have keys : (rows.map fun row => (key row, old row)).map Prod.fst = rows.map key := by
      rw [List.map_map]
      rfl
    rw [List.filterMap_cons, List.map_cons, List.map_cons]
    cases new row with
    | none => rw [Option.map_none, foldl_dictSet_cons others, ih nodup, Option.getD_none]
    | some value =>
      rw [Option.map_some, List.foldl_cons, dictSet_cons_self (keys.symm ▸ fresh), foldl_dictSet_cons others,
        ih nodup, Option.getD_some]

theorem map_dictSet {γ : Type*} (f : β → γ) (fields : List (κ × β)) (key : κ) (value : β) :
    (dictSet fields key value).map (fun entry => (entry.1, f entry.2)) =
      dictSet (fields.map fun entry => (entry.1, f entry.2)) key (f value) := by
  have keys : (fields.map fun entry => (entry.1, f entry.2)).map Prod.fst =
      fields.map Prod.fst := by
    rw [List.map_map]
    rfl
  unfold dictSet
  rw [keys]
  split_ifs
  · rw [List.map_map, List.map_map]
    refine List.map_congr_left fun entry _ => ?_
    by_cases same : entry.1 = key
    · simp [same]
    · simp [same]
  · rw [List.map_append]
    rfl

theorem lookup_map_field {γ : Type*} (f : κ → β → γ) (fields : List (κ × β)) (key : κ) :
    (fields.map fun entry => (entry.1, f entry.1 entry.2)).lookup key =
      (fields.lookup key).map (f key) := by
  induction fields with
  | nil => rfl
  | cons entry fields ih =>
    rw [List.map_cons, List.lookup_cons, List.lookup_cons, ih]
    grind

theorem lookup_map_value {γ : Type*} (f : β → γ) (fields : List (κ × β)) (key : κ) :
    (fields.map fun entry => (entry.1, f entry.2)).lookup key = (fields.lookup key).map f :=
  lookup_map_field (fun _ => f) fields key

/-! ### Updates and defaults -/

/-- `{**fields, **updates}` -/
def dictUpdate (fields updates : List (κ × β)) : List (κ × β) :=
  updates.foldl (fun fields update => dictSet fields update.1 update.2) fields

theorem lookup_dictUpdate {updates : List (κ × β)} (nodup : (updates.map Prod.fst).Nodup)
    (fields : List (κ × β)) (key : κ) :
    (dictUpdate fields updates).lookup key = (updates.lookup key).or (fields.lookup key) := by
  induction updates generalizing fields with
  | nil => rfl
  | cons update updates ih =>
    obtain ⟨fresh, nodup⟩ := List.nodup_cons.mp nodup
    have step := ih nodup (dictSet fields update.1 update.2)
    rw [dictUpdate] at step
    rw [dictUpdate, List.foldl_cons, step, lookup_dictSet, List.lookup_cons]
    by_cases same : key = update.1
    · subst same
      have absent : updates.lookup update.1 = none := by
        rw [List.lookup_eq_none_iff]
        intro other mem
        have apart : update.1 ≠ other.1 := fun same => fresh (same ▸ List.mem_map_of_mem mem)
        simpa using apart
      rw [absent, if_pos rfl, beq_self_eq_true, Option.none_or, Option.some_or]
    · rw [if_neg same, beq_false_of_ne same]

/-- `fields.setdefault(key, value)` -/
def setDefault (fields : List (κ × β)) (key : κ) (value : β) : List (κ × β) :=
  if key ∈ fields.map Prod.fst then fields else fields ++ [(key, value)]

theorem lookup_setDefault (fields : List (κ × β)) (key other : κ) (value : β) :
    (setDefault fields key value).lookup other =
      if other = key then (fields.lookup key).or (some value) else fields.lookup other := by
  rw [setDefault]
  split_ifs with old same same
  · subst same
    obtain ⟨old, found⟩ : ∃ old, fields.lookup other = some old := by
      rw [← Option.isSome_iff_exists, List.lookup_isSome_iff]
      grind
    rw [found, Option.some_or]
  · rfl
  · subst same
    rw [List.lookup_append, List.lookup_cons, beq_self_eq_true]
  · rw [List.lookup_append, List.lookup_cons, beq_false_of_ne same, List.lookup_nil, Option.or_none]

end AgentPark.Lib
