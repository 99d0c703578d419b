import AgentPark.Lib.JsonText
import Mathlib.Data.List.Sort
import Mathlib.Data.String.Basic
import Mathlib.Algebra.GroupWithZero.Nat

/-!
# JSON with sorted keys

`json.dumps(value, sort_keys=True)` writes the entries of every dictionary in the order of their
keys, so that dictionaries with the same entries have one text.
-/

namespace AgentPark.Lib

namespace Json

/-- The entries in the order of their keys. -/
def sortEntries (fields : List (String × Json)) : List (String × Json) :=
  fields.insertionSort fun left right => left.1 ≤ right.1

mutual

/-- The value with the entries of every dictionary sorted. -/
def sortKeys : Json → Json
  | .arr items => .arr (sortItems items)
  | .obj fields => .obj (sortEntries (sortFields fields))
  | v => v

def sortItems : List Json → List Json
  | [] => []
  | v :: vs => sortKeys v :: sortItems vs

def sortFields : List (String × Json) → List (String × Json)
  | [] => []
  | (key, v) :: rest => (key, sortKeys v) :: sortFields rest

end

theorem sortItems_eq (items : List Json) : sortItems items = items.map sortKeys := by
  induction items with
  | nil => rfl
  | cons v vs ih => rw [sortItems, ih, List.map_cons]

theorem sortFields_eq (fields : List (String × Json)) :
    sortFields fields = fields.map fun field => (field.1, field.2.sortKeys) := by
  induction fields with
  | nil => rfl
  | cons field rest ih =>
    obtain ⟨key, v⟩ := field
    rw [sortFields, ih, List.map_cons]

theorem sortKeys_arr (items : List Json) : (arr items).sortKeys = arr (items.map sortKeys) := by
  rw [sortKeys, sortItems_eq]

theorem perm_sortEntries (fields : List (String × Json)) : (sortEntries fields).Perm fields :=
  List.perm_insertionSort _ fields

mutual

theorem UniqueKeys.sortKeys : (v : Json) → v.UniqueKeys → v.sortKeys.UniqueKeys
  | .null, _ | .bool _, _ | .num _, _ | .str _, _ => trivial
  | .arr items, unique => by
    rw [sortKeys_arr, uniqueKeys_arr, ← sortItems_eq]
    exact UniqueKeys.sortItems items (uniqueKeys_arr.mp unique)
  | .obj fields, unique => by
    obtain ⟨nodup, values⟩ := uniqueKeys_obj.mp unique
    have perm := perm_sortEntries (Json.sortFields fields)
    have keys : (Json.sortFields fields).map Prod.fst = fields.map Prod.fst := by
      rw [sortFields_eq, List.map_map]
      rfl
    rw [Json.sortKeys, uniqueKeys_obj]
    constructor
    · rw [(perm.map Prod.fst).nodup_iff, keys]
      exact nodup
    · intro field mem
      exact UniqueKeys.sortFields fields values field (perm.mem_iff.mp mem)

theorem UniqueKeys.sortItems : (items : List Json) → (∀ v ∈ items, v.UniqueKeys) →
    ∀ v ∈ Json.sortItems items, v.UniqueKeys
  | [], _ => List.forall_mem_nil _
  | v :: vs, unique => by
    obtain ⟨first, rest⟩ := List.forall_mem_cons.mp unique
    rw [Json.sortItems, List.forall_mem_cons]
    exact ⟨UniqueKeys.sortKeys v first, UniqueKeys.sortItems vs rest⟩

theorem UniqueKeys.sortFields : (fields : List (String × Json)) →
    (∀ field ∈ fields, field.2.UniqueKeys) → ∀ field ∈ Json.sortFields fields, field.2.UniqueKeys
  | [], _ => List.forall_mem_nil _
  | (key, v) :: rest, unique => by
    obtain ⟨first, later⟩ := List.forall_mem_cons.mp unique
    rw [Json.sortFields, List.forall_mem_cons]
    exact ⟨UniqueKeys.sortKeys v first, UniqueKeys.sortFields rest later⟩

end

theorem get_sortKeys {v : Json} (unique : v.UniqueKeys) (key : String) :
    v.sortKeys.get key = (v.get key).map sortKeys := by
  cases v with
  | obj fields =>
    obtain ⟨nodup, -⟩ := uniqueKeys_obj.mp unique
    have perm := perm_sortEntries (sortFields fields)
    have keys : (sortFields fields).map Prod.fst = fields.map Prod.fst := by
      rw [sortFields_eq, List.map_map]
      rfl
    have nodupSorted : ((sortEntries (sortFields fields)).map Prod.fst).Nodup := by
      rw [(perm.map Prod.fst).nodup_iff, keys]
      exact nodup
    have same : (sortEntries (sortFields fields)).lookup key = (sortFields fields).lookup key := by
      cases found : (sortFields fields).lookup key with
      | some value => exact lookup_of_mem nodupSorted (perm.mem_iff.mpr (mem_of_lookup found))
      | none =>
        cases found' : (sortEntries (sortFields fields)).lookup key with
        | none => rfl
        | some value =>
          have mem := perm.mem_iff.mp (mem_of_lookup found')
          rw [lookup_of_mem (keys ▸ nodup) mem] at found
          cases found
    rw [sortKeys, get, same, sortFields_eq, lookup_map_value, get]
  | null => rfl
  | bool b => rfl
  | num n => rfl
  | str text => rfl
  | arr items => rfl

end Json

/-- `json.dumps(value, ensure_ascii=False, sort_keys=True, separators=(",", ":"))` -/
def dumpsSorted (v : Json) : List Char := dumpsCompact v.sortKeys

/-- Values with the same text are the same up to the order of entries. -/
theorem dumpsSorted_injective {v w : Json} (unique : v.UniqueKeys) (unique' : w.UniqueKeys)
    (same : dumpsSorted v = dumpsSorted w) : v.sortKeys = w.sortKeys := by
  have left := loads_dumpsCompact (unique.sortKeys v)
  have right := loads_dumpsCompact (unique'.sortKeys w)
  unfold dumpsSorted at same
  rw [same, right] at left
  exact (Option.some.inj left).symm

/-- The number of characters of an entry in the compact text. -/
def entryLength (field : String × Json) : Nat :=
  (dumpsString field.1.toList).length + (dumpsCompact field.2).length + 2

theorem length_dumpsFieldsWith (fields : List (String × Json)) :
    (dumpsFieldsWith [] fields).length =
      (fields.map entryLength).sum + (fields.length - 1) + 1 := by
  induction fields with
  | nil => rfl
  | cons field rest ih =>
    obtain ⟨key, v⟩ := field
    cases rest with
    | nil =>
      simp only [dumpsFieldsWith, List.nil_append, List.length_cons, List.length_append,
        List.length_nil, List.map_cons, List.map_nil, List.sum_cons, List.sum_nil, entryLength,
        dumpsCompact]
      omega
    | cons next rest =>
      simp only [dumpsFieldsWith, List.nil_append, List.length_cons, List.length_append, ih,
        List.map_cons, List.sum_cons, entryLength, dumpsCompact]
      omega

theorem length_dumpsSorted_obj (fields : List (String × Json)) :
    (dumpsSorted (.obj fields)).length =
      (fields.map fun field => entryLength (field.1, field.2.sortKeys)).sum + (fields.length - 1) + 2 := by
  have perm := Json.perm_sortEntries (Json.sortFields fields)
  rw [dumpsSorted, dumpsCompact, Json.sortKeys, dumpsWith, List.length_cons, length_dumpsFieldsWith,
    (perm.map entryLength).sum_nat, perm.length_eq, Json.sortFields_eq, List.map_map, List.length_map]
  rfl

end AgentPark.Lib
