import AgentPark.Lib.Dict

/-!
# Dictionaries with distinct keys

A `Mapping` is a dictionary with its keys in the order they were set.  Its keys are distinct, so that one of
its entries is what a key has.
-/

namespace AgentPark.Lib

theorem lookup_filterMap_entries {κ β γ : Type*} [DecidableEq κ] (f : κ → β → Option γ)
    {entries : List (κ × β)} (nodup : (entries.map Prod.fst).Nodup) (key : κ) :
    (entries.filterMap fun entry => (f entry.1 entry.2).map (entry.1, ·)).lookup key =
      (entries.lookup key).bind (f key) := by
  induction entries with
  | nil => rfl
  | cons entry entries ih =>
    obtain ⟨fresh, nodup⟩ := List.nodup_cons.mp nodup
    rw [List.filterMap_cons, List.lookup_cons]
    by_cases same : key = entry.1
    · subst same
      have absent : entries.lookup entry.1 = none := by
        rw [List.lookup_eq_none_iff]
        intro later mem
        have apart : entry.1 ≠ later.1 := fun isKey => fresh (isKey ▸ List.mem_map_of_mem mem)
        simpa using apart
      have rest := ih nodup
      rw [absent, Option.bind_none] at rest
      rw [beq_self_eq_true]
      cases kept : f entry.1 entry.2 with
      | none =>
        rw [Option.map_none]
        exact rest.trans kept.symm
      | some value =>
        rw [Option.map_some]
        exact List.lookup_cons_self.trans kept.symm
    · rw [beq_false_of_ne same]
      cases f entry.1 entry.2 with
      | none => exact ih nodup
      | some value =>
        rw [Option.map_some, List.lookup_cons, beq_false_of_ne same]
        exact ih nodup

structure Mapping (κ β : Type*) where
  entries : List (κ × β)
  nodup : (entries.map Prod.fst).Nodup
deriving DecidableEq

namespace Mapping

variable {κ β γ : Type*}

/-- `{}` -/
def empty : Mapping κ β := ⟨[], List.nodup_nil⟩

/-- `list(m)` -/
def keys (m : Mapping κ β) : List κ := m.entries.map Prod.fst

/-- `not m` -/
def isEmpty (m : Mapping κ β) : Bool := m.entries.isEmpty

variable [DecidableEq κ]

/-- `m.get(key)` -/
def get? (m : Mapping κ β) (key : κ) : Option β := m.entries.lookup key

/-- `m[key] = value` -/
def set (m : Mapping κ β) (key : κ) (value : β) : Mapping κ β :=
  ⟨dictSet m.entries key value, nodup_dictSet m.nodup key value⟩

/-- `m.pop(key, None)` -/
def erase (m : Mapping κ β) (key : κ) : Mapping κ β :=
  ⟨dictErase m.entries key, nodup_dictErase m.nodup key⟩

/-- `{key: … for key, value in m.items() if …}` -/
def filterMap (f : κ → β → Option γ) (m : Mapping κ β) : Mapping κ γ where
  entries := m.entries.filterMap fun entry => (f entry.1 entry.2).map (entry.1, ·)
  nodup := by
    refine m.nodup.sublist (keys_filterMap_sublist ?_ m.entries)
    intro entry new isNew
    obtain ⟨_, _, rfl⟩ := Option.map_eq_some_iff.mp isNew
    rfl

/-- `dict(pairs)` -/
def ofPairs (pairs : List (κ × β)) : Mapping κ β :=
  pairs.foldl (fun m pair => m.set pair.1 pair.2) empty

theorem get?_empty (key : κ) : (empty : Mapping κ β).get? key = none := rfl

/-- What setting a key changes. -/
theorem get?_set (m : Mapping κ β) (key other : κ) (value : β) :
    (m.set key value).get? other = if other = key then some value else m.get? other :=
  lookup_dictSet m.entries key other value

/-- What taking out a key changes. -/
theorem get?_erase (m : Mapping κ β) (key other : κ) :
    (m.erase key).get? other = if other = key then none else m.get? other :=
  lookup_dictErase m.entries key other

/-- What a change of the values leaves. -/
theorem get?_filterMap (f : κ → β → Option γ) (m : Mapping κ β) (key : κ) :
    (m.filterMap f).get? key = (m.get? key).bind (f key) :=
  lookup_filterMap_entries f m.nodup key

theorem mem_keys {m : Mapping κ β} {key : κ} : key ∈ m.keys ↔ (m.get? key).isSome := by
  rw [get?, List.lookup_isSome_iff, keys, List.mem_map]
  constructor
  · intro ⟨entry, mem, same⟩
    exact ⟨entry, mem, by rw [same, beq_self_eq_true]⟩
  · intro ⟨entry, mem, same⟩
    exact ⟨entry, mem, (eq_of_beq same).symm⟩

theorem isEmpty_iff {m : Mapping κ β} : m.isEmpty = true ↔ ∀ key, m.get? key = none := by
  rw [isEmpty, List.isEmpty_iff]
  constructor
  · intro isNil key
    rw [get?, isNil]
    rfl
  · intro absent
    cases entries : m.entries with
    | nil => rfl
    | cons entry rest =>
      have found := absent entry.1
      rw [get?, entries, List.lookup_cons_self] at found
      cases found

theorem isEmpty_set (m : Mapping κ β) (key : κ) (value : β) : (m.set key value).isEmpty = false := by
  rw [Bool.eq_false_iff, Ne, isEmpty_iff]
  intro absent
  have found := absent key
  rw [get?_set, if_pos rfl] at found
  cases found

/-- A loop over the entries that writes each into a state: what is observed at a place is the entry's with
the place's key, or what was there before. -/
theorem get?_foldl {σ ι δ : Type*} (step : σ → κ → β → σ) (observe : σ → ι → Option δ) (key : ι → κ)
    (written : β → ι → Option δ)
    (isStep : ∀ s k v i, observe (step s k v) i =
      if key i = k then (written v i).or (observe s i) else observe s i)
    (m : Mapping κ β) (s : σ) (i : ι) :
    observe (m.entries.foldl (fun s entry => step s entry.1 entry.2) s) i =
      ((m.get? (key i)).bind fun v => written v i).or (observe s i) := by
  obtain ⟨entries, nodup⟩ := m
  unfold get?
  dsimp only
  induction entries generalizing s with
  | nil => rfl
  | cons entry entries ih =>
    obtain ⟨fresh, nodup⟩ := List.nodup_cons.mp nodup
    rw [List.foldl_cons, ih _ nodup, isStep, List.lookup_cons]
    by_cases same : key i = entry.1
    · have absent : entries.lookup (key i) = none := by
        rw [List.lookup_eq_none_iff]
        intro later mem
        have apart : key i ≠ later.1 := fun isKey => fresh (same ▸ isKey ▸ List.mem_map_of_mem mem)
        simpa using apart
      rw [absent, Option.bind_none, Option.none_or, if_pos same, same, beq_self_eq_true,
        Option.bind_some]
    · rw [if_neg same, beq_false_of_ne same]

theorem get?_ofPairs_entries (m : Mapping κ β) (key : κ) : (ofPairs m.entries).get? key = m.get? key := by
  have loop := get?_foldl (fun m key value => m.set key value) get? id (fun value _ => some value) (by
    intro s k v i
    rw [get?_set, id, Option.some_or]) m empty key
  rw [ofPairs, loop, get?_empty, Option.or_none]
  exact Option.bind_fun_some _

theorem get?_of_mem {m : Mapping κ β} {key : κ} {value : β} (mem : (key, value) ∈ m.entries) :
    m.get? key = some value := lookup_of_mem m.nodup mem

end Mapping

end AgentPark.Lib
