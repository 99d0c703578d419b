import AgentPark.Lib.Dict

/-!
# Values grouped by a key

`appendTo` is `fields.setdefault(key, []).append(value)`, and `groupPairs` puts the values of a list of pairs
under their keys.  `flatPairs` is the other direction.
-/

namespace AgentPark.Lib

variable {κ β : Type*} [DecidableEq κ]

/-- `fields.setdefault(key, []).append(value)` -/
def appendTo (fields : List (κ × List β)) (key : κ) (value : β) : List (κ × List β) :=
  dictSet fields key ((fields.lookup key).getD [] ++ [value])

def groupPairs (pairs : List (κ × β)) : List (κ × List β) :=
  pairs.foldl (fun fields pair => appendTo fields pair.1 pair.2) []

omit [DecidableEq κ] in
def flatPairs (table : List (κ × List β)) : List (κ × β) :=
  table.flatMap fun entry => entry.2.map (entry.1, ·)

omit [DecidableEq κ] in
theorem flatPairs_cons (entry : κ × List β) (table : List (κ × List β)) :
    flatPairs (entry :: table) = entry.2.map (entry.1, ·) ++ flatPairs table := rfl

variable {done table : List (κ × List β)} {key : κ} {values : List β}

theorem appendTo_fresh (fresh : key ∉ done.map Prod.fst) (value : β) :
    appendTo done key value = done ++ [(key, [value])] := by
  have absent : done.lookup key = none := by
    rw [List.lookup_eq_none_iff]
    intro entry mem
    have other : key ≠ entry.1 := fun same => fresh (same ▸ List.mem_map_of_mem mem)
    simpa using other
  rw [appendTo, absent, dictSet, if_neg fresh, Option.getD_none, List.nil_append]

theorem appendTo_concat (fresh : key ∉ done.map Prod.fst) (value : β) :
    appendTo (done ++ [(key, values)]) key value = done ++ [(key, values ++ [value])] := by
  rw [appendTo, lookup_concat fresh, dictSet_concat fresh, Option.getD_some]

theorem foldl_appendTo_concat (fresh : key ∉ done.map Prod.fst) (more : List β) :
    (more.map (key, ·)).foldl (fun fields pair => appendTo fields pair.1 pair.2) (done ++ [(key, values)]) =
      done ++ [(key, values ++ more)] := by
  induction more generalizing values with
  | nil => rw [List.append_nil]; rfl
  | cons value more ih => rw [List.map_cons, List.foldl_cons, appendTo_concat fresh, ih, List.append_assoc]; rfl

theorem foldl_appendTo_fresh (fresh : key ∉ done.map Prod.fst) (values : List β) :
    (values.map (key, ·)).foldl (fun fields pair => appendTo fields pair.1 pair.2) done =
      done ++ [(key, values)].filter fun entry => entry.2 ≠ [] := by
  cases values with
  | nil => simp
  | cons value values =>
    rw [List.map_cons, List.foldl_cons, appendTo_fresh fresh, foldl_appendTo_concat fresh]
    simp

theorem foldl_appendTo_flatPairs (nodup : ((done ++ table).map Prod.fst).Nodup) :
    (flatPairs table).foldl (fun fields pair => appendTo fields pair.1 pair.2) done =
      done ++ table.filter fun entry => entry.2 ≠ [] := by
  induction table generalizing done with
  | nil => rw [List.filter_nil, List.append_nil]; rfl
  | cons entry table ih =>
    have fresh : entry.1 ∉ done.map Prod.fst := by
      intro old
      rw [List.map_append, List.map_cons] at nodup
      exact (List.nodup_append.mp nodup).2.2 _ old _ List.mem_cons_self rfl
    have rest : ((done ++ [entry].filter (fun entry => entry.2 ≠ []) ++ table).map Prod.fst).Nodup := by
      refine nodup.sublist (List.Sublist.map _ ?_)
      rw [List.append_cons done entry table]
      exact (List.filter_sublist.append_left done).append_right table
    rw [flatPairs_cons, List.foldl_append, foldl_appendTo_fresh fresh, ih rest,
      List.append_assoc, ← List.filter_append, List.singleton_append]

/-- A table that is taken apart and grouped again loses the keys that have no value. -/
theorem groupPairs_flatPairs (nodup : (table.map Prod.fst).Nodup) :
    groupPairs (flatPairs table) = table.filter fun entry => entry.2 ≠ [] := by
  have start : (([] ++ table).map Prod.fst).Nodup := nodup
  exact foldl_appendTo_flatPairs start

omit [DecidableEq κ] in
/-- Keys without a value are not seen in the pairs. -/
theorem flatPairs_filter (table : List (κ × List β)) :
    flatPairs (table.filter fun entry => entry.2 ≠ []) = flatPairs table := by
  induction table with
  | nil => rfl
  | cons entry table ih =>
    rw [List.filter_cons]
    split_ifs with used
    · rw [flatPairs_cons, ih, flatPairs_cons]
    · have empty : entry.2 = [] := by simpa using used
      rw [ih, flatPairs_cons, empty, List.map_nil, List.nil_append]

end AgentPark.Lib
