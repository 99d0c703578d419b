import Mathlib.Data.List.Nodup

/-!
# Tables

A table of a relational store is the list of its rows, in the order of their row numbers.

Nothing here mentions a program.
-/

namespace AgentPark.Lib

variable {α κ : Type*}

/-- `UPDATE .. SET .. WHERE ..`. -/
def updateWhere (p : α → Bool) (f : α → α) (rows : List α) : List α :=
  rows.map fun row => if p row then f row else row

/-- `SELECT * .. WHERE key = ..`. -/
def findRow [DecidableEq κ] (key : α → κ) (k : κ) (rows : List α) : Option α :=
  rows.find? fun row => key row = k

/-- `EXISTS (SELECT ..)`: the rows alone decide. -/
theorem any_congr_of_mem {rows : List α} {p q : α → Bool} (same : ∀ row ∈ rows, p row = q row) :
    rows.any p = rows.any q := by
  rw [Bool.eq_iff_iff, List.any_eq_true, List.any_eq_true]
  exact exists_congr fun row => and_congr_right fun mem => by rw [same row mem]

section Update

variable {p : α → Bool} {f : α → α} {rows : List α} {row : α}

theorem mem_updateWhere :
    row ∈ updateWhere p f rows ↔ ∃ old ∈ rows, (if p old then f old else old) = row :=
  List.mem_map

theorem mem_updateWhere_cases (mem : row ∈ updateWhere p f rows) :
    (row ∈ rows ∧ p row = false) ∨ ∃ old ∈ rows, p old = true ∧ row = f old := by
  obtain ⟨old, inRows, same⟩ := mem_updateWhere.mp mem
  by_cases here : p old = true
  · rw [if_pos here] at same
    exact .inr ⟨old, inRows, here, same.symm⟩
  · rw [if_neg here] at same
    rw [← same]
    exact .inl ⟨inRows, by simpa using here⟩

theorem mem_updateWhere_of_neg (mem : row ∈ rows) (other : p row = false) :
    row ∈ updateWhere p f rows := by
  apply mem_updateWhere.mpr
  exact ⟨row, mem, by rw [other]; rfl⟩

theorem mem_updateWhere_of_pos (mem : row ∈ rows) (here : p row = true) :
    f row ∈ updateWhere p f rows := by
  apply mem_updateWhere.mpr
  exact ⟨row, mem, by rw [here]; rfl⟩

/-- An update that leaves a column alone leaves the whole column alone. -/
theorem map_updateWhere {key : α → κ} (keeps : ∀ row, key (f row) = key row) :
    (updateWhere p f rows).map key = rows.map key := by
  rw [updateWhere, List.map_map]
  apply List.map_congr_left
  intro row _
  by_cases here : p row = true
  · simp [here, keeps row]
  · simp [here]

theorem map_updateWhere_of_mem {key : α → κ}
    (keeps : ∀ row ∈ rows, p row = true → key (f row) = key row) :
    (updateWhere p f rows).map key = rows.map key := by
  rw [updateWhere, List.map_map]
  apply List.map_congr_left
  intro row mem
  by_cases here : p row = true
  · simp [here, keeps row mem here]
  · simp [here]

end Update

section Upsert

variable [DecidableEq κ] {key : α → κ} {rows : List α} {row other : α}

/-- `INSERT .. ON CONFLICT(key) DO UPDATE`: the row replaces the one with its key. -/
def upsert (key : α → κ) (row : α) (rows : List α) : List α :=
  if key row ∈ rows.map key then updateWhere (fun old => key old = key row) (fun _ => row) rows
  else rows ++ [row]

/-- Which rows are there after an upsert. -/
theorem mem_upsert :
    other ∈ upsert key row rows ↔ other = row ∨ other ∈ rows ∧ key other ≠ key row := by
  rw [upsert]
  split_ifs with known
  · obtain ⟨old, inRows, same⟩ := List.mem_map.mp known
    constructor
    · intro mem
      rcases mem_updateWhere_cases mem with ⟨isOld, differs⟩ | ⟨_, -, -, rfl⟩
      · exact .inr ⟨isOld, by simpa using differs⟩
      · exact .inl rfl
    · rintro (rfl | ⟨isOld, differs⟩)
      · exact mem_updateWhere_of_pos (f := fun _ => other) inRows (by simpa using same)
      · exact mem_updateWhere_of_neg isOld (by simpa using differs)
  · rw [List.mem_append, List.mem_singleton]
    constructor
    · rintro (isOld | rfl)
      · exact .inr ⟨isOld, fun same => known (same ▸ List.mem_map_of_mem isOld)⟩
      · exact .inl rfl
    · rintro (rfl | ⟨isOld, -⟩)
      · exact .inr rfl
      · exact .inl isOld

theorem mem_upsert_self : row ∈ upsert key row rows := mem_upsert.mpr (.inl rfl)

theorem nodup_upsert (nodup : (rows.map key).Nodup) : ((upsert key row rows).map key).Nodup := by
  rw [upsert]
  split_ifs with known
  · rw [map_updateWhere_of_mem fun old _ same => (of_decide_eq_true same).symm]
    exact nodup
  · rw [List.map_append, List.map_singleton]
    exact List.nodup_append_comm.mp (List.nodup_cons.mpr ⟨known, nodup⟩)

end Upsert

section Find

variable [DecidableEq κ] {key : α → κ} {k : κ} {rows : List α} {row : α}

theorem findRow_eq_some (found : findRow key k rows = some row) : row ∈ rows ∧ key row = k := by
  have holds := List.find?_some found
  exact ⟨List.mem_of_find?_eq_some found, by simpa using holds⟩

theorem findRow_eq_none : findRow key k rows = none ↔ k ∉ rows.map key := by
  rw [findRow, List.find?_eq_none]
  simp

theorem findRow_of_mem (nodup : (rows.map key).Nodup) (mem : row ∈ rows) :
    findRow key (key row) rows = some row := by
  cases found : findRow key (key row) rows with
  | none =>
    have absent := findRow_eq_none.mp found
    exact absurd (List.mem_map_of_mem mem) absent
  | some other =>
    obtain ⟨inRows, same⟩ := findRow_eq_some found
    rw [List.inj_on_of_nodup_map nodup inRows mem same]

theorem findRow_append (more : List α) :
    findRow key k (rows ++ more) = (findRow key k rows).or (findRow key k more) :=
  List.find?_append

end Find

end AgentPark.Lib
