import AgentPark.Memory.Archive
import Mathlib.Data.List.Induction
import Mathlib.Data.List.Perm.Subperm

/-!
# The history of a node, without its files

What the append transactions are for: a node has a history, a sequence of records.  The newest of
them are active; the others were archived under a date, each where the rotation met it.
-/

namespace AgentPark.Memory

open Lib

/-- The archived records with their dates, in the order they were archived, and the active ones. -/
structure History where
  archived : List (String × Record) := []
  active : List Record := []

/-- All records in the order they were appended. -/
def History.records (h : History) : List Record := h.archived.map Prod.snd ++ h.active

/-- The archive boundary among some active records. -/
def archiveBoundary (maxEntries : Nat) (active : List Record) : Nat :=
  archiveEndForCompleteTurns active.length (userStarts 0 active) maxEntries

/-- Archive the records in front of a boundary. -/
def History.rotate (a : Ambient) (n : Nat) (h : History) : History where
  archived := h.archived ++ (h.active.take n).map fun r => (recordDate a r, r)
  active := h.active.drop n

/-- Append a record and archive what lies in front of the boundary. -/
def History.append (a : Ambient) (maxEntries : Nat) (h : History) (r : Record) : History :=
  { h with active := h.active ++ [r] }.rotate a (archiveBoundary maxEntries (h.active ++ [r]))

@[simp] theorem History.rotate_records (a : Ambient) (n : Nat) (h : History) :
    (h.rotate a n).records = h.records := by
  simp only [History.rotate, History.records, List.map_append, List.map_map, List.append_assoc]
  rw [show (Prod.snd ∘ fun r => (recordDate a r, r)) = id from rfl, List.map_id,
    List.take_append_drop]

/-- Appending a record adds it at the end of the history. -/
theorem History.append_records (a : Ambient) (maxEntries : Nat) (h : History) (r : Record) :
    (h.append a maxEntries r).records = h.records ++ [r] := by
  rw [History.append, History.rotate_records, History.records, History.records, List.append_assoc]

/-- The active records depend on the appended records alone. -/
def activeAfter (maxEntries : Nat) (appended : List Record) : List Record :=
  appended.foldl (fun active r => (active ++ [r]).drop (archiveBoundary maxEntries (active ++ [r]))) []

theorem activeAfter_concat (maxEntries : Nat) (appended : List Record) (r : Record) :
    activeAfter maxEntries (appended ++ [r]) =
      (activeAfter maxEntries appended ++ [r]).drop
        (archiveBoundary maxEntries (activeAfter maxEntries appended ++ [r])) := by
  rw [activeAfter, List.foldl_append]
  rfl

/-! ### The archives -/

/-- What `archive_records` makes of the archives for one record. -/
def storeArchived (files : List (String × List Record)) (date : String) (r : Record) :
    List (String × List Record) :=
  let file := (files.lookup date).getD []
  if r.key ≠ "" ∧ r.key ∈ recordIds file then files else dictSet files date (file ++ [r])

/-- The archives of the archived records. -/
def archiveFiles (archived : List (String × Record)) : List (String × List Record) :=
  archived.foldl (fun files entry => storeArchived files entry.1 entry.2) []

/-- The archive of a date. -/
def archiveOf (archived : List (String × Record)) (date : String) : List Record :=
  ((archiveFiles archived).lookup date).getD []

/-- No record repeats the identifier of an earlier record of its date. -/
def NoRepeat (archived : List (String × Record)) : Prop :=
  archived.Pairwise fun x y => ¬ (x.1 = y.1 ∧ y.2.key ≠ "" ∧ x.2.key = y.2.key)

@[simp] theorem archiveFiles_nil : archiveFiles [] = [] := rfl

theorem archiveFiles_concat (archived : List (String × Record)) (date : String) (r : Record) :
    archiveFiles (archived ++ [(date, r)]) = storeArchived (archiveFiles archived) date r := by
  rw [archiveFiles, List.foldl_append]
  rfl

theorem mem_recordIds {k : String} {rs : List Record} :
    k ∈ recordIds rs ↔ k ≠ "" ∧ ∃ r ∈ rs, r.key = k := by
  simp only [recordIds, List.mem_filter, List.mem_map, ne_eq, decide_not, Bool.not_eq_true',
    decide_eq_false_iff_not]
  exact and_comm

theorem archiveFiles_nodup (archived : List (String × Record)) :
    ((archiveFiles archived).map Prod.fst).Nodup := by
  induction archived using List.reverseRecOn with
  | nil => exact List.nodup_nil
  | append_singleton archived entry ih =>
    rw [archiveFiles_concat, storeArchived]
    split_ifs
    · exact ih
    · exact nodup_dictSet ih _ _

theorem archiveOf_concat (archived : List (String × Record)) (date other : String) (r : Record) :
    archiveOf (archived ++ [(date, r)]) other =
      if other = date ∧ ¬ (r.key ≠ "" ∧ r.key ∈ recordIds (archiveOf archived date)) then
        archiveOf archived date ++ [r]
      else archiveOf archived other := by
  rw [archiveOf, archiveFiles_concat, storeArchived]
  by_cases skip : r.key ≠ "" ∧ r.key ∈ recordIds (((archiveFiles archived).lookup date).getD [])
  · rw [if_pos skip, if_neg fun h => h.2 skip]
    rfl
  · rw [if_neg skip, lookup_dictSet]
    by_cases same : other = date
    · rw [if_pos same, if_pos ⟨same, skip⟩]
      rfl
    · rw [if_neg same, if_neg fun h => same h.1]
      rfl

theorem mem_recordIds_archiveOf {archived : List (String × Record)} {date k : String} :
    k ∈ recordIds (archiveOf archived date) ↔
      k ≠ "" ∧ ∃ entry ∈ archived, entry.1 = date ∧ entry.2.key = k := by
  induction archived using List.reverseRecOn with
  | nil => simp [archiveOf, recordIds]
  | append_singleton archived entry ih =>
    obtain ⟨day, r⟩ := entry
    have split : (∃ entry ∈ archived ++ [(day, r)], entry.1 = date ∧ entry.2.key = k) ↔
        (∃ entry ∈ archived, entry.1 = date ∧ entry.2.key = k) ∨ (day = date ∧ r.key = k) := by
      constructor
      · rintro ⟨entry, mem, here⟩
        rcases List.mem_append.mp mem with old | new
        · exact .inl ⟨entry, old, here⟩
        · rw [List.mem_singleton.mp new] at here
          exact .inr here
      · rintro (⟨entry, old, here⟩ | here)
        · exact ⟨entry, List.mem_append_left _ old, here⟩
        · exact ⟨(day, r), by simp, here⟩
    rw [split, archiveOf_concat]
    split_ifs with stored
    · obtain ⟨rfl, -⟩ := stored
      have append : k ∈ recordIds (archiveOf archived date ++ [r]) ↔
          k ∈ recordIds (archiveOf archived date) ∨ (k ≠ "" ∧ r.key = k) := by
        simp only [mem_recordIds, List.mem_append, List.mem_singleton]
        constructor
        · rintro ⟨notEmpty, s, old | rfl, same⟩
          · exact .inl ⟨notEmpty, s, old, same⟩
          · exact .inr ⟨notEmpty, same⟩
        · rintro (⟨notEmpty, s, old, same⟩ | ⟨notEmpty, same⟩)
          · exact ⟨notEmpty, s, .inl old, same⟩
          · exact ⟨notEmpty, r, .inr rfl, same⟩
      rw [append, ih]
      constructor
      · rintro (⟨notEmpty, old⟩ | ⟨notEmpty, same⟩)
        · exact ⟨notEmpty, .inl old⟩
        · exact ⟨notEmpty, .inr ⟨rfl, same⟩⟩
      · rintro ⟨notEmpty, old | ⟨-, same⟩⟩
        · exact .inl ⟨notEmpty, old⟩
        · exact .inr ⟨notEmpty, same⟩
    · rw [ih]
      constructor
      · rintro ⟨notEmpty, old⟩
        exact ⟨notEmpty, .inl old⟩
      · rintro ⟨notEmpty, old | ⟨rfl, rfl⟩⟩
        · exact ⟨notEmpty, old⟩
        · -- skipped: its identifier is in the archive already
          have skipped : r.key ∈ recordIds (archiveOf archived day) := by
            by_contra missing
            exact stored ⟨rfl, fun both => missing both.2⟩
          exact ih.mp skipped

theorem skipped_iff {archived : List (String × Record)} {date : String} {r : Record} :
    (r.key ≠ "" ∧ r.key ∈ recordIds (archiveOf archived date)) ↔
      ∃ entry ∈ archived, entry.1 = date ∧ r.key ≠ "" ∧ entry.2.key = r.key := by
  rw [mem_recordIds_archiveOf]
  constructor
  · rintro ⟨notEmpty, -, entry, mem, day, same⟩
    exact ⟨entry, mem, day, notEmpty, same⟩
  · rintro ⟨entry, mem, day, notEmpty, same⟩
    exact ⟨notEmpty, notEmpty, entry, mem, day, same⟩

theorem noRepeat_concat {archived : List (String × Record)} {date : String} {r : Record} :
    NoRepeat (archived ++ [(date, r)]) ↔
      NoRepeat archived ∧ ¬ (r.key ≠ "" ∧ r.key ∈ recordIds (archiveOf archived date)) := by
  rw [skipped_iff, NoRepeat, List.pairwise_append]
  constructor
  · rintro ⟨earlier, -, apart⟩
    refine ⟨earlier, ?_⟩
    rintro ⟨entry, mem, repeats⟩
    exact apart entry mem (date, r) (by simp) repeats
  · rintro ⟨earlier, fresh⟩
    refine ⟨earlier, List.pairwise_singleton _ _, fun entry mem last isLast repeats => ?_⟩
    rw [List.mem_singleton.mp isLast] at repeats
    exact fresh ⟨entry, mem, repeats⟩

theorem flatMap_dictSet_perm {files : List (String × List Record)}
    (nodup : (files.map Prod.fst).Nodup) (date : String) (r : Record) :
    List.Perm ((dictSet files date ((files.lookup date).getD [] ++ [r])).flatMap Prod.snd)
      (files.flatMap Prod.snd ++ [r]) := by
  cases found : files.lookup date with
  | none =>
    have absent : date ∉ files.map Prod.fst := by
      rw [List.lookup_eq_none_iff] at found
      intro mem
      obtain ⟨file, inFiles, same⟩ := List.mem_map.mp mem
      have := found file inFiles
      simp [same] at this
    rw [dictSet, if_neg absent, List.flatMap_append]
    simp
  | some file =>
    obtain ⟨front, back, eq, set⟩ := dictSet_of_lookup nodup found (file ++ [r])
    rw [Option.getD_some, set, eq]
    simp only [List.flatMap_append, List.flatMap_cons, List.append_assoc]
    refine List.Perm.append_left _ (List.Perm.append_left _ ?_)
    exact List.perm_append_comm

theorem archiveFiles_subperm (archived : List (String × Record)) :
    List.Subperm ((archiveFiles archived).flatMap Prod.snd) (archived.map Prod.snd) ∧
      (List.Perm ((archiveFiles archived).flatMap Prod.snd) (archived.map Prod.snd) ↔
        NoRepeat archived) := by
  induction archived using List.reverseRecOn with
  | nil => exact ⟨List.Subperm.refl _, by simp [NoRepeat]⟩
  | append_singleton archived entry ih =>
    obtain ⟨date, r⟩ := entry
    obtain ⟨sub, all⟩ := ih
    rw [archiveFiles_concat, noRepeat_concat, List.map_append, List.map_singleton]
    by_cases skip : r.key ≠ "" ∧ r.key ∈ recordIds (archiveOf archived date)
    · have same : storeArchived (archiveFiles archived) date r = archiveFiles archived :=
        if_pos skip
      rw [same]
      refine ⟨sub.trans (List.sublist_append_left _ _).subperm, fun perm => ?_, fun h => ?_⟩
      · have short := sub.length_le
        have long := perm.length_eq
        rw [List.length_append, List.length_singleton] at long
        omega
      · exact absurd skip h.2
    · have stored : List.Perm ((storeArchived (archiveFiles archived) date r).flatMap Prod.snd)
          ((archiveFiles archived).flatMap Prod.snd ++ [r]) := by
        have set : storeArchived (archiveFiles archived) date r =
            dictSet (archiveFiles archived) date (archiveOf archived date ++ [r]) := if_neg skip
        rw [set]
        exact flatMap_dictSet_perm (archiveFiles_nodup archived) date r
      refine ⟨stored.subperm.trans ((List.subperm_append_right [r]).mpr sub), ?_⟩
      rw [and_iff_left skip, ← all]
      exact ⟨fun perm => (List.perm_append_right_iff [r]).mp (stored.symm.trans perm),
        fun perm => stored.trans (perm.append_right [r])⟩

end AgentPark.Memory
