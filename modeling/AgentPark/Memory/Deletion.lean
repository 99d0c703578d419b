import Mathlib.Data.String.Basic
import AgentPark.Lib.StableSort
import AgentPark.Memory.Archive

/-!
# Deleting records of a node's memory and bringing them back

A record or a whole turn is deleted from the files it is in, and a snapshot says what was taken out of which file.
The snapshot is brought back by sorting the records of each file by the time they were created at.

Files are lists of records; what reading and writing them does is in `Memory.Record`.
-/

namespace AgentPark.Memory

open Lib

/-- A file of messages: that of an archive directory, or the active one. -/
inductive MessagesPath where
  | archive (date : String)
  | current
deriving DecidableEq

/-- The files of messages that are there, in the order in which they are read. -/
structure MemoryFiles where
  files : List (MessagesPath × List Record)
  distinct : (files.map Prod.fst).Nodup

def MemoryFiles.records (memory : MemoryFiles) : List Record := memory.files.flatMap Prod.snd

/-- An entry of `deleted_records`. -/
structure Snapshot where
  path : MessagesPath
  records : List Record

/-! ### Deleting -/

/-- The records of the files, each with whether it is deleted; it may depend on its place among all records. -/
def markFiles (deleted : Nat → Record → Bool) :
    Nat → List (MessagesPath × List Record) → List (MessagesPath × List (Record × Bool))
  | _, [] => []
  | offset, (path, records) :: files =>
    (path, (records.zipIdx offset).map fun entry => (entry.1, deleted entry.2 entry.1)) ::
      markFiles deleted (offset + records.length) files

/-- Write the records that stay, and note what was taken out of each file. -/
def takeOut (marked : List (MessagesPath × List (Record × Bool))) :
    List (MessagesPath × List Record) × List Snapshot :=
  (marked.map fun file => (file.1, kept file.2),
    marked.filterMap fun file => if gone file.2 = [] then none else some ⟨file.1, gone file.2⟩)

def hasId (target : String) : Nat → Record → Bool := fun _ record => record.key = target

/-- `delete_node_memory_record`. -/
def deleteNodeMemoryRecord (memory : MemoryFiles) (messageId : String) :
    List (MessagesPath × List Record) × List Snapshot :=
  let target := pyStrip messageId
  if target = "" then (memory.files, []) else takeOut (markFiles (hasId target) 0 memory.files)

/-- The places of the turn that a user record begins, up to the next user record. -/
def turnBounds (records : List Record) (target : String) : Option (Nat × Nat) :=
  match records.findIdx? fun record => record.key = target with
  | none => none
  | some start =>
    match records.drop start with
    | [] => none
    | first :: later =>
      if first.isUser then some (start, start + 1 + later.findIdx Record.isUser) else none

def inTurn (bounds : Nat × Nat) : Nat → Record → Bool :=
  fun index record => bounds.1 ≤ index ∧ index < bounds.2 ∧ record.role ≠ "voice"

/-- `delete_node_memory_turn`. -/
def deleteNodeMemoryTurn (memory : MemoryFiles) (userMessageId : String) :
    List (MessagesPath × List Record) × List Snapshot :=
  let target := pyStrip userMessageId
  if target = "" then (memory.files, [])
  else
    match turnBounds memory.records target with
    | none => (memory.files, [])
    | some bounds => takeOut (markFiles (inTurn bounds) 0 memory.files)

/-! ### Bringing back -/

/-- The records of a file with what is brought back; `none` when all of it is there. -/
def restored (records additions : List Record) : Option (List Record) :=
  let additions := additions.filter fun record => record.key ∉ records.map Record.key
  if additions = [] then none else some (sortBy Record.createdAt (records ++ additions))

/-- `restore_node_memory_records`: the files are read before any of them is written. -/
def restoreNodeMemoryRecords (files : List (MessagesPath × List Record)) (snapshots : List Snapshot) :
    List (MessagesPath × List Record) :=
  let pendingWrites := snapshots.filterMap fun snapshot =>
    (restored ((files.lookup snapshot.path).getD []) snapshot.records).map fun records => (snapshot.path, records)
  pendingWrites.foldl (fun files write => dictSet files write.1 write.2) files

/-- What can be deleted at once. -/
inductive Deletion where
  | record (messageId : String)
  | turn (userMessageId : String)

def Deletion.perform (memory : MemoryFiles) : Deletion → List (MessagesPath × List Record) × List Snapshot
  | .record messageId => deleteNodeMemoryRecord memory messageId
  | .turn userMessageId => deleteNodeMemoryTurn memory userMessageId

/-- The records that a deletion takes out. -/
def Deletion.marks (memory : MemoryFiles) : Deletion → Nat → Record → Bool
  | .record messageId => if pyStrip messageId = "" then fun _ _ => false else hasId (pyStrip messageId)
  | .turn userMessageId =>
    if pyStrip userMessageId = "" then fun _ _ => false
    else
      match turnBounds memory.records (pyStrip userMessageId) with
      | none => fun _ _ => false
      | some bounds => inTurn bounds

/-- A file gets back what is taken out of it: nothing is taken out, or no record that stays has the id of one that
is taken out, the times do not go down along the file, and what is taken out is older than what stays behind it. -/
def ComesBack (marked : List (Record × Bool)) : Prop :=
  gone marked = [] ∨
    (∀ stays ∈ kept marked, ∀ leaves ∈ gone marked, stays.key ≠ leaves.key) ∧
      marked.Pairwise fun first second =>
        first.1.createdAt ≤ second.1.createdAt ∧
          (first.2 = true → second.2 = false → first.1.createdAt < second.1.createdAt)

/-! ### One file -/

section
variable {marked : List (Record × Bool)}

theorem length_kept_add_gone (marked : List (Record × Bool)) :
    (kept marked).length + (gone marked).length = marked.length := by
  rw [kept, gone, List.length_map, List.length_map]
  have both := List.length_eq_length_filter_add (l := marked) fun entry => entry.2
  omega

theorem apart_of_keys (keys : ∀ stays ∈ kept marked, ∀ leaves ∈ gone marked, stays.key ≠ leaves.key) :
    ∀ record ∈ kept marked, record ∉ gone marked :=
  fun record stays leaves => keys record stays record leaves rfl

theorem restored_iff (marked : List (Record × Bool)) :
    (gone marked = [] ∨ restored (kept marked) (gone marked) = some (marked.map Prod.fst)) ↔ ComesBack marked := by
  rw [ComesBack]
  by_cases nothing : gone marked = []
  · exact iff_of_true (.inl nothing) (.inl nothing)
  · rw [or_iff_right nothing, or_iff_right nothing, restored]
    constructor
    · intro isRestored
      split_ifs at isRestored
      have sorted := Option.some.inj isRestored
      have all : (gone marked).filter (fun record => record.key ∉ (kept marked).map Record.key) = gone marked := by
        refine List.filter_sublist.eq_of_length ?_
        have lengths := congrArg List.length sorted
        rw [(sortBy_perm Record.createdAt _).length_eq, List.length_append, List.length_map] at lengths
        have whole := length_kept_add_gone marked
        omega
      have keys : ∀ stays ∈ kept marked, ∀ leaves ∈ gone marked, stays.key ≠ leaves.key := by
        intro stays isKept leaves isGone same
        have absent := of_decide_eq_true (List.filter_eq_self.mp all leaves isGone)
        exact absent (List.mem_map.mpr ⟨stays, isKept, same⟩)
      rw [all] at sorted
      exact ⟨keys, (sortBy_unmark_iff Record.createdAt (apart_of_keys keys)).mp sorted⟩
    · rintro ⟨keys, ordered⟩
      have all : (gone marked).filter (fun record => record.key ∉ (kept marked).map Record.key) = gone marked := by
        refine List.filter_eq_self.mpr fun leaves isGone => decide_eq_true fun mem => ?_
        obtain ⟨stays, isKept, same⟩ := List.mem_map.mp mem
        exact keys stays isKept leaves isGone same
      rw [all, if_neg nothing, (sortBy_unmark_iff Record.createdAt (apart_of_keys keys)).mpr ordered]

end

/-! ### All files -/

theorem map_markFiles (deleted : Nat → Record → Bool) (offset : Nat) (files : List (MessagesPath × List Record)) :
    (markFiles deleted offset files).map (fun file => (file.1, file.2.map Prod.fst)) = files := by
  induction files generalizing offset with
  | nil => rfl
  | cons file files ih =>
    obtain ⟨path, records⟩ := file
    rw [markFiles, List.map_cons, ih, List.map_map]
    have same : (records.zipIdx offset).map (Prod.fst ∘ fun entry => (entry.1, deleted entry.2 entry.1)) = records := by
      exact List.zipIdx_map_fst offset records
    rw [same]

theorem gone_of_mem_markFiles_none {offset : Nat} {files : List (MessagesPath × List Record)}
    {file : MessagesPath × List (Record × Bool)} (mem : file ∈ markFiles (fun _ _ => false) offset files) :
    kept file.2 = file.2.map Prod.fst ∧ gone file.2 = [] := by
  induction files generalizing offset with
  | nil => cases mem
  | cons entry files ih =>
    rw [markFiles, List.mem_cons] at mem
    rcases mem with rfl | mem
    · have unmarked : ∀ item ∈ (entry.2.zipIdx offset).map fun item => (item.1, false), item.2 = false := by
        intro item mem
        obtain ⟨_, -, rfl⟩ := List.mem_map.mp mem
        rfl
      constructor
      · rw [kept, List.filter_eq_self.mpr fun item mem => by rw [unmarked item mem, Bool.not_false]]
      · rw [gone, List.map_eq_nil_iff, List.filter_eq_nil_iff]
        intro item mem
        rw [unmarked item mem]
        exact Bool.false_ne_true
    · exact ih mem

theorem takeOut_markFiles_none (files : List (MessagesPath × List Record)) :
    takeOut (markFiles (fun _ _ => false) 0 files) = (files, []) := by
  refine Prod.ext ?_ ?_
  · refine (List.map_congr_left fun file mem => ?_).trans (map_markFiles (fun _ _ => false) 0 files)
    rw [(gone_of_mem_markFiles_none mem).1]
  · refine List.filterMap_eq_nil_iff.mpr fun file mem => ?_
    rw [if_pos (gone_of_mem_markFiles_none mem).2]

theorem perform_eq (memory : MemoryFiles) (deletion : Deletion) :
    deletion.perform memory = takeOut (markFiles (deletion.marks memory) 0 memory.files) := by
  have nothing := takeOut_markFiles_none memory.files
  cases deletion with
  | record messageId =>
    rw [Deletion.perform, Deletion.marks, deleteNodeMemoryRecord]
    split_ifs with blank
    · exact nothing.symm
    · rfl
  | turn userMessageId =>
    rw [Deletion.perform, Deletion.marks, deleteNodeMemoryTurn]
    split_ifs with blank
    · exact nothing.symm
    · cases turnBounds memory.records (pyStrip userMessageId) with
      | none => exact nothing.symm
      | some bounds => rfl

/-- What is brought back of a file; nothing is written when nothing was taken out of it. -/
def comesTo (marked : List (Record × Bool)) : Option (List Record) :=
  if gone marked = [] then none else restored (kept marked) (gone marked)

theorem restore_takeOut {marked : List (MessagesPath × List (Record × Bool))}
    (distinct : (marked.map Prod.fst).Nodup) :
    restoreNodeMemoryRecords (takeOut marked).1 (takeOut marked).2 =
      marked.map fun file => (file.1, (comesTo file.2).getD (kept file.2)) := by
  have nodup : ((takeOut marked).1.map Prod.fst).Nodup := by
    rw [takeOut, List.map_map]
    exact distinct
  have writes : ((takeOut marked).2.filterMap fun snapshot =>
      (restored (((takeOut marked).1.lookup snapshot.path).getD []) snapshot.records).map
        fun records => (snapshot.path, records)) =
      marked.filterMap fun file => (comesTo file.2).map (file.1, ·) := by
    rw [show (takeOut marked).2 = marked.filterMap fun file =>
      if gone file.2 = [] then none else some ⟨file.1, gone file.2⟩ from rfl, List.filterMap_filterMap]
    refine List.filterMap_congr fun file mem => ?_
    have read : (takeOut marked).1.lookup file.1 = some (kept file.2) :=
      lookup_of_mem nodup (List.mem_map_of_mem mem)
    rw [comesTo]
    split_ifs
    · rfl
    · rw [Option.bind_some, read, Option.getD_some]
  rw [restoreNodeMemoryRecords, writes]
  exact foldl_dictSet_rows Prod.fst (fun file => kept file.2) (fun file => comesTo file.2) distinct

theorem comesTo_eq_iff (marked : List (Record × Bool)) :
    (comesTo marked).getD (kept marked) = marked.map Prod.fst ↔ ComesBack marked := by
  rw [← restored_iff, comesTo]
  split_ifs with nothing
  · refine iff_of_true ?_ (.inl nothing)
    have all : marked.filter (fun entry => !entry.2) = marked := by
      refine List.filter_eq_self.mpr fun entry mem => ?_
      rw [gone, List.map_eq_nil_iff, List.filter_eq_nil_iff] at nothing
      rw [Bool.eq_false_iff.mpr (nothing entry mem), Bool.not_false]
    rw [Option.getD_none, kept, all]
  · rw [or_iff_right nothing]
    cases isRestored : restored (kept marked) (gone marked) with
    | some records => rw [Option.getD_some, Option.some.injEq]
    | none =>
      refine iff_of_false (fun same => nothing ?_) (Option.some_ne_none _).symm
      have lengths := congrArg List.length same
      have whole := length_kept_add_gone marked
      rw [Option.getD_none, List.length_map] at lengths
      exact List.length_eq_zero_iff.mp (by omega)

theorem restore_takeOut_eq_iff {marked : List (MessagesPath × List (Record × Bool))}
    (distinct : (marked.map Prod.fst).Nodup) :
    restoreNodeMemoryRecords (takeOut marked).1 (takeOut marked).2 =
        marked.map (fun file => (file.1, file.2.map Prod.fst)) ↔
      ∀ file ∈ marked, ComesBack file.2 := by
  rw [restore_takeOut distinct, List.map_inj_left]
  refine forall₂_congr fun file _ => ?_
  rw [Prod.mk.injEq, and_iff_right rfl, comesTo_eq_iff]

theorem nodup_markFiles (memory : MemoryFiles) (deleted : Nat → Record → Bool) :
    ((markFiles deleted 0 memory.files).map Prod.fst).Nodup := by
  have paths := memory.distinct
  rw [← map_markFiles deleted 0 memory.files, List.map_map] at paths
  exact paths

/-- Bringing a deletion back undoes it exactly when every file gets back what was taken out of it. -/
theorem restore_delete_iff (memory : MemoryFiles) (deletion : Deletion) :
    restoreNodeMemoryRecords (deletion.perform memory).1 (deletion.perform memory).2 = memory.files ↔
      ∀ file ∈ markFiles (deletion.marks memory) 0 memory.files, ComesBack file.2 := by
  rw [perform_eq, ← restore_takeOut_eq_iff (nodup_markFiles memory _), map_markFiles]

/-- Two records of one time in the active file. -/
def twoOfOneTime : MemoryFiles where
  files := [(.current,
    [⟨"m", "agent", [], "now", "", by decide, by decide, by decide, by decide, pyStrip_empty⟩,
      ⟨"n", "agent", [], "now", "", by decide, by decide, by decide, by decide, pyStrip_empty⟩])]
  distinct := by decide

/-- The first of two records of one time comes back behind the other. -/
theorem restore_delete_swaps : ¬ ∀ (memory : MemoryFiles) (deletion : Deletion),
    restoreNodeMemoryRecords (deletion.perform memory).1 (deletion.perform memory).2 = memory.files := by
  intro exactly
  have undone := exactly twoOfOneTime (.record "m")
  rw [perform_eq] at undone
  nth_rewrite 3 [← map_markFiles ((Deletion.record "m").marks twoOfOneTime) 0 twoOfOneTime.files] at undone
  rw [restore_takeOut_eq_iff (nodup_markFiles twoOfOneTime _)] at undone
  rcases undone _ List.mem_cons_self with nothing | ⟨-, ordered⟩
  · exact absurd nothing (by decide)
  · have first := (List.pairwise_cons.mp ordered).1 _ List.mem_cons_self
    exact lt_irrefl _ (first.2 (by decide) (by decide))

end AgentPark.Memory
