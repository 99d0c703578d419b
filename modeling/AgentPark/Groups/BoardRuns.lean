import AgentPark.Groups.Board

/-!
# The task boards under every sequence of operations

`BoardOk` is the state of the task board of a group: dependencies without a cycle, work that starts
when its dependencies are done, evidence, owners that are members.  The undo of a deletion writes
tasks back as they were, also when a dependency has been reopened meanwhile.  `boards_ok_iff` says
that this is the only way to break a board, `restore_before_dependency` is a run that does it.
-/

namespace AgentPark.Groups

open Lib

/-- The task board of a group that is not dissolved. -/
structure BoardOk (group : AgentGroup) : Prop where
  acyclic : ∀ id, ¬ Relation.TransGen (DependsOn group.tasks) id id
  closed : ∀ task ∈ group.tasks, ∀ dep ∈ task.dependencies, dep ∈ group.tasks.map GroupTask.id
  owner : ∀ task ∈ group.tasks, task.Started → task.ownerId ≠ none
  waits : ∀ task ∈ group.tasks, task.Started → ∀ item ∈ group.tasks,
    item.id ∈ task.dependencies → item.status = .done
  evidence : ∀ task ∈ group.tasks, task.status = .done → pyStrip task.evidence ≠ ""
  members : ∀ task ∈ group.tasks, task.status ≠ .done → ∀ owner, task.ownerId = some owner →
    owner ∈ group.memberIds

/-- The boards of the active groups. -/
def BoardsOk (db : GroupStore) : Prop :=
  ∀ group ∈ db.groups, group.dissolved = false → BoardOk group

theorem Board.boardOk {group : AgentGroup} (board : Board group.tasks)
    (owned : OwnedBy (· ≠ "") group) : BoardOk group where
  acyclic := fun id cycle => board.acyclic.transGen.irrefl.irrefl id cycle
  closed := board.closed
  owner := board.owner
  waits := board.waits
  evidence := board.evidence
  members := by
    intro task mem unfinished owner isOwner
    apply owned task mem unfinished owner isOwner
    intro unnamed
    rw [unnamed] at isOwner
    exact board.named task mem isOwner

/-! ### What becomes of single tasks -/

/-- The tasks of a group later: each is there, and has its dependencies until its revision grows. -/
def Evolves (tasks tasks' : List GroupTask) : Prop :=
  ∀ task ∈ tasks, ∃ after ∈ tasks', after.id = task.id ∧ task.revision ≤ after.revision ∧
    (after.revision = task.revision → after.dependencies = task.dependencies)

theorem evolves_refl (tasks : List GroupTask) : Evolves tasks tasks :=
  fun task mem => ⟨task, mem, rfl, Nat.le_refl _, fun _ => rfl⟩

theorem Evolves.trans {first second third : List GroupTask} (left : Evolves first second)
    (right : Evolves second third) : Evolves first third := by
  intro task mem
  obtain ⟨mid, inSecond, sameId, grows, same⟩ := left task mem
  obtain ⟨after, inThird, sameIdToo, growsToo, sameToo⟩ := right mid inSecond
  refine ⟨after, inThird, sameIdToo.trans sameId, Nat.le_trans grows growsToo, fun stays => ?_⟩
  have midStays : mid.revision = task.revision := by omega
  have lastStays : after.revision = mid.revision := by omega
  exact (sameToo lastStays).trans (same midStays)

theorem evolves_map {tasks : List GroupTask} {f : GroupTask → GroupTask}
    (changes : ∀ task ∈ tasks, (f task).id = task.id ∧ task.revision ≤ (f task).revision ∧
      ((f task).revision = task.revision → (f task).dependencies = task.dependencies)) :
    Evolves tasks (tasks.map f) :=
  fun task mem => ⟨f task, List.mem_map_of_mem mem, changes task mem⟩

section Documents

variable {c : Caller} {db : GroupStore} {framed : Option String} {group after : AgentGroup}

theorem tasks_without (nodeId now : String) : (group.without nodeId now).tasks =
    group.tasks.map fun task => if task.heldBy nodeId then task.release now else task := rfl

theorem Board.without (board : Board group.tasks) (nodeId now : String) :
    Board (group.without nodeId now).tasks := by
  rw [tasks_without]
  have cases (task : GroupTask) : (if task.heldBy nodeId then task.release now else task) = task ∨
      task.heldBy nodeId = true ∧
        (if task.heldBy nodeId then task.release now else task) = task.release now := by
    by_cases held : task.heldBy nodeId = true
    · exact .inr ⟨held, if_pos held⟩
    · exact .inl (if_neg held)
  apply board.map
  · intro task _
    rcases cases task with same | ⟨-, same⟩
    · rw [same]
    · rw [same]
      rfl
  · intro task _
    rcases cases task with same | ⟨-, same⟩
    · rw [same]
    · rw [same]
      rfl
  · intro task _ isDone
    rcases cases task with same | ⟨held, -⟩
    · rw [same]
      exact isDone
    · rw [GroupTask.heldBy, isDone] at held
      simp at held
  · intro task mem isDone
    rcases cases task with same | ⟨-, same⟩
    · rw [same] at isDone ⊢
      exact board.evidence task mem isDone
    · rw [same] at isDone
      cases isDone
  · intro task mem started
    rcases cases task with same | ⟨-, same⟩
    · rw [same] at started ⊢
      exact board.owner task mem started
    · rw [same] at started
      rcases started with absurd | absurd
      · cases absurd
      · cases absurd
  · intro task mem started
    rcases cases task with same | ⟨-, same⟩
    · rw [same] at started
      exact board.waits task mem started
    · rw [same] at started
      rcases started with absurd | absurd
      · cases absurd
      · cases absurd
  · intro task mem
    rcases cases task with same | ⟨-, same⟩
    · rw [same]
      exact board.named task mem
    · rw [same]
      intro found
      cases found

theorem Board.addTask (board : Board group.tasks) {task : GroupTask}
    (fresh : task.id ∉ group.tasks.map GroupTask.id) (named : task.ownerId ≠ some "")
    (valid : Valid group.tasks task) : Board (group.tasks ++ [task]) := by
  apply board.update valid named
  · rw [List.map_append, List.map_singleton]
    exact List.nodup_append_comm.mp (List.nodup_cons.mpr ⟨fresh, board.ids⟩)
  · intro item mem
    rcases List.mem_append.mp mem with old | new
    · exact .inl ⟨old, fun same => fresh (same ▸ List.mem_map_of_mem old)⟩
    · rw [List.mem_singleton.mp new]
      exact .inr ⟨rfl, rfl, rfl, rfl, rfl⟩
  · exact fun item mem _ => List.mem_append_left _ mem
  · exact ⟨task, List.mem_append_right _ (List.mem_singleton_self _), rfl⟩
  · intro item mem _ _ isDep
    exact absurd (board.closed item mem _ isDep) fresh

theorem Board.replaceTask (board : Board group.tasks) {current candidate : GroupTask} {now : String}
    (found : group.tasks.find? (fun item => item.id = candidate.id) = some current)
    (named : candidate.ownerId ≠ some "" ∨ candidate.ownerId = current.ownerId)
    (valid : Valid group.tasks candidate)
    (reopened : current.status = .done → candidate.status ≠ .done →
      ∀ item ∈ group.tasks, candidate.id ∈ item.dependencies →
        item.status ≠ .inProgress ∧ item.status ≠ .done) :
    Board (group.replaceTask { candidate with
      revision := candidate.revision + 1, updatedAt := now }).tasks := by
  have mem := List.mem_of_find?_eq_some found
  have sameId : current.id = candidate.id := by
    have holds := List.find?_some found
    exact of_decide_eq_true holds
  apply board.update valid
  · rcases named with isNamed | same
    · exact isNamed
    · rw [same]
      exact board.named current mem
  · rw [AgentGroup.replaceTask, map_updateWhere_of_mem]
    · exact board.ids
    · intro item _ same
      exact (of_decide_eq_true same).symm
  · intro item isItem
    rcases mem_updateWhere_cases isItem with ⟨old, other⟩ | ⟨_, -, -, rfl⟩
    · exact .inl ⟨old, of_decide_eq_false other⟩
    · exact .inr ⟨rfl, rfl, rfl, rfl, rfl⟩
  · exact fun item isItem other => mem_updateWhere_of_neg isItem (decide_eq_false other)
  · refine ⟨_, mem_updateWhere_of_pos mem (decide_eq_true sameId), rfl⟩
  · intro item isItem _ started isDep
    rw [← sameId] at isDep
    have wasDone := board.waits item isItem started current mem isDep
    by_contra isOpen
    rw [sameId] at isDep
    obtain ⟨notBegun, notDone⟩ := reopened wasDone isOpen item isItem isDep
    rcases started with begun | isDone
    · exact notBegun begun
    · exact notDone isDone

theorem Edit.board (edit : Edit db framed group after) (board : Board group.tasks) :
    Board after.tasks := by
  cases edit with
  | without nodeId now => exact board.without nodeId now
  | addTask task isNew fresh named valid =>
    exact board.addTask fresh named (validateTask_eq_ok valid)
  | replaceTask current candidate now found revision named valid reopened =>
    exact board.replaceTask found named (validateTask_eq_ok valid) reopened
  | _ => exact board

theorem Edit.evolves (edit : Edit db framed group after) (board : Board group.tasks) :
    Evolves group.tasks after.tasks := by
  cases edit with
  | without nodeId now =>
    rw [tasks_without]
    apply evolves_map
    intro task _
    split_ifs
    · exact ⟨rfl, Nat.le_succ _, fun _ => rfl⟩
    · exact ⟨rfl, Nat.le_refl _, fun _ => rfl⟩
  | addTask task => exact fun old mem =>
    ⟨old, List.mem_append_left _ mem, rfl, Nat.le_refl _, fun _ => rfl⟩
  | replaceTask current candidate now found revision named valid reopened =>
    have isThere := List.find?_some found
    have sameId : current.id = candidate.id := of_decide_eq_true isThere
    apply evolves_map
    intro task mem
    split_ifs with here
    · have isCurrent : task = current := by
        apply List.inj_on_of_nodup_map board.ids mem (List.mem_of_find?_eq_some found)
        exact (of_decide_eq_true here).trans sameId.symm
      rw [isCurrent]
      refine ⟨sameId.symm, ?_, fun same => ?_⟩
      · change current.revision ≤ candidate.revision + 1
        omega
      · change candidate.revision + 1 = current.revision at same
        omega
    · exact ⟨rfl, Nat.le_refl _, fun _ => rfl⟩
  | _ => exact evolves_refl _

theorem Edits.board (edits : Edits db framed group after) (board : Board group.tasks) :
    Board after.tasks ∧ Evolves group.tasks after.tasks := by
  induction edits with
  | refl => exact ⟨board, evolves_refl _⟩
  | tail _ edit ih => exact ⟨edit.board ih.1, ih.2.trans (edit.evolves ih.1)⟩

theorem Board.rename (board : Board group.tasks) {old new now : String} (named : new ≠ "") :
    Board (group.rename old new now).tasks ∧
      Evolves group.tasks (group.rename old new now).tasks := by
  obtain ⟨-, -, -, f, tasks, renamed⟩ := AgentGroup.rename_eq old new now group
  rw [tasks]
  constructor
  · apply board.map
    · exact fun task _ => (renamed task).id
    · exact fun task _ => (renamed task).dependencies
    · exact fun task _ isDone => (renamed task).status.trans isDone
    · intro task mem isDone
      rw [(renamed task).evidence]
      exact board.evidence task mem ((renamed task).status.symm.trans isDone)
    · intro task mem started
      rw [(renamed task).owner, ne_eq, Option.map_eq_none_iff]
      rw [GroupTask.Started, (renamed task).status] at started
      exact board.owner task mem started
    · intro task mem started
      rw [GroupTask.Started, (renamed task).status] at started
      exact board.waits task mem started
    · intro task mem
      rw [(renamed task).owner]
      intro unnamed
      obtain ⟨owner, isOwner, same⟩ := Option.map_eq_some_iff.mp unnamed
      rw [renameId] at same
      split_ifs at same
      · exact named same
      · rw [same] at isOwner
        exact board.named task mem isOwner
  · apply evolves_map
    exact fun task _ => ⟨(renamed task).id, (renamed task).revision,
      fun _ => (renamed task).dependencies⟩

theorem board_imported {existing : List AgentGroup} {value : GroupFields}
    (boards : ∀ group ∈ existing, Board group.tasks) :
    Board (savedGroup c existing value).tasks := by
  rw [savedGroup_tasks]
  cases found : findRow AgentGroup.id value.id existing with
  | none => exact board_nil
  | some old => exact boards old (findRow_eq_some found).1

end Documents

/-! ### Restored tasks -/

section Restore

variable {c : Caller} {db : GroupStore} {group : AgentGroup} {saved : DeletedMember} {now : String}

/-- What a restoration makes of a task. -/
def restoreOne (now : String) (originals : List GroupTask) (task : GroupTask) : GroupTask :=
  originals.foldl (fun task original =>
    if task.id = original.id then original.restored now else task) task

theorem restoreTasks_eq_map (originals tasks : List GroupTask) :
    restoreTasks now originals tasks = tasks.map (restoreOne now originals) := by
  induction originals generalizing tasks with
  | nil => exact (List.map_id tasks).symm
  | cons original originals ih =>
    rw [restoreTasks, List.foldl_cons]
    change restoreTasks now originals (updateWhere _ _ tasks) = _
    rw [ih, updateWhere, List.map_map]
    apply List.map_congr_left
    intro task _
    simp [restoreOne]

theorem restoreOne_of_notMem {originals : List GroupTask} {task : GroupTask}
    (other : task.id ∉ originals.map GroupTask.id) : restoreOne now originals task = task := by
  induction originals with
  | nil => rfl
  | cons original originals ih =>
    rw [List.map_cons, List.mem_cons, not_or] at other
    rw [restoreOne, List.foldl_cons, if_neg other.1]
    exact ih other.2

theorem restoreOne_of_mem {originals : List GroupTask} {task original : GroupTask}
    (ids : (originals.map GroupTask.id).Nodup) (mem : original ∈ originals)
    (same : task.id = original.id) : restoreOne now originals task = original.restored now := by
  induction originals generalizing task with
  | nil => cases mem
  | cons first originals ih =>
    obtain ⟨absent, ids⟩ := List.nodup_cons.mp ids
    rw [restoreOne, List.foldl_cons]
    rcases List.mem_cons.mp mem with rfl | mem
    · rw [if_pos same]
      exact restoreOne_of_notMem absent
    · have other : task.id ≠ first.id := by
        rw [same]
        exact fun clash => absent (clash ▸ List.mem_map_of_mem mem)
      rw [if_neg other]
      exact ih ids mem same

/-- What is known of a snapshot as long as it is kept: its tasks are in the group, and those that are
not changed since the departure have their dependencies. -/
structure Behind (db : GroupStore) (saved : DeletedMember) : Prop where
  ids : (saved.tasks.map GroupTask.id).Nodup
  named : ∀ original ∈ saved.tasks, original.ownerId ≠ some ""
  group : ∃ group ∈ db.groups, group.id = saved.groupId ∧ ∀ original ∈ saved.tasks,
    ∃ task ∈ group.tasks, task.id = original.id ∧ original.revision + 1 ≤ task.revision ∧
      (task.revision = original.revision + 1 → task.dependencies = original.dependencies)

/-- The tasks that were released and not changed since. -/
structure Released (group : AgentGroup) (saved : DeletedMember) : Prop where
  snapshot : Snapshot saved
  ids : (saved.tasks.map GroupTask.id).Nodup
  named : ∀ original ∈ saved.tasks, original.ownerId ≠ some ""
  tasks : ∀ original ∈ saved.tasks, ∃ task ∈ group.tasks, task.id = original.id ∧
    task.revision = original.revision + 1 ∧ task.status = .blocked ∧
      task.dependencies = original.dependencies

theorem Behind.released (behind : Behind db saved) (snapshot : Snapshot saved)
    (board : Board group.tasks) (mem : group ∈ db.groups) (sameId : group.id = saved.groupId)
    (checked : ∀ original ∈ saved.tasks, (group.taskById original.id).any fun current =>
      current.releasedFrom original) : Released group saved := by
  refine ⟨snapshot, behind.ids, behind.named, fun original isOriginal => ?_⟩
  obtain ⟨other, inGroups, isGroup, tasks⟩ := behind.group
  obtain rfl := List.inj_on_of_nodup_map db.groupIds mem inGroups (sameId.trans isGroup.symm)
  obtain ⟨task, isThere, isTask, -, stays⟩ := tasks original isOriginal
  obtain ⟨current, found, unchanged⟩ := (Option.any_eq_true _ _).mp (checked original isOriginal)
  have inTasks : current ∈ group.tasks := List.mem_reverse.mp (List.mem_of_find?_eq_some found)
  have isCurrent : current.id = original.id := by
    have holds := List.find?_some found
    exact of_decide_eq_true holds
  obtain rfl := List.inj_on_of_nodup_map board.ids isThere inTasks (isTask.trans isCurrent.symm)
  rw [GroupTask.releasedFrom, Bool.and_eq_true, Bool.and_eq_true, decide_eq_true_eq,
    decide_eq_true_eq, decide_eq_true_eq] at unchanged
  exact ⟨task, isThere, isTask, unchanged.1.1, unchanged.2, stays unchanged.1.1⟩

/-- Work in progress is taken up again where its dependencies are done. -/
def Resumes (group : AgentGroup) (saved : DeletedMember) : Prop :=
  ∀ original ∈ saved.tasks, original.status = .inProgress → ∀ item ∈ group.tasks,
    item.id ∈ original.dependencies → item.status = .done

theorem Released.cases (released : Released group saved) (board : Board group.tasks)
    {task : GroupTask} (mem : task ∈ group.tasks) :
    restoreOne now saved.tasks task = task ∨ ∃ original ∈ saved.tasks, task.id = original.id ∧
      restoreOne now saved.tasks task = original.restored now ∧ task.status = .blocked ∧
        task.revision = original.revision + 1 ∧ task.dependencies = original.dependencies := by
  by_cases isSaved : task.id ∈ saved.tasks.map GroupTask.id
  · obtain ⟨original, isOriginal, sameId⟩ := List.mem_map.mp isSaved
    obtain ⟨current, inTasks, isCurrent, revision, blocked, deps⟩ :=
      released.tasks original isOriginal
    obtain rfl := List.inj_on_of_nodup_map board.ids mem inTasks (sameId.symm.trans isCurrent.symm)
    exact .inr ⟨original, isOriginal, sameId.symm,
      restoreOne_of_mem released.ids isOriginal sameId.symm, blocked, revision, deps⟩
  · exact .inl (restoreOne_of_notMem isSaved)

theorem tasks_returned : (group.returned c saved).tasks =
    group.tasks.map (restoreOne c.now saved.tasks) := restoreTasks_eq_map _ _

theorem Released.evolves (released : Released group saved) (board : Board group.tasks) :
    Evolves group.tasks (group.returned c saved).tasks := by
  rw [tasks_returned]
  apply evolves_map
  intro task mem
  rcases released.cases board mem with same | ⟨original, -, sameId, same, -, revision, deps⟩
  · rw [same]
    exact ⟨rfl, Nat.le_refl _, fun _ => rfl⟩
  · rw [same]
    refine ⟨sameId.symm, ?_, fun _ => deps.symm⟩
    change task.revision ≤ original.revision + 2
    omega

theorem Board.returned (board : Board group.tasks) (released : Released group saved)
    (resumes : Resumes group saved) : Board (group.returned c saved).tasks := by
  rw [tasks_returned]
  apply board.map
  · intro task mem
    rcases released.cases board mem with same | ⟨original, -, sameId, same, -⟩
    · rw [same]
    · rw [same]
      exact sameId.symm
  · intro task mem
    rcases released.cases board mem with same | ⟨original, -, -, same, -, -, deps⟩
    · rw [same]
    · rw [same]
      exact deps.symm
  · intro task mem isDone
    rcases released.cases board mem with same | ⟨original, -, -, -, blocked, -⟩
    · rw [same]
      exact isDone
    · rw [blocked] at isDone
      cases isDone
  · intro task mem isDone
    rcases released.cases board mem with same | ⟨original, isOriginal, -, same, -⟩
    · rw [same] at isDone ⊢
      exact board.evidence task mem isDone
    · rw [same] at isDone
      exact absurd isDone (released.snapshot original isOriginal).2
  · intro task mem started
    rcases released.cases board mem with same | ⟨original, isOriginal, -, same, -⟩
    · rw [same] at started ⊢
      exact board.owner task mem started
    · rw [same]
      change original.ownerId ≠ none
      rw [(released.snapshot original isOriginal).1]
      exact nofun
  · intro task mem started
    rcases released.cases board mem with same | ⟨original, isOriginal, -, same, -, -, deps⟩
    · rw [same] at started
      exact board.waits task mem started
    · rw [same] at started
      rw [deps]
      rcases started with begun | isDone
      · exact resumes original isOriginal begun
      · exact absurd isDone (released.snapshot original isOriginal).2
  · intro task mem
    rcases released.cases board mem with same | ⟨original, isOriginal, -, same, -⟩
    · rw [same]
      exact board.named task mem
    · rw [same]
      exact released.named original isOriginal

theorem BoardOk.resumes (ok : BoardOk (group.returned c saved)) (board : Board group.tasks)
    (released : Released group saved) : Resumes group saved := by
  intro original isOriginal begun item mem isDep
  obtain ⟨task, inTasks, isTask, -⟩ := released.tasks original isOriginal
  have written : original.restored c.now ∈ (group.returned c saved).tasks := by
    rw [tasks_returned, ← restoreOne_of_mem released.ids isOriginal isTask]
    exact List.mem_map_of_mem inTasks
  have isThere : restoreOne c.now saved.tasks item ∈ (group.returned c saved).tasks := by
    rw [tasks_returned]
    exact List.mem_map_of_mem mem
  have either : restoreOne c.now saved.tasks item = item ∨ _ := released.cases board mem
  rcases either with same | ⟨other, isOther, sameId, same, -⟩
  · rw [same] at isThere
    exact ok.waits _ written (.inl begun) item isThere isDep
  · rw [same] at isThere
    rw [sameId] at isDep
    have isDone := ok.waits _ written (.inl begun) _ isThere isDep
    exact absurd isDone (released.snapshot other isOther).2

end Restore

/-! ### Whole runs -/

section Runs

variable {s s' : GroupSystem} {op : GroupOp}

/-- What every reachable state has. -/
structure BoardInv (s : GroupSystem) : Prop where
  boards : ∀ group ∈ s.dir.store.groups, Board group.tasks
  owned : OwnersOk s.dir.store
  sound : PlansSound s
  snapshots : SnapshotsOk s
  behind : ∀ node ∈ s.deleted, ∀ saved, node.member = some saved → Behind s.dir.store saved

theorem boardInv_start (config : Option Json) (nodes : List (String × Json)) :
    BoardInv (GroupSystem.start config nodes) where
  boards := fun _ mem => nomatch mem
  owned := fun _ mem => nomatch mem
  sound := plansSound_start config nodes
  snapshots := fun _ mem => nomatch mem
  behind := fun _ mem => nomatch mem

theorem BoardInv.boardsOk (inv : BoardInv s) : BoardsOk s.dir.store :=
  fun group mem on => (inv.boards group mem).boardOk (inv.owned group mem on)

/-- A restoration that goes through resumes work only where its dependencies are done. -/
def RestoresResume (s : GroupSystem) (op : GroupOp) : Prop :=
  ∀ c index node saved group, op = .restoreNode c index → s.deleted[index]? = some node →
    node.member = some saved → RestoreRuns s node saved group → Resumes group saved

theorem RestoreRuns.restored {c : Caller} {node : DeletedNode} {saved : DeletedMember}
    {group : AgentGroup} (runs : RestoreRuns s node saved group)
    (isSaved : node.member = some saved) :
    group.returned c saved ∈ (s.restore c node).dir.store.groups := by
  obtain ⟨absent, read, outside, released⟩ := runs
  obtain ⟨mid, inserted⟩ := s.dir.store.insertMember_of_fresh group.id
    (memberGroup_eq_none.mp outside)
  have done : ∃ store, restoreDeletedMember c s.dir.store saved = .ok store ∧
      group.returned c saved ∈ store.groups := by
    refine ⟨_, bind_eq_ok.mpr ⟨group, read, require_bind_eq_ok.mpr ⟨outside,
      require_bind_eq_ok.mpr ⟨released, bind_eq_ok.mpr ⟨mid, inserted, rfl⟩⟩⟩⟩, ?_⟩
    exact mem_upsert_self
  obtain ⟨store, isDone, mem⟩ := done
  rw [GroupSystem.restore, if_neg absent, isSaved]
  simp only [isDone]
  exact mem

theorem BoardInv.released (inv : BoardInv s) {index : Nat} {node : DeletedNode}
    {saved : DeletedMember} {group : AgentGroup} (isDeleted : s.deleted[index]? = some node)
    (isSaved : node.member = some saved) (runs : RestoreRuns s node saved group) :
    Released group saved := by
  have isNode := List.mem_of_getElem? isDeleted
  have isRead := read_eq_ok runs.read
  exact (inv.behind node isNode saved isSaved).released (inv.snapshots node isNode saved isSaved)
    (inv.boards group isRead.mem) isRead.mem isRead.id_eq runs.released

theorem Origin.board {after : AgentGroup} (origin : Origin s op after) (inv : BoardInv s)
    (resume : RestoresResume s op) : Board after.tasks := by
  cases origin with
  | edited traced =>
    obtain ⟨old, mem, -, edits⟩ := traced
    exact (edits.board (inv.boards old mem)).1
  | created fresh => exact board_nil
  | @returned c index node saved group isDeleted isSaved runs =>
    have released := inv.released isDeleted isSaved runs
    exact (inv.boards group (read_eq_ok runs.read).mem).returned released
      (resume c index node saved group rfl isDeleted isSaved runs)
  | renamed named mem => exact ((inv.boards _ mem).rename named.2).1
  | imported isPlan inPlan owners => exact board_imported inv.boards

theorem Origin.evolves {before after : AgentGroup} (origin : Origin s op after) (inv : BoardInv s)
    (mem : before ∈ s.dir.store.groups) (sameId : after.id = before.id) :
    Evolves before.tasks after.tasks := by
  have unique {group : AgentGroup} (inGroups : group ∈ s.dir.store.groups)
      (same : group.id = before.id) : group = before :=
    List.inj_on_of_nodup_map s.dir.store.groupIds inGroups mem same
  cases origin with
  | edited traced =>
    obtain ⟨old, inGroups, isOld, edits⟩ := traced
    rw [unique inGroups (isOld.trans sameId)] at edits
    exact (edits.board (inv.boards before mem)).2
  | created fresh => exact absurd (List.mem_map.mpr ⟨before, mem, sameId.symm⟩) fresh
  | @returned c index node saved group isDeleted isSaved runs =>
    have same : group = before := unique (read_eq_ok runs.read).mem sameId
    subst same
    exact (inv.released isDeleted isSaved runs).evolves (inv.boards group mem)
  | @renamed c old new group named inGroups =>
    rw [AgentGroup.rename_id] at sameId
    rw [unique inGroups sameId]
    exact ((inv.boards before mem).rename named.2).2
  | @imported c index plan value isPlan inPlan owners =>
    rw [savedGroup_id] at sameId
    have found : findRow AgentGroup.id value.id s.dir.store.groups = some before := by
      rw [sameId]
      exact findRow_of_mem s.dir.store.groupIds mem
    rw [savedGroup_tasks, found]
    exact evolves_refl _

/-- What is known of a snapshot is known of it behind every step. -/
theorem Behind.step {saved : DeletedMember} (behind : Behind s.dir.store saved) (inv : BoardInv s)
    (stepped : s.step op = some s') : Behind s'.dir.store saved := by
  refine ⟨behind.ids, behind.named, ?_⟩
  obtain ⟨group, mem, isGroup, tasks⟩ := behind.group
  obtain ⟨origins, kept⟩ := step_origin inv.sound stepped
  obtain ⟨after, inAfter, sameId⟩ := List.mem_map.mp (kept (List.mem_map_of_mem mem))
  refine ⟨after, inAfter, sameId.trans isGroup, fun original isOriginal => ?_⟩
  obtain ⟨task, inTasks, isTask, grows, stays⟩ := tasks original isOriginal
  obtain ⟨later, isLater, sameTask, growsToo, staysToo⟩ :=
    (origins after inAfter).evolves inv mem sameId task inTasks
  refine ⟨later, isLater, sameTask.trans isTask, Nat.le_trans grows growsToo, fun still => ?_⟩
  have first : task.revision = original.revision + 1 := by omega
  have second : later.revision = task.revision := by omega
  exact (staysToo second).trans (stays first)

theorem behind_of_departure {c : Caller} {db : GroupStore} {nodeId reason : String}
    {saved : DeletedMember} {result : Option DeletedMember × GroupStore}
    (boards : ∀ group ∈ db.groups, Board group.tasks)
    (done : nodeDeparture c db nodeId reason = .ok result) (isSaved : result.1 = some saved) :
    Behind result.2 saved := by
  rcases nodeDeparture_eq_ok done with ⟨-, rfl⟩ | ⟨group, member, -, isRead, -, -, rfl⟩
  · cases isSaved
  · cases isSaved
    have board := boards group isRead.mem
    refine ⟨board.ids.sublist (List.filter_sublist.map _), fun original mem =>
      board.named original (List.mem_of_mem_filter mem), ?_⟩
    refine ⟨(group.without nodeId c.now).bump c.now, mem_upsert_self, rfl, fun original mem => ?_⟩
    obtain ⟨inTasks, held⟩ := List.mem_filter.mp mem
    refine ⟨original.release c.now, ?_, rfl, Nat.le_refl _, fun _ => rfl⟩
    exact mem_updateWhere_of_pos inTasks held

/-- A step that resumes no work ahead of its dependencies keeps every board. -/
theorem BoardInv.step (inv : BoardInv s) (stepped : s.step op = some s')
    (resume : RestoresResume s op) : BoardInv s' := by
  refine ⟨?_, inv.owned.step inv.sound inv.snapshots stepped, inv.sound.step stepped,
    inv.snapshots.step stepped, ?_⟩
  · exact fun group mem => ((step_origin inv.sound stepped).1 group mem).board inv resume
  · rcases (step_grows stepped).2 with same |
      ⟨c, nodeId, reason, node, store, -, -, done, isStore, more⟩
    · rw [same]
      exact fun node mem saved isSaved => (inv.behind node mem saved isSaved).step inv stepped
    · intro other mem saved isSaved
      rw [more] at mem
      rcases List.mem_append.mp mem with old | new
      · exact (inv.behind other old saved isSaved).step inv stepped
      · rw [List.mem_singleton.mp new] at isSaved
        rw [isStore]
        exact behind_of_departure inv.boards done isSaved

theorem BoardInv.step_iff (inv : BoardInv s) (stepped : s.step op = some s') :
    BoardsOk s'.dir.store ↔ RestoresResume s op := by
  constructor
  · intro ok c index node saved group same isDeleted isSaved runs
    subst same
    obtain ⟨node', isNode, rfl⟩ := Option.map_eq_some_iff.mp stepped
    cases isDeleted.symm.trans isNode
    have isRead := read_eq_ok runs.read
    have returned := ok _ (runs.restored isSaved) isRead.active
    exact returned.resumes (inv.boards group isRead.mem) (inv.released isDeleted isSaved runs)
  · exact fun resume => (inv.step stepped resume).boardsOk

/-- The boards of the active groups are in order in every state of a run exactly when every undo of a
deletion that goes through resumes only work whose dependencies are done. -/
theorem boards_ok_iff (config : Option Json) (nodes : List (String × Json)) (ops : List GroupOp) :
    Along GroupSystem.step (fun _ _ after => BoardsOk after.dir.store)
        (GroupSystem.start config nodes) ops ↔
      Along GroupSystem.step (fun before op _ => RestoresResume before op)
        (GroupSystem.start config nodes) ops := by
  apply along_iff_of_invariant (I := BoardInv)
  · intro s op s' inv stepped
    exact inv.step_iff stepped
  · intro s op s' inv stepped resume
    exact inv.step stepped resume
  · exact boardInv_start config nodes

end Runs

/-- A task is in progress before one that it depends on is done. -/
def AgentGroup.early (group : AgentGroup) : Bool :=
  group.tasks.any fun task => task.status = .inProgress &&
    group.tasks.any fun item => item.id ∈ task.dependencies && item.status ≠ .done

theorem AgentGroup.not_boardOk_of_early {group : AgentGroup} (early : group.early = true) :
    ¬ BoardOk group := by
  intro ok
  obtain ⟨task, mem, started⟩ := List.any_eq_true.mp early
  rw [Bool.and_eq_true, decide_eq_true_eq] at started
  obtain ⟨item, inTasks, waiting⟩ := List.any_eq_true.mp started.2
  rw [Bool.and_eq_true, decide_eq_true_eq, decide_eq_true_eq] at waiting
  exact waiting.2 (ok.waits task mem (Or.inl started.1) item inTasks waiting.1)

theorem someA_ne : some "a" ≠ some "" := by decide

def pair : CreateGroup where
  name := "team"
  members := [{ nodeId := "a" }, { nodeId := "b" }]
  bounds := ⟨0, 0, 1, 1, unit_pos, unit_pos⟩
  nonempty := List.cons_ne_nil _ _
  unique := by decide

/-- Node `a` works on `u`, which depends on `t`, and is deleted.  Then `b` reopens `t`, and the
deletion is undone. -/
def reopening : List GroupOp :=
  [.command {} (.create pair false "g"),
    .command {} (.createTask {} "g" { title := "first", ownerId := some "b" } none "t"),
    .command {} (.updateTask {} "g" "t"
      { expectedRevision := 1, status := some .done, evidence := some "merged" } none),
    .command {} (.createTask {} "g"
      { title := "second", ownerId := some "a", dependencies := ["t"], named := someA_ne } none "u"),
    .command {} (.updateTask {} "g" "u" { expectedRevision := 1, status := some .inProgress } none),
    .removeNode {} "a" "deleted",
    .command {} (.updateTask {} "g" "t" { expectedRevision := 2, status := some .todo } none),
    .restoreNode {} 0]

/-- After that run the second task is in progress while the first one is open. -/
theorem restore_before_dependency :
    ∃ s, run GroupSystem.step (GroupSystem.start none [("a", .obj []), ("b", .obj [])]) reopening =
      some s ∧ ¬ BoardsOk s.dir.store := by
  have early : (run GroupSystem.step (GroupSystem.start none [("a", .obj []), ("b", .obj [])])
      reopening).any (fun s => s.dir.store.groups.any fun group =>
        !group.dissolved && group.early) = true := by
    decide +kernel
  obtain ⟨s, ran, found⟩ := (Option.any_eq_true _ _).mp early
  obtain ⟨group, mem, isEarly⟩ := List.any_eq_true.mp found
  rw [Bool.and_eq_true, Bool.not_eq_true'] at isEarly
  exact ⟨s, ran, fun ok => AgentGroup.not_boardOk_of_early isEarly.2 (ok group mem isEarly.1)⟩

end AgentPark.Groups
