import AgentPark.Groups.Origin

/-!
# Properties of single documents

`Led` and `OwnedBy` speak about one document each: the leader is a member, the owners of unfinished
tasks are members.  Every edit keeps them (`Edit.led`, `Edit.ownedBy`), so all commands do.
`taskActions_recipients` says who is notified of the change of a task.
-/

namespace AgentPark.Groups

open Lib

/-- The leader is a member, and a group with members has a leader. -/
structure Led (group : AgentGroup) : Prop where
  member : ∀ leader, group.leaderId = some leader → leader ∈ group.memberIds
  led : group.members ≠ [] → group.leaderId ≠ none

/-- The owners of unfinished tasks that meet `p` are members. -/
def OwnedBy (p : String → Prop) (group : AgentGroup) : Prop :=
  ∀ task ∈ group.tasks, task.status ≠ .done → ∀ owner, task.ownerId = some owner → p owner →
    owner ∈ group.memberIds

section Documents

variable {db : GroupStore} {framed : Option String} {group after : AgentGroup} {p : String → Prop}

/-! ### Members -/

theorem mem_memberIds_without {nodeId id : String} (now : String) :
    id ∈ (group.without nodeId now).memberIds ↔ id ∈ group.memberIds ∧ id ≠ nodeId := by
  simp only [AgentGroup.memberIds, AgentGroup.without, List.mem_map, List.mem_filter]
  grind

theorem memberIds_withMember {member : GroupMember} (isPrivate : Bool) :
    (group.withMember member isPrivate).memberIds = group.memberIds ++ [member.nodeId] := by
  rw [AgentGroup.memberIds, AgentGroup.withMember, List.map_append, List.map_singleton]
  rfl

theorem memberIds_role {nodeId role : String} :
    (updateWhere (fun member : GroupMember => member.nodeId = nodeId)
      (fun member => { member with role }) group.members).map GroupMember.nodeId =
        group.memberIds :=
  map_updateWhere fun _ => rfl

theorem memberIds_ne_nil : group.members ≠ [] ↔ group.memberIds ≠ [] := by
  rw [AgentGroup.memberIds, ne_eq, ne_eq, List.map_eq_nil_iff]

/-! ### Leaders -/

theorem Led.congr (led : Led group) (leader : after.leaderId = group.leaderId)
    (members : after.memberIds = group.memberIds) : Led after := by
  constructor
  · rw [leader, members]
    exact led.member
  · rw [leader, memberIds_ne_nil, members, ← memberIds_ne_nil]
    exact led.led

theorem Led.without (led : Led group) (nodeId now : String) : Led (group.without nodeId now) := by
  have leaderId : (group.without nodeId now).leaderId =
      if group.leaderId = some nodeId then
        (group.without nodeId now).members.head?.map GroupMember.nodeId
      else group.leaderId := rfl
  constructor
  · intro leader isLeader
    rw [leaderId] at isLeader
    split_ifs at isLeader with leaves
    · obtain ⟨member, isHead, rfl⟩ := Option.map_eq_some_iff.mp isLeader
      exact List.mem_map_of_mem (List.mem_of_mem_head? isHead)
    · apply (mem_memberIds_without now).mpr
      refine ⟨led.member leader isLeader, fun same => leaves ?_⟩
      rw [isLeader, same]
  · intro nonempty
    rw [leaderId]
    split_ifs with leaves
    · rw [ne_eq, Option.map_eq_none_iff, List.head?_eq_none_iff]
      exact nonempty
    · apply led.led
      intro nothing
      apply nonempty
      rw [AgentGroup.without, nothing]
      rfl

theorem Led.joined {member : GroupMember} (led : Led group)
    (leader : after.leaderId = group.leaderId.or (some member.nodeId))
    (members : after.memberIds = group.memberIds ++ [member.nodeId]) : Led after := by
  constructor
  · intro leaderId isLeader
    rw [leader] at isLeader
    rw [members, List.mem_append, List.mem_singleton]
    cases was : group.leaderId with
    | none =>
      rw [was, Option.none_or] at isLeader
      exact .inr (Option.some.inj isLeader).symm
    | some old =>
      rw [was, Option.some_or] at isLeader
      rw [← Option.some.inj isLeader]
      exact .inl (led.member old was)
  · intro _ nobody
    rw [leader, Option.or_eq_none_iff] at nobody
    cases nobody.2

theorem Edit.led (edit : Edit db framed group after) (led : Led group) : Led after := by
  cases edit with
  | without nodeId now => exact led.without nodeId now
  | withMember member isPrivate => exact led.joined rfl (memberIds_withMember isPrivate)
  | role nodeId role => exact led.congr rfl memberIds_role
  | leader leaderId member =>
    constructor
    · intro leader isLeader
      cases isLeader
      exact member
    · exact fun _ => nofun
  | bump => exact led.congr rfl rfl
  | plan => exact led.congr rfl rfl
  | frame => exact led.congr rfl rfl
  | dissolve => exact led.congr rfl rfl
  | hide => exact led.congr rfl rfl
  | addTask => exact led.congr rfl rfl
  | replaceTask => exact led.congr rfl rfl

theorem led_newGroup (c : Caller) (command : CreateGroup) (isPrivate : Bool) (id : String) :
    Led (newGroup c command isPrivate id) := by
  constructor
  · intro leader isLeader
    obtain ⟨member, isHead, rfl⟩ := Option.map_eq_some_iff.mp isLeader
    exact List.mem_map_of_mem (List.mem_of_mem_head? isHead)
  · intro _ nobody
    rw [newGroup, Option.map_eq_none_iff, List.head?_eq_none_iff] at nobody
    exact command.nonempty nobody

/-! ### Owners -/

theorem validateTask_owner {task : GroupTask} (valid : validateTask group task = .ok ()) :
    ∀ owner, task.ownerId = some owner → owner ∈ group.memberIds :=
  (require_bind_eq_ok.mp valid).1

theorem OwnedBy.mono (owned : OwnedBy p group) (tasks : after.tasks = group.tasks)
    (members : group.memberIds ⊆ after.memberIds) : OwnedBy p after := by
  intro task mem unfinished owner isOwner meets
  rw [tasks] at mem
  exact members (owned task mem unfinished owner isOwner meets)

theorem OwnedBy.without (owned : OwnedBy p group) (nodeId now : String) :
    OwnedBy p (group.without nodeId now) := by
  intro task mem unfinished owner isOwner meets
  rcases mem_updateWhere_cases mem with ⟨old, notHeld⟩ | ⟨_, _, _, rfl⟩
  · apply (mem_memberIds_without now).mpr
    refine ⟨owned task old unfinished owner isOwner meets, fun same => ?_⟩
    rw [GroupTask.heldBy, isOwner, same] at notHeld
    simp [unfinished] at notHeld
  · cases isOwner

theorem Edit.ownedBy (edit : Edit db framed group after) (owned : OwnedBy p group) :
    OwnedBy p after := by
  cases edit with
  | without nodeId now => exact owned.without nodeId now
  | withMember member isPrivate =>
    refine owned.mono rfl ?_
    rw [memberIds_withMember]
    exact List.subset_append_left _ _
  | role nodeId role =>
    refine owned.mono rfl fun id mem => ?_
    rw [← memberIds_role] at mem
    exact mem
  | addTask task isNew fresh named valid =>
    intro other mem unfinished owner isOwner meets
    rcases List.mem_append.mp mem with old | new
    · exact owned other old unfinished owner isOwner meets
    · rw [List.mem_singleton.mp new] at isOwner
      exact validateTask_owner valid owner isOwner
  | replaceTask current candidate now found revision named valid reopened =>
    intro other mem unfinished owner isOwner meets
    rcases mem_updateWhere_cases mem with ⟨old, -⟩ | ⟨_, -, -, rfl⟩
    · exact owned other old unfinished owner isOwner meets
    · exact validateTask_owner valid owner isOwner
  | bump => exact owned.mono rfl (List.Subset.refl _)
  | plan => exact owned.mono rfl (List.Subset.refl _)
  | frame => exact owned.mono rfl (List.Subset.refl _)
  | leader => exact owned.mono rfl (List.Subset.refl _)
  | dissolve => exact owned.mono rfl (List.Subset.refl _)
  | hide => exact owned.mono rfl (List.Subset.refl _)

theorem Edits.keep {P : AgentGroup → Prop} (edits : Edits db framed group after)
    (keep : ∀ {before next}, Edit db framed before next → P before → P next) (start : P group) :
    P after := by
  induction edits with
  | refl => exact start
  | tail _ edit ih => exact keep edit ih

/-! ### Recipients -/

theorem ready_iff {task : GroupTask} : ready group task = true ↔
    (∃ owner, task.ownerId = some owner ∧ owner ≠ "") ∧ task.status ≠ .done ∧
      ∀ dep ∈ task.dependencies, taskStatus group dep = some .done := by
  rw [ready, Bool.and_eq_true, Bool.and_eq_true, Option.any_eq_true, List.all_eq_true]
  simp only [decide_eq_true_eq, ne_eq, decide_not, Bool.not_eq_true', decide_eq_false_iff_not,
    and_assoc]

theorem mem_addAction {actions : List (String × List String)} {owner taskId name : String}
    (mem : name ∈ (addAction actions owner taskId).map Prod.fst) :
    name = owner ∨ name ∈ actions.map Prod.fst := by
  rw [addAction, keys_dictSet] at mem
  split_ifs at mem
  · exact .inr mem
  · rcases List.mem_append.mp mem with old | new
    · exact .inr old
    · exact .inl (List.mem_singleton.mp new)

theorem mem_dependents {P : String → Prop} {tasks : List GroupTask} {task : GroupTask}
    {actions : List (String × List String)} (start : ∀ name ∈ actions.map Prod.fst, P name)
    (owners : ∀ dependent ∈ tasks, ready group dependent = true → ∀ owner,
      dependent.ownerId = some owner → P owner) :
    ∀ name ∈ (tasks.foldl (fun actions dependent =>
      match dependent.ownerId with
      | some owner =>
        if task.id ∈ dependent.dependencies && ready group dependent
        then addAction actions owner dependent.id else actions
      | none => actions) actions).map Prod.fst, P name := by
  induction tasks generalizing actions with
  | nil => exact start
  | cons dependent tasks ih =>
    apply ih
    · intro name mem
      dsimp only at mem
      split at mem
      · rename_i owner isOwner
        split_ifs at mem with waits
        · rcases mem_addAction mem with rfl | old
          · rw [Bool.and_eq_true] at waits
            exact owners dependent List.mem_cons_self waits.2 name isOwner
          · exact start name old
        · exact start name mem
      · exact start name mem
    · exact fun other mem => owners other (List.mem_cons_of_mem _ mem)

theorem taskActions_recipients {policy : TaskNotifications} {task : GroupTask}
    {previous : Option GroupTask} {actorId : Option String}
    (owned : OwnedBy (· ≠ "") group) (mem : task ∈ group.tasks) :
    ∀ name ∈ (taskActions policy group task previous actorId).map Prod.fst,
      name ∈ group.memberIds := by
  have owners : ∀ item ∈ group.tasks, ready group item = true → ∀ owner,
      item.ownerId = some owner → owner ∈ group.memberIds := by
    intro item inTasks isReady owner isOwner
    obtain ⟨⟨other, isOther, named⟩, unfinished, -⟩ := ready_iff.mp isReady
    cases isOther.symm.trans isOwner
    exact owned item inTasks unfinished owner isOwner named
  have assigned : ∀ name ∈ (match task.ownerId with
      | some owner =>
        if policy.assignment && task.ownerId ≠ actorId && ready group task && assigns task previous
        then addAction [] owner task.id else []
      | none => []).map Prod.fst, name ∈ group.memberIds := by
    intro name isName
    split at isName
    · rename_i owner isOwner
      split_ifs at isName with told
      · rw [Bool.and_eq_true, Bool.and_eq_true] at told
        rcases mem_addAction isName with rfl | absurd
        · exact owners task mem told.1.2 name isOwner
        · cases absurd
      · cases isName
    · cases isName
  by_cases finished : (policy.dependencyReady && task.status = .done &&
      previous.any fun old => old.status ≠ .done) = true
  · rw [taskActions, if_pos finished]
    exact mem_dependents assigned owners
  · rw [taskActions, if_neg finished]
    exact assigned

end Documents

/-! ### Restorations, renamings and imports -/

section Operations

variable {c : Caller} {db : GroupStore} {group : AgentGroup} {old new now : String}

/-- What a snapshot of a deleted member has: the tasks that the member held. -/
def Snapshot (saved : DeletedMember) : Prop :=
  ∀ task ∈ saved.tasks, task.ownerId = some saved.member.nodeId ∧ task.status ≠ .done

theorem nodeDeparture_snapshot {nodeId reason : String} {saved : DeletedMember}
    {result : Option DeletedMember × GroupStore}
    (done : nodeDeparture c db nodeId reason = .ok result) (isSaved : result.1 = some saved) :
    Snapshot saved := by
  rcases nodeDeparture_eq_ok done with ⟨-, rfl⟩ | ⟨group, member, -, -, -, isNode, rfl⟩
  · cases isSaved
  · cases isSaved
    intro task mem
    have held := (List.mem_filter.mp mem).2
    rw [GroupTask.heldBy, Bool.and_eq_true] at held
    rw [isNode]
    exact ⟨of_decide_eq_true held.1, of_decide_eq_true held.2⟩

theorem mem_restoreTasks {now : String} {originals tasks : List GroupTask} {task : GroupTask}
    (mem : task ∈ restoreTasks now originals tasks) :
    task ∈ tasks ∨ ∃ original ∈ originals, task = original.restored now := by
  induction originals generalizing tasks with
  | nil => exact .inl mem
  | cons original originals ih =>
    rcases ih mem with isThere | ⟨other, isOther, same⟩
    · rcases mem_updateWhere_cases isThere with ⟨old, -⟩ | ⟨_, -, -, same⟩
      · exact .inl old
      · exact .inr ⟨original, List.mem_cons_self, same⟩
    · exact .inr ⟨other, List.mem_cons_of_mem _ isOther, same⟩

theorem memberIds_returned (saved : DeletedMember) :
    (group.returned c saved).memberIds = group.memberIds ++ [saved.member.nodeId] := by
  rw [AgentGroup.returned, AgentGroup.memberIds, AgentGroup.bump, AgentGroup.withReturned,
    List.map_append, List.map_singleton]
  rfl

theorem OwnedBy.returned {p : String → Prop} (owned : OwnedBy p group) {saved : DeletedMember}
    (snapshot : Snapshot saved) : OwnedBy p (group.returned c saved) := by
  intro task mem unfinished owner isOwner meets
  rw [memberIds_returned, List.mem_append, List.mem_singleton]
  rcases mem_restoreTasks mem with old | ⟨original, isOriginal, rfl⟩
  · exact .inl (owned task old unfinished owner isOwner meets)
  · have same := isOwner.symm.trans (snapshot original isOriginal).1
    exact .inr (Option.some.inj same)

/-- A task as a renaming leaves it. -/
structure RenamedTask (old new : String) (task after : GroupTask) : Prop where
  id : after.id = task.id
  status : after.status = task.status
  dependencies : after.dependencies = task.dependencies
  evidence : after.evidence = task.evidence
  owner : after.ownerId = task.ownerId.map (renameId old new)
  revision : task.revision ≤ after.revision

theorem renamedTask_renameOwner (task : GroupTask) :
    RenamedTask old new task (task.renameOwner old new now) := by
  rw [GroupTask.renameOwner]
  split_ifs
  · exact ⟨rfl, rfl, rfl, rfl, rfl, Nat.le_succ _⟩
  · exact ⟨rfl, rfl, rfl, rfl, rfl, Nat.le_refl _⟩

theorem AgentGroup.rename_eq (old new now : String) (group : AgentGroup) :
    (group.rename old new now).memberIds = group.memberIds.map (renameId old new) ∧
      (group.rename old new now).leaderId = group.leaderId.map (renameId old new) ∧
      (group.rename old new now).dissolved = group.dissolved ∧
      ∃ f : GroupTask → GroupTask, (group.rename old new now).tasks = group.tasks.map f ∧
        ∀ task, RenamedTask old new task (f task) := by
  have members : (group.renameIds old new).memberIds = group.memberIds.map (renameId old new) := by
    rw [AgentGroup.memberIds, AgentGroup.memberIds, AgentGroup.renameIds, List.map_map, List.map_map]
    rfl
  have leader : (group.renameIds old new).leaderId = group.leaderId.map (renameId old new) := rfl
  rw [AgentGroup.rename]
  split_ifs with same
  · rw [same] at members leader
    refine ⟨members, leader, rfl, GroupTask.renameIds old new, ?_, fun task => ?_⟩
    · exact (congrArg AgentGroup.tasks same).symm
    · exact ⟨rfl, rfl, rfl, rfl, rfl, Nat.le_refl _⟩
  · exact ⟨members, leader, rfl, GroupTask.renameOwner old new now, rfl, renamedTask_renameOwner⟩

theorem Led.rename (led : Led group) : Led (group.rename old new now) := by
  obtain ⟨members, leader, -⟩ := AgentGroup.rename_eq old new now group
  constructor
  · intro id isLeader
    rw [leader] at isLeader
    obtain ⟨before, isBefore, rfl⟩ := Option.map_eq_some_iff.mp isLeader
    rw [members]
    exact List.mem_map_of_mem (led.member before isBefore)
  · rw [memberIds_ne_nil, members, leader, ne_eq, List.map_eq_nil_iff, ne_eq, Option.map_eq_none_iff]
    exact fun nonempty => led.led (memberIds_ne_nil.mpr nonempty)

theorem OwnedBy.rename {p : String → Prop} (owned : OwnedBy p group)
    (back : ∀ owner, p (renameId old new owner) → p owner) :
    OwnedBy p (group.rename old new now) := by
  obtain ⟨members, -, -, f, tasks, isRenamed⟩ := AgentGroup.rename_eq old new now group
  intro task mem unfinished owner isOwner meets
  rw [tasks] at mem
  obtain ⟨before, inTasks, rfl⟩ := List.mem_map.mp mem
  rw [(isRenamed before).owner] at isOwner
  obtain ⟨was, isWas, rfl⟩ := Option.map_eq_some_iff.mp isOwner
  rw [(isRenamed before).status] at unfinished
  rw [members]
  exact List.mem_map_of_mem (owned before inTasks unfinished was isWas (back was meets))

theorem savedGroup_of_unchanged {existing : List AgentGroup} {value : GroupFields}
    (same : unchanged (findRow AgentGroup.id value.id existing) value = true) :
    savedGroup c existing value ∈ existing := by
  rw [savedGroup]
  cases found : findRow AgentGroup.id value.id existing with
  | none =>
    rw [found] at same
    cases same
  | some old =>
    rw [found] at same
    simp only [if_pos same]
    exact (findRow_eq_some found).1

theorem savedGroup_of_changed {existing : List AgentGroup} {value : GroupFields}
    (changed : unchanged (findRow AgentGroup.id value.id existing) value ≠ true) :
    savedGroup c existing value =
      importedGroup c (findRow AgentGroup.id value.id existing) value := by
  rw [savedGroup]
  cases found : findRow AgentGroup.id value.id existing with
  | none => rfl
  | some old =>
    rw [found] at changed
    simp only [if_neg changed]

theorem OwnedBy.imported {existing : List AgentGroup} {value : GroupFields}
    (owners : ∀ old, findRow AgentGroup.id value.id existing = some old → OwnersStay old value) :
    OwnedBy (· ≠ "") (savedGroup c existing value) := by
  intro task mem unfinished owner isOwner named
  rw [savedGroup_tasks] at mem
  rw [AgentGroup.memberIds, savedGroup_members]
  cases found : findRow AgentGroup.id value.id existing with
  | none =>
    rw [found] at mem
    cases mem
  | some old =>
    rw [found] at mem
    exact owners old found task mem unfinished owner isOwner named

/-! ### Whole steps -/

variable {s s' : GroupSystem} {op : GroupOp}

/-- The snapshots of the nodes that can be restored. -/
def SnapshotsOk (s : GroupSystem) : Prop :=
  ∀ node ∈ s.deleted, ∀ saved, node.member = some saved → Snapshot saved

/-- The snapshots stay such that they can be restored. -/
theorem SnapshotsOk.step (inv : SnapshotsOk s) (stepped : s.step op = some s') :
    SnapshotsOk s' := by
  rcases (step_grows stepped).2 with same | ⟨c, nodeId, reason, node, store, -, -, done, -, more⟩
  · rw [SnapshotsOk, same]
    exact inv
  · intro other mem saved isSaved
    rw [more] at mem
    rcases List.mem_append.mp mem with old | new
    · exact inv other old saved isSaved
    · rw [List.mem_singleton.mp new] at isSaved
      exact nodeDeparture_snapshot done isSaved

/-- The owners of unfinished tasks are members of their active groups. -/
def OwnersOk (db : GroupStore) : Prop :=
  ∀ group ∈ db.groups, group.dissolved = false → OwnedBy (· ≠ "") group

theorem Origin.ownedBy (origin : Origin s op group) (inv : OwnersOk s.dir.store)
    (snapshots : SnapshotsOk s) (on : group.dissolved = false) : OwnedBy (· ≠ "") group := by
  cases origin with
  | edited traced =>
    obtain ⟨old, mem, -, edits⟩ := traced
    exact edits.keep Edit.ownedBy (inv old mem (edits.active on))
  | created fresh => exact fun _ absurd => nomatch absurd
  | returned isDeleted isSaved runs =>
    have isRead := read_eq_ok runs.read
    have snapshot := snapshots _ (List.mem_of_getElem? isDeleted) _ isSaved
    exact (inv _ isRead.mem isRead.active).returned snapshot
  | @renamed c old new before named mem =>
    obtain ⟨-, -, active, -⟩ := AgentGroup.rename_eq old new c.now before
    refine (inv before mem (active.symm.trans on)).rename fun owner meets unnamed => ?_
    rw [unnamed, renameId, if_neg named.1.symm] at meets
    exact meets rfl
  | imported isPlan inPlan owners => exact OwnedBy.imported owners

/-- The owners of unfinished tasks stay members of their active groups. -/
theorem OwnersOk.step (inv : OwnersOk s.dir.store) (sound : PlansSound s)
    (snapshots : SnapshotsOk s) (stepped : s.step op = some s') : OwnersOk s'.dir.store :=
  fun group mem on => ((step_origin sound stepped).1 group mem).ownedBy inv snapshots on

end Operations

end AgentPark.Groups
