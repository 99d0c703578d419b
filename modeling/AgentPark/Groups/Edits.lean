import AgentPark.Groups.Commands
import Mathlib.Logic.Relation

/-!
# What the commands do to the documents

Every command changes the document of a group by elementary edits.  `Edit` lists them, each with what
the command has checked, and `GroupCommand.traced` says that the groups behind a command come from
those before it by such edits; only `create` makes a new one.  A property of single documents is kept
by all commands when the elementary edits keep it.
-/

namespace AgentPark.Groups

open Lib

/-- The group whose frame the command may change. -/
def GroupCommand.framed : GroupCommand → Option String
  | configure groupId .. => some groupId
  | _ => none

/-- A change of a document; `db` is the store before the command, which may give the group `framed`
a new frame. -/
inductive Edit (db : GroupStore) (framed : Option String) : AgentGroup → AgentGroup → Prop where
  | bump (group : AgentGroup) (now : String) : Edit db framed group (group.bump now)
  | without (group : AgentGroup) (nodeId now : String) :
      Edit db framed group (group.without nodeId now)
  | withMember (group : AgentGroup) (member : GroupMember) (isPrivate : Bool) :
      Edit db framed group (group.withMember member isPrivate)
  | plan (group : AgentGroup) (name objective : String) :
      Edit db framed group { group with name, objective }
  | frame (group : AgentGroup) (bounds : GroupBounds) (isFramed : framed = some group.id)
      (apart : ∀ other ∈ db.groups, other.dissolved = false → other.id ≠ group.id →
        overlaps bounds other.bounds = false) :
      Edit db framed group { group with bounds }
  | role (group : AgentGroup) (nodeId role : String) :
      Edit db framed group
        { group with
          members := updateWhere (fun member => member.nodeId = nodeId)
            (fun member => { member with role }) group.members }
  | leader (group : AgentGroup) (leaderId : String) (member : leaderId ∈ group.memberIds) :
      Edit db framed group { group with leaderId := some leaderId }
  | dissolve (group : AgentGroup) : Edit db framed group { group with dissolved := true }
  | hide (group : AgentGroup) : Edit db framed group { group with isPrivate := true }
  | addTask (group : AgentGroup) (task : GroupTask) (isNew : task.status = .todo)
      (fresh : task.id ∉ group.tasks.map GroupTask.id) (named : task.ownerId ≠ some "")
      (valid : validateTask group task = .ok ()) :
      Edit db framed group { group with tasks := group.tasks ++ [task] }
  | replaceTask (group : AgentGroup) (current candidate : GroupTask) (now : String)
      (found : group.tasks.find? (fun item => item.id = candidate.id) = some current)
      (revision : candidate.revision = current.revision)
      (named : candidate.ownerId ≠ some "" ∨ candidate.ownerId = current.ownerId)
      (valid : validateTask group candidate = .ok ())
      (reopened : current.status = .done → candidate.status ≠ .done →
        ∀ item ∈ group.tasks, candidate.id ∈ item.dependencies →
          item.status ≠ .inProgress ∧ item.status ≠ .done) :
      Edit db framed group (group.replaceTask
        { candidate with revision := candidate.revision + 1, updatedAt := now })

/-- Edits one after the other. -/
abbrev Edits (db : GroupStore) (framed : Option String) : AgentGroup → AgentGroup → Prop :=
  Relation.ReflTransGen (Edit db framed)

/-- The document comes from one of the store. -/
def Traced (db : GroupStore) (framed : Option String) (group : AgentGroup) : Prop :=
  ∃ old ∈ db.groups, old.id = group.id ∧ Edits db framed old group

section Editing

variable {db mid : GroupStore} {framed : Option String} {group after : AgentGroup} {c : Caller}

theorem Edit.id_eq (edit : Edit db framed group after) : after.id = group.id := by
  cases edit with
  | _ => rfl

theorem Edits.id_eq (edits : Edits db framed group after) : after.id = group.id := by
  induction edits with
  | refl => rfl
  | tail _ edit ih => exact edit.id_eq.trans ih

theorem Edits.active (edits : Edits db framed group after) (on : after.dissolved = false) :
    group.dissolved = false := by
  induction edits with
  | refl => exact on
  | tail _ edit ih =>
    apply ih
    cases edit with
    | dissolve => cases on
    | _ => exact on

/-- A document is edited and `mid` has been written so far. -/
structure Editing (db : GroupStore) (framed : Option String) (mid : GroupStore) (group : AgentGroup) :
    Prop where
  traced : ∀ other ∈ mid.groups, Traced db framed other
  kept : db.groups.map AgentGroup.id ⊆ mid.groups.map AgentGroup.id
  current : Traced db framed group

theorem Editing.start (mem : group ∈ db.groups) : Editing db framed db group where
  traced := fun other inGroups => ⟨other, inGroups, rfl, .refl⟩
  kept := List.Subset.refl _
  current := ⟨group, mem, rfl, .refl⟩

theorem Editing.edit (editing : Editing db framed mid group) (edit : Edit db framed group after) :
    Editing db framed mid after := by
  obtain ⟨old, mem, same, edits⟩ := editing.current
  exact ⟨editing.traced, editing.kept, old, mem, same.trans edit.id_eq.symm, edits.tail edit⟩

theorem Editing.put (editing : Editing db framed mid group) :
    Editing db framed (mid.put group) group := by
  refine ⟨?_, ?_, editing.current⟩
  · intro other mem
    rcases mem_upsert.mp mem with rfl | ⟨old, -⟩
    · exact editing.current
    · exact editing.traced other old
  · intro id mem
    obtain ⟨old, inGroups, rfl⟩ := List.mem_map.mp (editing.kept mem)
    by_cases same : old.id = group.id
    · rw [same]
      exact List.mem_map_of_mem mem_upsert_self
    · exact List.mem_map_of_mem (mem_upsert.mpr (.inr ⟨inGroups, same⟩))

theorem Editing.congr {other : GroupStore} (editing : Editing db framed mid group)
    (same : other.groups = mid.groups) : Editing db framed other group := by
  refine ⟨?_, ?_, editing.current⟩
  · rw [same]
    exact editing.traced
  · rw [same]
    exact editing.kept

theorem Editing.detach (editing : Editing db framed mid group) (nodeId reason : String) :
    Editing db framed (detachMember c mid group nodeId reason).2
      (detachMember c mid group nodeId reason).1 := by
  have edited := (editing.edit (.without group nodeId c.now)).edit (.bump _ c.now)
  exact (edited.put.congr rfl).congr rfl

theorem Editing.detachAll {members : List GroupMember} (editing : Editing db framed mid group) :
    Editing db framed (detachMembers c members group mid).2 (detachMembers c members group mid).1 := by
  induction members generalizing mid group with
  | nil => exact editing
  | cons member members ih => exact ih (editing.detach member.nodeId "frame_resized")

variable {isPrivate : Bool} {result : AgentGroup × GroupStore}

theorem Editing.join (editing : Editing db framed mid group) {member : GroupMember}
    (joined : joinMember c mid group member isPrivate = .ok result) :
    Editing db framed result.2 result.1 := by
  obtain ⟨inserted, isInserted, isAfter, same⟩ := joinMember_eq_ok joined
  have edited := (editing.edit (.withMember group member isPrivate)).edit (.bump _ c.now)
  rw [← isAfter] at edited
  rw [same]
  exact (edited.congr (insertMember_eq_ok isInserted).2.2.1).put.congr rfl

theorem detachMembers_id {members : List GroupMember} :
    (detachMembers c members group mid).1.id = group.id := by
  induction members generalizing mid group with
  | nil => rfl
  | cons member members ih => exact ih

theorem joinMembers_id {nodes : List (String × SpatialMember)}
    (joined : joinMembers c nodes group mid = .ok result) :
    result.1.id = group.id := by
  induction nodes generalizing mid group with
  | nil =>
    cases joined
    rfl
  | cons node nodes ih =>
    obtain ⟨next, first, rest⟩ := bind_eq_ok.mp joined
    obtain ⟨-, -, isAfter, -⟩ := joinMember_eq_ok first
    rw [ih rest, isAfter]
    rfl

theorem Editing.joinAll {nodes : List (String × SpatialMember)}
    (editing : Editing db framed mid group) (joined : joinMembers c nodes group mid = .ok result) :
    Editing db framed result.2 result.1 := by
  induction nodes generalizing mid group with
  | nil =>
    cases joined
    exact editing
  | cons node nodes ih =>
    obtain ⟨next, first, rest⟩ := bind_eq_ok.mp joined
    exact ih (editing.join first) rest

variable {actorId : Option String}

theorem Editing.save (editing : Editing db framed mid group) {kind : EventKind}
    {payload : List (String × Json)} {targets : List String} {notify : Bool} :
    Editing db framed ((mid.put (group.bump c.now)).event c (group.bump c.now) kind actorId payload
      targets notify) (group.bump c.now) :=
  (editing.edit (.bump group c.now)).put.congr rfl

theorem Editing.savedAs (editing : Editing db framed mid group) {result : GroupStore}
    (saved : SavedAs c mid result group) : Editing db framed result (group.bump c.now) := by
  obtain ⟨kind, payload, rfl⟩ := saved
  exact editing.save

theorem Editing.planned (editing : Editing db framed mid group) (name objective : Option String)
    {bounds : Option GroupBounds} (isFramed : bounds.isSome → framed = some group.id)
    (apart : ∀ frame, bounds = some frame → ∀ other ∈ db.groups, other.dissolved = false →
      other.id ≠ group.id → overlaps frame other.bounds = false) :
    Editing db framed mid (group.edit name objective bounds) := by
  have planned := editing.edit (.plan group (name.getD group.name) (objective.getD group.objective))
  cases bounds with
  | none => exact planned
  | some frame => exact planned.edit (.frame _ frame (isFramed rfl) (apart frame rfl))

theorem Editing.saveEdited (editing : Editing db framed mid group)
    (edited : Editing db framed mid after) :
    Editing db framed (saveEdited c mid group after).2 (saveEdited c mid group after).1 := by
  rw [Groups.saveEdited]
  split_ifs
  · exact editing
  · exact edited.save

theorem Editing.resize (mem : group ∈ db.groups) {bounds : Option GroupBounds}
    {layout : Option (List SpatialMember)} (resized : resize c db group bounds layout = .ok result) :
    Editing db framed result.2 result.1 ∧ result.1.id = group.id ∧
      ∀ frame, bounds = some frame → ∀ other ∈ db.groups, other.dissolved = false →
        other.id ≠ group.id → overlaps frame other.bounds = false := by
  rcases resize_eq_ok resized with ⟨rfl, rfl⟩ | ⟨frame, nodes, rfl, done⟩
  · exact ⟨Editing.start mem, rfl, fun _ absurd => nomatch absurd⟩
  · obtain ⟨apart, -, left, isLeft, joined⟩ := reconcile_eq_ok done
    have detached : Editing db framed left.2 left.1 := by
      rw [isLeft]
      exact (Editing.start mem).detachAll
    have editing := detached.joinAll joined
    refine ⟨editing, ?_, fun other isFrame => ?_⟩
    · exact joinMembers_id joined ▸ isLeft ▸ detachMembers_id
    · cases isFrame
      exact apart

theorem Editing.switch {other : AgentGroup} (editing : Editing db framed mid group)
    (mem : other ∈ db.groups) : Editing db framed mid other :=
  ⟨editing.traced, editing.kept, other, mem, rfl, .refl⟩

theorem Editing.saveTask (editing : Editing db framed mid after) (policy : TaskNotifications)
    (kind : EventKind) (task : GroupTask) (previous : Option GroupTask) (actorId : Option String) :
    Editing db framed (saveTask c policy mid after kind task previous actorId) (after.bump c.now) :=
  editing.save

theorem createTask_edit (framed : Option String) {policy : TaskNotifications} {groupId id : String}
    {command : CreateTask} {result : GroupTask × GroupStore}
    (fresh : ∀ group ∈ db.groups, id ∉ group.tasks.map GroupTask.id)
    (done : createTask c policy db groupId command actorId id = .ok result) :
    ∃ group, Read db groupId actorId group ∧
      Edit db framed group { group with tasks := group.tasks ++ [result.1] } ∧
      result.2 = saveTask c policy db { group with tasks := group.tasks ++ [result.1] } .taskCreated
        result.1 none actorId := by
  obtain ⟨group, isRead, sameId, isNew, sameOwner, valid, same⟩ := createTask_eq_ok done
  refine ⟨group, isRead, .addTask group result.1 isNew ?_ ?_ valid, same⟩
  · rw [sameId]
    exact fresh group isRead.mem
  · rw [sameOwner]
    exact command.named

theorem updateTask_edit (framed : Option String) {policy : TaskNotifications}
    {groupId taskId : String} {command : UpdateTask} {result : GroupTask × GroupStore}
    (done : updateTask c policy db groupId taskId command actorId = .ok result) :
    ∃ group, Read db groupId actorId group ∧ (result.2 = db ∨ ∃ current,
      Edit db framed group (group.replaceTask result.1) ∧
        result.1 ∈ (group.replaceTask result.1).tasks ∧
        result.2 = saveTask c policy db (group.replaceTask result.1) .taskUpdated result.1
          (some current) actorId) := by
  obtain ⟨group, current, isRead, found, same |
    ⟨candidate, isApplied, sameId, valid, reopened, task, same⟩⟩ := updateTask_eq_ok done
  · exact ⟨group, isRead, .inl same⟩
  · subst sameId
    refine ⟨group, isRead, .inr ⟨current, ?_, ?_, same⟩⟩
    · rw [task]
      refine .replaceTask group current candidate c.now found ?_ ?_ valid reopened
      · rw [isApplied]
        rfl
      · rw [isApplied, UpdateTask.apply]
        cases isSet : command.ownerId with
        | none => exact .inr rfl
        | some owner =>
          refine .inl fun unnamed => command.named ?_
          rw [isSet, ← unnamed]
          rfl
    · have isThere := List.mem_of_find?_eq_some found
      have sameId := List.find?_some found
      apply mem_updateWhere_of_pos (f := fun _ => result.1) isThere
      rw [task]
      exact sameId

theorem Editing.move {nodeId role : String} {target expected : Option String}
    {result : Option AgentGroup × GroupStore}
    (done : move c db nodeId target expected role isPrivate = .ok result) :
    result.2 = db ∨ ∃ edited, Editing db framed result.2 edited := by
  have leaves {sourceId : Option String} {mid : GroupStore}
      (left : leaveSource c db nodeId sourceId = .ok mid) :
      mid = db ∨ ∃ source, Editing db framed mid source := by
    rcases leaveSource_eq_ok left with ⟨-, rfl⟩ | ⟨_, source, -, isRead, rfl⟩
    · exact .inl rfl
    · exact .inr ⟨_, (Editing.start isRead.mem).detach nodeId "left"⟩
  rcases move_eq_ok done with ⟨-, left⟩ |
    ⟨targetId, group, -, isRead, same | ⟨-, mid, joined, left, isJoined, same⟩⟩
  · exact leaves left
  · exact .inl same
  · rw [same]
    rcases leaves left with rfl | ⟨source, editing⟩
    · exact .inr ⟨_, (Editing.start isRead.mem).join isJoined⟩
    · exact .inr ⟨_, (editing.switch isRead.mem).join isJoined⟩

/-- Where the documents behind a command come from, and that none is lost. -/
structure CommandTraced (c : Caller) (command : GroupCommand) (db db' : GroupStore) : Prop where
  traced : ∀ group ∈ db'.groups, Traced db command.framed group ∨
    ∃ create isPrivate id, command = .create create isPrivate id ∧
      group = newGroup c create isPrivate id
  kept : db.groups.map AgentGroup.id ⊆ db'.groups.map AgentGroup.id

variable {command : GroupCommand} {db' : GroupStore}

theorem Editing.commandTraced (editing : Editing db command.framed mid group) :
    CommandTraced c command db mid :=
  ⟨fun other mem => .inl (editing.traced other mem), editing.kept⟩

theorem CommandTraced.of_groups (same : db'.groups = db.groups) :
    CommandTraced c command db db' := by
  constructor
  · rw [same]
    exact fun group mem => .inl ⟨group, mem, rfl, .refl⟩
  · rw [same]
    exact List.Subset.refl _

theorem CommandTraced.createGroup {create : CreateGroup} {id : String}
    (done : createGroup c db create isPrivate id = .ok result) :
    CommandTraced c (.create create isPrivate id) db result.2 := by
  obtain ⟨mid, inserted, same⟩ := createGroup_eq_ok done
  have groups : result.2.groups = upsert AgentGroup.id (newGroup c create isPrivate id) db.groups := by
    rw [same, GroupStore.event_groups]
    exact (insertAll_eq_ok inserted).2.2.2.1
  constructor
  · intro group mem
    rw [groups] at mem
    rcases mem_upsert.mp mem with rfl | ⟨old, -⟩
    · exact .inr ⟨create, isPrivate, id, rfl, rfl⟩
    · exact .inl ⟨group, old, rfl, .refl⟩
  · intro other mem
    rw [groups]
    obtain ⟨old, inGroups, rfl⟩ := List.mem_map.mp mem
    by_cases isNew : old.id = id
    · rw [isNew]
      exact List.mem_map_of_mem (f := AgentGroup.id) mem_upsert_self
    · exact List.mem_map_of_mem (mem_upsert.mpr (.inr ⟨inGroups, isNew⟩))

theorem GroupCommand.traced (fresh : command.Fresh db) (ran : command.run c db = .ok db') :
    CommandTraced c command db db' := by
  cases command with
  | create create isPrivate id =>
    obtain ⟨result, done, rfl⟩ := map_eq_ok.mp ran
    exact CommandTraced.createGroup done
  | configure groupId revision name objective bounds layout =>
    obtain ⟨result, done, rfl⟩ := map_eq_ok.mp ran
    obtain ⟨group, resized, isRead, isResized, rfl⟩ := configure_eq_ok done
    obtain ⟨editing, sameId, apart⟩ := Editing.resize isRead.mem isResized
    rw [← sameId] at apart
    have isFramed : (GroupCommand.configure groupId revision name objective bounds layout).framed =
        some resized.1.id := congrArg some (isRead.id_eq.symm.trans sameId.symm)
    exact (editing.saveEdited (editing.planned name objective (fun _ => isFramed)
      apart)).commandTraced
  | updatePlan groupId command =>
    obtain ⟨result, done, rfl⟩ := map_eq_ok.mp ran
    obtain ⟨group, isRead, rfl⟩ := updatePlan_eq_ok done
    have start : Editing db none db group := Editing.start isRead.mem
    have planned : Editing db none db
        (group.edit (some command.name) (some command.objective) none) :=
      start.edit (.plan group command.name command.objective)
    exact (start.saveEdited planned).commandTraced
  | move nodeId target source role isPrivate =>
    obtain ⟨result, done, rfl⟩ := map_eq_ok.mp ran
    rcases Editing.move done with same | ⟨edited, editing⟩
    · exact CommandTraced.of_groups (congrArg _ same)
    · exact editing.commandTraced
  | updateRole groupId nodeId expected role =>
    obtain ⟨result, done, rfl⟩ := map_eq_ok.mp ran
    obtain ⟨group, isRead, same | saved⟩ := updateRole_eq_ok done
    · exact CommandTraced.of_groups (congrArg _ same)
    · exact (((Editing.start isRead.mem).edit (.role group nodeId role)).savedAs
        saved).commandTraced
  | setLeader groupId expected leaderId =>
    obtain ⟨result, done, rfl⟩ := map_eq_ok.mp ran
    obtain ⟨group, isRead, member, same | saved⟩ := setLeader_eq_ok done
    · exact CommandTraced.of_groups (congrArg _ same)
    · exact (((Editing.start isRead.mem).edit (.leader group leaderId member)).savedAs
        saved).commandTraced
  | dissolve groupId revision =>
    obtain ⟨result, done, rfl⟩ := map_eq_ok.mp ran
    obtain ⟨group, after, isRead, rfl, same⟩ := dissolve_eq_ok done
    have start : Editing db none db group := Editing.start isRead.mem
    have edited := (start.edit (.dissolve group)).edit (.bump _ c.now)
    rw [same]
    have saved := edited.put
    exact Editing.commandTraced (saved.congr rfl)
  | protectMemberHistory nodeId =>
    rcases protectMemberHistory_eq_ok ran with rfl | ⟨groupId, group, -, isRead, saved⟩
    · exact CommandTraced.of_groups rfl
    · exact (((Editing.start isRead.mem).edit (.hide group)).savedAs saved).commandTraced
  | createTask policy groupId command actorId id =>
    obtain ⟨result, done, rfl⟩ := map_eq_ok.mp ran
    obtain ⟨group, isRead, edit, same⟩ := createTask_edit none fresh done
    rw [same]
    exact (((Editing.start isRead.mem).edit edit).saveTask policy _ _ _ _).commandTraced
  | updateTask policy groupId taskId command actorId =>
    obtain ⟨result, done, rfl⟩ := map_eq_ok.mp ran
    obtain ⟨group, isRead, same | ⟨current, edit, -, same⟩⟩ := updateTask_edit none done
    · exact CommandTraced.of_groups (congrArg _ same)
    · rw [same]
      exact (((Editing.start isRead.mem).edit edit).saveTask policy _ _ _ _).commandTraced
  | publish groupId command actorId =>
    obtain ⟨result, done, rfl⟩ := map_eq_ok.mp ran
    obtain ⟨group, isRead, -, ⟨_, -, -, -, same⟩ | ⟨-, recipientId, -, sent⟩⟩ := publish_eq_ok done
    · exact CommandTraced.of_groups (congrArg _ same)
    · obtain ⟨_, _, groups, -⟩ := send_eq_ok sent
      exact CommandTraced.of_groups groups
  | resolve nodeId reference =>
    obtain ⟨result, done, rfl⟩ := map_eq_ok.mp ran
    exact CommandTraced.of_groups (calm_resolve done).groups
  | complete nodeId events error reply =>
    obtain ⟨mid, answered, rfl⟩ := complete_eq_ok ran
    have groups : (mid.deliver nodeId events error).groups = mid.groups :=
      (calm_deliver nodeId events error).groups
    rcases calm_answer answered with rfl | ⟨_, _, _, _, -, rfl⟩
    · exact CommandTraced.of_groups groups
    · exact CommandTraced.of_groups groups
  | recordDelivery seq nodeId error =>
    cases ran
    exact CommandTraced.of_groups rfl

end Editing

end AgentPark.Groups
