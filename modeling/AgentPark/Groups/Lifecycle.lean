import AgentPark.Groups.Membership

/-!
# Group state in node operations

The documents of the groups are renamed as `AgentGroup.renameIds`; `renameReferences_dump` says that
this is what `_rename_references` makes of their dumps.
-/

namespace AgentPark.Groups

open Lib

/-! ### Departure and return -/

/-- `DeletedMember`. -/
structure DeletedMember where
  groupId : String
  member : GroupMember
  tasks : List GroupTask
deriving DecidableEq

/-- `node_departure`. -/
def nodeDeparture (c : Caller) (db : GroupStore) (nodeId reason : String) :
    Except GroupError (Option DeletedMember × GroupStore) :=
  match db.memberGroup nodeId with
  | none => .ok (none, db)
  | some groupId => do
    let group ← db.read groupId none
    match group.members.find? fun member => member.nodeId = nodeId with
    | none => .error (.value "StopIteration")
    | some member =>
      let tasks := group.tasks.filter (GroupTask.heldBy nodeId)
      .ok (some { groupId := group.id, member, tasks }, (detachMember c db group nodeId reason).2)

/-- The task is as the departure of its owner left it. -/
def GroupTask.releasedFrom (current original : GroupTask) : Bool :=
  current.revision = original.revision + 1 && current.ownerId = none && current.status = .blocked

/-- The last task of the group with the id. -/
def AgentGroup.taskById (group : AgentGroup) (taskId : String) : Option GroupTask :=
  group.tasks.reverse.find? fun item => item.id = taskId

/-- The version of a task that the undo writes. -/
def GroupTask.restored (original : GroupTask) (now : String) : GroupTask :=
  { original with revision := original.revision + 2, updatedAt := now }

/-- The tasks of a group with the restored versions; task ids are unique. -/
def restoreTasks (now : String) (originals tasks : List GroupTask) : List GroupTask :=
  originals.foldl (fun tasks original =>
    updateWhere (fun item => item.id = original.id) (fun _ => original.restored now) tasks) tasks

/-- The document of a group with a member that returns. -/
def AgentGroup.withReturned (group : AgentGroup) (saved : DeletedMember) (now : String) :
    AgentGroup :=
  { group with
    members := group.members ++ [saved.member]
    leaderId := group.leaderId.or (some saved.member.nodeId)
    tasks := restoreTasks now saved.tasks group.tasks }

/-- `restore_deleted_member`. -/
def restoreDeletedMember (c : Caller) (db : GroupStore) (saved : DeletedMember) :
    Except GroupError GroupStore := do
  let group ← db.read saved.groupId none
  require (db.memberGroup saved.member.nodeId = none)
    (.conflict "restored node identity already belongs to a group")
  require (∀ original ∈ saved.tasks,
      (group.taskById original.id).any fun current => current.releasedFrom original)
    (.conflict "released task changed after deletion; undo would overwrite newer work")
  let after := (group.withReturned saved c.now).bump c.now
  let db ← db.insertMember saved.member.nodeId group.id
  .ok ((db.put after).event c after .memberRestored none
    [("member", saved.member.dump),
      ("restored_task_ids", .arr (saved.tasks.map fun task => .str task.id))] [] false)

/-! ### Renaming -/

/-- `key in {"node_id", "owner_id", "actor_id", "recipient_id", "leader_id"}`. -/
def isIdentityKey (key : String) : Bool :=
  key = "node_id" || key = "owner_id" || key = "actor_id" || key = "recipient_id" ||
    key = "leader_id"

mutual

/-- `_rename_references`. -/
def renameReferences (old new : String) : Json → Json
  | .arr items => .arr (renameItems old new items)
  | .obj fields => .obj (renameFields old new fields)
  | value => value

def renameItems (old new : String) : List Json → List Json
  | [] => []
  | item :: items => renameReferences old new item :: renameItems old new items

def renameFields (old new : String) : List (String × Json) → List (String × Json)
  | [] => []
  | (key, item) :: fields =>
    (key, if isIdentityKey key && item = .str old then .str new
      else renameReferences old new item) :: renameFields old new fields

end

/-- An identity after the renaming. -/
def renameId (old new id : String) : String := if id = old then new else id

def GroupMember.renameIds (old new : String) (member : GroupMember) : GroupMember :=
  { member with nodeId := renameId old new member.nodeId }

def GroupTask.renameIds (old new : String) (task : GroupTask) : GroupTask :=
  { task with ownerId := task.ownerId.map (renameId old new) }

def AgentGroup.renameIds (old new : String) (group : AgentGroup) : AgentGroup :=
  { group with
    members := group.members.map (GroupMember.renameIds old new)
    leaderId := group.leaderId.map (renameId old new)
    tasks := group.tasks.map (GroupTask.renameIds old new) }

/-- A task whose owner is renamed has a new revision. -/
def GroupTask.renameOwner (old new now : String) (task : GroupTask) : GroupTask :=
  let after := task.renameIds old new
  if task.ownerId ≠ after.ownerId then
    { after with revision := after.revision + 1, updatedAt := now }
  else after

/-- The document of a group behind the renaming, saved when it changed. -/
def AgentGroup.rename (old new now : String) (group : AgentGroup) : AgentGroup :=
  let after := group.renameIds old new
  if after = group then group
  else { after with tasks := group.tasks.map (GroupTask.renameOwner old new now) }.bump now

theorem AgentGroup.rename_id {old new now : String} (group : AgentGroup) :
    (group.rename old new now).id = group.id := by
  rw [AgentGroup.rename]
  split_ifs
  · rfl
  · rfl

def MemberRow.rename (old new : String) (row : MemberRow) : MemberRow :=
  { row with nodeId := renameId old new row.nodeId }

def Delivery.rename (old new : String) (delivery : Delivery) : Delivery :=
  { delivery with nodeId := renameId old new delivery.nodeId }

def Event.rename (old new : String) (event : Event) : Event :=
  { event with
    actorId := event.actorId.map (renameId old new)
    payload := renameReferences old new event.payload }

/-- The command is encoded again from its renamed value. -/
def MessageRequest.rename (old new : String) (request : MessageRequest) : MessageRequest :=
  { request with
    actorKey := if request.actorKey = "node:" ++ old then "node:" ++ new else request.actorKey
    command := renameReferences old new request.command }

/-- The rows of all tables behind the renaming. -/
def GroupStore.rename (db : GroupStore) (old new now : String) : Except GroupError GroupStore :=
  let members := db.members.map (MemberRow.rename old new)
  let deliveries := db.deliveries.map (Delivery.rename old new)
  let requests := db.requests.map (MessageRequest.rename old new)
  if valid : (members.map MemberRow.nodeId).Nodup ∧ (deliveries.map Delivery.recipient).Nodup ∧
      (requests.map MessageRequest.key).Nodup then
    .ok { db with
      groups := db.groups.map (AgentGroup.rename old new now)
      members, deliveries, requests
      events := db.events.map (Event.rename old new)
      groupIds := by
        have same : AgentGroup.id ∘ AgentGroup.rename old new now = AgentGroup.id :=
          funext fun group => AgentGroup.rename_id group
        rw [List.map_map, same]
        exact db.groupIds
      memberIds := valid.1
      eventSeqs := by
        rw [List.map_map]
        exact db.eventSeqs
      assigned := by
        intro event mem
        obtain ⟨before, inEvents, rfl⟩ := List.mem_map.mp mem
        exact db.assigned before inEvents
      recipients := valid.2.1
      sent := by
        intro delivery mem
        obtain ⟨before, inRows, rfl⟩ := List.mem_map.mp mem
        rw [List.map_map]
        exact db.sent before inRows
      requestKeys := valid.2.2
      answered := by
        intro request mem
        obtain ⟨before, inRows, rfl⟩ := List.mem_map.mp mem
        rw [List.map_map]
        exact db.answered before inRows }
  else .error .integrity

/-- The event of the group whose member was renamed; `after` is the renamed store. -/
def GroupStore.reportRename (db after : GroupStore) (c : Caller) (old new : String) : GroupStore :=
  match (db.memberGroup old).bind fun groupId => findRow AgentGroup.id groupId db.groups with
  | none => after
  | some group =>
    if group.renameIds old new = group then after
    else after.event c (group.rename old new c.now) .memberRenamed none
      [("old_node_id", .str old), ("node_id", .str new)] [] false

/-- `node_rename`.  Combining two historical identities could expose old direct messages. -/
def nodeRename (c : Caller) (db : GroupStore) (old new : String) : Except GroupError GroupStore :=
  if old = new then .ok db
  else do
    require ((∀ row ∈ db.members, row.nodeId ≠ new) ∧ (∀ row ∈ db.deliveries, row.nodeId ≠ new) ∧
        ∀ event ∈ db.events, event.actorId ≠ some new)
      (.conflict "target name already identifies a member in group history")
    let after ← db.rename old new c.now
    .ok (db.reportRename after c old new)

/-! ### Renaming of dumps -/

section Dumps

variable {old new : String}

theorem renameItems_eq_map (items : List Json) :
    renameItems old new items = items.map (renameReferences old new) := by
  induction items with
  | nil => rfl
  | cons item items ih => rw [renameItems, ih, List.map_cons]

theorem renameReferences_nat (n : Nat) : renameReferences old new (.nat n) = .nat n := rfl

theorem renameItems_str (texts : List String) :
    renameItems old new (texts.map Json.str) = texts.map Json.str := by
  rw [renameItems_eq_map, List.map_map]
  rfl

theorem renameFields_nil : renameFields old new [] = [] := rfl

theorem renameFields_plain {key : String} (plain : isIdentityKey key = false) (item : Json)
    (fields : List (String × Json)) :
    renameFields old new ((key, item) :: fields) =
      (key, renameReferences old new item) :: renameFields old new fields := by
  rw [renameFields, plain, Bool.false_and, if_neg Bool.false_ne_true]

theorem renameFields_identity {key : String} (identity : isIdentityKey key = true)
    (id : Option String) (fields : List (String × Json)) :
    renameFields old new ((key, optional id) :: fields) =
      (key, optional (id.map (renameId old new))) :: renameFields old new fields := by
  rw [renameFields, identity, Bool.true_and]
  cases id with
  | none => rfl
  | some id =>
    rw [optional, Option.map_some, optional, renameId]
    by_cases same : id = old
    · rw [if_pos (decide_eq_true (congrArg Json.str same)), if_pos same]
    · rw [if_neg fun equal => same (Json.str.inj (of_decide_eq_true equal)), if_neg same]
      rfl

theorem renameReferences_member (member : GroupMember) :
    renameReferences old new member.dump = (member.renameIds old new).dump := by
  have key : isIdentityKey "node_id" = true := by simp [isIdentityKey]
  have id (fields : List (String × Json)) :
      renameFields old new (("node_id", .str member.nodeId) :: fields) =
        ("node_id", .str (renameId old new member.nodeId)) :: renameFields old new fields :=
    renameFields_identity key (some member.nodeId) fields
  simp (disch := simp [isIdentityKey]) only [GroupMember.dump, GroupMember.renameIds,
    renameReferences, id, renameFields_plain, renameFields_nil]

theorem renameReferences_task (task : GroupTask) :
    renameReferences old new task.dump = (task.renameIds old new).dump := by
  simp (disch := simp [isIdentityKey]) only [GroupTask.dump, GroupTask.renameIds,
    renameReferences, renameFields_plain, renameFields_identity, renameItems_str,
    renameReferences_nat, renameFields_nil]

theorem renameReferences_dump (group : AgentGroup) :
    renameReferences old new group.dump = (group.renameIds old new).dump := by
  have members : renameItems old new (group.members.map GroupMember.dump) =
      (group.members.map (GroupMember.renameIds old new)).map GroupMember.dump := by
    rw [renameItems_eq_map, List.map_map, List.map_map]
    exact List.map_congr_left fun member _ => renameReferences_member member
  have tasks : renameItems old new (group.tasks.map GroupTask.dump) =
      (group.tasks.map (GroupTask.renameIds old new)).map GroupTask.dump := by
    rw [renameItems_eq_map, List.map_map, List.map_map]
    exact List.map_congr_left fun task _ => renameReferences_task task
  simp (disch := simp [isIdentityKey]) only [AgentGroup.dump, AgentGroup.renameIds,
    renameReferences, renameFields_plain, renameFields_identity, members, tasks,
    renameReferences_nat, renameFields_nil]

end Dumps

end AgentPark.Groups
