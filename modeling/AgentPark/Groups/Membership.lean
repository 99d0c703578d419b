import AgentPark.Groups.Repository
import AgentPark.Lib.Outcome

/-!
# Membership commands

The commands of `GroupMembership` and what they share with the node operations.
-/

namespace AgentPark.Groups

open Lib

/-- An unfinished task of the node. -/
def GroupTask.heldBy (nodeId : String) (task : GroupTask) : Bool :=
  task.ownerId = some nodeId && task.status ≠ .done

/-- A task whose owner has left. -/
def GroupTask.release (now : String) (task : GroupTask) : GroupTask :=
  { task with ownerId := none, status := .blocked, revision := task.revision + 1, updatedAt := now }

/-- The document of a group behind the departure of a member; the first member left leads it. -/
def AgentGroup.without (group : AgentGroup) (nodeId now : String) : AgentGroup :=
  let members := group.members.filter fun member => member.nodeId ≠ nodeId
  { group with
    members
    leaderId := if group.leaderId = some nodeId then members.head?.map GroupMember.nodeId
      else group.leaderId
    tasks := updateWhere (GroupTask.heldBy nodeId) (GroupTask.release now) group.tasks }

/-- `detach_member`. -/
def detachMember (c : Caller) (db : GroupStore) (group : AgentGroup) (nodeId reason : String) :
    AgentGroup × GroupStore :=
  let released := (group.tasks.filter (GroupTask.heldBy nodeId)).map (GroupTask.release c.now)
  let after := (group.without nodeId c.now).bump c.now
  let db := (db.deleteMembers fun row => row.nodeId = nodeId).cancelDeliveries fun delivery =>
    delivery.nodeId = nodeId && db.eventGroup delivery.eventSeq = some group.id
  let db := (db.put after).event c after .memberLeft none
    [("node_id", .str nodeId), ("reason", .str reason),
      ("released_tasks", .arr (released.map GroupTask.dump)),
      ("leader_id", optional after.leaderId)] [] false
  (after, db)

/-- The document of a group with a new member; without a leader, the member leads it. -/
def AgentGroup.withMember (group : AgentGroup) (member : GroupMember) (isPrivate : Bool) :
    AgentGroup :=
  { group with
    members := group.members ++ [member]
    leaderId := group.leaderId.or (some member.nodeId)
    isPrivate := group.isPrivate || isPrivate }

/-- What a new member causes in `move` and in `reconcile`. -/
def joinMember (c : Caller) (db : GroupStore) (group : AgentGroup) (member : GroupMember)
    (isPrivate : Bool) : Except GroupError (AgentGroup × GroupStore) := do
  let db ← db.insertMember member.nodeId group.id
  let after := (group.withMember member isPrivate).bump c.now
  .ok (after, (db.put after).event c after .memberJoined none [("member", member.dump)] [] false)

/-! ### Frames -/

structure SpatialMember where
  nodeId : String
  x : Rat
  y : Rat
  isPrivate : Bool := false
deriving DecidableEq

/-- `covered`. -/
def covered (bounds : GroupBounds) (node : SpatialMember) : Bool :=
  bounds.x ≤ node.x && node.x < bounds.x + bounds.width &&
    (bounds.y ≤ node.y && node.y < bounds.y + bounds.height)

/-- Two frames have a point in common, as `reconcile` and `plan_structure` check it. -/
def overlaps (bounds b : GroupBounds) : Bool :=
  bounds.x < b.x + b.width && bounds.x + bounds.width > b.x &&
    (bounds.y < b.y + b.height && bounds.y + bounds.height > b.y)

/-- The nodes that a frame covers, by node id. -/
def coveredNodes (bounds : GroupBounds) (nodes : List SpatialMember) :
    List (String × SpatialMember) :=
  (nodes.filter (covered bounds)).foldl (fun members node => dictSet members node.nodeId node) []

/-- The nodes join one after the other. -/
def joinMembers (c : Caller) :
    List (String × SpatialMember) → AgentGroup → GroupStore →
      Except GroupError (AgentGroup × GroupStore)
  | [], group, db => .ok (group, db)
  | (nodeId, node) :: nodes, group, db => do
    let (group, db) ← joinMember c db group { nodeId } node.isPrivate
    joinMembers c nodes group db

/-- The members leave one after the other. -/
def detachMembers (c : Caller) : List GroupMember → AgentGroup → GroupStore → AgentGroup × GroupStore
  | [], group, db => (group, db)
  | member :: members, group, db =>
    let (group, db) := detachMember c db group member.nodeId "frame_resized"
    detachMembers c members group db

/-- `reconcile`. -/
def reconcile (c : Caller) (db : GroupStore) (group : AgentGroup) (bounds : GroupBounds)
    (nodes : List SpatialMember) : Except GroupError (AgentGroup × GroupStore) := do
  require (∀ other ∈ db.groups, other.dissolved = false → other.id ≠ group.id →
      overlaps bounds other.bounds = false)
    (.conflict "组范围不能与其他组重叠；请调整边框后重试。")
  let members := coveredNodes bounds nodes
  require (∀ node ∈ members, ∀ owner, db.memberGroup node.1 = some owner → owner = group.id)
    (.conflict "范围内的 Agent 已属于其他组，请先调整其成员关系。")
  let leaving := group.members.filter fun member => member.nodeId ∉ members.map Prod.fst
  let (group, db) := detachMembers c leaving group db
  joinMembers c (members.filter fun node => node.1 ∉ group.memberIds) group db

/-! ### The commands -/

/-- `GroupMembership.create`; `id` is the new identifier. -/
def createGroup (c : Caller) (db : GroupStore) (command : CreateGroup) (isPrivate : Bool)
    (id : String) : Except GroupError (AgentGroup × GroupStore) := do
  let group : AgentGroup :=
    { id, name := command.name, objective := command.objective, bounds := command.bounds,
      members := command.members, leaderId := command.members.head?.map GroupMember.nodeId,
      isPrivate, createdAt := c.now, updatedAt := c.now }
  match command.members.find? fun member => (db.memberGroup member.nodeId).isSome with
  | some member => .error (.conflict ("node already belongs to a group: " ++ member.nodeId))
  | none =>
    let db ← insertAll group.members group.id (db.put group)
    .ok (group, db.event c group .groupCreated none [("group", group.dump)] [] false)
where
  /-- `executemany("INSERT INTO members ..")`. -/
  insertAll : List GroupMember → String → GroupStore → Except GroupError GroupStore
    | [], _, db => .ok db
    | member :: members, groupId, db => do
      let db ← db.insertMember member.nodeId groupId
      insertAll members groupId db

/-- The fields that an edit of the plan and the frame changes, as event payload. -/
def changedFields (group edited : AgentGroup) : List (String × Json) :=
  (if edited.name = group.name then [] else [("name", .str edited.name)]) ++
    if edited.objective = group.objective then [] else [("objective", .str edited.objective)]

/-- The document of a group with a new plan and frame. -/
def AgentGroup.edit (group : AgentGroup) (name objective : Option String)
    (bounds : Option GroupBounds) : AgentGroup :=
  { group with
    name := name.getD group.name
    objective := objective.getD group.objective
    bounds := bounds.getD group.bounds }

/-- Save an edited group and report what changed, when something did. -/
def saveEdited (c : Caller) (db : GroupStore) (group edited : AgentGroup) :
    AgentGroup × GroupStore :=
  if edited = group then (group, db)
  else
    let after := edited.bump c.now
    (after, (db.put after).event c after .groupUpdated none (changedFields group edited) [] false)

/-- `reconcile`, when the frame is to change; a resize needs a layout. -/
def resize (c : Caller) (db : GroupStore) (group : AgentGroup) (bounds : Option GroupBounds)
    (layout : Option (List SpatialMember)) : Except GroupError (AgentGroup × GroupStore) :=
  match bounds, layout with
  | none, _ => .ok (group, db)
  | some _, none => .error (.conflict "resizing requires an authoritative node layout")
  | some bounds, some nodes => reconcile c db group bounds nodes

/-- `GroupMembership.configure`. -/
def configure (c : Caller) (db : GroupStore) (groupId : String) (expectedRevision : Nat)
    (name objective : Option String) (bounds : Option GroupBounds)
    (layout : Option (List SpatialMember)) : Except GroupError (AgentGroup × GroupStore) := do
  require (bounds.isSome → layout.isSome)
    (.conflict "resizing requires an authoritative node layout")
  let group ← db.read groupId none
  require (group.revision = expectedRevision) (.conflict "group changed; refresh before editing")
  let (group, db) ← resize c db group bounds layout
  .ok (saveEdited c db group (group.edit name objective bounds))

/-- `UpdatePlan`. -/
structure UpdatePlan where
  expectedName : String
  expectedObjective : String
  name : String
  objective : String

/-- `GroupMembership.update_plan`. -/
def updatePlan (c : Caller) (db : GroupStore) (groupId : String) (command : UpdatePlan) :
    Except GroupError (AgentGroup × GroupStore) := do
  let group ← db.read groupId none
  require (group.name = command.expectedName ∧ group.objective = command.expectedObjective)
    (.conflict "计划已被其他人修改；草稿已保留，请查看最新计划后再编辑。")
  .ok (saveEdited c db group (group.edit (some command.name) (some command.objective) none))

/-- The member leaves the group it is in. -/
def leaveSource (c : Caller) (db : GroupStore) (nodeId : String) :
    Option String → Except GroupError GroupStore
  | none => .ok db
  | some sourceId => do
    let source ← db.read sourceId none
    .ok (detachMember c db source nodeId "left").2

/-- `GroupMembership.move`. -/
def move (c : Caller) (db : GroupStore) (nodeId : String)
    (targetGroupId expectedSource : Option String) (role : String) (isPrivate : Bool) :
    Except GroupError (Option AgentGroup × GroupStore) := do
  let sourceId := db.memberGroup nodeId
  require (sourceId = expectedSource)
    (.conflict "membership changed; refresh before moving this node")
  match targetGroupId with
  | none =>
    let db ← leaveSource c db nodeId sourceId
    .ok (none, db)
  | some targetId =>
    let target ← db.read targetId none
    if sourceId = some targetId then .ok (some target, db)
    else
      let db ← leaveSource c db nodeId sourceId
      let (target, db) ← joinMember c db target { nodeId, role } isPrivate
      .ok (some target, db)

/-- `GroupMembership.update_role`. -/
def updateRole (c : Caller) (db : GroupStore) (groupId nodeId expectedRole role : String) :
    Except GroupError (AgentGroup × GroupStore) := do
  let group ← db.read groupId none
  match group.members.find? fun member => member.nodeId = nodeId with
  | none => .error (.conflict "node is no longer a member of this group")
  | some current =>
    require (current.role = expectedRole)
      (.conflict "member role changed; refresh before editing")
    if current.role = role then .ok (group, db)
    else
      let members := updateWhere (fun member => member.nodeId = nodeId)
        (fun member => { member with role }) group.members
      let after := { group with members }.bump c.now
      .ok (after, (db.put after).event c after .memberRoleUpdated none
        [("member", GroupMember.dump { nodeId, role })] [] false)

/-- `GroupMembership.set_leader`. -/
def setLeader (c : Caller) (db : GroupStore) (groupId : String) (expectedLeaderId : Option String)
    (leaderId : String) : Except GroupError (AgentGroup × GroupStore) := do
  let group ← db.read groupId none
  require (group.leaderId = expectedLeaderId) (.conflict "组长已被修改，请刷新后重试。")
  require (leaderId ∈ group.memberIds) (.conflict "只能将当前组员设为组长。")
  if group.leaderId = some leaderId then .ok (group, db)
  else
    let after := { group with leaderId := some leaderId }.bump c.now
    .ok (after, (db.put after).event c after .groupLeaderChanged none
      [("leader_id", .str leaderId)] [] false)

/-- `GroupMembership.dissolve`. -/
def dissolve (c : Caller) (db : GroupStore) (groupId : String) (expectedRevision : Nat) :
    Except GroupError (AgentGroup × GroupStore) := do
  let group ← db.read groupId none
  require (group.revision = expectedRevision) (.conflict "group changed; refresh before dissolving")
  let after := { group with dissolved := true }.bump c.now
  let db := ((db.put after).deleteMembers fun row => row.groupId = groupId).cancelDeliveries
    fun delivery => db.eventGroup delivery.eventSeq = some groupId
  .ok (after, db.event c after .groupDissolved none [("name", .str after.name)] [] false)

/-- `GroupMembership.protect_member_history`. -/
def protectMemberHistory (c : Caller) (db : GroupStore) (nodeId : String) :
    Except GroupError GroupStore :=
  match db.memberGroup nodeId with
  | none => .ok db
  | some groupId => do
    let group ← db.read groupId none
    if group.isPrivate then .ok db
    else
      let after := { group with isPrivate := true }.bump c.now
      .ok ((db.put after).event c after .groupVisibilityChanged none
        [("private", .bool true)] [] false)

end AgentPark.Groups
