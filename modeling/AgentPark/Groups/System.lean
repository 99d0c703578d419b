import AgentPark.Groups.Delivery
import AgentPark.Groups.Lifecycle
import AgentPark.Groups.Structure
import AgentPark.Lib.Execution

/-!
# The groups of a graph under every sequence of operations

`GroupCommand.run` performs a command on the group store.  `GroupSystem` adds what the operations on
nodes and graphs touch: the files of the graph, the nodes that can be restored, and the previews of
structure imports.  `GroupSystem.step` performs one operation; a command that raises leaves the
system as it was.

An identifier that a command draws is a new one; a step that draws an old one is not enabled.
-/

namespace AgentPark.Groups

open Lib

/-- The commands of `GroupMembership`, `GroupTasks`, `GroupMessages` and `GroupDelivery`. -/
inductive GroupCommand where
  | create (command : CreateGroup) (isPrivate : Bool) (id : String)
  | configure (groupId : String) (expectedRevision : Nat) (name objective : Option String)
      (bounds : Option GroupBounds) (layout : Option (List SpatialMember))
  | updatePlan (groupId : String) (command : UpdatePlan)
  | move (nodeId : String) (targetGroupId expectedSource : Option String) (role : String)
      (isPrivate : Bool)
  | updateRole (groupId nodeId expectedRole role : String)
  | setLeader (groupId : String) (expectedLeaderId : Option String) (leaderId : String)
  | dissolve (groupId : String) (expectedRevision : Nat)
  | protectMemberHistory (nodeId : String)
  | createTask (policy : TaskNotifications) (groupId : String) (command : CreateTask)
      (actorId : Option String) (id : String)
  | updateTask (policy : TaskNotifications) (groupId taskId : String) (command : UpdateTask)
      (actorId : Option String)
  | publish (groupId : String) (command : PublishMessage) (actorId : Option String)
  | resolve (nodeId : String) (reference : DeliveryReference)
  | complete (nodeId : String) (events : List Event) (error reply : Option String)
  | recordDelivery (seq : Nat) (nodeId : String) (error : Option String)

/-- The store a command leaves, or what it raises. -/
def GroupCommand.run (c : Caller) (db : GroupStore) : GroupCommand → Except GroupError GroupStore
  | create command isPrivate id => (createGroup c db command isPrivate id).map Prod.snd
  | configure groupId revision name objective bounds layout =>
    (Groups.configure c db groupId revision name objective bounds layout).map Prod.snd
  | updatePlan groupId command => (Groups.updatePlan c db groupId command).map Prod.snd
  | move nodeId target source role isPrivate =>
    (Groups.move c db nodeId target source role isPrivate).map Prod.snd
  | updateRole groupId nodeId expected role =>
    (Groups.updateRole c db groupId nodeId expected role).map Prod.snd
  | setLeader groupId expected leaderId =>
    (Groups.setLeader c db groupId expected leaderId).map Prod.snd
  | dissolve groupId revision => (Groups.dissolve c db groupId revision).map Prod.snd
  | protectMemberHistory nodeId => Groups.protectMemberHistory c db nodeId
  | createTask policy groupId command actorId id =>
    (Groups.createTask c policy db groupId command actorId id).map Prod.snd
  | updateTask policy groupId taskId command actorId =>
    (Groups.updateTask c policy db groupId taskId command actorId).map Prod.snd
  | publish groupId command actorId => (Groups.publish c db groupId command actorId).map Prod.snd
  | resolve nodeId reference => (Groups.resolve db nodeId reference).map Prod.snd
  | complete nodeId events error reply => Groups.complete c db nodeId events error reply
  | recordDelivery seq nodeId error => .ok (Groups.recordDelivery db seq nodeId error)

/-- The identifier that a command draws is new. -/
def GroupCommand.Fresh (db : GroupStore) : GroupCommand → Prop
  | create _ _ id => id ∉ db.groups.map AgentGroup.id
  | createTask _ _ _ _ id => ∀ group ∈ db.groups, id ∉ group.tasks.map GroupTask.id
  | _ => True

instance (db : GroupStore) : (command : GroupCommand) → Decidable (command.Fresh db)
  | .create _ _ id => inferInstanceAs (Decidable (id ∉ db.groups.map AgentGroup.id))
  | .createTask _ _ _ _ id =>
    inferInstanceAs (Decidable (∀ group ∈ db.groups, id ∉ group.tasks.map GroupTask.id))
  | .configure .. | .updatePlan .. | .move .. | .updateRole .. | .setLeader .. | .dissolve ..
  | .protectMemberHistory .. | .updateTask .. | .publish .. | .resolve .. | .complete ..
  | .recordDelivery .. => inferInstanceAs (Decidable True)

/-- What the undo of a deletion keeps. -/
structure DeletedNode where
  nodeId : String
  config : Json
  member : Option DeletedMember

/-- The operations on the groups, nodes and files of a graph. -/
inductive GroupOp where
  | command (c : Caller) (command : GroupCommand)
  | createNode (nodeId : String) (config : Json)
  | hideNode (nodeId : String)
  | removeNode (c : Caller) (nodeId reason : String)
  | restoreNode (c : Caller) (index : Nat)
  | renameNode (c : Caller) (old new : String)
  | planImport (machine : Machine) (targetGraph : String) (bundle : Bundle)
  | applyImport (c : Caller) (index : Nat)

/-- The directory of a graph, the nodes that can be restored and the previews of imports. -/
structure GroupSystem where
  dir : GraphDirectory := {}
  deleted : List DeletedNode := []
  plans : List StructurePlan := []

/-- A graph without groups. -/
def GroupSystem.start (config : Option Json) (nodes : List (String × Json)) : GroupSystem where
  dir := { config, nodes }

/-- The same system with another store. -/
def GroupSystem.withStore (s : GroupSystem) (store : GroupStore) : GroupSystem :=
  { s with dir := { s.dir with store } }

/-- The configuration of a node that has become private. -/
def hidden : Json → Json
  | .obj fields => .obj (dictSet fields "private" (.bool true))
  | config => config

/-- The owner makes a node private. -/
def GroupSystem.hide (s : GroupSystem) (nodeId : String) : GroupSystem :=
  let nodes := updateWhere (fun node => node.1 = nodeId) (fun node => (node.1, hidden node.2))
    s.dir.nodes
  { s with dir := { s.dir with nodes } }

/-- A node leaves the graph, and its group with it. -/
def GroupSystem.remove (s : GroupSystem) (c : Caller) (nodeId reason : String) : GroupSystem :=
  match s.dir.nodes.lookup nodeId, nodeDeparture c s.dir.store nodeId reason with
  | some config, .ok (member, store) =>
    { s with
      dir := { s.dir with nodes := s.dir.nodes.filter fun node => node.1 ≠ nodeId, store }
      deleted := s.deleted ++ [{ nodeId, config, member }] }
  | _, _ => s

/-- The undo of a deletion. -/
def GroupSystem.restore (s : GroupSystem) (c : Caller) (node : DeletedNode) : GroupSystem :=
  if node.nodeId ∈ s.dir.nodes.map Prod.fst then s
  else
    match node.member with
    | none => { s with dir := { s.dir with nodes := s.dir.nodes ++ [(node.nodeId, node.config)] } }
    | some saved =>
      match restoreDeletedMember c s.dir.store saved with
      | .error _ => s
      | .ok store =>
        { s with dir :=
          { s.dir with nodes := s.dir.nodes ++ [(node.nodeId, node.config)], store } }

/-- A node gets a new name.  An empty name is refused. -/
def GroupSystem.rename (s : GroupSystem) (c : Caller) (old new : String) : GroupSystem :=
  if old = "" ∨ new = "" ∨ old ∉ s.dir.nodes.map Prod.fst ∨ new ∈ s.dir.nodes.map Prod.fst then s
  else
    match nodeRename c s.dir.store old new with
    | .error _ => s
    | .ok store =>
      { s with dir :=
        { s.dir with
          nodes := s.dir.nodes.map fun node => (renameId old new node.1, node.2)
          store } }

def GroupSystem.step (s : GroupSystem) : GroupOp → Option GroupSystem
  | .command c command =>
    if command.Fresh s.dir.store then
      match command.run c s.dir.store with
      | .ok store => some (s.withStore store)
      | .error _ => some s
    else none
  | .createNode nodeId config =>
    if nodeId ∈ s.dir.nodes.map Prod.fst then none
    else some { s with dir := { s.dir with nodes := s.dir.nodes ++ [(nodeId, config)] } }
  | .hideNode nodeId => some (s.hide nodeId)
  | .removeNode c nodeId reason => some (s.remove c nodeId reason)
  | .restoreNode c index => s.deleted[index]?.map fun node => s.restore c node
  | .renameNode c old new => some (s.rename c old new)
  | .planImport machine targetGraph bundle =>
    match planStructure machine targetGraph s.dir bundle with
    | .ok plan => some { s with plans := s.plans ++ [plan] }
    | .error _ => some s
  | .applyImport c index => s.plans[index]?.map fun plan =>
    { s with dir := (applyStructure c s.dir plan).2 }

end AgentPark.Groups
