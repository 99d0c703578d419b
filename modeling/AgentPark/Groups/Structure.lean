import AgentPark.Groups.Membership
import AgentPark.Groups.Tasks

/-!
# Importing the structure of a graph

A synchronisation copies node configurations, the graph configuration and the groups of a source
graph.  `planStructure` previews the import (`plan_structure`), `applyStructure` carries a plan out
(`apply_structure`) and refuses when the graph has changed since.

A digest of a value stands for the value.  The tests and normal forms of single fields, which other
parts of the program provide, are the fields of `Machine`.
-/

namespace AgentPark.Groups

open Lib

/-! ### The values of a synchronisation -/

/-- `GROUP_FIELDS`. -/
structure GroupFields where
  id : String
  name : String
  objective : String
  bounds : GroupBounds
  members : List GroupMember
  isPrivate : Bool
deriving DecidableEq

/-- `model_dump(include=GROUP_FIELDS)`. -/
def AgentGroup.fields (group : AgentGroup) : GroupFields where
  id := group.id
  name := group.name
  objective := group.objective
  bounds := group.bounds
  members := group.members
  isPrivate := group.isPrivate

def GroupFields.memberIds (group : GroupFields) : List String :=
  group.members.map GroupMember.nodeId

/-- A node of a bundle with its configuration. -/
structure BundleNode where
  id : String
  config : List (String × Json)

/-- The structural part of a bundle. -/
structure Bundle where
  graph : List (String × Json)
  groups : List GroupFields
  nodes : List BundleNode

/-- The directory of a graph: its configuration, those of its nodes, and the group store. -/
structure GraphDirectory where
  config : Option Json := none
  nodes : List (String × Json) := []
  store : GroupStore := .empty

/-- A file that an import writes; without a node it is the configuration of the graph. -/
structure FileChange where
  node : Option String
  before : Option Json
  after : Json

structure StructurePlan where
  files : List FileChange
  groupsBefore : List GroupFields
  groups : List GroupFields

/-- What other parts of the program say about single fields: the installed node types, the checks of
the capability fields, the normal forms of a `ui` and of the routes. -/
structure Machine where
  installed : String → Bool
  validate : List (String × Json) → Except GroupError Unit
  normalizeUi : Json → Except GroupError Json
  normalizeRoutes : Option Json → List String → Except GroupError Json
  schemaVersion : Nat

/-- `groups`. -/
def GroupStore.activeFields (db : GroupStore) : List GroupFields :=
  (db.groups.filter fun group => !group.dissolved).map AgentGroup.fields

/-- `(value or {}).get("private")` as a truth value. -/
def marksPrivate (config : Option Json) : Bool := ((config.bind (Json.get "private")).any Json.truthy)

/-! ### Planning -/

/-- `RUNTIME_STATE_FIELDS`. -/
def runtimeStateFields : List String :=
  ["state", "pending", "pending_count", "held_outputs", "inflight", "inflight_at",
    "_stop_requested", "_delete_requested", "node_event_seq", "last_message",
    "last_output_resources", "last_run_at", "last_runtime_event", "runtime_events",
    "runtime_tool_calls", "provider_request_summaries", "provider_request_totals",
    "completed_requests", "last_completed_request", "goal", "goal_state", "_clock_running",
    "_clock_next_fire_at", "_clock_remaining_seconds", "_clock_trigger_count"]

/-- `GRAPH_FIELDS`. -/
def graphFields : List String :=
  ["name", "working_path", "output_routes", "layout", "node_notes", "private"]

/-- A version that `_migrate_config` accepts. -/
def knownVersion (machine : Machine) (version : Json) : Bool :=
  (List.range machine.schemaVersion).any fun n => version = .nat (n + 1)

/-- `_migrate_config`. -/
def migrateConfig (machine : Machine) (config : List (String × Json)) :
    Except GroupError (List (String × Json)) :=
  match config.lookup "schemaVersion" with
  | none => .ok (dictSet config "schemaVersion" (.nat machine.schemaVersion))
  | some .null => .ok (dictSet config "schemaVersion" (.nat machine.schemaVersion))
  | some version =>
    if knownVersion machine version then .ok config
    else .error (.value "unsupported node config schemaVersion")

/-- The normal form of the `ui` field, when it is there. -/
def normalizeNodeUi (machine : Machine) (config : List (String × Json)) :
    Except GroupError (List (String × Json)) :=
  match config.lookup "ui" with
  | none => .ok config
  | some ui => do
    let ui ← machine.normalizeUi ui
    .ok (dictSet config "ui" ui)

/-- The type that a configuration names, when it is set. -/
def typeId (config : List (String × Json)) : Option String :=
  match config.lookup "type_id" with
  | some (.str id) => if id = "" then none else some id
  | _ => none

/-- The configuration that the import writes for a node over `before`. -/
def incomingConfig (machine : Machine) (targetGraph : String) (node : BundleNode)
    (before : Option Json) : Except GroupError Json := do
  require (∀ field ∈ node.config, field.1 ∉ runtimeStateFields)
    (.sync "节点配置不能包含运行状态。")
  let config := dictSet (dictSet node.config "graph_id" (.str targetGraph)) "node_id" (.str node.id)
  match typeId config with
  | none => .error (.sync "节点类型缺失。")
  | some type =>
    require (machine.installed type = true) (.sync ("目标机器未安装节点类型：" ++ type))
    machine.validate config
    let config ← migrateConfig machine config
    let config ← normalizeNodeUi machine config
    let config := if marksPrivate before then dictSet config "private" (.bool true) else config
    require (∀ old, before = some old → old.truthy = true → old.get "type_id" = some (.str type))
      (.sync ("节点 " ++ node.id ++ " 在两端类型不同，不能覆盖。"))
    .ok (.obj config)

/-- The files of the nodes. -/
def planNodes (machine : Machine) (targetGraph : String) (nodes : List (String × Json)) :
    List BundleNode → Except GroupError (List (BundleNode × Json))
  | [] => .ok []
  | node :: rest => do
    let after ← incomingConfig machine targetGraph node (nodes.lookup node.id)
    let others ← planNodes machine targetGraph nodes rest
    .ok ((node, after) :: others)

/-- A field of the graph that the import merges: the entries of the copied nodes are replaced. -/
def mergedField (graph : Json) (copied : List String) (field : String) (value : Json) :
    Except GroupError Json :=
  if field = "output_routes" ∨ field = "node_notes" then
    match value, (graph.get field).getD (.obj []) with
    | .obj new, .obj old =>
      .ok (.obj (new.foldl (fun fields entry => dictSet fields entry.1 entry.2)
        (old.filter fun entry => entry.1 ∉ copied)))
    | _, _ => .error (.value "TypeError")
  else .ok value

/-- The fields of the graph with those of the bundle. -/
def mergeGraph (graph : Json) (copied : List String) :
    List (String × Json) → List (String × Json) → Except GroupError (List (String × Json))
  | [], after => .ok after
  | (field, value) :: fields, after => do
    require (field ∈ graphFields) (.sync ("不支持的 Graph 配置字段：" ++ field))
    let value ← mergedField graph copied field value
    mergeGraph graph copied fields (dictSet after field value)

/-- The entries of an object. -/
def entries : Json → List (String × Json)
  | .obj fields => fields
  | _ => []

/-- The graph configuration that the import writes. -/
def incomingGraph (machine : Machine) (targetGraph : String) (graph : Json) (bundle : Bundle)
    (allIds : List String) : Except GroupError Json := do
  let after ← mergeGraph graph (bundle.nodes.map BundleNode.id) bundle.graph (entries graph)
  let after := dictSet after "id" (.str targetGraph)
  let after := if marksPrivate (some graph) then dictSet after "private" (.bool true) else after
  let routes ← machine.normalizeRoutes (after.lookup "output_routes") allIds
  .ok (.obj (dictSet after "output_routes" routes))

/-- The groups by id, with those of the bundle. -/
def indexGroups (allIds : List String) :
    List GroupFields → List (String × GroupFields) → Except GroupError (List (String × GroupFields))
  | [], indexed => .ok indexed
  | group :: groups, indexed => do
    require (∀ id ∈ group.memberIds, id ∈ allIds) (.sync "分组引用了不存在的节点。")
    let value := if (indexed.lookup group.id).any GroupFields.isPrivate
      then { group with isPrivate := true } else group
    indexGroups allIds groups (dictSet indexed group.id value)

/-- The first value that has come before. -/
def firstRepeated : List String → List String → Option String
  | _, [] => none
  | seen, id :: ids => if id ∈ seen then some id else firstRepeated (id :: seen) ids

/-- The frames of the groups lie apart; `before` are the groups that have been checked. -/
def checkFrames : List GroupFields → List GroupFields → Except GroupError Unit
  | _, [] => .ok ()
  | before, group :: groups =>
    match before.find? fun other => overlaps group.bounds other.bounds with
    | some other => .error (.sync ("分组 " ++ group.name ++ " 与 " ++ other.name ++
        " 的范围重叠，请使用空目标 Graph 或调整范围。"))
    | none => checkFrames (before ++ [group]) groups

/-- `require_task_owners`. -/
def requireTaskOwners (old : AgentGroup) (incoming : GroupFields) : Except GroupError Unit :=
  require (∀ task ∈ old.tasks, task.status ≠ .done → ∀ owner, task.ownerId = some owner →
      owner ≠ "" → owner ∈ incoming.memberIds)
    (.sync ("目标分组 " ++ old.name ++ " 的未完成任务负责人会离组，请先转交或完成这些任务。"))

/-- `require_task_owners` for the groups that a list of fields replaces. -/
def requireOwners (groups : List AgentGroup) : List GroupFields → Except GroupError Unit
  | [] => .ok ()
  | value :: values => do
    match findRow AgentGroup.id value.id groups with
    | some old => requireTaskOwners old value
    | none => .ok ()
    requireOwners groups values

/-- The groups that the import leaves: those of the bundle replace those of the target. -/
def planGroups (db : GroupStore) (bundle : Bundle) (allIds privateNodes : List String) :
    Except GroupError (List GroupFields) := do
  let indexed ← indexGroups allIds bundle.groups (db.activeFields.map fun group => (group.id, group))
  match firstRepeated [] (indexed.flatMap fun entry => entry.2.memberIds) with
  | some id => .error (.sync ("节点 " ++ id ++ " 将属于多个分组，请先处理目标分组。"))
  | none =>
    let groups := indexed.map fun entry =>
      { entry.2 with
        isPrivate := entry.2.isPrivate || entry.2.memberIds.any fun id => id ∈ privateNodes }
    checkFrames [] groups
    requireOwners (db.groups.filter fun group => !group.dissolved) groups
    .ok groups

/-- `plan_structure`. -/
def planStructure (machine : Machine) (targetGraph : String) (dir : GraphDirectory)
    (bundle : Bundle) : Except GroupError StructurePlan := do
  let planned ← planNodes machine targetGraph dir.nodes bundle.nodes
  let graph := dir.config.getD (.obj [])
  let allIds := dir.nodes.map Prod.fst ++ bundle.nodes.map BundleNode.id
  let after ← incomingGraph machine targetGraph graph bundle allIds
  let privateNodes := ((dir.nodes.filter fun node => marksPrivate (some node.2)).map Prod.fst) ++
    (planned.filter fun entry => marksPrivate (some entry.2)).map fun entry => entry.1.id
  let groups ← planGroups dir.store bundle allIds privateNodes
  let files := (planned.map fun entry =>
    FileChange.mk (some entry.1.id) (dir.nodes.lookup entry.1.id) entry.2) ++
      [FileChange.mk none (some graph) after]
  .ok {
    files := files.filter fun change =>
      !change.before.any fun before => before.pyEq change.after
    groupsBefore := dir.store.activeFields
    groups }

/-! ### Applying -/

/-- The file of a change as it stands. -/
def GraphDirectory.current (dir : GraphDirectory) : Option String → Option Json
  | none => some (dir.config.getD (.obj []))
  | some node => dir.nodes.lookup node

/-- Write the file of a change. -/
def GraphDirectory.write (dir : GraphDirectory) (change : FileChange) : GraphDirectory :=
  match change.node with
  | none => { dir with config := some change.after }
  | some node => { dir with nodes := dictSet dir.nodes node change.after }

/-- The file has the value it is to get, or the one it had when the plan was made. -/
def FileChange.isCurrent (change : FileChange) : Option Json → Bool
  | none => change.before.isNone
  | some current =>
    current.pyEq change.after || change.before.any fun before => current.pyEq before

/-- The checks before anything is written. -/
def checkPlan (dir : GraphDirectory) (plan : StructurePlan) : Except GroupError Unit := do
  require (∀ change ∈ plan.files, change.isCurrent (dir.current change.node) = true)
    (.sync "预览后 Graph/节点配置发生变化，请重新预览。")
  require (dir.store.activeFields = plan.groupsBefore ∨ dir.store.activeFields = plan.groups)
    (.sync "预览后分组发生变化，请重新预览。")

/-- The document that the import writes over the one with the same id. -/
def importedGroup (c : Caller) (old : Option AgentGroup) (value : GroupFields) : AgentGroup where
  id := value.id
  name := value.name
  objective := value.objective
  bounds := value.bounds
  members := value.members
  isPrivate := value.isPrivate
  tasks := (old.map AgentGroup.tasks).getD []
  revision := (old.map fun group => group.revision + 1).getD 1
  createdAt := (old.map AgentGroup.createdAt).getD c.now
  updatedAt := c.now

/-- The group is in the store as the plan has it. -/
def unchanged (old : Option AgentGroup) (value : GroupFields) : Bool :=
  old.any fun group => group.fields = value && !group.dissolved

/-- Save the groups of a plan and index their members; `existing` are the groups before. -/
def importRows (c : Caller) (existing : List AgentGroup) :
    List GroupFields → GroupStore → Except GroupError GroupStore
  | [], db => .ok db
  | value :: values, db => do
    let old := findRow AgentGroup.id value.id existing
    let db := if unchanged old value then db else db.put (importedGroup c old value)
    let db ← createGroup.insertAll value.members value.id db
    importRows c existing values db

/-- The transaction of `apply_structure` on the group store. -/
def importGroups (c : Caller) (db : GroupStore) (plan : StructurePlan) :
    Except GroupError GroupStore := do
  require (∀ delivery ∈ db.deliveries, delivery.state ≠ .pending)
    (.sync "目标分组还有待投递消息，请等待队列完成后重试。")
  require (db.activeFields = plan.groupsBefore ∨ db.activeFields = plan.groups)
    (.sync "提交时分组被其他操作修改。")
  requireOwners db.groups plan.groups
  importRows c db.groups plan.groups (db.deleteMembers fun _ => true)

/-- `apply_structure`, with what it raises and the directory it leaves. -/
def applyStructure (c : Caller) (dir : GraphDirectory) (plan : StructurePlan) :
    Option GroupError × GraphDirectory :=
  match checkPlan dir plan with
  | .error e => (some e, dir)
  | .ok () =>
    let written := plan.files.foldl GraphDirectory.write dir
    if dir.store.activeFields = plan.groups then (none, written)
    else
      match importGroups c dir.store plan with
      | .error e => (some e, written)
      | .ok store => (none, { written with store })

end AgentPark.Groups
