import AgentPark.Lib.Json
import Mathlib.Data.Rat.Floor

/-!
# The contracts of agent groups

The values that the group store keeps and that its commands take.  A value that a validator of the
contracts refuses cannot be built: the conditions are fields.

* `PublishMessage`, `CreateGroup`, `CreateTask`, `UpdateTask` are commands.

Coordinates are rational numbers.  The frame of a group is no part of its dump: dumps are read by
`_rename_references` and the readers of events, which do not look at it.
-/

namespace AgentPark.Groups

open Lib

/-- The rights of the author of an event. -/
inductive AccessRole where
  | developer
  | nondeveloper
deriving DecidableEq

def AccessRole.text : AccessRole → String
  | developer => "developer"
  | nondeveloper => "nondeveloper"

/-- What a command raises. -/
inductive GroupError where
  | notFound (text : String)
  | conflict (text : String)
  | permission (text : String)
  | sync (text : String)
  | value (text : String)
  | key (key : String)
  | integrity
deriving DecidableEq

theorem unit_pos : (0 : ℚ) < 1 := one_pos

/-- A frame on the canvas. -/
structure GroupBounds where
  x : Rat
  y : Rat
  width : Rat
  height : Rat
  width_pos : 0 < width
  height_pos : 0 < height
deriving DecidableEq

structure GroupMember where
  nodeId : String
  role : String := ""
deriving DecidableEq

inductive TaskStatus where
  | todo
  | inProgress
  | blocked
  | done
deriving DecidableEq

def TaskStatus.text : TaskStatus → String
  | todo => "todo"
  | inProgress => "in_progress"
  | blocked => "blocked"
  | done => "done"

structure GroupTask where
  id : String
  title : String
  description : String := ""
  status : TaskStatus := .todo
  ownerId : Option String := none
  dependencies : List String := []
  evidence : String := ""
  revision : Nat := 1
  createdAt : String
  updatedAt : String
deriving DecidableEq

/-- The document of a group, with its members and its task board. -/
structure AgentGroup where
  id : String
  name : String
  objective : String := ""
  bounds : GroupBounds
  members : List GroupMember := []
  leaderId : Option String := none
  tasks : List GroupTask := []
  revision : Nat := 1
  dissolved : Bool := false
  isPrivate : Bool := false
  createdAt : String
  updatedAt : String
deriving DecidableEq

/-- The node ids of the members. -/
def AgentGroup.memberIds (group : AgentGroup) : List String := group.members.map GroupMember.nodeId

structure CreateGroup where
  name : String
  members : List GroupMember
  bounds : GroupBounds
  objective : String := ""
  nonempty : members ≠ []
  unique : (members.map GroupMember.nodeId).Nodup

structure CreateTask where
  title : String
  description : String := ""
  ownerId : Option String := none
  dependencies : List String := []
  named : ownerId ≠ some "" := by decide

/-- A field that is not set is `none`; the owner may be set to `None`. -/
structure UpdateTask where
  expectedRevision : Nat
  title : Option String := none
  description : Option String := none
  status : Option TaskStatus := none
  ownerId : Option (Option String) := none
  dependencies : Option (List String) := none
  evidence : Option String := none
  named : ownerId ≠ some (some "") := by decide

structure MessageAttachment where
  uri : String
  name : String := ""
  kind : String
  mime : String := ""
  source : String := ""
deriving DecidableEq

inductive Intent where
  | action
  | update
deriving DecidableEq

def Intent.text : Intent → String
  | action => "action"
  | update => "update"

structure PublishMessage where
  text : String := ""
  attachments : List MessageAttachment := []
  requestId : String
  recipientId : Option String := none
  intent : Intent := .action
  broadcastReason : String := ""
  content : text ≠ "" ∨ attachments ≠ []
  shared : intent = .update → recipientId = none ∧ broadcastReason = ""
  direct : recipientId ≠ none → broadcastReason = ""

/-! ### Dumps -/

/-- A text or `None`. -/
def optional : Option String → Json
  | none => .null
  | some text => .str text

def GroupMember.dump (member : GroupMember) : Json :=
  .obj [("node_id", .str member.nodeId), ("role", .str member.role)]

def GroupTask.dump (task : GroupTask) : Json :=
  .obj [("id", .str task.id), ("title", .str task.title), ("description", .str task.description),
    ("status", .str task.status.text), ("owner_id", optional task.ownerId),
    ("dependencies", .arr (task.dependencies.map .str)), ("evidence", .str task.evidence),
    ("revision", .nat task.revision), ("created_at", .str task.createdAt),
    ("updated_at", .str task.updatedAt)]

/-- `model_dump`, with the keys in the order of the fields. -/
def AgentGroup.dump (group : AgentGroup) : Json :=
  .obj [("id", .str group.id), ("name", .str group.name), ("objective", .str group.objective),
    ("members", .arr (group.members.map GroupMember.dump)), ("leader_id", optional group.leaderId),
    ("tasks", .arr (group.tasks.map GroupTask.dump)), ("revision", .nat group.revision),
    ("dissolved", .bool group.dissolved), ("private", .bool group.isPrivate),
    ("created_at", .str group.createdAt), ("updated_at", .str group.updatedAt)]

def MessageAttachment.dump (item : MessageAttachment) : Json :=
  .obj [("uri", .str item.uri), ("name", .str item.name), ("kind", .str item.kind),
    ("mime", .str item.mime), ("source", .str item.source)]

/-- `model_dump_json`; a message without attachments leaves the field out. -/
def PublishMessage.dump (command : PublishMessage) : Json :=
  .obj ([("text", .str command.text)] ++
    (if command.attachments = [] then []
      else [("attachments", .arr (command.attachments.map MessageAttachment.dump))]) ++
    [("request_id", .str command.requestId), ("recipient_id", optional command.recipientId),
      ("intent", .str command.intent.text), ("broadcast_reason", .str command.broadcastReason)])

end AgentPark.Groups
