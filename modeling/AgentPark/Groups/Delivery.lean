import AgentPark.Groups.Tasks
import Mathlib.Data.String.Basic
import Mathlib.Data.List.Sort

/-!
# Messages and their delivery
-/

namespace AgentPark.Groups

open Lib

/-! ### Publishing -/

/-- `"user"` or `"node:" + actor_id`. -/
def actorKey : Option String → String
  | none => "user"
  | some actor => "node:" ++ actor

/-- Who an action without a recipient goes to: an agent's broadcast to all members, a user's message
to the leader. -/
def routedRecipient (group : AgentGroup) (command : PublishMessage) (actorId : Option String) :
    Except GroupError (Option String) :=
  if actorId = none ∧ command.intent = .action ∧ command.recipientId = none ∧
      pyStrip command.broadcastReason = "" then
    match group.leaderId with
    | none => .error (.conflict "组内没有可接收消息的组长。")
    | some leader =>
      if leader ∈ group.memberIds then .ok (some leader)
      else .error (.conflict "组内没有可接收消息的组长。")
  else .ok command.recipientId

/-- The recipients of a message. -/
def messageTargets (group : AgentGroup) (command : PublishMessage) (recipientId : Option String) :
    List String :=
  if command.intent = .update then []
  else
    match recipientId with
    | some recipient => [recipient]
    | none => group.memberIds

/-- The payload of a message event. -/
def messagePayload (command : PublishMessage) (recipientId : Option String) :
    List (String × Json) :=
  [("text", .str command.text), ("recipient_id", optional recipientId),
    ("intent", .str command.intent.text), ("broadcast_reason", .str command.broadcastReason),
    ("attachments", .arr (command.attachments.map MessageAttachment.dump))]

/-- The request that a message is recorded under. -/
def PublishMessage.request (command : PublishMessage) (groupId : String) (actorId : Option String)
    (seq : Nat) : MessageRequest where
  groupId := groupId
  actorKey := actorKey actorId
  requestId := command.requestId
  command := command.dump
  eventSeq := seq

/-- Write the event of a message and record its request. -/
def GroupStore.send (db : GroupStore) (c : Caller) (group : AgentGroup) (command : PublishMessage)
    (actorId recipientId : Option String) : Except GroupError (Event × GroupStore) := do
  let kind := if command.intent = .update then .update else .message
  let payload := messagePayload command recipientId
  let event := db.newEvent c group kind actorId payload
  let db ← (db.event c group kind actorId payload (messageTargets group command recipientId)
    false).insertRequest (command.request group.id actorId event.seq) (by
      rw [GroupStore.event_events, List.map_append]
      exact List.mem_append_right _ (List.mem_singleton_self _))
  .ok (event, db)

/-- `GroupMessages.publish`. -/
def publish (c : Caller) (db : GroupStore) (groupId : String) (command : PublishMessage)
    (actorId : Option String) : Except GroupError (Event × GroupStore) := do
  let group ← db.read groupId actorId
  require (∀ recipient, command.recipientId = some recipient → recipient ∈ group.memberIds)
    (.permission "recipient must be a current group member")
  require (command.recipientId = none ∨ command.recipientId ≠ actorId)
    (.conflict "send to a teammate, not yourself")
  require (actorId = none ∨ command.intent ≠ .action ∨ command.recipientId ≠ none ∨
      pyStrip command.broadcastReason ≠ "")
    (.conflict ("peer actions require recipient_id; use group_post_update for shared status " ++
      "or group_broadcast_message with a reason why all members must act"))
  match findRow MessageRequest.key (groupId, actorKey actorId, command.requestId) db.requests with
  | some previous =>
    if previous.command ≠ command.dump then
      .error (.conflict "request_id was already used for another message")
    else
      match findRow Event.seq previous.eventSeq db.events with
      | some event => .ok (event, db)
      | none => .error (.value "TypeError")
  | none => do
    let recipientId ← routedRecipient group command actorId
    db.send c group command actorId recipientId

/-! ### Delivery -/

/-- `DeliveryReference`. -/
structure DeliveryReference where
  groupId : String
  eventSeqs : List Nat
deriving DecidableEq

/-- The delivery of an event to the node is pending. -/
def GroupStore.isPending (db : GroupStore) (seq : Nat) (nodeId : String) : Bool :=
  db.deliveries.any fun delivery =>
    delivery.eventSeq = seq && delivery.nodeId = nodeId && delivery.state = .pending

/-- `payload['_access_role']`. -/
def Event.accessRole (event : Event) : Option Json := event.payload.get "_access_role"

/-- `payload['action_tasks'][node_id]`. -/
def Event.actionTasks (event : Event) (nodeId : String) : Option Json :=
  (event.payload.get "action_tasks").bind fun actions => actions.get nodeId

def items : Json → List Json
  | .arr items => items
  | _ => []

/-- The pending events of the group for the node, oldest first. -/
def GroupStore.pendingEvents (db : GroupStore) (nodeId groupId : String) : List Event :=
  db.events.filter fun event => event.groupId = groupId && db.isPending event.seq nodeId

/-- The events that a wakeup delivers, oldest first. -/
def GroupStore.batch (db : GroupStore) (nodeId groupId : String) (role : Option Json) :
    List Event :=
  ((db.pendingEvents nodeId groupId).filter fun event => event.accessRole = role).take 100

/-- `UPDATE deliveries SET state='cancelled' WHERE event_seq=? AND node_id=?`. -/
def GroupStore.cancelDelivery (db : GroupStore) (seq : Nat) (nodeId : String) : GroupStore :=
  db.updateDeliveries (fun delivery => delivery.eventSeq = seq && delivery.nodeId = nodeId)
    (fun delivery => { delivery with state := .cancelled }) GroupStore.recipient_cancelled

/-- A task event still asks the node to act. -/
def concerns (group : AgentGroup) (nodeId : String) (taskIds : Json) : Bool :=
  group.tasks.any fun task =>
    .str task.id ∈ items taskIds && task.ownerId = some nodeId && ready group task

/-- The loop of `resolve` for a node that is a member of the group. -/
def resolveRows (group : AgentGroup) (nodeId : String) :
    List Event → GroupStore → Except GroupError (List Event × GroupStore)
  | [], db => .ok ([], db)
  | event :: events, db =>
    if event.kind.isTask then
      match event.actionTasks nodeId with
      | none => .error (.key nodeId)
      | some taskIds =>
        if concerns group nodeId taskIds then do
          let (resolved, db) ← resolveRows group nodeId events db
          .ok (event :: resolved, db)
        else resolveRows group nodeId events (db.cancelDelivery event.seq nodeId)
    else do
      let (resolved, db) ← resolveRows group nodeId events db
      .ok (event :: resolved, db)

/-- `GroupDelivery.resolve`. -/
def resolve (db : GroupStore) (nodeId : String) (reference : DeliveryReference) :
    Except GroupError (List Event × GroupStore) :=
  let anchors := (db.pendingEvents nodeId reference.groupId).filter fun event =>
    event.seq ∈ reference.eventSeqs
  match anchors with
  | [] => .ok ([], db)
  | anchor :: others => do
    require (∀ other ∈ others, other.accessRole = anchor.accessRole)
      (.value "group notification anchors must share an access context")
    let rows := db.batch nodeId reference.groupId anchor.accessRole
    if db.memberGroup nodeId = some reference.groupId then do
      let group ← db.read reference.groupId none
      resolveRows group nodeId rows db
    else
      .ok ([], rows.foldl (fun db event => db.cancelDelivery event.seq nodeId) db)

/-- An event of a user that the node is to answer. -/
def asks (db : GroupStore) (nodeId : String) (event : Event) : Bool :=
  event.actorId = none &&
    (event.kind = .message || event.kind.isTask && (event.actionTasks nodeId).isSome) &&
      db.isPending event.seq nodeId

/-- The tasks that the events of a user name, as the reply lists them. -/
def replyTasks (nodeId : String) (events : List Event) : List String :=
  (((events.filter fun event => event.kind ≠ .message).flatMap fun event =>
    ((event.actionTasks nodeId).map items).getD []).filterMap fun
      | .str taskId => some taskId
      | _ => none).dedup.mergeSort (· ≤ ·)

/-- The reply to the events of a user, when the node still is a member. -/
def GroupStore.publishReply (db : GroupStore) (c : Caller) (nodeId groupId reply : String)
    (answered : List Event) : Except GroupError GroupStore :=
  if db.memberGroup nodeId = some groupId then do
    let group ← db.read groupId none
    .ok (db.event c group .reply (some nodeId)
      [("text", .str reply), ("request_seqs", .arr (answered.map fun event => .nat event.seq)),
        ("task_ids", .arr ((replyTasks nodeId answered).map .str))] [] false)
  else .ok db

/-- `UPDATE deliveries SET state='delivered' ..` for the events. -/
def GroupStore.deliver (db : GroupStore) (nodeId : String) (events : List Event)
    (error : Option String) : GroupStore :=
  db.updateDeliveries
    (fun delivery => delivery.state = .pending && delivery.nodeId = nodeId &&
      delivery.eventSeq ∈ events.map Event.seq)
    (fun delivery =>
      { delivery with state := .delivered, attempts := delivery.attempts + 1, lastError := error })
    fun _ => rfl

/-- The final text of a run that succeeded answers the events of users in it. -/
def GroupStore.answer (db : GroupStore) (c : Caller) (nodeId : String) (events : List Event)
    (error : Option String) : Option String → Except GroupError GroupStore
  | none => .ok db
  | some reply =>
    let answered := events.filter (asks db nodeId)
    if reply ≠ "" ∧ error = none then
      match events, answered with
      | first :: _, _ :: _ => db.publishReply c nodeId first.groupId reply answered
      | _, _ => .ok db
    else .ok db

/-- `GroupDelivery.complete`. -/
def complete (c : Caller) (db : GroupStore) (nodeId : String) (events : List Event)
    (error reply : Option String) : Except GroupError GroupStore := do
  let db ← db.answer c nodeId events error reply
  .ok (db.deliver nodeId events error)

/-- `GroupRepository.record_delivery`. -/
def recordDelivery (db : GroupStore) (seq : Nat) (nodeId : String) (error : Option String) :
    GroupStore :=
  db.updateDeliveries
    (fun delivery =>
      delivery.eventSeq = seq && delivery.nodeId = nodeId && delivery.state = .pending)
    (fun delivery =>
      { delivery with
        attempts := delivery.attempts + 1
        lastError := error
        state := if error.isSome then .pending else .delivered })
    fun _ => rfl

end AgentPark.Groups
