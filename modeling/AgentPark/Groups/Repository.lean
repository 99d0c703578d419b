import AgentPark.Groups.Contracts
import AgentPark.Lib.Table
import Mathlib.Data.List.Dedup

/-!
# The group repository of a graph

`GroupStore` is `groups.sqlite3`: the documents of the groups, the index of the members, the events,
the outbox and the answered message requests, with the constraints that the tables declare.

* `GroupStore.read` and `GroupStore.save` are the methods on documents, `GroupStore.event` is the
  method that writes an event and its deliveries.

A function on the store is a part of one transaction: a command that raises leaves the old store.
The functions take the time and the role of the repository object as a `Caller`.
-/

namespace AgentPark.Groups

open Lib

/-- What a transaction reads from outside the store. -/
structure Caller where
  role : AccessRole := .developer
  now : String := ""

/-- A row of `members`. -/
structure MemberRow where
  nodeId : String
  groupId : String
deriving DecidableEq

inductive EventKind where
  | groupCreated
  | groupUpdated
  | memberJoined
  | memberLeft
  | memberRoleUpdated
  | groupLeaderChanged
  | groupDissolved
  | groupVisibilityChanged
  | memberRenamed
  | memberRestored
  | taskCreated
  | taskUpdated
  | message
  | update
  | reply
deriving DecidableEq

/-- `kind in ('task_created', 'task_updated')`. -/
def EventKind.isTask : EventKind → Bool
  | taskCreated | taskUpdated => true
  | _ => false

/-- A row of `events`, with its payload decoded. -/
structure Event where
  seq : Nat
  groupId : String
  kind : EventKind
  actorId : Option String
  payload : Json
  createdAt : String
deriving DecidableEq

inductive DeliveryState where
  | pending
  | delivered
  | cancelled
deriving DecidableEq

/-- A row of `deliveries`. -/
structure Delivery where
  eventSeq : Nat
  nodeId : String
  state : DeliveryState := .pending
  attempts : Nat := 0
  lastError : Option String := none
deriving DecidableEq

/-- The columns of `PRIMARY KEY(event_seq, node_id)`. -/
def Delivery.recipient (delivery : Delivery) : Nat × String := (delivery.eventSeq, delivery.nodeId)

/-- A row of `message_requests`, with its command decoded. -/
structure MessageRequest where
  groupId : String
  actorKey : String
  requestId : String
  command : Json
  eventSeq : Nat
deriving DecidableEq

/-- The columns of `PRIMARY KEY(group_id, actor_key, request_id)`. -/
def MessageRequest.key (request : MessageRequest) : String × String × String :=
  (request.groupId, request.actorKey, request.requestId)

/-- The database, with the constraints of its tables. -/
structure GroupStore where
  groups : List AgentGroup := []
  members : List MemberRow := []
  events : List Event := []
  nextSeq : Nat := 1
  deliveries : List Delivery := []
  requests : List MessageRequest := []
  groupIds : (groups.map AgentGroup.id).Nodup := by exact List.nodup_nil
  memberIds : (members.map MemberRow.nodeId).Nodup := by exact List.nodup_nil
  eventSeqs : (events.map Event.seq).Pairwise (· < ·) := by exact List.Pairwise.nil
  assigned : ∀ event ∈ events, event.seq < nextSeq := by exact fun _ mem => nomatch mem
  recipients : (deliveries.map Delivery.recipient).Nodup := by exact List.nodup_nil
  sent : ∀ delivery ∈ deliveries, delivery.eventSeq ∈ events.map Event.seq := by
    exact fun _ mem => nomatch mem
  requestKeys : (requests.map MessageRequest.key).Nodup := by exact List.nodup_nil
  answered : ∀ request ∈ requests, request.eventSeq ∈ events.map Event.seq := by
    exact fun _ mem => nomatch mem

/-- The store of a graph without groups. -/
def GroupStore.empty : GroupStore := {}

namespace GroupStore

variable (db : GroupStore)

/-- `GroupRepository.read`. -/
def read (groupId : String) (actorId : Option String) : Except GroupError AgentGroup :=
  match findRow AgentGroup.id groupId db.groups with
  | none => .error (.notFound "group not found")
  | some group =>
    if group.dissolved then .error (.notFound "group has been dissolved")
    else if actorId.any fun actor => actor ∉ group.memberIds then
      .error (.permission "actor is not a current group member")
    else .ok group

/-- `SELECT group_id FROM members WHERE node_id=?`. -/
def memberGroup (nodeId : String) : Option String :=
  (findRow MemberRow.nodeId nodeId db.members).map MemberRow.groupId

/-- The statement of `GroupRepository.save`. -/
def put (group : AgentGroup) : GroupStore :=
  { db with
    groups := upsert AgentGroup.id group db.groups
    groupIds := nodup_upsert db.groupIds }

/-- `INSERT INTO members`. -/
def insertMember (nodeId groupId : String) : Except GroupError GroupStore :=
  if fresh : nodeId ∉ db.members.map MemberRow.nodeId then
    .ok { db with
      members := db.members ++ [⟨nodeId, groupId⟩]
      memberIds := by
        rw [List.map_append, List.map_singleton]
        exact List.nodup_append_comm.mp (List.nodup_cons.mpr ⟨fresh, db.memberIds⟩) }
  else .error .integrity

/-- `DELETE FROM members WHERE ..`. -/
def deleteMembers (p : MemberRow → Bool) : GroupStore :=
  { db with
    members := db.members.filter fun row => !p row
    memberIds := db.memberIds.sublist (List.filter_sublist.map _) }

theorem recipient_cancelled (delivery : Delivery) :
    { delivery with state := .cancelled }.recipient = delivery.recipient := rfl

/-- `UPDATE deliveries` on columns that are no part of the key. -/
def updateDeliveries (p : Delivery → Bool) (f : Delivery → Delivery)
    (keeps : ∀ delivery, (f delivery).recipient = delivery.recipient) : GroupStore :=
  { db with
    deliveries := updateWhere p f db.deliveries
    recipients := by
      rw [map_updateWhere keeps]
      exact db.recipients
    sent := by
      intro delivery mem
      rcases mem_updateWhere_cases mem with ⟨old, -⟩ | ⟨old, inRows, -, rfl⟩
      · exact db.sent delivery old
      · rw [show (f old).eventSeq = old.eventSeq from (Prod.mk.inj (keeps old)).1]
        exact db.sent old inRows }

/-- The group of an event. -/
def eventGroup (seq : Nat) : Option String := (findRow Event.seq seq db.events).map Event.groupId

/-- `UPDATE deliveries SET state='cancelled' WHERE state='pending' AND ..`. -/
def cancelDeliveries (p : Delivery → Bool) : GroupStore :=
  db.updateDeliveries (fun delivery => delivery.state = .pending && p delivery)
    (fun delivery => { delivery with state := .cancelled }) recipient_cancelled

/-- The deliveries of a new event. -/
def newDeliveries (seq : Nat) (targets : List String) : List Delivery :=
  targets.dedup.map fun target => { eventSeq := seq, nodeId := target }

/-- `INSERT INTO events` and its deliveries. -/
def insertEvent (event : Event) (targets : List String) (isNext : event.seq = db.nextSeq) :
    GroupStore :=
  { db with
    events := db.events ++ [event]
    nextSeq := db.nextSeq + 1
    deliveries := db.deliveries ++ newDeliveries event.seq targets
    eventSeqs := by
      rw [List.map_append, List.map_singleton, List.pairwise_append]
      refine ⟨db.eventSeqs, List.pairwise_singleton _ _, fun seq mem next isLast => ?_⟩
      obtain ⟨old, inEvents, rfl⟩ := List.mem_map.mp mem
      have := db.assigned old inEvents
      rw [List.mem_singleton.mp isLast]
      omega
    assigned := by
      intro other mem
      rcases List.mem_append.mp mem with old | new
      · have := db.assigned other old
        omega
      · rw [List.mem_singleton.mp new]
        omega
    recipients := by
      rw [List.map_append, List.nodup_append]
      refine ⟨db.recipients, ?_, ?_⟩
      · rw [newDeliveries, List.map_map]
        exact (List.nodup_dedup targets).map fun _ _ same => (Prod.mk.inj same).2
      · intro old mem new isNew same
        obtain ⟨delivery, inRows, rfl⟩ := List.mem_map.mp mem
        obtain ⟨added, inNew, rfl⟩ := List.mem_map.mp isNew
        obtain ⟨target, -, rfl⟩ := List.mem_map.mp inNew
        obtain ⟨sender, inEvents, sameSeq⟩ := List.mem_map.mp (db.sent delivery inRows)
        have before := db.assigned sender inEvents
        have equal : delivery.eventSeq = event.seq := (Prod.mk.inj same).1
        omega
    sent := by
      intro delivery mem
      rw [List.map_append, List.mem_append]
      rcases List.mem_append.mp mem with old | new
      · exact .inl (db.sent delivery old)
      · obtain ⟨target, -, rfl⟩ := List.mem_map.mp new
        exact .inr (List.mem_singleton_self _)
    answered := by
      intro request mem
      rw [List.map_append, List.mem_append]
      exact .inl (db.answered request mem) }

/-- The payload an event is written with. -/
def eventPayload (c : Caller) (group : AgentGroup) (payload : List (String × Json)) : Json :=
  .obj (dictSet (dictSet payload "group_revision" (.nat group.revision)) "_access_role"
    (.str c.role.text))

/-- The event that `GroupRepository.event` writes. -/
def newEvent (c : Caller) (group : AgentGroup) (kind : EventKind) (actorId : Option String)
    (payload : List (String × Json)) : Event where
  seq := db.nextSeq
  groupId := group.id
  kind := kind
  actorId := actorId
  payload := eventPayload c group payload
  createdAt := c.now

/-- `GroupRepository.event`; an actor is not notified of its own event unless `notifyActor`. -/
def event (c : Caller) (group : AgentGroup) (kind : EventKind) (actorId : Option String)
    (payload : List (String × Json)) (recipients : List String) (notifyActor : Bool) : GroupStore :=
  db.insertEvent (db.newEvent c group kind actorId payload)
    (recipients.filter fun target => notifyActor || some target ≠ actorId) rfl

/-! What the statements leave alone. -/

@[simp] theorem put_members (group : AgentGroup) : (db.put group).members = db.members := rfl

@[simp] theorem put_deliveries (group : AgentGroup) :
    (db.put group).deliveries = db.deliveries := rfl

@[simp] theorem deleteMembers_members (p : MemberRow → Bool) :
    (db.deleteMembers p).members = db.members.filter fun row => !p row := rfl

section Event

variable (c : Caller) (group : AgentGroup) (kind : EventKind) (actorId : Option String)
  (payload : List (String × Json)) (targets : List String) (notify : Bool)

@[simp] theorem event_groups :
    (db.event c group kind actorId payload targets notify).groups = db.groups := rfl

@[simp] theorem event_events :
    (db.event c group kind actorId payload targets notify).events =
      db.events ++ [db.newEvent c group kind actorId payload] := rfl

@[simp] theorem event_deliveries :
    (db.event c group kind actorId payload targets notify).deliveries = db.deliveries ++
      newDeliveries db.nextSeq (targets.filter fun target => notify || some target ≠ actorId) := rfl

theorem event_deliveries_nil :
    (db.event c group kind actorId payload [] notify).deliveries = db.deliveries := by
  rw [event_deliveries, List.filter_nil, newDeliveries, List.dedup_nil, List.map_nil,
    List.append_nil]

end Event

/-- `INSERT INTO message_requests`. -/
def insertRequest (request : MessageRequest)
    (answers : request.eventSeq ∈ db.events.map Event.seq) : Except GroupError GroupStore :=
  if fresh : request.key ∉ db.requests.map MessageRequest.key then
    .ok { db with
      requests := db.requests ++ [request]
      requestKeys := by
        rw [List.map_append, List.map_singleton]
        exact List.nodup_append_comm.mp (List.nodup_cons.mpr ⟨fresh, db.requestKeys⟩)
      answered := by
        intro other mem
        rcases List.mem_append.mp mem with old | new
        · exact db.answered other old
        · rw [List.mem_singleton.mp new]
          exact answers }
  else .error .integrity

end GroupStore

/-- `revision += 1`, with the time of the change. -/
def AgentGroup.bump (group : AgentGroup) (now : String) : AgentGroup :=
  { group with revision := group.revision + 1, updatedAt := now }

end AgentPark.Groups
