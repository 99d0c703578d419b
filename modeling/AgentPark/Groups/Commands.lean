import AgentPark.Groups.System

/-!
# What a command that returns has done

One lemma for each command: the group it has read, what it has checked, and the store it leaves.
Proofs about the commands cite these lemmas and do not unfold the commands.
-/

namespace AgentPark.Groups

open Lib

variable {c : Caller} {db db' : GroupStore}

/-- The document that `read` gives. -/
structure Read (db : GroupStore) (groupId : String) (actorId : Option String) (group : AgentGroup) :
    Prop where
  mem : group ∈ db.groups
  id_eq : group.id = groupId
  active : group.dissolved = false
  actor : ∀ actor, actorId = some actor → actor ∈ group.memberIds

variable {groupId nodeId : String} {actorId : Option String} {group : AgentGroup}

theorem read_eq_ok (done : db.read groupId actorId = .ok group) :
    Read db groupId actorId group := by
  rw [GroupStore.read] at done
  split at done
  · cases done
  · rename_i found isFound
    obtain ⟨on, done⟩ := ite_error_eq_ok.mp done
    obtain ⟨member, same⟩ := ite_error_eq_ok.mp done
    cases same
    obtain ⟨mem, sameId⟩ := findRow_eq_some isFound
    refine ⟨mem, sameId, by simpa using on, fun actor isActor => ?_⟩
    rw [isActor, Option.any_some, decide_eq_true_eq, not_not] at member
    exact member

theorem read_of_mem (mem : group ∈ db.groups) (active : group.dissolved = false) :
    db.read group.id none = .ok group := by
  rw [GroupStore.read, findRow_of_mem db.groupIds mem]
  simp [active]

theorem insertMember_eq_ok (inserted : db.insertMember nodeId groupId = .ok db') :
    nodeId ∉ db.members.map MemberRow.nodeId ∧ db'.members = db.members ++ [⟨nodeId, groupId⟩] ∧
      db'.groups = db.groups ∧ db'.events = db.events ∧ db'.deliveries = db.deliveries := by
  rw [GroupStore.insertMember] at inserted
  split_ifs at inserted with fresh
  cases inserted
  exact ⟨fresh, rfl, rfl, rfl, rfl⟩

theorem GroupStore.insertMember_of_fresh (db : GroupStore) (groupId : String)
    (fresh : nodeId ∉ db.members.map MemberRow.nodeId) :
    ∃ db', db.insertMember nodeId groupId = .ok db' := by
  rw [GroupStore.insertMember, dif_pos fresh]
  exact ⟨_, rfl⟩

theorem memberGroup_eq_some :
    db.memberGroup nodeId = some groupId ↔ ⟨nodeId, groupId⟩ ∈ db.members := by
  rw [GroupStore.memberGroup, Option.map_eq_some_iff]
  constructor
  · rintro ⟨row, found, rfl⟩
    obtain ⟨mem, rfl⟩ := findRow_eq_some found
    exact mem
  · intro mem
    exact ⟨_, findRow_of_mem db.memberIds mem, rfl⟩

theorem memberGroup_eq_none :
    db.memberGroup nodeId = none ↔ nodeId ∉ db.members.map MemberRow.nodeId := by
  rw [GroupStore.memberGroup, Option.map_eq_none_iff]
  exact findRow_eq_none

variable {isPrivate : Bool} {result : AgentGroup × GroupStore}

theorem joinMember_eq_ok {member : GroupMember}
    (joined : joinMember c db group member isPrivate = .ok result) :
    ∃ mid, db.insertMember member.nodeId group.id = .ok mid ∧
      result.1 = (group.withMember member isPrivate).bump c.now ∧
      result.2 = (mid.put result.1).event c result.1 .memberJoined none
        [("member", member.dump)] [] false := by
  obtain ⟨mid, inserted, same⟩ := bind_eq_ok.mp joined
  cases same
  exact ⟨mid, inserted, rfl, rfl⟩

theorem reconcile_eq_ok {bounds : GroupBounds} {nodes : List SpatialMember}
    (done : reconcile c db group bounds nodes = .ok result) :
    (∀ other ∈ db.groups, other.dissolved = false → other.id ≠ group.id →
      overlaps bounds other.bounds = false) ∧
    (∀ node ∈ coveredNodes bounds nodes, ∀ owner, db.memberGroup node.1 = some owner →
      owner = group.id) ∧
    ∃ left, left = detachMembers c (group.members.filter fun member =>
        member.nodeId ∉ (coveredNodes bounds nodes).map Prod.fst) group db ∧
      joinMembers c ((coveredNodes bounds nodes).filter fun node => node.1 ∉ left.1.memberIds)
        left.1 left.2 = .ok result := by
  obtain ⟨apart, done⟩ := require_bind_eq_ok.mp done
  obtain ⟨owners, done⟩ := require_bind_eq_ok.mp done
  exact ⟨apart, owners, _, rfl, done⟩

theorem resize_eq_ok {bounds : Option GroupBounds} {layout : Option (List SpatialMember)}
    (done : resize c db group bounds layout = .ok result) :
    (bounds = none ∧ result = (group, db)) ∨
      ∃ frame nodes, bounds = some frame ∧ reconcile c db group frame nodes = .ok result := by
  rw [resize.eq_def] at done
  split at done
  · cases done
    exact .inl ⟨rfl, rfl⟩
  · cases done
  · exact .inr ⟨_, _, rfl, done⟩

theorem configure_eq_ok {revision : Nat} {name objective : Option String}
    {bounds : Option GroupBounds} {layout : Option (List SpatialMember)}
    (done : configure c db groupId revision name objective bounds layout = .ok result) :
    ∃ group resized, Read db groupId none group ∧ resize c db group bounds layout = .ok resized ∧
      result = saveEdited c resized.2 resized.1 (resized.1.edit name objective bounds) := by
  obtain ⟨-, done⟩ := require_bind_eq_ok.mp done
  obtain ⟨group, isRead, done⟩ := bind_eq_ok.mp done
  obtain ⟨-, done⟩ := require_bind_eq_ok.mp done
  obtain ⟨resized, isResized, same⟩ := bind_eq_ok.mp done
  cases same
  exact ⟨group, resized, read_eq_ok isRead, isResized, rfl⟩

theorem updatePlan_eq_ok {command : UpdatePlan}
    (done : updatePlan c db groupId command = .ok result) :
    ∃ group, Read db groupId none group ∧
      result = saveEdited c db group
        (group.edit (some command.name) (some command.objective) none) := by
  obtain ⟨group, isRead, done⟩ := bind_eq_ok.mp done
  obtain ⟨-, same⟩ := require_bind_eq_ok.mp done
  cases same
  exact ⟨group, read_eq_ok isRead, rfl⟩

theorem leaveSource_eq_ok {sourceId : Option String}
    (done : leaveSource c db nodeId sourceId = .ok db') :
    (sourceId = none ∧ db' = db) ∨ ∃ groupId source, sourceId = some groupId ∧
      Read db groupId none source ∧ db' = (detachMember c db source nodeId "left").2 := by
  cases sourceId with
  | none =>
    cases done
    exact .inl ⟨rfl, rfl⟩
  | some groupId =>
    obtain ⟨source, isRead, same⟩ := bind_eq_ok.mp done
    cases same
    exact .inr ⟨groupId, source, rfl, read_eq_ok isRead, rfl⟩

theorem move_eq_ok {role : String} {target expected : Option String}
    {result : Option AgentGroup × GroupStore}
    (done : move c db nodeId target expected role isPrivate = .ok result) :
    (target = none ∧ leaveSource c db nodeId (db.memberGroup nodeId) = .ok result.2) ∨
      ∃ targetId group, target = some targetId ∧ Read db targetId none group ∧
        (result.2 = db ∨ db.memberGroup nodeId ≠ some targetId ∧
          ∃ mid joined, leaveSource c db nodeId (db.memberGroup nodeId) = .ok mid ∧
            joinMember c mid group { nodeId, role } isPrivate = .ok joined ∧
            result.2 = joined.2) := by
  obtain ⟨-, done⟩ := require_bind_eq_ok.mp done
  cases target with
  | none =>
    obtain ⟨mid, left, same⟩ := bind_eq_ok.mp done
    cases same
    exact .inl ⟨rfl, left⟩
  | some targetId =>
    obtain ⟨group, isRead, done⟩ := bind_eq_ok.mp done
    refine .inr ⟨targetId, group, rfl, read_eq_ok isRead, ?_⟩
    by_cases stays : db.memberGroup nodeId = some targetId
    · rw [if_pos stays] at done
      cases done
      exact .inl rfl
    · rw [if_neg stays] at done
      obtain ⟨mid, left, done⟩ := bind_eq_ok.mp done
      obtain ⟨joined, isJoined, same⟩ := bind_eq_ok.mp done
      cases same
      exact .inr ⟨stays, mid, joined, left, isJoined, rfl⟩

/-- The document is edited, saved and reported, without recipients. -/
def SavedAs (c : Caller) (db db' : GroupStore) (after : AgentGroup) : Prop :=
  ∃ kind payload, db' = (db.put (after.bump c.now)).event c (after.bump c.now) kind none payload []
    false

theorem saveEdited_cases (group edited : AgentGroup) :
    saveEdited c db group edited = (group, db) ∨
      SavedAs c db (saveEdited c db group edited).2 edited := by
  rw [saveEdited]
  split_ifs
  · exact .inl rfl
  · exact .inr ⟨_, _, rfl⟩

theorem updateRole_eq_ok {expected role : String}
    (done : updateRole c db groupId nodeId expected role = .ok result) :
    ∃ group, Read db groupId none group ∧ (result.2 = db ∨ SavedAs c db result.2
      { group with
        members := updateWhere (fun member => member.nodeId = nodeId)
          (fun member => { member with role }) group.members }) := by
  obtain ⟨group, isRead, done⟩ := bind_eq_ok.mp done
  refine ⟨group, read_eq_ok isRead, ?_⟩
  split at done
  · cases done
  · obtain ⟨-, done⟩ := require_bind_eq_ok.mp done
    split_ifs at done
    · cases done
      exact .inl rfl
    · cases done
      exact .inr ⟨_, _, rfl⟩

theorem setLeader_eq_ok {leaderId : String} {expected : Option String}
    (done : setLeader c db groupId expected leaderId = .ok result) :
    ∃ group, Read db groupId none group ∧ leaderId ∈ group.memberIds ∧
      (result.2 = db ∨ SavedAs c db result.2 { group with leaderId := some leaderId }) := by
  obtain ⟨group, isRead, done⟩ := bind_eq_ok.mp done
  obtain ⟨-, done⟩ := require_bind_eq_ok.mp done
  obtain ⟨member, done⟩ := require_bind_eq_ok.mp done
  refine ⟨group, read_eq_ok isRead, member, ?_⟩
  split_ifs at done
  · cases done
    exact .inl rfl
  · cases done
    exact .inr ⟨_, _, rfl⟩

theorem dissolve_eq_ok {revision : Nat} (done : dissolve c db groupId revision = .ok result) :
    ∃ group after, Read db groupId none group ∧
      after = { group with dissolved := true }.bump c.now ∧
      result.2 = (((db.put after).deleteMembers fun row => row.groupId = groupId).cancelDeliveries
        fun delivery => db.eventGroup delivery.eventSeq = some groupId).event c after
          .groupDissolved none [("name", .str after.name)] [] false := by
  obtain ⟨group, isRead, done⟩ := bind_eq_ok.mp done
  obtain ⟨-, same⟩ := require_bind_eq_ok.mp done
  cases same
  exact ⟨group, _, read_eq_ok isRead, rfl, rfl⟩

theorem protectMemberHistory_eq_ok (done : protectMemberHistory c db nodeId = .ok db') :
    db' = db ∨ ∃ groupId group, db.memberGroup nodeId = some groupId ∧
      Read db groupId none group ∧ SavedAs c db db' { group with isPrivate := true } := by
  rw [protectMemberHistory] at done
  split at done
  · cases done
    exact .inl rfl
  · rename_i groupId isMember
    obtain ⟨group, isRead, done⟩ := bind_eq_ok.mp done
    split_ifs at done
    · cases done
      exact .inl rfl
    · cases done
      exact .inr ⟨groupId, group, isMember, read_eq_ok isRead, _, _, rfl⟩

/-- The document that a creation saves. -/
def newGroup (c : Caller) (command : CreateGroup) (isPrivate : Bool) (id : String) : AgentGroup where
  id := id
  name := command.name
  objective := command.objective
  bounds := command.bounds
  members := command.members
  leaderId := command.members.head?.map GroupMember.nodeId
  isPrivate := isPrivate
  createdAt := c.now
  updatedAt := c.now

theorem createGroup_eq_ok {command : CreateGroup} {id : String}
    (done : createGroup c db command isPrivate id = .ok result) :
    ∃ mid, createGroup.insertAll command.members id (db.put (newGroup c command isPrivate id)) =
        .ok mid ∧
      result.2 = mid.event c (newGroup c command isPrivate id) .groupCreated none
        [("group", (newGroup c command isPrivate id).dump)] [] false := by
  rw [createGroup] at done
  split at done
  · cases done
  · obtain ⟨mid, inserted, same⟩ := bind_eq_ok.mp done
    cases same
    exact ⟨mid, inserted, rfl⟩

theorem insertAll_eq_ok {members : List GroupMember}
    (inserted : createGroup.insertAll members groupId db = .ok db') :
    (∀ member ∈ members, member.nodeId ∉ db.members.map MemberRow.nodeId) ∧
      (members.map GroupMember.nodeId).Nodup ∧
      db'.members = db.members ++ members.map (fun member => ⟨member.nodeId, groupId⟩) ∧
      db'.groups = db.groups ∧ db'.events = db.events ∧ db'.deliveries = db.deliveries := by
  induction members generalizing db with
  | nil =>
    cases inserted
    simp
  | cons member members ih =>
    obtain ⟨mid, first, rest⟩ := bind_eq_ok.mp inserted
    obtain ⟨fresh, rows, groups, events, deliveries⟩ := insertMember_eq_ok first
    obtain ⟨others, distinct, later, sameGroups, sameEvents, sameDeliveries⟩ := ih rest
    rw [rows] at others later
    refine ⟨?_, ?_, ?_, sameGroups.trans groups, sameEvents.trans events,
      sameDeliveries.trans deliveries⟩
    · intro other mem
      rcases List.mem_cons.mp mem with rfl | mem
      · exact fresh
      · intro known
        apply others other mem
        rw [List.map_append]
        exact List.mem_append_left _ known
    · rw [List.map_cons, List.nodup_cons]
      refine ⟨fun mem => ?_, distinct⟩
      obtain ⟨other, inMembers, same⟩ := List.mem_map.mp mem
      apply others other inMembers
      rw [same, List.map_append]
      exact List.mem_append_right _ (List.mem_singleton_self _)
    · rw [later, List.append_assoc, List.map_cons, List.singleton_append]

theorem insertAll_of_fresh {members : List GroupMember} (groupId : String)
    (fresh : ∀ member ∈ members, member.nodeId ∉ db.members.map MemberRow.nodeId)
    (distinct : (members.map GroupMember.nodeId).Nodup) :
    ∃ db', createGroup.insertAll members groupId db = .ok db' := by
  induction members generalizing db with
  | nil => exact ⟨db, rfl⟩
  | cons member members ih =>
    obtain ⟨absent, others⟩ := List.nodup_cons.mp distinct
    have inserted := db.insertMember_of_fresh groupId (fresh member List.mem_cons_self)
    obtain ⟨mid, first⟩ := inserted
    have rows := (insertMember_eq_ok first).2.1
    have later : ∀ other ∈ members, other.nodeId ∉ mid.members.map MemberRow.nodeId := by
      intro other mem known
      rw [rows, List.map_append, List.map_singleton] at known
      rcases List.mem_append.mp known with old | new
      · exact fresh other (List.mem_cons_of_mem _ mem) old
      · exact absent (List.mem_map.mpr ⟨other, mem, List.mem_singleton.mp new⟩)
    obtain ⟨after, rest⟩ := ih later others
    exact ⟨after, bind_eq_ok.mpr ⟨mid, first, rest⟩⟩

theorem createTask_eq_ok {policy : TaskNotifications} {id : String} {command : CreateTask}
    {result : GroupTask × GroupStore}
    (done : createTask c policy db groupId command actorId id = .ok result) :
    ∃ group, Read db groupId actorId group ∧ result.1.id = id ∧ result.1.status = .todo ∧
      result.1.ownerId = command.ownerId ∧ validateTask group result.1 = .ok () ∧
      result.2 = saveTask c policy db { group with tasks := group.tasks ++ [result.1] } .taskCreated
        result.1 none actorId := by
  obtain ⟨group, isRead, done⟩ := bind_eq_ok.mp done
  obtain ⟨u, valid, same⟩ := bind_eq_ok.mp done
  cases same
  exact ⟨group, read_eq_ok isRead, rfl, rfl, rfl, valid, rfl⟩

theorem updateTask_eq_ok {policy : TaskNotifications} {taskId : String} {command : UpdateTask}
    {result : GroupTask × GroupStore}
    (done : updateTask c policy db groupId taskId command actorId = .ok result) :
    ∃ group current, Read db groupId actorId group ∧
      group.tasks.find? (fun item => item.id = taskId) = some current ∧
      (result.2 = db ∨ ∃ candidate, candidate = command.apply current ∧ candidate.id = taskId ∧
        validateTask group candidate = .ok () ∧
        (current.status = .done → candidate.status ≠ .done → ∀ item ∈ group.tasks,
          taskId ∈ item.dependencies → item.status ≠ .inProgress ∧ item.status ≠ .done) ∧
        result.1 = { candidate with revision := candidate.revision + 1, updatedAt := c.now } ∧
        result.2 = saveTask c policy db (group.replaceTask result.1) .taskUpdated result.1
          (some current) actorId) := by
  obtain ⟨group, isRead, done⟩ := bind_eq_ok.mp done
  split at done
  · cases done
  · rename_i current found
    refine ⟨group, current, read_eq_ok isRead, found, ?_⟩
    obtain ⟨-, done⟩ := require_bind_eq_ok.mp done
    obtain ⟨-, done⟩ := require_bind_eq_ok.mp done
    obtain ⟨-, done⟩ := require_bind_eq_ok.mp done
    by_cases stays : command.apply current = current
    · simp only [if_pos stays] at done
      cases done
      exact .inl rfl
    · simp only [if_neg stays] at done
      obtain ⟨u, valid, done⟩ := bind_eq_ok.mp done
      obtain ⟨reopened, same⟩ := require_bind_eq_ok.mp done
      cases same
      have sameId : (command.apply current).id = taskId := by
        have holds := List.find?_some found
        exact of_decide_eq_true holds
      exact .inr ⟨_, rfl, sameId, valid, reopened, rfl, rfl⟩

/-! ### Messages and deliveries -/

/-- Deliveries changed and none became pending. -/
structure Calm (db db' : GroupStore) : Prop where
  groups : db'.groups = db.groups
  members : db'.members = db.members
  events : db'.events = db.events
  pending : ∀ delivery ∈ db'.deliveries, delivery.state = .pending →
    ∃ old ∈ db.deliveries, old.recipient = delivery.recipient ∧ old.state = .pending

theorem Calm.refl (db : GroupStore) : Calm db db :=
  ⟨rfl, rfl, rfl, fun delivery mem isPending => ⟨delivery, mem, rfl, isPending⟩⟩

theorem Calm.trans {mid : GroupStore} (first : Calm db mid) (second : Calm mid db') :
    Calm db db' where
  groups := second.groups.trans first.groups
  members := second.members.trans first.members
  events := second.events.trans first.events
  pending := by
    intro delivery mem isPending
    obtain ⟨old, inMid, same, wasPending⟩ := second.pending delivery mem isPending
    obtain ⟨older, inRows, sameOld, pending⟩ := first.pending old inMid wasPending
    exact ⟨older, inRows, sameOld.trans same, pending⟩

theorem calm_updateDeliveries {p : Delivery → Bool} {f : Delivery → Delivery}
    (keeps : ∀ delivery, (f delivery).recipient = delivery.recipient)
    (calm : ∀ delivery, p delivery = true → (f delivery).state = .pending →
      delivery.state = .pending) :
    Calm db (db.updateDeliveries p f keeps) where
  groups := rfl
  members := rfl
  events := rfl
  pending := by
    intro delivery mem isPending
    rcases mem_updateWhere_cases mem with ⟨old, -⟩ | ⟨old, inRows, here, rfl⟩
    · exact ⟨delivery, old, rfl, isPending⟩
    · exact ⟨old, inRows, (keeps old).symm, calm old here isPending⟩

theorem calm_cancelDelivery (seq : Nat) (nodeId : String) :
    Calm db (db.cancelDelivery seq nodeId) := by
  apply calm_updateDeliveries
  intro _ _ absurd
  cases absurd

theorem calm_cancelAll (nodeId : String) (events : List Event) :
    Calm db (events.foldl (fun db event => db.cancelDelivery event.seq nodeId) db) := by
  induction events generalizing db with
  | nil => exact Calm.refl db
  | cons event events ih => exact (calm_cancelDelivery event.seq nodeId).trans ih

variable {events : List Event}

theorem calm_resolveRows {result : List Event × GroupStore}
    (done : resolveRows group nodeId events db = .ok result) :
    Calm db result.2 := by
  obtain ⟨resolved, after⟩ := result
  induction events generalizing db resolved with
  | nil =>
    cases done
    exact Calm.refl _
  | cons event events ih =>
    rw [resolveRows] at done
    split at done
    · split at done
      · cases done
      · split at done
        · obtain ⟨rest, isRest, same⟩ := bind_eq_ok.mp done
          cases same
          exact ih rest.1 isRest
        · exact (calm_cancelDelivery event.seq nodeId).trans (ih resolved done)
    · obtain ⟨rest, isRest, same⟩ := bind_eq_ok.mp done
      cases same
      exact ih rest.1 isRest

theorem calm_resolve {reference : DeliveryReference} {result : List Event × GroupStore}
    (done : resolve db nodeId reference = .ok result) :
    Calm db result.2 := by
  rw [resolve] at done
  split at done
  · cases done
    exact Calm.refl db
  · obtain ⟨-, done⟩ := require_bind_eq_ok.mp done
    split at done
    · obtain ⟨group, -, done⟩ := bind_eq_ok.mp done
      exact calm_resolveRows done
    · cases done
      exact calm_cancelAll nodeId _

theorem calm_recordDelivery (seq : Nat) (nodeId : String) (error : Option String) :
    Calm db (recordDelivery db seq nodeId error) := by
  apply calm_updateDeliveries
  intro delivery here _
  rw [Bool.and_eq_true] at here
  exact of_decide_eq_true here.2

theorem calm_deliver (nodeId : String) (events : List Event) (error : Option String) :
    Calm db (db.deliver nodeId events error) := by
  apply calm_updateDeliveries
  intro _ _ absurd
  cases absurd

theorem calm_answer {error reply : Option String}
    (done : db.answer c nodeId events error reply = .ok db') :
    db' = db ∨ ∃ group kind actorId payload, group ∈ db.groups ∧
      db' = db.event c group kind actorId payload [] false := by
  rw [GroupStore.answer.eq_def] at done
  split at done
  · cases done
    exact .inl rfl
  · split_ifs at done
    · dsimp only at done
      split at done
      · rw [GroupStore.publishReply] at done
        split_ifs at done
        · obtain ⟨group, isRead, same⟩ := bind_eq_ok.mp done
          cases same
          exact .inr ⟨group, _, _, _, (read_eq_ok isRead).mem, rfl⟩
        · cases done
          exact .inl rfl
      · cases done
        exact .inl rfl
    · cases done
      exact .inl rfl

theorem complete_eq_ok {error reply : Option String}
    (done : complete c db nodeId events error reply = .ok db') :
    ∃ mid, db.answer c nodeId events error reply = .ok mid ∧
      db' = mid.deliver nodeId events error := by
  obtain ⟨mid, answered, same⟩ := bind_eq_ok.mp done
  cases same
  exact ⟨mid, answered, rfl⟩

theorem insertRequest_eq_ok {request : MessageRequest}
    {answers : request.eventSeq ∈ db.events.map Event.seq}
    (inserted : db.insertRequest request answers = .ok db') :
    db'.groups = db.groups ∧ db'.members = db.members ∧ db'.events = db.events ∧
      db'.deliveries = db.deliveries ∧ db'.requests = db.requests ++ [request] := by
  rw [GroupStore.insertRequest] at inserted
  split_ifs at inserted
  cases inserted
  exact ⟨rfl, rfl, rfl, rfl, rfl⟩

theorem publish_eq_ok {command : PublishMessage} {result : Event × GroupStore}
    (done : publish c db groupId command actorId = .ok result) :
    ∃ group, Read db groupId actorId group ∧ (command.recipientId = none ∨
        command.recipientId ≠ actorId) ∧
      ((∃ previous, findRow MessageRequest.key (groupId, actorKey actorId, command.requestId)
          db.requests = some previous ∧ previous.command = command.dump ∧
          findRow Event.seq previous.eventSeq db.events = some result.1 ∧ result.2 = db) ∨
        findRow MessageRequest.key (groupId, actorKey actorId, command.requestId) db.requests =
            none ∧
          ∃ recipientId, (∀ recipient, recipientId = some recipient → recipient ∈ group.memberIds) ∧
            db.send c group command actorId recipientId = .ok result) := by
  obtain ⟨group, isRead, done⟩ := bind_eq_ok.mp done
  obtain ⟨member, done⟩ := require_bind_eq_ok.mp done
  obtain ⟨notSelf, done⟩ := require_bind_eq_ok.mp done
  obtain ⟨-, done⟩ := require_bind_eq_ok.mp done
  refine ⟨group, read_eq_ok isRead, notSelf, ?_⟩
  split at done
  · rename_i previous found
    obtain ⟨same, done⟩ := ite_error_eq_ok.mp done
    split at done
    · rename_i event isEvent
      cases done
      exact .inl ⟨previous, found, not_not.mp same, isEvent, rfl⟩
    · cases done
  · rename_i unknown
    obtain ⟨recipientId, routed, done⟩ := bind_eq_ok.mp done
    refine .inr ⟨unknown, recipientId, fun recipient isRecipient => ?_, done⟩
    rw [routedRecipient] at routed
    split_ifs at routed
    · split at routed
      · cases routed
      · split_ifs at routed with leads
        cases routed
        cases isRecipient
        exact leads
    · cases routed
      exact member recipient isRecipient

theorem send_eq_ok {command : PublishMessage} {recipientId : Option String}
    {result : Event × GroupStore} (done : db.send c group command actorId recipientId = .ok result) :
    ∃ kind payload, result.2.groups = db.groups ∧ result.2.members = db.members ∧
      result.2.events = db.events ++ [db.newEvent c group kind actorId payload] ∧
      result.2.deliveries = db.deliveries ++ GroupStore.newDeliveries db.nextSeq
        ((messageTargets group command recipientId).filter fun target => some target ≠ actorId) := by
  obtain ⟨after, inserted, same⟩ := bind_eq_ok.mp done
  cases same
  obtain ⟨groups, members, events, deliveries, -⟩ := insertRequest_eq_ok inserted
  exact ⟨_, _, groups, members, events, deliveries.trans (by simp)⟩

end AgentPark.Groups
