import AgentPark.Groups.Documents

/-!
# The index of the members and the outbox

The membership of a node is kept in the document of its group and in the table `members`; deliveries
are addressed to members.  `Linked` says that the three agree.  Each statement of the commands keeps
it, and from these each command does: `Linked.command` covers all of them.
-/

namespace AgentPark.Groups

open Lib

/-- The node is a member of the group, and the group is not dissolved. -/
def Belongs (db : GroupStore) (nodeId groupId : String) : Prop :=
  ∃ group ∈ db.groups, group.dissolved = false ∧ group.id = groupId ∧ nodeId ∈ group.memberIds

/-- A pending delivery is addressed to a member of the group of its event. -/
def Addressed (db : GroupStore) : Prop :=
  ∀ delivery ∈ db.deliveries, delivery.state = .pending →
    ∃ groupId, db.eventGroup delivery.eventSeq = some groupId ∧
      ⟨delivery.nodeId, groupId⟩ ∈ db.members

/-- The documents, the index and the outbox agree. -/
structure Linked (db : GroupStore) : Prop where
  index : ∀ nodeId groupId, ⟨nodeId, groupId⟩ ∈ db.members ↔ Belongs db nodeId groupId
  addressed : Addressed db

section Statements

variable {db db' mid : GroupStore} {group : AgentGroup} {c : Caller} {nodeId groupId : String}

theorem belongs_of_mem (mem : group ∈ db.groups) :
    Belongs db nodeId group.id ↔ group.dissolved = false ∧ nodeId ∈ group.memberIds := by
  constructor
  · intro belongs
    obtain ⟨other, inGroups, on, sameId, member⟩ := belongs
    have same := List.inj_on_of_nodup_map db.groupIds inGroups mem sameId
    rw [same] at on member
    exact ⟨on, member⟩
  · intro both
    exact ⟨group, mem, both.1, rfl, both.2⟩

theorem belongs_congr (same : db'.groups = db.groups) :
    Belongs db' nodeId groupId ↔ Belongs db nodeId groupId := by
  rw [Belongs, same]
  exact Iff.rfl

theorem belongs_put : Belongs (db.put group) nodeId groupId ↔
    groupId = group.id ∧ group.dissolved = false ∧ nodeId ∈ group.memberIds ∨
      groupId ≠ group.id ∧ Belongs db nodeId groupId := by
  constructor
  · intro belongs
    obtain ⟨other, inGroups, on, sameId, member⟩ := belongs
    rcases mem_upsert.mp inGroups with rfl | ⟨old, differs⟩
    · exact .inl ⟨sameId.symm, on, member⟩
    · rw [sameId] at differs
      exact .inr ⟨differs, other, old, on, sameId, member⟩
  · intro either
    rcases either with ⟨rfl, on, member⟩ | ⟨differs, other, old, on, rfl, member⟩
    · exact ⟨group, mem_upsert_self, on, rfl, member⟩
    · exact ⟨other, mem_upsert.mpr (.inr ⟨old, differs⟩), on, rfl, member⟩

theorem eventGroup_append {seq : Nat} {more : List Event} (old : seq ∈ db.events.map Event.seq)
    (events : db'.events = db.events ++ more) : db'.eventGroup seq = db.eventGroup seq := by
  rw [GroupStore.eventGroup, GroupStore.eventGroup, events, findRow_append]
  cases found : findRow Event.seq seq db.events with
  | none => exact absurd old (findRow_eq_none.mp found)
  | some event => rfl

theorem eventGroup_congr {seq : Nat} (events : db'.events = db.events) :
    db'.eventGroup seq = db.eventGroup seq := by
  rw [GroupStore.eventGroup, GroupStore.eventGroup, events]

theorem Addressed.of_pending (addressed : Addressed db) (events : db'.events = db.events)
    (pending : ∀ delivery ∈ db'.deliveries, delivery.state = .pending →
      ∃ old ∈ db.deliveries, old.recipient = delivery.recipient ∧ old.state = .pending ∧
        ∀ groupId, db.eventGroup old.eventSeq = some groupId → ⟨old.nodeId, groupId⟩ ∈ db.members →
          ⟨old.nodeId, groupId⟩ ∈ db'.members) : Addressed db' := by
  intro delivery mem isPending
  obtain ⟨old, inRows, same, wasPending, stays⟩ := pending delivery mem isPending
  obtain ⟨groupId, isGroup, isMember⟩ := addressed old inRows wasPending
  obtain ⟨sameSeq, sameNode⟩ := Prod.mk.inj same
  refine ⟨groupId, ?_, ?_⟩
  · rw [eventGroup_congr events, ← sameSeq]
    exact isGroup
  · rw [← sameNode]
    exact stays groupId isGroup isMember

theorem Addressed.send (addressed : Addressed db) (event : Event) (isNext : event.seq = db.nextSeq)
    {targets : List String} (events : db'.events = db.events ++ [event])
    (deliveries : db'.deliveries = db.deliveries ++ GroupStore.newDeliveries db.nextSeq targets)
    (members : db'.members = db.members)
    (are : ∀ target ∈ targets, ⟨target, event.groupId⟩ ∈ db.members) : Addressed db' := by
  intro delivery mem isPending
  rw [deliveries] at mem
  rw [members]
  rcases List.mem_append.mp mem with old | new
  · obtain ⟨groupId, isGroup, isMember⟩ := addressed delivery old isPending
    rw [eventGroup_append (db.sent delivery old) events]
    exact ⟨groupId, isGroup, isMember⟩
  · obtain ⟨target, isTarget, rfl⟩ := List.mem_map.mp new
    refine ⟨event.groupId, ?_, are target (List.mem_dedup.mp isTarget)⟩
    have unused : findRow Event.seq db.nextSeq db.events = none := by
      apply findRow_eq_none.mpr
      intro used
      obtain ⟨before, inEvents, same⟩ := List.mem_map.mp used
      have := db.assigned before inEvents
      omega
    rw [GroupStore.eventGroup, events, findRow_append, unused, Option.none_or, findRow,
      List.find?_cons_of_pos (by simpa using isNext)]
    rfl

theorem Linked.event (linked : Linked db) {kind : EventKind} {actorId : Option String}
    {payload : List (String × Json)} {targets : List String} {notify : Bool}
    (are : ∀ target ∈ targets, ⟨target, group.id⟩ ∈ db.members) :
    Linked (db.event c group kind actorId payload targets notify) where
  index := linked.index
  addressed := by
    refine linked.addressed.send (db.newEvent c group kind actorId payload) rfl rfl
      (db.event_deliveries c group kind actorId payload targets notify) rfl ?_
    intro target mem
    exact are target (List.mem_of_mem_filter mem)

theorem Linked.silent (linked : Linked db) {kind : EventKind} {actorId : Option String}
    {payload : List (String × Json)} {notify : Bool} :
    Linked (db.event c group kind actorId payload [] notify) :=
  linked.event fun _ mem => nomatch mem

theorem Linked.put (linked : Linked db) {old : AgentGroup} (mem : old ∈ db.groups)
    (sameId : group.id = old.id) (active : group.dissolved = old.dissolved)
    (members : group.memberIds = old.memberIds) : Linked (db.put group) where
  index := by
    intro nodeId groupId
    rw [GroupStore.put_members, linked.index, belongs_put]
    by_cases here : groupId = group.id
    · rw [here, sameId, belongs_of_mem mem, active, members]
      tauto
    · tauto
  addressed := linked.addressed

theorem Linked.calm (linked : Linked db) (calm : Calm db db') : Linked db' where
  index := by
    intro nodeId groupId
    rw [calm.members, linked.index, belongs_congr calm.groups]
  addressed := by
    apply linked.addressed.of_pending calm.events
    intro delivery mem isPending
    obtain ⟨old, inRows, same, wasPending⟩ := calm.pending delivery mem isPending
    refine ⟨old, inRows, same, wasPending, fun groupId _ isMember => ?_⟩
    rw [calm.members]
    exact isMember

theorem pending_of_cancel {p : Delivery → Bool} {delivery : Delivery}
    (mem : delivery ∈ (db.cancelDeliveries p).deliveries) (isPending : delivery.state = .pending) :
    delivery ∈ db.deliveries ∧ p delivery = false := by
  rcases mem_updateWhere_cases mem with ⟨old, other⟩ | ⟨_, _, _, rfl⟩
  · rw [isPending] at other
    simpa [old] using other
  · cases isPending

/-! ### Leaving and joining -/

theorem detachMember_rows (c : Caller) (db : GroupStore) (group : AgentGroup)
    (nodeId reason : String) :
    (detachMember c db group nodeId reason).2.members =
        db.members.filter (fun row => !decide (row.nodeId = nodeId)) ∧
      (detachMember c db group nodeId reason).2.deliveries =
        (db.cancelDeliveries fun delivery => delivery.nodeId = nodeId &&
          db.eventGroup delivery.eventSeq = some group.id).deliveries := by
  rw [detachMember]
  exact ⟨rfl, GroupStore.event_deliveries_nil ..⟩

theorem Linked.detach (linked : Linked db) (mem : group ∈ db.groups)
    (only : ∀ groupId, ⟨nodeId, groupId⟩ ∈ db.members → groupId = group.id) (reason : String) :
    Linked (detachMember c db group nodeId reason).2 := by
  refine ⟨fun other groupId => ?_, ?_⟩
  · have documents : Belongs (detachMember c db group nodeId reason).2 other groupId ↔
        Belongs (db.put ((group.without nodeId c.now).bump c.now)) other groupId := Iff.rfl
    have members : ∀ id, id ∈ ((group.without nodeId c.now).bump c.now).memberIds ↔
        id ∈ group.memberIds ∧ id ≠ nodeId := fun id => mem_memberIds_without c.now
    have rows : ⟨other, groupId⟩ ∈ (detachMember c db group nodeId reason).2.members ↔
        ⟨other, groupId⟩ ∈ db.members ∧ other ≠ nodeId := by
      rw [(detachMember_rows c db group nodeId reason).1]
      simp
    rw [rows, documents, belongs_put, members, linked.index]
    by_cases here : groupId = group.id
    · subst here
      rw [belongs_of_mem mem]
      change _ ↔ _ ∧ group.dissolved = false ∧ _ ∨ _
      tauto
    · have elsewhere : Belongs db other groupId → other ≠ nodeId := by
        intro belongs same
        subst same
        exact here (only groupId ((linked.index _ _).mpr belongs))
      change _ ↔ groupId = group.id ∧ _ ∨ groupId ≠ group.id ∧ _
      tauto
  · intro delivery inRows isPending
    rw [(detachMember_rows c db group nodeId reason).2] at inRows
    obtain ⟨wasThere, kept⟩ := pending_of_cancel inRows isPending
    obtain ⟨groupId, isGroup, isMember⟩ := linked.addressed delivery wasThere isPending
    have stays : delivery.nodeId ≠ nodeId := by
      intro same
      have here := only groupId (same ▸ isMember)
      rw [same, isGroup, here] at kept
      simp at kept
    refine ⟨groupId, ?_, ?_⟩
    · rw [← isGroup]
      exact eventGroup_append (db.sent delivery wasThere) rfl
    · rw [(detachMember_rows c db group nodeId reason).1]
      exact List.mem_filter.mpr ⟨isMember, by simpa using stays⟩

theorem Linked.enroll (linked : Linked db) (mem : group ∈ db.groups) (on : group.dissolved = false)
    (inserted : db.insertMember nodeId group.id = .ok mid) {after : AgentGroup}
    (sameId : after.id = group.id) (active : after.dissolved = group.dissolved)
    (members : after.memberIds = group.memberIds ++ [nodeId]) : Linked (mid.put after) := by
  obtain ⟨fresh, rows, groups, events, deliveries⟩ := insertMember_eq_ok inserted
  refine ⟨fun other groupId => ?_, ?_⟩
  · rw [GroupStore.put_members, rows, belongs_put, belongs_congr groups, List.mem_append,
      List.mem_singleton, linked.index, sameId, active, members, List.mem_append,
      List.mem_singleton, MemberRow.mk.injEq]
    by_cases here : groupId = group.id
    · subst here
      rw [belongs_of_mem mem, on]
      tauto
    · tauto
  · intro delivery inRows isPending
    rw [GroupStore.put_deliveries, deliveries] at inRows
    obtain ⟨groupId, isGroup, isMember⟩ := linked.addressed delivery inRows isPending
    refine ⟨groupId, ?_, ?_⟩
    · rw [← isGroup]
      exact eventGroup_congr events
    · rw [GroupStore.put_members, rows]
      exact List.mem_append_left _ isMember

theorem Linked.join (linked : Linked db) (mem : group ∈ db.groups) (on : group.dissolved = false)
    {member : GroupMember} {isPrivate : Bool} {result : AgentGroup × GroupStore}
    (joined : joinMember c db group member isPrivate = .ok result) : Linked result.2 := by
  obtain ⟨mid, inserted, isAfter, same⟩ := joinMember_eq_ok joined
  rw [same]
  apply Linked.silent
  rw [isAfter]
  exact linked.enroll mem on inserted rfl rfl (memberIds_withMember isPrivate)

end Statements

/-! ### The commands -/

section Commands

variable {db db' mid : GroupStore} {group : AgentGroup} {c : Caller}

/-- A command works on an active document of the store. -/
structure Working (db : GroupStore) (group : AgentGroup) : Prop where
  linked : Linked db
  mem : group ∈ db.groups
  active : group.dissolved = false

variable {groupId nodeId : String}

theorem Linked.working (linked : Linked db) {actorId : Option String}
    (isRead : Read db groupId actorId group) : Working db group :=
  ⟨linked, isRead.mem, isRead.active⟩

theorem Working.row_iff (working : Working db group) :
    ⟨nodeId, group.id⟩ ∈ db.members ↔ nodeId ∈ group.memberIds := by
  rw [working.linked.index, belongs_of_mem working.mem]
  exact and_iff_right working.active

theorem Working.only (working : Working db group) (member : nodeId ∈ group.memberIds) :
    ∀ groupId, ⟨nodeId, groupId⟩ ∈ db.members → groupId = group.id := by
  intro groupId row
  have same := List.inj_on_of_nodup_map db.memberIds row (working.row_iff.mpr member) rfl
  exact congrArg MemberRow.groupId same

theorem Working.put (working : Working db group) {after : AgentGroup} (sameId : after.id = group.id)
    (active : after.dissolved = group.dissolved) (members : after.memberIds = group.memberIds) :
    Working (db.put after) after :=
  ⟨working.linked.put working.mem sameId active members, mem_upsert_self,
    active.trans working.active⟩

theorem Working.detach (working : Working db group)
    (only : ∀ groupId, ⟨nodeId, groupId⟩ ∈ db.members → groupId = group.id) (reason : String) :
    Working (detachMember c db group nodeId reason).2 (detachMember c db group nodeId reason).1 :=
  ⟨working.linked.detach working.mem only reason, mem_upsert_self, working.active⟩

theorem Working.detachAll {members : List GroupMember} (working : Working db group)
    (only : ∀ member ∈ members, ∀ groupId, ⟨member.nodeId, groupId⟩ ∈ db.members →
      groupId = group.id) :
    Working (detachMembers c members group db).2 (detachMembers c members group db).1 := by
  induction members generalizing db group with
  | nil => exact working
  | cons member members ih =>
    apply ih (working.detach (only member List.mem_cons_self) "frame_resized")
    intro other mem groupId row
    rw [(detachMember_rows c db group member.nodeId "frame_resized").1] at row
    exact only other (List.mem_cons_of_mem _ mem) groupId (List.mem_of_mem_filter row)

variable {isPrivate : Bool} {result : AgentGroup × GroupStore}

theorem Working.join (working : Working db group) {member : GroupMember}
    (joined : joinMember c db group member isPrivate = .ok result) :
    Working result.2 result.1 := by
  have linked := working.linked.join working.mem working.active joined
  obtain ⟨mid, -, isAfter, same⟩ := joinMember_eq_ok joined
  refine ⟨linked, ?_, ?_⟩
  · rw [same]
    exact mem_upsert_self
  · rw [isAfter]
    exact working.active

theorem Working.joinAll {nodes : List (String × SpatialMember)} (working : Working db group)
    (joined : joinMembers c nodes group db = .ok result) :
    Working result.2 result.1 := by
  induction nodes generalizing db group with
  | nil =>
    cases joined
    exact working
  | cons node nodes ih =>
    obtain ⟨next, first, rest⟩ := bind_eq_ok.mp joined
    exact ih (working.join first) rest

theorem Working.resize (working : Working db group) {bounds : Option GroupBounds}
    {layout : Option (List SpatialMember)} (resized : resize c db group bounds layout = .ok result) :
    Working result.2 result.1 := by
  rcases resize_eq_ok resized with ⟨-, rfl⟩ | ⟨frame, nodes, -, done⟩
  · exact working
  · obtain ⟨-, -, left, isLeft, joined⟩ := reconcile_eq_ok done
    have detached : Working left.2 left.1 := by
      rw [isLeft]
      apply working.detachAll
      intro member mem
      exact working.only (List.mem_map_of_mem (List.mem_of_mem_filter mem))
    exact detached.joinAll joined

theorem Working.savedAs (working : Working db group) {after : AgentGroup}
    (saved : SavedAs c db db' after) (sameId : after.id = group.id)
    (active : after.dissolved = group.dissolved) (members : after.memberIds = group.memberIds) :
    Linked db' := by
  obtain ⟨kind, payload, rfl⟩ := saved
  have put : Linked (db.put (after.bump c.now)) :=
    working.linked.put working.mem sameId active members
  exact put.silent

theorem Working.saveEdited (working : Working db group) (name objective : Option String)
    (bounds : Option GroupBounds) :
    Linked (saveEdited c db group (group.edit name objective bounds)).2 := by
  have either : Groups.saveEdited c db group (group.edit name objective bounds) = (group, db) ∨
      SavedAs c db (Groups.saveEdited c db group (group.edit name objective bounds)).2
        (group.edit name objective bounds) := saveEdited_cases group _
  rcases either with same | saved
  · rw [same]
    exact working.linked
  · exact working.savedAs saved rfl rfl rfl

theorem Working.saveTask (working : Working db group) (after : AgentGroup)
    (sameId : after.id = group.id) (active : after.dissolved = group.dissolved)
    (members : after.memberIds = group.memberIds) (owned : OwnedBy (· ≠ "") after)
    {task : GroupTask} (mem : task ∈ after.tasks) (policy : TaskNotifications) (kind : EventKind)
    (previous : Option GroupTask) (actorId : Option String) :
    Linked (saveTask c policy db after kind task previous actorId) := by
  have saved : Working (db.put (after.bump c.now)) (after.bump c.now) :=
    working.put sameId active members
  apply saved.linked.event
  intro target isTarget
  have isOwned : OwnedBy (· ≠ "") (after.bump c.now) := owned.mono rfl (List.Subset.refl _)
  exact saved.row_iff.mpr (taskActions_recipients isOwned mem target isTarget)

theorem Linked.leaveSource (linked : Linked db)
    (left : leaveSource c db nodeId (db.memberGroup nodeId) = .ok mid) :
    Linked mid ∧ ∀ other ∈ db.groups, db.memberGroup nodeId ≠ some other.id →
      other ∈ mid.groups := by
  rcases leaveSource_eq_ok left with ⟨-, rfl⟩ | ⟨groupId, source, isMember, isRead, rfl⟩
  · exact ⟨linked, fun other mem _ => mem⟩
  · have working := linked.working isRead
    have row := memberGroup_eq_some.mp isMember
    rw [← isRead.id_eq] at row
    have member := working.row_iff.mp row
    refine ⟨(working.detach (working.only member) "left").linked, fun other mem differs => ?_⟩
    apply mem_upsert.mpr
    refine .inr ⟨mem, fun same => differs ?_⟩
    rw [isMember, same, ← isRead.id_eq]
    rfl

theorem Linked.move (linked : Linked db) {role : String} {target expected : Option String}
    {result : Option AgentGroup × GroupStore}
    (done : move c db nodeId target expected role isPrivate = .ok result) : Linked result.2 := by
  rcases move_eq_ok done with ⟨-, left⟩ |
    ⟨targetId, group, -, isRead, same | ⟨differs, mid, joined, left, isJoined, same⟩⟩
  · exact (linked.leaveSource left).1
  · rw [same]
    exact linked
  · rw [same]
    obtain ⟨stillLinked, stays⟩ := linked.leaveSource left
    rw [← isRead.id_eq] at differs
    exact stillLinked.join (stays group isRead.mem differs) isRead.active isJoined

theorem Linked.dissolve (linked : Linked db) {revision : Nat}
    (done : dissolve c db groupId revision = .ok result) :
    Linked result.2 := by
  obtain ⟨group, after, isRead, rfl, same⟩ := dissolve_eq_ok done
  obtain rfl := isRead.id_eq
  rw [same]
  apply Linked.silent
  refine ⟨fun nodeId other => ?_, ?_⟩
  · have rows : ⟨nodeId, other⟩ ∈ db.members.filter (fun row => !decide (row.groupId = group.id)) ↔
        ⟨nodeId, other⟩ ∈ db.members ∧ other ≠ group.id := by
      simp
    change _ ∈ db.members.filter _ ↔ Belongs (db.put _) nodeId other
    rw [rows, belongs_put, linked.index]
    change _ ↔ other = group.id ∧ true = false ∧ _ ∨ other ≠ group.id ∧ _
    simp only [Bool.true_eq_false, false_and, and_false, false_or]
    exact and_comm
  · intro delivery inRows isPending
    obtain ⟨wasThere, kept⟩ := pending_of_cancel inRows isPending
    obtain ⟨other, isGroup, isMember⟩ := linked.addressed delivery wasThere isPending
    rw [isGroup] at kept
    have differs : other ≠ group.id := by simpa using kept
    refine ⟨other, isGroup, List.mem_filter.mpr ⟨isMember, by simpa using differs⟩⟩

theorem Linked.create (linked : Linked db) {command : CreateGroup} {id : String}
    (fresh : id ∉ db.groups.map AgentGroup.id)
    (done : createGroup c db command isPrivate id = .ok result) : Linked result.2 := by
  obtain ⟨mid, inserted, same⟩ := createGroup_eq_ok done
  obtain ⟨-, -, rows, groups, events, deliveries⟩ := insertAll_eq_ok inserted
  rw [same]
  apply Linked.silent
  refine ⟨fun nodeId groupId => ?_, ?_⟩
  · rw [rows, belongs_congr groups, belongs_put, List.mem_append, GroupStore.put_members,
      linked.index]
    have new : ⟨nodeId, groupId⟩ ∈ command.members.map
        (fun member => (⟨member.nodeId, id⟩ : MemberRow)) ↔ groupId = id ∧
          nodeId ∈ (newGroup c command isPrivate id).memberIds := by
      simp only [List.mem_map, MemberRow.mk.injEq, AgentGroup.memberIds, newGroup]
      grind
    have notOld : Belongs db nodeId groupId → groupId ≠ id := by
      intro belongs same
      obtain ⟨group, mem, -, sameId, -⟩ := belongs
      exact fresh (List.mem_map.mpr ⟨group, mem, sameId.trans same⟩)
    rw [new]
    change _ ↔ groupId = id ∧ false = false ∧ _ ∨ groupId ≠ id ∧ _
    tauto
  · apply linked.addressed.of_pending events
    intro delivery mem isPending
    rw [deliveries] at mem
    refine ⟨delivery, mem, rfl, isPending, fun groupId _ isMember => ?_⟩
    rw [rows]
    exact List.mem_append_left _ isMember

theorem Linked.publish (linked : Linked db) {command : PublishMessage} {actorId : Option String}
    {result : Event × GroupStore} (done : publish c db groupId command actorId = .ok result) :
    Linked result.2 := by
  obtain ⟨group, isRead, -, ⟨_, -, -, -, same⟩ | ⟨-, recipientId, routed, sent⟩⟩ :=
    publish_eq_ok done
  · rw [same]
    exact linked
  · have working := linked.working isRead
    obtain ⟨kind, payload, groups, members, events, deliveries⟩ := send_eq_ok sent
    refine ⟨fun nodeId other => ?_, ?_⟩
    · rw [members, linked.index, belongs_congr groups]
    · refine linked.addressed.send _ rfl events deliveries members ?_
      intro target isTarget
      apply working.row_iff.mpr
      have told := List.mem_of_mem_filter isTarget
      rw [messageTargets.eq_def] at told
      split_ifs at told
      · cases told
      · split at told
        · rw [List.mem_singleton.mp told]
          exact routed _ rfl
        · exact told

theorem Linked.command (linked : Linked db) (owned : OwnersOk db) {command : GroupCommand}
    (fresh : command.Fresh db) (ran : command.run c db = .ok db') : Linked db' := by
  cases command with
  | create create isPrivate id =>
    obtain ⟨result, done, rfl⟩ := map_eq_ok.mp ran
    exact linked.create fresh done
  | configure groupId revision name objective bounds layout =>
    obtain ⟨result, done, rfl⟩ := map_eq_ok.mp ran
    obtain ⟨group, resized, isRead, isResized, rfl⟩ := configure_eq_ok done
    exact ((linked.working isRead).resize isResized).saveEdited name objective bounds
  | updatePlan groupId command =>
    obtain ⟨result, done, rfl⟩ := map_eq_ok.mp ran
    obtain ⟨group, isRead, rfl⟩ := updatePlan_eq_ok done
    exact (linked.working isRead).saveEdited _ _ _
  | move nodeId target source role isPrivate =>
    obtain ⟨result, done, rfl⟩ := map_eq_ok.mp ran
    exact linked.move done
  | updateRole groupId nodeId expected role =>
    obtain ⟨result, done, rfl⟩ := map_eq_ok.mp ran
    obtain ⟨group, isRead, same | saved⟩ := updateRole_eq_ok done
    · rw [same]
      exact linked
    · exact (linked.working isRead).savedAs saved rfl rfl memberIds_role
  | setLeader groupId expected leaderId =>
    obtain ⟨result, done, rfl⟩ := map_eq_ok.mp ran
    obtain ⟨group, isRead, -, same | saved⟩ := setLeader_eq_ok done
    · rw [same]
      exact linked
    · exact (linked.working isRead).savedAs saved rfl rfl rfl
  | dissolve groupId revision =>
    obtain ⟨result, done, rfl⟩ := map_eq_ok.mp ran
    exact linked.dissolve done
  | protectMemberHistory nodeId =>
    rcases protectMemberHistory_eq_ok ran with rfl | ⟨groupId, group, -, isRead, saved⟩
    · exact linked
    · exact (linked.working isRead).savedAs saved rfl rfl rfl
  | createTask policy groupId command actorId id =>
    obtain ⟨result, done, rfl⟩ := map_eq_ok.mp ran
    obtain ⟨group, isRead, edit, same⟩ := createTask_edit none fresh done
    have isOwned := edit.ownedBy (owned group isRead.mem isRead.active)
    rw [same]
    exact (linked.working isRead).saveTask { group with tasks := group.tasks ++ [result.1] } rfl rfl
      rfl isOwned (List.mem_append_right _ (List.mem_singleton_self _)) policy _ _ _
  | updateTask policy groupId taskId command actorId =>
    obtain ⟨result, done, rfl⟩ := map_eq_ok.mp ran
    obtain ⟨group, isRead, same | ⟨current, edit, isThere, same⟩⟩ := updateTask_edit none done
    · rw [same]
      exact linked
    · have isOwned := edit.ownedBy (owned group isRead.mem isRead.active)
      rw [same]
      exact (linked.working isRead).saveTask (group.replaceTask result.1) rfl rfl rfl isOwned isThere
        policy _ _ _
  | publish groupId command actorId =>
    obtain ⟨result, done, rfl⟩ := map_eq_ok.mp ran
    exact linked.publish done
  | resolve nodeId reference =>
    obtain ⟨result, done, rfl⟩ := map_eq_ok.mp ran
    exact linked.calm (calm_resolve done)
  | complete nodeId events error reply =>
    obtain ⟨mid, answered, rfl⟩ := complete_eq_ok ran
    have isLinked : Linked mid := by
      rcases calm_answer answered with rfl | ⟨_, _, _, _, -, rfl⟩
      · exact linked
      · exact linked.silent
    exact isLinked.calm (calm_deliver nodeId events error)
  | recordDelivery seq nodeId error =>
    cases ran
    exact linked.calm (calm_recordDelivery seq nodeId error)

end Commands

end AgentPark.Groups
