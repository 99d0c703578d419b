import AgentPark.Groups.Origin

/-!
# The statements of a transaction

Whatever an operation does to the store, it does by the statements of the repository: documents are
saved, member rows are inserted and deleted, deliveries are settled, events and requests are added.
`Statement` lists them, `step_statements` says that a step is a sequence of them, a renaming or an
import.  A property of the tables is kept by all operations when these keep it.
-/

namespace AgentPark.Groups

open Lib

/-- A statement on the store. -/
inductive Statement : GroupStore → GroupStore → Prop where
  | put (db : GroupStore) (group : AgentGroup) : Statement db (db.put group)
  | insertMember {db db' : GroupStore} {nodeId groupId : String}
      (inserted : db.insertMember nodeId groupId = .ok db') : Statement db db'
  | deleteMembers (db : GroupStore) (p : MemberRow → Bool) : Statement db (db.deleteMembers p)
  | settle (db : GroupStore) (p : Delivery → Bool) (f : Delivery → Delivery)
      (keeps : ∀ delivery, (f delivery).recipient = delivery.recipient)
      (calm : ∀ delivery, p delivery = true → (f delivery).state = .pending →
        delivery.state = .pending) :
      Statement db (db.updateDeliveries p f keeps)
  | event (db : GroupStore) (c : Caller) (group : AgentGroup) (kind : EventKind)
      (actorId : Option String) (payload : List (String × Json)) (targets : List String)
      (notify : Bool) : Statement db (db.event c group kind actorId payload targets notify)
  | request {db db' : GroupStore} {request : MessageRequest}
      {answers : request.eventSeq ∈ db.events.map Event.seq}
      (inserted : db.insertRequest request answers = .ok db') : Statement db db'

/-- Statements one after the other. -/
abbrev Statements : GroupStore → GroupStore → Prop := Relation.ReflTransGen Statement

section Commands

variable {c : Caller} {db db' mid : GroupStore} {group after : AgentGroup}

theorem Statements.put (before : Statements db mid) (group : AgentGroup) :
    Statements db (mid.put group) :=
  before.tail (.put mid group)

theorem Statements.cancel (before : Statements db mid) (p : Delivery → Bool) :
    Statements db (mid.cancelDeliveries p) := by
  apply before.tail
  apply Statement.settle
  intro _ _ absurd
  cases absurd

theorem Statements.clear (before : Statements db mid) (p : MemberRow → Bool) :
    Statements db (mid.deleteMembers p) :=
  before.tail (.deleteMembers mid p)

theorem Statements.insert (before : Statements db mid) {nodeId groupId : String}
    (inserted : mid.insertMember nodeId groupId = .ok db') : Statements db db' :=
  before.tail (.insertMember inserted)

theorem Statements.report (before : Statements db mid) {kind : EventKind} {actorId : Option String}
    {payload : List (String × Json)} {targets : List String} {notify : Bool} :
    Statements db (mid.event c group kind actorId payload targets notify) :=
  before.tail (.event mid c group kind actorId payload targets notify)

theorem Statements.detach (before : Statements db mid) (group : AgentGroup)
    (nodeId reason : String) : Statements db (detachMember c mid group nodeId reason).2 :=
  (((before.clear _).cancel _).put _).report

theorem Statements.detachAll {members : List GroupMember} (before : Statements db mid) :
    Statements db (detachMembers c members group mid).2 := by
  induction members generalizing mid group with
  | nil => exact before
  | cons member members ih => exact ih (before.detach group member.nodeId "frame_resized")

theorem Statements.join (before : Statements db mid) {member : GroupMember} {isPrivate : Bool}
    {result : AgentGroup × GroupStore}
    (joined : joinMember c mid group member isPrivate = .ok result) : Statements db result.2 := by
  obtain ⟨next, inserted, -, same⟩ := joinMember_eq_ok joined
  rw [same]
  exact ((before.insert inserted).put _).report

theorem Statements.joinAll {nodes : List (String × SpatialMember)} (before : Statements db mid)
    {result : AgentGroup × GroupStore} (joined : joinMembers c nodes group mid = .ok result) :
    Statements db result.2 := by
  induction nodes generalizing mid group with
  | nil =>
    cases joined
    exact before
  | cons node nodes ih =>
    obtain ⟨next, first, rest⟩ := bind_eq_ok.mp joined
    exact ih (before.join first) rest

theorem Statements.insertAll {members : List GroupMember} {groupId : String}
    (before : Statements db mid) (inserted : createGroup.insertAll members groupId mid = .ok db') :
    Statements db db' := by
  induction members generalizing mid with
  | nil =>
    cases inserted
    exact before
  | cons member members ih =>
    obtain ⟨next, first, rest⟩ := bind_eq_ok.mp inserted
    exact ih (before.insert first) rest

theorem Statements.savedAs (before : Statements db mid) {result : GroupStore}
    (saved : SavedAs c mid result group) : Statements db result := by
  obtain ⟨kind, payload, rfl⟩ := saved
  exact (before.put _).report

theorem Statements.saveEdited (before : Statements db mid) (group edited : AgentGroup) :
    Statements db (saveEdited c mid group edited).2 := by
  rcases saveEdited_cases group edited with same | saved
  · rw [same]
    exact before
  · exact before.savedAs saved

theorem Statements.resize {bounds : Option GroupBounds} {layout : Option (List SpatialMember)}
    {result : AgentGroup × GroupStore} (done : resize c db group bounds layout = .ok result) :
    Statements db result.2 := by
  rcases resize_eq_ok done with ⟨-, rfl⟩ | ⟨frame, nodes, -, reconciled⟩
  · exact .refl
  · obtain ⟨-, -, left, isLeft, joined⟩ := reconcile_eq_ok reconciled
    have detached : Statements db left.2 := by
      rw [isLeft]
      exact Statements.detachAll .refl
    exact detached.joinAll joined

theorem Statements.leaveSource {nodeId : String} {sourceId : Option String}
    (left : leaveSource c db nodeId sourceId = .ok db') : Statements db db' := by
  rcases leaveSource_eq_ok left with ⟨-, rfl⟩ | ⟨groupId, source, -, -, rfl⟩
  · exact .refl
  · exact Statements.detach .refl source nodeId "left"

theorem Statements.move {nodeId role : String} {target expected : Option String} {isPrivate : Bool}
    {result : Option AgentGroup × GroupStore}
    (done : move c db nodeId target expected role isPrivate = .ok result) :
    Statements db result.2 := by
  rcases move_eq_ok done with ⟨-, left⟩ |
    ⟨targetId, group, -, -, same | ⟨-, mid, joined, left, isJoined, same⟩⟩
  · exact Statements.leaveSource left
  · rw [same]
  · rw [same]
    exact (Statements.leaveSource left).join isJoined

theorem Statements.send {command : PublishMessage} {actorId recipientId : Option String}
    {result : Event × GroupStore}
    (done : db.send c group command actorId recipientId = .ok result) :
    Statements db result.2 := by
  obtain ⟨after, inserted, same⟩ := bind_eq_ok.mp done
  cases same
  exact (Statements.report .refl).tail (.request inserted)

theorem Statements.cancelDelivery (before : Statements db mid) (seq : Nat) (nodeId : String) :
    Statements db (mid.cancelDelivery seq nodeId) := by
  apply before.tail
  apply Statement.settle
  intro _ _ absurd
  cases absurd

theorem Statements.cancelAll (before : Statements db mid) (nodeId : String) (events : List Event) :
    Statements db (events.foldl (fun db event => db.cancelDelivery event.seq nodeId) mid) := by
  induction events generalizing mid with
  | nil => exact before
  | cons event events ih => exact ih (before.cancelDelivery event.seq nodeId)

theorem Statements.resolveRows {nodeId : String} {events : List Event} (before : Statements db mid)
    {result : List Event × GroupStore} (done : resolveRows group nodeId events mid = .ok result) :
    Statements db result.2 := by
  obtain ⟨resolved, after⟩ := result
  induction events generalizing mid resolved with
  | nil =>
    cases done
    exact before
  | cons event events ih =>
    rw [Groups.resolveRows] at done
    split at done
    · split at done
      · cases done
      · split at done
        · obtain ⟨rest, isRest, same⟩ := bind_eq_ok.mp done
          cases same
          exact ih before rest.1 isRest
        · exact ih (before.cancelDelivery event.seq nodeId) resolved done
    · obtain ⟨rest, isRest, same⟩ := bind_eq_ok.mp done
      cases same
      exact ih before rest.1 isRest

theorem Statements.resolve {nodeId : String} {reference : DeliveryReference}
    {result : List Event × GroupStore} (done : resolve db nodeId reference = .ok result) :
    Statements db result.2 := by
  rw [Groups.resolve] at done
  split at done
  · cases done
    exact .refl
  · obtain ⟨-, done⟩ := require_bind_eq_ok.mp done
    split at done
    · obtain ⟨group, -, done⟩ := bind_eq_ok.mp done
      exact Statements.resolveRows .refl done
    · cases done
      exact Statements.cancelAll .refl nodeId _

theorem Statements.complete {nodeId : String} {events : List Event} {error reply : Option String}
    (done : complete c db nodeId events error reply = .ok db') : Statements db db' := by
  obtain ⟨mid, answered, rfl⟩ := complete_eq_ok done
  have before : Statements db mid := by
    rcases calm_answer answered with rfl | ⟨_, _, _, _, -, rfl⟩
    · exact .refl
    · exact Statements.report .refl
  apply before.tail
  apply Statement.settle
  intro _ _ absurd
  cases absurd

theorem Statements.recordDelivery (seq : Nat) (nodeId : String) (error : Option String) :
    Statements db (recordDelivery db seq nodeId error) := by
  apply Relation.ReflTransGen.single
  apply Statement.settle
  intro delivery here _
  rw [Bool.and_eq_true] at here
  exact of_decide_eq_true here.2

theorem GroupCommand.statements {command : GroupCommand} (ran : command.run c db = .ok db') :
    Statements db db' := by
  cases command with
  | create create isPrivate id =>
    obtain ⟨result, done, rfl⟩ := map_eq_ok.mp ran
    obtain ⟨mid, inserted, same⟩ := createGroup_eq_ok done
    rw [same]
    exact (Statements.insertAll (Statements.put .refl _) inserted).report
  | configure groupId revision name objective bounds layout =>
    obtain ⟨result, done, rfl⟩ := map_eq_ok.mp ran
    obtain ⟨group, resized, -, isResized, rfl⟩ := configure_eq_ok done
    exact (Statements.resize isResized).saveEdited _ _
  | updatePlan groupId command =>
    obtain ⟨result, done, rfl⟩ := map_eq_ok.mp ran
    obtain ⟨group, -, rfl⟩ := updatePlan_eq_ok done
    exact Statements.saveEdited .refl _ _
  | move nodeId target source role isPrivate =>
    obtain ⟨result, done, rfl⟩ := map_eq_ok.mp ran
    exact Statements.move done
  | updateRole groupId nodeId expected role =>
    obtain ⟨result, done, rfl⟩ := map_eq_ok.mp ran
    obtain ⟨group, -, same | saved⟩ := updateRole_eq_ok done
    · rw [same]
    · exact Statements.savedAs .refl saved
  | setLeader groupId expected leaderId =>
    obtain ⟨result, done, rfl⟩ := map_eq_ok.mp ran
    obtain ⟨group, -, -, same | saved⟩ := setLeader_eq_ok done
    · rw [same]
    · exact Statements.savedAs .refl saved
  | dissolve groupId revision =>
    obtain ⟨result, done, rfl⟩ := map_eq_ok.mp ran
    obtain ⟨group, after, -, -, same⟩ := dissolve_eq_ok done
    rw [same]
    exact (((Statements.put .refl after).clear _).cancel _).report
  | protectMemberHistory nodeId =>
    rcases protectMemberHistory_eq_ok ran with rfl | ⟨groupId, group, -, -, saved⟩
    · exact .refl
    · exact Statements.savedAs .refl saved
  | createTask policy groupId command actorId id =>
    obtain ⟨result, done, rfl⟩ := map_eq_ok.mp ran
    obtain ⟨group, -, -, -, -, -, same⟩ := createTask_eq_ok done
    rw [same]
    exact (Statements.put .refl _).report
  | updateTask policy groupId taskId command actorId =>
    obtain ⟨result, done, rfl⟩ := map_eq_ok.mp ran
    obtain ⟨group, current, -, -, same | ⟨candidate, -, -, -, -, -, same⟩⟩ :=
      updateTask_eq_ok done
    · rw [same]
    · rw [same]
      exact (Statements.put .refl _).report
  | publish groupId command actorId =>
    obtain ⟨result, done, rfl⟩ := map_eq_ok.mp ran
    obtain ⟨group, -, -, ⟨_, -, -, -, same⟩ | ⟨-, recipientId, -, sent⟩⟩ := publish_eq_ok done
    · rw [same]
    · exact Statements.send sent
  | resolve nodeId reference =>
    obtain ⟨result, done, rfl⟩ := map_eq_ok.mp ran
    exact Statements.resolve done
  | complete nodeId events error reply => exact Statements.complete ran
  | recordDelivery seq nodeId error =>
    cases ran
    exact Statements.recordDelivery seq nodeId error

end Commands

/-! ### Events and deliveries -/

/-- The payload names the rights of the author. -/
def Event.Signed (event : Event) : Prop :=
  ∃ role : AccessRole, event.accessRole = some (.str role.text)

/-- The store later: events are added and signed, settled deliveries stay settled. -/
structure Grows (db db' : GroupStore) : Prop where
  events : ∃ more, db'.events = db.events ++ more ∧ ∀ event ∈ more, event.Signed
  kept : db.deliveries.map Delivery.recipient ⊆ db'.deliveries.map Delivery.recipient
  settled : ∀ delivery ∈ db'.deliveries, delivery.state = .pending →
    delivery.recipient ∈ db.deliveries.map Delivery.recipient →
      ∃ old ∈ db.deliveries, old.recipient = delivery.recipient ∧ old.state = .pending

section Grows

variable {db db' mid : GroupStore}

theorem grows_of_same (events : db'.events = db.events) (deliveries : db'.deliveries = db.deliveries) :
    Grows db db' := by
  refine ⟨⟨[], ?_, fun _ mem => absurd mem List.not_mem_nil⟩, ?_, ?_⟩
  · rw [events, List.append_nil]
  · rw [deliveries]
    exact List.Subset.refl _
  · rw [deliveries]
    exact fun delivery mem isPending _ => ⟨delivery, mem, rfl, isPending⟩

theorem Grows.trans (first : Grows db mid) (second : Grows mid db') : Grows db db' := by
  obtain ⟨more, events, signed⟩ := first.events
  obtain ⟨later, eventsToo, signedToo⟩ := second.events
  refine ⟨⟨more ++ later, ?_, ?_⟩, List.Subset.trans first.kept second.kept, ?_⟩
  · rw [eventsToo, events, List.append_assoc]
  · intro event mem
    rcases List.mem_append.mp mem with early | late
    · exact signed event early
    · exact signedToo event late
  · intro delivery mem isPending known
    obtain ⟨old, inMid, same, wasPending⟩ :=
      second.settled delivery mem isPending (first.kept known)
    rw [← same] at known ⊢
    exact first.settled old inMid wasPending known

theorem newEvent_signed (c : Caller) (group : AgentGroup) (kind : EventKind)
    (actorId : Option String) (payload : List (String × Json)) :
    (db.newEvent c group kind actorId payload).Signed := by
  refine ⟨c.role, ?_⟩
  change List.lookup _ (dictSet _ "_access_role" _) = _
  rw [lookup_dictSet, if_pos rfl]

theorem Statement.grows (statement : Statement db db') : Grows db db' := by
  cases statement with
  | put group => exact grows_of_same rfl rfl
  | insertMember inserted =>
    obtain ⟨-, -, -, events, deliveries⟩ := insertMember_eq_ok inserted
    exact grows_of_same events deliveries
  | deleteMembers p => exact grows_of_same rfl rfl
  | settle p f keeps calm =>
    refine ⟨⟨[], (List.append_nil _).symm, fun _ mem => absurd mem List.not_mem_nil⟩, ?_, ?_⟩
    · exact (map_updateWhere keeps).symm ▸ List.Subset.refl _
    · intro delivery mem isPending _
      rcases mem_updateWhere_cases mem with ⟨old, -⟩ | ⟨old, inRows, here, rfl⟩
      · exact ⟨delivery, old, rfl, isPending⟩
      · exact ⟨old, inRows, (keeps old).symm, calm old here isPending⟩
  | event c group kind actorId payload targets notify =>
    refine ⟨⟨_, rfl, fun event mem => ?_⟩, ?_, ?_⟩
    · rw [List.mem_singleton.mp mem]
      exact newEvent_signed c group kind actorId payload
    · rw [GroupStore.event_deliveries, List.map_append]
      exact List.subset_append_left _ _
    · intro delivery mem isPending known
      rcases List.mem_append.mp mem with old | new
      · exact ⟨delivery, old, rfl, isPending⟩
      · -- its sequence number is new
        obtain ⟨target, -, rfl⟩ := List.mem_map.mp new
        obtain ⟨sent, inRows, same⟩ := List.mem_map.mp known
        obtain ⟨event, inEvents, sameSeq⟩ := List.mem_map.mp (db.sent sent inRows)
        have before := db.assigned event inEvents
        have equal : sent.eventSeq = db.nextSeq := (Prod.mk.inj same).1
        omega
  | request inserted =>
    obtain ⟨-, -, events, deliveries, -⟩ := insertRequest_eq_ok inserted
    exact grows_of_same events deliveries

theorem Statements.grows (statements : Statements db db') : Grows db db' := by
  induction statements with
  | refl => exact grows_of_same rfl rfl
  | tail _ statement ih => exact ih.trans statement.grows

end Grows

/-! ### Steps of the system -/

section Steps

variable {c : Caller} {s s' : GroupSystem} {op : GroupOp}

theorem nodeDeparture_statements {db : GroupStore} {nodeId reason : String}
    {result : Option DeletedMember × GroupStore}
    (done : nodeDeparture c db nodeId reason = .ok result) : Statements db result.2 := by
  rcases nodeDeparture_eq_ok done with ⟨-, rfl⟩ | ⟨group, member, -, -, -, -, rfl⟩
  · exact .refl
  · exact Statements.detach .refl group nodeId reason

theorem restoreDeletedMember_statements {db db' : GroupStore} {saved : DeletedMember}
    (done : restoreDeletedMember c db saved = .ok db') : Statements db db' := by
  obtain ⟨group, mid, payload, -, -, -, inserted, rfl⟩ := restoreDeletedMember_eq_ok done
  exact ((Statements.insert .refl inserted).put _).report

theorem nodeRename_statements {db db' : GroupStore} {old new : String}
    (done : nodeRename c db old new = .ok db') :
    (old = new ∧ db' = db) ∨
      old ≠ new ∧ ∃ mid, db.rename old new c.now = .ok mid ∧ Statements mid db' := by
  rw [nodeRename] at done
  by_cases same : old = new
  · rw [if_pos same] at done
    cases done
    exact .inl ⟨same, rfl⟩
  · rw [if_neg same] at done
    obtain ⟨-, done⟩ := require_bind_eq_ok.mp done
    obtain ⟨mid, renamed, report⟩ := bind_eq_ok.mp done
    cases report
    refine .inr ⟨same, mid, renamed, ?_⟩
    rcases reportRename_cases c db mid old new with silent | ⟨group, payload, told⟩
    · rw [silent]
    · rw [told]
      exact Statements.report .refl

theorem step_statements (sound : PlansSound s) (stepped : s.step op = some s') :
    Statements s.dir.store s'.dir.store ∨
      (∃ c old new mid, op = .renameNode c old new ∧ old ≠ new ∧
        s.dir.store.rename old new c.now = .ok mid ∧ Statements mid s'.dir.store) ∨
      ∃ c index plan, op = .applyImport c index ∧ Imported c plan s.dir.store s'.dir.store := by
  have stored := step_store sound stepped
  generalize s'.dir.store = store at stored ⊢
  cases stored with
  | stays => exact .inl .refl
  | command fresh ran => exact .inl (GroupCommand.statements ran)
  | departs done => exact .inl (nodeDeparture_statements done)
  | returns isDeleted isSaved absent done => exact .inl (restoreDeletedMember_statements done)
  | renames named done =>
    rcases nodeRename_statements done with ⟨-, rfl⟩ | ⟨differs, mid, renamed, statements⟩
    · exact .inl .refl
    · exact .inr (.inl ⟨_, _, _, mid, rfl, differs, renamed, statements⟩)
  | imports isPlan done => exact .inr (.inr ⟨_, _, _, rfl, done⟩)

end Steps

end AgentPark.Groups
