import AgentPark.Groups.Index

/-!
# The group store under every sequence of operations

Membership is stored in documents and in an index, together with a leader and an outbox.
`MembershipOk` says that the four agree.  It holds in every state of a run exactly when no import
writes a group with members: `GROUP_FIELDS` has no `leader_id`, so the documents that an import
writes have no leader (`membershipOk_iff`, `import_drops_leader`).
-/

namespace AgentPark.Groups

open Lib

/-- A node is in one active group at most, the index lists the members of the active groups, these
are led by members, and pending deliveries are addressed to members of active groups. -/
structure MembershipOk (db : GroupStore) : Prop where
  single : ∀ group ∈ db.groups, ∀ other ∈ db.groups, group.dissolved = false →
    other.dissolved = false → ∀ nodeId ∈ group.memberIds, nodeId ∈ other.memberIds → group = other
  index : ∀ row : MemberRow, row ∈ db.members ↔ ∃ group ∈ db.groups, group.dissolved = false ∧
    group.id = row.groupId ∧ row.nodeId ∈ group.memberIds
  led : ∀ group ∈ db.groups, group.dissolved = false → group.members ≠ [] →
    ∃ leader ∈ group.memberIds, group.leaderId = some leader
  addressed : ∀ delivery ∈ db.deliveries, delivery.state = .pending → ∃ group ∈ db.groups,
    group.dissolved = false ∧ db.eventGroup delivery.eventSeq = some group.id ∧
      delivery.nodeId ∈ group.memberIds

/-- The active documents are led by members. -/
def LedOk (db : GroupStore) : Prop := ∀ group ∈ db.groups, group.dissolved = false → Led group

section Store

variable {c : Caller} {db db' : GroupStore}

theorem Linked.membershipOk (linked : Linked db) (led : LedOk db) : MembershipOk db where
  single := by
    intro group mem other inGroups on otherOn nodeId member alsoMember
    have row : ⟨nodeId, group.id⟩ ∈ db.members :=
      (linked.index _ _).mpr ⟨group, mem, on, rfl, member⟩
    have otherRow : ⟨nodeId, other.id⟩ ∈ db.members :=
      (linked.index _ _).mpr ⟨other, inGroups, otherOn, rfl, alsoMember⟩
    have same := List.inj_on_of_nodup_map db.memberIds row otherRow rfl
    exact List.inj_on_of_nodup_map db.groupIds mem inGroups (congrArg MemberRow.groupId same)
  index := fun row => linked.index row.nodeId row.groupId
  led := by
    intro group mem on nonempty
    have isLed := led group mem on
    obtain ⟨leader, isLeader⟩ := Option.ne_none_iff_exists'.mp (isLed.led nonempty)
    exact ⟨leader, isLed.member leader isLeader, isLeader⟩
  addressed := by
    intro delivery mem isPending
    obtain ⟨groupId, isGroup, row⟩ := linked.addressed delivery mem isPending
    obtain ⟨group, inGroups, on, rfl, member⟩ := (linked.index _ _).mp row
    exact ⟨group, inGroups, on, isGroup, member⟩

/-! ### The index and the outbox -/

theorem Linked.departure (linked : Linked db) {nodeId reason : String}
    {result : Option DeletedMember × GroupStore}
    (done : nodeDeparture c db nodeId reason = .ok result) : Linked result.2 := by
  rcases nodeDeparture_eq_ok done with ⟨-, rfl⟩ | ⟨group, _, isMember, isRead, -, -, rfl⟩
  · exact linked
  · have working := linked.working isRead
    have member := working.row_iff.mp (memberGroup_eq_some.mp isMember)
    exact (working.detach (working.only member) reason).linked

theorem Linked.restore (linked : Linked db) {saved : DeletedMember}
    (done : restoreDeletedMember c db saved = .ok db') : Linked db' := by
  obtain ⟨group, mid, payload, read, -, -, inserted, same⟩ := restoreDeletedMember_eq_ok done
  have isRead := read_eq_ok read
  have enrolled : Linked (mid.put (group.returned c saved)) :=
    linked.enroll isRead.mem isRead.active inserted rfl rfl (memberIds_returned saved)
  rw [same]
  exact enrolled.silent

section Rename

variable {old new now : String}

theorem eventGroup_rename {seq : Nat} {more : List Event} (known : seq ∈ db.events.map Event.seq)
    (events : db'.events = db.events.map (Event.rename old new) ++ more) :
    db'.eventGroup seq = db.eventGroup seq := by
  have found : findRow Event.seq seq (db.events.map (Event.rename old new)) =
      (findRow Event.seq seq db.events).map (Event.rename old new) := by
    rw [findRow, List.find?_map]
    rfl
  rw [GroupStore.eventGroup, GroupStore.eventGroup, events, findRow_append, found]
  cases here : findRow Event.seq seq db.events with
  | none => exact absurd known (findRow_eq_none.mp here)
  | some event => rfl

theorem Linked.rename (linked : Linked db) (renamed : Renamed db db' old new now) : Linked db' where
  index := by
    intro nodeId groupId
    rw [renamed.members]
    constructor
    · intro mem
      obtain ⟨row, inRows, same⟩ := List.mem_map.mp mem
      obtain ⟨sameNode, sameGroup⟩ := MemberRow.mk.inj same
      obtain ⟨group, inGroups, on, isGroup, member⟩ := (linked.index _ _).mp inRows
      obtain ⟨members, -, active, -⟩ := AgentGroup.rename_eq old new now group
      refine ⟨group.rename old new now, ?_, active.trans on, ?_, ?_⟩
      · rw [renamed.groups]
        exact List.mem_map_of_mem inGroups
      · rw [AgentGroup.rename_id, isGroup, sameGroup]
      · rw [members, ← sameNode]
        exact List.mem_map_of_mem member
    · intro belongs
      obtain ⟨after, inGroups, on, isGroup, member⟩ := belongs
      rw [renamed.groups] at inGroups
      obtain ⟨group, mem, rfl⟩ := List.mem_map.mp inGroups
      obtain ⟨members, -, active, -⟩ := AgentGroup.rename_eq old new now group
      rw [members] at member
      obtain ⟨before, isBefore, rfl⟩ := List.mem_map.mp member
      rw [AgentGroup.rename_id] at isGroup
      have row := (linked.index before groupId).mpr
        ⟨group, mem, active.symm.trans on, isGroup, isBefore⟩
      exact List.mem_map_of_mem (f := MemberRow.rename old new) row
  addressed := by
    intro delivery mem isPending
    rw [renamed.deliveries] at mem
    obtain ⟨before, inRows, rfl⟩ := List.mem_map.mp mem
    obtain ⟨groupId, isGroup, isMember⟩ := linked.addressed before inRows isPending
    obtain ⟨more, events⟩ := renamed.events
    refine ⟨groupId, ?_, ?_⟩
    · rw [← isGroup]
      exact eventGroup_rename (db.sent before inRows) events
    · rw [renamed.members]
      exact List.mem_map_of_mem (f := MemberRow.rename old new) isMember

end Rename

/-- The groups with members are in the store as the plan has them. -/
def KeepsMembers (db : GroupStore) (plan : StructurePlan) : Prop :=
  ∀ value ∈ plan.groups, value.members ≠ [] →
    unchanged (findRow AgentGroup.id value.id db.groups) value = true

variable {plan : StructurePlan}

theorem Linked.imported (sound : plan.Sound) (imported : Imported c plan db db') : Linked db' where
  index := by
    intro nodeId groupId
    rw [imported.members, List.mem_flatMap]
    constructor
    · intro row
      obtain ⟨value, inPlan, isRow⟩ := row
      obtain ⟨member, isMember, same⟩ := List.mem_map.mp isRow
      obtain ⟨sameNode, sameGroup⟩ := MemberRow.mk.inj same
      refine ⟨savedGroup c db.groups value, ?_, savedGroup_active, ?_, ?_⟩
      · exact (imported.groups _).mpr (.inl ⟨value, inPlan, rfl⟩)
      · rw [savedGroup_id, sameGroup]
      · rw [AgentGroup.memberIds, savedGroup_members, ← sameNode]
        exact List.mem_map_of_mem isMember
    · intro belongs
      obtain ⟨group, mem, on, isGroup, member⟩ := belongs
      obtain ⟨value, inPlan, rfl⟩ := imported.active sound mem on
      rw [AgentGroup.memberIds, savedGroup_members] at member
      obtain ⟨found, isMember, rfl⟩ := List.mem_map.mp member
      rw [savedGroup_id] at isGroup
      subst isGroup
      exact ⟨value, inPlan, List.mem_map_of_mem isMember⟩
  addressed := by
    intro delivery mem isPending
    rw [imported.deliveries] at mem
    exact absurd isPending (imported.settled delivery mem)

theorem MembershipOk.keepsMembers (ok : MembershipOk db') (imported : Imported c plan db db') :
    KeepsMembers db plan := by
  intro value inPlan nonempty
  by_contra changed
  have mem := (imported.groups _).mpr (.inl ⟨value, inPlan, rfl⟩)
  have members : (savedGroup c db.groups value).members = value.members := savedGroup_members
  obtain ⟨leader, -, isLeader⟩ := ok.led _ mem savedGroup_active (by rw [members]; exact nonempty)
  rw [savedGroup_of_changed changed] at isLeader
  cases isLeader

end Store

/-! ### Whole runs -/

section Runs

variable {s s' : GroupSystem} {op : GroupOp}

/-- An import that goes through writes no group with members. -/
def ImportsKeepMembers (s : GroupSystem) (op : GroupOp) : Prop :=
  ∀ c index plan, op = .applyImport c index → s.plans[index]? = some plan → ImportRuns s.dir plan →
    KeepsMembers s.dir.store plan

/-- What every reachable state has. -/
structure GroupsInv (s : GroupSystem) : Prop where
  linked : Linked s.dir.store
  owned : OwnersOk s.dir.store
  led : LedOk s.dir.store
  sound : PlansSound s
  snapshots : SnapshotsOk s

theorem groupsInv_start (config : Option Json) (nodes : List (String × Json)) :
    GroupsInv (GroupSystem.start config nodes) where
  linked :=
    { index := fun _ _ => ⟨fun mem => (nomatch mem), fun ⟨_, mem, _⟩ => nomatch mem⟩
      addressed := fun _ mem => nomatch mem }
  owned := fun _ mem => nomatch mem
  led := fun _ mem => nomatch mem
  sound := plansSound_start config nodes
  snapshots := fun _ mem => nomatch mem

/-- The documents, the index and the outbox agree behind every step. -/
theorem Linked.step (linked : Linked s.dir.store) (owned : OwnersOk s.dir.store)
    (sound : PlansSound s) (stepped : s.step op = some s') : Linked s'.dir.store := by
  have stored := step_store sound stepped
  generalize s'.dir.store = store at stored
  cases stored with
  | stays => exact linked
  | command fresh ran => exact linked.command owned fresh ran
  | departs done => exact linked.departure done
  | returns _ _ _ done => exact linked.restore done
  | renames _ done =>
    rcases nodeRename_eq_ok done with ⟨-, rfl⟩ | ⟨-, renamed⟩
    · exact linked
    · exact linked.rename renamed
  | imports isPlan done => exact Linked.imported (sound _ (List.mem_of_getElem? isPlan)) done

theorem GroupsInv.linked_step (inv : GroupsInv s) (stepped : s.step op = some s') :
    Linked s'.dir.store :=
  inv.linked.step inv.owned inv.sound stepped

theorem Origin.led {group : AgentGroup} (origin : Origin s op group) (inv : LedOk s.dir.store)
    (keeps : ∀ c index plan, op = .applyImport c index → s.plans[index]? = some plan →
      KeepsMembers s.dir.store plan) (on : group.dissolved = false) : Led group := by
  cases origin with
  | edited traced =>
    obtain ⟨old, mem, -, edits⟩ := traced
    exact edits.keep Edit.led (inv old mem (edits.active on))
  | created fresh => exact led_newGroup _ _ _ _
  | @returned c index node saved before isDeleted isSaved runs =>
    have isRead := read_eq_ok runs.read
    exact (inv before isRead.mem isRead.active).joined rfl (memberIds_returned saved)
  | @renamed c old new before named mem =>
    obtain ⟨-, -, active, -⟩ := AgentGroup.rename_eq old new c.now before
    exact (inv before mem (active.symm.trans on)).rename
  | @imported c index plan value isPlan inPlan owners =>
    by_cases same : unchanged (findRow AgentGroup.id value.id s.dir.store.groups) value = true
    · exact inv _ (savedGroup_of_unchanged same) on
    · have empty : value.members = [] := by
        by_contra nonempty
        exact same (keeps c index plan rfl isPlan value inPlan nonempty)
      rw [savedGroup_of_changed same]
      exact ⟨nofun, fun nonempty => absurd empty nonempty⟩

/-- Only an import of a group with members can leave one without a leader. -/
theorem GroupsInv.led_step (inv : GroupsInv s) (stepped : s.step op = some s')
    (keeps : ImportsKeepMembers s op) : LedOk s'.dir.store := by
  by_cases refused : ∃ c index plan, op = .applyImport c index ∧ s.plans[index]? = some plan ∧
      ¬ ImportRuns s.dir plan
  · obtain ⟨c, index, plan, rfl, isPlan, notRuns⟩ := refused
    obtain ⟨plan', isPlan', rfl⟩ := Option.map_eq_some_iff.mp stepped
    cases isPlan.symm.trans isPlan'
    change LedOk (applyStructure c s.dir plan).2.store
    rw [applyStructure_of_not_runs c notRuns]
    exact inv.led
  · intro group mem on
    refine ((step_origin inv.sound stepped).1 group mem).led inv.led ?_ on
    intro c index plan same isPlan
    apply keeps c index plan same isPlan
    by_contra notRuns
    exact refused ⟨c, index, plan, same, isPlan, notRuns⟩

/-- One step keeps the invariant of the group store. -/
theorem GroupsInv.step (inv : GroupsInv s) (stepped : s.step op = some s')
    (keeps : ImportsKeepMembers s op) : GroupsInv s' where
  linked := inv.linked_step stepped
  owned := inv.owned.step inv.sound inv.snapshots stepped
  led := inv.led_step stepped keeps
  sound := inv.sound.step stepped
  snapshots := inv.snapshots.step stepped

theorem GroupsInv.step_iff (inv : GroupsInv s) (stepped : s.step op = some s') :
    MembershipOk s'.dir.store ↔ ImportsKeepMembers s op := by
  constructor
  · intro ok c index plan same isPlan runs
    subst same
    obtain ⟨plan', isPlan', rfl⟩ := Option.map_eq_some_iff.mp stepped
    cases isPlan.symm.trans isPlan'
    have sound := inv.sound plan (List.mem_of_getElem? isPlan)
    exact ok.keepsMembers (applyStructure_of_runs c sound runs)
  · intro keeps
    exact (inv.linked_step stepped).membershipOk (inv.led_step stepped keeps)

/-- The documents, the index, the leaders and the outbox agree in every state of a run exactly when
every import that goes through leaves the groups with members as they are. -/
theorem membershipOk_iff (config : Option Json) (nodes : List (String × Json))
    (ops : List GroupOp) :
    Along GroupSystem.step (fun _ _ after => MembershipOk after.dir.store)
        (GroupSystem.start config nodes) ops ↔
      Along GroupSystem.step (fun before op _ => ImportsKeepMembers before op)
        (GroupSystem.start config nodes) ops := by
  apply along_iff_of_invariant (I := GroupsInv)
  · intro s op s' inv stepped
    exact inv.step_iff stepped
  · intro s op s' inv stepped keeps
    exact inv.step stepped keeps
  · exact groupsInv_start config nodes

end Runs

/-- A machine that installs every type and leaves all fields as they are. -/
def plainMachine : Machine where
  installed := fun _ => true
  validate := fun _ => .ok ()
  normalizeUi := .ok
  normalizeRoutes := fun _ _ => .ok (.obj [])
  schemaVersion := 1

/-- A source graph with one group of one node. -/
def loneBundle : Bundle where
  graph := []
  groups := [⟨"g", "team", "", ⟨0, 0, 1, 1, unit_pos, unit_pos⟩, [{ nodeId := "a" }], false⟩]
  nodes := [{ id := "a", config := [("type_id", .str "agent")] }]

/-- The import of a group into an empty graph leaves the group without a leader. -/
theorem import_drops_leader :
    ∃ s, run GroupSystem.step (GroupSystem.start none [])
        [.planImport plainMachine "target" loneBundle, .applyImport {} 0] = some s ∧
      ¬ MembershipOk s.dir.store := by
  refine ⟨_, rfl, fun ok => ?_⟩
  obtain ⟨leader, -, isLeader⟩ := ok.led _ (List.mem_singleton_self _) rfl (List.cons_ne_nil _ _)
  cases isLeader

end AgentPark.Groups
