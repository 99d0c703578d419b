import AgentPark.Groups.Imports

/-!
# What a step of the system has done

`StoreStep` lists how a step changes the store, `step_store` is the inversion of `step`.
-/

namespace AgentPark.Groups

open Lib

/-! ### Node operations -/

section Nodes

variable {c : Caller} {db db' : GroupStore}

/-- What a departure does. -/
theorem nodeDeparture_eq_ok {nodeId reason : String} {result : Option DeletedMember × GroupStore}
    (done : nodeDeparture c db nodeId reason = .ok result) :
    (db.memberGroup nodeId = none ∧ result = (none, db)) ∨
      ∃ group member, db.memberGroup nodeId = some group.id ∧ Read db group.id none group ∧
        member ∈ group.members ∧ member.nodeId = nodeId ∧
        result = (some ⟨group.id, member, group.tasks.filter (GroupTask.heldBy nodeId)⟩,
          (detachMember c db group nodeId reason).2) := by
  rw [nodeDeparture] at done
  split at done
  · rename_i outside
    cases done
    exact .inl ⟨outside, rfl⟩
  · rename_i groupId isMember
    obtain ⟨group, read, taken⟩ := bind_eq_ok.mp done
    have isRead := read_eq_ok read
    rw [← isRead.id_eq] at isMember isRead
    split at taken
    · cases taken
    · rename_i member found
      cases taken
      have isNode := List.find?_some found
      exact .inr ⟨group, member, isMember, isRead, List.mem_of_find?_eq_some found,
        of_decide_eq_true isNode, rfl⟩

/-- The document that a restoration saves. -/
def AgentGroup.returned (c : Caller) (group : AgentGroup) (saved : DeletedMember) : AgentGroup :=
  (group.withReturned saved c.now).bump c.now

/-- What the undo of a deletion does. -/
theorem restoreDeletedMember_eq_ok {saved : DeletedMember}
    (done : restoreDeletedMember c db saved = .ok db') :
    ∃ group mid payload, db.read saved.groupId none = .ok group ∧
      db.memberGroup saved.member.nodeId = none ∧
      (∀ original ∈ saved.tasks, (group.taskById original.id).any fun current =>
        current.releasedFrom original) ∧
      db.insertMember saved.member.nodeId group.id = .ok mid ∧
      db' = (mid.put (group.returned c saved)).event c (group.returned c saved) .memberRestored none
        payload [] false := by
  obtain ⟨group, isRead, done⟩ := bind_eq_ok.mp done
  obtain ⟨outside, done⟩ := require_bind_eq_ok.mp done
  obtain ⟨released, done⟩ := require_bind_eq_ok.mp done
  obtain ⟨mid, inserted, same⟩ := bind_eq_ok.mp done
  cases same
  exact ⟨group, mid, _, isRead, outside, released, inserted, rfl⟩

theorem rename_eq_ok {old new now : String} (done : db.rename old new now = .ok db') :
    db'.groups = db.groups.map (AgentGroup.rename old new now) ∧
      db'.members = db.members.map (MemberRow.rename old new) ∧
      db'.events = db.events.map (Event.rename old new) ∧
      db'.deliveries = db.deliveries.map (Delivery.rename old new) ∧
      db'.requests = db.requests.map (MessageRequest.rename old new) ∧
      db'.nextSeq = db.nextSeq := by
  rw [GroupStore.rename] at done
  split_ifs at done
  cases done
  exact ⟨rfl, rfl, rfl, rfl, rfl, rfl⟩

theorem reportRename_cases (c : Caller) (db after : GroupStore) (old new : String) :
    db.reportRename after c old new = after ∨
      ∃ group payload, db.reportRename after c old new =
        after.event c group .memberRenamed none payload [] false := by
  rw [GroupStore.reportRename]
  split
  · exact .inl rfl
  · split_ifs
    · exact .inl rfl
    · exact .inr ⟨_, _, rfl⟩

/-- What a renaming checks and does. -/
structure Renamed (db db' : GroupStore) (old new now : String) : Prop where
  rows : ∀ row ∈ db.members, row.nodeId ≠ new
  addressed : ∀ row ∈ db.deliveries, row.nodeId ≠ new
  acted : ∀ event ∈ db.events, event.actorId ≠ some new
  groups : db'.groups = db.groups.map (AgentGroup.rename old new now)
  members : db'.members = db.members.map (MemberRow.rename old new)
  events : ∃ more, db'.events = db.events.map (Event.rename old new) ++ more
  deliveries : db'.deliveries = db.deliveries.map (Delivery.rename old new)
  requests : db'.requests = db.requests.map (MessageRequest.rename old new)

/-- What a renaming does. -/
theorem nodeRename_eq_ok {old new : String} (done : nodeRename c db old new = .ok db') :
    (old = new ∧ db' = db) ∨ old ≠ new ∧ Renamed db db' old new c.now := by
  rw [nodeRename] at done
  by_cases same : old = new
  · rw [if_pos same] at done
    cases done
    exact .inl ⟨same, rfl⟩
  · rw [if_neg same] at done
    obtain ⟨⟨rows, addressed, acted⟩, done⟩ := require_bind_eq_ok.mp done
    obtain ⟨after, renamed, report⟩ := bind_eq_ok.mp done
    cases report
    obtain ⟨groups, members, events, deliveries, requests, -⟩ := rename_eq_ok renamed
    refine .inr ⟨same, ?_⟩
    rcases reportRename_cases c db after old new with silent | ⟨group, payload, told⟩
    · rw [silent]
      exact ⟨rows, addressed, acted, groups, members, ⟨[], by rw [events, List.append_nil]⟩,
        deliveries, requests⟩
    · rw [told]
      refine ⟨rows, addressed, acted, groups, members, ⟨_, congrArg (· ++ _) events⟩, ?_, requests⟩
      rw [GroupStore.event_deliveries_nil, deliveries]

end Nodes

/-! ### Steps -/

/-- How a step changes the store. -/
inductive StoreStep (s : GroupSystem) : GroupOp → GroupStore → Prop where
  | stays (op : GroupOp) : StoreStep s op s.dir.store
  | command {c : Caller} {command : GroupCommand} {store : GroupStore}
      (fresh : command.Fresh s.dir.store) (ran : command.run c s.dir.store = .ok store) :
      StoreStep s (.command c command) store
  | departs {c : Caller} {nodeId reason : String} {member : Option DeletedMember}
      {store : GroupStore} (done : nodeDeparture c s.dir.store nodeId reason = .ok (member, store)) :
      StoreStep s (.removeNode c nodeId reason) store
  | returns {c : Caller} {index : Nat} {node : DeletedNode} {saved : DeletedMember}
      {store : GroupStore} (isDeleted : s.deleted[index]? = some node)
      (isSaved : node.member = some saved) (absent : node.nodeId ∉ s.dir.nodes.map Prod.fst)
      (done : restoreDeletedMember c s.dir.store saved = .ok store) :
      StoreStep s (.restoreNode c index) store
  | renames {c : Caller} {old new : String} {store : GroupStore} (named : old ≠ "" ∧ new ≠ "")
      (done : nodeRename c s.dir.store old new = .ok store) :
      StoreStep s (.renameNode c old new) store
  | imports {c : Caller} {index : Nat} {plan : StructurePlan} {store : GroupStore}
      (isPlan : s.plans[index]? = some plan) (done : Imported c plan s.dir.store store) :
      StoreStep s (.applyImport c index) store

section Steps

variable {s s' : GroupSystem} {op : GroupOp}

/-- The previews come from `planStructure`. -/
def PlansSound (s : GroupSystem) : Prop := ∀ plan ∈ s.plans, plan.Sound

theorem plansSound_start (config : Option Json) (nodes : List (String × Json)) :
    PlansSound (GroupSystem.start config nodes) := fun _ mem => nomatch mem

theorem step_grows (stepped : s.step op = some s') :
    (s'.plans = s.plans ∨ ∃ machine targetGraph bundle plan,
      op = .planImport machine targetGraph bundle ∧
        planStructure machine targetGraph s.dir bundle = .ok plan ∧ s'.dir = s.dir ∧
        s'.plans = s.plans ++ [plan]) ∧
    (s'.deleted = s.deleted ∨ ∃ c nodeId reason node store, op = .removeNode c nodeId reason ∧
      s.dir.nodes.lookup nodeId = some node.config ∧
      nodeDeparture c s.dir.store nodeId reason = .ok (node.member, store) ∧
      s'.dir.store = store ∧ s'.deleted = s.deleted ++ [node]) := by
  cases op with
  | planImport machine targetGraph bundle =>
    rw [GroupSystem.step] at stepped
    split at stepped
    · rename_i plan planned
      cases stepped
      exact ⟨.inr ⟨machine, targetGraph, bundle, plan, rfl, planned, rfl, rfl⟩, .inl rfl⟩
    · cases stepped
      exact ⟨.inl rfl, .inl rfl⟩
  | command c command =>
    rw [GroupSystem.step] at stepped
    split_ifs at stepped
    split at stepped
    · cases stepped
      exact ⟨.inl rfl, .inl rfl⟩
    · cases stepped
      exact ⟨.inl rfl, .inl rfl⟩
  | createNode nodeId config =>
    rw [GroupSystem.step] at stepped
    split_ifs at stepped
    cases stepped
    exact ⟨.inl rfl, .inl rfl⟩
  | hideNode nodeId =>
    cases stepped
    exact ⟨.inl rfl, .inl rfl⟩
  | removeNode c nodeId reason =>
    cases stepped
    rw [GroupSystem.remove]
    split
    · rename_i config member store present done
      exact ⟨.inl rfl, .inr ⟨c, nodeId, reason, ⟨nodeId, config, member⟩, store, rfl, present, done,
        rfl, rfl⟩⟩
    · exact ⟨.inl rfl, .inl rfl⟩
  | restoreNode c index =>
    obtain ⟨node, -, rfl⟩ := Option.map_eq_some_iff.mp stepped
    rw [GroupSystem.restore]
    split_ifs
    · exact ⟨.inl rfl, .inl rfl⟩
    · split
      · exact ⟨.inl rfl, .inl rfl⟩
      · split
        · exact ⟨.inl rfl, .inl rfl⟩
        · exact ⟨.inl rfl, .inl rfl⟩
  | renameNode c old new =>
    cases stepped
    rw [GroupSystem.rename]
    split_ifs
    · exact ⟨.inl rfl, .inl rfl⟩
    · split
      · exact ⟨.inl rfl, .inl rfl⟩
      · exact ⟨.inl rfl, .inl rfl⟩
  | applyImport c index =>
    obtain ⟨plan, -, rfl⟩ := Option.map_eq_some_iff.mp stepped
    exact ⟨.inl rfl, .inl rfl⟩

/-- A step adds no preview but one that `planStructure` made. -/
theorem PlansSound.step (inv : PlansSound s) (stepped : s.step op = some s') : PlansSound s' := by
  rcases (step_grows stepped).1 with same |
    ⟨machine, targetGraph, bundle, plan, -, planned, -, more⟩
  · rw [PlansSound, same]
    exact inv
  · intro other mem
    rw [more] at mem
    rcases List.mem_append.mp mem with old | new
    · exact inv other old
    · rw [List.mem_singleton.mp new]
      exact planStructure_sound planned

/-- The inversion of `step`. -/
theorem step_store (sound : PlansSound s) (stepped : s.step op = some s') :
    StoreStep s op s'.dir.store := by
  cases op with
  | command c command =>
    rw [GroupSystem.step] at stepped
    split_ifs at stepped with fresh
    split at stepped
    · rename_i store ran
      cases stepped
      exact .command fresh ran
    · cases stepped
      exact .stays _
  | createNode nodeId config =>
    rw [GroupSystem.step] at stepped
    split_ifs at stepped
    cases stepped
    exact .stays _
  | hideNode nodeId =>
    cases stepped
    exact .stays _
  | removeNode c nodeId reason =>
    cases stepped
    rw [GroupSystem.remove]
    split
    · rename_i config member store present done
      exact .departs done
    · exact .stays _
  | restoreNode c index =>
    obtain ⟨node, isDeleted, rfl⟩ := Option.map_eq_some_iff.mp stepped
    rw [GroupSystem.restore]
    split_ifs with absent
    · exact .stays _
    · split
      · exact .stays _
      · rename_i saved isSaved
        split
        · exact .stays _
        · rename_i store done
          exact .returns isDeleted isSaved absent done
  | renameNode c old new =>
    cases stepped
    rw [GroupSystem.rename]
    split_ifs with refused
    · exact .stays _
    · split
      · exact .stays _
      · rename_i store done
        exact .renames ⟨fun unnamed => refused (.inl unnamed),
          fun unnamed => refused (.inr (.inl unnamed))⟩ done
  | planImport machine targetGraph bundle =>
    rw [GroupSystem.step] at stepped
    split at stepped
    · cases stepped
      exact .stays _
    · cases stepped
      exact .stays _
  | applyImport c index =>
    obtain ⟨plan, isPlan, rfl⟩ := Option.map_eq_some_iff.mp stepped
    rcases applyStructure_store c s.dir (sound plan (List.mem_of_getElem? isPlan)) with
      same | imported
    · change StoreStep s _ (applyStructure c s.dir plan).2.store
      rw [same]
      exact .stays _
    · exact .imports isPlan imported

end Steps

end AgentPark.Groups
