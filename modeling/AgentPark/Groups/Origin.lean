import AgentPark.Groups.Edits
import AgentPark.Groups.Steps

/-!
# Where the documents behind a step come from

`Origin` lists the cases: a document was edited by a command or a departure, created, saved by a
restoration or a renaming, or written by an import.  A property of documents that all cases keep is an
invariant of the system.
-/

namespace AgentPark.Groups

open Lib

/-- The group whose frame the operation may change. -/
def GroupOp.framed : GroupOp → Option String
  | .command _ issued => issued.framed
  | _ => none

/-- The undo of the deletion goes through and the member returns to the group. -/
structure RestoreRuns (s : GroupSystem) (node : DeletedNode) (saved : DeletedMember)
    (group : AgentGroup) : Prop where
  absent : node.nodeId ∉ s.dir.nodes.map Prod.fst
  read : s.dir.store.read saved.groupId none = .ok group
  outside : s.dir.store.memberGroup saved.member.nodeId = none
  released : ∀ original ∈ saved.tasks, (group.taskById original.id).any fun current =>
    current.releasedFrom original

/-- Where a document of the store behind an operation comes from. -/
inductive Origin (s : GroupSystem) : GroupOp → AgentGroup → Prop where
  | edited {op : GroupOp} {group : AgentGroup} (traced : Traced s.dir.store op.framed group) :
      Origin s op group
  | created {c : Caller} {command : CreateGroup} {isPrivate : Bool} {id : String}
      (fresh : id ∉ s.dir.store.groups.map AgentGroup.id) :
      Origin s (.command c (.create command isPrivate id)) (newGroup c command isPrivate id)
  | returned {c : Caller} {index : Nat} {node : DeletedNode} {saved : DeletedMember}
      {group : AgentGroup} (isDeleted : s.deleted[index]? = some node)
      (isSaved : node.member = some saved) (runs : RestoreRuns s node saved group) :
      Origin s (.restoreNode c index) (group.returned c saved)
  | renamed {c : Caller} {old new : String} {group : AgentGroup} (named : old ≠ "" ∧ new ≠ "")
      (mem : group ∈ s.dir.store.groups) :
      Origin s (.renameNode c old new) (group.rename old new c.now)
  | imported {c : Caller} {index : Nat} {plan : StructurePlan} {value : GroupFields}
      (isPlan : s.plans[index]? = some plan) (inPlan : value ∈ plan.groups)
      (owners : ∀ old, findRow AgentGroup.id value.id s.dir.store.groups = some old →
        OwnersStay old value) :
      Origin s (.applyImport c index) (savedGroup c s.dir.store.groups value)

section Origin

variable {s s' : GroupSystem} {op : GroupOp} {group : AgentGroup}

theorem Origin.stays (mem : group ∈ s.dir.store.groups) : Origin s op group :=
  .edited ⟨group, mem, rfl, .refl⟩

theorem nodeDeparture_traced {c : Caller} {db : GroupStore} {nodeId reason : String}
    {result : Option DeletedMember × GroupStore}
    (done : nodeDeparture c db nodeId reason = .ok result) :
    (∀ group ∈ result.2.groups, Traced db none group) ∧
      db.groups.map AgentGroup.id ⊆ result.2.groups.map AgentGroup.id := by
  rcases nodeDeparture_eq_ok done with ⟨-, rfl⟩ | ⟨group, _, -, isRead, -, -, rfl⟩
  · exact ⟨fun group mem => ⟨group, mem, rfl, .refl⟩, List.Subset.refl _⟩
  · have start : Editing db none db group := Editing.start isRead.mem
    have editing : Editing db none (detachMember c db group nodeId reason).2 _ :=
      start.detach nodeId reason
    exact ⟨editing.traced, editing.kept⟩

theorem step_origin (sound : PlansSound s) (stepped : s.step op = some s') :
    (∀ group ∈ s'.dir.store.groups, Origin s op group) ∧
      s.dir.store.groups.map AgentGroup.id ⊆ s'.dir.store.groups.map AgentGroup.id := by
  have stored := step_store sound stepped
  generalize s'.dir.store = store at stored
  cases stored with
  | stays => exact ⟨fun group mem => .stays mem, List.Subset.refl _⟩
  | command fresh ran =>
    have traced := GroupCommand.traced fresh ran
    refine ⟨fun group mem => ?_, traced.kept⟩
    rcases traced.traced group mem with isTraced | ⟨create, isPrivate, id, rfl, rfl⟩
    · exact .edited isTraced
    · exact .created fresh
  | departs done =>
    obtain ⟨traced, kept⟩ := nodeDeparture_traced done
    exact ⟨fun group mem => .edited (traced group mem), kept⟩
  | returns isDeleted isSaved absent done =>
    obtain ⟨group, mid, payload, read, outside, released, inserted, rfl⟩ :=
      restoreDeletedMember_eq_ok done
    have groups := (insertMember_eq_ok inserted).2.2.1
    constructor
    · intro other mem
      rcases mem_upsert.mp mem with rfl | ⟨old, -⟩
      · exact .returned isDeleted isSaved ⟨absent, read, outside, released⟩
      · rw [groups] at old
        exact .stays old
    · intro id mem
      obtain ⟨old, inGroups, rfl⟩ := List.mem_map.mp mem
      rw [← groups] at inGroups
      by_cases same : old.id = group.id
      · rw [same]
        exact List.mem_map.mpr ⟨_, mem_upsert_self, rfl⟩
      · exact List.mem_map_of_mem (mem_upsert.mpr (.inr ⟨inGroups, same⟩))
  | renames named done =>
    rcases nodeRename_eq_ok done with ⟨-, rfl⟩ | ⟨-, renamed⟩
    · exact ⟨fun group mem => .stays mem, List.Subset.refl _⟩
    · rw [renamed.groups]
      constructor
      · intro other mem
        obtain ⟨group, inGroups, rfl⟩ := List.mem_map.mp mem
        exact .renamed named inGroups
      · intro id mem
        obtain ⟨old, inGroups, rfl⟩ := List.mem_map.mp mem
        rw [← AgentGroup.rename_id old]
        exact List.mem_map_of_mem (List.mem_map_of_mem inGroups)
  | @imports c index plan _ isPlan done =>
    constructor
    · intro group mem
      rcases (done.groups group).mp mem with ⟨value, inPlan, rfl⟩ | ⟨old, -⟩
      · exact .imported isPlan inPlan (done.owners value inPlan)
      · exact .stays old
    · intro id mem
      obtain ⟨old, inGroups, rfl⟩ := List.mem_map.mp mem
      by_cases planned : old.id ∈ plan.groups.map GroupFields.id
      · obtain ⟨value, inPlan, same⟩ := List.mem_map.mp planned
        rw [← same, ← savedGroup_id]
        exact List.mem_map_of_mem ((done.groups _).mpr (.inl ⟨value, inPlan, rfl⟩))
      · exact List.mem_map_of_mem ((done.groups _).mpr (.inr ⟨inGroups, planned⟩))

end Origin

end AgentPark.Groups
