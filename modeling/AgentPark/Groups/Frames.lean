import AgentPark.Groups.Origin
import Mathlib.Data.List.Pairwise
import Mathlib.Tactic.Linarith

/-!
# The frames of the active groups

`reconcile` and `plan_structure` refuse a frame that overlaps the one of another active group, `create`
takes any frame.  `frames_apart_iff` says that the frames of the active groups stay apart in a run
exactly as long as every creation that goes through brings a frame that lies apart;
`create_overlaps` is a run of two creations over the same place.
-/

namespace AgentPark.Groups

open Lib

/-! ### Overlapping frames -/

theorem overlaps_comm (a b : GroupBounds) : overlaps a b = overlaps b a := by
  rw [Bool.eq_iff_iff]
  simp only [overlaps, Bool.and_eq_true, decide_eq_true_eq, gt_iff_lt]
  tauto

/-! ### The invariant -/

/-- The frames of the groups that are not dissolved do not overlap. -/
def FramesApart (db : GroupStore) : Prop :=
  ∀ group ∈ db.groups, ∀ other ∈ db.groups, group.dissolved = false → other.dissolved = false →
    group.id ≠ other.id → overlaps group.bounds other.bounds = false

/-- The frame overlaps no active group of the store. -/
def FrameFree (db : GroupStore) (bounds : GroupBounds) : Prop :=
  ∀ other ∈ db.groups, other.dissolved = false → overlaps bounds other.bounds = false

/-- No member of the command is in a group: `create` does not refuse it. -/
def MembersFree (db : GroupStore) (command : CreateGroup) : Prop :=
  ∀ member ∈ command.members, db.memberGroup member.nodeId = none

/-- A creation that is not refused brings a frame that lies apart. -/
def CreatesApart (s : GroupSystem) (op : GroupOp) : Prop :=
  ∀ c command isPrivate id, op = .command c (.create command isPrivate id) →
    MembersFree s.dir.store command → FrameFree s.dir.store command.bounds

section Frames

variable {c : Caller} {db db' : GroupStore} {framed : Option String} {group old : AgentGroup}

/-- An edit keeps the frame, or it gives the group `framed` one that is apart. -/
def FrameFrom (db : GroupStore) (framed : Option String) (old group : AgentGroup) : Prop :=
  (group.dissolved = false → old.dissolved = false) ∧
    (group.bounds = old.bounds ∨ framed = some old.id ∧ ∀ other ∈ db.groups,
      other.dissolved = false → other.id ≠ old.id → overlaps group.bounds other.bounds = false)

theorem Edits.frameFrom (edits : Edits db framed old group) : FrameFrom db framed old group := by
  induction edits with
  | refl => exact ⟨id, .inl rfl⟩
  | tail before edit ih =>
    obtain ⟨on, frame⟩ := ih
    cases edit with
    | frame bounds isFramed apart =>
      rw [Edits.id_eq before] at isFramed apart
      exact ⟨on, .inr ⟨isFramed, apart⟩⟩
    | dissolve => exact ⟨nofun, frame⟩
    | _ => exact ⟨on, frame⟩

/-- Every active document has its frame from the old one with its id. -/
def FramesFrom (framed : Option String) (db db' : GroupStore) : Prop :=
  ∀ group ∈ db'.groups, ∃ old ∈ db.groups, old.id = group.id ∧ FrameFrom db framed old group

theorem FramesApart.of_framesFrom (apart : FramesApart db) (framed : Option String)
    (frames : FramesFrom framed db db') :
    FramesApart db' := by
  intro group mem other inGroups on otherOn differ
  obtain ⟨old, inOld, sameId, active, frame⟩ := frames group mem
  obtain ⟨before, inBefore, sameOther, otherActive, otherFrame⟩ := frames other inGroups
  have distinct : old.id ≠ before.id := by
    rw [sameId, sameOther]
    exact differ
  rcases frame with same | ⟨isFramed, free⟩
  · rw [same]
    rcases otherFrame with sameFrame | ⟨-, free⟩
    · rw [sameFrame]
      exact apart old inOld before inBefore (active on) (otherActive otherOn) distinct
    · rw [overlaps_comm]
      exact free old inOld (active on) distinct
  · rcases otherFrame with sameFrame | ⟨alsoFramed, -⟩
    · rw [sameFrame]
      exact free before inBefore (otherActive otherOn) distinct.symm
    · have same := isFramed.symm.trans alsoFramed
      exact absurd (Option.some.inj same) distinct

/-! ### The operations -/

theorem create_groups {command : CreateGroup} {isPrivate : Bool} {id : String}
    (ran : (GroupCommand.create command isPrivate id).run c db = .ok db') :
    db'.groups = upsert AgentGroup.id (newGroup c command isPrivate id) db.groups := by
  obtain ⟨result, done, rfl⟩ := map_eq_ok.mp ran
  obtain ⟨mid, inserted, same⟩ := createGroup_eq_ok done
  rw [same, GroupStore.event_groups]
  exact (insertAll_eq_ok inserted).2.2.2.1

theorem framesApart_create_iff {command : CreateGroup} {isPrivate : Bool} {id : String}
    (apart : FramesApart db) (fresh : id ∉ db.groups.map AgentGroup.id)
    (ran : (GroupCommand.create command isPrivate id).run c db = .ok db') :
    FramesApart db' ↔ FrameFree db command.bounds := by
  have groups := create_groups ran
  have new : newGroup c command isPrivate id ∈ db'.groups := by
    rw [groups]
    exact mem_upsert_self
  have differs {other : AgentGroup} (mem : other ∈ db.groups) : other.id ≠ id := fun same =>
    fresh (List.mem_map.mpr ⟨other, mem, same⟩)
  constructor
  · intro after other mem on
    have inGroups : other ∈ db'.groups := by
      rw [groups]
      exact mem_upsert.mpr (.inr ⟨mem, differs mem⟩)
    exact after _ new other inGroups rfl on (differs mem).symm
  · intro free group mem other inGroups on otherOn differ
    rw [groups] at mem inGroups
    rcases mem_upsert.mp mem with rfl | ⟨old, -⟩
    · rcases mem_upsert.mp inGroups with rfl | ⟨before, -⟩
      · exact absurd rfl differ
      · exact free other before otherOn
    · rcases mem_upsert.mp inGroups with rfl | ⟨before, -⟩
      · rw [overlaps_comm]
        exact free group old on
      · exact apart group old other before on otherOn differ

theorem membersFree_of_create {command : CreateGroup} {isPrivate : Bool} {id : String}
    (ran : (GroupCommand.create command isPrivate id).run c db = .ok db') :
    MembersFree db command := by
  obtain ⟨result, done, -⟩ := map_eq_ok.mp ran
  rw [createGroup] at done
  split at done
  · cases done
  · rename_i free
    intro member mem
    have outside := List.find?_eq_none.mp free member mem
    simpa using outside

theorem create_of_membersFree {command : CreateGroup} (c : Caller) (isPrivate : Bool) (id : String)
    (free : MembersFree db command) :
    ∃ db', (GroupCommand.create command isPrivate id).run c db = .ok db' := by
  have outside : ∀ member ∈ command.members,
      member.nodeId ∉ (db.put (newGroup c command isPrivate id)).members.map MemberRow.nodeId :=
    fun member mem => memberGroup_eq_none.mp (free member mem)
  obtain ⟨mid, inserted⟩ := insertAll_of_fresh id outside command.unique
  have notFound : command.members.find? (fun member => (db.memberGroup member.nodeId).isSome) =
      none := by
    apply List.find?_eq_none.mpr
    intro member mem
    rw [free member mem]
    exact Bool.false_ne_true
  have created : ∃ result, createGroup c db command isPrivate id = .ok result := by
    rw [createGroup, notFound]
    exact ⟨_, bind_eq_ok.mpr ⟨mid, inserted, rfl⟩⟩
  obtain ⟨result, done⟩ := created
  exact ⟨result.2, map_eq_ok.mpr ⟨result, done, rfl⟩⟩

theorem AgentGroup.rename_bounds (before after now : String) (group : AgentGroup) :
    (group.rename before after now).bounds = group.bounds ∧
      (group.rename before after now).dissolved = group.dissolved := by
  rw [AgentGroup.rename]
  split_ifs
  · exact ⟨rfl, rfl⟩
  · exact ⟨rfl, rfl⟩

theorem FramesApart.imported {plan : StructurePlan} (sound : plan.Sound)
    (imported : Imported c plan db db') : FramesApart db' := by
  intro group mem other inGroups on otherOn differ
  obtain ⟨value, inPlan, rfl⟩ := imported.active sound mem on
  obtain ⟨value', inPlan', rfl⟩ := imported.active sound inGroups otherOn
  rw [savedGroup_bounds, savedGroup_bounds]
  have symmetric : Std.Symm fun a b : GroupFields => overlaps b.bounds a.bounds = false := by
    constructor
    intro a b free
    rw [overlaps_comm]
    exact free
  have distinct : value ≠ value' := fun same => differ (by rw [same])
  rw [overlaps_comm]
  exact sound.apart.forall inPlan inPlan' distinct

/-! ### Whole runs -/

variable {s s' : GroupSystem} {op : GroupOp}

/-- What every reachable state has. -/
structure FramesInv (s : GroupSystem) : Prop where
  apart : FramesApart s.dir.store
  sound : PlansSound s

theorem framesInv_start (config : Option Json) (nodes : List (String × Json)) :
    FramesInv (GroupSystem.start config nodes) where
  apart := fun _ mem => nomatch mem
  sound := plansSound_start config nodes

theorem Origin.frameFrom (origin : Origin s op group)
    (notCreate : ∀ c create isPrivate id, op ≠ .command c (.create create isPrivate id))
    (notImport : ∀ c index, op ≠ .applyImport c index) :
    ∃ old ∈ s.dir.store.groups, old.id = group.id ∧
      FrameFrom s.dir.store op.framed old group := by
  cases origin with
  | edited traced =>
    obtain ⟨old, inOld, sameId, edits⟩ := traced
    exact ⟨old, inOld, sameId, edits.frameFrom⟩
  | created fresh => exact absurd rfl (notCreate _ _ _ _)
  | returned isDeleted isSaved runs =>
    have isRead := read_eq_ok runs.read
    exact ⟨_, isRead.mem, rfl, fun _ => isRead.active, .inl rfl⟩
  | @renamed c old new group named mem =>
    obtain ⟨bounds, dissolved⟩ := AgentGroup.rename_bounds old new c.now group
    exact ⟨group, mem, (AgentGroup.rename_id group).symm, fun on => dissolved ▸ on, .inl bounds⟩
  | imported isPlan inPlan owners => exact absurd rfl (notImport _ _)

theorem FramesInv.other (inv : FramesInv s) (stepped : s.step op = some s')
    (notCreate : ∀ c create isPrivate id, op ≠ .command c (.create create isPrivate id)) :
    FramesApart s'.dir.store := by
  by_cases isImport : ∃ c index, op = .applyImport c index
  · obtain ⟨c, index, rfl⟩ := isImport
    obtain ⟨plan, isPlan, rfl⟩ := Option.map_eq_some_iff.mp stepped
    change FramesApart (applyStructure c s.dir plan).2.store
    have sound := inv.sound plan (List.mem_of_getElem? isPlan)
    rcases applyStructure_store c s.dir sound with same | imported
    · rw [same]
      exact inv.apart
    · exact FramesApart.imported sound imported
  · apply inv.apart.of_framesFrom op.framed
    intro group mem
    exact ((step_origin inv.sound stepped).1 group mem).frameFrom notCreate
      fun c index same => isImport ⟨c, index, same⟩

theorem FramesInv.step_iff (inv : FramesInv s) (stepped : s.step op = some s') :
    FramesApart s'.dir.store ↔ CreatesApart s op := by
  by_cases isCreate : ∃ c create isPrivate id, op = .command c (.create create isPrivate id)
  · obtain ⟨c, create, isPrivate, id, rfl⟩ := isCreate
    have asked : CreatesApart s (.command c (.create create isPrivate id)) ↔
        (MembersFree s.dir.store create → FrameFree s.dir.store create.bounds) := by
      constructor
      · exact fun holds => holds c create isPrivate id rfl
      · intro holds _ _ _ _ same
        cases same
        exact holds
    rw [asked]
    rw [GroupSystem.step] at stepped
    split_ifs at stepped with fresh
    split at stepped
    · rename_i store ran
      cases stepped
      change FramesApart store ↔ _
      rw [framesApart_create_iff inv.apart fresh ran]
      exact ⟨fun free _ => free, fun free => free (membersFree_of_create ran)⟩
    · rename_i raised
      cases stepped
      constructor
      · intro _ members
        obtain ⟨store, ran⟩ := create_of_membersFree c isPrivate id members
        rw [ran] at raised
        cases raised
      · exact fun _ => inv.apart
  · have notCreate : ∀ c create isPrivate id, op ≠ .command c (.create create isPrivate id) :=
      fun c create isPrivate id same => isCreate ⟨c, create, isPrivate, id, same⟩
    constructor
    · exact fun _ c create isPrivate id same => absurd same (notCreate c create isPrivate id)
    · exact fun _ => inv.other stepped notCreate

/-- A step whose creation lies apart from the other frames keeps all of them apart. -/
theorem FramesInv.step (inv : FramesInv s) (stepped : s.step op = some s')
    (holds : CreatesApart s op) : FramesInv s' where
  apart := (inv.step_iff stepped).mpr holds
  sound := inv.sound.step stepped

/-- The frames of the active groups are apart in every state of a run exactly when every creation
that goes through brings a frame that is apart from theirs. -/
theorem frames_apart_iff (config : Option Json) (nodes : List (String × Json))
    (ops : List GroupOp) :
    Along GroupSystem.step (fun _ _ after => FramesApart after.dir.store)
        (GroupSystem.start config nodes) ops ↔
      Along GroupSystem.step (fun before op _ => CreatesApart before op)
        (GroupSystem.start config nodes) ops := by
  apply along_iff_of_invariant (I := FramesInv)
  · intro s op s' inv stepped
    exact inv.step_iff stepped
  · intro s op s' inv stepped holds
    exact inv.step stepped holds
  · exact framesInv_start config nodes

end Frames

instance (db : GroupStore) : Decidable (FramesApart db) :=
  inferInstanceAs (Decidable (∀ group ∈ db.groups, ∀ other ∈ db.groups, _ → _ → _ → _))

/-- A unit square at the origin. -/
def originFrame : GroupBounds where
  x := 0
  y := 0
  width := 1
  height := 1
  width_pos := unit_pos
  height_pos := unit_pos

/-- A group of one node at the origin. -/
def loneGroup (name nodeId : String) : CreateGroup where
  name := name
  members := [{ nodeId }]
  bounds := originFrame
  nonempty := List.cons_ne_nil _ _
  unique := List.nodup_singleton nodeId

/-- The second of two creations over the same place goes through. -/
theorem create_overlaps :
    ∃ s, run GroupSystem.step (GroupSystem.start none [])
        [.command {} (.create (loneGroup "first" "a") false "g"),
          .command {} (.create (loneGroup "second" "b") false "h")] = some s ∧
      ¬ FramesApart s.dir.store := by
  refine ⟨_, rfl, ?_⟩
  decide +kernel

end AgentPark.Groups
