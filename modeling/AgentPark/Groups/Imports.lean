import AgentPark.Groups.Commands

/-!
# What a structure import does
-/

namespace AgentPark.Groups

open Lib

/-! ### Plans -/

section Plans

variable {allIds : List String} {indexed result : List (String × GroupFields)}

/-- A dictionary of groups by their ids. -/
structure Indexed (indexed : List (String × GroupFields)) : Prop where
  keys : (indexed.map Prod.fst).Nodup
  named : ∀ entry ∈ indexed, entry.2.id = entry.1

theorem Indexed.set (inv : Indexed indexed) (group : GroupFields) :
    Indexed (dictSet indexed group.id group) := by
  refine ⟨nodup_dictSet inv.keys _ _, ?_⟩
  intro entry mem
  rw [dictSet] at mem
  split_ifs at mem
  · obtain ⟨old, inOld, rfl⟩ := List.mem_map.mp mem
    by_cases same : old.1 = group.id
    · rw [if_pos same]
    · rw [if_neg same]
      exact inv.named old inOld
  · rcases List.mem_append.mp mem with old | new
    · exact inv.named entry old
    · rw [List.mem_singleton.mp new]

/-- A group that was indexed before is still there, and private if it was. -/
def StillIndexed (indexed result : List (String × GroupFields)) : Prop :=
  ∀ id before, indexed.lookup id = some before →
    ∃ after, result.lookup id = some after ∧ (before.isPrivate = true → after.isPrivate = true)

theorem stillIndexed_refl : StillIndexed indexed indexed :=
  fun _ before found => ⟨before, found, id⟩

theorem StillIndexed.trans {mid : List (String × GroupFields)} (first : StillIndexed indexed mid)
    (second : StillIndexed mid result) : StillIndexed indexed result := by
  intro id before found
  obtain ⟨between, isBetween, hides⟩ := first id before found
  obtain ⟨after, isAfter, stillHides⟩ := second id between isBetween
  exact ⟨after, isAfter, fun isPrivate => stillHides (hides isPrivate)⟩

theorem stillIndexed_set {group : GroupFields}
    (hides : ∀ before, indexed.lookup group.id = some before → before.isPrivate = true →
      group.isPrivate = true) : StillIndexed indexed (dictSet indexed group.id group) := by
  intro id before found
  rw [lookup_dictSet]
  by_cases same : id = group.id
  · rw [if_pos same]
    rw [same] at found
    exact ⟨group, rfl, hides before found⟩
  · rw [if_neg same]
    exact ⟨before, found, fun isPrivate => isPrivate⟩

theorem indexGroups_eq_ok {groups : List GroupFields} (inv : Indexed indexed)
    (done : indexGroups allIds groups indexed = .ok result) :
    Indexed result ∧ StillIndexed indexed result := by
  induction groups generalizing indexed with
  | nil =>
    cases done
    exact ⟨inv, stillIndexed_refl⟩
  | cons group groups ih =>
    obtain ⟨-, done⟩ := require_bind_eq_ok.mp done
    by_cases wasPrivate : (indexed.lookup group.id).any GroupFields.isPrivate = true
    · simp only [if_pos wasPrivate] at done
      have set := inv.set { group with isPrivate := true }
      obtain ⟨isIndexed, still⟩ := ih set done
      exact ⟨isIndexed, (stillIndexed_set fun _ _ _ => rfl).trans still⟩
    · simp only [if_neg wasPrivate] at done
      obtain ⟨isIndexed, still⟩ := ih (inv.set group) done
      refine ⟨isIndexed, (stillIndexed_set fun before found isPrivate => ?_).trans still⟩
      rw [found, Option.any_some] at wasPrivate
      exact absurd isPrivate wasPrivate

theorem firstRepeated_eq_none {seen ids : List String} (distinct : firstRepeated seen ids = none) :
    ids.Nodup ∧ ∀ id ∈ ids, id ∉ seen := by
  induction ids generalizing seen with
  | nil => simp
  | cons id ids ih =>
    rw [firstRepeated] at distinct
    split_ifs at distinct with old
    obtain ⟨nodup, fresh⟩ := ih distinct
    constructor
    · apply List.nodup_cons.mpr
      exact ⟨fun mem => fresh id mem List.mem_cons_self, nodup⟩
    · intro other mem
      rcases List.mem_cons.mp mem with rfl | mem
      · exact old
      · exact fun inSeen => fresh other mem (List.mem_cons_of_mem _ inSeen)

theorem checkFrames_eq_ok {before groups : List GroupFields}
    (checked : checkFrames before groups = .ok ()) :
    groups.Pairwise (fun group other => overlaps other.bounds group.bounds = false) ∧
      ∀ group ∈ groups, ∀ other ∈ before, overlaps group.bounds other.bounds = false := by
  induction groups generalizing before with
  | nil => simp
  | cons group groups ih =>
    rw [checkFrames] at checked
    split at checked
    · cases checked
    · rename_i apart
      obtain ⟨pairwise, later⟩ := ih checked
      constructor
      · apply List.pairwise_cons.mpr
        refine ⟨fun other mem => later other mem group ?_, pairwise⟩
        exact List.mem_append_right _ (List.mem_singleton_self group)
      · intro other mem earlier inBefore
        rcases List.mem_cons.mp mem with rfl | mem
        · simpa using List.find?_eq_none.mp apart earlier inBefore
        · exact later other mem earlier (List.mem_append_left _ inBefore)

/-- The owners of unfinished tasks stay members. -/
def OwnersStay (old : AgentGroup) (value : GroupFields) : Prop :=
  ∀ task ∈ old.tasks, task.status ≠ .done → ∀ owner, task.ownerId = some owner → owner ≠ "" →
    owner ∈ value.memberIds

theorem requireOwners_eq_ok {groups : List AgentGroup} {values : List GroupFields}
    (checked : requireOwners groups values = .ok ()) :
    ∀ value ∈ values, ∀ old, findRow AgentGroup.id value.id groups = some old →
      OwnersStay old value := by
  induction values with
  | nil => simp
  | cons value values ih =>
    intro other mem old found
    rw [requireOwners] at checked
    split at checked
    · rename_i first isFirst
      obtain ⟨u, stays, rest⟩ := bind_eq_ok.mp checked
      rcases List.mem_cons.mp mem with rfl | mem
      · cases isFirst.symm.trans found
        rw [requireTaskOwners] at stays
        have holds := require_eq_ok.mp stays
        exact holds
      · exact ih rest other mem old found
    · rename_i absent
      rcases List.mem_cons.mp mem with rfl | mem
      · cases absent.symm.trans found
      · exact ih checked other mem old found

/-- What the previews have in common. -/
structure StructurePlan.Sound (plan : StructurePlan) : Prop where
  ids : (plan.groups.map GroupFields.id).Nodup
  kept : ∀ before ∈ plan.groupsBefore, ∃ after ∈ plan.groups, after.id = before.id ∧
    (before.isPrivate = true → after.isPrivate = true)
  members : (plan.groups.flatMap GroupFields.memberIds).Nodup
  apart : plan.groups.Pairwise fun group other => overlaps other.bounds group.bounds = false

theorem indexed_activeFields (db : GroupStore) :
    Indexed (db.activeFields.map fun group => (group.id, group)) := by
  constructor
  · rw [List.map_map, GroupStore.activeFields, List.map_map]
    exact db.groupIds.sublist (List.filter_sublist.map _)
  · intro entry mem
    obtain ⟨group, -, rfl⟩ := List.mem_map.mp mem
    rfl

theorem lookup_activeFields {db : GroupStore} {group : GroupFields} (mem : group ∈ db.activeFields) :
    (db.activeFields.map fun group => (group.id, group)).lookup group.id = some group := by
  apply lookup_of_mem (indexed_activeFields db).keys
  exact List.mem_map_of_mem mem

variable {machine : Machine} {targetGraph : String} {dir : GraphDirectory} {bundle : Bundle}
  {plan : StructurePlan}

theorem planGroups_eq_ok {db : GroupStore} {privateNodes : List String} {groups : List GroupFields}
    (done : planGroups db bundle allIds privateNodes = .ok groups) :
    ∃ indexed, Indexed indexed ∧
      StillIndexed (db.activeFields.map fun group => (group.id, group)) indexed ∧
      (indexed.flatMap fun entry => entry.2.memberIds).Nodup ∧
      groups = indexed.map (fun entry =>
        { entry.2 with
          isPrivate := entry.2.isPrivate || entry.2.memberIds.any fun id => id ∈ privateNodes }) ∧
      checkFrames [] groups = .ok () := by
  obtain ⟨indexed, isIndexed, done⟩ := bind_eq_ok.mp done
  obtain ⟨inv, still⟩ := indexGroups_eq_ok (indexed_activeFields db) isIndexed
  split at done
  · cases done
  · rename_i distinct
    obtain ⟨u, apart, done⟩ := bind_eq_ok.mp done
    obtain ⟨v, -, same⟩ := bind_eq_ok.mp done
    cases same
    exact ⟨indexed, inv, still, (firstRepeated_eq_none distinct).1, rfl, apart⟩

/-- The names of the nodes that are private before the import or behind it. -/
def privateNodes (dir : GraphDirectory) (planned : List (BundleNode × Json)) : List String :=
  ((dir.nodes.filter fun node => marksPrivate (some node.2)).map Prod.fst) ++
    (planned.filter fun entry => marksPrivate (some entry.2)).map fun entry => entry.1.id

/-- The files that a plan has looked at. -/
def plannedFiles (dir : GraphDirectory) (planned : List (BundleNode × Json)) (after : Json) :
    List FileChange :=
  (planned.map fun entry =>
    FileChange.mk (some entry.1.id) (dir.nodes.lookup entry.1.id) entry.2) ++
      [FileChange.mk none (some (dir.config.getD (.obj []))) after]

theorem planStructure_eq_ok (done : planStructure machine targetGraph dir bundle = .ok plan) :
    ∃ planned after, planNodes machine targetGraph dir.nodes bundle.nodes = .ok planned ∧
      incomingGraph machine targetGraph (dir.config.getD (.obj [])) bundle
        (dir.nodes.map Prod.fst ++ bundle.nodes.map BundleNode.id) = .ok after ∧
      planGroups dir.store bundle (dir.nodes.map Prod.fst ++ bundle.nodes.map BundleNode.id)
        (privateNodes dir planned) = .ok plan.groups ∧
      plan.groupsBefore = dir.store.activeFields ∧
      plan.files = (plannedFiles dir planned after).filter fun change =>
        !change.before.any fun before => before.pyEq change.after := by
  obtain ⟨planned, isPlanned, done⟩ := bind_eq_ok.mp done
  obtain ⟨after, isAfter, done⟩ := bind_eq_ok.mp done
  obtain ⟨groups, areGroups, same⟩ := bind_eq_ok.mp done
  cases same
  exact ⟨planned, after, isPlanned, isAfter, areGroups, rfl, rfl⟩

theorem planStructure_sound (done : planStructure machine targetGraph dir bundle = .ok plan) :
    plan.Sound := by
  obtain ⟨planned, after, -, -, areGroups, before, -⟩ := planStructure_eq_ok done
  obtain ⟨indexed, inv, still, distinct, same, apart⟩ := planGroups_eq_ok areGroups
  constructor
  · rw [same, List.map_map]
    have ids : indexed.map (GroupFields.id ∘ fun entry : String × GroupFields =>
        { entry.2 with
          isPrivate := entry.2.isPrivate ||
            entry.2.memberIds.any fun id => id ∈ privateNodes dir planned }) =
        indexed.map Prod.fst := List.map_congr_left fun entry mem => inv.named entry mem
    rw [ids]
    exact inv.keys
  · rw [before, same]
    intro old mem
    obtain ⟨new, found, hides⟩ := still old.id old (lookup_activeFields mem)
    have inIndexed := mem_of_lookup found
    refine ⟨_, List.mem_map_of_mem inIndexed, inv.named _ inIndexed, fun isPrivate => ?_⟩
    simp [hides isPrivate]
  · rw [same, List.flatMap_map]
    exact distinct
  · exact (checkFrames_eq_ok apart).1

end Plans

/-! ### Applications -/

section Applications

variable {c : Caller} {db db' : GroupStore} {existing : List AgentGroup} {value : GroupFields}
  {values : List GroupFields}

/-- The document that an import leaves for the fields of a group. -/
def savedGroup (c : Caller) (existing : List AgentGroup) (value : GroupFields) : AgentGroup :=
  match findRow AgentGroup.id value.id existing with
  | none => importedGroup c none value
  | some old => if unchanged (some old) value then old else importedGroup c (some old) value

theorem unchanged_some {old : AgentGroup} :
    unchanged (some old) value = true ↔ old.fields = value ∧ old.dissolved = false := by
  rw [unchanged, Option.any_some, Bool.and_eq_true, decide_eq_true_eq, Bool.not_eq_true']

theorem savedGroup_fields : (savedGroup c existing value).fields = value := by
  rw [savedGroup]
  split
  · rfl
  · split_ifs with same
    · exact (unchanged_some.mp same).1
    · rfl

theorem savedGroup_id : (savedGroup c existing value).id = value.id :=
  congrArg GroupFields.id savedGroup_fields

theorem savedGroup_members : (savedGroup c existing value).members = value.members :=
  congrArg GroupFields.members savedGroup_fields

theorem savedGroup_bounds : (savedGroup c existing value).bounds = value.bounds :=
  congrArg GroupFields.bounds savedGroup_fields

theorem savedGroup_active : (savedGroup c existing value).dissolved = false := by
  rw [savedGroup]
  split
  · rfl
  · split_ifs with same
    · exact (unchanged_some.mp same).2
    · rfl

theorem savedGroup_tasks : (savedGroup c existing value).tasks =
    ((findRow AgentGroup.id value.id existing).map AgentGroup.tasks).getD [] := by
  rw [savedGroup]
  split
  · rename_i absent
    rw [absent]
    rfl
  · rename_i old found
    rw [found]
    split_ifs
    · rfl
    · rfl

/-- The store once the document of a list of fields is saved. -/
def saveFields (c : Caller) (existing : List AgentGroup) (value : GroupFields) (db : GroupStore) :
    GroupStore :=
  let old := findRow AgentGroup.id value.id existing
  if unchanged old value then db else db.put (importedGroup c old value)

/-- The documents that `importRows` finds are in the store it writes. -/
def FoundIn (existing : List AgentGroup) (values : List GroupFields) (db : GroupStore) : Prop :=
  ∀ value ∈ values, ∀ old, findRow AgentGroup.id value.id existing = some old → old ∈ db.groups

theorem mem_saveFields (found : FoundIn existing [value] db) {group : AgentGroup} :
    group ∈ (saveFields c existing value db).groups ↔
      group = savedGroup c existing value ∨ group ∈ db.groups ∧ group.id ≠ value.id := by
  rw [saveFields, savedGroup]
  cases here : findRow AgentGroup.id value.id existing with
  | none => exact mem_upsert
  | some old =>
    by_cases same : unchanged (some old) value = true
    · have inGroups := found value (List.mem_singleton_self value) old here
      have isOld : old.id = value.id := (findRow_eq_some here).2
      simp only [if_pos same]
      constructor
      · intro mem
        by_cases sameId : group.id = value.id
        · exact .inl (List.inj_on_of_nodup_map db.groupIds mem inGroups (sameId.trans isOld.symm))
        · exact .inr ⟨mem, sameId⟩
      · rintro (rfl | ⟨mem, -⟩)
        · exact inGroups
        · exact mem
    · simp only [if_neg same]
      exact mem_upsert

theorem saveFields_rest (c : Caller) (existing : List AgentGroup) (value : GroupFields)
    (db : GroupStore) : (saveFields c existing value db).members = db.members ∧
    (saveFields c existing value db).events = db.events ∧
      (saveFields c existing value db).deliveries = db.deliveries := by
  rw [saveFields]
  split_ifs
  · exact ⟨rfl, rfl, rfl⟩
  · exact ⟨rfl, rfl, rfl⟩

/-- The rows of `members` for the fields of a group. -/
def memberRows (value : GroupFields) : List MemberRow :=
  value.members.map fun member => ⟨member.nodeId, value.id⟩

/-- The saved documents replace the ones with their ids. -/
theorem importRows_eq_ok (nodup : (values.map GroupFields.id).Nodup)
    (found : FoundIn existing values db) (done : importRows c existing values db = .ok db') :
    (∀ group, group ∈ db'.groups ↔ (∃ value ∈ values, group = savedGroup c existing value) ∨
      group ∈ db.groups ∧ group.id ∉ values.map GroupFields.id) ∧
    db'.members = db.members ++ values.flatMap memberRows ∧
    db'.events = db.events ∧ db'.deliveries = db.deliveries := by
  induction values generalizing db with
  | nil =>
    cases done
    simp
  | cons value values ih =>
    obtain ⟨absent, distinct⟩ := List.nodup_cons.mp nodup
    obtain ⟨mid, inserted, rest⟩ := bind_eq_ok.mp done
    have inserted : createGroup.insertAll value.members value.id
        (saveFields c existing value db) = .ok mid := inserted
    obtain ⟨-, -, rows, groups, events, deliveries⟩ := insertAll_eq_ok inserted
    obtain ⟨sameRows, sameEvents, sameDeliveries⟩ := saveFields_rest c existing value db
    have head : FoundIn existing [value] db := fun other mem =>
      found other (List.mem_singleton.mp mem ▸ List.mem_cons_self)
    have later : FoundIn existing values mid := by
      intro other mem old here
      rw [groups]
      apply (mem_saveFields head).mpr
      refine .inr ⟨found other (List.mem_cons_of_mem _ mem) old here, fun same => ?_⟩
      rw [(findRow_eq_some here).2] at same
      exact absent (same ▸ List.mem_map_of_mem mem)
    obtain ⟨documents, indexed, laterEvents, laterDeliveries⟩ := ih distinct later rest
    refine ⟨fun group => ?_, ?_, ?_, ?_⟩
    · rw [documents, groups, mem_saveFields head, List.map_cons, List.exists_mem_cons_iff,
        List.mem_cons, not_or]
      constructor
      · rintro (isLater | ⟨rfl | ⟨mem, other⟩, notLater⟩)
        · exact .inl (.inr isLater)
        · exact .inl (.inl rfl)
        · exact .inr ⟨mem, other, notLater⟩
      · rintro ((rfl | isLater) | ⟨mem, other, notLater⟩)
        · exact .inr ⟨.inl rfl, by rwa [savedGroup_id]⟩
        · exact .inl isLater
        · exact .inr ⟨.inr ⟨mem, other⟩, notLater⟩
    · rw [indexed, rows, sameRows, List.flatMap_cons, List.append_assoc]
      rfl
    · rw [laterEvents, events, sameEvents]
    · rw [laterDeliveries, deliveries, sameDeliveries]

variable {plan : StructurePlan}

/-- What an import that returns has done to the store. -/
structure Imported (c : Caller) (plan : StructurePlan) (db db' : GroupStore) : Prop where
  settled : ∀ delivery ∈ db.deliveries, delivery.state ≠ .pending
  current : db.activeFields = plan.groupsBefore ∨ db.activeFields = plan.groups
  owners : ∀ value ∈ plan.groups, ∀ old, findRow AgentGroup.id value.id db.groups = some old →
    OwnersStay old value
  groups : ∀ group, group ∈ db'.groups ↔
    (∃ value ∈ plan.groups, group = savedGroup c db.groups value) ∨
      group ∈ db.groups ∧ group.id ∉ plan.groups.map GroupFields.id
  members : db'.members = plan.groups.flatMap memberRows
  events : db'.events = db.events
  deliveries : db'.deliveries = db.deliveries

theorem importGroups_eq_ok (sound : plan.Sound) (done : importGroups c db plan = .ok db') :
    Imported c plan db db' := by
  obtain ⟨settled, done⟩ := require_bind_eq_ok.mp done
  obtain ⟨current, done⟩ := require_bind_eq_ok.mp done
  obtain ⟨u, owners, done⟩ := bind_eq_ok.mp done
  have found : FoundIn db.groups plan.groups (db.deleteMembers fun _ => true) :=
    fun value _ old here => (findRow_eq_some here).1
  obtain ⟨groups, members, events, deliveries⟩ := importRows_eq_ok sound.ids found done
  refine ⟨settled, current, requireOwners_eq_ok owners, groups, ?_, events, deliveries⟩
  rw [members, GroupStore.deleteMembers_members]
  simp

theorem Imported.active (imported : Imported c plan db db') (sound : plan.Sound)
    {group : AgentGroup} (mem : group ∈ db'.groups) (on : group.dissolved = false) :
    ∃ value ∈ plan.groups, group = savedGroup c db.groups value := by
  rcases (imported.groups group).mp mem with isSaved | ⟨old, notPlanned⟩
  · exact isSaved
  · have inActive : group.fields ∈ db.activeFields := by
      apply List.mem_map_of_mem
      exact List.mem_filter.mpr ⟨old, by rw [on]; rfl⟩
    rcases imported.current with same | same
    · rw [same] at inActive
      obtain ⟨after, inPlan, sameId, -⟩ := sound.kept group.fields inActive
      exact absurd (List.mem_map.mpr ⟨after, inPlan, sameId⟩) notPlanned
    · rw [same] at inActive
      exact absurd (List.mem_map_of_mem (f := GroupFields.id) inActive) notPlanned

variable {dir : GraphDirectory}

theorem write_store (files : List FileChange) :
    (files.foldl GraphDirectory.write dir).store = dir.store := by
  induction files generalizing dir with
  | nil => rfl
  | cons change files ih =>
    rw [List.foldl_cons, ih, GraphDirectory.write]
    split
    · rfl
    · rfl

/-- What an application comes to. -/
theorem applyStructure_cases (c : Caller) (dir : GraphDirectory) (sound : plan.Sound) :
    (applyStructure c dir plan).2 = dir ∨
      checkPlan dir plan = .ok () ∧
        ((applyStructure c dir plan).2 = plan.files.foldl GraphDirectory.write dir ∨
          ∃ store, Imported c plan dir.store store ∧
            (applyStructure c dir plan).2 =
              { plan.files.foldl GraphDirectory.write dir with store }) := by
  rw [applyStructure]
  split
  · exact .inl rfl
  · rename_i checked
    refine .inr ⟨checked, ?_⟩
    dsimp only
    split_ifs
    · exact .inl rfl
    · split
      · exact .inl rfl
      · rename_i store done
        exact .inr ⟨store, importGroups_eq_ok sound done, rfl⟩

theorem importRows_of_distinct (c : Caller) (existing : List AgentGroup)
    (distinct : (values.flatMap GroupFields.memberIds).Nodup)
    (fresh : ∀ id ∈ values.flatMap GroupFields.memberIds, id ∉ db.members.map MemberRow.nodeId) :
    ∃ db', importRows c existing values db = .ok db' := by
  induction values generalizing db with
  | nil => exact ⟨db, rfl⟩
  | cons value values ih =>
    rw [List.flatMap_cons] at distinct fresh
    obtain ⟨own, others, apart⟩ := List.nodup_append.mp distinct
    have sameRows := (saveFields_rest c existing value db).1
    have outside : ∀ member ∈ value.members,
        member.nodeId ∉ (saveFields c existing value db).members.map MemberRow.nodeId := by
      intro member mem
      rw [sameRows]
      exact fresh _ (List.mem_append_left _ (List.mem_map_of_mem mem))
    obtain ⟨mid, inserted⟩ := insertAll_of_fresh value.id outside own
    have rows := (insertAll_eq_ok inserted).2.2.1
    have later : ∀ id ∈ values.flatMap GroupFields.memberIds,
        id ∉ mid.members.map MemberRow.nodeId := by
      intro id mem
      rw [rows, sameRows, List.map_append, List.map_map, List.mem_append, not_or]
      exact ⟨fresh id (List.mem_append_right _ mem), fun isOwn => apart id isOwn id mem rfl⟩
    obtain ⟨after, rest⟩ := ih others later
    exact ⟨after, bind_eq_ok.mpr ⟨mid, inserted, rest⟩⟩

/-- The checks of `apply_structure` pass and the groups are to change. -/
structure ImportRuns (dir : GraphDirectory) (plan : StructurePlan) : Prop where
  checked : checkPlan dir plan = .ok ()
  changes : dir.store.activeFields ≠ plan.groups
  settled : ∀ delivery ∈ dir.store.deliveries, delivery.state ≠ .pending
  owners : requireOwners dir.store.groups plan.groups = .ok ()

theorem applyStructure_of_runs (c : Caller) (sound : plan.Sound) (runs : ImportRuns dir plan) :
    Imported c plan dir.store (applyStructure c dir plan).2.store := by
  obtain ⟨checked, changes, settled, owners⟩ := runs
  have current := (require_eq_ok.mp (require_bind_eq_ok.mp checked).2)
  have imported : ∃ store, importGroups c dir.store plan = .ok store := by
    have cleared : ∃ store, importRows c dir.store.groups plan.groups
        (dir.store.deleteMembers fun _ => true) = .ok store :=
      importRows_of_distinct c dir.store.groups sound.members (by simp)
    obtain ⟨store, done⟩ := cleared
    refine ⟨store, require_bind_eq_ok.mpr ⟨settled, require_bind_eq_ok.mpr ⟨current, ?_⟩⟩⟩
    exact bind_eq_ok.mpr ⟨(), owners, done⟩
  obtain ⟨store, done⟩ := imported
  rw [applyStructure, checked]
  simp only [if_neg changes, done]
  exact importGroups_eq_ok sound done

theorem applyStructure_of_not_runs (c : Caller) (refused : ¬ ImportRuns dir plan) :
    (applyStructure c dir plan).2.store = dir.store := by
  rw [applyStructure]
  split
  · rfl
  · rename_i checked
    dsimp only
    split_ifs with same
    · exact write_store plan.files
    · split
      · exact write_store plan.files
      · rename_i store done
        obtain ⟨settled, done⟩ := require_bind_eq_ok.mp done
        obtain ⟨-, done⟩ := require_bind_eq_ok.mp done
        obtain ⟨u, owners, -⟩ := bind_eq_ok.mp done
        exact absurd ⟨checked, same, settled, owners⟩ refused

theorem applyStructure_store (c : Caller) (dir : GraphDirectory) (sound : plan.Sound) :
    (applyStructure c dir plan).2.store = dir.store ∨
      Imported c plan dir.store (applyStructure c dir plan).2.store := by
  rcases applyStructure_cases c dir sound with same | ⟨-, same | ⟨store, imported, same⟩⟩
  · exact .inl (congrArg _ same)
  · rw [same]
    exact .inl (write_store plan.files)
  · rw [same]
    exact .inr imported

end Applications

end AgentPark.Groups
