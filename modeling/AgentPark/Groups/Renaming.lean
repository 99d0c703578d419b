import AgentPark.Groups.Statements
import AgentPark.Groups.Consistency
import AgentPark.Groups.BoardRuns

/-!
# Renaming and delivery

A renaming changes the identity of a node in all rows.  It is to be seen by later readers as if the
node had had the new name all along: a wakeup gives the same events, a repeated message gives the
event of the first one.  `_rename_references` leaves the keys of dictionaries alone, and the tasks
of the recipients of a task event are under their names, so the first of these fails for task events.
`rename_commutes_iff` says that it fails for these only.
-/

namespace AgentPark.Groups

open Lib

/-! ### What a wakeup gives -/

section Resolve

variable {db : GroupStore} {group : AgentGroup} {nodeId : String} {reference : DeliveryReference}

/-- The pending events that the reference names. -/
def GroupStore.anchors (db : GroupStore) (nodeId : String) (reference : DeliveryReference) :
    List Event :=
  (db.pendingEvents nodeId reference.groupId).filter fun event => event.seq ∈ reference.eventSeqs

/-- The event is given to the node: if it is about tasks, one of them asks the node to act. -/
def wakes (group : AgentGroup) (nodeId : String) (event : Event) : Bool :=
  !event.kind.isTask || (event.actionTasks nodeId).any (concerns group nodeId)

/-- The events that a wakeup reads. -/
theorem resolveRows_iff {events resolved : List Event} :
    (∃ after, resolveRows group nodeId events db = .ok (resolved, after)) ↔
      (∀ event ∈ events, event.kind.isTask = true → event.actionTasks nodeId ≠ none) ∧
        resolved = events.filter (wakes group nodeId) := by
  induction events generalizing db resolved with
  | nil =>
    rw [List.filter_nil]
    constructor
    · intro ran
      obtain ⟨after, ran⟩ := ran
      cases ran
      exact ⟨List.forall_mem_nil _, rfl⟩
    · intro both
      rw [both.2]
      exact ⟨db, rfl⟩
  | cons event events ih =>
    -- an event that is given heads what the others give
    have given (woken : wakes group nodeId event = true) :
        (∃ after, (resolveRows group nodeId events db >>= fun rest => .ok (event :: rest.1, rest.2)) =
          (.ok (resolved, after) : Except GroupError _)) ↔
        (∀ other ∈ events, other.kind.isTask = true → other.actionTasks nodeId ≠ none) ∧
          resolved = (event :: events).filter (wakes group nodeId) := by
      rw [List.filter_cons_of_pos woken]
      constructor
      · intro ran
        obtain ⟨after, ran⟩ := ran
        obtain ⟨later, isLater, same⟩ := bind_eq_ok.mp ran
        cases same
        obtain ⟨named, rest⟩ := ih.mp ⟨_, isLater⟩
        exact ⟨named, congrArg (event :: ·) rest⟩
      · intro both
        obtain ⟨after, isLater⟩ := ih.mpr ⟨both.1, rfl⟩
        refine ⟨after, bind_eq_ok.mpr ⟨_, isLater, ?_⟩⟩
        rw [both.2]
    rw [resolveRows, List.forall_mem_cons]
    by_cases isTask : event.kind.isTask = true
    · rw [if_pos isTask]
      cases tasks : event.actionTasks nodeId with
      | none =>
        constructor
        · intro ran
          obtain ⟨after, ran⟩ := ran
          cases ran
        · intro both
          exact absurd rfl (both.1.1 isTask)
      | some taskIds =>
        dsimp only
        have here : wakes group nodeId event = concerns group nodeId taskIds := by
          rw [wakes, isTask, tasks]
          rfl
        by_cases concerned : concerns group nodeId taskIds = true
        · rw [if_pos concerned]
          refine (given (here.trans concerned)).trans ?_
          simp
        · rw [if_neg concerned, ih, List.filter_cons_of_neg (by rw [here]; exact concerned)]
          simp
    · rw [if_neg isTask]
      refine (given (by rw [wakes, Bool.not_eq_true] at *; rw [isTask]; rfl)).trans ?_
      simp [isTask]

theorem resolve_eq (db : GroupStore) (nodeId : String) (reference : DeliveryReference) :
    resolve db nodeId reference = match db.anchors nodeId reference with
      | [] => .ok ([], db)
      | anchor :: others =>
        require (∀ other ∈ others, other.accessRole = anchor.accessRole)
          (.value "group notification anchors must share an access context") >>= fun _ =>
        if db.memberGroup nodeId = some reference.groupId then
          db.read reference.groupId none >>= fun group =>
            resolveRows group nodeId (db.batch nodeId reference.groupId anchor.accessRole) db
        else .ok ([], (db.batch nodeId reference.groupId anchor.accessRole).foldl
          (fun db event => db.cancelDelivery event.seq nodeId) db) := rfl

theorem resolve_of_nil {events : List Event} (settled : db.anchors nodeId reference = []) :
    (∃ after, resolve db nodeId reference = .ok (events, after)) ↔ events = [] := by
  rw [resolve_eq, settled]
  constructor
  · intro ran
    obtain ⟨after, ran⟩ := ran
    cases ran
    rfl
  · intro none
    rw [none]
    exact ⟨db, rfl⟩

/-- What a wakeup with something pending gives. -/
theorem resolve_of_cons {anchor : Event} {others events : List Event}
    (isAnchors : db.anchors nodeId reference = anchor :: others) :
    (∃ after, resolve db nodeId reference = .ok (events, after)) ↔
      (∀ other ∈ others, other.accessRole = anchor.accessRole) ∧
        ((db.memberGroup nodeId ≠ some reference.groupId ∧ events = []) ∨
          db.memberGroup nodeId = some reference.groupId ∧
            ∃ group, db.read reference.groupId none = .ok group ∧ ∃ after,
              resolveRows group nodeId (db.batch nodeId reference.groupId anchor.accessRole) db =
                .ok (events, after)) := by
  rw [resolve_eq, isAnchors]
  constructor
  · intro ran
    obtain ⟨after, ran⟩ := ran
    obtain ⟨agree, ran⟩ := require_bind_eq_ok.mp ran
    refine ⟨agree, ?_⟩
    split_ifs at ran with member
    · obtain ⟨group, isRead, ran⟩ := bind_eq_ok.mp ran
      exact .inr ⟨member, group, isRead, after, ran⟩
    · cases ran
      exact .inl ⟨member, rfl⟩
  · intro both
    obtain ⟨agree, ⟨outside, rfl⟩ | ⟨member, group, isRead, after, ran⟩⟩ := both
    · exact ⟨_, require_bind_eq_ok.mpr ⟨agree, if_neg outside⟩⟩
    · refine ⟨after, require_bind_eq_ok.mpr ⟨agree, ?_⟩⟩
      rw [if_pos member]
      exact bind_eq_ok.mpr ⟨group, isRead, ran⟩

end Resolve

/-! ### Renamed payloads -/

section Payload

variable {old new : String}

/-- What becomes of the value under a key. -/
def renameField (old new key : String) (item : Json) : Json :=
  if isIdentityKey key && item = .str old then .str new else renameReferences old new item

theorem renameFields_eq_map (fields : List (String × Json)) :
    renameFields old new fields =
      fields.map fun field => (field.1, renameField old new field.1 field.2) := by
  induction fields with
  | nil => rfl
  | cons field fields ih =>
    rw [renameFields, ih]
    rfl

theorem get_renameReferences (value : Json) (key : String) :
    (renameReferences old new value).get key =
      (value.get key).map (renameField old new key) := by
  cases value with
  | obj fields =>
    rw [renameReferences, renameFields_eq_map]
    exact lookup_map_field (renameField old new) fields key
  | _ => rfl

theorem renameField_plain {key : String} (plain : isIdentityKey key = false) (item : Json) :
    renameField old new key item = renameReferences old new item := by
  rw [renameField, plain, Bool.false_and, if_neg Bool.false_ne_true]

theorem str_mem_items_renameField {text key : String} (value : Json) :
    .str text ∈ items (renameField old new key value) ↔ .str text ∈ items value := by
  have texts (item : Json) : renameReferences old new item = .str text ↔ item = .str text := by
    cases item with
    | _ => simp [renameReferences]
  rw [renameField]
  split_ifs with identity
  · rw [Bool.and_eq_true, decide_eq_true_eq] at identity
    rw [identity.2]
    exact Iff.rfl
  · cases value with
    | arr values =>
      rw [renameReferences, renameItems_eq_map, items, items, List.mem_map]
      simp only [texts, exists_eq_right]
    | _ => exact Iff.rfl

/-- The recipients of a dictionary under their new names. -/
def renameKeys (old new : String) : Json → Json
  | .obj fields => .obj (fields.map fun field => (renameId old new field.1, field.2))
  | value => value

/-- A payload whose lists of tasks are under the new names. -/
def renameActions (old new : String) : Json → Json
  | .obj fields => .obj (fields.map fun field =>
    (field.1, if field.1 = "action_tasks" then renameKeys old new field.2 else field.2))
  | value => value

/-- An event with the new name wherever the old one identifies the node. -/
def Event.identify (old new : String) (event : Event) : Event :=
  let renamed := event.rename old new
  if event.kind.isTask then { renamed with payload := renameActions old new renamed.payload }
  else renamed

theorem Event.identify_seq (event : Event) : (event.identify old new).seq = event.seq := by
  rw [Event.identify]
  split_ifs <;> rfl

theorem Event.identify_of_not_isTask {event : Event} (other : event.kind.isTask = false) :
    event.identify old new = event.rename old new := by
  rw [Event.identify, other]
  rfl

theorem Event.identify_actionTasks {event : Event} (differs : old ≠ new)
    (isTask : event.kind.isTask = true) : (event.identify old new).actionTasks old = none := by
  have gone (actions : Json) : (renameKeys old new actions).get old = none := by
    cases actions with
    | obj fields =>
      apply List.lookup_eq_none_iff.mpr
      intro field mem
      obtain ⟨before, -, rfl⟩ := List.mem_map.mp mem
      rw [bne_iff_ne, renameId]
      split_ifs with same
      · exact differs
      · exact Ne.symm same
    | _ => rfl
  rw [Event.identify, if_pos isTask, Event.actionTasks]
  cases (event.rename old new).payload with
  | obj fields =>
    have found : (renameActions old new (.obj fields)).get "action_tasks" =
        (fields.lookup "action_tasks").map (renameKeys old new) :=
      lookup_map_field
        (fun key item => if key = "action_tasks" then renameKeys old new item else item) fields _
    rw [found]
    cases fields.lookup "action_tasks" with
    | none => rfl
    | some actions => exact gone actions
  | _ => rfl

theorem Event.rename_actionTasks (event : Event) (nodeId : String) :
    (event.rename old new).actionTasks nodeId =
      (event.actionTasks nodeId).map (renameField old new nodeId) := by
  have plain : isIdentityKey "action_tasks" = false := by decide
  rw [Event.actionTasks, Event.actionTasks, Event.rename, get_renameReferences, Option.bind_map,
    Option.map_bind]
  congr 1
  funext actions
  rw [Function.comp, Function.comp, renameField_plain plain, get_renameReferences]

theorem Event.rename_accessRole {event : Event} (signed : event.Signed) :
    (event.rename old new).accessRole = event.accessRole := by
  have plain : isIdentityKey "_access_role" = false := by decide
  obtain ⟨role, isRole⟩ := signed
  rw [Event.accessRole] at isRole ⊢
  rw [Event.rename, get_renameReferences, Event.accessRole, isRole, Option.map_some,
    renameField_plain plain]
  rfl

end Payload

/-! ### The renamed store -/

section Renamed

variable {db after : GroupStore} {old new now : String} {group : AgentGroup}

theorem taskStatus_rename (taskId : String) :
    taskStatus (group.rename old new now) taskId = taskStatus group taskId := by
  obtain ⟨-, -, -, f, tasks, renamed⟩ := AgentGroup.rename_eq old new now group
  rw [taskStatus, taskStatus, tasks, ← List.map_reverse, List.find?_map, Option.map_map]
  have sameId : (fun item : GroupTask => decide (item.id = taskId)) ∘ f =
      fun item => decide (item.id = taskId) :=
    funext fun task => by rw [Function.comp, (renamed task).id]
  have sameStatus : GroupTask.status ∘ f = GroupTask.status :=
    funext fun task => (renamed task).status
  rw [sameId, sameStatus]

theorem ready_rename {task task' : GroupTask} (renamed : RenamedTask old new task task')
    (named : old ≠ "" ∧ new ≠ "") : ready (group.rename old new now) task' = ready group task := by
  have owner : (∃ owner, task'.ownerId = some owner ∧ owner ≠ "") ↔
      ∃ owner, task.ownerId = some owner ∧ owner ≠ "" := by
    rw [renamed.owner]
    cases task.ownerId with
    | none => simp
    | some owner =>
      simp only [Option.map_some, Option.some.injEq, exists_eq_left', renameId]
      split_ifs with isOld
      · rw [isOld]
        exact ⟨fun _ => named.1, fun _ => named.2⟩
      · exact Iff.rfl
  rw [Bool.eq_iff_iff, ready_iff, ready_iff, owner, renamed.status, renamed.dependencies]
  simp only [taskStatus_rename]

theorem concerns_rename (named : old ≠ "" ∧ new ≠ "") (owned : OwnedBy (· ≠ "") group)
    (absent : new ∉ group.memberIds) (taskIds : Json) :
    concerns (group.rename old new now) new (renameField old new new taskIds) =
      concerns group old taskIds := by
  obtain ⟨-, -, -, f, tasks, renamed⟩ := AgentGroup.rename_eq old new now group
  rw [concerns, concerns, tasks, List.any_map]
  apply any_congr_of_mem
  intro task mem
  rw [Function.comp, (renamed task).id, ready_rename (renamed task) named, (renamed task).owner]
  rw [decide_eq_decide.mpr (str_mem_items_renameField taskIds)]
  by_cases isReady : ready group task = true
  · obtain ⟨⟨owner, isOwner, ownerNamed⟩, unfinished, -⟩ := ready_iff.mp isReady
    have member := owned task mem unfinished owner isOwner ownerNamed
    have notNew : owner ≠ new := fun same => absent (same ▸ member)
    have same : (Option.map (renameId old new) task.ownerId = some new) ↔
        task.ownerId = some old := by
      rw [isOwner, Option.map_some, Option.some_inj, Option.some_inj, renameId]
      split_ifs with isOld
      · exact ⟨fun _ => isOld, fun _ => rfl⟩
      · exact ⟨fun absurd => (notNew absurd).elim, fun absurd => (isOld absurd).elim⟩
    rw [decide_eq_decide.mpr same]
  · rw [Bool.not_eq_true] at isReady
    rw [isReady, Bool.and_false, Bool.and_false]

namespace Renamed

variable (renamed : Renamed db after old new now)

include renamed

theorem isPending (seq : Nat) : after.isPending seq new = db.isPending seq old := by
  rw [GroupStore.isPending, GroupStore.isPending, renamed.deliveries, List.any_map]
  apply any_congr_of_mem
  intro delivery mem
  have other := renamed.addressed delivery mem
  have same : (Delivery.rename old new delivery).nodeId = new ↔ delivery.nodeId = old := by
    change renameId old new delivery.nodeId = new ↔ _
    rw [renameId]
    split_ifs with isOld
    · exact ⟨fun _ => isOld, fun _ => rfl⟩
    · exact ⟨fun absurd => (other absurd).elim, fun absurd => (isOld absurd).elim⟩
  rw [Function.comp, decide_eq_decide.mpr same]
  rfl

theorem memberGroup : after.memberGroup new = db.memberGroup old := by
  apply Option.ext
  intro groupId
  rw [memberGroup_eq_some, memberGroup_eq_some, renamed.members]
  constructor
  · intro mem
    obtain ⟨row, inRows, same⟩ := List.mem_map.mp mem
    obtain ⟨sameNode, rfl⟩ := MemberRow.mk.inj same
    rw [renameId] at sameNode
    split_ifs at sameNode with isOld
    · rw [← isOld]
      exact inRows
    · exact absurd sameNode (renamed.rows row inRows)
  · intro mem
    apply List.mem_map.mpr
    exact ⟨_, mem, by rw [MemberRow.rename, renameId, if_pos rfl]⟩

theorem pendingEvents (groupId : String) :
    after.pendingEvents new groupId =
      (db.pendingEvents old groupId).map (Event.rename old new) := by
  obtain ⟨more, events⟩ := renamed.events
  have unsent : more.filter (fun event => event.groupId = groupId &&
      after.isPending event.seq new) = [] := by
    apply List.filter_eq_nil_iff.mpr
    intro event mem isSent
    rw [Bool.and_eq_true, renamed.isPending, GroupStore.isPending, List.any_eq_true] at isSent
    obtain ⟨-, delivery, inRows, isPending⟩ := isSent
    simp only [Bool.and_eq_true, decide_eq_true_eq] at isPending
    -- the event comes after those that deliveries are for
    have sent := db.sent delivery inRows
    have sorted := after.eventSeqs
    rw [events, List.map_append, List.map_map, List.pairwise_append] at sorted
    have before := sorted.2.2 delivery.eventSeq sent event.seq (List.mem_map_of_mem mem)
    omega
  rw [GroupStore.pendingEvents, events, List.filter_append, unsent, List.append_nil,
    List.filter_map]
  congr 1
  apply List.filter_congr
  intro event mem
  rw [Function.comp, renamed.isPending]
  rfl

theorem anchors (reference : DeliveryReference) :
    after.anchors new reference = (db.anchors old reference).map (Event.rename old new) := by
  rw [GroupStore.anchors, renamed.pendingEvents, List.filter_map]
  rfl

theorem batch (signed : ∀ event ∈ db.events, event.Signed) (groupId : String)
    (role : Option Json) :
    after.batch new groupId role = (db.batch old groupId role).map (Event.rename old new) := by
  rw [GroupStore.batch, renamed.pendingEvents, List.filter_map, ← List.map_take]
  congr 2
  apply List.filter_congr
  intro event mem
  rw [Function.comp, Event.rename_accessRole (signed event (List.mem_of_mem_filter mem))]

theorem read {groupId : String} {actorId : Option String}
    (isRead : db.read groupId actorId = .ok group) :
    after.read groupId (actorId.map (renameId old new)) = .ok (group.rename old new now) := by
  obtain ⟨members, -, active, -⟩ := AgentGroup.rename_eq old new now group
  have found : findRow AgentGroup.id groupId after.groups =
      (findRow AgentGroup.id groupId db.groups).map (AgentGroup.rename old new now) := by
    rw [renamed.groups, findRow, List.find?_map]
    congr 2
    funext group
    rw [Function.comp, AgentGroup.rename_id]
  have read := read_eq_ok isRead
  have isFound : findRow AgentGroup.id groupId db.groups = some group := by
    rw [← read.id_eq]
    exact findRow_of_mem db.groupIds read.mem
  have present : (actorId.map (renameId old new)).any
      (fun actor => actor ∉ (group.rename old new now).memberIds) = false := by
    cases actorId with
    | none => rfl
    | some actor =>
      rw [Option.map_some, Option.any_some, decide_eq_false_iff_not, not_not, members]
      exact List.mem_map_of_mem (read.actor actor rfl)
  rw [GroupStore.read, found, isFound, Option.map_some]
  simp only [active, read.active, present, Bool.false_eq_true, if_false]

end Renamed

/-- A task event that asks the node to act under neither name; the new one is there from a node that
had it before. -/
def Superseded (group : AgentGroup) (old new : String) (event : Event) : Prop :=
  ∃ tasks left, event.actionTasks old = some tasks ∧ concerns group old tasks = false ∧
    event.actionTasks new = some left ∧ concerns group old left = false

theorem woken_iff {rows : List Event} (distinct : (rows.map Event.seq).Nodup)
    (differs : old ≠ new) (named : old ≠ "" ∧ new ≠ "") (owned : OwnedBy (· ≠ "") group)
    (absent : new ∉ group.memberIds) :
    ((∀ event ∈ rows, event.kind.isTask = true → event.actionTasks old ≠ none) ∧
        (∀ event ∈ rows.map (Event.rename old new), event.kind.isTask = true →
          event.actionTasks new ≠ none) ∧
        (rows.filter (wakes group old)).map (Event.identify old new) =
          (rows.map (Event.rename old new)).filter (wakes (group.rename old new now) new)) ↔
      ∀ event ∈ rows, event.kind.isTask = true → Superseded group old new event := by
  have concerned (taskIds : Json) :
      concerns (group.rename old new now) new (renameField old new new taskIds) =
        concerns group old taskIds := concerns_rename named owned absent taskIds
  have tasksOf (event : Event) : (event.rename old new).actionTasks new =
      (event.actionTasks new).map (renameField old new new) := event.rename_actionTasks new
  constructor
  · intro both event mem isTask
    obtain ⟨known, knownToo, same⟩ := both
    obtain ⟨tasks, isTasks⟩ := Option.ne_none_iff_exists'.mp (known event mem isTask)
    have renamedTasks := knownToo _ (List.mem_map_of_mem mem) isTask
    rw [tasksOf, ne_eq, Option.map_eq_none_iff] at renamedTasks
    obtain ⟨left, isLeft⟩ := Option.ne_none_iff_exists'.mp renamedTasks
    -- the two sides give events with the same numbers
    have seqs (other : Event) (inRows : other ∈ rows) (equal : other.seq = event.seq) :
        other = event := List.inj_on_of_nodup_map distinct inRows mem equal
    have sleeps : wakes group old event = false := by
      by_contra woken
      have given := List.mem_map_of_mem (f := Event.identify old new)
        (List.mem_filter.mpr ⟨mem, Bool.of_not_eq_false woken⟩)
      rw [same] at given
      obtain ⟨other, inRows, equal⟩ := List.mem_map.mp (List.mem_of_mem_filter given)
      have isEvent := seqs other inRows ((congrArg Event.seq equal).trans event.identify_seq)
      subst isEvent
      have gone : (other.identify old new).actionTasks old = none :=
        Event.identify_actionTasks differs isTask
      rw [← equal, Event.rename_actionTasks, isTasks] at gone
      cases gone
    have sleepsToo : wakes (group.rename old new now) new (event.rename old new) = false := by
      by_contra woken
      have given : event.rename old new ∈ (rows.filter (wakes group old)).map
          (Event.identify old new) := by
        rw [same]
        exact List.mem_filter.mpr ⟨List.mem_map_of_mem mem, Bool.of_not_eq_false woken⟩
      obtain ⟨other, inRows, equal⟩ := List.mem_map.mp given
      obtain ⟨inRows, woken⟩ := List.mem_filter.mp inRows
      have sameSeq : (other.identify old new).seq = event.seq := by
        rw [equal]
        rfl
      have isEvent := seqs other inRows (other.identify_seq.symm.trans sameSeq)
      rw [isEvent, sleeps] at woken
      cases woken
    rw [wakes, isTask, isTasks] at sleeps
    rw [wakes, show (event.rename old new).kind.isTask = true from isTask, tasksOf, isLeft] at sleepsToo
    exact ⟨tasks, left, isTasks, sleeps, isLeft, (concerned left).symm.trans sleepsToo⟩
  · intro quiet
    refine ⟨?_, ?_, ?_⟩
    · intro event mem isTask
      obtain ⟨tasks, -, isTasks, -⟩ := quiet event mem isTask
      rw [isTasks]
      exact Option.some_ne_none tasks
    · intro event mem isTask
      obtain ⟨before, inRows, rfl⟩ := List.mem_map.mp mem
      obtain ⟨-, left, -, -, isLeft, -⟩ := quiet before inRows isTask
      rw [tasksOf, isLeft]
      exact Option.some_ne_none _
    · have agree : ∀ event ∈ rows, (wakes (group.rename old new now) new ∘ Event.rename old new)
          event = wakes group old event := by
        intro event mem
        rw [Function.comp, wakes, wakes, show (event.rename old new).kind = event.kind from rfl]
        by_cases isTask : event.kind.isTask = true
        · obtain ⟨tasks, left, isTasks, idle, isLeft, idleToo⟩ := quiet event mem isTask
          rw [isTask, tasksOf, isLeft, isTasks, Option.map_some, Option.any_some, Option.any_some,
            concerned, idle, idleToo]
        · rw [Bool.not_eq_true] at isTask
          rw [isTask]
          rfl
      rw [List.filter_map, List.filter_congr agree]
      apply List.map_congr_left
      intro event mem
      obtain ⟨inRows, woken⟩ := List.mem_filter.mp mem
      apply Event.identify_of_not_isTask
      by_contra isTask
      rw [Bool.not_eq_false] at isTask
      obtain ⟨tasks, -, isTasks, idle, -⟩ := quiet event inRows isTask
      rw [wakes, isTask, isTasks, Option.any_some, idle] at woken
      cases woken

end Renamed

/-! ### The statement -/

/-- A wakeup of the renamed node gives, without an error, the events that it gave before, with the
new name wherever the old one identifies the node. -/
def DeliversSame (db after : GroupStore) (old new : String) (reference : DeliveryReference) : Prop :=
  ∃ events, (∃ mid, resolve db old reference = .ok (events, mid)) ∧
    ∃ mid, resolve after new reference = .ok (events.map (Event.identify old new), mid)

/-- A repeated message of the renamed node gives the event of the first one. -/
def RetriesSame (db after : GroupStore) (old new : String) : Prop :=
  ∀ c c' groupId command event, publish c db groupId command (some old) = .ok (event, db) →
    publish c' after groupId command (some new) = .ok (event.rename old new, after)

/-- The anchors of the reference share an access role, and no task event is in the batch of a
member. -/
def Undisturbed (db : GroupStore) (old new : String) (reference : DeliveryReference) : Prop :=
  ∀ anchor ∈ db.anchors old reference,
    (∀ other ∈ db.anchors old reference, other.accessRole = anchor.accessRole) ∧
      ∀ group, db.memberGroup old = some reference.groupId →
        db.read reference.groupId none = .ok group →
        ∀ event ∈ db.batch old reference.groupId anchor.accessRole, event.kind.isTask = true →
          Superseded group old new event

section Statement

variable {db after : GroupStore} {old new now : String} {reference : DeliveryReference}

theorem batch_nodup (nodeId groupId : String) (role : Option Json) :
    ((db.batch nodeId groupId role).map Event.seq).Nodup := by
  have rows : List.Sublist (db.batch nodeId groupId role) db.events :=
    ((List.take_sublist _ _).trans List.filter_sublist).trans List.filter_sublist
  have distinct : (db.events.map Event.seq).Nodup :=
    db.eventSeqs.imp fun before => Nat.ne_of_lt before
  exact distinct.sublist (rows.map Event.seq)

theorem undisturbed_of_cons {anchor : Event} {others : List Event}
    (isAnchors : db.anchors old reference = anchor :: others) :
    Undisturbed db old new reference ↔
      (∀ other ∈ others, other.accessRole = anchor.accessRole) ∧
        ∀ group, db.memberGroup old = some reference.groupId →
          db.read reference.groupId none = .ok group →
          ∀ event ∈ db.batch old reference.groupId anchor.accessRole, event.kind.isTask = true →
            Superseded group old new event := by
  rw [Undisturbed, isAnchors]
  constructor
  · intro all
    obtain ⟨agree, rest⟩ := all anchor List.mem_cons_self
    exact ⟨fun other mem => agree other (List.mem_cons_of_mem _ mem), rest⟩
  · intro both first mem
    obtain ⟨agree, rest⟩ := both
    have same : ∀ other ∈ anchor :: others, other.accessRole = anchor.accessRole := by
      intro other inAnchors
      rcases List.mem_cons.mp inAnchors with rfl | inOthers
      · rfl
      · exact agree other inOthers
    rw [same first mem]
    exact ⟨same, rest⟩

theorem Renamed.deliversSame_iff (renamed : Renamed db after old new now) (linked : Linked db)
    (owned : OwnersOk db) (signed : ∀ event ∈ db.events, event.Signed) (differs : old ≠ new)
    (named : old ≠ "" ∧ new ≠ "") :
    DeliversSame db after old new reference ↔ Undisturbed db old new reference := by
  have isAnchors := renamed.anchors reference
  rw [DeliversSame]
  cases found : db.anchors old reference with
  | nil =>
    rw [found] at isAnchors
    have undisturbed : Undisturbed db old new reference := by
      intro anchor absurd
      rw [found] at absurd
      cases absurd
    simp only [resolve_of_nil found, resolve_of_nil isAnchors, List.map_eq_nil_iff, and_self,
      exists_eq, undisturbed]
  | cons anchor others =>
    have here (event : Event) (mem : event ∈ anchor :: others) :
        (event.rename old new).accessRole = event.accessRole := by
      rw [← found] at mem
      exact Event.rename_accessRole
        (signed event (List.mem_of_mem_filter (List.mem_of_mem_filter mem)))
    have isFirst := here anchor List.mem_cons_self
    have roles : (∀ other ∈ others.map (Event.rename old new),
        other.accessRole = anchor.accessRole) ↔
        ∀ other ∈ others, other.accessRole = anchor.accessRole := by
      rw [List.forall_mem_map]
      refine forall₂_congr fun other mem => ?_
      rw [here other (List.mem_cons_of_mem _ mem)]
    rw [found, List.map_cons] at isAnchors
    simp only [resolve_of_cons found, resolve_of_cons isAnchors, renamed.memberGroup, isFirst,
      roles, renamed.batch signed, undisturbed_of_cons found]
    by_cases member : db.memberGroup old = some reference.groupId
    · obtain ⟨group, mem, on, sameId, isMember⟩ :=
        (linked.index _ _).mp (memberGroup_eq_some.mp member)
      have isRead : db.read reference.groupId none = .ok group := by
        rw [← sameId]
        exact read_of_mem mem on
      have isReadToo : after.read reference.groupId none = .ok (group.rename old new now) :=
        renamed.read isRead
      have absent : new ∉ group.memberIds := by
        intro known
        have row := (linked.index new group.id).mpr ⟨group, mem, on, rfl, known⟩
        exact renamed.rows _ row rfl
      have distinct : ((db.batch old reference.groupId anchor.accessRole).map Event.seq).Nodup :=
        batch_nodup old reference.groupId anchor.accessRole
      have woken := @woken_iff old new now group _ distinct differs named (owned group mem on)
        absent
      simp only [member, isRead, isReadToo, Except.ok.injEq, exists_eq_left', resolveRows_iff,
        ne_eq, not_true_eq_false, false_and, false_or, true_and, forall_true_left, forall_eq']
      rw [← woken]
      constructor
      · intro both
        obtain ⟨events, ⟨agree, known, rfl⟩, -, knownToo, same⟩ := both
        exact ⟨agree, known, knownToo, same⟩
      · intro both
        obtain ⟨agree, known, knownToo, same⟩ := both
        exact ⟨_, ⟨agree, known, rfl⟩, agree, knownToo, same⟩
    · simp only [member, ne_eq, not_false_eq_true, true_and, false_and, or_false,
        false_imp_iff, implies_true, and_true]
      constructor
      · intro both
        exact both.choose_spec.1.1
      · intro agree
        exact ⟨[], ⟨agree, rfl⟩, agree, rfl⟩

theorem renameReferences_command {command : PublishMessage}
    (other : command.recipientId ≠ some old) :
    renameReferences old new command.dump = command.dump := by
  have attachment (item : MessageAttachment) :
      renameReferences old new item.dump = item.dump := by
    simp (disch := simp [isIdentityKey]) only [MessageAttachment.dump, renameReferences,
      renameFields_plain, renameFields_nil]
  have attachments : renameItems old new (command.attachments.map MessageAttachment.dump) =
      command.attachments.map MessageAttachment.dump := by
    rw [renameItems_eq_map, List.map_map]
    exact List.map_congr_left fun item _ => attachment item
  have recipient : command.recipientId.map (renameId old new) = command.recipientId := by
    cases isRecipient : command.recipientId with
    | none => rfl
    | some recipient =>
      rw [Option.map_some, renameId, if_neg fun same => other (isRecipient.trans (congrArg some same))]
  rw [PublishMessage.dump]
  split_ifs
  · simp (disch := simp [isIdentityKey]) only [List.cons_append, List.nil_append, renameReferences,
      renameFields_plain, renameFields_identity, renameFields_nil, recipient]
  · simp (disch := simp [isIdentityKey]) only [List.cons_append, List.nil_append, renameReferences,
      renameFields_plain, renameFields_identity, renameFields_nil, recipient, attachments]

theorem Renamed.request (renamed : Renamed db after old new now) {groupId requestId : String}
    {previous : MessageRequest}
    (found : findRow MessageRequest.key (groupId, actorKey (some old), requestId) db.requests =
      some previous) :
    findRow MessageRequest.key (groupId, actorKey (some new), requestId) after.requests =
      some (previous.rename old new) := by
  obtain ⟨mem, isKey⟩ := findRow_eq_some found
  obtain ⟨sameGroup, rest⟩ := Prod.mk.injEq .. |>.mp isKey
  obtain ⟨sameActor, sameRequest⟩ := Prod.mk.injEq .. |>.mp rest
  have isThere : previous.rename old new ∈ after.requests := by
    rw [renamed.requests]
    exact List.mem_map_of_mem mem
  have key : (previous.rename old new).key = (groupId, actorKey (some new), requestId) := by
    have isOld : previous.actorKey = "node:" ++ old := sameActor
    rw [MessageRequest.key, MessageRequest.rename, if_pos isOld, sameGroup, sameRequest]
    rfl
  rw [← key]
  exact findRow_of_mem after.requestKeys isThere

theorem Renamed.event (renamed : Renamed db after old new now) {seq : Nat} {event : Event}
    (found : findRow Event.seq seq db.events = some event) :
    findRow Event.seq seq after.events = some (event.rename old new) := by
  obtain ⟨more, events⟩ := renamed.events
  have first : findRow Event.seq seq (db.events.map (Event.rename old new)) =
      (findRow Event.seq seq db.events).map (Event.rename old new) := by
    rw [findRow, List.find?_map]
    rfl
  rw [events, findRow_append, first, found]
  rfl

theorem Renamed.retriesSame (renamed : Renamed db after old new now) (linked : Linked db) :
    RetriesSame db after old new := by
  intro c c' groupId command event done
  obtain ⟨group, isRead, done⟩ := bind_eq_ok.mp done
  obtain ⟨member, done⟩ := require_bind_eq_ok.mp done
  obtain ⟨notSelf, done⟩ := require_bind_eq_ok.mp done
  obtain ⟨directed, done⟩ := require_bind_eq_ok.mp done
  have read := read_eq_ok isRead
  have absent : new ∉ group.memberIds := by
    intro known
    have row := (linked.index new group.id).mpr ⟨group, read.mem, read.active, rfl, known⟩
    exact renamed.rows _ row rfl
  have members := (AgentGroup.rename_eq old new now group).1
  have isReadToo : after.read groupId (some new) = .ok (group.rename old new now) := by
    have := renamed.read isRead
    rwa [Option.map_some, renameId, if_pos rfl] at this
  have other : command.recipientId ≠ some old := by
    rcases notSelf with nobody | other
    · rw [nobody]
      exact Option.some_ne_none old |>.symm
    · exact other
  split at done
  · rename_i previous found
    obtain ⟨same, done⟩ := ite_error_eq_ok.mp done
    split at done
    · rename_i row isEvent
      cases done
      refine bind_eq_ok.mpr ⟨_, isReadToo, require_bind_eq_ok.mpr ⟨?_, require_bind_eq_ok.mpr
        ⟨?_, require_bind_eq_ok.mpr ⟨?_, ?_⟩⟩⟩⟩
      · intro recipient isRecipient
        rw [members]
        apply List.mem_map.mpr
        have notOld : recipient ≠ old := fun isOld => other (isRecipient.trans (congrArg some isOld))
        exact ⟨recipient, member recipient isRecipient, by rw [renameId, if_neg notOld]⟩
      · rcases notSelf with nobody | -
        · exact .inl nobody
        · exact .inr fun isNew => absent (member new isNew)
      · rcases directed with absurd | rest
        · cases absurd
        · exact .inr rest
      · have sameCommand : (previous.rename old new).command = command.dump := by
          change renameReferences old new previous.command = _
          rw [not_not.mp same, renameReferences_command other]
        have seq : (previous.rename old new).eventSeq = previous.eventSeq := rfl
        simp only [renamed.request found, sameCommand, ne_eq, not_true_eq_false, if_false, seq,
          renamed.event isEvent]
    · cases done
  · -- a message that is sent adds an event
    obtain ⟨recipientId, -, sent⟩ := bind_eq_ok.mp done
    obtain ⟨kind, payload, -, -, events, -⟩ := send_eq_ok sent
    have longer := congrArg List.length events
    simp at longer

end Statement

/-! ### Whole runs -/

section Runs

variable {s s' : GroupSystem} {op : GroupOp}

/-- What every reachable state has. -/
structure NamesInv (s : GroupSystem) : Prop where
  linked : Linked s.dir.store
  owned : OwnersOk s.dir.store
  sound : PlansSound s
  snapshots : SnapshotsOk s
  signed : ∀ event ∈ s.dir.store.events, event.Signed

theorem Statements.signed {db db' : GroupStore} (statements : Statements db db')
    (signed : ∀ event ∈ db.events, event.Signed) : ∀ event ∈ db'.events, event.Signed := by
  obtain ⟨more, events, isSigned⟩ := statements.grows.events
  intro event mem
  rw [events] at mem
  rcases List.mem_append.mp mem with early | late
  · exact signed event early
  · exact isSigned event late

/-- One step keeps the invariant of the renaming. -/
theorem NamesInv.step (inv : NamesInv s) (stepped : s.step op = some s') : NamesInv s' where
  linked := inv.linked.step inv.owned inv.sound stepped
  owned := inv.owned.step inv.sound inv.snapshots stepped
  sound := inv.sound.step stepped
  snapshots := inv.snapshots.step stepped
  signed := by
    rcases step_statements inv.sound stepped with statements |
      ⟨c, old, new, mid, -, -, renamed, statements⟩ | ⟨c, index, plan, -, imported⟩
    · exact statements.signed inv.signed
    · apply statements.signed
      intro event mem
      rw [(rename_eq_ok renamed).2.2.1] at mem
      obtain ⟨before, inEvents, rfl⟩ := List.mem_map.mp mem
      have isSigned := inv.signed before inEvents
      rw [Event.Signed, Event.rename_accessRole isSigned]
      exact isSigned
    · rw [imported.events]
      exact inv.signed

/-- The invariant holds in every state reached. -/
theorem namesInv_run {config : Option Json} {nodes : List (String × Json)} {ops : List GroupOp}
    (ran : run GroupSystem.step (GroupSystem.start config nodes) ops = some s) : NamesInv s := by
  have start := groupsInv_start config nodes
  refine run_invariant (fun _ _ _ inv stepped => NamesInv.step inv stepped) ?_ ran
  exact ⟨start.linked, start.owned, start.sound, start.snapshots, fun _ mem => nomatch mem⟩

/-- A renaming commutes with delivery exactly when it disturbs no task event: the wakeup gives what it
gave, and repeated messages are recognised. -/
theorem rename_commutes_iff (config : Option Json) (nodes : List (String × Json))
    (ops : List GroupOp) (ran : run GroupSystem.step (GroupSystem.start config nodes) ops = some s)
    {c : Caller} {old new : String} {after : GroupStore} (differs : old ≠ new)
    (named : old ≠ "" ∧ new ≠ "") (done : nodeRename c s.dir.store old new = .ok after)
    (reference : DeliveryReference) :
    DeliversSame s.dir.store after old new reference ∧ RetriesSame s.dir.store after old new ↔
      Undisturbed s.dir.store old new reference := by
  have inv := namesInv_run ran
  rcases nodeRename_eq_ok done with ⟨same, -⟩ | ⟨-, renamed⟩
  · exact absurd same differs
  · rw [renamed.deliversSame_iff inv.linked inv.owned inv.signed differs named]
    exact and_iff_left (renamed.retriesSame inv.linked)

end Runs

/-- The user gives the first task to node `a`. -/
def assigned : List GroupOp :=
  [.command {} (.create pair false "g"),
    .command {} (.createTask {} "g" { title := "first", ownerId := some "a", named := someA_ne } none "t")]

theorem assigned_raises :
    ∃ s after e, run GroupSystem.step (GroupSystem.start none []) assigned = some s ∧
      nodeRename {} s.dir.store "a" "c" = .ok after ∧ resolve after "c" ⟨"g", [2]⟩ = .error e := by
  have raises : (run GroupSystem.step (GroupSystem.start none []) assigned).any (fun s =>
      (nodeRename {} s.dir.store "a" "c").toOption.any fun after =>
        (resolve after "c" ⟨"g", [2]⟩).toOption.isNone) = true := by
    decide +kernel
  obtain ⟨s, ran, found⟩ := (Option.any_eq_true _ _).mp raises
  cases done : nodeRename {} s.dir.store "a" "c" with
  | error e =>
    rw [done] at found
    cases found
  | ok after =>
    rw [done] at found
    cases raised : resolve after "c" ⟨"g", [2]⟩ with
    | error e => exact ⟨s, after, e, ran, done, raised⟩
    | ok answer =>
      change (resolve after "c" ⟨"g", [2]⟩).toOption.isNone = true at found
      rw [raised] at found
      cases found

/-- The rename of `a` leaves the tasks of the event under the old name. -/
theorem rename_hides_tasks :
    ∃ s after, run GroupSystem.step (GroupSystem.start none []) assigned = some s ∧
      nodeRename {} s.dir.store "a" "c" = .ok after ∧
        ¬ (DeliversSame s.dir.store after "a" "c" ⟨"g", [2]⟩ ∧
          RetriesSame s.dir.store after "a" "c") := by
  obtain ⟨s, after, e, ran, done, raised⟩ := assigned_raises
  refine ⟨s, after, ran, done, fun both => ?_⟩
  obtain ⟨events, -, mid, given⟩ := both.1
  rw [raised] at given
  cases given

/-- What was delivered before a rename that changes the owner of a task. -/
theorem rename_commutes_iff_assigned :
    ∃ s after, run GroupSystem.step (GroupSystem.start none []) assigned = some s ∧
      nodeRename {} s.dir.store "a" "c" = .ok after ∧
        (DeliversSame s.dir.store after "a" "c" ⟨"g", [2]⟩ ∧
            RetriesSame s.dir.store after "a" "c" ↔
          Undisturbed s.dir.store "a" "c" ⟨"g", [2]⟩) := by
  obtain ⟨s, after, e, ran, done, -⟩ := assigned_raises
  exact ⟨s, after, ran, done,
    rename_commutes_iff none [] assigned ran (by decide) (by decide) done _⟩

end AgentPark.Groups
