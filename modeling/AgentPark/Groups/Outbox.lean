import AgentPark.Groups.BoardRuns
import AgentPark.Groups.Statements

/-!
# The outbox of a graph

The events of all groups stand in one log, and the outbox has a row for each event and each node it goes to.
-/

namespace AgentPark.Groups

open Lib

section Outbox

variable {c : Caller} {db db' mid : GroupStore}

theorem Statements.importRows {existing : List AgentGroup} {values : List GroupFields}
    (before : Statements db mid) (done : importRows c existing values mid = .ok db') :
    Statements db db' := by
  induction values generalizing mid with
  | nil =>
    cases done
    exact before
  | cons value values ih =>
    obtain ⟨next, inserted, rest⟩ := bind_eq_ok.mp done
    refine ih (Statements.insertAll ?_ inserted) rest
    split_ifs
    · exact before
    · exact before.put _

theorem applyStructure_statements (dir : GraphDirectory) (plan : StructurePlan) :
    Statements dir.store (applyStructure c dir plan).2.store := by
  rw [applyStructure]
  split
  · exact .refl
  · dsimp only
    split_ifs
    · rw [write_store]
    · split
      · rw [write_store]
      · rename_i store done
        obtain ⟨-, done⟩ := require_bind_eq_ok.mp done
        obtain ⟨-, done⟩ := require_bind_eq_ok.mp done
        obtain ⟨u, -, done⟩ := bind_eq_ok.mp done
        exact Statements.importRows (Statements.clear .refl _) done

/-- A step performs statements, behind a renaming of the rows if it renames a node. -/
theorem step_performs {s s' : GroupSystem} {op : GroupOp} (sound : PlansSound s)
    (stepped : s.step op = some s') :
    Statements s.dir.store s'.dir.store ∨
      ∃ c old new mid, op = .renameNode c old new ∧ s.dir.store.rename old new c.now = .ok mid ∧
        Statements mid s'.dir.store := by
  rcases step_statements sound stepped with statements |
    ⟨c, old, new, mid, isRename, -, renamed, statements⟩ | ⟨c, index, plan, isImport, -⟩
  · exact .inl statements
  · exact .inr ⟨c, old, new, mid, isRename, renamed, statements⟩
  · rw [isImport] at stepped
    obtain ⟨plan, -, rfl⟩ := Option.map_eq_some_iff.mp stepped
    exact .inl (applyStructure_statements s.dir plan)

/-- What no operation changes of an event. -/
def Event.stamp (event : Event) : Nat × String × EventKind × String :=
  (event.seq, event.groupId, event.kind, event.createdAt)

/-- The rows of the outbox for an event. -/
def GroupStore.sentFor (db : GroupStore) (seq : Nat) : Nat :=
  db.deliveries.countP fun delivery => delivery.eventSeq = seq

/-- Those of them that are pending. -/
def GroupStore.pendingFor (db : GroupStore) (seq : Nat) : Nat :=
  db.deliveries.countP fun delivery => delivery.eventSeq = seq && delivery.state = .pending

/-- The log later: events are added behind the others, and the deliveries of an event that is there are settled
one after the other. -/
structure Drains (db db' : GroupStore) : Prop where
  log : db.events.map Event.stamp <+: db'.events.map Event.stamp
  sent : ∀ event ∈ db.events, db'.sentFor event.seq = db.sentFor event.seq
  pending : ∀ event ∈ db.events, db'.pendingFor event.seq ≤ db.pendingFor event.seq

theorem Drains.trans (first : Drains db mid) (second : Drains mid db') : Drains db db' := by
  have stays {event : Event} (mem : event ∈ db.events) : ∃ later ∈ mid.events, later.seq = event.seq := by
    obtain ⟨later, inMid, same⟩ := List.mem_map.mp (first.log.subset (List.mem_map_of_mem mem))
    exact ⟨later, inMid, congrArg Prod.fst same⟩
  refine ⟨first.log.trans second.log, fun event mem => ?_, fun event mem => ?_⟩
  · obtain ⟨later, inMid, same⟩ := stays mem
    rw [← first.sent event mem, ← same]
    exact second.sent later inMid
  · obtain ⟨later, inMid, same⟩ := stays mem
    refine Nat.le_trans ?_ (first.pending event mem)
    rw [← same]
    exact second.pending later inMid

theorem drains_of_same (events : db'.events = db.events) (deliveries : db'.deliveries = db.deliveries) :
    Drains db db' := by
  refine ⟨?_, fun _ _ => ?_, fun _ _ => ?_⟩
  · simp only [events, List.prefix_refl]
  · rw [GroupStore.sentFor, deliveries, GroupStore.sentFor]
  · rw [GroupStore.pendingFor, deliveries, GroupStore.pendingFor]

theorem Statement.drains (statement : Statement db db') : Drains db db' := by
  cases statement with
  | put group => exact drains_of_same rfl rfl
  | insertMember inserted =>
    obtain ⟨-, -, -, events, deliveries⟩ := insertMember_eq_ok inserted
    exact drains_of_same events deliveries
  | deleteMembers p => exact drains_of_same rfl rfl
  | settle p f keeps calm =>
    refine ⟨List.prefix_refl _, fun event _ => ?_, fun event _ => ?_⟩
    · change (updateWhere p f db.deliveries).countP _ = _
      rw [updateWhere, List.countP_map]
      apply List.countP_congr
      intro delivery _
      simp only [Function.comp_apply]
      split_ifs
      · have same : (f delivery).eventSeq = delivery.eventSeq := congrArg Prod.fst (keeps delivery)
        rw [same]
      · exact Iff.rfl
    · change (updateWhere p f db.deliveries).countP _ ≤ _
      rw [updateWhere, List.countP_map]
      apply List.countP_mono_left
      intro delivery _ isPending
      simp only [Function.comp_apply] at isPending
      split_ifs at isPending with here
      · have same : (f delivery).eventSeq = delivery.eventSeq := congrArg Prod.fst (keeps delivery)
        rw [Bool.and_eq_true, decide_eq_true_eq, decide_eq_true_eq, same] at isPending
        rw [Bool.and_eq_true, decide_eq_true_eq, decide_eq_true_eq]
        exact ⟨isPending.1, calm delivery here isPending.2⟩
      · exact isPending
  | event c group kind actorId payload targets notify =>
    have other {event : Event} (mem : event ∈ db.events) (q : Delivery → Bool) :
        (db.event c group kind actorId payload targets notify).deliveries.countP
            (fun delivery => delivery.eventSeq = event.seq && q delivery) =
          db.deliveries.countP fun delivery => delivery.eventSeq = event.seq && q delivery := by
      rw [GroupStore.event_deliveries, List.countP_append, Nat.add_eq_left, List.countP_eq_zero]
      intro delivery new
      -- its sequence number is new
      obtain ⟨target, -, rfl⟩ := List.mem_map.mp new
      have before := db.assigned event mem
      have differs : db.nextSeq ≠ event.seq := by omega
      simp [differs]
    refine ⟨?_, fun event mem => ?_, fun event mem => ?_⟩
    · rw [GroupStore.event_events, List.map_append]
      exact List.prefix_append _ _
    · simpa [GroupStore.sentFor] using other mem fun _ => true
    · exact Nat.le_of_eq (other mem fun delivery => delivery.state = .pending)
  | request inserted =>
    obtain ⟨-, -, events, deliveries, -⟩ := insertRequest_eq_ok inserted
    exact drains_of_same events deliveries

theorem Statements.drains (statements : Statements db db') : Drains db db' := by
  induction statements with
  | refl => exact drains_of_same rfl rfl
  | tail _ statement ih => exact ih.trans statement.drains

theorem drains_rename {old new now : String} (renamed : db.rename old new now = .ok db') : Drains db db' := by
  obtain ⟨-, -, events, deliveries, -, -⟩ := rename_eq_ok renamed
  refine ⟨?_, fun event _ => ?_, fun event _ => ?_⟩
  · rw [events, List.map_map]
    exact List.prefix_refl _
  · rw [GroupStore.sentFor, deliveries, List.countP_map]
    rfl
  · rw [GroupStore.pendingFor, deliveries, List.countP_map]
    rfl

theorem step_drains {s s' : GroupSystem} {op : GroupOp} (sound : PlansSound s)
    (stepped : s.step op = some s') : Drains s.dir.store s'.dir.store := by
  rcases step_performs sound stepped with statements | ⟨c, old, new, mid, -, renamed, statements⟩
  · exact statements.drains
  · exact (drains_rename renamed).trans statements.drains

/-- **The outbox is only worked off.**  Behind any state of a graph the events stay where they are in the log, new
ones come behind them; an event keeps its number of deliveries, whatever the nodes are called by then, and never
has more of them pending than before. -/
theorem outbox_drains {config : Option Json} {nodes : List (String × Json)} {ops later : List GroupOp}
    {s t : GroupSystem} (ran : run GroupSystem.step (GroupSystem.start config nodes) ops = some s)
    (goes : run GroupSystem.step s later = some t) : Drains s.dir.store t.dir.store := by
  have sound : PlansSound s :=
    run_invariant (fun _ _ _ inv stepped => inv.step stepped) (plansSound_start config nodes) ran
  have both : PlansSound t ∧ Drains s.dir.store t.dir.store :=
    run_invariant (I := fun t => PlansSound t ∧ Drains s.dir.store t.dir.store)
      (fun _ _ _ inv stepped => ⟨inv.1.step stepped, inv.2.trans (step_drains inv.1 stepped)⟩)
      ⟨sound, drains_of_same rfl rfl⟩ goes
  exact both.2

/-! ### Repeated requests -/

theorem Statement.requests (statement : Statement db db') : db.requests <+: db'.requests := by
  cases statement with
  | insertMember inserted =>
    rw [GroupStore.insertMember] at inserted
    split_ifs at inserted
    cases inserted
    exact List.prefix_refl _
  | request inserted =>
    rw [(insertRequest_eq_ok inserted).2.2.2.2]
    exact List.prefix_append _ _
  | put | deleteMembers | settle | event => exact List.prefix_refl _

/-- The requests that are recorded stay recorded, and so do their events. -/
def Remembers (db db' : GroupStore) : Prop := db.requests <+: db'.requests ∧ db.events <+: db'.events

theorem Statements.remembers (statements : Statements db db') : Remembers db db' := by
  obtain ⟨more, events, -⟩ := statements.grows.events
  refine ⟨?_, events ▸ List.prefix_append _ _⟩
  clear events
  induction statements with
  | refl => exact List.prefix_refl _
  | tail _ statement ih => exact ih.trans statement.requests

theorem findRow_mono {ρ κ : Type} [DecidableEq κ] {key : ρ → κ} {k : κ} {row : ρ} {rows more : List ρ}
    (isPrefix : rows <+: more) (found : findRow key k rows = some row) : findRow key k more = some row := by
  obtain ⟨rest, rfl⟩ := isPrefix
  rw [findRow, List.find?_append, ← findRow, found]
  rfl

/-- The operation gives a node another name. -/
def GroupOp.renames : GroupOp → Bool
  | .renameNode .. => true
  | _ => false

/-- **A request is carried out once.**  When a message was published, publishing it again under its request, at any
later time while no node has been renamed, writes nothing, and if it returns it returns the event of the first
time. -/
theorem publish_again {config : Option Json} {nodes : List (String × Json)} {ops later : List GroupOp}
    {s t : GroupSystem} {c c' : Caller} {groupId : String} {command : PublishMessage} {actorId : Option String}
    {event event' : Event} {store store' : GroupStore}
    (ran : run GroupSystem.step (GroupSystem.start config nodes) ops = some s)
    (published : publish c s.dir.store groupId command actorId = .ok (event, store))
    (goes : run GroupSystem.step (s.withStore store) later = some t) (named : ∀ op ∈ later, op.renames = false)
    (again : publish c' t.dir.store groupId command actorId = .ok (event', store')) :
    event' = event ∧ store' = t.dir.store := by
  have sound : PlansSound s :=
    run_invariant (fun _ _ _ inv stepped => inv.step stepped) (plansSound_start config nodes) ran
  have start : PlansSound (s.withStore store) := sound
  -- the request and its event are there behind the first call
  obtain ⟨previous, found, isSame, isEvent⟩ : ∃ previous : MessageRequest,
      findRow MessageRequest.key (groupId, actorKey actorId, command.requestId) store.requests = some previous ∧
        previous.command = command.dump ∧ findRow Event.seq previous.eventSeq store.events = some event := by
    obtain ⟨group, isRead, -, ⟨previous, found, isSame, isEvent, same⟩ | ⟨-, recipientId, -, sent⟩⟩ :=
      publish_eq_ok published
    · have same : store = s.dir.store := same
      rw [same]
      exact ⟨previous, found, isSame, isEvent⟩
    · obtain ⟨after, inserted, same⟩ := bind_eq_ok.mp sent
      obtain ⟨isEvent, rfl⟩ := Prod.mk.inj (Except.ok.inj same)
      obtain ⟨-, -, events, -, requests⟩ := insertRequest_eq_ok inserted
      rw [isEvent] at requests
      rw [GroupStore.event_events, isEvent] at events
      have isRequest : command.request group.id actorId event.seq ∈ after.requests := by
        rw [requests]
        exact List.mem_append_right _ (List.mem_singleton_self _)
      have isLogged : event ∈ after.events := by
        rw [events]
        exact List.mem_append_right _ (List.mem_singleton_self _)
      refine ⟨command.request group.id actorId event.seq, ?_, rfl, ?_⟩
      · have found := findRow_of_mem after.requestKeys isRequest
        rw [← isRead.id_eq]
        exact found
      · exact findRow_of_mem (after.eventSeqs.imp Nat.ne_of_lt) isLogged
  have remembers : PlansSound t ∧ Remembers store t.dir.store :=
    run_invariant_along (I := fun t => PlansSound t ∧ Remembers store t.dir.store)
      (C := fun _ op _ => op.renames = false)
      (fun _ op _ inv stepped calm => by
        refine ⟨inv.1.step stepped, ?_⟩
        rcases step_performs inv.1 stepped with statements | ⟨c, old, new, mid, isRename, -, -⟩
        · obtain ⟨requests, events⟩ := statements.remembers
          exact ⟨inv.2.1.trans requests, inv.2.2.trans events⟩
        · rw [isRename] at calm
          cases calm)
      ⟨start, List.prefix_refl _, List.prefix_refl _⟩ (along_of_forall_mem named) goes
  obtain ⟨requests, events⟩ := remembers.2
  have known := findRow_mono requests found
  obtain ⟨group, -, -, ⟨other, isOther, -, isOtherEvent, same⟩ | ⟨unknown, -⟩⟩ := publish_eq_ok again
  · cases known.symm.trans isOther
    exact ⟨Option.some.inj (isOtherEvent.symm.trans (findRow_mono events isEvent)), same⟩
  · cases known.symm.trans unknown

end Outbox

/-! ### A run -/

/-- The user asks node `b`. -/
def question : PublishMessage where
  text := "ready?"
  requestId := "r1"
  recipientId := some "b"
  content := .inl (by decide)
  shared := fun update => absurd update (by decide)
  direct := fun _ => rfl

/-- The question is delivered, and `b` gets another name. -/
def answering : List GroupOp :=
  [.command {} (.recordDelivery 2 "b" none), .renameNode {} "b" "c"]

/-- The delivery of the question drains the outbox, with a rename behind it. -/
theorem outbox_drains_answering :
    ∃ s t, run GroupSystem.step (GroupSystem.start none [("a", .obj []), ("b", .obj [])])
        [.command {} (.create pair false "g"), .command {} (.publish "g" question none)] = some s ∧
      run GroupSystem.step s answering = some t ∧ Drains s.dir.store t.dir.store ∧
        s.dir.store.pendingFor 2 = 1 ∧ t.dir.store.pendingFor 2 = 0 := by
  have facts : (run GroupSystem.step (GroupSystem.start none [("a", .obj []), ("b", .obj [])])
      [.command {} (.create pair false "g"), .command {} (.publish "g" question none)]).bind (fun s =>
        (run GroupSystem.step s answering).map fun t =>
          (s.dir.store.pendingFor 2, t.dir.store.pendingFor 2)) = some (1, 0) := by
    decide +kernel
  obtain ⟨s, ran, facts⟩ := Option.bind_eq_some_iff.mp facts
  obtain ⟨t, goes, facts⟩ := Option.map_eq_some_iff.mp facts
  obtain ⟨before, after⟩ := Prod.mk.inj facts
  exact ⟨s, t, ran, goes, outbox_drains ran goes, before, after⟩

/-- The question is repeated when it has been delivered. -/
theorem publish_again_question :
    ∃ s t event store store', run GroupSystem.step (GroupSystem.start none [("a", .obj []), ("b", .obj [])])
        [.command {} (.create pair false "g")] = some s ∧
      publish {} s.dir.store "g" question none = .ok (event, store) ∧
      run GroupSystem.step (s.withStore store) [.command {} (.recordDelivery 2 "b" none)] = some t ∧
      publish {} t.dir.store "g" question none = .ok (event, store') ∧ store' = t.dir.store := by
  have facts : (run GroupSystem.step (GroupSystem.start none [("a", .obj []), ("b", .obj [])])
      [.command {} (.create pair false "g")]).any (fun s =>
        (publish {} s.dir.store "g" question none).toOption.any fun sent =>
          (run GroupSystem.step (s.withStore sent.2) [.command {} (.recordDelivery 2 "b" none)]).any fun t =>
            (publish {} t.dir.store "g" question none).toOption.isSome) = true := by
    decide +kernel
  obtain ⟨s, ran, facts⟩ := (Option.any_eq_true _ _).mp facts
  cases published : publish {} s.dir.store "g" question none with
  | error e =>
    rw [published] at facts
    cases facts
  | ok sent =>
    obtain ⟨event, store⟩ := sent
    rw [published] at facts
    simp only [Except.toOption, Option.any_some] at facts
    obtain ⟨t, goes, facts⟩ := (Option.any_eq_true _ _).mp facts
    cases again : publish {} t.dir.store "g" question none with
    | error e =>
      rw [again] at facts
      cases facts
    | ok repeated =>
      obtain ⟨event', store'⟩ := repeated
      have named : ∀ op ∈ [GroupOp.command {} (.recordDelivery 2 "b" none)], op.renames = false := by
        intro op mem
        rw [List.mem_singleton.mp mem]
        rfl
      obtain ⟨rfl, same⟩ := publish_again ran published goes named again
      exact ⟨s, t, event', store, store', ran, published, goes, again, same⟩

end AgentPark.Groups
