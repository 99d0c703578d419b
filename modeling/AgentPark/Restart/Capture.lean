import AgentPark.Restart.Directory

/-!
# Capturing the running nodes

`_capture_running_nodes_locked` prepares an item for each working node, writes them one after the
other, takes back what it has written when a write fails, and removes the checkpoints of the earlier
tags in the end.
-/

namespace AgentPark.Restart

open Lib

/-! ### Preparing -/

/-- An item as `prepare` makes it over the files `before`. -/
structure PreparedOf (before : Files) (restartId : Nat) (item : Prepared) : Prop where
  named : tagName item.tag.node = some item.name
  drawn : item.tag.restartId = restartId
  open_ : item.tag.status = .pending
  path : item.tag.statePath = { restartId, name := item.name }
  checkpointId : item.checkpoint.restartId = restartId
  checkpointNode : item.checkpoint.node = item.tag.node
  previous : item.previousTag = before.tags.lookup item.name

theorem prepare_spec (isClock : Node → Bool) (files : Files) (restartId : Nat) (node : Node)
    (snapshot : Runtime) :
    match prepare isClock files restartId node snapshot with
    | .prepared item => PreparedOf files restartId item ∧ ∃ inflight,
        snapshot.inflight = some inflight ∧
          item.checkpoint = buildRestartCheckpoint restartId node inflight snapshot
    | .skipped | .unsafe_ => snapshot.state = .working → snapshot.inflight = none
    | .raised => True := by
  unfold prepare
  by_cases idle : snapshot.state ≠ .working
  · rw [if_pos idle]
    intro working
    exact absurd working idle
  · rw [if_neg idle]
    cases inflight : snapshot.inflight with
    | none => cases isClock node <;> exact fun _ => rfl
    | some item =>
      cases named : tagName node with
      | none => trivial
      | some name =>
        dsimp only
        split_ifs with other
        · trivial
        · exact ⟨⟨named, rfl, rfl, rfl, rfl, rfl, rfl⟩, item, rfl, rfl⟩

/-- Each node that has been read, and was working on an item, has an item of its own. -/
def Covers (nodes : List Node) (snapshots : Node → Runtime) (restartId : Nat) (remaining : List Node)
    (items : List Prepared) : Prop :=
  ∀ node ∈ nodes, node ∉ remaining → (snapshots node).state = .working →
    ∀ inflight, (snapshots node).inflight = some inflight →
      ∃ item ∈ items, item.checkpoint = buildRestartCheckpoint restartId node inflight (snapshots node)

theorem covers_all (nodes : List Node) (snapshots : Node → Runtime) (restartId : Nat)
    (items : List Prepared) : Covers nodes snapshots restartId nodes items :=
  fun _ mem notMem => absurd mem notMem

theorem Covers.read {nodes : List Node} {snapshots : Node → Runtime} {restartId : Nat} {node : Node}
    {remaining : List Node} {items more : List Prepared} {snapshot : Runtime}
    (covers : Covers nodes snapshots restartId (node :: remaining) items) (sub : items ⊆ more)
    (new : snapshot.state = .working → ∀ inflight, snapshot.inflight = some inflight →
      ∃ item ∈ more, item.checkpoint = buildRestartCheckpoint restartId node inflight snapshot) :
    Covers nodes (Function.update snapshots node snapshot) restartId remaining more := by
  intro other mem notMem
  by_cases same : other = node
  · subst same
    rw [Function.update_self]
    exact new
  · rw [Function.update_of_ne same]
    intro working inflight isInflight
    have notMem' : other ∉ node :: remaining := by simp [same, notMem]
    obtain ⟨item, inItems, eq⟩ := covers other mem notMem' working inflight isInflight
    exact ⟨item, sub inItems, eq⟩

/-! ### Writing and undoing -/

/-- The items of a capture over the files `before`. -/
structure Batch (s : System) (restartId : Nat) (before : Files) (items : List Prepared) : Prop where
  drawn : restartId < s.nextRestartId
  kept : Kept s.owner restartId s.events before
  prepared : ∀ item ∈ items, PreparedOf before restartId item

theorem Batch.mono {s : System} {restartId : Nat} {before : Files} {items fewer : List Prepared}
    (batch : Batch s restartId before items) (sub : fewer ⊆ items) : Batch s restartId before fewer :=
  { batch with prepared := fun item mem => batch.prepared item (sub mem) }

theorem Batch.absent {s : System} {restartId : Nat} {before : Files} {items : List Prepared}
    (batch : Batch s restartId before items) {item : Prepared} (mem : item ∈ items) :
    before.states.lookup item.tag.statePath = none := by
  cases found : before.states.lookup item.tag.statePath with
  | none => rfl
  | some checkpoint =>
    have early := batch.kept.paths _ _ found
    rw [(batch.prepared item mem).path] at early
    exact absurd early (Nat.lt_irrefl restartId)

theorem Batch.path_inj {s : System} {restartId : Nat} {before : Files} {items : List Prepared}
    (batch : Batch s restartId before items) {item other : Prepared} (mem : item ∈ items)
    (mem' : other ∈ items) (same : item.tag.statePath = other.tag.statePath) : item.name = other.name := by
  rw [(batch.prepared item mem).path, (batch.prepared other mem').path] at same
  exact (StatePath.mk.inj same).2

/-- Where the writing of the items stands. -/
structure Writing (nodes : List Node) (s : System) (restartId : Nat) (before : Files)
    (todo finished : List Prepared) (stateWritten : Bool) : Prop where
  batch : Batch s restartId before (finished.reverse ++ todo)
  covers : Covers nodes s.snapshots restartId [] (finished.reverse ++ todo)
  names : ((finished.reverse ++ todo).map Prepared.name).Nodup
  tags : ∀ item ∈ finished, s.files.tags.lookup item.name = some item.tag
  states : ∀ item ∈ finished, s.files.states.lookup item.tag.statePath = some item.checkpoint
  current : stateWritten = true → ∀ item ∈ todo.head?,
    s.files.states.lookup item.tag.statePath = some item.checkpoint
  differ : Differ before s.files (finished.map Prepared.name)
    ((todo.take 1 ++ finished).map fun item => item.tag.statePath)

/-- Where the undoing of the items stands. -/
structure Undoing (s : System) (restartId : Nat) (before : Files) (items : List Prepared)
    (tagUndone : Bool) : Prop where
  batch : Batch s restartId before items
  names : (items.map Prepared.name).Nodup
  differ : Differ before s.files ((if tagUndone then items.tail else items).map Prepared.name)
    (items.map fun item => item.tag.statePath)

/-- The files of a batch are written. -/
structure Written (nodes : List Node) (s : System) (restartId : Nat) (before : Files)
    (all : List Prepared) : Prop where
  batch : Batch s restartId before all
  covers : Covers nodes s.snapshots restartId [] all
  names : (all.map Prepared.name).Nodup
  tags : ∀ item ∈ all, s.files.tags.lookup item.name = some item.tag
  states : ∀ item ∈ all, s.files.states.lookup item.tag.statePath = some item.checkpoint

/-- What a capture leaves: a tag and a checkpoint of its own for each working node, or the files as
they were. -/
def Captured (nodes : List Node) (s : System) (before : Files) : Option (List Prepared) → Prop
  | some all =>
    ∃ restartId, Covers nodes s.snapshots restartId [] all ∧
      (∀ item ∈ all, s.files.tags.lookup item.name = some item.tag ∧
        item.tag.node = item.checkpoint.node ∧
        s.files.states.lookup item.tag.statePath = some item.checkpoint) ∧
      (all.map Prepared.name).Nodup ∧ (all.map fun item => item.tag.statePath).Nodup
  | none =>
    (∀ name, s.files.tags.lookup name = before.tags.lookup name) ∧
      ∀ path, s.files.states.lookup path = before.states.lookup path

section
variable {nodes : List Node} {s : System} {restartId : Nat} {before : Files} {item : Prepared}
variable {items todo finished all : List Prepared} {phase : Phase}

variable (nodes) in
theorem captured_none_refl : Captured nodes s s.files none :=
  ⟨fun _ => rfl, fun _ => rfl⟩

theorem writing_start (batch : Batch s restartId s.files items)
    (covers : Covers nodes s.snapshots restartId [] items) (names : (items.map Prepared.name).Nodup) :
    Writing nodes (s.go s.files phase) restartId s.files items [] false where
  batch := { batch with }
  covers := covers
  names := names
  tags item mem := by cases mem
  states item mem := by cases mem
  current written := by cases written
  differ := Differ.refl _ _ _

theorem Writing.keptState
    (writing : Writing nodes s restartId before (item :: todo) finished false)
    (kept : Kept s.owner s.nextRestartId s.events s.files) :
    Kept s.owner s.nextRestartId s.events (s.files.setState item.tag.statePath item.checkpoint) := by
  have mem : item ∈ finished.reverse ++ item :: todo := by simp
  have of := writing.batch.prepared item mem
  refine kept.setState ?_ fun name tag found same => ?_
  · rw [of.path]
    exact writing.batch.drawn
  · have old := kept.tag name tag found
    rw [old.path, of.path] at same
    obtain ⟨sameId, rfl⟩ := StatePath.mk.inj same
    -- A tag of that name is one from before, whose id is another one.
    have notMem : item.name ∉ finished.map Prepared.name := by
      have names := writing.names
      rw [List.map_append, List.map_cons, List.map_reverse] at names
      grind [List.nodup_append]
    rw [writing.differ.tags _ notMem] at found
    have early := (writing.batch.kept.tag _ _ found).drawn
    omega

theorem Writing.writeState
    (writing : Writing nodes s restartId before (item :: todo) finished false) :
    Writing nodes (s.go (s.files.setState item.tag.statePath item.checkpoint) phase) restartId before
      (item :: todo) finished true where
  batch := { writing.batch with }
  covers := writing.covers
  names := writing.names
  tags := writing.tags
  states other mem := by
    change (s.files.setState _ _).states.lookup _ = _
    rw [lookup_setState]
    split_ifs with same
    · -- Two items with one path would have one name.
      have sameName := writing.batch.path_inj (by simp [mem]) (by simp) same
      have names := writing.names
      rw [List.map_append, List.map_cons, List.map_reverse] at names
      have inNames : item.name ∈ finished.map Prepared.name :=
        sameName ▸ List.mem_map.mpr ⟨other, mem, rfl⟩
      grind [List.nodup_append]
    · exact writing.states other mem
  current _ other isHead := by
    cases Option.mem_some_iff.mp isHead
    change (s.files.setState _ _).states.lookup _ = _
    rw [lookup_setState, if_pos rfl]
  differ := by
    refine (writing.differ.setState item.tag.statePath item.checkpoint).mono ?_ ?_ <;> simp

theorem Writing.keptTag (writing : Writing nodes s restartId before (item :: todo) finished true)
    (kept : Kept s.owner s.nextRestartId s.events s.files) :
    Kept s.owner s.nextRestartId s.events (s.files.setTag item.name item.tag) := by
  have mem : item ∈ finished.reverse ++ item :: todo := by simp
  have of := writing.batch.prepared item mem
  refine kept.setTag ?_
  constructor
  · rw [of.path, of.drawn]
  · exact of.named
  · rw [of.drawn]
    exact writing.batch.drawn
  · intro _
    refine ⟨item.checkpoint, writing.current rfl item rfl, ?_, of.checkpointNode⟩
    rw [of.checkpointId, of.drawn]
  · intro enqueued
    have early := writing.batch.kept.drawn _ enqueued
    exact absurd early (by simp [Event.restartId, of.drawn])
  · intro completed
    have early := writing.batch.kept.drawn _ completed
    exact absurd early (by simp [Event.restartId, of.drawn])

theorem append_cons_reverse {α : Type} (front : List α) (a : α) (back : List α) :
    front.reverse ++ a :: back = (a :: front).reverse ++ back := by
  rw [List.reverse_cons, List.append_assoc, List.singleton_append]

theorem Writing.writeTag (writing : Writing nodes s restartId before (item :: todo) finished true) :
    Writing nodes (s.go (s.files.setTag item.name item.tag) phase) restartId before todo
      (item :: finished) false where
  batch := by
    have batch := writing.batch
    rw [append_cons_reverse] at batch
    exact { batch with }
  covers := by
    have covers := writing.covers
    rw [append_cons_reverse] at covers
    exact covers
  names := by simpa using writing.names
  tags other mem := by
    change (s.files.setTag _ _).tags.lookup _ = _
    rw [lookup_setTag]
    rcases List.mem_cons.mp mem with rfl | earlier
    · rw [if_pos rfl]
    · rw [if_neg, writing.tags other earlier]
      intro same
      have names := writing.names
      rw [List.map_append, List.map_cons, List.map_reverse] at names
      have inNames : item.name ∈ finished.map Prepared.name :=
        same ▸ List.mem_map.mpr ⟨other, earlier, rfl⟩
      grind [List.nodup_append]
  states other mem := by
    rcases List.mem_cons.mp mem with rfl | earlier
    · exact writing.current rfl other rfl
    · exact writing.states other earlier
  current written := by cases written
  differ := by
    refine (writing.differ.setTag item.name item.tag).mono ?_ ?_
    · simp
    · intro path mem
      simp only [List.take_succ_cons, List.take_zero, List.map_append, List.map_cons, List.map_nil,
        List.mem_append, List.mem_cons, List.not_mem_nil, or_false] at mem ⊢
      tauto

theorem Writing.undo {stateWritten : Bool}
    (writing : Writing nodes s restartId before (item :: todo) finished stateWritten) :
    Undoing (s.go s.files phase) restartId before (item :: finished) false where
  batch := by
    have sub : item :: finished ⊆ finished.reverse ++ item :: todo := by
      intro other mem
      simp only [List.mem_append, List.mem_reverse, List.mem_cons] at mem ⊢
      tauto
    exact { writing.batch.mono sub with }
  names := by
    have names := writing.names
    rw [List.map_append, List.map_cons, List.map_reverse] at names
    rw [List.map_cons, List.nodup_cons]
    grind [List.nodup_append, List.nodup_reverse]
  differ := by
    refine writing.differ.mono ?_ ?_ <;> simp

theorem Writing.finish {stateWritten : Bool}
    (writing : Writing nodes s restartId before [] finished stateWritten) :
    Written nodes (s.go s.files phase) restartId before finished.reverse where
  batch := { writing.batch.mono (List.subset_append_left _ _) with }
  covers := by
    have covers := writing.covers
    rw [List.append_nil] at covers
    exact covers
  names := by simpa using writing.names
  tags item mem := writing.tags item (List.mem_reverse.mp mem)
  states item mem := writing.states item (List.mem_reverse.mp mem)

theorem Undoing.keptTag (undoing : Undoing s restartId before (item :: items) false)
    (kept : Kept s.owner s.nextRestartId s.events s.files) :
    Kept s.owner s.nextRestartId s.events
      (match item.previousTag with
        | some previous => s.files.setTag item.name previous
        | none => s.files.eraseTag item.name) := by
  have of := undoing.batch.prepared item List.mem_cons_self
  cases found : item.previousTag with
  | none => exact kept.eraseTag item.name
  | some previous =>
    have old := undoing.batch.kept.tag item.name previous (of.previous.symm.trans found)
    refine kept.setTag ((old.congr_states fun _ => ?_).mono (Nat.le_of_lt undoing.batch.drawn))
    refine undoing.differ.states _ fun mem => ?_
    -- The paths that are undone carry the id of this capture.
    obtain ⟨other, inItems, same⟩ := List.mem_map.mp mem
    rw [(undoing.batch.prepared other inItems).path, old.path] at same
    have sameId := (StatePath.mk.inj same).1
    have early := old.drawn
    omega

theorem Undoing.undoTag (undoing : Undoing s restartId before (item :: items) false) :
    Undoing (s.go (match item.previousTag with
        | some previous => s.files.setTag item.name previous
        | none => s.files.eraseTag item.name) phase) restartId before (item :: items) true where
  batch := { undoing.batch with }
  names := undoing.names
  differ := by
    rw [(undoing.batch.prepared item List.mem_cons_self).previous]
    exact undoing.differ.undoTag

theorem Undoing.keptState (undoing : Undoing s restartId before (item :: items) true)
    (kept : Kept s.owner s.nextRestartId s.events s.files) :
    Kept s.owner s.nextRestartId s.events (s.files.eraseState item.tag.statePath) := by
  have of := undoing.batch.prepared item List.mem_cons_self
  refine kept.eraseState fun name tag found same => ?_
  have old := kept.tag name tag found
  rw [old.path, of.path] at same
  obtain ⟨sameId, rfl⟩ := StatePath.mk.inj same
  rw [undoing.differ.tags _ (List.nodup_cons.mp undoing.names).1] at found
  have early := (undoing.batch.kept.tag _ _ found).drawn
  omega

theorem Undoing.undoState (undoing : Undoing s restartId before (item :: items) true) :
    Undoing (s.go (s.files.eraseState item.tag.statePath) phase) restartId before items false where
  batch := { undoing.batch.mono (List.subset_cons_self item items) with }
  names := (List.nodup_cons.mp undoing.names).2
  differ := undoing.differ.undoState (undoing.batch.absent List.mem_cons_self)

variable (nodes) in
theorem Undoing.captured {tagUndone : Bool} (undoing : Undoing s restartId before [] tagUndone) :
    Captured nodes (s.go s.files phase) before none := by
  have differ := undoing.differ
  constructor
  · intro name
    exact differ.tags name (by cases tagUndone <;> simp)
  · intro path
    exact differ.states path (by simp)

theorem Written.keptState (written : Written nodes s restartId before all)
    (kept : Kept s.owner s.nextRestartId s.events s.files) (mem : item ∈ all) {previous : Tag}
    (isPrevious : item.previousTag = some previous) :
    Kept s.owner s.nextRestartId s.events (s.files.eraseState previous.statePath) := by
  have of := written.batch.prepared item mem
  have old := written.batch.kept.tag item.name previous (of.previous.symm.trans isPrevious)
  refine kept.eraseState fun name tag found same => ?_
  have path := (kept.tag name tag found).path
  rw [path, old.path] at same
  obtain ⟨sameId, rfl⟩ := StatePath.mk.inj same
  cases (written.tags item mem).symm.trans found
  have early := old.drawn
  rw [of.drawn] at sameId
  omega

theorem Written.clean (written : Written nodes s restartId before all) (mem : item ∈ all) {previous : Tag}
    (isPrevious : item.previousTag = some previous) :
    Written nodes (s.go (s.files.eraseState previous.statePath) phase) restartId before all :=
  { batch := { written.batch with }
    covers := written.covers
    names := written.names
    tags := written.tags
    states := fun other inAll => by
      have of := written.batch.prepared item mem
      have old := written.batch.kept.tag item.name previous (of.previous.symm.trans isPrevious)
      change (s.files.eraseState _).states.lookup _ = _
      rw [lookup_eraseState, if_neg, written.states other inAll]
      intro same
      rw [(written.batch.prepared other inAll).path, old.path] at same
      have sameId := (StatePath.mk.inj same).1
      have early := old.drawn
      omega }

theorem Written.captured (written : Written nodes s restartId before all) :
    Captured nodes (s.go s.files phase) before (some all) := by
  refine ⟨restartId, written.covers, fun item mem => ?_, written.names, ?_⟩
  · exact ⟨written.tags item mem, (written.batch.prepared item mem).checkpointNode.symm,
      written.states item mem⟩
  · refine List.Nodup.map_on (fun item mem other mem' same => ?_) written.names.of_map
    exact List.inj_on_of_nodup_map written.names mem mem' (written.batch.path_inj mem mem' same)

end

end AgentPark.Restart
