import AgentPark.Restart.Model

/-!
# What the restart directory says

A tag that is not completed names a checkpoint of its own node, and the ids in the directory are ids
that have been drawn.  What has been enqueued and completed can be read off the tags: a checkpoint
that this process has enqueued is not claimed by it again, and one that is completed stays so.
-/

namespace AgentPark.Restart

open Lib

/-! ### Files -/

section
variable (files : Files) (name other : String) (path path' : StatePath)

theorem lookup_setTag (tag : Tag) : (files.setTag name tag).tags.lookup other =
    if other = name then some tag else files.tags.lookup other :=
  lookup_dictSet files.tags name other tag

theorem lookup_eraseTag : (files.eraseTag name).tags.lookup other =
    if other = name then none else files.tags.lookup other :=
  lookup_dictErase files.tags name other

theorem lookup_setState (checkpoint : Checkpoint) : (files.setState path checkpoint).states.lookup path' =
    if path' = path then some checkpoint else files.states.lookup path' :=
  lookup_dictSet files.states path path' checkpoint

theorem lookup_eraseState : (files.eraseState path).states.lookup path' =
    if path' = path then none else files.states.lookup path' :=
  lookup_dictErase files.states path path'

end

/-! ### Events -/

def Event.restartId : Event → Nat
  | .enqueued _ restartId _ => restartId
  | .completed restartId _ => restartId

/-- `later` may come after `earlier`. -/
def Event.Follows (later earlier : Event) : Prop :=
  match later with
  | .enqueued owner restartId node =>
    earlier ≠ .enqueued owner restartId node ∧ earlier ≠ .completed restartId node
  | .completed _ _ => True

/-- No owner enqueues a checkpoint twice, and none enqueues one that is completed. -/
def Proper (events : List Event) : Prop := events.Pairwise Event.Follows

theorem Proper.enqueue {events : List Event} (proper : Proper events) {owner restartId : Nat}
    {node : Node} (new : Event.enqueued owner restartId node ∉ events)
    (open_ : Event.completed restartId node ∉ events) :
    Proper (.enqueued owner restartId node :: events) := by
  refine List.pairwise_cons.mpr ⟨fun event mem => ?_, proper⟩
  constructor
  · intro same
    exact new (same ▸ mem)
  · intro same
    exact open_ (same ▸ mem)

theorem Proper.complete {events : List Event} (proper : Proper events) (restartId : Nat) (node : Node) :
    Proper (.completed restartId node :: events) :=
  List.pairwise_cons.mpr ⟨fun _ _ => trivial, proper⟩

/-! ### Tags -/

/-- The tag of the file `name` agrees with the checkpoints `states` and with what has happened. -/
structure TagKept (owner next : Nat) (events : List Event) (states : List (StatePath × Checkpoint))
    (name : String) (tag : Tag) : Prop where
  path : tag.statePath = { restartId := tag.restartId, name }
  named : tagName tag.node = some name
  drawn : tag.restartId < next
  checkpoint : tag.status ≠ .completed → ∃ checkpoint, states.lookup tag.statePath = some checkpoint ∧
    checkpoint.restartId = tag.restartId ∧ checkpoint.node = tag.node
  enqueued : Event.enqueued owner tag.restartId tag.node ∈ events →
    tag.status = .claimed owner ∨ tag.status = .completed
  completed : Event.completed tag.restartId tag.node ∈ events → tag.status = .completed

/-- Every tag is kept. -/
structure Kept (owner next : Nat) (events : List Event) (files : Files) : Prop where
  keys : (files.tags.map Prod.fst).Nodup
  tag : ∀ name tag, files.tags.lookup name = some tag → TagKept owner next events files.states name tag
  paths : ∀ path checkpoint, files.states.lookup path = some checkpoint → path.restartId < next
  drawn : ∀ event ∈ events, event.restartId < next
  owners : ∀ other restartId node, Event.enqueued other restartId node ∈ events → other ≤ owner

section
variable {owner next : Nat} {events : List Event} {files : Files}

theorem kept_start : Kept 0 0 [] {} where
  keys := List.nodup_nil
  tag _ _ found := by cases found
  paths _ _ found := by cases found
  drawn _ mem := by cases mem
  owners _ _ _ mem := by cases mem

theorem TagKept.mono {states : List (StatePath × Checkpoint)} {name : String} {tag : Tag} {later : Nat}
    (kept : TagKept owner next events states name tag) (le : next ≤ later) :
    TagKept owner later events states name tag :=
  { kept with drawn := Nat.lt_of_lt_of_le kept.drawn le }

theorem Kept.mono {later : Nat} (kept : Kept owner next events files) (le : next ≤ later) :
    Kept owner later events files where
  keys := kept.keys
  tag name tag found := (kept.tag name tag found).mono le
  paths path checkpoint found := Nat.lt_of_lt_of_le (kept.paths path checkpoint found) le
  drawn event mem := Nat.lt_of_lt_of_le (kept.drawn event mem) le
  owners := kept.owners

theorem TagKept.congr_states {states others : List (StatePath × Checkpoint)} {name : String} {tag : Tag}
    (kept : TagKept owner next events states name tag)
    (same : tag.status ≠ .completed → others.lookup tag.statePath = states.lookup tag.statePath) :
    TagKept owner next events others name tag :=
  { kept with
    checkpoint := fun open_ => by
      rw [same open_]
      exact kept.checkpoint open_ }

/-- Writing a tag. -/
theorem Kept.setTag (kept : Kept owner next events files) {name : String} {tag : Tag}
    (new : TagKept owner next events files.states name tag) :
    Kept owner next events (files.setTag name tag) where
  keys := nodup_dictSet kept.keys name tag
  tag other tag' found := by
    rw [lookup_setTag] at found
    split_ifs at found with same
    · cases found
      subst same
      exact new
    · exact kept.tag other tag' found
  paths := kept.paths
  drawn := kept.drawn
  owners := kept.owners

/-- Removing a tag. -/
theorem Kept.eraseTag (kept : Kept owner next events files) (name : String) :
    Kept owner next events (files.eraseTag name) where
  keys := nodup_dictErase kept.keys name
  tag other tag found := by
    rw [lookup_eraseTag] at found
    split_ifs at found with same
    exact kept.tag other tag found
  paths := kept.paths
  drawn := kept.drawn
  owners := kept.owners

/-- Writing a checkpoint. -/
theorem Kept.setState (kept : Kept owner next events files) {path : StatePath} {checkpoint : Checkpoint}
    (isDrawn : path.restartId < next)
    (own : ∀ name tag, files.tags.lookup name = some tag → tag.statePath = path →
      checkpoint.restartId = tag.restartId ∧ checkpoint.node = tag.node) :
    Kept owner next events (files.setState path checkpoint) where
  keys := kept.keys
  tag name tag found := by
    have old := kept.tag name tag found
    refine { old with checkpoint := fun open_ => ?_ }
    rw [lookup_setState]
    split_ifs with same
    · exact ⟨checkpoint, rfl, own name tag found same⟩
    · exact old.checkpoint open_
  paths other found isFound := by
    rw [lookup_setState] at isFound
    split_ifs at isFound with same
    · rw [same]
      exact isDrawn
    · exact kept.paths other found isFound
  drawn := kept.drawn
  owners := kept.owners

/-- Removing a checkpoint. -/
theorem Kept.eraseState (kept : Kept owner next events files) {path : StatePath}
    (free : ∀ name tag, files.tags.lookup name = some tag → tag.statePath = path →
      tag.status = .completed) :
    Kept owner next events (files.eraseState path) where
  keys := kept.keys
  tag name tag found := by
    refine (kept.tag name tag found).congr_states fun open_ => ?_
    rw [lookup_eraseState, if_neg]
    intro same
    exact open_ (free name tag found same)
  paths other found isFound := by
    rw [lookup_eraseState] at isFound
    split_ifs at isFound with same
    exact kept.paths other found isFound
  drawn := kept.drawn
  owners := kept.owners

theorem Kept.name_of_path (kept : Kept owner next events files) {name other : String} {tag tag' : Tag}
    (found : files.tags.lookup name = some tag) (found' : files.tags.lookup other = some tag')
    (same : tag.statePath = tag'.statePath) : name = other := by
  rw [(kept.tag name tag found).path, (kept.tag other tag' found').path] at same
  exact (StatePath.mk.inj same).2

theorem Kept.eraseState_completed (kept : Kept owner next events files) {name : String} {tag : Tag}
    (found : files.tags.lookup name = some tag) (completed : tag.status = .completed) :
    Kept owner next events (files.eraseState tag.statePath) := by
  refine kept.eraseState fun other tag' found' same => ?_
  have name_eq := kept.name_of_path found' found same
  subst name_eq
  cases found.symm.trans found'
  exact completed

/-- The items of a tag are put back. -/
theorem Kept.enqueue (kept : Kept owner next events files) {restartId : Nat} {node : Node}
    (isDrawn : restartId < next)
    (claimed : ∀ name tag, files.tags.lookup name = some tag → tag.node = node →
      tag.restartId = restartId → tag.status = .claimed owner) :
    Kept owner next (.enqueued owner restartId node :: events) files where
  keys := kept.keys
  tag name tag found := by
    have old := kept.tag name tag found
    refine { old with enqueued := fun mem => ?_, completed := fun mem => ?_ }
    · rcases List.mem_cons.mp mem with same | earlier
      · injection same with _ sameId sameNode
        exact .inl (claimed name tag found sameNode sameId)
      · exact old.enqueued earlier
    · rcases List.mem_cons.mp mem with same | earlier
      · cases same
      · exact old.completed earlier
  paths := kept.paths
  drawn := List.forall_mem_cons.mpr ⟨isDrawn, kept.drawn⟩
  owners other restartId node mem := by
    rcases List.mem_cons.mp mem with same | earlier
    · injection same with sameOwner _ _
      exact Nat.le_of_eq sameOwner
    · exact kept.owners other restartId node earlier

/-- A recovery is completed. -/
theorem Kept.complete (kept : Kept owner next events files) {restartId : Nat} {node : Node}
    (isDrawn : restartId < next)
    (completed : ∀ name tag, files.tags.lookup name = some tag → tag.node = node →
      tag.restartId = restartId → tag.status = .completed) :
    Kept owner next (.completed restartId node :: events) files where
  keys := kept.keys
  tag name tag found := by
    have old := kept.tag name tag found
    refine { old with enqueued := fun mem => ?_, completed := fun mem => ?_ }
    · rcases List.mem_cons.mp mem with same | earlier
      · cases same
      · exact old.enqueued earlier
    · rcases List.mem_cons.mp mem with same | earlier
      · injection same with sameId sameNode
        exact completed name tag found sameNode sameId
      · exact old.completed earlier
  paths := kept.paths
  drawn := List.forall_mem_cons.mpr ⟨isDrawn, kept.drawn⟩
  owners other restartId' node' mem := by
    rcases List.mem_cons.mp mem with same | earlier
    · cases same
    · exact kept.owners other restartId' node' earlier

theorem Kept.sublist {fewer : List Event} (kept : Kept owner next events files)
    (sub : fewer.Sublist events) : Kept owner next fewer files where
  keys := kept.keys
  tag name tag found :=
    { kept.tag name tag found with
      enqueued := fun mem => (kept.tag name tag found).enqueued (sub.subset mem)
      completed := fun mem => (kept.tag name tag found).completed (sub.subset mem) }
  paths := kept.paths
  drawn event mem := kept.drawn event (sub.subset mem)
  owners other restartId node mem := kept.owners other restartId node (sub.subset mem)

theorem Kept.crash (kept : Kept owner next events files) : Kept (owner + 1) next events files where
  keys := kept.keys
  tag name tag found :=
    { kept.tag name tag found with
      enqueued := fun mem => by
        have early := kept.owners _ _ _ mem
        omega }
  paths := kept.paths
  drawn := kept.drawn
  owners other restartId node mem := Nat.le_succ_of_le (kept.owners other restartId node mem)

end

/-! ### Where two directories differ -/

/-- `files` are as `before`, but for the tags of the names and the checkpoints of the paths. -/
structure Differ (before files : Files) (names : List String) (paths : List StatePath) : Prop where
  tags : ∀ name ∉ names, files.tags.lookup name = before.tags.lookup name
  states : ∀ path ∉ paths, files.states.lookup path = before.states.lookup path

section
variable {before files : Files} {names : List String} {paths : List StatePath}

theorem Differ.refl (files : Files) (names : List String) (paths : List StatePath) :
    Differ files files names paths :=
  ⟨fun _ _ => rfl, fun _ _ => rfl⟩

theorem Differ.mono (differ : Differ before files names paths) {names' : List String}
    {paths' : List StatePath} (le : names ⊆ names') (le' : paths ⊆ paths') :
    Differ before files names' paths' :=
  ⟨fun name notMem => differ.tags name fun mem => notMem (le mem),
    fun path notMem => differ.states path fun mem => notMem (le' mem)⟩

theorem Differ.setTag (differ : Differ before files names paths) (name : String) (tag : Tag) :
    Differ before (files.setTag name tag) (name :: names) paths where
  tags other notMem := by
    rw [List.mem_cons, not_or] at notMem
    rw [lookup_setTag, if_neg notMem.1]
    exact differ.tags other notMem.2
  states := differ.states

theorem Differ.setState (differ : Differ before files names paths) (path : StatePath)
    (checkpoint : Checkpoint) : Differ before (files.setState path checkpoint) names (path :: paths) where
  tags := differ.tags
  states other notMem := by
    rw [List.mem_cons, not_or] at notMem
    rw [lookup_setState, if_neg notMem.1]
    exact differ.states other notMem.2

theorem Differ.undoTag {name : String} (differ : Differ before files (name :: names) paths) :
    Differ before
      (match before.tags.lookup name with
        | some tag => files.setTag name tag
        | none => files.eraseTag name) names paths := by
  cases found : before.tags.lookup name with
  | some tag =>
    refine ⟨fun other notMem => ?_, differ.states⟩
    change (files.setTag name tag).tags.lookup other = _
    rw [lookup_setTag]
    split_ifs with same
    · rw [same, found]
    · exact differ.tags other (by simp [same, notMem])
  | none =>
    refine ⟨fun other notMem => ?_, differ.states⟩
    change (files.eraseTag name).tags.lookup other = _
    rw [lookup_eraseTag]
    split_ifs with same
    · rw [same, found]
    · exact differ.tags other (by simp [same, notMem])

theorem Differ.undoState {path : StatePath} (differ : Differ before files names (path :: paths))
    (absent : before.states.lookup path = none) :
    Differ before (files.eraseState path) names paths where
  tags := differ.tags
  states other notMem := by
    rw [lookup_eraseState]
    split_ifs with same
    · rw [same, absent]
    · exact differ.states other (by simp [same, notMem])

end

end AgentPark.Restart
