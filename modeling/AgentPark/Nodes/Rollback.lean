import AgentPark.Groups.Steps
import AgentPark.Nodes.Rename

/-!
# A rename that fails

What a failed rename leaves behind when its rollback had no errors.
-/

namespace AgentPark.Nodes

open Lib AgentPark.Runtime

/-- What the claim of atomicity compares. -/
structure World.Same (w w' : World) : Prop where
  dirs : ∀ id, (w'.dirs id).map Directory.view = (w.dirs id).map Directory.view
  graph : w'.graph = w.graph
  runtime : ∀ id, (w.dirs id).isSome → w'.runtimeOf id = w.runtimeOf id
  cron : w'.cron = w.cron
  groups : w'.groups = w.groups

theorem World.Same.refl (w : World) : w.Same w where
  dirs := fun _ => rfl
  graph := rfl
  runtime := fun _ _ => rfl
  cron := rfl
  groups := rfl

/-- The memory of the directory belongs to the new id although it is the memory of the old one. -/
def Directory.BoundTo (d : Directory) (graphId new : String) : Prop :=
  ∃ memory, d.memory = some memory ∧ memory.identity = some (graphId, new, 1)

theorem configName_ne_memoryFolder : configName ≠ Directory.memoryFolder := by decide

theorem view_rebind_back {d bound d' back : Directory} {now : Rat} {graphId old new : String}
    (other : old ≠ new) (ran : d.rebind now graphId old new = .ok bound)
    (kept : ∀ name, name ≠ configName → d'.get name = bound.get name)
    (undone : d'.rebind now graphId new old = .ok back) :
    (∀ name, name ≠ configName → back.view name = d.view name) ↔ ¬ d.BoundTo graphId new := by
  have outside : ∀ name, name ≠ configName → name ≠ Directory.memoryFolder →
      back.view name = d.view name := by
    intro name notConfig notMemory
    unfold Directory.view
    rw [Directory.get_rebind undone notMemory, kept name notConfig, Directory.get_rebind ran notMemory]
  have same : d'.memory = bound.memory :=
    Directory.memory_congr (kept _ configName_ne_memoryFolder.symm)
  rcases Directory.memory_rebind ran with ⟨empty, rfl⟩ | ⟨memory, next, found, isNext, first⟩
  · -- without a memory nothing is bound
    constructor
    · intro _ ⟨memory, found, _⟩
      rw [empty] at found
      cases found
    · intro _ name notConfig
      rcases Directory.memory_rebind undone with ⟨_, rfl⟩ | ⟨memory, _, found, _⟩
      · unfold Directory.view
        rw [kept name notConfig]
      · rw [same, empty] at found
        cases found
  · rcases Directory.memory_rebind undone with ⟨empty, _⟩ | ⟨between, last, isBetween, isLast, second⟩
    · rw [same, isNext] at empty
      cases empty
    · have shown : d.view Directory.memoryFolder = some (.inr (some memory.identity)) :=
        Directory.view_memoryFolder found
      have shownBack : back.view Directory.memoryFolder =
          some (.inr (some (some (graphId, old, 1)))) := by
        rw [Directory.view_memoryFolder isLast, NodeMemory.identity_rebind second]
      constructor
      · intro all ⟨owned, isOwned, identity⟩
        rw [found] at isOwned
        cases isOwned
        have here := all _ configName_ne_memoryFolder.symm
        rw [shown, shownBack, identity] at here
        injection here with here
        injection here with here
        injection here with here
        injection here with here
        injection here with _ here
        injection here with here
        exact other here
      · intro free name notConfig
        by_cases isMemory : name = Directory.memoryFolder
        · subst isMemory
          rcases NodeMemory.identity_of_rebind first with taken | identity
          · exact absurd ⟨memory, found, taken⟩ free
          · rw [shown, shownBack, identity]
        · exact outside name notConfig isMemory

/-! ### The world between two steps -/

section Midway

variable (host : Host) (r : RenameRequest) (w : World) (start : Directory)

/-- The directory with its artifacts under their old names again. -/
def undoneArtifacts (artifacts : List (String × String)) (d : Directory) : Except Failure Directory :=
  artifacts.foldlM (fun d artifact => d.rename artifact.2 artifact.1) d

/-- The id that the directory or the runtime state of the node is under. -/
def place (moved : Bool) : String := if moved then r.new else r.old

/-- The directory of the node has changed in the names of its artifacts, in the owner of its memory,
and in its configuration. -/
structure Changed (rebound : Bool) (artifacts : List (String × String)) (d : Directory) : Prop where
  back : ∃ named bound, undoneArtifacts artifacts d = .ok named ∧
    (if rebound then start.rebind host.clock host.graphId r.old r.new = .ok bound else bound = start) ∧
    ∀ name, name ≠ configName → named.get name = bound.get name

/-- The world between two steps of the `try`. -/
structure Midway (p : Progress) : Prop where
  cron : p.world.cron = w.cron
  others : ∀ id, id ≠ r.old → id ≠ r.new → p.world.dirs id = w.dirs id
  vacant : r.old ≠ r.new → p.world.dirs (if p.moved then r.old else r.new) = none
  directory : ∃ d, p.world.dirs (place r p.moved) = some d ∧
    Changed host r start p.rebound p.artifacts d
  otherStates : ∀ id, id ≠ r.old → id ≠ r.new → p.world.runtime id = w.runtime id
  state : p.world.runtime (place r p.runtimeMoved) =
    some { w.runtimeOf r.old with deleteRequested := p.reserved }
  moved : p.moved = true → r.old ≠ r.new
  rebound : p.rebound = true → p.moved = true
  artifacts : p.moved = false → p.artifacts = []
  runtimeMoved : p.runtimeMoved = true → r.old ≠ r.new
  idle : (w.runtimeOf r.old).deleteRequested = false

variable {host r w start} {p : Progress} {nodeBefore : String} {w' : World}

/-! ### The rollback -/

variable {s t : World}

theorem undo_eq_ok {label : UndoStep} {f : World → Except Failure World}
    (ran : (host.undo label f).2 s = .ok t) : f s = .ok t := by
  unfold Host.undo at ran
  dsimp only at ran
  split at ran
  · cases ran
  · exact ran

variable {d : Directory}

theorem inDirectory_eq_ok {id : String} {f : Directory → Except Failure Directory}
    (there : s.dirs id = some d) :
    s.inDirectory id f = .ok t ↔
      ∃ d', f d = .ok d' ∧ t = { s with dirs := Function.update s.dirs id (some d') } := by
  unfold World.inDirectory
  rw [there]
  dsimp only
  rw [bind_eq_ok]
  constructor
  · rintro ⟨d', changed, ⟨⟩⟩
    exact ⟨d', changed, rfl⟩
  · rintro ⟨d', changed, rfl⟩
    exact ⟨d', changed, rfl⟩

theorem undo_artifacts {artifacts : List (String × String)} (there : s.dirs r.new = some d)
    (ran : undoInOrder (artifacts.map fun artifact => host.undo .artifact (undoArtifact r artifact)) s
      = .ok t) :
    ∃ named, undoneArtifacts artifacts d = .ok named ∧
      t = { s with dirs := Function.update s.dirs r.new (some named) } := by
  induction artifacts generalizing s d with
  | nil =>
    cases ran
    refine ⟨d, rfl, ?_⟩
    rw [← there, Function.update_eq_self]
  | cons artifact artifacts ih =>
    rw [List.map_cons, undoInOrder] at ran
    obtain ⟨middle, first, rest⟩ := bind_eq_ok.mp ran
    obtain ⟨d', renamed, rfl⟩ := (inDirectory_eq_ok there).mp (undo_eq_ok first)
    obtain ⟨named, others, rfl⟩ := ih (Function.update_self r.new (some d') s.dirs) rest
    refine ⟨named, ?_, ?_⟩
    · unfold undoneArtifacts at others ⊢
      rw [List.foldlM_cons]
      exact bind_eq_ok.mpr ⟨d', renamed, others⟩
    · rw [Function.update_idem]

/-- What a rollback without errors leaves, for the directory that it finds. -/
structure Restored (w : World) (r : RenameRequest) (p : Progress) (nodeBefore : String)
    (back : Directory) (w' : World) : Prop where
  cron : w'.cron = w.cron
  groups : w'.groups = p.world.groups
  graph : w'.graph = w.graph
  others : ∀ id, id ≠ r.old → w'.dirs id = w.dirs id
  directory : w'.dirs r.old = some (back.put configName (.file nodeBefore))
  states : ∀ id, id ≠ r.new ∨ id = r.old → w'.runtimeOf id = w.runtimeOf id

/-- The node under its old id again, with the reservation and the configurations still to restore. -/
structure Moved (host : Host) (r : RenameRequest) (w : World) (p : Progress) (back : Directory)
    (s : World) : Prop where
  cron : s.cron = w.cron
  groups : s.groups = p.world.groups
  graph : s.graph = p.world.graph
  others : ∀ id, id ≠ r.old → s.dirs id = w.dirs id
  directory : s.dirs r.old = some back
  otherStates : ∀ id, id ≠ r.old → id ≠ r.new → s.runtime id = w.runtime id
  state : s.runtime r.old = some { w.runtimeOf r.old with deleteRequested := p.reserved }

theorem undo_artifacts_midway (mid : Midway host r w start p)
    (ran : undoInOrder (p.artifacts.map fun artifact =>
      host.undo .artifact (undoArtifact r artifact)) p.world = .ok s) :
    ∃ d named, undoneArtifacts p.artifacts d = .ok named ∧
      Changed host r start p.rebound p.artifacts d ∧
      s = { p.world with
        dirs := Function.update p.world.dirs (place r p.moved) (some named) } := by
  obtain ⟨d, there, changed⟩ := mid.directory
  cases moved : p.moved with
  | true =>
    rw [moved] at there
    obtain ⟨named, back, rfl⟩ := undo_artifacts (r := r) there ran
    exact ⟨d, named, back, changed, rfl⟩
  | false =>
    rw [moved] at there
    rw [mid.artifacts moved] at ran ⊢
    cases ran
    refine ⟨d, d, rfl, ?_, ?_⟩
    · rw [← mid.artifacts moved]
      exact changed
    · rw [← there, Function.update_eq_self]

theorem renameDirectory_eq_ok {a b : String} (there : s.dirs a = some d) (free : s.dirs b = none) :
    s.renameDirectory a b = .ok t ↔
      t = { s with dirs := Function.update (Function.update s.dirs a none) b (some d) } := by
  unfold World.renameDirectory
  rw [there, free]
  constructor
  · rintro ⟨⟩
    rfl
  · rintro rfl
    rfl

theorem renameRuntime_of_some {a b : String} {state : RuntimeState} (other : a ≠ b)
    (there : s.runtime a = some state) :
    s.renameRuntime a b =
      { s with runtime := Function.update (Function.update s.runtime a none) b (some state) } := by
  unfold World.renameRuntime
  rw [if_neg other, there]

theorem undo_moves (mid : Midway host r w start p) (free : r.old ≠ r.new → w.dirs r.new = none)
    {named : Directory} {rest : List (UndoStep × (World → Except Failure World))}
    (isS : s = { p.world with dirs := Function.update p.world.dirs (place r p.moved) (some named) })
    (ran : undoInOrder (undoMoves host r p ++ rest) s = .ok t) :
    ∃ back middle, (if p.rebound then
        named.rebind host.clock host.graphId r.new r.old = .ok back else back = named) ∧
      Moved host r w p back middle ∧ undoInOrder rest middle = .ok t := by
  unfold undoMoves at ran
  rw [List.append_assoc, List.append_assoc] at ran
  obtain ⟨s₁, owner, afterOwner⟩ := undoInOrder_if ran
  obtain ⟨s₂, runtime, afterRuntime⟩ := undoInOrder_if afterOwner
  obtain ⟨s₃, directory, afterDirectory⟩ := undoInOrder_if afterRuntime
  -- the memory
  have bound : ∃ back, (if p.rebound then
      named.rebind host.clock host.graphId r.new r.old = .ok back else back = named) ∧
      s₁ = { p.world with
        dirs := Function.update p.world.dirs (place r p.moved) (some back) } := by
    by_cases isRebound : p.rebound = true
    · rw [if_pos isRebound] at owner
      have moved : place r p.moved = r.new := by
        unfold place
        rw [if_pos (mid.rebound isRebound)]
      have there : s.dirs r.new = some named := by
        rw [isS, moved]
        exact Function.update_self ..
      obtain ⟨back, ranBack, rfl⟩ := (inDirectory_eq_ok there).mp (undo_eq_ok owner)
      refine ⟨back, by rwa [if_pos isRebound], ?_⟩
      rw [isS, moved, Function.update_idem]
    · rw [if_neg isRebound] at owner
      exact ⟨named, by rw [if_neg isRebound], owner.trans isS⟩
  obtain ⟨back, isBack, rfl⟩ := bound
  -- the runtime state
  have states : ∃ states : String → Option RuntimeState,
      (∀ id, id ≠ r.old → id ≠ r.new → states id = w.runtime id) ∧
      states r.old = some { w.runtimeOf r.old with deleteRequested := p.reserved } ∧
      s₂ = { p.world with
        dirs := Function.update p.world.dirs (place r p.moved) (some back), runtime := states } := by
    by_cases isMoved : p.runtimeMoved = true
    · rw [if_pos isMoved] at runtime
      have other := mid.runtimeMoved isMoved
      have there := mid.state
      unfold place at there
      rw [if_pos isMoved] at there
      have result := undo_eq_ok runtime
      injection result with result
      rw [renameRuntime_of_some other.symm (by exact there)] at result
      refine ⟨_, ?_, ?_, result.symm⟩
      · intro id notOld notNew
        rw [Function.update_of_ne notOld, Function.update_of_ne notNew]
        exact mid.otherStates id notOld notNew
      · rw [Function.update_self]
    · rw [if_neg isMoved] at runtime
      have there := mid.state
      unfold place at there
      rw [if_neg isMoved] at there
      exact ⟨p.world.runtime, mid.otherStates, there, runtime⟩
  obtain ⟨states, otherStates, state, rfl⟩ := states
  -- the directory
  refine ⟨back, s₃, isBack, ?_, afterDirectory⟩
  by_cases isMoved : p.moved = true
  · rw [if_pos isMoved] at directory
    have other := mid.moved isMoved
    have vacant := mid.vacant other
    rw [if_pos isMoved] at vacant
    unfold place at directory
    rw [if_pos isMoved] at directory
    have gone : Function.update p.world.dirs r.new (some back) r.old = none := by
      rw [Function.update_of_ne other]
      exact vacant
    have result := (renameDirectory_eq_ok (Function.update_self ..) gone).mp (undo_eq_ok directory)
    subst result
    exact {
      cron := mid.cron
      groups := rfl
      graph := rfl
      others := by
        intro id notOld
        dsimp only
        rw [Function.update_of_ne notOld]
        by_cases isNew : id = r.new
        · rw [isNew, Function.update_self, free other]
        · rw [Function.update_of_ne isNew, Function.update_of_ne isNew]
          exact mid.others id notOld isNew
      directory := Function.update_self ..
      otherStates
      state }
  · rw [if_neg isMoved] at directory
    subst directory
    have isOld : place r p.moved = r.old := by
      unfold place
      rw [if_neg isMoved]
    exact {
      cron := mid.cron
      groups := rfl
      graph := rfl
      others := by
        intro id notOld
        dsimp only
        rw [isOld, Function.update_of_ne notOld]
        by_cases isNew : id = r.new
        · have other : r.old ≠ r.new := fun same => notOld (isNew.trans same.symm)
          have vacant := mid.vacant other
          rw [if_neg isMoved] at vacant
          rw [isNew, vacant, free other]
        · exact mid.others id notOld isNew
      directory := by
        dsimp only
        rw [isOld, Function.update_self]
      otherStates
      state }

theorem undo_graph {rest : List (UndoStep × (World → Except Failure World))}
    (isGraph : s.graph = p.world.graph)
    (ran : undoInOrder ((match w.graph with
      | some text => [host.undo .graph fun w => .ok { w with graph := some text }]
      | none =>
        if p.world.graph.isSome then [host.undo .absentGraph fun w => .ok { w with graph := none }]
        else []) ++ rest) s = .ok t) :
    undoInOrder rest { s with graph := w.graph } = .ok t := by
  cases before : w.graph with
  | some text =>
    rw [before, List.singleton_append, undoInOrder] at ran
    obtain ⟨middle, here, later⟩ := bind_eq_ok.mp ran
    cases undo_eq_ok here
    exact later
  | none =>
    rw [before] at ran
    obtain ⟨middle, here, later⟩ := undoInOrder_if ran
    by_cases written : p.world.graph.isSome = true
    · rw [if_pos written] at here
      cases undo_eq_ok here
      exact later
    · rw [if_neg written] at here
      subst here
      have isNone : middle.graph = none := by
        rw [isGraph]
        exact Option.not_isSome_iff_eq_none.mp written
      rw [← isNone]
      exact later

theorem unmarked_eq {state : RuntimeState} (idle : state.deleteRequested = false) :
    { state with deleteRequested := false } = state := by
  cases state
  cases idle
  rfl

theorem undo_rest {back : Directory} (moved : Moved host r w p back s)
    (idle : (w.runtimeOf r.old).deleteRequested = false)
    (ran : undoInOrder (undoFiles host r nodeBefore w.graph p ++ undoMarks host r p) s = .ok w') :
    Restored w r p nodeBefore back w' := by
  unfold undoFiles at ran
  rw [List.cons_append, undoInOrder] at ran
  obtain ⟨s₁, config, afterConfig⟩ := bind_eq_ok.mp ran
  have written : s₁ = s.writeFile r.old configName nodeBefore := by
    cases undo_eq_ok config
    rfl
  subst written
  have afterGraph := undo_graph (by exact moved.graph) afterConfig
  unfold undoMarks at afterGraph
  obtain ⟨s₂, reservation, afterMarks⟩ := undoInOrder_if afterGraph
  -- the schedule is no part of the world
  have last : w' = s₂ := by
    by_cases registered : p.unregistered = true
    · rw [if_pos registered, undoInOrder] at afterMarks
      obtain ⟨s₃, here, later⟩ := bind_eq_ok.mp afterMarks
      cases undo_eq_ok here
      cases later
      rfl
    · rw [if_neg registered] at afterMarks
      cases afterMarks
      rfl
  subst last
  have directory : (s.writeFile r.old configName nodeBefore).dirs =
      Function.update s.dirs r.old (some (back.put configName (.file nodeBefore))) := by
    unfold World.writeFile
    rw [moved.directory]
    rfl
  have state := moved.state
  by_cases reserved : p.reserved = true
  · rw [if_pos reserved] at reservation
    have result := undo_eq_ok reservation
    injection result with result
    have marked : w'.runtimeOf r.old = w.runtimeOf r.old ∧
        (∀ id, id ≠ r.old → w'.runtime id = s.runtime id) ∧
        w'.dirs = (s.writeFile r.old configName nodeBefore).dirs ∧ w'.graph = w.graph ∧
        w'.cron = s.cron ∧ w'.groups = s.groups := by
      rw [← result]
      have found : World.runtimeOf { (s.writeFile r.old configName nodeBefore) with
          graph := w.graph } r.old = { w.runtimeOf r.old with deleteRequested := true } := by
        unfold World.runtimeOf
        change (s.runtime r.old).getD {} = _
        rw [state, reserved]
        rfl
      unfold World.updateRuntime
      rw [found, if_neg]
      · refine ⟨?_, ?_, rfl, rfl, rfl, rfl⟩
        · unfold World.replaceRuntime World.runtimeOf
          dsimp only
          rw [Function.update_self, Option.getD_some]
          exact unmarked_eq idle
        · intro id notOld
          unfold World.replaceRuntime
          dsimp only
          rw [Function.update_of_ne notOld]
          rfl
      · intro same
        have := congrArg RuntimeState.deleteRequested same
        cases this
    obtain ⟨isOld, others, dirs, graph, cron, groups⟩ := marked
    exact {
      cron := cron.trans moved.cron
      groups := groups.trans moved.groups
      graph
      others := fun id notOld => by
        rw [dirs, directory, Function.update_of_ne notOld]
        exact moved.others id notOld
      directory := by rw [dirs, directory, Function.update_self]
      states := by
        intro id which
        by_cases isId : id = r.old
        · rw [isId]
          exact isOld
        · unfold World.runtimeOf
          rw [others id isId, moved.otherStates id isId (which.resolve_right isId)] }
  · rw [if_neg reserved] at reservation
    subst reservation
    rw [Bool.not_eq_true] at reserved
    exact {
      cron := moved.cron
      groups := moved.groups
      graph := rfl
      others := fun id notOld => by
        change (s.writeFile r.old configName nodeBefore).dirs id = _
        rw [directory, Function.update_of_ne notOld]
        exact moved.others id notOld
      directory := by
        change (s.writeFile r.old configName nodeBefore).dirs r.old = _
        rw [directory, Function.update_self]
      states := by
        intro id which
        unfold World.runtimeOf
        change (s.runtime id).getD {} = _
        by_cases isId : id = r.old
        · rw [isId, state, reserved, Option.getD_some]
          exact unmarked_eq idle
        · rw [moved.otherStates id isId (which.resolve_right isId)] }

/-- The operations of the `except` take such a world back. -/
theorem undo_midway (mid : Midway host r w start p) (free : r.old ≠ r.new → w.dirs r.new = none)
    (ran : undoInOrder (undoSteps host r nodeBefore w.graph p) p.world = .ok w') :
    ∃ bound named back,
      (if p.rebound then start.rebind host.clock host.graphId r.old r.new = .ok bound
        else bound = start) ∧
      (∀ name, name ≠ configName → named.get name = bound.get name) ∧
      (if p.rebound then named.rebind host.clock host.graphId r.new r.old = .ok back
        else back = named) ∧ Restored w r p nodeBefore back w' := by
  unfold undoSteps at ran
  rw [undoInOrder_append] at ran
  obtain ⟨s, artifacts, rest⟩ := bind_eq_ok.mp ran
  obtain ⟨d, named, isNamed, changed, isS⟩ := undo_artifacts_midway mid artifacts
  obtain ⟨named', bound, isNamed', isBound, kept⟩ := changed.back
  rw [isNamed] at isNamed'
  cases isNamed'
  obtain ⟨back, middle, isBack, moved, later⟩ := undo_moves mid free isS rest
  exact ⟨bound, named, back, isBound, kept, isBack, undo_rest moved mid.idle later⟩

/-! ### The steps of the body -/

variable (host r w start) in
/-- The world at a step that raises behind the reservation. -/
structure Undoable (s : RenameStep) (p : Progress) : Prop where
  midway : Midway host r w start p
  started : p.reserved = true ∨ p.unregistered = true
  rebound : p.rebound = true ↔ s.afterRebind = true ∧ r.old ≠ r.new
  groups : s ≠ .commitCron → p.world.groups = w.groups
  committed : s = .commitCron → r.old ≠ r.new ∧ (w.groups = none ∧ p.world.groups = none ∨
    ∃ db after, w.groups = some db ∧ Groups.nodeRename host.caller db r.old r.new = .ok after ∧
      p.world.groups = some after)

variable (host r w start) in
/-- A step raises: the reservation itself, or a step that can be undone. -/
def RaisedAt (e : RenameStep × Failure) (p : Progress) : Prop :=
  e.1 = .reserve ∧ p = { world := w } ∨ Undoable host r w start e.1 p

variable (host r w start) in
/-- Reserved, with nothing moved. -/
structure Early (p : Progress) : Prop where
  midway : Midway host r w start p
  reserved : p.reserved = true
  moved : p.moved = false
  rebound : p.rebound = false
  runtimeMoved : p.runtimeMoved = false
  groups : p.world.groups = w.groups
  directory : p.world.dirs r.old = some start

variable (host r w start) in
/-- Everything that has to move has moved. -/
structure Settled (p : Progress) : Prop where
  midway : Midway host r w start p
  unregistered : p.unregistered = true
  moved : p.moved = true ↔ r.old ≠ r.new
  rebound : p.rebound = true ↔ r.old ≠ r.new
  runtimeMoved : p.runtimeMoved = true ↔ r.old ≠ r.new
  groups : p.world.groups = w.groups

/-- The rule for one step that the host may fail. -/
theorem wp_step {α : Type} {s : RenameStep} {f : Progress → Except Failure (α × Progress)}
    {Q : α → Progress → Prop} {E : RenameStep × Failure → Progress → Prop}
    (raised : ∀ failure, E (s, failure) p)
    (returned : ∀ a p', f p = .ok (a, p') → Q a p') : (host.step s f).wp Q E p := by
  unfold Host.step
  apply Raising.wp_attempt
  · intro e failed
    split at failed
    · cases failed
      exact raised _
    · split at failed
      · cases failed
        exact raised _
      · cases failed
  · intro a p' ran
    split at ran
    · cases ran
    · split at ran
      · cases ran
      · rename_i next isNext
        cases ran
        exact returned a p' isNext

theorem Early.undoable (early : Early host r w start p) {s : RenameStep}
    (before : s.afterRebind = false) : Undoable host r w start s p where
  midway := early.midway
  started := .inl early.reserved
  rebound := by
    rw [early.rebound, before]
    exact ⟨nofun, fun both => nomatch both.1⟩
  groups := fun _ => early.groups
  committed := by
    rintro rfl
    cases before

theorem Settled.undoable (settled : Settled host r w start p) {s : RenameStep}
    (later : s.afterRebind = true) (notLast : s ≠ .commitCron) : Undoable host r w start s p where
  midway := settled.midway
  started := .inr settled.unregistered
  rebound := by
    rw [settled.rebound, later]
    exact ⟨fun other => ⟨rfl, other⟩, fun both => both.2⟩
  groups := fun _ => settled.groups
  committed := fun last => absurd last notLast

theorem Settled.place_eq (settled : Settled host r w start p) : place r p.moved = r.new := by
  unfold place
  split_ifs with moved
  · rfl
  · exact not_not.mp fun other => moved (settled.moved.mpr other)

theorem Settled.place_runtime (settled : Settled host r w start p) :
    place r p.runtimeMoved = r.new := by
  unfold place
  split_ifs with moved
  · rfl
  · exact not_not.mp fun other => moved (settled.runtimeMoved.mpr other)

theorem wp_settled {α : Type} {s : RenameStep} {f : Progress → Except Failure (α × Progress)}
    {Q : α → Progress → Prop} (settled : Settled host r w start p) (later : s.afterRebind = true)
    (notLast : s ≠ .commitCron) (returned : ∀ a p', f p = .ok (a, p') → Q a p') :
    (host.step s f).wp Q (RaisedAt host r w start) p :=
  wp_step (fun _ => .inr (settled.undoable later notLast)) returned

variable {u : Unit} {p' : Progress}

theorem early_reserve (there : w.dirs r.old = some start)
    (free : r.old ≠ r.new → w.dirs r.new = none) (ran : reserve r { world := w } = .ok (u, p')) :
    Early host r w start p' := by
  unfold reserve at ran
  dsimp only at ran
  split_ifs at ran with busy
  cases ran
  rw [not_or, Bool.not_eq_true] at busy
  have idle := busy.1
  have marked : w.updateRuntime r.old (fun state => { state with deleteRequested := true }) =
      w.replaceRuntime r.old { w.runtimeOf r.old with deleteRequested := true } := by
    unfold World.updateRuntime
    rw [if_neg]
    intro same
    have := congrArg RuntimeState.deleteRequested same
    rw [idle] at this
    cases this
  refine ⟨?_, rfl, rfl, rfl, rfl, by rw [marked]; rfl, by rw [marked]; exact there⟩
  rw [marked]
  exact {
    cron := rfl
    others := fun _ _ _ => rfl
    vacant := free
    directory := ⟨start, there, start, start, rfl, rfl, fun _ _ => rfl⟩
    otherStates := fun id notOld _ => Function.update_of_ne notOld _ _
    state := Function.update_self ..
    moved := nofun
    rebound := nofun
    artifacts := fun _ => rfl
    runtimeMoved := nofun
    idle }

theorem wp_moveBody (early : Early host r w start p) (unregistered : p.unregistered = true)
    (other : r.old ≠ r.new) :
    (moveBody host r).wp (fun _ p' => Settled host r w start p' ∧ p'.artifacts = [])
      (RaisedAt host r w start) p := by
  unfold moveBody
  have mid := early.midway
  have free := mid.artifacts early.moved
  have vacant := mid.vacant other
  rw [early.moved] at vacant
  apply Raising.wp_bind.mpr
  apply wp_step fun _ => .inr (early.undoable rfl)
  -- the directory has moved
  intro _ p₁ ran₁
  unfold moveDirectory at ran₁
  obtain ⟨w₁, isW₁, rest₁⟩ := bind_eq_ok.mp ran₁
  cases (renameDirectory_eq_ok early.directory vacant).mp isW₁
  cases rest₁
  have others : ∀ id, id ≠ r.old → id ≠ r.new →
      Function.update (Function.update p.world.dirs r.old none) r.new (some start) id = w.dirs id := by
    intro id notOld notNew
    rw [Function.update_of_ne notNew, Function.update_of_ne notOld]
    exact mid.others id notOld notNew
  have left :
      Function.update (Function.update p.world.dirs r.old none) r.new (some start) r.old = none := by
    rw [Function.update_of_ne other, Function.update_self]
  apply Raising.wp_bind.mpr
  apply wp_step
  · intro _
    exact .inr {
      midway := {
        cron := mid.cron
        others
        vacant := fun _ => left
        directory := by
          refine ⟨start, Function.update_self .., ?_⟩
          dsimp only
          rw [early.rebound, free]
          exact ⟨start, start, rfl, rfl, fun _ _ => rfl⟩
        otherStates := mid.otherStates
        state := mid.state
        moved := fun _ => other
        rebound := fun _ => rfl
        artifacts := nofun
        runtimeMoved := mid.runtimeMoved
        idle := mid.idle }
      started := .inr unregistered
      rebound := by
        dsimp only
        rw [early.rebound]
        exact ⟨nofun, fun both => nomatch both.1⟩
      groups := fun _ => early.groups
      committed := nofun }
  -- the memory belongs to the new id
  intro _ p₂ ran₂
  unfold rebindMemory at ran₂
  obtain ⟨w₂, isW₂, rest₂⟩ := bind_eq_ok.mp ran₂
  obtain ⟨bound, isBound, rfl⟩ := (inDirectory_eq_ok (Function.update_self ..)).mp isW₂
  cases rest₂
  have others₂ : ∀ id, id ≠ r.old → id ≠ r.new →
      Function.update (Function.update (Function.update p.world.dirs r.old none) r.new (some start))
        r.new (some bound) id = w.dirs id := by
    intro id notOld notNew
    rw [Function.update_of_ne notNew]
    exact others id notOld notNew
  have changed : Changed host r start true p.artifacts bound := by
    rw [free]
    exact ⟨bound, bound, rfl, isBound, fun _ _ => rfl⟩
  have left₂ :
      Function.update (Function.update (Function.update p.world.dirs r.old none) r.new (some start))
        r.new (some bound) r.old = none := by
    rw [Function.update_of_ne other]
    exact left
  apply wp_step
  · intro _
    exact .inr {
      midway := {
        cron := mid.cron
        others := others₂
        vacant := fun _ => left₂
        directory := ⟨bound, Function.update_self .., changed⟩
        otherStates := mid.otherStates
        state := mid.state
        moved := fun _ => other
        rebound := fun _ => rfl
        artifacts := nofun
        runtimeMoved := mid.runtimeMoved
        idle := mid.idle }
      started := .inr unregistered
      rebound := ⟨fun _ => ⟨rfl, other⟩, fun _ => rfl⟩
      groups := fun _ => early.groups
      committed := nofun }
  -- the runtime state is under the new id
  intro _ p₃ ran₃
  unfold moveRuntime at ran₃
  have state := mid.state
  rw [early.runtimeMoved] at state
  rw [renameRuntime_of_some other (by exact state)] at ran₃
  cases ran₃
  refine ⟨?_, free⟩
  exact {
    midway := {
      cron := mid.cron
      others := others₂
      vacant := fun _ => left₂
      directory := ⟨bound, Function.update_self .., changed⟩
      otherStates := by
        intro id notOld notNew
        dsimp only
        rw [Function.update_of_ne notNew, Function.update_of_ne notOld]
        exact mid.otherStates id notOld notNew
      state := Function.update_self ..
      moved := fun _ => other
      rebound := fun _ => rfl
      artifacts := nofun
      runtimeMoved := fun _ => other
      idle := mid.idle }
    unregistered
    moved := ⟨fun _ => other, fun _ => rfl⟩
    rebound := ⟨fun _ => other, fun _ => rfl⟩
    runtimeMoved := ⟨fun _ => other, fun _ => rfl⟩
    groups := early.groups }

theorem Settled.inDirectory (settled : Settled host r w start p)
    {artifacts : List (String × String)} (changed : Changed host r start p.rebound artifacts d)
    (unmoved : p.moved = false → artifacts = []) :
    Settled host r w start { p with
      world := { p.world with dirs := Function.update p.world.dirs r.new (some d) }
      artifacts } where
  midway := {
    cron := settled.midway.cron
    others := by
      intro id notOld notNew
      dsimp only
      rw [Function.update_of_ne notNew]
      exact settled.midway.others id notOld notNew
    vacant := by
      intro other
      have vacant := settled.midway.vacant other
      rw [settled.moved.mpr other] at vacant ⊢
      exact (Function.update_of_ne other _ _).trans vacant
    directory := by
      refine ⟨d, ?_, changed⟩
      dsimp only
      rw [settled.place_eq, Function.update_self]
    otherStates := settled.midway.otherStates
    state := settled.midway.state
    moved := settled.midway.moved
    rebound := settled.midway.rebound
    artifacts := unmoved
    runtimeMoved := settled.midway.runtimeMoved
    idle := settled.midway.idle }
  unregistered := settled.unregistered
  moved := settled.moved
  rebound := settled.rebound
  runtimeMoved := settled.runtimeMoved
  groups := settled.groups

theorem Settled.withState (settled : Settled host r w start p) {reserved : Bool}
    {runtime : String → Option RuntimeState}
    (isState : runtime r.new = some { w.runtimeOf r.old with deleteRequested := reserved })
    (others : ∀ id, id ≠ r.new → runtime id = p.world.runtime id) :
    Settled host r w start { p with world := { p.world with runtime }, reserved } where
  midway := {
    cron := settled.midway.cron
    others := settled.midway.others
    vacant := settled.midway.vacant
    directory := settled.midway.directory
    otherStates := fun id notOld notNew =>
      (others id notNew).trans (settled.midway.otherStates id notOld notNew)
    state := by
      dsimp only
      rw [settled.place_runtime]
      exact isState
    moved := settled.midway.moved
    rebound := settled.midway.rebound
    artifacts := settled.midway.artifacts
    runtimeMoved := settled.midway.runtimeMoved
    idle := settled.midway.idle }
  unregistered := settled.unregistered
  moved := settled.moved
  rebound := settled.rebound
  runtimeMoved := settled.runtimeMoved
  groups := settled.groups

theorem Settled.state (settled : Settled host r w start p) :
    p.world.runtime r.new = some { w.runtimeOf r.old with deleteRequested := p.reserved } := by
  have state := settled.midway.state
  rwa [settled.place_runtime] at state

theorem Settled.directory (settled : Settled host r w start p) :
    ∃ d, p.world.dirs r.new = some d ∧ Changed host r start p.rebound p.artifacts d := by
  have directory := settled.midway.directory
  rwa [settled.place_eq] at directory

theorem Settled.writeFile (settled : Settled host r w start p) (fresh : p.artifacts = [])
    (text : String) :
    Settled host r w start { p with world := p.world.writeFile r.new configName text } := by
  obtain ⟨d, there, changed⟩ := settled.directory
  rw [fresh] at changed
  obtain ⟨named, bound, isNamed, isBound, kept⟩ := changed.back
  cases isNamed
  have written : Changed host r start p.rebound [] (d.put configName (.file text)) := by
    refine ⟨_, bound, rfl, isBound, ?_⟩
    intro name other
    rw [Directory.get_put, if_neg other]
    exact kept name other
  have settled' := settled.inDirectory written fun _ => rfl
  rw [← fresh] at settled'
  unfold World.writeFile
  rw [there]
  exact settled'

theorem wp_configBody (settled : Settled host r w start p) (fresh : p.artifacts = []) :
    (configBody host r).wp (fun _ p' => Settled host r w start p' ∧ p'.artifacts = [])
      (RaisedAt host r w start) p := by
  unfold configBody
  apply Raising.wp_bind.mpr
  refine wp_settled settled (by rfl) (by nofun) ?_
  intro read p₁ ran₁
  obtain ⟨config, -, rest₁⟩ := bind_eq_ok.mp ran₁
  cases rest₁
  apply Raising.wp_bind.mpr
  refine wp_settled settled (by rfl) (by nofun) ?_
  intro _ p₂ ran₂
  obtain ⟨current, -, rest₂⟩ := bind_eq_ok.mp ran₂
  have next : Settled host r w start p₂ ∧ p₂.artifacts = [] ∧
      p₂.world.runtimeOf r.new = p.world.runtimeOf r.new := by
    dsimp only at rest₂
    split_ifs at rest₂
    · cases rest₂
      exact ⟨settled, fresh, rfl⟩
    · cases rest₂
      exact ⟨settled.writeFile fresh _, fresh, rfl⟩
  obtain ⟨settled₂, fresh₂, same⟩ := next
  refine wp_settled settled₂ (by rfl) (by nofun) ?_
  intro _ p₃ ran₃
  cases ran₃
  refine ⟨?_, fresh₂⟩
  have isState : p.world.runtimeOf r.new =
      { w.runtimeOf r.old with deleteRequested := p₂.reserved } := by
    rw [← same]
    unfold World.runtimeOf
    rw [settled₂.state, Option.getD_some]
    rfl
  apply settled₂.withState
  · rw [Function.update_self, isState]
  · intro id other
    rw [Function.update_of_ne other]

theorem settled_renameArtifact (settled : Settled host r w start p) (other : r.old ≠ r.new)
    {filename : String} (ran : renameArtifact r filename p = .ok (u, p')) :
    Settled host r w start p' := by
  unfold renameArtifact at ran
  split at ran
  · cases ran
    exact settled
  · rename_i destination _
    split_ifs at ran with taken
    obtain ⟨next, isNext, rest⟩ := bind_eq_ok.mp ran
    obtain ⟨d, there, changed⟩ := settled.directory
    obtain ⟨d', renamed, rfl⟩ := (inDirectory_eq_ok there).mp isNext
    cases rest
    rw [there] at taken
    have free : destination ∉ d.names := by
      intro mem
      obtain ⟨entry, inRows, isName⟩ := List.mem_map.mp mem
      apply taken
      have found : d.get destination = some entry.2 := by
        unfold Directory.get
        rw [← isName]
        exact lookup_of_mem d.distinct inRows
      exact Option.isSome_iff_exists.mpr ⟨entry.2, found⟩
    obtain ⟨named, bound, isNamed, isBound, kept⟩ := changed.back
    apply settled.inDirectory
    · refine ⟨named, bound, ?_, isBound, kept⟩
      unfold undoneArtifacts at isNamed ⊢
      rw [List.foldlM_cons]
      exact bind_eq_ok.mpr ⟨d, Directory.rename_back free renamed, isNamed⟩
    · intro unmoved
      rw [settled.moved.mpr other] at unmoved
      cases unmoved

theorem wp_artifactsBody (settled : Settled host r w start p) (other : r.old ≠ r.new) :
    (artifactsBody host r).wp (fun _ => Settled host r w start) (RaisedAt host r w start) p := by
  unfold artifactsBody
  apply Raising.wp_bind.mpr
  refine wp_settled settled (by rfl) (by nofun) ?_
  intro names p₁ ran₁
  have same : p₁ = p := by
    unfold listArtifacts at ran₁
    split at ran₁
    · cases ran₁
    · cases ran₁
      rfl
  subst same
  apply Raising.wp_forM
  · intro name _ p₂ settled₂
    refine wp_settled settled₂ (by rfl) (by nofun) ?_
    intro _ p₃ ran₃
    exact settled_renameArtifact settled₂ other ran₃
  · exact settled

theorem wp_graphBody (settled : Settled host r w start p) :
    (graphBody host r).wp (fun _ => Settled host r w start) (RaisedAt host r w start) p := by
  unfold graphBody
  apply Raising.wp_bind.mpr
  refine wp_settled settled (by rfl) (by nofun) ?_
  intro text p₁ ran₁
  obtain ⟨_, -, rest⟩ := bind_eq_ok.mp ran₁
  cases rest
  cases text with
  | none => exact settled
  | some text =>
    refine wp_settled settled (by rfl) (by nofun) ?_
    intro _ p₂ ran₂
    cases ran₂
    exact {
      midway := {
        cron := settled.midway.cron
        others := settled.midway.others
        vacant := settled.midway.vacant
        directory := settled.midway.directory
        otherStates := settled.midway.otherStates
        state := settled.midway.state
        moved := settled.midway.moved
        rebound := settled.midway.rebound
        artifacts := settled.midway.artifacts
        runtimeMoved := settled.midway.runtimeMoved
        idle := settled.midway.idle }
      unregistered := settled.unregistered
      moved := settled.moved
      rebound := settled.rebound
      runtimeMoved := settled.runtimeMoved
      groups := settled.groups }

theorem settled_release (settled : Settled host r w start p) (ran : release r p = .ok (u, p')) :
    Settled host r w start p' := by
  cases ran
  have found : p.world.runtimeOf r.new =
      { w.runtimeOf r.old with deleteRequested := p.reserved } := by
    unfold World.runtimeOf
    rw [settled.state, Option.getD_some]
    rfl
  unfold World.updateRuntime
  split_ifs with same
  · have unmarked : p.world.runtime r.new =
        some { w.runtimeOf r.old with deleteRequested := false } := by
      rw [settled.state]
      rw [found] at same
      exact congrArg some same.symm
    exact settled.withState unmarked fun id _ => rfl
  · apply settled.withState
    · rw [Function.update_self, found]
    · intro id other
      rw [Function.update_of_ne other]

variable {cron : Option Cron.CronDatabase}

theorem openCron_eq_ok (ran : openCron r p = .ok (cron, p')) :
    p' = p ∧ (cron.isSome → r.old ≠ r.new) := by
  unfold openCron at ran
  split at ran
  · cases ran
    exact ⟨rfl, nofun⟩
  · split_ifs at ran with same
    · cases ran
      exact ⟨rfl, nofun⟩
    · obtain ⟨db, -, rest⟩ := bind_eq_ok.mp ran
      cases rest
      exact ⟨rfl, fun _ => same⟩

/-- The transaction that is open holds the renamed rows. -/
def OpenGroups (host : Host) (r : RenameRequest) (w : World) :
    Option Groups.GroupStore → Prop
  | none => w.groups = none ∨ r.old = r.new
  | some after => ∃ db, w.groups = some db ∧
      Groups.nodeRename host.caller db r.old r.new = .ok after

variable {groups : Option Groups.GroupStore}

theorem openGroups_eq_ok (ran : openGroups host r p = .ok (groups, p')) :
    p' = p ∧ OpenGroups host r p.world groups := by
  unfold openGroups at ran
  split at ran
  · rename_i absent
    cases ran
    exact ⟨rfl, .inl absent⟩
  · rename_i db found
    split_ifs at ran with same
    · cases ran
      exact ⟨rfl, .inr same⟩
    · split at ran
      · cases ran
      · rename_i after renamed
        cases ran
        exact ⟨rfl, db, found, renamed⟩

theorem wp_closeCron
    (settled : Settled host r w start { p with world := { p.world with groups := w.groups } })
    (isCron : cron.isSome → r.old ≠ r.new) (isGroups : OpenGroups host r w groups)
    (now : p.world.groups = groups.or w.groups) :
    (closeCron host cron).wp (fun _ _ => True) (RaisedAt host r w start) p := by
  cases cron with
  | none => exact trivial
  | some db =>
    have other := isCron rfl
    unfold closeCron
    apply wp_step
    · intro _
      refine .inr {
        midway := {
          cron := settled.midway.cron
          others := settled.midway.others
          vacant := settled.midway.vacant
          directory := settled.midway.directory
          otherStates := settled.midway.otherStates
          state := settled.midway.state
          moved := settled.midway.moved
          rebound := settled.midway.rebound
          artifacts := settled.midway.artifacts
          runtimeMoved := settled.midway.runtimeMoved
          idle := settled.midway.idle }
        started := .inr settled.unregistered
        rebound := ⟨fun rebound => ⟨rfl, settled.rebound.mp rebound⟩,
          fun both => settled.rebound.mpr both.2⟩
        groups := fun notLast => absurd rfl notLast
        committed := fun _ => ⟨other, ?_⟩ }
      cases groups with
      | none =>
        have absent := isGroups.resolve_right other
        exact .inl ⟨absent, now.trans absent⟩
      | some after =>
        obtain ⟨before, found, renamed⟩ := isGroups
        exact .inr ⟨before, after, found, renamed, now⟩
    · intro _ _ _
      exact trivial

theorem wp_close (settled : Settled host r w start p) (isCron : cron.isSome → r.old ≠ r.new)
    (isGroups : OpenGroups host r w groups) :
    (closeGroups host groups >>= fun _ => closeCron host cron).wp (fun _ _ => True)
      (RaisedAt host r w start) p := by
  apply Raising.wp_bind.mpr
  cases groups with
  | none =>
    apply wp_closeCron _ isCron isGroups settled.groups
    rw [← settled.groups]
    exact settled
  | some after =>
    unfold closeGroups
    refine wp_settled settled (by rfl) (by nofun) ?_
    intro _ p' ran
    cases ran
    apply wp_closeCron _ isCron isGroups rfl
    have back := settled.groups
    rw [← back]
    exact settled

theorem wp_whenNew {body : Raising (RenameStep × Failure) Progress Unit}
    {Q : Unit → Progress → Prop} {E : RenameStep × Failure → Progress → Prop}
    (new : r.old ≠ r.new → body.wp Q E p) (same : r.old = r.new → Q () p) :
    (whenNew r body).wp Q E p := by
  unfold whenNew
  split_ifs with other
  · exact new other
  · exact same (not_not.mp other)

/-- Every step of the body leaves the world `Midway`, so it can fail anywhere. -/
theorem wp_renameBody (there : w.dirs r.old = some start)
    (free : r.old ≠ r.new → w.dirs r.new = none) :
    (renameBody host r).wp (fun _ _ => True) (RaisedAt host r w start) { world := w } := by
  unfold renameBody
  apply Raising.wp_bind.mpr
  apply wp_step fun _ => .inl ⟨rfl, rfl⟩
  intro _ p₁ ran₁
  have early : Early host r w start p₁ := early_reserve there free ran₁
  apply Raising.wp_bind.mpr
  apply wp_step fun _ => .inr (early.undoable rfl)
  intro _ p₂ ran₂
  have same₂ : p₂ = p₁ := by
    unfold requireNoActiveExecution at ran₂
    split_ifs at ran₂
    cases ran₂
    rfl
  subst same₂
  apply Raising.wp_bind.mpr
  apply wp_step fun _ => .inr (early.undoable rfl)
  intro _ p₃ ran₃
  have unregistered : p₃.unregistered = true := by
    cases ran₃
    rfl
  have early₃ : Early host r w start p₃ := by
    cases ran₃
    exact {
      midway := {
        cron := early.midway.cron
        others := early.midway.others
        vacant := early.midway.vacant
        directory := early.midway.directory
        otherStates := early.midway.otherStates
        state := early.midway.state
        moved := early.midway.moved
        rebound := early.midway.rebound
        artifacts := early.midway.artifacts
        runtimeMoved := early.midway.runtimeMoved
        idle := early.midway.idle }
      reserved := early.reserved
      moved := early.moved
      rebound := early.rebound
      runtimeMoved := early.runtimeMoved
      groups := early.groups
      directory := early.directory }
  apply Raising.wp_bind.mpr
  apply wp_step fun _ => .inr (early₃.undoable rfl)
  intro cron p₄ ran₄
  obtain ⟨rfl, isCron⟩ := openCron_eq_ok ran₄
  apply Raising.wp_bind.mpr
  apply wp_step fun _ => .inr (early₃.undoable rfl)
  intro groups p₅ ran₅
  obtain ⟨rfl, isGroups⟩ := openGroups_eq_ok ran₅
  have opened : OpenGroups host r w groups := by
    cases groups with
    | none => exact isGroups.imp_left fun absent => early₃.groups.symm.trans absent
    | some after =>
      obtain ⟨db, found, renamed⟩ := isGroups
      exact ⟨db, early₃.groups.symm.trans found, renamed⟩
  apply Raising.wp_bind.mpr
  have moves : (whenNew r (moveBody host r)).wp
      (fun _ p' => Settled host r w start p' ∧ p'.artifacts = []) (RaisedAt host r w start) p₅ := by
    apply wp_whenNew
    · exact wp_moveBody early₃ unregistered
    · intro same
      refine ⟨?_, early₃.midway.artifacts early₃.moved⟩
      exact {
        midway := early₃.midway
        unregistered
        moved := by
          rw [early₃.moved]
          exact ⟨nofun, fun now => absurd same now⟩
        rebound := by
          rw [early₃.rebound]
          exact ⟨nofun, fun now => absurd same now⟩
        runtimeMoved := by
          rw [early₃.runtimeMoved]
          exact ⟨nofun, fun now => absurd same now⟩
        groups := early₃.groups }
  refine Raising.wp_mono moves ?_ fun _ _ raised => raised
  intro _ p₆ settled₆
  apply Raising.wp_bind.mpr
  refine Raising.wp_mono (wp_configBody settled₆.1 settled₆.2) ?_ fun _ _ raised => raised
  intro _ p₇ settled₇
  apply Raising.wp_bind.mpr
  have artifacts : (whenNew r (artifactsBody host r)).wp (fun _ => Settled host r w start)
      (RaisedAt host r w start) p₇ :=
    wp_whenNew (wp_artifactsBody settled₇.1) fun _ => settled₇.1
  refine Raising.wp_mono artifacts ?_ fun _ _ raised => raised
  intro _ p₈ settled₈
  apply Raising.wp_bind.mpr
  refine Raising.wp_mono (wp_graphBody settled₈) ?_ fun _ _ raised => raised
  intro _ p₉ settled₉
  apply Raising.wp_bind.mpr
  refine wp_settled settled₉ (by rfl) (by nofun) ?_
  intro _ p₁₀ ran₁₀
  exact wp_close (settled_release settled₉ ran₁₀) isCron opened

end Midway

/-! ### The rows of the groups -/

section Rows

open Groups

variable {db after : GroupStore} {old new now : String}

/-- A row of the group store names the node. -/
def NamesNode (db : GroupStore) (old new : String) : Prop :=
  (∃ group ∈ db.groups, group.renameIds old new ≠ group) ∨
    (∃ row ∈ db.members, row.rename old new ≠ row) ∨
    (∃ event ∈ db.events, event.rename old new ≠ event) ∨
    (∃ delivery ∈ db.deliveries, delivery.rename old new ≠ delivery) ∨
    ∃ request ∈ db.requests, request.rename old new ≠ request

theorem map_eq_self_iff {α : Type} {f : α → α} {rows : List α} :
    rows.map f = rows ↔ ¬ ∃ row ∈ rows, f row ≠ row := by
  conv_lhs => rw [← List.map_id rows, List.map_map]
  rw [List.map_inj_left]
  simp only [Function.comp_apply, id, not_exists, not_and, ne_eq, not_not]

theorem rename_group_eq_self (group : AgentGroup) :
    group.rename old new now = group ↔ group.renameIds old new = group := by
  unfold AgentGroup.rename
  constructor
  · intro same
    by_contra changed
    rw [if_neg changed] at same
    have revision := congrArg AgentGroup.revision same
    unfold AgentGroup.bump AgentGroup.renameIds at revision
    dsimp only at revision
    omega
  · intro same
    rw [if_pos same]

theorem rename_eq_self (renamed : db.rename old new now = .ok after) :
    (after.groups = db.groups ∧ after.members = db.members ∧ after.events = db.events ∧
      after.deliveries = db.deliveries ∧ after.requests = db.requests) ↔ ¬ NamesNode db old new := by
  obtain ⟨groups, members, events, deliveries, requests, -⟩ := rename_eq_ok renamed
  rw [groups, members, events, deliveries, requests, map_eq_self_iff, map_eq_self_iff,
    map_eq_self_iff, map_eq_self_iff, map_eq_self_iff]
  simp only [rename_group_eq_self, ne_eq]
  unfold NamesNode
  simp only [not_or, ne_eq]

theorem store_ext {db db' : GroupStore} (groups : db.groups = db'.groups)
    (members : db.members = db'.members) (events : db.events = db'.events)
    (nextSeq : db.nextSeq = db'.nextSeq) (deliveries : db.deliveries = db'.deliveries)
    (requests : db.requests = db'.requests) : db = db' := by
  cases db
  cases db'
  cases groups
  cases members
  cases events
  cases nextSeq
  cases deliveries
  cases requests
  rfl

theorem nodeRename_eq_self {c : Caller} (other : old ≠ new)
    (renamed : nodeRename c db old new = .ok after) : after = db ↔ ¬ NamesNode db old new := by
  rw [nodeRename, if_neg other] at renamed
  obtain ⟨-, renamed⟩ := require_bind_eq_ok.mp renamed
  obtain ⟨mid, isMid, rest⟩ := bind_eq_ok.mp renamed
  have rows := rename_eq_self isMid
  obtain ⟨-, -, events, -, -, nextSeq⟩ := rename_eq_ok isMid
  injection rest with rest
  constructor
  · intro same
    apply rows.mp
    rcases reportRename_cases c db mid old new with silent | ⟨group, payload, told⟩
    · have isDb : mid = db := by rw [← silent, rest, same]
      rw [isDb]
      exact ⟨rfl, rfl, rfl, rfl, rfl⟩
    · -- the report would be a new event
      have more : (mid.event c group .memberRenamed none payload [] false).events = db.events := by
        rw [← told, rest, same]
      have length := congrArg List.length more
      rw [GroupStore.event_events, events, List.length_append, List.length_map] at length
      have one : ([mid.newEvent c group .memberRenamed none payload] : List Event).length = 1 := rfl
      omega
  · intro absent
    obtain ⟨sameGroups, sameMembers, sameEvents, sameDeliveries, sameRequests⟩ := rows.mpr absent
    have isDb : mid = db :=
      store_ext sameGroups sameMembers sameEvents nextSeq sameDeliveries sameRequests
    rw [← rest, isDb, GroupStore.reportRename]
    split
    · rfl
    · rename_i group found
      rw [if_pos]
      by_contra changed
      apply absent
      obtain ⟨groupId, -, isRow⟩ := Option.bind_eq_some_iff.mp found
      exact .inl ⟨group, List.mem_of_find?_eq_some isRow, changed⟩

end Rows

/-! ### The operation -/

section Operation

variable {host : Host} {w w' : World} {r : RenameRequest} {start : Directory} {nodeBefore : String}
  {refusal : Refusal}

/-- The failing steps behind which something is left: the commit of the schedules, when the groups
have been rewritten, and a step behind the binding of a memory that was bound to the new id. -/
def LeavesTrace (host : Host) (w : World) (r : RenameRequest) (step : Option RenameStep) : Prop :=
  (step = some .commitCron ∧ ∃ db, w.groups = some db ∧ NamesNode db r.old r.new) ∨
    (step.any RenameStep.afterRebind = true ∧ r.old ≠ r.new ∧
      ∃ d, w.dirs r.old = some d ∧ d.BoundTo host.graphId r.new)

variable {p : Progress}

theorem Restored.same_iff {back : Directory} (restored : Restored w r p nodeBefore back w')
    (there : w.dirs r.old = some start) (config : start.get configName = some (.file nodeBefore))
    (free : r.old ≠ r.new → w.dirs r.new = none) :
    w.Same w' ↔ p.world.groups = w.groups ∧
      ∀ name, name ≠ configName → back.view name = start.view name := by
  have shown : (back.put configName (.file nodeBefore)).view = start.view ↔
      ∀ name, name ≠ configName → back.view name = start.view name := by
    constructor
    · intro same name other
      rw [← same]
      unfold Directory.view
      rw [Directory.get_put, if_neg other]
    · intro same
      funext name
      unfold Directory.view
      rw [Directory.get_put]
      split_ifs with isConfig
      · rw [isConfig, config]
      · exact same name isConfig
  constructor
  · intro same
    refine ⟨restored.groups.symm.trans same.groups, shown.mp ?_⟩
    have here := same.dirs r.old
    rw [restored.directory, there] at here
    exact Option.some.inj here
  · rintro ⟨groups, views⟩
    exact {
      dirs := by
        intro id
        by_cases isOld : id = r.old
        · rw [isOld, restored.directory, there]
          exact congrArg some (shown.mpr views)
        · rw [restored.others id isOld]
      graph := restored.graph
      runtime := by
        intro id isNode
        apply restored.states
        by_cases isOld : id = r.old
        · exact .inr isOld
        · left
          rintro rfl
          by_cases other : r.old = r.new
          · exact isOld other.symm
          · rw [free other] at isNode
            cases isNode
      cron := restored.cron
      groups := restored.groups.trans groups }

theorem Undoable.views_iff {s : RenameStep} {bound named back : Directory}
    (undoable : Undoable host r w start s p) (there : w.dirs r.old = some start)
    (isBound : if p.rebound then start.rebind host.clock host.graphId r.old r.new = .ok bound
      else bound = start) (kept : ∀ name, name ≠ configName → named.get name = bound.get name)
    (isBack : if p.rebound then named.rebind host.clock host.graphId r.new r.old = .ok back
      else back = named) :
    (∀ name, name ≠ configName → back.view name = start.view name) ↔
      ¬ (s.afterRebind = true ∧ r.old ≠ r.new ∧
        ∃ d, w.dirs r.old = some d ∧ d.BoundTo host.graphId r.new) := by
  by_cases rebound : p.rebound = true
  · rw [if_pos rebound] at isBound isBack
    obtain ⟨later, other⟩ := undoable.rebound.mp rebound
    rw [view_rebind_back other isBound kept isBack, not_iff_not]
    constructor
    · intro taken
      exact ⟨later, other, start, there, taken⟩
    · rintro ⟨-, -, d, isD, taken⟩
      rw [there] at isD
      cases isD
      exact taken
  · rw [if_neg rebound] at isBound isBack
    subst isBound isBack
    constructor
    · rintro - ⟨later, other, -⟩
      exact rebound (undoable.rebound.mpr ⟨later, other⟩)
    · intro _ name other
      unfold Directory.view
      rw [kept name other]

theorem Undoable.groups_iff {s : RenameStep} (undoable : Undoable host r w start s p) :
    p.world.groups = w.groups ↔
      ¬ (s = .commitCron ∧ ∃ db, w.groups = some db ∧ NamesNode db r.old r.new) := by
  by_cases last : s = .commitCron
  · obtain ⟨other, ⟨absent, isNone⟩ | ⟨db, after, found, renamed, isAfter⟩⟩ :=
      undoable.committed last
    · rw [absent, isNone]
      constructor
      · rintro - ⟨-, db, found, -⟩
        cases found
      · exact fun _ => rfl
    · rw [found, isAfter, Option.some.injEq, nodeRename_eq_self other renamed, not_iff_not]
      constructor
      · intro names
        exact ⟨last, db, rfl, names⟩
      · rintro ⟨-, db', isDb', names⟩
        cases isDb'
        exact names
  · constructor
    · rintro - ⟨isLast, -⟩
      exact last isLast
    · exact fun _ => undoable.groups last

theorem renameOrUndo_same_iff (there : w.dirs r.old = some start)
    (config : start.get configName = some (.file nodeBefore))
    (free : r.old ≠ r.new → w.dirs r.new = none)
    (refused : renameOrUndo host r nodeBefore w.graph w = (.error refusal, w'))
    (undone : refusal.rollbackErrors = []) :
    w.Same w' ↔ ¬ LeavesTrace host w r refusal.step := by
  unfold renameOrUndo at refused
  cases ran : renameBody host r { world := w } with
  | mk result p =>
    rw [ran] at refused
    cases result with
    | ok _ => cases refused
    | error e =>
      obtain ⟨s, failure⟩ := e
      dsimp only at refused
      rcases Raising.wp_error (wp_renameBody there free) ran with ⟨isReserve, rfl⟩ | undoable
      · -- nothing has happened yet
        cases refused
        have : s = .reserve := isReserve
        subst this
        constructor
        · rintro - (⟨absurd, -⟩ | ⟨absurd, -⟩)
          · cases absurd
          · cases absurd
        · exact fun _ => World.Same.refl w
      · have started : (!p.reserved && !p.unregistered) = false := by
          rcases undoable.started with reserved | unregistered
          · rw [reserved]
            rfl
          · rw [unregistered, Bool.not_true, Bool.and_false]
        rw [started, if_neg Bool.false_ne_true] at refused
        injection refused with isRefusal isWorld
        injection isRefusal with isRefusal
        have step : refusal.step = some s := by rw [← isRefusal]
        have clean : (undoAll (undoSteps host r nodeBefore w.graph p) p.world).1 = [] := by
          rw [← isRefusal] at undone
          exact undone
        have inOrder := undoAll_clean clean
        rw [isWorld] at inOrder
        obtain ⟨bound, named, back, isBound, kept, isBack, restored⟩ :=
          undo_midway undoable.midway free inOrder
        rw [restored.same_iff there config free, undoable.groups_iff,
          undoable.views_iff there isBound kept isBack, step]
        unfold LeavesTrace
        rw [not_or, Option.some.injEq]
        exact Iff.rfl

/-- A rename that fails and rolls back without errors leaves everything as before, except when the
commit of the schedules fails behind the commit of rewritten groups, or when a step fails behind
the binding of a memory that was bound to the new id. -/
theorem rename_atomic_iff (host : Host) (w w' : World) (nodeId : String) (payload : Json)
    (refusal : Refusal) (refused : renameNodeInstance host w nodeId payload = (.error refusal, w'))
    (undone : refusal.rollbackErrors = []) :
    w.Same w' ↔ ∀ r, readRequest nodeId payload = .ok r → ¬ LeavesTrace host w r refusal.step := by
  unfold renameNodeInstance at refused
  have untouched : w' = w → refusal.step = none →
      (w.Same w' ↔ ∀ r, readRequest nodeId payload = .ok r → ¬ LeavesTrace host w r refusal.step) := by
    intro same noStep
    rw [same, noStep]
    constructor
    · rintro - r - (⟨absurd, -⟩ | ⟨absurd, -⟩)
      · cases absurd
      · cases absurd
    · exact fun _ => World.Same.refl w
  split at refused
  · rename_i early isEarly
    cases refused
    rw [isEarly]
    exact ⟨fun _ => nofun, fun _ => World.Same.refl _⟩
  · rename_i r isRequest
    split at refused
    · cases refused
      exact untouched rfl rfl
    · rename_i d entry found
      split at refused
      · cases refused
        exact untouched rfl rfl
      · rename_i free
        split at refused
        · rename_i config nodeBefore isConfig
          split at refused
          · cases refused
            exact untouched rfl rfl
          · obtain ⟨start, there, isEntry⟩ := Option.bind_eq_some_iff.mp found
            obtain ⟨entry', isFile, same⟩ := Option.map_eq_some_iff.mp isEntry
            cases same
            have vacant : r.old ≠ r.new → w.dirs r.new = none := by
              intro other
              by_contra occupied
              exact free ⟨other.symm, Option.isSome_iff_ne_none.mpr occupied⟩
            cases ended : renameOrUndo host r nodeBefore w.graph w with
            | mk result world =>
              rw [ended] at refused
              cases result with
              | ok _ => cases refused
              | error e =>
                cases refused
                rw [renameOrUndo_same_iff there isFile vacant ended undone, isRequest]
                constructor
                · rintro clean r' ⟨⟩
                  exact clean
                · exact fun clean => clean r rfl
        · cases refused
          exact untouched rfl rfl
        · cases refused
          exact untouched rfl rfl

end Operation

/-! ### A commit that fails -/

def team : Groups.CreateGroup where
  name := "team"
  members := [{ nodeId := "a" }]
  bounds := ⟨0, 0, 1, 1, Groups.unit_pos, Groups.unit_pos⟩
  nonempty := List.cons_ne_nil _ _
  unique := by decide

/-- A node in a group of its own, in a graph with an empty database of schedules. -/
def member : World where
  dirs := fun id =>
    if id = "a" then some { entries := [("config.json", .file "\x7b\"schemaVersion\": 1\x7d")] } else none
  graph := none
  runtime := fun _ => none
  cron := some {}
  groups := ((Groups.GroupCommand.create team false "g").run {} .empty).toOption

/-- The commit of the schedules fails. -/
def lostCommit : Host where
  graphId := "default"
  repr := fun _ => ""
  dumps := fun _ =>
    "\x7b\n  \"schemaVersion\": 1,\n  \"node_id\": \"c\",\n  \"graph_id\": \"default\",\n  \"name\": \"c\"\n\x7d\n"
  parsePortIndex := fun _ => none
  configPath := fun id => "graphs/default/" ++ id ++ "/config.json"
  fault := fun step =>
    if step = .commitCron then some (.other "OperationalError" "disk I/O error") else none

/-- The request that renames the node to `c`. -/
def toC : Json := .obj [("new_node_id", .str "c")]

theorem member_renamed :
    ∃ refusal w', renameNodeInstance lostCommit member "a" toC = (.error refusal, w') ∧
      refusal.rollbackErrors = [] ∧
        w'.groups.map Groups.GroupStore.members ≠ member.groups.map Groups.GroupStore.members := by
  have fails : (match renameNodeInstance lostCommit member "a" toC with
      | (.error refusal, w') => decide (refusal.rollbackErrors = [] ∧
          w'.groups.map Groups.GroupStore.members ≠ member.groups.map Groups.GroupStore.members)
      | _ => false) = true := by
    decide +kernel
  split at fails
  · rename_i refusal w' ended
    exact ⟨refusal, w', ended, of_decide_eq_true fails⟩
  · cases fails

/-- The group stays renamed when the commit of the schedules fails. -/
theorem rename_not_atomic :
    ∃ refusal w', renameNodeInstance lostCommit member "a" toC = (.error refusal, w') ∧
      refusal.rollbackErrors = [] ∧ ¬ member.Same w' := by
  obtain ⟨refusal, w', ended, undone, differ⟩ := member_renamed
  exact ⟨refusal, w', ended, undone, fun same => differ (by rw [same.groups])⟩

/-- The condition decides whether this rename leaves a trace. -/
theorem rename_atomic_iff_member :
    ∃ refusal w', renameNodeInstance lostCommit member "a" toC = (.error refusal, w') ∧
      (member.Same w' ↔ ∀ r, readRequest "a" toC = .ok r →
        ¬ LeavesTrace lostCommit member r refusal.step) := by
  obtain ⟨refusal, w', ended, undone, -⟩ := member_renamed
  exact ⟨refusal, w', ended,
    rename_atomic_iff lostCommit member w' "a" toC refusal ended undone⟩

end AgentPark.Nodes
