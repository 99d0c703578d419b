import AgentPark.Lib.Dict
import AgentPark.Lib.FileTree
import AgentPark.Patching.Hunks

/-!
# Applying a patch to the files

`apply_patch` runs the operations against a state of its own first, and commits that state afterwards:
it removes what is gone and then writes what is there, one file after the other.
-/

namespace AgentPark.Patching

open Lib

/-- What the program finds around it.  `fault` is where the operation on a path is made to fail,
`report` the making of the summary and of the diff artifact (`_snapshot_changed_files`,
`write_patch_diff_artifact`), which writes outside the tree. -/
structure Environment (β : Type) where
  resolve : Text → Except String Path
  repr : Text → String
  decode : β → Except String Text
  encode : Text → Except String β
  report : Except String Unit
  fault : Path → Option Nat
  osError : String

/-- The contents of the changed files; `none` is a file that is gone. -/
abbrev State := List (Path × Option Text)

section
variable {β : Type} (env : Environment β)

/-! ### The simulation -/

def resolvePath (filePath : Text) : Except String Path :=
  if strip filePath = [] then .error "Patch file path must be a non-empty string."
  else env.resolve (strip filePath)

def pathText (path : Path) : Text :=
  if path = [] then ['/'] else path.flatMap fun name => '/' :: name.toList

def fileExistsInState (tree : FileTree β) (path : Path) (state : State) : Bool :=
  match state.lookup path with
  | some value => value.isSome
  | none => (tree path).isSome

/-- `_load_text_from_state`; `none` when there is no file. -/
def loadTextFromState (tree : FileTree β) (path : Path) (state : State) : Except String (Option Text) :=
  match state.lookup path with
  | some value => .ok value
  | none =>
    match tree.content path with
    | none => .ok none
    | some content => (env.decode content).map some

/-- A turn of the loop of `_simulate_operations`. -/
def simulateOperation (tree : FileTree β) (state : State) : Operation → Except String State
  | .add path lines => do
    let source ← resolvePath env path
    if fileExistsInState tree source state then
      .error ("Add File target already exists: " ++ String.ofList (pathText source))
    else return dictSet state source (some (linesToText lines true))
  | .delete path => do
    let source ← resolvePath env path
    match ← loadTextFromState env tree source state with
    | none => .error ("Delete File target does not exist: " ++ String.ofList (pathText source))
    | some _ => return dictSet state source none
  | .update path moveTo hunks => do
    let source ← resolvePath env path
    match ← loadTextFromState env tree source state with
    | none => .error ("Update File target does not exist: " ++ String.ofList (pathText source))
    | some text =>
      if hunks = [] ∧ moveTo = none then
        .error ("Update File " ++ env.repr (pathText source) ++
          " must contain at least one hunk or Move to directive.")
      else do
        let newText ← if hunks = [] then .ok text else applyHunks env.repr (pathText source) text hunks
        match moveTo with
        | none | some [] => return dictSet state source (some newText)
        | some target => do
          let destination ← resolvePath env target
          if destination ≠ source ∧ fileExistsInState tree destination state then
            .error ("Move target already exists: " ++ String.ofList (pathText destination))
          else return dictSet (dictSet state source none) destination (some newText)

/-- `_simulate_operations` -/
def simulateOperations (tree : FileTree β) : List Operation → State → Except String State
  | [], state => .ok state
  | operation :: operations, state => do
    let state ← simulateOperation env tree state operation
    simulateOperations tree operations state

/-! ### The commit -/

/-- `_atomic_write` -/
def atomicWrite (tree : FileTree β) (path : Path) (text : Text) : FileTree β × Bool :=
  match env.encode text with
  | .error _ => ((makeDirs (env.fault path) (parents path) tree).1, false)
  | .ok content => writeFile (env.fault path) tree path content

/-- The first loop of `_commit_state`. -/
def commitRemovals : State → FileTree β → FileTree β × Bool
  | [], tree => (tree, true)
  | (_, some _) :: state, tree => commitRemovals state tree
  | (path, none) :: state, tree =>
    if (tree path).isSome then
      let removed := removeFile (env.fault path).isSome tree path
      if removed.2 then commitRemovals state removed.1 else removed
    else commitRemovals state tree

/-- The second loop of `_commit_state`. -/
def commitWrites : State → FileTree β → FileTree β × Bool
  | [], tree => (tree, true)
  | (_, none) :: state, tree => commitWrites state tree
  | (path, some text) :: state, tree =>
    let written := atomicWrite env tree path text
    if written.2 then commitWrites state written.1 else written

/-- `_commit_state` -/
def commitState (state : State) (tree : FileTree β) : FileTree β × Bool :=
  let removed := commitRemovals env state tree
  if removed.2 then commitWrites env state removed.1 else removed

/-- What `apply_patch` does before it commits. -/
def simulatePatch (tree : FileTree β) (patch : Text) : Except String State := do
  let operations ← parsePatch env.repr patch
  let state ← simulateOperations env tree operations []
  env.report
  return state

/-- `apply_patch` -/
def applyPatch (tree : FileTree β) (patch : Text) : FileTree β × Except String Unit :=
  match simulatePatch env tree patch with
  | .error error => (tree, .error error)
  | .ok state =>
    let committed := commitState env state tree
    (committed.1, if committed.2 then .ok () else .error env.osError)

/-! ### All or nothing -/

/-- After an error all files are as they were; after a success the files of the simulated state are as
it says, and the others as they were. -/
def AllOrNothing (fs : FileSystem β) (patch : Text) : Prop :=
  match applyPatch env fs.tree patch with
  | (after, .error _) => ∀ path, after.content path = fs.tree.content path
  | (after, .ok _) => ∀ state, simulatePatch env fs.tree patch = .ok state → ∀ path,
      match state.lookup path with
      | some (some text) => ∃ content, after.content path = some content ∧ env.decode content = .ok text
      | some none => after.content path = none
      | none => after.content path = fs.tree.content path

/-- A file operation of a commit. -/
inductive CommitStep where
  | remove (path : Path)
  | write (path : Path) (text : Text)

def CommitStep.path : CommitStep → Path
  | .remove path => path
  | .write path _ => path

def removedPaths (state : State) : List Path := (state.filter fun entry => entry.2.isNone).map Prod.fst

def writtenTexts (state : State) : List (Path × Text) :=
  state.filterMap fun entry => entry.2.map fun text => (entry.1, text)

/-- The steps of the two loops. -/
def commitSteps (state : State) : List CommitStep :=
  (removedPaths state).map .remove ++ (writtenTexts state).map fun entry => .write entry.1 entry.2

def stepCommit (tree : FileTree β) : CommitStep → FileTree β × Bool
  | .remove path =>
    if (tree path).isSome then removeFile (env.fault path).isSome tree path else (tree, true)
  | .write path text => atomicWrite env tree path text

/-- Run the steps of a commit. -/
def runSteps : List CommitStep → FileTree β → FileTree β × Bool
  | [], tree => (tree, true)
  | step :: steps, tree =>
    let stepped := stepCommit env tree step
    if stepped.2 then runSteps steps stepped.1 else stepped

/-- The file of the step is as the step leaves it. -/
def Holds (tree : FileTree β) : CommitStep → Prop
  | .remove path => tree.content path = none
  | .write path text => ∃ content, env.encode text = .ok content ∧ tree.content path = some content

/-- Nothing is in the way of the step: no fault, no directory in the place of a file, and no file, old
or new, in the place of a directory. -/
def Clear (tree : FileTree β) (steps : List CommitStep) : CommitStep → Prop
  | .remove path => tree path ≠ none → env.fault path = none ∧ tree path ≠ some .directory
  | .write path text => env.fault path = none ∧ (∃ content, env.encode text = .ok content) ∧ path ≠ [] ∧
      tree path ≠ some .directory ∧ ∀ dir ∈ parents path,
        (tree.content dir = none ∨ .remove dir ∈ steps) ∧ ∀ other, .write dir other ∉ steps

/-- What is written reads back as the text of the state. -/
def ReadsBack (state : State) : Prop :=
  ∀ path text, state.lookup path = some (some text) → ∀ content, env.encode text = .ok content →
    env.decode content = .ok text

/-- Something is in the way of a step, and the steps in front of it find their files as they would
leave them. -/
def FailsFirst (tree : FileTree β) (steps : List CommitStep) : Prop :=
  ∃ front step back, steps = front ++ step :: back ∧
    (∀ earlier ∈ front, Holds env tree earlier ∧ Clear env tree [] earlier) ∧ ¬ Clear env tree [] step

end

/-! ### The loops as one list of steps -/

section
variable {β : Type} {env : Environment β} {tree : FileTree β} {state : State} {step : CommitStep}
variable {steps : List CommitStep}

theorem runSteps_append (front back : List CommitStep) :
    runSteps env (front ++ back) tree =
      if (runSteps env front tree).2 then runSteps env back (runSteps env front tree).1
      else runSteps env front tree := by
  induction front generalizing tree with
  | nil => rfl
  | cons step front ih =>
    rw [List.cons_append, runSteps, runSteps, ih]
    by_cases first : (stepCommit env tree step).2 = true
    · rw [if_pos first, if_pos first]
    · rw [if_neg first, if_neg first, if_neg first]

theorem commitRemovals_eq : commitRemovals env state tree =
    runSteps env ((removedPaths state).map .remove) tree := by
  induction state generalizing tree with
  | nil => rfl
  | cons entry state ih =>
    obtain ⟨path, value⟩ := entry
    cases value with
    | some text => exact ih
    | none =>
      change commitRemovals env ((path, none) :: state) tree =
        runSteps env (.remove path :: (removedPaths state).map .remove) tree
      rw [commitRemovals, runSteps, stepCommit]
      by_cases there : (tree path).isSome = true
      · rw [if_pos there, if_pos there]
        dsimp only
        rw [ih]
      · rw [if_neg there, if_neg there, if_pos rfl, ih]

theorem commitWrites_eq : commitWrites env state tree =
    runSteps env ((writtenTexts state).map fun entry => .write entry.1 entry.2) tree := by
  induction state generalizing tree with
  | nil => rfl
  | cons entry state ih =>
    obtain ⟨path, value⟩ := entry
    cases value with
    | none => exact ih
    | some text =>
      change commitWrites env ((path, some text) :: state) tree =
        runSteps env (.write path text :: (writtenTexts state).map fun entry => .write entry.1 entry.2)
          tree
      rw [commitWrites, runSteps, stepCommit, ih]

/-- The two loops of the commit are one list of steps. -/
theorem commitState_eq : commitState env state tree = runSteps env (commitSteps state) tree := by
  rw [commitState, commitSteps, runSteps_append, commitRemovals_eq, commitWrites_eq]

/-! ### One step -/

variable {path : Path}

theorem stepRemove_ok_iff : (stepCommit env tree (.remove path)).2 = true ↔
    (tree path ≠ none → env.fault path = none ∧ tree path ≠ some .directory) := by
  rw [stepCommit]
  by_cases there : tree path = none
  · simp [there]
  · rw [if_pos (Option.isSome_iff_ne_none.mpr there), removeFile_ok_iff]
    simp [there]

theorem stepRemove_of_ok (ok : (stepCommit env tree (.remove path)).2 = true) :
    (stepCommit env tree (.remove path)).1 = Function.update tree path none := by
  rw [stepCommit] at ok ⊢
  by_cases there : (tree path).isSome = true
  · rw [if_pos there] at ok ⊢
    exact removeFile_of_ok ok
  · rw [if_neg there]
    rw [Option.isSome_iff_ne_none, not_not] at there
    exact (Function.update_eq_self_iff.mpr there.symm).symm

theorem stepRemove_of_not_ok (failed : (stepCommit env tree (.remove path)).2 = false) :
    (stepCommit env tree (.remove path)).1 = tree := by
  rw [stepCommit] at failed ⊢
  by_cases there : (tree path).isSome = true
  · rw [if_pos there] at failed ⊢
    exact removeFile_of_not_ok failed
  · rw [if_neg there]

variable {text : Text}

theorem stepWrite_of_encode {content : β} (encoded : env.encode text = .ok content) :
    stepCommit env tree (.write path text) = writeFile (env.fault path) tree path content := by
  rw [stepCommit, atomicWrite, encoded]

theorem stepWrite_of_error {error : String} (failed : env.encode text = .error error) :
    stepCommit env tree (.write path text) =
      ((makeDirs (env.fault path) (parents path) tree).1, false) := by
  rw [stepCommit, atomicWrite, failed]

theorem stepWrite_ok_iff :
    (stepCommit env tree (.write path text)).2 = true ↔
      (∃ content, env.encode text = .ok content) ∧ env.fault path = none ∧
        (∀ dir ∈ parents path, tree.content dir = none) ∧ path ≠ [] ∧ tree path ≠ some .directory := by
  cases encoded : env.encode text with
  | error error =>
    rw [stepWrite_of_error encoded]
    exact iff_of_false Bool.false_ne_true fun goes => (by cases goes.1.choose_spec)
  | ok content =>
    rw [stepWrite_of_encode encoded, writeFile_ok_iff]
    exact (and_iff_right ⟨content, rfl⟩).symm

theorem stepCommit_ok_iff : (stepCommit env tree step).2 = true ↔ Clear env tree [] step := by
  cases step with
  | remove path => exact stepRemove_ok_iff
  | write path text =>
    rw [stepWrite_ok_iff, Clear]
    simp only [List.not_mem_nil, or_false, not_false_eq_true, implies_true, and_true]
    tauto

theorem stepCommit_content (other : Path) (kept : other ≠ step.path ∨ (stepCommit env tree step).2 = false) :
    (stepCommit env tree step).1.content other = tree.content other := by
  cases step with
  | remove path =>
    cases ok : (stepCommit env tree (.remove path)).2 with
    | false => rw [stepRemove_of_not_ok ok]
    | true =>
      have ne : other ≠ path := kept.resolve_right (by rw [ok]; simp)
      rw [stepRemove_of_ok ok, content_update_none, if_neg ne]
  | write path text =>
    cases encoded : env.encode text with
    | error error =>
      rw [stepWrite_of_error encoded]
      exact makeDirs_content _ _ tree other
    | ok content =>
      rw [stepWrite_of_encode encoded] at kept ⊢
      rw [writeFile_content, if_neg]
      rintro ⟨ok, same⟩
      rw [ok] at kept
      exact absurd same (kept.resolve_right (by simp))

theorem stepCommit_holds (ok : (stepCommit env tree step).2 = true) :
    Holds env (stepCommit env tree step).1 step := by
  cases step with
  | remove path =>
    rw [stepRemove_of_ok ok]
    exact content_eq_none_of_absent (Function.update_self _ _ _)
  | write path text =>
    obtain ⟨content, encoded⟩ := (stepWrite_ok_iff.mp ok).1
    rw [stepWrite_of_encode encoded] at ok ⊢
    exact ⟨content, encoded, by rw [writeFile_content, if_pos ⟨ok, rfl⟩]⟩

theorem Holds.congr {other : FileTree β} (same : other.content step.path = tree.content step.path)
    (holds : Holds env tree step) : Holds env other step := by
  cases step with
  | remove path => exact same.trans holds
  | write path text =>
    obtain ⟨content, encoded, isContent⟩ := holds
    exact ⟨content, encoded, same.trans isContent⟩

theorem stepCommit_held (fs : FileSystem β) (holds : Holds env fs.tree step)
    (ok : (stepCommit env fs.tree step).2 = true) : stepCommit env fs.tree step = (fs.tree, true) := by
  refine Prod.ext ?_ ok
  cases step with
  | remove path =>
    rw [stepRemove_of_ok ok]
    refine Function.update_eq_self_iff.mpr (Eq.symm ?_)
    by_contra there
    obtain ⟨-, notDir⟩ := stepRemove_ok_iff.mp ok there
    have absent : fs.tree.content path = none := holds
    cases here : fs.tree path with
    | none => exact there here
    | some entry =>
      cases entry with
      | directory => exact notDir here
      | file content =>
        rw [content_eq_some.mpr here] at absent
        cases absent
  | write path text =>
    obtain ⟨content, encoded, isContent⟩ := holds
    have isFile := content_eq_some.mp isContent
    have noFault := (stepWrite_ok_iff.mp ok).2.1
    rw [stepWrite_of_encode encoded, noFault]
    exact writeFile_same isFile (fs.parents_directory (by rw [isFile]; simp))

/-! ### Many steps -/

theorem runSteps_ok (ok : (runSteps env steps tree).2 = true) (nodup : (steps.map CommitStep.path).Nodup) :
    (∀ step ∈ steps, Holds env (runSteps env steps tree).1 step) ∧
      ∀ other ∉ steps.map CommitStep.path, (runSteps env steps tree).1.content other = tree.content other := by
  induction steps generalizing tree with
  | nil => exact ⟨fun _ mem => (by cases mem), fun _ _ => rfl⟩
  | cons step steps ih =>
    obtain ⟨new, later⟩ := List.nodup_cons.mp nodup
    rw [runSteps] at ok ⊢
    by_cases first : (stepCommit env tree step).2 = true
    · rw [if_pos first] at ok ⊢
      obtain ⟨holds, same⟩ := ih ok later
      refine ⟨List.forall_mem_cons.mpr ⟨?_, holds⟩, fun other notMem => ?_⟩
      · exact (stepCommit_holds first).congr (same step.path new)
      · rw [List.map_cons, List.mem_cons, not_or] at notMem
        rw [same other notMem.2, stepCommit_content other (.inl notMem.1)]
    · rw [if_neg first] at ok
      exact absurd ok first

theorem runSteps_failed (failed : (runSteps env steps tree).2 = false) :
    ∃ front step back, steps = front ++ step :: back ∧ (runSteps env front tree).2 = true ∧
      (stepCommit env (runSteps env front tree).1 step).2 = false ∧
      ∀ path, (runSteps env steps tree).1.content path = (runSteps env front tree).1.content path := by
  induction steps generalizing tree with
  | nil => cases failed
  | cons step steps ih =>
    rw [runSteps] at failed ⊢
    by_cases first : (stepCommit env tree step).2 = true
    · rw [if_pos first] at failed ⊢
      obtain ⟨front, step', back, rfl, ok, fails, same⟩ := ih failed
      refine ⟨step :: front, step', back, rfl, ?_⟩
      rw [runSteps]
      rw [if_pos first]
      exact ⟨ok, fails, same⟩
    · rw [if_neg first]
      have fails := Bool.eq_false_iff.mpr first
      exact ⟨[], step, steps, rfl, rfl, fails, fun path => stepCommit_content path (.inr fails)⟩

theorem runSteps_held (fs : FileSystem β)
    (held : ∀ step ∈ steps, Holds env fs.tree step ∧ (stepCommit env fs.tree step).2 = true) :
    runSteps env steps fs.tree = (fs.tree, true) := by
  induction steps with
  | nil => rfl
  | cons step steps ih =>
    obtain ⟨first, later⟩ := List.forall_mem_cons.mp held
    rw [runSteps]
    rw [stepCommit_held fs first.1 first.2]
    exact ih later

theorem held_of_runSteps (fs : FileSystem β) (ok : (runSteps env steps fs.tree).2 = true)
    (holds : ∀ step ∈ steps, Holds env fs.tree step) :
    ∀ step ∈ steps, (stepCommit env fs.tree step).2 = true := by
  induction steps with
  | nil => exact fun _ mem => (by cases mem)
  | cons step steps ih =>
    obtain ⟨first, later⟩ := List.forall_mem_cons.mp holds
    rw [runSteps] at ok
    by_cases goes : (stepCommit env fs.tree step).2 = true
    · rw [if_pos goes, stepCommit_held fs first goes] at ok
      exact List.forall_mem_cons.mpr ⟨goes, ih ok later⟩
    · rw [if_neg goes] at ok
      exact absurd ok goes

/-- When a failing step finds everything as it was. -/
theorem runSteps_unchanged_iff (fs : FileSystem β) (nodup : (steps.map CommitStep.path).Nodup) :
    ((runSteps env steps fs.tree).2 = false ∧
      ∀ path, (runSteps env steps fs.tree).1.content path = fs.tree.content path) ↔
        FailsFirst env fs.tree steps := by
  constructor
  · rintro ⟨failed, unchanged⟩
    obtain ⟨front, step, back, rfl, ok, fails, same⟩ := runSteps_failed failed
    rw [List.map_append] at nodup
    have holds : ∀ earlier ∈ front, Holds env fs.tree earlier := by
      intro earlier mem
      refine ((runSteps_ok ok (List.nodup_append.mp nodup).1).1 earlier mem).congr ?_
      rw [← same, unchanged]
    have goes := held_of_runSteps fs ok holds
    rw [runSteps_held fs fun earlier mem => ⟨holds earlier mem, goes earlier mem⟩] at fails
    refine ⟨front, step, back, rfl, fun earlier mem =>
      ⟨holds earlier mem, stepCommit_ok_iff.mp (goes earlier mem)⟩, fun clear => ?_⟩
    rw [stepCommit_ok_iff.mpr clear] at fails
    cases fails
  · rintro ⟨front, step, back, rfl, clear, blocked⟩
    have held : ∀ earlier ∈ front, Holds env fs.tree earlier ∧ (stepCommit env fs.tree earlier).2 = true :=
      fun earlier mem => ⟨(clear earlier mem).1, stepCommit_ok_iff.mpr (clear earlier mem).2⟩
    have fails : (stepCommit env fs.tree step).2 = false :=
      Bool.eq_false_iff.mpr fun ok => blocked (stepCommit_ok_iff.mp ok)
    rw [runSteps_append, runSteps_held fs held, if_pos rfl, runSteps]
    rw [fails, if_neg Bool.false_ne_true]
    exact ⟨fails, fun path => stepCommit_content path (.inr fails)⟩

/-! ### When all steps go through -/

theorem runRemovals_ok_iff {paths : List Path} : (runSteps env (paths.map .remove) tree).2 = true ↔
    ∀ path ∈ paths, tree path ≠ none → env.fault path = none ∧ tree path ≠ some .directory := by
  induction paths generalizing tree with
  | nil => simp [runSteps]
  | cons path paths ih =>
    rw [List.forall_mem_cons, ← stepRemove_ok_iff, List.map_cons, runSteps]
    by_cases first : (stepCommit env tree (.remove path)).2 = true
    · rw [if_pos first, and_iff_right first, stepRemove_of_ok first, ih]
      refine forall₂_congr fun other _ => ?_
      by_cases same : other = path
      · subst same
        rw [Function.update_self]
        exact iff_of_true (fun there => absurd rfl there) (stepRemove_ok_iff.mp first)
      · rw [Function.update_of_ne same]
    · rw [if_neg first]
      exact iff_of_false first fun goes => first goes.1

theorem runRemovals_of_ok {paths : List Path} (ok : (runSteps env (paths.map .remove) tree).2 = true)
    (path : Path) : (runSteps env (paths.map .remove) tree).1 path =
      if path ∈ paths then none else tree path := by
  induction paths generalizing tree with
  | nil => rfl
  | cons gone paths ih =>
    rw [List.map_cons, runSteps] at ok ⊢
    by_cases first : (stepCommit env tree (.remove gone)).2 = true
    · rw [if_pos first] at ok ⊢
      rw [ih ok, stepRemove_of_ok first]
      by_cases same : path = gone
      · subst same
        simp
      · simp [same]
    · rw [if_neg first] at ok
      exact absurd ok first

/-- Nothing is in the way of the writing of a file, the files written before and after it included. -/
def ClearToWrite (env : Environment β) (tree : FileTree β) (texts : List (Path × Text)) (path : Path) (text : Text) :
    Prop :=
  (∃ content, env.encode text = .ok content) ∧ env.fault path = none ∧
    (∀ dir ∈ parents path, tree.content dir = none) ∧ path ≠ [] ∧ tree path ≠ some .directory ∧
      ∀ dir ∈ parents path, ∀ other, (dir, other) ∉ texts

theorem runWrites_ok_iff {texts : List (Path × Text)} :
    (runSteps env (texts.map fun entry => .write entry.1 entry.2) tree).2 = true ↔
      ∀ entry ∈ texts, ClearToWrite env tree texts entry.1 entry.2 := by
  induction texts generalizing tree with
  | nil => simp [runSteps]
  | cons entry texts ih =>
    obtain ⟨path, text⟩ := entry
    rw [List.forall_mem_cons, List.map_cons, runSteps]
    by_cases first : (stepCommit env tree (.write path text)).2 = true
    · obtain ⟨⟨content, encoded⟩, noFault, free, root, notDir⟩ := stepWrite_ok_iff.mp first
      rw [if_pos first, ih]
      rw [stepWrite_of_encode encoded] at first ⊢
      have kept : ∀ dir, dir ≠ path →
          (writeFile (env.fault path) tree path content).1.content dir = tree.content dir := by
        intro dir ne
        rw [writeFile_content, if_neg fun same => ne same.2]
      constructor
      · intro clear
        have notWritten : ∀ dir ∈ parents path, ∀ other, (dir, other) ∉ (path, text) :: texts := by
          intro dir mem other written
          rcases List.mem_cons.mp written with same | later
          · cases same
            exact notMem_parents root mem
          · obtain ⟨-, -, -, -, notDir', -⟩ := clear _ later
            exact notDir' (writeFile_parents first dir mem)
        refine ⟨⟨⟨content, encoded⟩, noFault, free, root, notDir, notWritten⟩, fun entry mem => ?_⟩
        obtain ⟨encodes, noFault', free', root', notDir', apart⟩ := clear entry mem
        have ne : ∀ dir ∈ parents entry.1, dir ≠ path := by
          intro dir inside same
          have none := free' dir inside
          rw [same, writeFile_content, if_pos ⟨first, rfl⟩] at none
          cases none
        refine ⟨encodes, noFault', fun dir inside => ?_, root', fun isDir => ?_, fun dir inside other written => ?_⟩
        · rw [← kept dir (ne dir inside)]
          exact free' dir inside
        · exact notDir' ((writeFile_directory entry.1).1 isDir)
        · rcases List.mem_cons.mp written with same | later
          · exact ne dir inside (congrArg Prod.fst same)
          · exact apart dir inside other later
      · rintro ⟨⟨-, -, -, -, -, notWritten⟩, clear⟩ entry mem
        obtain ⟨encodes, noFault', free', root', notDir', apart⟩ := clear entry mem
        refine ⟨encodes, noFault', fun dir inside => ?_, root', fun isDir => ?_, fun dir inside other later =>
          apart dir inside other (List.mem_cons_of_mem _ later)⟩
        · rw [kept dir]
          · exact free' dir inside
          · intro same
            rw [same] at inside
            exact apart path inside text List.mem_cons_self
        · rcases (writeFile_directory entry.1).2 isDir with before | inside
          · exact notDir' before
          · exact notWritten entry.1 inside entry.2 (List.mem_cons_of_mem _ mem)
    · rw [if_neg first]
      refine iff_of_false first fun clear => first (stepWrite_ok_iff.mpr ?_)
      obtain ⟨encodes, noFault, free, root, notDir, -⟩ := clear.1
      exact ⟨encodes, noFault, free, root, notDir⟩

/-! ### The steps of a state -/

theorem mem_commitSteps : step ∈ commitSteps state ↔
    (∃ path ∈ removedPaths state, step = .remove path) ∨
      ∃ entry ∈ writtenTexts state, step = .write entry.1 entry.2 := by
  simp only [commitSteps, List.mem_append, List.mem_map, eq_comm]

theorem remove_mem_commitSteps : .remove path ∈ commitSteps state ↔ path ∈ removedPaths state := by
  simp [mem_commitSteps]

theorem write_mem_commitSteps :
    .write path text ∈ commitSteps state ↔ (path, text) ∈ writtenTexts state := by
  simp [mem_commitSteps]

theorem mem_removedPaths : path ∈ removedPaths state ↔ (path, none) ∈ state := by
  simp [removedPaths]

theorem mem_writtenTexts :
    (path, text) ∈ writtenTexts state ↔ (path, some text) ∈ state := by
  simp [writtenTexts]

theorem commitSteps_paths (state : State) :
    ((commitSteps state).map CommitStep.path).Perm (state.map Prod.fst) := by
  induction state with
  | nil => exact .nil
  | cons entry state ih =>
    obtain ⟨path, value⟩ := entry
    cases value with
    | none => exact ih.cons path
    | some text =>
      refine List.Perm.trans ?_ (ih.cons path)
      have isAppend : ∀ state, (commitSteps state).map CommitStep.path =
          removedPaths state ++ (writtenTexts state).map Prod.fst := by
        intro state
        simp only [commitSteps, List.map_append, List.map_map]
        rw [show CommitStep.path ∘ CommitStep.remove = id from rfl, List.map_id]
        rfl
      rw [isAppend, isAppend]
      exact List.perm_middle

/-- When all steps go through. -/
theorem runSteps_goes_iff : (runSteps env (commitSteps state) tree).2 = true ↔
    ∀ step ∈ commitSteps state, Clear env tree (commitSteps state) step := by
  have split : (∀ step ∈ commitSteps state, Clear env tree (commitSteps state) step) ↔
      (∀ path ∈ removedPaths state, Clear env tree (commitSteps state) (.remove path)) ∧
        ∀ entry ∈ writtenTexts state, Clear env tree (commitSteps state) (.write entry.1 entry.2) := by
    simp only [mem_commitSteps, or_imp, forall_and, forall_exists_index, and_imp]
    constructor
    · rintro ⟨removals, writes⟩
      exact ⟨fun path mem => removals _ path mem rfl, fun entry mem => writes _ entry mem rfl⟩
    · rintro ⟨removals, writes⟩
      exact ⟨fun _ path mem same => same ▸ removals path mem, fun _ entry mem same => same ▸ writes entry mem⟩
  rw [split, commitSteps, runSteps_append, ← commitSteps]
  by_cases removed : (runSteps env ((removedPaths state).map .remove) tree).2 = true
  · have clear := runRemovals_ok_iff.mp removed
    have after := runRemovals_of_ok removed
    rw [if_pos removed, runWrites_ok_iff, and_iff_right (show ∀ path ∈ removedPaths state,
      Clear env tree (commitSteps state) (.remove path) from clear)]
    refine forall₂_congr fun entry _ => ?_
    have isDir : (runSteps env ((removedPaths state).map .remove) tree).1 entry.1 ≠ some .directory ↔
        tree entry.1 ≠ some .directory := by
      rw [after]
      split_ifs with gone
      · refine iff_of_true (by simp) fun isDir => ?_
        exact (clear entry.1 gone (by rw [isDir]; simp)).2 isDir
      · rfl
    have noFile : ∀ dir, (runSteps env ((removedPaths state).map .remove) tree).1.content dir = none ↔
        tree.content dir = none ∨ .remove dir ∈ commitSteps state := by
      intro dir
      rw [remove_mem_commitSteps]
      unfold FileTree.content
      rw [after]
      split_ifs with gone
      · simp [gone]
      · simp [gone]
    simp only [ClearToWrite, Clear, isDir, noFile, write_mem_commitSteps]
    constructor
    · rintro ⟨encodes, noFault, free, root, notDir, apart⟩
      exact ⟨noFault, encodes, root, notDir, fun dir inside => ⟨free dir inside, apart dir inside⟩⟩
    · rintro ⟨noFault, encodes, root, notDir, inside⟩
      exact ⟨encodes, noFault, fun dir mem => (inside dir mem).1, root, notDir, fun dir mem => (inside dir mem).2⟩
  · rw [if_neg removed]
    exact iff_of_false removed fun clear => removed (runRemovals_ok_iff.mpr clear.1)

/-! ### The simulated state -/

theorem simulateOperation_nodup {operation : Operation} {after : State}
    (nodup : (state.map Prod.fst).Nodup) (ran : simulateOperation env tree state operation = .ok after) :
    (after.map Prod.fst).Nodup := by
  cases operation with
  | add path lines =>
    obtain ⟨source, -, ran⟩ := bind_eq_ok.mp ran
    split_ifs at ran
    cases ran
    exact nodup_dictSet nodup _ _
  | delete path =>
    obtain ⟨source, -, ran⟩ := bind_eq_ok.mp ran
    obtain ⟨loaded, -, ran⟩ := bind_eq_ok.mp ran
    cases loaded with
    | none => cases ran
    | some _ =>
      cases ran
      exact nodup_dictSet nodup _ _
  | update path moveTo hunks =>
    obtain ⟨source, -, ran⟩ := bind_eq_ok.mp ran
    obtain ⟨loaded, -, ran⟩ := bind_eq_ok.mp ran
    cases loaded with
    | none => cases ran
    | some text =>
      dsimp only at ran
      split_ifs at ran
      all_goals
        obtain ⟨newText, -, ran⟩ := bind_eq_ok.mp ran
        split at ran
        · cases ran
          exact nodup_dictSet nodup _ _
        · cases ran
          exact nodup_dictSet nodup _ _
        · obtain ⟨destination, -, ran⟩ := bind_eq_ok.mp ran
          split_ifs at ran
          cases ran
          exact nodup_dictSet (nodup_dictSet nodup _ _) _ _

theorem simulateOperations_nodup {operations : List Operation} {after : State}
    (nodup : (state.map Prod.fst).Nodup) (ran : simulateOperations env tree operations state = .ok after) :
    (after.map Prod.fst).Nodup := by
  induction operations generalizing state with
  | nil =>
    cases ran
    exact nodup
  | cons operation operations ih =>
    obtain ⟨between, first, later⟩ := bind_eq_ok.mp ran
    exact ih (simulateOperation_nodup nodup first) later

theorem simulatePatch_nodup {patch : Text} (ran : simulatePatch env tree patch = .ok state) :
    (state.map Prod.fst).Nodup := by
  obtain ⟨operations, -, ran⟩ := bind_eq_ok.mp ran
  obtain ⟨after, simulated, ran⟩ := bind_eq_ok.mp ran
  obtain ⟨-, -, same⟩ := bind_eq_ok.mp ran
  cases same
  have empty : (([] : State).map Prod.fst).Nodup := List.nodup_nil
  exact simulateOperations_nodup empty simulated

theorem commitState_ok_iff {after : FileTree β} (nodup : (state.map Prod.fst).Nodup)
    (ok : (commitState env state tree).2 = true) (isAfter : (commitState env state tree).1 = after) :
    (∀ path, match state.lookup path with
      | some (some text) => ∃ content, after.content path = some content ∧ env.decode content = .ok text
      | some none => after.content path = none
      | none => after.content path = tree.content path) ↔ ReadsBack env state := by
  rw [commitState_eq] at ok isAfter
  obtain ⟨holds, same⟩ := runSteps_ok ok ((commitSteps_paths state).nodup_iff.mpr nodup)
  rw [isAfter] at holds same
  have written : ∀ {path text}, state.lookup path = some (some text) →
      ∃ content, env.encode text = .ok content ∧ after.content path = some content := fun found =>
    holds _ (write_mem_commitSteps.mpr (mem_writtenTexts.mpr (mem_of_lookup found)))
  constructor
  · intro each path text found content encoded
    have here := each path
    rw [found] at here
    obtain ⟨content', isContent, decoded⟩ := here
    obtain ⟨content'', encoded', isContent'⟩ := written found
    rw [encoded] at encoded'
    cases encoded'
    rw [isContent'] at isContent
    cases isContent
    exact decoded
  · intro readsBack path
    split
    next text found =>
      obtain ⟨content, encoded, isContent⟩ := written found
      exact ⟨content, isContent, readsBack path text found content encoded⟩
    next found => exact holds _ (remove_mem_commitSteps.mpr (mem_removedPaths.mpr (mem_of_lookup found)))
    next absent =>
      refine same path fun mem => ?_
      rw [(commitSteps_paths state).mem_iff, List.mem_map] at mem
      obtain ⟨entry, inState, isPath⟩ := mem
      have found := lookup_of_mem nodup (show (entry.1, entry.2) ∈ state from inState)
      rw [isPath, absent] at found
      cases found

/-- A patch is applied wholly or not at all if and only if nothing is in the way of any step of the
commit and what is written reads back, or the step that fails comes before every change of a file. -/
theorem applyPatch_allOrNothing_iff (env : Environment β) (fs : FileSystem β) (patch : Text) :
    AllOrNothing env fs patch ↔ ∀ state, simulatePatch env fs.tree patch = .ok state →
      ((∀ step ∈ commitSteps state, Clear env fs.tree (commitSteps state) step) ∧ ReadsBack env state) ∨
        FailsFirst env fs.tree (commitSteps state) := by
  unfold AllOrNothing applyPatch
  cases simulated : simulatePatch env fs.tree patch with
  | error error => exact iff_of_true (fun _ => rfl) nofun
  | ok state =>
    have nodup := simulatePatch_nodup simulated
    have unchanged := @runSteps_unchanged_iff β env (commitSteps state) fs
      ((commitSteps_paths state).nodup_iff.mpr nodup)
    simp only [Except.ok.injEq, forall_eq']
    rw [← runSteps_goes_iff, ← unchanged, ← commitState_eq]
    cases ok : (commitState env state fs.tree).2 with
    | false => simp
    | true => simpa using commitState_ok_iff nodup ok rfl

end

def emptyFiles : FileSystem Text where
  tree path := if path = [] then some .directory else none
  root := rfl
  closed path name there := by
    rw [if_neg (List.append_ne_nil_of_right_ne_nil path (List.cons_ne_nil name []))] at there
    exact absurd rfl there

/-- Paths are read from the root, files hold their texts, and nothing is made to fail. -/
def plainEnvironment : Environment Text where
  resolve text := .ok ((text.splitOn '/').map String.ofList)
  repr := String.ofList
  decode := .ok
  encode := .ok
  report := .ok ()
  fault _ := none
  osError := "FileExistsError"

/-- A file, and a file in a directory of the same name. -/
def nestedAdds : List Operation := [.add ['a'] [['x']], .add ['a', '/', 'b'] [['y']]]

/-- The first file is there when the second one fails. -/
theorem applyPatch_allOrNothing_fails :
    ¬ ∀ (env : Environment Text) (fs : FileSystem Text) (patch : Text), AllOrNothing env fs patch := by
  intro claimed
  let padding : Padding := { indentedEnd with beforeEnd := ⟨[], fun _ mem => (by cases mem)⟩ }
  have writable : ∀ operation ∈ [.add ['a'] [['x']]] ++ [Operation.add ['a', '/', 'b'] [['y']]],
      operation.Writable := by
    refine List.forall_mem_cons.mpr ⟨⟨⟨by decide, by decide, ?_⟩, ?_⟩,
      List.forall_mem_singleton.mpr ⟨⟨by decide, by decide, ?_⟩, ?_⟩⟩
    all_goals decide
  have parsed : parsePatch plainEnvironment.repr (printPatch padding nestedAdds) = .ok nestedAdds :=
    parsePatch_plain _ padding writable (.inl rfl)
  let state : State := [(["a"], some ['x', '\n']), (["a", "b"], some ['y', '\n'])]
  have simulated : simulatePatch plainEnvironment emptyFiles.tree (printPatch padding nestedAdds) =
      .ok state := by
    rw [simulatePatch, parsed]
    rfl
  have here := claimed plainEnvironment emptyFiles (printPatch padding nestedAdds)
  have failed : (commitState plainEnvironment state emptyFiles.tree).2 = false := by decide +kernel
  have left : (commitState plainEnvironment state emptyFiles.tree).1.content ["a"] = some ['x', '\n'] := by
    decide +kernel
  rw [AllOrNothing, applyPatch, simulated] at here
  simp only [failed, Bool.false_eq_true, if_false] at here
  have before := here ["a"]
  rw [left] at before
  cases before

end AgentPark.Patching
