import AgentPark.Groups.Documents
import Mathlib.Logic.Relation

/-!
# Task boards

`validate_task` looks at one task; `Board` speaks about all tasks of a group.
-/

namespace AgentPark.Groups

open Lib

/-- The task `a` waits for the task `b`. -/
def DependsOn (tasks : List GroupTask) (b a : String) : Prop :=
  ∃ task ∈ tasks, task.id = a ∧ b ∈ task.dependencies

/-- The task is being worked on or done. -/
def GroupTask.Started (task : GroupTask) : Prop := task.status = .inProgress ∨ task.status = .done

structure Board (tasks : List GroupTask) : Prop where
  ids : (tasks.map GroupTask.id).Nodup
  closed : ∀ task ∈ tasks, ∀ dep ∈ task.dependencies, dep ∈ tasks.map GroupTask.id
  acyclic : WellFounded (DependsOn tasks)
  owner : ∀ task ∈ tasks, task.Started → task.ownerId ≠ none
  waits : ∀ task ∈ tasks, task.Started → ∀ item ∈ tasks, item.id ∈ task.dependencies →
    item.status = .done
  evidence : ∀ task ∈ tasks, task.status = .done → pyStrip task.evidence ≠ ""
  named : ∀ task ∈ tasks, task.ownerId ≠ some ""

theorem board_nil : Board [] where
  ids := List.nodup_nil
  closed := fun _ mem => nomatch mem
  acyclic := ⟨fun _ => ⟨_, fun _ ⟨_, mem, _⟩ => nomatch mem⟩⟩
  owner := fun _ mem => nomatch mem
  waits := fun _ mem => nomatch mem
  evidence := fun _ mem => nomatch mem
  named := fun _ mem => nomatch mem

/-! ### The walk over the dependencies -/

section Walk

variable {table : List (String × GroupTask)} {visiting visited visited' : List String}

/-- `a` waits for `b` by the table. -/
def TableDepends (table : List (String × GroupTask)) (b a : String) : Prop :=
  ∃ task, table.lookup a = some task ∧ b ∈ task.dependencies

/-- No chain of dependencies from the visited tasks goes on for ever. -/
def Grounded (table : List (String × GroupTask)) (visited : List String) : Prop :=
  ∀ id ∈ visited, Acc (TableDepends table) id

/-- What a walk leaves: the tasks visited before and those it has walked to. -/
structure Walked (table : List (String × GroupTask)) (visited ids visited' : List String) :
    Prop where
  kept : visited ⊆ visited'
  reached : ids ⊆ visited'
  grounded : Grounded table visited'

theorem walkAll_walked {visit : List String → String → Except GroupError (List String)}
    (single : ∀ {id visited visited'}, Grounded table visited →
      visit visited id = .ok visited' → Walked table visited [id] visited')
    {ids : List String} (grounded : Grounded table visited)
    (done : walkAll visit visited ids = .ok visited') :
    Walked table visited ids visited' := by
  induction ids generalizing visited with
  | nil =>
    rw [walkAll] at done
    cases done
    exact ⟨List.Subset.refl _, List.nil_subset _, grounded⟩
  | cons id ids ih =>
    rw [walkAll] at done
    obtain ⟨mid, first, rest⟩ := bind_eq_ok.mp done
    obtain ⟨kept, reached, midGrounded⟩ := single grounded first
    obtain ⟨keptMid, others, isGrounded⟩ := ih midGrounded rest
    refine ⟨List.Subset.trans kept keptMid, ?_, isGrounded⟩
    apply List.cons_subset.mpr
    exact ⟨keptMid (reached (List.mem_singleton_self id)), others⟩

/-- A walk that returns has met no cycle.  Induction on the depth: a task is grounded because all it
depends on has been visited. -/
theorem walk_walked {fuel : Nat} {id : String} (grounded : Grounded table visited)
    (done : walk table fuel visiting visited id = .ok visited') :
    Walked table visited [id] visited' := by
  induction fuel generalizing id visiting visited visited' with
  | zero =>
    rw [walk] at done
    cases done
  | succ fuel ih =>
    rw [walk] at done
    obtain ⟨-, done⟩ := ite_error_eq_ok.mp done
    split_ifs at done with old
    · cases done
      refine ⟨List.Subset.refl _, ?_, grounded⟩
      exact List.cons_subset.mpr ⟨old, List.nil_subset _⟩
    · split at done
      · cases done
      · rename_i task found
        obtain ⟨below, walked, same⟩ := bind_eq_ok.mp done
        cases same
        obtain ⟨kept, reached, isGrounded⟩ := walkAll_walked ih grounded walked
        refine ⟨fun other mem => List.mem_cons_of_mem _ (kept mem), ?_, ?_⟩
        · exact List.cons_subset.mpr ⟨List.mem_cons_self, List.nil_subset _⟩
        · intro other mem
          rcases List.mem_cons.mp mem with rfl | mem
          · constructor
            intro dep depends
            obtain ⟨found', isFound, isDep⟩ := depends
            cases found.symm.trans isFound
            exact isGrounded dep (reached isDep)
          · exact isGrounded other mem

theorem walkAll_wellFounded {fuel : Nat}
    (done : walkAll (walk table fuel []) [] (table.map Prod.fst) = .ok visited') :
    WellFounded (TableDepends table) := by
  obtain ⟨-, reached, grounded⟩ := walkAll_walked (fun isGrounded ran => walk_walked isGrounded ran)
    (fun _ absurd => (List.not_mem_nil absurd).elim) done
  constructor
  intro id
  constructor
  intro dep depends
  obtain ⟨task, found, isDep⟩ := depends
  have known : id ∈ table.map Prod.fst := List.mem_map_of_mem (mem_of_lookup found)
  exact (grounded id (reached known)).inv ⟨task, found, isDep⟩

end Walk

/-! ### Validated tasks -/

section Update

variable {group : AgentGroup} {tasks tasks' : List GroupTask} {task candidate : GroupTask}

theorem mem_keys_taskTable {dep : String} :
    dep ∈ (taskTable tasks task).map Prod.fst ↔ dep = task.id ∨ dep ∈ tasks.map GroupTask.id := by
  have keys : dep ∈ (tasks.foldl (fun table item => dictSet table item.id item) []).map Prod.fst ↔
      dep ∈ ([] : List (String × GroupTask)).map Prod.fst ∨ dep ∈ tasks.map GroupTask.id :=
    mem_keys_foldl_dictSet GroupTask.id
  rw [taskTable, keys_dictSet]
  split_ifs with old
  · rw [keys]
    have known := (mem_keys_foldl_dictSet GroupTask.id).mp old
    grind
  · rw [List.mem_append, keys, List.mem_singleton, List.map_nil]
    simp only [List.not_mem_nil, false_or]
    exact or_comm

theorem lookup_taskTable_self : (taskTable tasks task).lookup task.id = some task := by
  rw [taskTable, lookup_dictSet, if_pos rfl]

theorem lookup_taskTable {item : GroupTask} (nodup : (tasks.map GroupTask.id).Nodup)
    (mem : item ∈ tasks) (other : item.id ≠ task.id) :
    (taskTable tasks task).lookup item.id = some item := by
  rw [taskTable, lookup_dictSet, if_neg other]
  exact lookup_foldl_dictSet_of_mem GroupTask.id nodup mem

/-- What `validate_task` has checked. -/
structure Valid (tasks : List GroupTask) (task : GroupTask) : Prop where
  closed : ∀ dep ∈ task.dependencies, dep = task.id ∨ dep ∈ tasks.map GroupTask.id
  acyclic : WellFounded (TableDepends (taskTable tasks task))
  owner : task.Started → task.ownerId ≠ none
  waits : task.Started → ∀ dep ∈ task.dependencies, ∀ item,
    (taskTable tasks task).lookup dep = some item → item.status = .done
  evidence : task.status = .done → pyStrip task.evidence ≠ ""

theorem validateTask_eq_ok (valid : validateTask group task = .ok ()) : Valid group.tasks task := by
  obtain ⟨-, valid⟩ := require_bind_eq_ok.mp valid
  obtain ⟨-, valid⟩ := require_bind_eq_ok.mp valid
  obtain ⟨closed, valid⟩ := require_bind_eq_ok.mp valid
  obtain ⟨visited, walked, valid⟩ := bind_eq_ok.mp valid
  obtain ⟨u, started, evidence⟩ := bind_eq_ok.mp valid
  have startedOk : task.Started → task.ownerId.isSome = true ∧ ∀ dep ∈ task.dependencies,
      ((taskTable group.tasks task).lookup dep).any (fun item => item.status = .done) = true := by
    intro isStarted
    have begun : task.status = .inProgress ∨ task.status = .done := isStarted
    rw [requireStarted, if_pos begun] at started
    obtain ⟨owned, rest⟩ := require_bind_eq_ok.mp started
    exact ⟨owned, require_eq_ok.mp rest⟩
  refine ⟨fun dep mem => mem_keys_taskTable.mp (closed dep mem), walkAll_wellFounded walked, ?_, ?_,
    require_eq_ok.mp evidence⟩
  · intro isStarted
    exact Option.isSome_iff_ne_none.mp (startedOk isStarted).1
  · intro isStarted dep mem item found
    have isDone := (startedOk isStarted).2 dep mem
    rw [found, Option.any_some, decide_eq_true_eq] at isDone
    exact isDone

/-- The same work under another revision. -/
structure SameWork (task item : GroupTask) : Prop where
  id : item.id = task.id
  status : item.status = task.status
  ownerId : item.ownerId = task.ownerId
  dependencies : item.dependencies = task.dependencies
  evidence : item.evidence = task.evidence

theorem SameWork.started {item : GroupTask} (same : SameWork task item) (isStarted : item.Started) :
    task.Started := by
  rw [GroupTask.Started, ← same.status]
  exact isStarted

/-- A task that passes the validation may be added or replaced. -/
theorem Board.update (board : Board tasks) (valid : Valid tasks candidate)
    (named : candidate.ownerId ≠ some "") (ids : (tasks'.map GroupTask.id).Nodup)
    (items : ∀ item ∈ tasks', item ∈ tasks ∧ item.id ≠ candidate.id ∨ SameWork candidate item)
    (others : ∀ item ∈ tasks, item.id ≠ candidate.id → item ∈ tasks')
    (isThere : ∃ item ∈ tasks', item.id = candidate.id)
    (dependents : ∀ item ∈ tasks, item.id ≠ candidate.id → item.Started →
      candidate.id ∈ item.dependencies → candidate.status = .done) : Board tasks' := by
  have known {dep : String} (isKnown : dep = candidate.id ∨ dep ∈ tasks.map GroupTask.id) :
      dep ∈ tasks'.map GroupTask.id := by
    by_cases same : dep = candidate.id
    · obtain ⟨item, mem, isId⟩ := isThere
      exact List.mem_map.mpr ⟨item, mem, isId.trans same.symm⟩
    · obtain ⟨item, mem, rfl⟩ := List.mem_map.mp (isKnown.resolve_left same)
      exact List.mem_map_of_mem (others item mem same)
  have inTable : ∀ item ∈ tasks', ∃ entry,
      (taskTable tasks candidate).lookup item.id = some entry ∧
        entry.dependencies = item.dependencies ∧ entry.status = item.status := by
    intro item mem
    rcases items item mem with ⟨old, other⟩ | same
    · exact ⟨item, lookup_taskTable board.ids old other, rfl, rfl⟩
    · refine ⟨candidate, ?_, same.dependencies.symm, same.status.symm⟩
      rw [same.id]
      exact lookup_taskTable_self
  refine ⟨ids, ?_, ?_, ?_, ?_, ?_, ?_⟩
  · intro item mem dep isDep
    rcases items item mem with ⟨old, -⟩ | same
    · exact known (.inr (board.closed item old dep isDep))
    · rw [same.dependencies] at isDep
      exact known (valid.closed dep isDep)
  · apply Subrelation.wf ?_ valid.acyclic
    intro b a depends
    obtain ⟨item, mem, rfl, isDep⟩ := depends
    obtain ⟨entry, found, sameDeps, -⟩ := inTable item mem
    rw [← sameDeps] at isDep
    exact ⟨entry, found, isDep⟩
  · intro item mem started
    rcases items item mem with ⟨old, -⟩ | same
    · exact board.owner item old started
    · rw [same.ownerId]
      exact valid.owner (same.started started)
  · intro item mem started dep isThereToo isDep
    rcases items item mem with ⟨old, other⟩ | same
    · rcases items dep isThereToo with ⟨oldDep, -⟩ | sameDep
      · exact board.waits item old started dep oldDep isDep
      · rw [sameDep.id] at isDep
        rw [sameDep.status]
        exact dependents item old other started isDep
    · rw [same.dependencies] at isDep
      obtain ⟨entry, found, -, status⟩ := inTable dep isThereToo
      rw [← status]
      exact valid.waits (same.started started) dep.id isDep entry found
  · intro item mem isDone
    rcases items item mem with ⟨old, -⟩ | same
    · exact board.evidence item old isDone
    · rw [same.evidence]
      rw [same.status] at isDone
      exact valid.evidence isDone
  · intro item mem
    rcases items item mem with ⟨old, -⟩ | same
    · exact board.named item old
    · rw [same.ownerId]
      exact named

/-- What a departure and a renaming do to the tasks. -/
theorem Board.map (board : Board tasks) {f : GroupTask → GroupTask}
    (id : ∀ task ∈ tasks, (f task).id = task.id)
    (dependencies : ∀ task ∈ tasks, (f task).dependencies = task.dependencies)
    (finished : ∀ task ∈ tasks, task.status = .done → (f task).status = .done)
    (evidence : ∀ task ∈ tasks, (f task).status = .done → pyStrip (f task).evidence ≠ "")
    (owner : ∀ task ∈ tasks, (f task).Started → (f task).ownerId ≠ none)
    (waits : ∀ task ∈ tasks, (f task).Started → ∀ item ∈ tasks, item.id ∈ task.dependencies →
      item.status = .done)
    (named : ∀ task ∈ tasks, (f task).ownerId ≠ some "") : Board (tasks.map f) := by
  have ids : (tasks.map f).map GroupTask.id = tasks.map GroupTask.id := by
    rw [List.map_map]
    exact List.map_congr_left id
  refine ⟨?_, ?_, ?_, ?_, ?_, ?_, ?_⟩
  · rw [ids]
    exact board.ids
  · intro after mem dep isDep
    obtain ⟨task, inTasks, rfl⟩ := List.mem_map.mp mem
    rw [dependencies task inTasks] at isDep
    rw [ids]
    exact board.closed task inTasks dep isDep
  · apply Subrelation.wf ?_ board.acyclic
    intro b a depends
    obtain ⟨after, mem, rfl, isDep⟩ := depends
    obtain ⟨task, inTasks, rfl⟩ := List.mem_map.mp mem
    rw [dependencies task inTasks] at isDep
    exact ⟨task, inTasks, (id task inTasks).symm, isDep⟩
  · intro after mem
    obtain ⟨task, inTasks, rfl⟩ := List.mem_map.mp mem
    exact owner task inTasks
  · intro after mem started dep isThere isDep
    obtain ⟨task, inTasks, rfl⟩ := List.mem_map.mp mem
    obtain ⟨item, isItem, rfl⟩ := List.mem_map.mp isThere
    rw [id item isItem, dependencies task inTasks] at isDep
    exact finished item isItem (waits task inTasks started item isItem isDep)
  · intro after mem
    obtain ⟨task, inTasks, rfl⟩ := List.mem_map.mp mem
    exact evidence task inTasks
  · intro after mem
    obtain ⟨task, inTasks, rfl⟩ := List.mem_map.mp mem
    exact named task inTasks

end Update

end AgentPark.Groups
