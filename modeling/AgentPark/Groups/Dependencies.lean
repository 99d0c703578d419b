import AgentPark.Groups.Board

/-!
# The walk over the dependencies decides whether there is a cycle
-/

namespace AgentPark.Groups

open Lib

def cycleError : GroupError := .conflict "task dependencies cannot contain cycles"

/-- A chain of dependencies comes back to a task. -/
def HasCycle (table : List (String × GroupTask)) : Prop :=
  ∃ id, Relation.TransGen (TableDepends table) id id

/-- `walkAll`, for any kind of error. -/
def walkEach {ε : Type} (visit : List String → String → Except ε (List String)) :
    List String → List String → Except ε (List String)
  | visited, [] => .ok visited
  | visited, dep :: deps => do
    let visited ← visit visited dep
    walkEach visit visited deps

/-- `walk` with an error of its own, `none`, for fuel that is used up. -/
def walkWithin (table : List (String × GroupTask)) :
    Nat → List String → List String → String → Except (Option GroupError) (List String)
  | 0, _, _, _ => .error none
  | fuel + 1, visiting, visited, taskId =>
    if taskId ∈ visiting then .error (some cycleError)
    else if taskId ∈ visited then .ok visited
    else
      match table.lookup taskId with
      | none => .error (some (.key taskId))
      | some task => do
        let visited ← walkEach (walkWithin table fuel (taskId :: visiting)) visited task.dependencies
        .ok (taskId :: visited)

section
variable {table : List (String × GroupTask)} {visiting visited : List String} {fuel : Nat} {id : String}

/-- The tasks that are being visited are distinct tasks of the table, and the fuel is enough for the
others. -/
structure Enough (table : List (String × GroupTask)) (visiting : List String) (fuel : Nat) : Prop where
  nodup : visiting.Nodup
  known : visiting ⊆ table.map Prod.fst
  fuel : table.length < visiting.length + fuel

theorem Enough.start (more : Nat) : Enough table [] (table.length + 1 + more) where
  nodup := List.nodup_nil
  known := List.nil_subset _
  fuel := by
    rw [List.length_nil]
    omega

theorem Enough.positive (enough : Enough table visiting fuel) : fuel ≠ 0 := by
  intro none
  have fits := (List.subperm_of_subset enough.nodup enough.known).length_le
  have more := enough.fuel
  rw [List.length_map] at fits
  omega

theorem Enough.visit (enough : Enough table visiting (fuel + 1)) (new : id ∉ visiting) {task : GroupTask}
    (found : table.lookup id = some task) : Enough table (id :: visiting) fuel where
  nodup := List.nodup_cons.mpr ⟨new, enough.nodup⟩
  known := List.cons_subset.mpr ⟨List.mem_map_of_mem (mem_of_lookup found), enough.known⟩
  fuel := by
    have more := enough.fuel
    rw [List.length_cons]
    omega

theorem walkEach_eq {visit : List String → String → Except GroupError (List String)}
    {within : List String → String → Except (Option GroupError) (List String)}
    (same : ∀ visited id, within visited id = (visit visited id).mapError some) (ids : List String) :
    walkEach within visited ids = (walkAll visit visited ids).mapError some := by
  induction ids generalizing visited with
  | nil => rfl
  | cons id ids ih =>
    rw [walkEach, walkAll, same]
    cases visit visited id with
    | error error => rfl
    | ok after => exact ih

/-- The fuel is never used up, since the tasks that are being visited are distinct. -/
theorem walkWithin_eq (enough : Enough table visiting fuel) (visited : List String) (id : String) :
    walkWithin table fuel visiting visited id = (walk table fuel visiting visited id).mapError some := by
  induction fuel generalizing visiting visited id with
  | zero => exact absurd rfl enough.positive
  | succ fuel ih =>
    rw [walkWithin, walk]
    by_cases again : id ∈ visiting
    · rw [if_pos again, if_pos again]
      rfl
    · rw [if_neg again, if_neg again]
      by_cases old : id ∈ visited
      · rw [if_pos old, if_pos old]
        rfl
      · rw [if_neg old, if_neg old]
        cases found : table.lookup id with
        | none => rfl
        | some task =>
          dsimp only
          rw [walkEach_eq (ih (enough.visit again found))]
          cases walkAll (walk table fuel (id :: visiting)) visited task.dependencies with
          | error error => rfl
          | ok after => rfl

/-! ### Errors -/

/-- Every dependency of a task in the table is in the table. -/
def ClosedTable (table : List (String × GroupTask)) : Prop :=
  ∀ id task, table.lookup id = some task → ∀ dep ∈ task.dependencies, dep ∈ table.map Prod.fst

theorem walkAll_error {visit : List String → String → Except GroupError (List String)} {ids : List String}
    {error : GroupError} (failed : walkAll visit visited ids = .error error) :
    ∃ before, ∃ dep ∈ ids, visit before dep = .error error := by
  induction ids generalizing visited with
  | nil => cases failed
  | cons dep ids ih =>
    rw [walkAll] at failed
    rcases bind_eq_error.mp failed with first | ⟨after, -, later⟩
    · exact ⟨visited, dep, List.mem_cons_self, first⟩
    · obtain ⟨before, other, mem, isError⟩ := ih later
      exact ⟨before, other, List.mem_cons_of_mem dep mem, isError⟩

/-- A walk that fails has come back to a task that is being visited.  Induction on the depth: the tasks
being visited wait, one for the other, for the one the walk is at. -/
theorem walk_error (closed : ClosedTable table) (enough : Enough table visiting fuel)
    (known : id ∈ table.map Prod.fst)
    (waits : ∀ other ∈ visiting, Relation.TransGen (TableDepends table) id other) {error : GroupError}
    (failed : walk table fuel visiting visited id = .error error) : error = cycleError ∧ HasCycle table := by
  induction fuel generalizing visiting visited id with
  | zero => exact absurd rfl enough.positive
  | succ fuel ih =>
    rw [walk] at failed
    by_cases again : id ∈ visiting
    · rw [if_pos again] at failed
      cases failed
      exact ⟨rfl, id, waits id again⟩
    · rw [if_neg again] at failed
      split_ifs at failed
      cases found : table.lookup id with
      | none =>
        obtain ⟨entry, mem, isKey⟩ := List.mem_map.mp known
        have differs := List.lookup_eq_none_iff.mp found entry mem
        rw [isKey, bne_self_eq_false] at differs
        cases differs
      | some task =>
        rw [found] at failed
        rcases bind_eq_error.mp failed with inside | ⟨after, -, absurd⟩
        · obtain ⟨before, dep, isDep, isError⟩ := walkAll_error inside
          have depends : TableDepends table dep id := ⟨task, found, isDep⟩
          refine ih (enough.visit again found) (closed id task found dep isDep) ?_ isError
          refine List.forall_mem_cons.mpr ⟨.single depends, fun other mem => ?_⟩
          exact (waits other mem).head depends
        · cases absurd

theorem walkTable_cycle_iff (closed : ClosedTable table) :
    walkAll (walk table (table.length + 1) []) [] (table.map Prod.fst) = .error cycleError ↔
      HasCycle table := by
  constructor
  · intro failed
    obtain ⟨before, id, known, isError⟩ := walkAll_error failed
    exact (walk_error closed (Enough.start 0) known (fun _ mem => by cases mem) isError).2
  · rintro ⟨id, cycle⟩
    cases ran : walkAll (walk table (table.length + 1) []) [] (table.map Prod.fst) with
    | ok visited =>
      have irrefl := (walkAll_wellFounded ran).transGen.irrefl
      exact absurd cycle (irrefl.irrefl id)
    | error error =>
      obtain ⟨before, other, known, isError⟩ := walkAll_error ran
      rw [(walk_error closed (Enough.start 0) known (fun _ mem => by cases mem) isError).1]

end

/-! ### The validation -/

section
variable {group : AgentGroup} {task : GroupTask}

theorem taskTable_closed
    (closed : ∀ item ∈ group.tasks, ∀ dep ∈ item.dependencies, dep ∈ group.tasks.map GroupTask.id)
    (known : ∀ dep ∈ task.dependencies, dep = task.id ∨ dep ∈ group.tasks.map GroupTask.id) :
    ClosedTable (taskTable group.tasks task) := by
  have fromTasks : ∀ (tasks : List GroupTask) table,
      (∀ entry ∈ table, entry.2 ∈ group.tasks) → (∀ item ∈ tasks, item ∈ group.tasks) →
        ∀ entry ∈ tasks.foldl (fun table item => dictSet table item.id item) table,
          entry.2 ∈ group.tasks := by
    intro tasks
    induction tasks with
    | nil => exact fun _ old _ => old
    | cons item tasks ih =>
      intro table old new
      obtain ⟨first, later⟩ := List.forall_mem_cons.mp new
      exact ih _ (forall_mem_dictSet old item.id first) later
  intro id item found dep isDep
  rw [mem_keys_taskTable]
  rw [taskTable, lookup_dictSet] at found
  split_ifs at found
  · cases found
    exact known dep isDep
  · have mem := fromTasks group.tasks [] (List.forall_mem_nil _) (fun _ mem => mem) _ (mem_of_lookup found)
    exact .inr (closed item mem dep isDep)

theorem requireStarted_ne_cycle (table : List (String × GroupTask)) :
    requireStarted table task ≠ .error cycleError := by
  rw [requireStarted]
  split_ifs
  · intro failed
    rcases bind_eq_error.mp failed with first | ⟨-, -, second⟩
    · unfold require at first
      split_ifs at first
      exact absurd first (by simp [cycleError])
    · unfold require at second
      split_ifs at second
      exact absurd second (by simp [cycleError])
  · intro failed
    cases failed

/-- `validate_task` walks the dependencies to an end, and finds a cycle if and only if there is one with
the candidate in place.  The dependencies of the stored tasks exist, as those of the candidate do. -/
theorem validateTask_cycle_iff (group : AgentGroup) (task : GroupTask)
    (closed : ∀ item ∈ group.tasks, ∀ dep ∈ item.dependencies, dep ∈ group.tasks.map GroupTask.id)
    (known : ∀ dep ∈ task.dependencies, dep = task.id ∨ dep ∈ group.tasks.map GroupTask.id) :
    (∀ more visited id, ∃ result : Except GroupError (List String),
      walkWithin (taskTable group.tasks task) ((taskTable group.tasks task).length + 1 + more) [] visited id =
        result.mapError some) ∧
    (walkAll (walk (taskTable group.tasks task) ((taskTable group.tasks task).length + 1) []) []
        ((taskTable group.tasks task).map Prod.fst) = .error cycleError ↔
      HasCycle (taskTable group.tasks task)) ∧
    ((∀ owner, task.ownerId = some owner → owner ∈ group.memberIds) → task.dependencies.Nodup →
      (validateTask group task = .error cycleError ↔ HasCycle (taskTable group.tasks task))) := by
  have decides := walkTable_cycle_iff (taskTable_closed closed known)
  refine ⟨fun more visited id => ⟨_, walkWithin_eq (Enough.start more) visited id⟩, decides, ?_⟩
  intro owned nodup
  have exist : ∀ dep ∈ task.dependencies, dep ∈ (taskTable group.tasks task).map Prod.fst :=
    fun dep isDep => mem_keys_taskTable.mpr (known dep isDep)
  rw [← decides, validateTask, require, if_pos owned, require, if_pos nodup]
  change (require _ _ >>= fun _ => _) = _ ↔ _
  rw [require, if_pos exist]
  change (walkAll _ _ _ >>= fun _ => _) = _ ↔ _
  constructor
  · intro failed
    rcases bind_eq_error.mp failed with walked | ⟨-, -, later⟩
    · exact walked
    · rcases bind_eq_error.mp later with started | ⟨-, -, evidence⟩
      · exact absurd started (requireStarted_ne_cycle _)
      · unfold require at evidence
        split_ifs at evidence
        exact absurd evidence (by simp [cycleError])
  · intro walked
    exact bind_eq_error.mpr (.inl walked)

end

/-- A group in which the task `u` waits for the task `t`. -/
def waitingGroup : AgentGroup where
  id := "g"
  name := "g"
  bounds := { x := 0, y := 0, width := 1, height := 1, width_pos := unit_pos, height_pos := unit_pos }
  tasks := [{ id := "t", title := "t", createdAt := "", updatedAt := "" },
    { id := "u", title := "u", dependencies := ["t"], createdAt := "", updatedAt := "" }]
  createdAt := ""
  updatedAt := ""

/-- The task `t`, which is to wait for `u`. -/
def waitingTask : GroupTask where
  id := "t"
  title := "t"
  dependencies := ["u"]
  createdAt := ""
  updatedAt := ""

/-- The tasks would wait for each other. -/
theorem validateTask_cycle_iff_waiting : validateTask waitingGroup waitingTask = .error cycleError := by
  refine ((validateTask_cycle_iff waitingGroup waitingTask (by decide) (by decide)).2.2 nofun (by decide)).mpr
    ⟨"t", ?_⟩
  have first : TableDepends (taskTable waitingGroup.tasks waitingTask) "u" "t" :=
    ⟨waitingTask, rfl, List.mem_cons_self⟩
  have second : TableDepends (taskTable waitingGroup.tasks waitingTask) "t" "u" :=
    ⟨_, rfl, List.mem_cons_self⟩
  exact .tail (.single second) first

end AgentPark.Groups
