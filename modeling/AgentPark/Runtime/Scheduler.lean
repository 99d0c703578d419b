import AgentPark.Lib.Execution
import AgentPark.Runtime.StoreOp
import Mathlib.Logic.Function.Basic

/-!
# The scheduler of a graph

`_run_scheduler_batch` goes through the nodes of a graph; for each it checks that no task of the
node is running, recovers a stale state, dequeues one item and hands it to an executor task.  Tasks
finish, messages arrive and `runner_status` cleans up between any two of these steps.
-/

namespace AgentPark.Runtime

open Lib

/-- How far the task of a node has come: `_run_single_node_iteration` clears the item in flight,
then settles the node state, and the future is done after both. -/
inductive TaskPhase where
  | running
  | cleared
  | settled
  | done
deriving DecidableEq

/-- `GraphExecutionTask`; `pendingItem` is the item its thread works on. -/
structure GraphExecutionTask where
  taskId : String
  nodeId : String
  traceId : String
  pendingItem : Item
  phase : TaskPhase := .running
deriving DecidableEq

/-- Where a batch stands, between two reads or writes of shared state. -/
inductive BatchPoint where
  | next
  | checking (entry : String) (cfg : RuntimeState)
  | recovering (entry : String) (cfg : RuntimeState)
  | rereading (entry : String)
  | gating (entry : String) (cfg : RuntimeState)
  | dequeuing (entry : String) (readyForNode : Nat)
  | submitting (entry : String) (item : Item)
deriving DecidableEq

/-- A running `_run_scheduler_batch`: the entries still to come and the count of ready items. -/
structure SchedulerBatch where
  rest : List String
  readyPendingCount : Nat := 0
  point : BatchPoint := .next
deriving DecidableEq

/-- The entry a batch has found without a running task. -/
def BatchPoint.checked : BatchPoint → Option String
  | .next => none
  | .checking _ _ => none
  | .recovering entry _ => some entry
  | .rereading entry => some entry
  | .gating entry _ => some entry
  | .dequeuing entry _ => some entry
  | .submitting entry _ => some entry

/-- The item a batch has dequeued and not handed on. -/
def BatchPoint.holding : BatchPoint → Option (String × Item)
  | .submitting entry item => some (entry, item)
  | _ => none

/-- The scheduler state of a graph.  `nodes` are the runtime states, `dequeued` the items
`dequeue_pending_to_working` returned and `started` those `executor.submit` got, in order. -/
structure GraphRunnerState where
  nodes : String → RuntimeState
  activeTasks : List GraphExecutionTask := []
  readyPendingCount : Nat := 0
  batch : Option SchedulerBatch := none
  dequeued : List (String × Item) := []
  started : List (String × Item) := []

/-- The entry the batch has found without a running task. -/
def GraphRunnerState.checked (s : GraphRunnerState) : Option String :=
  s.batch.bind (·.point.checked)

/-- The item the batch has dequeued and not handed on. -/
def GraphRunnerState.holding (s : GraphRunnerState) : Option (String × Item) :=
  s.batch.bind (·.point.holding)

/-- `_cleanup_finished_tasks`. -/
def cleanupFinishedTasks (tasks : List GraphExecutionTask) : List GraphExecutionTask :=
  tasks.filter (·.phase ≠ .done)

/-- The running check of a batch. -/
def nodeIsRunning (tasks : List GraphExecutionTask) (entry : String) : Bool :=
  tasks.any fun task => task.nodeId = entry && task.phase ≠ .done

/-- `_ready_pending_count_for_config`. -/
def readyPendingCountForConfig (typeId : String) (cfg : RuntimeState) : Nat :=
  if cfg.deleteRequested then 0
  else if cfg.state ≠ .idle ∧ ¬ clockWaiting typeId cfg then 0
  else cfg.pending.length

/-- The trace id `_submit_executor_task` gives an item; `fresh` is the `uuid4` it would draw. -/
def traceIdFor (fresh : String) (item : Item) : String :=
  if pyStrip item.traceId = "" then fresh else pyStrip item.traceId

/-- The task id of an item of a node. -/
def taskIdFor (fresh entry : String) (item : Item) : String :=
  traceIdFor fresh item ++ ":" ++ entry

/-- `_submit_executor_task`: the task it starts, or `none` for a task id in `active_tasks`. -/
def submitExecutorTask (fresh entry : String) (item : Item) (tasks : List GraphExecutionTask) :
    Option GraphExecutionTask :=
  let traceId := traceIdFor fresh item
  let taskId := taskIdFor fresh entry item
  if tasks.any (·.taskId = taskId) then none
  else some { taskId, nodeId := entry, traceId, pendingItem := { item with traceId } }

/-- Move the task with an id to a phase. -/
def setTaskPhase (taskId : String) (phase : TaskPhase) (tasks : List GraphExecutionTask) :
    List GraphExecutionTask :=
  tasks.map fun task => if task.taskId = taskId then { task with phase } else task

/-- How a run leaves the node state: the error exits call `transition_to_idle`, a finished run
calls `complete_work`. -/
inductive RunEnd where
  | transitionToIdle
  | completeWork (heldOutput : Option HeldOutput)
deriving DecidableEq

/-- The store operation of a run end. -/
def RunEnd.perform (typeId : String) (s : RuntimeState) : RunEnd → RuntimeState
  | .transitionToIdle => Runtime.transitionToIdle typeId s
  | .completeWork heldOutput => (Runtime.completeWork typeId heldOutput s).2.2

/-- A step of the batch, of a task or of another thread. -/
inductive SchedulerAction where
  | appendPending (node : String) (item : Item)
  | runnerStatus
  | startBatch (entries : List String)
  | readEntry
  | checkRunning
  | recoverStale
  | reread
  | gateReady
  | dequeue
  | submit (fresh : String)
  | skipEntry
  | finishBatch
  | taskClear (taskId : String)
  | taskSettle (taskId : String) (runEnd : RunEnd)
  | taskDone (taskId : String)
deriving DecidableEq

/-- The state of a node changes. -/
def GraphRunnerState.setNode (s : GraphRunnerState) (node : String) (state : RuntimeState) :
    GraphRunnerState :=
  { s with nodes := Function.update s.nodes node state }

/-- The batch goes on at a point. -/
def GraphRunnerState.goTo (s : GraphRunnerState) (batch : SchedulerBatch) (point : BatchPoint) :
    GraphRunnerState :=
  { s with batch := some { batch with point } }

/-- One step.  `types` are the node types and `owner` is the runtime owner id. -/
def GraphRunnerState.step (types : String → String) (owner : String) (s : GraphRunnerState) :
    SchedulerAction → Option GraphRunnerState
  | .appendPending node item =>
    some (s.setNode node ((StoreOp.appendPending item).perform (types node) (s.nodes node)).next)
  | .runnerStatus => some { s with activeTasks := cleanupFinishedTasks s.activeTasks }
  | .startBatch entries =>
    match s.batch with
    | none =>
      some { s with
        activeTasks := cleanupFinishedTasks s.activeTasks
        batch := some { rest := entries } }
    | some _ => none
  | .readEntry =>
    match s.batch with
    | some ⟨entry :: rest, ready, .next⟩ =>
      some { s with batch := some ⟨rest, ready, .checking entry (s.nodes entry)⟩ }
    | _ => none
  | .checkRunning =>
    match s.batch with
    | some ⟨rest, ready, .checking entry cfg⟩ =>
      some (s.goTo ⟨rest, ready, .next⟩
        (if nodeIsRunning s.activeTasks entry then .next else .recovering entry cfg))
    | _ => none
  | .recoverStale =>
    match s.batch with
    | some ⟨rest, ready, .recovering entry cfg⟩ =>
      let (plan, state) := recoverStaleWorking (types entry) (s.nodes entry)
      some ((s.setNode entry state).goTo ⟨rest, ready, .next⟩
        (if plan.changed then .rereading entry else .gating entry cfg))
    | _ => none
  | .reread =>
    match s.batch with
    | some ⟨rest, ready, .rereading entry⟩ =>
      some (s.goTo ⟨rest, ready, .next⟩ (.gating entry (s.nodes entry)))
    | _ => none
  | .gateReady =>
    match s.batch with
    | some ⟨rest, ready, .gating entry cfg⟩ =>
      let readyForNode := readyPendingCountForConfig (types entry) cfg
      some (s.goTo ⟨rest, ready, .next⟩
        (if readyForNode = 0 then .next else .dequeuing entry readyForNode))
    | _ => none
  | .dequeue =>
    match s.batch with
    | some ⟨rest, ready, .dequeuing entry readyForNode⟩ =>
      match dequeuePendingToWorking (types entry) owner (s.nodes entry) with
      | (none, state) =>
        some ((s.setNode entry state).goTo ⟨rest, ready + readyForNode, .next⟩ .next)
      | (some item, state) =>
        some { (s.setNode entry state).goTo ⟨rest, ready + (readyForNode - 1), .next⟩
            (.submitting entry item) with
          dequeued := s.dequeued ++ [(entry, item)] }
    | _ => none
  | .submit fresh =>
    match s.batch with
    | some ⟨rest, ready, .submitting entry item⟩ =>
      match submitExecutorTask fresh entry item s.activeTasks with
      | none => some (s.goTo ⟨rest, ready, .next⟩ .next)
      | some task =>
        some { s.goTo ⟨rest, ready, .next⟩ .next with
          activeTasks := s.activeTasks ++ [task]
          started := s.started ++ [(entry, item)] }
    | _ => none
  -- the config file of the entry is gone, or its ports cannot be read
  | .skipEntry =>
    match s.batch with
    | some ⟨_ :: rest, ready, .next⟩ => some { s with batch := some ⟨rest, ready, .next⟩ }
    | some ⟨rest, ready, .recovering _ _⟩ => some (s.goTo ⟨rest, ready, .next⟩ .next)
    | some ⟨rest, ready, .rereading _⟩ => some (s.goTo ⟨rest, ready, .next⟩ .next)
    | _ => none
  -- the entries are used up, or the runner was stopped
  | .finishBatch =>
    match s.batch with
    | some ⟨_, ready, .next⟩ => some { s with batch := none, readyPendingCount := ready }
    | _ => none
  | .taskClear taskId =>
    match s.activeTasks.find? (·.taskId = taskId) with
    | some ⟨_, nodeId, _, _, .running⟩ =>
      some { s.setNode nodeId (setInflight none (s.nodes nodeId)) with
        activeTasks := setTaskPhase taskId .cleared s.activeTasks }
    | _ => none
  | .taskSettle taskId runEnd =>
    match s.activeTasks.find? (·.taskId = taskId) with
    | some ⟨_, nodeId, _, _, .cleared⟩ =>
      some { s.setNode nodeId (runEnd.perform (types nodeId) (s.nodes nodeId)) with
        activeTasks := setTaskPhase taskId .settled s.activeTasks }
    | _ => none
  | .taskDone taskId =>
    match s.activeTasks.find? (·.taskId = taskId) with
    | some ⟨_, _, _, _, .settled⟩ =>
      some { s with activeTasks := setTaskPhase taskId .done s.activeTasks }
    | _ => none

/-! ## What a dequeued item is owed -/

/-- An item in flight belongs to the batch that has just dequeued it, or to a task at work. -/
def GraphRunnerState.Owned (s : GraphRunnerState) (node : String) (item : Item) : Prop :=
  s.holding = some (node, item) ∨
    ∃ task ∈ s.activeTasks, task.nodeId = node ∧ task.phase = .running ∧
      task.pendingItem = { item with traceId := task.traceId }

/-- Every dequeued item was handed to one started task, up to the one the batch holds, and no node
has an item in flight that nobody works on. -/
structure Served (s : GraphRunnerState) : Prop where
  handed : s.dequeued = s.started ++ s.holding.toList
  owned : ∀ node item, (s.nodes node).inflight = some item → s.Owned node item

/-- `_submit_executor_task` finds the task id of its item free. -/
def TaskIdFree (s : GraphRunnerState) (a : SchedulerAction) (_ : GraphRunnerState) : Prop :=
  ∀ fresh, a = .submit fresh → ∀ entry item, s.holding = some (entry, item) →
    ∀ task ∈ s.activeTasks, task.taskId ≠ taskIdFor fresh entry item

/-! ## The task list -/

variable {tasks : List GraphExecutionTask}

theorem submitExecutorTask_eq_none {fresh entry : String} {item : Item} :
    submitExecutorTask fresh entry item tasks = none ↔
      ∃ task ∈ tasks, task.taskId = taskIdFor fresh entry item := by
  simp [submitExecutorTask]

variable {task : GraphExecutionTask}

theorem submitExecutorTask_eq_some {fresh entry : String} {item : Item}
    (started : submitExecutorTask fresh entry item tasks = some task) :
    (∀ other ∈ tasks, other.taskId ≠ task.taskId) ∧ task.nodeId = entry ∧
      task.phase = .running ∧ task.pendingItem = { item with traceId := task.traceId } := by
  simp only [submitExecutorTask] at started
  generalize taskIdFor fresh entry item = id at started
  split at started
  · cases started
  · rename_i free
    cases started
    refine ⟨fun other mem same => free ?_, rfl, rfl, rfl⟩
    exact List.any_eq_true.mpr ⟨other, mem, by simpa using same⟩

/-- Later tasks with the ids and nodes of earlier ones, none of them revived. -/
def TasksFrom (tasks later : List GraphExecutionTask) : Prop :=
  ∀ task ∈ later, ∃ old ∈ tasks, task.taskId = old.taskId ∧ task.nodeId = old.nodeId ∧
    (task.phase ≠ .done → old.phase ≠ .done)

theorem tasksFrom_setTaskPhase {target : GraphExecutionTask} (phase : TaskPhase)
    (live : target.phase ≠ .done)
    (only : ∀ task ∈ tasks, task.taskId = target.taskId → task = target) :
    TasksFrom tasks (setTaskPhase target.taskId phase tasks) := by
  intro task mem
  obtain ⟨old, oldMem, moved⟩ := List.mem_map.mp mem
  refine ⟨old, oldMem, ?_⟩
  split at moved
  · rename_i hit
    cases only old oldMem hit
    cases moved
    exact ⟨rfl, rfl, fun _ => live⟩
  · cases moved
    exact ⟨rfl, rfl, id⟩

theorem mem_setTaskPhase_of_ne {taskId : String} {phase : TaskPhase} (mem : task ∈ tasks)
    (other : task.taskId ≠ taskId) :
    task ∈ setTaskPhase taskId phase tasks :=
  List.mem_map.mpr ⟨task, mem, if_neg other⟩

theorem findTask {taskId : String} (found : tasks.find? (·.taskId = taskId) = some task) :
    taskId = task.taskId ∧ task ∈ tasks :=
  ⟨by simpa [eq_comm] using List.find?_some found, List.mem_of_find?_eq_some found⟩

theorem RunEnd.perform_inflight (runEnd : RunEnd) (typeId : String) (s : RuntimeState) :
    (runEnd.perform typeId s).inflight = s.inflight := by
  cases runEnd with
  | transitionToIdle => exact transitionToIdle_inflight typeId s
  | completeWork heldOutput => exact completeWork_inflight typeId heldOutput s

theorem map_taskId_setTaskPhase (taskId : String) (phase : TaskPhase)
    (tasks : List GraphExecutionTask) :
    (setTaskPhase taskId phase tasks).map (·.taskId) = tasks.map (·.taskId) := by
  unfold setTaskPhase
  rw [List.map_map]
  refine List.map_congr_left fun task _ => ?_
  simp only [Function.comp_apply]
  split <;> rfl

/-! ## The invariant -/

/-- What every step under `TaskIdFree` keeps: task ids are distinct, a node has at most one live
task and none behind the running check, and an item in flight means a working node. -/
structure SchedulerInv (s : GraphRunnerState) : Prop where
  ids : (s.activeTasks.map (·.taskId)).Nodup
  unique : ∀ task ∈ s.activeTasks, ∀ other ∈ s.activeTasks, task.phase ≠ .done →
    other.phase ≠ .done → task.nodeId = other.nodeId → task.taskId = other.taskId
  checked : ∀ entry, s.checked = some entry →
    ∀ task ∈ s.activeTasks, task.nodeId = entry → task.phase = .done
  working : ∀ node, (s.nodes node).inflight ≠ none → (s.nodes node).state = .working
  served : Served s

section Invariant

variable {s s' : GraphRunnerState}

variable {task : GraphExecutionTask}

theorem SchedulerInv.eq_of_taskId (inv : SchedulerInv s) {other : GraphExecutionTask}
    (mem : task ∈ s.activeTasks) (otherMem : other ∈ s.activeTasks)
    (same : task.taskId = other.taskId) : task = other :=
  List.inj_on_of_nodup_map inv.ids mem otherMem same

theorem SchedulerInv.eq_of_nodeId (inv : SchedulerInv s) {other : GraphExecutionTask}
    (mem : task ∈ s.activeTasks) (otherMem : other ∈ s.activeTasks) (live : task.phase ≠ .done)
    (otherLive : other.phase ≠ .done) (same : task.nodeId = other.nodeId) : task = other :=
  inv.eq_of_taskId mem otherMem (inv.unique task mem other otherMem live otherLive same)

variable {entry : String} {item : Item}

theorem GraphRunnerState.checked_of_holding (holding : s.holding = some (entry, item)) :
    s.checked = some entry := by
  unfold GraphRunnerState.holding at holding
  obtain ⟨batch, running, point⟩ := Option.bind_eq_some_iff.mp holding
  refine Option.bind_eq_some_iff.mpr ⟨batch, running, ?_⟩
  cases at_point : batch.point <;> rw [at_point] at point <;> cases point
  rfl

theorem SchedulerInv.inflight_eq_none (inv : SchedulerInv s) (mem : task ∈ s.activeTasks)
    (live : task.phase ≠ .done) (cleared : task.phase ≠ .running) :
    (s.nodes task.nodeId).inflight = none := by
  by_contra some_inflight
  obtain ⟨item, inflight⟩ := Option.ne_none_iff_exists'.mp some_inflight
  rcases inv.served.owned task.nodeId item inflight with holding | ⟨owner, ownerMem, node, run, _⟩
  · have checked := GraphRunnerState.checked_of_holding holding
    exact live (inv.checked task.nodeId checked task mem rfl)
  · have same : owner = task := inv.eq_of_nodeId ownerMem mem (by simp [run]) live node
    exact cleared (same ▸ run)

theorem SchedulerInv.frame (inv : SchedulerInv s) (tasks : s'.activeTasks = s.activeTasks)
    (inflight : ∀ node, (s'.nodes node).inflight = (s.nodes node).inflight)
    (state : ∀ node, (s.nodes node).inflight ≠ none → (s'.nodes node).state = (s.nodes node).state)
    (checked : ∀ entry, s'.checked = some entry →
      ∀ task ∈ s.activeTasks, task.nodeId = entry → task.phase = .done)
    (holding : s'.holding = s.holding) (dequeued : s'.dequeued = s.dequeued)
    (started : s'.started = s.started) : SchedulerInv s' := by
  refine ⟨?_, ?_, ?_, fun node some_inflight => ?_, ?_, fun node item found => ?_⟩
  · rw [tasks]
    exact inv.ids
  · rw [tasks]
    exact inv.unique
  · rw [tasks]
    exact checked
  · rw [inflight node] at some_inflight
    rw [state node some_inflight]
    exact inv.working node some_inflight
  · rw [dequeued, started, holding]
    exact inv.served.handed
  · rw [inflight node] at found
    unfold GraphRunnerState.Owned
    rw [holding, tasks]
    exact inv.served.owned node item found

/-- The batch moves on. -/
theorem SchedulerInv.move (inv : SchedulerInv s) {batch : Option SchedulerBatch} {count : Nat}
    (checked : ∀ entry, ({ s with batch, readyPendingCount := count } : GraphRunnerState).checked = some entry →
      s.checked = some entry)
    (holding : ({ s with batch, readyPendingCount := count } : GraphRunnerState).holding = s.holding) :
    SchedulerInv { s with batch, readyPendingCount := count } :=
  inv.frame rfl (fun _ => rfl) (fun _ _ => rfl) (fun entry found => inv.checked entry (checked entry found)) holding
    rfl rfl

theorem SchedulerInv.cleanup (inv : SchedulerInv s) :
    SchedulerInv { s with activeTasks := cleanupFinishedTasks s.activeTasks } := by
  have kept : ∀ task ∈ cleanupFinishedTasks s.activeTasks, task ∈ s.activeTasks :=
    fun task mem => (List.mem_filter.mp mem).1
  refine ⟨?_, ?_, ?_, inv.working, inv.served.handed, fun node item found => ?_⟩
  · exact inv.ids.sublist ((List.filter_sublist).map _)
  · exact fun task mem other otherMem => inv.unique task (kept task mem) other (kept other otherMem)
  · exact fun entry checked task mem => inv.checked entry checked task (kept task mem)
  · rcases inv.served.owned node item found with holding | ⟨owner, mem, node, run, payload⟩
    · exact Or.inl holding
    · exact Or.inr ⟨owner, List.mem_filter.mpr ⟨mem, by simp [run]⟩, node, run, payload⟩

variable {state : RuntimeState}

theorem SchedulerInv.frameNode (inv : SchedulerInv s) {node : String}
    (nodes : s'.nodes = Function.update s.nodes node state)
    (inflight : state.inflight = (s.nodes node).inflight)
    (keeps : (s.nodes node).inflight ≠ none → state.state = (s.nodes node).state)
    (tasks : s'.activeTasks = s.activeTasks)
    (checked : ∀ entry, s'.checked = some entry →
      ∀ task ∈ s.activeTasks, task.nodeId = entry → task.phase = .done)
    (holding : s'.holding = s.holding) (dequeued : s'.dequeued = s.dequeued)
    (started : s'.started = s.started) : SchedulerInv s' := by
  refine inv.frame tasks (fun other => ?_) (fun other found => ?_) checked holding dequeued started
  · rw [nodes]
    rcases eq_or_ne other node with rfl | differs
    · rw [Function.update_self, inflight]
    · rw [Function.update_of_ne differs]
  · rw [nodes]
    rcases eq_or_ne other node with rfl | differs
    · rw [Function.update_self, keeps found]
    · rw [Function.update_of_ne differs]

theorem SchedulerInv.advance (inv : SchedulerInv s) (phase : TaskPhase) (mem : task ∈ s.activeTasks)
    (live : task.phase ≠ .done) (clear : state.inflight = none) :
    SchedulerInv { s.setNode task.nodeId state with
      activeTasks := setTaskPhase task.taskId phase s.activeTasks } := by
  have later := tasksFrom_setTaskPhase phase live fun other otherMem same =>
    inv.eq_of_taskId otherMem mem same
  refine ⟨?_, fun first firstMem second secondMem firstLive secondLive node => ?_,
    fun entry checked moved movedMem node => ?_, fun node found => ?_, inv.served.handed,
    fun node item found => ?_⟩
  · simpa only [map_taskId_setTaskPhase] using inv.ids
  · obtain ⟨old, oldMem, id, oldNode, oldLive⟩ := later first firstMem
    obtain ⟨old', oldMem', id', oldNode', oldLive'⟩ := later second secondMem
    rw [id, id']
    exact inv.unique old oldMem old' oldMem' (oldLive firstLive) (oldLive' secondLive)
      (by rw [← oldNode, ← oldNode', node])
  · obtain ⟨old, oldMem, _, oldNode, oldLive⟩ := later moved movedMem
    have done := inv.checked entry checked old oldMem (by rw [← oldNode, node])
    exact not_not.mp fun movedLive => oldLive movedLive done
  · rcases eq_or_ne node task.nodeId with rfl | differs
    · simp [GraphRunnerState.setNode, clear] at found
    · simp only [GraphRunnerState.setNode, Function.update_of_ne differs] at found ⊢
      exact inv.working node found
  · rcases eq_or_ne node task.nodeId with rfl | differs
    · simp [GraphRunnerState.setNode, clear] at found
    · simp only [GraphRunnerState.setNode, Function.update_of_ne differs] at found
      rcases inv.served.owned node item found with holding | ⟨owner, ownerMem, at_node, run, payload⟩
      · exact Or.inl holding
      · refine Or.inr ⟨owner, mem_setTaskPhase_of_ne ownerMem fun same => ?_, at_node, run, payload⟩
        exact differs (inv.eq_of_taskId ownerMem mem same ▸ at_node).symm

theorem SchedulerInv.dequeue (inv : SchedulerInv s) {typeId owner : String} {batch : SchedulerBatch}
    (found : dequeuePendingToWorking typeId owner (s.nodes entry) = (some item, state))
    (checked : s.checked = some entry) (holding : s.holding = none) :
    SchedulerInv { (s.setNode entry state).goTo batch (.submitting entry item) with
      dequeued := s.dequeued ++ [(entry, item)] } := by
  rcases dequeuePendingToWorking_cases typeId owner (s.nodes entry) with
    none | ⟨picked, rest, _, _, _, result⟩
  · rw [none] at found
    cases found
  · rw [result] at found
    cases found
    refine ⟨inv.ids, inv.unique, fun other isEntry => ?_, fun node _ => ?_, ?_,
      fun node other flight => ?_⟩
    · cases isEntry
      exact inv.checked entry checked
    · rcases eq_or_ne node entry with rfl | differs
      · simp [GraphRunnerState.setNode, GraphRunnerState.goTo]
      · rename_i flight
        simp only [GraphRunnerState.setNode, GraphRunnerState.goTo,
          Function.update_of_ne differs] at flight ⊢
        exact inv.working node flight
    · have handed := inv.served.handed
      rw [holding] at handed
      simpa [GraphRunnerState.holding, GraphRunnerState.goTo, GraphRunnerState.setNode,
        BatchPoint.holding] using handed
    · rcases eq_or_ne node entry with rfl | differs
      · simp only [GraphRunnerState.setNode, GraphRunnerState.goTo, Function.update_self,
          RuntimeState.bump_inflight, Option.some.injEq] at flight
        exact Or.inl (by rw [← flight]; rfl)
      · simp only [GraphRunnerState.setNode, GraphRunnerState.goTo,
          Function.update_of_ne differs] at flight
        rcases inv.served.owned node other flight with held | owned
        · rw [holding] at held
          cases held
        · exact Or.inr owned

theorem SchedulerInv.submit (inv : SchedulerInv s) {fresh : String} {batch : SchedulerBatch}
    (submitted : submitExecutorTask fresh entry item s.activeTasks = some task)
    (checked : s.checked = some entry) (holding : s.holding = some (entry, item)) :
    SchedulerInv { s.goTo batch .next with
      activeTasks := s.activeTasks ++ [task]
      started := s.started ++ [(entry, item)] } := by
  obtain ⟨free, node, run, payload⟩ := submitExecutorTask_eq_some submitted
  have idle := inv.checked entry checked
  refine ⟨?_, fun first firstMem second secondMem firstLive secondLive same => ?_,
    fun other isEntry => (by cases isEntry), inv.working, ?_, fun other otherItem flight => ?_⟩
  · rw [List.map_append, List.map_singleton, List.nodup_append]
    refine ⟨inv.ids, List.nodup_singleton _, fun id idMem taken takenMem => ?_⟩
    obtain ⟨other, otherMem, rfl⟩ := List.mem_map.mp idMem
    rw [List.mem_singleton.mp takenMem]
    exact free other otherMem
  · rcases List.mem_append.mp firstMem with firstOld | firstNew <;>
      rcases List.mem_append.mp secondMem with secondOld | secondNew
    · exact inv.unique first firstOld second secondOld firstLive secondLive same
    · rw [List.mem_singleton.mp secondNew, node] at same
      exact absurd (idle first firstOld same) firstLive
    · rw [List.mem_singleton.mp firstNew, node] at same
      exact absurd (idle second secondOld same.symm) secondLive
    · rw [List.mem_singleton.mp firstNew, List.mem_singleton.mp secondNew]
  · have handed := inv.served.handed
    rw [holding] at handed
    simpa [GraphRunnerState.holding, GraphRunnerState.goTo, BatchPoint.holding] using handed
  · refine Or.inr ?_
    rcases inv.served.owned other otherItem flight with held | ⟨owner, mem, rest⟩
    · rw [holding] at held
      cases held
      exact ⟨task, List.mem_append_right _ List.mem_cons_self, node, run, payload⟩
    · exact ⟨owner, List.mem_append_left _ mem, rest⟩

/-- Every step under `TaskIdFree` keeps the invariant. -/
theorem SchedulerInv.step {types : String → String} {owner : String} {a : SchedulerAction}
    (inv : SchedulerInv s) (enabled : s.step types owner a = some s') (free : TaskIdFree s a s') :
    SchedulerInv s' := by
  cases a with
  | appendPending node item =>
    cases enabled
    obtain ⟨inflight, state⟩ := StoreOp.perform_appendPending item (types node) (s.nodes node)
    exact inv.frameNode rfl inflight (fun _ => state) rfl inv.checked rfl rfl rfl
  | runnerStatus =>
    cases enabled
    exact inv.cleanup
  | startBatch entries =>
    simp only [GraphRunnerState.step] at enabled
    split at enabled
    · rename_i idle
      cases enabled
      exact inv.cleanup.move (fun _ none => nomatch none)
        (by simp [GraphRunnerState.holding, idle, BatchPoint.holding])
    · cases enabled
  | readEntry | reread | gateReady | skipEntry | finishBatch =>
    simp only [GraphRunnerState.step] at enabled
    split at enabled <;> cases enabled
    all_goals
      rename_i point
      refine inv.move (fun other found => ?_) ?_
      · grind [GraphRunnerState.checked, BatchPoint.checked]
      · grind [GraphRunnerState.holding, BatchPoint.holding]
  | checkRunning =>
    simp only [GraphRunnerState.step] at enabled
    split at enabled
    · rename_i rest ready entry cfg point
      cases enabled
      refine inv.frame rfl (fun _ => rfl) (fun _ _ => rfl) (fun other found task mem node => ?_)
        ?_ rfl rfl
      · -- the only place where the batch learns that the node has no live task
        cases running : nodeIsRunning s.activeTasks entry with
        | true => simp [GraphRunnerState.checked, GraphRunnerState.goTo, BatchPoint.checked,
            running] at found
        | false =>
          simp only [GraphRunnerState.checked, GraphRunnerState.goTo, BatchPoint.checked,
            running, Bool.false_eq_true, if_false, Option.bind_some, Option.some.injEq] at found
          simp only [nodeIsRunning, List.any_eq_false] at running
          have idle := running task mem
          simpa [node, found] using idle
      · cases running : nodeIsRunning s.activeTasks entry <;>
          simp [GraphRunnerState.holding, GraphRunnerState.goTo, point, BatchPoint.holding]
    · cases enabled
  | recoverStale =>
    simp only [GraphRunnerState.step] at enabled
    split at enabled
    · rename_i rest ready entry cfg point
      have checked : s.checked = some entry := by
        simp [GraphRunnerState.checked, point, BatchPoint.checked]
      have holding : s.holding = none := by
        simp [GraphRunnerState.holding, point, BatchPoint.holding]
      cases enabled
      rcases recoverStaleWorking_cases (types entry) (s.nodes entry) with
        ⟨unchanged, state⟩ | ⟨changed, _, inflight, _, state⟩
      · refine inv.frameNode rfl (by rw [state]) (fun _ => by rw [state]) rfl
          (fun other found => ?_) ?_ rfl rfl
        · simp only [unchanged] at found
          cases found
          exact inv.checked entry checked
        · rw [holding]
          simp [GraphRunnerState.holding, GraphRunnerState.goTo, BatchPoint.holding, unchanged]
      · refine inv.frameNode rfl (by rw [state]; exact inflight.symm)
          (fun flight => absurd inflight flight) rfl (fun other found => ?_) ?_ rfl rfl
        · simp only [changed] at found
          cases found
          exact inv.checked entry checked
        · rw [holding]
          simp [GraphRunnerState.holding, GraphRunnerState.goTo, BatchPoint.holding, changed]
    · cases enabled
  | dequeue =>
    simp only [GraphRunnerState.step] at enabled
    split at enabled
    · rename_i rest ready entry readyForNode point
      have holding : s.holding = none := by
        simp [GraphRunnerState.holding, point, BatchPoint.holding]
      split at enabled
      · rename_i state nothing
        cases enabled
        have same : state = s.nodes entry := by
          rcases dequeuePendingToWorking_cases (types entry) owner (s.nodes entry) with
            result | ⟨_, _, _, _, _, result⟩
          · rw [result] at nothing
            exact (congrArg Prod.snd nothing).symm
          · rw [result] at nothing
            cases nothing
        refine inv.frameNode rfl (by rw [same]) (fun _ => by rw [same]) rfl
          (fun _ found => ?_) ?_ rfl rfl
        · cases found
        · rw [holding]
          rfl
      · rename_i item state found
        cases enabled
        exact inv.dequeue found
          (by simp [GraphRunnerState.checked, point, BatchPoint.checked]) holding
    · cases enabled
  | submit fresh =>
    simp only [GraphRunnerState.step] at enabled
    split at enabled
    · rename_i rest ready entry item point
      have holding : s.holding = some (entry, item) := by
        simp [GraphRunnerState.holding, point, BatchPoint.holding]
      split at enabled
      · rename_i taken
        obtain ⟨task, mem, same⟩ := submitExecutorTask_eq_none.mp taken
        exact absurd same (free fresh rfl entry item holding task mem)
      · rename_i task submitted
        cases enabled
        exact inv.submit submitted
          (by simp [GraphRunnerState.checked, point, BatchPoint.checked]) holding
    · cases enabled
  | taskClear taskId =>
    simp only [GraphRunnerState.step] at enabled
    split at enabled
    · rename_i id nodeId traceId pendingItem found
      cases enabled
      obtain ⟨isTask, mem⟩ := findTask found
      cases isTask
      exact inv.advance .cleared mem (by simp) rfl
    · cases enabled
  | taskSettle taskId runEnd =>
    simp only [GraphRunnerState.step] at enabled
    split at enabled
    · rename_i id nodeId traceId pendingItem found
      cases enabled
      obtain ⟨isTask, mem⟩ := findTask found
      cases isTask
      have clear := inv.inflight_eq_none mem (by simp) (by simp)
      exact inv.advance .settled mem (by simp) ((runEnd.perform_inflight ..).trans clear)
    · cases enabled
  | taskDone taskId =>
    simp only [GraphRunnerState.step] at enabled
    split at enabled
    · rename_i id nodeId traceId pendingItem found
      cases enabled
      obtain ⟨isTask, mem⟩ := findTask found
      cases isTask
      have clear := inv.inflight_eq_none mem (by simp) (by simp)
      have moved := inv.advance .done mem (by simp) clear
      simpa [GraphRunnerState.setNode] using moved
    · cases enabled

end Invariant

/-! ## Runs of the scheduler -/

theorem SchedulerInv.start {nodes : String → RuntimeState}
    (quiet : ∀ node, (nodes node).inflight = none) : SchedulerInv { nodes } := by
  refine ⟨List.nodup_nil, ?_, ?_, fun node found => absurd (quiet node) found, rfl, ?_⟩
  · exact fun _ mem => absurd mem List.not_mem_nil
  · exact fun _ checked => by cases checked
  · intro node item found
    rw [quiet node] at found
    cases found

/-- From nodes without items in flight, every dequeued item gets its executor task and every item
in flight keeps its owner, at all steps of a run, exactly when `_submit_executor_task` finds the
task id free each time. -/
theorem scheduler_serves_iff (types : String → String) (owner : String)
    (nodes : String → RuntimeState) (quiet : ∀ node, (nodes node).inflight = none)
    (actions : List SchedulerAction) :
    Along (GraphRunnerState.step types owner) (fun _ _ s' => Served s') { nodes } actions ↔
      Along (GraphRunnerState.step types owner) TaskIdFree { nodes } actions := by
  refine along_iff_of_invariant (I := SchedulerInv) ?_ ?_ (SchedulerInv.start quiet)
  · intro s a s' inv enabled
    refine ⟨fun served fresh isSubmit entry item holding task mem taken => ?_,
      fun free => (inv.step enabled free).served⟩
    subst isSubmit
    obtain ⟨batch, running, point⟩ := Option.bind_eq_some_iff.mp holding
    obtain ⟨rest, ready, at_point⟩ := batch
    cases at_point <;> cases point
    have refused := submitExecutorTask_eq_none.mpr ⟨task, mem, taken⟩
    simp only [GraphRunnerState.step, running, refused, Option.some.injEq] at enabled
    subst enabled
    -- the item the batch held is in `dequeued` and in no task
    have before := inv.served.handed
    have after := served.handed
    rw [holding] at before
    simp only [GraphRunnerState.goTo, GraphRunnerState.holding, Option.bind_some,
      BatchPoint.holding, Option.toList_none, List.append_nil] at after
    rw [after] at before
    simp at before
  · exact fun s a s' inv enabled free => inv.step enabled free

/-! ## Two items of one trace -/

/-- Two messages of one trace; the task of the first finishes between the cleanup and the running
check of the second batch. -/
def repeatedTrace : List SchedulerAction :=
  [.appendPending "n" { traceId := "t", payload := "a" },
    .appendPending "n" { traceId := "t", payload := "b" },
    .startBatch ["n"], .readEntry, .checkRunning, .recoverStale, .gateReady, .dequeue, .submit "",
    .finishBatch, .taskClear "t:n", .taskSettle "t:n" .transitionToIdle,
    .startBatch ["n"], .readEntry, .taskDone "t:n", .checkRunning, .recoverStale, .gateReady,
    .dequeue]

/-- The second item is dequeued and no task is started for it. -/
theorem scheduler_skips_item :
    ¬ ∀ (types : String → String) (owner : String) (nodes : String → RuntimeState),
      (∀ node, (nodes node).inflight = none) → ∀ actions : List SchedulerAction,
      Along (GraphRunnerState.step types owner) (fun _ _ s' => Served s') { nodes } actions := by
  intro serves
  have along := serves (fun _ => "agent_node") "" (fun _ => {}) (fun _ => rfl)
    (repeatedTrace ++ [.submit ""])
  have handed := (along.last rfl rfl).handed
  exact absurd handed (by decide)

/-- The batch that serves the first item. -/
theorem scheduler_serves_first_item :
    Along (GraphRunnerState.step (fun _ => "agent_node") "") (fun _ _ s' => Served s')
      { nodes := fun _ => {} } (repeatedTrace.take 8 ++ [.submit ""]) := by
  refine (scheduler_serves_iff (fun _ => "agent_node") "" (fun _ => {}) (fun _ => rfl) _).mpr ?_
  refine along_append ?_ fun m ran => ?_
  · have others : ∀ a ∈ repeatedTrace.take 8, ∀ fresh, a ≠ .submit fresh := by
      simp [repeatedTrace]
    exact (along_of_forall_mem others).mono fun _ _ _ other fresh isSubmit =>
      absurd isSubmit (other fresh)
  · cases ran
    intro s' enabled
    refine ⟨fun fresh _ entry item _ task mem => ?_, along_nil s'⟩
    cases mem

end AgentPark.Runtime
