import AgentPark.Groups.Repository
import AgentPark.Lib.Outcome

/-!
# The task board of a group
-/

namespace AgentPark.Groups

open Lib

/-- `config/group.json`: which changes of tasks are notified. -/
structure TaskNotifications where
  assignment : Bool := true
  dependencyReady : Bool := true

/-! ### Validation -/

/-- The dictionary of the tasks by id, with the candidate in it. -/
def taskTable (tasks : List GroupTask) (task : GroupTask) : List (String × GroupTask) :=
  dictSet (tasks.foldl (fun table item => dictSet table item.id item) []) task.id task

/-- The loop over the dependencies of a task, or over all tasks. -/
def walkAll (visit : List String → String → Except GroupError (List String)) :
    List String → List String → Except GroupError (List String)
  | visited, [] => .ok visited
  | visited, dep :: deps => do
    let visited ← visit visited dep
    walkAll visit visited deps

/-- `walk`; the sets `visiting` and `visited` are lists.  `fuel` bounds the depth of the recursion:
`visiting` holds distinct tasks of the table. -/
def walk (table : List (String × GroupTask)) :
    Nat → List String → List String → String → Except GroupError (List String)
  | 0, _, _, _ => .error (.conflict "task dependencies cannot contain cycles")
  | fuel + 1, visiting, visited, taskId =>
    if taskId ∈ visiting then .error (.conflict "task dependencies cannot contain cycles")
    else if taskId ∈ visited then .ok visited
    else
      match table.lookup taskId with
      | none => .error (.key taskId)
      | some task => do
        let visited ← walkAll (walk table fuel (taskId :: visiting)) visited task.dependencies
        .ok (taskId :: visited)

/-- The checks of a task that is worked on or done. -/
def requireStarted (table : List (String × GroupTask)) (task : GroupTask) :
    Except GroupError Unit :=
  if task.status = .inProgress ∨ task.status = .done then do
    require task.ownerId.isSome (.conflict "active/completed tasks require an owner")
    require (∀ dep ∈ task.dependencies, (table.lookup dep).any fun item => item.status = .done)
      (.conflict "finish task dependencies first")
  else .ok ()

/-- `validate_task`. -/
def validateTask (group : AgentGroup) (task : GroupTask) : Except GroupError Unit := do
  require (∀ owner, task.ownerId = some owner → owner ∈ group.memberIds)
    (.conflict "task owner must be a current group member")
  require task.dependencies.Nodup (.conflict "task dependencies must be unique")
  let table := taskTable group.tasks task
  require (∀ dep ∈ task.dependencies, dep ∈ table.map Prod.fst)
    (.conflict "dependency task not found")
  let _ ← walkAll (walk table (table.length + 1) []) [] (table.map Prod.fst)
  requireStarted table task
  require (task.status = .done → pyStrip task.evidence ≠ "")
    (.conflict "completed tasks require an evidence note")

/-! ### Recipients -/

/-- The statuses by task id; a later task with the same id wins. -/
def taskStatus (group : AgentGroup) (taskId : String) : Option TaskStatus :=
  (group.tasks.reverse.find? fun item => item.id = taskId).map GroupTask.status

/-- `ready`: an owned task that is not done and whose dependencies, which are tasks of the group,
are. -/
def ready (group : AgentGroup) (task : GroupTask) : Bool :=
  task.ownerId.any (· ≠ "") && task.status ≠ .done &&
    task.dependencies.all fun dep => taskStatus group dep = some .done

/-- The change of a task concerns its owner. -/
def assigns (task : GroupTask) : Option GroupTask → Bool
  | none => true
  | some previous =>
    previous.ownerId ≠ task.ownerId || previous.title ≠ task.title ||
      previous.description ≠ task.description || previous.dependencies ≠ task.dependencies ||
        (previous.status ≠ task.status && (task.status = .todo || task.status = .inProgress))

/-- `actions.setdefault(owner, []).append(task_id)`. -/
def addAction (actions : List (String × List String)) (owner taskId : String) :
    List (String × List String) :=
  dictSet actions owner ((actions.lookup owner).getD [] ++ [taskId])

/-- `task_actions`: the tasks that each recipient is to act on. -/
def taskActions (policy : TaskNotifications) (group : AgentGroup) (task : GroupTask)
    (previous : Option GroupTask) (actorId : Option String) : List (String × List String) :=
  let assigned :=
    match task.ownerId with
    | some owner =>
      if policy.assignment && task.ownerId ≠ actorId && ready group task && assigns task previous
      then addAction [] owner task.id else []
    | none => []
  if policy.dependencyReady && task.status = .done && previous.any fun old => old.status ≠ .done then
    group.tasks.foldl (fun actions dependent =>
      match dependent.ownerId with
      | some owner =>
        if task.id ∈ dependent.dependencies && ready group dependent
        then addAction actions owner dependent.id else actions
      | none => actions) assigned
  else assigned

/-! ### The commands -/

/-- The actions of a task event in its payload. -/
def actionsDump (actions : List (String × List String)) : Json :=
  .obj (actions.map fun entry => (entry.1, .arr (entry.2.map .str)))

/-- Save a group whose task changed and notify the recipients. -/
def saveTask (c : Caller) (policy : TaskNotifications) (db : GroupStore) (group : AgentGroup)
    (kind : EventKind) (task : GroupTask) (previous : Option GroupTask) (actorId : Option String) :
    GroupStore :=
  let after := group.bump c.now
  let actions := taskActions policy after task previous actorId
  (db.put after).event c after kind actorId
    [("task", task.dump), ("action_tasks", actionsDump actions)] (actions.map Prod.fst) true

/-- `GroupTasks.create`; `id` is the new identifier. -/
def createTask (c : Caller) (policy : TaskNotifications) (db : GroupStore) (groupId : String)
    (command : CreateTask) (actorId : Option String) (id : String) :
    Except GroupError (GroupTask × GroupStore) := do
  let task : GroupTask :=
    { id, title := command.title, description := command.description, ownerId := command.ownerId,
      dependencies := command.dependencies, createdAt := c.now, updatedAt := c.now }
  let group ← db.read groupId actorId
  validateTask group task
  .ok (task, saveTask c policy db { group with tasks := group.tasks ++ [task] } .taskCreated task
    none actorId)

/-- The task after the changes of the command. -/
def UpdateTask.apply (command : UpdateTask) (current : GroupTask) : GroupTask :=
  { current with
    title := command.title.getD current.title
    description := command.description.getD current.description
    status := command.status.getD current.status
    ownerId := command.ownerId.getD current.ownerId
    dependencies := command.dependencies.getD current.dependencies
    evidence := command.evidence.getD current.evidence }

/-- The document of a group with a new version of a task. -/
def AgentGroup.replaceTask (group : AgentGroup) (task : GroupTask) : AgentGroup :=
  { group with tasks := updateWhere (fun item => item.id = task.id) (fun _ => task) group.tasks }

/-- `GroupTasks.update`. -/
def updateTask (c : Caller) (policy : TaskNotifications) (db : GroupStore)
    (groupId taskId : String) (command : UpdateTask) (actorId : Option String) :
    Except GroupError (GroupTask × GroupStore) := do
  let group ← db.read groupId actorId
  match group.tasks.find? fun item => item.id = taskId with
  | none => .error (.conflict "task not found")
  | some current =>
    require (current.revision = command.expectedRevision)
      (.conflict "task changed; refresh before updating")
    require (actorId = none ∨ current.ownerId = none ∨ current.ownerId = actorId)
      (.permission "only the task owner or user can change an owned task")
    let claimed := command.ownerId.join
    require (actorId = none ∨ claimed = none ∨ claimed = actorId ∨ claimed = current.ownerId)
      (.permission "an agent can claim a task only for itself")
    let candidate := command.apply current
    if candidate = current then .ok (current, db)
    else
      validateTask group candidate
      require (current.status = .done → candidate.status ≠ .done →
          ∀ item ∈ group.tasks, taskId ∈ item.dependencies →
            item.status ≠ .inProgress ∧ item.status ≠ .done)
        (.conflict "reopen dependent tasks before reopening this task")
      let task := { candidate with revision := candidate.revision + 1, updatedAt := c.now }
      .ok (task, saveTask c policy db (group.replaceTask task) .taskUpdated task (some current)
        actorId)

end AgentPark.Groups
