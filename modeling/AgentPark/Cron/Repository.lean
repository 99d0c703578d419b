import AgentPark.Lib.Table
import Mathlib.Data.Rat.Floor
import Mathlib.Tactic.Linarith

/-!
# The cron repository of a graph

`CronDatabase` is `cron.sqlite3`: the tables `jobs` and `runs`, with the constraints that the tables
declare.  A function of `CronRepository` is one transaction: it returns the new database, or raises
and leaves the old one.

* `create`, `update`, `delete`, `materializeDue`, `recoverInterrupted`, `beginRun`, `finishRun` are
  the methods of `CronRepository` that write; `delivery_error` changes the text of an error only.

Timestamps are rational numbers.  `Calendar` stands for the two libraries that know about calendars
and for the rounding of floats; the only thing asked of them is that the next match of an expression
lies behind the time it is computed from.
-/

namespace AgentPark.Cron

open Lib

/-- A timestamp in seconds. -/
abbrev Time := Rat

/-- `EverySchedule.seconds`, with the bounds of the field. -/
structure Interval where
  seconds : Nat
  lower : 60 ≤ seconds
  upper : seconds ≤ 31536000
deriving DecidableEq

/-- `Schedule`.  A job stores its schedule as JSON text, which determines it. -/
inductive Schedule where
  | at (time : String)
  | every (interval : Interval)
  | cron (expression timezone : String)
deriving DecidableEq

/-- `isinstance(schedule, AtSchedule)`. -/
def Schedule.isAt : Schedule → Bool
  | .at _ => true
  | _ => false

/-- `datetime.fromisoformat`, `croniter` and the arithmetic on timestamps.  `nextMatch` is `none` when
croniter raises; `round` makes the float of an exact sum or difference. -/
structure Calendar where
  timestamp : String → Time
  nextMatch : String → String → Time → Option Time
  nextMatch_gt : ∀ expression timezone now t, nextMatch expression timezone now = some t → now < t
  round : Time → Time

/-- The sums and differences are exact. -/
def Calendar.Exact (cal : Calendar) : Prop := ∀ t, cal.round t = t

/-- What a transaction raises. -/
inductive CronError where
  | nameExists
  | notInFuture
  | notFound
  | noChange
  | revisionConflict
  | pastSingleRun
  | integrity
  | calendar
deriving DecidableEq

/-- The texts of the errors that the repository raises itself. -/
def CronError.text : CronError → String
  | nameExists => "name already exists; list then update the existing schedule"
  | notInFuture => "new single-run schedule must be in the future"
  | notFound => "schedule not found for current node"
  | noChange => "provide at least one non-null change"
  | revisionConflict => "revision conflict; list schedules and retry"
  | pastSingleRun => "resuming a past single-run schedule requires a new future schedule"
  | integrity => "UNIQUE constraint failed"
  | calendar => "failed to find next date"

/-- `next_deadline`; a one-shot schedule has no deadline behind its first.  The floor division of two
floats is exact, the sums and the difference are rounded. -/
def nextDeadline (cal : Calendar) (schedule : Schedule) (now : Time) (previous : Option Time) :
    Except CronError (Option Time) :=
  match schedule, previous with
  | .at time, none => .ok (some (cal.timestamp time))
  | .at _, some _ => .ok none
  | .every interval, none => .ok (some (cal.round (now + interval.seconds)))
  | .every interval, some previous =>
    .ok (some (cal.round
      (previous + (⌊cal.round (now - previous) / interval.seconds⌋ + 1) * interval.seconds)))
  | .cron expression timezone, _ =>
    match cal.nextMatch expression timezone now with
    | some t => .ok (some t)
    | none => .error .calendar

inductive AccessRole where
  | developer
  | nondeveloper
deriving DecidableEq

/-- A row of `jobs`. -/
structure Job where
  id : String
  nodeId : String
  name : String
  prompt : String
  schedule : Schedule
  accessRole : AccessRole
  enabled : Bool
  nextRun : Option Time
  revision : Nat
  createdAt : Time
  updatedAt : Time
deriving DecidableEq

inductive RunStatus where
  | pending
  | running
  | completed
  | failed
  | cancelled
deriving DecidableEq

/-- `status IN ('pending','running')`. -/
def RunStatus.isActive : RunStatus → Bool
  | pending | running => true
  | _ => false

/-- A row of `runs`. -/
structure Run where
  id : String
  jobId : String
  nodeId : String
  name : String
  prompt : String
  accessRole : AccessRole
  scheduledAt : Time
  status : RunStatus := .pending
  startedAt : Option Time := none
  finishedAt : Option Time := none
  error : Option String := none
deriving DecidableEq

/-- The columns of `UNIQUE(node_id, name)`. -/
def Job.owner (job : Job) : String × String := (job.nodeId, job.name)

/-- The columns of `UNIQUE(job_id, scheduled_at)`. -/
def Run.deadline (run : Run) : String × Time := (run.jobId, run.scheduledAt)

/-- `CreateJob`. -/
structure CreateJob where
  name : String
  prompt : String
  schedule : Schedule

/-- `UpdateJob`; a field that is not set is `none`. -/
structure UpdateJob where
  jobId : String
  expectedRevision : Nat
  name : Option String := none
  prompt : Option String := none
  schedule : Option Schedule := none
  enabled : Option Bool := none

/-- `deadline <= now`. -/
def passed (deadline : Option Time) (now : Time) : Bool := deadline.any fun t => t ≤ now

/-- The role a job and its queued runs have after an edit. -/
def mergedRole (stored caller : AccessRole) : AccessRole :=
  if stored = .nondeveloper ∨ caller = .nondeveloper then .nondeveloper else .developer

/-- A new schedule and a resumption set the deadline anew. -/
def UpdateJob.recomputes (spec : UpdateJob) (row : Job) : Bool :=
  spec.schedule.isSome || (spec.enabled == some true && !row.enabled)

/-- The deadline of a job after an edit. -/
def editedDeadline (cal : Calendar) (row : Job) (spec : UpdateJob) (now : Time) :
    Except CronError (Option Time) :=
  if spec.recomputes row then do
    let deadline ← nextDeadline cal (spec.schedule.getD row.schedule) now none
    if spec.enabled.getD row.enabled ∧ passed deadline now then .error .pastSingleRun
    else .ok deadline
  else .ok row.nextRun

/-- A schedule edit or a pause invalidates the queued runs. -/
def UpdateJob.cancels (spec : UpdateJob) : Bool := spec.schedule.isSome || spec.enabled == some false

/-- The row of a job after an edit. -/
def editedJob (row : Job) (spec : UpdateJob) (role : AccessRole) (deadline : Option Time)
    (now : Time) : Job :=
  { row with
    name := spec.name.getD row.name
    prompt := spec.prompt.getD row.prompt
    schedule := spec.schedule.getD row.schedule
    accessRole := mergedRole row.accessRole role
    enabled := spec.enabled.getD row.enabled
    nextRun := deadline
    revision := row.revision + 1
    updatedAt := now }

/-- The columns of a run that no statement changes. -/
def Run.SameKeys (run old : Run) : Prop := run.id = old.id ∧ run.deadline = old.deadline

/-- `status='cancelled', finished_at=?`. -/
def Run.cancel (now : Time) (run : Run) : Run :=
  { run with status := .cancelled, finishedAt := some now }

/-- `name=?, prompt=?, access_role=?`. -/
def Run.edit (job : Job) (run : Run) : Run :=
  { run with name := job.name, prompt := job.prompt, accessRole := job.accessRole }

/-- `status='pending', error='Backend interrupted; replay pending'`. -/
def Run.interrupt (run : Run) : Run :=
  { run with status := .pending, error := some "Backend interrupted; replay pending" }

/-- `status='running', started_at=?, error=NULL`. -/
def Run.begin (now : Time) (run : Run) : Run :=
  { run with status := .running, startedAt := some now, error := none }

/-- `status=?, finished_at=?, error=?`; an empty error is none. -/
def Run.finish (now : Time) (error : Option String) (run : Run) : Run :=
  { run with
    status := if error.any (· ≠ "") then .failed else .completed
    finishedAt := some now
    error }

theorem Run.sameKeys_cancel (now : Time) (run : Run) : (run.cancel now).SameKeys run := ⟨rfl, rfl⟩

theorem Run.sameKeys_edit (job : Job) (run : Run) : (run.edit job).SameKeys run := ⟨rfl, rfl⟩

theorem Run.sameKeys_interrupt (run : Run) : run.interrupt.SameKeys run := ⟨rfl, rfl⟩

theorem Run.sameKeys_begin (now : Time) (run : Run) : (run.begin now).SameKeys run := ⟨rfl, rfl⟩

theorem Run.sameKeys_finish (now : Time) (error : Option String) (run : Run) :
    (run.finish now error).SameKeys run := ⟨rfl, rfl⟩

/-- The run that a job is due for. -/
def Job.run (row : Job) (deadline : Time) (runId : String) : Run where
  id := runId
  jobId := row.id
  nodeId := row.nodeId
  name := row.name
  prompt := row.prompt
  accessRole := row.accessRole
  scheduledAt := deadline

/-- The database, with the constraints of its tables. -/
structure CronDatabase where
  jobs : List Job := []
  runs : List Run := []
  jobIds : (jobs.map Job.id).Nodup := by exact List.nodup_nil
  owners : (jobs.map Job.owner).Nodup := by exact List.nodup_nil
  runIds : (runs.map Run.id).Nodup := by exact List.nodup_nil
  deadlines : (runs.map Run.deadline).Nodup := by exact List.nodup_nil

namespace CronDatabase

/-- `INSERT INTO jobs`. -/
def insertJob (db : CronDatabase) (job : Job) : Except CronError CronDatabase :=
  if fresh : job.id ∉ db.jobs.map Job.id ∧ job.owner ∉ db.jobs.map Job.owner then
    .ok { db with
      jobs := db.jobs ++ [job]
      jobIds := by
        rw [List.map_append, List.map_singleton]
        exact List.nodup_append_comm.mp (List.nodup_cons.mpr ⟨fresh.1, db.jobIds⟩)
      owners := by
        rw [List.map_append, List.map_singleton]
        exact List.nodup_append_comm.mp (List.nodup_cons.mpr ⟨fresh.2, db.owners⟩) }
  else .error .integrity

/-- `INSERT INTO runs`. -/
def insertRun (db : CronDatabase) (run : Run) : Except CronError CronDatabase :=
  if fresh : run.id ∉ db.runs.map Run.id ∧ run.deadline ∉ db.runs.map Run.deadline then
    .ok { db with
      runs := db.runs ++ [run]
      runIds := by
        rw [List.map_append, List.map_singleton]
        exact List.nodup_append_comm.mp (List.nodup_cons.mpr ⟨fresh.1, db.runIds⟩)
      deadlines := by
        rw [List.map_append, List.map_singleton]
        exact List.nodup_append_comm.mp (List.nodup_cons.mpr ⟨fresh.2, db.deadlines⟩) }
  else .error .integrity

/-- `UPDATE jobs` on columns that are no part of a key. -/
def updateJobs (db : CronDatabase) (p : Job → Bool) (f : Job → Job)
    (keeps : ∀ job, (f job).id = job.id ∧ (f job).owner = job.owner) : CronDatabase :=
  { db with
    jobs := updateWhere p f db.jobs
    jobIds := by
      rw [map_updateWhere fun job => (keeps job).1]
      exact db.jobIds
    owners := by
      rw [map_updateWhere fun job => (keeps job).2]
      exact db.owners }

/-- `UPDATE jobs .. WHERE id = job.id`, with all columns of the row. -/
def replaceJob (db : CronDatabase) (job : Job) : Except CronError CronDatabase :=
  let jobs := updateWhere (fun row => row.id = job.id) (fun _ => job) db.jobs
  if valid : (jobs.map Job.id).Nodup ∧ (jobs.map Job.owner).Nodup then
    .ok { db with jobs, jobIds := valid.1, owners := valid.2 }
  else .error .integrity

/-- `UPDATE runs` on columns that are no part of a key. -/
def updateRuns (db : CronDatabase) (p : Run → Bool) (f : Run → Run)
    (keeps : ∀ run, (f run).SameKeys run) : CronDatabase :=
  { db with
    runs := updateWhere p f db.runs
    runIds := by
      rw [map_updateWhere fun run => (keeps run).1]
      exact db.runIds
    deadlines := by
      rw [map_updateWhere fun run => (keeps run).2]
      exact db.deadlines }

/-- `DELETE FROM jobs WHERE id=?`. -/
def deleteJob (db : CronDatabase) (id : String) : CronDatabase :=
  { db with
    jobs := db.jobs.filter fun job => job.id ≠ id
    jobIds := db.jobIds.sublist (List.filter_sublist.map _)
    owners := db.owners.sublist (List.filter_sublist.map _) }

/-- `_owned`. -/
def owned (db : CronDatabase) (nodeId jobId : String) : Except CronError Job :=
  match db.jobs.find? fun job => job.id = jobId ∧ job.nodeId = nodeId with
  | some job => .ok job
  | none => .error .notFound

/-- `CronRepository.create`; `jobId` is the new identifier. -/
def create (cal : Calendar) (db : CronDatabase) (nodeId : String) (spec : CreateJob)
    (role : AccessRole) (now : Time) (jobId : String) : Except CronError (Job × CronDatabase) :=
  match db.jobs.find? fun job => job.nodeId = nodeId ∧ job.name = spec.name with
  | some existing =>
    if existing.prompt = spec.prompt ∧ existing.schedule = spec.schedule ∧
        existing.accessRole = role then .ok (existing, db)
    else .error .nameExists
  | none => do
    let deadline ← nextDeadline cal spec.schedule now none
    if passed deadline now then .error .notInFuture
    else
      let job : Job :=
        { id := jobId, nodeId, name := spec.name, prompt := spec.prompt,
          schedule := spec.schedule, accessRole := role, enabled := true, nextRun := deadline,
          revision := 1, createdAt := now, updatedAt := now }
      let db ← db.insertJob job
      .ok (job, db)

/-- `UPDATE runs SET status='cancelled',finished_at=? WHERE job_id=? AND status='pending'`. -/
def cancelPending (db : CronDatabase) (jobId : String) (now : Time) : CronDatabase :=
  db.updateRuns (fun run => run.jobId = jobId && run.status = .pending) (Run.cancel now)
    (Run.sameKeys_cancel now)

/-- The queued runs take the new contents of their job. -/
def editPending (db : CronDatabase) (job : Job) : CronDatabase :=
  db.updateRuns (fun run => run.jobId = job.id && run.status = .pending) (Run.edit job)
    (Run.sameKeys_edit job)

/-- `CronRepository.update`. -/
def update (cal : Calendar) (db : CronDatabase) (nodeId : String) (spec : UpdateJob)
    (role : AccessRole) (now : Time) : Except CronError (Job × CronDatabase) :=
  if spec.name = none ∧ spec.prompt = none ∧ spec.schedule = none ∧ spec.enabled = none then
    .error .noChange
  else do
    let row ← db.owned nodeId spec.jobId
    if row.revision ≠ spec.expectedRevision then .error .revisionConflict
    else
      let deadline ← editedDeadline cal row spec now
      let job := editedJob row spec role deadline now
      let db := if spec.cancels then db.cancelPending row.id now else db.editPending job
      let db ← db.replaceJob job
      .ok (job, db)

/-- `CronRepository.delete`. -/
def delete (db : CronDatabase) (nodeId jobId : String) (revision : Nat) (now : Time) :
    Except CronError CronDatabase := do
  let row ← db.owned nodeId jobId
  if row.revision ≠ revision then .error .revisionConflict
  else .ok ((db.cancelPending row.id now).deleteJob row.id)

/-- `SELECT * FROM jobs WHERE enabled=1 AND next_run<=?`, each row with its deadline. -/
def due (db : CronDatabase) (now : Time) : List (Job × Time) :=
  db.jobs.filterMap fun job =>
    match job.nextRun with
    | some deadline => if job.enabled ∧ deadline ≤ now then some (job, deadline) else none
    | none => none

/-- `SELECT 1 FROM runs WHERE job_id=? AND status IN ('pending','running')`. -/
def active (db : CronDatabase) (jobId : String) : Bool :=
  db.runs.any fun run => run.jobId = jobId && run.status.isActive

/-- A job with an active run gets no second one. -/
def insertRunIfIdle (db : CronDatabase) (run : Run) : Except CronError CronDatabase :=
  if db.active run.jobId then .ok db else db.insertRun run

/-- The body of the loop of `materialize_due`.  A one-shot job waits for a previous run. -/
def materializeRow (cal : Calendar) (now : Time) (row : Job) (deadline : Time) (runId : String)
    (db : CronDatabase) : Except CronError CronDatabase :=
  if db.active row.id ∧ row.schedule.isAt then .ok db
  else do
    let db ← db.insertRunIfIdle (row.run deadline runId)
    let next ← nextDeadline cal row.schedule now (some deadline)
    .ok (db.updateJobs (fun job => job.id = row.id)
      (fun job => { job with nextRun := next, enabled := next.isSome, updatedAt := now })
      fun _ => ⟨rfl, rfl⟩)

/-- The loop of `materialize_due`; `runIds n` is the identifier drawn for the `n`-th row. -/
def materializeRows (cal : Calendar) (now : Time) (runIds : Nat → String) :
    Nat → List (Job × Time) → CronDatabase → Except CronError CronDatabase
  | _, [], db => .ok db
  | n, (row, deadline) :: rows, db => do
    let db ← db.materializeRow cal now row deadline (runIds n)
    materializeRows cal now runIds (n + 1) rows db

/-- `CronRepository.materialize_due`. -/
def materializeDue (cal : Calendar) (db : CronDatabase) (now : Time) (runIds : Nat → String) :
    Except CronError CronDatabase :=
  materializeRows cal now runIds 0 (db.due now) db

/-- `CronRepository.recover_interrupted`. -/
def recoverInterrupted (db : CronDatabase) : CronDatabase :=
  db.updateRuns (fun run => run.status = .running) Run.interrupt Run.sameKeys_interrupt

/-- `CronRepository.begin_run`: the row as it was, when it was pending. -/
def beginRun (db : CronDatabase) (runId nodeId : String) (now : Time) : Option Run × CronDatabase :=
  match db.runs.find? fun run => run.id = runId ∧ run.nodeId = nodeId ∧ run.status = .pending with
  | none => (none, db)
  | some run =>
    (some run, db.updateRuns (fun run => run.id = runId) (Run.begin now) (Run.sameKeys_begin now))

/-- `CronRepository.finish_run`. -/
def finishRun (db : CronDatabase) (runId : String) (now : Time) (error : Option String) :
    CronDatabase :=
  db.updateRuns (fun run => run.id = runId && run.status = .running) (Run.finish now error)
    (Run.sameKeys_finish now error)

end CronDatabase

end AgentPark.Cron
