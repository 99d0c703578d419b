import AgentPark.Cron.Repository
import AgentPark.Lib.Execution
import AgentPark.Lib.Outcome
import Mathlib.Order.Bounds.Basic
import Mathlib.Tactic.Ring

/-!
# The cron store under every sequence of operations

`CronSystem.step` performs one operation of the repository at a time that is not before the last
one.  An operation that raises leaves the database as it was.
-/

namespace AgentPark.Cron

open Lib

/-- The operations, each with the time it reads from the clock. -/
inductive CronOp where
  | create (nodeId : String) (spec : CreateJob) (role : AccessRole) (now : Time) (jobId : String)
  | update (nodeId : String) (spec : UpdateJob) (role : AccessRole) (now : Time)
  | delete (nodeId jobId : String) (revision : Nat) (now : Time)
  | materializeDue (now : Time) (runIds : Nat → String)
  | recoverInterrupted
  | beginRun (runId nodeId : String) (now : Time)
  | finishRun (runId : String) (now : Time) (error : Option String)

/-- The time an operation reads from the clock. -/
def CronOp.time : CronOp → Option Time
  | create _ _ _ now _ | update _ _ _ now | delete _ _ _ now | materializeDue now _
  | beginRun _ _ now | finishRun _ now _ => some now
  | recoverInterrupted => none

/-- The database an operation leaves, or what it raises. -/
def CronOp.apply (cal : Calendar) (db : CronDatabase) : CronOp → Except CronError CronDatabase
  | create nodeId spec role now jobId => (db.create cal nodeId spec role now jobId).map Prod.snd
  | update nodeId spec role now => (db.update cal nodeId spec role now).map Prod.snd
  | delete nodeId jobId revision now => db.delete nodeId jobId revision now
  | materializeDue now runIds => db.materializeDue cal now runIds
  | recoverInterrupted => .ok db.recoverInterrupted
  | beginRun runId nodeId now => .ok (db.beginRun runId nodeId now).2
  | finishRun runId now error => .ok (db.finishRun runId now error)

/-- The database and the last time an operation read from the clock. -/
structure CronSystem where
  db : CronDatabase := {}
  clock : Time

/-- One operation.  An operation that raises is rolled back. -/
def CronSystem.step (cal : Calendar) (s : CronSystem) (op : CronOp) : Option CronSystem :=
  let now := op.time.getD s.clock
  if s.clock ≤ now then
    match op.apply cal s.db with
    | .ok db => some ⟨db, now⟩
    | .error _ => some ⟨s.db, now⟩
  else none

theorem CronSystem.step_cases {cal : Calendar} {s s' : CronSystem} {op : CronOp}
    (stepped : s.step cal op = some s') :
    s.clock ≤ s'.clock ∧ s'.clock = op.time.getD s.clock ∧
      (op.apply cal s.db = .ok s'.db ∨ s'.db = s.db) := by
  rw [CronSystem.step] at stepped
  by_cases forward : s.clock ≤ op.time.getD s.clock
  · rw [if_pos forward] at stepped
    cases applied : op.apply cal s.db with
    | ok db =>
      rw [applied] at stepped
      cases stepped
      exact ⟨forward, rfl, .inl rfl⟩
    | error e =>
      rw [applied] at stepped
      cases stepped
      exact ⟨forward, rfl, .inr rfl⟩
  · rw [if_neg forward] at stepped
    cases stepped

/-! ### The invariant -/

/-- An enabled job has a deadline.  With exact times it lies behind all runs of the job, and an
interval job has no deadline between the clock and its next one. -/
def JobTimed (cal : Calendar) (runs : List Run) (clock : Time) (job : Job) : Prop :=
  job.enabled = true → ∃ t, job.nextRun = some t ∧
    (cal.Exact → (∀ run ∈ runs, run.jobId = job.id → run.scheduledAt < t) ∧
      ∀ interval, job.schedule = .every interval → t - interval.seconds ≤ clock)

/-- The invariant of the store. -/
structure CronInv (cal : Calendar) (db : CronDatabase) (clock : Time) : Prop where
  once : ∀ run ∈ db.runs, ∀ other ∈ db.runs, run.status.isActive = true →
    other.status.isActive = true → run.jobId = other.jobId → run = other
  timed : ∀ job ∈ db.jobs, JobTimed cal db.runs clock job
  past : ∀ run ∈ db.runs, run.scheduledAt ≤ clock

variable {cal : Calendar}

theorem JobTimed.later {runs : List Run} {clock now : Time} {job : Job}
    (timed : JobTimed cal runs clock job) (forward : clock ≤ now) : JobTimed cal runs now job := by
  intro enabled
  obtain ⟨t, next, ahead⟩ := timed enabled
  exact ⟨t, next, fun exact => ⟨(ahead exact).1, fun i every =>
    le_trans ((ahead exact).2 i every) forward⟩⟩

theorem CronInv.later {db : CronDatabase} {clock now : Time} (inv : CronInv cal db clock)
    (forward : clock ≤ now) : CronInv cal db now where
  once := inv.once
  timed := fun job mem => (inv.timed job mem).later forward
  past := fun run mem => le_trans (inv.past run mem) forward

theorem CronInv.empty (clock : Time) : CronInv cal {} clock :=
  ⟨fun _ mem => absurd mem List.not_mem_nil, fun _ mem => absurd mem List.not_mem_nil,
    fun _ mem => absurd mem List.not_mem_nil⟩

section Runs

variable {db : CronDatabase} {clock : Time} {p : Run → Bool} {f : Run → Run}
  {keeps : ∀ run, (f run).SameKeys run}

theorem Run.SameKeys.jobId {run old : Run} (same : run.SameKeys old) :
    run.jobId = old.jobId ∧ run.scheduledAt = old.scheduledAt := Prod.mk.inj same.2

theorem mem_updateRuns {run : Run} (mem : run ∈ (db.updateRuns p f keeps).runs) :
    ∃ old ∈ db.runs, run = (if p old then f old else old) ∧ run.id = old.id ∧
      run.jobId = old.jobId ∧ run.scheduledAt = old.scheduledAt := by
  obtain ⟨old, inRuns, rfl⟩ := mem_updateWhere.mp mem
  refine ⟨old, inRuns, rfl, ?_⟩
  by_cases here : p old = true
  · rw [if_pos here]
    exact ⟨(keeps old).1, (keeps old).jobId⟩
  · rw [if_neg here]
    exact ⟨rfl, rfl, rfl⟩

theorem CronInv.updateRuns (inv : CronInv cal db clock)
    (keeps : ∀ run, (f run).SameKeys run)
    (calm : ∀ run ∈ db.runs, p run = true → (f run).status.isActive = true →
      run.status.isActive = true) :
    CronInv cal (db.updateRuns p f keeps) clock := by
  have active {old : Run} (inRuns : old ∈ db.runs)
      (now : (if p old then f old else old).status.isActive = true) :
      old.status.isActive = true := by
    by_cases here : p old = true
    · rw [if_pos here] at now
      exact calm old inRuns here now
    · rw [if_neg here] at now
      exact now
  refine ⟨?_, ?_, ?_⟩
  · intro run mem other otherMem isActive otherActive same
    obtain ⟨old, inRuns, rfl, -, job, -⟩ := mem_updateRuns mem
    obtain ⟨otherOld, otherIn, rfl, -, otherJob, -⟩ := mem_updateRuns otherMem
    have equal := inv.once old inRuns otherOld otherIn (active inRuns isActive)
      (active otherIn otherActive) (by rw [← job, ← otherJob, same])
    rw [equal]
  · intro job mem enabled
    obtain ⟨t, next, ahead⟩ := inv.timed job mem enabled
    refine ⟨t, next, fun exact => ⟨fun run inRuns ofJob => ?_, (ahead exact).2⟩⟩
    obtain ⟨old, oldIn, -, -, sameJob, sameTime⟩ := mem_updateRuns inRuns
    rw [sameTime]
    exact (ahead exact).1 old oldIn (by rw [← sameJob, ofJob])
  · intro run mem
    obtain ⟨old, inRuns, -, -, -, same⟩ := mem_updateRuns mem
    rw [same]
    exact inv.past old inRuns

theorem CronInv.cancelPending (inv : CronInv cal db clock) (jobId : String) (now : Time) :
    CronInv cal (db.cancelPending jobId now) clock :=
  inv.updateRuns (Run.sameKeys_cancel now) fun _ _ _ absurd => by cases absurd

theorem CronInv.editPending (inv : CronInv cal db clock) (job : Job) :
    CronInv cal (db.editPending job) clock :=
  inv.updateRuns (Run.sameKeys_edit job) fun _ _ _ active => active

theorem CronInv.recoverInterrupted (inv : CronInv cal db clock) :
    CronInv cal db.recoverInterrupted clock := by
  apply inv.updateRuns Run.sameKeys_interrupt
  intro run _ running _
  have status : run.status = .running := by simpa using running
  rw [status]
  rfl

theorem CronInv.beginRun (inv : CronInv cal db clock) (runId nodeId : String) (now : Time) :
    CronInv cal (db.beginRun runId nodeId now).2 clock := by
  rw [CronDatabase.beginRun]
  cases found : db.runs.find? fun run => run.id = runId ∧ run.nodeId = nodeId ∧
      run.status = .pending with
  | none => exact inv
  | some run =>
    have matched := List.find?_some found
    simp only [decide_eq_true_eq] at matched
    have calm : ∀ other ∈ db.runs, decide (other.id = runId) = true →
        other.status.isActive = true := by
      intro other mem same
      -- the row with this identifier is the pending one
      have sameId : other.id = run.id := by rw [matched.1]; simpa using same
      have equal :=
        List.inj_on_of_nodup_map db.runIds mem (List.mem_of_find?_eq_some found) sameId
      rw [equal, matched.2.2]
      rfl
    exact inv.updateRuns (Run.sameKeys_begin now) fun other mem same _ => calm other mem same

theorem CronInv.finishRun (inv : CronInv cal db clock) (runId : String) (now : Time)
    (error : Option String) : CronInv cal (db.finishRun runId now error) clock := by
  apply inv.updateRuns (Run.sameKeys_finish now error)
  intro run _ here _
  have status : run.status = .running := by
    rw [Bool.and_eq_true] at here
    simpa using here.2
  rw [status]
  rfl

end Runs

/-! ### Jobs -/

section Jobs

variable {cal : Calendar} {db db' : CronDatabase} {clock now : Time}

variable {deadline : Option Time}

theorem nextDeadline_none {schedule : Schedule}
    (computed : nextDeadline cal schedule now none = .ok deadline) :
    ∃ t, deadline = some t ∧ ∀ interval, schedule = .every interval →
      t = cal.round (now + interval.seconds) := by
  cases schedule with
  | «at» time =>
    cases computed
    exact ⟨_, rfl, nofun⟩
  | every interval =>
    cases computed
    refine ⟨_, rfl, ?_⟩
    rintro other ⟨⟩
    rfl
  | cron expression timezone =>
    rw [nextDeadline] at computed
    split at computed
    · cases computed
      exact ⟨_, rfl, nofun⟩
    · cases computed

variable {job row : Job}

theorem JobTimed.first {t : Time} (inv : CronInv cal db now) (next : job.nextRun = some t)
    (ahead : now < t) (interval : ∀ i, job.schedule = .every i → t = cal.round (now + i.seconds)) :
    JobTimed cal db.runs now job := by
  intro _
  refine ⟨t, next, fun exact => ⟨fun run mem _ => lt_of_le_of_lt (inv.past run mem) ahead,
    fun i every => ?_⟩⟩
  rw [interval i every, exact]
  linarith

theorem not_passed {t : Time} (isTime : deadline = some t)
    (notPassed : ¬ passed deadline now = true) : now < t := by
  rw [isTime, passed, Option.any_some, decide_eq_true_eq, not_le] at notPassed
  exact notPassed

theorem CronInv.insertJob (inv : CronInv cal db clock) (timed : JobTimed cal db.runs clock job)
    (inserted : db.insertJob job = .ok db') :
    CronInv cal db' clock := by
  rw [CronDatabase.insertJob] at inserted
  split_ifs at inserted
  cases inserted
  refine ⟨inv.once, ?_, inv.past⟩
  intro other mem
  rcases List.mem_append.mp mem with old | new
  · exact inv.timed other old
  · rw [List.mem_singleton.mp new]
    exact timed

theorem CronInv.replaceJob (inv : CronInv cal db clock) (timed : JobTimed cal db.runs clock job)
    (replaced : db.replaceJob job = .ok db') :
    CronInv cal db' clock := by
  rw [CronDatabase.replaceJob] at replaced
  split_ifs at replaced
  cases replaced
  refine ⟨inv.once, ?_, inv.past⟩
  intro other mem
  rcases mem_updateWhere_cases mem with ⟨old, -⟩ | ⟨_, -, -, rfl⟩
  · exact inv.timed other old
  · exact timed

variable {nodeId jobId : String} {role : AccessRole}

/-- What the creation of a job does. -/
theorem create_eq_ok {spec : CreateJob}
    (created : db.create cal nodeId spec role now jobId = .ok (job, db')) :
    db' = db ∨ ∃ t, job.id = jobId ∧ job.nextRun = some t ∧ now < t ∧
      (∀ interval, job.schedule = .every interval → t = cal.round (now + interval.seconds)) ∧
      db.insertJob job = .ok db' := by
  rw [CronDatabase.create] at created
  split at created
  · split_ifs at created
    cases created
    exact .inl rfl
  · obtain ⟨deadline, computed, created⟩ := bind_eq_ok.mp created
    obtain ⟨notPassed, created⟩ := ite_error_eq_ok.mp created
    obtain ⟨after, inserted, same⟩ := bind_eq_ok.mp created
    cases same
    obtain ⟨t, isTime, interval⟩ := nextDeadline_none computed
    exact .inr ⟨t, rfl, isTime, not_passed isTime notPassed, interval, inserted⟩

/-- A new job keeps the invariant. -/
theorem CronInv.create (inv : CronInv cal db now) {spec : CreateJob}
    (created : db.create cal nodeId spec role now jobId = .ok (job, db')) : CronInv cal db' now := by
  rcases create_eq_ok created with rfl | ⟨t, -, next, ahead, interval, inserted⟩
  · exact inv
  · exact inv.insertJob (JobTimed.first inv next ahead interval) inserted

theorem owned_eq_ok (found : db.owned nodeId jobId = .ok row) :
    row ∈ db.jobs ∧ row.id = jobId ∧ row.nodeId = nodeId := by
  rw [CronDatabase.owned] at found
  split at found
  · rename_i isRow
    cases found
    have matched := List.find?_some isRow
    simp only [decide_eq_true_eq] at matched
    exact ⟨List.mem_of_find?_eq_some isRow, matched⟩
  · cases found

variable {spec : UpdateJob}

theorem editedDeadline_kept (kept : ¬ spec.recomputes row = true)
    (computed : editedDeadline cal row spec now = .ok deadline)
    (enabled : (editedJob row spec role deadline now).enabled = true) :
    deadline = row.nextRun ∧ row.enabled = true ∧
      (editedJob row spec role deadline now).schedule = row.schedule := by
  rw [editedDeadline, if_neg kept] at computed
  cases computed
  rw [UpdateJob.recomputes, Bool.or_eq_true, not_or] at kept
  have schedule : spec.schedule = none := by simpa using kept.1
  refine ⟨rfl, ?_, by rw [editedJob, schedule]; rfl⟩
  have now : spec.enabled.getD row.enabled = true := enabled
  cases given : spec.enabled with
  | none =>
    rw [given] at now
    exact now
  | some value =>
    rw [given] at now
    by_contra off
    apply kept.2
    rw [given, show value = true from now]
    simpa using off

theorem JobTimed.edited (inv : CronInv cal db now) (mem : row ∈ db.jobs) (role : AccessRole)
    (computed : editedDeadline cal row spec now = .ok deadline) :
    JobTimed cal db.runs now (editedJob row spec role deadline now) := by
  intro enabled
  by_cases again : spec.recomputes row = true
  · rw [editedDeadline, if_pos again] at computed
    obtain ⟨first, isFirst, computed⟩ := bind_eq_ok.mp computed
    obtain ⟨notPassed, same⟩ := ite_error_eq_ok.mp computed
    cases same
    obtain ⟨t, isTime, interval⟩ := nextDeadline_none isFirst
    have ahead := not_passed isTime fun passed => notPassed ⟨enabled, passed⟩
    exact JobTimed.first inv isTime ahead interval enabled
  · obtain ⟨rfl, wasEnabled, schedule⟩ := editedDeadline_kept again computed enabled
    obtain ⟨t, next, ahead⟩ := inv.timed row mem wasEnabled
    refine ⟨t, next, fun exact => ⟨(ahead exact).1, fun i every => (ahead exact).2 i ?_⟩⟩
    rw [← every, schedule]

/-- The database an edit replaces the job in. -/
def CronDatabase.edited (db : CronDatabase) (spec : UpdateJob) (row job : Job) (now : Time) :
    CronDatabase :=
  if spec.cancels then db.cancelPending row.id now else db.editPending job

/-- What a change of a job does. -/
theorem update_eq_ok (updated : db.update cal nodeId spec role now = .ok (job, db')) :
    ∃ row deadline, row ∈ db.jobs ∧ row.id = spec.jobId ∧
      editedDeadline cal row spec now = .ok deadline ∧
      job = editedJob row spec role deadline now ∧
      (db.edited spec row job now).replaceJob job = .ok db' := by
  rw [CronDatabase.update] at updated
  obtain ⟨-, updated⟩ := ite_error_eq_ok.mp updated
  obtain ⟨row, owned, updated⟩ := bind_eq_ok.mp updated
  obtain ⟨-, updated⟩ := ite_error_eq_ok.mp updated
  obtain ⟨deadline, computed, updated⟩ := bind_eq_ok.mp updated
  obtain ⟨after, replaced, same⟩ := bind_eq_ok.mp updated
  cases same
  exact ⟨row, deadline, (owned_eq_ok owned).1, (owned_eq_ok owned).2.1, computed, rfl, replaced⟩

theorem CronInv.edited (inv : CronInv cal db clock) (spec : UpdateJob) (row job : Job) (now : Time) :
    CronInv cal (db.edited spec row job now) clock := by
  rw [CronDatabase.edited]
  split_ifs
  · exact inv.cancelPending row.id now
  · exact inv.editPending job

@[simp] theorem jobs_edited (spec : UpdateJob) (row job : Job) :
    (db.edited spec row job now).jobs = db.jobs := by
  rw [CronDatabase.edited]
  split_ifs
  · rfl
  · rfl

theorem replaceJob_eq_ok (replaced : db.replaceJob job = .ok db') :
    db'.runs = db.runs ∧
      db'.jobs = updateWhere (fun row => row.id = job.id) (fun _ => job) db.jobs := by
  rw [CronDatabase.replaceJob] at replaced
  split_ifs at replaced
  cases replaced
  exact ⟨rfl, rfl⟩

/-- So does a change of a job. -/
theorem CronInv.update (inv : CronInv cal db now)
    (updated : db.update cal nodeId spec role now = .ok (job, db')) : CronInv cal db' now := by
  obtain ⟨row, deadline, mem, -, computed, rfl, replaced⟩ := update_eq_ok updated
  have calm := inv.edited spec row (editedJob row spec role deadline now) now
  refine calm.replaceJob (JobTimed.edited calm ?_ role computed) replaced
  rw [jobs_edited]
  exact mem

/-- What the deletion of a job does. -/
theorem delete_eq_ok {revision : Nat} (deleted : db.delete nodeId jobId revision now = .ok db') :
    db' = (db.cancelPending jobId now).deleteJob jobId := by
  rw [CronDatabase.delete] at deleted
  obtain ⟨row, owned, deleted⟩ := bind_eq_ok.mp deleted
  obtain ⟨-, same⟩ := ite_error_eq_ok.mp deleted
  cases same
  rw [(owned_eq_ok owned).2.1]

theorem CronInv.delete (inv : CronInv cal db clock) {revision : Nat}
    (deleted : db.delete nodeId jobId revision now = .ok db') : CronInv cal db' clock := by
  rw [delete_eq_ok deleted]
  have calm := inv.cancelPending jobId now
  exact ⟨calm.once, fun job mem => calm.timed job (List.mem_filter.mp mem).1, calm.past⟩

end Jobs

end AgentPark.Cron
