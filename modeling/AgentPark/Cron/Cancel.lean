import AgentPark.Cron.Materialize
import Mathlib.Data.List.Induction

/-!
# Cancelled schedules

Deleting a job, pausing it and giving it a new schedule cancel its queued runs.  A run that is being
executed goes on; when the backend is interrupted then, the run is queued again.  A one-shot job is
disabled by the transaction that queues its run.
-/

namespace AgentPark.Cron

open Lib

/-- The operation cancels the queued runs of the job. -/
def CronOp.Cancels (jobId : String) : CronOp → Prop
  | delete _ id _ _ => id = jobId
  | update _ spec _ _ => spec.jobId = jobId ∧ spec.cancels = true
  | _ => False

/-- The transaction of the operation commits. -/
def CronOp.Succeeds (cal : Calendar) (db : CronDatabase) (op : CronOp) : Prop :=
  ∃ db', op.apply cal db = .ok db'

/-- How an operation changes the status of a run. -/
inductive Follows (op : CronOp) : RunStatus → RunStatus → Prop where
  | same (status : RunStatus) : Follows op status status
  | cancelled : Follows op .pending .cancelled
  | begun (isBegin : ∃ runId nodeId now, op = .beginRun runId nodeId now) : Follows op .pending .running
  | completed : Follows op .running .completed
  | failed : Follows op .running .failed
  | interrupted (isRecovery : op = .recoverInterrupted) : Follows op .running .pending

variable {op : CronOp} {old : RunStatus}

theorem Follows.active {new : RunStatus} (follows : Follows op old new)
    (active : new.isActive = true) : old.isActive = true := by
  cases follows with
  | same => exact active
  | cancelled => cases active
  | begun => rfl
  | completed => cases active
  | failed => cases active
  | interrupted => rfl

theorem Follows.running_of_cancels {jobId : String} (follows : Follows op old .running)
    (cancels : op.Cancels jobId) : old = .running := by
  cases follows with
  | same => rfl
  | begun isBegin =>
    obtain ⟨_, _, _, rfl⟩ := isBegin
    exact cancels.elim

theorem Follows.interrupted_of_pending (follows : Follows op old .pending) :
    old = .pending ∨ op = .recoverInterrupted := by
  cases follows with
  | same => exact .inl rfl
  | interrupted isRecovery => exact .inr isRecovery

section Apply

variable {cal : Calendar} {db db' : CronDatabase} {now : Time}

/-- A run of the old table with its new status, or one that was queued for an enabled job. -/
def Traced (op : CronOp) (db : CronDatabase) (run : Run) : Prop :=
  (∃ old ∈ db.runs, run.id = old.id ∧ run.jobId = old.jobId ∧ Follows op old.status run.status) ∨
    run.id ∉ db.runs.map Run.id ∧ (∃ now runIds, op = .materializeDue now runIds) ∧
      ∃ job ∈ db.jobs, job.id = run.jobId ∧ job.enabled = true

variable {op : CronOp} {run : Run}

theorem Traced.of_mem (mem : run ∈ db.runs) : Traced op db run :=
  .inl ⟨run, mem, rfl, rfl, .same _⟩

theorem traced_updateRuns {p : Run → Bool} {f : Run → Run} (keeps : ∀ run, (f run).SameKeys run)
    (follows : ∀ run ∈ db.runs, p run = true → Follows op run.status (f run).status) :
    ∀ run ∈ (db.updateRuns p f keeps).runs, Traced op db run := by
  intro run mem
  rcases mem_updateWhere_cases mem with ⟨old, -⟩ | ⟨old, inRuns, here, rfl⟩
  · exact Traced.of_mem old
  · exact .inl ⟨old, inRuns, (keeps old).1, (keeps old).jobId.1, follows old inRuns here⟩

theorem status_of_and {status : RunStatus} {same : Bool}
    (here : (same && run.status = status) = true) : run.status = status := by
  rw [Bool.and_eq_true] at here
  exact of_decide_eq_true here.2

theorem traced_cancelPending (jobId : String) (now : Time) :
    ∀ run ∈ (db.cancelPending jobId now).runs, Traced op db run := by
  apply traced_updateRuns
  intro run _ here
  rw [status_of_and here]
  exact .cancelled

theorem traced_edited (spec : UpdateJob) (row job : Job) :
    ∀ run ∈ (db.edited spec row job now).runs, Traced op db run := by
  rw [CronDatabase.edited]
  split_ifs
  · exact traced_cancelPending row.id now
  · exact traced_updateRuns (Run.sameKeys_edit job) fun run _ _ => .same run.status

theorem traced_beginRun (runId nodeId : String) :
    ∀ run ∈ (db.beginRun runId nodeId now).2.runs, Traced (.beginRun runId nodeId now) db run := by
  rw [CronDatabase.beginRun]
  split
  · exact fun run mem => Traced.of_mem mem
  · rename_i found isFound
    have matched := List.find?_some isFound
    simp only [decide_eq_true_eq] at matched
    refine traced_updateRuns (Run.sameKeys_begin now) fun run mem same => ?_
    have sameId : run.id = found.id := by
      rw [matched.1]
      exact of_decide_eq_true same
    rw [List.inj_on_of_nodup_map db.runIds mem (List.mem_of_find?_eq_some isFound) sameId,
      matched.2.2]
    exact .begun ⟨runId, nodeId, now, rfl⟩

theorem traced_finishRun (runId : String) (error : Option String) :
    ∀ run ∈ (db.finishRun runId now error).runs, Traced op db run := by
  apply traced_updateRuns
  intro run _ here
  rw [status_of_and here, Run.finish]
  by_cases failed : error.any (· ≠ "") = true
  · rw [if_pos failed]
    exact .failed
  · rw [if_neg failed]
    exact .completed

variable {runIds : Nat → String}

theorem mem_materializeDue (done : db.materializeDue cal now runIds = .ok db')
    (mem : run ∈ db'.runs) :
    run ∈ db.runs ∨ run.id ∉ db.runs.map Run.id ∧
      ∃ job ∈ db.jobs, job.id = run.jobId ∧ job.enabled = true := by
  rcases mem_materializeRows done mem with old | ⟨new, entry, inRows, runId, rfl⟩
  · exact .inl old
  · have due := (due_due db now).1 entry inRows
    exact .inr ⟨new, entry.1, due.mem, rfl, due.enabled⟩

/-- Where a run comes from, and what an operation does to its status. -/
theorem traced_apply (applied : op.apply cal db = .ok db') :
    ∀ run ∈ db'.runs, Traced op db run := by
  cases op with
  | create nodeId spec role time jobId =>
    obtain ⟨⟨job, after⟩, created, rfl⟩ := map_eq_ok.mp applied
    rcases create_eq_ok created with rfl | ⟨t, -, -, -, -, inserted⟩
    · exact fun run mem => Traced.of_mem mem
    · rw [CronDatabase.insertJob] at inserted
      split_ifs at inserted
      cases inserted
      exact fun run mem => Traced.of_mem mem
  | update nodeId spec role time =>
    obtain ⟨⟨job, after⟩, updated, rfl⟩ := map_eq_ok.mp applied
    obtain ⟨row, deadline, -, -, -, -, replaced⟩ := update_eq_ok updated
    intro run mem
    rw [(replaceJob_eq_ok replaced).1] at mem
    exact traced_edited spec row job run mem
  | delete nodeId id revision time =>
    rw [delete_eq_ok applied]
    exact traced_cancelPending id time
  | materializeDue time runIds =>
    intro run mem
    rcases mem_materializeDue applied mem with old | ⟨new, job, inJobs, same, enabled⟩
    · exact Traced.of_mem old
    · exact .inr ⟨new, ⟨time, runIds, rfl⟩, job, inJobs, same, enabled⟩
  | recoverInterrupted =>
    cases applied
    apply traced_updateRuns
    intro run _ here
    rw [of_decide_eq_true here]
    exact .interrupted rfl
  | beginRun runId nodeId time =>
    cases applied
    exact traced_beginRun runId nodeId
  | finishRun runId time error =>
    cases applied
    exact traced_finishRun runId error

variable {jobId : String}

/-- What an operation that cancels leaves of the runs of its job. -/
theorem cancels_runs (cancels : op.Cancels jobId) (applied : op.apply cal db = .ok db')
    (mem : run ∈ db'.runs) (ofJob : run.jobId = jobId) : run.status ≠ .pending := by
  have swept {row : String} {time : Time} (same : row = jobId)
      (here : run ∈ (db.cancelPending row time).runs) : run.status ≠ .pending := by
    intro pending
    rcases mem_updateWhere_cases here with ⟨-, other⟩ | ⟨old, -, -, rfl⟩
    · rw [ofJob, same, pending] at other
      simp at other
    · cases pending
  cases op with
  | delete nodeId id revision time =>
    rw [delete_eq_ok applied] at mem
    exact swept cancels mem
  | update nodeId spec role time =>
    obtain ⟨⟨job, after⟩, updated, rfl⟩ := map_eq_ok.mp applied
    obtain ⟨row, deadline, -, isRow, -, -, replaced⟩ := update_eq_ok updated
    rw [(replaceJob_eq_ok replaced).1, CronDatabase.edited, if_pos cancels.2] at mem
    exact swept (isRow.trans cancels.1) mem
  | create | materializeDue | recoverInterrupted | beginRun | finishRun => exact cancels.elim

/-! ### Jobs that stay enabled -/

theorem map_id_materializeRows {rows : List (Job × Time)} {n : Nat}
    (done : CronDatabase.materializeRows cal now runIds n rows db = .ok db') :
    db'.jobs.map Job.id = db.jobs.map Job.id := by
  induction rows generalizing n db with
  | nil =>
    cases done
    rfl
  | cons entry rows ih =>
    obtain ⟨row, deadline⟩ := entry
    obtain ⟨mid, first, rest⟩ := bind_eq_ok.mp done
    rw [ih rest]
    rcases materializeRow_cases first with ⟨-, -, rfl⟩ | ⟨_, next, -, -, -, -, jobs⟩
    · rfl
    · rw [jobs]
      exact map_updateWhere fun _ => rfl

/-- The job is there and enabled. -/
def CronDatabase.Enabled (db : CronDatabase) (jobId : String) : Prop :=
  ∃ job ∈ db.jobs, job.id = jobId ∧ job.enabled = true

theorem CronDatabase.Enabled.materializeDue (enabled : db.Enabled jobId)
    (done : db.materializeDue cal now runIds = .ok db') :
    db'.Enabled jobId ∨
      (∃ job ∈ db.jobs, job.id = jobId ∧ job.enabled = true ∧ job.schedule.isAt = true) ∧
        ∃ run ∈ db'.runs, run ∉ db.runs ∧ run.jobId = jobId ∧ run.status = .pending := by
  obtain ⟨job, inJobs, isJob, on⟩ := enabled
  have kept : job.id ∈ db'.jobs.map Job.id := by
    rw [map_id_materializeRows done]
    exact List.mem_map_of_mem inJobs
  obtain ⟨after, inAfter, sameId⟩ := List.mem_map.mp kept
  rcases materializeDue_jobs done inAfter with ⟨old, -⟩ | ⟨old, inOld, same, advanced⟩
  · rw [List.inj_on_of_nodup_map db.jobIds old inJobs sameId] at inAfter
    exact .inl ⟨job, inAfter, isJob, on⟩
  · have isOld := List.inj_on_of_nodup_map db.jobIds inOld inJobs (same.trans sameId)
    subst isOld
    obtain ⟨deadline, next, -, -, computed, isAfter, inserted⟩ := advanced
    rcases nextDeadline_some computed with ⟨isAt, -⟩ | ⟨-, t, isTime, -⟩
    · obtain ⟨run, inRuns, new, ofJob, pending, -⟩ := inserted isAt
      exact .inr ⟨⟨old, inOld, isJob, on, isAt⟩, run, inRuns, new, ofJob.trans isJob, pending⟩
    · refine .inl ⟨after, inAfter, sameId.trans isJob, ?_⟩
      rw [isAfter, Job.advance, isTime]
      rfl

theorem CronDatabase.Enabled.apply (enabled : db.Enabled jobId)
    (applied : op.apply cal db = .ok db') :
    db'.Enabled jobId ∨ op.Cancels jobId ∨ (∃ now runIds, op = .materializeDue now runIds) ∧
      (∃ job ∈ db.jobs, job.id = jobId ∧ job.enabled = true ∧ job.schedule.isAt = true) ∧
        ∃ run ∈ db'.runs, run ∉ db.runs ∧ run.jobId = jobId ∧ run.status = .pending := by
  obtain ⟨job, inJobs, isJob, on⟩ := enabled
  cases op with
  | create nodeId spec role time id =>
    obtain ⟨⟨new, after⟩, created, rfl⟩ := map_eq_ok.mp applied
    rcases create_eq_ok created with rfl | ⟨t, -, -, -, -, inserted⟩
    · exact .inl ⟨job, inJobs, isJob, on⟩
    · rw [CronDatabase.insertJob] at inserted
      split_ifs at inserted
      cases inserted
      exact .inl ⟨job, List.mem_append_left _ inJobs, isJob, on⟩
  | update nodeId spec role time =>
    obtain ⟨⟨new, after⟩, updated, rfl⟩ := map_eq_ok.mp applied
    obtain ⟨row, deadline, inRow, isRow, computed, rfl, replaced⟩ := update_eq_ok updated
    obtain ⟨-, jobs⟩ := replaceJob_eq_ok replaced
    rw [jobs_edited] at jobs
    by_cases ofRow : job.id = row.id
    · have isJobRow := List.inj_on_of_nodup_map db.jobIds inJobs inRow ofRow
      subst isJobRow
      by_cases off : spec.enabled = some false
      · refine .inr (.inl ⟨isRow.symm.trans isJob, ?_⟩)
        rw [UpdateJob.cancels, off]
        exact Bool.or_true _
      · refine .inl ⟨editedJob job spec role deadline time, ?_, isJob, ?_⟩
        · rw [jobs]
          exact mem_updateWhere_of_pos (f := fun _ => editedJob job spec role deadline time)
            inJobs (decide_eq_true rfl)
        · have stays : spec.enabled.getD job.enabled = true := by
            cases given : spec.enabled with
            | none => exact on
            | some value =>
              cases value with
              | true => rfl
              | false => exact absurd given off
          exact stays
    · refine .inl ⟨job, ?_, isJob, on⟩
      rw [jobs]
      exact mem_updateWhere_of_neg inJobs (decide_eq_false ofRow)
  | delete nodeId id revision time =>
    by_cases same : id = jobId
    · exact .inr (.inl same)
    · rw [delete_eq_ok applied]
      refine .inl ⟨job, List.mem_filter.mpr ⟨inJobs, decide_eq_true ?_⟩, isJob, on⟩
      rw [isJob]
      exact Ne.symm same
  | materializeDue time runIds =>
    rcases CronDatabase.Enabled.materializeDue ⟨job, inJobs, isJob, on⟩ applied with stays | oneShot
    · exact .inl stays
    · exact .inr (.inr ⟨⟨time, runIds, rfl⟩, oneShot⟩)
  | recoverInterrupted =>
    cases applied
    exact .inl ⟨job, inJobs, isJob, on⟩
  | beginRun runId nodeId time =>
    cases applied
    rw [CronDatabase.beginRun]
    split
    · exact .inl ⟨job, inJobs, isJob, on⟩
    · exact .inl ⟨job, inJobs, isJob, on⟩
  | finishRun runId time error =>
    cases applied
    exact .inl ⟨job, inJobs, isJob, on⟩

theorem ids_apply (applied : op.apply cal db = .ok db') :
    db.runs.map Run.id ⊆ db'.runs.map Run.id := by
  have updated {p : Run → Bool} {f : Run → Run} (keeps : ∀ run, (f run).SameKeys run) :
      db.runs.map Run.id ⊆ (db.updateRuns p f keeps).runs.map Run.id := by
    have same : (db.updateRuns p f keeps).runs.map Run.id = db.runs.map Run.id :=
      map_updateWhere fun run => (keeps run).1
    rw [same]
    exact List.Subset.refl _
  cases op with
  | create nodeId spec role time id =>
    obtain ⟨⟨new, after⟩, created, rfl⟩ := map_eq_ok.mp applied
    rcases create_eq_ok created with rfl | ⟨t, -, -, -, -, inserted⟩
    · exact List.Subset.refl _
    · rw [CronDatabase.insertJob] at inserted
      split_ifs at inserted
      cases inserted
      exact List.Subset.refl _
  | update nodeId spec role time =>
    obtain ⟨⟨new, after⟩, done, rfl⟩ := map_eq_ok.mp applied
    obtain ⟨row, deadline, -, -, -, -, replaced⟩ := update_eq_ok done
    rw [(replaceJob_eq_ok replaced).1, CronDatabase.edited]
    split_ifs
    · exact updated (Run.sameKeys_cancel time)
    · exact updated (Run.sameKeys_edit new)
  | delete nodeId id revision time =>
    rw [delete_eq_ok applied]
    exact updated (Run.sameKeys_cancel time)
  | materializeDue time runIds => exact List.map_subset _ (runs_subset_materializeRows applied)
  | recoverInterrupted =>
    cases applied
    exact updated Run.sameKeys_interrupt
  | beginRun runId nodeId time =>
    cases applied
    rw [CronDatabase.beginRun]
    split
    · exact List.Subset.refl _
    · exact updated (Run.sameKeys_begin time)
  | finishRun runId time error =>
    cases applied
    exact updated (Run.sameKeys_finish time error)

end Apply

/-! ### Runs of the store -/

section Trace

variable {cal : Calendar} {start s s' t : CronSystem} {ops : List CronOp} {op : CronOp}

/-- A run behind a step is an old one, or was queued for an enabled job. -/
theorem traced_step (stepped : s.step cal op = some s') : ∀ run ∈ s'.db.runs, Traced op s.db run := by
  obtain ⟨-, -, applied | same⟩ := CronSystem.step_cases stepped
  · exact traced_apply applied
  · rw [same]
    exact fun run mem => Traced.of_mem mem

/-- No step takes a run away. -/
theorem ids_step (stepped : s.step cal op = some s') :
    s.db.runs.map Run.id ⊆ s'.db.runs.map Run.id := by
  obtain ⟨-, -, applied | same⟩ := CronSystem.step_cases stepped
  · exact ids_apply applied
  · rw [same]
    exact List.Subset.refl _

variable {old new : Run}

/-- A run keeps its job, and its status changes as the operation allows. -/
theorem follows_step (stepped : s.step cal op = some s') {run : Run} (mem : old ∈ s.db.runs)
    (after : run ∈ s'.db.runs) (same : run.id = old.id) :
    run.jobId = old.jobId ∧ Follows op old.status run.status := by
  rcases traced_step stepped run after with ⟨other, inRuns, sameId, job, follows⟩ | ⟨new, -⟩
  · rw [List.inj_on_of_nodup_map s.db.runIds mem inRuns (same.symm.trans sameId)]
    exact ⟨job, follows⟩
  · rw [same] at new
    exact absurd (List.mem_map_of_mem mem) new

/-- No run becomes active again, and only a recovery makes one pending again. -/
theorem follows_run (ran : run (CronSystem.step cal) s ops = some t) (mem : old ∈ s.db.runs)
    (after : new ∈ t.db.runs) (same : new.id = old.id) :
    new.jobId = old.jobId ∧ (new.status.isActive = true → old.status.isActive = true) ∧
      (new.status = .pending → old.status = .pending ∨ .recoverInterrupted ∈ ops) := by
  induction ops generalizing s old with
  | nil =>
    cases ran
    rw [List.inj_on_of_nodup_map t.db.runIds after mem same]
    exact ⟨rfl, id, .inl⟩
  | cons op ops ih =>
    obtain ⟨m, stepped, rest⟩ := run_cons_eq_some.mp ran
    obtain ⟨mid, inMid, sameId⟩ := List.mem_map.mp (ids_step stepped (List.mem_map_of_mem mem))
    obtain ⟨job, follows⟩ := follows_step stepped mem inMid sameId
    obtain ⟨laterJob, active, pending⟩ := ih rest inMid (same.trans sameId.symm)
    refine ⟨laterJob.trans job, fun on => follows.active (active on), fun isPending => ?_⟩
    rcases pending isPending with midPending | recovered
    · rw [midPending] at follows
      rcases follows.interrupted_of_pending with was | isRecovery
      · exact .inl was
      · exact .inr (isRecovery ▸ List.mem_cons_self)
    · exact .inr (List.mem_cons_of_mem _ recovered)

/-- The run was being executed when an operation of the history cancelled the queued runs of its
job; `back` is what was done since. -/
def Overtaken (cal : Calendar) (start : CronSystem) (ops : List CronOp) (runId jobId : String)
    (back : List CronOp) : Prop :=
  ∃ front op m, ops = front ++ op :: back ∧ run (CronSystem.step cal) start front = some m ∧
    op.Succeeds cal m.db ∧ op.Cancels jobId ∧
    ∃ old ∈ m.db.runs, old.id = runId ∧ old.status = .running

/-- The run was queued by `materialize_due` for an enabled one-shot job. -/
def OneShot (cal : Calendar) (start : CronSystem) (ops : List CronOp) (runId jobId : String) :
    Prop :=
  ∃ front now runIds back m after, ops = front ++ .materializeDue now runIds :: back ∧
    run (CronSystem.step cal) start front = some m ∧
    m.step cal (.materializeDue now runIds) = some after ∧ runId ∉ m.db.runs.map Run.id ∧
    runId ∈ after.db.runs.map Run.id ∧ ∃ job ∈ m.db.jobs, job.id = jobId ∧ job.enabled = true ∧
      job.schedule.isAt = true

variable {runId : String}

theorem Overtaken.snoc {jobId : String} {back : List CronOp}
    (overtaken : Overtaken cal start ops runId jobId back) (op : CronOp) :
    Overtaken cal start (ops ++ [op]) runId jobId (back ++ [op]) := by
  obtain ⟨front, first, m, rfl, facts⟩ := overtaken
  exact ⟨front, first, m, by simp, facts⟩

theorem OneShot.snoc {jobId : String} (oneShot : OneShot cal start ops runId jobId) (op : CronOp) :
    OneShot cal start (ops ++ [op]) runId jobId := by
  obtain ⟨front, now, runIds, back, m, after, rfl, facts⟩ := oneShot
  exact ⟨front, now, runIds, back ++ [op], m, after, by simp, facts⟩

/-- Why a run is queued or executed. -/
def CancelInv (cal : Calendar) (start : CronSystem) (ops : List CronOp) (s : CronSystem) : Prop :=
  ∀ run ∈ s.db.runs, run.status.isActive = true →
    s.db.Enabled run.jobId ∨ OneShot cal start ops run.id run.jobId ∨
      ∃ back, Overtaken cal start ops run.id run.jobId back ∧
        (run.status = .running ∨ .recoverInterrupted ∈ back)

theorem CancelInv.kept (inv : CancelInv cal start ops s) (timed : CronInv cal s'.db s'.clock)
    (reached : run (CronSystem.step cal) start ops = some s)
    (applied : op.apply cal s.db = .ok s'.db) (mem : new ∈ s'.db.runs)
    (active : new.status.isActive = true) (inRuns : old ∈ s.db.runs) (sameId : new.id = old.id)
    (job : new.jobId = old.jobId) (follows : Follows op old.status new.status) :
    s'.db.Enabled new.jobId ∨ OneShot cal start (ops ++ [op]) new.id new.jobId ∨
      ∃ back, Overtaken cal start (ops ++ [op]) new.id new.jobId back ∧
        (new.status = .running ∨ .recoverInterrupted ∈ back) := by
  rw [sameId, job]
  rcases inv old inRuns (follows.active active) with enabled | oneShot | ⟨back, overtaken, why⟩
  · rcases enabled.apply applied with stays | cancels | ⟨⟨now, runIds, rfl⟩, -, other, inAfter, fresh⟩
    · exact .inl stays
    · -- the queued runs are cancelled, so this one is being executed
      have running : new.status = .running := by
        have notPending := cancels_runs cancels applied mem job
        cases status : new.status with
        | pending => exact absurd status notPending
        | running => rfl
        | completed | failed | cancelled =>
          rw [status] at active
          cases active
      rw [running] at follows
      exact .inr (.inr ⟨[], ⟨ops, op, s, rfl, reached, ⟨_, applied⟩, cancels, old, inRuns, rfl,
        follows.running_of_cancels cancels⟩, .inl running⟩)
    · -- the job got no run, since it had an active one
      obtain ⟨notOld, ofJob, pending⟩ := fresh
      have same : new = other := timed.once new mem other inAfter active (by rw [pending]; rfl)
        (job.trans ofJob.symm)
      rcases mem_materializeDue applied mem with isOld | ⟨isNew, -⟩
      · exact absurd (same ▸ isOld) notOld
      · exact absurd (sameId ▸ List.mem_map_of_mem inRuns) isNew
  · exact .inr (.inl (oneShot.snoc op))
  · refine .inr (.inr ⟨back ++ [op], overtaken.snoc op, ?_⟩)
    rcases why with running | recovered
    · rw [running] at follows
      cases status : new.status with
      | running => exact .inl rfl
      | pending =>
        rw [status] at follows
        rcases follows.interrupted_of_pending with absurd | isRecovery
        · cases absurd
        · exact .inr (List.mem_append_right _ (isRecovery ▸ List.mem_singleton_self _))
      | completed | failed | cancelled =>
        rw [status] at active
        cases active
    · exact .inr (List.mem_append_left _ recovered)

/-- Behind one more operation each active run still has a reason. -/
theorem CancelInv.step (inv : CancelInv cal start ops s) (timed : CronInv cal s'.db s'.clock)
    (reached : run (CronSystem.step cal) start ops = some s) (stepped : s.step cal op = some s') :
    CancelInv cal start (ops ++ [op]) s' := by
  intro new mem active
  obtain ⟨-, -, applied | same⟩ := CronSystem.step_cases stepped
  · rcases traced_apply applied new mem with ⟨old, inRuns, sameId, job, follows⟩ | ⟨isNew, isDue, on⟩
    · exact inv.kept timed reached applied mem active inRuns sameId job follows
    · obtain ⟨now, runIds, rfl⟩ := isDue
      have enabled : s.db.Enabled new.jobId := on
      rcases enabled.materializeDue applied with stays | ⟨oneShot, -⟩
      · exact .inl stays
      · exact .inr (.inl ⟨ops, now, runIds, [], s, s', rfl, reached, stepped, isNew,
          List.mem_map_of_mem mem, oneShot⟩)
  · rw [same] at mem ⊢
    rcases inv new mem active with enabled | oneShot | ⟨back, overtaken, why⟩
    · exact .inl enabled
    · exact .inr (.inl (oneShot.snoc op))
    · exact .inr (.inr ⟨back ++ [op], overtaken.snoc op, why.imp_right (List.mem_append_left _)⟩)

/-- In every run from the empty store each active run has a reason. -/
theorem CancelInv.run {clock : Time}
    (ran : run (CronSystem.step cal) { clock } ops = some s) : CancelInv cal { clock } ops s := by
  induction ops using List.reverseRecOn generalizing s with
  | nil =>
    cases ran
    exact fun _ mem => absurd mem List.not_mem_nil
  | append_singleton front op ih =>
    obtain ⟨m, reached, last⟩ := run_append.mp ran
    obtain ⟨after, stepped, same⟩ := run_cons_eq_some.mp last
    cases same
    exact (ih reached).step (CronInv.run ran) reached stepped

theorem beginRun_eq_some {db : CronDatabase} {nodeId : String} {now : Time}
    (begun : (db.beginRun runId nodeId now).1 = some new) :
    new ∈ db.runs ∧ new.status = .pending := by
  rw [CronDatabase.beginRun] at begun
  split at begun
  · cases begun
  · rename_i found isFound
    cases begun
    have matched := List.find?_some isFound
    simp only [decide_eq_true_eq] at matched
    exact ⟨List.mem_of_find?_eq_some isFound, matched.2.2⟩

/-- A run that starts although its job was deleted, disabled or given a new schedule.  When a
deletion, a pause or a new schedule found the run in the store, it was being executed then and a
recovery queued it since.  When the job is not enabled, this is so, or the transaction that queued
the run found an enabled one-shot job. -/
theorem cancelled_not_begun {clock : Time}
    (ran : Lib.run (CronSystem.step cal) { clock } ops = some s) {runId nodeId : String} {now : Time}
    {new : Run} (begun : (s.db.beginRun runId nodeId now).1 = some new) :
    (∀ front op back m, ops = front ++ op :: back →
      Lib.run (CronSystem.step cal) { clock } front = some m → op.Succeeds cal m.db →
      op.Cancels new.jobId → new.id ∈ m.db.runs.map Run.id →
      Overtaken cal { clock } ops new.id new.jobId back ∧ .recoverInterrupted ∈ back) ∧
    ((∀ job ∈ s.db.jobs, job.id = new.jobId → job.enabled = false) →
      OneShot cal { clock } ops new.id new.jobId ∨
        ∃ back, Overtaken cal { clock } ops new.id new.jobId back ∧
          .recoverInterrupted ∈ back) := by
  obtain ⟨mem, pending⟩ := beginRun_eq_some begun
  constructor
  · intro front op back m split reached succeeds cancels known
    obtain ⟨old, inRuns, sameId⟩ := List.mem_map.mp known
    have whole := ran
    rw [split] at whole
    obtain ⟨_, first, rest⟩ := run_append.mp whole
    cases first.symm.trans reached
    obtain ⟨behind, stepped, later⟩ := run_cons_eq_some.mp rest
    obtain ⟨db, applied⟩ := succeeds
    have isBehind : op.apply cal m.db = .ok behind.db := by
      rw [CronSystem.step, applied] at stepped
      split_ifs at stepped
      cases stepped
      exact applied
    obtain ⟨mid, inMid, midId⟩ := List.mem_map.mp (ids_step stepped (List.mem_map_of_mem inRuns))
    obtain ⟨midJob, follows⟩ := follows_step stepped inRuns inMid midId
    have same : new.id = mid.id := (midId.trans sameId).symm
    obtain ⟨job, active, queued⟩ := follows_run later inMid mem same
    have notPending := cancels_runs cancels isBehind inMid job.symm
    have midActive := active (by rw [pending]; rfl)
    have running : mid.status = .running := by
      cases status : mid.status with
      | pending => exact absurd status notPending
      | running => rfl
      | completed | failed | cancelled =>
        rw [status] at midActive
        cases midActive
    rw [running] at follows
    refine ⟨⟨front, op, m, split, reached, ⟨db, applied⟩, cancels, old, inRuns, sameId,
      follows.running_of_cancels cancels⟩, ?_⟩
    rcases queued pending with absurd | recovered
    · exact (notPending absurd).elim
    · exact recovered
  · intro off
    rcases CancelInv.run ran new mem (by rw [pending]; rfl) with
      ⟨job, inJobs, isJob, on⟩ | oneShot | ⟨back, overtaken, running | recovered⟩
    · rw [off job inJobs isJob] at on
      cases on
    · exact .inl oneShot
    · rw [pending] at running
      cases running
    · exact .inr ⟨back, overtaken, recovered⟩

end Trace

/-- The identifiers of a materialisation that inserts one run. -/
def firstId (id : String) (n : Nat) : String := if n = 0 then id else "later"

/-- A job is deleted while its run is being executed, and the backend is interrupted. -/
def interruptedDelete : List CronOp :=
  [.create "agent" ⟨"check", "look", .every minute⟩ .developer 0 "j1",
    .materializeDue 60 (firstId "r1"), .beginRun "r1" "agent" 60, .delete "agent" "j1" 1 61,
    .recoverInterrupted]

/-- The run of the deleted job is there, and it starts. -/
theorem cancelled_not_begun_interrupted :
    ∃ s new, run (CronSystem.step plainCalendar) { clock := 0 } interruptedDelete = some s ∧
      (s.db.beginRun "r1" "agent" 62).1 = some new ∧ new.jobId = "j1" ∧
      (OneShot plainCalendar { clock := 0 } interruptedDelete new.id new.jobId ∨
        ∃ back, Overtaken plainCalendar { clock := 0 } interruptedDelete new.id new.jobId back ∧
          .recoverInterrupted ∈ back) := by
  have traced : ((run (CronSystem.step plainCalendar) { clock := 0 } interruptedDelete).map fun s =>
      (s.db.jobs, (s.db.beginRun "r1" "agent" 62).1.map Run.jobId)) = some ([], some "j1") := by
    decide +kernel
  obtain ⟨s, ran, facts⟩ := Option.map_eq_some_iff.mp traced
  obtain ⟨noJobs, begun⟩ := Prod.mk.inj facts
  obtain ⟨new, begun, ofJob⟩ := Option.map_eq_some_iff.mp begun
  refine ⟨s, new, ran, begun, ofJob, (cancelled_not_begun ran begun).2 fun job mem => ?_⟩
  rw [noJobs] at mem
  cases mem

/-- The run of a one-shot job starts although the job is disabled, and a run that was being executed
when its job was deleted starts again. -/
theorem beginRun_starts_cancelled :
    ((run (CronSystem.step plainCalendar) { clock := 0 }
        [.create "agent" ⟨"check", "look", .at "2030-01-01T00:00:00+00:00"⟩ .developer 0 "j1",
          .materializeDue 1893456000 (firstId "r1")]).map fun s =>
        (s.db.jobs.map Job.enabled, (s.db.beginRun "r1" "agent" 1893456000).1.map Run.jobId)) =
      some ([false], some "j1") ∧
    ((run (CronSystem.step plainCalendar) { clock := 0 } interruptedDelete).map fun s =>
        (s.db.jobs.map Job.id, (s.db.beginRun "r1" "agent" 62).1.map Run.jobId)) =
      some ([], some "j1") := by
  decide +kernel

end AgentPark.Cron
