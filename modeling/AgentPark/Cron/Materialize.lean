import AgentPark.Cron.Store
import Mathlib.Data.Int.Log

/-!
# Materialising the runs that are due

`materialize_due` goes through the jobs that are due: each gets a run, unless it has an active one,
and the deadline behind the present time.
-/

namespace AgentPark.Cron

open Lib

/-! ### Materialising -/

section Materialize

variable {cal : Calendar} {db db' : CronDatabase} {now : Time}

variable {deadline : Time}

theorem nextDeadline_some {schedule : Schedule} {next : Option Time}
    (computed : nextDeadline cal schedule now (some deadline) = .ok next) :
    (schedule.isAt = true ∧ next = none) ∨
      schedule.isAt = false ∧ ∃ t, next = some t ∧ (cal.Exact → now < t ∧
        ∀ interval, schedule = .every interval → t - interval.seconds ≤ now ∧
          ∃ k : ℤ, t = deadline + k * interval.seconds) := by
  cases schedule with
  | «at» time =>
    cases computed
    exact .inl ⟨rfl, rfl⟩
  | every interval =>
    cases computed
    refine .inr ⟨rfl, _, rfl, fun exact => ?_⟩
    rw [exact, exact]
    have positive : (0 : Rat) < interval.seconds := by
      have := interval.lower
      exact_mod_cast (by omega : 0 < interval.seconds)
    have ahead := Int.lt_floor_add_one ((now - deadline) / interval.seconds)
    have before := Int.floor_le ((now - deadline) / interval.seconds)
    rw [div_lt_iff₀ positive] at ahead
    rw [le_div_iff₀ positive] at before
    refine ⟨by linarith, ?_⟩
    rintro other ⟨⟩
    refine ⟨by linarith, ⌊(now - deadline) / interval.seconds⌋ + 1, ?_⟩
    push_cast
    ring
  | cron expression timezone =>
    rw [nextDeadline] at computed
    split at computed
    · rename_i t found
      cases computed
      refine .inr ⟨rfl, t, rfl, fun _ => ⟨cal.nextMatch_gt _ _ _ _ found, ?_⟩⟩
      rintro other ⟨⟩
    · cases computed

/-- The job that an iteration leaves. -/
def Job.advance (next : Option Time) (now : Time) (job : Job) : Job :=
  { job with nextRun := next, enabled := next.isSome, updatedAt := now }

variable {row : Job} {runId : String}

/-- What one iteration does. -/
theorem materializeRow_cases (done : db.materializeRow cal now row deadline runId = .ok db') :
    (db.active row.id = true ∧ row.schedule.isAt = true ∧ db' = db) ∨
      ∃ mid next, (db.active row.id = true ∧ row.schedule.isAt = false ∧ mid = db ∨
          db.active row.id = false ∧ db.insertRun (row.run deadline runId) = .ok mid) ∧
        nextDeadline cal row.schedule now (some deadline) = .ok next ∧ mid.runs = db'.runs ∧
        mid.jobs = db.jobs ∧
        db'.jobs = updateWhere (fun job => job.id = row.id) (Job.advance next now) db.jobs := by
  rw [CronDatabase.materializeRow] at done
  by_cases waits : db.active row.id = true ∧ row.schedule.isAt = true
  · rw [if_pos waits] at done
    cases done
    exact .inl ⟨waits.1, waits.2, rfl⟩
  · rw [if_neg waits] at done
    obtain ⟨mid, inserted, done⟩ := bind_eq_ok.mp done
    obtain ⟨next, computed, done⟩ := bind_eq_ok.mp done
    cases done
    have ofRow : (row.run deadline runId).jobId = row.id := rfl
    rw [CronDatabase.insertRunIfIdle, ofRow] at inserted
    by_cases active : db.active row.id = true
    · rw [if_pos active] at inserted
      cases inserted
      have notAt : row.schedule.isAt = false := by
        rw [← Bool.not_eq_true]
        exact fun isAt => waits ⟨active, isAt⟩
      exact .inr ⟨db, next, .inl ⟨active, notAt, rfl⟩, computed, rfl, rfl, rfl⟩
    · rw [if_neg active] at inserted
      have jobs : mid.jobs = db.jobs := by
        rw [CronDatabase.insertRun] at inserted
        split_ifs at inserted
        cases inserted
        rfl
      refine .inr ⟨mid, next, .inr ⟨by simpa using active, inserted⟩, computed, rfl, jobs, ?_⟩
      rw [← jobs]
      rfl

theorem insertRun_eq_ok {run : Run} (inserted : db.insertRun run = .ok db') :
    db'.runs = db.runs ++ [run] ∧ run.id ∉ db.runs.map Run.id := by
  rw [CronDatabase.insertRun] at inserted
  split_ifs at inserted with fresh
  cases inserted
  exact ⟨rfl, fresh.1⟩

theorem not_active {jobId : String} (idle : db.active jobId = false) {run : Run}
    (mem : run ∈ db.runs) (ofJob : run.jobId = jobId) : run.status.isActive = false := by
  rw [CronDatabase.active, List.any_eq_false] at idle
  have := idle run mem
  simpa [ofJob] using this

structure Due (db : CronDatabase) (now : Time) (row : Job) (deadline : Time) : Prop where
  mem : row ∈ db.jobs
  enabled : row.enabled = true
  next : row.nextRun = some deadline
  passed : deadline ≤ now

theorem CronInv.materializeRow (inv : CronInv cal db now) (due : Due db now row deadline)
    (done : db.materializeRow cal now row deadline runId = .ok db') : CronInv cal db' now := by
  rcases materializeRow_cases done with ⟨-, -, rfl⟩ | ⟨mid, next, runs, computed, same, -, jobs⟩
  · exact inv
  have later : mid.runs = db.runs ∨
      (db.active row.id = false ∧ mid.runs = db.runs ++ [row.run deadline runId]) := by
    rcases runs with ⟨-, -, rfl⟩ | ⟨idle, inserted⟩
    · exact .inl rfl
    · exact .inr ⟨idle, (insertRun_eq_ok inserted).1⟩
  have split {run : Run} (mem : run ∈ db'.runs) :
      run ∈ db.runs ∨ (db.active row.id = false ∧ run = row.run deadline runId) := by
    rw [← same] at mem
    rcases later with old | ⟨idle, new⟩
    · exact .inl (old ▸ mem)
    · rw [new] at mem
      rcases List.mem_append.mp mem with old | new
      · exact .inl old
      · exact .inr ⟨idle, List.mem_singleton.mp new⟩
  have past : ∀ run ∈ db'.runs, run.scheduledAt ≤ now := by
    intro run mem
    rcases split mem with old | ⟨-, rfl⟩
    · exact inv.past run old
    · exact due.passed
  refine ⟨?_, ?_, past⟩
  · intro run mem other otherMem active otherActive same
    rcases split mem with old | ⟨idle, rfl⟩
    · rcases split otherMem with otherOld | ⟨idle, rfl⟩
      · exact inv.once run old other otherOld active otherActive same
      · rw [not_active idle old same] at active
        cases active
    · rcases split otherMem with otherOld | ⟨-, rfl⟩
      · rw [not_active idle otherOld same.symm] at otherActive
        cases otherActive
      · rfl
  · intro job mem
    rw [jobs] at mem
    rcases mem_updateWhere_cases mem with ⟨old, other⟩ | ⟨old, inJobs, here, rfl⟩
    · -- another job: the new run is none of its runs
      intro enabled
      obtain ⟨t, isNext, ahead⟩ := inv.timed job old enabled
      refine ⟨t, isNext, fun exact => ⟨fun run inRuns ofJob => ?_, (ahead exact).2⟩⟩
      rcases split inRuns with oldRun | ⟨-, rfl⟩
      · exact (ahead exact).1 run oldRun ofJob
      · have differs : job.id ≠ row.id := by simpa using other
        exact absurd ofJob.symm differs
    · have isRow : old = row := by
        have sameId : old.id = row.id := by simpa using here
        exact List.inj_on_of_nodup_map db.jobIds inJobs due.mem sameId
      subst isRow
      intro enabled
      rcases nextDeadline_some computed with ⟨-, none⟩ | ⟨-, t, isNext, ahead⟩
      · rw [Job.advance, none] at enabled
        cases enabled
      · exact ⟨t, isNext, fun exact => ⟨fun run inRuns _ =>
          lt_of_le_of_lt (past run inRuns) (ahead exact).1, fun i every => ((ahead exact).2 i every).1⟩⟩

theorem Due.materializeRow {other : Job} {otherDeadline : Time}
    (due : Due db now other otherDeadline) (differs : other.id ≠ row.id)
    (done : db.materializeRow cal now row deadline runId = .ok db') :
    Due db' now other otherDeadline := by
  refine ⟨?_, due.enabled, due.next, due.passed⟩
  rcases materializeRow_cases done with ⟨-, -, rfl⟩ | ⟨_, _, -, -, -, -, jobs⟩
  · exact due.mem
  · rw [jobs]
    exact mem_updateWhere_of_neg due.mem (by simpa using differs)

theorem due_due (db : CronDatabase) (now : Time) :
    (∀ entry ∈ db.due now, Due db now entry.1 entry.2) ∧
      ((db.due now).map fun entry => entry.1.id).Nodup := by
  constructor
  · intro entry mem
    obtain ⟨job, inJobs, isEntry⟩ := List.mem_filterMap.mp mem
    split at isEntry
    · rename_i deadline next
      split_ifs at isEntry with due
      cases isEntry
      exact ⟨inJobs, due.1, next, due.2⟩
    · cases isEntry
  · have sublist : ((db.due now).map fun entry => entry.1.id).Sublist (db.jobs.map Job.id) := by
      rw [CronDatabase.due]
      induction db.jobs with
      | nil => exact List.Sublist.refl _
      | cons job jobs ih =>
        rw [List.filterMap_cons]
        split
        · exact ih.cons _
        · rename_i entry isEntry
          have same : entry.1.id = job.id := by
            split at isEntry
            · split_ifs at isEntry
              cases isEntry
              rfl
            · cases isEntry
          rw [List.map_cons, List.map_cons, same]
          exact ih.cons_cons _
    exact db.jobIds.sublist sublist

theorem CronInv.materializeRows {runIds : Nat → String} {rows : List (Job × Time)} {n : Nat}
    (inv : CronInv cal db now) (due : ∀ entry ∈ rows, Due db now entry.1 entry.2)
    (distinct : (rows.map fun entry => entry.1.id).Nodup)
    (done : CronDatabase.materializeRows cal now runIds n rows db = .ok db') : CronInv cal db' now := by
  induction rows generalizing n db with
  | nil =>
    cases done
    exact inv
  | cons entry rows ih =>
    rw [List.map_cons, List.nodup_cons] at distinct
    obtain ⟨mid, first, rest⟩ := bind_eq_ok.mp done
    refine ih (inv.materializeRow (due _ List.mem_cons_self) first) ?_ distinct.2 rest
    intro other mem
    have differs : other.1.id ≠ entry.1.id := by
      intro same
      exact distinct.1 (same ▸ List.mem_map_of_mem mem)
    exact (due other (List.mem_cons_of_mem _ mem)).materializeRow differs first

theorem CronInv.materializeDue (inv : CronInv cal db now) {runIds : Nat → String}
    (done : db.materializeDue cal now runIds = .ok db') : CronInv cal db' now :=
  inv.materializeRows (due_due db now).1 (due_due db now).2 done

/-- Every operation keeps the invariant. -/
theorem CronInv.apply {op : CronOp} (inv : CronInv cal db (op.time.getD now))
    (applied : op.apply cal db = .ok db') : CronInv cal db' (op.time.getD now) := by
  cases op with
  | create nodeId spec role time jobId =>
    obtain ⟨⟨job, after⟩, created, rfl⟩ := map_eq_ok.mp applied
    exact inv.create created
  | update nodeId spec role time =>
    obtain ⟨⟨job, after⟩, updated, rfl⟩ := map_eq_ok.mp applied
    exact inv.update updated
  | delete nodeId jobId revision time => exact inv.delete applied
  | materializeDue time runIds => exact inv.materializeDue applied
  | recoverInterrupted =>
    cases applied
    exact inv.recoverInterrupted
  | beginRun runId nodeId time =>
    cases applied
    exact inv.beginRun runId nodeId time
  | finishRun runId time error =>
    cases applied
    exact inv.finishRun runId time error

/-- One operation keeps the invariant of the store, at the clock behind it. -/
theorem CronInv.step {s s' : CronSystem} {op : CronOp} (inv : CronInv cal s.db s.clock)
    (stepped : s.step cal op = some s') : CronInv cal s'.db s'.clock := by
  obtain ⟨forward, clock, applied | same⟩ := CronSystem.step_cases stepped
  · rw [clock] at forward ⊢
    exact (inv.later forward).apply applied
  · rw [same]
    exact inv.later forward

/-- Every reachable store has the invariant. -/
theorem CronInv.run {start : Time} {ops : List CronOp} {s : CronSystem}
    (ran : run (CronSystem.step cal) { clock := start } ops = some s) : CronInv cal s.db s.clock :=
  run_invariant (fun _ _ _ inv stepped => CronInv.step inv stepped) (CronInv.empty start) ran

end Materialize

/-! ### What materialising gives -/

section Results

variable {cal : Calendar} {db db' : CronDatabase} {now : Time}

variable {row job : Job} {deadline a : Time} {runId jobId : String}

theorem materializeRow_ne_integrity (exact : cal.Exact) (inv : CronInv cal db now) (due : Due db now row deadline)
    (fresh : runId ∉ db.runs.map Run.id) :
    db.materializeRow cal now row deadline runId ≠ .error .integrity := by
  intro raised
  rw [CronDatabase.materializeRow] at raised
  split_ifs at raised
  rcases bind_eq_error.mp raised with insertion | ⟨mid, -, raised⟩
  · rw [CronDatabase.insertRunIfIdle, CronDatabase.insertRun] at insertion
    split_ifs at insertion with active valid
    -- the deadline of the job lies behind all its runs
    apply valid
    refine ⟨fresh, fun mem => ?_⟩
    obtain ⟨run, inRuns, same⟩ := List.mem_map.mp mem
    obtain ⟨ofJob, sameTime⟩ := Prod.mk.inj same
    obtain ⟨t, next, ahead⟩ := inv.timed row due.mem due.enabled
    have before := (ahead exact).1 run inRuns ofJob
    rw [due.next] at next
    cases next
    have same : run.scheduledAt = deadline := sameTime
    exact absurd before (by rw [same]; exact lt_irrefl _)
  · rcases bind_eq_error.mp raised with computed | ⟨next, -, absurd⟩
    · rw [nextDeadline.eq_def] at computed
      split at computed
      all_goals try cases computed
      split at computed
      all_goals cases computed
    · cases absurd

/-- The identifiers drawn from `n` on are new and differ from each other. -/
def FreshFrom (runs : List Run) (runIds : Nat → String) (n : Nat) : Prop :=
  Function.Injective runIds ∧ ∀ m, n ≤ m → runIds m ∉ runs.map Run.id

theorem materializeRow_runs (done : db.materializeRow cal now row deadline runId = .ok db') :
    db'.runs = db.runs ∨
      (runId ∉ db.runs.map Run.id ∧ db'.runs = db.runs ++ [row.run deadline runId]) := by
  rcases materializeRow_cases done with ⟨-, -, rfl⟩ | ⟨mid, next, runs, -, same, -, -⟩
  · exact .inl rfl
  · rw [← same]
    rcases runs with ⟨-, -, rfl⟩ | ⟨-, inserted⟩
    · exact .inl rfl
    · exact .inr ⟨(insertRun_eq_ok inserted).2, (insertRun_eq_ok inserted).1⟩

variable {runIds : Nat → String} {rows : List (Job × Time)} {n : Nat}

theorem mem_materializeRows (done : CronDatabase.materializeRows cal now runIds n rows db = .ok db')
    {run : Run} (mem : run ∈ db'.runs) :
    run ∈ db.runs ∨ run.id ∉ db.runs.map Run.id ∧
      ∃ entry ∈ rows, ∃ runId, run = entry.1.run entry.2 runId := by
  induction rows generalizing n db with
  | nil =>
    cases done
    exact .inl mem
  | cons entry rows ih =>
    obtain ⟨row, deadline⟩ := entry
    obtain ⟨mid, first, rest⟩ := bind_eq_ok.mp done
    rcases ih rest with inMid | ⟨new, other, inRows, same⟩
    · rcases materializeRow_runs first with same | ⟨new, added⟩
      · exact .inl (same ▸ inMid)
      · rw [added] at inMid
        rcases List.mem_append.mp inMid with old | isNew
        · exact .inl old
        · rw [List.mem_singleton.mp isNew]
          exact .inr ⟨new, _, List.mem_cons_self, _, rfl⟩
    · refine .inr ⟨fun old => new ?_, other, List.mem_cons_of_mem _ inRows, same⟩
      rcases materializeRow_runs first with same | ⟨-, added⟩
      · rw [same]
        exact old
      · rw [added, List.map_append]
        exact List.mem_append_left _ old

theorem FreshFrom.materializeRow (fresh : FreshFrom db.runs runIds n)
    (done : db.materializeRow cal now row deadline (runIds n) = .ok db') :
    FreshFrom db'.runs runIds (n + 1) := by
  refine ⟨fresh.1, fun m later => ?_⟩
  have old := fresh.2 m (by omega)
  rcases materializeRow_runs done with same | ⟨-, new⟩
  · rw [same]
    exact old
  · rw [new, List.map_append, List.mem_append, not_or]
    refine ⟨old, fun mem => ?_⟩
    have same : runIds m = runIds n := by simpa [Job.run] using mem
    have := fresh.1 same
    omega

/-- Under the invariant, the loop never runs into a constraint. -/
theorem materializeRows_ne_integrity (exact : cal.Exact) (inv : CronInv cal db now)
    (due : ∀ entry ∈ rows, Due db now entry.1 entry.2)
    (distinct : (rows.map fun entry => entry.1.id).Nodup) (fresh : FreshFrom db.runs runIds n) :
    CronDatabase.materializeRows cal now runIds n rows db ≠ .error .integrity := by
  induction rows generalizing n db with
  | nil => nofun
  | cons entry rows ih =>
    rw [List.map_cons, List.nodup_cons] at distinct
    have isDue := due entry List.mem_cons_self
    intro raised
    rcases bind_eq_error.mp raised with first | ⟨mid, first, rest⟩
    · exact materializeRow_ne_integrity exact inv isDue (fresh.2 n le_rfl) first
    · refine ih (inv.materializeRow isDue first) ?_ distinct.2 (fresh.materializeRow first) rest
      intro other mem
      have differs : other.1.id ≠ entry.1.id := by
        intro same
        exact distinct.1 (same ▸ List.mem_map_of_mem mem)
      exact (due other (List.mem_cons_of_mem _ mem)).materializeRow differs first

theorem runs_subset_materializeRows
    (done : CronDatabase.materializeRows cal now runIds n rows db = .ok db') :
    db.runs ⊆ db'.runs := by
  induction rows generalizing n db with
  | nil =>
    cases done
    exact List.Subset.refl _
  | cons entry rows ih =>
    obtain ⟨mid, first, rest⟩ := bind_eq_ok.mp done
    refine List.Subset.trans ?_ (ih rest)
    rcases materializeRow_runs first with same | ⟨-, new⟩
    · rw [same]
      exact List.Subset.refl _
    · rw [new]
      exact List.subset_append_left _ _

/-- An iteration computed the next deadline of a job; a one-shot job got its run. -/
def Advanced (cal : Calendar) (now : Time) (runs after : List Run) (old job : Job) : Prop :=
  ∃ deadline next, old.enabled = true ∧ old.nextRun = some deadline ∧
    nextDeadline cal old.schedule now (some deadline) = .ok next ∧ job = old.advance next now ∧
      (old.schedule.isAt = true → ∃ run ∈ after, run ∉ runs ∧ run.jobId = old.id ∧
        run.status = .pending ∧ run.scheduledAt = deadline)

theorem materializeRow_jobs (due : Due db now row deadline)
    (done : db.materializeRow cal now row deadline runId = .ok db') (mem : job ∈ db'.jobs) :
    (job ∈ db.jobs ∧ (job.id = row.id → job.schedule.isAt = true)) ∨
      (job.id = row.id ∧ Advanced cal now db.runs db'.runs row job) := by
  rcases materializeRow_cases done with ⟨-, isAt, rfl⟩ | ⟨mid, next, runs, computed, same, -, jobs⟩
  · refine .inl ⟨mem, fun sameId => ?_⟩
    rw [List.inj_on_of_nodup_map db'.jobIds mem due.mem sameId]
    exact isAt
  · rw [jobs] at mem
    rcases mem_updateWhere_cases mem with ⟨old, other⟩ | ⟨old, inJobs, here, rfl⟩
    · have differs : job.id ≠ row.id := by simpa using other
      exact .inl ⟨old, fun sameId => absurd sameId differs⟩
    · have isRow : old = row := by
        have sameId : old.id = row.id := by simpa using here
        exact List.inj_on_of_nodup_map db.jobIds inJobs due.mem sameId
      subst isRow
      refine .inr ⟨rfl, deadline, next, due.enabled, due.next, computed, rfl, fun isAt => ?_⟩
      rcases runs with ⟨-, notAt, -⟩ | ⟨-, inserted⟩
      · rw [isAt] at notAt
        cases notAt
      · obtain ⟨added, fresh⟩ := insertRun_eq_ok inserted
        rw [← same, added]
        refine ⟨old.run deadline runId, by simp, fun mem => ?_, rfl, rfl, rfl⟩
        exact fresh (List.mem_map_of_mem mem)

/-- What the loop makes of the jobs. -/
theorem materializeRows_jobs (due : ∀ entry ∈ rows, Due db now entry.1 entry.2)
    (distinct : (rows.map fun entry => entry.1.id).Nodup)
    (done : CronDatabase.materializeRows cal now runIds n rows db = .ok db') (mem : job ∈ db'.jobs) :
    (job ∈ db.jobs ∧ (job.id ∈ rows.map (fun entry => entry.1.id) → job.schedule.isAt = true)) ∨
      ∃ old ∈ db.jobs, old.id = job.id ∧ old.id ∈ rows.map (fun entry => entry.1.id) ∧
        Advanced cal now db.runs db'.runs old job := by
  induction rows generalizing n db with
  | nil =>
    cases done
    exact .inl ⟨mem, by simp⟩
  | cons entry rows ih =>
    obtain ⟨row, deadline⟩ := entry
    rw [List.map_cons, List.nodup_cons] at distinct
    obtain ⟨mid, first, rest⟩ := bind_eq_ok.mp done
    have isDue := due _ List.mem_cons_self
    have apart : ∀ other ∈ rows, other.1.id ≠ row.id := by
      intro other mem same
      exact distinct.1 (same ▸ List.mem_map_of_mem mem)
    have stays : ∀ other ∈ rows, Due mid now other.1 other.2 := fun other mem =>
      (due other (List.mem_cons_of_mem _ mem)).materializeRow (apart other mem) first
    have grown : db.runs ⊆ mid.runs := by
      rcases materializeRow_runs first with same | ⟨-, new⟩
      · rw [same]
        exact List.Subset.refl _
      · rw [new]
        exact List.subset_append_left _ _
    have kept := runs_subset_materializeRows rest
    rcases ih stays distinct.2 rest with ⟨inMid, waits⟩ | ⟨old, inMid, sameId, inRows, advanced⟩
    · rcases materializeRow_jobs isDue first inMid with ⟨old, here⟩ | ⟨sameId, advanced⟩
      · refine .inl ⟨old, fun inRows => ?_⟩
        rcases List.mem_cons.mp inRows with this | later
        · exact here this
        · exact waits later
      · obtain ⟨d, next, enabled, isNext, computed, same, run⟩ := advanced
        refine .inr ⟨row, isDue.mem, sameId.symm, by simp, d, next, enabled, isNext, computed, same,
          ?_⟩
        intro isAt
        obtain ⟨r, inRuns, new, facts⟩ := run isAt
        exact ⟨r, kept inRuns, new, facts⟩
    · obtain ⟨d, next, enabled, isNext, computed, same, run⟩ := advanced
      rcases materializeRow_jobs isDue first inMid with ⟨inJobs, -⟩ | ⟨isRow, -⟩
      · refine .inr ⟨old, inJobs, sameId, List.mem_cons_of_mem _ inRows, d, next, enabled, isNext,
          computed, same, fun isAt => ?_⟩
        obtain ⟨r, inRuns, new, facts⟩ := run isAt
        exact ⟨r, inRuns, fun mem => new (grown mem), facts⟩
      · exact absurd (isRow ▸ inRows) distinct.1

theorem materializeDue_jobs (done : db.materializeDue cal now runIds = .ok db')
    (mem : job ∈ db'.jobs) :
    (job ∈ db.jobs ∧ (job.enabled = true → job.schedule.isAt = false →
        ∀ t, job.nextRun = some t → now < t)) ∨
      ∃ old ∈ db.jobs, old.id = job.id ∧ Advanced cal now db.runs db'.runs old job := by
  obtain ⟨due, distinct⟩ := due_due db now
  rcases materializeRows_jobs due distinct done mem with ⟨inJobs, waits⟩ | ⟨old, here, same, -, step⟩
  · refine .inl ⟨inJobs, fun enabled repeats t next => ?_⟩
    by_contra passed
    have isDue : (job, t) ∈ db.due now := by
      apply List.mem_filterMap.mpr
      refine ⟨job, inJobs, ?_⟩
      rw [next]
      exact if_pos ⟨enabled, not_lt.mp passed⟩
    have isAt := waits (List.mem_map_of_mem isDue)
    rw [repeats] at isAt
    cases isAt
  · exact .inr ⟨old, here, same, step⟩

/-! ### The grid of an interval job -/

/-- The operation sets the deadline of a job anew. -/
def CronOp.Rebases (db : CronDatabase) (jobId : String) : CronOp → Prop
  | create _ _ _ _ id => id = jobId
  | update _ spec _ _ =>
    spec.jobId = jobId ∧ ∃ row ∈ db.jobs, row.id = jobId ∧ spec.recomputes row = true
  | _ => False

/-- While it is enabled, the deadlines of the job are whole intervals away from `a`. -/
def OnGrid (jobId : String) (a : Time) (interval : Interval) (db : CronDatabase) : Prop :=
  ∀ job ∈ db.jobs, job.id = jobId → job.enabled = true →
    job.schedule = .every interval ∧ ∃ k : ℤ, job.nextRun = some (a + k * interval.seconds)

variable {interval : Interval}

theorem OnGrid.materializeDue (exact : cal.Exact) (grid : OnGrid jobId a interval db)
    (done : db.materializeDue cal now runIds = .ok db') : OnGrid jobId a interval db' := by
  intro job mem ofJob enabled
  rcases materializeDue_jobs done mem with ⟨inJobs, -⟩ | ⟨old, inJobs, sameId, advanced⟩
  · exact grid job inJobs ofJob enabled
  · obtain ⟨deadline, next, wasEnabled, isNext, computed, rfl, -⟩ := advanced
    obtain ⟨every, k, onGrid⟩ := grid old inJobs (sameId.trans ofJob) wasEnabled
    refine ⟨every, ?_⟩
    rw [onGrid] at isNext
    cases isNext
    rw [every] at computed
    rcases nextDeadline_some computed with ⟨absurd, -⟩ | ⟨-, t, isTime, ahead⟩
    · cases absurd
    · obtain ⟨-, l, same⟩ := (ahead exact).2 interval rfl
      refine ⟨k + l, ?_⟩
      rw [Job.advance, isTime, same]
      push_cast
      congr 1
      ring

theorem OnGrid.apply (exact : cal.Exact) (grid : OnGrid jobId a interval db) {op : CronOp}
    (keeps : ¬ op.Rebases db jobId) (applied : op.apply cal db = .ok db') :
    OnGrid jobId a interval db' := by
  cases op with
  | create nodeId spec role time id =>
    obtain ⟨⟨job, after⟩, created, rfl⟩ := map_eq_ok.mp applied
    rcases create_eq_ok created with rfl | ⟨t, isId, -, -, -, inserted⟩
    · exact grid
    · rw [CronDatabase.insertJob] at inserted
      split_ifs at inserted
      cases inserted
      intro other mem ofJob
      rcases List.mem_append.mp mem with old | new
      · exact grid other old ofJob
      · rw [List.mem_singleton.mp new, isId] at ofJob
        exact absurd ofJob keeps
  | update nodeId spec role time =>
    obtain ⟨⟨job, after⟩, updated, rfl⟩ := map_eq_ok.mp applied
    obtain ⟨row, deadline, inJobs, isRow, computed, rfl, replaced⟩ := update_eq_ok updated
    obtain ⟨-, jobs⟩ := replaceJob_eq_ok replaced
    rw [jobs_edited] at jobs
    intro other mem ofJob enabled
    rw [jobs] at mem
    rcases mem_updateWhere_cases mem with ⟨old, -⟩ | ⟨_, -, -, rfl⟩
    · exact grid other old ofJob enabled
    · have same : row.id = jobId := ofJob
      have kept : ¬ spec.recomputes row = true := fun again =>
        keeps ⟨isRow.symm.trans same, row, inJobs, same, again⟩
      obtain ⟨rfl, wasEnabled, schedule⟩ := editedDeadline_kept kept computed enabled
      rw [schedule]
      exact grid row inJobs same wasEnabled
  | delete nodeId id revision time =>
    rw [delete_eq_ok applied]
    exact fun job mem => grid job (List.mem_filter.mp mem).1
  | materializeDue time runIds => exact grid.materializeDue exact applied
  | recoverInterrupted =>
    cases applied
    exact grid
  | beginRun runId nodeId time =>
    cases applied
    rw [CronDatabase.beginRun]
    split
    · exact grid
    · exact grid
  | finishRun runId time error =>
    cases applied
    exact grid

/-- An operation that does not set the deadline of the job anew keeps it on its grid. -/
theorem OnGrid.step (exact : cal.Exact) {s s' : CronSystem} {op : CronOp} (grid : OnGrid jobId a interval s.db)
    (stepped : s.step cal op = some s') (keeps : ¬ op.Rebases s.db jobId) :
    OnGrid jobId a interval s'.db := by
  obtain ⟨-, -, applied | same⟩ := CronSystem.step_cases stepped
  · exact grid.apply exact keeps applied
  · rw [same]
    exact grid

theorem isLeast_grid {t : Time} {k : ℤ} (ahead : now < t) (near : t - interval.seconds ≤ now)
    (onGrid : t = a + k * interval.seconds) :
    IsLeast {t | now < t ∧ ∃ k : ℤ, t = a + k * interval.seconds} t := by
  refine ⟨⟨ahead, k, onGrid⟩, ?_⟩
  rintro other ⟨otherAhead, l, rfl⟩
  have positive : (0 : Rat) < interval.seconds := by
    have := interval.lower
    exact_mod_cast (by omega : 0 < interval.seconds)
  have less : ((k - 1 : ℤ) : Rat) * interval.seconds < l * interval.seconds := by
    push_cast
    linarith
  have steps : k - 1 < l := by
    exact_mod_cast lt_of_mul_lt_mul_right less positive.le
  have whole : (k : Rat) ≤ l := by
    exact_mod_cast (by omega : k ≤ l)
  have := mul_le_mul_of_nonneg_right whole positive.le
  linarith

end Results

/-- A calendar for concrete runs: the one-shot time is the start of 2030, and cron jobs run every
minute. -/
def plainCalendar : Calendar where
  timestamp := fun _ => 1893456000
  nextMatch := fun _ _ now => some (now + 60)
  nextMatch_gt := fun _ _ now t next => by
    cases next
    linarith
  round := id

/-- An interval of a minute. -/
def minute : Interval := ⟨60, by decide, by decide⟩

/-- The whole number nearest to `q`; of two the even one. -/
def roundHalfEven (q : Rat) : Int :=
  let below := ⌊q⌋
  if q - below < 1 / 2 ∨ (q - below = 1 / 2 ∧ below % 2 = 0) then below else below + 1

/-- The double nearest to `q`, with 53 significant bits. -/
def toDouble (q : Rat) : Rat :=
  let unit : Rat := 2 ^ (Int.log 2 |q| - 52)
  roundHalfEven (q / unit) * unit

/-- The calendar with the arithmetic of the program. -/
def doubleCalendar : Calendar := { plainCalendar with round := toDouble }

end AgentPark.Cron
