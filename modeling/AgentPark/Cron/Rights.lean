import AgentPark.Cron.Materialize
import Mathlib.Logic.Function.Basic

/-!
# The rights of scheduled work

A job and each of its runs carry the role they are executed with.  `Authorship` tells who supplied
what they are made of: the name, the prompt and the schedule of each job, the prompt of each run.
No operation reads it.
-/

namespace AgentPark.Cron

open Lib

/-- Who supplied the current contents of a job. -/
structure Authors where
  name : AccessRole
  prompt : AccessRole
  schedule : AccessRole

/-- The least privileged of them. -/
def Authors.least (authors : Authors) : AccessRole :=
  mergedRole (mergedRole authors.name authors.prompt) authors.schedule

/-- An edit supplies the parts that it sets. -/
def Authors.edit (authors : Authors) (spec : UpdateJob) (role : AccessRole) : Authors where
  name := if spec.name.isSome then role else authors.name
  prompt := if spec.prompt.isSome then role else authors.prompt
  schedule := if spec.schedule.isSome then role else authors.schedule

/-- Who supplied the contents of the jobs and the prompts of the runs, by their ids. -/
structure Authorship where
  job : String → Authors
  run : String → AccessRole

/-- The authorship behind an operation that has turned `db` into `db'`. -/
def Authorship.after (authorship : Authorship) (db db' : CronDatabase) : CronOp → Authorship
  | .create _ _ role _ jobId =>
    if jobId ∈ db'.jobs.map Job.id then
      { authorship with job := Function.update authorship.job jobId ⟨role, role, role⟩ }
    else authorship
  | .update _ spec role _ =>
    let authors := (authorship.job spec.jobId).edit spec role
    { job := Function.update authorship.job spec.jobId authors
      run := fun runId =>
        if spec.cancels then authorship.run runId
        else if db.runs.any fun run => run.id = runId && run.jobId = spec.jobId &&
            run.status = .pending then authors.prompt
        else authorship.run runId }
  | .materializeDue _ _ =>
    { authorship with
      run := fun runId =>
        match findRow Run.id runId db'.runs with
        | some run =>
          if runId ∈ db.runs.map Run.id then authorship.run runId
          else (authorship.job run.jobId).prompt
        | none => authorship.run runId }
  | _ => authorship

/-- The identifier that an operation draws for a job. -/
def CronOp.draws : CronOp → Option String
  | create _ _ _ _ jobId => some jobId
  | _ => none

/-- The database, its authorship, and the identifiers drawn for jobs so far. -/
structure AuthoredSystem where
  db : CronDatabase := {}
  authorship : Authorship
  drawn : List String := []

/-- One operation, at any time.  Identifiers are never drawn twice. -/
def AuthoredSystem.step (cal : Calendar) (s : AuthoredSystem) (op : CronOp) :
    Option AuthoredSystem :=
  if op.draws.any (· ∈ s.drawn) then none
  else
    let drawn := op.draws.toList ++ s.drawn
    match op.apply cal s.db with
    | .ok db => some { db, authorship := s.authorship.after s.db db op, drawn }
    | .error _ => some { s with drawn }

/-! ### The invariant -/

/-- What a non-developer supplied has the role of a non-developer. -/
structure RightsInv (s : AuthoredSystem) : Prop where
  jobs : ∀ job ∈ s.db.jobs, (s.authorship.job job.id).least = .nondeveloper →
    job.accessRole = .nondeveloper
  runs : ∀ run ∈ s.db.runs, s.authorship.run run.id = .nondeveloper →
    run.accessRole = .nondeveloper
  drawn : ∀ job ∈ s.db.jobs, job.id ∈ s.drawn

theorem mergedRole_eq_nondeveloper {stored caller : AccessRole} :
    mergedRole stored caller = .nondeveloper ↔ stored = .nondeveloper ∨ caller = .nondeveloper := by
  unfold mergedRole
  split_ifs with either
  · exact ⟨fun _ => either, fun _ => rfl⟩
  · exact ⟨nofun, fun absurd => (either absurd).elim⟩

variable {authors : Authors}

theorem Authors.least_eq_nondeveloper :
    authors.least = .nondeveloper ↔
      (authors.name = .nondeveloper ∨ authors.prompt = .nondeveloper) ∨
        authors.schedule = .nondeveloper := by
  unfold Authors.least
  rw [mergedRole_eq_nondeveloper, mergedRole_eq_nondeveloper]

theorem Authors.least_edit {spec : UpdateJob} {role : AccessRole}
    (least : (authors.edit spec role).least = .nondeveloper) :
    authors.least = .nondeveloper ∨ role = .nondeveloper := by
  rw [Authors.least_eq_nondeveloper] at least ⊢
  unfold Authors.edit at least
  grind

theorem Authors.prompt_edit {spec : UpdateJob} {role : AccessRole}
    (supplied : (authors.edit spec role).prompt = .nondeveloper) :
    authors.least = .nondeveloper ∨ role = .nondeveloper := by
  have least : (authors.edit spec role).least = .nondeveloper := by
    rw [Authors.least_eq_nondeveloper]
    exact .inl (.inr supplied)
  exact Authors.least_edit least

/-! ### The operations -/

section Operations

variable {cal : Calendar} {s : AuthoredSystem} {db' : CronDatabase} {now : Time}

/-- The runs keep their roles. -/
def SameRoles (runs runs' : List Run) : Prop :=
  ∀ run ∈ runs', ∃ old ∈ runs, old.id = run.id ∧ old.accessRole = run.accessRole

variable {db : CronDatabase}

theorem sameRoles_updateRuns {p : Run → Bool} {f : Run → Run} (keeps : ∀ run, (f run).SameKeys run)
    (role : ∀ run, (f run).accessRole = run.accessRole) :
    SameRoles db.runs (db.updateRuns p f keeps).runs := by
  intro run mem
  rcases mem_updateWhere_cases mem with ⟨old, -⟩ | ⟨old, inRuns, -, rfl⟩
  · exact ⟨run, old, rfl, rfl⟩
  · exact ⟨old, inRuns, (keeps old).1.symm, (role old).symm⟩

theorem jobs_beginRun (db : CronDatabase) (runId nodeId : String) :
    (db.beginRun runId nodeId now).2.jobs = db.jobs := by
  unfold CronDatabase.beginRun
  split
  · rfl
  · rfl

theorem sameRoles_beginRun (db : CronDatabase) (runId nodeId : String) :
    SameRoles db.runs (db.beginRun runId nodeId now).2.runs := by
  unfold CronDatabase.beginRun
  split
  · exact fun run mem => ⟨run, mem, rfl, rfl⟩
  · exact sameRoles_updateRuns (Run.sameKeys_begin now) fun _ => rfl

theorem RightsInv.of_sameRoles (inv : RightsInv s) (jobs : db'.jobs ⊆ s.db.jobs)
    (runs : SameRoles s.db.runs db'.runs) (drawn : List String) :
    RightsInv { db := db', authorship := s.authorship, drawn := drawn ++ s.drawn } where
  jobs := fun job mem least => inv.jobs job (jobs mem) least
  runs := by
    intro run mem supplied
    obtain ⟨old, inRuns, sameId, sameRole⟩ := runs run mem
    rw [← sameRole]
    apply inv.runs old inRuns
    rw [sameId]
    exact supplied
  drawn := fun job mem => List.mem_append_right _ (inv.drawn job (jobs mem))

variable {nodeId jobId : String} {role : AccessRole} {job : Job}

theorem create_role {spec : CreateJob}
    (created : db.create cal nodeId spec role now jobId = .ok (job, db')) :
    db' = db ∨ job.id = jobId ∧ job.accessRole = role ∧ db.insertJob job = .ok db' := by
  rw [CronDatabase.create] at created
  split at created
  · split_ifs at created
    cases created
    exact .inl rfl
  · obtain ⟨deadline, -, created⟩ := bind_eq_ok.mp created
    obtain ⟨-, created⟩ := ite_error_eq_ok.mp created
    obtain ⟨after, inserted, same⟩ := bind_eq_ok.mp created
    cases same
    exact .inr ⟨rfl, rfl, inserted⟩

theorem insertJob_eq_ok (inserted : db.insertJob job = .ok db') :
    db'.jobs = db.jobs ++ [job] ∧ db'.runs = db.runs := by
  rw [CronDatabase.insertJob] at inserted
  split_ifs at inserted
  cases inserted
  exact ⟨rfl, rfl⟩

theorem RightsInv.create (inv : RightsInv s) {spec : CreateJob} (fresh : jobId ∉ s.drawn)
    (created : s.db.create cal nodeId spec role now jobId = .ok (job, db')) :
    RightsInv
      { db := db'
        authorship := s.authorship.after s.db db' (.create nodeId spec role now jobId)
        drawn := jobId :: s.drawn } := by
  have absent : jobId ∉ s.db.jobs.map Job.id := by
    intro known
    obtain ⟨old, inJobs, rfl⟩ := List.mem_map.mp known
    exact fresh (inv.drawn old inJobs)
  rcases create_role created with rfl | ⟨isNew, isRole, inserted⟩
  · rw [Authorship.after, if_neg absent]
    exact inv.of_sameRoles (List.Subset.refl _) (fun run mem => ⟨run, mem, rfl, rfl⟩) [jobId]
  · obtain ⟨jobs, runs⟩ := insertJob_eq_ok inserted
    have present : jobId ∈ db'.jobs.map Job.id := by
      rw [jobs, List.map_append, ← isNew]
      exact List.mem_append_right _ (List.mem_singleton_self _)
    rw [Authorship.after, if_pos present]
    refine ⟨fun other mem least => ?_, ?_, fun other mem => ?_⟩
    · rw [jobs] at mem
      rcases List.mem_append.mp mem with old | new
      · have differs : other.id ≠ jobId := fun same => absent (same ▸ List.mem_map_of_mem old)
        dsimp only at least
        rw [Function.update_of_ne differs] at least
        exact inv.jobs other old least
      · rw [List.mem_singleton.mp new] at least ⊢
        dsimp only at least
        rw [isNew, Function.update_self, Authors.least_eq_nondeveloper, or_self, or_self] at least
        exact isRole.trans least
    · dsimp only
      rw [runs]
      exact inv.runs
    · rw [jobs] at mem
      rcases List.mem_append.mp mem with old | new
      · exact List.mem_cons_of_mem _ (inv.drawn other old)
      · rw [List.mem_singleton.mp new, isNew]
        exact List.mem_cons_self

theorem RightsInv.update (inv : RightsInv s) {spec : UpdateJob}
    (updated : s.db.update cal nodeId spec role now = .ok (job, db')) :
    RightsInv
      { db := db'
        authorship := s.authorship.after s.db db' (.update nodeId spec role now)
        drawn := s.drawn } := by
  obtain ⟨row, deadline, inRow, isRow, -, rfl, replaced⟩ := update_eq_ok updated
  obtain ⟨runs, jobs⟩ := replaceJob_eq_ok replaced
  rw [jobs_edited] at jobs
  -- what the new contents are made of
  have merged (supplied : (s.authorship.job spec.jobId).least = .nondeveloper ∨
      role = .nondeveloper) : mergedRole row.accessRole role = .nondeveloper := by
    apply mergedRole_eq_nondeveloper.mpr
    rcases supplied with before | now
    · rw [← isRow] at before
      exact .inl (inv.jobs row inRow before)
    · exact .inr now
  refine ⟨fun other mem least => ?_, fun run mem supplied => ?_, fun other mem => ?_⟩
  · dsimp only [Authorship.after] at mem least
    rw [jobs] at mem
    rcases mem_updateWhere_cases mem with ⟨old, differs⟩ | ⟨old, -, -, rfl⟩
    · have notRow : other.id ≠ spec.jobId := by
        rw [← isRow]
        exact of_decide_eq_false differs
      rw [Function.update_of_ne notRow] at least
      exact inv.jobs other old least
    · have isJob : (editedJob row spec role deadline now).id = spec.jobId := isRow
      rw [isJob, Function.update_self] at least
      exact merged (Authors.least_edit least)
  · dsimp only [Authorship.after] at mem supplied
    rw [runs, CronDatabase.edited] at mem
    by_cases cancels : spec.cancels = true
    · rw [if_pos cancels] at mem supplied
      obtain ⟨old, inRuns, sameId, sameRole⟩ :=
        sameRoles_updateRuns (Run.sameKeys_cancel now) (fun _ => rfl) run mem
      rw [← sameRole]
      rw [← sameId] at supplied
      exact inv.runs old inRuns supplied
    · rw [if_neg cancels] at mem supplied
      rcases mem_updateWhere_cases mem with ⟨old, other⟩ | ⟨old, inRuns, here, rfl⟩
      · have notEdited : (s.db.runs.any fun entry => entry.id = run.id &&
            entry.jobId = spec.jobId && entry.status = .pending) = false := by
          rw [List.any_eq_false]
          intro entry inRuns isRun
          simp only [Bool.and_eq_true, decide_eq_true_eq] at isRun
          have same := List.inj_on_of_nodup_map s.db.runIds inRuns old isRun.1.1
          rw [← same] at other
          simp only [editedJob, isRow, isRun.1.2, isRun.2, decide_true, Bool.and_self,
            Bool.true_eq_false] at other
        rw [notEdited, if_neg Bool.false_ne_true] at supplied
        exact inv.runs run old supplied
      · split_ifs at supplied with isEdited
        · exact merged (Authors.prompt_edit supplied)
        · simp only [editedJob, isRow, Bool.and_eq_true, decide_eq_true_eq] at here
          exfalso
          apply isEdited
          apply List.any_eq_true.mpr
          refine ⟨old, inRuns, ?_⟩
          simp only [Run.edit, here, decide_true, Bool.and_self]
  · dsimp only at mem ⊢
    rw [jobs] at mem
    rcases mem_updateWhere_cases mem with ⟨old, -⟩ | ⟨old, inJobs, same, rfl⟩
    · exact inv.drawn other old
    · exact inv.drawn row inRow

theorem materializeDue_roles {runIds : Nat → String}
    (done : db.materializeDue cal now runIds = .ok db') :
    ∀ job ∈ db'.jobs, ∃ old ∈ db.jobs, old.id = job.id ∧ old.accessRole = job.accessRole := by
  intro job mem
  rcases materializeDue_jobs done mem with ⟨old, -⟩ | ⟨old, inJobs, same, advanced⟩
  · exact ⟨job, old, rfl, rfl⟩
  · obtain ⟨_, _, -, -, -, rfl, -⟩ := advanced
    exact ⟨old, inJobs, same, rfl⟩

theorem RightsInv.materializeDue (inv : RightsInv s) {runIds : Nat → String}
    (done : s.db.materializeDue cal now runIds = .ok db') :
    RightsInv
      { db := db'
        authorship := s.authorship.after s.db db' (.materializeDue now runIds)
        drawn := s.drawn } := by
  have sources := materializeDue_roles done
  refine ⟨fun job mem least => ?_, fun run mem supplied => ?_, fun job mem => ?_⟩
  · obtain ⟨old, inJobs, sameId, sameRole⟩ := sources job mem
    rw [← sameRole]
    apply inv.jobs old inJobs
    rw [sameId]
    exact least
  · dsimp only [Authorship.after] at mem supplied
    rw [findRow_of_mem db'.runIds mem] at supplied
    dsimp only at supplied
    rcases mem_materializeRows done mem with old | ⟨new, entry, inRows, runId, rfl⟩
    · rw [if_pos (List.mem_map_of_mem old)] at supplied
      exact inv.runs run old supplied
    · rw [if_neg new] at supplied
      have due := (due_due s.db now).1 entry inRows
      apply inv.jobs entry.1 due.mem
      exact Authors.least_eq_nondeveloper.mpr (.inl (.inr supplied))
  · obtain ⟨old, inJobs, sameId, -⟩ := sources job mem
    rw [← sameId]
    exact inv.drawn old inJobs

variable {op : CronOp}

/-- No operation gives the role of a developer to what a non-developer supplied. -/
theorem RightsInv.step {s' : AuthoredSystem} (inv : RightsInv s) (stepped : s.step cal op = some s') :
    RightsInv s' := by
  unfold AuthoredSystem.step at stepped
  split_ifs at stepped with redrawn
  cases applied : op.apply cal s.db with
  | error e =>
    rw [applied] at stepped
    cases stepped
    exact ⟨inv.jobs, inv.runs, fun job mem => List.mem_append_right _ (inv.drawn job mem)⟩
  | ok db' =>
    rw [applied] at stepped
    cases stepped
    cases op with
    | create nodeId spec role now jobId =>
      obtain ⟨⟨job, after⟩, created, rfl⟩ := map_eq_ok.mp applied
      exact inv.create (by simpa [CronOp.draws] using redrawn) created
    | update nodeId spec role now =>
      obtain ⟨⟨job, after⟩, updated, rfl⟩ := map_eq_ok.mp applied
      exact inv.update updated
    | delete nodeId jobId revision now =>
      rw [delete_eq_ok applied]
      refine inv.of_sameRoles ?_ ?_ []
      · exact fun job mem => List.mem_of_mem_filter mem
      · exact sameRoles_updateRuns (Run.sameKeys_cancel now) fun _ => rfl
    | materializeDue now runIds => exact inv.materializeDue applied
    | recoverInterrupted =>
      cases applied
      have kept : s.db.recoverInterrupted.jobs ⊆ s.db.jobs := List.Subset.refl _
      exact inv.of_sameRoles kept (sameRoles_updateRuns Run.sameKeys_interrupt fun _ => rfl) []
    | beginRun runId nodeId now =>
      cases applied
      refine inv.of_sameRoles ?_ (sameRoles_beginRun s.db runId nodeId) []
      rw [jobs_beginRun]
      exact List.Subset.refl _
    | finishRun runId now error =>
      cases applied
      have kept : (s.db.finishRun runId now error).jobs ⊆ s.db.jobs := List.Subset.refl _
      exact inv.of_sameRoles kept
        (sameRoles_updateRuns (Run.sameKeys_finish now error) fun _ => rfl) []

theorem job_sources (applied : op.apply cal db = .ok db') :
    ∀ job ∈ db'.jobs, (∃ old ∈ db.jobs, old.id = job.id ∧
      (old.accessRole = .nondeveloper → job.accessRole = .nondeveloper)) ∨
        op.draws = some job.id := by
  intro job mem
  have stays (old : job ∈ db.jobs) : ∃ old ∈ db.jobs, old.id = job.id ∧
      (old.accessRole = .nondeveloper → job.accessRole = .nondeveloper) :=
    ⟨job, old, rfl, fun role => role⟩
  cases op with
  | create nodeId spec role now jobId =>
    obtain ⟨⟨new, after⟩, created, rfl⟩ := map_eq_ok.mp applied
    rcases create_role created with rfl | ⟨isNew, -, inserted⟩
    · exact .inl (stays mem)
    · dsimp only at mem
      rw [(insertJob_eq_ok inserted).1] at mem
      rcases List.mem_append.mp mem with old | last
      · exact .inl (stays old)
      · rw [List.mem_singleton.mp last, isNew]
        exact .inr rfl
  | update nodeId spec role now =>
    obtain ⟨⟨new, after⟩, updated, rfl⟩ := map_eq_ok.mp applied
    obtain ⟨row, deadline, inRow, -, -, rfl, replaced⟩ := update_eq_ok updated
    dsimp only at mem
    rw [(replaceJob_eq_ok replaced).2, jobs_edited] at mem
    rcases mem_updateWhere_cases mem with ⟨old, -⟩ | ⟨old, -, -, rfl⟩
    · exact .inl (stays old)
    · exact .inl ⟨row, inRow, rfl, fun before => mergedRole_eq_nondeveloper.mpr (.inl before)⟩
  | delete nodeId jobId revision now =>
    rw [delete_eq_ok applied] at mem
    exact .inl (stays (List.mem_of_mem_filter mem))
  | materializeDue now runIds =>
    obtain ⟨old, inJobs, sameId, sameRole⟩ := materializeDue_roles applied job mem
    exact .inl ⟨old, inJobs, sameId, fun before => sameRole.symm.trans before⟩
  | beginRun runId nodeId now =>
    cases applied
    rw [jobs_beginRun] at mem
    exact .inl (stays mem)
  | recoverInterrupted | finishRun =>
    cases applied
    exact .inl (stays mem)

/-- The job of an identifier that was drawn has no rights of a developer, if it is there. -/
def Demoted (jobId : String) (s : AuthoredSystem) : Prop :=
  jobId ∈ s.drawn ∧ ∀ job ∈ s.db.jobs, job.id = jobId → job.accessRole = .nondeveloper

/-- No operation gives the rights of a developer back. -/
theorem Demoted.step {s' : AuthoredSystem} (demoted : Demoted jobId s)
    (stepped : s.step cal op = some s') : Demoted jobId s' := by
  obtain ⟨drawn, role⟩ := demoted
  unfold AuthoredSystem.step at stepped
  split_ifs at stepped with redrawn
  cases applied : op.apply cal s.db with
  | error e =>
    rw [applied] at stepped
    cases stepped
    exact ⟨List.mem_append_right _ drawn, role⟩
  | ok db' =>
    rw [applied] at stepped
    cases stepped
    refine ⟨List.mem_append_right _ drawn, fun job mem isJob => ?_⟩
    rcases job_sources applied job mem with ⟨old, inJobs, sameId, stays⟩ | draws
    · exact stays (role old inJobs (sameId.trans isJob))
    · rw [draws, Option.any_some, decide_eq_true_eq, isJob] at redrawn
      exact absurd drawn redrawn

end Operations

/-- In every run, what a non-developer supplied a job with gives the job the role of a non-developer,
a run with a prompt of a non-developer starts with that role, and a job never regains the rights of a
developer. -/
theorem scheduled_keeps_rights {cal : Calendar} {authorship : Authorship} {ops later : List CronOp}
    {s t : AuthoredSystem} (ran : run (AuthoredSystem.step cal) { authorship } ops = some s)
    (goes : run (AuthoredSystem.step cal) s later = some t) :
    (∀ job ∈ t.db.jobs, (t.authorship.job job.id).least = .nondeveloper →
      job.accessRole = .nondeveloper) ∧
    (∀ runId nodeId now begun, (t.db.beginRun runId nodeId now).1 = some begun →
      t.authorship.run begun.id = .nondeveloper → begun.accessRole = .nondeveloper) ∧
    ∀ job ∈ s.db.jobs, job.accessRole = .nondeveloper → ∀ after ∈ t.db.jobs, after.id = job.id →
      after.accessRole = .nondeveloper := by
  have keep (s : AuthoredSystem) (op : CronOp) (s' : AuthoredSystem) (inv : RightsInv s)
      (stepped : s.step cal op = some s') : RightsInv s' := inv.step stepped
  have start : RightsInv { authorship } :=
    ⟨fun _ mem => (nomatch mem), fun _ mem => (nomatch mem), fun _ mem => (nomatch mem)⟩
  have invBefore : RightsInv s := run_invariant keep start ran
  have inv : RightsInv t := run_invariant keep invBefore goes
  refine ⟨inv.jobs, ?_, ?_⟩
  · intro runId nodeId now begun isBegun supplied
    unfold CronDatabase.beginRun at isBegun
    split at isBegun
    · cases isBegun
    · rename_i found isFound
      cases isBegun
      exact inv.runs begun (List.mem_of_find?_eq_some isFound) supplied
  · intro job mem role after inAfter sameId
    have demoted : Demoted job.id s := by
      refine ⟨invBefore.drawn job mem, fun other inJobs same => ?_⟩
      rw [List.inj_on_of_nodup_map s.db.jobIds inJobs mem same]
      exact role
    have still : Demoted job.id t :=
      run_invariant (fun _ _ _ here stepped => Demoted.step here stepped) demoted goes
    exact still.2 after inAfter sameId

/-- A developer's job, whose prompt a non-developer changes. -/
def editedByOther : List CronOp :=
  [.create "agent" ⟨"check", "look", .every minute⟩ .developer 0 "j1",
    .update "agent" { jobId := "j1", expectedRevision := 1, prompt := some "write" } .nondeveloper 1]

/-- The authorship of an empty database. -/
def noAuthors : Authorship := ⟨fun _ => ⟨.developer, .developer, .developer⟩, fun _ => .developer⟩

/-- Its run starts with the role of a non-developer. -/
theorem scheduled_keeps_rights_edited :
    ∃ s t begun, run (AuthoredSystem.step plainCalendar) { authorship := noAuthors } editedByOther =
        some s ∧
      run (AuthoredSystem.step plainCalendar) s [.materializeDue 61 fun _ => "r1"] = some t ∧
      (t.db.beginRun "r1" "agent" 62).1 = some begun ∧ begun.prompt = "write" ∧
      begun.accessRole = .nondeveloper := by
  have traced : ((run (AuthoredSystem.step plainCalendar) { authorship := noAuthors }
      editedByOther).bind fun s =>
        (run (AuthoredSystem.step plainCalendar) s [.materializeDue 61 fun _ => "r1"]).map fun t =>
          (t.db.beginRun "r1" "agent" 62).1.map fun begun =>
            (begun.prompt, t.authorship.run begun.id)) = some (some ("write", .nondeveloper)) := by
    decide +kernel
  obtain ⟨s, ran, traced⟩ := Option.bind_eq_some_iff.mp traced
  obtain ⟨t, goes, traced⟩ := Option.map_eq_some_iff.mp traced
  obtain ⟨begun, isBegun, facts⟩ := Option.map_eq_some_iff.mp traced
  obtain ⟨prompt, supplied⟩ := Prod.mk.inj facts
  exact ⟨s, t, begun, ran, goes, isBegun, prompt,
    (scheduled_keeps_rights ran goes).2.1 "r1" "agent" 62 begun isBegun supplied⟩

/-! ### Nodes among themselves -/

section Nodes

variable {cal : Calendar} {s : AuthoredSystem} {db db' : CronDatabase} {now : Time} {op : CronOp}

/-- The node that an operation is called for. -/
def CronOp.caller : CronOp → Option String
  | create nodeId _ _ _ _ | update nodeId _ _ _ | delete nodeId _ _ _ | beginRun _ nodeId _ => some nodeId
  | _ => none

/-- A run belongs to the node of its job, and the identifiers of their jobs have been drawn. -/
structure OwnedInv (s : AuthoredSystem) : Prop where
  runs : ∀ run ∈ s.db.runs, ∀ job ∈ s.db.jobs, run.jobId = job.id → run.nodeId = job.nodeId
  jobs : ∀ job ∈ s.db.jobs, job.id ∈ s.drawn
  drawn : ∀ run ∈ s.db.runs, run.jobId ∈ s.drawn

/-- Where the jobs and the runs behind an operation come from. -/
structure Sources (db db' : CronDatabase) (drawn : Option String) : Prop where
  jobs : ∀ job ∈ db'.jobs, (∃ old ∈ db.jobs, old.id = job.id ∧ old.nodeId = job.nodeId) ∨ drawn = some job.id
  runs : ∀ run ∈ db'.runs, (∃ old ∈ db.runs, old.jobId = run.jobId ∧ old.nodeId = run.nodeId) ∨
    ∃ job ∈ db.jobs, job.id = run.jobId ∧ job.nodeId = run.nodeId

theorem OwnedInv.of_sources (inv : OwnedInv s) {authorship : Authorship} {drawn : Option String}
    (fresh : ∀ id, drawn = some id → id ∉ s.drawn) (sources : Sources s.db db' drawn) :
    OwnedInv { db := db', authorship, drawn := drawn.toList ++ s.drawn } := by
  refine ⟨fun run inRuns job inJobs same => ?_, fun job inJobs => ?_, fun run inRuns => ?_⟩
  · rcases sources.jobs job inJobs with ⟨old, inOld, sameId, sameNode⟩ | isNew
    · rw [← sameNode]
      rcases sources.runs run inRuns with ⟨before, inBefore, ofJob, node⟩ | ⟨source, inSource, ofJob, node⟩
      · rw [← node]
        exact inv.runs before inBefore old inOld (by rw [ofJob, same, sameId])
      · have isSource : source = old :=
          List.inj_on_of_nodup_map s.db.jobIds inSource inOld (by rw [ofJob, same, sameId])
        rw [← node, isSource]
    · exfalso
      apply fresh _ isNew
      rw [← same]
      rcases sources.runs run inRuns with ⟨before, inBefore, ofJob, -⟩ | ⟨source, inSource, ofJob, -⟩
      · rw [← ofJob]
        exact inv.drawn before inBefore
      · rw [← ofJob]
        exact inv.jobs source inSource
  · rcases sources.jobs job inJobs with ⟨old, inOld, sameId, -⟩ | isNew
    · rw [← sameId]
      exact List.mem_append_right _ (inv.jobs old inOld)
    · rw [isNew]
      exact List.mem_cons_self
  · rcases sources.runs run inRuns with ⟨before, inBefore, ofJob, -⟩ | ⟨source, inSource, ofJob, -⟩
    · rw [← ofJob]
      exact List.mem_append_right _ (inv.drawn before inBefore)
    · rw [← ofJob]
      exact List.mem_append_right _ (inv.jobs source inSource)

theorem jobs_kept (job : Job) (mem : job ∈ db.jobs) :
    (∃ old ∈ db.jobs, old.id = job.id ∧ old.nodeId = job.nodeId) ∨ op.draws = some job.id :=
  .inl ⟨job, mem, rfl, rfl⟩

theorem runs_updateRuns {p : Run → Bool} {f : Run → Run} (keeps : ∀ run, (f run).SameKeys run)
    (node : ∀ run, (f run).nodeId = run.nodeId) (run : Run) (mem : run ∈ (db.updateRuns p f keeps).runs) :
    (∃ old ∈ db.runs, old.jobId = run.jobId ∧ old.nodeId = run.nodeId) ∨
      ∃ job ∈ db.jobs, job.id = run.jobId ∧ job.nodeId = run.nodeId := by
  rcases mem_updateWhere_cases mem with ⟨old, -⟩ | ⟨old, inRuns, -, rfl⟩
  · exact .inl ⟨run, old, rfl, rfl⟩
  · exact .inl ⟨old, inRuns, (keeps old).jobId.1.symm, (node old).symm⟩

theorem sources_updateRuns {p : Run → Bool} {f : Run → Run} (keeps : ∀ run, (f run).SameKeys run)
    (node : ∀ run, (f run).nodeId = run.nodeId) : Sources db (db.updateRuns p f keeps) op.draws :=
  ⟨jobs_kept, runs_updateRuns keeps node⟩

theorem runs_kept (run : Run) (mem : run ∈ db.runs) :
    (∃ old ∈ db.runs, old.jobId = run.jobId ∧ old.nodeId = run.nodeId) ∨
      ∃ job ∈ db.jobs, job.id = run.jobId ∧ job.nodeId = run.nodeId := .inl ⟨run, mem, rfl, rfl⟩

variable {nodeId : String}

theorem owned_caller {spec : UpdateJob} {role : AccessRole} {job : Job}
    (updated : db.update cal nodeId spec role now = .ok (job, db')) {row : Job} (inRow : row ∈ db.jobs)
    (isRow : row.id = spec.jobId) : row.nodeId = nodeId := by
  obtain ⟨-, updated⟩ := ite_error_eq_ok.mp updated
  obtain ⟨own, owned, -⟩ := bind_eq_ok.mp updated
  obtain ⟨inOwn, isOwn, node⟩ := owned_eq_ok owned
  rw [← node, List.inj_on_of_nodup_map db.jobIds inRow inOwn (isRow.trans isOwn.symm)]

theorem create_node {spec : CreateJob} {role : AccessRole} {jobId : String} {job : Job}
    (created : db.create cal nodeId spec role now jobId = .ok (job, db')) :
    db' = db ∨ job.id = jobId ∧ job.nodeId = nodeId ∧ db'.jobs = db.jobs ++ [job] ∧ db'.runs = db.runs := by
  rw [CronDatabase.create] at created
  split at created
  · split_ifs at created
    cases created
    exact .inl rfl
  · obtain ⟨deadline, -, created⟩ := bind_eq_ok.mp created
    obtain ⟨-, created⟩ := ite_error_eq_ok.mp created
    obtain ⟨after, inserted, same⟩ := bind_eq_ok.mp created
    cases same
    exact .inr ⟨rfl, rfl, insertJob_eq_ok inserted⟩

theorem sources_apply (applied : op.apply cal db = .ok db') : Sources db db' op.draws := by
  cases op with
  | create nodeId spec role now jobId =>
    obtain ⟨⟨new, after⟩, created, rfl⟩ := map_eq_ok.mp applied
    rcases create_node created with rfl | ⟨isNew, -, jobs, runs⟩
    · exact ⟨jobs_kept, runs_kept⟩
    · refine ⟨fun job mem => ?_, fun run mem => runs_kept run (runs ▸ mem)⟩
      dsimp only at mem
      rw [jobs] at mem
      rcases List.mem_append.mp mem with old | last
      · exact jobs_kept job old
      · rw [List.mem_singleton.mp last, isNew]
        exact .inr rfl
  | update nodeId spec role now =>
    obtain ⟨⟨new, after⟩, updated, rfl⟩ := map_eq_ok.mp applied
    obtain ⟨row, deadline, inRow, -, -, rfl, replaced⟩ := update_eq_ok updated
    obtain ⟨runs, jobs⟩ := replaceJob_eq_ok replaced
    refine ⟨fun job mem => ?_, fun run mem => ?_⟩
    · dsimp only at mem
      rw [jobs, jobs_edited] at mem
      rcases mem_updateWhere_cases mem with ⟨old, -⟩ | ⟨old, -, -, rfl⟩
      · exact jobs_kept job old
      · exact .inl ⟨row, inRow, rfl, rfl⟩
    · dsimp only at mem
      rw [runs, CronDatabase.edited] at mem
      split_ifs at mem
      · exact runs_updateRuns (Run.sameKeys_cancel now) (fun _ => rfl) run mem
      · exact runs_updateRuns (Run.sameKeys_edit _) (fun _ => rfl) run mem
  | delete nodeId jobId revision now =>
    rw [delete_eq_ok applied]
    exact ⟨fun job mem => jobs_kept job (List.mem_of_mem_filter mem),
      runs_updateRuns (Run.sameKeys_cancel now) fun _ => rfl⟩
  | materializeDue now runIds =>
    refine ⟨fun job mem => ?_, fun run mem => ?_⟩
    · rcases materializeDue_jobs applied mem with ⟨old, -⟩ | ⟨old, inJobs, same, advanced⟩
      · exact jobs_kept job old
      · obtain ⟨_, _, -, -, -, rfl, -⟩ := advanced
        exact .inl ⟨old, inJobs, rfl, rfl⟩
    · rcases mem_materializeRows applied mem with old | ⟨-, entry, inRows, runId, rfl⟩
      · exact runs_kept run old
      · exact .inr ⟨entry.1, ((due_due db now).1 entry inRows).mem, rfl, rfl⟩
  | recoverInterrupted =>
    cases applied
    exact sources_updateRuns Run.sameKeys_interrupt fun _ => rfl
  | beginRun runId nodeId now =>
    cases applied
    unfold CronDatabase.beginRun
    split
    · exact ⟨jobs_kept, runs_kept⟩
    · exact sources_updateRuns (Run.sameKeys_begin now) fun _ => rfl
  | finishRun runId now error =>
    cases applied
    exact sources_updateRuns (Run.sameKeys_finish now error) fun _ => rfl

/-- One operation keeps each run with the node of its job. -/
theorem OwnedInv.step {s' : AuthoredSystem} (inv : OwnedInv s) (stepped : s.step cal op = some s') :
    OwnedInv s' := by
  unfold AuthoredSystem.step at stepped
  split_ifs at stepped with redrawn
  have fresh : ∀ id, op.draws = some id → id ∉ s.drawn := by
    intro id draws
    rw [draws, Option.any_some, decide_eq_true_eq] at redrawn
    exact redrawn
  cases applied : op.apply cal s.db with
  | error e =>
    rw [applied] at stepped
    cases stepped
    exact inv.of_sources fresh ⟨jobs_kept, runs_kept⟩
  | ok db' =>
    rw [applied] at stepped
    cases stepped
    exact inv.of_sources fresh (sources_apply applied)

/-- The rows that are not of the node are as before. -/
def Spares (nodeId : String) (db db' : CronDatabase) : Prop :=
  db'.jobs.filter (fun job => job.nodeId ≠ nodeId) = db.jobs.filter (fun job => job.nodeId ≠ nodeId) ∧
    db'.runs.filter (fun run => run.nodeId ≠ nodeId) = db.runs.filter fun run => run.nodeId ≠ nodeId

theorem filter_updateWhere {ρ : Type} {p q : ρ → Bool} {f : ρ → ρ} {rows : List ρ}
    (own : ∀ row ∈ rows, p row = true → q row = false ∧ q (f row) = false) :
    (updateWhere p f rows).filter q = rows.filter q := by
  induction rows with
  | nil => rfl
  | cons row rows ih =>
    have later := ih fun other mem => own other (List.mem_cons_of_mem _ mem)
    rw [updateWhere, List.map_cons, ← updateWhere, List.filter_cons, List.filter_cons, later]
    by_cases here : p row = true
    · obtain ⟨before, after⟩ := own row List.mem_cons_self here
      rw [if_pos here, before, after]
      rfl
    · rw [if_neg here]

theorem spares_runs {p : Run → Bool} {f : Run → Run} (keeps : ∀ run, (f run).SameKeys run)
    (node : ∀ run, (f run).nodeId = run.nodeId) (own : ∀ run ∈ db.runs, p run = true → run.nodeId = nodeId) :
    (db.updateRuns p f keeps).runs.filter (fun run => run.nodeId ≠ nodeId) =
      db.runs.filter fun run => run.nodeId ≠ nodeId := by
  apply filter_updateWhere
  intro run mem here
  rw [node run, own run mem here]
  simp

theorem OwnedInv.spares (inv : OwnedInv s) (applied : op.apply cal s.db = .ok db')
    (isCaller : op.caller = some nodeId) : Spares nodeId s.db db' := by
  have runsOf {row : Job} (inRow : row ∈ s.db.jobs) (node : row.nodeId = nodeId) (status : RunStatus) :
      ∀ run ∈ s.db.runs, (run.jobId = row.id && run.status = status : Bool) = true → run.nodeId = nodeId := by
    intro run mem here
    rw [Bool.and_eq_true, decide_eq_true_eq] at here
    exact (inv.runs run mem row inRow here.1).trans node
  cases op with
  | create caller spec role now jobId =>
    cases isCaller
    obtain ⟨⟨new, after⟩, created, rfl⟩ := map_eq_ok.mp applied
    rcases create_node created with rfl | ⟨-, node, jobs, runs⟩
    · exact ⟨rfl, rfl⟩
    · refine ⟨?_, congrArg _ runs⟩
      dsimp only
      rw [jobs, List.filter_append, List.filter_cons_of_neg (by simp [node]), List.filter_nil, List.append_nil]
  | update caller spec role now =>
    cases isCaller
    obtain ⟨⟨new, after⟩, updated, rfl⟩ := map_eq_ok.mp applied
    obtain ⟨row, deadline, inRow, isRow, -, rfl, replaced⟩ := update_eq_ok updated
    have node := owned_caller updated inRow isRow
    obtain ⟨runs, jobs⟩ := replaceJob_eq_ok replaced
    refine ⟨?_, ?_⟩
    · dsimp only
      rw [jobs, jobs_edited]
      apply filter_updateWhere
      intro job mem same
      have isSame : job = row := List.inj_on_of_nodup_map s.db.jobIds mem inRow (of_decide_eq_true same)
      have edited : (editedJob row spec role deadline now).nodeId = nodeId := node
      rw [isSame, node, edited]
      simp
    · dsimp only
      rw [runs, CronDatabase.edited]
      split_ifs
      · exact spares_runs (Run.sameKeys_cancel now) (fun _ => rfl) (runsOf inRow node .pending)
      · exact spares_runs (Run.sameKeys_edit _) (fun _ => rfl) (runsOf inRow node .pending)
  | delete caller jobId revision now =>
    cases isCaller
    obtain ⟨row, owned, -⟩ := bind_eq_ok.mp applied
    obtain ⟨inRow, rfl, node⟩ := owned_eq_ok owned
    rw [delete_eq_ok applied]
    refine ⟨?_, spares_runs (Run.sameKeys_cancel now) (fun _ => rfl) (runsOf inRow node .pending)⟩
    change (s.db.jobs.filter fun job => job.id ≠ row.id).filter _ = _
    rw [List.filter_filter]
    apply List.filter_congr
    intro job mem
    by_cases same : job.id = row.id
    · rw [List.inj_on_of_nodup_map s.db.jobIds mem inRow same, node]
      simp
    · simp [same]
  | beginRun runId caller now =>
    cases isCaller
    cases applied
    unfold CronDatabase.beginRun
    split
    · exact ⟨rfl, rfl⟩
    · rename_i found isFound
      have facts := List.find?_some isFound
      rw [decide_eq_true_eq] at facts
      refine ⟨rfl, spares_runs (Run.sameKeys_begin now) (fun _ => rfl) fun run mem here => ?_⟩
      have same : run = found := List.inj_on_of_nodup_map s.db.runIds mem (List.mem_of_find?_eq_some isFound)
        ((of_decide_eq_true here).trans facts.1.symm)
      rw [same]
      exact facts.2.1
  | materializeDue | recoverInterrupted | finishRun => cases isCaller

end Nodes

/-- **A node acts on its own schedules only.**  In every run, an operation that is called for a node leaves all jobs
and all runs of the other nodes as they are. -/
theorem nodes_isolated {cal : Calendar} {authorship : Authorship} {ops : List CronOp} :
    Along (AuthoredSystem.step cal)
      (fun s op t => ∀ nodeId, op.caller = some nodeId → Spares nodeId s.db t.db) { authorship } ops := by
  have start : OwnedInv { authorship } :=
    ⟨List.forall_mem_nil _, List.forall_mem_nil _, List.forall_mem_nil _⟩
  refine along_of_invariant (I := OwnedInv) (C := fun _ _ _ => True) ?_ start (along_of_forall_mem fun _ _ => trivial)
  intro s op t inv stepped _
  refine ⟨fun nodeId isCaller => ?_, inv.step stepped⟩
  unfold AuthoredSystem.step at stepped
  split_ifs at stepped
  cases applied : op.apply cal s.db with
  | error e =>
    rw [applied] at stepped
    cases stepped
    exact ⟨rfl, rfl⟩
  | ok db' =>
    rw [applied] at stepped
    cases stepped
    exact inv.spares applied isCaller

end AgentPark.Cron
