import AgentPark.Lib.Execution
import AgentPark.Lib.PyText
import Mathlib.Data.List.Nodup
import Mathlib.Logic.Function.Basic

/-!
# Tasks of peers

`WorkspaceExecutor.dispatch` executes, awaits and cancels the tasks other peers send.  It runs on an
event loop: a request goes on until it awaits an execution, and between the steps of one request
those of others, and of the executions, take place.
-/

namespace AgentPark.Peers

open Lib

/-- `(peer, request.task_id)` -/
abbrev Key : Type := String × String

/-- `RemoteRequest.action` -/
inductive RequestAction where
  | execute
  | wait
  | cancel
deriving DecidableEq

/-- `RemoteRequest`, with what `dispatch` reads of it. -/
structure RemoteRequest where
  action : RequestAction
  taskId : String
  toolName : String := ""
  workingPath : String := ""
deriving DecidableEq

/-- `request.task_payload()` and `RemoteTask.from_poll_response` take the request: it names a tool
and a path. -/
def RemoteRequest.isTask (request : RemoteRequest) : Bool :=
  request.toolName ≠ "" && request.workingPath ≠ "" && pyStrip request.taskId ≠ "" &&
    pyStrip request.toolName ≠ "" && pyStrip request.workingPath ≠ ""

/-- The task that runs an execution, with its cancel event. -/
structure Execution (ρ : Type) where
  key : Key
  /-- The event is set. -/
  cancelled : Bool
  /-- `operations.execute` has been called. -/
  began : Bool := false
  outcome : Option ρ := none
deriving DecidableEq

/-- What a request comes to.  A final answer has what `operations.execute` returned or raised. -/
inductive Answer (ρ : Type) where
  | completed
  | cancelRequested
  | running
  | final (outcome : ρ)
  | refused
deriving DecidableEq

/-- `WorkspaceExecutor`.  Its dictionaries refer to the executions by their numbers.  `waiting` are
the requests that await an execution.  `answers` and `calls` only watch: all that was answered, and
all calls of `operations.execute`, with the event as it was then. -/
structure Executor (ρ : Type) where
  active : Key → Option Nat
  cancelled : List Key
  finished : Key → Bool
  executions : Key → Option Nat
  runs : List (Execution ρ)
  waiting : Nat → Option (Key × Nat)
  answers : List (Key × Answer ρ)
  calls : List (Key × Bool)

variable {ρ : Type}

/-- An executor without tasks. -/
def Executor.empty : Executor ρ where
  active _ := none
  cancelled := []
  finished _ := false
  executions _ := none
  runs := []
  waiting _ := none
  answers := []
  calls := []

/-- `event.set()` -/
def Execution.cancel (execution : Execution ρ) : Execution ρ := { execution with cancelled := true }

def Executor.answer (s : Executor ρ) (key : Key) (answer : Answer ρ) : Executor ρ :=
  { s with answers := s.answers ++ [(key, answer)] }

/-- The branch of `dispatch` for a cancellation. -/
def dispatchCancel (s : Executor ρ) (key : Key) : Executor ρ :=
  if s.finished key then s.answer key .completed
  else
    match s.active key with
    | some n => { s with runs := s.runs.modify n Execution.cancel }.answer key .cancelRequested
    | none =>
      if 1000 ≤ s.cancelled.length then s.answer key .refused
      else { s with cancelled := s.cancelled.insert key }.answer key .cancelRequested

/-- The branch of `dispatch` for a wait. -/
def dispatchWait (s : Executor ρ) (caller : Nat) (key : Key) : Executor ρ :=
  match s.executions key with
  | none => s.answer key .refused
  | some n => { s with waiting := Function.update s.waiting caller (some (key, n)) }

/-- The branch of `dispatch` for an execution. -/
def dispatchExecute (s : Executor ρ) (caller : Nat) (key : Key) (isTask : Bool) : Executor ρ :=
  if (s.executions key).isSome || s.finished key || !isTask then s.answer key .refused
  else
    let n := s.runs.length
    { s with
      cancelled := s.cancelled.erase key
      active := Function.update s.active key (some n)
      executions := Function.update s.executions key (some n)
      runs := s.runs ++ [{ key, cancelled := s.cancelled.contains key }]
      waiting := Function.update s.waiting caller (some (key, n)) }

/-- `dispatch` up to its `await`. -/
def dispatch (s : Executor ρ) (caller : Nat) (peer : String) (request : RemoteRequest) :
    Executor ρ :=
  let key := (peer, request.taskId)
  match request.action with
  | .cancel => dispatchCancel s key
  | .wait => dispatchWait s caller key
  | .execute => dispatchExecute s caller key request.isTask

/-- `operations.execute` is called. -/
def Execution.begin (execution : Execution ρ) : Execution ρ := { execution with began := true }

/-- `operations.execute` has returned or raised. -/
def Execution.finish (outcome : ρ) (execution : Execution ρ) : Execution ρ :=
  { execution with outcome := some outcome }

/-- The end of `dispatch`: the awaited execution is done, or the wait has expired. -/
def resume (s : Executor ρ) (caller : Nat) (key : Key) (n : Nat) : Executor ρ :=
  let s := { s with waiting := Function.update s.waiting caller none }
  match (s.runs[n]?).bind Execution.outcome with
  | none => s.answer key .running
  | some outcome =>
    { s with executions := Function.update s.executions key none }.answer key (.final outcome)

inductive ExecutorAction (ρ : Type) where
  | request (caller : Nat) (peer : String) (request : RemoteRequest)
  /-- The thread of an execution starts. -/
  | start (n : Nat)
  /-- The execution ends. -/
  | finish (n : Nat) (outcome : ρ)
  | resume (caller : Nat)
  /-- The request is cancelled while it waits. -/
  | vanish (caller : Nat)

/-- A request, the executions and the rest of a request. -/
def executorStep (s : Executor ρ) : ExecutorAction ρ → Option (Executor ρ)
  | .request caller peer request =>
    match s.waiting caller with
    | some _ => none
    | none => some (dispatch s caller peer request)
  | .start n =>
    match s.runs[n]? with
    | some execution =>
      if execution.began = false ∧ execution.outcome.isNone then
        some { s with
          runs := s.runs.modify n Execution.begin
          calls := s.calls ++ [(execution.key, execution.cancelled)] }
      else none
    | none => none
  | .finish n outcome =>
    match s.runs[n]? with
    | some execution =>
      if execution.outcome.isNone then
        some { s with
          runs := s.runs.modify n (Execution.finish outcome)
          active := Function.update s.active execution.key none
          finished := Function.update s.finished execution.key true }
      else none
    | none => none
  | .resume caller =>
    match s.waiting caller with
    | some (key, n) => some (resume s caller key n)
    | none => none
  | .vanish caller =>
    match s.waiting caller with
    | some _ => some { s with waiting := Function.update s.waiting caller none }
    | none => none

section

variable {s t : Executor ρ} {caller n : Nat}

theorem executorStep_request {peer : String} {request : RemoteRequest} :
    executorStep s (.request caller peer request) = some t ↔
      s.waiting caller = none ∧ t = dispatch s caller peer request := by
  rw [executorStep]
  cases s.waiting caller with
  | none => simp [eq_comm]
  | some waiting => simp

theorem executorStep_start : executorStep s (.start n) = some t ↔
    ∃ execution, s.runs[n]? = some execution ∧ execution.began = false ∧
      execution.outcome = none ∧ t = { s with
        runs := s.runs.modify n Execution.begin
        calls := s.calls ++ [(execution.key, execution.cancelled)] } := by
  rw [executorStep]
  cases s.runs[n]? with
  | none => simp
  | some execution =>
    dsimp only
    constructor
    · intro stepped
      split at stepped
      · rename_i able
        cases stepped
        exact ⟨execution, rfl, able.1, Option.isNone_iff_eq_none.mp able.2, rfl⟩
      · cases stepped
    · rintro ⟨_, found, unbegun, isOpen, rfl⟩
      cases found
      rw [if_pos ⟨unbegun, Option.isNone_iff_eq_none.mpr isOpen⟩]

theorem executorStep_finish {outcome : ρ} : executorStep s (.finish n outcome) = some t ↔
    ∃ execution, s.runs[n]? = some execution ∧ execution.outcome = none ∧ t = { s with
      runs := s.runs.modify n (Execution.finish outcome)
      active := Function.update s.active execution.key none
      finished := Function.update s.finished execution.key true } := by
  rw [executorStep]
  cases s.runs[n]? with
  | none => simp
  | some execution =>
    dsimp only
    constructor
    · intro stepped
      split at stepped
      · rename_i able
        cases stepped
        exact ⟨execution, rfl, Option.isNone_iff_eq_none.mp able, rfl⟩
      · cases stepped
    · rintro ⟨_, found, isOpen, rfl⟩
      cases found
      rw [if_pos (Option.isNone_iff_eq_none.mpr isOpen)]

theorem executorStep_resume : executorStep s (.resume caller) = some t ↔
    ∃ key n, s.waiting caller = some (key, n) ∧ t = resume s caller key n := by
  rw [executorStep]
  cases s.waiting caller with
  | none => simp
  | some waiting =>
    obtain ⟨key, n⟩ := waiting
    constructor
    · rintro ⟨⟩
      exact ⟨key, n, rfl, rfl⟩
    · rintro ⟨_, _, isWaiting, rfl⟩
      cases isWaiting
      rfl

theorem executorStep_vanish : executorStep s (.vanish caller) = some t ↔
    (s.waiting caller).isSome ∧
      t = { s with waiting := Function.update s.waiting caller none } := by
  rw [executorStep]
  cases s.waiting caller with
  | none => simp
  | some waiting => simp [eq_comm]

end

/-! ### What the dictionaries say -/

/-- The executor and its executions. -/
structure Kept (s : Executor ρ) : Prop where
  keys : (s.runs.map Execution.key).Nodup
  executions : ∀ key n, s.executions key = some n → ∃ e, s.runs[n]? = some e ∧ e.key = key
  active : ∀ key n, s.active key = some n ↔ ∃ e, s.runs[n]? = some e ∧ e.key = key ∧ e.outcome = none
  finished : ∀ key, s.finished key = true ↔ ∃ e ∈ s.runs, e.key = key ∧ e.outcome ≠ none
  /-- An execution is awaited or finished. -/
  known : ∀ e ∈ s.runs, s.executions e.key = none → s.finished e.key = true
  waiting : ∀ caller key n, s.waiting caller = some (key, n) → ∃ e, s.runs[n]? = some e ∧ e.key = key
  distinct : s.cancelled.Nodup
  /-- A cancellation is recorded ahead of the execution. -/
  ahead : ∀ key ∈ s.cancelled, ∀ e ∈ s.runs, e.key ≠ key
  calls : ∀ call ∈ s.calls, ∃ e ∈ s.runs, e.key = call.1 ∧ e.began = true
  once : (s.calls.map Prod.fst).Nodup
  final : ∀ key outcome, (key, .final outcome) ∈ s.answers →
    ∃ e ∈ s.runs, e.key = key ∧ e.outcome = some outcome
  asked : ∀ key, (key, .cancelRequested) ∈ s.answers →
    key ∈ s.cancelled ∨ ∃ e ∈ s.runs, e.key = key ∧ e.cancelled = true

theorem kept_empty : Kept (Executor.empty : Executor ρ) where
  keys := List.nodup_nil
  executions _ _ found := nomatch found
  active _ _ := by simp [Executor.empty]
  finished _ := by simp [Executor.empty]
  known _ mem := nomatch mem
  waiting _ _ _ found := nomatch found
  distinct := List.nodup_nil
  ahead _ mem := nomatch mem
  calls _ mem := nomatch mem
  once := List.nodup_nil
  final _ _ mem := nomatch mem
  asked _ mem := nomatch mem

variable {s : Executor ρ}

theorem Kept.same (kept : Kept s) {m n : Nat} {d e : Execution ρ} (left : s.runs[m]? = some d)
    (right : s.runs[n]? = some e) (same : d.key = e.key) :
    m = n ∧ d = e := by
  obtain ⟨lt, rfl⟩ := List.getElem?_eq_some_iff.mp left
  obtain ⟨lt', rfl⟩ := List.getElem?_eq_some_iff.mp right
  have index : m = n := by
    have inKeys : m < (s.runs.map Execution.key).length := by simpa using lt
    have inKeys' : n < (s.runs.map Execution.key).length := by simpa using lt'
    apply (@List.Nodup.getElem_inj_iff _ _ kept.keys _ inKeys _ inKeys').mp
    rw [List.getElem_map, List.getElem_map]
    exact same
  subst index
  exact ⟨rfl, rfl⟩

theorem Kept.answer (kept : Kept s) {key : Key} {answer : Answer ρ}
    (final : ∀ outcome, answer = .final outcome →
      ∃ e ∈ s.runs, e.key = key ∧ e.outcome = some outcome)
    (asked : answer = .cancelRequested →
      key ∈ s.cancelled ∨ ∃ e ∈ s.runs, e.key = key ∧ e.cancelled = true) :
    Kept (s.answer key answer) := by
  refine { kept with final := ?_, asked := ?_ }
  · intro key' outcome mem
    rcases List.mem_append.mp mem with old | new
    · exact kept.final key' outcome old
    · obtain ⟨rfl, same⟩ := Prod.mk.injEq .. ▸ List.mem_singleton.mp new
      exact final outcome same.symm
  · intro key' mem
    rcases List.mem_append.mp mem with old | new
    · exact kept.asked key' old
    · obtain ⟨rfl, same⟩ := Prod.mk.injEq .. ▸ List.mem_singleton.mp new
      exact asked same.symm

theorem Kept.unwait (kept : Kept s) (caller : Nat) :
    Kept { s with waiting := Function.update s.waiting caller none } := by
  refine { kept with waiting := ?_ }
  intro other key n found
  dsimp only at found
  rw [Function.update_apply] at found
  split at found
  · cases found
  · exact kept.waiting other key n found

theorem Kept.wait (kept : Kept s) {caller n : Nat} {e : Execution ρ} (found : s.runs[n]? = some e) :
    Kept { s with waiting := Function.update s.waiting caller (some (e.key, n)) } := by
  refine { kept with waiting := ?_ }
  intro other key m isWaiting
  dsimp only at isWaiting
  rw [Function.update_apply] at isWaiting
  split at isWaiting
  · cases isWaiting
    exact ⟨e, found, rfl⟩
  · exact kept.waiting other key m isWaiting

/-! A change of one execution that keeps its key. -/

section

variable {s : Executor ρ} {n : Nat} {f : Execution ρ → Execution ρ}

theorem getElem?_modify_runs (m : Nat) {e : Execution ρ} :
    (s.runs.modify n f)[m]? = some e ↔
      ∃ d, s.runs[m]? = some d ∧ e = if n = m then f d else d := by
  rw [List.getElem?_modify]
  cases s.runs[m]? with
  | none => simp
  | some d => simp [eq_comm]

theorem mem_modify {e : Execution ρ} : e ∈ s.runs.modify n f ↔
    ∃ m d, s.runs[m]? = some d ∧ e = if n = m then f d else d := by
  rw [List.mem_iff_getElem?]
  exact exists_congr fun m => getElem?_modify_runs m

theorem map_key_modify (key : ∀ e, (f e).key = e.key) :
    (s.runs.modify n f).map Execution.key = s.runs.map Execution.key := by
  apply List.ext_getElem?
  intro m
  rw [List.getElem?_map, List.getElem?_map, List.getElem?_modify]
  cases s.runs[m]? with
  | none => rfl
  | some d =>
    by_cases here : n = m
    · simp [here, key]
    · simp [here]

/-- One execution changes.  It keeps its key, its event, that it has begun and an outcome it has; the
dictionaries of the open and the finished ones follow. -/
theorem Kept.change (kept : Kept s) {active : Key → Option Nat} {finished : Key → Bool}
    (key : ∀ e, (f e).key = e.key) (cancelled : ∀ e, e.cancelled → (f e).cancelled)
    (began : ∀ e, e.began → (f e).began)
    (outcome : ∀ e, s.runs[n]? = some e → ∀ o, e.outcome = some o → (f e).outcome = some o)
    (isActive : ∀ k m, active k = some m ↔
      ∃ e, (s.runs.modify n f)[m]? = some e ∧ e.key = k ∧ e.outcome = none)
    (isFinished : ∀ k, finished k = true ↔
      ∃ e ∈ s.runs.modify n f, e.key = k ∧ e.outcome ≠ none) :
    Kept { s with runs := s.runs.modify n f, active, finished } := by
  -- Every execution has its counterpart.
  have there : ∀ {m : Nat} {d : Execution ρ}, s.runs[m]? = some d →
      ∃ e, (s.runs.modify n f)[m]? = some e ∧ e.key = d.key ∧ (d.cancelled → e.cancelled) ∧
        (d.began → e.began) ∧ ∀ o, d.outcome = some o → e.outcome = some o := by
    intro m d found
    refine ⟨_, getElem?_modify_runs m |>.mpr ⟨d, found, rfl⟩, ?_⟩
    split
    · rename_i here
      subst here
      exact ⟨key d, cancelled d, began d, outcome d found⟩
    · exact ⟨rfl, id, id, fun _ => id⟩
  have thereMem : ∀ {d : Execution ρ}, d ∈ s.runs → ∃ e ∈ s.runs.modify n f,
      e.key = d.key ∧ (d.cancelled → e.cancelled) ∧ (d.began → e.began) ∧
        ∀ o, d.outcome = some o → e.outcome = some o := by
    intro d mem
    obtain ⟨m, old⟩ := List.mem_iff_getElem?.mp mem
    obtain ⟨e, found, rest⟩ := there old
    exact ⟨e, List.mem_of_getElem? found, rest⟩
  have back : ∀ {e : Execution ρ}, e ∈ s.runs.modify n f → ∃ d ∈ s.runs, e.key = d.key := by
    intro e mem
    obtain ⟨m, d, old, rfl⟩ := mem_modify.mp mem
    refine ⟨d, List.mem_of_getElem? old, ?_⟩
    split
    · exact key d
    · rfl
  refine
    { keys := ?_, executions := ?_, active := isActive, finished := isFinished, known := ?_
      waiting := ?_, distinct := kept.distinct, ahead := ?_, calls := ?_, once := kept.once
      final := ?_, asked := ?_ }
  · dsimp only
    rw [map_key_modify key]
    exact kept.keys
  · intro k m isExecution
    obtain ⟨d, old, isKey⟩ := kept.executions k m isExecution
    obtain ⟨e, found, same, _⟩ := there old
    exact ⟨e, found, same.trans isKey⟩
  · intro e mem unawaited
    obtain ⟨d, old, same⟩ := back mem
    dsimp only at unawaited ⊢
    rw [same] at unawaited ⊢
    obtain ⟨d', isRun, isKey, closed⟩ := (kept.finished d.key).mp (kept.known d old unawaited)
    obtain ⟨o, isOutcome⟩ := Option.ne_none_iff_exists'.mp closed
    obtain ⟨e', found, same', _, _, outcome'⟩ := thereMem isRun
    refine (isFinished d.key).mpr ⟨e', found, same'.trans isKey, ?_⟩
    rw [outcome' o isOutcome]
    exact Option.some_ne_none o
  · intro caller k m isWaiting
    obtain ⟨d, old, isKey⟩ := kept.waiting caller k m isWaiting
    obtain ⟨e, found, same, _⟩ := there old
    exact ⟨e, found, same.trans isKey⟩
  · intro k isAhead e mem
    obtain ⟨d, old, same⟩ := back mem
    rw [same]
    exact kept.ahead k isAhead d old
  · intro call mem
    obtain ⟨d, old, isKey, hasBegun⟩ := kept.calls call mem
    obtain ⟨e, found, same, _, begun, _⟩ := thereMem old
    exact ⟨e, found, same.trans isKey, begun hasBegun⟩
  · intro k o mem
    obtain ⟨d, old, isKey, isOutcome⟩ := kept.final k o mem
    obtain ⟨e, found, same, _, _, outcome⟩ := thereMem old
    exact ⟨e, found, same.trans isKey, outcome o isOutcome⟩
  · intro k mem
    refine (kept.asked k mem).imp_right ?_
    rintro ⟨d, old, isKey, isSet⟩
    obtain ⟨e, found, same, setToo, _⟩ := thereMem old
    exact ⟨e, found, same.trans isKey, setToo isSet⟩

theorem Kept.modify (kept : Kept s) (key : ∀ e, (f e).key = e.key)
    (outcome : ∀ e, (f e).outcome = e.outcome) (cancelled : ∀ e, e.cancelled → (f e).cancelled)
    (began : ∀ e, e.began → (f e).began) : Kept { s with runs := s.runs.modify n f } := by
  have same : ∀ (m : Nat) (d : Execution ρ), (if n = m then f d else d).key = d.key ∧
      (if n = m then f d else d).outcome = d.outcome := by
    intro m d
    split
    · exact ⟨key d, outcome d⟩
    · exact ⟨rfl, rfl⟩
  refine kept.change key cancelled began (fun e _ o isOutcome => (outcome e).trans isOutcome)
    (fun k m => (kept.active k m).trans ?_) (fun k => (kept.finished k).trans ?_)
  · simp only [getElem?_modify_runs]
    constructor
    · rintro ⟨d, old, isKey, isOpen⟩
      exact ⟨_, ⟨d, old, rfl⟩, (same m d).1.trans isKey, (same m d).2.trans isOpen⟩
    · rintro ⟨_, ⟨d, old, rfl⟩, isKey, isOpen⟩
      exact ⟨d, old, (same m d).1.symm.trans isKey, (same m d).2.symm.trans isOpen⟩
  · simp only [mem_modify]
    constructor
    · rintro ⟨d, old, isKey, closed⟩
      obtain ⟨m, old⟩ := List.mem_iff_getElem?.mp old
      exact ⟨_, ⟨m, d, old, rfl⟩, (same m d).1.trans isKey, (same m d).2 ▸ closed⟩
    · rintro ⟨_, ⟨m, d, old, rfl⟩, isKey, closed⟩
      exact ⟨d, List.mem_of_getElem? old, (same m d).1.symm.trans isKey, (same m d).2 ▸ closed⟩

end

/-! ### What a step keeps -/

variable {s : Executor ρ}

theorem Kept.dispatchCancel (kept : Kept s) (key : Key) :
    Kept (dispatchCancel s key) := by
  unfold Peers.dispatchCancel
  split
  · exact kept.answer (fun _ same => nomatch same) (fun same => nomatch same)
  · rename_i unfinished
    split
    · rename_i n isActive
      have set : Kept { s with runs := s.runs.modify n Execution.cancel } :=
        kept.modify (fun _ => rfl) (fun _ => rfl) (fun _ _ => rfl) (fun _ began => began)
      refine set.answer (fun _ same => nomatch same) fun _ => Or.inr ?_
      obtain ⟨e, found, isKey, _⟩ := (kept.active key n).mp isActive
      refine ⟨e.cancel, mem_modify.mpr ⟨n, e, found, ?_⟩, isKey, rfl⟩
      rw [if_pos rfl]
    · rename_i inactive
      split
      · exact kept.answer (fun _ same => nomatch same) (fun same => nomatch same)
      · have recorded : Kept { s with cancelled := s.cancelled.insert key } := by
          refine { kept with distinct := kept.distinct.insert, ahead := ?_, asked := ?_ }
          · intro k mem e isRun sameKey
            rcases List.mem_insert_iff.mp mem with rfl | old
            · -- An execution of the key is active or finished.
              obtain ⟨n, found⟩ := List.mem_iff_getElem?.mp isRun
              cases hasOutcome : e.outcome with
              | none =>
                rw [(kept.active k n).mpr ⟨e, found, sameKey, hasOutcome⟩] at inactive
                cases inactive
              | some outcome =>
                apply unfinished
                rw [kept.finished]
                exact ⟨e, isRun, sameKey, by simp [hasOutcome]⟩
            · exact kept.ahead k old e isRun sameKey
          · intro k mem
            exact (kept.asked k mem).imp_left (List.mem_insert_of_mem)
        exact recorded.answer (fun _ same => nomatch same)
          fun _ => Or.inl List.mem_insert_self

theorem Kept.dispatchWait (kept : Kept s) (caller : Nat) (key : Key) :
    Kept (dispatchWait s caller key) := by
  unfold Peers.dispatchWait
  split
  · exact kept.answer (fun _ same => nomatch same) (fun same => nomatch same)
  · rename_i n isExecution
    obtain ⟨e, found, rfl⟩ := kept.executions key n isExecution
    exact kept.wait found

variable {key : Key}

theorem Kept.execute (kept : Kept s) (unknown : ∀ e ∈ s.runs, e.key ≠ key) : Kept { s with
      cancelled := s.cancelled.erase key
      active := Function.update s.active key (some s.runs.length)
      executions := Function.update s.executions key (some s.runs.length)
      runs := s.runs ++ [{ key, cancelled := s.cancelled.contains key }] } := by
  have here : (s.runs ++ [({ key, cancelled := s.cancelled.contains key } : Execution ρ)])[
      s.runs.length]? = some { key, cancelled := s.cancelled.contains key } := by simp
  have there : ∀ {m : Nat} {e : Execution ρ}, s.runs[m]? = some e →
      (s.runs ++ [{ key, cancelled := s.cancelled.contains key }])[m]? = some e := by
    intro m e found
    rw [List.getElem?_append_left (List.getElem?_eq_some_iff.mp found).1]
    exact found
  have back : ∀ {m : Nat} {e : Execution ρ}, e.key ≠ key →
      (s.runs ++ [{ key, cancelled := s.cancelled.contains key }])[m]? = some e →
        s.runs[m]? = some e := by
    intro m e other found
    rw [List.getElem?_append] at found
    split at found
    · exact found
    · obtain ⟨_, rfl⟩ := List.getElem?_eq_some_iff.mp found
      simp at other
  have either : ∀ {e : Execution ρ},
      e ∈ s.runs ++ [{ key, cancelled := s.cancelled.contains key }] →
        e ∈ s.runs ∨ e = { key, cancelled := s.cancelled.contains key } := by
    intro e mem
    simpa using mem
  refine
    { keys := ?_, executions := ?_, active := ?_, finished := ?_, known := ?_, waiting := ?_
      distinct := kept.distinct.erase key, ahead := ?_, calls := ?_, once := kept.once
      final := ?_, asked := ?_ }
  · dsimp only
    rw [List.map_append, List.nodup_append]
    refine ⟨kept.keys, by simp, ?_⟩
    intro k mem k' isNew
    obtain ⟨e, isRun, rfl⟩ := List.mem_map.mp mem
    rw [List.map_singleton, List.mem_singleton] at isNew
    rw [isNew]
    exact unknown e isRun
  · intro k m isExecution
    dsimp only at isExecution
    rw [Function.update_apply] at isExecution
    split at isExecution
    · cases isExecution
      exact ⟨_, here, by simp_all⟩
    · obtain ⟨e, found, isKey⟩ := kept.executions k m isExecution
      exact ⟨e, there found, isKey⟩
  · intro k m
    dsimp only
    rw [Function.update_apply]
    split
    · rename_i same
      constructor
      · intro isNumber
        cases isNumber
        exact ⟨_, here, same.symm, rfl⟩
      · rintro ⟨e, found, isKey, _⟩
        rw [List.getElem?_append] at found
        split at found
        · exact absurd (isKey.trans same) (unknown e (List.mem_of_getElem? found))
        · obtain ⟨lt, _⟩ := List.getElem?_eq_some_iff.mp found
          have index : m = s.runs.length := by
            rw [List.length_singleton] at lt
            omega
          rw [index]
    · rename_i other
      refine (kept.active k m).trans ⟨?_, ?_⟩
      · rintro ⟨e, found, isKey, isOpen⟩
        exact ⟨e, there found, isKey, isOpen⟩
      · rintro ⟨e, found, isKey, isOpen⟩
        exact ⟨e, back (isKey ▸ other) found, isKey, isOpen⟩
  · intro k
    refine (kept.finished k).trans ⟨?_, ?_⟩
    · rintro ⟨e, mem, isKey, closed⟩
      exact ⟨e, List.mem_append_left _ mem, isKey, closed⟩
    · rintro ⟨e, mem, isKey, closed⟩
      rcases either mem with old | rfl
      · exact ⟨e, old, isKey, closed⟩
      · exact absurd rfl closed
  · intro e mem unawaited
    dsimp only at unawaited
    rw [Function.update_apply] at unawaited
    split at unawaited
    · cases unawaited
    · rename_i other
      rcases either mem with old | rfl
      · exact kept.known e old unawaited
      · exact absurd rfl other
  · intro caller k m isWaiting
    obtain ⟨e, found, isKey⟩ := kept.waiting caller k m isWaiting
    exact ⟨e, there found, isKey⟩
  · intro k isAhead e mem
    obtain ⟨other, isAhead⟩ := kept.distinct.mem_erase_iff.mp isAhead
    rcases either mem with old | rfl
    · exact kept.ahead k isAhead e old
    · exact other.symm
  · intro call mem
    obtain ⟨e, old, rest⟩ := kept.calls call mem
    exact ⟨e, List.mem_append_left _ old, rest⟩
  · intro k outcome mem
    obtain ⟨e, old, rest⟩ := kept.final k outcome mem
    exact ⟨e, List.mem_append_left _ old, rest⟩
  · intro k mem
    rcases kept.asked k mem with isAhead | ⟨e, old, rest⟩
    · by_cases same : k = key
      · refine Or.inr ⟨_, List.mem_of_getElem? here, same.symm, ?_⟩
        dsimp only
        rw [List.contains_iff_mem, ← same]
        exact isAhead
      · exact Or.inl (kept.distinct.mem_erase_iff.mpr ⟨same, isAhead⟩)
    · exact Or.inr ⟨e, List.mem_append_left _ old, rest⟩

theorem Kept.unknown_of_fresh (kept : Kept s) {isTask : Bool}
    (fresh : ¬ ((s.executions key).isSome || s.finished key || !isTask) = true) :
    ∀ e ∈ s.runs, e.key ≠ key := by
  rintro e mem rfl
  rw [Bool.not_eq_true, Bool.or_eq_false_iff, Bool.or_eq_false_iff] at fresh
  obtain ⟨⟨unawaited, unfinished⟩, _⟩ := fresh
  have isFinished := kept.known e mem (Option.isNone_iff_eq_none.mp (by simpa using unawaited))
  rw [isFinished] at unfinished
  cases unfinished

theorem Kept.dispatchExecute (kept : Kept s) (caller : Nat) (key : Key) (isTask : Bool) :
    Kept (dispatchExecute s caller key isTask) := by
  unfold Peers.dispatchExecute
  split
  · exact kept.answer (fun _ same => nomatch same) (fun same => nomatch same)
  · rename_i fresh
    have executing := kept.execute (kept.unknown_of_fresh fresh)
    have here : (s.runs ++ [({ key, cancelled := s.cancelled.contains key } : Execution ρ)])[
        s.runs.length]? = some { key, cancelled := s.cancelled.contains key } := by simp
    exact @Kept.wait _ _ executing caller _ _ here

theorem Kept.dispatch (kept : Kept s) (caller : Nat) (peer : String) (request : RemoteRequest) :
    Kept (dispatch s caller peer request) := by
  unfold Peers.dispatch
  split
  · exact kept.dispatchCancel _
  · exact kept.dispatchWait caller _
  · exact kept.dispatchExecute caller _ _

variable {n caller : Nat}

theorem Kept.finish (kept : Kept s) {execution : Execution ρ} (found : s.runs[n]? = some execution)
    (isOpen : execution.outcome = none) (outcome : ρ) :
    Kept { s with
      runs := s.runs.modify n (Execution.finish outcome)
      active := Function.update s.active execution.key none
      finished := Function.update s.finished execution.key true } := by
  -- The execution is the one of its key.
  have back : ∀ {m : Nat} {d : Execution ρ}, s.runs[m]? = some d →
      m = n ∧ d = execution ∨ n ≠ m ∧ d.key ≠ execution.key := by
    intro m d old
    by_cases same : d.key = execution.key
    · exact Or.inl (kept.same old found same)
    · refine Or.inr ⟨?_, same⟩
      rintro rfl
      rw [found] at old
      cases old
      exact same rfl
  refine kept.change (fun _ => rfl) (fun _ => id) (fun _ => id) ?_ (fun key m => ?_) fun key => ?_
  · intro e isRun o isOutcome
    rw [found] at isRun
    cases isRun
    rw [isOpen] at isOutcome
    cases isOutcome
  · rw [Function.update_apply]
    simp only [getElem?_modify_runs]
    split
    · rename_i same
      refine iff_of_false (fun none => nomatch none) ?_
      rintro ⟨_, ⟨d, old, rfl⟩, isKey, stillOpen⟩
      rcases back old with ⟨rfl, rfl⟩ | ⟨there, other⟩
      · rw [if_pos rfl] at stillOpen
        cases stillOpen
      · rw [if_neg there] at isKey
        exact other (isKey.trans same)
    · rename_i differs
      refine (kept.active key m).trans ⟨?_, ?_⟩
      · rintro ⟨d, old, rfl, stillOpen⟩
        rcases back old with ⟨_, rfl⟩ | ⟨there, _⟩
        · exact absurd rfl differs
        · exact ⟨_, ⟨d, old, rfl⟩, by rw [if_neg there], by rw [if_neg there, stillOpen]⟩
      · rintro ⟨_, ⟨d, old, rfl⟩, rfl, stillOpen⟩
        rcases back old with ⟨rfl, rfl⟩ | ⟨there, _⟩
        · rw [if_pos rfl] at stillOpen
          cases stillOpen
        · rw [if_neg there] at stillOpen ⊢
          exact ⟨d, old, rfl, stillOpen⟩
  · rw [Function.update_apply]
    simp only [mem_modify]
    split
    · rename_i same
      refine iff_of_true rfl ⟨_, ⟨n, execution, found, rfl⟩, ?_, ?_⟩
      · rw [if_pos rfl]
        exact same.symm
      · rw [if_pos rfl]
        exact Option.some_ne_none outcome
    · rename_i differs
      refine (kept.finished key).trans ⟨?_, ?_⟩
      · rintro ⟨d, mem, rfl, closed⟩
        obtain ⟨m, old⟩ := List.mem_iff_getElem?.mp mem
        rcases back old with ⟨_, rfl⟩ | ⟨there, _⟩
        · exact absurd rfl differs
        · exact ⟨_, ⟨m, d, old, rfl⟩, by rw [if_neg there], by rwa [if_neg there]⟩
      · rintro ⟨_, ⟨m, d, old, rfl⟩, rfl, closed⟩
        rcases back old with ⟨rfl, rfl⟩ | ⟨there, _⟩
        · rw [if_pos rfl] at differs
          exact absurd rfl differs
        · rw [if_neg there] at closed ⊢
          exact ⟨d, List.mem_of_getElem? old, rfl, closed⟩

theorem Kept.start (kept : Kept s) {execution : Execution ρ} (found : s.runs[n]? = some execution)
    (unbegun : execution.began = false) : Kept { s with
      runs := s.runs.modify n Execution.begin
      calls := s.calls ++ [(execution.key, execution.cancelled)] } := by
  have begun : Kept { s with runs := s.runs.modify n Execution.begin } :=
    kept.modify (fun _ => rfl) (fun _ => rfl) (fun _ set => set) (fun _ _ => rfl)
  have here : execution.begin ∈ s.runs.modify n Execution.begin := by
    refine mem_modify.mpr ⟨n, execution, found, ?_⟩
    rw [if_pos rfl]
  refine { begun with calls := ?_, once := ?_ }
  · intro call mem
    rcases List.mem_append.mp mem with old | new
    · exact begun.calls call old
    · rw [List.mem_singleton.mp new]
      exact ⟨_, here, rfl, rfl⟩
  · dsimp only
    rw [List.map_append, List.nodup_append]
    refine ⟨kept.once, by simp, ?_⟩
    intro key mem key' isNew same
    obtain ⟨call, old, isKey⟩ := List.mem_map.mp mem
    rw [List.map_singleton, List.mem_singleton] at isNew
    -- A call of the key is one of this execution, which has not begun.
    obtain ⟨d, isRun, sameKey, hasBegun⟩ := kept.calls call old
    obtain ⟨m, isRun⟩ := List.mem_iff_getElem?.mp isRun
    have one := (kept.same isRun found (by rw [sameKey, isKey, same, isNew])).2
    rw [one, unbegun] at hasBegun
    cases hasBegun

theorem Kept.resume (kept : Kept s) (isWaiting : s.waiting caller = some (key, n)) :
    Kept (resume s caller key n) := by
  have unwaited := kept.unwait caller
  obtain ⟨e, found, isKey⟩ := kept.waiting caller key n isWaiting
  unfold Peers.resume
  dsimp only
  split
  · exact unwaited.answer (fun _ same => nomatch same) (fun same => nomatch same)
  · rename_i outcome isOutcome
    rw [found, Option.bind_some] at isOutcome
    have mem := List.mem_of_getElem? found
    have popped : Kept { s with
        waiting := Function.update s.waiting caller none
        executions := Function.update s.executions key none } := by
      refine { unwaited with executions := ?_, known := ?_ }
      · intro other m isExecution
        dsimp only at isExecution
        rw [Function.update_apply] at isExecution
        split at isExecution
        · cases isExecution
        · exact kept.executions other m isExecution
      · intro d isRun unawaited
        dsimp only at unawaited
        rw [Function.update_apply] at unawaited
        split at unawaited
        · rename_i same
          exact (kept.finished d.key).mpr ⟨e, mem, isKey.trans same.symm, by simp [isOutcome]⟩
        · exact kept.known d isRun unawaited
    refine popped.answer ?_ (fun same => nomatch same)
    intro result same
    cases same
    exact ⟨e, mem, isKey, isOutcome⟩

/-- One action keeps the dictionaries in line with the executions. -/
theorem Kept.step {s' : Executor ρ} {action : ExecutorAction ρ} (kept : Kept s)
    (stepped : executorStep s action = some s') : Kept s' := by
  cases action with
  | request caller peer request =>
    obtain ⟨_, rfl⟩ := executorStep_request.mp stepped
    exact kept.dispatch caller peer request
  | start n =>
    obtain ⟨execution, found, unbegun, _, rfl⟩ := executorStep_start.mp stepped
    exact kept.start found unbegun
  | finish n outcome =>
    obtain ⟨execution, found, isOpen, rfl⟩ := executorStep_finish.mp stepped
    exact kept.finish found isOpen outcome
  | resume caller =>
    obtain ⟨key, n, isWaiting, rfl⟩ := executorStep_resume.mp stepped
    exact kept.resume isWaiting
  | vanish caller =>
    obtain ⟨_, rfl⟩ := executorStep_vanish.mp stepped
    exact kept.unwait caller

/-- They are in line in every state reached. -/
theorem kept_of_run {actions : List (ExecutorAction ρ)}
    (ran : run executorStep .empty actions = some s) : Kept s :=
  run_invariant (fun _ _ _ kept stepped => kept.step stepped) kept_empty ran

/-! ### Cancellations -/

variable {e : Execution ρ}

theorem Kept.set_of_asked (kept : Kept s) (asked : (key, .cancelRequested) ∈ s.answers)
    (isRun : e ∈ s.runs) (isKey : e.key = key) : e.cancelled = true := by
  rcases kept.asked key asked with isAhead | ⟨d, mem, same, isSet⟩
  · exact absurd isKey (kept.ahead key isAhead e isRun)
  · obtain ⟨m, left⟩ := List.mem_iff_getElem?.mp mem
    obtain ⟨n, right⟩ := List.mem_iff_getElem?.mp isRun
    rw [← (kept.same left right (same.trans isKey.symm)).2]
    exact isSet

theorem answers_dispatch (s : Executor ρ) (caller : Nat) (peer : String)
    (request : RemoteRequest) :
    (dispatch s caller peer request).calls = s.calls ∧
      ∃ more, (dispatch s caller peer request).answers = s.answers ++ more := by
  have quiet : ∃ more, s.answers = s.answers ++ more := ⟨[], (List.append_nil _).symm⟩
  unfold dispatch
  dsimp only
  split
  · unfold dispatchCancel
    split
    · exact ⟨rfl, _, rfl⟩
    · split
      · exact ⟨rfl, _, rfl⟩
      · split
        · exact ⟨rfl, _, rfl⟩
        · exact ⟨rfl, _, rfl⟩
  · unfold dispatchWait
    split
    · exact ⟨rfl, _, rfl⟩
    · exact ⟨rfl, quiet⟩
  · unfold dispatchExecute
    split
    · exact ⟨rfl, _, rfl⟩
    · exact ⟨rfl, quiet⟩

theorem answers_resume (s : Executor ρ) (caller : Nat) (key : Key) (n : Nat) :
    (resume s caller key n).calls = s.calls ∧
      ∃ more, (resume s caller key n).answers = s.answers ++ more := by
  unfold resume
  dsimp only
  split
  · exact ⟨rfl, _, rfl⟩
  · exact ⟨rfl, _, rfl⟩

theorem executorStep_adds {s' : Executor ρ} {action : ExecutorAction ρ}
    (stepped : executorStep s action = some s') :
    (∃ more, s'.answers = s.answers ++ more) ∧
      ∃ more, s'.calls = s.calls ++ more ∧
        ∀ call ∈ more, ∃ e ∈ s.runs, call = (e.key, e.cancelled) := by
  have silent : ∃ more, s.answers = s.answers ++ more := ⟨[], (List.append_nil _).symm⟩
  have uncalled : ∃ more, s.calls = s.calls ++ more ∧
      ∀ call ∈ more, ∃ e ∈ s.runs, call = (e.key, e.cancelled) :=
    ⟨[], (List.append_nil _).symm, fun _ mem => nomatch mem⟩
  cases action with
  | request caller peer request =>
    obtain ⟨_, rfl⟩ := executorStep_request.mp stepped
    obtain ⟨calls, answers⟩ := answers_dispatch s caller peer request
    rw [calls]
    exact ⟨answers, uncalled⟩
  | start n =>
    obtain ⟨execution, found, _, _, rfl⟩ := executorStep_start.mp stepped
    refine ⟨silent, _, rfl, ?_⟩
    intro call mem
    exact ⟨execution, List.mem_of_getElem? found, List.mem_singleton.mp mem⟩
  | finish n outcome =>
    obtain ⟨execution, _, _, rfl⟩ := executorStep_finish.mp stepped
    exact ⟨silent, uncalled⟩
  | resume caller =>
    obtain ⟨key, n, _, rfl⟩ := executorStep_resume.mp stepped
    obtain ⟨calls, answers⟩ := answers_resume s caller key n
    rw [calls]
    exact ⟨answers, uncalled⟩
  | vanish caller =>
    obtain ⟨_, rfl⟩ := executorStep_vanish.mp stepped
    exact ⟨silent, uncalled⟩

theorem Kept.called_after {t : Executor ρ} (kept : Kept s)
    (asked : (key, .cancelRequested) ∈ s.answers) {actions : List (ExecutorAction ρ)}
    (ran : run executorStep s actions = some t) :
    (Kept t ∧ (key, .cancelRequested) ∈ t.answers) ∧
      ∃ more, t.calls = s.calls ++ more ∧ ∀ call ∈ more, call.1 = key → call.2 = true := by
  refine run_invariant (I := fun u => (Kept u ∧ (key, .cancelRequested) ∈ u.answers) ∧
    ∃ more, u.calls = s.calls ++ more ∧ ∀ call ∈ more, call.1 = key → call.2 = true)
    ?_ ⟨⟨kept, asked⟩, [], (List.append_nil _).symm, fun _ mem => nomatch mem⟩ ran
  rintro u action u' ⟨⟨keptU, askedU⟩, more, calls, set⟩ stepped
  obtain ⟨⟨answers, isAnswers⟩, more', calls', isEvent⟩ := executorStep_adds stepped
  refine ⟨⟨keptU.step stepped, ?_⟩, more ++ more', ?_, ?_⟩
  · rw [isAnswers]
    exact List.mem_append_left _ askedU
  · rw [calls', calls, List.append_assoc]
  · intro call mem isKey
    rcases List.mem_append.mp mem with old | new
    · exact set call old isKey
    · obtain ⟨e, isRun, rfl⟩ := isEvent call new
      exact keptU.set_of_asked askedU isRun isKey

/-! ### The tasks of one peer

What a request does to its own task is a function of what the executor has of that task. -/

/-- What an executor has of one task. -/
structure TaskView (ρ : Type) where
  active : Bool
  cancelled : Bool
  finished : Bool
  /-- The task is among the executions. -/
  awaitable : Bool
  execution : Option (Execution ρ)
  answers : List (Answer ρ)

def Executor.view (s : Executor ρ) (key : Key) : TaskView ρ where
  active := (s.active key).isSome
  cancelled := s.cancelled.contains key
  finished := s.finished key
  awaitable := (s.executions key).isSome
  execution := s.runs.find? fun e => e.key = key
  answers := (s.answers.filter fun entry => entry.1 = key).map Prod.snd

def TaskView.answer (view : TaskView ρ) (answer : Answer ρ) : TaskView ρ :=
  { view with answers := view.answers ++ [answer] }

/-- A request of a task, with room for a cancellation ahead of it. -/
def TaskView.dispatch (view : TaskView ρ) (key : Key) (request : RemoteRequest) (room : Bool) :
    TaskView ρ :=
  match request.action with
  | .cancel =>
    if view.finished then view.answer .completed
    else if view.active then
      { view with execution := view.execution.map Execution.cancel }.answer .cancelRequested
    else if room then { view with cancelled := true }.answer .cancelRequested
    else view.answer .refused
  | .wait => if view.awaitable then view else view.answer .refused
  | .execute =>
    if view.awaitable || view.finished || !request.isTask then view.answer .refused
    else
      { view with
        active := true
        cancelled := false
        awaitable := true
        execution := some { key, cancelled := view.cancelled } }

/-- A request that has waited for a task. -/
def TaskView.resume (view : TaskView ρ) : TaskView ρ :=
  match view.execution.bind Execution.outcome with
  | none => view.answer .running
  | some outcome => { view with awaitable := false }.answer (.final outcome)

theorem view_answer (s : Executor ρ) (key other : Key) (answer : Answer ρ) :
    (s.answer key answer).view other =
      if other = key then (s.view other).answer answer else s.view other := by
  unfold Executor.answer Executor.view TaskView.answer
  by_cases same : other = key
  · simp [same]
  · simp [same, Ne.symm same]

theorem Kept.find_run (kept : Kept s) (found : s.runs[n]? = some e) :
    (s.runs.find? fun d => d.key = e.key) = some e := by
  cases first : s.runs.find? fun d => d.key = e.key with
  | none =>
    have other := List.find?_eq_none.mp first e (List.mem_of_getElem? found)
    simp at other
  | some d =>
    have isKey : d.key = e.key := by simpa using List.find?_some first
    obtain ⟨m, isRun⟩ := List.mem_iff_getElem?.mp (List.mem_of_find?_eq_some first)
    rw [(kept.same isRun found isKey).2]

theorem find_modify_run {f : Execution ρ → Execution ρ}
    (found : s.runs[n]? = some e) (changed : Kept { s with runs := s.runs.modify n f })
    (same : ∀ e, (f e).key = e.key) (key : Key) : ((s.runs.modify n f).find? fun d => d.key = key) =
      if key = e.key then some (f e) else s.runs.find? fun d => d.key = key := by
  split
  · rename_i isKey
    have here : (s.runs.modify n f)[n]? = some (f e) :=
      getElem?_modify_runs n |>.mpr ⟨e, found, (if_pos rfl).symm⟩
    have first := changed.find_run here
    rw [isKey, ← same e]
    exact first
  · rename_i other
    cases first : s.runs.find? fun d => d.key = key with
    | none =>
      rw [List.find?_eq_none] at first ⊢
      intro d mem
      obtain ⟨m, d, old, rfl⟩ := mem_modify.mp mem
      have unlike := first d (List.mem_of_getElem? old)
      split
      · rw [same]
        exact unlike
      · exact unlike
    | some d =>
      have isKey : d.key = key := by simpa using List.find?_some first
      obtain ⟨m, old⟩ := List.mem_iff_getElem?.mp (List.mem_of_find?_eq_some first)
      have here : (s.runs.modify n f)[m]? = some d := by
        refine getElem?_modify_runs m |>.mpr ⟨d, old, ?_⟩
        rw [if_neg]
        rintro rfl
        rw [found] at old
        cases old
        exact other isKey.symm
      rw [← isKey]
      exact changed.find_run here

variable {s : Executor ρ}

theorem Kept.view_cancelRun (kept : Kept s) (found : s.runs[n]? = some e) (other : Key) :
    { s with runs := s.runs.modify n Execution.cancel }.view other =
      if other = e.key then
        { s.view other with execution := (s.view other).execution.map Execution.cancel }
      else s.view other := by
  have changed : Kept { s with runs := s.runs.modify n Execution.cancel } :=
    kept.modify (fun _ => rfl) (fun _ => rfl) (fun _ _ => rfl) (fun _ began => began)
  have first := find_modify_run found changed (fun _ => rfl) other
  unfold Executor.view
  dsimp only
  rw [first]
  split
  · rename_i isKey
    rw [isKey, kept.find_run found, Option.map_some]
  · rfl

theorem view_ahead (key other : Key) :
    { s with cancelled := s.cancelled.insert key }.view other =
      if other = key then { s.view other with cancelled := true } else s.view other := by
  unfold Executor.view
  split
  · rename_i same
    simp [same]
  · rename_i different
    simp [different]

variable {request : RemoteRequest}

theorem Kept.view_cancel (kept : Kept s) (action : request.action = .cancel) (other : Key) :
    (Peers.dispatchCancel s key).view other =
      if other = key then (s.view other).dispatch key request (s.cancelled.length < 1000)
      else s.view other := by
  have isFinished : ∀ {other}, other = key → (s.view other).finished = s.finished key := by
    rintro other rfl
    rfl
  have isActive : ∀ {other}, other = key → (s.view other).active = (s.active key).isSome := by
    rintro other rfl
    rfl
  unfold TaskView.dispatch Peers.dispatchCancel
  rw [action]
  dsimp only
  split
  · rename_i finished
    rw [view_answer]
    refine ite_congr rfl (fun same => ?_) fun _ => rfl
    rw [if_pos ((isFinished same).trans finished)]
  · rename_i unfinished
    have notFinished : other = key → ¬ (s.view other).finished = true := by
      intro same
      rw [isFinished same]
      exact unfinished
    split
    · rename_i n active
      obtain ⟨e, found, rfl, _⟩ := (kept.active key n).mp active
      rw [view_answer, kept.view_cancelRun found]
      split
      · rename_i same
        have nowActive : (s.view other).active = true := by
          rw [isActive same, active]
          rfl
        rw [if_neg (notFinished same), if_pos nowActive]
      · rfl
    · rename_i inactive
      have notActive : other = key → ¬ (s.view other).active = true := by
        intro same
        rw [isActive same, inactive]
        exact Bool.false_ne_true
      split
      · rename_i full
        have noRoom : ¬ decide (s.cancelled.length < 1000) = true := by simpa using full
        rw [view_answer]
        refine ite_congr rfl (fun same => ?_) fun _ => rfl
        rw [if_neg (notFinished same), if_neg (notActive same), if_neg noRoom]
      · rename_i room
        rw [view_answer, view_ahead]
        split
        · rename_i same
          have hasRoom : decide (s.cancelled.length < 1000) = true := by simpa using room
          rw [if_neg (notFinished same), if_neg (notActive same), if_pos hasRoom]
        · rfl

theorem view_wait (caller : Nat) (room : Bool) (action : request.action = .wait) (other : Key) :
    (Peers.dispatchWait s caller key).view other =
      if other = key then (s.view other).dispatch key request room else s.view other := by
  unfold TaskView.dispatch Peers.dispatchWait
  rw [action]
  dsimp only
  split
  · rename_i unknown
    rw [view_answer]
    refine ite_congr rfl (fun same => ?_) fun _ => rfl
    rw [Executor.view, same, unknown, if_neg (by simp)]
  · rename_i n isExecution
    have same : ∀ key', key' = key → (s.view key').awaitable = true := by
      rintro key' rfl
      rw [Executor.view, isExecution]
      rfl
    split
    · rename_i isKey
      rw [if_pos (same other isKey)]
      rfl
    · rfl

theorem Kept.view_execute (kept : Kept s) (caller : Nat) (room : Bool)
    (action : request.action = .execute) (other : Key) :
    (Peers.dispatchExecute s caller key request.isTask).view other =
      if other = key then (s.view other).dispatch key request room else s.view other := by
  unfold TaskView.dispatch Peers.dispatchExecute
  rw [action]
  dsimp only
  split
  · rename_i refused
    rw [view_answer]
    refine ite_congr rfl (fun same => ?_) fun _ => rfl
    have own : (s.view other).awaitable || (s.view other).finished || !request.isTask := by
      rw [same]
      exact refused
    rw [if_pos own]
  · rename_i fresh
    split
    · rename_i same
      have own : ¬ ((s.view other).awaitable || (s.view other).finished || !request.isTask) := by
        rw [same]
        exact fresh
      rw [if_neg own, same]
      have none : (s.runs.find? fun e => e.key = key) = none := by
        rw [List.find?_eq_none]
        intro e mem
        rw [decide_eq_true_iff]
        exact kept.unknown_of_fresh fresh e mem
      have gone : key ∉ s.cancelled.erase key := by
        rw [kept.distinct.mem_erase_iff]
        exact fun mem => mem.1 rfl
      unfold Executor.view
      simp [none, gone]
    · rename_i different
      unfold Executor.view
      simp [different, Ne.symm different]

/-- A request does what it does to its task and nothing else. -/
theorem Kept.view_dispatch (kept : Kept s) (caller : Nat) (peer : String)
    (request : RemoteRequest) (key : Key) : (Peers.dispatch s caller peer request).view key =
      if key = (peer, request.taskId) then
        (s.view key).dispatch key request (s.cancelled.length < 1000)
      else s.view key := by
  have named : ∀ room : Bool, (if key = (peer, request.taskId) then
        (s.view key).dispatch (peer, request.taskId) request room else s.view key) =
      if key = (peer, request.taskId) then (s.view key).dispatch key request room
      else s.view key := by
    intro room
    refine ite_congr rfl (fun same => ?_) fun _ => rfl
    rw [← same]
  unfold Peers.dispatch
  dsimp only
  rw [← named]
  split
  · rename_i action
    exact kept.view_cancel action key
  · rename_i action
    exact view_wait caller _ action key
  · rename_i action
    exact kept.view_execute caller _ action key

/-- So does the rest of a request. -/
theorem Kept.view_resume (kept : Kept s) (isWaiting : s.waiting caller = some (key, n))
    (other : Key) :
    (Peers.resume s caller key n).view other =
      if other = key then (s.view other).resume else s.view other := by
  obtain ⟨e, found, rfl⟩ := kept.waiting caller key n isWaiting
  have first : (s.view e.key).execution = some e := kept.find_run found
  unfold Peers.resume TaskView.resume
  dsimp only
  rw [found, Option.bind_some]
  split
  · rename_i running
    rw [view_answer]
    refine ite_congr rfl (fun same => ?_) fun _ => rfl
    rw [same, first, Option.bind_some, running]
    rfl
  · rename_i outcome isOutcome
    rw [view_answer]
    split
    · rename_i same
      rw [same, first, Option.bind_some, isOutcome]
      unfold Executor.view
      simp [kept.find_run found]
    · rename_i different
      unfold Executor.view
      simp [different]

theorem waiting_dispatch (caller : Nat) (peer : String) (request : RemoteRequest) {other : Nat}
    (different : other ≠ caller) :
    (Peers.dispatch s caller peer request).waiting other = s.waiting other := by
  unfold Peers.dispatch
  dsimp only
  split
  · unfold Peers.dispatchCancel
    split
    · rfl
    · split
      · rfl
      · split
        · rfl
        · rfl
  · unfold Peers.dispatchWait
    split
    · rfl
    · exact Function.update_of_ne different _ _
  · unfold Peers.dispatchExecute
    split
    · rfl
    · exact Function.update_of_ne different _ _

theorem waiting_dispatch_own {peer : String} (idle : s.waiting caller = none)
    (waits : (Peers.dispatch s caller peer request).waiting caller = some (key, n)) :
    key = (peer, request.taskId) := by
  have quiet : ∀ answer : Answer ρ,
      (s.answer (peer, request.taskId) answer).waiting caller ≠ some (key, n) := by
    intro answer
    have unchanged : (s.answer (peer, request.taskId) answer).waiting caller = none := idle
    rw [unchanged]
    exact fun same => nomatch same
  unfold Peers.dispatch at waits
  dsimp only at waits
  split at waits
  · unfold Peers.dispatchCancel at waits
    split at waits
    · exact absurd waits (quiet _)
    · split at waits
      · exact absurd waits (quiet .cancelRequested)
      · split at waits
        · exact absurd waits (quiet _)
        · exact absurd waits (quiet .cancelRequested)
  · unfold Peers.dispatchWait at waits
    split at waits
    · exact absurd waits (quiet _)
    · dsimp only at waits
      rw [Function.update_self] at waits
      cases waits
      rfl
  · unfold Peers.dispatchExecute at waits
    split at waits
    · exact absurd waits (quiet _)
    · dsimp only at waits
      rw [Function.update_self] at waits
      cases waits
      rfl

/-! ### After every run -/

/-- `operations.execute` is called at most once for a key, and a final answer has the result of the
one execution.  From the answer of a cancellation on, the event of the execution is set, and a call
that comes later finds it set.  What a request does, at once or after it has waited, it does to its
own task, and by what there is of that task. -/
theorem executes_once {actions : List (ExecutorAction ρ)}
    (ran : run executorStep .empty actions = some s) :
    (s.calls.map Prod.fst).Nodup ∧
      (∀ key outcome, (key, .final outcome) ∈ s.answers →
        ∃ e ∈ s.runs, e.key = key ∧ e.outcome = some outcome ∧
          ∀ d ∈ s.runs, d.key = key → d = e) ∧
      (∀ key, (key, .cancelRequested) ∈ s.answers →
        (∀ e ∈ s.runs, e.key = key → e.cancelled = true) ∧
        ∀ later t, run executorStep s later = some t →
          ∃ more, t.calls = s.calls ++ more ∧ ∀ call ∈ more, call.1 = key → call.2 = true) ∧
      (∀ caller peer request, s.waiting caller = none →
        (∀ key, (dispatch s caller peer request).view key =
          if key = (peer, request.taskId) then
            (s.view key).dispatch key request (s.cancelled.length < 1000)
          else s.view key) ∧
        (∀ other, other ≠ caller →
          (dispatch s caller peer request).waiting other = s.waiting other) ∧
        ∀ key n, (dispatch s caller peer request).waiting caller = some (key, n) →
          key = (peer, request.taskId)) ∧
      ∀ caller key n, s.waiting caller = some (key, n) → ∀ other,
        (resume s caller key n).view other =
          if other = key then (s.view other).resume else s.view other := by
  have kept := kept_of_run ran
  refine ⟨kept.once, ?_, ?_, ?_, ?_⟩
  · intro key outcome answered
    obtain ⟨e, mem, isKey, isOutcome⟩ := kept.final key outcome answered
    refine ⟨e, mem, isKey, isOutcome, fun d isRun same => ?_⟩
    obtain ⟨m, left⟩ := List.mem_iff_getElem?.mp isRun
    obtain ⟨n, right⟩ := List.mem_iff_getElem?.mp mem
    exact (kept.same left right (same.trans isKey.symm)).2
  · intro key asked
    refine ⟨fun e isRun isKey => kept.set_of_asked asked isRun isKey, fun later t ranOn => ?_⟩
    exact (kept.called_after asked ranOn).2
  · intro caller peer request idle
    exact ⟨kept.view_dispatch caller peer request, fun other => waiting_dispatch caller peer request,
      fun key n => waiting_dispatch_own idle⟩
  · intro caller key n isWaiting other
    exact kept.view_resume isWaiting other

/-- A cancellation ahead of its task, and another peer with a task of the same name. -/
def cancelledAhead : List (ExecutorAction Nat) :=
  [.request 0 "p" ⟨.cancel, "t", "", ""⟩, .request 1 "p" ⟨.execute, "t", "read", "/w"⟩,
    .request 2 "q" ⟨.execute, "t", "read", "/w"⟩, .start 0, .start 1, .finish 0 7, .resume 1]

/-- Each of the two tasks is called once. -/
theorem executes_once_cancelled :
    ∃ s, run executorStep .empty cancelledAhead = some s ∧
      s.calls = [(("p", "t"), true), (("q", "t"), false)] ∧ (s.calls.map Prod.fst).Nodup := by
  have calls : (run executorStep .empty cancelledAhead).map Executor.calls =
      some [(("p", "t"), true), (("q", "t"), false)] := by
    decide +kernel
  obtain ⟨s, ran, calls⟩ := Option.map_eq_some_iff.mp calls
  exact ⟨s, ran, calls, (executes_once ran).1⟩

end AgentPark.Peers
