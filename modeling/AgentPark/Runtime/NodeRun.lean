import AgentPark.Lib.Execution
import AgentPark.Runtime.StoreOp

/-!
# The run of a node and the calls beside it

`_run_single_node_iteration` works on the item a node has in flight and clears it on each of its
exits.  Users append, stop, pause, resume and delete meanwhile.
-/

namespace AgentPark.Runtime

open Lib

/-- Where the executor task of a node stands.  The part behind `leaving` starts when the run has
left its `try` statement. -/
inductive RunPhase where
  | ended
  | dequeued
  | submitted
  | begun
  | working
  | cancelled
  | failed
  | returned
  | leaving
  | left
  | recordingError
  | clearingError
  | errorCleared
  | recordingOutput
  | clearingOutput
  | outputCleared
deriving DecidableEq

/-- The phases in which the item is still in flight. -/
def RunPhase.hasInflight : RunPhase → Bool
  | .ended | .errorCleared | .outputCleared => false
  | _ => true

/-- A node and its executor task; `cancelEvent` is the event `node_cancellations.begin` returned,
with its flag, while it is registered. -/
structure NodeRun where
  config : RuntimeState
  phase : RunPhase := .ended
  cancelEvent : Option Bool := none
deriving DecidableEq

/-- `stop_requested` inside a run. -/
def NodeRun.stopRequested (s : NodeRun) : Bool :=
  s.cancelEvent = some true || s.config.stopRequested

/-- The calls of users and other nodes; `set_node_instance_state` resumes a node it sets to idle. -/
inductive ApiCall where
  | appendPending (item : Item)
  | cancelWork
  | setNodeInstanceState (state : NodeState)
  | markDeleteRequested
deriving DecidableEq

/-- The store operation of a call. -/
def ApiCall.op : ApiCall → StoreOp
  | .appendPending item => .appendPending item
  | .cancelWork => .cancelWork
  | .setNodeInstanceState .idle => .resume
  | .setNodeInstanceState state => .updateState state
  | .markDeleteRequested => .markDeleteRequested

/-- A step of a caller, of the scheduler or of the run. -/
inductive NodeRunAction where
  | api (call : ApiCall)
  | requestCancellation
  | recoverStale
  | dequeue
  | submit
  | begin
  | checkStop
  | setLastMessage (output : String)
  | nothingToDo
  | raiseCancelled
  | raiseOther
  | workReturns
  | finishStop
  | endCancellation
  | recordCompletion (requestId role message completedAt : String)
  | setInflightNone
  | transitionToIdle
  | persistFails
  | completeWork (heldOutput : Option HeldOutput)
deriving DecidableEq

/-- `finish_stop_requested` as the run calls it: the run ends when it returns `True`, and goes on at
`next` otherwise. -/
def NodeRun.finishStop (s : NodeRun) (next : RunPhase) : NodeRun :=
  match finishStopRequested "" s.config with
  | (true, config) => { config, phase := .ended }
  | (false, config) => { s with config, phase := next }

/-- One step.  The `finally` block of the run touches only the cancellation registry, so on the
exits that return from inside the `try` statement it belongs to the step that ends the run. -/
def NodeRun.step (typeId owner : String) (s : NodeRun) : NodeRunAction → Option NodeRun
  | .api call => some { s with config := (call.op.perform typeId s.config).next }
  | .requestCancellation => some { s with cancelEvent := s.cancelEvent.map fun _ => true }
  | .recoverStale =>
    if s.phase = .ended then some { s with config := (recoverStaleWorking typeId s.config).2 }
    else none
  | .dequeue =>
    if s.phase = .ended then
      match dequeuePendingToWorking typeId owner s.config with
      | (none, _) => none
      | (some _, config) => some { s with config, phase := .dequeued }
    else none
  | .submit => if s.phase = .dequeued then some { s with phase := .submitted } else none
  | .begin =>
    if s.phase = .submitted then some { s with phase := .begun, cancelEvent := some false }
    else none
  | .checkStop =>
    if s.phase = .begun then
      some { s with
        phase := .working
        cancelEvent := if s.config.stopRequested then some true else s.cancelEvent }
    else none
  | .setLastMessage output =>
    if s.phase = .ended then none
    else some { s with config := setLastMessage output s.config }
  -- a config without a type id, or a group notice without events
  | .nothingToDo =>
    if s.phase = .submitted ∨ s.phase = .working then
      some { s with config := setInflight none s.config, phase := .errorCleared }
    else none
  | .raiseCancelled =>
    if s.phase = .working ∧ s.stopRequested then some { s with phase := .cancelled } else none
  | .raiseOther => if s.phase = .working then some { s with phase := .failed } else none
  | .workReturns => if s.phase = .working then some { s with phase := .returned } else none
  | .finishStop =>
    match s.phase with
    -- the handler of `CancellationRequested` returns whatever `finish_stop_requested` says
    | .cancelled => some { (s.finishStop .ended) with cancelEvent := none }
    | .failed => some (s.finishStop .recordingError)
    | .returned => some (s.finishStop .leaving)
    | .left => some (s.finishStop .recordingOutput)
    | _ => none
  | .endCancellation =>
    if s.phase = .leaving then some { s with phase := .left, cancelEvent := none } else none
  | .recordCompletion requestId role message completedAt =>
    let config := recordCompletion requestId role message .idle completedAt s.config
    match s.phase with
    | .recordingError => some { s with config, phase := .clearingError }
    | .recordingOutput => some { s with config, phase := .clearingOutput }
    | _ => none
  | .setInflightNone =>
    let config := setInflight none s.config
    match s.phase with
    | .clearingError => some { s with config, phase := .errorCleared }
    | .clearingOutput => some { s with config, phase := .outputCleared }
    | _ => none
  | .transitionToIdle =>
    if s.phase = .errorCleared then some { config := transitionToIdle typeId s.config } else none
  | .persistFails => if s.phase = .outputCleared then some { config := s.config } else none
  | .completeWork heldOutput =>
    if s.phase = .outputCleared then some { config := (completeWork typeId heldOutput s.config).2.2 }
    else none

/-- A node whose run has ended has no item in flight, and when it is left working the stale recovery
returns it to idle, unless it is a clock that waits for its next tick. -/
structure EndedClean (typeId : String) (s : NodeRun) : Prop where
  inflight : s.config.inflight = none
  recovers : s.config.state = .working → ¬ clockWaiting typeId s.config →
    (recoverStaleWorking typeId s.config).2.state = .idle

def EndsClean (typeId : String) (_ : NodeRun) (_ : NodeRunAction) (s' : NodeRun) : Prop :=
  s'.phase = .ended → EndedClean typeId s'

/-- The handler of `CancellationRequested` finds `_stop_requested` still set. -/
def StopStillRequested (s : NodeRun) (a : NodeRunAction) (_ : NodeRun) : Prop :=
  a = .finishStop → s.phase = .cancelled → s.config.stopRequested = true

/-- What every step under `StopStillRequested` keeps: the item is in flight exactly in the phases
that have not cleared it. -/
def NodeRunInv (s : NodeRun) : Prop := s.config.inflight.isSome = s.phase.hasInflight

/-! ## The step lemma -/

theorem ApiCall.perform_inflight (call : ApiCall) (typeId : String) (s : RuntimeState) :
    (call.op.perform typeId s).next.inflight = s.inflight := by
  cases call with
  | appendPending item => exact (StoreOp.perform_appendPending item typeId s).1
  | cancelWork =>
    simp only [ApiCall.op, StoreOp.perform, Runtime.cancelWork]
    split
    · rfl
    split
    · rfl
    · rename_i free
      have none_inflight : s.inflight = none := by simpa using free
      rw [none_inflight]
      rfl
  | setNodeInstanceState state =>
    cases state with
    | idle =>
      rcases resume_cases s with ⟨_, nothing⟩ | ⟨seq, released⟩
      · exact congrArg (RuntimeState.inflight ∘ Prod.snd) nothing
      · exact congrArg (RuntimeState.inflight ∘ Prod.snd) released
    | working =>
      obtain ⟨state, stop, seq, result⟩ := updateState_eq .working s
      simp [ApiCall.op, StoreOp.perform, result]
    | stop =>
      obtain ⟨state, stop, seq, result⟩ := updateState_eq .stop s
      simp [ApiCall.op, StoreOp.perform, result]
  | markDeleteRequested => rfl

theorem NodeRun.finishStop_cases (s : NodeRun) (next : RunPhase) :
    (s.config.stopRequested = true ∧ (s.finishStop next).phase = .ended ∧
      (s.finishStop next).config.inflight = none) ∨
    (s.config.stopRequested = false ∧ s.finishStop next = { s with phase := next }) := by
  unfold NodeRun.finishStop finishStopRequested
  cases flag : s.config.stopRequested with
  | true => exact Or.inl ⟨rfl, rfl, rfl⟩
  | false => exact Or.inr ⟨rfl, rfl⟩

theorem endedClean_of_inflight {typeId : String} {s : NodeRun} (clear : s.config.inflight = none) :
    EndedClean typeId s := by
  refine ⟨clear, fun working waiting => ?_⟩
  rcases recoverStaleWorking_cases typeId s.config with ⟨unchanged, _⟩ | ⟨_, _, _, _, state⟩
  · simp [recoverStaleWorking, planStaleWorkingRecovery, working, waiting, clear] at unchanged
  · rw [state]
    rfl

theorem NodeRunInv.endedClean {typeId : String} {s : NodeRun} (inv : NodeRunInv s)
    (ended : s.phase = .ended) : EndedClean typeId s := by
  unfold NodeRunInv at inv
  rw [ended] at inv
  exact endedClean_of_inflight (by simpa [RunPhase.hasInflight] using inv)

theorem NodeRunInv.finishStop {s : NodeRun} {next : RunPhase} (inv : NodeRunInv s)
    (holds : s.phase.hasInflight = true) (goesOn : next.hasInflight = true) :
    NodeRunInv (s.finishStop next) := by
  unfold NodeRunInv at inv ⊢
  rcases s.finishStop_cases next with ⟨_, ended, clear⟩ | ⟨_, same⟩
  · rw [ended, clear]
    rfl
  · rw [same, inv, holds]
    exact goesOn.symm

/-- Every step under the condition keeps the invariant. -/
theorem NodeRunInv.step {typeId owner : String} {s s' : NodeRun} {a : NodeRunAction}
    (inv : NodeRunInv s) (enabled : s.step typeId owner a = some s')
    (requested : StopStillRequested s a s') : NodeRunInv s' := by
  have holds : s.config.inflight.isSome = s.phase.hasInflight := inv
  cases a with
  | api call =>
    cases enabled
    exact (congrArg Option.isSome (call.perform_inflight typeId s.config)).trans holds
  | requestCancellation =>
    cases enabled
    exact holds
  | recoverStale =>
    simp only [NodeRun.step] at enabled
    split at enabled
    · rename_i ended
      cases enabled
      rcases recoverStaleWorking_cases typeId s.config with ⟨_, same⟩ | ⟨_, _, _, _, state⟩
      · exact (congrArg (Option.isSome ∘ RuntimeState.inflight) same).trans holds
      · unfold NodeRunInv
        rw [state, ended]
        rfl
    · cases enabled
  | dequeue =>
    simp only [NodeRun.step] at enabled
    split at enabled
    · rcases dequeuePendingToWorking_cases typeId owner s.config with
        nothing | ⟨item, rest, _, _, _, picked⟩
      · rw [nothing] at enabled
        cases enabled
      · rw [picked] at enabled
        cases enabled
        rfl
    · cases enabled
  | submit | begin | checkStop | raiseOther | workReturns | endCancellation | persistFails =>
    simp only [NodeRun.step] at enabled
    split at enabled
    · rename_i phase
      cases enabled
      exact holds.trans (by rw [phase]; rfl)
    · cases enabled
  | setLastMessage output =>
    simp only [NodeRun.step] at enabled
    split at enabled
    · cases enabled
    · cases enabled
      exact holds
  | nothingToDo =>
    simp only [NodeRun.step] at enabled
    split at enabled
    · cases enabled
      rfl
    · cases enabled
  | raiseCancelled =>
    simp only [NodeRun.step] at enabled
    split at enabled
    · rename_i phase
      cases enabled
      exact holds.trans (by rw [phase.1]; rfl)
    · cases enabled
  | finishStop =>
    simp only [NodeRun.step] at enabled
    split at enabled
    · rename_i phase
      cases enabled
      -- this exit clears the item only through `finish_stop_requested`
      rcases s.finishStop_cases .ended with ⟨_, ended, clear⟩ | ⟨gone, _⟩
      · unfold NodeRunInv
        rw [ended, clear]
        rfl
      · rw [requested rfl phase] at gone
        cases gone
    · rename_i phase
      cases enabled
      exact inv.finishStop (by rw [phase]; rfl) rfl
    · rename_i phase
      cases enabled
      exact inv.finishStop (by rw [phase]; rfl) rfl
    · rename_i phase
      cases enabled
      exact inv.finishStop (by rw [phase]; rfl) rfl
    · cases enabled
  | recordCompletion requestId role message completedAt =>
    have kept : (recordCompletion requestId role message .idle completedAt s.config).inflight =
        s.config.inflight := by
      unfold recordCompletion
      simp only
      split <;> rfl
    simp only [NodeRun.step] at enabled
    split at enabled
    · rename_i phase
      cases enabled
      exact (congrArg Option.isSome kept).trans (holds.trans (by rw [phase]; rfl))
    · rename_i phase
      cases enabled
      exact (congrArg Option.isSome kept).trans (holds.trans (by rw [phase]; rfl))
    · cases enabled
  | setInflightNone =>
    simp only [NodeRun.step] at enabled
    split at enabled
    · cases enabled
      rfl
    · cases enabled
      rfl
    · cases enabled
  | transitionToIdle =>
    simp only [NodeRun.step] at enabled
    split at enabled
    · rename_i phase
      cases enabled
      have clear := holds.trans (congrArg RunPhase.hasInflight phase)
      exact (congrArg Option.isSome (transitionToIdle_inflight typeId s.config)).trans clear
    · cases enabled
  | completeWork heldOutput =>
    simp only [NodeRun.step] at enabled
    split at enabled
    · rename_i phase
      cases enabled
      have clear := holds.trans (congrArg RunPhase.hasInflight phase)
      exact (congrArg Option.isSome (completeWork_inflight typeId heldOutput s.config)).trans clear
    · cases enabled

/-! ## Runs -/

/-- From a node with no task and no item in flight, every end of a run is clean, in every
interleaving with the calls of users, exactly when each cancelled exit finds `_stop_requested` still
set. -/
theorem nodeRun_endsClean_iff (typeId owner : String) (config : RuntimeState)
    (quiet : config.inflight = none) (actions : List NodeRunAction) :
    Along (NodeRun.step typeId owner) (EndsClean typeId) { config } actions ↔
      Along (NodeRun.step typeId owner) StopStillRequested { config } actions := by
  refine along_iff_of_invariant (I := NodeRunInv) ?_ ?_ (by rw [NodeRunInv, quiet]; rfl)
  · intro s a s' inv enabled
    refine ⟨fun clean isFinish phase => ?_,
      fun requested ended => (inv.step enabled requested).endedClean ended⟩
    subst isFinish
    simp only [NodeRun.step, phase, Option.some.injEq] at enabled
    rcases s.finishStop_cases .ended with ⟨flag, _⟩ | ⟨_, same⟩
    · exact flag
    · rw [same] at enabled
      subst enabled
      -- the run has ended and the item is where it was
      have clear := (clean rfl).inflight
      have holds : s.config.inflight.isSome = s.phase.hasInflight := inv
      rw [phase] at holds
      rw [show s.config.inflight = none from clear] at holds
      cases holds
  · exact fun s a s' inv enabled requested => inv.step enabled requested

/-- A run is stopped and the node is resumed before the run notices. -/
def resumedWhileStopping : List NodeRunAction :=
  [.api (.appendPending { payload := "work" }), .dequeue, .submit, .begin, .checkStop,
    .api .cancelWork, .requestCancellation, .api (.setNodeInstanceState .idle), .raiseCancelled]

/-- The run ends and its item stays in flight. -/
theorem nodeRun_leaves_inflight :
    ¬ ∀ (typeId owner : String) (config : RuntimeState), config.inflight = none →
      ∀ actions : List NodeRunAction,
      Along (NodeRun.step typeId owner) (EndsClean typeId) { config } actions := by
  intro clean
  have along := clean "agent_node" "" {} rfl (resumedWhileStopping ++ [.finishStop])
  exact absurd (along.last rfl rfl rfl).inflight (by decide)

/-- The same run, stopped and not resumed. -/
theorem nodeRun_endsClean_stopped :
    Along (NodeRun.step "agent_node" "") (EndsClean "agent_node") { config := {} }
      ([.api (.appendPending { payload := "work" }), .dequeue, .submit, .begin, .checkStop,
        .api .cancelWork, .requestCancellation, .raiseCancelled] ++ [.finishStop]) := by
  refine (nodeRun_endsClean_iff "agent_node" "" {} rfl _).mpr ?_
  refine along_append ?_ fun m ran => ?_
  · refine (along_of_forall_mem (p := (· ≠ .finishStop)) (by simp)).mono ?_
    exact fun _ _ _ other isFinish => absurd isFinish other
  · cases ran
    exact fun s' _ => ⟨fun _ _ => rfl, along_nil s'⟩

end AgentPark.Runtime
