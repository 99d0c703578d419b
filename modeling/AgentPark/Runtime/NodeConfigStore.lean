import AgentPark.Runtime.State

/-!
# The operations of the node stores

Every function here is the `mutate` callback one method of `NodeConfigStore` or
`NodeOutputHoldStore` passes to `RuntimeStateMemoryStore.update`: a function of the runtime state
that returns what the method returns and the next state.  The store runs it under the lock of the
node, so one call is one atomic step.

`Runtime/StoreOp.lean` collects them in one type, for the systems that interleave them.
-/

namespace AgentPark.Runtime

open Lib

/-- `CLOCK` type id the state machine special-cases. -/
def clockNode : String := "clock_node"

/-- `REQUEST_HISTORY_LIMIT`. -/
def requestHistoryLimit : Nat := 20

/-- `NodeDeletingError`. -/
inductive StoreError where
  | nodeDeleting
deriving DecidableEq

/-! ## State changes -/

/-- Set the state, bumping the sequence number when the state changes; `update_state`,
`transition_to_idle` and `complete_work` all write the state this way. -/
def RuntimeState.enter (next : NodeState) (s : RuntimeState) : RuntimeState :=
  { if s.state ≠ next then s.bump else s with state := next }

section Enter

variable (next : NodeState) (s : RuntimeState)

@[simp] theorem RuntimeState.enter_state : (s.enter next).state = next := rfl

@[simp] theorem RuntimeState.enter_pending : (s.enter next).pending = s.pending := by
  unfold RuntimeState.enter; split <;> rfl

@[simp] theorem RuntimeState.enter_inflight : (s.enter next).inflight = s.inflight := by
  unfold RuntimeState.enter; split <;> rfl

@[simp] theorem RuntimeState.enter_heldOutputs : (s.enter next).heldOutputs = s.heldOutputs := by
  unfold RuntimeState.enter; split <;> rfl

@[simp] theorem RuntimeState.enter_deleteRequested :
    (s.enter next).deleteRequested = s.deleteRequested := by
  unfold RuntimeState.enter; split <;> rfl

@[simp] theorem RuntimeState.enter_clockRunning : (s.enter next).clockRunning = s.clockRunning := by
  unfold RuntimeState.enter; split <;> rfl

@[simp] theorem RuntimeState.enter_completedRequests :
    (s.enter next).completedRequests = s.completedRequests := by
  unfold RuntimeState.enter; split <;> rfl

@[simp] theorem RuntimeState.enter_lastCompletedRequest :
    (s.enter next).lastCompletedRequest = s.lastCompletedRequest := by
  unfold RuntimeState.enter; split <;> rfl

theorem RuntimeState.le_enter_nodeEventSeq : s.nodeEventSeq ≤ (s.enter next).nodeEventSeq := by
  unfold RuntimeState.enter; split <;> simp

theorem RuntimeState.enter_eq :
    ∃ seq, s.enter next = { s with state := next, nodeEventSeq := seq } := by
  unfold RuntimeState.enter
  split
  · exact ⟨s.nodeEventSeq + 1, rfl⟩
  · exact ⟨s.nodeEventSeq, rfl⟩

end Enter

/-- `update_state`. -/
def updateState (next : NodeState) (s : RuntimeState) : RuntimeState :=
  if s.deleteRequested then s
  else
    { s.enter next with stopRequested := if next = .working then s.stopRequested else false }

/-- `transition_to_idle`. -/
def transitionToIdle (typeId : String) (s : RuntimeState) : RuntimeState :=
  if s.deleteRequested then { s.enter .stop with stopRequested := false }
  else if s.state = .stop then s
  else if typeId = clockNode ∧ s.clockRunning then s.enter .working
  else { s.enter .idle with stopRequested := false }

/-! ## The queue -/

/-- The four places `append_pending` looks an idempotency key up in: the queue, the item in flight,
the request history and the last completed request. -/
def RuntimeState.knowsKey (s : RuntimeState) (key : String) : Bool :=
  s.pending.any (fun existing => pyStrip existing.idempotencyKey = key) ||
    s.inflight.any (fun item => pyStrip item.idempotencyKey = key) ||
    s.completedRequests.any (fun existing => pyStrip existing.requestId = key) ||
    s.lastCompletedRequest.any (fun existing => pyStrip existing.requestId = key)

/-- `append_pending`: whether the item was appended, and the next state. -/
def appendPending (item : Item) (s : RuntimeState) : Except StoreError (Bool × RuntimeState) :=
  if s.deleteRequested then .error .nodeDeleting
  else if pyStrip item.idempotencyKey ≠ "" ∧ s.knowsKey (pyStrip item.idempotencyKey) then
    .ok (false, s)
  else .ok (true, { s with pending := s.pending ++ [item] }.bump)

/-- `pop_pending`. -/
def popPending (s : RuntimeState) : Option Item × RuntimeState :=
  match s.pending with
  | [] => (none, s)
  | item :: rest => (some item, { s with pending := rest }.bump)

/-- The item `dequeue_pending_to_working` picks for an owner, and the queue without it: the first
one that has no owner or the same one. -/
def pickPending (owner : String) : List Item → Option (Item × List Item)
  | [] => none
  | candidate :: rest =>
    if owner = "" ∨ pyStrip candidate.runtimeOwnerId = "" ∨
        pyStrip candidate.runtimeOwnerId = owner then
      some (candidate, rest)
    else (pickPending owner rest).map fun (picked, left) => (picked, candidate :: left)

/-- A clock node that waits for its next tick counts as ready. -/
def clockWaiting (typeId : String) (s : RuntimeState) : Prop :=
  s.state = .working ∧ typeId = clockNode ∧ s.clockRunning ∧ s.inflight = none

instance (typeId : String) (s : RuntimeState) : Decidable (clockWaiting typeId s) :=
  inferInstanceAs (Decidable (_ ∧ _ ∧ _ ∧ _))

/-- `dequeue_pending_to_working`. -/
def dequeuePendingToWorking (typeId owner : String) (s : RuntimeState) :
    Option Item × RuntimeState :=
  if s.deleteRequested then (none, s)
  else if s.state ≠ .idle ∧ ¬ clockWaiting typeId s then (none, s)
  else
    match pickPending (pyStrip owner) s.pending with
    | none => (none, s)
    | some (item, rest) =>
      (some item,
        { s with pending := rest, inflight := some item, state := .working }.bump)

/-- `_is_mid_turn_user_input_item`. -/
def isMidTurnUserInputItem (item : Item) (nodeId : String) : Bool :=
  pyStrip item.source = "emit" && item.depth = 0 && pyStrip item.linkId = "" &&
    !(nodeId ≠ "" && pyStrip item.fromNode ≠ "" && pyStrip item.fromNode ≠ nodeId) &&
    item.payloadRole.any fun role => pyLower (pyStrip role) = "user"

/-- Split a queue into the first `budget` mid-turn inputs and what remains. -/
def takeMidTurn (nodeId : String) : Nat → List Item → List Item × List Item
  | _, [] => ([], [])
  | budget, item :: rest =>
    if 0 < budget ∧ isMidTurnUserInputItem item nodeId then
      let (consumed, remaining) := takeMidTurn nodeId (budget - 1) rest
      (item :: consumed, remaining)
    else
      let (consumed, remaining) := takeMidTurn nodeId budget rest
      (consumed, item :: remaining)

/-- `max(1, int(limit or 16))`. -/
def midTurnBudget (limit : Int) : Nat := max 1 (if limit = 0 then 16 else limit.toNat)

/-- `consume_mid_turn_user_inputs`.  The node id is read from the runtime payload, which never holds
one, so the sender check of `_is_mid_turn_user_input_item` gets the empty id. -/
def consumeMidTurnUserInputs (limit : Int) (s : RuntimeState) : List Item × RuntimeState :=
  if s.deleteRequested ∨ s.stopRequested then ([], s)
  else if s.state ≠ .working then ([], s)
  else if s.inflight = none then ([], s)
  else
    let (consumed, remaining) := takeMidTurn "" (midTurnBudget limit) s.pending
    if remaining.length = s.pending.length then ([], s)
    else (consumed, { s with pending := remaining }.bump)

/-! ## Stopping, deleting and finishing -/

/-- What `cancel_work` and `mark_delete_requested` report. -/
structure CancelResult where
  clearedPending : Nat := 0
  clearedInflight : Bool := false
  state : NodeState
deriving DecidableEq

/-- `cancel_work`. -/
def cancelWork (s : RuntimeState) : CancelResult × RuntimeState :=
  if s.deleteRequested then ({ state := s.state }, s)
  else if s.inflight.isSome then
    ({ clearedPending := s.pendingCount, clearedInflight := true, state := .working },
      { s with
        pending := []
        state := .working
        stopRequested := true
        lastMessage := "Stop requested. Cancelling active work." }.bump)
  else
    ({ clearedPending := s.pendingCount, state := .idle },
      { s with
        pending := []
        inflight := none
        stopRequested := false
        state := .idle
        lastMessage := "Stopped. Pending work cleared." }.bump)

/-- `finish_stop_requested`. -/
def finishStopRequested (message : String) (s : RuntimeState) : Bool × RuntimeState :=
  if s.stopRequested then
    (true,
      { s with
        inflight := none
        stopRequested := false
        state := .idle
        lastMessage := if message = "" then "Stopped." else message }.bump)
  else (false, s)

/-- `mark_delete_requested`. -/
def markDeleteRequested (s : RuntimeState) : CancelResult × RuntimeState :=
  let state : NodeState := if s.inflight.isSome then .working else .stop
  ({ clearedPending := s.pendingCount, clearedInflight := s.inflight.isSome, state },
    { s with
      pending := []
      deleteRequested := true
      lastMessage := "Delete requested. Cancelling active work."
      stopRequested := s.inflight.isSome
      state }.bump)

/-- `set_inflight`. -/
def setInflight (item : Option Item) (s : RuntimeState) : RuntimeState :=
  { s with inflight := item }.bump

/-- `set_last_message`. -/
def setLastMessage (output : String) (s : RuntimeState) : RuntimeState :=
  { s with lastMessage := output }.bump

/-- `NodeRecoveryPlan`, with the fields `plan_stale_working_recovery` fills. -/
structure NodeRecoveryPlan where
  changed : Bool
  reason : String := ""
  afterState : NodeState := .idle
  clearInflight : Bool := false
  pendingCount : Nat := 0
deriving DecidableEq

/-- `plan_stale_working_recovery`. -/
def planStaleWorkingRecovery (typeId : String) (s : RuntimeState) : NodeRecoveryPlan :=
  if s.state ≠ .working then
    { changed := false, afterState := s.state, pendingCount := s.pendingCount }
  else if clockWaiting typeId s then
    { changed := false, reason := "clock_waiting", afterState := .working,
      pendingCount := s.pendingCount }
  else if s.inflight.isSome then
    { changed := false, reason := "active_inflight", afterState := .working,
      pendingCount := s.pendingCount }
  else
    { changed := true, reason := "missing_inflight", afterState := .idle, clearInflight := true,
      pendingCount := s.pendingCount }

/-- `apply_recovery_plan`. -/
def applyRecoveryPlan (plan : NodeRecoveryPlan) (s : RuntimeState) : RuntimeState :=
  if plan.changed then
    { s with
      inflight := if plan.clearInflight then none else s.inflight
      stopRequested := false
      state := plan.afterState }
  else s

/-- `recover_stale_working`. -/
def recoverStaleWorking (typeId : String) (s : RuntimeState) : NodeRecoveryPlan × RuntimeState :=
  let plan := planStaleWorkingRecovery typeId s
  (plan, if plan.changed then (applyRecoveryPlan plan s).bump else s)

/-! ## Completed requests and held outputs -/

/-- The `mutate` of `record_node_request_completion`: the record replaces an older one of the same
request and only the newest `REQUEST_HISTORY_LIMIT` stay. -/
def recordCompletion (requestId role message : String) (state : NodeState) (completedAt : String)
    (s : RuntimeState) : RuntimeState :=
  let requestId := pyStrip requestId
  if requestId = "" then s
  else
    let role := pyLower (pyStrip (if role = "" then "assistant" else role))
    let record : CompletedRequest :=
      { requestId, role := if role = "" then "assistant" else role, message, state,
        nodeEventSeq := s.nodeEventSeq, completedAt }
    let history := s.completedRequests.filter (fun item => item.requestId ≠ requestId) ++ [record]
    { s with
      completedRequests := history.drop (history.length - requestHistoryLimit)
      lastCompletedRequest := some record }

/-- The state `complete_work` leaves a node in. -/
def completedState (typeId : String) (s : RuntimeState) : NodeState :=
  if s.deleteRequested then .stop
  else if s.state = .stop then .stop
  else if typeId = clockNode ∧ s.clockRunning then .working
  else .idle

/-- `NodeOutputHoldStore.complete_work` for a `held_output` that is not empty (`some`) or is the
empty dictionary (`none`): the final state, the number of held outputs, the next state. -/
def completeWork (typeId : String) (heldOutput : Option HeldOutput) (s : RuntimeState) :
    NodeState × Nat × RuntimeState :=
  let finalState := completedState typeId s
  let s := { s.enter finalState with stopRequested := false }
  match finalState, heldOutput with
  | .stop, some output =>
    let heldOutputs := s.heldOutputs ++ [output]
    (.stop, heldOutputs.length, { s with heldOutputs }.bump)
  | finalState, _ => (finalState, 0, s)

/-- `NodeOutputHoldStore.resume`. -/
def resume (s : RuntimeState) : List HeldOutput × RuntimeState :=
  if s.deleteRequested then ([], s)
  else
    let released := s.heldOutputs
    let s := { s with heldOutputs := [] }
    let s := if s.state ≠ .idle ∨ released ≠ [] then s.bump else s
    (released, { s with state := .idle, stopRequested := false })

end AgentPark.Runtime
