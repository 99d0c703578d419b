import AgentPark.Lib.PyText

/-!
# The runtime state of a node

`RuntimeStateMemoryStore` keeps one record of runtime fields per node (`RUNTIME_STATE_FIELDS`).
`RuntimeState` holds the fields the queue, the runner and the pause logic read and write.  An
absent field has the value the readers give it: no `pending` is the empty list, no `_stop_requested`
is false, no `node_event_seq` is 0.  `pending_count` is the length of `pending` after every
normalisation, so it is a function here.
-/

namespace AgentPark.Runtime

open Lib

/-- `NODE_STATES`. -/
inductive NodeState where
  | idle
  | working
  | stop
deriving DecidableEq

/-- `parse_node_state` on a string. -/
def parseNodeState (value : String) : NodeState :=
  let candidate := pyLower (pyStrip value)
  if candidate = "running" then .working
  else if candidate = "working" then .working
  else if candidate = "stop" then .stop
  else .idle

/-- The `_access_*` fields a message carries through the graph. -/
structure AccessMetadata where
  clientId : String := ""
  username : String := ""
  role : String := ""
  ip : String := ""
deriving DecidableEq

/-- A queue item.  A missing text field is the empty string, as the readers treat it;
`payloadRole` is the role of the payload, `none` when the payload is not an object. -/
structure Item where
  idempotencyKey : String := ""
  traceId : String := ""
  source : String := ""
  depth : Int := 0
  linkId : String := ""
  fromNode : String := ""
  runtimeOwnerId : String := ""
  fromOutputIndex : Nat := 0
  toInputIndex : Nat := 0
  visited : List String := []
  access : AccessMetadata := {}
  payloadRole : Option String := none
  payload : String := ""
deriving DecidableEq

/-- One message a finished run wants to send along a link. -/
structure PropagationTask where
  targetGraphId : String := ""
  target : String
  fromNode : String := ""
  routeOutputIndex : Nat := 0
  toInputIndex : Nat := 0
  nextDepth : Int := 0
  routeRole : String := "assistant"
  routePayload : String := ""
  linkId : String := ""
  nextVisited : Option (List String) := none
  source : String := ""
  access : AccessMetadata := {}
deriving DecidableEq

/-- The dictionary `_run_single_node_iteration` passes to `complete_work`. -/
structure HeldOutput where
  traceId : String
  fromNode : String
  nextVisited : List String
  tasks : List PropagationTask
deriving DecidableEq

/-- An entry of `completed_requests`. -/
structure CompletedRequest where
  requestId : String
  role : String
  message : String
  state : NodeState
  nodeEventSeq : Nat
  completedAt : String
deriving DecidableEq

/-- The runtime fields of a node. -/
structure RuntimeState where
  state : NodeState := .idle
  pending : List Item := []
  heldOutputs : List HeldOutput := []
  inflight : Option Item := none
  stopRequested : Bool := false
  deleteRequested : Bool := false
  nodeEventSeq : Nat := 0
  lastMessage : String := ""
  completedRequests : List CompletedRequest := []
  lastCompletedRequest : Option CompletedRequest := none
  clockRunning : Bool := false
deriving DecidableEq

/-- `pending_count`, which every normalisation sets to the length of `pending`. -/
def RuntimeState.pendingCount (s : RuntimeState) : Nat := s.pending.length

/-- `bump_node_event_seq`. -/
def RuntimeState.bump (s : RuntimeState) : RuntimeState :=
  { s with nodeEventSeq := s.nodeEventSeq + 1 }

section Bump

variable (s : RuntimeState)

@[simp] theorem RuntimeState.bump_state : s.bump.state = s.state := rfl
@[simp] theorem RuntimeState.bump_pending : s.bump.pending = s.pending := rfl
@[simp] theorem RuntimeState.bump_heldOutputs : s.bump.heldOutputs = s.heldOutputs := rfl
@[simp] theorem RuntimeState.bump_inflight : s.bump.inflight = s.inflight := rfl
@[simp] theorem RuntimeState.bump_stopRequested : s.bump.stopRequested = s.stopRequested := rfl
@[simp] theorem RuntimeState.bump_deleteRequested :
    s.bump.deleteRequested = s.deleteRequested := rfl
@[simp] theorem RuntimeState.bump_nodeEventSeq : s.bump.nodeEventSeq = s.nodeEventSeq + 1 := rfl
@[simp] theorem RuntimeState.bump_completedRequests :
    s.bump.completedRequests = s.completedRequests := rfl
@[simp] theorem RuntimeState.bump_lastCompletedRequest :
    s.bump.lastCompletedRequest = s.lastCompletedRequest := rfl
@[simp] theorem RuntimeState.bump_clockRunning : s.bump.clockRunning = s.clockRunning := rfl

end Bump

end AgentPark.Runtime
