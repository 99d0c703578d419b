import AgentPark.Lib.Dict
import AgentPark.Lib.Execution
import AgentPark.Lib.PyText
import Mathlib.Logic.Function.Basic

/-!
# Recovering running nodes after a restart

Before a restart the coordinator writes for each working node a checkpoint of its runtime state and a
tag that names the checkpoint.  The next process claims the tags and puts the interrupted items back
into the pending lists; when a node has run its item, the tag is completed and removed.  The files
stay over a crash, the runtime states do not.
-/

namespace AgentPark.Restart

open Lib

/-! ### Names -/

structure Node where
  graphId : String
  nodeId : String
deriving DecidableEq

/-- The class `[\x00-\x1f<>:"/\\|?*]`. -/
def isUnsafeChar (c : Char) : Bool :=
  c.toNat < 32 || c ∈ ['<', '>', ':', '"', '/', '\\', '|', '?', '*']

/-- `_filename_component`; `none` is the error of an empty component. -/
def filenameComponent (value : String) : Option String :=
  let text := (pyStrip value).toList.map fun c => if isUnsafeChar c then '_' else c
  let safe := stripList pyIsSpace (text.reverse.dropWhile fun c => c = '.' ∨ c = ' ').reverse
  if safe = [] then none else some (String.ofList safe)

/-- The name of the file of `_tag_path`. -/
def tagName (node : Node) : Option String := do
  let graphId ← filenameComponent node.graphId
  let nodeId ← filenameComponent node.nodeId
  return graphId ++ "_" ++ nodeId ++ ".json"

/-! ### Runtime states and files -/

/-- An item of a pending list, with its `_runtime_owner_id` and the restart id of its
`_restart_recovery`. -/
structure Item where
  payload : Nat
  owner : Option Nat
  recovery : Option Nat
deriving DecidableEq

inductive NodeState where
  | idle
  | working
  | stop
deriving DecidableEq

/-- The runtime state of a node, which is empty when a process starts. -/
structure Runtime where
  state : NodeState := .idle
  inflight : Option Item := none
  pending : List Item := []
  nodeEventSeq : Nat := 0
deriving DecidableEq

structure Checkpoint where
  restartId : Nat
  node : Node
  inflight : Item
  pending : List Item
  nodeEventSeq : Nat
deriving DecidableEq

def buildRestartCheckpoint (restartId : Nat) (node : Node) (inflight : Item) (snapshot : Runtime) :
    Checkpoint where
  restartId
  node
  inflight := { inflight with owner := none, recovery := none }
  pending := snapshot.pending.map fun item => { item with owner := none }
  nodeEventSeq := snapshot.nodeEventSeq

inductive TagStatus where
  | pending
  | claimed (owner : Nat)
  | completed
deriving DecidableEq

/-- The name of the file of `_state_path`: the restart id in front of the name of the tag. -/
structure StatePath where
  restartId : Nat
  name : String
deriving DecidableEq

structure Tag where
  restartId : Nat
  node : Node
  status : TagStatus
  statePath : StatePath
deriving DecidableEq

/-- The restart directory. -/
structure Files where
  tags : List (String × Tag) := []
  states : List (StatePath × Checkpoint) := []
deriving DecidableEq

def Files.setTag (files : Files) (name : String) (tag : Tag) : Files :=
  { files with tags := dictSet files.tags name tag }

def Files.eraseTag (files : Files) (name : String) : Files :=
  { files with tags := dictErase files.tags name }

def Files.setState (files : Files) (path : StatePath) (checkpoint : Checkpoint) : Files :=
  { files with states := dictSet files.states path checkpoint }

def Files.eraseState (files : Files) (path : StatePath) : Files :=
  { files with states := dictErase files.states path }

/-- A node that `capture_running_nodes` is going to write. -/
structure Prepared where
  name : String
  checkpoint : Checkpoint
  tag : Tag
  previousTag : Option Tag
deriving DecidableEq

inductive Preparation where
  | skipped
  | unsafe_
  | raised
  | prepared (item : Prepared)

/-- A turn of the first loop of `_capture_running_nodes_locked`. -/
def prepare (isClock : Node → Bool) (files : Files) (restartId : Nat) (node : Node) (snapshot : Runtime) :
    Preparation :=
  if snapshot.state ≠ .working then .skipped
  else
    match snapshot.inflight with
    | none => if isClock node then .skipped else .unsafe_
    | some inflight =>
      match tagName node with
      | none => .raised
      | some name =>
        let previousTag := files.tags.lookup name
        -- `_require_tag_identity`
        if ∃ previous ∈ previousTag, previous.node ≠ node then .raised
        else .prepared {
          name
          checkpoint := buildRestartCheckpoint restartId node inflight snapshot
          tag := { restartId, node, status := .pending, statePath := { restartId, name } }
          previousTag }

/-! ### The coordinator -/

/-- What is enqueued and completed, the last one first. -/
inductive Event where
  | enqueued (owner restartId : Nat) (node : Node)
  | completed (restartId : Nat) (node : Node)
deriving DecidableEq

/-- What a `recover_pending_nodes` has found of a node, and what has happened to the node since: the
items that have arrived, those that a runner has taken, and those that were put back. -/
structure Since where
  start : List Item := []
  arrived : List Item := []
  served : List Item := []
  restored : Option (List Item) := none
deriving DecidableEq

/-- The loop of `_recover_pending_nodes_locked`.  `before` are the files at its start. -/
structure Loop where
  before : Files
  names : List String
  failed : Bool
deriving DecidableEq

def Loop.fail (loop : Loop) : Loop := { loop with failed := true }

/-- A call of `_claim_and_enqueue`, with the runtime state of the node that it has read. -/
structure Claim where
  name : String
  tag : Tag
  checkpoint : Checkpoint
  current : Runtime
deriving DecidableEq

/-- Where the holder of the lock is.  In `writing` the items that are done come last first. -/
inductive Phase where
  | idle
  | preparing (restartId : Nat) (remaining : List Node) (prepared : List Prepared) (unsafe_ : Bool)
  | writing (before : Files) (todo finished : List Prepared) (stateWritten : Bool)
  | undoing (before : Files) (items : List Prepared) (tagUndone : Bool)
  | cleaning (before : Files) (all todo : List Prepared)
  | captured (before : Files) (result : Option (List Prepared))
  | visiting (loop : Loop)
  | dropping (loop : Loop) (name : String) (tag : Tag) (stateRemoved : Bool)
  | claiming (loop : Loop) (claim : Claim)
  | restoring (loop : Loop) (claim : Claim)
  | waking (loop : Loop) (claim : Claim)
  | reverting (loop : Loop) (claim : Claim) (restored : Bool)
  | retrying (loop : Loop) (claim : Claim)
  | recovered (loop : Loop)
  | marking (name : String) (tag : Tag)
  | removingState (name : String) (tag : Tag)
  | removingTag (name : String) (tag : Tag)
deriving DecidableEq

/-- The restart directory, and the process that runs, with its nodes.  `snapshots` are the runtime
states that the last `capture_running_nodes` has read. -/
structure System where
  owner : Nat := 0
  nextRestartId : Nat := 0
  files : Files := {}
  runtime : Node → Runtime := fun _ => {}
  snapshots : Node → Runtime := fun _ => {}
  since : Node → Since := fun _ => {}
  events : List Event := []
  phase : Phase := .idle

/-- A step of a node: its runtime state is another one. -/
def System.setRuntime (s : System) (node : Node) (runtime : Runtime) (since : Since) : System :=
  { s with
    runtime := Function.update s.runtime node runtime
    since := Function.update s.since node since }

/-- A step of the coordinator that does file operations only. -/
def System.go (s : System) (files : Files) (phase : Phase) : System := { s with files, phase }

/-- `runtime_state_memory_store.snapshot` of a node in `_capture_running_nodes_locked`. -/
def System.readSnapshot (s : System) (node : Node) : System :=
  { s with snapshots := Function.update s.snapshots node (s.runtime node) }

/-- The items of a checkpoint as they are put back. -/
def restoredItems (owner : Nat) (tag : Tag) (checkpoint : Checkpoint) : List Item :=
  { checkpoint.inflight with owner := some owner, recovery := some tag.restartId } ::
    checkpoint.pending.map fun item => { item with owner := some owner }

/-- The runtime state that `restore` leaves. -/
def restoredRuntime (owner : Nat) (claim : Claim) : Runtime where
  state := .idle
  inflight := none
  pending := restoredItems owner claim.tag claim.checkpoint ++ claim.current.pending
  nodeEventSeq := max claim.checkpoint.nodeEventSeq claim.current.nodeEventSeq + 1

/-- A turn of the loop of `_recover_pending_nodes_locked`, up to the first write. -/
def visit (nodes : List Node) (s : System) (name : String) (loop : Loop) : Phase :=
  match s.files.tags.lookup name with
  | none => .visiting loop.fail
  | some tag =>
    if tagName tag.node ≠ some name then .visiting loop.fail
    else if tag.status = .completed then .dropping loop name tag false
    else if tag.status = .claimed s.owner then .visiting loop
    else
      match s.files.states.lookup tag.statePath with
      | none => .visiting loop.fail
      | some checkpoint =>
        if checkpoint.restartId ≠ tag.restartId ∨ checkpoint.node ≠ tag.node then
          .visiting loop.fail
        else if tag.node ∉ nodes then .visiting loop.fail
        else
          let current := s.runtime tag.node
          if current.state ≠ .idle ∨ current.inflight ≠ none then .visiting loop.fail
          else .claiming loop { name, tag, checkpoint, current }

/-- The next step of the holder of the lock.  `fails`: what it does raises. -/
def advanceStep (nodes : List Node) (isClock : Node → Bool) (s : System) (fails : Bool) : Option System :=
  match s.phase with
  | .preparing restartId remaining prepared unsafe_ =>
    if fails then some (s.go s.files (.captured s.files none))
    else
      match remaining with
      | [] =>
        if unsafe_ then some (s.go s.files (.captured s.files none))
        else some (s.go s.files (.writing s.files prepared [] false))
      | node :: remaining =>
        let s := s.readSnapshot node
        match prepare isClock s.files restartId node (s.snapshots node) with
        | .skipped => some (s.go s.files (.preparing restartId remaining prepared unsafe_))
        | .unsafe_ => some (s.go s.files (.preparing restartId remaining prepared true))
        | .raised => some (s.go s.files (.captured s.files none))
        | .prepared item =>
          some (s.go s.files (.preparing restartId remaining (prepared ++ [item]) unsafe_))
  | .writing before [] finished _ =>
    some (s.go s.files (.cleaning before finished.reverse finished.reverse))
  | .writing before (item :: todo) finished stateWritten =>
    if fails then some (s.go s.files (.undoing before (item :: finished) false))
    else if stateWritten then
      some (s.go (s.files.setTag item.name item.tag) (.writing before todo (item :: finished) false))
    else
      some (s.go (s.files.setState item.tag.statePath item.checkpoint)
        (.writing before (item :: todo) finished true))
  | .undoing before [] _ => some (s.go s.files (.captured before none))
  | .undoing before (item :: items) tagUndone =>
    if fails then some (s.go s.files (.captured before none))
    else if tagUndone then
      some (s.go (s.files.eraseState item.tag.statePath) (.undoing before items false))
    else
      some (s.go
        (match item.previousTag with
          | some previous => s.files.setTag item.name previous
          | none => s.files.eraseTag item.name)
        (.undoing before (item :: items) true))
  | .cleaning before all [] => some (s.go s.files (.captured before (some all)))
  | .cleaning before all (item :: todo) =>
    match item.previousTag with
    | none => some (s.go s.files (.cleaning before all todo))
    | some previous =>
      if previous.statePath = item.tag.statePath then some (s.go s.files (.cleaning before all todo))
      else if fails then some (s.go s.files (.captured before none))
      else some (s.go (s.files.eraseState previous.statePath) (.cleaning before all todo))
  | .visiting loop =>
    match loop.names with
    | [] => some (s.go s.files (.recovered loop))
    | name :: names =>
      let loop := { loop with names }
      some (s.go s.files (if fails then .visiting loop.fail else visit nodes s name loop))
  | .dropping loop name tag stateRemoved =>
    if fails then some (s.go s.files (.visiting loop.fail))
    else if stateRemoved then some (s.go (s.files.eraseTag name) (.visiting loop))
    else some (s.go (s.files.eraseState tag.statePath) (.dropping loop name tag true))
  | .claiming loop claim =>
    if fails then some (s.go s.files (.visiting loop.fail))
    else
      some (s.go (s.files.setTag claim.name { claim.tag with status := .claimed s.owner })
        (.restoring loop claim))
  | .restoring loop claim =>
    if fails then some (s.go s.files (.reverting loop claim false))
    else
      some ({ s with
        events := .enqueued s.owner claim.tag.restartId claim.tag.node :: s.events
        phase := .waking loop claim }.setRuntime claim.tag.node
          (restoredRuntime s.owner claim)
          { s.since claim.tag.node with
            restored := some (restoredItems s.owner claim.tag claim.checkpoint) })
  | .waking loop claim =>
    -- The graph runner is woken and the event is logged.
    if fails then some (s.go s.files (.reverting loop claim true))
    else some (s.go s.files (.visiting loop))
  | .reverting loop claim _ =>
    some ({ s with
      events := s.events.filter fun event =>
        event ≠ Event.enqueued s.owner claim.tag.restartId claim.tag.node
      phase := .retrying loop claim }.setRuntime claim.tag.node claim.current
        { s.since claim.tag.node with restored := none })
  | .retrying loop claim =>
    some (s.go
      (if fails then s.files else s.files.setTag claim.name { claim.tag with status := .pending })
      (.visiting loop.fail))
  | .marking name tag =>
    if fails then some (s.go s.files .idle)
    else
      some { s with
        files := s.files.setTag name { tag with status := .completed }
        events := .completed tag.restartId tag.node :: s.events
        phase := .removingState name tag }
  | .removingState name tag =>
    if fails then some (s.go s.files .idle)
    else some (s.go (s.files.eraseState tag.statePath) (.removingTag name tag))
  | .removingTag name _ =>
    if fails then some (s.go s.files .idle) else some (s.go (s.files.eraseTag name) .idle)
  | .idle | .captured _ _ | .recovered _ => none

/-! ### The system -/

/-- What happens: items arrive at nodes and are run, the coordinator is called and goes on, and the
process crashes. -/
inductive RestartAction where
  | appendPending (node : Node) (item : Item)
  | take (node : Node)
  | finish (node : Node)
  | setState (node : Node) (state : NodeState)
  | capture
  | recover (names : List String)
  | complete (restartId : Nat) (node : Node)
  | advance (fails : Bool)
  | release
  | crash

/-- The steps.  `nodes` are the nodes with a config file. -/
def restartStep (nodes : List Node) (isClock : Node → Bool) (s : System) :
    RestartAction → Option System
  | .appendPending node item =>
    let runtime := s.runtime node
    some (s.setRuntime node
      { runtime with
        pending := runtime.pending ++ [item]
        nodeEventSeq := runtime.nodeEventSeq + 1 }
      { s.since node with arrived := (s.since node).arrived ++ [item] })
  | .take node =>
    let runtime := s.runtime node
    match runtime.pending with
    | item :: pending =>
      if runtime.state = .idle ∧ runtime.inflight = none then
        some (s.setRuntime node
          { state := .working
            inflight := some item
            pending
            nodeEventSeq := runtime.nodeEventSeq + 1 }
          { s.since node with served := (s.since node).served ++ [item] })
      else none
    | [] => none
  | .finish node =>
    let runtime := s.runtime node
    if runtime.inflight = none then none
    else
      some (s.setRuntime node
        { runtime with
          state := .idle
          inflight := none
          nodeEventSeq := runtime.nodeEventSeq + 1 } (s.since node))
  | .setState node state =>
    let runtime := s.runtime node
    if runtime.state = state then none
    else
      some (s.setRuntime node
        { runtime with state, nodeEventSeq := runtime.nodeEventSeq + 1 } (s.since node))
  | .capture =>
    if s.phase = .idle then
      some { s with
        nextRestartId := s.nextRestartId + 1
        phase := .preparing s.nextRestartId nodes [] false }
    else none
  | .recover names =>
    if s.phase = .idle ∧ names.isPerm (s.files.tags.map Prod.fst) then
      some { s with
        since := fun node => { start := (s.runtime node).pending }
        phase := .visiting { before := s.files, names, failed := false } }
    else none
  | .complete restartId node =>
    if s.phase = .idle then
      match (tagName node).bind fun name => (s.files.tags.lookup name).map (name, ·) with
      | some (name, tag) =>
        if tag.restartId = restartId then some { s with phase := .marking name tag } else some s
      | none => some s
    else none
  | .advance fails => advanceStep nodes isClock s fails
  | .release =>
    match s.phase with
    | .captured _ _ | .recovered _ => some { s with phase := .idle }
    | _ => none
  | .crash =>
    some { s with
      owner := s.owner + 1
      runtime := fun _ => {}
      since := fun _ => {}
      phase := .idle }

/-- The step is not one that loses something: two nodes of a capture have one name, a file operation
fails when a capture is undone or cleaned up, or a runtime state is written over that has changed since
it was read. -/
def spared (s : System) : RestartAction → Bool
  | .advance fails =>
    match s.phase with
    | .preparing _ [] prepared _ => decide (prepared.map Prepared.name).Nodup
    | .undoing _ _ _ | .cleaning _ _ _ => !fails
    | .restoring _ claim =>
      fails || (s.runtime claim.tag.node).nodeEventSeq = claim.current.nodeEventSeq
    | .reverting _ claim restored =>
      (s.runtime claim.tag.node).nodeEventSeq =
        if restored then (restoredRuntime s.owner claim).nodeEventSeq
        else claim.current.nodeEventSeq
    | _ => true
  | _ => true

/-- The condition on a step under which the files and the pending lists stay as they should. -/
def Spared (s : System) (action : RestartAction) : Prop := spared s action = true

instance (s : System) (action : RestartAction) : Decidable (Spared s action) :=
  inferInstanceAs (Decidable (_ = _))

end AgentPark.Restart
