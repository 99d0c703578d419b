import AgentPark.Lib.Execution
import AgentPark.Runtime.StoreOp
import Mathlib.Algebra.BigOperators.Group.List.Basic
import Mathlib.Logic.Function.Basic
import Mathlib.Tactic.Abel

/-!
# Held outputs and their propagation

A run that finishes calls `complete_work` with the messages it wants to send.  When the node is
paused the store keeps them in `held_outputs`; otherwise the run sends them, after the store call.
`set_node_instance_state` to idle takes the held outputs out of the store and sends them.
-/

namespace AgentPark.Runtime

open Lib

/-- A message of a completed run: the output it belongs to and its propagation task. -/
abbrev OutputTask := HeldOutput × PropagationTask

/-- The messages of an output. -/
def HeldOutput.messages (output : HeldOutput) : List OutputTask :=
  output.tasks.map fun task => (output, task)

/-- The messages of the outputs a resume releases, in order. -/
def releasedMessages (outputs : List HeldOutput) : List OutputTask :=
  outputs.flatMap HeldOutput.messages

/-- Someone who sends messages of `source`: the run itself, or the resume of a paused node.  `batch`
is what it was given, `sent` what it has enqueued, `remaining` what is left. -/
structure PropagationSender where
  source : String
  resumed : Bool
  sequential : Bool
  batch : List OutputTask
  sent : List OutputTask := []
  remaining : List OutputTask
deriving DecidableEq

/-- What became of the messages of a node.  `enqueued` pairs a message with the item by which the queue
of its target grew; `held` lists the outputs `complete_work` kept, `released` those `resume` returned,
both in order. -/
structure SourceLedger where
  completed : Multiset OutputTask := 0
  enqueued : Multiset (OutputTask × Item) := 0
  dropped : Multiset OutputTask := 0
  held : List HeldOutput := []
  released : List HeldOutput := []

/-- The nodes, the senders at work and the ledgers. -/
structure PropagationSystem where
  nodes : String → RuntimeState
  senders : List PropagationSender := []
  ledger : String → SourceLedger

/-- A system nobody sends in; outputs that are held already count as completed. -/
def PropagationSystem.start (nodes : String → RuntimeState) : PropagationSystem :=
  { nodes
    ledger := fun node =>
      { completed := releasedMessages (nodes node).heldOutputs, held := (nodes node).heldOutputs } }

/-- The text fallback `str(value or default).strip() or default`. -/
def stripOr (value default : String) : String :=
  if value = "" then default else if pyStrip value = "" then default else pyStrip value

/-- The item `_enqueue_graph_task` appends.  A resume strips the trace id, falls back to the node
itself for a missing sender and shortens the visited list; the run passes its own values. -/
def graphTaskItem (owner : String) (sender : PropagationSender) (message : OutputTask) : Item :=
  let (output, task) := message
  let traceId := if sender.resumed then pyStrip output.traceId else output.traceId
  let defaultFrom := if sender.resumed then stripOr output.fromNode sender.source else sender.source
  let last := fun (visited : List String) => visited.drop (visited.length - 50)
  let nextVisited := if sender.resumed then last output.nextVisited else output.nextVisited
  { traceId
    source := if task.source = "" then "propagate" else task.source
    depth := task.nextDepth
    linkId := task.linkId
    fromNode := stripOr task.fromNode defaultFrom
    runtimeOwnerId := owner
    fromOutputIndex := task.routeOutputIndex
    toInputIndex := task.toInputIndex
    visited := (task.nextVisited.map last).getD nextVisited
    access :=
      { clientId := pyStrip task.access.clientId
        username := pyStrip task.access.username
        role := pyStrip task.access.role
        ip := pyStrip task.access.ip }
    payloadRole := some task.routeRole
    payload := task.routePayload }

/-- The item carries what the message says, along the link it names. -/
structure Item.Carries (item : Item) (message : OutputTask) : Prop where
  payload : item.payload = message.2.routePayload
  role : item.payloadRole = some message.2.routeRole
  link : item.linkId = message.2.linkId
  fromPort : item.fromOutputIndex = message.2.routeOutputIndex
  toPort : item.toInputIndex = message.2.toInputIndex
  depth : item.depth = message.2.nextDepth
  sender : pyStrip message.2.fromNode ≠ "" → item.fromNode = pyStrip message.2.fromNode
  trace : item.traceId = message.1.traceId ∨ item.traceId = pyStrip message.1.traceId

theorem graphTaskItem_carries (owner : String) (sender : PropagationSender) (message : OutputTask) :
    (graphTaskItem owner sender message).Carries message := by
  refine ⟨rfl, rfl, rfl, rfl, rfl, rfl, fun named => ?_, ?_⟩
  · have given : message.2.fromNode ≠ "" := by
      intro empty
      rw [empty] at named
      exact named (by decide)
    dsimp only [graphTaskItem]
    rw [stripOr, if_neg given, if_neg named]
  · dsimp only [graphTaskItem]
    split
    · exact Or.inr rfl
    · exact Or.inl rfl

/-- A step of a run, of a user or of a sender. -/
inductive PropagationAction where
  | store (node : String) (op : StoreOp)
  | completeWork (source : String) (output : HeldOutput)
  | resume (source : String)
  | send (sender message : Nat)
deriving DecidableEq

/-- `_run_single_node_iteration` after `complete_work` returned: at most one message is sent by the
run itself, more go to a thread pool in any order. -/
def runSender (source : String) (output : HeldOutput) : PropagationSender :=
  { source, resumed := false, sequential := min 8 output.tasks.length ≤ 1, batch := output.messages,
    remaining := output.messages }

/-- `set_node_instance_state` after `resume` returned: all released messages, one after the other. -/
def resumeSender (source : String) (released : List HeldOutput) : PropagationSender :=
  { source, resumed := true, sequential := true, batch := releasedMessages released,
    remaining := releasedMessages released }

def PropagationSystem.record (s : PropagationSystem) (source : String)
    (change : SourceLedger → SourceLedger) : String → SourceLedger :=
  Function.update s.ledger source (change (s.ledger source))

/-- Completions, resumes, single sends and every other store operation. -/
def PropagationSystem.step (types : String → String) (owner : String) (s : PropagationSystem) :
    PropagationAction → Option PropagationSystem
  | .store node op =>
    if op.touchesHeldOutputs then none
    else
      some { s with
        nodes := Function.update s.nodes node (op.perform (types node) (s.nodes node)).next }
  | .completeWork source output =>
    if output.tasks = [] then none
    else
      match completeWork (types source) (some output) (s.nodes source) with
      | (.stop, _, next) =>
        some { s with
          nodes := Function.update s.nodes source next
          ledger := s.record source fun ledger =>
            { ledger with
              completed := ledger.completed + output.messages
              held := ledger.held ++ [output] } }
      | (_, _, next) =>
        some {
          nodes := Function.update s.nodes source next
          senders := s.senders ++ [runSender source output]
          ledger := s.record source fun ledger =>
            { ledger with completed := ledger.completed + output.messages } }
  | .resume source =>
    let (released, next) := resume (s.nodes source)
    some {
      nodes := Function.update s.nodes source next
      senders := s.senders ++ [resumeSender source released]
      ledger := s.record source fun ledger =>
        { ledger with released := ledger.released ++ released } }
  | .send sender message =>
    match s.senders[sender]? with
    | none => none
    | some at_work =>
      if at_work.sequential ∧ message ≠ 0 then none
      else
        match at_work.remaining[message]? with
        | none => none
        | some unit =>
          let target := unit.2.target
          match appendPending (graphTaskItem owner at_work unit) (s.nodes target) with
          | .ok (true, next) =>
            let arrived := next.pending.drop (s.nodes target).pending.length
            some {
              nodes := Function.update s.nodes target next
              senders := s.senders.set sender { at_work with
                sent := at_work.sent ++ [unit]
                remaining := at_work.remaining.eraseIdx message }
              ledger := s.record at_work.source fun ledger =>
                { ledger with enqueued := ledger.enqueued + arrived.map (unit, ·) } }
          -- a sender in sequence gives up, one of the pool logs the error and the rest go on
          | _ =>
            let lost := if at_work.sequential then at_work.remaining else [unit]
            let rest :=
              if at_work.sequential then [] else at_work.remaining.eraseIdx message
            some { s with
              senders := s.senders.set sender { at_work with remaining := rest }
              ledger := s.record at_work.source fun ledger =>
                { ledger with dropped := ledger.dropped + lost } }

/-- The messages of a node that a sender still has. -/
def PropagationSender.sendingFor (sender : PropagationSender) (node : String) :
    Multiset OutputTask :=
  if sender.source = node then sender.remaining else 0

theorem runSender_sendingFor (source : String) (output : HeldOutput) :
    (runSender source output).sendingFor source = output.messages := if_pos rfl

theorem resumeSender_sendingFor (source : String) (released : List HeldOutput) :
    (resumeSender source released).sendingFor source = releasedMessages released := if_pos rfl

theorem PropagationSender.sendingFor_of_ne (sender : PropagationSender) {node : String}
    (differs : sender.source ≠ node) : sender.sendingFor node = 0 := if_neg differs

/-- The messages of a node that are being sent. -/
def PropagationSystem.sending (s : PropagationSystem) (node : String) : Multiset OutputTask :=
  (s.senders.map (·.sendingFor node)).sum

/-- The accounting of the messages at a state: each message of a completed run was enqueued once, by
an item that carries it, dropped, is being sent or is held; nothing is dropped without a delete
request; outputs leave the store in the order in which their runs completed, and a resume sends what
it took out in order. -/
structure Accounted (s : PropagationSystem) : Prop where
  once : ∀ node, (s.ledger node).completed =
    (s.ledger node).enqueued.map Prod.fst + (s.ledger node).dropped + s.sending node +
      releasedMessages (s.nodes node).heldOutputs
  carried : ∀ node, ∀ entry ∈ (s.ledger node).enqueued, entry.2.Carries entry.1
  dropped : (∀ node, (s.nodes node).deleteRequested = false) → ∀ node, (s.ledger node).dropped = 0
  order : ∀ node, (s.ledger node).held = (s.ledger node).released ++ (s.nodes node).heldOutputs
  resumed : ∀ sender ∈ s.senders, sender.resumed = true → sender.sequential = true ∧
    ∃ before outputs after,
      (s.ledger sender.source).released = before ++ outputs ++ after ∧
        sender.batch = releasedMessages outputs
  inOrder : ∀ sender ∈ s.senders, sender.sequential = true →
    (sender.sent ++ sender.remaining) <+: sender.batch

/-- Messages are enqueued by sends alone: a send puts one item that carries its message behind the
queue of the target, or finds the target with a delete request and changes no node. -/
def Delivers (s : PropagationSystem) (a : PropagationAction) (s' : PropagationSystem) : Prop :=
  match a with
  | .send i message => ∃ sender unit, s.senders[i]? = some sender ∧
      sender.remaining[message]? = some unit ∧
        ((∃ item : Item, item.Carries unit ∧
            (s'.nodes unit.2.target).pending = (s.nodes unit.2.target).pending ++ [item] ∧
            (s'.ledger sender.source).enqueued =
              (s.ledger sender.source).enqueued + {(unit, item)}) ∨
          (s.nodes unit.2.target).deleteRequested = true ∧ s'.nodes = s.nodes)
  | _ => ∀ node, (s'.ledger node).enqueued = (s.ledger node).enqueued

/-! ## Accounting lemmas -/

theorem sum_map_set {α M : Type*} [AddCommMonoid M] (f : α → M) {entries : List α} {i : Nat}
    {old : α} (new : α) (found : entries[i]? = some old) :
    ((entries.set i new).map f).sum + f old = (entries.map f).sum + f new := by
  induction entries generalizing i with
  | nil => cases found
  | cons entry entries ih =>
    cases i with
    | zero =>
      cases found
      simp only [List.set_cons_zero, List.map_cons, List.sum_cons]
      rw [add_right_comm, add_comm (f new), add_right_comm]
    | succ i =>
      have below := ih (i := i) (by simpa using found)
      simp only [List.set_cons_succ, List.map_cons, List.sum_cons]
      rw [add_assoc, below, add_assoc]

theorem coe_eraseIdx {messages : List OutputTask} {i : Nat} {message : OutputTask}
    (found : messages[i]? = some message) :
    (messages.eraseIdx i : Multiset OutputTask) + {message} = messages := by
  induction messages generalizing i with
  | nil => cases found
  | cons first messages ih =>
    cases i with
    | zero =>
      cases found
      rw [List.eraseIdx_cons_zero, add_comm, Multiset.singleton_add, Multiset.cons_coe]
    | succ i =>
      have below := ih (i := i) (by simpa using found)
      rw [List.eraseIdx_cons_succ, ← Multiset.cons_coe, ← Multiset.cons_coe,
        ← Multiset.singleton_add, ← Multiset.singleton_add, add_assoc, below]

theorem releasedMessages_append (outputs more : List HeldOutput) :
    releasedMessages (outputs ++ more) = releasedMessages outputs ++ releasedMessages more :=
  List.flatMap_append

@[simp] theorem releasedMessages_singleton (output : HeldOutput) :
    releasedMessages [output] = output.messages := by simp [releasedMessages]

theorem appendPending_graphTaskItem (owner : String) (sender : PropagationSender)
    (message : OutputTask) (target : RuntimeState) :
    (∃ next, appendPending (graphTaskItem owner sender message) target = .ok (true, next) ∧
      next.heldOutputs = target.heldOutputs ∧ next.deleteRequested = target.deleteRequested ∧
      next.pending = target.pending ++ [graphTaskItem owner sender message]) ∨
    (target.deleteRequested = true ∧
      appendPending (graphTaskItem owner sender message) target = .error .nodeDeleting) := by
  have unkeyed : (graphTaskItem owner sender message).idempotencyKey = "" := rfl
  rcases appendPending_cases (graphTaskItem owner sender message) target with
    ⟨deleting, refused⟩ | ⟨_, keyed, _, _⟩ | ⟨_, _, appended⟩
  · exact Or.inr ⟨deleting, refused⟩
  · rw [unkeyed] at keyed
    exact absurd (by decide) keyed
  · exact Or.inl ⟨_, appended, rfl, rfl, rfl⟩

section Steps

variable {s : PropagationSystem}

variable {source node : String}

theorem PropagationSystem.record_of_ne (differs : node ≠ source)
    (change : SourceLedger → SourceLedger) : s.record source change node = s.ledger node :=
  Function.update_of_ne differs _ _

@[simp] theorem PropagationSystem.record_self (source : String)
    (change : SourceLedger → SourceLedger) :
    s.record source change source = change (s.ledger source) :=
  Function.update_self ..

theorem sending_append (node : String) (senders : List PropagationSender)
    (sender : PropagationSender) :
    ((senders ++ [sender]).map (·.sendingFor node)).sum =
      (senders.map (·.sendingFor node)).sum + sender.sendingFor node := by
  rw [List.map_append, List.sum_append, List.map_singleton, List.sum_singleton]

/-- A step keeps the accounting when it does so for the one source whose ledger it changes, leaves
the held outputs of the other nodes alone and takes no delete request back. -/
theorem Accounted.change (acc : Accounted s) {change : SourceLedger → SourceLedger}
    {nodes : String → RuntimeState} {senders : List PropagationSender}
    (held : ∀ node, node ≠ source → (nodes node).heldOutputs = (s.nodes node).heldOutputs)
    (deletes : ∀ node, (s.nodes node).deleteRequested = true → (nodes node).deleteRequested = true)
    (sending : ∀ node, node ≠ source →
      (senders.map (·.sendingFor node)).sum = (s.senders.map (·.sendingFor node)).sum)
    (once : (change (s.ledger source)).completed =
      (change (s.ledger source)).enqueued.map Prod.fst + (change (s.ledger source)).dropped +
        (senders.map (·.sendingFor source)).sum + releasedMessages (nodes source).heldOutputs)
    (carried : ∀ entry ∈ (change (s.ledger source)).enqueued, entry.2.Carries entry.1)
    (dropped : (∀ node, (nodes node).deleteRequested = false) →
      (s.ledger source).dropped = 0 → (change (s.ledger source)).dropped = 0)
    (order : (change (s.ledger source)).held =
      (change (s.ledger source)).released ++ (nodes source).heldOutputs)
    (resumed : ∀ sender ∈ senders, sender.resumed = true → sender.sequential = true ∧
      ∃ before outputs after,
        (s.record source change sender.source).released = before ++ outputs ++ after ∧
          sender.batch = releasedMessages outputs)
    (inOrder : ∀ sender ∈ senders, sender.sequential = true →
      (sender.sent ++ sender.remaining) <+: sender.batch) :
    Accounted { nodes, senders, ledger := s.record source change } := by
  have alive_before : (∀ node, (nodes node).deleteRequested = false) →
      ∀ node, (s.nodes node).deleteRequested = false := by
    intro alive node
    cases before : (s.nodes node).deleteRequested with
    | false => rfl
    | true =>
      have now := alive node
      rw [deletes node before] at now
      cases now
  refine ⟨fun node => ?_, fun node => ?_, fun alive node => ?_, fun node => ?_, resumed, inOrder⟩
  · rcases eq_or_ne node source with rfl | differs
    · simp only [PropagationSystem.record_self]
      exact once
    · simp only [PropagationSystem.record_of_ne differs]
      have before := acc.once node
      rw [PropagationSystem.sending, ← sending node differs, ← held node differs] at before
      exact before
  · rcases eq_or_ne node source with rfl | differs
    · simp only [PropagationSystem.record_self]
      exact carried
    · simp only [PropagationSystem.record_of_ne differs]
      exact acc.carried node
  · have before := acc.dropped (alive_before alive)
    rcases eq_or_ne node source with rfl | differs
    · simp only [PropagationSystem.record_self]
      exact dropped alive (before node)
    · simp only [PropagationSystem.record_of_ne differs]
      exact before node
  · rcases eq_or_ne node source with rfl | differs
    · simp only [PropagationSystem.record_self]
      exact order
    · simp only [PropagationSystem.record_of_ne differs]
      rw [held node differs]
      exact acc.order node

theorem Accounted.resumed_record (acc : Accounted s) {change : SourceLedger → SourceLedger}
    (more : List HeldOutput)
    (grows : (change (s.ledger source)).released = (s.ledger source).released ++ more)
    (sender : PropagationSender) (mem : sender ∈ s.senders) (resumed : sender.resumed = true) :
    sender.sequential = true ∧ ∃ before outputs after,
      (s.record source change sender.source).released = before ++ outputs ++ after ∧
        sender.batch = releasedMessages outputs := by
  obtain ⟨sequential, before, outputs, after, part, batch⟩ := acc.resumed sender mem resumed
  refine ⟨sequential, ?_⟩
  rcases eq_or_ne sender.source source with same | differs
  · refine ⟨before, outputs, after ++ more, ?_, batch⟩
    rw [same, PropagationSystem.record_self, grows, ← same, part, List.append_assoc]
  · exact ⟨before, outputs, after, by rw [PropagationSystem.record_of_ne differs, part], batch⟩

variable {next : RuntimeState}

theorem Accounted.store (acc : Accounted s) (held : next.heldOutputs = (s.nodes node).heldOutputs)
    (deletes : (s.nodes node).deleteRequested = true → next.deleteRequested = true) :
    Accounted { s with nodes := Function.update s.nodes node next } := by
  have same : ∀ other, (Function.update s.nodes node next other).heldOutputs =
      (s.nodes other).heldOutputs := by
    intro other
    rcases eq_or_ne other node with rfl | differs
    · rw [Function.update_self, held]
    · rw [Function.update_of_ne differs]
  have kept : ∀ other, (s.nodes other).deleteRequested = true →
      (Function.update s.nodes node next other).deleteRequested = true := by
    intro other
    rcases eq_or_ne other node with rfl | differs
    · rw [Function.update_self]
      exact deletes
    · rw [Function.update_of_ne differs]
      exact id
  have ledger : s.record node id = s.ledger := Function.update_eq_self node s.ledger
  rw [← ledger]
  refine acc.change (fun other _ => same other) kept (fun _ _ => rfl) ?_ (acc.carried node)
    (fun _ none => none) ?_
    (fun sender mem resumed => ?_) acc.inOrder
  · rw [same]
    exact acc.once node
  · rw [same]
    exact acc.order node
  · exact acc.resumed_record [] (List.append_nil _).symm sender mem resumed

theorem heldOutputs_update_of_ne (next : RuntimeState) (differs : node ≠ source) :
    (Function.update s.nodes source next node).heldOutputs = (s.nodes node).heldOutputs := by
  rw [Function.update_of_ne differs]

theorem deleteRequested_update (deletes : next.deleteRequested = (s.nodes source).deleteRequested)
    (node : String) (requested : (s.nodes node).deleteRequested = true) :
    (Function.update s.nodes source next node).deleteRequested = true := by
  rcases eq_or_ne node source with rfl | differs
  · rw [Function.update_self, deletes, requested]
  · rw [Function.update_of_ne differs, requested]

theorem Accounted.hold (acc : Accounted s) {output : HeldOutput}
    (held : next.heldOutputs = (s.nodes source).heldOutputs ++ [output])
    (deletes : next.deleteRequested = (s.nodes source).deleteRequested) :
    Accounted { s with
      nodes := Function.update s.nodes source next
      ledger := s.record source fun ledger =>
        { ledger with
          completed := ledger.completed + output.messages
          held := ledger.held ++ [output] } } := by
  refine acc.change (fun _ differs => heldOutputs_update_of_ne next differs)
    (deleteRequested_update deletes) (fun _ _ => rfl) ?_ (acc.carried source) (fun _ none => none) ?_
    (fun sender mem resumed => ?_) acc.inOrder
  · have before := acc.once source
    rw [Function.update_self, held, releasedMessages_append, releasedMessages_singleton,
      ← Multiset.coe_add, ← add_assoc]
    exact congrArg (· + (output.messages : Multiset OutputTask)) before
  · rw [Function.update_self, held, ← List.append_assoc]
    exact congrArg (· ++ [output]) (acc.order source)
  · exact acc.resumed_record [] (List.append_nil _).symm sender mem resumed

theorem Accounted.sendOff (acc : Accounted s) {output : HeldOutput}
    (held : next.heldOutputs = (s.nodes source).heldOutputs)
    (deletes : next.deleteRequested = (s.nodes source).deleteRequested) :
    Accounted {
      nodes := Function.update s.nodes source next
      senders := s.senders ++ [runSender source output]
      ledger := s.record source fun ledger =>
        { ledger with completed := ledger.completed + output.messages } } := by
  refine acc.change (fun _ differs => heldOutputs_update_of_ne next differs)
    (deleteRequested_update deletes) (fun node differs => ?_) ?_ (acc.carried source)
    (fun _ none => none) ?_
    (fun sender mem resumed => ?_) (fun sender mem sequential => ?_)
  · rw [sending_append, (runSender source output).sendingFor_of_ne differs.symm, add_zero]
  · have before := acc.once source
    rw [Function.update_self, held, sending_append, runSender_sendingFor,
      ← add_assoc, add_right_comm]
    exact congrArg (· + (output.messages : Multiset OutputTask)) before
  · rw [Function.update_self, held]
    exact acc.order source
  · rcases List.mem_append.mp mem with old | new
    · exact acc.resumed_record [] (List.append_nil _).symm _ old resumed
    · rw [List.mem_singleton.mp new] at resumed
      cases resumed
  · rcases List.mem_append.mp mem with old | new
    · exact acc.inOrder sender old sequential
    · rw [List.mem_singleton.mp new]
      exact List.prefix_refl _

theorem Accounted.resume (acc : Accounted s) {released : List HeldOutput}
    (held : released ++ next.heldOutputs = (s.nodes source).heldOutputs)
    (deletes : next.deleteRequested = (s.nodes source).deleteRequested) :
    Accounted {
      nodes := Function.update s.nodes source next
      senders := s.senders ++ [resumeSender source released]
      ledger := s.record source fun ledger =>
        { ledger with released := ledger.released ++ released } } := by
  refine acc.change (fun _ differs => heldOutputs_update_of_ne next differs)
    (deleteRequested_update deletes) (fun node differs => ?_) ?_ (acc.carried source)
    (fun _ none => none) ?_
    (fun sender mem resumed => ?_) (fun sender mem sequential => ?_)
  · rw [sending_append, (resumeSender source released).sendingFor_of_ne differs.symm, add_zero]
  · have before := acc.once source
    rw [← held, releasedMessages_append, ← Multiset.coe_add, ← add_assoc] at before
    rw [Function.update_self, sending_append, resumeSender_sendingFor,
      ← add_assoc]
    exact before
  · rw [Function.update_self, List.append_assoc, held]
    exact acc.order source
  · rcases List.mem_append.mp mem with old | new
    · exact acc.resumed_record released rfl _ old resumed
    · rw [List.mem_singleton.mp new]
      refine ⟨rfl, (s.ledger source).released, released, [], ?_, rfl⟩
      rw [show (resumeSender source released).source = source from rfl,
        PropagationSystem.record_self, List.append_nil]
  · rcases List.mem_append.mp mem with old | new
    · exact acc.inOrder sender old sequential
    · rw [List.mem_singleton.mp new]
      exact List.prefix_refl _

variable {i : Nat}

theorem sending_set_of_ne {old new : PropagationSender} (found : s.senders[i]? = some old)
    (same : new.source = old.source) (differs : node ≠ old.source) :
    ((s.senders.set i new).map (·.sendingFor node)).sum =
      (s.senders.map (·.sendingFor node)).sum := by
  have moved := sum_map_set (·.sendingFor node) new found
  rw [old.sendingFor_of_ne differs.symm, new.sendingFor_of_ne (same ▸ differs.symm), add_zero,
    add_zero] at moved
  exact moved

theorem sending_set_self {old : PropagationSender} (new : PropagationSender)
    (gone : List OutputTask) (found : s.senders[i]? = some old) (same : new.source = old.source)
    (split : (new.remaining : Multiset OutputTask) + gone = old.remaining) :
    ((s.senders.set i new).map (·.sendingFor old.source)).sum + gone =
      (s.senders.map (·.sendingFor old.source)).sum := by
  have moved := sum_map_set (·.sendingFor old.source) new found
  have oldSends : old.sendingFor old.source = old.remaining := if_pos rfl
  have newSends : new.sendingFor old.source = new.remaining := if_pos same
  rw [oldSends, newSends, ← split, add_comm (new.remaining : Multiset OutputTask), ← add_assoc]
    at moved
  exact add_right_cancel moved

theorem Accounted.sent (acc : Accounted s) {message : Nat} {sender : PropagationSender}
    {unit : OutputTask} {target : String} (found : s.senders[i]? = some sender)
    (is : sender.remaining[message]? = some unit) (first : sender.sequential = true → message = 0)
    {item : Item} (held : next.heldOutputs = (s.nodes target).heldOutputs)
    (deletes : next.deleteRequested = (s.nodes target).deleteRequested)
    (grows : next.pending = (s.nodes target).pending ++ [item]) (carries : item.Carries unit) :
    Accounted {
      nodes := Function.update s.nodes target next
      senders := s.senders.set i { sender with
        sent := sender.sent ++ [unit]
        remaining := sender.remaining.eraseIdx message }
      ledger := s.record sender.source fun ledger =>
        { ledger with
          enqueued := ledger.enqueued +
            (next.pending.drop (s.nodes target).pending.length).map (unit, ·) } } := by
  rw [grows, List.drop_left, List.map_singleton, Multiset.coe_singleton]
  have same : ∀ node, (Function.update s.nodes target next node).heldOutputs =
      (s.nodes node).heldOutputs := by
    intro node
    rcases eq_or_ne node target with rfl | differs
    · rw [Function.update_self, held]
    · rw [Function.update_of_ne differs]
  have mem := List.mem_of_getElem? found
  refine acc.change (fun node _ => same node) (deleteRequested_update deletes)
    (fun node differs => sending_set_of_ne found rfl differs) ?_ (fun entry entryMem => ?_)
    (fun _ none => none) ?_ (fun other otherMem resumed => ?_) (fun other otherMem sequential => ?_)
  · have before := acc.once sender.source
    have moved := sending_set_self { sender with
      sent := sender.sent ++ [unit]
      remaining := sender.remaining.eraseIdx message } [unit] found rfl (coe_eraseIdx is)
    rw [PropagationSystem.sending, ← moved, Multiset.coe_singleton] at before
    rw [same]
    refine before.trans ?_
    dsimp only
    rw [Multiset.map_add, Multiset.map_singleton]
    abel
  · rcases Multiset.mem_add.mp entryMem with old | new
    · exact acc.carried sender.source entry old
    · rw [Multiset.mem_singleton.mp new]
      exact carries
  · rw [same]
    exact acc.order sender.source
  · rcases List.mem_or_eq_of_mem_set otherMem with old | rfl
    · exact acc.resumed_record [] (List.append_nil _).symm _ old resumed
    · exact acc.resumed_record [] (List.append_nil _).symm sender mem resumed
  · rcases List.mem_or_eq_of_mem_set otherMem with old | rfl
    · exact acc.inOrder other old sequential
    · have before := acc.inOrder sender mem sequential
      cases first sequential
      cases rest : sender.remaining with
      | nil =>
        rw [rest] at is
        cases is
      | cons head rest' =>
        rw [rest] at is before
        cases is
        simpa [List.append_assoc] using before

theorem Accounted.refused (acc : Accounted s) {message : Nat} {sender : PropagationSender}
    {unit : OutputTask} {target : String} (found : s.senders[i]? = some sender)
    (is : sender.remaining[message]? = some unit)
    (deleting : (s.nodes target).deleteRequested = true) :
    Accounted { s with
      senders := s.senders.set i { sender with
        remaining := if sender.sequential then [] else sender.remaining.eraseIdx message }
      ledger := s.record sender.source fun ledger =>
        { ledger with
          dropped := ledger.dropped + (if sender.sequential then sender.remaining else [unit]) } } := by
  have mem := List.mem_of_getElem? found
  have split : ((if sender.sequential then [] else sender.remaining.eraseIdx message :
      List OutputTask) : Multiset OutputTask) +
        (if sender.sequential then sender.remaining else [unit] : List OutputTask) =
      sender.remaining := by
    cases sender.sequential with
    | true => exact zero_add _
    | false => exact coe_eraseIdx is
  refine acc.change (fun _ _ => rfl) (fun _ requested => requested)
    (fun node differs => sending_set_of_ne found rfl differs) ?_ (acc.carried sender.source)
    (fun alive => ?_) (acc.order sender.source) (fun other otherMem resumed => ?_)
    (fun other otherMem sequential => ?_)
  · have before := acc.once sender.source
    have moved := sending_set_self { sender with
      remaining := if sender.sequential then [] else sender.remaining.eraseIdx message }
      (if sender.sequential then sender.remaining else [unit]) found rfl split
    rw [PropagationSystem.sending, ← moved] at before
    refine before.trans ?_
    dsimp only
    abel
  · rw [alive target] at deleting
    cases deleting
  · rcases List.mem_or_eq_of_mem_set otherMem with old | rfl
    · exact acc.resumed_record [] (List.append_nil _).symm _ old resumed
    · exact acc.resumed_record [] (List.append_nil _).symm sender mem resumed
  · rcases List.mem_or_eq_of_mem_set otherMem with old | rfl
    · exact acc.inOrder other old sequential
    · have before := acc.inOrder sender mem sequential
      have inSequence : sender.sequential = true := sequential
      simp only [inSequence, if_true, List.append_nil]
      exact (List.prefix_append _ _).trans before

/-- One action keeps the account of the messages balanced. -/
theorem Accounted.step {types : String → String} {owner : String} {s' : PropagationSystem}
    {a : PropagationAction} (acc : Accounted s) (enabled : s.step types owner a = some s') :
    Accounted s' := by
  cases a with
  | store node op =>
    simp only [PropagationSystem.step] at enabled
    split at enabled
    · cases enabled
    · rename_i untouched
      cases enabled
      obtain ⟨held, deletes⟩ := op.perform_held (types node) (s.nodes node)
      exact acc.store (held (by simpa using untouched)) deletes
  | completeWork source output =>
    simp only [PropagationSystem.step] at enabled
    split at enabled
    · cases enabled
    · rcases completeWork_cases (types source) (some output) (s.nodes source) with
        ⟨kept, isOutput, _, holds⟩ | ⟨sends, keeps⟩
      · cases isOutput
        rw [holds] at enabled
        cases enabled
        exact acc.hold (by simp) (by simp)
      · have running := sends.resolve_left (by simp)
        rw [keeps] at enabled
        cases final : completedState (types source) (s.nodes source) with
        | stop => exact absurd final running
        | idle | working =>
          rw [final] at enabled
          cases enabled
          exact acc.sendOff (by simp) (by simp)
  | resume source =>
    simp only [PropagationSystem.step, Option.some.injEq] at enabled
    subst enabled
    rcases resume_cases (s.nodes source) with ⟨_, nothing⟩ | ⟨seq, released⟩
    · rw [nothing]
      exact acc.resume rfl rfl
    · rw [released]
      exact acc.resume (List.append_nil _) rfl
  | send i message =>
    simp only [PropagationSystem.step] at enabled
    split at enabled
    · cases enabled
    · rename_i sender found
      split at enabled
      · cases enabled
      · rename_i first
        split at enabled
        · cases enabled
        · rename_i unit is
          rcases appendPending_graphTaskItem owner sender unit (s.nodes unit.2.target) with
            ⟨next, appended, held, deletes, grows⟩ | ⟨deleting, refused⟩
          · rw [appended] at enabled
            cases enabled
            refine acc.sent found is (fun sequential => ?_) held deletes grows
              (graphTaskItem_carries owner sender unit)
            by_contra later
            exact first ⟨sequential, later⟩
          · rw [refused] at enabled
            cases enabled
            exact acc.refused found is deleting

theorem PropagationSystem.record_enqueued {change : SourceLedger → SourceLedger}
    (keeps : ∀ ledger, (change ledger).enqueued = ledger.enqueued) (node : String) :
    (s.record source change node).enqueued = (s.ledger node).enqueued := by
  rcases eq_or_ne node source with rfl | differs
  · rw [record_self, keeps]
  · rw [record_of_ne differs]

/-- A send alone enqueues, and only at the end of the target's queue. -/
theorem PropagationSystem.delivers_step {types : String → String} {owner : String}
    {s' : PropagationSystem} {a : PropagationAction} (enabled : s.step types owner a = some s') :
    Delivers s a s' := by
  cases a with
  | store _ _ =>
    simp only [PropagationSystem.step] at enabled
    split at enabled
    · cases enabled
    · cases enabled
      exact fun _ => rfl
  | completeWork _ _ =>
    simp only [PropagationSystem.step] at enabled
    split at enabled
    · cases enabled
    · split at enabled
      · cases enabled
        exact record_enqueued fun _ => rfl
      · cases enabled
        exact record_enqueued fun _ => rfl
  | resume _ =>
    cases enabled
    exact record_enqueued fun _ => rfl
  | send i message =>
    simp only [PropagationSystem.step] at enabled
    split at enabled
    · cases enabled
    · rename_i sender found
      split at enabled
      · cases enabled
      · split at enabled
        · cases enabled
        · rename_i unit is
          refine ⟨sender, unit, found, is, ?_⟩
          rcases appendPending_graphTaskItem owner sender unit (s.nodes unit.2.target) with
            ⟨next, appended, -, -, grows⟩ | ⟨deleting, refused⟩
          · rw [appended] at enabled
            cases enabled
            refine Or.inl ⟨_, graphTaskItem_carries owner sender unit, ?_, ?_⟩
            · dsimp only
              rw [Function.update_self, grows]
            · dsimp only
              rw [record_self, grows, List.drop_left, List.map_singleton, Multiset.coe_singleton]
          · rw [refused] at enabled
            cases enabled
            exact Or.inr ⟨deleting, rfl⟩

end Steps

/-! ## Runs -/

theorem Accounted.start (nodes : String → RuntimeState) :
    Accounted (PropagationSystem.start nodes) := by
  refine ⟨fun node => ?_, fun _ _ mem => ?_, fun _ _ => rfl, fun _ => rfl, fun _ mem => ?_,
    fun _ mem => ?_⟩
  · simp [PropagationSystem.start, PropagationSystem.sending]
  · exact absurd mem (Multiset.notMem_zero _)
  · exact absurd mem List.not_mem_nil
  · exact absurd mem List.not_mem_nil

/-- In every interleaving of completions, pauses, resumes, sends, deletions and all other store
operations, every message of a completed run is enqueued once, being sent, held, or dropped after a
delete request, and the held outputs of a node are released in the order in which their runs
completed; what is enqueued is an item behind the target's queue that carries the message. -/
theorem heldOutputs_accounted (types : String → String) (owner : String)
    (nodes : String → RuntimeState) (actions : List PropagationAction) :
    Along (PropagationSystem.step types owner) (fun s a s' => Delivers s a s' ∧ Accounted s')
      (PropagationSystem.start nodes) actions :=
  along_of_invariant (C := fun _ _ _ => True) (I := Accounted)
    (fun s _ _ acc enabled _ => ⟨⟨s.delivers_step enabled, acc.step enabled⟩, acc.step enabled⟩)
    (Accounted.start nodes)
    (along_of_forall_mem fun _ _ => trivial)

end AgentPark.Runtime
