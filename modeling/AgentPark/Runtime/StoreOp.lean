import AgentPark.Runtime.NodeConfigStore
import Mathlib.Algebra.Order.Group.Multiset

/-!
# What the store operations do to the queue

`StoreOp` is one call of `RuntimeStateMemoryStore.update`, `StoreOp.perform` its effect together with
the items it accepted into the queue and the items it took out of it.
-/

namespace AgentPark.Runtime

open Lib

/-- One call of a store method. -/
inductive StoreOp where
  | appendPending (item : Item)
  | popPending
  | dequeuePendingToWorking (owner : String)
  | consumeMidTurnUserInputs (limit : Int)
  | cancelWork
  | finishStopRequested (message : String)
  | markDeleteRequested
  | setInflight (item : Option Item)
  | setLastMessage (output : String)
  | updateState (state : NodeState)
  | transitionToIdle
  | recoverStaleWorking
  | completeWork (heldOutput : Option HeldOutput)
  | resume
deriving DecidableEq

/-- The next state of an operation, the items it put into the queue (those `append_pending` returned
`True` for) and the items it took out of the queue. -/
structure StoreOutcome where
  next : RuntimeState
  accepted : List Item := []
  taken : List Item := []
deriving DecidableEq

/-- Run one operation on the runtime state of a node of type `typeId`. -/
def StoreOp.perform (typeId : String) (op : StoreOp) (s : RuntimeState) : StoreOutcome :=
  match op with
  | .appendPending item =>
    match Runtime.appendPending item s with
    | .error _ => { next := s }
    | .ok (appended, next) => { next, accepted := if appended then [item] else [] }
  | .popPending => { next := (Runtime.popPending s).2, taken := (Runtime.popPending s).1.toList }
  | .dequeuePendingToWorking owner =>
    let (picked, next) := Runtime.dequeuePendingToWorking typeId owner s
    { next, taken := picked.toList }
  | .consumeMidTurnUserInputs limit =>
    let (consumed, next) := Runtime.consumeMidTurnUserInputs limit s
    { next, taken := consumed }
  | .cancelWork =>
    { next := (Runtime.cancelWork s).2, taken := if s.deleteRequested then [] else s.pending }
  | .finishStopRequested message => { next := (Runtime.finishStopRequested message s).2 }
  | .markDeleteRequested => { next := (Runtime.markDeleteRequested s).2, taken := s.pending }
  | .setInflight item => { next := Runtime.setInflight item s }
  | .setLastMessage output => { next := Runtime.setLastMessage output s }
  | .updateState state => { next := Runtime.updateState state s }
  | .transitionToIdle => { next := Runtime.transitionToIdle typeId s }
  | .recoverStaleWorking => { next := (Runtime.recoverStaleWorking typeId s).2 }
  | .completeWork heldOutput => { next := (Runtime.completeWork typeId heldOutput s).2.2 }
  | .resume => { next := (Runtime.resume s).2 }

/-! ## The loops over the queue -/

theorem pickPending_perm {owner : String} {items rest : List Item} {item : Item}
    (picked : pickPending owner items = some (item, rest)) : items.Perm (item :: rest) := by
  induction items generalizing rest with
  | nil => cases picked
  | cons candidate items ih =>
    rw [pickPending] at picked
    split at picked
    · cases picked
      exact List.Perm.refl _
    · obtain ⟨⟨found, left⟩, below, eq⟩ := Option.map_eq_some_iff.mp picked
      cases eq
      exact ((ih below).cons candidate).trans (List.Perm.swap _ _ _)

theorem takeMidTurn_perm (nodeId : String) (budget : Nat) (items : List Item) :
    items.Perm ((takeMidTurn nodeId budget items).1 ++ (takeMidTurn nodeId budget items).2) := by
  induction items generalizing budget with
  | nil => exact List.Perm.refl _
  | cons item items ih =>
    rw [takeMidTurn]
    split
    · exact (ih (budget - 1)).cons item
    · exact ((ih budget).cons item).trans List.perm_middle.symm

/-! ## One lemma per operation -/

theorem appendPending_cases (item : Item) (s : RuntimeState) :
    (s.deleteRequested = true ∧ appendPending item s = .error .nodeDeleting) ∨
      (s.deleteRequested = false ∧ pyStrip item.idempotencyKey ≠ "" ∧
        s.knowsKey (pyStrip item.idempotencyKey) = true ∧ appendPending item s = .ok (false, s)) ∨
      (s.deleteRequested = false ∧
        (pyStrip item.idempotencyKey = "" ∨ s.knowsKey (pyStrip item.idempotencyKey) = false) ∧
        appendPending item s = .ok (true, { s with pending := s.pending ++ [item] }.bump)) := by
  unfold appendPending
  by_cases deleting : s.deleteRequested = true
  · exact Or.inl ⟨deleting, if_pos deleting⟩
  · have alive : s.deleteRequested = false := by simpa using deleting
    rw [if_neg deleting]
    by_cases known : pyStrip item.idempotencyKey ≠ "" ∧
        s.knowsKey (pyStrip item.idempotencyKey) = true
    · exact Or.inr (Or.inl ⟨alive, known.1, known.2, if_pos known⟩)
    · refine Or.inr (Or.inr ⟨alive, ?_, if_neg known⟩)
      by_cases empty : pyStrip item.idempotencyKey = ""
      · exact Or.inl empty
      · exact Or.inr (by simpa [empty] using known)

theorem dequeuePendingToWorking_cases (typeId owner : String) (s : RuntimeState) :
    dequeuePendingToWorking typeId owner s = (none, s) ∨
      ∃ item rest, s.deleteRequested = false ∧ (s.state = .idle ∨ clockWaiting typeId s) ∧
        s.pending.Perm (item :: rest) ∧
        dequeuePendingToWorking typeId owner s =
          (some item, { s with pending := rest, inflight := some item, state := .working }.bump) := by
  unfold dequeuePendingToWorking
  split
  · exact Or.inl rfl
  · split
    · exact Or.inl rfl
    · rename_i alive ready
      cases picked : pickPending (pyStrip owner) s.pending with
      | none => exact Or.inl rfl
      | some pair =>
        obtain ⟨item, rest⟩ := pair
        refine Or.inr ⟨item, rest, by simpa using alive, ?_, pickPending_perm picked, rfl⟩
        by_cases idle : s.state = .idle
        · exact Or.inl idle
        · exact Or.inr (by simpa [idle] using ready)

theorem consumeMidTurnUserInputs_cases (limit : Int) (s : RuntimeState) :
    consumeMidTurnUserInputs limit s = ([], s) ∨
      ∃ consumed remaining, s.inflight.isSome = true ∧
        takeMidTurn "" (midTurnBudget limit) s.pending = (consumed, remaining) ∧
        consumeMidTurnUserInputs limit s = (consumed, { s with pending := remaining }.bump) := by
  unfold consumeMidTurnUserInputs
  split
  · exact Or.inl rfl
  split
  · exact Or.inl rfl
  split
  · exact Or.inl rfl
  · rename_i busy
    cases taken : takeMidTurn "" (midTurnBudget limit) s.pending with
    | mk consumed remaining =>
      by_cases same : remaining.length = s.pending.length
      · exact Or.inl (by simp [same])
      · exact Or.inr ⟨consumed, remaining, Option.isSome_iff_ne_none.mpr busy, rfl,
          by simp [same]⟩

theorem completeWork_cases (typeId : String) (held : Option HeldOutput) (s : RuntimeState) :
    (∃ output, held = some output ∧ completedState typeId s = .stop ∧
      completeWork typeId held s =
        (.stop, s.heldOutputs.length + 1,
          { s.enter .stop with
            stopRequested := false, heldOutputs := s.heldOutputs ++ [output] }.bump)) ∨
      ((held = none ∨ completedState typeId s ≠ .stop) ∧
        completeWork typeId held s =
          (completedState typeId s, 0,
            { s.enter (completedState typeId s) with stopRequested := false })) := by
  unfold completeWork
  cases finalState : completedState typeId s <;> cases held with
  | none => exact Or.inr ⟨Or.inl rfl, rfl⟩
  | some output =>
    first
      | exact Or.inr ⟨Or.inr (by simp), rfl⟩
      | exact Or.inl ⟨output, rfl, rfl, by simp⟩

theorem recoverStaleWorking_cases (typeId : String) (s : RuntimeState) :
    ((recoverStaleWorking typeId s).1.changed = false ∧ (recoverStaleWorking typeId s).2 = s) ∨
      ((recoverStaleWorking typeId s).1.changed = true ∧ s.state = .working ∧ s.inflight = none ∧
        ¬ clockWaiting typeId s ∧
        (recoverStaleWorking typeId s).2 =
          { s with inflight := none, stopRequested := false, state := .idle }.bump) := by
  unfold recoverStaleWorking planStaleWorkingRecovery applyRecoveryPlan
  split
  · exact Or.inl ⟨rfl, rfl⟩
  split
  · exact Or.inl ⟨rfl, rfl⟩
  split
  · exact Or.inl ⟨rfl, rfl⟩
  · rename_i working waiting flight
    exact Or.inr ⟨rfl, not_not.mp working, by simpa using flight, waiting, rfl⟩

theorem transitionToIdle_eq (typeId : String) (s : RuntimeState) :
    ∃ state stopRequested nodeEventSeq,
      transitionToIdle typeId s = { s with state, stopRequested, nodeEventSeq } := by
  unfold transitionToIdle
  split
  · obtain ⟨seq, entered⟩ := s.enter_eq .stop
    exact ⟨.stop, false, seq, by rw [entered]⟩
  split
  · exact ⟨s.state, s.stopRequested, s.nodeEventSeq, rfl⟩
  split
  · obtain ⟨seq, entered⟩ := s.enter_eq .working
    exact ⟨.working, s.stopRequested, seq, entered⟩
  · obtain ⟨seq, entered⟩ := s.enter_eq .idle
    exact ⟨.idle, false, seq, by rw [entered]⟩

theorem transitionToIdle_inflight (typeId : String) (s : RuntimeState) :
    (transitionToIdle typeId s).inflight = s.inflight := by
  obtain ⟨state, stop, seq, result⟩ := transitionToIdle_eq typeId s
  rw [result]

theorem completeWork_inflight (typeId : String) (held : Option HeldOutput) (s : RuntimeState) :
    (completeWork typeId held s).2.2.inflight = s.inflight := by
  rcases completeWork_cases typeId held s with ⟨output, _, _, holds⟩ | ⟨_, keeps⟩
  · rw [holds]
    exact s.enter_inflight _
  · rw [keeps]
    exact s.enter_inflight _

theorem StoreOp.perform_appendPending (item : Item) (typeId : String) (s : RuntimeState) :
    ((StoreOp.appendPending item).perform typeId s).next.inflight = s.inflight ∧
      ((StoreOp.appendPending item).perform typeId s).next.state = s.state := by
  rcases appendPending_cases item s with ⟨_, refused⟩ | ⟨_, _, _, known⟩ | ⟨_, _, appended⟩
  · simp [StoreOp.perform, refused]
  · simp [StoreOp.perform, known]
  · simp [StoreOp.perform, appended]

theorem updateState_eq (next : NodeState) (s : RuntimeState) :
    ∃ state stopRequested nodeEventSeq,
      updateState next s = { s with state, stopRequested, nodeEventSeq } := by
  unfold updateState
  split
  · exact ⟨s.state, s.stopRequested, s.nodeEventSeq, rfl⟩
  · obtain ⟨seq, entered⟩ := s.enter_eq next
    exact ⟨next, if next = .working then s.stopRequested else false, seq, by rw [entered]⟩

theorem resume_cases (s : RuntimeState) :
    (s.deleteRequested = true ∧ resume s = ([], s)) ∨
      ∃ nodeEventSeq, resume s = (s.heldOutputs,
        { s with heldOutputs := [], state := .idle, stopRequested := false, nodeEventSeq }) := by
  unfold resume
  split
  · rename_i deleting
    exact Or.inl ⟨deleting, rfl⟩
  · refine Or.inr ?_
    simp only
    split
    · exact ⟨s.nodeEventSeq + 1, rfl⟩
    · exact ⟨s.nodeEventSeq, rfl⟩

/-- The operations that hold an output or release the held ones. -/
def StoreOp.touchesHeldOutputs : StoreOp → Bool
  | .completeWork (some _) => true
  | .resume => true
  | _ => false

/-- What an operation does to the fields the propagation depends on: the held outputs stay unless it
is one of the two that hold or release, and a delete request stays. -/
theorem StoreOp.perform_held (op : StoreOp) (typeId : String) (s : RuntimeState) :
    (op.touchesHeldOutputs = false →
      (op.perform typeId s).next.heldOutputs = s.heldOutputs) ∧
    (s.deleteRequested = true → (op.perform typeId s).next.deleteRequested = true) := by
  cases op with
  | appendPending item =>
    rcases appendPending_cases item s with ⟨_, refused⟩ | ⟨_, _, _, known⟩ | ⟨_, _, appended⟩
    · simp [StoreOp.perform, refused]
    · simp [StoreOp.perform, known]
    · simp [StoreOp.perform, appended]
  | popPending =>
    simp only [StoreOp.perform, Runtime.popPending]
    split <;> simp
  | dequeuePendingToWorking owner =>
    rcases dequeuePendingToWorking_cases typeId owner s with none | ⟨item, rest, _, _, _, some⟩
    · simp [StoreOp.perform, none]
    · simp [StoreOp.perform, some]
  | consumeMidTurnUserInputs limit =>
    rcases consumeMidTurnUserInputs_cases limit s with none | ⟨consumed, remaining, _, _, some⟩
    · simp [StoreOp.perform, none]
    · simp [StoreOp.perform, some]
  | cancelWork =>
    simp only [StoreOp.perform, Runtime.cancelWork]
    split
    · simp
    · split <;> simp
  | finishStopRequested message =>
    simp only [StoreOp.perform, Runtime.finishStopRequested]
    split <;> simp
  | updateState state =>
    obtain ⟨state, stop, seq, result⟩ := updateState_eq state s
    simp [StoreOp.perform, result]
  | transitionToIdle =>
    obtain ⟨state, stop, seq, result⟩ := transitionToIdle_eq typeId s
    simp [StoreOp.perform, result]
  | recoverStaleWorking =>
    rcases recoverStaleWorking_cases typeId s with ⟨_, same⟩ | ⟨_, _, _, _, moved⟩
    · simp [StoreOp.perform, same]
    · simp [StoreOp.perform, moved]
  | completeWork held =>
    rcases completeWork_cases typeId held s with ⟨output, rfl, _, holds⟩ | ⟨_, keeps⟩
    · simp [StoreOp.perform, holds, StoreOp.touchesHeldOutputs]
    · simp [StoreOp.perform, keeps]
  | resume =>
    rcases resume_cases s with ⟨_, same⟩ | ⟨seq, released⟩
    · simp [StoreOp.perform, same]
    · simp [StoreOp.perform, released, StoreOp.touchesHeldOutputs]
  | markDeleteRequested => simp [StoreOp.perform, Runtime.markDeleteRequested]
  | setInflight item => simp [StoreOp.perform, Runtime.setInflight]
  | setLastMessage output => simp [StoreOp.perform, Runtime.setLastMessage]

/-- An item leaves the queue only by being taken. -/
theorem StoreOp.perform_items (op : StoreOp) (typeId : String) (s : RuntimeState) :
    ((op.perform typeId s).next.pending : Multiset Item) + (op.perform typeId s).taken =
      (s.pending : Multiset Item) + (op.perform typeId s).accepted := by
  cases op with
  | appendPending item =>
    rcases appendPending_cases item s with ⟨_, refused⟩ | ⟨_, _, _, known⟩ | ⟨_, _, appended⟩
    · simp [StoreOp.perform, refused]
    · simp [StoreOp.perform, known]
    · simp [StoreOp.perform, appended, ← Multiset.coe_add]
  | popPending =>
    simp only [StoreOp.perform, Runtime.popPending]
    cases queue : s.pending with
    | nil => simp [queue]
    | cons item rest => simp [← Multiset.cons_coe, ← Multiset.singleton_add, add_comm]
  | dequeuePendingToWorking owner =>
    rcases dequeuePendingToWorking_cases typeId owner s with none | ⟨item, rest, _, _, perm, some⟩
    · simp [StoreOp.perform, none]
    · have queue : (s.pending : Multiset Item) = item ::ₘ rest := Multiset.coe_eq_coe.mpr perm
      simp [StoreOp.perform, some, queue, ← Multiset.singleton_add, add_comm]
  | consumeMidTurnUserInputs limit =>
    rcases consumeMidTurnUserInputs_cases limit s with none | ⟨consumed, remaining, _, split, some⟩
    · simp [StoreOp.perform, none]
    · have perm := takeMidTurn_perm "" (midTurnBudget limit) s.pending
      rw [split] at perm
      have queue : (s.pending : Multiset Item) = ↑(consumed ++ remaining) :=
        Multiset.coe_eq_coe.mpr perm
      simp [StoreOp.perform, some, queue, ← Multiset.coe_add, add_comm]
  | cancelWork =>
    simp only [StoreOp.perform, Runtime.cancelWork]
    split
    · simp
    · split <;> simp
  | finishStopRequested message =>
    simp only [StoreOp.perform, Runtime.finishStopRequested]
    split <;> simp
  | updateState state =>
    simp only [StoreOp.perform, Runtime.updateState]
    split <;> simp
  | transitionToIdle =>
    simp only [StoreOp.perform, Runtime.transitionToIdle]
    split
    · simp
    split
    · simp
    split <;> simp
  | recoverStaleWorking =>
    simp only [StoreOp.perform, Runtime.recoverStaleWorking, applyRecoveryPlan]
    split <;> simp
  | completeWork held =>
    rcases completeWork_cases typeId held s with ⟨output, _, _, holds⟩ | ⟨_, keeps⟩
    · simp [StoreOp.perform, holds]
    · simp [StoreOp.perform, keeps]
  | resume =>
    rcases resume_cases s with ⟨_, same⟩ | ⟨seq, released⟩
    · simp [StoreOp.perform, same]
    · simp [StoreOp.perform, released]
  | markDeleteRequested => simp [StoreOp.perform, Runtime.markDeleteRequested]
  | setInflight item => simp [StoreOp.perform, Runtime.setInflight]
  | setLastMessage output => simp [StoreOp.perform, Runtime.setLastMessage]

theorem StoreOp.perform_seq_cases (op : StoreOp) (typeId : String) (s : RuntimeState) :
    s.nodeEventSeq < (op.perform typeId s).next.nodeEventSeq ∨
      ((op.perform typeId s).next.nodeEventSeq = s.nodeEventSeq ∧
        (op.perform typeId s).next.pending = s.pending ∧
        (op.perform typeId s).next.inflight = s.inflight ∧
        (op.perform typeId s).accepted = [] ∧ (op.perform typeId s).taken = []) := by
  cases op with
  | appendPending item =>
    rcases appendPending_cases item s with ⟨_, refused⟩ | ⟨_, _, _, known⟩ | ⟨_, _, appended⟩
    · exact Or.inr (by simp [StoreOp.perform, refused])
    · exact Or.inr (by simp [StoreOp.perform, known])
    · exact Or.inl (by simp [StoreOp.perform, appended])
  | popPending =>
    simp only [StoreOp.perform, Runtime.popPending]
    cases queue : s.pending with
    | nil => exact Or.inr (by simp [queue])
    | cons item rest => exact Or.inl (by simp)
  | dequeuePendingToWorking owner =>
    rcases dequeuePendingToWorking_cases typeId owner s with none | ⟨item, rest, _, _, _, some⟩
    · exact Or.inr (by simp [StoreOp.perform, none])
    · exact Or.inl (by simp [StoreOp.perform, some])
  | consumeMidTurnUserInputs limit =>
    rcases consumeMidTurnUserInputs_cases limit s with none | ⟨consumed, remaining, _, _, some⟩
    · exact Or.inr (by simp [StoreOp.perform, none])
    · exact Or.inl (by simp [StoreOp.perform, some])
  | cancelWork =>
    simp only [StoreOp.perform, Runtime.cancelWork]
    split
    · exact Or.inr (by simp [*])
    · exact Or.inl (by split <;> simp)
  | finishStopRequested message =>
    simp only [StoreOp.perform, Runtime.finishStopRequested]
    split
    · exact Or.inl (by simp)
    · exact Or.inr (by simp)
  | updateState state =>
    simp only [StoreOp.perform]
    unfold Runtime.updateState
    split
    · exact Or.inr (by simp)
    · rcases (s.le_enter_nodeEventSeq state).lt_or_eq with more | same
      · exact Or.inl more
      · exact Or.inr (by simp [same])
  | transitionToIdle =>
    simp only [StoreOp.perform]
    unfold Runtime.transitionToIdle
    split
    · rcases (s.le_enter_nodeEventSeq .stop).lt_or_eq with more | same
      · exact Or.inl more
      · exact Or.inr (by simp [same])
    split
    · exact Or.inr (by simp)
    split
    · rcases (s.le_enter_nodeEventSeq .working).lt_or_eq with more | same
      · exact Or.inl more
      · exact Or.inr (by simp [same])
    · rcases (s.le_enter_nodeEventSeq .idle).lt_or_eq with more | same
      · exact Or.inl more
      · exact Or.inr (by simp [same])
  | recoverStaleWorking =>
    simp only [StoreOp.perform, Runtime.recoverStaleWorking, applyRecoveryPlan]
    split
    · exact Or.inl (by simp)
    · exact Or.inr (by simp)
  | completeWork held =>
    rcases completeWork_cases typeId held s with ⟨output, _, _, holds⟩ | ⟨_, keeps⟩
    · have raised := s.le_enter_nodeEventSeq .stop
      exact Or.inl (by simp only [StoreOp.perform, holds, RuntimeState.bump_nodeEventSeq]; omega)
    · simp only [StoreOp.perform, keeps]
      rcases (s.le_enter_nodeEventSeq (completedState typeId s)).lt_or_eq with more | same
      · exact Or.inl more
      · exact Or.inr (by simp [same])
  | resume =>
    simp only [StoreOp.perform, Runtime.resume]
    split
    · exact Or.inr (by simp)
    · split
      · exact Or.inl (by simp)
      · exact Or.inr (by simp)
  | markDeleteRequested => exact Or.inl (by simp [StoreOp.perform, Runtime.markDeleteRequested])
  | setInflight item => exact Or.inl (by simp [StoreOp.perform, Runtime.setInflight])
  | setLastMessage output => exact Or.inl (by simp [StoreOp.perform, Runtime.setLastMessage])

/-- No operation lowers `node_event_seq`. -/
theorem StoreOp.nodeEventSeq_le (op : StoreOp) (typeId : String) (s : RuntimeState) :
    s.nodeEventSeq ≤ (op.perform typeId s).next.nodeEventSeq := by
  rcases op.perform_seq_cases typeId s with raised | ⟨same, _⟩
  · exact raised.le
  · exact same.ge

/-- An operation that leaves `node_event_seq` alone leaves the queue and the item in flight alone. -/
theorem StoreOp.perform_of_seq_eq {op : StoreOp} {typeId : String} {s : RuntimeState}
    (same : (op.perform typeId s).next.nodeEventSeq = s.nodeEventSeq) :
    (op.perform typeId s).next.pending = s.pending ∧
      (op.perform typeId s).next.inflight = s.inflight := by
  rcases op.perform_seq_cases typeId s with raised | ⟨_, queue, flight, _⟩
  · omega
  · exact ⟨queue, flight⟩

/-! ## The sequence number as a version

The methods of the store that the systems above do not use join the operations here; `write`, which replaces
the whole runtime state, does not.
-/

/-- `recover_inflight_to_pending` -/
def recoverInflightToPending (s : RuntimeState) : RuntimeState :=
  match s.inflight with
  | none => s
  | some item => { s with pending := item :: s.pending, inflight := none }.bump

/-- `set_runtime_event`: a node without a number takes the one that the diagnostics on the disk have. -/
def setRuntimeEvent (durable : Nat) (s : RuntimeState) : RuntimeState :=
  { s with nodeEventSeq := if s.nodeEventSeq = 0 then durable else s.nodeEventSeq }.bump

/-- A call of a method of `NodeConfigStore` or `NodeOutputHoldStore`. -/
inductive StoreCall where
  | store (op : StoreOp)
  | setLastOutput (output : String)
  | setRuntimeEvent (durable : Nat)
  | touchLastRunAt
  | recoverInflightToPending
  | recoverStartupRuntimeState

/-- Run one call on the runtime state of a node of type `typeId`; at start-up the state is cleared. -/
def StoreCall.perform (typeId : String) (call : StoreCall) (s : RuntimeState) : StoreOutcome :=
  match call with
  | .store op => op.perform typeId s
  | .setLastOutput output => { next := Runtime.setLastMessage output s }
  | .setRuntimeEvent durable => { next := Runtime.setRuntimeEvent durable s }
  | .touchLastRunAt => { next := s }
  | .recoverInflightToPending => { next := Runtime.recoverInflightToPending s, accepted := s.inflight.toList }
  | .recoverStartupRuntimeState => { next := {} }

theorem StoreCall.perform_seq_cases {call : StoreCall} (running : call ≠ .recoverStartupRuntimeState)
    (typeId : String) (s : RuntimeState) :
    s.nodeEventSeq < (call.perform typeId s).next.nodeEventSeq ∨
      ((call.perform typeId s).next.nodeEventSeq = s.nodeEventSeq ∧
        (call.perform typeId s).next.pending = s.pending ∧
        (call.perform typeId s).next.inflight = s.inflight ∧
        (call.perform typeId s).accepted = [] ∧ (call.perform typeId s).taken = []) := by
  cases call with
  | store op => exact op.perform_seq_cases typeId s
  | setLastOutput output => exact Or.inl (by simp [StoreCall.perform, Runtime.setLastMessage])
  | setRuntimeEvent durable =>
    refine Or.inl ?_
    simp only [StoreCall.perform, Runtime.setRuntimeEvent, RuntimeState.bump_nodeEventSeq]
    split <;> omega
  | touchLastRunAt => exact Or.inr ⟨rfl, rfl, rfl, rfl, rfl⟩
  | recoverInflightToPending =>
    simp only [StoreCall.perform, Runtime.recoverInflightToPending]
    cases flight : s.inflight with
    | none => exact Or.inr (by simp [flight])
    | some item => exact Or.inl (by simp)
  | recoverStartupRuntimeState => exact absurd rfl running

/-- The node behind calls one after the other. -/
def performAll (typeId : String) (s : RuntimeState) (calls : List StoreCall) : RuntimeState :=
  calls.foldl (fun s call => (call.perform typeId s).next) s

/-- No call is the one at start-up. -/
def Running (calls : List StoreCall) : Prop := ∀ call ∈ calls, call ≠ .recoverStartupRuntimeState

theorem nodeEventSeq_le_performAll {calls : List StoreCall} (running : Running calls) (typeId : String)
    (s : RuntimeState) : s.nodeEventSeq ≤ (performAll typeId s calls).nodeEventSeq := by
  induction calls generalizing s with
  | nil => exact Nat.le_refl _
  | cons call calls ih =>
    obtain ⟨first, rest⟩ := List.forall_mem_cons.mp running
    refine Nat.le_trans ?_ (ih rest (call.perform typeId s).next)
    rcases StoreCall.perform_seq_cases first typeId s with raised | ⟨same, _⟩
    · exact raised.le
    · exact same.ge

/-- **Who finds the same `node_event_seq` again has missed nothing.**  Between two starts the number never
decreases, and where it is the same behind any calls, the queue and the item in flight are the same, and none of
the calls accepted an item or took one. -/
theorem nothing_missed (typeId : String) (s : RuntimeState) (calls : List StoreCall)
    (running : Running calls) :
    s.nodeEventSeq ≤ (performAll typeId s calls).nodeEventSeq ∧
    ((performAll typeId s calls).nodeEventSeq = s.nodeEventSeq →
      (performAll typeId s calls).pending = s.pending ∧ (performAll typeId s calls).inflight = s.inflight ∧
      ∀ front call back, calls = front ++ call :: back →
        (call.perform typeId (performAll typeId s front)).accepted = [] ∧
        (call.perform typeId (performAll typeId s front)).taken = []) := by
  refine ⟨nodeEventSeq_le_performAll running typeId s, fun same => ?_⟩
  induction calls generalizing s with
  | nil => exact ⟨rfl, rfl, fun front call back parts => absurd parts.symm (by simp)⟩
  | cons first calls ih =>
    obtain ⟨isFirst, rest⟩ := List.forall_mem_cons.mp running
    have later := nodeEventSeq_le_performAll rest typeId (first.perform typeId s).next
    change (performAll typeId (first.perform typeId s).next calls).nodeEventSeq = _ at same
    rcases StoreCall.perform_seq_cases isFirst typeId s with raised | ⟨stays, queue, flight, accepted, taken⟩
    · omega
    · obtain ⟨pending, inflight, nothing⟩ := ih (first.perform typeId s).next rest (by omega)
      refine ⟨pending.trans queue, inflight.trans flight, fun front call back parts => ?_⟩
      cases front with
      | nil =>
        cases parts
        exact ⟨accepted, taken⟩
      | cons other front =>
        cases parts
        exact nothing front call back rfl

/-- The queue of a node behind a call that changes nothing and an item with a key that is known. -/
def requeued : RuntimeState :=
  performAll "agent_node" {} [.store (.appendPending { idempotencyKey := "k", payload := "a" }),
    .store (.dequeuePendingToWorking "owner"), .recoverInflightToPending]

/-- The item with the known key is not appended again. -/
theorem nothing_missed_requeued :
    (performAll "agent_node" requeued [.touchLastRunAt,
      .store (.appendPending { idempotencyKey := "k", payload := "b" })]).pending =
        [{ idempotencyKey := "k", payload := "a" }] := by
  have quiet : Running [.touchLastRunAt, .store (.appendPending { idempotencyKey := "k", payload := "b" })] := by
    intro call mem
    simp only [List.mem_cons, List.not_mem_nil, or_false] at mem
    rcases mem with rfl | rfl
    · intro same
      cases same
    · intro same
      cases same
  have same := ((nothing_missed "agent_node" requeued _ quiet).2 (by decide +kernel)).1
  exact same.trans (by decide +kernel)

end AgentPark.Runtime
