import AgentPark.Lib.Execution
import AgentPark.Runtime.StoreOp

/-!
# Config transactions beside the runtime store

`NodeConfigService.update` reads the whole node (`read_strict`), lets a callback change it, and
writes it back: the file first, then every runtime field through `RuntimeStateMemoryStore.replace`.
The transactions of one config path run one after the other, but the runtime store has a lock of its
own, and the queue operations take only that one.
-/

namespace AgentPark.Runtime

open Lib

/-- What `read_strict` returns and `write` takes: the fields of the config file and the runtime
fields. -/
structure ConfigPayload (κ : Type*) where
  persistent : κ
  runtime : RuntimeState
deriving DecidableEq

/-- The `mutate` callback of a config update together with the checks `update` makes on its result;
`none` when one of them raises.  No callback the program passes adds to the queue, touches the item in
flight or lowers the sequence number. -/
structure ConfigMutation (κ : Type*) where
  mutate : ConfigPayload κ → Option (ConfigPayload κ)
  pending_sublist : ∀ before after, mutate before = some after →
    after.runtime.pending.Sublist before.runtime.pending
  inflight_eq : ∀ before after, mutate before = some after →
    after.runtime.inflight = before.runtime.inflight
  nodeEventSeq_le : ∀ before after, mutate before = some after →
    before.runtime.nodeEventSeq ≤ after.runtime.nodeEventSeq

section Mutations

variable {κ : Type*}

theorem recordCompletion_keeps (requestId role message : String) (state : NodeState)
    (completedAt : String) (s : RuntimeState) :
    (recordCompletion requestId role message state completedAt s).pending = s.pending ∧
      (recordCompletion requestId role message state completedAt s).inflight = s.inflight ∧
      (recordCompletion requestId role message state completedAt s).nodeEventSeq =
        s.nodeEventSeq := by
  unfold recordCompletion
  simp only
  split <;> exact ⟨rfl, rfl, rfl⟩

/-- The callback of `record_node_request_completion`. -/
def recordCompletionMutation (requestId role message : String) (state : NodeState)
    (completedAt : String) : ConfigMutation κ where
  mutate before :=
    some { before with
      runtime := recordCompletion requestId role message state completedAt before.runtime }
  pending_sublist before after result := by
    cases result
    rw [(recordCompletion_keeps ..).1]
  inflight_eq before after result := by
    cases result
    exact (recordCompletion_keeps ..).2.1
  nodeEventSeq_le before after result := by
    cases result
    exact (recordCompletion_keeps ..).2.2.ge

/-- The callback of `clear_companion_unexecuted_inbox`, the one callback that removes items from the
queue. -/
def clearUnexecutedInboxMutation : ConfigMutation κ where
  mutate before :=
    some { before with
      runtime := { before.runtime with
        pending := before.runtime.pending.filter (·.source ≠ "runtime_event_dispatch") } }
  pending_sublist before after result := by
    cases result
    exact List.filter_sublist
  inflight_eq before after result := by
    cases result
    rfl
  nodeEventSeq_le before after result := by
    cases result
    exact le_rfl

end Mutations

/-! ## The step relation -/

/-- How far `do_update` has come. -/
inductive ConfigPhase (κ : Type*) where
  | started
  | read (before : ConfigPayload κ)
  | mutated (before after : ConfigPayload κ)
  | written (before after : ConfigPayload κ)

/-- A task of the path queue: the thread that submitted it, its callback and its progress. -/
structure ConfigTransaction (κ : Type*) where
  thread : Nat
  mutation : ConfigMutation κ
  phase : ConfigPhase κ

/-- One node: its config file, its runtime state, and the path queue.  `accepted` and `taken`
record the items `append_pending` returned `True` for and the items a step took out of the queue. -/
structure ConfigSystem (κ : Type*) where
  config : κ
  store : RuntimeState
  active : Option (ConfigTransaction κ) := none
  waiting : List (Nat × ConfigMutation κ) := []
  accepted : Multiset Item
  taken : Multiset Item := 0

/-- A node no transaction runs on; the items in its queue count as accepted. -/
def ConfigSystem.init {κ : Type*} (config : κ) (store : RuntimeState) : ConfigSystem κ :=
  { config, store, accepted := store.pending }

/-- A step of some thread. -/
inductive ConfigAction (κ : Type*) where
  | storeUpdate (thread : Nat) (op : StoreOp)
  | submit (thread : Nat) (mutation : ConfigMutation κ)
  | start
  | readStrict
  | mutate
  | writeFile
  | replace
  | fail

section Step

variable {κ : Type*} [DecidableEq κ]

/-- One step.  The path queue runs one transaction at a time; a failing read, callback, check or
file write ends it without a `replace`, and so does an update that changes no field. -/
def ConfigSystem.step (typeId : String) (s : ConfigSystem κ) :
    ConfigAction κ → Option (ConfigSystem κ)
  | .storeUpdate _ op =>
    let outcome := op.perform typeId s.store
    some { s with
      store := outcome.next
      accepted := s.accepted + outcome.accepted
      taken := s.taken + outcome.taken }
  | .submit thread mutation => some { s with waiting := s.waiting ++ [(thread, mutation)] }
  | .start =>
    match s.active, s.waiting with
    | none, (thread, mutation) :: waiting =>
      some { s with active := some ⟨thread, mutation, .started⟩, waiting }
    | _, _ => none
  | .readStrict =>
    match s.active with
    | some ⟨thread, mutation, .started⟩ =>
      some { s with active := some ⟨thread, mutation, .read ⟨s.config, s.store⟩⟩ }
    | _ => none
  | .mutate =>
    match s.active with
    | some ⟨thread, mutation, .read before⟩ =>
      match mutation.mutate before with
      | none => some { s with active := none }
      | some after =>
        if after = before then some { s with active := none }
        else some { s with active := some ⟨thread, mutation, .mutated before after⟩ }
    | _ => none
  | .writeFile =>
    match s.active with
    | some ⟨thread, mutation, .mutated before after⟩ =>
      some { s with
        config := after.persistent
        active := some ⟨thread, mutation, .written before after⟩ }
    | _ => none
  | .replace =>
    match s.active with
    | some ⟨_, _, .written before after⟩ =>
      some { s with
        store := after.runtime
        active := none
        -- what the callback itself removed from the queue it was shown
        taken := s.taken + ((before.runtime.pending : Multiset Item) - after.runtime.pending) }
    | _ => none
  | .fail => if s.active.isSome then some { s with active := none } else none

/-- What must hold of every step. -/
structure KeepsQueue (s : ConfigSystem κ) (a : ConfigAction κ) (s' : ConfigSystem κ) : Prop where
  items : s'.accepted ≤ (s'.store.pending : Multiset Item) + s'.taken
  inflight : (∀ thread op, a ≠ .storeUpdate thread op) → s'.store.inflight = s.store.inflight
  nodeEventSeq : s.store.nodeEventSeq ≤ s'.store.nodeEventSeq

/-- A transaction that calls `replace` finds `node_event_seq` as it read it. -/
def SnapshotCurrent (s : ConfigSystem κ) (a : ConfigAction κ) (_ : ConfigSystem κ) : Prop :=
  a = .replace → ∀ thread mutation before after,
    s.active = some ⟨thread, mutation, .written before after⟩ →
    before.runtime.nodeEventSeq = s.store.nodeEventSeq

/-- The callbacks an action submits leave `node_event_seq` as they find it. -/
def ConfigAction.KeepsSeq : ConfigAction κ → Prop
  | .submit _ mutation => ∀ before after, mutation.mutate before = some after →
      after.runtime.nodeEventSeq = before.runtime.nodeEventSeq
  | _ => True

/-! ## The invariant of the transactions -/

/-- What a reader of `old` knows about the runtime state `new` of later: the sequence number did
not go down, and while it is the same the queue and the item in flight are. -/
structure ReadFrom (old new : RuntimeState) : Prop where
  nodeEventSeq_le : old.nodeEventSeq ≤ new.nodeEventSeq
  current : old.nodeEventSeq = new.nodeEventSeq →
    old.pending = new.pending ∧ old.inflight = new.inflight

theorem ReadFrom.refl (s : RuntimeState) : ReadFrom s s := ⟨le_rfl, fun _ => ⟨rfl, rfl⟩⟩

variable {typeId : String}

theorem ReadFrom.perform {old s : RuntimeState} (from_old : ReadFrom old s) (op : StoreOp) :
    ReadFrom old (op.perform typeId s).next := by
  have below := from_old.nodeEventSeq_le
  have above := op.nodeEventSeq_le typeId s
  refine ⟨below.trans above, fun same => ?_⟩
  have first : old.nodeEventSeq = s.nodeEventSeq := by omega
  have second : (op.perform typeId s).next.nodeEventSeq = s.nodeEventSeq := by omega
  obtain ⟨pendingOld, inflightOld⟩ := from_old.current first
  obtain ⟨pendingNew, inflightNew⟩ := op.perform_of_seq_eq second
  exact ⟨pendingOld.trans pendingNew.symm, inflightOld.trans inflightNew.symm⟩

/-- The running transaction read its snapshot from the store and computed its result from it. -/
def ConfigTransaction.FromStore (store : RuntimeState) (txn : ConfigTransaction κ) : Prop :=
  match txn.phase with
  | .started => True
  | .read before => ReadFrom before.runtime store
  | .mutated before after =>
    ReadFrom before.runtime store ∧ txn.mutation.mutate before = some after
  | .written before after =>
    ReadFrom before.runtime store ∧ txn.mutation.mutate before = some after

omit [DecidableEq κ] in
theorem ConfigTransaction.FromStore.perform {store : RuntimeState} {txn : ConfigTransaction κ}
    (from_store : txn.FromStore store) (op : StoreOp) :
    txn.FromStore (op.perform typeId store).next := by
  obtain ⟨thread, mutation, phase⟩ := txn
  cases phase with
  | started => trivial
  | read before => exact ReadFrom.perform from_store op
  | mutated before after => exact ⟨from_store.1.perform op, from_store.2⟩
  | written before after => exact ⟨from_store.1.perform op, from_store.2⟩

/-- What every step of a run keeps: no accepted item is missing, and the running transaction stems
from the store. -/
structure ConfigInv (s : ConfigSystem κ) : Prop where
  items : s.accepted ≤ (s.store.pending : Multiset Item) + s.taken
  active : ∀ txn, s.active = some txn → txn.FromStore s.store

omit [DecidableEq κ] in
theorem ConfigInv.init (config : κ) (store : RuntimeState) :
    ConfigInv (ConfigSystem.init config store) :=
  ⟨Multiset.le_add_right .., fun _ running => by cases running⟩

variable {s s' : ConfigSystem κ} {a : ConfigAction κ}

theorem ConfigSystem.step_cases (enabled : s.step typeId a = some s') :
    (∃ thread op, a = .storeUpdate thread op ∧ s'.active = s.active ∧
      s'.store = (op.perform typeId s.store).next ∧
      s'.accepted = s.accepted + (op.perform typeId s.store).accepted ∧
      s'.taken = s.taken + (op.perform typeId s.store).taken) ∨
    (∃ thread mutation before after, a = .replace ∧
      s.active = some ⟨thread, mutation, .written before after⟩ ∧ s'.active = none ∧
      s'.store = after.runtime ∧ s'.accepted = s.accepted ∧
      s'.taken = s.taken + ((before.runtime.pending : Multiset Item) - after.runtime.pending)) ∨
    (a ≠ .replace ∧ (∀ thread op, a ≠ .storeUpdate thread op) ∧ s'.store = s.store ∧
      s'.accepted = s.accepted ∧ s'.taken = s.taken ∧
      ((∀ txn, s.active = some txn → txn.FromStore s.store) →
        ∀ txn, s'.active = some txn → txn.FromStore s.store)) := by
  cases a with
  | storeUpdate thread op =>
    cases enabled
    exact Or.inl ⟨thread, op, rfl, rfl, rfl, rfl, rfl⟩
  | submit thread mutation =>
    cases enabled
    exact Or.inr (Or.inr ⟨by simp, by simp, rfl, rfl, rfl, id⟩)
  | start =>
    simp only [ConfigSystem.step] at enabled
    split at enabled
    · cases enabled
      refine Or.inr (Or.inr ⟨by simp, by simp, rfl, rfl, rfl, fun _ txn running => ?_⟩)
      cases running
      trivial
    · cases enabled
  | readStrict =>
    simp only [ConfigSystem.step] at enabled
    split at enabled
    · cases enabled
      refine Or.inr (Or.inr ⟨by simp, by simp, rfl, rfl, rfl, fun _ txn running => ?_⟩)
      cases running
      exact ReadFrom.refl s.store
    · cases enabled
  | mutate =>
    simp only [ConfigSystem.step] at enabled
    split at enabled
    · rename_i thread mutation before active
      cases result : mutation.mutate before with
      | none =>
        simp only [result, Option.some.injEq] at enabled
        cases enabled
        refine Or.inr (Or.inr ⟨by simp, by simp, rfl, rfl, rfl, fun _ txn running => ?_⟩)
        cases running
      | some after =>
        simp only [result] at enabled
        split at enabled
        · cases enabled
          refine Or.inr (Or.inr ⟨by simp, by simp, rfl, rfl, rfl, fun _ txn running => ?_⟩)
          cases running
        · cases enabled
          refine Or.inr (Or.inr ⟨by simp, by simp, rfl, rfl, rfl, fun fresh txn running => ?_⟩)
          cases running
          exact ⟨fresh _ active, result⟩
    · cases enabled
  | writeFile =>
    simp only [ConfigSystem.step] at enabled
    split at enabled
    · rename_i thread mutation before after active
      cases enabled
      refine Or.inr (Or.inr ⟨by simp, by simp, rfl, rfl, rfl, fun fresh txn running => ?_⟩)
      cases running
      exact fresh ⟨thread, mutation, .mutated before after⟩ active
    · cases enabled
  | replace =>
    simp only [ConfigSystem.step] at enabled
    split at enabled
    · rename_i thread mutation before after active
      cases enabled
      exact Or.inr (Or.inl ⟨thread, mutation, before, after, rfl, active, rfl, rfl, rfl, rfl⟩)
    · cases enabled
  | fail =>
    simp only [ConfigSystem.step] at enabled
    split at enabled
    · cases enabled
      refine Or.inr (Or.inr ⟨by simp, by simp, rfl, rfl, rfl, fun _ txn running => ?_⟩)
      cases running
    · cases enabled

/-- A step that keeps the queue keeps the invariant. -/
theorem ConfigInv.step (inv : ConfigInv s) (enabled : s.step typeId a = some s')
    (keeps : KeepsQueue s a s') :
    ConfigInv s' := by
  refine ⟨keeps.items, fun txn running => ?_⟩
  rcases ConfigSystem.step_cases enabled with
    ⟨thread, op, _, active, store, _⟩ | ⟨_, _, _, _, _, _, done, _⟩ | ⟨_, _, store, _, _, carry⟩
  · rw [store]
    exact (inv.active txn (active ▸ running)).perform op
  · rw [done] at running
    cases running
  · rw [store]
    exact carry inv.active txn running

theorem ConfigInv.keepsQueue (inv : ConfigInv s) (enabled : s.step typeId a = some s')
    (current : SnapshotCurrent s a s') :
    KeepsQueue s a s' := by
  rcases ConfigSystem.step_cases enabled with
    ⟨thread, op, isUpdate, _, store, accepted, taken⟩ |
      ⟨thread, mutation, before, after, isReplace, active, _, store, accepted, taken⟩ |
      ⟨_, _, store, accepted, taken, _⟩
  · refine ⟨?_, fun noUpdate => absurd isUpdate (noUpdate thread op), ?_⟩
    · have moved := op.perform_items typeId s.store
      calc s'.accepted
          = s.accepted + (op.perform typeId s.store).accepted := accepted
        _ ≤ (s.store.pending + s.taken) + (op.perform typeId s.store).accepted :=
            add_le_add_left inv.items _
        _ = (s.store.pending + (op.perform typeId s.store).accepted) + s.taken := by
            rw [add_right_comm]
        _ = ((op.perform typeId s.store).next.pending + (op.perform typeId s.store).taken) +
              s.taken := by rw [moved]
        _ = s'.store.pending + s'.taken := by rw [store, taken, add_assoc, add_comm s.taken]
    · rw [store]
      exact op.nodeEventSeq_le typeId s.store
  · obtain ⟨from_store, result⟩ := inv.active _ active
    have same := current isReplace thread mutation before after active
    obtain ⟨pending, inflight⟩ := from_store.current same
    have removed : (after.runtime.pending : Multiset Item) ≤ before.runtime.pending :=
      Multiset.coe_le.mpr (mutation.pending_sublist before after result).subperm
    refine ⟨?_, fun _ => ?_, ?_⟩
    · calc s'.accepted
          = s.accepted := accepted
        _ ≤ before.runtime.pending + s.taken := pending ▸ inv.items
        _ = (before.runtime.pending - after.runtime.pending + after.runtime.pending) + s.taken := by
            rw [Multiset.sub_add_cancel removed]
        _ = s'.store.pending + s'.taken := by
            rw [store, taken, add_right_comm, add_comm, add_comm s.taken]
    · rw [store, mutation.inflight_eq before after result, inflight]
    · rw [store, ← same]
      exact mutation.nodeEventSeq_le before after result
  · refine ⟨?_, fun _ => by rw [store], by rw [store]⟩
    rw [accepted, store, taken]
    exact inv.items

/-- The callbacks of the transactions that run or wait. -/
def ConfigSystem.mutations (s : ConfigSystem κ) : List (ConfigMutation κ) :=
  s.active.toList.map (·.mutation) ++ s.waiting.map Prod.snd

theorem ConfigSystem.mem_mutations_of_step (enabled : s.step typeId a = some s')
    {mutation : ConfigMutation κ} (mem : mutation ∈ s'.mutations) :
    mutation ∈ s.mutations ∨ ∃ thread, a = .submit thread mutation := by
  cases a with
  | storeUpdate thread op =>
    cases enabled
    exact Or.inl mem
  | submit thread submitted =>
    cases enabled
    simp only [ConfigSystem.mutations, List.map_append, List.map_cons, List.map_nil,
      List.mem_append, List.mem_singleton] at mem
    rcases mem with running | waiting | new
    · exact Or.inl (List.mem_append_left _ running)
    · exact Or.inl (List.mem_append_right _ waiting)
    · exact Or.inr ⟨thread, by rw [new]⟩
  | start =>
    simp only [ConfigSystem.step] at enabled
    split at enabled
    · rename_i thread started waiting idle queue
      cases enabled
      refine Or.inl ?_
      simpa [ConfigSystem.mutations, idle, queue] using mem
    · cases enabled
  | readStrict | writeFile =>
    simp only [ConfigSystem.step] at enabled
    split at enabled
    · rename_i active
      cases enabled
      refine Or.inl ?_
      simpa [ConfigSystem.mutations, active] using mem
    · cases enabled
  | mutate =>
    simp only [ConfigSystem.step] at enabled
    split at enabled
    · rename_i thread running before active
      refine Or.inl ?_
      split at enabled
      · cases enabled
        exact List.mem_append_right _ (by simpa [ConfigSystem.mutations] using mem)
      · split at enabled
        · cases enabled
          exact List.mem_append_right _ (by simpa [ConfigSystem.mutations] using mem)
        · cases enabled
          simpa [ConfigSystem.mutations, active] using mem
    · cases enabled
  | replace | fail =>
    simp only [ConfigSystem.step] at enabled
    split at enabled
    · cases enabled
      exact Or.inl (List.mem_append_right _ (by simpa [ConfigSystem.mutations] using mem))
    · cases enabled

/-- The item sent by `append_pending` while a config write is under way stays in the queue, the item
in flight stays in flight and the sequence number does not go down, in every run in which every
`replace` finds `node_event_seq` as its transaction read it.  When the callbacks leave that number
alone, as the one of `record_node_request_completion` does, these are the only runs. -/
theorem configUpdate_keepsQueue (typeId : String) (config : κ) (store : RuntimeState)
    (actions : List (ConfigAction κ)) :
    (Along (ConfigSystem.step typeId) SnapshotCurrent (ConfigSystem.init config store) actions →
      Along (ConfigSystem.step typeId) KeepsQueue (ConfigSystem.init config store) actions) ∧
    ((∀ a ∈ actions, a.KeepsSeq) →
      Along (ConfigSystem.step typeId) KeepsQueue (ConfigSystem.init config store) actions →
      Along (ConfigSystem.step typeId) SnapshotCurrent (ConfigSystem.init config store)
        actions) := by
  refine ⟨fun current => ?_, fun stable keeps => ?_⟩
  · refine along_of_invariant (I := ConfigInv) ?_ (ConfigInv.init config store) current
    intro s a s' inv enabled here
    have keeps := inv.keepsQueue enabled here
    exact ⟨keeps, inv.step enabled keeps⟩
  · refine along_of_invariant (C := fun s a s' => KeepsQueue s a s' ∧ a.KeepsSeq)
      (I := fun s => ConfigInv s ∧ ∀ mutation ∈ s.mutations, ∀ before after,
        mutation.mutate before = some after →
        after.runtime.nodeEventSeq = before.runtime.nodeEventSeq)
      ?_ ⟨ConfigInv.init config store, by simp [ConfigSystem.mutations, ConfigSystem.init]⟩
      (keeps.and (along_of_forall_mem stable))
    intro s a s' inv enabled here
    refine ⟨fun isReplace thread mutation before after active => ?_,
      inv.1.step enabled here.1, fun mutation mem => ?_⟩
    · subst isReplace
      obtain ⟨from_store, result⟩ := inv.1.active _ active
      have running : mutation ∈ s.mutations := by simp [ConfigSystem.mutations, active]
      have same := inv.2 mutation running before after result
      simp only [ConfigSystem.step, active, Option.some.injEq] at enabled
      have kept := here.1.nodeEventSeq
      rw [← enabled] at kept
      exact le_antisymm from_store.nodeEventSeq_le (same ▸ kept)
    · rcases ConfigSystem.mem_mutations_of_step enabled mem with old | ⟨thread, isSubmit⟩
      · exact inv.2 mutation old
      · have stableHere := here.2
        rw [isSubmit] at stableHere
        exact stableHere

end Step

/-! ## A write that loses an item -/

/-- A completed run records itself; a message of another thread arrives between the snapshot and
the write. -/
def recordDuringAppend : List (ConfigAction String) :=
  [.submit 1 (recordCompletionMutation "r1" "assistant" "done" .idle "2026-01-01 00:00:00.000000"),
    .start, .readStrict, .mutate, .storeUpdate 2 (.appendPending { payload := "hello" }),
    .writeFile]

/-- `append_pending` returned `True` for the message, no step took it, and `replace` drops it. -/
theorem configUpdate_loses_append :
    ¬ ∀ (typeId config : String) (store : RuntimeState) (actions : List (ConfigAction String)),
      Along (ConfigSystem.step typeId) KeepsQueue (ConfigSystem.init config store) actions := by
  intro keeps
  have along := keeps "agent_node" "" {} (recordDuringAppend ++ [.replace])
  have last := (along.last rfl rfl).items
  exact absurd last (by decide)

/-- The same two threads, the message before the snapshot. -/
def recordAfterAppend : List (ConfigAction String) :=
  [.submit 1 (recordCompletionMutation "r1" "assistant" "done" .idle "2026-01-01 00:00:00.000000"),
    .start, .storeUpdate 2 (.appendPending { payload := "hello" }), .readStrict, .mutate,
    .writeFile]

/-- Every step of that order keeps the queue. -/
theorem configUpdate_keepsQueue_recordAfterAppend :
    Along (ConfigSystem.step "agent_node") KeepsQueue (ConfigSystem.init "" {})
      (recordAfterAppend ++ [.replace]) := by
  refine (configUpdate_keepsQueue "agent_node" "" {} _).1 ?_
  refine along_append ?_ fun m ran => ?_
  · have others : ∀ a ∈ recordAfterAppend, a ≠ ConfigAction.replace := by simp [recordAfterAppend]
    exact (along_of_forall_mem others).mono fun _ _ _ other isReplace => absurd isReplace other
  · cases ran
    intro s' enabled
    refine ⟨fun _ thread mutation before after active => ?_, along_nil s'⟩
    cases active
    rfl

end AgentPark.Runtime
