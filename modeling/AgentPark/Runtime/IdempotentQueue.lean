import AgentPark.Lib.Execution
import AgentPark.Runtime.StoreOp
import Mathlib.Logic.Function.Basic

/-!
# Idempotency keys

`append_pending` refuses an item whose idempotency key is in the queue, in flight, in the request
history or the last completed request.  The last two are filled when a run records its completion
under the key.
-/

namespace AgentPark.Runtime

open Lib

/-- The idempotency key of an item, as `append_pending` compares it. -/
def Item.key (item : Item) : String := pyStrip item.idempotencyKey

/-- The keys the store remembers outside the queue. -/
def RuntimeState.remembersKey (s : RuntimeState) (key : String) : Bool :=
  s.inflight.any (fun item => item.key = key) ||
    s.completedRequests.any (fun existing => pyStrip existing.requestId = key) ||
    s.lastCompletedRequest.any (fun existing => pyStrip existing.requestId = key)

/-- What became of a key: never accepted or popped, accepted with its item queued, in flight or
executing, or completed with a number of other completions since. -/
inductive KeyStatus where
  | absent
  | live
  | executed (others : Nat)
deriving DecidableEq

/-- Another request was completed. -/
def KeyStatus.other : KeyStatus → KeyStatus
  | .executed others => .executed (others + 1)
  | status => status

/-- The keys that must be refused. -/
def KeyStatus.isProtected : KeyStatus → Bool
  | .absent => false
  | .live => true
  | .executed others => others < requestHistoryLimit

/-- A queue and its run; `recorded` says that the run in flight has recorded its completion. -/
structure IdempotentQueue where
  store : RuntimeState
  recorded : Bool := false
  keys : String → KeyStatus := fun _ => .absent

/-- A queue after `clear`; the clock flag of the node may be set. -/
def IdempotentQueue.cleared (clockRunning : Bool) : IdempotentQueue :=
  { store := { clockRunning } }

inductive QueueAction where
  | append (item : Item)
  | dequeue (owner : String)
  | consume (limit : Int)
  | pop
  | record (requestId role message : String) (state : NodeState) (completedAt : String)
  | clearInflight
  | settle
deriving DecidableEq

/-- Give a key a status; items without a key have none. -/
def setKey (keys : String → KeyStatus) (key : String) (status : KeyStatus) : String → KeyStatus :=
  if key = "" then keys else Function.update keys key status

/-- The keys after the run of an item recorded its completion under `requestId`. -/
def recordKey (keys : String → KeyStatus) (item : Item) (requestId : String) : String → KeyStatus :=
  if requestId = "" then keys
  else setKey (fun key => (keys key).other) item.key (.executed 0)

/-- One step.  A run of an item with a key records its completion under the key; one without a key
records its own trace id, which is no key of the queue. -/
def IdempotentQueue.step (typeId : String) (s : IdempotentQueue) :
    QueueAction → Option IdempotentQueue
  | .append item =>
    match appendPending item s.store with
    | .ok (true, store) => some { s with store, keys := setKey s.keys item.key .live }
    | .ok (false, _) => some s
    | .error _ => some s
  | .dequeue owner =>
    match dequeuePendingToWorking typeId owner s.store with
    | (some _, store) => some { s with store, recorded := false }
    | (none, _) => none
  | .consume limit => some { s with store := (consumeMidTurnUserInputs limit s.store).2 }
  | .pop =>
    match popPending s.store with
    | (some item, store) => some { s with store, keys := setKey s.keys item.key .absent }
    | (none, _) => none
  | .record requestId role message state completedAt =>
    match s.store.inflight with
    | some item =>
      if ¬ s.recorded ∧ (pyStrip requestId = item.key ∨
          (item.key = "" ∧ s.keys (pyStrip requestId) = .absent)) then
        some {
          store := recordCompletion requestId role message state completedAt s.store
          recorded := true
          keys := recordKey s.keys item (pyStrip requestId) }
      else none
    | none => none
  | .clearInflight =>
    if s.recorded then some { s with store := setInflight none s.store, recorded := false }
    else none
  | .settle =>
    if s.store.inflight = none then some { s with store := transitionToIdle typeId s.store }
    else none

/-- A protected key is not accepted. -/
def Blocks (s : IdempotentQueue) : Prop :=
  ∀ item, (s.keys item.key).isProtected = true → ∀ next, appendPending item s.store ≠ .ok (true, next)

/-- No item with a key is consumed mid-turn. -/
def NoKeyConsumed (s : IdempotentQueue) (a : QueueAction) (_ : IdempotentQueue) : Prop :=
  ∀ limit, a = .consume limit → ∀ item ∈ (consumeMidTurnUserInputs limit s.store).1, item.key = ""

/-! ## Looking a key up -/

theorem RuntimeState.knowsKey_eq (s : RuntimeState) (key : String) :
    s.knowsKey key = (s.pending.any (fun item => item.key = key) || s.remembersKey key) := by
  simp only [RuntimeState.knowsKey, RuntimeState.remembersKey, Bool.or_assoc]
  rfl

theorem RuntimeState.knowsKey_of_mem {s : RuntimeState} {item : Item} (mem : item ∈ s.pending) :
    s.knowsKey item.key = true := by
  rw [RuntimeState.knowsKey_eq, Bool.or_eq_true]
  exact Or.inl (List.any_eq_true.mpr ⟨item, mem, by simp⟩)

variable {key : String}

theorem RuntimeState.remembersKey_eq_false {s : RuntimeState} :
    s.remembersKey key = false ↔
      (∀ item, s.inflight = some item → item.key ≠ key) ∧
        (∀ existing ∈ s.completedRequests, pyStrip existing.requestId ≠ key) ∧
        (∀ existing, s.lastCompletedRequest = some existing → pyStrip existing.requestId ≠ key) := by
  simp only [RuntimeState.remembersKey, Bool.or_eq_false_iff, List.any_eq_false, decide_eq_true_eq,
    and_assoc]
  refine and_congr ?_ (and_congr Iff.rfl ?_)
  · cases s.inflight <;> simp
  · cases s.lastCompletedRequest <;> simp

variable {keys : String → KeyStatus}

@[simp] theorem setKey_self (named : key ≠ "") (status : KeyStatus) :
    setKey keys key status key = status := by
  simp [setKey, named]

theorem setKey_of_ne {other : String} (status : KeyStatus) (differs : other ≠ key) :
    setKey keys key status other = keys other := by
  unfold setKey
  split
  · rfl
  · exact Function.update_of_ne differs _ _

theorem setKey_blank (blank : key = "") (status : KeyStatus) :
    setKey keys key status = keys := if_pos blank
theorem KeyStatus.other_eq_live {status : KeyStatus} : status.other = .live ↔ status = .live := by
  cases status <;> simp [KeyStatus.other]

theorem KeyStatus.other_eq_executed {status : KeyStatus} {others : Nat}
    (is : status.other = .executed others) : ∃ fewer, status = .executed fewer ∧
      others = fewer + 1 := by
  cases status with
  | absent => cases is
  | live => cases is
  | executed fewer =>
    cases is
    exact ⟨fewer, rfl, rfl⟩

/-! ## The invariant -/

/-- The record of a key is in the history with at most `others` records behind it. -/
def RecordedWithin (history : List CompletedRequest) (key : String) (others : Nat) : Prop :=
  ∃ older record newer, history = older ++ record :: newer ∧ record.requestId = key ∧
    newer.length ≤ others

/-- What every step under `NoKeyConsumed` keeps. -/
structure QueueInv (s : IdempotentQueue) : Prop where
  alive : s.store.deleteRequested = false
  busy : s.store.inflight ≠ none → s.store.state = .working
  nodup : ((s.store.pending.map Item.key).filter (· ≠ "")).Nodup
  fresh : ∀ item ∈ s.store.pending, item.key ≠ "" →
    s.keys item.key = .live ∧ s.store.remembersKey item.key = false
  live : ∀ key, s.keys key = .live → key ≠ "" ∧ ((∃ item ∈ s.store.pending, item.key = key) ∨
    (s.recorded = false ∧ ∃ item, s.store.inflight = some item ∧ item.key = key))
  executed : ∀ key others, s.keys key = .executed others → key ≠ "" ∧ pyStrip key = key ∧
    (others < requestHistoryLimit → RecordedWithin s.store.completedRequests key others)

section Invariant

-- Lean would evaluate the comparison of two keys.
attribute [local irreducible] setKey

variable {typeId : String} {s s' : IdempotentQueue}

variable {item : Item} {rest : List Item}

theorem nodup_keys_cons (nodup : (((item :: rest).map Item.key).filter (· ≠ "")).Nodup) :
    ((rest.map Item.key).filter (· ≠ "")).Nodup ∧
      ∀ other ∈ rest, other.key ≠ "" → other.key ≠ item.key := by
  rw [List.map_cons, List.filter_cons] at nodup
  split at nodup
  · obtain ⟨absent, tail⟩ := List.nodup_cons.mp nodup
    refine ⟨tail, fun other mem named same => absent ?_⟩
    rw [← same]
    exact List.mem_filter.mpr ⟨List.mem_map_of_mem mem, by simpa using named⟩
  · rename_i unnamed
    have empty : item.key = "" := by simpa using unnamed
    exact ⟨nodup, fun other _ named same => named (same.trans empty)⟩

theorem nodup_keys_of_perm {items others : List Item} (perm : items.Perm others)
    (nodup : ((items.map Item.key).filter (· ≠ "")).Nodup) :
    ((others.map Item.key).filter (· ≠ "")).Nodup :=
  ((perm.map _).filter _).nodup_iff.mp nodup

/-- Under the invariant a protected key is known. -/
theorem QueueInv.knowsKey (inv : QueueInv s) {key : String} (held : (s.keys key).isProtected = true) :
    s.store.knowsKey key = true := by
  cases status : s.keys key with
  | absent =>
    rw [status] at held
    cases held
  | live =>
    rcases (inv.live key status).2 with ⟨item, mem, rfl⟩ | ⟨_, item, inflight, rfl⟩
    · exact RuntimeState.knowsKey_of_mem mem
    · rw [RuntimeState.knowsKey_eq, RuntimeState.remembersKey, inflight]
      simp
  | executed others =>
    rw [status] at held
    obtain ⟨_, stripped, recorded⟩ := inv.executed key others status
    obtain ⟨older, record, newer, history, isKey, _⟩ := recorded (of_decide_eq_true held)
    have found : s.store.completedRequests.any
        (fun existing => pyStrip existing.requestId = key) = true :=
      List.any_eq_true.mpr ⟨record, by rw [history]; simp, by simp [isKey, stripped]⟩
    rw [RuntimeState.knowsKey_eq, RuntimeState.remembersKey, found]
    simp

theorem QueueInv.blank (inv : QueueInv s) : s.keys "" = .absent := by
  cases status : s.keys "" with
  | absent => rfl
  | live => exact absurd rfl (inv.live "" status).1
  | executed others => exact absurd rfl (inv.executed "" others status).1

theorem QueueInv.blocks (inv : QueueInv s) : Blocks s := by
  intro item held next accepted
  have known := inv.knowsKey held
  have named : item.key ≠ "" := by
    cases status : s.keys item.key with
    | absent =>
      rw [status] at held
      cases held
    | live => exact (inv.live item.key status).1
    | executed others => exact (inv.executed item.key others status).1
  rcases appendPending_cases item s.store with ⟨_, refused⟩ | ⟨_, _, _, refused⟩ | ⟨_, free, _⟩
  · rw [refused] at accepted
    cases accepted
  · rw [refused] at accepted
    cases accepted
  · rcases free with unnamed | unknown
    · exact named unnamed
    · rw [show s.store.knowsKey (pyStrip item.idempotencyKey) = true from known] at unknown
      cases unknown

theorem QueueInv.append_unnamed (inv : QueueInv s) (unnamed : item.key = "") :
    QueueInv { s with store := { s.store with pending := s.store.pending ++ [item] }.bump } := by
  refine ⟨inv.alive, inv.busy, ?_, fun other mem named => ?_, fun key live => ?_, inv.executed⟩
  · simpa [List.filter_append, unnamed] using inv.nodup
  · rcases List.mem_append.mp mem with old | new
    · exact inv.fresh other old named
    · rw [List.mem_singleton.mp new] at named
      exact absurd unnamed named
  · obtain ⟨named, place⟩ := inv.live key live
    refine ⟨named, place.imp_left ?_⟩
    exact fun ⟨other, mem, isKey⟩ => ⟨other, List.mem_append_left _ mem, isKey⟩

theorem QueueInv.append_named (inv : QueueInv s) (named : item.key ≠ "")
    (unknown : s.store.knowsKey item.key = false) :
    QueueInv { s with
      store := { s.store with pending := s.store.pending ++ [item] }.bump
      keys := setKey s.keys item.key .live } := by
  rw [RuntimeState.knowsKey_eq, Bool.or_eq_false_iff] at unknown
  obtain ⟨notQueued, notRemembered⟩ := unknown
  have absent : ∀ other ∈ s.store.pending, other.key ≠ item.key := by
    simpa [List.any_eq_false] using notQueued
  refine ⟨inv.alive, inv.busy, ?_, fun other mem otherNamed => ?_, fun key live => ?_,
    fun key count done => ?_⟩
  · have perm : (s.store.pending ++ [item]).Perm (item :: s.store.pending) :=
      List.perm_append_singleton ..
    refine nodup_keys_of_perm perm.symm ?_
    rw [List.map_cons, List.filter_cons_of_pos (by simpa using named), List.nodup_cons]
    refine ⟨fun mem => ?_, inv.nodup⟩
    obtain ⟨other, queued, same⟩ := List.mem_map.mp (List.mem_filter.mp mem).1
    exact absent other queued same
  · rcases List.mem_append.mp mem with old | new
    · obtain ⟨live, unremembered⟩ := inv.fresh other old otherNamed
      exact ⟨(setKey_of_ne .live (absent other old)).trans live, unremembered⟩
    · rw [List.mem_singleton.mp new]
      exact ⟨setKey_self named .live, notRemembered⟩
  · rcases eq_or_ne key item.key with rfl | differs
    · exact ⟨named, Or.inl ⟨item, List.mem_append_right _ List.mem_cons_self, rfl⟩⟩
    · obtain ⟨keyNamed, place⟩ := inv.live key ((setKey_of_ne .live differs).symm.trans live)
      refine ⟨keyNamed, place.imp_left ?_⟩
      exact fun ⟨other, queued, isKey⟩ => ⟨other, List.mem_append_left _ queued, isKey⟩
  · have is : setKey s.keys item.key .live key = .executed count := done
    rcases eq_or_ne key item.key with rfl | differs
    · rw [setKey_self named] at is
      cases is
    · exact inv.executed key count ((setKey_of_ne .live differs).symm.trans is)

theorem QueueInv.dequeue (inv : QueueInv s) (idle : s.store.inflight = none)
    (perm : s.store.pending.Perm (item :: rest)) :
    QueueInv { s with
      store := { s.store with pending := rest, inflight := some item, state := .working }.bump
      recorded := false } := by
  obtain ⟨nodup, differ⟩ := nodup_keys_cons (nodup_keys_of_perm perm inv.nodup)
  have queued : ∀ other ∈ rest, other ∈ s.store.pending :=
    fun other mem => perm.mem_iff.mpr (List.mem_cons_of_mem item mem)
  refine ⟨inv.alive, fun _ => rfl, nodup, fun other mem named => ?_, fun key live => ?_,
    inv.executed⟩
  · obtain ⟨live, unremembered⟩ := inv.fresh other (queued other mem) named
    refine ⟨live, ?_⟩
    obtain ⟨_, history, last⟩ := RuntimeState.remembersKey_eq_false.mp unremembered
    refine RuntimeState.remembersKey_eq_false.mpr ⟨fun flying inflight => ?_, history, last⟩
    cases inflight
    exact (differ other mem named).symm
  · obtain ⟨named, place⟩ := inv.live key live
    refine ⟨named, ?_⟩
    rcases place with ⟨other, mem, isKey⟩ | ⟨_, flying, inflight, _⟩
    · rcases List.mem_cons.mp (perm.mem_iff.mp mem) with rfl | left
      · exact Or.inr ⟨rfl, other, rfl, isKey⟩
      · exact Or.inl ⟨other, left, isKey⟩
    · rw [idle] at inflight
      cases inflight

theorem QueueInv.consume (inv : QueueInv s) {consumed remaining : List Item}
    (perm : s.store.pending.Perm (consumed ++ remaining))
    (unnamed : ∀ item ∈ consumed, item.key = "") :
    QueueInv { s with store := { s.store with pending := remaining }.bump } := by
  have queued : ∀ other ∈ remaining, other ∈ s.store.pending :=
    fun other mem => perm.mem_iff.mpr (List.mem_append_right _ mem)
  refine ⟨inv.alive, inv.busy, ?_, fun other mem named => inv.fresh other (queued other mem) named,
    fun key live => ?_, inv.executed⟩
  · have nodup := nodup_keys_of_perm perm inv.nodup
    rw [List.map_append, List.filter_append] at nodup
    exact (List.nodup_append.mp nodup).2.1
  · obtain ⟨named, place⟩ := inv.live key live
    refine ⟨named, place.imp_left fun ⟨other, mem, isKey⟩ => ?_⟩
    rcases List.mem_append.mp (perm.mem_iff.mp mem) with taken | left
    · exact absurd (isKey.symm.trans (unnamed other taken)) named
    · exact ⟨other, left, isKey⟩

theorem QueueInv.pop (inv : QueueInv s) (queue : s.store.pending = item :: rest) :
    QueueInv { s with
      store := { s.store with pending := rest }.bump
      keys := setKey s.keys item.key .absent } := by
  obtain ⟨nodup, differ⟩ := nodup_keys_cons (queue ▸ inv.nodup)
  have queued : ∀ other ∈ rest, other ∈ s.store.pending := by
    intro other mem
    rw [queue]
    exact List.mem_cons_of_mem item mem
  -- a key that still has a status is not the one that was popped
  have kept : ∀ key status, status ≠ .absent → setKey s.keys item.key .absent key = status →
      key ≠ item.key ∧ s.keys key = status := by
    intro key status present is
    have differs : key ≠ item.key := by
      rintro rfl
      rcases eq_or_ne item.key "" with unnamed | named
      · rw [unnamed, setKey, if_pos rfl, inv.blank] at is
        exact present is.symm
      · rw [setKey_self named] at is
        exact present is.symm
    exact ⟨differs, (setKey_of_ne .absent differs).symm.trans is⟩
  refine ⟨inv.alive, inv.busy, nodup, fun other mem named => ?_, fun key live => ?_,
    fun key count done => ?_⟩
  · obtain ⟨live, unremembered⟩ := inv.fresh other (queued other mem) named
    exact ⟨(setKey_of_ne .absent (differ other mem named)).trans live, unremembered⟩
  · obtain ⟨differs, was⟩ := kept key .live (by simp) live
    obtain ⟨named, place⟩ := inv.live key was
    refine ⟨named, place.imp_left fun ⟨other, mem, isKey⟩ => ?_⟩
    rw [queue] at mem
    rcases List.mem_cons.mp mem with rfl | left
    · exact absurd isKey.symm differs
    · exact ⟨other, left, isKey⟩
  · exact inv.executed key count (kept key (.executed count) (by simp) done).2

theorem RecordedWithin.add {history : List CompletedRequest} {key other : String} {others : Nat}
    (within : RecordedWithin history key others) (differs : key ≠ other)
    (room : others + 1 < requestHistoryLimit) (added : CompletedRequest) :
    let next := history.filter (fun item => item.requestId ≠ other) ++ [added]
    RecordedWithin (next.drop (next.length - requestHistoryLimit)) key (others + 1) := by
  obtain ⟨older, record, newer, rfl, isKey, few⟩ := within
  have keeps : (decide (record.requestId ≠ other)) = true := by simpa [isKey] using differs
  have fewer := List.length_filter_le (fun item => decide (item.requestId ≠ other)) newer
  simp only [List.filter_append, List.filter_cons, keeps, if_true, List.append_assoc,
    List.cons_append]
  generalize older.filter (fun item => decide (item.requestId ≠ other)) = front
  generalize newer.filter (fun item => decide (item.requestId ≠ other)) = back at fewer ⊢
  refine ⟨front.drop ((front ++ record :: (back ++ [added])).length - requestHistoryLimit), record,
    back ++ [added], ?_, isKey, ?_⟩
  · refine List.drop_append_of_le_length ?_
    simp only [List.length_append, List.length_cons, List.length_nil]
    omega
  · simp only [List.length_append, List.length_cons, List.length_nil]
    omega

theorem recordedWithin_last (history : List CompletedRequest) (added : CompletedRequest) :
    RecordedWithin ((history ++ [added]).drop ((history ++ [added]).length - requestHistoryLimit))
      added.requestId 0 := by
  refine ⟨history.drop ((history ++ [added]).length - requestHistoryLimit), added, [], ?_, rfl,
    le_rfl⟩
  refine List.drop_append_of_le_length ?_
  simp only [List.length_append, List.length_cons, List.length_nil, requestHistoryLimit]
  omega

theorem recordCompletion_cases (requestId role message : String) (state : NodeState)
    (completedAt : String) (store : RuntimeState) :
    (pyStrip requestId = "" ∧
      recordCompletion requestId role message state completedAt store = store) ∨
    (pyStrip requestId ≠ "" ∧ ∃ record history, record.requestId = pyStrip requestId ∧
      history = store.completedRequests.filter (fun item => item.requestId ≠ pyStrip requestId) ++
        [record] ∧
      recordCompletion requestId role message state completedAt store =
        { store with
          completedRequests := history.drop (history.length - requestHistoryLimit)
          lastCompletedRequest := some record }) := by
  unfold recordCompletion
  simp only
  split
  · rename_i unnamed
    exact Or.inl ⟨unnamed, rfl⟩
  · rename_i named
    exact Or.inr ⟨named, _, _, rfl, rfl, rfl⟩

theorem QueueInv.record (inv : QueueInv s) {requestId role message completedAt : String}
    {state : NodeState} (inflight : s.store.inflight = some item)
    (isKey : pyStrip requestId = item.key ∨ (item.key = "" ∧ s.keys (pyStrip requestId) = .absent)) :
    QueueInv {
      store := recordCompletion requestId role message state completedAt s.store
      recorded := true
      keys := recordKey s.keys item (pyStrip requestId) } := by
  rcases recordCompletion_cases requestId role message state completedAt s.store with
    ⟨unnamed, same⟩ | ⟨named, record, history, recordId, isHistory, result⟩
  · have keys : recordKey s.keys item (pyStrip requestId) = s.keys := if_pos unnamed
    have itemUnnamed : item.key = "" := isKey.elim (fun is => is.symm.trans unnamed) And.left
    rw [same, keys]
    refine ⟨inv.alive, inv.busy, inv.nodup, inv.fresh, fun key live => ?_, inv.executed⟩
    obtain ⟨keyNamed, place⟩ := inv.live key live
    refine ⟨keyNamed, place.imp_right fun ⟨_, flying, is, isFlying⟩ => ?_⟩
    rw [inflight] at is
    cases is
    exact absurd (isFlying.symm.trans itemUnnamed) keyNamed
  · have keys : recordKey s.keys item (pyStrip requestId) =
        setKey (fun key => (s.keys key).other) item.key (.executed 0) := if_neg named
    -- the request id of the record is the key of the item or no key at all
    have other : ∀ key, s.keys key ≠ .absent → key ≠ item.key → key ≠ pyStrip requestId := by
      intro key present differs is
      rcases isKey with isItem | ⟨_, absent⟩
      · exact differs (is.trans isItem)
      · exact present (is ▸ absent)
    have members : ∀ existing ∈ history.drop (history.length - requestHistoryLimit),
        existing ∈ s.store.completedRequests ∨ existing = record := by
      intro existing mem
      have inHistory := List.mem_of_mem_drop mem
      rw [isHistory] at inHistory
      rcases List.mem_append.mp inHistory with old | new
      · exact Or.inl (List.mem_filter.mp old).1
      · exact Or.inr (List.mem_singleton.mp new)
    rw [result, keys]
    refine ⟨inv.alive, inv.busy, inv.nodup, fun queued mem queuedNamed => ?_, fun key live => ?_,
      fun key count done => ?_⟩
    · obtain ⟨live, unremembered⟩ := inv.fresh queued mem queuedNamed
      obtain ⟨flying, old, _⟩ := RuntimeState.remembersKey_eq_false.mp unremembered
      have differs : queued.key ≠ item.key := (flying item inflight).symm
      have recordOther : pyStrip record.requestId ≠ queued.key := by
        rw [recordId, pyStrip_pyStrip]
        exact (other queued.key (by simp [live]) differs).symm
      refine ⟨?_, RuntimeState.remembersKey_eq_false.mpr ⟨flying, fun existing found => ?_,
        fun existing last => ?_⟩⟩
      · exact (setKey_of_ne (.executed 0) differs).trans (KeyStatus.other_eq_live.mpr live)
      · rcases members existing found with known | rfl
        · exact old existing known
        · exact recordOther
      · cases last
        exact recordOther
    · have is : setKey (fun key => (s.keys key).other) item.key (.executed 0) key = .live := live
      have differs : key ≠ item.key := by
        rintro rfl
        rcases eq_or_ne item.key "" with unnamed | itemNamed
        · rw [unnamed, setKey, if_pos rfl, inv.blank] at is
          cases is
        · rw [setKey_self itemNamed] at is
          cases is
      rw [setKey_of_ne _ differs] at is
      obtain ⟨keyNamed, place⟩ := inv.live key (KeyStatus.other_eq_live.mp is)
      refine ⟨keyNamed, place.imp_right fun ⟨_, flying, isInflight, isFlying⟩ => ?_⟩
      rw [inflight] at isInflight
      cases isInflight
      exact absurd isFlying.symm differs
    · have is : setKey (fun key => (s.keys key).other) item.key (.executed 0) key =
        .executed count := done
      rcases eq_or_ne key item.key with rfl | differs
      · rcases eq_or_ne item.key "" with unnamed | itemNamed
        · rw [unnamed, setKey, if_pos rfl, inv.blank] at is
          cases is
        · rw [setKey_self itemNamed] at is
          cases is
          have recordKey : record.requestId = item.key :=
            recordId.trans (isKey.elim id fun ⟨unnamed, _⟩ => absurd unnamed itemNamed)
          refine ⟨itemNamed, pyStrip_pyStrip _, fun _ => ?_⟩
          rw [isHistory, ← recordKey]
          exact recordedWithin_last _ record
      · rw [setKey_of_ne _ differs] at is
        obtain ⟨fewer, was, rfl⟩ := KeyStatus.other_eq_executed is
        obtain ⟨keyNamed, stripped, within⟩ := inv.executed key fewer was
        refine ⟨keyNamed, stripped, fun room => ?_⟩
        rw [isHistory]
        exact (within (by omega)).add (other key (by simp [was]) differs) room record

theorem QueueInv.clearInflight (inv : QueueInv s) (recorded : s.recorded = true) :
    QueueInv { s with store := setInflight none s.store, recorded := false } := by
  refine ⟨inv.alive, fun flying => absurd rfl flying, inv.nodup, fun item mem named => ?_,
    fun key live => ?_, inv.executed⟩
  · obtain ⟨live, unremembered⟩ := inv.fresh item mem named
    obtain ⟨_, history, last⟩ := RuntimeState.remembersKey_eq_false.mp unremembered
    refine ⟨live, RuntimeState.remembersKey_eq_false.mpr ⟨fun flying none => ?_, history, last⟩⟩
    cases none
  · obtain ⟨named, place⟩ := inv.live key live
    refine ⟨named, ?_⟩
    rcases place with queued | ⟨unrecorded, _⟩
    · exact Or.inl queued
    · rw [recorded] at unrecorded
      cases unrecorded

theorem QueueInv.settle (inv : QueueInv s) (idle : s.store.inflight = none) :
    QueueInv { s with store := transitionToIdle typeId s.store } := by
  obtain ⟨state, stop, seq, result⟩ := transitionToIdle_eq typeId s.store
  rw [result]
  exact ⟨inv.alive, fun flying => absurd idle flying, inv.nodup, inv.fresh, inv.live, inv.executed⟩

/-- Every step under the condition keeps the invariant. -/
theorem QueueInv.step {a : QueueAction} (inv : QueueInv s) (enabled : s.step typeId a = some s')
    (unconsumed : NoKeyConsumed s a s') : QueueInv s' := by
  cases a with
  | append item =>
    simp only [IdempotentQueue.step] at enabled
    rcases appendPending_cases item s.store with ⟨_, refused⟩ | ⟨_, _, _, known⟩ | ⟨_, free, appended⟩
    · rw [refused] at enabled
      cases enabled
      exact inv
    · rw [known] at enabled
      cases enabled
      exact inv
    · rw [appended] at enabled
      cases enabled
      rcases eq_or_ne item.key "" with unnamed | named
      · rw [setKey_blank unnamed]
        exact inv.append_unnamed unnamed
      · exact inv.append_named named (free.resolve_left named)
  | dequeue owner =>
    simp only [IdempotentQueue.step] at enabled
    rcases dequeuePendingToWorking_cases typeId owner s.store with
      nothing | ⟨item, rest, _, ready, perm, picked⟩
    · rw [nothing] at enabled
      cases enabled
    · rw [picked] at enabled
      cases enabled
      have idle : s.store.inflight = none := by
        by_contra flying
        have working := inv.busy flying
        rcases ready with isIdle | waiting
        · rw [working] at isIdle
          cases isIdle
        · exact flying waiting.2.2.2
      exact inv.dequeue idle perm
  | consume limit =>
    simp only [IdempotentQueue.step, Option.some.injEq] at enabled
    subst enabled
    have unnamed := unconsumed limit rfl
    rcases consumeMidTurnUserInputs_cases limit s.store with
      nothing | ⟨consumed, remaining, _, split, some⟩
    · rw [nothing]
      exact inv
    · rw [some] at unnamed ⊢
      have perm := takeMidTurn_perm "" (midTurnBudget limit) s.store.pending
      rw [split] at perm
      exact inv.consume perm unnamed
  | pop =>
    simp only [IdempotentQueue.step, popPending] at enabled
    cases queue : s.store.pending with
    | nil =>
      rw [queue] at enabled
      cases enabled
    | cons item rest =>
      rw [queue] at enabled
      cases enabled
      exact inv.pop queue
  | record requestId role message state completedAt =>
    simp only [IdempotentQueue.step] at enabled
    split at enabled
    · rename_i item inflight
      split at enabled
      · rename_i guard
        cases enabled
        exact inv.record inflight guard.2
      · cases enabled
    · cases enabled
  | clearInflight =>
    simp only [IdempotentQueue.step] at enabled
    split at enabled
    · rename_i recorded
      cases enabled
      exact inv.clearInflight recorded
    · cases enabled
  | settle =>
    simp only [IdempotentQueue.step] at enabled
    split at enabled
    · rename_i idle
      cases enabled
      exact inv.settle idle
    · cases enabled

theorem QueueInv.consume_forgets (inv : QueueInv s) {consumed remaining : List Item}
    (perm : s.store.pending.Perm (consumed ++ remaining)) (mem : item ∈ consumed)
    (named : item.key ≠ "") :
    RuntimeState.knowsKey { s.store with pending := remaining }.bump item.key = false := by
  obtain ⟨front, back, split⟩ := List.append_of_mem mem
  have first : s.store.pending.Perm (item :: (front ++ back ++ remaining)) := by
    rw [split, List.append_assoc, List.cons_append] at perm
    exact perm.trans (by rw [List.append_assoc]; exact List.perm_middle)
  obtain ⟨_, differ⟩ := nodup_keys_cons (nodup_keys_of_perm first inv.nodup)
  obtain ⟨_, unremembered⟩ :=
    inv.fresh item (perm.mem_iff.mpr (List.mem_append_left _ mem)) named
  rw [RuntimeState.knowsKey_eq, Bool.or_eq_false_iff]
  refine ⟨List.any_eq_false.mpr fun other left => ?_, unremembered⟩
  rcases eq_or_ne other.key "" with unnamed | otherNamed
  · simpa [unnamed] using named.symm
  · simpa using differ other (List.mem_append_right _ left) otherNamed

end Invariant

/-! ## Runs of the queue -/

theorem QueueInv.cleared (clockRunning : Bool) : QueueInv (IdempotentQueue.cleared clockRunning) := by
  refine ⟨rfl, fun flying => absurd rfl flying, List.nodup_nil, fun item mem => ?_, fun key live => ?_,
    fun key others done => ?_⟩
  · exact absurd mem List.not_mem_nil
  · cases live
  · cases done

/-- Between two clearings of the runtime state, no key is accepted a second time while its item is
queued or executing or fewer than `REQUEST_HISTORY_LIMIT` other completions followed its own,
exactly when `consume_mid_turn_user_inputs` never takes an item with a key. -/
theorem idempotentQueue_blocks_iff (typeId : String) (clockRunning : Bool)
    (actions : List QueueAction) :
    Along (IdempotentQueue.step typeId) (fun _ _ s' => Blocks s')
        (IdempotentQueue.cleared clockRunning) actions ↔
      Along (IdempotentQueue.step typeId) NoKeyConsumed (IdempotentQueue.cleared clockRunning)
        actions := by
  refine along_iff_of_invariant (I := QueueInv) ?_ ?_ (QueueInv.cleared clockRunning)
  · intro s a s' inv enabled
    refine ⟨fun blocks limit isConsume item mem => ?_,
      fun unconsumed => (inv.step enabled unconsumed).blocks⟩
    subst isConsume
    simp only [IdempotentQueue.step, Option.some.injEq] at enabled
    subst enabled
    by_contra named
    rcases consumeMidTurnUserInputs_cases limit s.store with
      nothing | ⟨consumed, remaining, _, split, some⟩
    · rw [nothing] at mem
      exact absurd mem List.not_mem_nil
    · have perm := takeMidTurn_perm "" (midTurnBudget limit) s.store.pending
      rw [split] at perm
      rw [some] at mem
      have live := (inv.fresh item (perm.mem_iff.mpr (List.mem_append_left _ mem)) named).1
      have forgotten := inv.consume_forgets perm mem named
      have refused := blocks item (by rw [live]; rfl)
      simp only [some] at refused
      -- nothing stops the same item from being accepted again
      rcases appendPending_cases item { s.store with pending := remaining }.bump with
        ⟨deleting, _⟩ | ⟨_, _, known, _⟩ | ⟨_, _, accepted⟩
      · rw [RuntimeState.bump_deleteRequested, inv.alive] at deleting
        cases deleting
      · rw [show RuntimeState.knowsKey _ (pyStrip item.idempotencyKey) = false from forgotten] at known
        cases known
      · exact refused _ accepted
  · exact fun s a s' inv enabled unconsumed => inv.step enabled unconsumed

/-- A user message with a key, sent while the node runs. -/
def midTurnMessage : Item :=
  { idempotencyKey := "m1", source := "emit", payloadRole := some "user", payload := "and this" }

/-- The running execution consumes the message, and its key is free again. -/
theorem idempotentQueue_accepts_again :
    ¬ ∀ (typeId : String) (clockRunning : Bool) (actions : List QueueAction),
      Along (IdempotentQueue.step typeId) (fun _ _ s' => Blocks s')
        (IdempotentQueue.cleared clockRunning) actions := by
  intro blocks
  have along := blocks "agent_node" false
    ([.append { idempotencyKey := "m0" }, .dequeue "", .append midTurnMessage] ++ [.consume 16])
  have again : (run (IdempotentQueue.step "agent_node") (IdempotentQueue.cleared false)
      [.append { idempotencyKey := "m0" }, .dequeue "", .append midTurnMessage]).any (fun m =>
        (IdempotentQueue.step "agent_node" m (.consume 16)).any fun t =>
          (t.keys midTurnMessage.key).isProtected &&
            match appendPending midTurnMessage t.store with
            | .ok (accepted, _) => accepted
            | .error _ => false) = true := by
    decide +kernel
  obtain ⟨m, left, final⟩ := (Option.any_eq_true _ _).mp again
  obtain ⟨t, final, holds⟩ := (Option.any_eq_true _ _).mp final
  rw [Bool.and_eq_true] at holds
  obtain ⟨isProtected, accepted⟩ := holds
  split at accepted
  · rename_i taken next appended
    rw [accepted] at appended
    exact along.last left final midTurnMessage isProtected next appended
  · cases accepted

end AgentPark.Runtime
