import Mathlib.Algebra.Order.Ring.Rat
import Mathlib.Data.List.Sort
import Mathlib.Data.List.TakeWhile
import Mathlib.Data.Prod.Lex
import Mathlib.Data.String.Basic
import AgentPark.Lib.Dict
import AgentPark.Lib.PyText

/-!
# The registry of scheduled nodes

Nodes with a due time are kept in a dictionary and in a heap.  The heap is cleaned up late: records of
registrations that were replaced or removed stay in it until they come to its head.

* `DueMap.Step` is what the methods are for: a map from nodes to due times, out of which what is due is
  taken.

Due times and the clock are exact numbers.  The heap is a list in the order in which the records come out
of it.
-/

namespace AgentPark.Nodes

open Lib

/-! ### The registry -/

/-- The id of a graph or a node, as it comes from `_sanitize_graph_id` and `_sanitize_node_id`. -/
abbrev SafeId := { id : String // pyStrip id = id }

/-- `due_at` is `none` when it is not a finite number. -/
structure ScheduledNodeRegistration where
  graphId : SafeId
  nodeId : SafeId
  configPath : String
  typeId : String
  dueAt : Option ℚ
deriving DecidableEq

structure NodeKey where
  graphId : String
  nodeId : String
deriving DecidableEq

def ScheduledNodeRegistration.key (entry : ScheduledNodeRegistration) : NodeKey := ⟨entry.graphId, entry.nodeId⟩

structure HeapRecord where
  dueAt : ℚ
  sequence : Nat
  key : NodeKey
deriving DecidableEq

/-- The tuple that the heap compares. -/
def HeapRecord.tuple (record : HeapRecord) : ℚ ×ₗ ℕ ×ₗ String ×ₗ String :=
  toLex (record.dueAt, toLex (record.sequence, toLex (record.key.graphId, record.key.nodeId)))

/-- `ScheduledNodeRegistry` -/
structure ScheduledNodeRegistry where
  entries : List (NodeKey × ScheduledNodeRegistration)
  heap : List HeapRecord
  sequence : Nat

namespace ScheduledNodeRegistry

def new : ScheduledNodeRegistry := { entries := [], heap := [], sequence := 0 }

/-- `heapq.heappush`. -/
def heappush (heap : List HeapRecord) (record : HeapRecord) : List HeapRecord :=
  heap.orderedInsert (fun a b => a.tuple ≤ b.tuple) record

/-- `_register_locked`. -/
def registerLocked (registry : ScheduledNodeRegistry) (entry : ScheduledNodeRegistration) :
    ScheduledNodeRegistry :=
  match entry.dueAt with
  | none => registry
  | some dueAt => {
      entries := dictSet registry.entries entry.key entry
      heap := heappush registry.heap ⟨dueAt, registry.sequence + 1, entry.key⟩
      sequence := registry.sequence + 1 }

def rebuild (registry : ScheduledNodeRegistry) (entries : List ScheduledNodeRegistration) :
    ScheduledNodeRegistry :=
  entries.foldl registerLocked { registry with entries := [], heap := [] }

def unregister (registry : ScheduledNodeRegistry) (graphId nodeId : String) : ScheduledNodeRegistry :=
  { registry with entries := dictErase registry.entries ⟨pyStrip graphId, pyStrip nodeId⟩ }

def unregisterGraph (registry : ScheduledNodeRegistry) (graphId : String) : ScheduledNodeRegistry :=
  { registry with entries := registry.entries.filter fun entry => entry.1.graphId ≠ pyStrip graphId }

/-- A record stands for the registration that the dictionary holds. -/
def isCurrent (entries : List (NodeKey × ScheduledNodeRegistration)) (record : HeapRecord) : Bool :=
  match entries.lookup record.key with
  | none => false
  | some entry => entry.dueAt = some record.dueAt

/-- `_discard_stale_heap_heads_locked`. -/
def discardStaleHeapHeads (registry : ScheduledNodeRegistry) : ScheduledNodeRegistry :=
  { registry with heap := registry.heap.dropWhile fun record => !isCurrent registry.entries record }

/-- The readings of the clock that a turn makes. -/
abbrev Clock := { readings : ℕ → ℚ // Monotone readings }

/-- The inner loop of `wait_for_due`, from a reading of the clock on.  `fuel` bounds its turns, each of which
takes a record from the heap. -/
def takeDue (clock : Clock) : Nat → Nat → ScheduledNodeRegistry →
    List ScheduledNodeRegistration × ScheduledNodeRegistry
  | 0, _, registry => ([], registry)
  | fuel + 1, reading, registry =>
    let registry := registry.discardStaleHeapHeads
    match registry.heap with
    | [] => ([], registry)
    | record :: heap =>
      if record.dueAt > clock.1 reading then ([], registry)
      else
        match registry.entries.lookup record.key with
        | none => takeDue clock fuel (reading + 1) { registry with heap }
        | some entry =>
          let (dueEntries, after) := takeDue clock fuel (reading + 1)
            { registry with heap, entries := dictErase registry.entries record.key }
          (entry :: dueEntries, after)

/-- A turn of the loop of `wait_for_due`: the call returns a list, or goes on. -/
def waitForDueTurn (stopped : Bool) (clock : Clock) (registry : ScheduledNodeRegistry) :
    Option (List ScheduledNodeRegistration) × ScheduledNodeRegistry :=
  if stopped then (some [], registry)
  else
    let registry := registry.discardStaleHeapHeads
    match registry.heap with
    | [] => (none, registry)
    | record :: _ =>
      if max 0 (record.dueAt - clock.1 0) > 0 then (none, registry)
      else
        let (dueEntries, after) := takeDue clock registry.heap.length 1 registry
        if dueEntries = [] then (none, after) else (some dueEntries, after)

/-- A call of the registry; a call of `wait_for_due` is a series of turns, with other calls in between. -/
inductive Call where
  | register (entry : ScheduledNodeRegistration)
  | unregister (graphId nodeId : String)
  | unregisterGraph (graphId : String)
  | rebuild (entries : List ScheduledNodeRegistration)
  | waitForDue (stopped : Bool) (clock : Clock)

/-- What a call returns, when it is `wait_for_due` and does return, and the registry behind it. -/
def step (registry : ScheduledNodeRegistry) : Call →
    Option (List ScheduledNodeRegistration) × ScheduledNodeRegistry
  | .register entry => (none, registry.registerLocked entry)
  | .unregister graphId nodeId => (none, registry.unregister graphId nodeId)
  | .unregisterGraph graphId => (none, registry.unregisterGraph graphId)
  | .rebuild entries => (none, registry.rebuild entries)
  | .waitForDue stopped clock => waitForDueTurn stopped clock registry

def run : ScheduledNodeRegistry → List Call →
    List (Option (List ScheduledNodeRegistration)) × ScheduledNodeRegistry
  | registry, [] => ([], registry)
  | registry, call :: calls =>
    let (returned, registry) := registry.step call
    let (later, after) := registry.run calls
    (returned :: later, after)

end ScheduledNodeRegistry

/-! ### What the registry is for -/

/-- The nodes that are registered. -/
abbrev DueMap := NodeKey → Option ScheduledNodeRegistration

namespace DueMap

open ScheduledNodeRegistry (Call Clock)

def register (map : DueMap) (entry : ScheduledNodeRegistration) : DueMap :=
  if entry.dueAt.isSome then Function.update map entry.key (some entry) else map

/-- The due time of a registration is not after a moment. -/
def DueBy (entry : ScheduledNodeRegistration) (now : ℚ) : Prop := ∃ dueAt ∈ entry.dueAt, dueAt ≤ now

/-- What is due is taken out one by one, each with a reading of the clock; the reading after the last one is
the one for all that stay. -/
structure IsDue (map : DueMap) (readings : ℕ → ℚ) (dueEntries : List ScheduledNodeRegistration) : Prop where
  registered : ∀ entry ∈ dueEntries, map entry.key = some entry
  once : (dueEntries.map ScheduledNodeRegistration.key).Nodup
  ordered : dueEntries.Pairwise fun first second =>
    ∀ firstDue ∈ first.dueAt, ∀ secondDue ∈ second.dueAt, firstDue ≤ secondDue
  exactly : ∀ key entry, map key = some entry →
    (entry ∈ dueEntries ↔ DueBy entry (readings (dueEntries.idxOf entry)))

/-- The map without the nodes of a list. -/
def without (map : DueMap) (dueEntries : List ScheduledNodeRegistration) : DueMap := fun key =>
  if key ∈ dueEntries.map ScheduledNodeRegistration.key then none else map key

/-- What a call does to the map, and what it returns. -/
inductive Step : DueMap → Call → Option (List ScheduledNodeRegistration) → DueMap → Prop
  | register (map : DueMap) (entry : ScheduledNodeRegistration) :
      Step map (.register entry) none (map.register entry)
  | unregister (map : DueMap) (graphId nodeId : String) :
      Step map (.unregister graphId nodeId) none (Function.update map ⟨pyStrip graphId, pyStrip nodeId⟩ none)
  | unregisterGraph (map : DueMap) (graphId : String) :
      Step map (.unregisterGraph graphId) none fun key => if key.graphId = pyStrip graphId then none else map key
  | rebuild (map : DueMap) (entries : List ScheduledNodeRegistration) :
      Step map (.rebuild entries) none (entries.foldl DueMap.register fun _ => none)
  | stopped (map : DueMap) (clock : Clock) : Step map (.waitForDue true clock) (some []) map
  | waits (map : DueMap) (clock : Clock) (early : ∀ key entry, map key = some entry → ¬ DueBy entry (clock.1 0)) :
      Step map (.waitForDue false clock) none map
  | returns (map : DueMap) (clock : Clock) (dueEntries : List ScheduledNodeRegistration)
      (some : dueEntries ≠ []) (due : map.IsDue (fun count => clock.1 (1 + count)) dueEntries) :
      Step map (.waitForDue false clock) (.some dueEntries) (map.without dueEntries)

inductive Run : DueMap → List Call → List (Option (List ScheduledNodeRegistration)) → DueMap → Prop
  | nil (map : DueMap) : Run map [] [] map
  | cons {map between after : DueMap} {call : Call} {calls : List Call}
      {returned : Option (List ScheduledNodeRegistration)}
      {later : List (Option (List ScheduledNodeRegistration))} :
      Step map call returned between → Run between calls later after →
        Run map (call :: calls) (returned :: later) after

end DueMap

/-! ### The heap and the dictionary -/

namespace ScheduledNodeRegistry

open DueMap (DueBy)

/-- The map that a registry stands for. -/
def view (registry : ScheduledNodeRegistry) : DueMap := fun key => registry.entries.lookup key

/-- Each registration has a record in the heap. -/
structure HasLiveRecords (registry : ScheduledNodeRegistry) : Prop where
  sorted : registry.heap.Pairwise fun a b => a.tuple ≤ b.tuple
  own : ∀ key entry, registry.view key = some entry → entry.key = key
  live : ∀ key entry, registry.view key = some entry →
    ∃ record ∈ registry.heap, record.key = key ∧ entry.dueAt = some record.dueAt

section
variable {registry : ScheduledNodeRegistry} {record : HeapRecord} {entry : ScheduledNodeRegistration}

theorem dueAt_le_of_tuple_le {first second : HeapRecord} (le : first.tuple ≤ second.tuple) :
    first.dueAt ≤ second.dueAt := by
  rcases Prod.Lex.toLex_le_toLex.mp le with less | ⟨same, -⟩
  · exact less.le
  · exact same.le

theorem isCurrent_iff : isCurrent registry.entries record = true ↔
    ∃ entry, registry.view record.key = some entry ∧ entry.dueAt = some record.dueAt := by
  rw [isCurrent, view]
  cases registry.entries.lookup record.key with
  | none => simp
  | some entry => simp

/-! ### Registering -/

theorem heappush_sorted {heap : List HeapRecord} (sorted : heap.Pairwise fun a b => a.tuple ≤ b.tuple)
    (record : HeapRecord) : (heappush heap record).Pairwise fun a b => a.tuple ≤ b.tuple := by
  have total : Std.Total fun a b : HeapRecord => a.tuple ≤ b.tuple := ⟨fun a b => le_total a.tuple b.tuple⟩
  have transitive : IsTrans HeapRecord fun a b => a.tuple ≤ b.tuple := ⟨fun _ _ _ => le_trans⟩
  exact List.Pairwise.orderedInsert record heap sorted

theorem mem_heappush {heap : List HeapRecord} {other : HeapRecord} :
    other ∈ heappush heap record ↔ other = record ∨ other ∈ heap :=
  List.mem_orderedInsert _

theorem registerLocked_view (registry : ScheduledNodeRegistry) (entry : ScheduledNodeRegistration) :
    (registry.registerLocked entry).view = registry.view.register entry := by
  rw [registerLocked, DueMap.register]
  cases entry.dueAt with
  | none => rfl
  | some dueAt =>
    funext key
    rw [if_pos Option.isSome_some, Function.update_apply]
    exact lookup_dictSet _ _ _ _

theorem registerLocked_live (holds : HasLiveRecords registry) (entry : ScheduledNodeRegistration) :
    HasLiveRecords (registry.registerLocked entry) := by
  have isView := registerLocked_view registry entry
  rw [registerLocked] at isView ⊢
  cases isDue : entry.dueAt with
  | none => exact holds
  | some dueAt =>
    rw [isDue] at isView
    rw [DueMap.register, isDue, if_pos Option.isSome_some] at isView
    refine ⟨heappush_sorted holds.sorted _, fun key other found => ?_, fun key other found => ?_⟩
    · rw [isView, Function.update_apply] at found
      split_ifs at found with here
      · cases found
        exact here.symm
      · exact holds.own key other found
    · rw [isView, Function.update_apply] at found
      split_ifs at found with here
      · cases found
        exact ⟨_, mem_heappush.mpr (.inl rfl), here.symm, isDue⟩
      · obtain ⟨record, mem, isKey, same⟩ := holds.live key other found
        exact ⟨record, mem_heappush.mpr (.inr mem), isKey, same⟩

theorem new_live (sequence : Nat) : HasLiveRecords { entries := [], heap := [], sequence } where
  sorted := List.Pairwise.nil
  own := fun _ _ found => by cases found
  live := fun _ _ found => by cases found

theorem rebuild_live (registry : ScheduledNodeRegistry) (entries : List ScheduledNodeRegistration) :
    HasLiveRecords (registry.rebuild entries) := by
  rw [rebuild]
  generalize isStart : { registry with entries := [], heap := [] } = start
  have holds : HasLiveRecords start := isStart ▸ new_live registry.sequence
  clear isStart
  induction entries generalizing start with
  | nil => exact holds
  | cons entry entries ih => exact ih _ (registerLocked_live holds entry)

theorem rebuild_view (registry : ScheduledNodeRegistry) (entries : List ScheduledNodeRegistration) :
    (registry.rebuild entries).view = entries.foldl DueMap.register fun _ => none := by
  have general : ∀ start : ScheduledNodeRegistry,
      (entries.foldl registerLocked start).view = entries.foldl DueMap.register start.view := by
    induction entries with
    | nil => exact fun _ => rfl
    | cons entry entries ih =>
      intro start
      rw [List.foldl_cons, List.foldl_cons, ih, registerLocked_view]
  exact general _

/-! ### Taking registrations out -/

theorem HasLiveRecords.of_removed {after : ScheduledNodeRegistry} (holds : HasLiveRecords registry)
    (sameHeap : after.heap = registry.heap)
    (fewer : ∀ key entry, after.view key = some entry → registry.view key = some entry) :
    HasLiveRecords after where
  sorted := sameHeap ▸ holds.sorted
  own := fun key entry found => holds.own key entry (fewer key entry found)
  live := fun key entry found => sameHeap ▸ holds.live key entry (fewer key entry found)

theorem unregister_view (registry : ScheduledNodeRegistry) (graphId nodeId : String) :
    (registry.unregister graphId nodeId).view =
      Function.update registry.view ⟨pyStrip graphId, pyStrip nodeId⟩ none := by
  funext key
  rw [Function.update_apply]
  exact lookup_dictErase registry.entries ⟨pyStrip graphId, pyStrip nodeId⟩ key

theorem unregister_live (holds : HasLiveRecords registry) (graphId nodeId : String) :
    HasLiveRecords (registry.unregister graphId nodeId) := by
  refine holds.of_removed rfl fun key entry found => ?_
  rw [unregister_view, Function.update_apply] at found
  split_ifs at found
  exact found

theorem unregisterGraph_view (registry : ScheduledNodeRegistry) (graphId : String) :
    (registry.unregisterGraph graphId).view =
      fun key => if key.graphId = pyStrip graphId then none else registry.view key := by
  funext key
  change (registry.entries.filter _).lookup key = _
  rw [view]
  induction registry.entries with
  | nil => simp
  | cons field fields ih =>
    rw [List.filter_cons, List.lookup_cons]
    grind

theorem unregisterGraph_live (holds : HasLiveRecords registry) (graphId : String) :
    HasLiveRecords (registry.unregisterGraph graphId) := by
  refine holds.of_removed rfl fun key entry found => ?_
  rw [unregisterGraph_view] at found
  dsimp only at found
  split_ifs at found
  exact found

/-! ### Waiting -/

theorem discardStaleHeapHeads_live (holds : HasLiveRecords registry) :
    HasLiveRecords registry.discardStaleHeapHeads where
  sorted := holds.sorted.sublist (List.dropWhile_sublist _)
  own := holds.own
  live := by
    intro key entry found
    obtain ⟨record, mem, rfl, isDue⟩ := holds.live key entry found
    refine ⟨record, ?_, rfl, isDue⟩
    have current : isCurrent registry.entries record = true := isCurrent_iff.mpr ⟨entry, found, isDue⟩
    have split := List.takeWhile_append_dropWhile (p := fun record => !isCurrent registry.entries record)
      (l := registry.heap)
    rw [← split] at mem
    rcases List.mem_append.mp mem with stale | kept
    · have isStale := List.mem_takeWhile_imp stale
      simp [current] at isStale
    · exact kept

theorem discardStaleHeapHeads_head {heap : List HeapRecord}
    (isHeap : registry.discardStaleHeapHeads.heap = record :: heap) :
    ∃ entry, registry.view record.key = some entry ∧ entry.dueAt = some record.dueAt := by
  refine isCurrent_iff.mp ?_
  have first := List.head?_dropWhile_not (fun record => !isCurrent registry.entries record) registry.heap
  rw [show registry.heap.dropWhile _ = record :: heap from isHeap] at first
  simpa using first

theorem HasLiveRecords.head_le {heap : List HeapRecord} {key : NodeKey} (holds : HasLiveRecords registry)
    (isHeap : registry.heap = record :: heap) (found : registry.view key = some entry) :
    ∃ dueAt, entry.dueAt = some dueAt ∧ record.dueAt ≤ dueAt := by
  obtain ⟨other, mem, -, isDue⟩ := holds.live key entry found
  have sorted := holds.sorted
  rw [isHeap] at mem sorted
  refine ⟨other.dueAt, isDue, ?_⟩
  rcases List.mem_cons.mp mem with rfl | later
  · exact le_rfl
  · exact dueAt_le_of_tuple_le ((List.pairwise_cons.mp sorted).1 other later)

theorem HasLiveRecords.not_dueBy {heap : List HeapRecord} {key : NodeKey} {now : ℚ}
    (holds : HasLiveRecords registry) (isHeap : registry.heap = record :: heap) (early : now < record.dueAt)
    (found : registry.view key = some entry) : ¬ DueBy entry now := by
  obtain ⟨dueAt, isDue, le⟩ := holds.head_le isHeap found
  rintro ⟨other, isOther, before⟩
  rw [isDue] at isOther
  cases isOther
  exact absurd (early.trans_le le) (not_lt.mpr before)

theorem HasLiveRecords.of_nil {key : NodeKey} (holds : HasLiveRecords registry) (isHeap : registry.heap = []) :
    registry.view key ≠ some entry := by
  intro found
  obtain ⟨record, mem, -⟩ := holds.live key entry found
  rw [isHeap] at mem
  cases mem

theorem takeHead_live {heap : List HeapRecord} (holds : HasLiveRecords registry)
    (isHeap : registry.heap = record :: heap) :
    HasLiveRecords { registry with heap, entries := dictErase registry.entries record.key } := by
  have isView : ∀ key, view { registry with heap, entries := dictErase registry.entries record.key } key =
      if key = record.key then none else registry.view key := lookup_dictErase registry.entries record.key
  have sorted := holds.sorted
  rw [isHeap] at sorted
  refine ⟨(List.pairwise_cons.mp sorted).2, fun key entry found => ?_, fun key entry found => ?_⟩
  · rw [isView] at found
    split_ifs at found
    exact holds.own key entry found
  · rw [isView] at found
    split_ifs at found with other
    obtain ⟨kept, mem, isKey, isDue⟩ := holds.live key entry found
    rw [isHeap] at mem
    rcases List.mem_cons.mp mem with rfl | later
    · exact absurd isKey.symm other
    · exact ⟨kept, later, isKey, isDue⟩

theorem isDue_nil {map : DueMap} {readings : ℕ → ℚ}
    (early : ∀ key entry, map key = some entry → ¬ DueBy entry (readings 0)) : map.IsDue readings [] where
  registered := nofun
  once := List.nodup_nil
  ordered := List.Pairwise.nil
  exactly := fun key entry found => ⟨nofun, fun due => absurd due (early key entry found)⟩

theorem without_cons (map : DueMap) (entry : ScheduledNodeRegistration)
    (dueEntries : List ScheduledNodeRegistration) :
    map.without (entry :: dueEntries) = (map.without [entry]).without dueEntries := by
  funext key
  simp only [DueMap.without, List.map_cons, List.map_nil, List.mem_cons, List.not_mem_nil, or_false]
  split_ifs <;> tauto

theorem without_singleton (map : DueMap) (entry : ScheduledNodeRegistration) (key : NodeKey) :
    map.without [entry] key = if key = entry.key then none else map key := by
  simp only [DueMap.without, List.map_singleton, List.mem_singleton]

theorem isDue_cons {map : DueMap} {readings : ℕ → ℚ} {dueEntries : List ScheduledNodeRegistration}
    (found : map entry.key = some entry)
    (due : DueBy entry (readings 0))
    (first : ∀ key other, map key = some other → ∀ dueAt ∈ entry.dueAt, ∀ otherDue ∈ other.dueAt, dueAt ≤ otherDue)
    (rest : (map.without [entry]).IsDue (fun count => readings (count + 1)) dueEntries) :
    map.IsDue readings (entry :: dueEntries) := by
  have others : ∀ other ∈ dueEntries, other.key ≠ entry.key ∧ map other.key = some other := by
    intro other mem
    have registered := rest.registered other mem
    rw [without_singleton] at registered
    split_ifs at registered with same
    exact ⟨same, registered⟩
  refine ⟨?_, ?_, ?_, fun key other isOther => ?_⟩
  · rintro other mem
    rcases List.mem_cons.mp mem with rfl | later
    · exact found
    · exact (others other later).2
  · rw [List.map_cons, List.nodup_cons]
    refine ⟨fun mem => ?_, rest.once⟩
    obtain ⟨other, later, same⟩ := List.mem_map.mp mem
    exact (others other later).1 same
  · refine List.pairwise_cons.mpr ⟨fun other later => ?_, rest.ordered⟩
    exact first other.key other (others other later).2
  · by_cases same : other = entry
    · subst same
      rw [List.idxOf_cons_self]
      exact iff_of_true List.mem_cons_self due
    · have apart : key ≠ entry.key := by
        rintro rfl
        exact same (Option.some.inj (isOther.symm.trans found))
      rw [List.idxOf_cons_ne _ (Ne.symm same), List.mem_cons, or_iff_right same]
      exact rest.exactly key other (by rw [without_singleton, if_neg apart, isOther])

theorem takeDue_spec (clock : Clock) {fuel : Nat} (holds : HasLiveRecords registry)
    (enough : registry.heap.length ≤ fuel) (reading : Nat) :
    registry.view.IsDue (fun count => clock.1 (reading + count)) (takeDue clock fuel reading registry).1 ∧
      (takeDue clock fuel reading registry).2.view =
        registry.view.without (takeDue clock fuel reading registry).1 ∧
      HasLiveRecords (takeDue clock fuel reading registry).2 := by
  induction fuel generalizing registry reading with
  | zero =>
    have isNil := List.length_eq_zero_iff.mp (Nat.le_zero.mp enough)
    exact ⟨isDue_nil fun _ _ found => absurd found (holds.of_nil isNil), rfl, holds⟩
  | succ fuel ih =>
    have kept := discardStaleHeapHeads_live holds
    have shorter : registry.discardStaleHeapHeads.heap.length ≤ registry.heap.length :=
      (List.dropWhile_sublist _).length_le
    rw [takeDue]
    generalize isLeft : registry.discardStaleHeapHeads = left at *
    have sameView : left.view = registry.view := isLeft ▸ rfl
    rw [← sameView]
    dsimp only
    cases isHeap : left.heap with
    | nil => exact ⟨isDue_nil fun _ _ found => absurd found (kept.of_nil isHeap), rfl, kept⟩
    | cons record heap =>
      dsimp only
      split_ifs with early
      · exact ⟨isDue_nil fun _ _ => kept.not_dueBy isHeap early, rfl, kept⟩
      · obtain ⟨entry, found, isDue⟩ := discardStaleHeapHeads_head (isLeft.symm ▸ isHeap)
        rw [← sameView] at found
        have isOwn := kept.own _ _ found
        have taken : left.entries.lookup record.key = some entry := found
        rw [taken]
        rw [isHeap, List.length_cons] at shorter
        obtain ⟨due, isView, live⟩ := @ih _ (takeHead_live kept isHeap) (by dsimp only; omega) (reading + 1)
        have smaller : view { left with heap, entries := dictErase left.entries record.key } =
            left.view.without [entry] := by
          funext key
          rw [without_singleton, isOwn]
          exact lookup_dictErase left.entries record.key key
        rw [smaller] at due isView
        dsimp only
        generalize takeDue clock fuel (reading + 1) _ = later at due isView live ⊢
        obtain ⟨dueEntries, after⟩ := later
        refine ⟨isDue_cons (isOwn.symm ▸ found) ⟨record.dueAt, isDue, not_lt.mp early⟩ ?_ ?_, ?_, live⟩
        · intro key other isOther dueAt isFirst otherDue isSecond
          obtain ⟨least, isLeast, le⟩ := kept.head_le isHeap isOther
          rw [isDue] at isFirst
          rw [isLeast] at isSecond
          cases isFirst
          cases isSecond
          exact le
        · have shift : (fun count => clock.1 (reading + (count + 1))) =
              fun count => clock.1 (reading + 1 + count) := by
            funext count
            rw [Nat.add_right_comm, ← Nat.add_assoc]
          rw [shift]
          exact due
        · rw [without_cons]
          exact isView

theorem takeDue_ne_nil {clock : Clock} (holds : HasLiveRecords registry)
    (found : ∃ entry, registry.view record.key = some entry ∧ entry.dueAt = some record.dueAt)
    (due : record.dueAt ≤ clock.1 1) :
    (takeDue clock registry.heap.length 1 registry).1 ≠ [] := by
  obtain ⟨entry, isEntry, isDue⟩ := found
  obtain ⟨spec, -, -⟩ := takeDue_spec clock holds le_rfl 1
  intro isNil
  rw [isNil] at spec
  exact absurd ((spec.exactly _ entry isEntry).mpr ⟨record.dueAt, isDue, due⟩) List.not_mem_nil

theorem step_refines (holds : HasLiveRecords registry) (call : Call) :
    DueMap.Step registry.view call (registry.step call).1 (registry.step call).2.view ∧
      HasLiveRecords (registry.step call).2 := by
  cases call with
  | register entry =>
    refine ⟨?_, registerLocked_live holds entry⟩
    change DueMap.Step _ _ none (registry.registerLocked entry).view
    rw [registerLocked_view]
    exact .register registry.view entry
  | unregister graphId nodeId =>
    refine ⟨?_, unregister_live holds graphId nodeId⟩
    change DueMap.Step _ _ none (registry.unregister graphId nodeId).view
    rw [unregister_view]
    exact .unregister registry.view graphId nodeId
  | unregisterGraph graphId =>
    refine ⟨?_, unregisterGraph_live holds graphId⟩
    change DueMap.Step _ _ none (registry.unregisterGraph graphId).view
    rw [unregisterGraph_view]
    exact .unregisterGraph registry.view graphId
  | rebuild entries =>
    refine ⟨?_, rebuild_live registry entries⟩
    change DueMap.Step _ _ none (registry.rebuild entries).view
    rw [rebuild_view]
    exact .rebuild registry.view entries
  | waitForDue stopped clock =>
    cases stopped with
    | true => exact ⟨.stopped registry.view clock, holds⟩
    | false =>
      have kept := discardStaleHeapHeads_live holds
      have isView : registry.discardStaleHeapHeads.view = registry.view := rfl
      rw [step, waitForDueTurn, if_neg Bool.false_ne_true, ← isView]
      dsimp only
      cases isHeap : registry.discardStaleHeapHeads.heap with
      | nil =>
        exact ⟨.waits _ clock fun _ _ found => absurd found (kept.of_nil isHeap), kept⟩
      | cons record heap =>
        dsimp only
        rw [← isHeap]
        split_ifs with early notDue
        · have later : clock.1 0 < record.dueAt := by
            rcases lt_max_iff.mp early with never | later
            · exact absurd never (lt_irrefl 0)
            · exact sub_pos.mp later
          exact ⟨.waits _ clock fun _ _ => kept.not_dueBy isHeap later, kept⟩
        · have due : record.dueAt ≤ clock.1 0 := by
            by_contra later
            exact early (lt_max_of_lt_right (sub_pos.mpr (not_le.mp later)))
          exact absurd notDue (takeDue_ne_nil kept (@discardStaleHeapHeads_head registry record heap isHeap)
            (due.trans (clock.2 zero_le_one)))
        · obtain ⟨due, after, live⟩ := takeDue_spec clock kept le_rfl 1
          refine ⟨?_, live⟩
          dsimp only
          rw [after]
          exact .returns _ clock _ notDue due

theorem run_refines (holds : HasLiveRecords registry) (calls : List Call) :
    DueMap.Run registry.view calls (registry.run calls).1 (registry.run calls).2.view ∧
      HasLiveRecords (registry.run calls).2 := by
  induction calls generalizing registry with
  | nil => exact ⟨.nil registry.view, holds⟩
  | cons call calls ih =>
    obtain ⟨step, live⟩ := step_refines holds call
    obtain ⟨later, live⟩ := ih live
    exact ⟨.cons step later, live⟩

end

/-- From the empty registry on. -/
theorem registry_refines_dueMap (calls : List Call) :
    DueMap.Run (fun _ => none) calls (new.run calls).1 (new.run calls).2.view ∧
      HasLiveRecords (new.run calls).2 :=
  run_refines (new_live 0) calls

end ScheduledNodeRegistry

end AgentPark.Nodes
