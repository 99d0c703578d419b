import AgentPark.Lib.BoundedLog
import AgentPark.Lib.PyInt
import Mathlib.Data.List.Induction

/-!
# The event streams of the graphs

`GraphEventStreamStore` numbers the events of each graph and of all graphs together and keeps the last
ones.  A reader calls it with the version of its last answer.

* `Holds.waitForGlobalChange` and `Holds.waitForChange` are the answers in terms of the logs.
-/

namespace AgentPark.Web

open Lib

/-- An event as it is published. -/
abbrev GraphEvent : Type := List (String × Json)

/-- `_graph_id` -/
def safeGraphId (value : String) : String :=
  let stripped := pyStrip (if value = "" then "default" else value)
  if stripped = "" then "default" else stripped

/-- `int(event.get(key) or 0)` -/
def versionOf (key : String) (event : GraphEvent) : Nat :=
  match event.lookup key with
  | some value => ((value.pyInt fun _ => none).getD 0).toNat
  | none => 0

/-- The payload of an event. -/
def stamp (event : GraphEvent) (graph : String) (version : Nat) : GraphEvent :=
  dictSet (dictSet event "graph_id" (.str graph)) "version" (Json.nat version)

/-- The payload for the readers of all graphs. -/
def stampGlobal (payload : GraphEvent) (version : Nat) : GraphEvent :=
  dictSet payload "global_version" (Json.nat version)

theorem versionOf_stamp (event : GraphEvent) (graph : String) (version : Nat) :
    versionOf "version" (stamp event graph version) = version := by
  rw [versionOf, stamp, lookup_dictSet, if_pos rfl]
  dsimp only
  rw [Json.pyInt_nat]
  rfl

theorem versionOf_stampGlobal (payload : GraphEvent) (version : Nat) :
    versionOf "global_version" (stampGlobal payload version) = version := by
  rw [versionOf, stampGlobal, lookup_dictSet, if_pos rfl]
  dsimp only
  rw [Json.pyInt_nat]
  rfl

/-- The answer to a reader that is behind what is kept. -/
def gapEvent (first last : Nat) : GraphEvent :=
  [("event", .str "stream_gap"), ("from_global_version", Json.nat first),
    ("to_global_version", Json.nat last), ("global_version", Json.nat last)]

theorem versionOf_gapEvent (first last : Nat) : versionOf "global_version" (gapEvent first last) = last := by
  change ((((Json.nat last).pyInt fun _ => none)).getD 0).toNat = last
  rw [Json.pyInt_nat]
  rfl

/-- `GraphEventStreamStore` -/
structure EventStreamStore where
  versions : List (String × Nat) := []
  events : List (String × GraphEvent) := []
  historyLimit : Nat
  history : List (String × List GraphEvent) := []
  globalVersion : Nat := 0
  globalHistory : List GraphEvent := []
  limitPos : 0 < historyLimit

namespace EventStreamStore

/-- `GraphEventStreamStore(history_limit=…)` -/
def new (historyLimit : Int) : EventStreamStore where
  historyLimit := (max 1 historyLimit).toNat
  limitPos := by omega

variable (s : EventStreamStore)

/-- `publish` -/
def publish (graph : String) (event : GraphEvent) : EventStreamStore :=
  let safe := safeGraphId graph
  let version := (s.versions.lookup safe).getD 0 + 1
  let payload := stamp event safe version
  { s with
    versions := dictSet s.versions safe version
    events := dictSet s.events safe payload
    history := dictSet s.history safe
      (appendBounded s.historyLimit ((s.history.lookup safe).getD []) payload)
    globalVersion := s.globalVersion + 1
    globalHistory :=
      appendBounded s.historyLimit s.globalHistory (stampGlobal payload (s.globalVersion + 1)) }

/-- What `wait_for_change` answers when it returns. -/
def waitForChange (graph : String) (lastVersion : Nat) : GraphEvent :=
  let safe := safeGraphId graph
  match ((s.history.lookup safe).getD []).find?
    (fun event => decide (lastVersion < versionOf "version" event)) with
  | some event => event
  | none =>
    match s.events.lookup safe with
    | some event => event
    | none => [("graph_id", .str safe), ("version", Json.nat ((s.versions.lookup safe).getD 0))]

/-- What `wait_for_global_change` answers when it returns; nothing at its deadline. -/
def waitForGlobalChange (lastVersion : Nat) : Option GraphEvent :=
  if s.globalVersion ≤ lastVersion then none
  else
    match s.globalHistory with
    | [] => none
    | oldest :: rest =>
      if lastVersion + 1 < versionOf "global_version" oldest then
        some (gapEvent (lastVersion + 1) (versionOf "global_version" oldest - 1))
      else
        (oldest :: rest).find? fun event => decide (lastVersion < versionOf "global_version" event)

end EventStreamStore

/-! ### What was published -/

/-- A call of `publish`. -/
abbrev Publish : Type := String × GraphEvent

/-- The payload of a publish behind others. -/
def payloadAfter (before : List Publish) (publish : Publish) : GraphEvent :=
  stamp publish.2 (safeGraphId publish.1)
    (before.countP (fun earlier => safeGraphId earlier.1 = safeGraphId publish.1) + 1)

/-- What publishes leave in a log, given what one leaves behind others. -/
def logFrom (entries : List Publish → Publish → List GraphEvent) (before : List Publish) :
    List Publish → List GraphEvent
  | [] => []
  | publish :: rest => entries before publish ++ logFrom entries (before ++ [publish]) rest

/-- The payloads for the readers of all graphs. -/
def globalLog (published : List Publish) : List GraphEvent :=
  logFrom (fun before publish => [stampGlobal (payloadAfter before publish) (before.length + 1)]) []
    published

/-- What a publish leaves in the log of a graph. -/
def graphEntries (graph : String) (before : List Publish) (publish : Publish) : List GraphEvent :=
  if safeGraphId publish.1 = graph then [payloadAfter before publish] else []

/-- The payloads of a graph. -/
def graphLog (graph : String) (published : List Publish) : List GraphEvent :=
  logFrom (graphEntries graph) [] published

theorem logFrom_append (entries : List Publish → Publish → List GraphEvent)
    (before xs ys : List Publish) :
    logFrom entries before (xs ++ ys) = logFrom entries before xs ++ logFrom entries (before ++ xs) ys := by
  induction xs generalizing before with
  | nil => rw [List.nil_append, logFrom, List.nil_append, List.append_nil]
  | cons x xs ih =>
    rw [List.cons_append, logFrom, logFrom, ih, List.append_assoc, List.append_assoc,
      List.singleton_append]

theorem globalLog_concat (published : List Publish) (publish : Publish) :
    globalLog (published ++ [publish]) =
      globalLog published ++ [stampGlobal (payloadAfter published publish) (published.length + 1)] := by
  rw [globalLog, logFrom_append]
  rfl

theorem graphLog_append (graph : String) (published later : List Publish) :
    graphLog graph (published ++ later) =
      graphLog graph published ++ logFrom (graphEntries graph) published later :=
  logFrom_append _ _ _ _

theorem graphLog_concat (graph : String) (published : List Publish) (publish : Publish) :
    graphLog graph (published ++ [publish]) = graphLog graph published ++
      if safeGraphId publish.1 = graph then [payloadAfter published publish] else [] := by
  rw [graphLog_append, logFrom, logFrom, List.append_nil]
  rfl

theorem length_globalLog (published : List Publish) : (globalLog published).length = published.length := by
  induction published using List.reverseRecOn with
  | nil => rfl
  | append_singleton published publish ih =>
    rw [globalLog_concat, List.length_append, List.length_append, ih]
    rfl

theorem length_graphLog (graph : String) (published : List Publish) :
    (graphLog graph published).length = published.countP fun publish => safeGraphId publish.1 = graph := by
  induction published using List.reverseRecOn with
  | nil => rfl
  | append_singleton published publish ih =>
    rw [graphLog_concat, List.length_append, ih, List.countP_append]
    by_cases here : safeGraphId publish.1 = graph
    · simp [here]
    · simp [here]

theorem payloadAfter_eq (published : List Publish) (publish : Publish) :
    payloadAfter published publish = stamp publish.2 (safeGraphId publish.1)
      ((graphLog (safeGraphId publish.1) published).length + 1) := by
  rw [length_graphLog]
  rfl

theorem numbered_globalLog (published : List Publish) :
    Numbered (versionOf "global_version") 0 (globalLog published) := by
  induction published using List.reverseRecOn with
  | nil => exact .nil
  | append_singleton published publish ih =>
    rw [globalLog_concat]
    refine ih.concat ?_
    rw [versionOf_stampGlobal, length_globalLog]
    omega

theorem numbered_graphLog (graph : String) (published : List Publish) :
    Numbered (versionOf "version") 0 (graphLog graph published) := by
  induction published using List.reverseRecOn with
  | nil => exact .nil
  | append_singleton published publish ih =>
    rw [graphLog_concat]
    split
    · rename_i here
      refine ih.concat ?_
      rw [payloadAfter_eq, versionOf_stamp, here]
      omega
    · rwa [List.append_nil]

theorem getElem?_globalLog {published : List Publish} {i : Nat} {event : GraphEvent}
    (found : (globalLog published)[i]? = some event) :
    ∃ publish, published[i]? = some publish ∧
      event = stampGlobal (payloadAfter (published.take i) publish) (i + 1) := by
  induction published using List.reverseRecOn with
  | nil => cases found
  | append_singleton published publish ih =>
    rw [globalLog_concat] at found
    rcases Nat.lt_trichotomy i published.length with inside | last | outside
    · rw [List.getElem?_append_left (by rwa [length_globalLog])] at found
      obtain ⟨earlier, here, same⟩ := ih found
      rw [List.getElem?_append_left inside, List.take_append_of_le_length inside.le]
      exact ⟨earlier, here, same⟩
    · have size := length_globalLog published
      rw [last, ← size, List.getElem?_concat_length] at found
      rw [last, List.getElem?_concat_length, List.take_left]
      rw [size] at found
      exact ⟨publish, rfl, (Option.some.inj found).symm⟩
    · rw [List.getElem?_eq_none (by
        rw [List.length_append, length_globalLog, List.length_singleton]; omega)] at found
      cases found

/-! ### The store keeps the ends of the logs -/

/-- A store after publishes. -/
structure Holds (s : EventStreamStore) (published : List Publish) : Prop where
  globalVersion : s.globalVersion = published.length
  globalHistory : s.globalHistory = retained s.historyLimit (globalLog published)
  versions : ∀ graph, (s.versions.lookup graph).getD 0 = (graphLog graph published).length
  history : ∀ graph, (s.history.lookup graph).getD [] = retained s.historyLimit (graphLog graph published)
  events : ∀ graph, s.events.lookup graph = (graphLog graph published).getLast?

namespace Holds

variable {s : EventStreamStore} {published : List Publish}

theorem new (historyLimit : Int) : Holds (EventStreamStore.new historyLimit) [] where
  globalVersion := rfl
  globalHistory := List.drop_nil.symm
  versions _ := rfl
  history _ := List.drop_nil.symm
  events _ := rfl

theorem publish (holds : Holds s published) (graph : String) (event : GraphEvent) :
    Holds (s.publish graph event) (published ++ [(graph, event)]) := by
  have payload : stamp event (safeGraphId graph) ((s.versions.lookup (safeGraphId graph)).getD 0 + 1) =
      payloadAfter published (graph, event) := by
    rw [holds.versions, payloadAfter_eq]
  constructor
  · rw [List.length_append, List.length_singleton, ← holds.globalVersion]
    rfl
  · rw [globalLog_concat, ← appendBounded_retained]
    change appendBounded s.historyLimit s.globalHistory (stampGlobal _ (s.globalVersion + 1)) = _
    rw [payload, holds.globalHistory, holds.globalVersion]
    rfl
  · intro other
    change ((dictSet s.versions (safeGraphId graph) _).lookup other).getD 0 = _
    rw [lookup_dictSet, graphLog_concat, List.length_append]
    split
    · rename_i same
      rw [same, if_pos rfl, Option.getD_some, holds.versions]
      rfl
    · rename_i same
      rw [if_neg (Ne.symm same), holds.versions]
      rfl
  · intro other
    change ((dictSet s.history (safeGraphId graph) (appendBounded s.historyLimit _ _)).lookup other).getD [] = _
    rw [lookup_dictSet, graphLog_concat]
    split
    · rename_i same
      rw [same, if_pos rfl, Option.getD_some, ← appendBounded_retained, payload, holds.history]
      rfl
    · rename_i same
      rw [if_neg (Ne.symm same), List.append_nil, holds.history]
      rfl
  · intro other
    change (dictSet s.events (safeGraphId graph) _).lookup other = _
    rw [lookup_dictSet, graphLog_concat]
    split
    · rename_i same
      rw [same, if_pos rfl, payload, List.getLast?_concat]
    · rename_i same
      rw [if_neg (Ne.symm same), List.append_nil, holds.events]

theorem waitForGlobalChange (holds : Holds s published) (last : Nat) :
    s.waitForGlobalChange last =
      if published.length ≤ last then none
      else if last < published.length - s.historyLimit then
        some (gapEvent (last + 1) (published.length - s.historyLimit))
      else (globalLog published)[last]? := by
  have numbered := numbered_globalLog published
  have size := length_globalLog published
  have limitPos := s.limitPos
  rw [EventStreamStore.waitForGlobalChange, holds.globalVersion]
  split
  · rfl
  · rename_i behind
    have first := head?_retained s.historyLimit (globalLog published)
    have search := find?_retained numbered s.historyLimit last
    rw [← holds.globalHistory, size] at first search
    cases kept : s.globalHistory with
    | nil =>
      rw [kept, List.head?_nil] at first
      have outside := List.getElem?_eq_none_iff.mp first.symm
      omega
    | cons oldest rest =>
      rw [kept] at first search
      have place := numbered _ oldest first.symm
      dsimp only
      rw [search, place]
      by_cases lost : last < published.length - s.historyLimit
      · rw [if_pos (by omega), if_pos lost]
        congr 2
        omega
      · rw [if_neg (by omega), if_neg lost, Nat.max_eq_left (Nat.not_lt.mp lost)]

theorem waitForChange (holds : Holds s published) (graph : String) {last : Nat}
    (behind : last < (graphLog (safeGraphId graph) published).length) :
    (graphLog (safeGraphId graph) published)[max last
      ((graphLog (safeGraphId graph) published).length - s.historyLimit)]? =
        some (s.waitForChange graph last) := by
  have limitPos := s.limitPos
  have search := find?_retained (numbered_graphLog (safeGraphId graph) published) s.historyLimit last
  rw [← holds.history] at search
  have inside : max last ((graphLog (safeGraphId graph) published).length - s.historyLimit) <
      (graphLog (safeGraphId graph) published).length := by
    omega
  rw [List.getElem?_eq_getElem inside] at search ⊢
  rw [EventStreamStore.waitForChange]
  rw [search]

theorem waitForChange_deadline (holds : Holds s published) (graph : String) {last : Nat}
    (current : (graphLog (safeGraphId graph) published).length ≤ last) :
    s.waitForChange graph last = (graphLog (safeGraphId graph) published).getLast?.getD
      [("graph_id", .str (safeGraphId graph)), ("version", Json.nat 0)] := by
  have search := find?_retained (numbered_graphLog (safeGraphId graph) published) s.historyLimit last
  rw [← holds.history, List.getElem?_eq_none (by omega)] at search
  rw [EventStreamStore.waitForChange]
  rw [search, holds.events]
  cases newest : (graphLog (safeGraphId graph) published).getLast? with
  | some event => rfl
  | none =>
    have empty := List.getLast?_eq_none_iff.mp newest
    have version := holds.versions (safeGraphId graph)
    rw [empty] at version
    dsimp only
    rw [version]
    rfl

end Holds

/-! ### Runs -/

/-- What happens to a store with one reader: publishes, and calls of the reader that return. -/
inductive StreamStep where
  | publish (graph : String) (event : GraphEvent)
  | call

/-- A reader of all graphs, with what was published. -/
structure GlobalReader where
  store : EventStreamStore
  published : List Publish := []
  lastVersion : Nat
  answers : List GraphEvent := []

namespace GlobalReader

/-- A step; a call without an answer leaves the reader with its version. -/
def step (r : GlobalReader) : StreamStep → GlobalReader
  | .publish graph event =>
    { r with store := r.store.publish graph event, published := r.published ++ [(graph, event)] }
  | .call =>
    match r.store.waitForGlobalChange r.lastVersion with
    | none => r
    | some answer =>
      { r with lastVersion := versionOf "global_version" answer, answers := r.answers ++ [answer] }

/-- A reader that starts at a version, on a store with earlier publishes. -/
def start (historyLimit : Int) (earlier : List Publish) (first : Nat) : GlobalReader where
  store := earlier.foldl (fun s publish => s.publish publish.1 publish.2) (.new historyLimit)
  published := earlier
  lastVersion := first

end GlobalReader

/-- An answer stands for a range of versions: an event for its own, a gap for what it names. -/
def Spans (published : List Publish) (range : Nat × Nat) (answer : GraphEvent) : Prop :=
  range.1 ≤ range.2 ∧
    ((range.1 = range.2 ∧ ∃ publish, published[range.1 - 1]? = some publish ∧
      answer = stampGlobal (payloadAfter (published.take (range.1 - 1)) publish) range.1) ∨
    (answer = gapEvent range.1 range.2 ∧ range.2 ≤ published.length))

/-- The versions of a range. -/
def versionsIn (range : Nat × Nat) : List Nat := List.range' range.1 (range.2 + 1 - range.1)

variable {published : List Publish}

theorem Spans.append {range : Nat × Nat} {answer : GraphEvent}
    (spans : Spans published range answer) (later : List Publish) :
    Spans (published ++ later) range answer := by
  obtain ⟨ordered, ⟨single, publish, here, same⟩ | ⟨gap, below⟩⟩ := spans
  · obtain ⟨inside, _⟩ := List.getElem?_eq_some_iff.mp here
    refine ⟨ordered, Or.inl ⟨single, publish, ?_, ?_⟩⟩
    · rwa [List.getElem?_append_left inside]
    · rwa [List.take_append_of_le_length inside.le]
  · refine ⟨ordered, Or.inr ⟨gap, ?_⟩⟩
    rw [List.length_append]
    omega

/-- What a reader that started at `first` has got: ranges one behind the other, up to its version. -/
structure Followed (first : Nat) (r : GlobalReader) : Prop where
  holds : Holds r.store r.published
  le : first ≤ r.lastVersion
  ranges : ∃ ranges, List.Forall₂ (Spans r.published) ranges r.answers ∧
    ranges.flatMap versionsIn = List.range' (first + 1) (r.lastVersion - first)

variable {s : EventStreamStore}

theorem Holds.foldl (holds : Holds s published) (later : List Publish) :
    Holds (later.foldl (fun s publish => s.publish publish.1 publish.2) s) (published ++ later) := by
  induction later generalizing s published with
  | nil => rwa [List.append_nil]
  | cons publish later ih =>
    rw [List.foldl_cons, List.append_cons]
    exact ih (holds.publish publish.1 publish.2)

theorem Followed.start (historyLimit : Int) (earlier : List Publish) (first : Nat) :
    Followed first (.start historyLimit earlier first) where
  holds := (Holds.new historyLimit).foldl earlier
  le := Nat.le_refl first
  ranges := by
    refine ⟨[], .nil, ?_⟩
    change [] = List.range' (first + 1) (first - first)
    rw [Nat.sub_self]
    rfl

theorem Holds.waitForGlobalChange_eq_none (holds : Holds s published) (last : Nat) :
    s.waitForGlobalChange last = none ↔ published.length ≤ last := by
  rw [holds.waitForGlobalChange]
  split
  · rename_i current
    exact iff_of_true rfl current
  · rename_i behind
    split
    · exact iff_of_false nofun behind
    · rw [List.getElem?_eq_none_iff, length_globalLog]

theorem Holds.spans (holds : Holds s published) {last : Nat} {answer : GraphEvent}
    (answered : s.waitForGlobalChange last = some answer) :
    last < versionOf "global_version" answer ∧ versionOf "global_version" answer ≤ published.length ∧
      Spans published (last + 1, versionOf "global_version" answer) answer := by
  rw [holds.waitForGlobalChange] at answered
  split at answered
  · cases answered
  · rename_i behind
    split at answered
    · rename_i lost
      cases answered
      rw [versionOf_gapEvent]
      exact ⟨lost, Nat.sub_le _ _, lost, Or.inr ⟨rfl, Nat.sub_le _ _⟩⟩
    · have version : versionOf "global_version" answer = last + 1 := by
        have place := numbered_globalLog published _ _ answered
        omega
      obtain ⟨publish, here, same⟩ := getElem?_globalLog answered
      rw [version]
      exact ⟨by omega, by omega, Nat.le_refl _, Or.inl ⟨rfl, publish, here, same⟩⟩

variable {first : Nat} {r : GlobalReader}

/-- One step leaves no gap between the ranges that a global reader got. -/
theorem Followed.step (followed : Followed first r) (step : StreamStep) :
    Followed first (r.step step) := by
  obtain ⟨holds, le, ranges, spans, covered⟩ := followed
  cases step with
  | publish graph event =>
    exact ⟨holds.publish graph event, le, ranges, spans.imp fun _ _ span => span.append _, covered⟩
  | call =>
    rw [GlobalReader.step]
    cases answered : r.store.waitForGlobalChange r.lastVersion with
    | none => exact ⟨holds, le, ranges, spans, covered⟩
    | some answer =>
      obtain ⟨later, _, span⟩ := holds.spans answered
      refine ⟨holds, le.trans later.le,
        ranges ++ [(r.lastVersion + 1, versionOf "global_version" answer)],
        List.rel_append spans (.cons span .nil), ?_⟩
      dsimp only
      rw [List.flatMap_append, List.flatMap_singleton, covered, versionsIn]
      dsimp only
      have joint := @List.range'_append (first + 1) (r.lastVersion - first)
        (versionOf "global_version" answer + 1 - (r.lastVersion + 1)) 1
      have seam : first + 1 + 1 * (r.lastVersion - first) = r.lastVersion + 1 := by
        omega
      rw [seam] at joint
      rw [joint]
      congr 1
      omega

/-- There is no gap between them over any run. -/
theorem Followed.run (followed : Followed first r) (steps : List StreamStep) :
    Followed first (steps.foldl GlobalReader.step r) := by
  induction steps generalizing r with
  | nil => exact followed
  | cons step steps ih => exact ih (followed.step step)

theorem Followed.level (followed : Followed first r) (calls : Nat)
    (enough : r.published.length - r.lastVersion ≤ calls) :
    r.published.length ≤ ((List.replicate calls StreamStep.call).foldl GlobalReader.step r).lastVersion := by
  induction calls generalizing r with
  | zero =>
    change r.published.length ≤ r.lastVersion
    omega
  | succ calls ih =>
    have next := followed.step .call
    rw [List.replicate_succ, List.foldl_cons]
    cases answered : r.store.waitForGlobalChange r.lastVersion with
    | none =>
      have same : r.step .call = r := by
        rw [GlobalReader.step, answered]
      have current := (followed.holds.waitForGlobalChange_eq_none _).mp answered
      rw [same]
      exact ih followed (by omega)
    | some answer =>
      obtain ⟨later, _, _⟩ := followed.holds.spans answered
      have moved : r.step .call = { r with
          lastVersion := versionOf "global_version" answer, answers := r.answers ++ [answer] } := by
        rw [GlobalReader.step, answered]
      rw [moved] at next ⊢
      exact ih next (by dsimp only; omega)

/-! ### Readers of one graph -/

/-- A call of a reader of a graph: the version it passed, the number of events its graph then had, and the
answer. -/
structure GraphCall where
  passed : Nat
  newest : Nat
  answer : GraphEvent
deriving DecidableEq

namespace GraphCall

/-- The version of the answer. -/
def version (call : GraphCall) : Nat := versionOf "version" call.answer

/-- There was an event newer than the version passed, so that the call did not end at its deadline. -/
def Behind (call : GraphCall) : Prop := call.passed < call.newest

instance (call : GraphCall) : Decidable call.Behind := inferInstanceAs (Decidable (_ < _))

end GraphCall

/-- A reader of a graph, with what was published. -/
structure GraphReader where
  store : EventStreamStore
  published : List Publish := []
  lastVersion : Nat
  calls : List GraphCall := []

namespace GraphReader

/-- A step; each call passes the version of the answer before. -/
def step (graph : String) (r : GraphReader) : StreamStep → GraphReader
  | .publish other event =>
    { r with store := r.store.publish other event, published := r.published ++ [(other, event)] }
  | .call =>
    let answer := r.store.waitForChange graph r.lastVersion
    { r with
      lastVersion := versionOf "version" answer
      calls := r.calls ++
        [⟨r.lastVersion, (graphLog (safeGraphId graph) r.published).length, answer⟩] }

/-- A reader that starts at a version, on a store with earlier publishes. -/
def start (historyLimit : Int) (earlier : List Publish) (first : Nat) : GraphReader where
  store := earlier.foldl (fun s publish => s.publish publish.1 publish.2) (.new historyLimit)
  published := earlier
  lastVersion := first

end GraphReader

/-- A call as the bound on the history allows it.  At its deadline it gets the event its graph is at.
Otherwise it gets an event that is newer than the version it passed, and misses one only when more events
than the limit were published behind that version. -/
def GraphCall.Bounded (graph : String) (limit : Nat) (published : List Publish) (call : GraphCall) : Prop :=
  if call.Behind then
    (graphLog (safeGraphId graph) published)[call.version - 1]? = some call.answer ∧
      call.passed < call.version ∧ call.version ≤ call.newest ∧
      (call.passed + 1 < call.version → limit < call.newest - call.passed)
  else
    call.answer = ((graphLog (safeGraphId graph) published).take call.newest).getLast?.getD
      [("graph_id", .str (safeGraphId graph)), ("version", Json.nat 0)]

variable {graph : String} {limit : Nat}

theorem GraphCall.Bounded.append {published : List Publish} {call : GraphCall}
    (bounded : call.Bounded graph limit published)
    (past : call.newest ≤ (graphLog (safeGraphId graph) published).length) (later : List Publish) :
    call.Bounded graph limit (published ++ later) := by
  unfold GraphCall.Bounded at bounded ⊢
  rw [graphLog_append]
  split
  · rename_i behind
    rw [if_pos behind] at bounded
    obtain ⟨inside, _⟩ := List.getElem?_eq_some_iff.mp bounded.1
    rw [List.getElem?_append_left inside]
    exact bounded
  · rename_i current
    rw [if_neg current] at bounded
    rw [bounded, List.take_append_of_le_length past]

/-- What a reader of a graph has got. -/
structure Traced (graph : String) (limit : Nat) (r : GraphReader) : Prop where
  holds : Holds r.store r.published
  sameLimit : r.store.historyLimit = limit
  bounded : ∀ call ∈ r.calls, call.Bounded graph limit r.published
  past : ∀ call ∈ r.calls, call.newest ≤ (graphLog (safeGraphId graph) r.published).length
  sorted : ((r.calls.filter fun call => call.Behind).map GraphCall.version).Pairwise (· < ·)
  below : ∀ call ∈ r.calls, call.Behind → call.version ≤ r.lastVersion

theorem Holds.bounded {s : EventStreamStore} {published : List Publish} (holds : Holds s published)
    (graph : String) (last : Nat) :
    (⟨last, (graphLog (safeGraphId graph) published).length, s.waitForChange graph last⟩ :
        GraphCall).Bounded graph s.historyLimit published ∧
      ((graphLog (safeGraphId graph) published).length ≤ last →
        versionOf "version" (s.waitForChange graph last) = (graphLog (safeGraphId graph) published).length) := by
  have numbered := numbered_graphLog (safeGraphId graph) published
  rw [GraphCall.Bounded, GraphCall.version]
  dsimp only
  rcases Nat.lt_or_ge last (graphLog (safeGraphId graph) published).length with behind | current
  · have found := holds.waitForChange graph behind
    have place := numbered _ _ found
    have limitPos := s.limitPos
    have isBehind : (⟨last, (graphLog (safeGraphId graph) published).length, s.waitForChange graph last⟩ :
        GraphCall).Behind := behind
    rw [if_pos isBehind, place]
    refine ⟨⟨?_, by omega, by omega, by omega⟩, by omega⟩
    have index : 0 + max last ((graphLog (safeGraphId graph) published).length - s.historyLimit) + 1 - 1 =
        max last ((graphLog (safeGraphId graph) published).length - s.historyLimit) := by
      omega
    rwa [index]
  · have answer := holds.waitForChange_deadline graph current
    have level : ¬ (⟨last, (graphLog (safeGraphId graph) published).length, s.waitForChange graph last⟩ :
        GraphCall).Behind := Nat.not_lt.mpr current
    rw [if_neg level, List.take_length]
    refine ⟨answer, fun _ => ?_⟩
    rw [answer]
    cases newest : (graphLog (safeGraphId graph) published).getLast? with
    | some event =>
      rw [List.getLast?_eq_getElem?] at newest
      have place := numbered _ _ newest
      obtain ⟨inside, _⟩ := List.getElem?_eq_some_iff.mp newest
      rw [Option.getD_some]
      omega
    | none =>
      rw [List.getLast?_eq_none_iff.mp newest]
      change (((Json.nat 0).pyInt fun _ => none).getD 0).toNat = 0
      rw [Json.pyInt_nat]
      rfl

theorem Traced.start (graph : String) (historyLimit : Int) (earlier : List Publish) (first : Nat) :
    Traced graph (max 1 historyLimit).toNat (.start historyLimit earlier first) where
  holds := (Holds.new historyLimit).foldl earlier
  sameLimit := by
    have kept (s : EventStreamStore) :
        (earlier.foldl (fun s publish => s.publish publish.1 publish.2) s).historyLimit = s.historyLimit := by
      induction earlier generalizing s with
      | nil => rfl
      | cons publish earlier ih => exact ih _
    exact kept _
  bounded := nofun
  past := nofun
  sorted := .nil
  below := nofun

/-- One step keeps the answers of a graph reader bounded and its versions ascending. -/
theorem Traced.step {r : GraphReader} (traced : Traced graph limit r) (step : StreamStep) :
    Traced graph limit (r.step graph step) := by
  obtain ⟨holds, sameLimit, bounded, past, sorted, below⟩ := traced
  cases step with
  | publish other event =>
    refine ⟨holds.publish other event, sameLimit, fun call mem => (bounded call mem).append (past call mem) _,
      fun call mem => (past call mem).trans ?_, sorted, below⟩
    change _ ≤ (graphLog (safeGraphId graph) (r.published ++ [(other, event)])).length
    rw [graphLog_append, List.length_append]
    exact Nat.le_add_right _ _
  | call =>
    obtain ⟨isBounded, deadline⟩ := holds.bounded graph r.lastVersion
    rw [sameLimit] at isBounded
    generalize isNew : (⟨r.lastVersion, (graphLog (safeGraphId graph) r.published).length,
      r.store.waitForChange graph r.lastVersion⟩ : GraphCall) = new at isBounded
    have later : new.Behind → r.lastVersion < new.version := by
      intro behind
      rw [GraphCall.Bounded, if_pos behind] at isBounded
      rw [← isNew] at isBounded ⊢
      exact isBounded.2.1
    have calls : (r.step graph .call).calls = r.calls ++ [new] := by
      rw [← isNew]
      rfl
    refine ⟨holds, sameLimit, ?_, ?_, ?_, ?_⟩
    · rw [calls]
      exact List.forall_mem_append.mpr ⟨bounded, List.forall_mem_singleton.mpr isBounded⟩
    · rw [calls]
      refine List.forall_mem_append.mpr ⟨past, List.forall_mem_singleton.mpr ?_⟩
      rw [← isNew]
      exact Nat.le_refl _
    · rw [calls, List.filter_append, List.map_append]
      by_cases behind : new.Behind
      · rw [List.filter_singleton, decide_eq_true behind, cond_true, List.pairwise_append]
        refine ⟨sorted, List.pairwise_singleton _ _, fun earlier isEarlier version isVersion => ?_⟩
        obtain ⟨call, mem, rfl⟩ := List.mem_map.mp isEarlier
        obtain ⟨inCalls, wasBehind⟩ := List.mem_filter.mp mem
        rw [List.map_singleton, List.mem_singleton] at isVersion
        rw [isVersion]
        exact (below call inCalls (of_decide_eq_true wasBehind)).trans_lt (later behind)
      · rw [List.filter_singleton, decide_eq_false behind, cond_false, List.map_nil, List.append_nil]
        exact sorted
    · have reached : (r.step graph .call).lastVersion = new.version := by
        rw [← isNew]
        rfl
      rw [calls, reached]
      intro call mem wasBehind
      rcases List.mem_append.mp mem with earlier | last
      · by_cases behind : new.Behind
        · exact (below call earlier wasBehind).trans (later behind).le
        · have atMost := bounded call earlier
          rw [GraphCall.Bounded, if_pos wasBehind] at atMost
          have level : new.version = (graphLog (safeGraphId graph) r.published).length := by
            rw [← isNew] at behind ⊢
            exact deadline (Nat.not_lt.mp behind)
          rw [level]
          exact atMost.2.2.1.trans (past call earlier)
      · rw [List.mem_singleton.mp last]

/-- They are so over any run. -/
theorem Traced.run {r : GraphReader} (traced : Traced graph limit r) (steps : List StreamStep) :
    Traced graph limit (steps.foldl (GraphReader.step graph) r) := by
  induction steps generalizing r with
  | nil => exact traced
  | cons step steps ih => exact ih (traced.step step)

/-! ### Both readers -/

/-- A reader of all graphs gets every version behind the one it starts from, in ranges one behind the
other.  A reader of one graph gets newer and newer events until it is level, and misses one only when more
than the limit were published behind the version it passed. -/
theorem readers_follow (historyLimit : Int) (earlier : List Publish) (first : Nat)
    (steps : List StreamStep) :
    (∃ r, r = steps.foldl GlobalReader.step (.start historyLimit earlier first) ∧ first ≤ r.lastVersion ∧
      (∃ ranges, List.Forall₂ (Spans r.published) ranges r.answers ∧
        ranges.flatMap versionsIn = List.range' (first + 1) (r.lastVersion - first)) ∧
      (r.store.waitForGlobalChange r.lastVersion = none ↔ r.published.length ≤ r.lastVersion) ∧
      r.published.length ≤ ((List.replicate (r.published.length - r.lastVersion) StreamStep.call).foldl
        GlobalReader.step r).lastVersion) ∧
    ∀ graph, ∃ r, r = steps.foldl (GraphReader.step graph) (.start historyLimit earlier first) ∧
      (∀ call ∈ r.calls, call.Bounded graph (max 1 historyLimit).toNat r.published) ∧
      ((r.calls.filter fun call => call.Behind).map GraphCall.version).Pairwise (· < ·) := by
  have followed := (Followed.start historyLimit earlier first).run steps
  refine ⟨⟨_, rfl, followed.le, followed.ranges, followed.holds.waitForGlobalChange_eq_none _,
    followed.level _ (Nat.le_refl _)⟩, fun graph => ?_⟩
  have traced := (Traced.start graph historyLimit earlier first).run steps
  exact ⟨_, rfl, traced.bounded, traced.sorted⟩

/-- A reader of a graph that starts behind five events, with a limit of three. -/
def laggingReader : GraphReader :=
  [.call, .publish "g" [], .publish "g" [], .call, .call, .call, .call].foldl (GraphReader.step "g")
    (.start 3 (List.replicate 5 ("g", [])) 0)

/-- It gets an event again at a deadline, and its second call misses an event though no more than two were
published between any of its calls. -/
theorem laggingReader_misses :
    ¬ (laggingReader.calls.map GraphCall.version).Pairwise (· < ·) ∧
      ∃ call ∈ laggingReader.calls.tail, call.passed + 1 < call.version ∧
        ∀ a ∈ laggingReader.calls, ∀ b ∈ laggingReader.calls, b.newest - a.newest ≤ 3 := by
  decide +kernel

end AgentPark.Web
