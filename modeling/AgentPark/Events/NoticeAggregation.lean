import AgentPark.Lib.JsonSort
import Mathlib.Algebra.BigOperators.Group.List.Basic
import Mathlib.Algebra.GroupWithZero.Nat

/-!
# Summaries of notices

`RuntimeNoticeContextAggregator` counts the notices of a trace, in all and by stage, and gives for
each notice a summary of what it has counted.

* `NoticeTraceState.record` counts one notice; the lock of the aggregator makes it one step.
* `NoticeTraceState.Counted` says that the count of a trace is the sum of the counts of its stages
  and of what fell into no stage; `NoticeTraceState.Counted.record` keeps it.
-/

namespace AgentPark.Events

open Lib

/-- `MAX_STAGES_PER_TRACE` -/
def maxStagesPerTrace : Nat := 64

/-- `MAX_NOTICE_MESSAGE_CHARS` -/
def maxNoticeMessageChars : Nat := 1200

/-- `NoticeStageState` -/
structure NoticeStageState where
  stage : String
  source : String
  provider : String
  latestMessage : String
  totalCount : Nat := 1
  stateChangeCount : Nat := 1
  repeatCount : Nat := 0
deriving DecidableEq

/-- `NoticeTraceState` -/
structure NoticeTraceState where
  totalCount : Nat
  stages : List (String × NoticeStageState)
  overflowStageCount : Nat := 0
  overflowNoticeCount : Nat := 0
deriving DecidableEq

/-- What `record` reads of an envelope: the ids, and `str(payload.get(field) or "")`. -/
structure Notice where
  sourceGraphId : String
  sourceNodeId : String
  traceId : String
  stage : String := ""
  message : String := ""
  source : String := ""
  provider : String := ""
deriving DecidableEq

/-- A node, as the aggregator and the store of contexts name it. -/
structure NodeKey where
  graphId : String
  nodeId : String
deriving DecidableEq

/-- The key of a trace.  `emit` strips the identifiers. -/
structure TraceKey where
  node : NodeKey
  traceId : String
  named : traceId ≠ "" ∧ pyStrip traceId = traceId
deriving DecidableEq

/-- The node of a notice, as `emit` strips it. -/
def Notice.node (notice : Notice) : NodeKey :=
  ⟨pyStrip notice.sourceGraphId, pyStrip notice.sourceNodeId⟩

/-- `str(envelope.trace_id or "untraced")` -/
def Notice.traceKey (notice : Notice) : TraceKey where
  node := notice.node
  traceId := if pyStrip notice.traceId = "" then "untraced" else pyStrip notice.traceId
  named := by
    split
    · exact ⟨by decide, by decide +kernel⟩
    · rename_i traced
      exact ⟨traced, pyStrip_pyStrip _⟩

def Notice.stageName (notice : Notice) : String :=
  let stage := pyStrip (if notice.stage = "" then "unspecified" else notice.stage)
  if stage = "" then "unspecified" else stage

def Notice.messageText (notice : Notice) : String :=
  let message := pyStrip notice.message
  if maxNoticeMessageChars < message.length then
    String.ofList (message.toList.take maxNoticeMessageChars) ++ "...[truncated]"
  else message

/-- A stage that is there counts one more notice. -/
def NoticeStageState.again (state : NoticeStageState) (message source provider : String) :
    NoticeStageState :=
  if state.latestMessage = message ∧ state.source = source ∧ state.provider = provider then
    { state with totalCount := state.totalCount + 1, repeatCount := state.repeatCount + 1 }
  else
    { state with
      totalCount := state.totalCount + 1
      stateChangeCount := state.stateChangeCount + 1
      latestMessage := message
      source
      provider }

namespace NoticeTraceState

/-- `NoticeTraceState(total_count=0, stages={})` -/
def fresh : NoticeTraceState := { totalCount := 0, stages := [] }

/-- `record`, under its lock, for the state of the notice's trace. -/
def record (state : NoticeTraceState) (notice : Notice) : NoticeTraceState :=
  let stage := notice.stageName
  let message := notice.messageText
  let source := pyStrip notice.source
  let provider := pyStrip notice.provider
  let state := { state with totalCount := state.totalCount + 1 }
  match state.stages.lookup stage with
  | none =>
    if maxStagesPerTrace ≤ state.stages.length then
      { state with
        overflowStageCount := state.overflowStageCount + 1
        overflowNoticeCount := state.overflowNoticeCount + 1 }
    else
      { state with
        stages := dictSet state.stages stage
          { stage, source, provider, latestMessage := message } }
  | some stageState =>
    { state with stages := dictSet state.stages stage (stageState.again message source provider) }

/-- The sum of the stages' `total_count`. -/
def stageTotal (state : NoticeTraceState) : Nat :=
  (state.stages.map fun entry => entry.2.totalCount).sum

/-- Each notice is counted in its stage or has overflowed. -/
structure Counted (state : NoticeTraceState) : Prop where
  keys : (state.stages.map Prod.fst).Nodup
  total : state.totalCount = state.stageTotal + state.overflowNoticeCount
  /-- Where stages have overflowed, the summary says so. -/
  overflow : state.overflowStageCount = state.overflowNoticeCount

theorem counted_fresh : fresh.Counted := ⟨List.nodup_nil, rfl, rfl⟩

theorem totalCount_record (state : NoticeTraceState) (notice : Notice) :
    (state.record notice).totalCount = state.totalCount + 1 := by
  unfold record
  dsimp only
  split
  · split
    · rfl
    · rfl
  · rfl

theorem totalCount_again (state : NoticeStageState) (message source provider : String) :
    (state.again message source provider).totalCount = state.totalCount + 1 := by
  unfold NoticeStageState.again
  split
  · rfl
  · rfl

theorem Counted.record {state : NoticeTraceState} (counted : state.Counted) (notice : Notice) :
    (state.record notice).Counted := by
  obtain ⟨keys, total, overflow⟩ := counted
  unfold NoticeTraceState.record
  dsimp only
  split
  · rename_i absent
    split
    · refine ⟨keys, ?_, congrArg (· + 1) overflow⟩
      change state.totalCount + 1 = state.stageTotal + (state.overflowNoticeCount + 1)
      omega
    · refine ⟨nodup_dictSet keys _ _, ?_, overflow⟩
      have new : notice.stageName ∉ state.stages.map Prod.fst := by
        intro mem
        obtain ⟨entry, isEntry, same⟩ := List.mem_map.mp mem
        have other := List.lookup_eq_none_iff.mp absent entry isEntry
        simp [same] at other
      unfold stageTotal at total ⊢
      dsimp only
      rw [dictSet, if_neg new, List.map_append, List.sum_append, List.map_singleton,
        List.sum_singleton, total]
      dsimp only
      omega
  · rename_i stageState found
    refine ⟨nodup_dictSet keys _ _, ?_, overflow⟩
    obtain ⟨front, back, isStages, isSet⟩ := dictSet_of_lookup keys found
      (stageState.again notice.messageText (pyStrip notice.source) (pyStrip notice.provider))
    unfold stageTotal at total ⊢
    dsimp only
    rw [isSet]
    rw [isStages] at total
    rw [List.map_append, List.map_cons, List.sum_append, List.sum_cons] at total ⊢
    dsimp only at total ⊢
    rw [totalCount_again, total]
    omega

end NoticeTraceState

/-! ### The summary a node reads -/

/-- The payload of a summary.  `period` and `number` only watch: how often the node had been cleared
and how many notices had been recorded when the summary was made. -/
structure NoticeSummary where
  key : TraceKey
  state : NoticeTraceState
  period : Nat
  number : Nat
deriving DecidableEq

def NoticeStageState.json (state : NoticeStageState) : Json :=
  .obj [("stage", .str state.stage), ("source", .str state.source),
    ("provider", .str state.provider), ("total_count", .nat state.totalCount),
    ("state_change_count", .nat state.stateChangeCount), ("repeat_count", .nat state.repeatCount),
    ("latest_message", .str state.latestMessage)]

/-- `payload` in `_render` -/
def NoticeSummary.payload (summary : NoticeSummary) : Json :=
  .obj ([("kind", .str "runtime_notice_summary"), ("graph_id", .str summary.key.node.graphId),
      ("node_id", .str summary.key.node.nodeId), ("trace_id", .str summary.key.traceId),
      ("total_notice_count", .nat summary.state.totalCount),
      ("stages", .arr (summary.state.stages.map fun entry => entry.2.json))] ++
    if summary.state.overflowStageCount ≠ 0 then
      [("overflow_stage_count", .nat summary.state.overflowStageCount),
        ("overflow_notice_count", .nat summary.state.overflowNoticeCount)]
    else [])

/-- `_render` -/
def NoticeSummary.text (summary : NoticeSummary) : String :=
  "Runtime notice state summary:\n" ++ String.ofList (dumpsSorted summary.payload)

/-- `_aggregation_key` -/
def TraceKey.aggregationKey (key : TraceKey) : String :=
  "runtime_notice:" ++ (key.node.graphId ++ ":" ++ key.node.nodeId ++ ":" ++ key.traceId)

theorem TraceKey.aggregationKey_injective {key other : TraceKey} (node : key.node = other.node)
    (same : key.aggregationKey = other.aggregationKey) : key = other := by
  obtain ⟨node₁, trace, named⟩ := key
  obtain ⟨node₂, trace', named'⟩ := other
  cases node
  unfold aggregationKey at same
  have named := String.append_right_inj _ |>.mp same
  cases String.append_right_inj _ |>.mp named
  rfl

theorem pyStrip_of_ends {first last : Char} {text : List Char} (start : pyIsSpace first = false)
    (stop : pyIsSpace last = false) :
    pyStrip (String.ofList (first :: (text ++ [last]))) =
      String.ofList (first :: (text ++ [last])) := by
  rw [pyStrip, String.toList_ofList, stripList_of_ends start stop]

theorem TraceKey.pyStrip_aggregationKey (key : TraceKey) :
    pyStrip key.aggregationKey = key.aggregationKey := by
  obtain ⟨named, stripped⟩ := key.named
  obtain ⟨front, last, isTrace⟩ : ∃ front last, key.traceId.toList = front ++ [last] := by
    rcases List.eq_nil_or_concat key.traceId.toList with none | ⟨front, last, isTrace⟩
    · exact absurd (String.toList_eq_nil_iff.mp none) named
    · exact ⟨front, last, by rw [isTrace, List.concat_eq_append]⟩
  have notSpace : pyIsSpace last = false := by
    have lists := congrArg String.toList stripped
    rw [pyStrip, String.toList_ofList, isTrace] at lists
    exact last_of_stripList lists
  have word : "runtime_notice:".toList = 'r' :: "untime_notice:".toList := by decide
  have shape : key.aggregationKey = String.ofList ('r' :: ("untime_notice:".toList ++
      (key.node.graphId ++ ":" ++ key.node.nodeId ++ ":").toList ++ front ++ [last])) := by
    apply String.toList_injective
    rw [aggregationKey, String.toList_ofList, String.toList_append, word]
    simp only [String.toList_append, isTrace, List.cons_append, List.append_assoc]
  rw [shape]
  exact pyStrip_of_ends (by decide) notSpace

theorem NoticeSummary.pyStrip_text (summary : NoticeSummary) : pyStrip summary.text = summary.text := by
  have word : "Runtime notice state summary:\n".toList =
      'R' :: "untime notice state summary:\n".toList := by decide
  obtain ⟨front, isDump⟩ : ∃ front, dumpsSorted summary.payload = '\x7b' :: (front ++ ['\x7d']) := by
    unfold payload dumpsSorted dumpsCompact
    rw [Json.sortKeys, dumpsWith]
    obtain ⟨front, isText⟩ := dumpsFieldsWith_last [] _
    exact ⟨front, congrArg _ isText⟩
  have shape : summary.text = String.ofList ('R' :: ("untime notice state summary:\n".toList ++
      '\x7b' :: front ++ ['\x7d'])) := by
    apply String.toList_injective
    unfold text
    simp only [String.toList_append, String.toList_ofList, isDump, word, List.cons_append,
      List.append_assoc]
  rw [shape]
  exact pyStrip_of_ends (by decide) (by decide)

theorem NoticeSummary.text_ne_empty (summary : NoticeSummary) : summary.text ≠ "" := by
  unfold text
  intro empty
  have lengths := congrArg String.length empty
  rw [String.length_append] at lengths
  have positive : 0 < "Runtime notice state summary:\n".length := by decide
  have none : "".length = 0 := by decide
  omega

theorem TraceKey.aggregationKey_ne_empty (key : TraceKey) : key.aggregationKey ≠ "" := by
  unfold aggregationKey
  intro empty
  have lengths := congrArg String.length empty
  rw [String.length_append] at lengths
  have positive : 0 < "runtime_notice:".length := by decide
  have none : "".length = 0 := by decide
  omega

end AgentPark.Events
