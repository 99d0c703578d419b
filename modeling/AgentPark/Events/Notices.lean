import AgentPark.Events.ContextStore
import AgentPark.Lib.Execution
import Mathlib.Logic.Function.Basic

/-!
# Notices and turns

A thread that emits a notice counts it in the aggregator and then puts the summary in the store; a
turn takes what the store has and then clears the aggregator.  Each of the four is one locked step,
and between the two steps of one thread come the steps of others.

* `Undivided` is the condition on a step under which nothing is counted twice or lost, and `Tallied`
  the invariant it keeps.  A *count* is what the aggregator has of a trace between two clearings of
  its node.
-/

namespace AgentPark.Events

open Lib

/-- A thread between `record` and `upsert_fragment`. -/
structure Emission where
  summary : NoticeSummary
  priority : String
  role : String
deriving DecidableEq

/-- The aggregator and the store, the threads that emit and the turns that consume.  `recorded`,
`delivered` and `period` only watch: the counts all notices were recorded in, all summaries that
were taken, and how often a node was cleared. -/
structure Notices where
  states : TraceKey → Option NoticeTraceState
  artifacts : NodeKey → List ContextArtifact
  emitting : Nat → Option Emission
  consuming : Nat → Option NodeKey
  recorded : List (TraceKey × Nat)
  delivered : List NoticeSummary
  period : NodeKey → Nat

/-- Nothing has been emitted. -/
def Notices.empty : Notices where
  states _ := none
  artifacts _ := []
  emitting _ := none
  consuming _ := none
  recorded := []
  delivered := []
  period _ := 0

/-- The four locked steps. -/
inductive NoticeAction where
  /-- `record`, for a rule with a priority and a role. -/
  | record (thread : Nat) (notice : Notice) (priority role : String)
  | upsert (thread : Nat)
  | consume (turn : Nat) (node : NodeKey)
  | clear (turn : Nat)

/-- The four steps, of any number of threads and turns. -/
def noticeStep (s : Notices) : NoticeAction → Option Notices
  | .record thread notice priority role =>
    match s.emitting thread with
    | some _ => none
    | none =>
      let key := notice.traceKey
      let state := ((s.states key).getD .fresh).record notice
      let summary := ⟨key, state, s.period key.node, s.recorded.length⟩
      some { s with
        states := Function.update s.states key (some state)
        emitting := Function.update s.emitting thread (some { summary, priority, role })
        recorded := s.recorded ++ [(key, s.period key.node)] }
  | .upsert thread =>
    match s.emitting thread with
    | none => none
    | some emission =>
      let key := emission.summary.key
      let s := { s with emitting := Function.update s.emitting thread none }
      match upsertFragment (s.artifacts key.node) "next_turn" emission.priority emission.role
          emission.summary key.aggregationKey with
      | none => some s
      | some items => some { s with artifacts := Function.update s.artifacts key.node items }
  | .consume turn node =>
    match s.consuming turn with
    | some _ => none
    | none =>
      let (remaining, output) := consumeForNode (s.artifacts node) true
      some { s with
        artifacts := Function.update s.artifacts node remaining
        consuming := Function.update s.consuming turn (some node)
        delivered := s.delivered ++ output.map Prod.snd }
  | .clear turn =>
    match s.consuming turn with
    | none => none
    | some node =>
      some { s with
        states := fun key => if key.node = node then none else s.states key
        consuming := Function.update s.consuming turn none
        period := Function.update s.period node (s.period node + 1) }

/-! ### Steps -/

section

variable {s t : Notices} {thread turn : Nat}

theorem noticeStep_record {notice : Notice} {priority role : String} :
    noticeStep s (.record thread notice priority role) = some t ↔
      s.emitting thread = none ∧
        t = { s with
          states := Function.update s.states notice.traceKey
            (some (((s.states notice.traceKey).getD .fresh).record notice))
          emitting := Function.update s.emitting thread (some
            { summary := ⟨notice.traceKey,
                ((s.states notice.traceKey).getD .fresh).record notice,
                s.period notice.traceKey.node, s.recorded.length⟩
              priority, role })
          recorded := s.recorded ++ [(notice.traceKey, s.period notice.traceKey.node)] } := by
  rw [noticeStep]
  cases s.emitting thread with
  | none => simp [eq_comm]
  | some emission => simp

theorem noticeStep_upsert : noticeStep s (.upsert thread) = some t ↔
    ∃ emission, s.emitting thread = some emission ∧
      t = { s with
        emitting := Function.update s.emitting thread none
        artifacts := Function.update s.artifacts emission.summary.key.node
          (upsertItems "next_turn" emission.priority emission.role emission.summary
            emission.summary.key.aggregationKey (s.artifacts emission.summary.key.node)) } := by
  rw [noticeStep]
  cases s.emitting thread with
  | none => simp
  | some emission =>
    dsimp only
    rw [upsertFragment_eq]
    simp [eq_comm]

theorem noticeStep_consume {node : NodeKey} : noticeStep s (.consume turn node) = some t ↔
    s.consuming turn = none ∧
      t = { s with
        artifacts := Function.update s.artifacts node (consumeForNode (s.artifacts node) true).1
        consuming := Function.update s.consuming turn (some node)
        delivered := s.delivered ++
          (consumeForNode (s.artifacts node) true).2.map Prod.snd } := by
  rw [noticeStep]
  cases s.consuming turn with
  | none => simp [eq_comm]
  | some other => simp

theorem noticeStep_clear : noticeStep s (.clear turn) = some t ↔
    ∃ node, s.consuming turn = some node ∧
      t = { s with
        states := fun key => if key.node = node then none else s.states key
        consuming := Function.update s.consuming turn none
        period := Function.update s.period node (s.period node + 1) } := by
  rw [noticeStep]
  cases s.consuming turn with
  | none => simp
  | some node => simp [eq_comm]

end

/-! ### What a summary says -/

/-- The count a summary belongs to. -/
def NoticeSummary.count (summary : NoticeSummary) : TraceKey × Nat := (summary.key, summary.period)

/-- The summaries that are stored or about to be. -/
inductive Notices.Live (s : Notices) : NoticeSummary → Prop where
  | stored {item : ContextArtifact} (node : NodeKey) (mem : item ∈ s.artifacts node) :
      s.Live item.content
  | pending {emission : Emission} (thread : Nat) (emits : s.emitting thread = some emission) :
      s.Live emission.summary

/-- A summary was made when its notice was recorded, and counts the notices of its count up to
that one. -/
structure Notices.Made (s : Notices) (summary : NoticeSummary) : Prop where
  counted : summary.state.Counted
  recorded : s.recorded[summary.number]? = some summary.count
  total : summary.state.totalCount = (s.recorded.take (summary.number + 1)).count summary.count

/-- What holds whatever the order of the steps. -/
structure Rendered (s : Notices) : Prop where
  counted : ∀ key state, s.states key = some state → state.Counted
  total : ∀ key, ((s.states key).getD .fresh).totalCount =
    s.recorded.count (key, s.period key.node)
  past : ∀ entry ∈ s.recorded, entry.2 ≤ s.period entry.1.node
  live : ∀ summary, s.Live summary → s.Made summary
  delivered : ∀ summary ∈ s.delivered, s.Made summary
  items : ∀ node, ∀ item ∈ s.artifacts node, item.ForNextTurn node
  traces : ∀ node, ((s.artifacts node).map fun item => item.content.key).Nodup

theorem rendered_empty : Rendered .empty where
  counted _ _ found := nomatch found
  total _ := rfl
  past _ mem := nomatch mem
  live _ live := by
    cases live with
    | stored node mem => cases mem
    | pending thread emits => cases emits
  delivered _ mem := nomatch mem
  items _ _ mem := nomatch mem
  traces _ := List.nodup_nil

section

variable {s : Notices}

theorem Notices.Made.append {summary : NoticeSummary} (made : s.Made summary)
    {t : Notices} {more : List (TraceKey × Nat)} (recorded : t.recorded = s.recorded ++ more) :
    t.Made summary := by
  obtain ⟨lt, _⟩ := List.getElem?_eq_some_iff.mp made.recorded
  refine ⟨made.counted, ?_, ?_⟩
  · rw [recorded, List.getElem?_append_left lt]
    exact made.recorded
  · rw [recorded, List.take_append_of_le_length (by omega)]
    exact made.total

theorem Notices.Made.same {summary : NoticeSummary} (made : s.Made summary) {t : Notices}
    (recorded : t.recorded = s.recorded) : t.Made summary :=
  made.append (by rw [recorded, List.append_nil] : t.recorded = s.recorded ++ [])

theorem Rendered.record (rendered : Rendered s) {thread : Nat} {notice : Notice}
    {priority role : String} {t : Notices}
    (stepped : noticeStep s (.record thread notice priority role) = some t) : Rendered t := by
  obtain ⟨_, rfl⟩ := noticeStep_record.mp stepped
  have counted : (((s.states notice.traceKey).getD .fresh).record notice).Counted := by
    cases found : s.states notice.traceKey with
    | none => exact NoticeTraceState.counted_fresh.record notice
    | some state => exact (rendered.counted _ state found).record notice
  have total : (((s.states notice.traceKey).getD .fresh).record notice).totalCount =
      (s.recorded ++ [(notice.traceKey, s.period notice.traceKey.node)]).count
        (notice.traceKey, s.period notice.traceKey.node) := by
    rw [NoticeTraceState.totalCount_record, rendered.total, List.count_append,
      List.count_singleton_self]
  refine ⟨?_, ?_, ?_, ?_, ?_, rendered.items, rendered.traces⟩
  · intro key state found
    dsimp only at found
    rw [Function.update_apply] at found
    split at found
    · cases found
      exact counted
    · exact rendered.counted key state found
  · intro key
    dsimp only
    rw [Function.update_apply]
    split
    · rename_i same
      rw [same]
      exact total
    · rename_i other
      rw [List.count_append, rendered.total]
      have none : [(notice.traceKey, s.period notice.traceKey.node)].count
          (key, s.period key.node) = 0 := by
        rw [List.count_eq_zero, List.mem_singleton]
        exact fun same => other (Prod.mk.inj same).1
      omega
  · intro entry mem
    rcases List.mem_append.mp mem with old | new
    · exact rendered.past entry old
    · rw [List.mem_singleton.mp new]
  · intro summary live
    cases live with
    | stored node mem => exact (rendered.live _ (.stored node mem)).append rfl
    | pending other emits =>
      dsimp only at emits
      rw [Function.update_apply] at emits
      split at emits
      · cases emits
        refine ⟨counted, List.getElem?_concat_length, ?_⟩
        dsimp only
        rw [List.take_of_length_le (by simp)]
        exact total
      · exact (rendered.live _ (.pending other emits)).append rfl
  · intro summary mem
    exact (rendered.delivered summary mem).append rfl

theorem Rendered.upsert (rendered : Rendered s) {thread : Nat} {t : Notices}
    (stepped : noticeStep s (.upsert thread) = some t) : Rendered t := by
  obtain ⟨emission, emits, rfl⟩ := noticeStep_upsert.mp stepped
  have members := @mem_upsertItems emission.priority emission.role emission.summary _ _ rfl
    (rendered.items emission.summary.key.node) (rendered.traces emission.summary.key.node)
  refine ⟨rendered.counted, rendered.total, rendered.past, ?_, ?_, ?_, ?_⟩
  · intro summary live
    cases live with
    | @stored item node mem =>
      dsimp only at mem
      rw [Function.update_apply] at mem
      split at mem
      · rename_i same
        cases same
        rcases (members item).mp mem with rfl | ⟨old, _⟩
        · exact (rendered.live _ (.pending thread emits)).same rfl
        · exact (rendered.live _ (.stored _ old)).same rfl
      · exact (rendered.live _ (.stored node mem)).same rfl
    | pending other emits' =>
      dsimp only at emits'
      rw [Function.update_apply] at emits'
      split at emits'
      · cases emits'
      · exact (rendered.live _ (.pending other emits')).same rfl
  · intro summary mem
    exact (rendered.delivered summary mem).same rfl
  · intro node item mem
    dsimp only at mem
    rw [Function.update_apply] at mem
    split at mem
    · rename_i same
      cases same
      rcases (members item).mp mem with rfl | ⟨old, _⟩
      · exact ⟨rfl, rfl, rfl, rfl⟩
      · exact rendered.items _ item old
    · exact rendered.items node item mem
  · intro node
    dsimp only
    rw [Function.update_apply]
    split
    · rename_i same
      cases same
      exact nodup_upsertItems rfl (rendered.items _) (rendered.traces _)
    · exact rendered.traces node

theorem Rendered.consume (rendered : Rendered s) {turn : Nat} {node : NodeKey} {t : Notices}
    (stepped : noticeStep s (.consume turn node) = some t) : Rendered t := by
  obtain ⟨_, rfl⟩ := noticeStep_consume.mp stepped
  obtain ⟨nothing, taken⟩ := consumeForNode_nextTurn (rendered.items node) true
  have stays : ∀ other, ∀ item ∈ Function.update s.artifacts node
      (consumeForNode (s.artifacts node) true).1 other, item ∈ s.artifacts other := by
    intro other item mem
    rw [Function.update_apply, nothing] at mem
    split at mem
    · cases mem
    · exact mem
  refine ⟨rendered.counted, rendered.total, rendered.past, ?_, ?_, ?_, ?_⟩
  · intro summary live
    cases live with
    | stored other mem => exact (rendered.live _ (.stored other (stays other _ mem))).same rfl
    | pending thread emits => exact (rendered.live _ (.pending thread emits)).same rfl
  · intro summary mem
    rcases List.mem_append.mp mem with old | new
    · exact (rendered.delivered summary old).same rfl
    · obtain ⟨item, isItem, rfl⟩ := List.mem_map.mp (taken.mem_iff.mp new)
      exact (rendered.live _ (.stored node isItem)).same rfl
  · intro other item mem
    exact rendered.items other item (stays other item mem)
  · intro other
    dsimp only
    rw [Function.update_apply, nothing]
    split
    · exact List.nodup_nil
    · exact rendered.traces other

theorem Rendered.clear (rendered : Rendered s) {turn : Nat} {t : Notices}
    (stepped : noticeStep s (.clear turn) = some t) : Rendered t := by
  obtain ⟨node, _, rfl⟩ := noticeStep_clear.mp stepped
  refine ⟨?_, ?_, ?_, ?_, ?_, rendered.items, rendered.traces⟩
  · intro key state found
    dsimp only at found
    split at found
    · cases found
    · exact rendered.counted key state found
  · intro key
    dsimp only
    rw [Function.update_apply]
    split
    · rename_i isNode
      -- A new count has begun.
      have none : s.recorded.count (key, s.period node + 1) = 0 := by
        rw [List.count_eq_zero]
        intro mem
        have past := rendered.past _ mem
        rw [isNode] at past
        omega
      rw [none]
      rfl
    · exact rendered.total key
  · intro entry mem
    have past := rendered.past entry mem
    dsimp only
    rw [Function.update_apply]
    split
    · rename_i isNode
      rw [isNode] at past
      omega
    · exact past
  · intro summary live
    cases live with
    | stored other mem => exact (rendered.live _ (.stored other mem)).same rfl
    | pending thread emits => exact (rendered.live _ (.pending thread emits)).same rfl
  · intro summary mem
    exact (rendered.delivered summary mem).same rfl

/-- Whatever the order, a step keeps every summary made of what was recorded. -/
theorem Rendered.step (rendered : Rendered s) {action : NoticeAction} {t : Notices}
    (stepped : noticeStep s action = some t) : Rendered t := by
  cases action with
  | record thread notice priority role => exact rendered.record stepped
  | upsert thread => exact rendered.upsert stepped
  | consume turn node => exact rendered.consume stepped
  | clear turn => exact rendered.clear stepped

end

/-! ### Counting once -/

/-- Nothing of a count is counted apart from it: no notice is recorded in a count whose summary was
taken, a summary is stored over none but an older one of its count, and none is taken while a notice
of its count is still on the way to the store. -/
def Undivided (s : Notices) : NoticeAction → Prop
  | .record _ notice _ _ =>
    (notice.traceKey, s.period notice.traceKey.node) ∉ s.delivered.map NoticeSummary.count
  | .upsert thread => ∀ emission, s.emitting thread = some emission →
      ∀ item ∈ s.artifacts emission.summary.key.node, item.content.key = emission.summary.key →
        item.content.period = emission.summary.period ∧
          item.content.number ≤ emission.summary.number
  | .consume _ node => ∀ item ∈ s.artifacts node, ∀ thread emission,
      s.emitting thread = some emission → emission.summary.count ≠ item.content.count
  | .clear _ => True

/-- Each count has been delivered, once and in full, or its full summary is on the way. -/
structure Tallied (s : Notices) : Prop where
  once : (s.delivered.map NoticeSummary.count).Nodup
  full : ∀ summary ∈ s.delivered, summary.state.totalCount = s.recorded.count summary.count
  done : ∀ summary, s.Live summary → summary.count ∉ s.delivered.map NoticeSummary.count
  kept : ∀ count ∈ s.recorded, count ∈ s.delivered.map NoticeSummary.count ∨
    ∃ summary, s.Live summary ∧ summary.count = count ∧
      summary.state.totalCount = s.recorded.count count

theorem tallied_empty : Tallied .empty where
  once := List.nodup_nil
  full _ mem := nomatch mem
  done _ _ mem := nomatch mem
  kept _ mem := nomatch mem

section

variable {s : Notices}

theorem Notices.Made.total_le {summary : NoticeSummary} (made : s.Made summary) :
    summary.state.totalCount ≤ s.recorded.count summary.count := by
  rw [made.total]
  exact (List.take_sublist _ _).count_le _

theorem Notices.Made.total_mono {first second : NoticeSummary} (made : s.Made first)
    (made' : s.Made second) (same : first.count = second.count)
    (le : first.number ≤ second.number) :
    first.state.totalCount ≤ second.state.totalCount := by
  rw [made.total, made'.total, same]
  have prefixed : s.recorded.take (first.number + 1) <+: s.recorded.take (second.number + 1) :=
    List.take_prefix_take_left (by omega)
  exact prefixed.sublist.count_le _

theorem Tallied.record (tallied : Tallied s) (rendered : Rendered s) {thread : Nat}
    {notice : Notice} {priority role : String} {t : Notices}
    (stepped : noticeStep s (.record thread notice priority role) = some t)
    (undivided : Undivided s (.record thread notice priority role)) : Tallied t := by
  have rendered' := rendered.record stepped
  obtain ⟨idle, rfl⟩ := noticeStep_record.mp stepped
  have other : ∀ {count}, count ∈ s.delivered.map NoticeSummary.count →
      (s.recorded ++ [(notice.traceKey, s.period notice.traceKey.node)]).count count =
        s.recorded.count count := by
    intro count mem
    have none : [(notice.traceKey, s.period notice.traceKey.node)].count count = 0 := by
      rw [List.count_eq_zero, List.mem_singleton]
      rintro rfl
      exact undivided mem
    rw [List.count_append, none, Nat.add_zero]
  refine ⟨tallied.once, ?_, ?_, ?_⟩
  · intro summary mem
    dsimp only
    rw [other (List.mem_map_of_mem mem)]
    exact tallied.full summary mem
  · intro summary live
    cases live with
    | stored node mem => exact tallied.done _ (.stored node mem)
    | pending thread' emits =>
      dsimp only at emits
      rw [Function.update_apply] at emits
      split at emits
      · cases emits
        exact undivided
      · exact tallied.done _ (.pending thread' emits)
  · intro count mem
    by_cases here : count = (notice.traceKey, s.period notice.traceKey.node)
    · refine Or.inr ⟨_, .pending thread (Function.update_self thread _ _), here.symm, ?_⟩
      dsimp only
      rw [NoticeTraceState.totalCount_record, rendered.total, here, List.count_append,
        List.count_singleton_self]
    · have isOld : count ∈ s.recorded := by
        rcases List.mem_append.mp mem with old | new
        · exact old
        · exact absurd (List.mem_singleton.mp new) here
      have same : (s.recorded ++ [(notice.traceKey, s.period notice.traceKey.node)]).count count =
          s.recorded.count count := by
        rw [List.count_append, List.count_eq_zero.mpr (fun mem => here (List.mem_singleton.mp mem)),
          Nat.add_zero]
      refine (tallied.kept count isOld).imp_right ?_
      rintro ⟨summary, live, isCount, isFull⟩
      refine ⟨summary, ?_, isCount, isFull.trans same.symm⟩
      cases live with
      | stored node mem => exact .stored node mem
      | pending thread' emits =>
        refine .pending thread' ?_
        dsimp only
        rw [Function.update_of_ne, emits]
        rintro rfl
        rw [idle] at emits
        cases emits

theorem Tallied.upsert (tallied : Tallied s) (rendered : Rendered s) {thread : Nat} {t : Notices}
    (stepped : noticeStep s (.upsert thread) = some t)
    (undivided : Undivided s (.upsert thread)) : Tallied t := by
  obtain ⟨emission, emits, rfl⟩ := noticeStep_upsert.mp stepped
  have members := @mem_upsertItems emission.priority emission.role emission.summary _ _ rfl
    (rendered.items emission.summary.key.node) (rendered.traces emission.summary.key.node)
  refine ⟨tallied.once, tallied.full, ?_, ?_⟩
  · intro summary live
    cases live with
    | @stored item node mem =>
      dsimp only at mem
      rw [Function.update_apply] at mem
      split at mem
      · rename_i same
        cases same
        rcases (members item).mp mem with rfl | ⟨old, _⟩
        · exact tallied.done _ (.pending thread emits)
        · exact tallied.done _ (.stored _ old)
      · exact tallied.done _ (.stored node mem)
    | pending other emits' =>
      dsimp only at emits'
      rw [Function.update_apply] at emits'
      split at emits'
      · cases emits'
      · exact tallied.done _ (.pending other emits')
  · intro count mem
    refine (tallied.kept count mem).imp_right ?_
    rintro ⟨summary, live, isCount, isFull⟩
    have put := (members ⟨"next_turn", emission.priority, emission.role, emission.summary, false,
      emission.summary.key.aggregationKey⟩).mpr (Or.inl rfl)
    have isStored : ∀ {item : ContextArtifact}, item ∈ upsertItems "next_turn" emission.priority
        emission.role emission.summary emission.summary.key.aggregationKey
          (s.artifacts emission.summary.key.node) →
        item ∈ Function.update s.artifacts emission.summary.key.node
          (upsertItems "next_turn" emission.priority emission.role emission.summary
            emission.summary.key.aggregationKey (s.artifacts emission.summary.key.node))
          emission.summary.key.node := by
      intro item isItem
      rw [Function.update_self]
      exact isItem
    have putLive : Notices.Live { s with
        emitting := Function.update s.emitting thread none
        artifacts := Function.update s.artifacts emission.summary.key.node
          (upsertItems "next_turn" emission.priority emission.role emission.summary
            emission.summary.key.aggregationKey (s.artifacts emission.summary.key.node)) }
        emission.summary :=
      @Notices.Live.stored _ ⟨"next_turn", emission.priority, emission.role, emission.summary, false,
        emission.summary.key.aggregationKey⟩ _ (isStored put)
    cases live with
    | @stored item node mem =>
      by_cases same : node = emission.summary.key.node
      · subst same
        by_cases sameKey : item.content.key = emission.summary.key
        · -- The new summary takes its place, and has counted as much.
          obtain ⟨samePeriod, le⟩ := undivided emission emits item mem sameKey
          have sameCount : item.content.count = emission.summary.count :=
            Prod.ext sameKey samePeriod
          have made := rendered.live _ (.stored _ mem)
          have made' := rendered.live _ (.pending thread emits)
          have atLeast := made.total_mono made' sameCount le
          have atMost := made'.total_le
          rw [← sameCount, isCount] at atMost
          have isAll : emission.summary.state.totalCount = s.recorded.count count := by omega
          exact ⟨emission.summary, putLive, sameCount.symm.trans isCount, isAll⟩
        · exact ⟨item.content, .stored _ (isStored ((members item).mpr (Or.inr ⟨mem, sameKey⟩))),
            isCount, isFull⟩
      · refine ⟨item.content, .stored node ?_, isCount, isFull⟩
        dsimp only
        rw [Function.update_of_ne same]
        exact mem
    | pending other emits' =>
      by_cases same : other = thread
      · subst same
        rw [emits] at emits'
        cases emits'
        exact ⟨emission.summary, putLive, isCount, isFull⟩
      · refine ⟨_, .pending other ?_, isCount, isFull⟩
        dsimp only
        rw [Function.update_of_ne same]
        exact emits'

theorem Tallied.consume (tallied : Tallied s) (rendered : Rendered s) {turn : Nat}
    {node : NodeKey} {t : Notices} (stepped : noticeStep s (.consume turn node) = some t)
    (undivided : Undivided s (.consume turn node)) : Tallied t := by
  obtain ⟨_, rfl⟩ := noticeStep_consume.mp stepped
  obtain ⟨nothing, taken⟩ := consumeForNode_nextTurn (rendered.items node) true
  have stays : ∀ other, ∀ item ∈ Function.update s.artifacts node
      (consumeForNode (s.artifacts node) true).1 other, other ≠ node ∧ item ∈ s.artifacts other := by
    intro other item mem
    rw [Function.update_apply, nothing] at mem
    split at mem
    · cases mem
    · exact ⟨by assumption, mem⟩
  have isTaken : ∀ {summary}, summary ∈ (consumeForNode (s.artifacts node) true).2.map Prod.snd ↔
      ∃ item ∈ s.artifacts node, item.content = summary := by
    intro summary
    rw [taken.mem_iff, List.mem_map]
  -- Two summaries of the store have different traces.
  have unique : ∀ {other}, ∀ item ∈ s.artifacts node, ∀ item' ∈ s.artifacts other,
      item.content.key = item'.content.key → item = item' := by
    intro other item mem item' mem' same
    have sameNode : other = node := by
      rw [← (rendered.items node item mem).node, ← (rendered.items other item' mem').node, same]
    subst sameNode
    exact List.inj_on_of_nodup_map (rendered.traces other) mem mem' same
  refine ⟨?_, ?_, ?_, ?_⟩
  · dsimp only
    rw [List.map_append, List.nodup_append]
    refine ⟨tallied.once, ?_, ?_⟩
    · rw [(taken.map NoticeSummary.count).nodup_iff, List.map_map]
      have keys := rendered.traces node
      refine List.Nodup.of_map Prod.fst ?_
      rw [List.map_map]
      exact keys
    · intro count mem count' mem' same
      obtain ⟨summary, isSummary, rfl⟩ := List.mem_map.mp mem'
      obtain ⟨item, isItem, rfl⟩ := isTaken.mp isSummary
      rw [same] at mem
      exact tallied.done _ (.stored node isItem) mem
  · intro summary mem
    rcases List.mem_append.mp mem with old | new
    · exact tallied.full summary old
    · obtain ⟨item, isItem, rfl⟩ := isTaken.mp new
      have isLive : s.Live item.content := .stored node isItem
      have inRecord := List.mem_of_getElem? (rendered.live _ isLive).recorded
      rcases tallied.kept _ inRecord with delivered | ⟨summary, live, isCount, isFull⟩
      · exact absurd delivered (tallied.done _ isLive)
      · -- The full summary of the count is the one that is taken.
        cases live with
        | @stored item' other mem' =>
          have sameKey : item.content.key = item'.content.key := (congrArg Prod.fst isCount).symm
          rw [unique item isItem item' mem' sameKey] at isCount ⊢
          rw [isFull, unique item isItem item' mem' sameKey]
        | pending thread emits => exact absurd isCount (undivided item isItem thread _ emits)
  · intro summary live mem
    rw [List.map_append, List.mem_append] at mem
    cases live with
    | @stored item other isItem =>
      obtain ⟨different, isItem⟩ := stays other item isItem
      rcases mem with old | new
      · exact tallied.done _ (.stored other isItem) old
      · obtain ⟨summary, isSummary, sameCount⟩ := List.mem_map.mp new
        obtain ⟨item', isItem', rfl⟩ := isTaken.mp isSummary
        have sameKey := congrArg Prod.fst sameCount
        apply different
        rw [← (rendered.items node item' isItem').node, ← (rendered.items other item isItem).node]
        exact congrArg TraceKey.node sameKey.symm
    | pending thread emits =>
      rcases mem with old | new
      · exact tallied.done _ (.pending thread emits) old
      · obtain ⟨summary, isSummary, sameCount⟩ := List.mem_map.mp new
        obtain ⟨item, isItem, rfl⟩ := isTaken.mp isSummary
        exact undivided item isItem thread _ emits sameCount.symm
  · intro count mem
    rcases tallied.kept count mem with old | ⟨summary, live, isCount, isFull⟩
    · refine Or.inl ?_
      rw [List.map_append]
      exact List.mem_append_left _ old
    · cases live with
      | @stored item other isItem =>
        by_cases same : other = node
        · subst same
          refine Or.inl ?_
          rw [List.map_append, ← isCount]
          exact List.mem_append_right _
            (List.mem_map_of_mem (isTaken.mpr ⟨item, isItem, rfl⟩))
        · refine Or.inr ⟨item.content, .stored other ?_, isCount, isFull⟩
          dsimp only
          rw [Function.update_of_ne same]
          exact isItem
      | pending thread emits => exact Or.inr ⟨_, .pending thread emits, isCount, isFull⟩

theorem Tallied.clear (tallied : Tallied s) {turn : Nat} {t : Notices}
    (stepped : noticeStep s (.clear turn) = some t) : Tallied t := by
  obtain ⟨node, _, rfl⟩ := noticeStep_clear.mp stepped
  refine ⟨tallied.once, tallied.full, ?_, ?_⟩
  · intro summary live
    cases live with
    | stored other mem => exact tallied.done _ (.stored other mem)
    | pending thread emits => exact tallied.done _ (.pending thread emits)
  · intro count mem
    refine (tallied.kept count mem).imp_right ?_
    rintro ⟨summary, live, isCount, isFull⟩
    cases live with
    | stored other mem => exact ⟨_, .stored other mem, isCount, isFull⟩
    | pending thread emits => exact ⟨_, .pending thread emits, isCount, isFull⟩

/-- A step that divides no period keeps each count delivered once and in full, or on its way. -/
theorem Tallied.step (tallied : Tallied s) (rendered : Rendered s) {action : NoticeAction}
    {t : Notices} (stepped : noticeStep s action = some t) (undivided : Undivided s action) :
    Tallied t := by
  cases action with
  | record thread notice priority role => exact tallied.record rendered stepped undivided
  | upsert thread => exact tallied.upsert rendered stepped undivided
  | consume turn node => exact tallied.consume rendered stepped undivided
  | clear turn => exact tallied.clear stepped

end

/-! ### After every run -/

/-- The notices of a trace that were emitted. -/
def Notices.emittedOf (s : Notices) (key : TraceKey) : Nat :=
  s.recorded.countP fun count => count.1 = key

/-- The sum of `total_notice_count` over the summaries of a trace that were taken. -/
def Notices.deliveredOf (s : Notices) (key : TraceKey) : Nat :=
  ((s.delivered.filter fun summary => summary.key = key).map fun summary =>
    summary.state.totalCount).sum

/-- All that was emitted for a trace has been consumed. -/
def Notices.Settled (s : Notices) (key : TraceKey) : Prop :=
  ∀ summary, s.Live summary → summary.key ≠ key

/-- A stored summary gives way to none that is older. -/
def NeverOlder (s : Notices) (_ : NoticeAction) (t : Notices) : Prop :=
  ∀ node, ∀ item ∈ s.artifacts node, ∀ item' ∈ t.artifacts node,
    item.content.key = item'.content.key → item.content.number ≤ item'.content.number

theorem sum_count {α : Type} [BEq α] [LawfulBEq α] (xs : List α) {counts : List α}
    (nodup : counts.Nodup) : (counts.map fun count => xs.count count).sum =
      xs.countP fun x => x ∈ counts := by
  induction counts with
  | nil => simp
  | cons count counts ih =>
    obtain ⟨fresh, nodup⟩ := List.nodup_cons.mp nodup
    rw [List.map_cons, List.sum_cons, ih nodup]
    clear ih
    induction xs with
    | nil => rfl
    | cons x xs ih =>
      rw [List.count_cons, List.countP_cons, List.countP_cons, ← ih]
      by_cases same : x = count
      · subst same
        simp [fresh]
        omega
      · simp [same]
        omega

section

variable {s : Notices}

theorem Tallied.delivered_eq (tallied : Tallied s) {key : TraceKey} (settled : s.Settled key) :
    s.deliveredOf key = s.emittedOf key := by
  have totals : ((s.delivered.filter fun summary => summary.key = key).map fun summary =>
      summary.state.totalCount) = ((s.delivered.filter fun summary => summary.key = key).map
        NoticeSummary.count).map fun count => s.recorded.count count := by
    rw [List.map_map]
    apply List.map_congr_left
    intro summary mem
    exact tallied.full summary (List.mem_filter.mp mem).1
  have nodup : ((s.delivered.filter fun summary => summary.key = key).map
      NoticeSummary.count).Nodup := tallied.once.sublist (List.filter_sublist.map _)
  rw [Notices.deliveredOf, totals, sum_count s.recorded nodup, Notices.emittedOf]
  apply List.countP_congr
  intro count mem
  rw [decide_eq_true_iff, decide_eq_true_iff]
  constructor
  · intro isCount
    obtain ⟨summary, isSummary, rfl⟩ := List.mem_map.mp isCount
    exact of_decide_eq_true (List.mem_filter.mp isSummary).2
  · rintro rfl
    rcases tallied.kept count mem with delivered | ⟨summary, live, rfl, -⟩
    · obtain ⟨summary, isSummary, rfl⟩ := List.mem_map.mp delivered
      exact List.mem_map_of_mem (List.mem_filter.mpr ⟨isSummary, decide_eq_true rfl⟩)
    · exact absurd rfl (settled summary live)

theorem Rendered.neverOlder (rendered : Rendered s) {action : NoticeAction} {t : Notices}
    (stepped : noticeStep s action = some t) (undivided : Undivided s action) :
    NeverOlder s action t := by
  have unique : ∀ {node}, ∀ item ∈ s.artifacts node, ∀ item' ∈ s.artifacts node,
      item.content.key = item'.content.key → item.content.number ≤ item'.content.number := by
    intro node item mem item' mem' same
    rw [List.inj_on_of_nodup_map (rendered.traces node) mem mem' same]
  intro node item mem item' mem' same
  cases action with
  | record thread notice priority role =>
    obtain ⟨_, rfl⟩ := noticeStep_record.mp stepped
    exact unique item mem item' mem' same
  | upsert thread =>
    obtain ⟨emission, emits, rfl⟩ := noticeStep_upsert.mp stepped
    dsimp only at mem'
    rw [Function.update_apply] at mem'
    split at mem'
    · rename_i isNode
      subst isNode
      rcases (mem_upsertItems rfl (rendered.items _) (rendered.traces _) item').mp mem' with
        rfl | ⟨old, _⟩
      · exact (undivided emission emits item mem same).2
      · exact unique item mem item' old same
    · exact unique item mem item' mem' same
  | consume turn other =>
    obtain ⟨_, rfl⟩ := noticeStep_consume.mp stepped
    dsimp only at mem'
    rw [Function.update_apply, (consumeForNode_nextTurn (rendered.items other) true).1] at mem'
    split at mem'
    · cases mem'
    · exact unique item mem item' mem' same
  | clear turn =>
    obtain ⟨other, _, rfl⟩ := noticeStep_clear.mp stepped
    exact unique item mem item' mem' same

end

/-- In every summary the total is what its stages and the overflow come to.  In a run that divides
no count, what was delivered of a trace once it has settled is what was emitted, and no summary in
the store gave way to an older one. -/
theorem notices_counted {actions : List NoticeAction} {s : Notices}
    (ran : run noticeStep .empty actions = some s) :
    (∀ summary, s.Live summary ∨ summary ∈ s.delivered → summary.state.totalCount =
        summary.state.stageTotal + summary.state.overflowNoticeCount) ∧
      (Along noticeStep (fun s action _ => Undivided s action) .empty actions →
        (∀ key, s.Settled key → s.deliveredOf key = s.emittedOf key) ∧
          Along noticeStep NeverOlder .empty actions) := by
  have rendered : Rendered s :=
    run_invariant (fun _ _ _ rendered stepped => rendered.step stepped) rendered_empty ran
  refine ⟨?_, fun undivided => ⟨?_, ?_⟩⟩
  · rintro summary (live | mem)
    · exact (rendered.live summary live).counted.total
    · exact (rendered.delivered summary mem).counted.total
  · have both : Rendered s ∧ Tallied s := by
      refine run_invariant_along (I := fun u => Rendered u ∧ Tallied u) ?_
        ⟨rendered_empty, tallied_empty⟩ undivided ran
      rintro u action u' ⟨renderedU, talliedU⟩ stepped here
      exact ⟨renderedU.step stepped, talliedU.step renderedU stepped here⟩
    exact fun key settled => both.2.delivered_eq settled
  · refine along_of_invariant ?_ rendered_empty undivided
    intro u action u' renderedU stepped here
    exact ⟨renderedU.neverOlder stepped here, renderedU.step stepped⟩

theorem Rendered.settled {s : Notices} (rendered : Rendered s) {key : TraceKey}
    (idle : ∀ thread, s.emitting thread = none) (nothing : s.artifacts key.node = []) :
    s.Settled key := by
  rintro summary live rfl
  cases live with
  | stored node mem =>
    rw [(rendered.items node _ mem).node] at nothing
    rw [nothing] at mem
    cases mem
  | pending thread emits =>
    rw [idle thread] at emits
    cases emits

/-- `noticeStep` without the check of the text of a summary, which is never blank. -/
def storeStep (s : Notices) : NoticeAction → Option Notices
  | .upsert thread =>
    match s.emitting thread with
    | none => none
    | some emission =>
      let key := emission.summary.key
      some { s with
        emitting := Function.update s.emitting thread none
        artifacts := Function.update s.artifacts key.node
          (upsertItems "next_turn" emission.priority emission.role emission.summary
            key.aggregationKey (s.artifacts key.node)) }
  | action => noticeStep s action

theorem noticeStep_eq : noticeStep = storeStep := by
  funext s action
  cases action with
  | upsert thread =>
    rw [noticeStep, storeStep]
    cases s.emitting thread with
    | none => rfl
    | some emission =>
      dsimp only
      rw [upsertFragment_eq]
  | record thread notice priority role => rfl
  | consume turn node => rfl
  | clear turn => rfl

/-- A notice of the node `n` in `g`. -/
def noticeOf (message : String) : Notice :=
  { sourceGraphId := "g", sourceNodeId := "n", traceId := "t", stage := "request", message }

/-- Two notices of a node and one of another whose threads take turns. -/
def inTurns : List NoticeAction :=
  [.record 0 (noticeOf "started") "normal" "developer",
    .record 1 { noticeOf "started" with sourceNodeId := "m" } "normal" "developer", .upsert 1, .upsert 0,
    .record 1 (noticeOf "completed") "normal" "developer", .upsert 1, .consume 0 ⟨"g", "n"⟩, .clear 0]

theorem undivided_inTurns :
    Along noticeStep (fun s action _ => Undivided s action) .empty inTurns := by
  intro _ first
  obtain ⟨_, rfl⟩ := noticeStep_record.mp first
  refine ⟨by simp [Undivided, Notices.empty], ?_⟩
  intro _ second
  obtain ⟨_, rfl⟩ := noticeStep_record.mp second
  refine ⟨by simp [Undivided, Notices.empty], ?_⟩
  intro _ third
  obtain ⟨emission, isEmission, rfl⟩ := noticeStep_upsert.mp third
  refine ⟨by simp [Undivided, Notices.empty], ?_⟩
  cases isEmission
  intro _ fourth
  obtain ⟨emission, isEmission, rfl⟩ := noticeStep_upsert.mp fourth
  cases isEmission
  refine ⟨?_, ?_⟩
  · rintro emission ⟨⟩ item mem
    cases mem
  intro _ fifth
  obtain ⟨_, rfl⟩ := noticeStep_record.mp fifth
  refine ⟨by simp [Undivided, Notices.empty], ?_⟩
  intro _ sixth
  obtain ⟨emission, isEmission, rfl⟩ := noticeStep_upsert.mp sixth
  cases isEmission
  refine ⟨?_, ?_⟩
  · rintro emission ⟨⟩ item mem
    cases mem with
    | head => exact fun _ => ⟨rfl, by decide⟩
    | tail _ mem => cases mem
  intro _ seventh
  refine ⟨?_, fun _ _ => ⟨trivial, trivial⟩⟩
  intro item _ thread emission' emits
  dsimp only [Notices.empty] at emits
  simp only [Function.update_apply] at emits
  split_ifs at emits

/-- Both nodes are counted in full. -/
theorem notices_counted_inTurns : ∃ s, run noticeStep .empty inTurns = some s ∧
    s.emittedOf (noticeOf "").traceKey = 2 ∧ (s.Settled (noticeOf "").traceKey →
      s.deliveredOf (noticeOf "").traceKey = s.emittedOf (noticeOf "").traceKey) := by
  have counts : (run noticeStep .empty inTurns).map
      (fun s => s.emittedOf (noticeOf "").traceKey) = some 2 := by
    rw [noticeStep_eq]
    decide +kernel
  obtain ⟨s, ran, emitted⟩ := Option.map_eq_some_iff.mp counts
  exact ⟨s, ran, emitted, ((notices_counted ran).2 undivided_inTurns).1 _⟩

/-- Two threads that record one after the other and store in the other order. -/
def overtaken : List NoticeAction :=
  [.record 0 (noticeOf "started") "normal" "developer",
    .record 1 (noticeOf "completed") "normal" "developer", .upsert 1, .upsert 0,
    .consume 0 ⟨"g", "n"⟩, .clear 0]

/-- The later summary is replaced by the earlier one, and a notice is lost. -/
theorem notices_lost_overtaken : ∃ s, run noticeStep .empty overtaken = some s ∧
    s.Settled (noticeOf "").traceKey ∧ s.deliveredOf (noticeOf "").traceKey = 1 ∧
      s.emittedOf (noticeOf "").traceKey = 2 := by
  have counts : (run noticeStep .empty overtaken).map (fun s =>
      (s.artifacts (noticeOf "").traceKey.node, s.deliveredOf (noticeOf "").traceKey,
        s.emittedOf (noticeOf "").traceKey)) = some ([], 1, 2) := by
    rw [noticeStep_eq]
    decide +kernel
  obtain ⟨s, ran, counts⟩ := Option.map_eq_some_iff.mp counts
  obtain ⟨nothing, counts⟩ := Prod.mk.inj counts
  obtain ⟨delivered, emitted⟩ := Prod.mk.inj counts
  have rendered : Rendered s :=
    run_invariant (fun _ _ _ rendered stepped => rendered.step stepped) rendered_empty ran
  refine ⟨s, ran, rendered.settled ?_ nothing, delivered, emitted⟩
  unfold overtaken at ran
  obtain ⟨_, first, ran⟩ := run_cons_eq_some.mp ran
  obtain ⟨_, rfl⟩ := noticeStep_record.mp first
  obtain ⟨_, second, ran⟩ := run_cons_eq_some.mp ran
  obtain ⟨_, rfl⟩ := noticeStep_record.mp second
  obtain ⟨_, third, ran⟩ := run_cons_eq_some.mp ran
  obtain ⟨_, _, rfl⟩ := noticeStep_upsert.mp third
  obtain ⟨_, fourth, ran⟩ := run_cons_eq_some.mp ran
  obtain ⟨_, _, rfl⟩ := noticeStep_upsert.mp fourth
  obtain ⟨_, fifth, ran⟩ := run_cons_eq_some.mp ran
  obtain ⟨_, rfl⟩ := noticeStep_consume.mp fifth
  obtain ⟨_, sixth, ran⟩ := run_cons_eq_some.mp ran
  obtain ⟨_, _, rfl⟩ := noticeStep_clear.mp sixth
  cases ran
  intro thread
  dsimp only [Notices.empty]
  simp only [Function.update_apply]
  split_ifs
  · rfl
  · rfl
  · rfl

end AgentPark.Events
