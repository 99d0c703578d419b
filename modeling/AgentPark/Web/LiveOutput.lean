import AgentPark.Lib.Execution
import AgentPark.Lib.Json
import Mathlib.Data.Rat.Defs
import Mathlib.Logic.Function.Basic

/-!
# Live output of a node

`NodeLiveOutputStore` keeps the latest state of a node that is working, under a version.  A consumer
waits for a version above the one it delivered last and sends what it finds: the text as it is, or
only what was added, when that is safe.

* `LiveClient.receive` is what the other side does with a payload.
-/

namespace AgentPark.Web

open Lib

/-- A dictionary: an activity block, a media chunk or an event. -/
abbrev Fields := List (String × Json)

/-! ### Compact values -/

/-- `MAX_LIVE_ACTIVITY_BLOCKS` -/
def maxLiveActivityBlocks : Nat := 64

/-- `MAX_LIVE_EVENT_STRING_CHARS` -/
def maxLiveEventStringChars : Nat := 4096

/-- `MAX_LIVE_EVENT_LIST_ITEMS` -/
def maxLiveEventListItems : Nat := 64

/-- `MAX_LIVE_EVENT_DICT_FIELDS` -/
def maxLiveEventDictFields : Nat := 64

/-- `MAX_LIVE_EVENT_DEPTH` -/
def maxLiveEventDepth : Nat := 4

/-- `MAX_LIVE_MEDIA_CHUNKS` -/
def maxLiveMediaChunks : Nat := 96

def omitted : Json := .str "[nested value omitted]"

mutual

/-- `_compact_live_value` -/
def compactLiveValue (depth : Nat) : Json → Json
  | .str text =>
    if maxLiveEventDepth ≤ depth then omitted
    else if text.length ≤ maxLiveEventStringChars then .str text
    else .str (String.ofList (text.toList.take maxLiveEventStringChars) ++ "…")
  | .obj fields =>
    if maxLiveEventDepth ≤ depth then omitted
    else
      let output := (compactLiveFields (depth + 1) fields).take maxLiveEventDictFields
      .obj (if fields.length ≤ maxLiveEventDictFields then output
        else dictSet output "_truncated_fields" (.nat (fields.length - maxLiveEventDictFields)))
  | .arr items =>
    if maxLiveEventDepth ≤ depth then omitted
    else
      let output := (compactLiveItems (depth + 1) items).take maxLiveEventListItems
      .arr (if items.length ≤ maxLiveEventListItems then output
        else output ++
          [.obj [("_truncated_items", .nat (items.length - maxLiveEventListItems))]])
  | value => if maxLiveEventDepth ≤ depth then omitted else value

def compactLiveItems (depth : Nat) : List Json → List Json
  | [] => []
  | item :: items => compactLiveValue depth item :: compactLiveItems depth items

def compactLiveFields (depth : Nat) : Fields → Fields
  | [] => []
  | (key, child) :: fields => (key, compactLiveValue depth child) :: compactLiveFields depth fields

end

/-- `_compact_live_event` -/
def compactLiveEvent (event : Fields) : Fields :=
  match compactLiveValue 0 (.obj event) with
  | .obj fields => fields
  | _ => []

/-! ### The store -/

/-- The latest state of a node. -/
structure LiveItem where
  text : String := ""
  thinkingText : String := ""
  liveDelta : String := ""
  thinkingDelta : String := ""
  snapshotRequired : Bool := false
  activityBlocks : List Fields := []
  activityBlocksChanged : Bool := false
  mediaChunks : List Fields := []
  traceId : String := ""
  updatedAt : ℚ := 0
  isStreaming : Bool := false
  version : Nat := 0
  eventType : String := ""
  event : Option Fields := none
  interactiveSessionId : String := ""

/-- `NodeLiveOutputStore` -/
structure LiveStore where
  items : String × String → Option LiveItem
  versions : String × String → Nat

def LiveStore.empty : LiveStore where
  items _ := none
  versions _ := 0

/-- `_key` -/
def liveKey (graphId nodeId : String) : String × String :=
  let graph := pyStrip (if graphId = "" then "default" else graphId)
  (if graph = "" then "default" else graph, pyStrip nodeId)

/-- `next` is `previous` with `delta` behind it, by their lengths and ends. -/
def extendsBy (previous delta next : String) : Bool :=
  next.length = previous.length + delta.length && previous.toList.isPrefixOf next.toList &&
    delta.toList.isSuffixOf next.toList

/-- The operations on a node; texts that may be left out are empty then. -/
inductive LiveOp where
  | update (text traceId delta : String)
  | updateThinking (text traceId : String) (event : Fields) (delta : String)
  | updateActivity (block : Fields) (traceId : String) (event : Fields)
  | removeActivity (blockId traceId : String) (event : Fields)
  | publishEvent (eventType : String) (event : Fields) (traceId : String)
  | publishCompletionEvent (eventType : String) (event : Fields) (traceId : String)
  | clear

section

variable (repr : Json → String)

/-- `str(fields.get(key) or default)` -/
def textAt (fields : Fields) (key default : String) : String :=
  Json.strOr repr default (fields.lookup key)

/-- `{**left, **right}` -/
def mergeFields (left right : Fields) : Fields :=
  right.foldl (fun fields entry => dictSet fields entry.1 entry.2) left

/-- An activity block over one with its id: its actions and details are merged. -/
def mergeBlock (existing next : Fields) : Fields :=
  ["action", "details"].foldl (fun merged field =>
    match existing.lookup field, next.lookup field with
    | some (.obj old), some (.obj new) => dictSet merged field (.obj (mergeFields old new))
    | _, _ => merged) (mergeFields existing next)

/-- The loop of `update_activity`: the first block with the id is merged, or the block is added. -/
def upsertBlock (blockId : String) (next : Fields) : List Fields → List Fields
  | [] => [next]
  | existing :: blocks =>
    if pyStrip (textAt repr existing "id" "") = blockId then mergeBlock existing next :: blocks
    else existing :: upsertBlock blockId next blocks

/-- The media chunks behind an event. -/
def nextMediaChunks (eventType : String) (event : Fields) (chunks : List Fields) : List Fields :=
  if eventType = "audio_stream_start" then [event]
  else if eventType = "audio_stream_chunk" ∨ eventType = "audio_stream_end" then
    let isStart (chunk : Fields) : Bool :=
      pyLower (textAt repr chunk "type" "") = "audio_stream_start"
    let starts := chunks.filter isStart
    let tail := chunks.filter fun chunk => !isStart chunk
    starts.drop (starts.length - 1) ++ tail.drop (tail.length - (maxLiveMediaChunks - 2)) ++ [event]
  else chunks

/-- `trace_id or current["trace_id"]` -/
def keptTrace (traceId : String) (current : LiveItem) : String :=
  if traceId = "" then current.traceId else traceId

/-- The item that an operation makes of the current one, where it makes one: the version is set by
the store. -/
def LiveOp.item (now : ℚ) (current : LiveItem) : LiveOp → Option LiveItem
  | .update text traceId delta =>
    let snapshotRequired := !extendsBy current.text delta text
    some
      { text
        thinkingText := current.thinkingText
        liveDelta := if snapshotRequired then "" else delta
        snapshotRequired
        activityBlocks := current.activityBlocks
        mediaChunks := current.mediaChunks
        traceId
        updatedAt := now
        isStreaming := true
        interactiveSessionId := current.interactiveSessionId }
  | .updateThinking text traceId event delta =>
    let snapshotRequired := !extendsBy current.thinkingText delta text
    some
      { text := current.text
        thinkingText := text
        thinkingDelta := if snapshotRequired then "" else delta
        snapshotRequired
        activityBlocks := current.activityBlocks
        mediaChunks := current.mediaChunks
        traceId := keptTrace traceId current
        updatedAt := now
        isStreaming := true
        eventType := "node_thinking_delta"
        event := some (compactLiveEvent
          [("type", .str (textAt repr event "type" "node_thinking_delta")), ("delta", .str delta)])
        interactiveSessionId := current.interactiveSessionId }
  | .updateActivity block traceId event =>
    let blockId := pyStrip (textAt repr block "id" "")
    if blockId = "" ∨ pyLower (pyStrip (textAt repr block "type" "")) = "" then none
    else
      let blocks := upsertBlock repr blockId (compactLiveEvent block) current.activityBlocks
      some
        { text := current.text
          thinkingText := current.thinkingText
          activityBlocks := blocks.drop (blocks.length - maxLiveActivityBlocks)
          activityBlocksChanged := true
          mediaChunks := current.mediaChunks
          traceId := keptTrace traceId current
          updatedAt := now
          isStreaming := true
          eventType := textAt repr event "type" "live_activity"
          event := some (compactLiveEvent event)
          interactiveSessionId := current.interactiveSessionId }
  | .removeActivity blockId traceId event =>
    let remaining := current.activityBlocks.filter fun block =>
      pyStrip (textAt repr block "id" "") ≠ pyStrip blockId
    if pyStrip blockId = "" ∨ remaining.length = current.activityBlocks.length then none
    else
      some
        { text := current.text
          thinkingText := current.thinkingText
          activityBlocks := remaining
          activityBlocksChanged := true
          mediaChunks := current.mediaChunks
          traceId := keptTrace traceId current
          updatedAt := now
          isStreaming := true
          eventType := textAt repr event "type" "live_activity_removed"
          event := some (compactLiveEvent event)
          interactiveSessionId := current.interactiveSessionId }
  | .publishEvent eventType event traceId =>
    let lower := pyLower (pyStrip eventType)
    some
      { text := current.text
        thinkingText := current.thinkingText
        activityBlocks := current.activityBlocks
        mediaChunks := nextMediaChunks repr lower (compactLiveEvent event) current.mediaChunks
        traceId := keptTrace traceId current
        updatedAt := now
        isStreaming := current.isStreaming
        eventType := pyStrip eventType
        event := some (compactLiveEvent event)
        interactiveSessionId :=
          if lower = "stdin_ready" then textAt repr event "session_id" ""
          else if lower = "stdin_closed" ∨ lower = "node_message_done" then ""
          else current.interactiveSessionId }
  | .publishCompletionEvent eventType event traceId =>
    some
      { activityBlocksChanged := true
        mediaChunks := current.mediaChunks
        traceId := keptTrace traceId current
        updatedAt := now
        eventType := pyStrip eventType
        event := some (compactLiveEvent event) }
  | .clear => none

/-- An operation on a node. -/
def LiveStore.perform (s : LiveStore) (graphId nodeId : String) (now : ℚ) (op : LiveOp) : LiveStore :=
  let key := liveKey graphId nodeId
  let version := s.versions key + 1
  match op with
  | .clear =>
    if (s.items key).isNone then s
    else
      { items := Function.update s.items key none
        versions := Function.update s.versions key version }
  | op =>
    if key.2 = "" then s
    else
      match op.item repr now ((s.items key).getD {}) with
      | none => s
      | some item =>
        { items := Function.update s.items key (some { item with version })
          versions := Function.update s.versions key version }

end

/-- What `wait_for_change` returns: the latest item, or that there is none. -/
def LiveStore.waitForChange (s : LiveStore) (graphId nodeId : String) : LiveItem :=
  let key := liveKey graphId nodeId
  (s.items key).getD { version := s.versions key }

/-! ### Payloads -/

structure LivePayload where
  nodeId : String
  graphId : String
  isSnapshot : Bool
  baseVersion : Nat
  liveMessage : String
  thinkingMessage : String
  liveDelta : String
  thinkingDelta : String
  version : Nat
  traceId : String
  updatedAt : ℚ
  isStreaming : Bool
  eventType : String
  event : Option Fields
  interactiveSessionId : String
  mediaChunks : List Fields
  activityBlocks : Option (List Fields)

/-- `live_output_requires_snapshot` -/
def liveOutputRequiresSnapshot (item : LiveItem) (lastDeliveredVersion : Nat) : Bool :=
  item.snapshotRequired || item.version ≠ lastDeliveredVersion + 1

/-- `build_live_output_payload` -/
def buildLiveOutputPayload (graphId nodeId : String) (current : LiveItem) (snapshot : Bool)
    (lastDeliveredVersion : Nat) : LivePayload :=
  let sendSnapshot := snapshot || liveOutputRequiresSnapshot current lastDeliveredVersion
  { nodeId := (liveKey graphId nodeId).2
    graphId := (liveKey graphId nodeId).1
    isSnapshot := sendSnapshot
    baseVersion := if sendSnapshot then current.version else lastDeliveredVersion
    liveMessage := if sendSnapshot then current.text else ""
    thinkingMessage := if sendSnapshot then current.thinkingText else ""
    liveDelta := if sendSnapshot then "" else current.liveDelta
    thinkingDelta := if sendSnapshot then "" else current.thinkingDelta
    version := current.version
    traceId := current.traceId
    updatedAt := current.updatedAt
    isStreaming := current.isStreaming
    eventType := current.eventType
    event := current.event
    interactiveSessionId := current.interactiveSessionId
    mediaChunks := current.mediaChunks
    activityBlocks :=
      if sendSnapshot || current.activityBlocksChanged then some current.activityBlocks else none }

/-! ### Clients -/

/-- What is shown of a node. -/
structure LiveView where
  text : String := ""
  thinkingText : String := ""
  activityBlocks : List Fields := []

/-- What the store has of a node. -/
def LiveStore.view (s : LiveStore) (key : String × String) : LiveView :=
  match s.items key with
  | some item => ⟨item.text, item.thinkingText, item.activityBlocks⟩
  | none => {}

/-- A client takes a payload. -/
def LiveView.receive (view : LiveView) (payload : LivePayload) : LiveView :=
  if payload.isStreaming = false then {}
  else if payload.isSnapshot then
    ⟨payload.liveMessage, payload.thinkingMessage, payload.activityBlocks.getD []⟩
  else
    ⟨view.text ++ payload.liveDelta, view.thinkingText ++ payload.thinkingDelta,
      payload.activityBlocks.getD view.activityBlocks⟩

/-- The store and a consumer of one node with its client. -/
structure LiveSystem where
  store : LiveStore
  view : LiveView
  /-- The version that was delivered last. -/
  delivered : Nat

def LiveSystem.empty : LiveSystem where
  store := .empty
  view := {}
  delivered := 0

/-- What can happen: an operation on any node; the consumer wakes up, or its wait ends, and sends
what it finds. -/
inductive LiveAction where
  | perform (graphId nodeId : String) (now : ℚ) (op : LiveOp)
  | deliver (snapshot : Bool)

/-- The steps, with a consumer of the node. -/
def liveStep (repr : Json → String) (graphId nodeId : String) (s : LiveSystem) :
    LiveAction → Option LiveSystem
  | .perform graph node now op =>
    some { s with store := s.store.perform repr graph node now op }
  | .deliver snapshot =>
    let item := s.store.waitForChange graphId nodeId
    let payload := buildLiveOutputPayload graphId nodeId item snapshot s.delivered
    some { s with view := s.view.receive payload, delivered := payload.version }

/-! ### What an item says of the version before -/

def LiveItem.view (item : LiveItem) : LiveView :=
  ⟨item.text, item.thinkingText, item.activityBlocks⟩

/-- The item of the next version: a node that does not stream shows nothing, and where the item of
one that does may be sent as a delta, the delta is what was added to the view before. -/
structure Extends (previous : LiveView) (item : LiveItem) : Prop where
  silent : item.isStreaming = false → item.view = {}
  text : item.isStreaming = true → item.snapshotRequired = false →
    item.text = previous.text ++ item.liveDelta
  thinkingText : item.isStreaming = true → item.snapshotRequired = false →
    item.thinkingText = previous.thinkingText ++ item.thinkingDelta
  blocks : item.isStreaming = true → item.activityBlocksChanged = false →
    item.activityBlocks = previous.activityBlocks

theorem eq_append_of_extendsBy {previous delta next : String}
    (extends_ : extendsBy previous delta next = true) : next = previous ++ delta := by
  unfold extendsBy at extends_
  rw [Bool.and_eq_true, Bool.and_eq_true, decide_eq_true_eq, List.isPrefixOf_iff_prefix,
    List.isSuffixOf_iff_suffix] at extends_
  obtain ⟨⟨length, front, isFront⟩, back⟩ := extends_
  have lengths : next.toList.length = previous.toList.length + delta.toList.length := length
  -- What is behind `previous` is as long as `delta`, and both are at the end.
  have same : delta.toList = front := by
    rw [← isFront, List.length_append] at lengths
    refine (List.IsSuffix.eq_of_length ?_ (by omega))
    exact List.suffix_of_suffix_length_le back ⟨_, isFront⟩ (by omega)
  apply String.toList_injective
  rw [String.toList_append, same, isFront]

section

variable {repr : Json → String} {now : ℚ} {current item : LiveItem} {op : LiveOp}

theorem append_empty (text : String) : text = text ++ "" := (String.append_empty).symm

theorem LiveOp.extends_item (silent : current.isStreaming = false → current.view = {})
    (isItem : op.item repr now current = some item) : Extends current.view item := by
  cases op with
  | update text traceId delta =>
    cases isItem
    refine ⟨nofun, ?_, fun _ _ => append_empty _, fun _ _ => rfl⟩
    intro _ whole
    have extends_ : extendsBy current.text delta text = true := by simpa using whole
    dsimp only
    rw [extends_]
    exact eq_append_of_extendsBy extends_
  | updateThinking text traceId event delta =>
    cases isItem
    refine ⟨nofun, fun _ _ => append_empty _, ?_, fun _ _ => rfl⟩
    intro _ whole
    have extends_ : extendsBy current.thinkingText delta text = true := by simpa using whole
    dsimp only
    rw [extends_]
    exact eq_append_of_extendsBy extends_
  | updateActivity | removeActivity =>
    obtain ⟨_, made⟩ := Option.ite_none_left_eq_some.mp isItem
    cases made
    exact ⟨nofun, fun _ _ => append_empty _, fun _ _ => append_empty _, nofun⟩
  | publishEvent eventType event traceId =>
    cases isItem
    exact ⟨silent, fun _ _ => append_empty _, fun _ _ => append_empty _, fun _ _ => rfl⟩
  | publishCompletionEvent eventType event traceId =>
    cases isItem
    exact ⟨fun _ => rfl, nofun, nofun, nofun⟩
  | clear => cases isItem

theorem Extends.receive {previous : LiveView} (extends_ : Extends previous item)
    (graphId nodeId : String) (snapshot : Bool) {delivered : Nat} {view : LiveView}
    (before : item.version = delivered + 1 → view = previous) :
    view.receive (buildLiveOutputPayload graphId nodeId item snapshot delivered) = item.view := by
  unfold LiveView.receive buildLiveOutputPayload
  dsimp only
  cases streams : item.isStreaming with
  | false =>
    rw [if_pos rfl]
    exact (extends_.silent streams).symm
  | true =>
    rw [if_neg Bool.noConfusion]
    cases sends : snapshot || liveOutputRequiresSnapshot item delivered with
    | true => rfl
    | false =>
      -- A delta goes to a client that is at the version before only.
      obtain ⟨_, needless⟩ := Bool.or_eq_false_iff.mp sends
      obtain ⟨whole, isNext⟩ := Bool.or_eq_false_iff.mp needless
      rw [decide_eq_false_iff_not, not_not] at isNext
      rw [before isNext]
      simp only [Bool.false_eq_true, if_false, Bool.false_or]
      rw [← extends_.text streams whole, ← extends_.thinkingText streams whole]
      cases changed : item.activityBlocksChanged with
      | true => rfl
      | false =>
        rw [if_neg Bool.noConfusion, Option.getD_none, ← extends_.blocks streams changed]
        rfl

end

/-! ### After every payload -/

/-- There are views for all versions: the store has the one of its version, and so has the client of
the version that was delivered; the item extends the one before. -/
def Consistent (key : String × String) (s : LiveSystem) : Prop :=
  ∃ views : Nat → LiveView, s.store.view key = views (s.store.versions key) ∧
    s.view = views s.delivered ∧ s.delivered ≤ s.store.versions key ∧
    ∀ item, s.store.items key = some item → ∃ before, s.store.versions key = before + 1 ∧
      item.version = before + 1 ∧ Extends (views before) item

theorem consistent_empty (key : String × String) : Consistent key .empty :=
  ⟨fun _ => {}, rfl, rfl, Nat.le_refl _, nofun⟩

section

variable {repr : Json → String} {key : String × String} {s : LiveSystem}

theorem Consistent.silent {item : LiveItem} (consistent : Consistent key s)
    (isItem : s.store.items key = some item) : item.isStreaming = false → item.view = {} := by
  obtain ⟨views, -, -, -, items⟩ := consistent
  obtain ⟨before, -, -, extends_⟩ := items item isItem
  exact extends_.silent

theorem Consistent.next (consistent : Consistent key s) {store : LiveStore}
    (versions : store.versions key = s.store.versions key + 1)
    (items : ∀ item, store.items key = some item → item.version = s.store.versions key + 1 ∧
      Extends (s.store.view key) item) : Consistent key { s with store } := by
  obtain ⟨views, isView, shown, le, -⟩ := consistent
  have old : ∀ n ≤ s.store.versions key,
      Function.update views (s.store.versions key + 1) (store.view key) n = views n := by
    intro n small
    rw [Function.update_of_ne (by omega)]
  refine ⟨Function.update views (s.store.versions key + 1) (store.view key), ?_, ?_, ?_, ?_⟩
  · dsimp only
    rw [versions, Function.update_self]
  · rw [shown, old _ le]
  · dsimp only
    omega
  · intro item isItem
    obtain ⟨isVersion, extends_⟩ := items item isItem
    refine ⟨_, versions, isVersion, ?_⟩
    rw [old _ (Nat.le_refl _), ← isView]
    exact extends_

theorem Consistent.unchanged (consistent : Consistent key s) {store : LiveStore}
    (items : store.items key = s.store.items key)
    (versions : store.versions key = s.store.versions key) : Consistent key { s with store } := by
  have same : store.view key = s.store.view key := by
    unfold LiveStore.view
    rw [items]
  obtain ⟨views, isView, shown, le, extends_⟩ := consistent
  refine ⟨views, ?_, shown, ?_, ?_⟩
  · dsimp only
    rw [same, isView, versions]
  · dsimp only
    rw [versions]
    exact le
  · dsimp only
    rw [items, versions]
    exact extends_

theorem Consistent.replace (consistent : Consistent key s) (other : String × String)
    {item : Option LiveItem} (extends_ : key = other → ∀ made, item = some made →
      made.version = s.store.versions other + 1 ∧ Extends (s.store.view other) made) :
    Consistent key { s with store :=
      { items := Function.update s.store.items other item
        versions := Function.update s.store.versions other (s.store.versions other + 1) } } := by
  by_cases same : key = other
  · subst same
    refine consistent.next (Function.update_self _ _ _) ?_
    intro made isMade
    dsimp only at isMade
    rw [Function.update_self] at isMade
    exact extends_ rfl made isMade
  · exact consistent.unchanged (Function.update_of_ne same _ _) (Function.update_of_ne same _ _)

theorem view_getD (store : LiveStore) : ((store.items key).getD {}).view = store.view key := by
  unfold LiveStore.view
  cases store.items key with
  | none => rfl
  | some item => rfl

theorem Consistent.perform (consistent : Consistent key s) (graphId nodeId : String) (now : ℚ)
    (op : LiveOp) : Consistent key { s with store := s.store.perform repr graphId nodeId now op } := by
  unfold LiveStore.perform
  generalize liveKey graphId nodeId = other
  dsimp only
  have made : ∀ {op : LiveOp} {item : LiveItem},
      op.item repr now ((s.store.items other).getD {}) = some item →
        Consistent key { s with store :=
          { items := Function.update s.store.items other
              (some { item with version := s.store.versions other + 1 })
            versions := Function.update s.store.versions other (s.store.versions other + 1) } } := by
    intro op item isItem
    apply consistent.replace
    rintro rfl made ⟨⟩
    have extends_ : Extends (s.store.view key) item := by
      rw [← view_getD]
      refine LiveOp.extends_item ?_ isItem
      cases found : s.store.items key with
      | none => exact fun _ => rfl
      | some item => exact consistent.silent found
    exact ⟨rfl, extends_.silent, extends_.text, extends_.thinkingText, extends_.blocks⟩
  split
  · split
    · exact consistent
    · exact consistent.replace other fun _ _ isMade => nomatch isMade
  · split
    · exact consistent
    · split
      · exact consistent
      · rename_i item isItem
        exact made isItem

end

section

variable {repr : Json → String} {graphId nodeId : String} {s : LiveSystem}

theorem Consistent.deliver (consistent : Consistent (liveKey graphId nodeId) s) (snapshot : Bool) :
    s.view.receive (buildLiveOutputPayload graphId nodeId (s.store.waitForChange graphId nodeId)
        snapshot s.delivered) = s.store.view (liveKey graphId nodeId) ∧
      (s.store.waitForChange graphId nodeId).version =
        s.store.versions (liveKey graphId nodeId) := by
  obtain ⟨views, isView, shown, le, items⟩ := consistent
  unfold LiveStore.waitForChange LiveStore.view
  dsimp only
  cases found : s.store.items (liveKey graphId nodeId) with
  | none => exact ⟨rfl, rfl⟩
  | some item =>
    obtain ⟨before, isNext, isVersion, extends_⟩ := items item found
    refine ⟨extends_.receive graphId nodeId snapshot ?_, isVersion.trans isNext.symm⟩
    intro atVersion
    have same : s.delivered = before := by
      rw [isVersion] at atVersion
      omega
    rw [shown, same]

/-- One action keeps the view of the client the one of the version it was delivered. -/
theorem Consistent.step (consistent : Consistent (liveKey graphId nodeId) s) {action : LiveAction}
    {t : LiveSystem} (stepped : liveStep repr graphId nodeId s action = some t) :
    Consistent (liveKey graphId nodeId) t := by
  cases action with
  | perform graph node now op =>
    cases stepped
    exact consistent.perform graph node now op
  | deliver snapshot =>
    cases stepped
    obtain ⟨received, isVersion⟩ := consistent.deliver snapshot
    obtain ⟨views, isView, shown, le, items⟩ := consistent
    refine ⟨views, isView, ?_, ?_, items⟩
    · exact received.trans (isView.trans (congrArg views isVersion.symm))
    · exact Nat.le_of_eq isVersion

/-- After every payload the client shows what the store has, at the version that was delivered; and
this version is above the one before unless the wait ended without a change. -/
theorem live_reconstructs (repr : Json → String) (graphId nodeId : String)
    (actions : List LiveAction) : Along (liveStep repr graphId nodeId)
      (fun s action t => ∀ snapshot, action = .deliver snapshot →
        t.view = t.store.view (liveKey graphId nodeId) ∧
          t.delivered = t.store.versions (liveKey graphId nodeId) ∧
          (s.delivered < t.delivered ∨ s.store.versions (liveKey graphId nodeId) ≤ s.delivered))
      .empty actions := by
  refine along_of_invariant (C := fun _ _ _ => True) (I := Consistent (liveKey graphId nodeId)) ?_
    (consistent_empty _) (along_of_forall_mem fun _ _ => trivial)
  intro s action t consistent stepped _
  refine ⟨?_, consistent.step stepped⟩
  rintro snapshot rfl
  cases stepped
  obtain ⟨received, isVersion⟩ := consistent.deliver snapshot
  refine ⟨received, isVersion, ?_⟩
  rcases Nat.lt_or_ge s.delivered (s.store.versions (liveKey graphId nodeId)) with lt | ge
  · exact .inl (lt.trans_eq isVersion.symm)
  · exact .inr ge

end

end AgentPark.Web
