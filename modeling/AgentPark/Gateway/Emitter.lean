import AgentPark.Gateway.Frames

/-!
# The Responses events of an answer

The adapters of the providers send an answer as the events of a Responses stream.  This module has
the items of that protocol and `ResponsesEmitter`, which numbers the events and keeps the items it
has opened.

* `Emitter` is the emitter's state.  An item that is still written to is kept once, and the output
  list refers to it, as the output list of the source does.
-/

namespace AgentPark.Gateway

open Lib Generator

/-! ### Items -/

section Items

variable (host : Host)

/-- `message_item` -/
def messageItem (itemId text status : String) : Json :=
  .obj [("type", .str "message"), ("role", .str "assistant"), ("id", .str itemId),
    ("status", .str status),
    ("content", .arr [.obj [("type", .str "output_text"), ("text", .str text)]])]

/-- The part of a summary. -/
def summaryPart (text : String) : Json :=
  .obj [("type", .str "summary_text"), ("text", .str text)]

/-- `reasoning_item`, whose summary has one part or none. -/
def reasoningItem (itemId : String) (summary : Option String) : Json :=
  .obj [("type", .str "reasoning"), ("id", .str itemId),
    ("summary", .arr (summary.toList.map summaryPart)), ("encrypted_content", .null)]

/-- `_decoded_json_object` -/
def decodedJsonObject (raw : String) (owner : String) : Except Raised Json :=
  match loads raw.toList with
  | none => .error (.protocol (owner ++ " must be valid JSON."))
  | some (.obj fields) => .ok (.obj fields)
  | some _ => .error (.protocol (owner ++ " must decode to an object."))

/-- `if call.namespace: item["namespace"] = call.namespace` -/
def namespaceField (call : CanonicalToolCall) : List (String × Json) :=
  if call.toolNamespace ≠ "" then [("namespace", .str call.toolNamespace)] else []

/-- `tool_call_item`, with the identifier it draws. -/
def toolCallItem (drawn : String) (call : CanonicalToolCall) :
    Except Raised (List (String × Json)) :=
  let itemId := "fc_" ++ drawn
  match call.kind with
  | .custom =>
    .ok ([("type", .str "custom_tool_call"), ("id", .str itemId), ("call_id", .str call.callId),
      ("name", .str call.name), ("input", .str call.arguments)] ++ namespaceField call)
  | .toolSearch =>
    (decodedJsonObject call.arguments "tool_search call arguments").map fun arguments =>
      [("type", .str "tool_search_call"), ("id", .str itemId), ("call_id", .str call.callId),
        ("status", .str "completed"), ("execution", .str "client"), ("arguments", arguments)]
  | .function =>
    .ok ([("type", .str "function_call"), ("id", .str itemId), ("call_id", .str call.callId),
      ("name", .str call.name), ("arguments", .str call.arguments),
      ("status", .str "completed")] ++ namespaceField call)

/-- `_usage` -/
def usage (result : CanonicalResult) : Json :=
  .obj [("input_tokens", .nat result.inputTokens), ("input_tokens_details", .null),
    ("output_tokens", .nat result.outputTokens), ("output_tokens_details", .null),
    ("total_tokens", .nat result.totalTokens)]

end Items

/-! ### The emitter -/

/-- The message an emitter writes to. -/
structure OpenMessage where
  index : Nat
  itemId : String
  text : String := ""
  status : String := "in_progress"
deriving DecidableEq

def OpenMessage.item (message : OpenMessage) : Json :=
  messageItem message.itemId message.text message.status

/-- The reasoning an emitter writes to. -/
structure OpenReasoning where
  index : Nat
  itemId : String
  text : String := ""
  finished : Bool := false
deriving DecidableEq

def OpenReasoning.item (reasoning : OpenReasoning) : Json :=
  reasoningItem reasoning.itemId (some reasoning.text)

/-- An entry of the output list: the message, the reasoning, or an item that is kept as it is. -/
inductive Entry where
  | message
  | reasoning
  | item (fields : List (String × Json))
deriving DecidableEq

/-- `ResponsesEmitter`, with the number of identifiers drawn so far. -/
structure Emitter where
  responseId : String
  model : String
  output : List Entry := []
  sequence : Nat := 0
  message : Option OpenMessage := none
  reasoning : Option OpenReasoning := none
  drawn : Nat := 0
deriving DecidableEq

namespace Emitter

/-- The output list as it is written. -/
def outputItems (emitter : Emitter) : List Json :=
  emitter.output.map fun
    | .message => (emitter.message.map OpenMessage.item).getD .null
    | .reasoning => (emitter.reasoning.map OpenReasoning.item).getD .null
    | .item fields => .obj fields

/-- The frame of an event. -/
def frame (sequence : Nat) (kind : String) (fields : List (String × Json)) : Frame :=
  .sse kind (.obj (("type", .str kind) :: ("sequence_number", .nat sequence) :: fields))

section

variable (host : Host)

/-- `event` -/
def event (kind : String) (fields : List (String × Json)) : Code Emitter Unit := do
  let emitter ← get
  yield (frame emitter.sequence kind fields)
  modify fun emitter => { emitter with sequence := emitter.sequence + 1 }

/-- `uuid.uuid4().hex` -/
def draw : Code Emitter String := do
  let emitter ← get
  modify fun emitter => { emitter with drawn := emitter.drawn + 1 }
  pure (host.uuid4 emitter.drawn)

/-- `created` -/
def created : Code Emitter Unit := do
  let emitter ← get
  event "response.created" [("response", .obj [("id", .str emitter.responseId),
    ("object", .str "response"), ("status", .str "in_progress"), ("model", .str emitter.model),
    ("output", .arr [])])]

/-- `added`: the entry goes to the output list and is sent as it is now. -/
def added (entry : Entry) (item : Json) : Code Emitter Unit := do
  let emitter ← get
  modify fun emitter => { emitter with output := emitter.output ++ [entry] }
  event "response.output_item.added" [("output_index", .nat emitter.output.length), ("item", item)]

/-- The fields that name a part of an item. -/
def place (itemId : String) (index : Nat) (part : String) : List (String × Json) :=
  [("item_id", .str itemId), ("output_index", .nat index), (part, .nat 0)]

/-- `finish_reasoning` -/
def finishReasoning : Code Emitter Unit := do
  let emitter ← get
  match emitter.reasoning with
  | none => pure ()
  | some reasoning =>
    if reasoning.finished then pure ()
    else do
      modify fun emitter => { emitter with reasoning := some { reasoning with finished := true } }
      let base := place reasoning.itemId reasoning.index "summary_index"
      event "response.reasoning_summary_text.done" (base ++ [("text", .str reasoning.text)])
      event "response.reasoning_summary_part.done" (base ++ [("part", summaryPart reasoning.text)])
      event "response.output_item.done"
        [("output_index", .nat reasoning.index), ("item", reasoning.item)]

/-- The part of `text` that opens the message. -/
def openMessage : Code Emitter OpenMessage := do
  let emitter ← get
  match emitter.message with
  | some message => pure message
  | none => do
    let drawn ← draw host
    let message : OpenMessage := { index := emitter.output.length, itemId := "msg_" ++ drawn }
    modify fun emitter => { emitter with message := some message }
    added .message message.item
    event "response.content_part.added" (place message.itemId message.index "content_index" ++
      [("part", .obj [("type", .str "output_text"), ("text", .str "")])])
    pure message

/-- `text` -/
def text (delta : String) : Code Emitter Unit :=
  if delta = "" then pure ()
  else do
    finishReasoning
    let message ← openMessage host
    modify fun emitter =>
      { emitter with message := some { message with text := message.text ++ delta } }
    event "response.output_text.delta"
      (place message.itemId message.index "content_index" ++ [("delta", .str delta)])

/-- The part of `completed` that closes the message. -/
def finishMessage : Code Emitter Unit := do
  let emitter ← get
  match emitter.message with
  | none => pure ()
  | some message => do
    let message := { message with status := "completed" }
    modify fun emitter => { emitter with message := some message }
    let base := place message.itemId message.index "content_index"
    event "response.output_text.done" (base ++ [("text", .str message.text)])
    event "response.content_part.done" (base ++
      [("part", .obj [("type", .str "output_text"), ("text", .str message.text)])])
    event "response.output_item.done"
      [("output_index", .nat message.index), ("item", message.item)]

/-- `"input" if call.kind == "custom" else "arguments"` -/
def argumentsKey (call : CanonicalToolCall) : String :=
  if call.kind = .custom then "input" else "arguments"

/-- The first part of the name of a call's argument events. -/
def argumentsEvent (call : CanonicalToolCall) : String :=
  if call.kind = .custom then "response.custom_tool_call_input"
  else "response.function_call_arguments"

/-- The item of a call that has begun: without its arguments, except for a search. -/
def initialItem (call : CanonicalToolCall) (item : List (String × Json)) : List (String × Json) :=
  let initial := dictSet item "status" (.str "in_progress")
  if call.kind = .toolSearch then initial else dictSet initial (argumentsKey call) (.str "")

/-- The events that carry the arguments of a call. -/
def emitArguments (call : CanonicalToolCall) (index : Nat) (item : List (String × Json)) :
    Code Emitter Unit :=
  if call.kind = .toolSearch then pure ()
  else do
    let itemId := (item.lookup "id").getD .null
    let value := (item.lookup (argumentsKey call)).getD .null
    event (argumentsEvent call ++ ".delta")
      [("item_id", itemId), ("output_index", .nat index), ("delta", value)]
    event (argumentsEvent call ++ ".done")
      [("item_id", itemId), ("output_index", .nat index), (argumentsKey call, value)]

/-- The round of `completed` for one call. -/
def emitCall (call : CanonicalToolCall) : Code Emitter Unit := do
  let drawn ← draw host
  let item ← ofExcept (toolCallItem drawn call)
  let initial := initialItem call item
  added (.item initial) (.obj initial)
  let emitter ← get
  let index := emitter.output.length - 1
  emitArguments call index item
  modify fun emitter => { emitter with output := emitter.output.set index (.item item) }
  event "response.output_item.done" [("output_index", .nat index), ("item", .obj item)]

/-- The last event of `completed`. -/
def sendCompleted (result : CanonicalResult) : Code Emitter Unit := do
  let emitter ← get
  event "response.completed" [("response", .obj [("id", .str emitter.responseId),
    ("object", .str "response"), ("status", .str "completed"), ("model", .str emitter.model),
    ("output", .arr emitter.outputItems), ("usage", usage result)])]

/-- `completed` -/
def completed (result : CanonicalResult) : Code Emitter Unit := do
  finishReasoning
  finishMessage
  result.toolCalls.forM (emitCall host)
  sendCompleted result

end

/-! ### Events -/

/-- An event: its kind and the fields behind its number. -/
abbrev Event : Type := String × List (String × Json)

/-- The payload of an event. -/
def payload (sequence : Nat) (event : Event) : Json :=
  .obj (("type", .str event.1) :: ("sequence_number", .nat sequence) :: event.2)

theorem eventType_payload (host : Host) (sequence : Nat) (ev : Event) :
    eventType host (payload sequence ev) = ev.1 := textOf_str host ev.1

theorem get_payload {key : String} (sequence : Nat) (ev : Event) (notType : key ≠ "type")
    (notNumber : key ≠ "sequence_number") : (payload sequence ev).get key = ev.2.lookup key := by
  unfold payload Json.get
  dsimp only
  rw [List.lookup_cons, beq_false_of_ne notType, List.lookup_cons, beq_false_of_ne notNumber]

/-- The frames of the events, numbered from `sequence` on. -/
def frames : Nat → List Event → List Frame
  | _, [] => []
  | sequence, ev :: rest => frame sequence ev.1 ev.2 :: frames (sequence + 1) rest

theorem frames_append (sequence : Nat) (front back : List Event) :
    frames sequence (front ++ back) =
      frames sequence front ++ frames (sequence + front.length) back := by
  induction front generalizing sequence with
  | nil => rfl
  | cons ev front ih =>
    rw [List.cons_append, frames, frames, ih, List.cons_append, List.length_cons]
    congr 3
    omega

/-- An event a reader of the stream can read back: its kind is on one line and no field is there
twice. -/
structure Sendable (ev : Event) : Prop where
  flat : ∀ c ∈ ev.1.toList, isLineBreak c = false
  unique : (payload 0 ev).UniqueKeys

theorem sendable_mk {kind : String} {fields : List (String × Json)}
    (flat : (kind.toList.all fun c => !isLineBreak c) = true)
    (unique : (Json.obj (("type", .str kind) :: ("sequence_number", .nat 0) :: fields)).UniqueKeys) :
    Sendable (kind, fields) :=
  ⟨noLineBreak_of_all flat, unique⟩

variable {ev : Event}

theorem Sendable.unique_payload (sendable : Sendable ev) (sequence : Nat) :
    (payload sequence ev).UniqueKeys := by
  have unique := sendable.unique
  simp only [payload, Json.uniqueKeys_obj, List.map_cons, List.forall_mem_cons] at unique ⊢
  exact ⟨unique.1, trivial, trivial, unique.2.2.2⟩

theorem responsesEvent_frame (sendable : Sendable ev) (sequence : Nat) :
    responsesEvent (frame sequence ev.1 ev.2).bytes = .ok (some (payload sequence ev)) :=
  responsesEvent_sse sendable.flat (sendable.unique_payload sequence)

/-- The kinds of events the converters to a client protocol look at. -/
def readKinds : List String :=
  ["response.created", "response.output_text.delta", "response.output_item.done",
    "response.completed", "response.failed"]

/-- An event no converter looks at. -/
structure Quiet (ev : Event) : Prop where
  sendable : Sendable ev
  unread : ev.1 ∉ readKinds

theorem Quiet.kinds (quiet : Quiet ev) :
    ev.1 ≠ "response.created" ∧ ev.1 ≠ "response.output_text.delta" ∧
      ev.1 ≠ "response.output_item.done" ∧ ev.1 ≠ "response.completed" ∧
      ev.1 ≠ "response.failed" := by
  have unread := quiet.unread
  simpa only [readKinds, List.mem_cons, List.not_mem_nil, or_false, not_or] using unread

theorem quiet_mk {kind : String} {fields : List (String × Json)}
    (flat : (kind.toList.all fun c => !isLineBreak c) = true) (unread : kind ∉ readKinds)
    (unique : (Json.obj (("type", .str kind) :: ("sequence_number", .nat 0) :: fields)).UniqueKeys) :
    Quiet (kind, fields) :=
  ⟨sendable_mk flat unique, unread⟩

/-- The event of a finished item. -/
def doneEvent (index : Nat) (item : Json) : Event :=
  ("response.output_item.done", [("output_index", .nat index), ("item", item)])

theorem doneEvent_kind (index : Nat) (item : Json) :
    (doneEvent index item).1 = "response.output_item.done" := rfl

theorem sendable_doneEvent {index : Nat} {item : Json} (unique : item.UniqueKeys) :
    Sendable (doneEvent index item) := by
  refine sendable_mk (by decide +kernel) ?_
  simp [Json.uniqueKeys_obj, unique]

theorem get_item_doneEvent (sequence index : Nat) (item : Json) :
    (payload sequence (doneEvent index item)).get "item" = some item := by
  rw [get_payload _ _ (by decide) (by decide)]
  rfl

/-- The operation sends the events and leaves the emitter in the state `e'`, its number behind
them. -/
structure Sends (m : Code Emitter Unit) (e : Emitter) (events : List Event) (e' : Emitter) :
    Prop where
  emits : Emits m e (frames e.sequence events) () e'
  sequence : e'.sequence = e.sequence + events.length

theorem sends_pure {e : Emitter} : Sends (pure ()) e [] e := ⟨emits_pure, rfl⟩

theorem Sends.bind {m next : Code Emitter Unit} {e e' e'' : Emitter} {front back : List Event}
    (first : Sends m e front e') (second : Sends next e' back e'') :
    Sends (m >>= fun _ => next) e (front ++ back) e'' := by
  constructor
  · rw [frames_append, ← first.sequence]
    exact first.emits.bind second.emits
  · rw [second.sequence, first.sequence, List.length_append]
    omega

theorem sends_event (e : Emitter) (kind : String) (fields : List (String × Json)) :
    Sends (event kind fields) e [(kind, fields)] { e with sequence := e.sequence + 1 } :=
  ⟨rfl, rfl⟩

/-! ### What the operations send -/

/-- The events that close the reasoning. -/
def reasoningDone (e : Emitter) : List Event :=
  match e.reasoning with
  | some reasoning =>
    if reasoning.finished then []
    else
      let base := place reasoning.itemId reasoning.index "summary_index"
      [("response.reasoning_summary_text.done", base ++ [("text", .str reasoning.text)]),
        ("response.reasoning_summary_part.done", base ++ [("part", summaryPart reasoning.text)]),
        ("response.output_item.done",
          [("output_index", .nat reasoning.index), ("item", reasoning.item)])]
  | none => []

/-- The emitter with its reasoning closed. -/
def closeReasoning (e : Emitter) : Emitter :=
  { e with reasoning := e.reasoning.map fun reasoning => { reasoning with finished := true }
           sequence := e.sequence + e.reasoningDone.length }

/-- What `finish_reasoning` sends and leaves. -/
theorem sends_finishReasoning (e : Emitter) :
    Sends finishReasoning e e.reasoningDone e.closeReasoning := by
  obtain ⟨responseId, model, output, sequence, message, reasoning, drawn⟩ := e
  cases reasoning with
  | none => exact ⟨rfl, rfl⟩
  | some reasoning =>
    obtain ⟨index, itemId, text, finished⟩ := reasoning
    cases finished with
    | true => exact ⟨rfl, rfl⟩
    | false => exact ⟨rfl, rfl⟩

section

variable (host : Host)

/-- The events that open the message. -/
def messageOpening (e : Emitter) : List Event :=
  match e.message with
  | some _ => []
  | none =>
    let message : OpenMessage :=
      { index := e.output.length, itemId := "msg_" ++ host.uuid4 e.drawn }
    [("response.output_item.added",
        [("output_index", .nat message.index), ("item", message.item)]),
      ("response.content_part.added", place message.itemId message.index "content_index" ++
        [("part", .obj [("type", .str "output_text"), ("text", .str "")])])]

/-- The message that is open after `openMessage`. -/
def openedMessage (e : Emitter) : OpenMessage :=
  e.message.getD { index := e.output.length, itemId := "msg_" ++ host.uuid4 e.drawn }

/-- The emitter with an open message. -/
def withMessage (e : Emitter) : Emitter :=
  { e with
    message := some (e.openedMessage host)
    output := e.output ++ (if e.message = none then [.message] else [])
    drawn := e.drawn + (if e.message = none then 1 else 0)
    sequence := e.sequence + (e.messageOpening host).length }

theorem emits_openMessage (e : Emitter) :
    Emits (openMessage host) e (frames e.sequence (e.messageOpening host)) (e.openedMessage host)
      (e.withMessage host) := by
  obtain ⟨responseId, model, output, sequence, message, reasoning, drawn⟩ := e
  cases message with
  | none => rfl
  | some message =>
    unfold withMessage
    simp only [reduceCtorEq, if_false, List.append_nil, Nat.add_zero]
    rfl

/-- The event of a piece of text. -/
def textEvent (message : OpenMessage) (delta : String) : Event :=
  ("response.output_text.delta",
    place message.itemId message.index "content_index" ++ [("delta", .str delta)])

theorem textEvent_kind (message : OpenMessage) (delta : String) :
    (textEvent message delta).1 = "response.output_text.delta" := rfl

/-- The emitter after a piece of text. -/
def addText (e : Emitter) (delta : String) : Emitter :=
  let opened := e.closeReasoning.withMessage host
  let message := e.closeReasoning.openedMessage host
  { opened with message := some { message with text := message.text ++ delta }
                sequence := opened.sequence + 1 }

/-- What `text` sends and leaves. -/
theorem sends_text (e : Emitter) {delta : String} (notEmpty : delta ≠ "") :
    Sends (text host delta) e
      (e.reasoningDone ++ (e.closeReasoning.messageOpening host ++
        [textEvent (e.closeReasoning.openedMessage host) delta]))
      (e.addText host delta) := by
  unfold text
  rw [if_neg notEmpty]
  apply (sends_finishReasoning e).bind
  constructor
  · rw [frames_append]
    exact (emits_openMessage host e.closeReasoning).bind rfl
  · rw [List.length_append]
    rfl

/-- The events that close the message. -/
def messageDone (e : Emitter) : List Event :=
  match e.message with
  | none => []
  | some message =>
    let base := place message.itemId message.index "content_index"
    [("response.output_text.done", base ++ [("text", .str message.text)]),
      ("response.content_part.done", base ++
        [("part", .obj [("type", .str "output_text"), ("text", .str message.text)])]),
      ("response.output_item.done", [("output_index", .nat message.index),
        ("item", ({ message with status := "completed" } : OpenMessage).item)])]

/-- The emitter with its message closed. -/
def closeMessage (e : Emitter) : Emitter :=
  { e with message := e.message.map fun message => { message with status := "completed" }
           sequence := e.sequence + e.messageDone.length }

theorem sends_finishMessage (e : Emitter) : Sends finishMessage e e.messageDone e.closeMessage := by
  obtain ⟨responseId, model, output, sequence, message, reasoning, drawn⟩ := e
  cases message with
  | none => exact ⟨rfl, rfl⟩
  | some message => exact ⟨rfl, rfl⟩

/-- The events that carry the arguments of a call. -/
def argumentsEvents (call : CanonicalToolCall) (index : Nat) (item : List (String × Json)) :
    List Event :=
  if call.kind = .toolSearch then []
  else
    let itemId := (item.lookup "id").getD .null
    let value := (item.lookup (argumentsKey call)).getD .null
    [(argumentsEvent call ++ ".delta",
        [("item_id", itemId), ("output_index", .nat index), ("delta", value)]),
      (argumentsEvent call ++ ".done",
        [("item_id", itemId), ("output_index", .nat index), (argumentsKey call, value)])]

theorem sends_emitArguments (e : Emitter) (call : CanonicalToolCall) (index : Nat)
    (item : List (String × Json)) :
    Sends (emitArguments call index item) e (argumentsEvents call index item)
      { e with sequence := e.sequence + (argumentsEvents call index item).length } := by
  unfold emitArguments argumentsEvents
  by_cases search : call.kind = .toolSearch
  · rw [if_pos search, if_pos search]
    exact sends_pure
  · rw [if_neg search, if_neg search]
    exact ⟨rfl, rfl⟩

/-- The events of a call behind the output `index`. -/
def callEvents (call : CanonicalToolCall) (index : Nat) (item : List (String × Json)) :
    List Event :=
  ("response.output_item.added",
      [("output_index", .nat index), ("item", .obj (initialItem call item))]) ::
    (argumentsEvents call index item ++
      [("response.output_item.done", [("output_index", .nat index), ("item", .obj item)])])

/-- The emitter with the item of a call. -/
def addItem (e : Emitter) (call : CanonicalToolCall) (item : List (String × Json)) : Emitter :=
  { e with output := e.output ++ [.item item]
           drawn := e.drawn + 1
           sequence := e.sequence + (callEvents call e.output.length item).length }

theorem length_callEvents (call : CanonicalToolCall) (index : Nat) (item : List (String × Json)) :
    (callEvents call index item).length = (argumentsEvents call index item).length + 2 := by
  rw [callEvents, List.length_cons, List.length_append, List.length_singleton]

theorem sends_emitCall (e : Emitter) {call : CanonicalToolCall} {item : List (String × Json)}
    (isItem : toolCallItem (host.uuid4 e.drawn) call = .ok item) :
    Sends (emitCall host call) e (callEvents call e.output.length item) (e.addItem call item) := by
  have index : (e.output ++ [Entry.item (initialItem call item)]).length - 1 = e.output.length := by
    rw [List.length_append, List.length_singleton]
    omega
  have replaced : (e.output ++ [Entry.item (initialItem call item)]).set e.output.length
      (.item item) = e.output ++ [.item item] := by simp
  let begun : Emitter :=
    { e with output := e.output ++ [.item (initialItem call item)], drawn := e.drawn + 1
             sequence := e.sequence + 1 }
  let sent : Emitter :=
    { begun with sequence := begun.sequence + (argumentsEvents call e.output.length item).length }
  let placed : Emitter := { sent with output := sent.output.set e.output.length (.item item) }
  have sequence : placed.sequence + 1 =
      e.sequence + (callEvents call e.output.length item).length := by
    rw [length_callEvents]
    change e.sequence + 1 + (argumentsEvents call e.output.length item).length + 1 = _
    omega
  have final : { placed with sequence := placed.sequence + 1 } = e.addItem call item := by
    rw [sequence]
    unfold addItem
    rw [← replaced]
  have drawn : Emits (draw host) e [] (host.uuid4 e.drawn) { e with drawn := e.drawn + 1 } := rfl
  have begins : Emits (added (.item (initialItem call item)) (.obj (initialItem call item)))
      { e with drawn := e.drawn + 1 }
      [frame e.sequence "response.output_item.added"
        [("output_index", .nat e.output.length), ("item", .obj (initialItem call item))]]
      () begun := rfl
  have arguments := (sends_emitArguments begun call e.output.length item).emits
  have done := (sends_event placed "response.output_item.done"
    [("output_index", .nat e.output.length), ("item", .obj item)]).emits
  constructor
  · unfold emitCall callEvents
    rw [frames, frames_append]
    apply drawn.then
    apply (emits_ofExcept isItem).then
    apply begins.bind
    apply emits_get.then
    dsimp only
    rw [show begun.output.length - 1 = e.output.length from index]
    apply arguments.bind
    apply emits_modify.then
    rw [← final]
    exact done
  · rfl

/-- The items of the calls, with the identifiers drawn from `n` on. -/
inductive Itemized : Nat → List CanonicalToolCall →
    List (CanonicalToolCall × List (String × Json)) → Prop
  | nil (n : Nat) : Itemized n [] []
  | cons {n : Nat} {call : CanonicalToolCall} {item : List (String × Json)}
      {calls : List CanonicalToolCall} {pairs : List (CanonicalToolCall × List (String × Json))}
      (first : toolCallItem (host.uuid4 n) call = .ok item) (rest : Itemized (n + 1) calls pairs) :
      Itemized n (call :: calls) ((call, item) :: pairs)

/-- The events of the calls behind the output `index`. -/
def callsEvents : Nat → List (CanonicalToolCall × List (String × Json)) → List Event
  | _, [] => []
  | index, (call, item) :: pairs => callEvents call index item ++ callsEvents (index + 1) pairs

/-- The emitter with the items of the calls. -/
def addItems (e : Emitter) (pairs : List (CanonicalToolCall × List (String × Json))) : Emitter :=
  pairs.foldl (fun e pair => e.addItem pair.1 pair.2) e

theorem sends_calls {e : Emitter} {calls : List CanonicalToolCall}
    {pairs : List (CanonicalToolCall × List (String × Json))}
    (itemized : Itemized host e.drawn calls pairs) :
    Sends (calls.forM (emitCall host)) e (callsEvents e.output.length pairs) (e.addItems pairs) := by
  induction pairs generalizing e calls with
  | nil =>
    cases itemized
    exact sends_pure
  | cons pair pairs ih =>
    cases itemized with
    | cons first rest =>
      rename_i call item calls
      have later := ih (e := e.addItem call item) rest
      have length : (e.addItem call item).output.length = e.output.length + 1 :=
        List.length_append
      rw [length] at later
      exact (sends_emitCall host e first).bind later

/-- The event that ends an answer. -/
def completedEvent (e : Emitter) (result : CanonicalResult) : Event :=
  ("response.completed", [("response", .obj [("id", .str e.responseId),
    ("object", .str "response"), ("status", .str "completed"), ("model", .str e.model),
    ("output", .arr e.outputItems), ("usage", usage result)])])

/-- What `completed` sends and leaves. -/
theorem sends_sendCompleted (e : Emitter) (result : CanonicalResult) :
    Sends (sendCompleted result) e [e.completedEvent result] { e with sequence := e.sequence + 1 } :=
  ⟨emits_get.then (sends_event e _ _).emits, (sends_event e _ _).sequence⟩

end

/-! ### The events can be read back -/

section

variable (host : Host)

theorem uniqueKeys_messageItem (itemId text status : String) :
    (messageItem itemId text status).UniqueKeys := by
  simp [messageItem, Json.uniqueKeys_obj, Json.uniqueKeys_arr]

theorem uniqueKeys_reasoningItem (itemId : String) (summary : Option String) :
    (reasoningItem itemId summary).UniqueKeys := by
  cases summary with
  | none => simp [reasoningItem, Json.uniqueKeys_obj, Json.uniqueKeys_arr]
  | some text => simp [reasoningItem, summaryPart, Json.uniqueKeys_obj, Json.uniqueKeys_arr]

theorem quiet_messageOpening (e : Emitter) : ∀ ev ∈ e.messageOpening host, Quiet ev := by
  unfold messageOpening
  split
  · exact List.forall_mem_nil _
  · rw [List.forall_mem_cons, List.forall_mem_singleton]
    refine ⟨quiet_mk (by decide +kernel) (by decide +kernel) ?_,
      quiet_mk (by decide +kernel) (by decide +kernel) ?_⟩
    · simp [Json.uniqueKeys_obj, OpenMessage.item, uniqueKeys_messageItem]
    · simp [Json.uniqueKeys_obj, place]

theorem sendable_textEvent (message : OpenMessage) (delta : String) :
    Sendable (textEvent message delta) := by
  refine sendable_mk (by decide +kernel) ?_
  simp [Json.uniqueKeys_obj, place]

variable {e : Emitter}

theorem messageDone_eq {message : OpenMessage} (isOpen : e.message = some message) :
    ∃ front, (∀ ev ∈ front, Quiet ev) ∧ e.messageDone = front ++
      [doneEvent message.index (messageItem message.itemId message.text "completed")] := by
  let base := place message.itemId message.index "content_index"
  refine ⟨[("response.output_text.done", base ++ [("text", .str message.text)]),
    ("response.content_part.done", base ++
      [("part", .obj [("type", .str "output_text"), ("text", .str message.text)])])], ?_, ?_⟩
  · rw [List.forall_mem_cons, List.forall_mem_singleton]
    refine ⟨quiet_mk (by decide +kernel) (by decide +kernel) ?_,
      quiet_mk (by decide +kernel) (by decide +kernel) ?_⟩
    · simp [Json.uniqueKeys_obj, base, place]
    · simp [Json.uniqueKeys_obj, base, place]
  · unfold messageDone
    rw [isOpen]
    rfl

variable {item : List (String × Json)}

theorem uniqueKeys_lookup (unique : (Json.obj item).UniqueKeys) (key : String) :
    ((item.lookup key).getD .null).UniqueKeys := by
  cases found : item.lookup key with
  | none => exact Json.uniqueKeys_null
  | some v =>
    have isField : (Json.obj item).get key = some v := found
    exact unique.of_get isField

variable {call : CanonicalToolCall}

theorem uniqueKeys_initialItem (unique : (Json.obj item).UniqueKeys) :
    (Json.obj (initialItem call item)).UniqueKeys := by
  obtain ⟨nodup, values⟩ := Json.uniqueKeys_obj.mp unique
  have status := nodup_dictSet nodup "status" (Json.str "in_progress")
  have statusValues : ∀ field ∈ dictSet item "status" (Json.str "in_progress"),
      field.2.UniqueKeys :=
    forall_mem_dictSet (P := Json.UniqueKeys) values "status" (Json.uniqueKeys_str _)
  unfold initialItem
  dsimp only
  split
  · exact Json.uniqueKeys_obj.mpr ⟨status, statusValues⟩
  · exact Json.uniqueKeys_obj.mpr ⟨nodup_dictSet status _ _,
      forall_mem_dictSet (P := Json.UniqueKeys) statusValues _ (Json.uniqueKeys_str _)⟩

theorem quiet_argumentsEvents {index : Nat} (unique : (Json.obj item).UniqueKeys) :
    ∀ ev ∈ argumentsEvents call index item, Quiet ev := by
  have idUnique := uniqueKeys_lookup unique "id"
  have valueUnique := uniqueKeys_lookup unique (argumentsKey call)
  unfold argumentsEvents
  split
  · exact List.forall_mem_nil _
  · dsimp only
    rw [List.forall_mem_cons, List.forall_mem_singleton]
    by_cases custom : call.kind = .custom
    · have key : argumentsKey call = "input" := if_pos custom
      have kind : argumentsEvent call = "response.custom_tool_call_input" := if_pos custom
      rw [key] at valueUnique ⊢
      rw [kind]
      refine ⟨quiet_mk (by decide +kernel) (by decide +kernel) ?_,
        quiet_mk (by decide +kernel) (by decide +kernel) ?_⟩
      · simp [Json.uniqueKeys_obj, idUnique, valueUnique]
      · simp [Json.uniqueKeys_obj, idUnique, valueUnique]
    · have key : argumentsKey call = "arguments" := if_neg custom
      have kind : argumentsEvent call = "response.function_call_arguments" := if_neg custom
      rw [key] at valueUnique ⊢
      rw [kind]
      refine ⟨quiet_mk (by decide +kernel) (by decide +kernel) ?_,
        quiet_mk (by decide +kernel) (by decide +kernel) ?_⟩
      · simp [Json.uniqueKeys_obj, idUnique, valueUnique]
      · simp [Json.uniqueKeys_obj, idUnique, valueUnique]

theorem callEvents_eq {index : Nat} (unique : (Json.obj item).UniqueKeys) :
    ∃ front, (∀ ev ∈ front, Quiet ev) ∧
      callEvents call index item = front ++ [doneEvent index (.obj item)] := by
  refine ⟨_ :: argumentsEvents call index item, ?_, rfl⟩
  rw [List.forall_mem_cons]
  refine ⟨quiet_mk (by decide +kernel) (by decide +kernel) ?_, quiet_argumentsEvents unique⟩
  simp [Json.uniqueKeys_obj, uniqueKeys_initialItem unique]

/-- The items that are kept as they are can be read back. -/
def Clean (e : Emitter) : Prop := ∀ fields, Entry.item fields ∈ e.output → (Json.obj fields).UniqueKeys

theorem Clean.outputItems (clean : e.Clean) : ∀ item ∈ e.outputItems, item.UniqueKeys := by
  intro item mem
  obtain ⟨entry, inOutput, rfl⟩ := List.mem_map.mp mem
  cases entry with
  | message =>
    cases e.message with
    | none => exact Json.uniqueKeys_null
    | some message => exact uniqueKeys_messageItem _ _ _
  | reasoning =>
    cases e.reasoning with
    | none => exact Json.uniqueKeys_null
    | some reasoning => exact uniqueKeys_reasoningItem _ _
  | item fields => exact clean fields inOutput

theorem addText_plain (host : Host) (silent : e.reasoning = none) (clean : e.Clean) (delta : String) :
    (e.addText host delta).reasoning = none ∧ (e.addText host delta).Clean := by
  constructor
  · change e.reasoning.map _ = none
    rw [silent]
    rfl
  · intro fields mem
    rcases List.mem_append.mp mem with old | new
    · exact clean fields old
    · split at new
      · cases List.mem_singleton.mp new
      · cases new

theorem Clean.addItem (clean : e.Clean) (unique : (Json.obj item).UniqueKeys) :
    (e.addItem call item).Clean := by
  intro fields mem
  rcases List.mem_append.mp mem with old | new
  · exact clean fields old
  · cases List.mem_singleton.mp new
    exact unique

theorem sendable_completedEvent (clean : e.Clean) (result : CanonicalResult) :
    Sendable (e.completedEvent result) := by
  refine sendable_mk (by decide +kernel) ?_
  have usageUnique : (usage result).UniqueKeys := by simp [usage, Json.uniqueKeys_obj]
  have output : (Json.arr e.outputItems).UniqueKeys := Json.uniqueKeys_arr.mpr clean.outputItems
  simp [Json.uniqueKeys_obj, usageUnique, output]

end

end Emitter

end AgentPark.Gateway
