import AgentPark.Gateway.ChatWire

/-!
# Claude Messages towards the client

A result goes to a Claude Messages client as one message, `canonicalResultToMessage`, or as a stream
of events, `responsesSseToMessages`, which a generator makes from the frames of a Responses stream.
-/

namespace AgentPark.Gateway

open Lib Generator

section

variable (host : Host)

/-! ### One document -/

/-- `_tool_block` -/
def toolBlock (call : CanonicalToolCall) : Except Raised Json :=
  match loads call.arguments.toList with
  | none => .error (.protocol ("Tool call " ++ quoted host call.name ++ " arguments are invalid JSON."))
  | some (.obj input) =>
    .ok (.obj [("type", .str "tool_use"), ("id", .str call.callId), ("name", .str call.name),
      ("input", .obj input)])
  | some _ =>
    .error (.protocol
      ("Tool call " ++ quoted host call.name ++ " arguments must decode to an object."))

/-- `_message_id`, with the identifier it may draw. -/
def messageId (drawn responseId : String) : String :=
  let value := pyStrip responseId
  if "msg_".toList <+: value.toList then value else "msg_agentpark_" ++ drawn

/-- `canonical_result_to_message` -/
def canonicalResultToMessage (drawn model : String) (result : CanonicalResult) :
    Except Raised Json := do
  let text := if result.text ≠ "" then
    [Json.obj [("type", .str "text"), ("text", .str result.text)]] else []
  let calls ← result.toolCalls.mapM (toolBlock host)
  let stopReason := if result.toolCalls ≠ [] then "tool_use" else "end_turn"
  pure (.obj [("id", .str (messageId drawn result.responseId)), ("type", .str "message"),
    ("role", .str "assistant"), ("content", .arr (text ++ calls)), ("model", .str model),
    ("stop_reason", .str stopReason), ("stop_sequence", .null),
    ("usage", .obj [("input_tokens", .nat result.inputTokens),
      ("output_tokens", .nat result.outputTokens)])])

/-! ### A stream -/

/-- `_tool_call`: the call of a finished item, its arguments in the compact form. -/
def messageToolCall (item : Json) : Except Raised CanonicalToolCall :=
  let callId := pyStrip (Json.strOr host.repr (textOf host (item.get "id")) (item.get "call_id"))
  let name := pyStrip (textOf host (item.get "name"))
  if callId = "" ∨ name = "" then
    .error (.protocol "Responses tool call requires call_id and name.")
  else
    let arguments :=
      if textOf host (item.get "type") = "custom_tool_call" then
        wrappedInput (textOf host (item.get "input"))
      else Json.strOr host.repr "{}" (item.get "arguments")
    match loads arguments.toList with
    | none =>
      .error (.protocol
        ("Responses tool call " ++ quoted host name ++ " arguments are invalid JSON."))
    | some (.obj fields) =>
      .ok { callId, name, arguments := String.ofList (dumpsCompact (.obj fields)) }
    | some _ =>
      .error (.protocol
        ("Responses tool call " ++ quoted host name ++ " arguments must decode to an object."))

/-- The state of `responses_sse_to_messages`. -/
structure MessageStream where
  messageId : String
  inputTokens : Nat := 0
  outputTokens : Nat := 0
  textStarted : Bool := false
  textIndex : Nat := 0
  nextIndex : Nat := 0
  sawTool : Bool := false
  started : Bool := false
deriving DecidableEq

variable (model : String)

/-- `start_message` -/
def startMessage : Code MessageStream Unit := do
  modify fun stream => { stream with started := true }
  let stream ← get
  yield (.sse "message_start" (.obj [("type", .str "message_start"),
    ("message", .obj [("id", .str stream.messageId), ("type", .str "message"),
      ("role", .str "assistant"), ("content", .arr []), ("model", .str model),
      ("stop_reason", .null), ("stop_sequence", .null),
      ("usage", .obj [("input_tokens", .nat stream.inputTokens), ("output_tokens", .nat 0)])])]))

/-- `if not started: yield start_message()` -/
def ensureStarted : Code MessageStream Unit := do
  let stream ← get
  if stream.started then pure () else startMessage model

/-- A `content_block_start` event. -/
def blockStart (index : Nat) (block : Json) : Frame :=
  .sse "content_block_start" (.obj [("type", .str "content_block_start"), ("index", .nat index),
    ("content_block", block)])

/-- A `content_block_delta` event. -/
def blockDelta (index : Nat) (delta : Json) : Frame :=
  .sse "content_block_delta" (.obj [("type", .str "content_block_delta"), ("index", .nat index),
    ("delta", delta)])

/-- A `content_block_stop` event. -/
def blockStop (index : Nat) : Frame :=
  .sse "content_block_stop" (.obj [("type", .str "content_block_stop"), ("index", .nat index)])

def textDelta (text : String) : Json := .obj [("type", .str "text_delta"), ("text", .str text)]

/-- Open a text block behind the blocks so far. -/
def openTextBlock : Code MessageStream Unit := do
  modify fun stream => { stream with textStarted := true, textIndex := stream.nextIndex,
                                     nextIndex := stream.nextIndex + 1 }
  let stream ← get
  yield (blockStart stream.textIndex (.obj [("type", .str "text"), ("text", .str "")]))

/-- `if not text_started: ...` -/
def ensureTextBlock : Code MessageStream Unit := do
  let stream ← get
  if stream.textStarted then pure () else openTextBlock

/-- `if text_started: ...` of a block that is closed. -/
def closeTextBlock : Code MessageStream Unit := do
  let stream ← get
  if stream.textStarted then do
    yield (blockStop stream.textIndex)
    modify fun stream => { stream with textStarted := false }
  else pure ()

/-- Send a text to the open block. -/
def yieldText (text : String) : Code MessageStream Unit := do
  let stream ← get
  if text ≠ "" then yield (blockDelta stream.textIndex (textDelta text)) else pure ()

/-- The branch for a text delta. -/
def messageTextDelta (event : Json) : Code MessageStream Flow := do
  ensureStarted model
  ensureTextBlock
  yieldText (textOf host (event.get "delta"))
  pure .next

/-- The text of the parts of a message item. -/
def fallbackText (content : List Json) : String :=
  String.join (content.map fun part =>
    match part with
    | .obj fields =>
      if textOf host ((Json.obj fields).get "type") ∈ ["output_text", "text"] then
        textOf host ((Json.obj fields).get "text")
      else ""
    | _ => "")

/-- A text that did not come in deltas. -/
def yieldFallback (text : String) : Code MessageStream Flow :=
  if text ≠ "" then do
    ensureStarted model
    openTextBlock
    yieldText text
    pure .next
  else pure .next

/-- The branch for a finished message item. -/
def messageItemDone (item : Json) : Code MessageStream Flow := do
  let stream ← get
  if stream.textStarted then pure .next
  else
    match item.get "content" with
    | some (.arr content) => yieldFallback model (fallbackText host content)
    | _ => raise (.protocol "Responses message output item must have a content array.")

/-- The events of a call in the block with the number `index`. -/
def yieldToolUse (index : Nat) (call : CanonicalToolCall) : Code MessageStream Unit := do
  yield (blockStart index (.obj [("type", .str "tool_use"), ("id", .str call.callId),
    ("name", .str call.name), ("input", .obj [])]))
  yield (blockDelta index (.obj [("type", .str "input_json_delta"),
    ("partial_json", .str call.arguments)]))
  yield (blockStop index)

/-- The branch for a finished call. -/
def callItemDone (item : Json) : Code MessageStream Flow := do
  ensureStarted model
  closeTextBlock
  let call ← ofExcept (messageToolCall host item)
  let stream ← get
  modify fun stream => { stream with nextIndex := stream.nextIndex + 1, sawTool := true }
  yieldToolUse stream.nextIndex call
  pure .next

/-- The branch for a finished item. -/
def messageEventItem (event : Json) : Code MessageStream Flow :=
  match event.get "item" with
  | some (.obj fields) =>
    let item := Json.obj fields
    if textOf host (item.get "type") = "message" then messageItemDone host model item
    else if textOf host (item.get "type") ∈ ["function_call", "custom_tool_call"] then
      callItemDone host model item
    else pure .next
  | _ => pure .next

/-- The branch for `response.completed`. -/
def messageCompleted (event : Json) : Code MessageStream Flow :=
  match (event.get "response").bind (Json.get "usage") with
  | some (.obj fields) => do
    modify fun stream =>
      { stream with inputTokens := count ((Json.obj fields).get "input_tokens")
                    outputTokens := count ((Json.obj fields).get "output_tokens") }
    pure .next
  | _ => pure .next

/-- The branch for `response.failed`. -/
def messageFailed (event : Json) : Code MessageStream Flow := do
  yield (.sse "error" (.obj [("type", .str "error"), ("error", .obj [("type", .str "api_error"),
    ("message", .str (failureMessage host event))])]))
  pure .stop

/-- The round of `responses_sse_to_messages` for one event. -/
def messageHandle (event : Json) : Code MessageStream Flow :=
  if eventType host event = "response.created" then do
    ensureStarted model
    pure .next
  else if eventType host event = "response.output_text.delta" then messageTextDelta host model event
  else if eventType host event = "response.output_item.done" then messageEventItem host model event
  else if eventType host event = "response.completed" then messageCompleted event
  else if eventType host event = "response.failed" then messageFailed host event
  else pure .next

/-- `if text_started: ...` at the end of the stream. -/
def stopOpenText : Code MessageStream Unit := do
  let stream ← get
  if stream.textStarted then yield (blockStop stream.textIndex) else pure ()

/-- The end of `responses_sse_to_messages`. -/
def finishMessages : Code MessageStream Unit := do
  ensureStarted model
  stopOpenText
  let stream ← get
  yield (.sse "message_delta" (.obj [("type", .str "message_delta"),
    ("delta", .obj [("stop_reason", .str (if stream.sawTool then "tool_use" else "end_turn")),
      ("stop_sequence", .null)]),
    ("usage", .obj [("output_tokens", .nat stream.outputTokens)])]))
  yield (.sse "message_stop" (.obj [("type", .str "message_stop")]))

/-- `responses_sse_to_messages` on the chunks of a source that may raise at its end. -/
def responsesSseToMessages (chunks : List (List UInt8) × Option Raised) :
    Code MessageStream Unit :=
  drain (readRound (messageHandle host model)) (finishMessages model) chunks

/-- The state the generator starts in. -/
def MessageStream.initial : MessageStream := { messageId := "msg_agentpark_" ++ host.uuid4 0 }

end

end AgentPark.Gateway
