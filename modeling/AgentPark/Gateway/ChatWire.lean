import AgentPark.Gateway.Emitter

/-!
# Chat Completions towards the client

A result goes to a Chat Completions client as one document, `canonicalResultToChat`, or as a stream
of chunks, `responsesSseToChat`, which a generator makes from the frames of a Responses stream.
-/

namespace AgentPark.Gateway

open Lib Generator

section

variable (host : Host)

/-! ### One document -/

/-- `json.dumps({"input": text}, ensure_ascii=False, separators=(",", ":"))` -/
def wrappedInput (text : String) : String :=
  String.ofList (dumpsCompact (.obj [("input", .str text)]))

/-- `_tool_call` -/
def chatToolCall (call : CanonicalToolCall) : Json :=
  let arguments := if call.kind = .custom then wrappedInput call.arguments else call.arguments
  .obj [("id", .str call.callId), ("type", .str "function"),
    ("function", .obj [("name", .str (call.wireName host)), ("arguments", .str arguments)])]

/-- `_completion_id`, with the identifier it may draw. -/
def completionId (drawn responseId : String) : String :=
  let value := pyStrip responseId
  if "chatcmpl-".toList <+: value.toList then value else "chatcmpl-agentpark-" ++ drawn

/-- The usage of a Chat answer. -/
def chatUsage (prompt completion : Nat) : Json :=
  .obj [("prompt_tokens", .nat prompt), ("completion_tokens", .nat completion),
    ("total_tokens", .nat (prompt + completion))]

/-- `canonical_result_to_chat` -/
def canonicalResultToChat (drawn : String) (time : Nat) (model : String)
    (result : CanonicalResult) : Json :=
  let content := if result.text ≠ "" then Json.str result.text else .null
  let toolCalls := if result.toolCalls ≠ [] then
    [("tool_calls", Json.arr (result.toolCalls.map (chatToolCall host)))] else []
  let finishReason := if result.toolCalls ≠ [] then "tool_calls" else "stop"
  .obj [("id", .str (completionId drawn result.responseId)), ("object", .str "chat.completion"),
    ("created", .nat time), ("model", .str model),
    ("choices", .arr [.obj [("index", .nat 0),
      ("message", .obj ([("role", .str "assistant"), ("content", content)] ++ toolCalls)),
      ("finish_reason", .str finishReason)]]),
    ("usage", chatUsage result.inputTokens result.outputTokens)]

/-! ### A stream -/

/-- `_item_tool_call`: the identifier and the function of a finished call. -/
def itemToolCall (item : Json) : Except Raised (String × Json) :=
  let callId := pyStrip (Json.strOr host.repr (textOf host (item.get "id")) (item.get "call_id"))
  let name := pyStrip (textOf host (item.get "name"))
  if callId = "" ∨ name = "" then
    .error (.protocol "Responses tool call requires call_id and name.")
  else
    let arguments :=
      if textOf host (item.get "type") = "custom_tool_call" then
        wrappedInput (textOf host (item.get "input"))
      else Json.strOr host.repr "{}" (item.get "arguments")
    .ok (callId, .obj [("name", .str name), ("arguments", .str arguments)])

/-- The state of `responses_sse_to_chat`. -/
structure ChatStream where
  completionId : String
  started : Bool := false
  sawTool : Bool := false
  toolIndex : Nat := 0
  usage : Option Json := none
  /-- The number of identifiers drawn so far. -/
  drawn : Nat
deriving DecidableEq

variable (time : Nat) (model : String)

/-- The payload of a chunk: the usage goes with the one that has a finish reason. -/
def chatPayload (stream : ChatStream) (delta finishReason : Json) : Json :=
  let usage := if finishReason ≠ .null then stream.usage.toList.map fun u => ("usage", u) else []
  .obj ([("id", .str stream.completionId), ("object", .str "chat.completion.chunk"),
    ("created", .nat time), ("model", .str model),
    ("choices", .arr [.obj [("index", .nat 0), ("delta", delta), ("finish_reason", finishReason)]])]
    ++ usage)

/-- `frame` -/
def chatFrame (stream : ChatStream) (delta : Json) (finishReason : Json := .null) : Frame :=
  .data (chatPayload time model stream delta finishReason)

/-- The delta of the first chunk. -/
def firstDelta : Json := .obj [("role", .str "assistant"), ("content", .str "")]

def callDelta (index : Nat) (callId : String) (function : Json) : Json :=
  .obj [("tool_calls", .arr [.obj [("index", .nat index), ("id", .str callId),
    ("type", .str "function"), ("function", function)]])]

/-- `yield frame(delta)` -/
def yieldDelta (delta : Json) : Code ChatStream Unit := do
  let stream ← get
  yield (chatFrame time model stream delta)

/-- `if not started: started = True; yield frame(...)` -/
def startChat : Code ChatStream Unit := do
  let stream ← get
  if stream.started then pure ()
  else do
    modify fun stream => { stream with started := true }
    yieldDelta time model firstDelta

/-- The branch for `response.created`. -/
def chatCreated (event : Json) : Code ChatStream Flow := do
  let responseId := textOf host ((event.get "response").bind (Json.get "id"))
  if responseId ≠ "" then
    modify fun stream =>
      { stream with completionId := completionId (host.uuid4 stream.drawn) responseId
                    drawn := stream.drawn + 1 }
    startChat time model
    pure .next
  else do
    startChat time model
    pure .next

/-- The branch for a finished item. -/
def chatItemDone (event : Json) : Code ChatStream Flow :=
  match event.get "item" with
  | some (.obj fields) =>
    if textOf host ((Json.obj fields).get "type") ∈ ["function_call", "custom_tool_call"] then do
      let call ← ofExcept (itemToolCall host (.obj fields))
      modify fun stream => { stream with sawTool := true }
      let stream ← get
      yieldDelta time model (callDelta stream.toolIndex call.1 call.2)
      modify fun stream => { stream with toolIndex := stream.toolIndex + 1 }
      pure .next
    else pure .next
  | _ => pure .next

/-- The branch for `response.completed`. -/
def chatCompleted (event : Json) : Code ChatStream Flow :=
  match (event.get "response").bind (Json.get "usage") with
  | some (.obj fields) => do
    let usage := chatUsage (count ((Json.obj fields).get "input_tokens"))
      (count ((Json.obj fields).get "output_tokens"))
    modify fun stream => { stream with usage := some usage }
    pure .next
  | _ => pure .next

/-- The branch for `response.failed`. -/
def chatFailed (event : Json) : Code ChatStream Flow := do
  yield (.data (.obj [("error", .obj [("message", .str (failureMessage host event)),
    ("type", .str "agentpark_gateway_error")])]))
  yield .done
  pure .stop

/-- The branches after the first chunk. -/
def chatEvent (event : Json) : Code ChatStream Flow :=
  if eventType host event = "response.output_text.delta" then
    let delta := textOf host (event.get "delta")
    if delta ≠ "" then do
      yieldDelta time model (.obj [("content", .str delta)])
      pure .next
    else pure .next
  else if eventType host event = "response.output_item.done" then chatItemDone host time model event
  else if eventType host event = "response.completed" then chatCompleted event
  else if eventType host event = "response.failed" then chatFailed host event
  else pure .next

/-- The round of `responses_sse_to_chat` for one event. -/
def chatHandle (event : Json) : Code ChatStream Flow :=
  if eventType host event = "response.created" then chatCreated host time model event
  else do
    startChat time model
    chatEvent host time model event

/-- The end of `responses_sse_to_chat`. -/
def finishChat : Code ChatStream Unit := do
  startChat time model
  let stream ← get
  yield (chatFrame time model stream (.obj [])
    (.str (if stream.sawTool then "tool_calls" else "stop")))
  yield .done

/-- `responses_sse_to_chat` on the chunks of a source that may raise at its end. -/
def responsesSseToChat (chunks : List (List UInt8) × Option Raised) : Code ChatStream Unit :=
  drain (readRound (chatHandle host time model)) (finishChat time model) chunks

/-- The state the generator starts in. -/
def ChatStream.initial : ChatStream :=
  { completionId := "chatcmpl-agentpark-" ++ host.uuid4 0, drawn := 1 }

end

end AgentPark.Gateway
