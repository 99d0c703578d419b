import AgentPark.Gateway.Contracts

/-!
# Chat Completions requests

`chatRequestToCanonical` takes the body of a Chat Completions request to the canonical form, or
refuses it.
-/

namespace AgentPark.Gateway

open Lib

section

variable (host : Host)

/-- `_required_text` -/
def chatRequiredText (payload : Json) (key owner : String) : Except Raised String :=
  requiredText host "Chat Completions" payload key owner

/-- `_array` -/
def chatArray (raw : Option Json) (fieldName : String) : Except Raised (List Json) :=
  arrayOf "Chat Completions" raw fieldName

/-- The schema of a tool without parameters. -/
def emptyParameters : Json := .obj [("type", .str "object"), ("properties", .obj [])]

/-- `_tool` -/
def chatTool (raw : Json) : Except Raised CanonicalTool := do
  let .obj _ := raw
    | .error (.protocol "Chat Completions supports only function tools.")
  if textOf host (raw.get "type") ≠ "function" then
    .error (.protocol "Chat Completions supports only function tools.")
  else
    let some (.obj fields) := raw.get "function"
      | .error (.protocol "Chat Completions function tool requires a function object.")
    let function := Json.obj fields
    let .obj parameters := (function.get "parameters").getD emptyParameters
      | .error (.protocol "Chat Completions function parameters must be an object.")
    let name ← chatRequiredText host function "name" "function tool"
    pure { name, description := textOf host (function.get "description"),
           inputSchema := .obj parameters }

/-- The round of `_tool_calls` for one call. -/
def chatToolCallOf (item : Json) : Except Raised CanonicalToolCall := do
  let .obj _ := item
    | .error (.protocol "Chat Completions supports only function tool calls.")
  if Json.strOr host.repr "function" (item.get "type") ≠ "function" then
    .error (.protocol "Chat Completions supports only function tool calls.")
  else
    let some (.obj fields) := item.get "function"
      | .error (.protocol "Chat Completions tool call requires a function object.")
    let function := Json.obj fields
    let callId ← chatRequiredText host item "id" "tool call"
    let name ← chatRequiredText host function "name" "tool call function"
    let some (.str arguments) := function.get "arguments"
      | .error (.protocol "Chat Completions tool call arguments must be a JSON string.")
    match loads arguments.toList with
    | none =>
      .error (.protocol
        ("Chat Completions tool call " ++ quoted host name ++ " arguments are invalid JSON."))
    | some (.obj _) => pure { callId, name, arguments }
    | some _ =>
      .error (.protocol
        ("Chat Completions tool call " ++ quoted host name ++ " arguments must decode to an object."))

/-- `_tool_calls`, which also notes the name of every call. -/
def chatToolCalls (raw : Option Json) (callNames : List (String × String)) :
    Except Raised (List CanonicalToolCall × List (String × String)) := do
  let items ← chatArray raw "tool_calls"
  let calls ← items.mapM (chatToolCallOf host)
  pure (calls, calls.foldl (fun names call => dictSet names call.callId call.name) callNames)

/-- The round of `_content` for one part. -/
def chatPart (item : Json) : Except Raised Json := do
  let .obj _ := item
    | .error (.protocol "Chat Completions content parts must be objects.")
  let itemType := textOf host (item.get "type")
  if itemType ∈ ["text", "input_text"] then
    pure (.obj [("type", .str "text"), ("text", .str (textOf host (item.get "text")))])
  else if itemType ∈ ["image_url", "input_image"] then
    let imageUrl := match item.get "image_url" with
      | some (.str url) => some (Json.obj [("url", .str url)])
      | other => other
    match imageUrl with
    | some (.obj fields) =>
      if pyStrip (textOf host ((Json.obj fields).get "url")) = "" then
        .error (.protocol "Chat Completions image_url content requires a URL.")
      else pure (.obj [("type", .str "image_url"), ("image_url", .obj fields)])
    | _ => .error (.protocol "Chat Completions image_url content requires a URL.")
  else
    .error (.protocol ("Unsupported Chat Completions content part: " ++ orEmpty itemType ++ "."))

/-- `_content` -/
def chatContent (raw : Option Json) : Except Raised Content :=
  match raw with
  | none | some .null => .ok (.text "")
  | some (.str text) => .ok (.text text)
  | some (.arr items) => (items.mapM (chatPart host)).map .parts
  | some _ =>
    .error (.protocol "Chat Completions message content must be a string, array, or null.")

/-- `_tool_choice` -/
def chatToolChoice (raw : Option Json) : Except Raised Json :=
  match raw with
  | none | some .null => .ok (.str "auto")
  | some (.str word) =>
    if word ∈ ["auto", "none", "required"] then .ok (.str word)
    else .error (.protocol
      "Chat Completions tool_choice must be auto, none, required, or a function.")
  | some choice =>
    if choice.get "type" |> textOf host |> (· ≠ "function") then
      .error (.protocol
        "Chat Completions tool_choice must be auto, none, required, or a function.")
    else
      match choice.get "function" with
      | some (.obj fields) =>
        (chatRequiredText host (.obj fields) "name" "tool_choice function").map fun name =>
          .obj [("type", .str "function"), ("name", .str name)]
      | _ => .error (.protocol "Chat Completions function tool_choice requires a function object.")

/-- The roles of a Chat Completions message. -/
def chatRole (role : String) : Except Raised Role :=
  if role = "system" ∨ role = "developer" then .ok .system
  else if role = "user" then .ok .user
  else if role = "assistant" then .ok .assistant
  else if role = "tool" then .ok .tool
  else .error (.protocol ("Unsupported Chat Completions role: " ++ orEmpty role ++ "."))

/-- The round of `chat_request_to_canonical` for one message. -/
def chatMessage (callNames : List (String × String)) (raw : Json) :
    Except Raised (CanonicalMessage × List (String × String)) := do
  let .obj _ := raw
    | .error (.protocol "Every Chat Completions message must be an object.")
  let role ← chatRole (pyStrip (textOf host (raw.get "role")))
  if role = .tool then
    let callId ← chatRequiredText host raw "tool_call_id" "tool message"
    let content ← chatContent host (raw.get "content")
    pure ({ role, content, toolCallId := callId, toolName := (callNames.lookup callId).getD "" },
      callNames)
  else
    let (calls, callNames) ← chatToolCalls host (raw.get "tool_calls") callNames
    let content ← chatContent host (raw.get "content")
    pure ({ role, content, toolCalls := calls }, callNames)

/-- The messages of a request, one after the other. -/
def chatMessages : List Json → List (String × String) → Except Raised (List CanonicalMessage)
  | [], _ => .ok []
  | raw :: rest, callNames => do
    let (message, callNames) ← chatMessage host callNames raw
    let messages ← chatMessages rest callNames
    pure (message :: messages)

/-- The tools of a request, whose names may not repeat. -/
def chatTools (payload : Json) : Except Raised (List CanonicalTool) := do
  let items ← chatArray (payload.get "tools") "tools"
  let tools ← items.mapM (chatTool host)
  if (tools.map CanonicalTool.name).Nodup then pure tools
  else .error (.protocol "Chat Completions tools contain duplicate names.")

/-- `chat_request_to_canonical` -/
def chatRequestToCanonical (payload : Json) (model : String) : Except Raised CanonicalRequest := do
  let .obj _ := payload
    | .error (.protocol "Chat Completions request body must be a JSON object.")
  let tools ← chatTools host payload
  let items ← chatArray (payload.get "messages") "messages"
  let messages ← chatMessages host items []
  if ∀ message ∈ messages, message.role = .system then
    .error (.protocol "Chat Completions request contains no conversational input.")
  else
    let maxOutputTokens ← maxTokens "Chat Completions" "max tokens"
      ((payload.get "max_completion_tokens").or (payload.get "max_tokens"))
    let toolChoice ← chatToolChoice host (payload.get "tool_choice")
    pure { model := pyStrip (if model ≠ "" then model else textOf host (payload.get "model"))
           messages
           tools
           stream := ((payload.get "stream").map Json.truthy).getD false
           toolChoice
           parallelToolCalls := ((payload.get "parallel_tool_calls").map Json.truthy).getD true
           reasoningEffort := pyStrip (textOf host (payload.get "reasoning_effort"))
           maxOutputTokens }

end

end AgentPark.Gateway
