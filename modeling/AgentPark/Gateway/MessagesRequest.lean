import AgentPark.Gateway.Contracts

/-!
# Claude Messages requests

`messagesRequestToCanonical` takes the body of a Claude Messages request to the canonical form, or
refuses it.  A turn becomes one message for its texts, images and calls, and one for each tool
result; the part before a tool result is flushed first.
-/

namespace AgentPark.Gateway

open Lib

section

variable (host : Host)

/-- `_required_text` -/
def messagesRequiredText (payload : Json) (key owner : String) : Except Raised String :=
  requiredText host "Claude Messages" payload key owner

/-- `_array` -/
def messagesArray (raw : Option Json) (fieldName : String) : Except Raised (List Json) :=
  arrayOf "Claude Messages" raw fieldName

/-- `_tool` -/
def messagesTool (raw : Json) : Except Raised CanonicalTool := do
  let .obj _ := raw
    | .error (.protocol "Every Claude Messages tool must be an object.")
  let some (.obj schema) := raw.get "input_schema"
    | .error (.protocol "Claude Messages tool input_schema must be an object.")
  let name ← messagesRequiredText host raw "name" "tool"
  pure { name, description := textOf host (raw.get "description"), inputSchema := .obj schema }

/-- The tools of a request, whose wire names may not repeat. -/
def messagesTools (payload : Json) : Except Raised (List CanonicalTool) := do
  let items ← messagesArray (payload.get "tools") "tools"
  let tools ← items.mapM (messagesTool host)
  if (tools.map (CanonicalTool.wireName host)).Nodup then pure tools
  else .error (.protocol "Claude Messages tools contain duplicate names.")

/-- The text of a block of a system prompt. -/
def systemBlock (block : Json) : Except Raised String :=
  match block with
  | .obj _ =>
    if textOf host (block.get "type") = "text" then .ok (textOf host (block.get "text"))
    else .error (.protocol "Claude Messages system supports only text blocks.")
  | _ => .error (.protocol "Claude Messages system supports only text blocks.")

/-- `_system_text` -/
def systemText (raw : Option Json) : Except Raised String :=
  match raw with
  | none | some .null => .ok ""
  | some (.str text) => .ok text
  | some raw => do
    let blocks ← messagesArray (some raw) "system"
    let texts ← blocks.mapM (systemBlock host)
    pure ("\n\n".intercalate texts)

/-- `_image_part` -/
def imagePart (block : Json) : Except Raised Json := do
  let some (.obj fields) := block.get "source"
    | .error (.protocol "Claude image block requires a source object.")
  let source := Json.obj fields
  let sourceType := textOf host (source.get "type")
  if sourceType = "url" then
    let url ← messagesRequiredText host source "url" "image source"
    pure (.obj [("type", .str "image_url"), ("image_url", .obj [("url", .str url)])])
  else if sourceType = "base64" then
    let mediaType ← messagesRequiredText host source "media_type" "image source"
    let data ← messagesRequiredText host source "data" "image source"
    pure (.obj [("type", .str "image_url"),
      ("image_url", .obj [("url", .str ("data:" ++ mediaType ++ ";base64," ++ data))])])
  else .error (.protocol ("Unsupported Claude image source: " ++ orEmpty sourceType ++ "."))

/-- The text of an item of a tool result. -/
def toolResultItem (item : Json) : String :=
  match item with
  | .obj _ =>
    if textOf host (item.get "type") = "text" then textOf host (item.get "text")
    else String.ofList (dumpsCompact item)
  | _ => String.ofList (dumpsCompact item)

/-- `_tool_result_text` -/
def toolResultText (raw : Option Json) : Except Raised String :=
  match raw with
  | none | some .null => .ok ""
  | some (.str text) => .ok text
  | some raw => (messagesArray (some raw) "tool_result content").map fun items =>
    "\n".intercalate (items.map (toolResultItem host))

/-- What `_append_message` has collected of a turn: the messages so far, the parts and calls that
are not flushed yet, and the name of every call of the request. -/
structure Turn where
  output : List CanonicalMessage
  contentParts : List Json := []
  toolCalls : List CanonicalToolCall := []
  callNames : List (String × String)
deriving DecidableEq

/-- `flush_text_and_calls` -/
def Turn.flush (turn : Turn) (role : Role) : Turn :=
  if turn.contentParts = [] ∧ turn.toolCalls = [] then turn
  else
    let content :=
      if ∀ part ∈ turn.contentParts, textOf host (part.get "type") = "text" then
        Content.text (String.join (turn.contentParts.map fun part => textOf host (part.get "text")))
      else .parts turn.contentParts
    { turn with output := turn.output ++ [{ role, content, toolCalls := turn.toolCalls }]
                contentParts := [], toolCalls := [] }

/-- A call of an assistant turn. -/
def toolUseCall (block : Json) : Except Raised CanonicalToolCall := do
  let callId ← messagesRequiredText host block "id" "tool_use"
  let name ← messagesRequiredText host block "name" "tool_use"
  let some (.obj input) := block.get "input"
    | .error (.protocol "Claude tool_use input must be an object.")
  pure { callId, name, arguments := String.ofList (dumpsCompact (.obj input)) }

/-- A tool result of a user turn. -/
def toolResultMessage (callNames : List (String × String)) (block : Json) :
    Except Raised CanonicalMessage := do
  let callId ← messagesRequiredText host block "tool_use_id" "tool_result"
  let text ← toolResultText host (block.get "content")
  pure { role := .tool, content := .text text, toolCallId := callId,
         toolName := (callNames.lookup callId).getD "" }

/-- The round of `_append_message` for one block of a turn of a user or an assistant. -/
def turnBlock (role : Role) (turn : Turn) (block : Json) : Except Raised Turn := do
  let .obj _ := block
    | .error (.protocol "Claude Messages content blocks must be objects.")
  let blockType := pyStrip (textOf host (block.get "type"))
  if blockType = "text" then
    let part := Json.obj [("type", .str "text"), ("text", .str (textOf host (block.get "text")))]
    pure { turn with contentParts := turn.contentParts ++ [part] }
  else if blockType ∈ ["thinking", "redacted_thinking"] then pure turn
  else if role = .assistant ∧ blockType = "tool_use" then
    let call ← toolUseCall host block
    pure { turn with toolCalls := turn.toolCalls ++ [call]
                     callNames := dictSet turn.callNames call.callId call.name }
  else if role = .user ∧ blockType = "tool_result" then
    let flushed := turn.flush host role
    let message ← toolResultMessage host flushed.callNames block
    pure { flushed with output := flushed.output ++ [message] }
  else if blockType = "image" then
    let part ← imagePart host block
    pure { turn with contentParts := turn.contentParts ++ [part] }
  else
    .error (.protocol ("Unsupported Claude Messages " ++
      (if role = .assistant then "assistant" else "user") ++ " content block: " ++
      orEmpty blockType ++ "."))

def turnBlocks (rawContent : Option Json) : Except Raised (List Json) :=
  match rawContent with
  | some (.str text) => .ok [.obj [("type", .str "text"), ("text", .str text)]]
  | raw => messagesArray raw "content"

/-- `_append_message`, which also notes the name of every call. -/
def appendMessage (role : Role) (rawContent : Option Json) (output : List CanonicalMessage)
    (callNames : List (String × String)) :
    Except Raised (List CanonicalMessage × List (String × String)) := do
  let blocks ← turnBlocks rawContent
  let turn ← blocks.foldlM (turnBlock host role) { output, callNames }
  let flushed := turn.flush host role
  pure (flushed.output, flushed.callNames)

/-- The roles of a Claude Messages message. -/
def messagesRole (role : String) : Except Raised Role :=
  if role = "system" then .ok .system
  else if role = "user" then .ok .user
  else if role = "assistant" then .ok .assistant
  else .error (.protocol ("Unsupported Claude Messages role: " ++ orEmpty role ++ "."))

/-- A system message, if it has a text. -/
def systemMessage (text : String) : List CanonicalMessage :=
  if text ≠ "" then [{ role := .system, content := .text text }] else []

/-- The round of `messages_request_to_canonical` for one message. -/
def messagesMessage (output : List CanonicalMessage) (callNames : List (String × String))
    (raw : Json) : Except Raised (List CanonicalMessage × List (String × String)) := do
  let .obj _ := raw
    | .error (.protocol "Every Claude Messages message must be an object.")
  let role ← messagesRole (pyStrip (textOf host (raw.get "role")))
  if role = .system then
    let text ← systemText host (raw.get "content")
    pure (output ++ systemMessage text, callNames)
  else appendMessage host role (raw.get "content") output callNames

/-- The messages of a request, one after the other. -/
def messagesMessages : List Json → List CanonicalMessage → List (String × String) →
    Except Raised (List CanonicalMessage)
  | [], output, _ => .ok output
  | raw :: rest, output, callNames => do
    let (output, callNames) ← messagesMessage host output callNames raw
    messagesMessages rest output callNames

/-- `_tool_choice` -/
def messagesToolChoice (raw : Option Json) : Except Raised Json :=
  match raw with
  | none | some .null => .ok (.str "auto")
  | some (.obj fields) =>
    let choice := Json.obj fields
    let choiceType := pyStrip (textOf host (choice.get "type"))
    if choiceType = "auto" then .ok (.str "auto")
    else if choiceType = "none" then .ok (.str "none")
    else if choiceType = "any" then .ok (.str "required")
    else if choiceType = "tool" then
      (messagesRequiredText host choice "name" "tool_choice").map fun name =>
        .obj [("type", .str "function"), ("name", .str name)]
    else .error (.protocol
      ("Unsupported Claude Messages tool_choice: " ++ orEmpty choiceType ++ "."))
  | some _ => .error (.protocol "Claude Messages tool_choice must be an object.")

/-- `_parallel_tool_calls` -/
def messagesParallelToolCalls (raw : Option Json) : Bool :=
  match raw with
  | some (.obj fields) =>
    !(((Json.obj fields).get "disable_parallel_tool_use").map Json.truthy).getD false
  | _ => true

/-- `_reasoning_effort` -/
def messagesReasoningEffort (payload : Json) : String :=
  let effort := pyStrip (textOf host ((payload.get "output_config").bind (Json.get "effort")))
  if effort ∈ ["low", "medium", "high", "xhigh", "max"] then effort else ""

/-- `messages_request_to_canonical` -/
def messagesRequestToCanonical (payload : Json) (model : String) :
    Except Raised CanonicalRequest := do
  let .obj _ := payload
    | .error (.protocol "Claude Messages request body must be a JSON object.")
  let tools ← messagesTools host payload
  let system ← systemText host (payload.get "system")
  let items ← messagesArray (payload.get "messages") "messages"
  let messages ← messagesMessages host items (systemMessage system) []
  if ∀ message ∈ messages, message.role = .system then
    .error (.protocol "Claude Messages request contains no conversational input.")
  else
    let maxOutputTokens ← maxTokens "Claude Messages" "max_tokens" (payload.get "max_tokens")
    let toolChoice ← messagesToolChoice host (payload.get "tool_choice")
    pure { model := pyStrip (if model ≠ "" then model else textOf host (payload.get "model"))
           messages
           tools
           stream := ((payload.get "stream").map Json.truthy).getD false
           toolChoice
           parallelToolCalls := messagesParallelToolCalls (payload.get "tool_choice")
           reasoningEffort := messagesReasoningEffort host payload
           maxOutputTokens }

end

end AgentPark.Gateway
