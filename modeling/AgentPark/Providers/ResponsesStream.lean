import AgentPark.Lib.JsonText
import AgentPark.Lib.PyInt
import AgentPark.Providers.ToolTurns
import Mathlib.Data.List.Infix

/-!
# The events of a Responses stream

`OpenAIResponsesStreamEventNormalizer` reads the events of a Responses stream one by one and gives
events of a smaller vocabulary.  It keeps the arguments of the function calls it has seen, by the
identifiers they were named with, and the texts of reasoning and refusals, by their segment.
-/

namespace AgentPark.Providers

open Lib

/-- What the code calls and does not define: the text of a list or a dictionary, and the integer part of
a float. -/
structure Builtins where
  repr : Json → String
  floatInt : Number → Option Int

/-- For values without lists, dictionaries and floats. -/
def plainBuiltins : Builtins := ⟨fun _ => "", fun _ => none⟩

/-! ### What the normalizer gives -/

/-- `ResponsesFunctionCallStreamItem` -/
structure FunctionCallItem where
  id : String
  callId : String
  name : String
  arguments : String
  status : String := ""
deriving DecidableEq

/-- `to_response_item` -/
def FunctionCallItem.toResponseItem (call : FunctionCallItem) : Json :=
  .obj ([("type", .str "function_call"), ("id", .str call.id), ("call_id", .str call.callId),
      ("name", .str call.name), ("arguments", .str call.arguments)] ++
    if call.status ≠ "" then [("status", .str call.status)] else [])

/-- `ResponsesStreamFailure` -/
structure StreamFailure where
  message : String
  code : String
  provider : String
  eventType : String
  statusCode : Int
  details : List (String × Json)
deriving DecidableEq

/-- `ResponsesStreamEvent` -/
inductive StreamEvent where
  | failure (failure : StreamFailure)
  | queued (responseId : String) (response : Json)
  | created (responseId : String) (response : Json)
  | inProgress (responseId : String) (response : Json)
  | outputItemAdded (itemId : String) (outputIndex : Option Int) (itemType : String) (item : Json)
      (functionCall : Option FunctionCallItem)
  | outputTextDelta (delta itemId : String) (outputIndex contentIndex : Option Int)
  | refusalDelta (delta text itemId : String) (outputIndex contentIndex : Option Int)
      (provider status : String)
  | reasoningDelta (delta itemId : String) (outputIndex contentIndex : Option Int)
      (provider rawEventType : String)
  | functionCallArgumentsDelta (itemId callId delta arguments : String)
  | serverToolActivity (itemId : String) (outputIndex : Option Int) (itemType status : String)
      (item : Json)
  | outputItemDone (itemId : String) (outputIndex : Option Int) (itemType : String) (item : Json)
      (functionCall : Option FunctionCallItem)
  | completed (responseId : String) (response : Json)
  | incomplete (responseId reason : String) (response : Json)
deriving DecidableEq

/-! ### What the normalizer keeps -/

/-- The record of a function call. -/
structure Bucket where
  id : String := ""
  callId : String := ""
  name : String := ""
  arguments : String := ""
  argumentsSeen : Bool := false
  status : String := ""
deriving DecidableEq

/-- The key of a text: what names the item, and the index of the part. -/
structure SegmentKey where
  item : String
  index : Int
deriving DecidableEq

/-- `OpenAIResponsesStreamEventNormalizer` -/
structure Normalizer where
  provider : String := "openai_responses"
  functionCallBuckets : List (String × Bucket) := []
  functionCallKeysById : List (String × String) := []
  reasoningTextBySegment : List (SegmentKey × String) := []
  refusalTextBySegment : List (SegmentKey × String) := []
deriving DecidableEq

/-! ### Reading fields -/

section

variable (host : Builtins)

/-- `str(event.get(key) or "").strip()` -/
def fieldText (event : Json) (key : String) : String := strippedText host.repr event key

/-- `str(first or second or "").strip()` -/
def eitherText (first second : Option Json) : String :=
  pyStrip (match first with
    | some v => if v.truthy then v.pyStr host.repr else Json.strOr host.repr "" second
    | none => Json.strOr host.repr "" second)

/-- `_int_or_none` -/
def intOrNone : Option Json → Option Int
  | none => none
  | some v => if v = .null ∨ v = .str "" then none else v.pyInt host.floatInt

/-- An optional number as a value. -/
def optionalInt (value : Option Int) : Json := (value.map Json.int).getD .null

/-- The value of a field that is a dictionary. -/
def dictField (event : Json) (key : String) : Option Json :=
  match event.get key with
  | some (.obj fields) => some (.obj fields)
  | _ => none

/-- The value of a field that is a text. -/
def textField (event : Json) (key : String) : Option String :=
  match event.get key with
  | some (.str text) => some text
  | _ => none

/-- `text.endswith(suffix)` -/
def endsWith (text suffix : String) : Bool := suffix.toList.isSuffixOf text.toList

/-- `part in text` -/
def contains (text part : String) : Bool := decide (part.toList <:+: text.toList)

/-- `type(value).__name__` -/
def typeName : Json → String
  | .null => "NoneType"
  | .bool _ => "bool"
  | .num n => if n.isInteger then "int" else "float"
  | .str _ => "str"
  | .arr _ => "list"
  | .obj _ => "dict"

/-- `_item_type` -/
def itemType (item : Json) : String := pyLower (fieldText host item "type")

/-! ### Kinds of events -/

/-- What `ingest_event` does with an event. -/
inductive EventKind where
  | queued
  | created
  | inProgress
  | outputItemAdded
  | outputTextDelta
  | refusal
  | reasoning
  | functionCallArgumentsDelta
  | functionCallArgumentsDone
  | serverTool (itemType status : String)
  | outputItemDone
  | completed
  | incomplete
  | failed
  | other
deriving DecidableEq

/-- `is_server_tool_item_type` -/
def isServerToolItemType (value : String) : Bool :=
  let itemType := pyLower (pyStrip value)
  endsWith itemType "_call" && itemType ≠ "function_call"

/-- `text.rsplit(".", 1)`, when it has two parts. -/
def rsplitDot (text : String) : Option (String × String) :=
  let (phase, rest) := text.toList.reverse.span (· ≠ '.')
  match rest with
  | [] => none
  | _ :: before => some (String.ofList before.reverse, String.ofList phase.reverse)

/-- `text.removeprefix("response.")` -/
def removeResponsePrefix (text : String) : String :=
  if "response.".toList.isPrefixOf text.toList then String.ofList (text.toList.drop 9) else text

/-- `status_by_phase` -/
def statusByPhase : List (String × String) :=
  [("queued", "queued"), ("in_progress", "in_progress"), ("searching", "in_progress"),
    ("generating", "in_progress"), ("partial_image", "in_progress"), ("completed", "completed"),
    ("failed", "failed")]

/-- The part of `_server_tool_activity` that looks at the type: the type of the item, and its status. -/
def serverToolPhase (eventType : String) : Option (String × String) := do
  let (itemType, phase) ← rsplitDot (removeResponsePrefix eventType)
  if isServerToolItemType itemType then
    let status ← statusByPhase.lookup phase
    pure (itemType, status)
  else none

/-- The comparisons of `ingest_event`, in their order. -/
def eventKind (eventType : String) : EventKind :=
  if eventType = "response.queued" then .queued
  else if eventType = "response.created" then .created
  else if eventType = "response.in_progress" then .inProgress
  else if eventType ∈ ["response.output_item.added", "output_item.added"] then .outputItemAdded
  else if eventType ∈ ["response.output_text.delta", "output_text.delta"] then .outputTextDelta
  else if eventType ∈
      ["response.refusal.delta", "refusal.delta", "response.refusal.done", "refusal.done"] then .refusal
  else if contains eventType "reasoning" || contains eventType "thinking" then .reasoning
  else if eventType ∈
      ["response.function_call_arguments.delta", "function_call_arguments.delta"] then
    .functionCallArgumentsDelta
  else if eventType ∈
      ["response.function_call_arguments.done", "function_call_arguments.done"] then
    .functionCallArgumentsDone
  else match serverToolPhase eventType with
    | some (itemType, status) => .serverTool itemType status
    | none =>
      if eventType ∈ ["response.output_item.done", "output_item.done"] then .outputItemDone
      else if eventType ∈ ["response.completed", "response.done"] then .completed
      else if eventType = "response.incomplete" then .incomplete
      else if eventType ∈ ["response.failed", "response.error", "error"] then .failed
      else .other

/-- `raw_type` -/
def rawType (event : Json) : String := fieldText host event "type"

def kindOf (event : Json) : EventKind := eventKind (pyLower (rawType host event))

/-! ### Failures -/

namespace Normalizer

/-- `_failure` -/
def failure (n : Normalizer) (message code eventType : String) (statusCode : Int)
    (details : List (String × Json)) : StreamEvent :=
  .failure {
    message := pyStrip message
    code := pyStrip (if code = "" then "responses_stream_error" else code)
    provider := n.provider
    eventType := pyStrip eventType
    statusCode := statusCode
    details := details }

/-- `_status_code_from_error` -/
def statusCodeFromError (error : List (String × Json)) : Int :=
  let read := ["status_code", "status", "http_status", "http_status_code"].filterMap fun key =>
    intOrNone host (error.lookup key)
  match read with
  | parsed :: _ => parsed
  | [] =>
    let code := pyLower (eitherText host (error.lookup "code") (error.lookup "type"))
    if code ∈ ["rate_limit_exceeded", "rate_limit_error"] then 429
    else if code ∈ ["server_error", "service_unavailable", "temporarily_unavailable"] ∨
        code ∈ ["server_is_overloaded", "slow_down"] then 503
    else 0

/-- The error of a failed response, with the fields of the event it lacks. -/
def errorObject (event : Json) : List (String × Json) :=
  let response := (dictField event "response").getD (.obj [])
  let error := match dictField response "error" with
    | some error => some error
    | none => event.get "error"
  let fields := match error with
    | some (.obj fields) => fields
    | _ => []
  ["code", "message", "param", "status_code", "status", "http_status", "http_status_code"].foldl
    (fun fields key => match fields.lookup key, event.get key with
      | none, some value => if value = .null then fields else dictSet fields key value
      | _, _ => fields) fields

/-- `_provider_failure` -/
def providerFailure (n : Normalizer) (event : Json) (rawType : String) : StreamEvent :=
  let response := (dictField event "response").getD (.obj [])
  let error := errorObject event
  let code := match error.lookup "code", error.lookup "type" with
    | some code, type =>
      if code.truthy then pyStrip (code.pyStr host.repr)
      else pyStrip (Json.strOr host.repr "provider_response_failed" type)
    | none, type => pyStrip (Json.strOr host.repr "provider_response_failed" type)
  let errorMessage := pyStrip (Json.strOr host.repr "" (error.lookup "message"))
  let message := if code ≠ "" ∧ errorMessage ≠ "" then code ++ ": " ++ errorMessage else errorMessage
  let message :=
    if message ≠ "" then message
    else String.ofList (dumps (if error = [] then event else .obj error))
  let details : List (String × Json) :=
    [("param", ((error.lookup "param").or (event.get "param")).getD .null),
      ("sequence_number", (event.get "sequence_number").getD .null),
      ("response_id", (response.get "id").getD .null)].filter fun field =>
        field.2 ≠ .null ∧ field.2 ≠ .str ""
  n.failure message code rawType (statusCodeFromError host error) details

/-! ### Responses and items -/

/-- The identifier of a response. -/
def responseIdOf (event response : Json) : String :=
  eitherText host (response.get "id") (event.get "response_id")

/-- `_response_lifecycle_event` -/
def responseLifecycleEvent (n : Normalizer) (event : Json) (rawType status : String) : StreamEvent :=
  match dictField event "response" with
  | none =>
    n.failure ("Responses " ++ status ++ " event is missing response object")
      ("missing_" ++ status ++ "_response") rawType 0 []
  | some response =>
    if status = "queued" then .queued (responseIdOf host event response) response
    else .inProgress (responseIdOf host event response) response

/-- The branch of `ingest_event` for a completed response. -/
def responseCompleted (n : Normalizer) (event : Json) (rawType : String) : StreamEvent :=
  match dictField event "response" with
  | none =>
    n.failure "Responses completed event is missing response object" "missing_completed_response"
      rawType 0 []
  | some response =>
    let status := pyLower (fieldText host response "status")
    if status ≠ "" ∧ status ≠ "completed" then
      n.failure ("Responses completed event carries incompatible response status: " ++ status)
        "invalid_completed_response_status" rawType 0 []
    else .completed (responseIdOf host event response) response

/-- The branch of `ingest_event` for an incomplete response. -/
def responseIncomplete (n : Normalizer) (event : Json) (rawType : String) : StreamEvent :=
  match dictField event "response" with
  | none =>
    n.failure "Responses incomplete event is missing response object" "missing_incomplete_response"
      rawType 0 []
  | some response =>
    let status := pyLower (fieldText host response "status")
    if status ≠ "" ∧ status ≠ "incomplete" then
      n.failure ("Responses incomplete event carries incompatible response status: " ++ status)
        "invalid_incomplete_response_status" rawType 0 []
    else
      let details := (dictField response "incomplete_details").getD (.obj [])
      .incomplete (responseIdOf host event response) (fieldText host details "reason") response

/-- `_server_tool_activity`, for a type and a status. -/
def serverToolActivity (event : Json) (itemType status : String) : StreamEvent :=
  let itemId := eitherText host (event.get "item_id") (event.get "call_id")
  let item : List (String × Json) :=
    [("type", .str itemType), ("id", .str itemId), ("status", .str status)] ++
      (["query", "prompt", "result", "revised_prompt"].filterMap fun key =>
        match event.get key with
        | some value => if value = .null then none else some (key, value)
        | none => none) ++
      ((dictField event "action").map fun action => ("action", action)).toList ++
      ((intOrNone host (event.get "partial_image_index")).map fun index =>
        ("partial_image_index", Json.int index)).toList
  .serverToolActivity itemId (intOrNone host (event.get "output_index")) itemType status (.obj item)

/-- `_output_text_delta` -/
def outputTextDelta (n : Normalizer) (event : Json) (rawType : String) : StreamEvent :=
  match textField event "delta" with
  | none =>
    n.failure "Responses output_text.delta event requires string delta" "invalid_text_delta" rawType 0 []
  | some delta =>
    .outputTextDelta delta (fieldText host event "item_id")
      (intOrNone host (event.get "output_index")) (intOrNone host (event.get "content_index"))

/-! ### Function calls -/

/-- `first or second or …` for texts. -/
def firstText : List String → String
  | [] => ""
  | text :: texts => if text = "" then firstText texts else text

/-- The key of `_bucket_for_identity`. -/
def bucketKey (n : Normalizer) (itemId callId : String) : String :=
  firstText [(n.functionCallKeysById.lookup itemId).getD "",
    (n.functionCallKeysById.lookup callId).getD "", itemId, callId]

/-- An identifier is linked to a key, unless it is empty. -/
def linkId (keys : List (String × String)) (id key : String) : List (String × String) :=
  if id = "" then keys else dictSet keys id key

/-- `_bucket_for_identity`, with the change its caller makes to the bucket. -/
def updateBucket (n : Normalizer) (itemId callId : String) (change : Bucket → Bucket) : Normalizer :=
  let key := n.bucketKey itemId callId
  { n with
    functionCallBuckets :=
      dictSet n.functionCallBuckets key (change ((n.functionCallBuckets.lookup key).getD {}))
    functionCallKeysById := linkId (linkId n.functionCallKeysById itemId key) callId key }

/-- The bucket `_bucket_for_identity` returned, as it is now. -/
def bucketAt (n : Normalizer) (key : String) : Bucket := (n.functionCallBuckets.lookup key).getD {}

/-- `if item_id: bucket["id"] = item_id`, and the same for the call. -/
def identify (itemId callId : String) (bucket : Bucket) : Bucket :=
  { bucket with
    id := if itemId = "" then bucket.id else itemId
    callId := if callId = "" then bucket.callId else callId }

/-- `_function_call_arguments_delta` -/
def functionCallArgumentsDelta (n : Normalizer) (event : Json) (rawType : String) :
    Normalizer × List StreamEvent :=
  match textField event "delta" with
  | none =>
    (n, [n.failure "Responses function_call_arguments.delta event requires string delta"
      "invalid_function_call_arguments_delta" rawType 0 []])
  | some delta =>
    let itemId := fieldText host event "item_id"
    let callId := fieldText host event "call_id"
    if itemId = "" ∧ callId = "" then
      (n, [n.failure "Responses function_call_arguments.delta is missing item_id or call_id"
        "missing_function_call_identity" rawType 0 []])
    else
      let key := n.bucketKey itemId callId
      let n := n.updateBucket itemId callId fun bucket =>
        { identify itemId callId bucket with
          arguments := bucket.arguments ++ delta
          argumentsSeen := true }
      let bucket := n.bucketAt key
      (n, [.functionCallArgumentsDelta (firstText [bucket.id, itemId])
        (firstText [bucket.callId, callId]) delta bucket.arguments])

/-- `_function_call_arguments_done` -/
def functionCallArgumentsDone (n : Normalizer) (event : Json) (rawType : String) :
    Normalizer × List StreamEvent :=
  let itemId := fieldText host event "item_id"
  let callId := fieldText host event "call_id"
  if itemId = "" ∧ callId = "" then
    (n, [n.failure "Responses function_call_arguments.done is missing item_id or call_id"
      "missing_function_call_identity" rawType 0 []])
  else
    match textField event "arguments" with
    | none =>
      (n, [n.failure "Responses function_call_arguments.done event requires string arguments"
        "invalid_function_call_arguments" rawType 0 []])
    | some arguments =>
      (n.updateBucket itemId callId fun bucket =>
        { identify itemId callId bucket with arguments := arguments, argumentsSeen := true }, [])

/-- What `_merge_function_call_item` writes to the bucket. -/
def mergeItem (itemId callId name : String) (arguments : Option String) (status : String)
    (bucket : Bucket) : Bucket :=
  let bucket := identify itemId callId bucket
  { bucket with
    name := if name = "" then bucket.name else name
    arguments := arguments.getD bucket.arguments
    argumentsSeen := arguments.isSome || bucket.argumentsSeen
    status := if status = "" then bucket.status else status }

/-- What a finished bucket lacks. -/
def missingParts (bucket : Bucket) : List String :=
  (if pyStrip bucket.id = "" then ["id"] else []) ++
    (if pyStrip bucket.callId = "" then ["call_id"] else []) ++
    (if pyStrip bucket.name = "" then ["name"] else []) ++
    (if bucket.argumentsSeen then [] else ["arguments"])

/-- The arguments of an item: absent, a text, or a failure. -/
def itemArguments (item : Json) : Option (Option String) :=
  match item.get "arguments" with
  | none => some none
  | some .null => some none
  | some (.str arguments) => some (some arguments)
  | some _ => none

/-- The identifier of an item in an event. -/
def itemIdOf (event item : Json) : String := eitherText host (item.get "id") (event.get "item_id")

/-- `_merge_function_call_item` -/
def mergeFunctionCallItem (n : Normalizer) (item event : Json) (requireArguments : Bool) :
    Normalizer × Option StreamEvent :=
  let itemId := itemIdOf host event item
  let callId := fieldText host item "call_id"
  match itemArguments item with
  | none =>
    (n, some (n.failure "Responses function_call item requires string arguments"
      "invalid_function_call_arguments" (Json.strOr host.repr "" (event.get "type")) 0 []))
  | some arguments =>
    let key := n.bucketKey itemId callId
    let n := n.updateBucket itemId callId
      (mergeItem itemId callId (fieldText host item "name") arguments (fieldText host item "status"))
    let missing := missingParts (n.bucketAt key)
    if requireArguments ∧ missing ≠ [] then
      (n, some (n.failure ("Responses function_call output_item.done is missing " ++
        ", ".intercalate missing) "incomplete_function_call"
        (Json.strOr host.repr "" (event.get "type")) 0 []))
    else (n, none)

/-- `_function_call_snapshot` -/
def functionCallSnapshot (n : Normalizer) (itemId callId : String) : Option FunctionCallItem :=
  let key := firstText [(n.functionCallKeysById.lookup itemId).getD "",
    (n.functionCallKeysById.lookup callId).getD ""]
  if key = "" then none
  else (n.functionCallBuckets.lookup key).map fun bucket =>
    { id := bucket.id, callId := bucket.callId, name := bucket.name, arguments := bucket.arguments,
      status := bucket.status }

/-- `_output_item_added` -/
def outputItemAdded (n : Normalizer) (event : Json) (rawType : String) : Normalizer × List StreamEvent :=
  match dictField event "item" with
  | none =>
    (n, [n.failure "Responses output_item.added event is missing item object" "missing_output_item"
      rawType 0 []])
  | some item =>
    let itemId := itemIdOf host event item
    let outputIndex := intOrNone host (event.get "output_index")
    if itemType host item = "function_call" then
      let callId := fieldText host item "call_id"
      if itemId = "" ∧ callId = "" then
        (n, [n.failure "Responses function_call output_item.added is missing id or call_id"
          "missing_function_call_identity" rawType 0 []])
      else match n.mergeFunctionCallItem host item event false with
        | (n, some failure) => (n, [failure])
        | (n, none) => (n, [.outputItemAdded itemId outputIndex (itemType host item) item
            (n.functionCallSnapshot itemId callId)])
    else (n, [.outputItemAdded itemId outputIndex (itemType host item) item none])

/-! ### Texts -/

/-- The name of an item in a segment key. -/
def segmentItem (itemId : String) (outputIndex : Option Int) : String :=
  if itemId = "" then "output:" ++ ((outputIndex.map toString).getD "None") else itemId

/-- The text in front of an error about a snapshot. -/
def itemLabel (itemId : String) : String := if itemId = "" then "<unknown>" else itemId

/-- `_refusal_event` -/
def refusalEvent (n : Normalizer) (event : Json) (rawType eventType : String) :
    Normalizer × List StreamEvent :=
  let itemId := fieldText host event "item_id"
  let outputIndex := intOrNone host (event.get "output_index")
  let contentIndex := intOrNone host (event.get "content_index")
  let key : SegmentKey := ⟨segmentItem itemId outputIndex, contentIndex.getD 0⟩
  let previous := (n.refusalTextBySegment.lookup key).getD ""
  if endsWith eventType ".delta" then
    match textField event "delta" with
    | none =>
      (n, [n.failure "Responses refusal.delta event requires string delta" "invalid_refusal_delta"
        rawType 0 []])
    | some delta =>
      ({ n with refusalTextBySegment := dictSet n.refusalTextBySegment key (previous ++ delta) },
        if delta = "" then []
        else [.refusalDelta delta (previous ++ delta) itemId outputIndex contentIndex n.provider
          "in_progress"])
  else
    match textField event "refusal" with
    | none =>
      (n, [n.failure "Responses refusal.done event requires string refusal" "invalid_refusal_snapshot"
        rawType 0 []])
    | some snapshot =>
      if previous.toList.isPrefixOf snapshot.toList then
        ({ n with refusalTextBySegment := dictSet n.refusalTextBySegment key snapshot },
          [.refusalDelta (String.ofList (snapshot.toList.drop previous.length)) snapshot itemId
            outputIndex contentIndex n.provider "completed"])
      else
        (n, [n.failure
          ("Responses refusal completion snapshot does not extend the streamed text for item " ++
            itemLabel itemId ++ ", content " ++ toString (contentIndex.getD 0))
          "inconsistent_refusal_snapshot" rawType 0
          [("item_id", .str itemId), ("output_index", optionalInt outputIndex),
            ("content_index", optionalInt contentIndex), ("streamed_length", .nat previous.length),
            ("snapshot_length", .nat snapshot.length)]])

mutual

/-- `_extract_reasoning_text` -/
def extractReasoningText : Json → String
  | .obj fields =>
    let inner := extractFields fields
    let texts := ["delta", "text", "summary_text", "reasoning_text", "reasoning_content"].filterMap
      fun key => match fields.lookup key with
        | some (.str text) => if text = "" then none else some text
        | _ => none
    match texts with
    | text :: _ => text
    | [] =>
      match fields.lookup "part" with
      | some (.obj _) => (inner.lookup "part").getD ""
      | _ =>
        let parts := match fields.lookup "summary" with
          | some (.arr items) => items.filterMap fun item => textField item "text"
          | _ => []
        if parts ≠ [] then String.join parts
        else match fields.lookup "item" with
          | some (.obj _) => (inner.lookup "item").getD ""
          | _ => ""
  | _ => ""

/-- The text of each field. -/
def extractFields : List (String × Json) → List (String × String)
  | [] => []
  | (key, v) :: rest => (key, extractReasoningText v) :: extractFields rest

end

/-- `_reasoning_segment_index` -/
def reasoningSegmentIndex (event : Json) : Int :=
  match intOrNone host (event.get "summary_index") with
  | some index => index
  | none => (intOrNone host (event.get "content_index")).getD 0

/-- `build_reasoning_snapshot_diagnostics` -/
def reasoningSnapshotDiagnostics (event : Json) (itemId : String) (outputIndex : Option Int)
    (segmentIndex : Int) (streamed snapshot : String) : List (String × Json) :=
  let common := ((streamed.toList.zip snapshot.toList).takeWhile fun pair => pair.1 = pair.2).length
  let context (text : String) : String :=
    String.ofList ((text.toList.drop (common - 120)).take (common + 120 - (common - 120)))
  [("item_id", .str itemId), ("output_index", optionalInt outputIndex),
    ("segment_index", .int segmentIndex),
    ("sequence_number", (event.get "sequence_number").getD .null),
    ("streamed_length", .nat streamed.length), ("snapshot_length", .nat snapshot.length),
    ("common_prefix_length", .nat common), ("first_difference_index", .nat common),
    ("snapshot_is_prefix_of_streamed", .bool (snapshot.toList.isPrefixOf streamed.toList)),
    ("streamed_is_prefix_of_snapshot", .bool (streamed.toList.isPrefixOf snapshot.toList)),
    ("streamed_context_start", .nat (common - 120)), ("streamed_context", .str (context streamed)),
    ("snapshot_context_start", .nat (common - 120)), ("snapshot_context", .str (context snapshot))]

/-- `_reasoning_events` -/
def reasoningEvents (n : Normalizer) (event : Json) (rawType eventType : String) :
    Normalizer × List StreamEvent :=
  let itemId := fieldText host event "item_id"
  let outputIndex := intOrNone host (event.get "output_index")
  let segmentIndex := reasoningSegmentIndex host event
  let key : SegmentKey := ⟨segmentItem itemId outputIndex, segmentIndex⟩
  let record (text : String) : Normalizer :=
    { n with reasoningTextBySegment := dictSet n.reasoningTextBySegment key text }
  let emit (delta : String) : StreamEvent :=
    .reasoningDelta delta itemId outputIndex (intOrNone host (event.get "content_index")) n.provider
      rawType
  if endsWith eventType "reasoning_summary_part.added" then (record "", [])
  else
    let text := extractReasoningText event
    let previous := (n.reasoningTextBySegment.lookup key).getD ""
    if text = "" then (n, [])
    else if endsWith eventType ".delta" then (record (previous ++ text), [emit text])
    else if endsWith eventType ".done" then
      if text = previous then (n, [])
      else if previous.toList.isPrefixOf text.toList then
        (record text, [emit (String.ofList (text.toList.drop previous.length))])
      else
        (n, [n.failure
          ("Responses reasoning completion snapshot does not extend the streamed text for item " ++
            itemLabel itemId ++ ", segment " ++ toString segmentIndex)
          "inconsistent_reasoning_snapshot" rawType 0
          (reasoningSnapshotDiagnostics event itemId outputIndex segmentIndex previous text)])
    else (n, [])

/-- The event `_reasoning_item_done_events` makes of a part of a summary. -/
def partEvent (event item : Json) (rawType : String) (index : Nat) (part : Json) : Json :=
  .obj [("type", .str rawType), ("item_id", .str (itemIdOf host event item)),
    ("output_index", (event.get "output_index").getD .null), ("summary_index", .nat index),
    ("part", part)]

/-- The loop of `_reasoning_item_done_events`. -/
def summaryParts (event item : Json) (rawType : String) :
    Nat → Normalizer → List Json → Normalizer × List StreamEvent
  | _, n, [] => (n, [])
  | index, n, part :: parts =>
    match part with
    | .obj _ =>
      let (n, events) := n.reasoningEvents host (partEvent host event item rawType index part)
        rawType (pyLower rawType)
      let (n, later) := summaryParts event item rawType (index + 1) n parts
      (n, events ++ later)
    | _ => summaryParts event item rawType (index + 1) n parts

/-- `_reasoning_item_done_events` -/
def reasoningItemDoneEvents (n : Normalizer) (event : Json) (rawType : String) (item : Json) :
    Normalizer × List StreamEvent :=
  match item.get "summary" with
  | some (.arr summary) => summaryParts host event item rawType 0 n summary
  | _ => (n, [])

/-! ### The whole -/

/-- `_output_item_done` -/
def outputItemDone (n : Normalizer) (event : Json) (rawType : String) : Normalizer × List StreamEvent :=
  match dictField event "item" with
  | none =>
    (n, [n.failure "Responses output_item.done event is missing item object" "missing_output_item"
      rawType 0 []])
  | some item =>
    let itemId := itemIdOf host event item
    let outputIndex := intOrNone host (event.get "output_index")
    if itemType host item ≠ "function_call" then
      let done := StreamEvent.outputItemDone itemId outputIndex (itemType host item) item none
      if itemType host item = "reasoning" then
        let (n, events) := n.reasoningItemDoneEvents host event rawType item
        (n, done :: events)
      else (n, [done])
    else match n.mergeFunctionCallItem host item event true with
      | (n, some failure) => (n, [failure])
      | (n, none) =>
        match n.functionCallSnapshot itemId (fieldText host item "call_id") with
        | none =>
          (n, [n.failure
            "Responses function_call output_item.done could not resolve a complete function call item"
            "incomplete_function_call" rawType 0 []])
        | some call =>
          (n, [.outputItemDone call.id outputIndex (itemType host item) call.toResponseItem
            (some call)])

/-- `ingest_event` -/
def ingestEvent (n : Normalizer) (event : Json) : Normalizer × List StreamEvent :=
  match event with
  | .obj fields =>
    let event := Json.obj fields
    let type := rawType host event
    match kindOf host event with
    | .queued => (n, [n.responseLifecycleEvent host event type "queued"])
    | .created =>
      let response := (dictField event "response").getD (.obj [])
      (n, [.created (responseIdOf host event response) response])
    | .inProgress => (n, [n.responseLifecycleEvent host event type "in_progress"])
    | .outputItemAdded => n.outputItemAdded host event type
    | .outputTextDelta => (n, [n.outputTextDelta host event type])
    | .refusal => n.refusalEvent host event type (pyLower type)
    | .reasoning => n.reasoningEvents host event type (pyLower type)
    | .functionCallArgumentsDelta => n.functionCallArgumentsDelta host event type
    | .functionCallArgumentsDone => n.functionCallArgumentsDone host event type
    | .serverTool itemType status => (n, [serverToolActivity host event itemType status])
    | .outputItemDone => n.outputItemDone host event type
    | .completed => (n, [n.responseCompleted host event type])
    | .incomplete => (n, [n.responseIncomplete host event type])
    | .failed => (n, [n.providerFailure host event type])
    | .other => (n, [])
  | value =>
    (n, [n.failure ("Responses SSE event must decode to an object, got " ++ typeName value)
      "invalid_sse_event" "" 0 []])

/-- A run of `ingest_event`: the normalizer behind the events, and what it gave for each. -/
def ingestAll (n : Normalizer) : List Json → Normalizer × List (List StreamEvent)
  | [] => (n, [])
  | event :: events =>
    let (n, given) := n.ingestEvent host event
    let (n, later) := ingestAll n events
    (n, given :: later)

end Normalizer

end

end AgentPark.Providers
