import AgentPark.Gateway.Converter
import AgentPark.Gateway.MessagesRequest
import AgentPark.Gateway.MessagesWire

/-!
# What a Claude Messages client reads

A client reads the answer to its request from one message or puts it together from the events of a
stream.  This module has both readings and follows a result through the emitter and
`responsesSseToMessages` to the events.
-/

namespace AgentPark.Gateway

open Lib Generator Emitter

/-! ### The readings -/

def toolUse (block : Json) : ClientCall :=
  { id := stringAt "id" block, name := stringAt "name" block, arguments := block.get "input" }

/-- The answer a message carries. -/
def messageDocument (document : Json) : Answer :=
  let blocks := itemsAt "content" document
  let usage := valueAt "usage" document
  { text := String.join ((blocks.filter fun block => stringAt "type" block = "text").map
      (stringAt "text" ·))
    calls := (blocks.filter fun block => stringAt "type" block = "tool_use").map toolUse
    finishReason := stringAt "stop_reason" document
    inputTokens := count (usage.get "input_tokens")
    outputTokens := count (usage.get "output_tokens") }

/-- A block of a stream, with the texts that have come for it. -/
structure ClientBlock where
  kind : String
  id : String
  name : String
  text : String
  json : String := ""
deriving DecidableEq

def ClientBlock.call (block : ClientBlock) : ClientCall :=
  { id := block.id, name := block.name, arguments := loads block.json.toList }

/-- What a client has put together of a stream: the blocks stand under their index. -/
structure MessageReading where
  blocks : List (Json × ClientBlock) := []
  stopReason : String := ""
  inputTokens : Nat := 0
  outputTokens : Nat := 0
deriving DecidableEq

def ClientBlock.of (block : Json) : ClientBlock :=
  { kind := stringAt "type" block, id := stringAt "id" block, name := stringAt "name" block
    text := stringAt "text" block }

/-- A block with one more piece. -/
def ClientBlock.extend (block : ClientBlock) (delta : Json) : ClientBlock :=
  { block with text := block.text ++ stringAt "text" delta
               json := block.json ++ stringAt "partial_json" delta }

/-- A `content_block_start` event. -/
def MessageReading.start (reading : MessageReading) (index block : Json) : MessageReading :=
  { reading with blocks := dictSet reading.blocks index (.of block) }

/-- A `content_block_delta` event. -/
def MessageReading.extend (reading : MessageReading) (index delta : Json) : MessageReading :=
  match reading.blocks.lookup index with
  | some block => { reading with blocks := dictSet reading.blocks index (block.extend delta) }
  | none => reading

def MessageReading.add (reading : MessageReading) (event : Json) : MessageReading :=
  if stringAt "type" event = "message_start" then
    { reading with
      inputTokens := count ((valueAt "usage" (valueAt "message" event)).get "input_tokens")
      outputTokens := count ((valueAt "usage" (valueAt "message" event)).get "output_tokens") }
  else if stringAt "type" event = "content_block_start" then
    reading.start (valueAt "index" event) (valueAt "content_block" event)
  else if stringAt "type" event = "content_block_delta" then
    reading.extend (valueAt "index" event) (valueAt "delta" event)
  else if stringAt "type" event = "message_delta" then
    { reading with stopReason := stringAt "stop_reason" (valueAt "delta" event)
                   outputTokens := count ((valueAt "usage" event).get "output_tokens") }
  else reading

/-- The answer of a finished reading. -/
def MessageReading.answer (reading : MessageReading) : Answer :=
  let blocks := reading.blocks.map Prod.snd
  { text := String.join ((blocks.filter fun block => block.kind = "text").map ClientBlock.text)
    calls := (blocks.filter fun block => block.kind = "tool_use").map ClientBlock.call
    finishReason := reading.stopReason
    inputTokens := reading.inputTokens
    outputTokens := reading.outputTokens }

/-- The answer a stream carries. -/
def messageEvents (frames : List Frame) : Answer :=
  ((frames.filterMap Frame.payload).foldl MessageReading.add {}).answer

/-! ### The stream, piece by piece -/

section

variable (host : Host) (model : String) {s s' : MessageStream} {out : List Frame} {flow : Flow}
  {ev : Event} {n : Nat}

theorem emits_ensureStarted (started : s.started = true) : Emits (ensureStarted model) s [] () s := by
  unfold ensureStarted
  apply emits_get.then
  rw [if_pos started]
  exact emits_pure

theorem passes_messages : Passes (messageHandle host model) s := by
  intro ev quiet n
  obtain ⟨created, text, done, completed, failed⟩ := quiet.kinds
  unfold messageHandle
  rw [eventType_payload, if_neg created, if_neg text, if_neg done, if_neg completed, if_neg failed]
  exact emits_pure

/-- The stream with an open text block. -/
def MessageStream.openText (stream : MessageStream) : MessageStream :=
  if stream.textStarted then stream
  else { stream with textStarted := true, textIndex := stream.nextIndex
                     nextIndex := stream.nextIndex + 1 }

/-- The frames that open a text block. -/
def openFrames (stream : MessageStream) : List Frame :=
  if stream.textStarted then []
  else [blockStart stream.nextIndex (.obj [("type", .str "text"), ("text", .str "")])]

theorem emits_ensureTextBlock : Emits ensureTextBlock s (openFrames s) () s.openText := by
  unfold ensureTextBlock openFrames MessageStream.openText
  apply emits_get.then
  by_cases started : s.textStarted = true
  · rw [if_pos started, if_pos started, if_pos started]
    exact emits_pure
  · rw [if_neg started, if_neg started, if_neg started]
    exact rfl

theorem openText_fields (stream : MessageStream) :
    stream.openText.started = stream.started ∧ stream.openText.textStarted = true ∧
      stream.openText.sawTool = stream.sawTool := by
  unfold MessageStream.openText
  by_cases started : stream.textStarted = true
  · rw [if_pos started]
    exact ⟨rfl, started, rfl⟩
  · rw [if_neg started]
    exact ⟨rfl, rfl, rfl⟩

theorem messageHandle_text (started : s.started = true) (message : OpenMessage) {delta : String}
    (notEmpty : delta ≠ "") :
    Emits (messageHandle host model (payload n (textEvent message delta))) s
      (openFrames s ++ [blockDelta s.openText.textIndex (textDelta delta)]) .next s.openText := by
  have isDelta : (payload n (textEvent message delta)).get "delta" = some (.str delta) := by
    rw [get_payload _ _ (by decide) (by decide)]
    rfl
  have shown : Emits (yieldText delta) s.openText
      [blockDelta s.openText.textIndex (textDelta delta)] () s.openText := by
    unfold yieldText
    apply emits_get.then
    rw [if_pos notEmpty]
    exact emits_yield
  unfold messageHandle
  rw [eventType_payload, if_neg (by rw [textEvent_kind]; decide), if_pos (by rfl)]
  unfold messageTextDelta
  rw [isDelta, textOf_str]
  apply (emits_ensureStarted model started).then
  apply emits_ensureTextBlock.bind
  exact shown.bind emits_pure

theorem messageHandle_message (opened : s.textStarted = true) (index : Nat) (itemId text : String) :
    Emits (messageHandle host model
      (payload n (doneEvent index (messageItem itemId text "completed")))) s [] .next s := by
  have type : (messageItem itemId text "completed").get "type" = some (.str "message") := rfl
  unfold messageHandle
  rw [eventType_payload, if_neg (by rw [doneEvent_kind]; decide),
    if_neg (by rw [doneEvent_kind]; decide), if_pos (by rfl)]
  unfold messageEventItem
  rw [get_item_doneEvent]
  unfold messageItem at type ⊢
  dsimp only
  rw [type, textOf_str, if_pos rfl]
  unfold messageItemDone
  apply emits_get.then
  rw [if_pos opened]
  exact emits_pure

/-- A call whose arguments are an object or empty. -/
def ObjectArguments (call : CanonicalToolCall) : Prop :=
  call.arguments = "" ∨ ∃ fields, loads call.arguments.toList = some (.obj fields)

/-- The arguments a converter finds, decoded. -/
def decodedArguments (call : CanonicalToolCall) : Json :=
  (loads (sentArguments call).toList).getD .null

variable {call : CanonicalToolCall}

theorem loads_sentArguments (object : ObjectArguments call) :
    ∃ fields, loads (sentArguments call).toList = some (.obj fields) ∧
      decodedArguments call = .obj fields := by
  unfold decodedArguments
  have emptyObject : loads "{}".toList = some (.obj []) := by decide +kernel
  by_cases empty : call.arguments = ""
  · have sent : sentArguments call = "{}" := if_neg (by simp [empty])
    rw [sent, emptyObject]
    exact ⟨[], rfl, rfl⟩
  · have sent : sentArguments call = call.arguments := if_pos empty
    rcases object with absurdly | ⟨fields, decoded⟩
    · exact absurd absurdly empty
    · rw [sent, decoded]
      exact ⟨fields, rfl, rfl⟩

/-- The call a converter makes of an item. -/
def sentCall (drawn : String) (call : CanonicalToolCall) : CanonicalToolCall :=
  { callId := sentId drawn call, name := call.name
    arguments := String.ofList (dumpsCompact (decodedArguments call)) }

theorem messageToolCall_functionItem (drawn : String) (plain : PlainCall call)
    (object : ObjectArguments call) :
    messageToolCall host (.obj (functionItem drawn call)) =
      if BlankId call then .error (.protocol "Responses tool call requires call_id and name.")
      else .ok (sentCall drawn call) := by
  obtain ⟨fields, decoded, isObject⟩ := loads_sentArguments object
  unfold messageToolCall
  rw [sentId_functionItem, name_functionItem host plain, if_congr (refused_iff plain) rfl rfl]
  by_cases blank : BlankId call
  · rw [if_pos blank, if_pos blank]
  · rw [if_neg blank, if_neg blank, if_neg (not_custom_functionItem host), arguments_functionItem]
    dsimp only
    rw [decoded]
    unfold sentCall
    rw [isObject]

/-- The frame that closes an open text block. -/
def closeFrames (stream : MessageStream) : List Frame :=
  if stream.textStarted then [blockStop stream.textIndex] else []

theorem emits_closeTextBlock :
    Emits closeTextBlock s (closeFrames s) () { s with textStarted := false } := by
  unfold closeTextBlock closeFrames
  apply emits_get.then
  by_cases opened : s.textStarted = true
  · rw [if_pos opened, if_pos opened]
    exact rfl
  · rw [if_neg opened, if_neg opened]
    have closed : s.textStarted = false := by simpa using opened
    rw [← closed]
    exact emits_pure

def toolUseFrames (index : Nat) (call : CanonicalToolCall) : List Frame :=
  [blockStart index (.obj [("type", .str "tool_use"), ("id", .str call.callId),
      ("name", .str call.name), ("input", .obj [])]),
    blockDelta index (.obj [("type", .str "input_json_delta"), ("partial_json", .str call.arguments)]),
    blockStop index]

/-- The stream behind one more call. -/
def MessageStream.addCall (stream : MessageStream) : MessageStream :=
  { stream with textStarted := false, nextIndex := stream.nextIndex + 1, sawTool := true }

theorem messageHandle_item (drawn : String) (call : CanonicalToolCall) (index : Nat) :
    messageHandle host model (payload n (doneEvent index (.obj (functionItem drawn call)))) =
      callItemDone host model (.obj (functionItem drawn call)) := by
  unfold messageHandle
  rw [eventType_payload, if_neg (by rw [doneEvent_kind]; decide),
    if_neg (by rw [doneEvent_kind]; decide), if_pos (by rfl)]
  unfold messageEventItem
  rw [get_item_doneEvent]
  dsimp only
  rw [type_functionItem, textOf_str, if_neg (by decide), if_pos (by decide)]

theorem messageHandle_call (started : s.started = true) (drawn : String) (plain : PlainCall call)
    (object : ObjectArguments call) (present : ¬ BlankId call) (index : Nat) :
    Emits (messageHandle host model
        (payload n (doneEvent index (.obj (functionItem drawn call))))) s
      (closeFrames s ++ toolUseFrames s.nextIndex (sentCall drawn call)) .next s.addCall := by
  have isCall : messageToolCall host (.obj (functionItem drawn call)) = .ok (sentCall drawn call) := by
    rw [messageToolCall_functionItem host drawn plain object, if_neg present]
  rw [messageHandle_item]
  unfold callItemDone
  apply (emits_ensureStarted model started).then
  apply emits_closeTextBlock.bind
  apply (emits_ofExcept isCall).then
  exact rfl

theorem messageHandle_blank (started : s.started = true) (drawn : String) (plain : PlainCall call)
    (object : ObjectArguments call) (blank : BlankId call) (index : Nat) :
    ∃ out err, Fails (messageHandle host model
      (payload n (doneEvent index (.obj (functionItem drawn call))))) s out err := by
  have refused : messageToolCall host (.obj (functionItem drawn call)) =
      .error (.protocol "Responses tool call requires call_id and name.") := by
    rw [messageToolCall_functionItem host drawn plain object, if_pos blank]
  refine ⟨[] ++ (closeFrames s ++ []), .protocol "Responses tool call requires call_id and name.", ?_⟩
  rw [messageHandle_item]
  unfold callItemDone
  apply (emits_ensureStarted model started).bind_fails
  apply emits_closeTextBlock.bind_fails
  rw [refused]
  exact rfl

variable {result : CanonicalResult}

theorem messageHandle_completed {response : Json}
    (isUsage : response.get "usage" = some (usage result)) :
    Emits (messageHandle host model (payload n ("response.completed", [("response", response)])))
      s [] .next { s with inputTokens := result.inputTokens, outputTokens := result.outputTokens } := by
  have notCreated : "response.completed" ≠ "response.created" := by decide
  have notText : "response.completed" ≠ "response.output_text.delta" := by decide
  have notDone : "response.completed" ≠ "response.output_item.done" := by decide
  unfold messageHandle
  rw [eventType_payload, if_neg notCreated, if_neg notText, if_neg notDone, if_pos (by rfl)]
  unfold messageCompleted
  obtain ⟨fields, isObject, input, output⟩ := usage_fields result
  rw [get_response_payload, Option.bind_some, isUsage, isObject]
  dsimp only
  rw [input, output]
  exact rfl

/-- The stream behind its first event. -/
def openedMessages : MessageStream := { MessageStream.initial host with started := true }

/-- The first event of a stream. -/
def messageStart (stream : MessageStream) : Frame :=
  .sse "message_start" (.obj [("type", .str "message_start"),
    ("message", .obj [("id", .str stream.messageId), ("type", .str "message"),
      ("role", .str "assistant"), ("content", .arr []), ("model", .str model),
      ("stop_reason", .null), ("stop_sequence", .null),
      ("usage", .obj [("input_tokens", .nat stream.inputTokens), ("output_tokens", .nat 0)])])])

theorem messageHandle_created {response : Json} :
    Emits (messageHandle host model (payload n ("response.created", [("response", response)])))
      (MessageStream.initial host) [messageStart model (openedMessages host)] .next
      (openedMessages host) := by
  have fresh : (MessageStream.initial host).started = false := rfl
  unfold openedMessages
  generalize MessageStream.initial host = stream at fresh
  have first : Emits (ensureStarted model) stream [messageStart model { stream with started := true }]
      () { stream with started := true } := by
    unfold ensureStarted
    apply emits_get.then
    rw [if_neg (by simp [fresh])]
    exact rfl
  unfold messageHandle
  rw [eventType_payload, if_pos (by rfl)]
  exact first.bind emits_pure

/-! ### The whole stream -/

/-- The frames of a text in pieces. -/
def textFrames (stream : MessageStream) : List String → List Frame
  | [] => []
  | delta :: deltas =>
    openFrames stream ++ [blockDelta stream.openText.textIndex (textDelta delta)] ++
      textFrames stream.openText deltas

/-- The stream behind a text in pieces. -/
def MessageStream.addTexts (stream : MessageStream) (deltas : List String) : MessageStream :=
  deltas.foldl (fun stream _ => stream.openText) stream

variable {e : Emitter}

/-- The frames of the calls. -/
def callFrames (drawn : Nat) (stream : MessageStream) : List CanonicalToolCall → List Frame
  | [] => []
  | call :: calls =>
    closeFrames stream ++ toolUseFrames stream.nextIndex (sentCall (host.uuid4 drawn) call) ++
      callFrames (drawn + 1) stream.addCall calls

/-- The stream behind some calls. -/
def MessageStream.addCalls (stream : MessageStream) (calls : List CanonicalToolCall) :
    MessageStream :=
  calls.foldl (fun stream _ => stream.addCall) stream

variable {calls : List CanonicalToolCall}

theorem addTexts_fields (stream : MessageStream) (deltas : List String) :
    (stream.addTexts deltas).started = stream.started ∧
      (stream.addTexts deltas).sawTool = stream.sawTool := by
  induction deltas generalizing stream with
  | nil => exact ⟨rfl, rfl⟩
  | cons delta deltas ih =>
    obtain ⟨started, -, sawTool⟩ := openText_fields stream
    exact ⟨(ih stream.openText).1.trans started, (ih stream.openText).2.trans sawTool⟩

theorem MessageStream.addCalls_sawTool (stream : MessageStream) (calls : List CanonicalToolCall) :
    (stream.addCalls calls).sawTool = (stream.sawTool || !calls.isEmpty) := by
  induction calls generalizing stream with
  | nil => simp [MessageStream.addCalls]
  | cons call calls ih =>
    have later := ih stream.addCall
    rw [show stream.addCall.sawTool = true by rfl, Bool.true_or] at later
    rw [List.isEmpty_cons, Bool.not_false, Bool.or_true]
    exact later

/-- The stream behind the text of an answer. -/
def textMessages (deltas : List String) : MessageStream :=
  (openedMessages host).addTexts (shownDeltas deltas)

/-- The stream behind a finished answer. -/
def MessageStream.counted (stream : MessageStream) (result : CanonicalResult) : MessageStream :=
  { stream with inputTokens := result.inputTokens, outputTokens := result.outputTokens }

/-- The frames of an answer before its end. -/
def messageFrames (drawn : Nat) (deltas : List String) (calls : List CanonicalToolCall) :
    List Frame :=
  messageStart model (openedMessages host) ::
    (textFrames (openedMessages host) (shownDeltas deltas) ++
      callFrames host drawn (textMessages host deltas) calls)

/-- The converter to Messages events. -/
def messagesConverter : Converter host MessageStream where
  handle := messageHandle host model
  kind call := PlainCall call ∧ ObjectArguments call
  ready stream := stream.started = true
  texted stream := stream.textStarted = true
  addText := MessageStream.openText
  showText stream delta := openFrames stream ++ [blockDelta stream.openText.textIndex (textDelta delta)]
  addCall := MessageStream.addCall
  showCall drawn stream call :=
    closeFrames stream ++ toolUseFrames stream.nextIndex (sentCall (host.uuid4 drawn) call)
  count result stream := stream.counted result
  plain _ := And.left
  ready_addText stream started := (openText_fields stream).1.trans started
  texted_addText stream _ := (openText_fields stream).2.1
  ready_addCall _ := id
  passes _ _ := passes_messages host model
  text _ started _ notEmpty message _ := messageHandle_text host model started message notEmpty
  message _ _ opened index itemId text _ := messageHandle_message host model opened index itemId text
  call _ started drawn _ kind present index _ :=
    messageHandle_call host model started (host.uuid4 drawn) kind.1 kind.2 present index
  blank _ started drawn _ kind blank index _ :=
    messageHandle_blank host model started (host.uuid4 drawn) kind.1 kind.2 blank index
  completed _ _ _ _ _ isUsage := messageHandle_completed host model isUsage

theorem messagesConverter_opens (silent : e.reasoning = none) (noMessage : e.message = none)
    (fresh : e.output = []) :
    (messagesConverter host model).Opens e (MessageStream.initial host)
      [messageStart model (openedMessages host)] (openedMessages host) where
  begins n response _ := @messageHandle_created host model n response
  ready := rfl
  silent := silent
  texted present := absurd noMessage present
  fresh := fresh

theorem messagesConverter_textFrames (deltas : List String) :
    (messagesConverter host model).textFrames s deltas = textFrames s deltas := by
  induction deltas generalizing s with
  | nil => rfl
  | cons delta deltas ih => exact congrArg (_ ++ ·) ih

theorem messagesConverter_callFrames (drawn : Nat) (calls : List CanonicalToolCall) :
    (messagesConverter host model).callFrames drawn s calls = callFrames host drawn s calls := by
  induction calls generalizing drawn s with
  | nil => rfl
  | cons call calls ih => exact congrArg (_ ++ ·) (ih (drawn + 1))

/-- The client of an answer that an adapter streams. -/
def messagesStreamed (e : Emitter) (deltas : List String) (result : CanonicalResult) :
    List Frame × Option Raised :=
  let sent := Run (sendAnswer host deltas result) e
  Run (responsesSseToMessages host model (sent.1.map Frame.bytes, sent.2)) (MessageStream.initial host)

/-- The frames that end a stream. -/
def messageEnding (stream : MessageStream) : List Frame :=
  closeFrames stream ++
    [.sse "message_delta" (.obj [("type", .str "message_delta"),
      ("delta", .obj [("stop_reason", .str (if stream.sawTool then "tool_use" else "end_turn")),
        ("stop_sequence", .null)]),
      ("usage", .obj [("output_tokens", .nat stream.outputTokens)])]),
    .sse "message_stop" (.obj [("type", .str "message_stop")])]

theorem emits_finishMessages (started : s.started = true) :
    Emits (finishMessages model) s (messageEnding s) () s := by
  have stops : Emits stopOpenText s (closeFrames s) () s := by
    unfold stopOpenText closeFrames
    apply emits_get.then
    by_cases opened : s.textStarted = true
    · rw [if_pos opened, if_pos opened]
      exact emits_yield
    · rw [if_neg opened, if_neg opened]
      exact emits_pure
  unfold finishMessages
  apply (emits_ensureStarted model started).then
  exact stops.bind rfl

theorem messagesStreamed_of_present (deltas : List String)
    (plain : ∀ call ∈ result.toolCalls, PlainCall call)
    (object : ∀ call ∈ result.toolCalls, ObjectArguments call)
    (present : ∀ call ∈ result.toolCalls, ¬ BlankId call) (e : Emitter)
    (silent : e.reasoning = none) (noMessage : e.message = none) (fresh : e.output = []) :
    ∃ drawn, messagesStreamed host model e deltas result =
      (messageFrames host model drawn deltas result.toolCalls ++
        messageEnding (((textMessages host deltas).addCalls result.toolCalls).counted result),
        none) := by
  obtain ⟨drawn, streamed⟩ := (messagesConverter_opens host model silent noMessage fresh).streamed
    (fun t started => emits_finishMessages model (s := t.counted result) started) deltas
    (fun call mem => ⟨plain call mem, object call mem⟩) present
  refine ⟨drawn, streamed.trans ?_⟩
  rw [Converter.answerFrames, messagesConverter_textFrames, messagesConverter_callFrames]
  rfl

theorem messagesStreamed_of_blank (deltas : List String)
    (plain : ∀ call ∈ result.toolCalls, PlainCall call)
    (object : ∀ call ∈ result.toolCalls, ObjectArguments call)
    (blank : ∃ call ∈ result.toolCalls, BlankId call) (e : Emitter) (silent : e.reasoning = none)
    (noMessage : e.message = none) (fresh : e.output = []) :
    (messagesStreamed host model e deltas result).2 ≠ none :=
  (messagesConverter_opens host model silent noMessage fresh).refuses deltas
    (fun call mem => ⟨plain call mem, object call mem⟩) blank

/-! ### The reading of the stream -/

/-- What a client has read behind some frames. -/
def MessageReading.addFrames (reading : MessageReading) (frames : List Frame) : MessageReading :=
  (frames.filterMap Frame.payload).foldl MessageReading.add reading

theorem addFrames_append (reading : MessageReading) (front back : List Frame) :
    reading.addFrames (front ++ back) = (reading.addFrames front).addFrames back := by
  unfold MessageReading.addFrames
  rw [List.filterMap_append, List.foldl_append]

theorem addFrames_cons (reading : MessageReading) (name : String) (event : Json)
    (frames : List Frame) :
    reading.addFrames (.sse name event :: frames) = (reading.add event).addFrames frames := rfl

theorem addFrames_nil (reading : MessageReading) : reading.addFrames [] = reading := rfl

theorem add_blockStart (reading : MessageReading) (index : Nat) (block : Json) (rest : List Frame) :
    reading.addFrames (blockStart index block :: rest) =
      (reading.start (.nat index) block).addFrames rest := by
  have type : stringAt "type" (.obj [("type", .str "content_block_start"), ("index", .nat index),
    ("content_block", block)]) = "content_block_start" := rfl
  unfold blockStart
  rw [addFrames_cons, MessageReading.add, type, if_neg (by decide), if_pos rfl]
  rfl

theorem add_blockDelta (reading : MessageReading) (index : Nat) (delta : Json) (rest : List Frame) :
    reading.addFrames (blockDelta index delta :: rest) =
      (reading.extend (.nat index) delta).addFrames rest := by
  have type : stringAt "type" (.obj [("type", .str "content_block_delta"), ("index", .nat index),
    ("delta", delta)]) = "content_block_delta" := rfl
  unfold blockDelta
  rw [addFrames_cons, MessageReading.add, type, if_neg (by decide), if_neg (by decide), if_pos rfl]
  rfl

theorem add_blockStop (reading : MessageReading) (index : Nat) (rest : List Frame) :
    reading.addFrames (blockStop index :: rest) = reading.addFrames rest := by
  have type : stringAt "type" (.obj [("type", .str "content_block_stop"), ("index", .nat index)]) =
      "content_block_stop" := rfl
  unfold blockStop
  rw [addFrames_cons, MessageReading.add, type, if_neg (by decide), if_neg (by decide),
    if_neg (by decide), if_neg (by decide)]

theorem add_closeFrames (reading : MessageReading) (stream : MessageStream) :
    reading.addFrames (closeFrames stream) = reading := by
  unfold closeFrames
  split
  · rw [add_blockStop, addFrames_nil]
  · rfl

variable {reading : MessageReading} {index : Nat}

theorem start_fresh (block : Json) (fresh : Json.nat index ∉ reading.blocks.map Prod.fst) :
    reading.start (.nat index) block =
      { reading with blocks := reading.blocks ++ [(.nat index, .of block)] } := by
  unfold MessageReading.start
  rw [dictSet, if_neg fresh]

theorem extend_last {front : List (Json × ClientBlock)} {block : ClientBlock}
    (last : reading.blocks = front ++ [(.nat index, block)])
    (fresh : Json.nat index ∉ front.map Prod.fst) (delta : Json) :
    reading.extend (.nat index) delta =
      { reading with blocks := front ++ [(.nat index, block.extend delta)] } := by
  unfold MessageReading.extend
  rw [last, lookup_concat fresh]
  dsimp only
  rw [dictSet_concat fresh]

def textBlock (text : String) : ClientBlock := { kind := "text", id := "", name := "", text }

theorem extend_textBlock (text delta : String) :
    (textBlock text).extend (textDelta delta) = textBlock (text ++ delta) := by
  have json : "" ++ stringAt "partial_json" (textDelta delta) = "" := rfl
  unfold ClientBlock.extend textBlock
  dsimp only
  rw [json]
  rfl

variable {stream : MessageStream}

theorem addFrames_opened {front : List (Json × ClientBlock)} (opened : stream.textStarted = true)
    {text : String} (last : reading.blocks = front ++ [(.nat stream.textIndex, textBlock text)])
    (fresh : Json.nat stream.textIndex ∉ front.map Prod.fst) (deltas : List String) :
    reading.addFrames (textFrames stream deltas) =
      { reading with
        blocks := front ++ [(.nat stream.textIndex, textBlock (text ++ String.join deltas))] } := by
  have same : stream.openText = stream := if_pos opened
  have noFrames : openFrames stream = [] := if_pos opened
  induction deltas generalizing reading text with
  | nil =>
    have empty : String.join [] = "" := rfl
    rw [textFrames, addFrames_nil, empty, String.append_empty, ← last]
  | cons delta deltas ih =>
    rw [textFrames, noFrames, same, List.nil_append, addFrames_append, add_blockDelta, addFrames_nil,
      extend_last last fresh, extend_textBlock]
    rw [ih rfl, String.join_cons, String.append_assoc]

/-- The blocks of a text in pieces. -/
def textBlocks (index : Nat) (deltas : List String) : List (Json × ClientBlock) :=
  if deltas = [] then [] else [(.nat index, textBlock (String.join deltas))]

theorem addFrames_texts (closed : stream.textStarted = false)
    (fresh : Json.nat stream.nextIndex ∉ reading.blocks.map Prod.fst) (deltas : List String) :
    reading.addFrames (textFrames stream deltas) =
      { reading with blocks := reading.blocks ++ textBlocks stream.nextIndex deltas } := by
  cases deltas with
  | nil =>
    unfold textBlocks
    rw [if_pos rfl, List.append_nil]
    rfl
  | cons delta deltas =>
    have notOpen : ¬ stream.textStarted = true := by simp [closed]
    have opened : stream.openText.textStarted = true := (openText_fields stream).2.1
    have index : stream.openText.textIndex = stream.nextIndex := by
      unfold MessageStream.openText
      rw [if_neg notOpen]
    have frames : openFrames stream =
        [blockStart stream.nextIndex (.obj [("type", .str "text"), ("text", .str "")])] :=
      if_neg notOpen
    have block : ClientBlock.of (.obj [("type", .str "text"), ("text", .str "")]) = textBlock "" := rfl
    unfold textBlocks
    rw [if_neg (List.cons_ne_nil _ _), textFrames, frames, addFrames_append, addFrames_append,
      add_blockStart, addFrames_nil, start_fresh _ fresh, block, index, add_blockDelta,
      addFrames_nil, extend_last rfl fresh, extend_textBlock, String.empty_append]
    have later : (({ reading with
        blocks := reading.blocks ++ [(.nat stream.nextIndex, textBlock delta)] } :
          MessageReading).addFrames (textFrames stream.openText deltas)) = _ :=
      addFrames_opened opened (by rw [index]) (by rwa [index]) deltas
    rw [later, index, String.join_cons]

def callBlock (call : CanonicalToolCall) : ClientBlock :=
  { kind := "tool_use", id := call.callId, name := call.name, text := "", json := call.arguments }

theorem addFrames_toolUse (call : CanonicalToolCall)
    (fresh : Json.nat index ∉ reading.blocks.map Prod.fst) :
    reading.addFrames (toolUseFrames index call) =
      { reading with blocks := reading.blocks ++ [(.nat index, callBlock call)] } := by
  have piece : (ClientBlock.of (.obj [("type", .str "tool_use"), ("id", .str call.callId),
      ("name", .str call.name), ("input", .obj [])])).extend
        (.obj [("type", .str "input_json_delta"), ("partial_json", .str call.arguments)]) =
      { callBlock call with json := "" ++ call.arguments } := rfl
  unfold toolUseFrames
  rw [add_blockStart, start_fresh _ fresh, add_blockDelta, extend_last rfl fresh, piece,
    add_blockStop, addFrames_nil, String.empty_append]
  rfl

/-- The blocks of the calls. -/
def callBlocks (drawn index : Nat) : List CanonicalToolCall → List (Json × ClientBlock)
  | [] => []
  | call :: calls =>
    (.nat index, callBlock (sentCall (host.uuid4 drawn) call)) ::
      callBlocks (drawn + 1) (index + 1) calls

theorem addFrames_calls (drawn : Nat) (calls : List CanonicalToolCall)
    (fresh : ∀ later ≥ stream.nextIndex, Json.nat later ∉ reading.blocks.map Prod.fst) :
    reading.addFrames (callFrames host drawn stream calls) =
      { reading with blocks := reading.blocks ++ callBlocks host drawn stream.nextIndex calls } := by
  induction calls generalizing reading stream drawn with
  | nil =>
    unfold callBlocks callFrames
    rw [List.append_nil]
    rfl
  | cons call calls ih =>
    let block := callBlock (sentCall (host.uuid4 drawn) call)
    have still : ∀ later ≥ stream.addCall.nextIndex, Json.nat later ∉
        (reading.blocks ++ [(Json.nat stream.nextIndex, block)]).map Prod.fst := by
      intro later above mem
      have above : stream.nextIndex + 1 ≤ later := above
      rw [List.map_append, List.mem_append] at mem
      rcases mem with old | new
      · exact fresh later (by omega) old
      · have same := nat_injective (List.mem_singleton.mp new)
        omega
    rw [callFrames, addFrames_append, addFrames_append, add_closeFrames,
      addFrames_toolUse _ (fresh _ (by omega)), ih _ still, callBlocks, List.append_assoc,
      List.singleton_append]
    rfl

/-- The calls a stream carries. -/
def sentCalls (drawn : Nat) : List CanonicalToolCall → List ClientCall
  | [] => []
  | call :: calls =>
    { id := sentId (host.uuid4 drawn) call, name := call.name
      arguments := some (decodedArguments call) } :: sentCalls (drawn + 1) calls

/-- The answer a stream carries: the tokens of the request are not in it. -/
def sentMessage (drawn : Nat) (result : CanonicalResult) : Answer :=
  { text := result.text
    calls := sentCalls host drawn result.toolCalls
    finishReason := if result.toolCalls ≠ [] then "tool_use" else "end_turn"
    inputTokens := 0
    outputTokens := result.outputTokens }

theorem callBlocks_kinds (drawn index : Nat) (calls : List CanonicalToolCall) :
    ∀ block ∈ (callBlocks host drawn index calls).map Prod.snd, block.kind = "tool_use" := by
  induction calls generalizing drawn index with
  | nil => exact List.forall_mem_nil _
  | cons call calls ih =>
    rw [callBlocks, List.map_cons, List.forall_mem_cons]
    exact ⟨rfl, ih (drawn + 1) (index + 1)⟩

theorem uniqueKeys_decodedArguments (call : CanonicalToolCall) :
    (decodedArguments call).UniqueKeys := by
  unfold decodedArguments
  cases decoded : loads (sentArguments call).toList with
  | none => exact Json.uniqueKeys_null
  | some v => exact uniqueKeys_loads decoded

theorem callBlocks_calls (drawn index : Nat) (calls : List CanonicalToolCall) :
    ((callBlocks host drawn index calls).map Prod.snd).map ClientBlock.call =
      sentCalls host drawn calls := by
  induction calls generalizing drawn index with
  | nil => rfl
  | cons call calls ih =>
    have decoded : loads (sentCall (host.uuid4 drawn) call).arguments.toList =
        some (decodedArguments call) := by
      unfold sentCall
      dsimp only
      rw [String.toList_ofList]
      exact loads_dumpsCompact (uniqueKeys_decodedArguments call)
    rw [callBlocks, List.map_cons, List.map_cons, ih, sentCalls, ClientBlock.call]
    unfold callBlock
    dsimp only
    rw [decoded]
    rfl

theorem addTexts_opened (opened : stream.textStarted = true) (deltas : List String) :
    stream.addTexts deltas = stream := by
  induction deltas with
  | nil => rfl
  | cons delta deltas ih =>
    have same : stream.openText = stream := if_pos opened
    change stream.openText.addTexts deltas = stream
    rw [same, ih]

theorem nextIndex_addTexts (closed : stream.textStarted = false) (deltas : List String) :
    (stream.addTexts deltas).nextIndex =
      stream.nextIndex + (textBlocks stream.nextIndex deltas).length := by
  cases deltas with
  | nil => rfl
  | cons delta deltas =>
    have opened := addTexts_opened (openText_fields stream).2.1 deltas
    change (stream.openText.addTexts deltas).nextIndex = _
    unfold textBlocks
    rw [opened, if_neg (List.cons_ne_nil _ _), List.length_singleton]
    unfold MessageStream.openText
    rw [if_neg (by simp [closed])]

theorem textBlocks_keys (index : Nat) (deltas : List String) {later : Nat}
    (behind : later ≥ index + (textBlocks index deltas).length) :
    Json.nat later ∉ (textBlocks index deltas).map Prod.fst := by
  unfold textBlocks at behind ⊢
  by_cases none : deltas = []
  · rw [if_pos none]
    exact List.not_mem_nil
  · rw [if_neg none] at behind ⊢
    rw [List.length_singleton] at behind
    intro mem
    have same := nat_injective (List.mem_singleton.mp mem)
    omega

theorem textBlocks_text (index : Nat) (deltas : List String) :
    (∀ block ∈ (textBlocks index deltas).map Prod.snd, block.kind = "text") ∧
      String.join (((textBlocks index deltas).map Prod.snd).map ClientBlock.text) =
        String.join deltas := by
  unfold textBlocks
  split
  · rename_i none
    rw [none]
    exact ⟨List.forall_mem_nil _, rfl⟩
  · refine ⟨by simp [textBlock], ?_⟩
    have empty : String.join [] = "" := rfl
    change String.join [String.join deltas] = _
    rw [String.join_cons, empty, String.append_empty]

theorem addFrames_ending (reading : MessageReading) (stream : MessageStream) :
    reading.addFrames (messageEnding stream) =
      { reading with
        stopReason := if stream.sawTool then "tool_use" else "end_turn"
        outputTokens := stream.outputTokens } := by
  have delta (fields : List (String × Json)) :
      stringAt "type" (.obj (("type", .str "message_delta") :: fields)) = "message_delta" := rfl
  have stop : stringAt "type" (.obj [("type", .str "message_stop")]) = "message_stop" := rfl
  have tokens : count (some (.nat stream.outputTokens)) = stream.outputTokens := count_nat _
  unfold messageEnding
  rw [addFrames_append, add_closeFrames, addFrames_cons, addFrames_cons, addFrames_nil,
    MessageReading.add, stop, if_neg (by decide), if_neg (by decide), if_neg (by decide),
    if_neg (by decide), MessageReading.add, delta, if_neg (by decide), if_neg (by decide),
    if_neg (by decide), if_pos rfl]
  change ({ reading with
    stopReason := if stream.sawTool then "tool_use" else "end_turn"
    outputTokens := count (some (.nat stream.outputTokens)) } : MessageReading) = _
  rw [tokens]

theorem addFrames_message (drawn : Nat) (deltas : List String) (calls : List CanonicalToolCall) :
    ({} : MessageReading).addFrames (messageFrames host model drawn deltas calls) =
      { blocks := textBlocks 0 (shownDeltas deltas) ++
          callBlocks host drawn (textMessages host deltas).nextIndex calls } := by
  have started : ({} : MessageReading).addFrames [messageStart model (openedMessages host)] = {} := by
    have type (stream : MessageStream) (fields : List (String × Json)) :
        stringAt "type" (.obj (("type", .str "message_start") :: fields)) = "message_start" := rfl
    unfold messageStart
    rw [addFrames_cons, MessageReading.add, type (openedMessages host), if_pos rfl, addFrames_nil]
    change ({ inputTokens := count (some (.nat 0)), outputTokens := count (some (.nat 0)) } :
      MessageReading) = {}
    rw [count_nat]
  have texts : ({} : MessageReading).addFrames
      (textFrames (openedMessages host) (shownDeltas deltas)) =
        { blocks := [] ++ textBlocks 0 (shownDeltas deltas) } :=
    addFrames_texts rfl List.not_mem_nil (shownDeltas deltas)
  have next : (textMessages host deltas).nextIndex =
      0 + (textBlocks 0 (shownDeltas deltas)).length :=
    nextIndex_addTexts rfl (shownDeltas deltas)
  change ({} : MessageReading).addFrames ([messageStart model (openedMessages host)] ++
    (textFrames (openedMessages host) (shownDeltas deltas) ++
      callFrames host drawn (textMessages host deltas) calls)) = _
  rw [addFrames_append, started, addFrames_append, texts, List.nil_append,
    addFrames_calls host drawn calls fun later behind =>
      textBlocks_keys 0 (shownDeltas deltas) (by rwa [next] at behind)]

theorem messageEvents_stream {deltas : List String} (cut : String.join deltas = result.text)
    (drawn : Nat) :
    messageEvents (messageFrames host model drawn deltas result.toolCalls ++
        messageEnding (((textMessages host deltas).addCalls result.toolCalls).counted result)) =
      sentMessage host drawn result := by
  let final := ((textMessages host deltas).addCalls result.toolCalls).counted result
  have sawTool : final.sawTool = !result.toolCalls.isEmpty := by
    have saw := (textMessages host deltas).addCalls_sawTool result.toolCalls
    rw [show (textMessages host deltas).sawTool = false from
      (addTexts_fields (openedMessages host) (shownDeltas deltas)).2, Bool.false_or] at saw
    exact saw
  have read : ({} : MessageReading).addFrames
      (messageFrames host model drawn deltas result.toolCalls ++ messageEnding final) =
        { blocks := textBlocks 0 (shownDeltas deltas) ++
            callBlocks host drawn (textMessages host deltas).nextIndex result.toolCalls
          stopReason := if result.toolCalls ≠ [] then "tool_use" else "end_turn"
          outputTokens := result.outputTokens } := by
    rw [addFrames_append, addFrames_message, addFrames_ending, sawTool]
    cases result.toolCalls with
    | nil => rfl
    | cons call calls => rfl
  obtain ⟨textKinds, text⟩ := textBlocks_text 0 (shownDeltas deltas)
  have callKinds := callBlocks_kinds host drawn (textMessages host deltas).nextIndex result.toolCalls
  have calls := callBlocks_calls host drawn (textMessages host deltas).nextIndex result.toolCalls
  change (({} : MessageReading).addFrames _).answer = _
  rw [read]
  unfold MessageReading.answer sentMessage
  dsimp only
  have textOnly : (((textBlocks 0 (shownDeltas deltas) ++ callBlocks host drawn
      (textMessages host deltas).nextIndex result.toolCalls).map Prod.snd).filter
        fun block => block.kind = "text") = (textBlocks 0 (shownDeltas deltas)).map Prod.snd := by
    rw [List.map_append, List.filter_append, List.filter_eq_self.mpr fun block mem =>
      decide_eq_true (textKinds block mem), List.filter_eq_nil_iff.mpr fun block mem => by
        rw [callKinds block mem]
        decide, List.append_nil]
  have callsOnly : (((textBlocks 0 (shownDeltas deltas) ++ callBlocks host drawn
      (textMessages host deltas).nextIndex result.toolCalls).map Prod.snd).filter
        fun block => block.kind = "tool_use") =
          (callBlocks host drawn (textMessages host deltas).nextIndex result.toolCalls).map
            Prod.snd := by
    rw [List.map_append, List.filter_append, List.filter_eq_nil_iff.mpr fun block mem => by
        rw [textKinds block mem]
        decide, List.filter_eq_self.mpr fun block mem => decide_eq_true (callKinds block mem),
      List.nil_append]
  rw [textOnly, callsOnly, text, calls, join_shownDeltas, cut]

/-! ### The two answers -/

/-- The answer a message carries. -/
def messageAnswer (result : CanonicalResult) : Answer :=
  { text := result.text
    calls := result.toolCalls.map fun call =>
      { id := call.callId, name := call.name, arguments := loads call.arguments.toList }
    finishReason := if result.toolCalls ≠ [] then "tool_use" else "end_turn"
    inputTokens := result.inputTokens
    outputTokens := result.outputTokens }

theorem toolBlock_object (object : ObjectArguments call) :
    (call.arguments = "" → ∃ err, toolBlock host call = .error err) ∧
      (call.arguments ≠ "" → ∃ input, toolBlock host call =
        .ok (.obj [("type", .str "tool_use"), ("id", .str call.callId), ("name", .str call.name),
          ("input", .obj input)]) ∧ loads call.arguments.toList = some (.obj input)) := by
  unfold toolBlock
  constructor
  · intro empty
    have noValue : loads "".toList = none := by decide +kernel
    rw [empty, noValue]
    exact ⟨_, rfl⟩
  · intro present
    rcases object with empty | ⟨input, decoded⟩
    · exact absurd empty present
    · rw [decoded]
      exact ⟨input, rfl, rfl⟩

theorem toolBlocks_present (object : ∀ call ∈ calls, ObjectArguments call)
    (present : ∀ call ∈ calls, call.arguments ≠ "") :
    ∃ blocks, calls.mapM (toolBlock host) = .ok blocks ∧
      (∀ block ∈ blocks, stringAt "type" block = "tool_use") ∧
      blocks.map toolUse = calls.map fun call =>
        { id := call.callId, name := call.name, arguments := loads call.arguments.toList } := by
  induction calls with
  | nil => exact ⟨[], rfl, List.forall_mem_nil _, rfl⟩
  | cons call calls ih =>
    obtain ⟨objectFirst, objectRest⟩ := List.forall_mem_cons.mp object
    obtain ⟨presentFirst, presentRest⟩ := List.forall_mem_cons.mp present
    obtain ⟨blocks, rest, kinds, uses⟩ := ih objectRest presentRest
    obtain ⟨input, block, decoded⟩ := (toolBlock_object host objectFirst).2 presentFirst
    refine ⟨.obj [("type", .str "tool_use"), ("id", .str call.callId), ("name", .str call.name),
      ("input", .obj input)] :: blocks, ?_, List.forall_mem_cons.mpr ⟨?_, kinds⟩, ?_⟩
    · rw [List.mapM_cons, block, rest]
      rfl
    · rfl
    · rw [List.map_cons, List.map_cons, uses, decoded]
      rfl

theorem toolBlocks_empty (object : ∀ call ∈ calls, ObjectArguments call)
    (empty : ∃ call ∈ calls, call.arguments = "") :
    ∃ err, calls.mapM (toolBlock host) = .error err := by
  induction calls with
  | nil =>
    obtain ⟨call, mem, -⟩ := empty
    cases mem
  | cons call calls ih =>
    obtain ⟨objectFirst, objectRest⟩ := List.forall_mem_cons.mp object
    by_cases here : call.arguments = ""
    · obtain ⟨err, refused⟩ := (toolBlock_object host objectFirst).1 here
      rw [List.mapM_cons, refused]
      exact ⟨err, rfl⟩
    · have rest : ∃ call ∈ calls, call.arguments = "" := by
        obtain ⟨other, mem, isEmpty⟩ := empty
        rcases List.mem_cons.mp mem with rfl | mem
        · exact absurd isEmpty here
        · exact ⟨other, mem, isEmpty⟩
      obtain ⟨input, block, -⟩ := (toolBlock_object host objectFirst).2 here
      obtain ⟨err, refused⟩ := ih objectRest rest
      rw [List.mapM_cons, block, refused]
      exact ⟨err, rfl⟩

theorem messageDocument_result (drawn : String)
    (object : ∀ call ∈ result.toolCalls, ObjectArguments call)
    (present : ∀ call ∈ result.toolCalls, call.arguments ≠ "") :
    ∃ document, canonicalResultToMessage host drawn model result = .ok document ∧
      messageDocument document = messageAnswer result := by
  obtain ⟨blocks, built, kinds, uses⟩ := toolBlocks_present host object present
  let text := if result.text ≠ "" then
    [Json.obj [("type", .str "text"), ("text", .str result.text)]] else []
  have textBlock : (∀ block ∈ text, stringAt "type" block = "text") ∧
      String.join (text.map (stringAt "text" ·)) = result.text := by
    by_cases empty : result.text = ""
    · have none : text = [] := if_neg (by simp [empty])
      rw [none, empty]
      exact ⟨List.forall_mem_nil _, rfl⟩
    · have one : text = [Json.obj [("type", .str "text"), ("text", .str result.text)]] := if_pos empty
      have noMore : String.join [] = "" := rfl
      rw [one, List.map_singleton, String.join_cons, noMore, String.append_empty]
      exact ⟨List.forall_mem_singleton.mpr rfl, rfl⟩
  have textOnly : (text ++ blocks).filter (fun block => stringAt "type" block = "text") = text := by
    rw [List.filter_append, List.filter_eq_self.mpr fun block mem =>
      decide_eq_true (textBlock.1 block mem), List.filter_eq_nil_iff.mpr fun block mem => by
        rw [kinds block mem]
        decide, List.append_nil]
  have callsOnly : (text ++ blocks).filter (fun block => stringAt "type" block = "tool_use") =
      blocks := by
    rw [List.filter_append, List.filter_eq_nil_iff.mpr fun block mem => by
        rw [textBlock.1 block mem]
        decide, List.filter_eq_self.mpr fun block mem => decide_eq_true (kinds block mem),
      List.nil_append]
  refine ⟨_, by rw [canonicalResultToMessage, built]; rfl, ?_⟩
  apply Answer.ext
  · change String.join (((text ++ blocks).filter fun block =>
      stringAt "type" block = "text").map (stringAt "text" ·)) = _
    rw [textOnly, textBlock.2]
    rfl
  · change ((text ++ blocks).filter fun block => stringAt "type" block = "tool_use").map toolUse = _
    rw [callsOnly, uses]
    rfl
  · rfl
  · exact count_nat _
  · exact count_nat _

theorem sentCalls_eq_iff (drawn : Nat) (present : ∀ call ∈ calls, ¬ BlankId call)
    (arguments : ∀ call ∈ calls, ObjectArguments call ∧ call.arguments ≠ "") :
    sentCalls host drawn calls = calls.map (fun call =>
        { id := call.callId, name := call.name, arguments := loads call.arguments.toList }) ↔
      ∀ call ∈ calls, call.callId ≠ "" ∧ pyStrip call.callId = call.callId := by
  induction calls generalizing drawn with
  | nil => simp [sentCalls]
  | cons call calls ih =>
    obtain ⟨presentFirst, presentRest⟩ := List.forall_mem_cons.mp present
    obtain ⟨⟨object, notEmpty⟩, argumentsRest⟩ := List.forall_mem_cons.mp arguments
    have decoded : some (decodedArguments call) = loads call.arguments.toList := by
      obtain ⟨fields, read, same⟩ := loads_sentArguments object
      have sent : sentArguments call = call.arguments := if_pos notEmpty
      rw [same, ← sent, read]
    have isId := @sentId_eq_iff (host.uuid4 drawn) call presentFirst
    rw [sentCalls, List.map_cons, List.cons.injEq, List.forall_mem_cons,
      ih (drawn + 1) presentRest argumentsRest, ← isId, ClientCall.mk.injEq, decoded]
    simp

/-- The client reads the same answer from the stream and from the message. -/
def MessagesAgrees (drawn : String) (e : Emitter) (deltas : List String) (result : CanonicalResult) :
    Prop :=
  let streamed := messagesStreamed host model e deltas result
  ∃ document, canonicalResultToMessage host drawn model result = .ok document ∧
    streamed.2 = none ∧ messageEvents streamed.1 = messageDocument document

/-- The stream and the message agree exactly when the answer counts no tokens of the request and
every call has arguments and an identifier without blanks around it. -/
theorem messagesAgrees_iff (drawn : String) (e : Emitter) (silent : e.reasoning = none)
    (noMessage : e.message = none) (fresh : e.output = []) {deltas : List String}
    (cut : String.join deltas = result.text) (plain : ∀ call ∈ result.toolCalls, PlainCall call)
    (object : ∀ call ∈ result.toolCalls, ObjectArguments call) :
    MessagesAgrees host model drawn e deltas result ↔
      result.inputTokens = 0 ∧ ∀ call ∈ result.toolCalls, call.arguments ≠ "" ∧
        call.callId ≠ "" ∧ pyStrip call.callId = call.callId := by
  unfold MessagesAgrees
  dsimp only
  by_cases arguments : ∀ call ∈ result.toolCalls, call.arguments ≠ ""
  · obtain ⟨document, built, read⟩ := messageDocument_result host model drawn object arguments
    by_cases present : ∀ call ∈ result.toolCalls, ¬ BlankId call
    · obtain ⟨first, streamed⟩ := messagesStreamed_of_present host model deltas plain object present
        e silent noMessage fresh
      have answers : sentMessage host first result = messageAnswer result ↔
          result.inputTokens = 0 ∧ ∀ call ∈ result.toolCalls, call.arguments ≠ "" ∧
            call.callId ≠ "" ∧ pyStrip call.callId = call.callId := by
        have calls := sentCalls_eq_iff host first present fun call mem =>
          ⟨object call mem, arguments call mem⟩
        unfold sentMessage messageAnswer
        rw [Answer.mk.injEq, calls]
        constructor
        · rintro ⟨-, kept, -, tokens, -⟩
          exact ⟨tokens.symm, fun call mem => ⟨arguments call mem, kept call mem⟩⟩
        · rintro ⟨tokens, kept⟩
          exact ⟨rfl, fun call mem => (kept call mem).2, rfl, tokens.symm, rfl⟩
      rw [← answers, built, streamed]
      constructor
      · rintro ⟨other, same, -, agrees⟩
        cases same
        rwa [messageEvents_stream host model cut first, read] at agrees
      · intro agrees
        refine ⟨document, rfl, rfl, ?_⟩
        rw [messageEvents_stream host model cut first, read, agrees]
    · have blank : ∃ call ∈ result.toolCalls, BlankId call := by
        simpa only [not_forall, not_not, exists_prop] using present
      have failed := messagesStreamed_of_blank host model deltas plain object blank e silent
        noMessage fresh
      constructor
      · rintro ⟨-, -, streamed, -⟩
        exact absurd streamed failed
      · rintro ⟨-, fine⟩
        obtain ⟨call, mem, notEmpty, isBlank⟩ := blank
        exact absurd ((fine call mem).2.2.symm.trans isBlank) notEmpty
  · have empty : ∃ call ∈ result.toolCalls, call.arguments = "" := by
      simpa only [not_forall, not_not, exists_prop, ne_eq] using arguments
    obtain ⟨err, refused⟩ := toolBlocks_empty host object empty
    constructor
    · rintro ⟨document, built, -⟩
      rw [canonicalResultToMessage, refused] at built
      cases built
    · rintro ⟨-, fine⟩
      exact absurd (fun call mem => (fine call mem).1) arguments

end

end AgentPark.Gateway
