import AgentPark.Gateway.ChatRequest
import AgentPark.Gateway.ChatWire
import AgentPark.Gateway.Converter

/-!
# What a Chat Completions client reads

A client reads the answer to its request from one document or puts it together from the chunks of a
stream.  This module has both readings and follows a result through the emitter and
`responsesSseToChat` to the chunks.
-/

namespace AgentPark.Gateway

open Lib Generator Emitter

/-! ### The readings -/

/-- A call of a Chat answer. -/
def chatFragment (raw : Json) : Fragment :=
  { id := stringAt "id" raw, name := stringAt "name" (valueAt "function" raw)
    arguments := stringAt "arguments" (valueAt "function" raw) }

/-- The answer a Chat document carries. -/
def chatDocument (document : Json) : Answer :=
  let choice := (itemsAt "choices" document).headD .null
  let message := valueAt "message" choice
  let usage := valueAt "usage" document
  { text := stringAt "content" message
    calls := (itemsAt "tool_calls" message).map fun raw => (chatFragment raw).call
    finishReason := stringAt "finish_reason" choice
    inputTokens := count (usage.get "prompt_tokens")
    outputTokens := count (usage.get "completion_tokens") }

/-- What a client has put together of a Chat stream: the calls stand under their index. -/
structure ChatReading where
  text : String := ""
  fragments : List (Json × Fragment) := []
  finishReason : String := ""
  usage : Json := .null
deriving DecidableEq

/-- A piece of a call: the first under its index opens it, a later one adds arguments. -/
def ChatReading.addFragment (reading : ChatReading) (raw : Json) : ChatReading :=
  let index := valueAt "index" raw
  let fragment := match reading.fragments.lookup index with
    | some before => { before with arguments := before.arguments ++ (chatFragment raw).arguments }
    | none => chatFragment raw
  { reading with fragments := dictSet reading.fragments index fragment }

/-- A chunk of a Chat stream. -/
def ChatReading.add (reading : ChatReading) (chunk : Json) : ChatReading :=
  let choice := (itemsAt "choices" chunk).headD .null
  let delta := valueAt "delta" choice
  let reading := (itemsAt "tool_calls" delta).foldl ChatReading.addFragment reading
  { reading with
    text := reading.text ++ stringAt "content" delta
    finishReason := reading.finishReason ++ stringAt "finish_reason" choice
    usage := (chunk.get "usage").getD reading.usage }

/-- The answer a Chat stream carries. -/
def chatChunks (frames : List Frame) : Answer :=
  let reading := (frames.filterMap Frame.payload).foldl ChatReading.add {}
  { text := reading.text
    calls := reading.fragments.map fun fragment => fragment.2.call
    finishReason := reading.finishReason
    inputTokens := count (reading.usage.get "prompt_tokens")
    outputTokens := count (reading.usage.get "completion_tokens") }

/-! ### The stream, piece by piece -/

section

variable (host : Host) (time : Nat) (model : String) {s s' : ChatStream} {out : List Frame}
  {flow : Flow} {ev : Event} {n : Nat}

theorem emits_startChat (started : s.started = true) : Emits (startChat time model) s [] () s := by
  unfold startChat
  apply emits_get.then
  rw [if_pos started]
  exact emits_pure

theorem emits_startChat_first (fresh : s.started = false) :
    Emits (startChat time model) s [chatFrame time model { s with started := true } firstDelta] ()
      { s with started := true } := by
  unfold startChat
  apply emits_get.then
  rw [if_neg (by simp [fresh])]
  exact rfl

theorem chatHandle_of_started (started : s.started = true) (later : ev.1 ≠ "response.created")
    (handled : Emits (chatEvent host time model (payload n ev)) s out flow s') :
    Emits (chatHandle host time model (payload n ev)) s out flow s' := by
  unfold chatHandle
  rw [eventType_payload, if_neg later]
  exact (emits_startChat time model started).then handled

theorem passes_chat (started : s.started = true) : Passes (chatHandle host time model) s := by
  intro ev quiet n
  obtain ⟨created, text, done, completed, failed⟩ := quiet.kinds
  apply chatHandle_of_started host time model started created
  unfold chatEvent
  rw [eventType_payload, if_neg text, if_neg done, if_neg completed, if_neg failed]
  exact emits_pure

/-- The delta of a piece of text. -/
def contentDelta (delta : String) : Json := .obj [("content", .str delta)]

theorem chatHandle_text (started : s.started = true) (message : OpenMessage) {delta : String}
    (notEmpty : delta ≠ "") :
    Emits (chatHandle host time model (payload n (textEvent message delta))) s
      [chatFrame time model s (contentDelta delta)] .next s := by
  apply chatHandle_of_started host time model started (by rw [textEvent_kind]; decide)
  have isDelta : (payload n (textEvent message delta)).get "delta" = some (.str delta) := by
    rw [get_payload _ _ (by decide) (by decide)]
    rfl
  unfold chatEvent
  rw [eventType_payload, if_pos (by rfl), isDelta]
  dsimp only
  rw [textOf_str, if_pos notEmpty]
  exact rfl

theorem chatHandle_item (started : s.started = true) {fields : List (String × Json)} (index : Nat)
    (noCall : textOf host ((Json.obj fields).get "type") ∉ ["function_call", "custom_tool_call"]) :
    Emits (chatHandle host time model (payload n (doneEvent index (.obj fields)))) s [] .next s := by
  apply chatHandle_of_started host time model started (by rw [doneEvent_kind]; decide)
  unfold chatEvent
  rw [eventType_payload, if_neg (by rw [doneEvent_kind]; decide), if_pos (by rfl)]
  unfold chatItemDone
  rw [get_item_doneEvent]
  dsimp only
  rw [if_neg noCall]
  exact emits_pure

/-- The function of a call in a chunk. -/
def chunkFunction (call : CanonicalToolCall) : Json :=
  .obj [("name", .str call.name), ("arguments", .str (sentArguments call))]

variable {call : CanonicalToolCall}

theorem itemToolCall_functionItem (drawn : String) (plain : PlainCall call) :
    itemToolCall host (.obj (functionItem drawn call)) =
      if BlankId call then .error (.protocol "Responses tool call requires call_id and name.")
      else .ok (sentId drawn call, chunkFunction call) := by
  unfold itemToolCall
  rw [sentId_functionItem, name_functionItem host plain, if_congr (refused_iff plain) rfl rfl]
  by_cases blank : BlankId call
  · rw [if_pos blank, if_pos blank]
  · rw [if_neg blank, if_neg blank, if_neg (not_custom_functionItem host), arguments_functionItem]
    rfl

theorem chatEvent_call (drawn : String) (call : CanonicalToolCall) (index : Nat) :
    chatEvent host time model (payload n (doneEvent index (.obj (functionItem drawn call)))) =
      (do
        let call ← ofExcept (itemToolCall host (.obj (functionItem drawn call)))
        modify fun stream => { stream with sawTool := true }
        let stream ← get
        yieldDelta time model (callDelta stream.toolIndex call.1 call.2)
        modify fun stream => { stream with toolIndex := stream.toolIndex + 1 }
        pure .next) := by
  unfold chatEvent
  rw [eventType_payload, if_neg (by rw [doneEvent_kind]; decide), if_pos (by rfl)]
  unfold chatItemDone
  rw [get_item_doneEvent]
  dsimp only
  rw [type_functionItem, textOf_str, if_pos (by decide)]

/-- The stream behind one more call. -/
def ChatStream.addCall (stream : ChatStream) : ChatStream :=
  { stream with sawTool := true, toolIndex := stream.toolIndex + 1 }

theorem chatHandle_call (started : s.started = true) (drawn : String) (plain : PlainCall call)
    (present : ¬ BlankId call) (index : Nat) :
    Emits (chatHandle host time model
        (payload n (doneEvent index (.obj (functionItem drawn call))))) s
      [chatFrame time model s (callDelta s.toolIndex (sentId drawn call) (chunkFunction call))]
      .next s.addCall := by
  apply chatHandle_of_started host time model started (by rw [doneEvent_kind]; decide)
  have isCall : itemToolCall host (.obj (functionItem drawn call)) =
      .ok (sentId drawn call, chunkFunction call) := by
    rw [itemToolCall_functionItem host drawn plain, if_neg present]
  rw [chatEvent_call]
  exact (emits_ofExcept isCall).then rfl

theorem chatHandle_blank (started : s.started = true) (drawn : String) (plain : PlainCall call)
    (blank : BlankId call) (index : Nat) :
    ∃ out err, Fails (chatHandle host time model
      (payload n (doneEvent index (.obj (functionItem drawn call))))) s out err := by
  have refused : itemToolCall host (.obj (functionItem drawn call)) =
      .error (.protocol "Responses tool call requires call_id and name.") := by
    rw [itemToolCall_functionItem host drawn plain, if_pos blank]
  refine ⟨[], .protocol "Responses tool call requires call_id and name.", ?_⟩
  unfold chatHandle
  rw [eventType_payload, if_neg (by rw [doneEvent_kind]; decide)]
  apply (emits_startChat time model started).bind_fails
  rw [chatEvent_call, refused]
  exact rfl

variable {result : CanonicalResult}

theorem chatHandle_completed (started : s.started = true) {response : Json}
    (isUsage : response.get "usage" = some (usage result)) :
    Emits (chatHandle host time model (payload n ("response.completed", [("response", response)])))
      s [] .next { s with usage := some (chatUsage result.inputTokens result.outputTokens) } := by
  have notCreated : "response.completed" ≠ "response.created" := by decide
  have notText : "response.completed" ≠ "response.output_text.delta" := by decide
  have notDone : "response.completed" ≠ "response.output_item.done" := by decide
  apply chatHandle_of_started host time model started notCreated
  unfold chatEvent
  rw [eventType_payload, if_neg notText, if_neg notDone, if_pos (by rfl)]
  unfold chatCompleted
  obtain ⟨fields, isObject, input, output⟩ := usage_fields result
  rw [get_response_payload, Option.bind_some, isUsage, isObject]
  dsimp only
  rw [input, output]
  exact rfl

/-- The stream that has seen the identifier of the response. -/
def namedChat (stream : ChatStream) (responseId : String) : ChatStream :=
  if responseId ≠ "" then
    { stream with completionId := completionId (host.uuid4 stream.drawn) responseId
                  drawn := stream.drawn + 1 }
  else stream

theorem namedChat_fields (stream : ChatStream) (responseId : String) :
    (namedChat host stream responseId).started = stream.started ∧
      (namedChat host stream responseId).sawTool = stream.sawTool ∧
      (namedChat host stream responseId).toolIndex = stream.toolIndex ∧
      (namedChat host stream responseId).usage = stream.usage := by
  unfold namedChat
  split
  · exact ⟨rfl, rfl, rfl, rfl⟩
  · exact ⟨rfl, rfl, rfl, rfl⟩

/-- The stream behind the first chunk. -/
def openedChat (responseId : String) : ChatStream :=
  { namedChat host (ChatStream.initial host) responseId with started := true }

theorem chatHandle_created {response : Json} {responseId : String}
    (isId : response.get "id" = some (.str responseId)) :
    Emits (chatHandle host time model (payload n ("response.created", [("response", response)])))
      (ChatStream.initial host) [chatFrame time model (openedChat host responseId) firstDelta] .next
      (openedChat host responseId) := by
  have fresh : (ChatStream.initial host).started = false := rfl
  unfold openedChat
  generalize ChatStream.initial host = stream at fresh
  have first := emits_startChat_first time model
    ((namedChat_fields host stream responseId).1.trans fresh)
  unfold chatHandle
  rw [eventType_payload, if_pos (by rfl)]
  unfold chatCreated
  rw [get_response_payload, Option.bind_some, isId, textOf_str]
  dsimp only
  by_cases empty : responseId = ""
  · have same : namedChat host stream responseId = stream := if_neg (by simp [empty])
    rw [if_neg (by simp [empty])]
    rw [same] at first ⊢
    exact first.bind emits_pure
  · have same : namedChat host stream responseId =
        { stream with completionId := completionId (host.uuid4 stream.drawn) responseId
                      drawn := stream.drawn + 1 } := if_pos empty
    rw [if_pos empty]
    apply emits_modify.then
    rw [same] at first ⊢
    exact first.bind emits_pure

/-! ### The whole stream -/

/-- The deltas of the calls, numbered from `index` on. -/
def callDeltas (drawn index : Nat) : List CanonicalToolCall → List Json
  | [] => []
  | call :: calls =>
    callDelta index (sentId (host.uuid4 drawn) call) (chunkFunction call) ::
      callDeltas (drawn + 1) (index + 1) calls

/-- The stream behind some calls. -/
def ChatStream.addCalls (stream : ChatStream) (calls : List CanonicalToolCall) : ChatStream :=
  calls.foldl (fun stream _ => stream.addCall) stream

theorem ChatStream.addCalls_sawTool (stream : ChatStream) (calls : List CanonicalToolCall) :
    (stream.addCalls calls).sawTool = (stream.sawTool || !calls.isEmpty) := by
  induction calls generalizing stream with
  | nil => simp [ChatStream.addCalls]
  | cons call calls ih =>
    have later := ih stream.addCall
    rw [show stream.addCall.sawTool = true by rfl, Bool.true_or] at later
    rw [List.isEmpty_cons, Bool.not_false, Bool.or_true]
    exact later

variable {e : Emitter}

/-- The stream behind a finished answer. -/
def ChatStream.counted (stream : ChatStream) (result : CanonicalResult) : ChatStream :=
  { stream with usage := some (chatUsage result.inputTokens result.outputTokens) }

theorem chatHandle_message (started : s.started = true) (index : Nat) (itemId text : String) :
    Emits (chatHandle host time model
      (payload n (doneEvent index (messageItem itemId text "completed")))) s [] .next s := by
  apply chatHandle_item host time model started
  have type : (messageItem itemId text "completed").get "type" = some (.str "message") := rfl
  unfold messageItem at type
  rw [type, textOf_str]
  decide

/-- The converter to Chat chunks. -/
def chatConverter : Converter host ChatStream where
  handle := chatHandle host time model
  kind := PlainCall
  ready stream := stream.started = true
  texted stream := stream.started = true
  addText stream := stream
  showText stream delta := [chatFrame time model stream (contentDelta delta)]
  addCall := ChatStream.addCall
  showCall drawn stream call := [chatFrame time model stream
    (callDelta stream.toolIndex (sentId (host.uuid4 drawn) call) (chunkFunction call))]
  count result stream := stream.counted result
  plain _ := id
  ready_addText _ := id
  texted_addText _ := id
  ready_addCall _ := id
  passes _ := passes_chat host time model
  text _ started _ notEmpty message _ := chatHandle_text host time model started message notEmpty
  message _ started _ index itemId text _ := chatHandle_message host time model started index itemId text
  call _ started drawn _ plain present index _ :=
    chatHandle_call host time model started (host.uuid4 drawn) plain present index
  blank _ started drawn _ plain blank index _ :=
    chatHandle_blank host time model started (host.uuid4 drawn) plain blank index
  completed _ started _ _ _ isUsage := chatHandle_completed host time model started isUsage

theorem chatConverter_opens (silent : e.reasoning = none) (fresh : e.output = []) :
    (chatConverter host time model).Opens e (ChatStream.initial host)
      [chatFrame time model (openedChat host e.responseId) firstDelta] (openedChat host e.responseId) where
  begins _ _ isId := chatHandle_created host time model isId
  ready := rfl
  silent := silent
  texted _ := rfl
  fresh := fresh

theorem chatConverter_addTexts (deltas : List String) : (chatConverter host time model).addTexts s deltas = s := by
  induction deltas with
  | nil => rfl
  | cons delta deltas ih => exact ih

theorem chatConverter_textFrames (deltas : List String) :
    (chatConverter host time model).textFrames s deltas =
      deltas.map fun delta => chatFrame time model s (contentDelta delta) := by
  induction deltas with
  | nil => rfl
  | cons delta deltas ih => exact congrArg (_ :: ·) ih

theorem chatConverter_callFrames (drawn : Nat) (calls : List CanonicalToolCall) :
    (chatConverter host time model).callFrames drawn s calls =
      (callDeltas host drawn s.toolIndex calls).map (chatFrame time model s ·) := by
  induction calls generalizing drawn s with
  | nil => rfl
  | cons call calls ih => exact congrArg (_ :: ·) (ih (drawn + 1))

/-- The client of an answer that an adapter streams. -/
def chatStreamed (e : Emitter) (deltas : List String) (result : CanonicalResult) :
    List Frame × Option Raised :=
  let sent := Run (sendAnswer host deltas result) e
  Run (responsesSseToChat host time model (sent.1.map Frame.bytes, sent.2)) (ChatStream.initial host)

/-- The frames that end a Chat stream. -/
def chatEnding (stream : ChatStream) : List Frame :=
  [chatFrame time model stream (.obj []) (.str (if stream.sawTool then "tool_calls" else "stop")),
    .done]

theorem emits_finishChat (started : s.started = true) :
    Emits (finishChat time model) s (chatEnding time model s) () s := by
  unfold finishChat
  apply (emits_startChat time model started).then
  exact rfl

theorem chatStreamed_of_present (deltas : List String)
    (plain : ∀ call ∈ result.toolCalls, PlainCall call)
    (present : ∀ call ∈ result.toolCalls, ¬ BlankId call) (e : Emitter)
    (silent : e.reasoning = none) (fresh : e.output = []) :
    ∃ drawn, chatStreamed host time model e deltas result =
      ((firstDelta :: ((shownDeltas deltas).map contentDelta ++
        callDeltas host drawn 0 result.toolCalls)).map
          (chatFrame time model (openedChat host e.responseId) ·) ++
        chatEnding time model
          (((openedChat host e.responseId).addCalls result.toolCalls).counted result), none) := by
  have index : (openedChat host e.responseId).toolIndex = 0 :=
    (namedChat_fields host (ChatStream.initial host) e.responseId).2.2.1
  obtain ⟨drawn, streamed⟩ := (chatConverter_opens host time model silent fresh).streamed
    (fun t started => emits_finishChat time model (s := t.counted result) started) deltas plain present
  refine ⟨drawn, streamed.trans ?_⟩
  rw [Converter.answerFrames, Converter.answered, chatConverter_addTexts, chatConverter_textFrames,
    chatConverter_callFrames, index, List.map_cons, List.map_append, List.map_map]
  rfl

theorem chatStreamed_of_blank (deltas : List String)
    (plain : ∀ call ∈ result.toolCalls, PlainCall call)
    (blank : ∃ call ∈ result.toolCalls, BlankId call) (e : Emitter) (silent : e.reasoning = none)
    (fresh : e.output = []) :
    (chatStreamed host time model e deltas result).2 ≠ none :=
  (chatConverter_opens host time model silent fresh).refuses deltas plain blank

/-! ### The reading of the stream -/

/-- The call a stream carries. -/
def sentFragment (drawn : Nat) (call : CanonicalToolCall) : Fragment :=
  { id := sentId (host.uuid4 drawn) call, name := call.name, arguments := sentArguments call }

/-- The calls a stream carries, under their indexes. -/
def sentFragments (drawn index : Nat) : List CanonicalToolCall → List (Json × Fragment)
  | [] => []
  | call :: calls =>
    (.nat index, sentFragment host drawn call) :: sentFragments (drawn + 1) (index + 1) calls

theorem choice_chatPayload (stream : ChatStream) (delta finishReason : Json) :
    (itemsAt "choices" (chatPayload time model stream delta finishReason)).headD .null =
      .obj [("index", .nat 0), ("delta", delta), ("finish_reason", finishReason)] := rfl

theorem add_chatPayload (reading : ChatReading) (stream : ChatStream) (delta : Json) :
    reading.add (chatPayload time model stream delta .null) =
      let reading := (itemsAt "tool_calls" delta).foldl ChatReading.addFragment reading
      { reading with text := reading.text ++ stringAt "content" delta } := by
  have noUsage : (chatPayload time model stream delta .null).get "usage" = none := rfl
  have noReason : stringAt "finish_reason"
      (.obj [("index", .nat 0), ("delta", delta), ("finish_reason", .null)]) = "" := rfl
  have isDelta : valueAt "delta"
      (.obj [("index", .nat 0), ("delta", delta), ("finish_reason", .null)]) = delta := rfl
  unfold ChatReading.add
  dsimp only
  rw [choice_chatPayload, noUsage, noReason, isDelta, String.append_empty, Option.getD_none]

theorem add_content (reading : ChatReading) (stream : ChatStream) (delta : String) :
    reading.add (chatPayload time model stream (contentDelta delta) .null) =
      { reading with text := reading.text ++ delta } := by
  rw [add_chatPayload]
  rfl

theorem add_contents (reading : ChatReading) (stream : ChatStream) (deltas : List String) :
    (deltas.map fun delta => chatPayload time model stream (contentDelta delta) .null).foldl
        ChatReading.add reading =
      { reading with text := reading.text ++ String.join deltas } := by
  induction deltas generalizing reading with
  | nil =>
    have empty : String.join [] = "" := rfl
    rw [empty, String.append_empty]
    rfl
  | cons delta deltas ih =>
    rw [List.map_cons, List.foldl_cons, add_content, ih, String.join_cons, String.append_assoc]

theorem add_call (reading : ChatReading) (stream : ChatStream) (drawn index : Nat)
    (call : CanonicalToolCall) (fresh : Json.nat index ∉ reading.fragments.map Prod.fst) :
    reading.add (chatPayload time model stream
        (callDelta index (sentId (host.uuid4 drawn) call) (chunkFunction call)) .null) =
      { reading with
        fragments := reading.fragments ++ [(.nat index, sentFragment host drawn call)] } := by
  have notYet : reading.fragments.lookup (.nat index) = none := by
    rw [List.lookup_eq_none_iff]
    intro entry mem
    have other : Json.nat index ≠ entry.1 := by
      rintro same
      exact fresh (same ▸ List.mem_map_of_mem mem)
    simpa using other
  rw [add_chatPayload]
  have items : itemsAt "tool_calls"
      (callDelta index (sentId (host.uuid4 drawn) call) (chunkFunction call)) =
    [.obj [("index", .nat index), ("id", .str (sentId (host.uuid4 drawn) call)),
      ("type", .str "function"), ("function", chunkFunction call)]] := rfl
  have noText : stringAt "content"
      (callDelta index (sentId (host.uuid4 drawn) call) (chunkFunction call)) = "" := rfl
  rw [items, noText]
  dsimp only
  rw [List.foldl_cons, List.foldl_nil, String.append_empty]
  unfold ChatReading.addFragment
  have isIndex : valueAt "index" (.obj [("index", .nat index),
      ("id", .str (sentId (host.uuid4 drawn) call)), ("type", .str "function"),
      ("function", chunkFunction call)]) = .nat index := rfl
  dsimp only
  rw [isIndex, notYet, dictSet, if_neg fresh]
  rfl

theorem add_calls (reading : ChatReading) (stream : ChatStream) (calls : List CanonicalToolCall)
    (drawn index : Nat)
    (fresh : ∀ later ≥ index, Json.nat later ∉ reading.fragments.map Prod.fst) :
    ((callDeltas host drawn index calls).map fun delta =>
        chatPayload time model stream delta .null).foldl ChatReading.add reading =
      { reading with fragments := reading.fragments ++ sentFragments host drawn index calls } := by
  induction calls generalizing reading drawn index with
  | nil =>
    unfold sentFragments callDeltas
    rw [List.append_nil]
    rfl
  | cons call calls ih =>
    have still : ∀ later ≥ index + 1, Json.nat later ∉
        (reading.fragments ++ [(Json.nat index, sentFragment host drawn call)]).map Prod.fst := by
      intro later above mem
      rw [List.map_append, List.mem_append] at mem
      rcases mem with old | new
      · exact fresh later (by omega) old
      · have same := nat_injective (List.mem_singleton.mp new)
        omega
    rw [callDeltas, List.map_cons, List.foldl_cons,
      add_call host time model reading stream drawn index call (fresh index (by omega)),
      ih _ _ _ still, sentFragments, List.append_assoc, List.singleton_append]

/-- The answer a stream carries. -/
def sentAnswer (drawn : Nat) (result : CanonicalResult) : Answer :=
  { text := result.text
    calls := (sentFragments host drawn 0 result.toolCalls).map fun fragment => fragment.2.call
    finishReason := if result.toolCalls ≠ [] then "tool_calls" else "stop"
    inputTokens := result.inputTokens
    outputTokens := result.outputTokens }

theorem chatChunks_stream {deltas : List String} (cut : String.join deltas = result.text)
    (drawn : Nat) (stream : ChatStream) (noTool : stream.sawTool = false) :
    chatChunks ((firstDelta :: ((shownDeltas deltas).map contentDelta ++
        callDeltas host drawn 0 result.toolCalls)).map (chatFrame time model stream ·) ++
        chatEnding time model ((stream.addCalls result.toolCalls).counted result)) =
      sentAnswer host drawn result := by
  let final := (stream.addCalls result.toolCalls).counted result
  let reason := Json.str (if final.sawTool then "tool_calls" else "stop")
  let body := firstDelta :: ((shownDeltas deltas).map contentDelta ++
    callDeltas host drawn 0 result.toolCalls)
  have payloads : (body.map (chatFrame time model stream ·) ++ chatEnding time model final).filterMap
      Frame.payload = body.map (chatPayload time model stream · .null) ++
        [chatPayload time model final (.obj []) reason] := by
    rw [List.filterMap_append, List.filterMap_map]
    congr 1
    rw [← List.filterMap_eq_map]
    rfl
  have first (reading : ChatReading) :
      reading.add (chatPayload time model stream firstDelta .null) = reading := by
    rw [add_chatPayload]
    change { reading with text := reading.text ++ "" } = reading
    rw [String.append_empty]
  have read : (body.map (chatPayload time model stream · .null)).foldl ChatReading.add {} =
      { text := result.text, fragments := sentFragments host drawn 0 result.toolCalls } := by
    have texts : ((shownDeltas deltas).map fun delta =>
        chatPayload time model stream (contentDelta delta) .null).foldl ChatReading.add {} =
          { text := result.text } := by
      rw [add_contents, join_shownDeltas, cut]
      change ({ text := "" ++ result.text } : ChatReading) = _
      rw [String.empty_append]
    have calls := add_calls host time model { text := result.text } stream result.toolCalls drawn 0
      (by simp)
    rw [List.map_cons, List.foldl_cons, first, List.map_append, List.foldl_append, List.map_map]
    change List.foldl _ (((shownDeltas deltas).map fun delta =>
      chatPayload time model stream (contentDelta delta) .null).foldl ChatReading.add {}) _ = _
    rw [texts]
    exact calls
  have sawTool : final.sawTool = !result.toolCalls.isEmpty := by
    have saw := stream.addCalls_sawTool result.toolCalls
    rw [noTool, Bool.false_or] at saw
    exact saw
  have ending (reading : ChatReading) : reading.add (chatPayload time model final (.obj []) reason) =
      { reading with
        text := reading.text ++ ""
        finishReason := reading.finishReason ++ (if final.sawTool then "tool_calls" else "stop")
        usage := chatUsage result.inputTokens result.outputTokens } := rfl
  unfold chatChunks
  rw [payloads, List.foldl_append, read, List.foldl_cons, List.foldl_nil, ending, sawTool]
  unfold sentAnswer
  have input : count ((chatUsage result.inputTokens result.outputTokens).get "prompt_tokens") =
      result.inputTokens := count_nat _
  have output : count ((chatUsage result.inputTokens result.outputTokens).get "completion_tokens") =
      result.outputTokens := count_nat _
  dsimp only
  rw [input, output, String.append_empty, String.empty_append]
  cases result.toolCalls with
  | nil => rfl
  | cons call calls => rfl

/-! ### The two answers -/

/-- The answer a document carries. -/
def documentAnswer (result : CanonicalResult) : Answer :=
  { text := result.text
    calls := result.toolCalls.map fun call =>
      { id := call.callId, name := call.wireName host, arguments := loads call.arguments.toList }
    finishReason := if result.toolCalls ≠ [] then "tool_calls" else "stop"
    inputTokens := result.inputTokens
    outputTokens := result.outputTokens }

theorem chatFragment_toolCall (plain : PlainCall call) :
    (chatFragment (chatToolCall host call)).call =
      { id := call.callId, name := call.wireName host, arguments := loads call.arguments.toList } := by
  have notCustom : call.kind ≠ .custom := by
    rw [plain.kind]
    decide
  unfold chatToolCall
  dsimp only
  rw [if_neg notCustom]
  rfl

theorem chatDocument_result (drawn : String) (plain : ∀ call ∈ result.toolCalls, PlainCall call) :
    chatDocument (canonicalResultToChat host drawn time model result) =
      documentAnswer host result := by
  have calls : result.toolCalls.map (fun call => (chatFragment (chatToolCall host call)).call) =
      (documentAnswer host result).calls :=
    List.map_congr_left fun call mem => chatFragment_toolCall host (plain call mem)
  apply Answer.ext
  · change stringAt "content" (.obj [("content",
      if result.text ≠ "" then Json.str result.text else .null)]) = result.text
    by_cases empty : result.text = ""
    · rw [if_neg (by simp [empty]), empty]
      rfl
    · rw [if_pos empty]
      rfl
  · rw [← calls]
    unfold canonicalResultToChat
    cases result.toolCalls with
    | nil => rfl
    | cons call rest =>
      have some : call :: rest ≠ [] := List.cons_ne_nil call rest
      have mapped : (call :: rest).map (fun call => (chatFragment (chatToolCall host call)).call) =
          ((call :: rest).map (chatToolCall host)).map fun raw => (chatFragment raw).call := by
        rw [List.map_map]
        rfl
      dsimp only
      rw [mapped, if_pos some, if_pos some]
      rfl
  · change (if result.toolCalls ≠ [] then "tool_calls" else "stop") = _
    rfl
  · exact count_nat _
  · exact count_nat _

theorem sentFragment_eq_iff (drawn : Nat) (plain : PlainCall call) (present : ¬ BlankId call) :
    (sentFragment host drawn call).call =
        { id := call.callId, name := call.wireName host, arguments := loads call.arguments.toList } ↔
      IsWireName call.name ∧ call.arguments ≠ "" ∧ call.callId ≠ "" ∧
        pyStrip call.callId = call.callId := by
  have name : call.name = call.wireName host ↔ IsWireName call.name := by
    have raw : rawToolName call.toolNamespace call.name = call.name := by
      rw [plain.toolNamespace]
      rfl
    have iff := @wireToolName_eq_iff host call.toolNamespace call.name
    rw [raw] at iff
    rw [eq_comm]
    exact iff
  have arguments : loads (sentArguments call).toList = loads call.arguments.toList ↔
      call.arguments ≠ "" := by
    unfold sentArguments
    by_cases empty : call.arguments = ""
    · have differ : loads "{}".toList ≠ loads "".toList := by decide +kernel
      rw [if_neg (by simp [empty]), empty]
      exact ⟨fun same => absurd same differ, fun absent => absurd rfl absent⟩
    · rw [if_pos empty]
      simp [empty]
  rw [← sentId_eq_iff present, ← name, ← arguments]
  unfold sentFragment Fragment.call
  rw [ClientCall.mk.injEq]
  tauto

theorem sentAnswer_eq_iff (drawn : Nat) (plain : ∀ call ∈ result.toolCalls, PlainCall call)
    (present : ∀ call ∈ result.toolCalls, ¬ BlankId call) :
    sentAnswer host drawn result = documentAnswer host result ↔
      ∀ call ∈ result.toolCalls, IsWireName call.name ∧ call.arguments ≠ "" ∧
        call.callId ≠ "" ∧ pyStrip call.callId = call.callId := by
  have calls (index : Nat) (calls : List CanonicalToolCall)
      (plain : ∀ call ∈ calls, PlainCall call) (present : ∀ call ∈ calls, ¬ BlankId call) :
      (sentFragments host drawn index calls).map (fun fragment => fragment.2.call) =
          calls.map (fun call => { id := call.callId, name := call.wireName host,
                                   arguments := loads call.arguments.toList : ClientCall }) ↔
        ∀ call ∈ calls, IsWireName call.name ∧ call.arguments ≠ "" ∧ call.callId ≠ "" ∧
          pyStrip call.callId = call.callId := by
    induction calls generalizing drawn index with
    | nil => simp [sentFragments]
    | cons call calls ih =>
      obtain ⟨plainFirst, plainRest⟩ := List.forall_mem_cons.mp plain
      obtain ⟨presentFirst, presentRest⟩ := List.forall_mem_cons.mp present
      rw [sentFragments, List.map_cons, List.map_cons, List.cons.injEq, List.forall_mem_cons,
        sentFragment_eq_iff host drawn plainFirst presentFirst,
        ih (drawn + 1) (index + 1) plainRest presentRest]
  rw [← calls 0 result.toolCalls plain present]
  unfold sentAnswer documentAnswer
  rw [Answer.mk.injEq]
  tauto

/-- The client reads the same answer from the stream and from the document. -/
def ChatAgrees (drawn : String) (e : Emitter) (deltas : List String) (result : CanonicalResult) :
    Prop :=
  let streamed := chatStreamed host time model e deltas result
  streamed.2 = none ∧
    chatChunks streamed.1 = chatDocument (canonicalResultToChat host drawn time model result)

theorem chatAgrees_iff (drawn : String) (e : Emitter) (silent : e.reasoning = none)
    (fresh : e.output = []) {deltas : List String} (cut : String.join deltas = result.text)
    (plain : ∀ call ∈ result.toolCalls, PlainCall call) :
    ChatAgrees host time model drawn e deltas result ↔
      ∀ call ∈ result.toolCalls, IsWireName call.name ∧ call.arguments ≠ "" ∧
        call.callId ≠ "" ∧ pyStrip call.callId = call.callId := by
  unfold ChatAgrees
  dsimp only
  by_cases present : ∀ call ∈ result.toolCalls, ¬ BlankId call
  · obtain ⟨first, streamed⟩ :=
      chatStreamed_of_present host time model deltas plain present e silent fresh
    have noTool : (openedChat host e.responseId).sawTool = false :=
      (namedChat_fields host (ChatStream.initial host) e.responseId).2.1
    rw [streamed, chatChunks_stream host time model cut first _ noTool,
      chatDocument_result host time model drawn plain,
      sentAnswer_eq_iff host first plain present]
    simp
  · have blank : ∃ call ∈ result.toolCalls, BlankId call := by
      simpa only [not_forall, not_not, exists_prop] using present
    have failed := chatStreamed_of_blank host time model deltas plain blank e silent fresh
    constructor
    · intro agrees
      exact absurd agrees.1 failed
    · intro fine
      obtain ⟨call, mem, notEmpty, isBlank⟩ := blank
      have stripped := (fine call mem).2.2.2
      exact absurd (stripped.symm.trans isBlank) notEmpty

end

end AgentPark.Gateway
