import AgentPark.Gateway.Contracts
import AgentPark.Lib.Outcome

/-!
# The input of a Responses request

`appendInputItems` takes the items of a Responses request to canonical messages.  Calls are kept
back until an item of another kind comes, and become one assistant message then.
-/

namespace AgentPark.Gateway

open Lib

section

variable (host : Host)

/-- `_required_text` -/
def responsesRequiredText (raw : Json) (key owner : String) : Except Raised String :=
  let value := pyStrip (textOf host (raw.get key))
  if value = "" then .error (.protocol (owner ++ " requires non-empty " ++ key ++ "."))
  else .ok value

/-- `_list` -/
def responsesList (raw : Option Json) (fieldName : String) : Except Raised (List Json) :=
  match raw with
  | none | some .null => .ok []
  | some (.arr items) => .ok items
  | some _ => .error (.protocol (fieldName ++ " must be an array."))

/-- `_require_client_tool_search` -/
def requireClientToolSearch (raw : Json) (owner : String) : Except Raised Unit :=
  let execution := pyStrip (textOf host (raw.get "execution"))
  require (execution = "client") (.protocol (owner ++
    " requires execution='client' for Chat conversion; got " ++ quoted host (orEmpty execution) ++ "."))

/-- `_json_arguments` -/
def jsonArguments (raw : Option Json) (owner : String) : Except Raised String :=
  match raw with
  | some (.obj fields) => .ok (String.ofList (dumpsCompact (.obj fields)))
  | _ => .error (.protocol (owner ++ " arguments must be an object."))

/-- The round of `_message_content` for one part. -/
def responsesPart (part : Json) : Except Raised Json := do
  let .obj _ := part
    | .error (.protocol "Responses content parts must be objects.")
  let partType := pyStrip (textOf host (part.get "type"))
  if partType ∈ ["input_text", "output_text", "text"] then
    pure (.obj [("type", .str "text"), ("text", .str (textOf host (part.get "text")))])
  else if partType = "input_image" then
    match part.get "image_url" with
    | some (.str imageUrl) =>
      if pyStrip imageUrl = "" then .error (.protocol "input_image requires a non-empty image_url.")
      else pure (.obj [("type", .str "image_url"), ("image_url", .obj [("url", .str imageUrl)])])
    | _ => .error (.protocol "input_image requires a non-empty image_url.")
  else .error (.protocol ("Unsupported Responses content part: " ++ orEmpty partType))

/-- `_message_content` -/
def responsesContent (raw : Option Json) : Except Raised Content :=
  match raw with
  | none | some .null => .ok (.text "")
  | some (.str text) => .ok (.text text)
  | some (.arr parts) => do
    let content ← parts.mapM (responsesPart host)
    if ∀ part ∈ content, part.get "type" = some (.str "text") then
      pure (.text (String.join (content.map fun part => textOf host (part.get "text"))))
    else pure (.parts content)
  | some _ => .error (.protocol "Responses message content must be a string or array.")

/-- The text of an item of a tool output. -/
def toolOutputItem (item : Json) : String :=
  match item with
  | .obj fields =>
    if textOf host (item.get "type") ∈ ["input_text", "output_text", "text"] then
      textOf host (item.get "text")
    else String.ofList (dumps (.obj fields))
  | item => String.ofList (dumps item)

/-- `_tool_output_text` -/
def toolOutputText (raw : Option Json) : String :=
  match raw with
  | some (.str text) => text
  | some (.arr items) => "\n".intercalate (items.map (toolOutputItem host))
  | some raw => String.ofList (dumps raw)
  | none => String.ofList (dumps .null)

/-- `str(raw.get("type") or "message").strip()` -/
def inputItemType (raw : Json) : String := pyStrip (Json.strOr host.repr "message" (raw.get "type"))

def callTypes : List String := ["function_call", "custom_tool_call", "tool_search_call"]

def outputTypes : List String := ["function_call_output", "custom_tool_call_output", "tool_search_output"]

/-- The name of the tool an item calls. -/
def responsesCallName (raw : Json) (itemType : String) : Except Raised String :=
  if itemType = "tool_search_call" then .ok "tool_search" else responsesRequiredText host raw "name" itemType

theorem not_call_of_output {itemType : String} (isOutput : itemType ∈ outputTypes) : itemType ∉ callTypes := by
  simp only [outputTypes, List.mem_cons, List.not_mem_nil, or_false] at isOutput
  rcases isOutput with rfl | rfl | rfl
  · decide
  · decide
  · decide

/-- The call of an item.  `toolKinds` has the kind of every declared tool under its namespace and name. -/
def responsesCall (toolKinds : List ((String × String) × ToolKind)) (raw : Json) :
    Except Raised CanonicalToolCall := do
  let itemType := inputItemType host raw
  let name ← responsesCallName host raw itemType
  let callId ← responsesRequiredText host raw "call_id" itemType
  let toolNamespace := pyStrip (textOf host (raw.get "namespace"))
  if itemType = "tool_search_call" then
    requireClientToolSearch host raw itemType
    let arguments ← jsonArguments (raw.get "arguments") itemType
    pure { callId, name, arguments, kind := .toolSearch, toolNamespace }
  else
    let kind := if itemType = "custom_tool_call" then .custom
      else (toolKinds.lookup (toolNamespace, name)).getD .function
    match if kind = .custom then raw.get "input" else raw.get "arguments" with
    | some (.str arguments) => pure { callId, name, arguments, kind, toolNamespace }
    | _ => .error (.protocol (itemType ++ " arguments must be a string."))

/-- The content of the tool message for an output. -/
def outputContent (raw : Json) : Except Raised String := do
  let itemType := inputItemType host raw
  if itemType = "tool_search_output" then
    requireClientToolSearch host raw itemType
    let tools ← responsesList (raw.get "tools") "tool_search_output tools"
    pure (String.ofList (dumpsCompact (.obj [("status", .str (textOf host (raw.get "status"))),
      ("execution", .str "client"), ("tools", .arr tools)])))
  else pure (toolOutputText host (raw.get "output"))

/-- The tool message of an output. -/
def outputMessage (callNames : List (String × String)) (raw : Json) : Except Raised CanonicalMessage := do
  let callId ← responsesRequiredText host raw "call_id" (inputItemType host raw)
  let content ← outputContent host raw
  pure { role := .tool, content := .text content, toolCallId := callId
         toolName := (callNames.lookup callId).getD "" }

/-- The role of a message of the input. -/
def inputRole (raw : Json) : String := pyLower (pyStrip (Json.strOr host.repr "user" (raw.get "role")))

/-- The canonical role of a message of the input. -/
def responsesRole (role : String) : Except Raised Role :=
  if role ∉ ["system", "developer", "user", "assistant"] then
    .error (.protocol ("Unsupported Responses message role: " ++ role))
  else if role = "developer" ∨ role = "system" then .ok .system
  else if role = "user" then .ok .user
  else .ok .assistant

/-- The message of a message item. -/
def inputMessage (raw : Json) : Except Raised CanonicalMessage := do
  let canonicalRole ← responsesRole (inputRole host raw)
  let content ← responsesContent host (raw.get "content")
  pure { role := canonicalRole, content }

/-- The variables of `_append_input_items`. -/
structure Turning where
  messages : List CanonicalMessage
  pendingCalls : List CanonicalToolCall := []
  callNames : List (String × String) := []

/-- The message `flush_calls` appends. -/
def callMessage (calls : List CanonicalToolCall) : List CanonicalMessage :=
  if calls = [] then [] else [{ role := .assistant, content := .text "", toolCalls := calls }]

/-- `flush_calls` -/
def Turning.flushCalls (turning : Turning) : Turning :=
  { turning with messages := turning.messages ++ callMessage turning.pendingCalls, pendingCalls := [] }

/-- The round of `_append_input_items` for one item. -/
def appendItem (toolKinds : List ((String × String) × ToolKind)) (turning : Turning) (raw : Json) :
    Except Raised Turning := do
  let .obj _ := raw
    | .error (.protocol "Every Responses input item must be an object.")
  let itemType := inputItemType host raw
  if itemType = "additional_tools" then pure turning
  else if itemType ∈ callTypes then
    let call ← responsesCall host toolKinds raw
    pure { turning with
      pendingCalls := turning.pendingCalls ++ [call]
      callNames := dictSet turning.callNames call.callId (call.wireName host) }
  else
    let turning := turning.flushCalls
    if itemType ∈ outputTypes then
      let message ← outputMessage host turning.callNames raw
      pure { turning with messages := turning.messages ++ [message] }
    else if itemType = "reasoning" then pure turning
    else if itemType ≠ "message" then
      .error (.protocol ("Unsupported Responses input item type for Chat conversion: " ++ itemType))
    else
      let message ← inputMessage host raw
      pure { turning with messages := turning.messages ++ [message] }

/-- `_append_input_items` -/
def appendInputItems (messages : List CanonicalMessage) (items : List Json)
    (toolKinds : List ((String × String) × ToolKind)) : Except Raised (List CanonicalMessage) :=
  (items.foldlM (appendItem host toolKinds) { messages }).map fun turning => turning.flushCalls.messages

/-! ### A round in two parts -/

/-- What the round for an item reads. -/
inductive Piece where
  | call (call : CanonicalToolCall)
  /-- `additional_tools`, which the loop passes over. -/
  | skipped
  /-- A reasoning item, which is dropped. -/
  | silent
  | shown (message : CanonicalMessage)
deriving DecidableEq

/-- What the round for an item reads of it, with the names of the calls so far. -/
def readItem (toolKinds : List ((String × String) × ToolKind)) (callNames : List (String × String))
    (raw : Json) : Except Raised Piece := do
  let .obj _ := raw
    | .error (.protocol "Every Responses input item must be an object.")
  let itemType := inputItemType host raw
  if itemType = "additional_tools" then pure .skipped
  else if itemType ∈ callTypes then (responsesCall host toolKinds raw).map .call
  else if itemType ∈ outputTypes then (outputMessage host callNames raw).map .shown
  else if itemType = "reasoning" then pure .silent
  else if itemType ≠ "message" then
    .error (.protocol ("Unsupported Responses input item type for Chat conversion: " ++ itemType))
  else (inputMessage host raw).map .shown

/-- What the round for an item does with what it has read. -/
def Turning.place (turning : Turning) : Piece → Turning
  | .call call => { turning with
      pendingCalls := turning.pendingCalls ++ [call]
      callNames := dictSet turning.callNames call.callId (call.wireName host) }
  | .skipped => turning
  | .silent => turning.flushCalls
  | .shown message => { turning.flushCalls with messages := turning.flushCalls.messages ++ [message] }

/-- The round for an item reads it and puts it into its place. -/
theorem appendItem_eq (toolKinds : List ((String × String) × ToolKind)) (turning : Turning) (raw : Json) :
    appendItem host toolKinds turning raw =
      (readItem host toolKinds turning.callNames raw).map (turning.place host) := by
  cases raw with
  | obj fields =>
    rw [appendItem, readItem]
    dsimp only
    split_ifs
    · rfl
    · cases responsesCall host toolKinds (.obj fields) with
      | error e => rfl
      | ok call => rfl
    · change (outputMessage host turning.callNames (.obj fields) >>= _) = _
      cases outputMessage host turning.callNames (.obj fields) with
      | error e => rfl
      | ok message => rfl
    · rfl
    · rfl
    · cases inputMessage host (.obj fields) with
      | error e => rfl
      | ok message => rfl
  | _ => rfl

/-- How an item is read as a piece. -/
inductive ReadAs (toolKinds : List ((String × String) × ToolKind)) (callNames : List (String × String))
    (raw : Json) : Piece → Prop where
  | skipped (tools : inputItemType host raw = "additional_tools") : ReadAs toolKinds callNames raw .skipped
  | call {toolCall : CanonicalToolCall} (isCall : inputItemType host raw ∈ callTypes)
      (read : responsesCall host toolKinds raw = .ok toolCall) : ReadAs toolKinds callNames raw (.call toolCall)
  | output {message : CanonicalMessage} (isOutput : inputItemType host raw ∈ outputTypes)
      (read : outputMessage host callNames raw = .ok message) : ReadAs toolKinds callNames raw (.shown message)
  | silent (reasoning : inputItemType host raw = "reasoning") : ReadAs toolKinds callNames raw .silent
  | message {message : CanonicalMessage} (isMessage : inputItemType host raw = "message")
      (read : inputMessage host raw = .ok message) : ReadAs toolKinds callNames raw (.shown message)

variable {host} in
theorem readItem_cases {toolKinds : List ((String × String) × ToolKind)} {callNames : List (String × String)}
    {raw : Json} {piece : Piece} (read : readItem host toolKinds callNames raw = .ok piece) :
    ReadAs host toolKinds callNames raw piece := by
  cases raw with
  | obj fields =>
    rw [readItem] at read
    split_ifs at read with tools call output reasoning other
    · cases read
      exact .skipped tools
    · obtain ⟨toolCall, isCall, rfl⟩ := map_eq_ok.mp read
      exact .call call isCall
    · obtain ⟨message, isMessage, rfl⟩ := map_eq_ok.mp read
      exact .output output isMessage
    · cases read
      exact .silent reasoning
    · obtain ⟨message, isMessage, rfl⟩ := map_eq_ok.mp read
      exact .message (not_not.mp other) isMessage
  | _ => cases read

/-- The messages of a list of pieces, with some calls kept back before. -/
def spread : List CanonicalToolCall → List Piece → List CanonicalMessage
  | pending, [] => callMessage pending
  | pending, .call call :: pieces => spread (pending ++ [call]) pieces
  | pending, .skipped :: pieces => spread pending pieces
  | pending, .silent :: pieces => callMessage pending ++ spread [] pieces
  | pending, .shown message :: pieces => callMessage pending ++ message :: spread [] pieces

/-- The item is read as the piece, whatever the calls before it are. -/
def ItemReads (toolKinds : List ((String × String) × ToolKind)) (raw : Json) (piece : Piece) : Prop :=
  ∃ callNames, readItem host toolKinds callNames raw = .ok piece

variable {host} {toolKinds : List ((String × String) × ToolKind)}

theorem run_pieces {items : List Json} {turning final : Turning}
    (ran : items.foldlM (appendItem host toolKinds) turning = .ok final) :
    ∃ pieces, List.Forall₂ (ItemReads host toolKinds) items pieces ∧
      final.flushCalls.messages = turning.messages ++ spread turning.pendingCalls pieces := by
  induction items generalizing turning with
  | nil =>
    cases ran
    exact ⟨[], .nil, rfl⟩
  | cons raw items ih =>
    obtain ⟨next, step, later⟩ := bind_eq_ok.mp ran
    rw [appendItem_eq] at step
    obtain ⟨piece, read, rfl⟩ := map_eq_ok.mp step
    obtain ⟨pieces, reads, isFinal⟩ := ih later
    refine ⟨piece :: pieces, .cons ⟨_, read⟩ reads, ?_⟩
    rw [isFinal]
    cases piece with
    | call call => rfl
    | skipped => rfl
    | silent => exact List.append_assoc _ _ _
    | shown message =>
      change turning.messages ++ callMessage turning.pendingCalls ++ [message] ++ spread [] pieces = _
      rw [spread, List.append_assoc, List.append_assoc, List.singleton_append]

theorem exists_pieces {messages out : List CanonicalMessage} {items : List Json}
    (ran : appendInputItems host messages items toolKinds = .ok out) :
    ∃ pieces, List.Forall₂ (ItemReads host toolKinds) items pieces ∧ out = messages ++ spread [] pieces := by
  obtain ⟨final, ran, isOut⟩ := map_eq_ok.mp ran
  obtain ⟨pieces, reads, isFinal⟩ := run_pieces ran
  exact ⟨pieces, reads, isOut ▸ isFinal⟩

/-! ### Nothing is lost -/

/-- The call an item is about. -/
def callIdOf (host : Host) (raw : Json) : String := pyStrip (textOf host (raw.get "call_id"))

/-- What a part shows: the characters of its text, or its image. -/
def partShows (host : Host) (part : Json) : List (Char ⊕ String) :=
  if pyStrip (textOf host (part.get "type")) ∈ ["input_text", "output_text", "text"] then
    (textOf host (part.get "text")).toList.map .inl
  else
    match part.get "image_url" with
    | some (.str imageUrl) => [.inr imageUrl]
    | some image => [.inr (textOf host (image.get "url"))]
    | none => []

def contentShows (host : Host) : Content → List (Char ⊕ String)
  | .text text => text.toList.map .inl
  | .parts parts => parts.flatMap (partShows host)

/-- What the content of a message item shows. -/
def rawShows (host : Host) : Option Json → List (Char ⊕ String)
  | some (.str text) => text.toList.map .inl
  | some (.arr parts) => parts.flatMap (partShows host)
  | _ => []

/-- What a conversation consists of. -/
inductive InputEntry where
  | said (role : Role) (shows : List (Char ⊕ String))
  | called (call : CanonicalToolCall)
  | answered (callId : String) (content : Content)

/-- The entries of a message.  A message that is only there for its calls says nothing. -/
def CanonicalMessage.entries (host : Host) (message : CanonicalMessage) : List InputEntry :=
  if message.role = .tool then [.answered message.toolCallId message.content]
  else
    (if message.toolCalls ≠ [] ∧ message.content = .text "" then []
      else [.said message.role (contentShows host message.content)]) ++ message.toolCalls.map .called

/-- The role that a message of the input gets. -/
def canonicalRole (host : Host) (raw : Json) : Role :=
  if inputRole host raw = "developer" ∨ inputRole host raw = "system" then .system
  else if inputRole host raw = "user" then .user else .assistant

/-- The entries of an item. -/
def itemEntries (host : Host) (toolKinds : List ((String × String) × ToolKind)) (raw : Json) :
    Except Raised (List InputEntry) :=
  let itemType := inputItemType host raw
  if itemType = "additional_tools" ∨ itemType = "reasoning" then .ok []
  else if itemType ∈ callTypes then (responsesCall host toolKinds raw).map fun call => [.called call]
  else if itemType ∈ outputTypes then
    (outputContent host raw).map fun text => [.answered (callIdOf host raw) (.text text)]
  else .ok [.said (canonicalRole host raw) (rawShows host (raw.get "content"))]

def Piece.entries (host : Host) : Piece → List InputEntry
  | .call toolCall => [.called toolCall]
  | .skipped | .silent => []
  | .shown message => message.entries host

theorem entries_callMessage (calls : List CanonicalToolCall) :
    (callMessage calls).flatMap (CanonicalMessage.entries host) = calls.map .called := by
  unfold callMessage
  split_ifs with none
  · rw [none]
    rfl
  · simp [CanonicalMessage.entries, none]

theorem entries_spread (pending : List CanonicalToolCall) (pieces : List Piece) :
    (spread pending pieces).flatMap (CanonicalMessage.entries host) =
      pending.map .called ++ pieces.flatMap (Piece.entries host) := by
  induction pieces generalizing pending with
  | nil => rw [spread, entries_callMessage, List.flatMap_nil, List.append_nil]
  | cons piece pieces ih =>
    cases piece with
    | call call => simp [spread, ih, Piece.entries]
    | skipped => simp [spread, ih, Piece.entries]
    | silent => simp [spread, ih, Piece.entries, entries_callMessage]
    | shown message => simp [spread, ih, Piece.entries, entries_callMessage]

theorem responsesPart_shows {part converted : Json} (read : responsesPart host part = .ok converted) :
    partShows host converted = partShows host part ∧
      (converted.get "type" = some (.str "text") →
        partShows host converted = (textOf host (converted.get "text")).toList.map .inl) := by
  cases part with
  | obj fields =>
    have word : pyStrip "text" = "text" := by decide
    have image : pyStrip "image_url" = "image_url" := by decide
    rw [responsesPart] at read
    split_ifs at read with isText isImage
    · cases read
      rw [partShows, partShows, if_pos isText]
      simp [Json.get, List.lookup_cons, word]
    · split at read
      · rename_i imageUrl isUrl
        split_ifs at read
        cases read
        rw [partShows, partShows, if_neg isText, isUrl]
        simp [Json.get, List.lookup_cons, image]
      · cases read
  | _ => cases read

theorem contentShows_responsesContent {raw : Option Json} {content : Content}
    (read : responsesContent host raw = .ok content) : contentShows host content = rawShows host raw := by
  unfold responsesContent at read
  split at read
  · cases read
    rfl
  · cases read
    rfl
  · cases read
    rfl
  · rename_i parts
    obtain ⟨converted, ran, read⟩ := bind_eq_ok.mp read
    have same : converted.flatMap (partShows host) = parts.flatMap (partShows host) :=
      flatMap_of_mapM (fun part result _ isResult => (responsesPart_shows isResult).1) ran
    rw [rawShows, ← same]
    split_ifs at read with allText
    · cases read
      rw [contentShows]
      have texts : ∀ part ∈ converted, partShows host part = (textOf host (part.get "text")).toList.map .inl := by
        intro part mem
        obtain ⟨raw, -, isPart⟩ := mem_of_mapM ran mem
        exact (responsesPart_shows isPart).2 (allText part mem)
      clear ran same allText read
      induction converted with
      | nil => rfl
      | cons part converted ih =>
        obtain ⟨first, others⟩ := List.forall_mem_cons.mp texts
        rw [List.map_cons, String.join_cons, String.toList_append, List.map_append, ih others,
          List.flatMap_cons, first]
    · cases read
      rfl
  · cases read

theorem itemEntries_of_reads {raw : Json} {piece : Piece} (reads : ItemReads host toolKinds raw piece) :
    itemEntries host toolKinds raw = .ok (piece.entries host) := by
  obtain ⟨callNames, isRead⟩ := reads
  have word : ∀ {kind word : String} {words : List String}, kind ∈ words → word ∉ words → kind ≠ word := by
    intro kind word words mem notMem same
    exact notMem (same ▸ mem)
  rw [itemEntries]
  cases readItem_cases isRead with
  | skipped tools => rw [if_pos (.inl tools)]; rfl
  | silent reasoning => rw [if_pos (.inr reasoning)]; rfl
  | call isCall read =>
    have notSilent : ¬ (inputItemType host raw = "additional_tools" ∨ inputItemType host raw = "reasoning") :=
      not_or.mpr ⟨word isCall (by decide), word isCall (by decide)⟩
    rw [if_neg notSilent, if_pos isCall, read]
    rfl
  | output isOutput read =>
    have notSilent : ¬ (inputItemType host raw = "additional_tools" ∨ inputItemType host raw = "reasoning") :=
      not_or.mpr ⟨word isOutput (by decide), word isOutput (by decide)⟩
    rw [if_neg notSilent, if_neg (not_call_of_output isOutput), if_pos isOutput]
    obtain ⟨callId, isId, read⟩ := bind_eq_ok.mp read
    obtain ⟨content, isContent, same⟩ := bind_eq_ok.mp read
    cases same
    obtain ⟨-, same⟩ := ite_error_eq_ok.mp isId
    cases same
    rw [isContent]
    rfl
  | message isMessage read =>
    rw [isMessage, if_neg (by decide), if_neg (by decide), if_neg (by decide)]
    obtain ⟨role, isRole, read⟩ := bind_eq_ok.mp read
    obtain ⟨content, isContent, same⟩ := bind_eq_ok.mp read
    cases same
    have sameRole : role = canonicalRole host raw ∧ role ≠ .tool := by
      obtain ⟨-, isRole⟩ := ite_error_eq_ok.mp isRole
      rw [canonicalRole]
      split_ifs at isRole with system user
      · cases isRole
        simp [system]
      · cases isRole
        simp [user]
      · cases isRole
        simp [system, user]
    rw [Piece.entries, CanonicalMessage.entries, if_neg sameRole.2, if_neg (by simp),
      contentShows_responsesContent isContent, sameRole.1, List.map_nil, List.append_nil]

theorem mapM_itemEntries {items : List Json} {pieces : List Piece}
    (reads : List.Forall₂ (ItemReads host toolKinds) items pieces) :
    items.mapM (itemEntries host toolKinds) = .ok (pieces.map (Piece.entries host)) := by
  induction reads with
  | nil => rfl
  | cons first _ ih =>
    rw [List.mapM_cons, itemEntries_of_reads first, ih]
    rfl

/-! ### Legal histories -/

/-- What a chat protocol asks: behind the message with some calls there are, before any other message,
the tool messages of exactly these. -/
def LegalHistory (messages : List CanonicalMessage) : Prop :=
  ∀ front message back, messages = front ++ message :: back → message.toolCalls ≠ [] →
    ((back.takeWhile fun other => other.role = .tool).map CanonicalMessage.toolCallId).Perm
      (message.toolCalls.map CanonicalToolCall.callId)

/-- At most the last message calls tools. -/
def CallsLast (messages : List CanonicalMessage) : Prop :=
  ∀ front message back, messages = front ++ message :: back → message.toolCalls ≠ [] → back = []

variable {rest : List CanonicalMessage}

theorem takeWhile_tools {tools : List CanonicalMessage}
    (isTools : ∀ message ∈ tools, message.role = .tool)
    (stops : ∀ message ∈ rest.head?, message.role ≠ .tool) :
    (tools ++ rest).takeWhile (fun other => other.role = .tool) = tools := by
  rw [List.takeWhile_append_of_pos fun message mem => decide_eq_true (isTools message mem)]
  cases rest with
  | nil => simp
  | cons message rest => simp [stops message rfl]

theorem legalHistory_of_append {front : List CanonicalMessage}
    (legal : LegalHistory (front ++ rest)) :
    LegalHistory rest := by
  intro before message back split
  exact legal (front ++ before) message back (by rw [split, List.append_assoc])

theorem legalHistory_append_iff {calling tools : List CanonicalMessage}
    (notTools : ∀ message ∈ calling, message.role ≠ .tool)
    (isTools : ∀ message ∈ tools, message.role = .tool ∧ message.toolCalls = [])
    (stops : ∀ message ∈ rest.head?, message.role ≠ .tool)
    (answered : (tools.map CanonicalMessage.toolCallId).Perm
      ((calling.flatMap CanonicalMessage.toolCalls).map CanonicalToolCall.callId)) :
    LegalHistory (calling ++ (tools ++ rest)) ↔ CallsLast calling ∧ LegalHistory rest := by
  have block := takeWhile_tools (fun message mem => (isTools message mem).1) stops
  constructor
  · intro legal
    refine ⟨?_, legalHistory_of_append (legalHistory_of_append legal)⟩
    rintro front message back rfl calls
    cases back with
    | nil => rfl
    | cons other back =>
      -- the message behind it is no tool message
      have same := legal front message (other :: back ++ (tools ++ rest)) (by simp) calls
      have notTool : other.role ≠ .tool := notTools other (by simp)
      rw [List.cons_append, List.takeWhile_cons, if_neg (by simpa using notTool)] at same
      have none := List.perm_nil.mp same.symm
      exact absurd (List.map_eq_nil_iff.mp none) calls
  · rintro ⟨last, legal⟩ front message back split calls
    rcases List.append_eq_append_iff.mp split with ⟨middle, rfl, isRest⟩ | ⟨middle, rfl, isBack⟩
    · rcases List.append_eq_append_iff.mp isRest with ⟨inner, rfl, isInner⟩ | ⟨inner, rfl, isInner⟩
      · exact legal inner message back isInner calls
      · cases inner with
        | nil => exact legal [] message back (by simpa using isInner.symm) calls
        | cons first inner =>
          obtain ⟨rfl, -⟩ := List.cons.inj isInner
          exact absurd (isTools _ (by simp)).2 calls
    · cases middle with
      | nil =>
        rw [List.nil_append] at isBack
        cases tools with
        | nil => exact legal [] message back (by simpa using isBack.symm) calls
        | cons tool tools =>
          obtain ⟨rfl, -⟩ := List.cons.inj isBack
          exact absurd (isTools _ (by simp)).2 calls
      | cons first middle =>
        obtain ⟨rfl, rfl⟩ := List.cons.inj isBack
        have alone := last front _ middle rfl calls
        subst alone
        change (((tools ++ rest).takeWhile fun other => other.role = .tool).map _).Perm _
        rw [block]
        have others : front.flatMap CanonicalMessage.toolCalls = [] := by
          rw [List.flatMap_eq_nil_iff]
          intro other mem
          by_contra own
          obtain ⟨before, behind, rfl⟩ := List.append_of_mem mem
          have ends := last before other (behind ++ [message]) (by simp) own
          simp at ends
        rwa [List.flatMap_append, others, List.nil_append, List.flatMap_singleton] at answered

/-! ### Turns -/

def IsCall (host : Host) (raw : Json) : Prop := inputItemType host raw ∈ callTypes

instance (raw : Json) : Decidable (IsCall host raw) :=
  inferInstanceAs (Decidable (inputItemType host raw ∈ callTypes))

def IsReasoning (host : Host) (raw : Json) : Prop := inputItemType host raw = "reasoning"

instance (raw : Json) : Decidable (IsReasoning host raw) :=
  inferInstanceAs (Decidable (inputItemType host raw = "reasoning"))

/-- A message of one of some roles. -/
def IsMessage (host : Host) (roles : List String) (raw : Json) : Prop :=
  inputItemType host raw = "message" ∧ inputRole host raw ∈ roles

/-- A turn of the input. -/
structure ResponsesTurn where
  opening : List Json
  middle : List Json
  outputs : List Json

namespace ResponsesTurn

def items (turn : ResponsesTurn) : List Json := turn.opening ++ (turn.middle ++ turn.outputs)

/-- User and system messages, then reasoning, assistant messages and calls in any order, then the
outputs of the calls in any order. -/
structure WellFormed (host : Host) (turn : ResponsesTurn) : Prop where
  opening : ∀ raw ∈ turn.opening, IsMessage host ["system", "developer", "user"] raw
  middle : ∀ raw ∈ turn.middle, IsReasoning host raw ∨ IsMessage host ["assistant"] raw ∨ IsCall host raw
  outputs : ∀ raw ∈ turn.outputs, inputItemType host raw ∈ outputTypes
  distinct : ((turn.middle.filter fun raw => IsCall host raw).map (callIdOf host)).Nodup
  answered : (turn.outputs.map (callIdOf host)).Perm
    ((turn.middle.filter fun raw => IsCall host raw).map (callIdOf host))

/-- Behind the first calls of the turn that stand together there is only reasoning before the outputs. -/
def Together (host : Host) (turn : ResponsesTurn) : Prop :=
  ∀ raw ∈ (turn.middle.dropWhile fun raw => ¬ IsCall host raw).dropWhile fun raw => IsCall host raw,
    IsReasoning host raw

end ResponsesTurn

/-- What stands before the outputs of a turn, and its piece. -/
inductive Leads (host : Host) (raw : Json) : Piece → Prop where
  | call {toolCall : CanonicalToolCall} (isCall : IsCall host raw) (same : toolCall.callId = callIdOf host raw) :
      Leads host raw (.call toolCall)
  | silent (reasoning : IsReasoning host raw) (notCall : ¬ IsCall host raw) : Leads host raw .silent
  | shown {message : CanonicalMessage} (notCall : ¬ IsCall host raw) (notReasoning : ¬ IsReasoning host raw)
      (notTool : message.role ≠ .tool) (plain : message.toolCalls = []) : Leads host raw (.shown message)

variable {raw : Json}

theorem callId_of_responsesCall {toolCall : CanonicalToolCall}
    (read : responsesCall host toolKinds raw = .ok toolCall) :
    toolCall.callId = callIdOf host raw := by
  obtain ⟨name, -, read⟩ := bind_eq_ok.mp read
  obtain ⟨callId, isId, read⟩ := bind_eq_ok.mp read
  obtain ⟨-, same⟩ := ite_error_eq_ok.mp isId
  cases same
  by_cases search : inputItemType host raw = "tool_search_call"
  · rw [if_pos search] at read
    obtain ⟨-, -, read⟩ := bind_eq_ok.mp read
    obtain ⟨arguments, -, same⟩ := bind_eq_ok.mp read
    cases same
    rfl
  · rw [if_neg search] at read
    dsimp only at read
    split at read
    · cases read
      rfl
    · cases read

theorem leads_of_reads {piece : Piece}
    (kind : IsReasoning host raw ∨ inputItemType host raw = "message" ∨ IsCall host raw)
    (reads : ItemReads host toolKinds raw piece) : Leads host raw piece := by
  obtain ⟨callNames, isRead⟩ := reads
  have apart : ∀ {word : String}, inputItemType host raw = word → word ∉ callTypes → ¬ IsCall host raw := by
    rintro word rfl other
    exact other
  cases readItem_cases isRead with
  | skipped tools =>
    rcases kind with same | same | same
    · rw [IsReasoning, tools] at same
      exact absurd same (by decide)
    · rw [tools] at same
      exact absurd same (by decide)
    · exact absurd same (apart tools (by decide))
  | call isCall read => exact .call isCall (callId_of_responsesCall read)
  | output isOutput read =>
    exfalso
    rcases kind with same | same | same
    · rw [IsReasoning] at same
      rw [same] at isOutput
      revert isOutput
      decide
    · rw [same] at isOutput
      revert isOutput
      decide
    · exact not_call_of_output isOutput same
  | silent reasoning => exact .silent reasoning (apart reasoning (by decide))
  | message isMessage read =>
    have notReasoning : ¬ IsReasoning host raw := by
      rw [IsReasoning, isMessage]
      decide
    obtain ⟨role, isRole, read⟩ := bind_eq_ok.mp read
    obtain ⟨content, -, same⟩ := bind_eq_ok.mp read
    cases same
    refine .shown (apart isMessage (by decide)) notReasoning ?_ rfl
    obtain ⟨-, isRole⟩ := ite_error_eq_ok.mp isRole
    intro isTool
    change role = .tool at isTool
    subst isTool
    split_ifs at isRole
    · cases isRole
    · cases isRole
    · cases isRole

theorem spread_ne_nil {pending : List CanonicalToolCall} (calls : pending ≠ []) (pieces : List Piece) :
    spread pending pieces ≠ [] := by
  have flushed : callMessage pending ≠ [] := by
    rw [callMessage, if_neg calls]
    exact List.cons_ne_nil _ _
  induction pieces generalizing pending with
  | nil => exact flushed
  | cons piece pieces ih =>
    cases piece with
    | call toolCall =>
      have more : pending ++ [toolCall] ≠ [] := by simp
      refine ih more ?_
      rw [callMessage, if_neg more]
      exact List.cons_ne_nil _ _
    | skipped => exact ih calls flushed
    | silent => exact fun none => flushed (List.append_eq_nil_iff.mp none).1
    | shown message => exact fun none => flushed (List.append_eq_nil_iff.mp none).1

variable {pieces : List Piece}

theorem spread_eq_nil_iff {items : List Json} (leads : List.Forall₂ (Leads host) items pieces) :
    spread [] pieces = [] ↔ ∀ raw ∈ items, IsReasoning host raw := by
  induction leads with
  | nil => simp [spread, callMessage]
  | @cons raw piece items pieces first _ ih =>
    rw [List.forall_mem_cons]
    cases first with
    | @call toolCall isCall same =>
      have notReasoning : ¬ IsReasoning host raw := by
        intro reasoning
        rw [IsCall, reasoning] at isCall
        revert isCall
        decide
      exact ⟨fun none => absurd none (spread_ne_nil (List.cons_ne_nil _ _) pieces),
        fun all => absurd all.1 notReasoning⟩
    | silent reasoning notCall =>
      rw [spread, callMessage, if_pos rfl, List.nil_append, ih]
      exact ⟨fun all => ⟨reasoning, all⟩, fun all => all.2⟩
    | shown notCall notReasoning notTool plain =>
      rw [spread, callMessage, if_pos rfl, List.nil_append]
      exact ⟨nofun, fun all => absurd all.1 notReasoning⟩

variable {message : CanonicalMessage}

theorem callsLast_cons_of_calls {messages : List CanonicalMessage} (calls : message.toolCalls ≠ []) :
    CallsLast (message :: messages) ↔ messages = [] := by
  constructor
  · intro last
    exact last [] message messages rfl calls
  · rintro rfl front other back split own
    cases front with
    | nil => exact (List.cons.inj split).2.symm
    | cons first front =>
      have none := (List.cons.inj split).2
      simp at none

theorem callsLast_cons_of_plain {messages : List CanonicalMessage} (plain : message.toolCalls = []) :
    CallsLast (message :: messages) ↔ CallsLast messages := by
  constructor
  · rintro last front other back rfl own
    exact last (message :: front) other back rfl own
  · intro last front other back split own
    cases front with
    | nil =>
      obtain ⟨rfl, -⟩ := List.cons.inj split
      exact absurd plain own
    | cons first front => exact last front other back (List.cons.inj split).2 own

theorem callsLast_spread_pending {items : List Json}
    (leads : List.Forall₂ (Leads host) items pieces) {pending : List CanonicalToolCall}
    (calls : pending ≠ []) :
    CallsLast (spread pending pieces) ↔
      ∀ raw ∈ items.dropWhile fun raw => IsCall host raw, IsReasoning host raw := by
  have single : callMessage pending = [{ role := .assistant, content := .text "", toolCalls := pending }] := by
    rw [callMessage, if_neg calls]
  induction leads generalizing pending with
  | nil =>
    rw [spread, single, callsLast_cons_of_calls calls]
    simp
  | @cons raw piece items pieces first later ih =>
    cases first with
    | @call toolCall isCall same =>
      have more : pending ++ [toolCall] ≠ [] := by simp
      rw [spread, List.dropWhile_cons, if_pos (decide_eq_true isCall)]
      exact ih more (by rw [callMessage, if_neg more])
    | silent reasoning notCall =>
      rw [spread, single, List.singleton_append, callsLast_cons_of_calls calls, spread_eq_nil_iff later,
        List.dropWhile_cons, if_neg (by simpa using notCall), List.forall_mem_cons]
      exact ⟨fun all => ⟨reasoning, all⟩, fun all => all.2⟩
    | shown notCall notReasoning notTool plain =>
      rw [spread, single, List.singleton_append, callsLast_cons_of_calls calls, List.dropWhile_cons,
        if_neg (by simpa using notCall), List.forall_mem_cons]
      exact ⟨nofun, fun all => absurd all.1 notReasoning⟩

theorem callsLast_spread {items : List Json} (leads : List.Forall₂ (Leads host) items pieces) :
    CallsLast (spread [] pieces) ↔
      ∀ raw ∈ (items.dropWhile fun raw => ¬ IsCall host raw).dropWhile fun raw => IsCall host raw,
        IsReasoning host raw := by
  have none : callMessage [] = [] := if_pos rfl
  induction leads with
  | nil =>
    rw [spread, none]
    refine ⟨by simp, fun _ front message back split => ?_⟩
    simp at split
  | @cons raw piece items pieces first later ih =>
    cases first with
    | @call toolCall isCall same =>
      rw [spread, List.dropWhile_cons, if_neg (by simpa using isCall), List.dropWhile_cons,
        if_pos (decide_eq_true isCall)]
      exact callsLast_spread_pending later (List.cons_ne_nil _ _)
    | silent reasoning notCall =>
      rw [spread, none, List.nil_append, List.dropWhile_cons, if_pos (by simpa using notCall)]
      exact ih
    | shown notCall notReasoning notTool plain =>
      rw [spread, none, List.nil_append, callsLast_cons_of_plain plain, List.dropWhile_cons,
        if_pos (by simpa using notCall)]
      exact ih

theorem callIds_callMessage (calls : List CanonicalToolCall) :
    (callMessage calls).flatMap CanonicalMessage.toolCalls = calls := by
  unfold callMessage
  split_ifs with none
  · rw [none]
    rfl
  · simp

theorem callIds_spread {items : List Json} (leads : List.Forall₂ (Leads host) items pieces)
    (pending : List CanonicalToolCall) :
    ((spread pending pieces).flatMap CanonicalMessage.toolCalls).map CanonicalToolCall.callId =
      pending.map CanonicalToolCall.callId ++
        (items.filter fun raw => IsCall host raw).map (callIdOf host) := by
  induction leads generalizing pending with
  | nil => rw [spread, callIds_callMessage, List.filter_nil, List.map_nil, List.append_nil]
  | @cons raw piece items pieces first _ ih =>
    cases first with
    | call isCall same =>
      rw [spread, ih, List.filter_cons, if_pos (decide_eq_true isCall), List.map_append, List.map_singleton,
        List.append_assoc, List.singleton_append, List.map_cons, same]
    | silent reasoning notCall =>
      rw [spread, List.flatMap_append, callIds_callMessage, List.map_append, ih, List.filter_cons,
        if_neg (by simpa using notCall), List.map_nil, List.nil_append]
    | shown notCall notReasoning notTool plain =>
      rw [spread, List.flatMap_append, callIds_callMessage, List.flatMap_cons, plain, List.nil_append,
        List.map_append, ih, List.filter_cons, if_neg (by simpa using notCall), List.map_nil, List.nil_append]

theorem role_callMessage {calls : List CanonicalToolCall} (mem : message ∈ callMessage calls) :
    message.role ≠ .tool := by
  unfold callMessage at mem
  split_ifs at mem
  · cases mem
  · rw [List.mem_singleton.mp mem]
    exact nofun

theorem role_spread {items : List Json} (leads : List.Forall₂ (Leads host) items pieces)
    (pending : List CanonicalToolCall) :
    ∀ message ∈ spread pending pieces, message.role ≠ .tool := by
  induction leads generalizing pending with
  | nil => exact fun message mem => role_callMessage mem
  | cons first _ ih =>
    cases first with
    | call isCall same => exact ih _
    | silent reasoning notCall =>
      exact List.forall_mem_append.mpr ⟨fun message mem => role_callMessage mem, ih []⟩
    | shown notCall notReasoning notTool plain =>
      refine List.forall_mem_append.mpr ⟨fun message mem => role_callMessage mem, ?_⟩
      exact List.forall_mem_cons.mpr ⟨notTool, ih []⟩

theorem spread_append_shown (pending : List CanonicalToolCall) (pieces rest : List Piece)
    (message : CanonicalMessage) :
    spread pending (pieces ++ .shown message :: rest) = spread pending pieces ++ message :: spread [] rest := by
  induction pieces generalizing pending with
  | nil => rfl
  | cons piece pieces ih =>
    cases piece with
    | call toolCall => exact ih _
    | skipped => exact ih _
    | silent => simp [spread, ih]
    | shown other => simp [spread, ih]

theorem spread_turn {items : List Json} (leads : List.Forall₂ (Leads host) items pieces)
    (tools : List CanonicalMessage) (rest : List Piece)
    (answered : tools = [] → ∀ raw ∈ items, ¬ IsCall host raw) :
    spread [] (pieces ++ (tools.map .shown ++ rest)) = spread [] pieces ++ (tools ++ spread [] rest) := by
  have none : callMessage [] = [] := if_pos rfl
  have all : ∀ tools : List CanonicalMessage, spread [] (tools.map .shown ++ rest) = tools ++ spread [] rest := by
    intro tools
    induction tools with
    | nil => rfl
    | cons tool tools ih => rw [List.map_cons, List.cons_append, spread, none, List.nil_append, ih, List.cons_append]
  cases tools with
  | cons tool tools => rw [List.map_cons, List.cons_append, spread_append_shown, all, List.cons_append]
  | nil =>
    have plain := answered rfl
    clear answered all
    rw [List.map_nil, List.nil_append, List.nil_append]
    induction leads with
    | nil => rfl
    | cons first _ ih =>
      obtain ⟨notCall, others⟩ := List.forall_mem_cons.mp plain
      cases first with
      | call isCall same => exact absurd isCall notCall
      | silent _ _ => rw [List.cons_append, spread, spread, none, List.nil_append, ih others, List.nil_append]
      | shown _ _ _ _ =>
        rw [List.cons_append, spread, spread, none, List.nil_append, ih others, List.nil_append,
          List.cons_append]

theorem exists_tools {outputs : List Json}
    (reads : List.Forall₂ (ItemReads host toolKinds) outputs pieces)
    (kinds : ∀ raw ∈ outputs, inputItemType host raw ∈ outputTypes) :
    ∃ tools : List CanonicalMessage, pieces = tools.map .shown ∧
      (∀ message ∈ tools, message.role = .tool ∧ message.toolCalls = []) ∧
        tools.map CanonicalMessage.toolCallId = outputs.map (callIdOf host) := by
  induction reads with
  | nil => exact ⟨[], rfl, by simp, rfl⟩
  | @cons raw piece outputs pieces first _ ih =>
    obtain ⟨isOutput, others⟩ := List.forall_mem_cons.mp kinds
    obtain ⟨tools, rfl, plain, ids⟩ := ih others
    obtain ⟨callNames, isRead⟩ := first
    cases readItem_cases isRead with
    | @output message _ read =>
      obtain ⟨callId, isId, read⟩ := bind_eq_ok.mp read
      obtain ⟨content, -, same⟩ := bind_eq_ok.mp read
      obtain ⟨-, isId⟩ := ite_error_eq_ok.mp isId
      cases same
      cases isId
      exact ⟨_ :: tools, rfl, List.forall_mem_cons.mpr ⟨⟨rfl, rfl⟩, plain⟩, congrArg _ ids⟩
    | skipped tools =>
      rw [tools] at isOutput
      exact absurd isOutput (by decide)
    | silent reasoning =>
      rw [reasoning] at isOutput
      exact absurd isOutput (by decide)
    | message isMessage _ =>
      rw [isMessage] at isOutput
      exact absurd isOutput (by decide)
    | call isCall _ => exact absurd isCall (not_call_of_output isOutput)

theorem forall₂_append {α β : Type} {R : α → β → Prop} {xs ys : List α} {zs : List β}
    (all : List.Forall₂ R (xs ++ ys) zs) :
    ∃ front back, zs = front ++ back ∧ List.Forall₂ R xs front ∧ List.Forall₂ R ys back := by
  induction xs generalizing zs with
  | nil => exact ⟨[], zs, rfl, .nil, all⟩
  | cons x xs ih =>
    cases all with
    | cons first later =>
      obtain ⟨front, back, rfl, isFront, isBack⟩ := ih later
      exact ⟨_ :: front, back, rfl, .cons first isFront, isBack⟩

theorem forall₂_imp_of_mem {α β : Type} {R S : α → β → Prop} {xs : List α} {ys : List β}
    (imp : ∀ x ∈ xs, ∀ y, R x y → S x y) (all : List.Forall₂ R xs ys) : List.Forall₂ S xs ys := by
  induction all with
  | nil => exact .nil
  | cons first _ ih =>
    obtain ⟨here, later⟩ := List.forall_mem_cons.mp imp
    exact .cons (here _ first) (ih later)

theorem IsMessage.not_isCall {roles : List String} (isMessage : IsMessage host roles raw) :
    ¬ IsCall host raw := by
  rw [IsCall, isMessage.1]
  decide

theorem legalHistory_turns {turns : List ResponsesTurn}
    (wellFormed : ∀ turn ∈ turns, turn.WellFormed host)
    (reads : List.Forall₂ (ItemReads host toolKinds) (turns.flatMap ResponsesTurn.items) pieces) :
    (∀ message ∈ (spread [] pieces).head?, message.role ≠ .tool) ∧
      (LegalHistory (spread [] pieces) ↔ ∀ turn ∈ turns, turn.Together host) := by
  induction turns generalizing pieces with
  | nil =>
    cases reads
    refine ⟨by simp [spread, callMessage], by simp, fun _ front message back split => ?_⟩
    simp [spread, callMessage] at split
  | cons turn turns ih =>
    obtain ⟨isTurn, others⟩ := List.forall_mem_cons.mp wellFormed
    rw [List.flatMap_cons, ResponsesTurn.items, ← List.append_assoc, List.append_assoc] at reads
    obtain ⟨before, pieces, rfl, readsBefore, reads⟩ := forall₂_append reads
    obtain ⟨results, rest, rfl, readsOutputs, reads⟩ := forall₂_append reads
    obtain ⟨starts, legal⟩ := ih others reads
    obtain ⟨tools, rfl, isTools, ids⟩ := exists_tools readsOutputs isTurn.outputs
    have noCalls : ∀ raw ∈ turn.opening, ¬ IsCall host raw := fun raw mem => (isTurn.opening raw mem).not_isCall
    have leads : List.Forall₂ (Leads host) (turn.opening ++ turn.middle) before := by
      refine forall₂_imp_of_mem (fun raw mem piece => leads_of_reads ?_) readsBefore
      rcases List.mem_append.mp mem with mem | mem
      · exact .inr (.inl (isTurn.opening raw mem).1)
      · exact (isTurn.middle raw mem).imp_right fun kind => kind.imp_left And.left
    have calls : (turn.opening ++ turn.middle).filter (fun raw => IsCall host raw) =
        turn.middle.filter fun raw => IsCall host raw := by
      rw [List.filter_append, List.filter_eq_nil_iff.mpr (by simpa using noCalls), List.nil_append]
    have callsIds := callIds_spread leads []
    rw [calls, List.map_nil, List.nil_append] at callsIds
    have answered : tools = [] → ∀ raw ∈ turn.opening ++ turn.middle, ¬ IsCall host raw := by
      rintro rfl raw mem isCall
      have none := isTurn.answered
      rw [← ids, ← calls] at none
      have noIds := List.map_eq_nil_iff.mp (List.perm_nil.mp none.symm)
      have isIn : raw ∈ (turn.opening ++ turn.middle).filter fun raw => IsCall host raw :=
        List.mem_filter.mpr ⟨mem, decide_eq_true isCall⟩
      rw [noIds] at isIn
      cases isIn
    have notTools := role_spread leads []
    rw [spread_turn leads tools rest answered]
    constructor
    · intro message isHead
      cases isBefore : spread [] before with
      | cons first messages =>
        rw [isBefore] at notTools isHead
        cases isHead
        exact notTools message List.mem_cons_self
      | nil =>
        rw [isBefore, List.flatMap_nil, List.map_nil] at callsIds
        have noIds := isTurn.answered
        rw [← callsIds, ← ids] at noIds
        rw [isBefore, List.map_eq_nil_iff.mp (List.perm_nil.mp noIds)] at isHead
        exact starts message isHead
    · rw [legalHistory_append_iff notTools isTools starts (by rw [ids, callsIds]; exact isTurn.answered), legal,
        callsLast_spread leads, List.dropWhile_append_of_pos (by simpa using noCalls), List.forall_mem_cons]
      rfl

/-- Of any input in turns nothing is lost or reordered, and its history is legal exactly when in every
turn the calls stand together, with only reasoning between them and their outputs. -/
theorem appendInputItems_legal_iff {turns : List ResponsesTurn}
    (wellFormed : ∀ turn ∈ turns, turn.WellFormed host) {messages produced : List CanonicalMessage}
    (ran : appendInputItems host messages (turns.flatMap ResponsesTurn.items) toolKinds =
      .ok (messages ++ produced)) :
    (LegalHistory produced ∧ ∃ entries,
      (turns.flatMap ResponsesTurn.items).mapM (itemEntries host toolKinds) = .ok entries ∧
        produced.flatMap (CanonicalMessage.entries host) = entries.flatten) ↔
      ∀ turn ∈ turns, turn.Together host := by
  obtain ⟨pieces, reads, same⟩ := exists_pieces ran
  rw [List.append_cancel_left same]
  have complete : ∃ entries,
      (turns.flatMap ResponsesTurn.items).mapM (itemEntries host toolKinds) = .ok entries ∧
        (spread [] pieces).flatMap (CanonicalMessage.entries host) = entries.flatten := by
    refine ⟨_, mapM_itemEntries reads, ?_⟩
    rw [entries_spread, List.map_nil, List.nil_append, List.flatMap_def]
  rw [and_iff_left complete]
  exact (legalHistory_turns wellFormed reads).2

end

/-- A call of the tool `look`, and its output. -/
def lookCall (callId : String) : Json :=
  .obj [("type", .str "function_call"), ("call_id", .str callId), ("name", .str "look"), ("arguments", .str "")]

def lookOutput (callId : String) : Json :=
  .obj [("type", .str "function_call_output"), ("call_id", .str callId), ("output", .str "seen")]

def thoughtItem : Json := .obj [("type", .str "reasoning")]

/-- Two calls with reasoning before and behind them. -/
def togetherTurn : ResponsesTurn where
  opening := [.obj [("role", .str "user"), ("content", .str "Look.")]]
  middle := [thoughtItem, lookCall "a", lookCall "b", thoughtItem]
  outputs := [lookOutput "b", lookOutput "a"]

/-- Two calls with reasoning between them. -/
def splitTurn : ResponsesTurn where
  opening := []
  middle := [lookCall "a", thoughtItem, lookCall "b"]
  outputs := [lookOutput "a", lookOutput "b"]

theorem togetherTurn_wellFormed : togetherTurn.WellFormed zeroHost where
  opening := List.forall_mem_cons.mpr ⟨⟨by decide +kernel, by decide +kernel⟩, by simp⟩
  middle raw mem := by
    simp only [togetherTurn, List.mem_cons, List.not_mem_nil, or_false] at mem
    rcases mem with rfl | rfl | rfl | rfl
    · exact .inl (by decide +kernel)
    · exact .inr (.inr (by decide +kernel))
    · exact .inr (.inr (by decide +kernel))
    · exact .inl (by decide +kernel)
  outputs := by decide +kernel
  distinct := by decide +kernel
  answered := by decide +kernel

theorem splitTurn_wellFormed : splitTurn.WellFormed zeroHost where
  opening := by simp [splitTurn]
  middle raw mem := by
    simp only [splitTurn, List.mem_cons, List.not_mem_nil, or_false] at mem
    rcases mem with rfl | rfl | rfl
    · exact .inr (.inr (by decide +kernel))
    · exact .inl (by decide +kernel)
    · exact .inr (.inr (by decide +kernel))
  outputs := by decide +kernel
  distinct := by decide +kernel
  answered := by decide +kernel

/-- The call and the tool message of the tool `look`. -/
def lookToolCall (callId : String) : CanonicalToolCall := { callId, name := "look", arguments := "" }

def lookResult (callId : String) : CanonicalMessage :=
  { role := .tool, content := .text "seen", toolCallId := callId, toolName := "look" }

/-- Two calls made together, answered the other way round. -/
theorem togetherTurn_legal :
    let produced : List CanonicalMessage :=
      [{ role := .user, content := .text "Look." },
        { role := .assistant, content := .text "", toolCalls := [lookToolCall "a", lookToolCall "b"] },
        lookResult "b", lookResult "a"]
    (LegalHistory produced ∧ ∃ entries,
      ([togetherTurn].flatMap ResponsesTurn.items).mapM (itemEntries zeroHost []) = .ok entries ∧
        produced.flatMap (CanonicalMessage.entries zeroHost) = entries.flatten) ↔
      ∀ turn ∈ [togetherTurn], turn.Together zeroHost := by
  intro produced
  have ran : appendInputItems zeroHost [] ([togetherTurn].flatMap ResponsesTurn.items) [] = .ok ([] ++ produced) := by
    decide +kernel
  exact appendInputItems_legal_iff (List.forall_mem_cons.mpr ⟨togetherTurn_wellFormed, by simp⟩) ran

/-- Reasoning between two calls: the first is sent without its output behind it. -/
theorem splitTurn_not_legal :
    splitTurn.WellFormed zeroHost ∧ ∃ produced,
      appendInputItems zeroHost [] splitTurn.items [] = .ok produced ∧ ¬ LegalHistory produced := by
  refine ⟨splitTurn_wellFormed, [{ role := .assistant, content := .text "", toolCalls := [lookToolCall "a"] },
    { role := .assistant, content := .text "", toolCalls := [lookToolCall "b"] }, lookResult "a", lookResult "b"],
    by decide +kernel, fun legal => ?_⟩
  have answered := legal [] _ _ rfl (List.cons_ne_nil _ _)
  revert answered
  decide +kernel

end AgentPark.Gateway
