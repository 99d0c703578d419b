import AgentPark.Gateway.ClientChat
import AgentPark.Gateway.ClientMessages
import AgentPark.Lib.Outcome

/-!
# A client gets one answer

The answer to a request goes to the client as one document or as a stream.  `clients_agree_iff` says
for both client protocols when the client reads the same answer from the two.
-/

namespace AgentPark.Gateway

open Lib Generator Emitter

section

variable {host : Host}

structure PlainTool (tool : CanonicalTool) : Prop where
  kind : tool.kind = .function
  toolNamespace : tool.toolNamespace = ""
  stripped : pyStrip tool.name = tool.name
  named : tool.name ≠ ""

theorem pyStrip_requiredText {api key owner name : String} {payload : Json}
    (accepted : requiredText host api payload key owner = .ok name) :
    pyStrip name = name ∧ name ≠ "" := by
  unfold requiredText at accepted
  dsimp only at accepted
  split at accepted
  · cases accepted
  · rename_i present
    cases accepted
    exact ⟨pyStrip_pyStrip _, present⟩

theorem plainTool_chatTool {raw : Json} {tool : CanonicalTool}
    (accepted : chatTool host raw = .ok tool) : PlainTool tool := by
  unfold chatTool at accepted
  split at accepted
  · split at accepted
    · cases accepted
    · split at accepted
      · dsimp only at accepted
        split at accepted
        · obtain ⟨name, isName, same⟩ := bind_eq_ok.mp accepted
          cases same
          obtain ⟨stripped, named⟩ := pyStrip_requiredText isName
          exact ⟨rfl, rfl, stripped, named⟩
        · cases accepted
      · cases accepted
  · cases accepted

theorem plainTool_messagesTool {raw : Json} {tool : CanonicalTool}
    (accepted : messagesTool host raw = .ok tool) : PlainTool tool := by
  unfold messagesTool at accepted
  split at accepted
  · split at accepted
    · obtain ⟨name, isName, same⟩ := bind_eq_ok.mp accepted
      cases same
      obtain ⟨stripped, named⟩ := pyStrip_requiredText isName
      exact ⟨rfl, rfl, stripped, named⟩
    · cases accepted
  · cases accepted

theorem plainTool_chatRequest {payload : Json} {model : String} {request : CanonicalRequest}
    (accepted : chatRequestToCanonical host payload model = .ok request) :
    ∀ tool ∈ request.tools, PlainTool tool := by
  unfold chatRequestToCanonical at accepted
  split at accepted
  · obtain ⟨tools, isTools, accepted⟩ := bind_eq_ok.mp accepted
    obtain ⟨items, -, accepted⟩ := bind_eq_ok.mp accepted
    obtain ⟨messages, -, accepted⟩ := bind_eq_ok.mp accepted
    split at accepted
    · cases accepted
    · obtain ⟨tokens, -, accepted⟩ := bind_eq_ok.mp accepted
      obtain ⟨choice, -, accepted⟩ := bind_eq_ok.mp accepted
      cases accepted
      obtain ⟨raws, -, isTools⟩ := bind_eq_ok.mp isTools
      obtain ⟨mapped, isMapped, isTools⟩ := bind_eq_ok.mp isTools
      split at isTools
      · cases isTools
        intro tool mem
        obtain ⟨raw, -, isTool⟩ := mem_of_mapM isMapped mem
        exact plainTool_chatTool isTool
      · cases isTools
  · cases accepted

theorem plainTool_messagesRequest {payload : Json} {model : String} {request : CanonicalRequest}
    (accepted : messagesRequestToCanonical host payload model = .ok request) :
    ∀ tool ∈ request.tools, PlainTool tool := by
  unfold messagesRequestToCanonical at accepted
  split at accepted
  · obtain ⟨tools, isTools, accepted⟩ := bind_eq_ok.mp accepted
    obtain ⟨system, -, accepted⟩ := bind_eq_ok.mp accepted
    obtain ⟨items, -, accepted⟩ := bind_eq_ok.mp accepted
    obtain ⟨messages, -, accepted⟩ := bind_eq_ok.mp accepted
    split at accepted
    · cases accepted
    · obtain ⟨tokens, -, accepted⟩ := bind_eq_ok.mp accepted
      obtain ⟨choice, -, accepted⟩ := bind_eq_ok.mp accepted
      cases accepted
      obtain ⟨raws, -, isTools⟩ := bind_eq_ok.mp isTools
      obtain ⟨mapped, isMapped, isTools⟩ := bind_eq_ok.mp isTools
      split at isTools
      · cases isTools
        intro tool mem
        obtain ⟨raw, -, isTool⟩ := mem_of_mapM isMapped mem
        exact plainTool_messagesTool isTool
      · cases isTools
  · cases accepted

/-- The call names a tool of the list. -/
def Declared (tools : List CanonicalTool) (call : CanonicalToolCall) : Prop :=
  ∃ tool ∈ tools, call.name = tool.name ∧ call.kind = tool.kind ∧
    call.toolNamespace = tool.toolNamespace

/-- A call to a tool of an accepted request is a `PlainCall`. -/
theorem plainCall_of_declared {tools : List CanonicalTool} {call : CanonicalToolCall}
    (plain : ∀ tool ∈ tools, PlainTool tool) (declared : Declared tools call) : PlainCall call := by
  obtain ⟨tool, mem, name, kind, toolNamespace⟩ := declared
  have isPlain := plain tool mem
  refine ⟨kind.trans isPlain.kind, toolNamespace.trans isPlain.toolNamespace, ?_, ?_⟩
  · rw [name, isPlain.stripped]
  · rw [name]
    exact isPlain.named

/-- A result an adapter may return for a request with these tools: its calls are calls to them, with
a JSON object or nothing as arguments. -/
structure Result (tools : List CanonicalTool) where
  result : CanonicalResult
  declared : ∀ call ∈ result.toolCalls, Declared tools call
  arguments : ∀ call ∈ result.toolCalls, ObjectArguments call

/-- The emitter an adapter starts with, `drawn` identifiers after the first. -/
def answerEmitter (responseId model : String) (drawn : Nat) : Emitter := { responseId, model, drawn }

end

/-- The two encodings of an answer agree for a Chat Completions client exactly when the name of every
call is one a provider takes, its arguments are not empty, and its identifier is neither empty nor
has blanks around it; for a Claude Messages client the names do not matter, but the answer may not
count tokens of the request. -/
theorem clients_agree_iff (host : Host) (payload : Json) (model : String)
    (request : CanonicalRequest) (result : Result request.tools) (deltas : List String)
    (cut : String.join deltas = result.result.text) (answerId : String) (drawn time : Nat) :
    (chatRequestToCanonical host payload model = .ok request →
      (ChatAgrees host time request.model answerId
          (answerEmitter result.result.responseId request.model drawn) deltas result.result ↔
        ∀ call ∈ result.result.toolCalls, IsWireName call.name ∧ call.arguments ≠ "" ∧
          call.callId ≠ "" ∧ pyStrip call.callId = call.callId)) ∧
    (messagesRequestToCanonical host payload model = .ok request →
      (MessagesAgrees host request.model answerId
          (answerEmitter result.result.responseId request.model drawn) deltas result.result ↔
        result.result.inputTokens = 0 ∧ ∀ call ∈ result.result.toolCalls, call.arguments ≠ "" ∧
          call.callId ≠ "" ∧ pyStrip call.callId = call.callId)) := by
  constructor
  · intro accepted
    have plain : ∀ call ∈ result.result.toolCalls, PlainCall call := fun call mem =>
      plainCall_of_declared (plainTool_chatRequest accepted) (result.declared call mem)
    exact chatAgrees_iff host time request.model answerId _ rfl rfl cut plain
  · intro accepted
    have plain : ∀ call ∈ result.result.toolCalls, PlainCall call := fun call mem =>
      plainCall_of_declared (plainTool_messagesRequest accepted) (result.declared call mem)
    exact messagesAgrees_iff host request.model answerId _ rfl rfl rfl cut plain result.arguments

/-- The body of a Chat Completions request with one tool. -/
def chatBody (name : String) : Json :=
  .obj [("messages", .arr [.obj [("role", .str "user"), ("content", .str "hi")]]),
    ("tools", .arr [.obj [("type", .str "function"), ("function", .obj [("name", .str name)])]])]

/-- The body of a Claude Messages request with one tool. -/
def messagesBody (name : String) : Json :=
  .obj [("messages", .arr [.obj [("role", .str "user"), ("content", .str "hi")]]),
    ("tools", .arr [.obj [("name", .str name), ("input_schema", emptyParameters)]])]

/-- The canonical request of the two bodies. -/
def oneTool (name : String) : CanonicalRequest where
  model := "m"
  messages := [{ role := .user, content := .text "hi" }]
  tools := [{ name, description := "", inputSchema := emptyParameters }]
  stream := false

/-- An answer that calls the tool. -/
def oneCall (name : String) : CanonicalResult where
  responseId := "r"
  text := "ok"
  toolCalls := [{ callId := "c1", name, arguments := "{}" }]

def oneCallResult (name : String) : Result (oneTool name).tools where
  result := oneCall name
  declared := by
    intro call mem
    cases List.mem_singleton.mp mem
    exact ⟨_, List.mem_singleton_self _, rfl, rfl, rfl⟩
  arguments := by
    intro call mem
    cases List.mem_singleton.mp mem
    have object : loads "{}".toList = some (.obj []) := by decide +kernel
    exact .inr ⟨[], object⟩

/-- Both clients read the call of `lookup` with its name. -/
theorem clients_agree_iff_lookup :
    ChatAgrees zeroHost 0 "m" "a" (answerEmitter "r" "m" 0) ["o", "k"] (oneCall "lookup") ∧
    MessagesAgrees zeroHost "m" "a" (answerEmitter "r" "m" 0) ["o", "k"] (oneCall "lookup") := by
  have chat : chatRequestToCanonical zeroHost (chatBody "lookup") "m" = .ok (oneTool "lookup") := by
    decide +kernel
  have messages : messagesRequestToCanonical zeroHost (messagesBody "lookup") "m" =
      .ok (oneTool "lookup") := by
    decide +kernel
  have cut : String.join ["o", "k"] = (oneCall "lookup").text := by decide +kernel
  have calls : ∀ call ∈ (oneCall "lookup").toolCalls, IsWireName call.name ∧ call.arguments ≠ "" ∧
      call.callId ≠ "" ∧ pyStrip call.callId = call.callId := by
    decide +kernel
  constructor
  · exact ((clients_agree_iff zeroHost (chatBody "lookup") "m" _ (oneCallResult "lookup") _ cut "a"
      0 0).1 chat).mpr calls
  · exact ((clients_agree_iff zeroHost (messagesBody "lookup") "m" _ (oneCallResult "lookup") _ cut
      "a" 0 0).2 messages).mpr ⟨rfl, fun call mem => (calls call mem).2⟩

/-- A client that declares `a.b` is told `a.b` by the stream and the name of the provider by the
document. -/
theorem clients_disagree_on_names :
    chatRequestToCanonical zeroHost (chatBody "a.b") "m" = .ok (oneTool "a.b") ∧
    (∀ call ∈ (oneCall "a.b").toolCalls, Declared (oneTool "a.b").tools call) ∧
    ¬ ChatAgrees zeroHost 0 "m" "a" (answerEmitter "r" "m" 0) ["ok"] (oneCall "a.b") := by
  refine ⟨by decide +kernel, (oneCallResult "a.b").declared, fun agrees => ?_⟩
  have plain : ∀ call ∈ (oneCall "a.b").toolCalls, PlainCall call := by
    intro call mem
    cases List.mem_singleton.mp mem
    exact ⟨rfl, rfl, by decide +kernel, by decide +kernel⟩
  have cut : String.join ["ok"] = (oneCall "a.b").text := by decide +kernel
  have named := (chatAgrees_iff zeroHost 0 "m" "a" _ rfl rfl cut plain).mp agrees
  have notWire : ¬ IsWireName "a.b" := by decide +kernel
  exact notWire (named _ (List.mem_singleton_self _)).1

end AgentPark.Gateway
