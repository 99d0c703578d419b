import AgentPark.Gateway.Relay

/-!
# The client of an answer

What the clients of the protocols have in common: the answer they put together, the values they read
it from, and the calls to the tools they declared.
-/

namespace AgentPark.Gateway

open Lib Generator Emitter

/-! ### Reading values -/

/-- A call as a client has it: its arguments are decoded. -/
structure ClientCall where
  id : String
  name : String
  arguments : Option Json
deriving DecidableEq

/-- An answer as a client has it. -/
@[ext] structure Answer where
  text : String
  calls : List ClientCall
  finishReason : String
  inputTokens : Nat
  outputTokens : Nat
deriving DecidableEq

def stringAt (key : String) (v : Json) : String :=
  match v.get key with
  | some (.str text) => text
  | _ => ""

/-- The items of the list under a key. -/
def itemsAt (key : String) (v : Json) : List Json :=
  match v.get key with
  | some (.arr items) => items
  | _ => []

/-- The value under a key, an empty one if there is none. -/
def valueAt (key : String) (v : Json) : Json := (v.get key).getD .null

/-- A call of which the arguments may still come. -/
structure Fragment where
  id : String
  name : String
  arguments : String
deriving DecidableEq

def Fragment.call (fragment : Fragment) : ClientCall :=
  { id := fragment.id, name := fragment.name, arguments := loads fragment.arguments.toList }

/-- The payload of a frame, if it has one. -/
def Frame.payload : Frame → Option Json
  | .sse _ payload => some payload
  | .data payload => some payload
  | .done => none

/-- The deltas that carry a text. -/
def shownDeltas (deltas : List String) : List String := deltas.filter fun delta => delta ≠ ""

theorem join_shownDeltas (deltas : List String) :
    String.join (shownDeltas deltas) = String.join deltas := by
  induction deltas with
  | nil => rfl
  | cons delta deltas ih =>
    unfold shownDeltas at ih ⊢
    by_cases empty : delta = ""
    · rw [List.filter_cons_of_neg (by simp [empty]), ih, String.join_cons, empty,
        String.empty_append]
    · rw [List.filter_cons_of_pos (by simpa using empty), String.join_cons, String.join_cons, ih]

/-! ### The calls of a client -/

/-- A call to a tool of a client: it is a function without a namespace, and its name has no blanks
around it. -/
structure PlainCall (call : CanonicalToolCall) : Prop where
  kind : call.kind = .function
  toolNamespace : call.toolNamespace = ""
  stripped : pyStrip call.name = call.name
  named : call.name ≠ ""

/-- The item of such a call. -/
def functionItem (drawn : String) (call : CanonicalToolCall) : List (String × Json) :=
  [("type", .str "function_call"), ("id", .str ("fc_" ++ drawn)), ("call_id", .str call.callId),
    ("name", .str call.name), ("arguments", .str call.arguments), ("status", .str "completed")]

theorem toolCallItem_plain {drawn : String} {call : CanonicalToolCall} (plain : PlainCall call) :
    toolCallItem drawn call = .ok (functionItem drawn call) := by
  unfold toolCallItem namespaceField
  rw [plain.kind, plain.toolNamespace]
  rfl

/-- The identifier a converter finds in the item of a call. -/
def sentId (drawn : String) (call : CanonicalToolCall) : String :=
  pyStrip (if call.callId ≠ "" then call.callId else "fc_" ++ drawn)

/-- The arguments a converter finds in the item of a call. -/
def sentArguments (call : CanonicalToolCall) : String :=
  if call.arguments ≠ "" then call.arguments else "{}"

/-- A call whose identifier is blank and not empty. -/
def BlankId (call : CanonicalToolCall) : Prop := call.callId ≠ "" ∧ pyStrip call.callId = ""

instance (call : CanonicalToolCall) : Decidable (BlankId call) :=
  inferInstanceAs (Decidable (call.callId ≠ "" ∧ pyStrip call.callId = ""))

theorem pyStrip_cons_ne {c : Char} (solid : pyIsSpace c = false) (text : String) :
    pyStrip (String.singleton c ++ text) ≠ "" := by
  intro blank
  obtain ⟨rest, eq⟩ := stripList_cons solid text.toList
  have list := congrArg String.toList blank
  rw [pyStrip, String.toList_ofList, String.toList_append] at list
  have single : (String.singleton c).toList = [c] := by simp
  rw [single, List.singleton_append, eq] at list
  cases list

theorem sentId_eq_empty_iff {drawn : String} {call : CanonicalToolCall} :
    sentId drawn call = "" ↔ BlankId call := by
  unfold sentId BlankId
  by_cases empty : call.callId = ""
  · rw [if_neg (by simp [empty])]
    have drawnId := pyStrip_cons_ne (c := 'f') (by rfl) ("c_" ++ drawn)
    have same : String.singleton 'f' ++ ("c_" ++ drawn) = "fc_" ++ drawn := by
      rw [← String.append_assoc]
      rfl
    rw [same] at drawnId
    simp [empty, drawnId]
  · rw [if_pos empty]
    simp [empty]

theorem sentId_eq_iff {drawn : String} {call : CanonicalToolCall} (notBlank : ¬ BlankId call) :
    sentId drawn call = call.callId ↔ call.callId ≠ "" ∧ pyStrip call.callId = call.callId := by
  constructor
  · intro same
    have present : call.callId ≠ "" := by
      intro empty
      rw [empty] at same
      exact notBlank (sentId_eq_empty_iff.mp same)
    rw [sentId, if_pos present] at same
    exact ⟨present, same⟩
  · rintro ⟨present, stripped⟩
    rw [sentId, if_pos present, stripped]

section

variable (host : Host)

theorem strOr_str (default text : String) :
    Json.strOr host.repr default (some (.str text)) = if text ≠ "" then text else default := by
  unfold Json.strOr
  by_cases empty : text = ""
  · simp [Json.truthy, empty]
  · simp [Json.truthy, Json.pyStr, empty]

theorem type_functionItem (drawn : String) (call : CanonicalToolCall) :
    (Json.obj (functionItem drawn call)).get "type" = some (.str "function_call") := rfl

theorem uniqueKeys_functionItem (drawn : String) (call : CanonicalToolCall) :
    (Json.obj (functionItem drawn call)).UniqueKeys := by
  simp [functionItem, Json.uniqueKeys_obj]

variable {drawn : String} {call : CanonicalToolCall}

/-! What a converter reads from the item of a call. -/

theorem sentId_functionItem :
    pyStrip (Json.strOr host.repr (textOf host ((Json.obj (functionItem drawn call)).get "id"))
      ((Json.obj (functionItem drawn call)).get "call_id")) = sentId drawn call := by
  have callId : (Json.obj (functionItem drawn call)).get "call_id" = some (.str call.callId) := rfl
  have itemId : (Json.obj (functionItem drawn call)).get "id" = some (.str ("fc_" ++ drawn)) := rfl
  rw [callId, itemId, textOf_str, strOr_str]
  rfl

theorem name_functionItem (plain : PlainCall call) :
    pyStrip (textOf host ((Json.obj (functionItem drawn call)).get "name")) = call.name := by
  have name : (Json.obj (functionItem drawn call)).get "name" = some (.str call.name) := rfl
  rw [name, textOf_str, plain.stripped]

theorem not_custom_functionItem :
    textOf host ((Json.obj (functionItem drawn call)).get "type") ≠ "custom_tool_call" := by
  rw [type_functionItem, textOf_str]
  decide

theorem arguments_functionItem :
    Json.strOr host.repr "{}" ((Json.obj (functionItem drawn call)).get "arguments") = sentArguments call := by
  have arguments : (Json.obj (functionItem drawn call)).get "arguments" = some (.str call.arguments) := rfl
  rw [arguments, strOr_str]
  rfl

theorem refused_iff (plain : PlainCall call) : sentId drawn call = "" ∨ call.name = "" ↔ BlankId call := by
  rw [or_iff_left plain.named, sentId_eq_empty_iff]

theorem get_response_payload {n : Nat} {kind : String} {response : Json} :
    (payload n (kind, [("response", response)])).get "response" = some response := by
  rw [get_payload _ _ (by decide) (by decide)]
  rfl

theorem usage_fields (result : CanonicalResult) : ∃ fields, usage result = .obj fields ∧
    count ((Json.obj fields).get "input_tokens") = result.inputTokens ∧
    count ((Json.obj fields).get "output_tokens") = result.outputTokens :=
  ⟨_, rfl, count_nat _, count_nat _⟩

theorem itemized_plain {calls : List CanonicalToolCall} (plain : ∀ call ∈ calls, PlainCall call)
    (drawn : Nat) :
    ∃ pairs, Itemized host drawn calls pairs ∧ ∀ pair ∈ pairs, (Json.obj pair.2).UniqueKeys := by
  induction calls generalizing drawn with
  | nil => exact ⟨[], .nil drawn, List.forall_mem_nil _⟩
  | cons call calls ih =>
    obtain ⟨first, rest⟩ := List.forall_mem_cons.mp plain
    obtain ⟨pairs, itemized, unique⟩ := ih rest (drawn + 1)
    exact ⟨_, .cons (toolCallItem_plain first) itemized,
      List.forall_mem_cons.mpr ⟨uniqueKeys_functionItem _ _, unique⟩⟩

end

end AgentPark.Gateway
