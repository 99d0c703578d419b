import AgentPark.Gateway.Frames

/-!
# Collecting a Responses stream

A client that did not ask for a stream may be served by a provider that only streams.  The gateway
then reads the stream to its end and puts one response together: from the snapshot of the first
event, the items and text on the way, and the snapshot of the last event.
-/

namespace AgentPark.Gateway

open Lib

/-- The variables of `collect_responses_stream`. -/
structure Collected where
  createdResponse : List (String × Json) := []
  completedResponse : List (String × Json) := []
  outputItems : List Json := []
  textDeltas : List String := []

section

variable (host : Host)

/-- The round of `collect_responses_stream` for one event. -/
def collectEvent (collected : Collected) (event : Json) : Except Raised Collected :=
  let kind := eventType host event
  if kind = "response.created" then
    match event.get "response" with
    | some (.obj response) => .ok { collected with createdResponse := response }
    | _ => .ok collected
  else if kind = "response.output_text.delta" then
    match event.get "delta" with
    | some (.str delta) => .ok { collected with textDeltas := collected.textDeltas ++ [delta] }
    | _ => .ok collected
  else if kind = "response.output_item.done" then
    match event.get "item" with
    | some (.obj item) => .ok { collected with outputItems := collected.outputItems ++ [.obj item] }
    | _ => .ok collected
  else if kind = "response.completed" then
    match event.get "response" with
    | some (.obj response) => .ok { collected with completedResponse := response }
    | _ => .error (.protocol "Responses completed event requires a response object.")
  else if kind = "response.failed" then .error (.protocol (failureMessage host event))
  else .ok collected

/-- The round for one chunk. -/
def collectChunk (collected : Collected) (chunk : List UInt8) : Except Raised Collected := do
  match ← responsesEvent chunk with
  | none => pure collected
  | some event => collectEvent host collected event

/-- The text of a part that shows text. -/
def partText (part : Json) : String :=
  match part with
  | .obj fields =>
    if textOf host ((Json.obj fields).get "type") ∈ ["output_text", "text"] then
      textOf host ((Json.obj fields).get "text")
    else ""
  | _ => ""

/-- The text of one item: only a message shows any.  Texts and dictionaries are iterated as well and
have no parts among what they give; other values cannot be iterated. -/
def itemText (item : Json) : Except Raised String :=
  match item with
  | .obj fields =>
    if textOf host ((Json.obj fields).get "type") = "message" then
      match ((Json.obj fields).get "content").getD (.arr []) with
      | .arr parts => .ok (String.join (parts.map (partText host)))
      | .str _ | .obj _ => .ok ""
      | _ => .error (.other "object is not iterable")
    else .ok ""
  | _ => .ok ""

/-- `_output_text` -/
def outputText (output : List Json) : Except Raised String :=
  (output.mapM (itemText host)).map String.join

/-- The text of the response: `isinstance(result.get("output_text"), str)` is looked at before. -/
def shownText (textDeltas : List String) (output : List Json) : Except Raised String :=
  if String.join textDeltas ≠ "" then .ok (String.join textDeltas) else outputText host output

/-- The output of a response, and the response with it. -/
def withOutput (result : List (String × Json)) (outputItems : List Json) : List (String × Json) × List Json :=
  match result.lookup "output" with
  | some (.arr output) => (result, output)
  | _ => (dictSet result "output" (.arr outputItems), outputItems)

/-- The text of a response, and the response with it. -/
def withText (result : List (String × Json)) (textDeltas : List String) (output : List Json) :
    Except Raised Json :=
  match result.lookup "output_text" with
  | some (.str _) => .ok (.obj result)
  | _ => (shownText host textDeltas output).map fun text => .obj (dictSet result "output_text" (.str text))

/-- What `collect_responses_stream` does behind the loop. -/
def finish (collected : Collected) : Except Raised Json :=
  if collected.completedResponse = [] then
    .error (.protocol "Responses stream ended without response.completed.")
  else
    let result := dictUpdate collected.createdResponse collected.completedResponse
    let result := setDefault result "object" (.str "response")
    let result := setDefault result "status" (.str "completed")
    let (result, output) := withOutput result collected.outputItems
    withText host result collected.textDeltas output

/-- `collect_responses_stream` -/
def collectResponsesStream (chunks : List (List UInt8)) : Except Raised Json :=
  chunks.foldlM (collectChunk host) {} >>= finish host

/-! ### Streams -/

/-- What stands between the first event of a stream and the last. -/
inductive StreamPart where
  | delta (text : String)
  | done (item : List (String × Json))
deriving DecidableEq

def StreamPart.text : StreamPart → Option String
  | .delta text => some text
  | .done _ => none

def StreamPart.item : StreamPart → Option Json
  | .delta _ => none
  | .done item => some (.obj item)

def StreamPart.Is (event : Json) : StreamPart → Prop
  | .delta text =>
    eventType host event = "response.output_text.delta" ∧ event.get "delta" = some (.str text)
  | .done item =>
    eventType host event = "response.output_item.done" ∧ event.get "item" = some (.obj item)

/-- An event with a snapshot of the response. -/
def IsSnapshot (kind : String) (response : List (String × Json)) (event : Json) : Prop :=
  eventType host event = kind ∧ event.get "response" = some (.obj response)

/-- The chunk is read as an event of which `P` holds. -/
def Carries (chunk : List UInt8) (P : Json → Prop) : Prop :=
  ∃ event, responsesEvent chunk = .ok (some event) ∧ P event

theorem uniqueKeys_responsesEvent {chunk : List UInt8} {event : Json}
    (read : responsesEvent chunk = .ok (some event)) : event.UniqueKeys := by
  unfold responsesEvent at read
  dsimp only at read
  split_ifs at read
  · cases read
  split at read
  · cases read
  · rename_i loaded
    cases read
    obtain ⟨text, -, loaded⟩ := Option.bind_eq_some_iff.mp loaded
    exact uniqueKeys_loads loaded
  · cases read

theorem nodup_of_get {event : Json} {key : String} {fields : List (String × Json)} (unique : event.UniqueKeys)
    (found : event.get key = some (.obj fields)) : (fields.map Prod.fst).Nodup :=
  (Json.uniqueKeys_obj.mp (unique.of_get found)).1

variable {host}

theorem collectChunk_of_carries (collected : Collected) {chunk : List UInt8} {P : Json → Prop}
    (carries : Carries chunk P) : ∃ event, P event ∧
      collectChunk host collected chunk = collectEvent host collected event := by
  obtain ⟨event, read, holds⟩ := carries
  refine ⟨event, holds, ?_⟩
  rw [collectChunk, read]
  rfl

theorem run_parts {parts : List StreamPart} {chunks : List (List UInt8)} (collected : Collected)
    (carries : List.Forall₂ (fun part chunk => Carries chunk fun event => part.Is host event) parts chunks) :
    chunks.foldlM (collectChunk host) collected =
      .ok { collected with
        outputItems := collected.outputItems ++ parts.filterMap StreamPart.item
        textDeltas := collected.textDeltas ++ parts.filterMap StreamPart.text } := by
  induction carries generalizing collected with
  | nil => simp [pure, Except.pure]
  | @cons part chunk parts chunks first _ ih =>
    obtain ⟨event, isPart, step⟩ := collectChunk_of_carries collected first
    rw [List.foldlM_cons, step]
    cases part with
    | delta text =>
      have next : collectEvent host collected event =
          .ok { collected with textDeltas := collected.textDeltas ++ [text] } := by
        simp [collectEvent, isPart.1, isPart.2]
      rw [next]
      refine (ih _).trans ?_
      simp [List.filterMap_cons, StreamPart.item, StreamPart.text]
    | done item =>
      have next : collectEvent host collected event =
          .ok { collected with outputItems := collected.outputItems ++ [.obj item] } := by
        simp [collectEvent, isPart.1, isPart.2]
      rw [next]
      refine (ih _).trans ?_
      simp [List.filterMap_cons, StreamPart.item, StreamPart.text]

/-- What the rounds keep of a stream of one answer. -/
theorem run_stream {snapshot response : List (String × Json)} {parts : List StreamPart}
    {first last : List UInt8} {chunks : List (List UInt8)}
    (starts : Carries first (IsSnapshot host "response.created" snapshot))
    (carries : List.Forall₂ (fun part chunk => Carries chunk fun event => part.Is host event) parts chunks)
    (ends : Carries last (IsSnapshot host "response.completed" response)) :
    (first :: (chunks ++ [last])).foldlM (collectChunk host) {} =
      .ok { createdResponse := snapshot, completedResponse := response
            outputItems := parts.filterMap StreamPart.item
            textDeltas := parts.filterMap StreamPart.text } := by
  obtain ⟨created, isCreated, firstStep⟩ := collectChunk_of_carries {} starts
  have next : collectEvent host {} created = .ok { createdResponse := snapshot } := by
    simp [collectEvent, isCreated.1, isCreated.2]
  rw [List.foldlM_cons, firstStep, next]
  change (chunks ++ [last]).foldlM (collectChunk host) { createdResponse := snapshot } = _
  rw [List.foldlM_append, run_parts _ carries]
  obtain ⟨completed, isCompleted, lastStep⟩ := collectChunk_of_carries
    { createdResponse := snapshot, outputItems := [] ++ parts.filterMap StreamPart.item
      textDeltas := [] ++ parts.filterMap StreamPart.text } ends
  change [last].foldlM (collectChunk host) _ = _
  rw [List.foldlM_cons, lastStep]
  simp [collectEvent, isCompleted.1, isCompleted.2, bind, Except.bind, pure, Except.pure]

/-! ### The response -/

/-- The output of the response: that of the last event, or all the items on the way. -/
def finalOutput (response : List (String × Json)) (items : List Json) : List Json :=
  match response.lookup "output" with
  | some (.arr output) => output
  | _ => items

variable (host) in
/-- The text of the response: that of the last event, the texts on the way, or the text of the output. -/
def finalText (response : List (String × Json)) (items : List Json) (deltas : List String) :
    Except Raised String :=
  match response.lookup "output_text" with
  | some (.str text) => .ok text
  | _ => shownText host deltas (finalOutput response items)

/-- No key of the first snapshot takes the place of one that the last has to leave to the code. -/
structure Unshadowed (snapshot response : List (String × Json)) : Prop where
  status : response.lookup "status" = none →
    snapshot.lookup "status" = none ∨ snapshot.lookup "status" = some (.str "completed")
  output : response.lookup "output" = none → ∀ items, snapshot.lookup "output" ≠ some (.arr items)
  text : response.lookup "output_text" = none → ∀ text, snapshot.lookup "output_text" ≠ some (.str text)

theorem withOutput_output (result : List (String × Json)) (items : List Json) :
    (withOutput result items).2 = finalOutput result items := by
  unfold withOutput finalOutput
  split
  · rfl
  · rfl

theorem lookup_withOutput (result : List (String × Json)) (items : List Json) (key : String) :
    (withOutput result items).1.lookup key =
      if key = "output" then some (.arr (finalOutput result items)) else result.lookup key := by
  unfold withOutput finalOutput
  split
  · rename_i output found
    split_ifs with same
    · rw [same, found]
    · rfl
  · rw [lookup_dictSet]

theorem finalOutput_congr {merged response : List (String × Json)} {items : List Json}
    (same : merged.lookup "output" = response.lookup "output" ∨
      response.lookup "output" = none ∧ ∀ others, merged.lookup "output" ≠ some (.arr others)) :
    finalOutput merged items = finalOutput response items := by
  unfold finalOutput
  rcases same with same | ⟨none, other⟩
  · rw [same]
  · rw [none]
    split
    · rename_i others found
      exact absurd found (other others)
    · rfl

theorem withText_of_some {result : List (String × Json)} {deltas : List String} {output : List Json}
    {text : String} (found : result.lookup "output_text" = some (.str text)) :
    withText host result deltas output = .ok (.obj result) := by
  rw [withText, found]

theorem withText_of_none {result : List (String × Json)} {deltas : List String} {output : List Json}
    (missing : ∀ text, result.lookup "output_text" ≠ some (.str text)) :
    withText host result deltas output = (shownText host deltas output).map fun text =>
      .obj (dictSet result "output_text" (.str text)) := by
  rw [withText]
  split
  · rename_i text found
    exact absurd found (missing text)
  · rfl

theorem finalText_of_none {response : List (String × Json)} {items : List Json} {deltas : List String}
    (missing : ∀ text, response.lookup "output_text" ≠ some (.str text)) :
    finalText host response items deltas = shownText host deltas (finalOutput response items) := by
  rw [finalText]
  split
  · rename_i text found
    exact absurd found (missing text)
  · rfl

theorem finish_complete (collected : Collected) (notEmpty : collected.completedResponse ≠ [])
    (nodup : (collected.completedResponse.map Prod.fst).Nodup)
    (unshadowed : Unshadowed collected.createdResponse collected.completedResponse) :
    match finalText host collected.completedResponse collected.outputItems collected.textDeltas with
    | .error e => finish host collected = .error e
    | .ok text => ∃ result, finish host collected = .ok result ∧
        result.get "status" = some ((collected.completedResponse.lookup "status").getD (.str "completed")) ∧
        result.get "output" = some (.arr (finalOutput collected.completedResponse collected.outputItems)) ∧
        result.get "output_text" = some (.str text) := by
  obtain ⟨snapshot, response, items, deltas⟩ := collected
  dsimp only at notEmpty nodup unshadowed ⊢
  have merged := lookup_dictUpdate nodup snapshot
  let base := setDefault (setDefault (dictUpdate snapshot response) "object" (.str "response")) "status"
    (.str "completed")
  have status : base.lookup "status" = some ((response.lookup "status").getD (.str "completed")) := by
    rw [lookup_setDefault, if_pos rfl, lookup_setDefault, if_neg (by decide), merged]
    cases found : response.lookup "status" with
    | some value => rfl
    | none =>
      rcases unshadowed.status found with absent | absent
      · rw [absent]
        rfl
      · rw [absent]
        rfl
  have others : ∀ key, key ≠ "object" → key ≠ "status" →
      base.lookup key = (response.lookup key).or (snapshot.lookup key) := by
    intro key notObject notStatus
    rw [lookup_setDefault, if_neg notStatus, lookup_setDefault, if_neg notObject, merged]
  have output : finalOutput base items = finalOutput response items := by
    refine finalOutput_congr ?_
    rw [others "output" (by decide) (by decide)]
    cases found : response.lookup "output" with
    | some value => exact .inl rfl
    | none => exact .inr ⟨rfl, by simpa using unshadowed.output found⟩
  have looked := lookup_withOutput base items
  have step : finish host ⟨snapshot, response, items, deltas⟩ =
      withText host (withOutput base items).1 deltas (finalOutput response items) := by
    rw [finish, if_neg notEmpty, ← output, ← withOutput_output]
  have text : (withOutput base items).1.lookup "output_text" =
      (response.lookup "output_text").or (snapshot.lookup "output_text") := by
    rw [looked, if_neg (by decide), others _ (by decide) (by decide)]
  rw [output] at looked
  by_cases shown : ∃ shown, response.lookup "output_text" = some (.str shown)
  · obtain ⟨shown, found⟩ := shown
    rw [found, Option.some_or] at text
    rw [finalText, found]
    refine ⟨.obj (withOutput base items).1, ?_, ?_, ?_, text⟩
    · rw [step, withText_of_some text]
    · exact (looked "status").trans status
    · exact looked "output"
  · have missing : ∀ shown, (withOutput base items).1.lookup "output_text" ≠ some (.str shown) := by
      intro other found
      rw [text] at found
      cases own : response.lookup "output_text" with
      | some value =>
        rw [own, Option.some_or] at found
        exact shown ⟨other, own.trans found⟩
      | none =>
        rw [own, Option.none_or] at found
        exact unshadowed.text own other found
    rw [finalText_of_none fun text found => shown ⟨text, found⟩, step, withText_of_none missing]
    cases isText : shownText host deltas (finalOutput response items) with
    | error e => rfl
    | ok text =>
      refine ⟨_, rfl, ?_, ?_, ?_⟩
      · rw [Json.get, lookup_dictSet, if_neg (by decide), looked, if_neg (by decide), status]
      · rw [Json.get, lookup_dictSet, if_neg (by decide), looked, if_pos rfl]
      · rw [Json.get, lookup_dictSet, if_pos rfl]

variable (host) in
/-- The response that is put together of the chunks has the status, the output and the text of the last
event where that has them, and else the items and the texts on the way. -/
def PutTogether (response : List (String × Json)) (parts : List StreamPart) (chunks : List (List UInt8)) : Prop :=
  let items := parts.filterMap StreamPart.item
  match finalText host response items (parts.filterMap StreamPart.text) with
  | .error e => collectResponsesStream host chunks = .error e
  | .ok text => ∃ result, collectResponsesStream host chunks = .ok result ∧
      result.get "status" = some ((response.lookup "status").getD (.str "completed")) ∧
      result.get "output" = some (.arr (finalOutput response items)) ∧
      result.get "output_text" = some (.str text)

/-- Collecting the stream of one answer loses nothing of it. -/
theorem collect_stream {snapshot response : List (String × Json)} {parts : List StreamPart}
    {first last : List UInt8} {chunks : List (List UInt8)}
    (starts : Carries first (IsSnapshot host "response.created" snapshot))
    (carries : List.Forall₂ (fun part chunk => Carries chunk fun event => part.Is host event) parts chunks)
    (ends : Carries last (IsSnapshot host "response.completed" response)) (notEmpty : response ≠ [])
    (unshadowed : Unshadowed snapshot response) :
    PutTogether host response parts (first :: (chunks ++ [last])) := by
  have run := run_stream starts carries ends
  have collect : collectResponsesStream host (first :: (chunks ++ [last])) = finish host
      { createdResponse := snapshot, completedResponse := response
        outputItems := parts.filterMap StreamPart.item
        textDeltas := parts.filterMap StreamPart.text } := by
    rw [collectResponsesStream, run]
    rfl
  rw [PutTogether, collect]
  obtain ⟨event, read, -, isResponse⟩ := ends
  have nodup := nodup_of_get (uniqueKeys_responsesEvent read) isResponse
  exact finish_complete ⟨snapshot, response, _, _⟩ notEmpty nodup unshadowed

end

/-- A message with one text. -/
def greeting : List (String × Json) :=
  [("type", .str "message"), ("content", .arr [.obj [("type", .str "output_text"), ("text", .str "Hi")]])]

/-- The chunk of an event. -/
def eventChunk (kind key : String) (value : Json) : List UInt8 :=
  (Frame.data (.obj [("type", .str kind), (key, value)])).bytes

theorem carries_eventChunk {kind key : String} {value : Json} {P : Json → Prop} (other : "type" ≠ key)
    (unique : value.UniqueKeys) (holds : P (.obj [("type", .str kind), (key, value)])) :
    Carries (eventChunk kind key value) P := by
  refine ⟨_, responsesEvent_data (Json.uniqueKeys_obj.mpr ⟨?_, ?_⟩), holds⟩
  · simpa using other
  · simp [unique]

/-- Two texts and an item between a first event that is in progress and a last one that is completed. -/
theorem collect_stream_greeting :
    PutTogether zeroHost [("id", .str "resp_1"), ("status", .str "completed")]
      [.delta "H", .done greeting, .delta "i"]
      (eventChunk "response.created" "response" (.obj [("status", .str "in_progress")]) ::
        ([eventChunk "response.output_text.delta" "delta" (.str "H"),
          eventChunk "response.output_item.done" "item" (.obj greeting),
          eventChunk "response.output_text.delta" "delta" (.str "i")] ++
        [eventChunk "response.completed" "response"
          (.obj [("id", .str "resp_1"), ("status", .str "completed")])])) := by
  have starts : Carries (eventChunk "response.created" "response" (.obj [("status", .str "in_progress")]))
      (IsSnapshot zeroHost "response.created" [("status", .str "in_progress")]) :=
    carries_eventChunk (by decide) (by decide +kernel) ⟨textOf_str _ _, rfl⟩
  refine collect_stream starts ?_ ?_ (by decide +kernel) ?_
  · refine .cons ?_ (.cons ?_ (.cons ?_ .nil))
    · exact carries_eventChunk (by decide) (by decide +kernel) ⟨textOf_str _ _, rfl⟩
    · exact carries_eventChunk (by decide) (by decide +kernel) ⟨textOf_str _ _, rfl⟩
    · exact carries_eventChunk (by decide) (by decide +kernel) ⟨textOf_str _ _, rfl⟩
  · exact carries_eventChunk (by decide) (by decide +kernel) ⟨textOf_str _ _, rfl⟩
  · exact ⟨by decide, fun _ _ => nofun, fun _ _ => nofun⟩

/-- Without any text on the way the text is that of the items. -/
theorem collect_stream_text_of_items :
    ∃ result, collectResponsesStream zeroHost
        [eventChunk "response.created" "response" (.obj [("status", .str "in_progress")]),
          eventChunk "response.output_item.done" "item" (.obj greeting),
          eventChunk "response.completed" "response" (.obj [("status", .str "completed")])] = .ok result ∧
      result.get "output_text" = some (.str "Hi") ∧
      result.get "output_text" ≠ some (.str (String.join ([StreamPart.done greeting].filterMap StreamPart.text))) := by
  have starts : Carries (eventChunk "response.created" "response" (.obj [("status", .str "in_progress")]))
      (IsSnapshot zeroHost "response.created" [("status", .str "in_progress")]) :=
    carries_eventChunk (by decide) (by decide +kernel) ⟨textOf_str _ _, rfl⟩
  have item : Carries (eventChunk "response.output_item.done" "item" (.obj greeting))
      fun event => (StreamPart.done greeting).Is zeroHost event :=
    carries_eventChunk (by decide) (by decide +kernel) ⟨textOf_str _ _, rfl⟩
  have ends : Carries (eventChunk "response.completed" "response" (.obj [("status", .str "completed")]))
      (IsSnapshot zeroHost "response.completed" [("status", .str "completed")]) :=
    carries_eventChunk (by decide) (by decide +kernel) ⟨textOf_str _ _, rfl⟩
  refine ⟨.obj [("status", .str "completed"), ("object", .str "response"), ("output", .arr [.obj greeting]),
    ("output_text", .str "Hi")], ?_, by decide +kernel, by decide +kernel⟩
  have run := run_stream starts (.cons item .nil) ends
  rw [List.singleton_append] at run
  rw [collectResponsesStream, run]
  decide +kernel

end AgentPark.Gateway
