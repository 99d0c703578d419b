import AgentPark.Lib.Json
import AgentPark.Lib.Outcome

/-!
# Tool turns of a chat history

An assistant message that calls tools is followed by the tool messages with the results.  Before a
history is sent, `prepareChatCompletionsMessages` checks that and puts the results of one batch into
the order of its calls.
-/

namespace AgentPark.Providers

open Lib

section

variable (repr : Json → String)

/-- `str(message.get(key) or "").strip()` -/
def strippedText (message : Json) (key : String) : String :=
  pyStrip (Json.strOr repr "" (message.get key))

/-- `str(message.get("role") or "").strip().lower()` -/
def roleOf (message : Json) : String := pyLower (strippedText repr message "role")

/-- The text of a list of texts, for an error. -/
def listText (ids : List String) : String := repr (.arr (ids.map .str))

/-- The loop of `_require_unique_ids`. -/
def duplicateIds : (ids seen duplicates : List String) → List String
  | [], _, duplicates => duplicates
  | callId :: ids, seen, duplicates =>
    duplicateIds ids (callId :: seen)
      (if callId ∈ seen ∧ callId ∉ duplicates then duplicates ++ [callId] else duplicates)

/-- `_require_unique_ids` -/
def requireUniqueIds (callIds : List String) (label : String) : Except String Unit :=
  require (duplicateIds callIds [] [] = [])
    (label ++ " ids must be unique: " ++ listText repr (duplicateIds callIds [] []))

/-- The round of `openai_tool_call_ids` for one call. -/
def toolCallId (call : Json) : Except String String := do
  let .obj _ := call
    | .error "Tool call history must contain only objects."
  if strippedText repr call "id" = "" then .error "Tool call history requires a non-empty id."
  else pure (strippedText repr call "id")

/-- `openai_tool_call_ids` -/
def openaiToolCallIds (message : Json) : Except String (List String) :=
  match message.get "tool_calls" with
  | some (.arr calls) => do
    let callIds ← calls.mapM (toolCallId repr)
    requireUniqueIds repr callIds "tool call"
    pure callIds
  | _ => pure []

/-- The round of `order_tool_result_messages` for one result. -/
def addResult (protocol : String) (resultsById : List (String × Json)) (message : Json) :
    Except String (List (String × Json)) := do
  let .obj _ := message
    | .error (protocol ++ " tool result history must contain only objects.")
  let callId := strippedText repr message "tool_call_id"
  if callId = "" then .error (protocol ++ " tool result requires tool_call_id.")
  else if callId ∈ resultsById.map Prod.fst then
    .error (protocol ++ " tool result id is duplicated: " ++ callId)
  else pure (dictSet resultsById callId message)

/-- `order_tool_result_messages` -/
def orderToolResultMessages (expected : List String) (results : List Json) (protocol : String) :
    Except String (List Json) := do
  require (expected ≠ []) (protocol ++ " tool results require a preceding tool call batch.")
  requireUniqueIds repr expected (protocol ++ " tool call")
  let resultsById ← results.foldlM (addResult repr protocol) []
  let missing := expected.filter (· ∉ resultsById.map Prod.fst)
  let unexpected := (resultsById.map Prod.fst).filter (· ∉ expected)
  require (missing = [] ∧ unexpected = [])
    (protocol ++ " tool call/result pairing is incomplete: missing=" ++ listText repr missing ++
      ", unexpected=" ++ listText repr unexpected ++ ".")
  -- every identifier is in the table here
  pure (expected.filterMap fun callId => resultsById.lookup callId)

/-- The inner loop of `prepare_chat_completions_messages`: the tool messages at the beginning, and
what is behind them. -/
def collectResults : List Json → Except String (List Json × List Json)
  | [] => .ok ([], [])
  | candidate :: rest =>
    match candidate with
    | .obj _ =>
      if roleOf repr candidate ≠ "tool" then .ok ([], candidate :: rest)
      else (collectResults rest).map fun (results, rest) => (candidate :: results, rest)
    | _ => .error "Chat Completions messages must contain only objects."

theorem length_collectResults {messages results rest : List Json}
    (collected : collectResults repr messages = .ok (results, rest)) : rest.length ≤ messages.length := by
  induction messages generalizing results with
  | nil =>
    cases collected
    exact Nat.le_refl 0
  | cons candidate messages ih =>
    cases candidate with
    | obj fields =>
      rw [collectResults] at collected
      split at collected
      · cases collected
        exact Nat.le_refl _
      · obtain ⟨⟨later, behind⟩, ran, same⟩ := map_eq_ok.mp collected
        cases same
        have shorter := ih ran
        rw [List.length_cons]
        omega
    | _ => cases collected

/-- The calls of a message whose results have to follow. -/
def expectedIds (message : Json) : Except String (List String) :=
  if roleOf repr message = "assistant" then openaiToolCallIds repr message else pure []

/-- `prepare_chat_completions_messages` -/
def prepareChatCompletionsMessages : List Json → Except String (List Json)
  | [] => pure []
  | message :: rest => do
    let .obj _ := message
      | .error "Chat Completions messages must contain only objects."
    if roleOf repr message = "tool" then
      .error "Chat Completions tool results must immediately follow their assistant tool call turn."
    else
      let expected ← expectedIds repr message
      if expected = [] then
        let prepared ← prepareChatCompletionsMessages rest
        pure (message :: prepared)
      else
        match collected : collectResults repr rest with
        | .error e => .error e
        | .ok (results, behind) =>
          have _shorter := length_collectResults repr collected
          let ordered ← orderToolResultMessages repr expected results "Chat Completions"
          let prepared ← prepareChatCompletionsMessages behind
          pure (message :: (ordered ++ prepared))
termination_by messages => messages.length

theorem prepare_obj (fields : List (String × Json)) (rest : List Json) :
    prepareChatCompletionsMessages repr (.obj fields :: rest) =
      if roleOf repr (.obj fields) = "tool" then
        .error "Chat Completions tool results must immediately follow their assistant tool call turn."
      else (do
        let expected ← expectedIds repr (.obj fields)
        if expected = [] then
          let prepared ← prepareChatCompletionsMessages repr rest
          pure (.obj fields :: prepared)
        else
          let (results, behind) ← collectResults repr rest
          let ordered ← orderToolResultMessages repr expected results "Chat Completions"
          let prepared ← prepareChatCompletionsMessages repr behind
          pure (.obj fields :: (ordered ++ prepared))) := by
  rw [prepareChatCompletionsMessages]
  split_ifs
  · rfl
  · congr 1
    funext expected
    split_ifs
    · rfl
    · split
      · rename_i failed
        rw [failed]
        rfl
      · rename_i ran
        dsimp only
        rw [ran]
        rfl

/-! ### Identifiers -/

theorem duplicateIds_eq_nil {ids seen duplicates : List String} :
    duplicateIds ids seen duplicates = [] ↔
      duplicates = [] ∧ ids.Nodup ∧ ∀ callId ∈ ids, callId ∉ seen := by
  induction ids generalizing seen duplicates with
  | nil => simp [duplicateIds]
  | cons callId ids ih =>
    rw [duplicateIds, ih, List.nodup_cons, List.forall_mem_cons]
    by_cases again : callId ∈ seen
    · have kept : (if callId ∈ seen ∧ callId ∉ duplicates then duplicates ++ [callId] else duplicates) ≠ [] := by
        split_ifs with new
        · simp
        · intro empty
          rw [empty] at new
          exact new ⟨again, List.not_mem_nil⟩
      exact ⟨fun all => absurd all.1 kept, fun all => absurd again all.2.2.1⟩
    · rw [if_neg fun new => again new.1]
      grind

theorem requireUniqueIds_eq_ok {ids : List String} {label : String} {u : Unit} :
    requireUniqueIds repr ids label = .ok u ↔ ids.Nodup := by
  rw [requireUniqueIds, require_eq_ok, duplicateIds_eq_nil]
  simp

/-- The identifiers of the calls of a message. -/
def callIds (message : Json) : List String :=
  match message.get "tool_calls" with
  | some (.arr calls) => calls.map fun call => strippedText repr call "id"
  | _ => []

theorem strippedText_of_not_obj {value : Json} {key : String} (present : strippedText repr value key ≠ "") :
    ∃ fields, value = .obj fields := by
  cases value with
  | obj fields => exact ⟨fields, rfl⟩
  | _ => exact absurd rfl present

theorem toolCallId_eq_ok {call : Json} {callId : String} :
    toolCallId repr call = .ok callId ↔ callId = strippedText repr call "id" ∧ callId ≠ "" := by
  cases call with
  | obj fields =>
    rw [toolCallId]
    split_ifs with empty
    · rw [empty]
      exact ⟨nofun, fun both => absurd both.1 both.2⟩
    · constructor
      · intro ran
        cases ran
        exact ⟨rfl, empty⟩
      · intro both
        rw [both.1]
        rfl
  | _ => exact ⟨nofun, fun both => absurd both.1 both.2⟩

theorem openaiToolCallIds_eq_ok {message : Json} {ids : List String} :
    openaiToolCallIds repr message = .ok ids ↔
      ids = callIds repr message ∧ (∀ callId ∈ ids, callId ≠ "") ∧ ids.Nodup := by
  rw [openaiToolCallIds, callIds]
  split
  · simp only [bind_eq_ok, mapM_eq_ok fun call callId => toolCallId_eq_ok repr, requireUniqueIds_eq_ok]
    constructor
    · rintro ⟨read, ⟨isRead, notEmpty⟩, -, nodup, same⟩
      cases same
      exact ⟨isRead, notEmpty, nodup⟩
    · intro all
      exact ⟨ids, ⟨all.1, all.2.1⟩, (), all.2.2, rfl⟩
  · constructor
    · intro same
      cases same
      simp
    · intro all
      rw [all.1]
      rfl

def IsTool (message : Json) : Prop := roleOf repr message = "tool"

instance (message : Json) : Decidable (IsTool repr message) :=
  inferInstanceAs (Decidable (roleOf repr message = "tool"))

/-- An assistant message that calls tools. -/
def IsBatch (message : Json) : Prop := roleOf repr message = "assistant" ∧ callIds repr message ≠ []

/-- The call a tool message is the result of. -/
def resultId (message : Json) : String := strippedText repr message "tool_call_id"

/-! ### The results of one batch -/

theorem addResult_eq_ok {protocol : String} {table after : List (String × Json)} {message : Json} :
    addResult repr protocol table message = .ok after ↔
      resultId repr message ≠ "" ∧ resultId repr message ∉ table.map Prod.fst ∧
        after = table ++ [(resultId repr message, message)] := by
  cases message with
  | obj fields =>
    rw [addResult]
    change (if resultId repr (.obj fields) = "" then _ else
      if resultId repr (.obj fields) ∈ table.map Prod.fst then _ else _) = _ ↔ _
    rw [ite_error_eq_ok, ite_error_eq_ok]
    refine and_congr_right fun _ => and_congr_right fun fresh => ?_
    unfold resultId at fresh ⊢
    rw [dictSet, if_neg fresh]
    constructor
    · intro same
      cases same
      rfl
    · intro same
      rw [same]
      rfl
  | _ =>
    constructor
    · intro read
      cases read
    · intro all
      exact absurd rfl all.1

theorem foldlM_addResult {protocol : String} {results : List Json} {table final : List (String × Json)} :
    results.foldlM (addResult repr protocol) table = .ok final ↔
      (∀ message ∈ results, resultId repr message ≠ "") ∧ (results.map (resultId repr)).Nodup ∧
        (∀ message ∈ results, resultId repr message ∉ table.map Prod.fst) ∧
          final = table ++ results.map fun message => (resultId repr message, message) := by
  induction results generalizing table with
  | nil =>
    rw [List.foldlM_nil]
    constructor
    · intro ran
      cases ran
      simp
    · intro all
      rw [all.2.2.2]
      simp [pure, Except.pure]
  | cons message results ih =>
    rw [List.foldlM_cons, bind_eq_ok, List.map_cons, List.map_cons, List.nodup_cons]
    simp only [List.forall_mem_cons, addResult_eq_ok, ih]
    constructor
    · rintro ⟨_, ⟨named, fresh, rfl⟩, others, nodup, apart, rfl⟩
      simp only [List.map_append, List.mem_append, not_or, List.map_singleton, List.mem_singleton] at apart
      refine ⟨⟨named, others⟩, ⟨?_, nodup⟩, ⟨fresh, fun other mem => (apart other mem).1⟩, by simp⟩
      intro again
      obtain ⟨other, mem, same⟩ := List.mem_map.mp again
      exact (apart other mem).2 same
    · rintro ⟨⟨named, others⟩, ⟨first, nodup⟩, ⟨fresh, apart⟩, rfl⟩
      refine ⟨_, ⟨named, fresh, rfl⟩, others, nodup, fun other mem => ?_, by simp⟩
      rw [List.map_append, List.mem_append, not_or, List.map_singleton, List.mem_singleton]
      refine ⟨apart other mem, fun same => first ?_⟩
      exact List.mem_map.mpr ⟨other, mem, same⟩

variable {repr}

theorem lookup_results {results : List Json} (nodup : (results.map (resultId repr)).Nodup) {message : Json}
    (mem : message ∈ results) :
    (results.map fun message => (resultId repr message, message)).lookup (resultId repr message) =
      some message := by
  refine lookup_of_mem ?_ (List.mem_map.mpr ⟨message, mem, rfl⟩)
  rw [List.map_map]
  exact nodup

theorem perm_lookup_results {expected : List String} {results : List Json} (distinct : expected.Nodup)
    (nodup : (results.map (resultId repr)).Nodup) (same : (results.map (resultId repr)).Perm expected) :
    let table := results.map fun message => (resultId repr message, message)
    (expected.filterMap fun callId => table.lookup callId).Perm results ∧
      (expected.filterMap fun callId => table.lookup callId).map (resultId repr) = expected := by
  intro table
  have found : ∀ callId ∈ expected, ∃ message ∈ results, resultId repr message = callId ∧
      table.lookup callId = some message := by
    intro callId mem
    obtain ⟨message, inResults, rfl⟩ := List.mem_map.mp (same.mem_iff.mpr mem)
    exact ⟨message, inResults, rfl, lookup_results nodup inResults⟩
  have ids : (expected.filterMap fun callId => table.lookup callId).map (resultId repr) = expected := by
    clear distinct same
    induction expected with
    | nil => rfl
    | cons callId expected ih =>
      obtain ⟨⟨message, -, isCall, isMessage⟩, others⟩ := List.forall_mem_cons.mp found
      rw [List.filterMap_cons, isMessage, List.map_cons, isCall, ih others]
  refine ⟨?_, ids⟩
  have nodupOrdered : (expected.filterMap fun callId => table.lookup callId).Nodup :=
    List.Nodup.of_map (resultId repr) (ids.symm ▸ distinct)
  rw [List.perm_ext_iff_of_nodup nodupOrdered (List.Nodup.of_map _ nodup)]
  intro message
  rw [List.mem_filterMap]
  constructor
  · rintro ⟨callId, mem, isMessage⟩
    obtain ⟨other, inResults, -, isOther⟩ := found callId mem
    rw [isMessage] at isOther
    cases isOther
    exact inResults
  · intro mem
    exact ⟨resultId repr message, same.mem_iff.mp (List.mem_map_of_mem mem), lookup_results nodup mem⟩

theorem orderToolResultMessages_eq_ok {expected : List String} {results ordered : List Json}
    {protocol : String} :
    orderToolResultMessages repr expected results protocol = .ok ordered ↔
      expected ≠ [] ∧ expected.Nodup ∧ (∀ callId ∈ expected, callId ≠ "") ∧
        ordered.Perm results ∧ ordered.map (resultId repr) = expected := by
  rw [orderToolResultMessages, require_bind_eq_ok, bind_eq_ok]
  simp only [requireUniqueIds_eq_ok, bind_eq_ok, foldlM_addResult, require_eq_ok]
  constructor
  · rintro ⟨notEmpty, -, distinct, table, ⟨named, nodup, -, rfl⟩, -, ⟨missing, unexpected⟩, same⟩
    cases same
    rw [List.nil_append] at missing unexpected ⊢
    have keys : (results.map fun message => (resultId repr message, message)).map Prod.fst =
        results.map (resultId repr) := by
      rw [List.map_map]
      rfl
    rw [keys] at missing unexpected
    have perm : (results.map (resultId repr)).Perm expected := by
      rw [List.perm_ext_iff_of_nodup nodup distinct]
      intro callId
      have forth := List.filter_eq_nil_iff.mp missing callId
      have back := List.filter_eq_nil_iff.mp unexpected callId
      rw [decide_eq_true_iff, not_not] at forth back
      exact ⟨back, forth⟩
    obtain ⟨isPerm, ids⟩ := perm_lookup_results distinct nodup perm
    refine ⟨notEmpty, distinct, fun callId mem => ?_, isPerm, ids⟩
    obtain ⟨message, inResults, rfl⟩ := List.mem_map.mp (perm.mem_iff.mpr mem)
    exact named message inResults
  · rintro ⟨notEmpty, distinct, named, perm, rfl⟩
    have ids := perm.map (resultId repr)
    have nodup := ids.nodup_iff.mp distinct
    refine ⟨notEmpty, (), distinct, _, ⟨fun message mem => ?_, nodup, by simp, rfl⟩, (), ⟨?_, ?_⟩, ?_⟩
    · exact named _ (ids.mem_iff.mpr (List.mem_map_of_mem mem))
    · rw [List.nil_append, List.map_map, List.filter_eq_nil_iff]
      intro callId mem
      simpa using ids.mem_iff.mp mem
    · rw [List.nil_append, List.map_map, List.filter_eq_nil_iff]
      intro callId mem
      simpa using ids.mem_iff.mpr mem
    · rw [List.nil_append, List.filterMap_map]
      congr 1
      refine (List.filterMap_congr fun message mem => ?_).trans List.filterMap_some
      exact lookup_results nodup (perm.mem_iff.mp mem)

/-! ### Histories -/

theorem isObj_of_isTool {message : Json} (isTool : IsTool repr message) : ∃ fields, message = .obj fields := by
  have present : strippedText repr message "role" ≠ "" := by
    intro empty
    rw [IsTool, roleOf, empty] at isTool
    revert isTool
    decide
  exact strippedText_of_not_obj repr present

theorem collectResults_eq_ok {messages results rest : List Json} :
    collectResults repr messages = .ok (results, rest) ↔
      messages = results ++ rest ∧ (∀ message ∈ results, IsTool repr message) ∧
        ∀ message ∈ rest.head?, (∃ fields, message = .obj fields) ∧ ¬ IsTool repr message := by
  induction messages generalizing results with
  | nil =>
    constructor
    · intro ran
      cases ran
      simp
    · rintro ⟨same, -, -⟩
      obtain ⟨rfl, rfl⟩ := List.append_eq_nil_iff.mp same.symm
      rfl
  | cons message messages ih =>
    cases message with
    | obj fields =>
      rw [collectResults]
      by_cases isTool : roleOf repr (.obj fields) = "tool"
      · rw [if_neg (not_not.mpr isTool), map_eq_ok]
        constructor
        · rintro ⟨⟨later, behind⟩, ran, same⟩
          cases same
          obtain ⟨rfl, tools, stops⟩ := ih.mp ran
          exact ⟨rfl, List.forall_mem_cons.mpr ⟨isTool, tools⟩, stops⟩
        · rintro ⟨same, tools, stops⟩
          cases results with
          | nil =>
            rw [List.nil_append] at same
            subst same
            exact absurd isTool (stops _ rfl).2
          | cons first results =>
            obtain ⟨rfl, rfl⟩ := List.cons.inj same
            exact ⟨(results, rest), ih.mpr ⟨rfl, (List.forall_mem_cons.mp tools).2, stops⟩, rfl⟩
      · rw [if_pos isTool]
        constructor
        · intro ran
          cases ran
          refine ⟨rfl, by simp, fun message isHead => ?_⟩
          cases isHead
          exact ⟨⟨fields, rfl⟩, isTool⟩
        · rintro ⟨same, tools, -⟩
          cases results with
          | nil =>
            rw [List.nil_append] at same
            rw [same]
          | cons first results =>
            obtain ⟨rfl, -⟩ := List.cons.inj same
            exact absurd (List.forall_mem_cons.mp tools).1 isTool
    | _ =>
      constructor
      · exact nofun
      · rintro ⟨same, tools, stops⟩
        cases results with
        | nil =>
          rw [List.nil_append] at same
          subst same
          obtain ⟨fields, absurd⟩ := (stops _ rfl).1
          cases absurd
        | cons first results =>
          obtain ⟨rfl, -⟩ := List.cons.inj same
          obtain ⟨fields, absurd⟩ := isObj_of_isTool (List.forall_mem_cons.mp tools).1
          cases absurd

variable (repr)

/-- A history and the same with the results of every batch in the order of its calls. -/
inductive Reordered : List Json → List Json → Prop where
  | nil : Reordered [] []
  | message {fields : List (String × Json)} {rest out : List Json} (notTool : ¬ IsTool repr (.obj fields))
      (notBatch : ¬ IsBatch repr (.obj fields)) (later : Reordered rest out) :
      Reordered (.obj fields :: rest) (.obj fields :: out)
  | batch {fields : List (String × Json)} {block ordered rest out : List Json}
      (isBatch : IsBatch repr (.obj fields)) (named : ∀ callId ∈ callIds repr (.obj fields), callId ≠ "")
      (distinct : (callIds repr (.obj fields)).Nodup) (tools : ∀ message ∈ block, IsTool repr message)
      (stops : ∀ message ∈ rest.head?, ¬ IsTool repr message) (perm : ordered.Perm block)
      (order : ordered.map (resultId repr) = callIds repr (.obj fields)) (later : Reordered rest out) :
      Reordered (.obj fields :: (block ++ rest)) (.obj fields :: (ordered ++ out))

/-- Every message is an object, every batch of calls has distinct identifiers that are not empty and is
followed by the tool messages of exactly these calls, and there are no other tool messages. -/
structure Paired (messages : List Json) : Prop where
  objects : ∀ message ∈ messages, ∃ fields, message = .obj fields
  batches : ∀ message front back, messages = front ++ message :: back → IsBatch repr message →
    (callIds repr message).Nodup ∧ (∀ callId ∈ callIds repr message, callId ≠ "") ∧
      ((back.takeWhile fun other => IsTool repr other).map (resultId repr)).Perm (callIds repr message)
  tools : ∀ front message back, messages = front ++ message :: back → IsTool repr message →
    ∃ before batch block, front = before ++ batch :: block ∧ IsBatch repr batch ∧
      ∀ other ∈ block, IsTool repr other

variable {repr}

theorem Reordered.objects {messages out : List Json} (reordered : Reordered repr messages out) :
    ∀ message ∈ messages, ∃ fields, message = .obj fields := by
  induction reordered with
  | nil => simp
  | @message fields rest out _ _ _ ih => exact List.forall_mem_cons.mpr ⟨⟨fields, rfl⟩, ih⟩
  | @batch fields block ordered rest out _ _ _ tools _ _ _ _ ih =>
    refine List.forall_mem_cons.mpr ⟨⟨fields, rfl⟩, List.forall_mem_append.mpr ⟨fun message mem => ?_, ih⟩⟩
    exact isObj_of_isTool (tools message mem)

theorem expectedIds_of_not_batch {message : Json} (notBatch : ¬ IsBatch repr message) :
    expectedIds repr message = .ok [] := by
  rw [expectedIds]
  split_ifs with assistant
  · have none : callIds repr message = [] := by
      by_contra calls
      exact notBatch ⟨assistant, calls⟩
    exact (openaiToolCallIds_eq_ok repr).mpr ⟨none.symm, by simp, List.nodup_nil⟩
  · rfl

theorem expectedIds_eq_ok {message : Json} {expected : List String}
    (read : expectedIds repr message = .ok expected) :
    if expected = [] then ¬ IsBatch repr message
    else IsBatch repr message ∧ expected = callIds repr message ∧ (∀ callId ∈ expected, callId ≠ "") ∧
      expected.Nodup := by
  rw [expectedIds] at read
  split_ifs at read with assistant
  · obtain ⟨isIds, named, distinct⟩ := (openaiToolCallIds_eq_ok repr).mp read
    split_ifs with none
    · exact fun isBatch => isBatch.2 (isIds.symm.trans none)
    · exact ⟨⟨assistant, isIds ▸ none⟩, isIds, named, distinct⟩
  · cases read
    exact fun isBatch => assistant isBatch.1

theorem not_isTool_of_isBatch {message : Json} (isBatch : IsBatch repr message) : ¬ IsTool repr message := by
  intro isTool
  rw [IsTool, isBatch.1] at isTool
  revert isTool
  decide

theorem reordered_of_prepare {messages out : List Json}
    (ran : prepareChatCompletionsMessages repr messages = .ok out) : Reordered repr messages out := by
  match messages with
  | [] =>
    rw [prepareChatCompletionsMessages] at ran
    cases ran
    exact .nil
  | .obj fields :: rest =>
    rw [prepare_obj, ite_error_eq_ok, bind_eq_ok] at ran
    obtain ⟨notTool, expected, isExpected, ran⟩ := ran
    have calls := expectedIds_eq_ok isExpected
    split_ifs at ran calls
    · obtain ⟨prepared, later, same⟩ := bind_eq_ok.mp ran
      cases same
      exact .message notTool calls (reordered_of_prepare later)
    · obtain ⟨⟨results, behind⟩, collected, ran⟩ := bind_eq_ok.mp ran
      obtain ⟨ordered, isOrdered, ran⟩ := bind_eq_ok.mp ran
      obtain ⟨prepared, later, same⟩ := bind_eq_ok.mp ran
      cases same
      have shorter := length_collectResults repr collected
      obtain ⟨isBatch, isIds, named, distinct⟩ := calls
      obtain ⟨rfl, tools, stops⟩ := collectResults_eq_ok.mp collected
      obtain ⟨-, -, -, perm, order⟩ := orderToolResultMessages_eq_ok.mp isOrdered
      subst isIds
      exact .batch isBatch named distinct tools (fun message isHead => (stops message isHead).2) perm order
        (reordered_of_prepare later)
  | .null :: _ | .bool _ :: _ | .num _ :: _ | .str _ :: _ | .arr _ :: _ =>
    rw [prepareChatCompletionsMessages] at ran
    · cases ran
    · exact nofun
termination_by messages.length

theorem prepare_of_reordered {messages out : List Json} (reordered : Reordered repr messages out) :
    prepareChatCompletionsMessages repr messages = .ok out := by
  induction reordered with
  | nil =>
    rw [prepareChatCompletionsMessages]
    rfl
  | message notTool notBatch _ ih =>
    rw [prepare_obj, expectedIds_of_not_batch notBatch]
    refine ite_error_eq_ok.mpr ⟨notTool, bind_eq_ok.mpr ⟨[], rfl, ?_⟩⟩
    rw [if_pos rfl, ih]
    rfl
  | batch isBatch named distinct tools stops perm order later ih =>
    have isExpected := (openaiToolCallIds_eq_ok repr).mpr ⟨rfl, named, distinct⟩
    have collected := collectResults_eq_ok.mpr ⟨rfl, tools, fun message isHead =>
      ⟨later.objects message (List.mem_of_mem_head? isHead), stops message isHead⟩⟩
    rw [prepare_obj, expectedIds, if_pos isBatch.1]
    refine ite_error_eq_ok.mpr ⟨not_isTool_of_isBatch isBatch, bind_eq_ok.mpr ⟨_, isExpected, ?_⟩⟩
    rw [if_neg isBatch.2]
    refine bind_eq_ok.mpr ⟨_, collected, bind_eq_ok.mpr ⟨_, ?_, bind_eq_ok.mpr ⟨_, ih, rfl⟩⟩⟩
    exact orderToolResultMessages_eq_ok.mpr ⟨isBatch.2, distinct, named, perm, order⟩

theorem prepare_eq_ok {messages out : List Json} :
    prepareChatCompletionsMessages repr messages = .ok out ↔ Reordered repr messages out :=
  ⟨reordered_of_prepare, prepare_of_reordered⟩

namespace Reordered

variable {messages out : List Json}

theorem perm (reordered : Reordered repr messages out) : out.Perm messages := by
  induction reordered with
  | nil => exact .nil
  | message _ _ _ ih => exact ih.cons _
  | batch _ _ _ _ _ perm _ _ ih => exact (perm.append ih).cons _

theorem again (reordered : Reordered repr messages out) : Reordered repr out out := by
  induction reordered with
  | nil => exact .nil
  | message notTool notBatch _ ih => exact .message notTool notBatch ih
  | batch isBatch named distinct tools stops perm order later ih =>
    refine .batch isBatch named distinct (fun message mem => tools message (perm.mem_iff.mp mem)) ?_ (.refl _)
      order ih
    intro message isHead
    cases later with
    | nil => cases isHead
    | message notTool _ _ =>
      cases isHead
      exact notTool
    | batch isBatch _ _ _ _ _ _ _ =>
      cases isHead
      exact not_isTool_of_isBatch isBatch

theorem split_of_not_mem {block rest front back : List Json} {message : Json} (other : message ∉ block)
    (split : block ++ rest = front ++ message :: back) :
    ∃ middle, front = block ++ middle ∧ rest = middle ++ message :: back := by
  rcases List.append_eq_append_iff.mp split with ⟨middle, rfl, rfl⟩ | ⟨middle, rfl, isBack⟩
  · exact ⟨middle, rfl, rfl⟩
  · cases middle with
    | nil => exact ⟨[], by simp, by simpa using isBack.symm⟩
    | cons first middle =>
      obtain ⟨rfl, -⟩ := List.cons.inj isBack
      exact absurd (by simp) other

theorem takeWhile_isTool {block rest : List Json} (tools : ∀ message ∈ block, IsTool repr message)
    (stops : ∀ message ∈ rest.head?, ¬ IsTool repr message) :
    (block ++ rest).takeWhile (fun other => IsTool repr other) = block := by
  rw [List.takeWhile_append_of_pos fun message mem => decide_eq_true (tools message mem)]
  cases rest with
  | nil => simp
  | cons message rest =>
    have other : ¬ IsTool repr message := stops message rfl
    simp [other]

theorem batches (reordered : Reordered repr messages out) {message : Json} {front back : List Json}
    (split : messages = front ++ message :: back) (isBatch : IsBatch repr message) :
    (callIds repr message).Nodup ∧ (∀ callId ∈ callIds repr message, callId ≠ "") ∧
      ((back.takeWhile fun other => IsTool repr other).map (resultId repr)).Perm (callIds repr message) := by
  induction reordered generalizing front with
  | nil => simp at split
  | @message fields rest out _ notBatch _ ih =>
    cases front with
    | nil =>
      obtain ⟨rfl, -⟩ := List.cons.inj split
      exact absurd isBatch notBatch
    | cons first front => exact ih (List.cons.inj split).2
  | @batch fields block ordered rest out _ named distinct tools stops perm order _ ih =>
    cases front with
    | nil =>
      obtain ⟨rfl, rfl⟩ := List.cons.inj split
      rw [takeWhile_isTool tools stops, ← order]
      exact ⟨order ▸ distinct, order ▸ named, (perm.map _).symm⟩
    | cons first front =>
      have other : message ∉ block := fun mem => not_isTool_of_isBatch isBatch (tools message mem)
      obtain ⟨middle, -, isRest⟩ := split_of_not_mem other (List.cons.inj split).2
      exact ih isRest

theorem tools (reordered : Reordered repr messages out) {message : Json} {front back : List Json}
    (split : messages = front ++ message :: back) (isTool : IsTool repr message) :
    ∃ before batch block, front = before ++ batch :: block ∧ IsBatch repr batch ∧
      ∀ other ∈ block, IsTool repr other := by
  induction reordered generalizing front with
  | nil => simp at split
  | @message fields rest out notTool _ _ ih =>
    cases front with
    | nil =>
      obtain ⟨rfl, -⟩ := List.cons.inj split
      exact absurd isTool notTool
    | cons first front =>
      obtain ⟨before, batch, block, rfl, isBatch, others⟩ := ih (List.cons.inj split).2
      exact ⟨first :: before, batch, block, rfl, isBatch, others⟩
  | @batch fields block ordered rest out isBatch _ _ tools stops _ _ _ ih =>
    cases front with
    | nil =>
      obtain ⟨rfl, -⟩ := List.cons.inj split
      exact absurd isTool (not_isTool_of_isBatch isBatch)
    | cons first front =>
      obtain ⟨rfl, tail⟩ := List.cons.inj split
      rcases List.append_eq_append_iff.mp tail with ⟨middle, rfl, isRest⟩ | ⟨middle, rfl, -⟩
      · obtain ⟨before, batch, others, rfl, isBatch, all⟩ := ih isRest
        exact ⟨.obj fields :: (block ++ before), batch, others, by simp, isBatch, all⟩
      · exact ⟨[], _, front, rfl, isBatch, fun other mem => tools other (List.mem_append_left _ mem)⟩

theorem paired (reordered : Reordered repr messages out) : Paired repr messages where
  objects := reordered.objects
  batches _ _ _ split isBatch := reordered.batches split isBatch
  tools _ _ _ split isTool := reordered.tools split isTool

end Reordered

namespace Paired

variable {messages : List Json}

theorem suffix (front : List Json) {rest : List Json} (paired : Paired repr (front ++ rest))
    (starts : ∀ message ∈ rest.head?, ¬ IsTool repr message) : Paired repr rest where
  objects message mem := paired.objects message (List.mem_append_right front mem)
  batches message before back split := by
    subst split
    exact paired.batches message (front ++ before) back (by simp)
  tools before message back split isTool := by
    subst split
    obtain ⟨other, batch, block, isFront, isBatch, all⟩ :=
      paired.tools (front ++ before) message back (by simp) isTool
    rcases List.append_eq_append_iff.mp isFront with ⟨middle, rfl, isBefore⟩ | ⟨middle, rfl, isBlock⟩
    · exact ⟨middle, batch, block, isBefore, isBatch, all⟩
    · cases middle with
      | nil => exact ⟨[], batch, block, by simpa using isBlock.symm, isBatch, all⟩
      | cons first middle =>
        -- the rest would begin with a tool message
        obtain ⟨rfl, rfl⟩ := List.cons.inj isBlock
        cases before with
        | nil => exact absurd isTool (starts message rfl)
        | cons first before => exact absurd (all first (by simp)) (starts first rfl)

theorem reordered {messages : List Json} (paired : Paired repr messages) : ∃ out, Reordered repr messages out := by
  match messages with
  | [] => exact ⟨[], .nil⟩
  | message :: rest =>
    obtain ⟨fields, rfl⟩ := paired.objects message List.mem_cons_self
    by_cases isBatch : IsBatch repr (.obj fields)
    · obtain ⟨distinct, named, same⟩ := paired.batches (.obj fields) [] rest rfl isBatch
      have cut : rest.takeWhile (fun other => IsTool repr other) ++
          rest.dropWhile (fun other => IsTool repr other) = rest := List.takeWhile_append_dropWhile
      have tools : ∀ message ∈ rest.takeWhile (fun other => IsTool repr other), IsTool repr message :=
        fun message mem => by simpa using List.mem_takeWhile_imp mem
      have stops : ∀ message ∈ (rest.dropWhile fun other => IsTool repr other).head?, ¬ IsTool repr message := by
        intro message isHead
        have kept := List.head?_dropWhile_not (fun other => decide (IsTool repr other)) rest
        rw [isHead] at kept
        simpa using kept
      have later : Paired repr (rest.dropWhile fun other => IsTool repr other) := by
        refine suffix (.obj fields :: rest.takeWhile fun other => IsTool repr other) ?_ stops
        rw [List.cons_append, cut]
        exact paired
      have shorter : (rest.dropWhile fun other => IsTool repr other).length ≤ rest.length :=
        (List.dropWhile_sublist _).length_le
      obtain ⟨out, isOut⟩ := later.reordered
      obtain ⟨perm, order⟩ := perm_lookup_results distinct (same.nodup_iff.mpr distinct) same
      have reordered := Reordered.batch isBatch named distinct tools stops perm order isOut
      rw [cut] at reordered
      exact ⟨_, reordered⟩
    · have notTool : ¬ IsTool repr (.obj fields) := by
        intro isTool
        obtain ⟨before, batch, block, absurd, -, -⟩ := paired.tools [] _ rest rfl isTool
        simp at absurd
      have later : Paired repr rest := by
        refine ⟨fun message mem => paired.objects message (List.mem_cons_of_mem _ mem), ?_, ?_⟩
        · intro message before back split
          exact paired.batches message (.obj fields :: before) back (by rw [split]; rfl)
        · intro before message back split isTool
          obtain ⟨other, batch, block, same, isBatch', all⟩ :=
            paired.tools (.obj fields :: before) message back (by rw [split]; rfl) isTool
          cases other with
          | nil =>
            obtain ⟨rfl, -⟩ := List.cons.inj same
            exact absurd isBatch' isBatch
          | cons first other => exact ⟨other, batch, block, (List.cons.inj same).2, isBatch', all⟩
      obtain ⟨out, isOut⟩ := later.reordered
      exact ⟨_, .message notTool isBatch isOut⟩
termination_by messages.length

end Paired

variable (repr)

/-- The histories in order are accepted, no others are, and what is given is the history with the
results of each batch in the order of its calls, which is in order itself. -/
theorem prepare_exact (messages : List Json) :
    ((∃ out, prepareChatCompletionsMessages repr messages = .ok out) ↔ Paired repr messages) ∧
      ∀ out, prepareChatCompletionsMessages repr messages = .ok out →
        out.Perm messages ∧ Reordered repr messages out ∧
          prepareChatCompletionsMessages repr out = .ok out := by
  simp only [prepare_eq_ok]
  refine ⟨⟨?_, fun paired => paired.reordered⟩, fun out reordered => ?_⟩
  · intro accepted
    obtain ⟨out, reordered⟩ := accepted
    exact reordered.paired
  · exact ⟨reordered.perm, reordered, reordered.again⟩

end

end AgentPark.Providers
