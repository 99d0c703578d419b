import AgentPark.Lib.Execution
import AgentPark.Lib.JsonLines
import AgentPark.Lib.JsonSort
import Mathlib.Data.List.Induction

/-!
# The step ledger of an agent

`AgentStepLedger` is a file of events, one JSON object in a line.  An append reads the whole file for
the number of its event; a process may stop at any byte of what it appends.  `unknown_tool_outcomes`
are the tool calls that have started and, as far as the file says, not finished.
-/

namespace AgentPark.Agents

open Lib

/-! ### Events -/

/-- `LEDGER_SCHEMA_VERSION` -/
def ledgerSchemaVersion : Nat := 1

/-- The entries that `append` gives an event itself; no caller passes them. -/
def ownKeys : List String := ["schema_version", "seq", "event_id", "event", "time"]

/-- The keyword arguments of `append`. -/
structure EventData where
  fields : List (String × Json)
  nodup : (fields.map Prod.fst).Nodup
  unique : ∀ field ∈ fields, field.2.UniqueKeys
  others : ∀ key ∈ fields.map Prod.fst, key ∉ ownKeys

/-- A call of `append`, with the identity and the time that it takes. -/
structure Entry where
  eventType : String
  eventId : String
  time : String
  data : EventData

/-- The payload of an event. -/
def payload (seq : Nat) (entry : Entry) : Json :=
  .obj ([("schema_version", .nat ledgerSchemaVersion), ("seq", .nat seq),
    ("event_id", .str entry.eventId), ("event", .str (pyStrip entry.eventType)),
    ("time", .str entry.time)] ++ entry.data.fields)

/-- An event as it is read back: it is written with sorted keys. -/
def eventOf (seq : Nat) (entry : Entry) : Json := (payload seq entry).sortKeys

/-- `_record_tool_call_started` -/
def recordToolCallStarted (eventId time stepId callId name : String) (arguments : Json)
    (unique : arguments.UniqueKeys) : Entry where
  eventType := "tool_call_started"
  eventId
  time
  data := {
    fields := [("step_id", .str stepId), ("call_id", .str callId),
      ("tool", .str (if name = "" then "tool" else name)), ("arguments", arguments)]
    nodup := show ["step_id", "call_id", "tool", "arguments"].Nodup by decide
    unique := by
      intro field mem
      simp only [List.mem_cons, List.not_mem_nil, or_false] at mem
      rcases mem with rfl | rfl | rfl | rfl
      · trivial
      · trivial
      · trivial
      · exact unique
    others := show ∀ key ∈ ["step_id", "call_id", "tool", "arguments"], key ∉ ownKeys by decide }

/-- `_record_tool_call_finished` -/
def recordToolCallFinished (eventId time stepId callId name status error : String) : Entry where
  eventType := "tool_call_finished"
  eventId
  time
  data := {
    fields := [("step_id", .str stepId), ("call_id", .str callId),
      ("tool", .str (if name = "" then "tool" else name)),
      ("status", .str (if status = "" then "completed" else status)), ("error", .str error)]
    nodup := show ["step_id", "call_id", "tool", "status", "error"].Nodup by decide
    unique := by
      intro field mem
      simp only [List.mem_cons, List.not_mem_nil, or_false] at mem
      rcases mem with rfl | rfl | rfl | rfl | rfl <;> trivial
    others := show ∀ key ∈ ["step_id", "call_id", "tool", "status", "error"], key ∉ ownKeys by
      decide }

/-! ### The file -/

/-- `AgentStepLedgerError` -/
inductive LedgerError where
  | emptyType
  | checkpointFailed (cause : LineError)
  | readFailed (cause : LineError)
deriving DecidableEq

/-- `append` up to its write: the payload. -/
def prepare (file : List UInt8) (entry : Entry) : Except LedgerError Json :=
  if pyStrip entry.eventType = "" then .error .emptyType
  else
    match readObjects file with
    | .error cause => .error (.checkpointFailed cause)
    | .ok events => .ok (payload (events.length + 1) entry)

/-- `read` -/
def readEvents (file : List UInt8) : Except LedgerError (List Json) :=
  match readObjects file with
  | .error cause => .error (.readFailed cause)
  | .ok events => .ok events

/-- The ledger.  `recorded` and `answers` only watch: the events of the appends that have returned or
left their whole object, and what the appends that have not stopped came to. -/
structure Ledger where
  file : List UInt8
  recorded : List Json
  answers : List (Except LedgerError Json)

def Ledger.empty : Ledger where
  file := []
  recorded := []
  answers := []

/-- `stop`: the process stops when it has written as many bytes. -/
inductive LedgerAction where
  | append (entry : Entry)
  | stop (entry : Entry) (bytes : Nat)

/-- The appends of successive processes, with those that do not come to their end. -/
def ledgerStep (s : Ledger) : LedgerAction → Option Ledger
  | .append entry =>
    match prepare s.file entry with
    | .error error => some { s with answers := s.answers ++ [.error error] }
    | .ok event => some {
        file := s.file ++ objectLine event.sortKeys
        recorded := s.recorded ++ [event.sortKeys]
        answers := s.answers ++ [.ok event] }
  | .stop entry bytes =>
    match prepare s.file entry with
    | .error _ => some s
    | .ok event => some { s with
        file := s.file ++ (objectLine event.sortKeys).take bytes
        recorded :=
          if (objectLine event.sortKeys).length ≤ bytes + 1 then s.recorded ++ [event.sortKeys]
          else s.recorded }

/-! ### Unknown outcomes -/

section

variable (repr : Json → String)

/-- The text of an entry of an event, `str(event.get(key) or default)`. -/
def entryText (event : Json) (key default : String) : String :=
  Json.strOr repr default (event.get key)

def callId (event : Json) : String := pyStrip (entryText repr event "call_id" "")

def starts (event : Json) : Bool := entryText repr event "event" "" = "tool_call_started"

def finishes (event : Json) : Bool :=
  entryText repr event "event" "" ∈ ["tool_call_finished", "tool_outcome_unknown_resolved"]

/-- `UnknownToolOutcome` -/
structure UnknownToolOutcome where
  callId : String
  toolName : String
  arguments : List (String × Json)
  stepId : String
deriving DecidableEq

/-- What is known of a call from the event of its start. -/
def outcomeOf (event : Json) : UnknownToolOutcome where
  callId := callId repr event
  toolName :=
    let tool := pyStrip (entryText repr event "tool" "tool")
    if tool = "" then "tool" else tool
  arguments :=
    match event.get "arguments" with
    | some (.obj fields) => fields
    | _ => []
  stepId := pyStrip (entryText repr event "step_id" "")

/-- The loop of `unknown_tool_outcomes`: `starts` and `finished`. -/
def scanEvent (found : List (String × Json) × List String) (event : Json) :
    List (String × Json) × List String :=
  if callId repr event = "" then found
  else if starts repr event then (dictSet found.1 (callId repr event) event, found.2)
  else if finishes repr event then (found.1, callId repr event :: found.2)
  else found

/-- `unknown_tool_outcomes`, for the events that are read. -/
def unknownOf (events : List Json) : List UnknownToolOutcome :=
  let found := events.foldl (scanEvent repr) ([], [])
  (found.1.filter fun entry => entry.1 ∉ found.2).map fun entry => outcomeOf repr entry.2

/-- `unknown_tool_outcomes` -/
def unknownToolOutcomes (file : List UInt8) : Except LedgerError (List UnknownToolOutcome) :=
  (readEvents file).map (unknownOf repr)

/-! ### The condition -/

/-- The file is empty or ends in a line break. -/
def EndsLine (file : List UInt8) : Prop := ∀ byte ∈ file.getLast?, byte = newline

instance (file : List UInt8) : Decidable (EndsLine file) := inferInstanceAs (Decidable (∀ _ ∈ _, _))

/-- A tool call that starts has no call id that has finished before. -/
def Renews (s : Ledger) (entry : Entry) : Prop :=
  let event := eventOf (s.recorded.length + 1) entry
  starts repr event = true → callId repr event ≠ "" →
    ∀ old ∈ s.recorded, finishes repr old = true → callId repr old ≠ callId repr event

instance (s : Ledger) (entry : Entry) : Decidable (Renews repr s entry) :=
  inferInstanceAs (Decidable (_ → _ → ∀ _ ∈ _, _ → _))

/-- An entry without an event type is refused before anything is written. -/
def Clean (s : Ledger) : LedgerAction → Prop
  | .append entry => pyStrip entry.eventType = "" ∨ EndsLine s.file ∧ Renews repr s entry
  | .stop entry bytes => pyStrip entry.eventType = "" ∨ bytes = 0 ∨ EndsLine s.file ∧ Renews repr s entry ∧
      (objectLine (eventOf (s.recorded.length + 1) entry)).length ≤ bytes + 1

instance (s : Ledger) : (action : LedgerAction) → Decidable (Clean repr s action)
  | .append _ => inferInstanceAs (Decidable (_ ∨ _ ∧ _))
  | .stop _ _ => inferInstanceAs (Decidable (_ ∨ _ ∨ _ ∧ _ ∧ _))

end

/-! ### Events are read back -/

theorem uniqueKeys_payload (seq : Nat) (entry : Entry) : (payload seq entry).UniqueKeys := by
  rw [payload, Json.uniqueKeys_obj, List.map_append]
  constructor
  · have nodup : ownKeys.Nodup := by decide
    exact List.nodup_append.mpr ⟨nodup, entry.data.nodup, fun own isOwn key mem same =>
      entry.data.others key mem (same ▸ (show own ∈ ownKeys from isOwn))⟩
  · intro field mem
    rcases List.mem_append.mp mem with own | given
    · simp only [List.mem_cons, List.not_mem_nil, or_false] at own
      rcases own with rfl | rfl | rfl | rfl | rfl <;> trivial
    · exact entry.data.unique field given

theorem isObject_eventOf (seq : Nat) (entry : Entry) : IsObject (eventOf seq entry) :=
  ⟨_, rfl, (uniqueKeys_payload seq entry).sortKeys⟩

theorem seq_eventOf (seq : Nat) (entry : Entry) :
    (eventOf seq entry).get "seq" = some (.nat seq) := by
  rw [eventOf, Json.get_sortKeys (uniqueKeys_payload seq entry)]
  rfl

theorem objectLine_eq (v : Json) : objectLine v = utf8Encode (dumps v) ++ [newline] := by
  rw [objectLine, utf8Encode_append]
  rfl

theorem getLast?_object {v : Json} (object : IsObject v) (front : List UInt8) :
    (front ++ utf8Encode (dumps v)).getLast? = some 125 := by
  obtain ⟨cs, eq⟩ := dumps_object object
  have brace : utf8Encode ['}'] = [125] := by decide
  rw [eq, ← List.cons_append, utf8Encode_append, brace, ← List.append_assoc,
    List.getLast?_concat]

theorem two_le_length_objectLine {v : Json} (object : IsObject v) : 2 ≤ (objectLine v).length := by
  obtain ⟨cs, eq⟩ := dumps_object object
  rw [objectLine_eq, eq, utf8Encode_cons, List.length_append, List.length_append,
    List.length_singleton]
  have : 0 < (String.utf8EncodeChar '{').length := by decide
  omega

theorem take_objectLine {v : Json} {bytes : Nat} (most : (objectLine v).length ≤ bytes + 1) :
    (objectLine v).take bytes = objectLine v ∨
      (objectLine v).take bytes = utf8Encode (dumps v) := by
  rw [objectLine_eq, List.length_append, List.length_singleton] at most
  by_cases whole : (utf8Encode (dumps v)).length = bytes
  · refine .inr ?_
    rw [objectLine_eq, ← whole, List.take_left]
  · refine .inl (List.take_of_length_le ?_)
    rw [objectLine_eq, List.length_append, List.length_singleton]
    omega

/-! ### The invariant -/

section

variable (repr : Json → String)

/-- The event, when it starts a call, has a call id that the other one has not finished. -/
def Renewed (old event : Json) : Prop := starts repr event = true → callId repr event ≠ "" →
  finishes repr old = true → callId repr old ≠ callId repr event

structure Intact (s : Ledger) : Prop where
  objects : ∀ v ∈ s.recorded, IsObject v
  isFile : s.file = s.recorded.flatMap objectLine ∨ ∃ front last, s.recorded = front ++ [last] ∧
    s.file = front.flatMap objectLine ++ utf8Encode (dumps last)
  seqs : s.recorded.map (Json.get "seq") =
    (List.range s.recorded.length).map fun n => some (.nat (n + 1))
  renewed : s.recorded.Pairwise (Renewed repr)
  returned : ∀ event, .ok event ∈ s.answers → event.sortKeys ∈ s.recorded
  failed : ∀ error, .error error ∈ s.answers → error = .emptyType

theorem intact_empty : Intact repr .empty where
  objects := nofun
  isFile := .inl rfl
  seqs := rfl
  renewed := .nil
  returned := nofun
  failed := nofun

variable {repr} {s : Ledger}

theorem Intact.read (intact : Intact repr s) : readObjects s.file = .ok s.recorded := by
  rcases intact.isFile with isFile | ⟨front, last, isRecorded, isFile⟩
  · rw [isFile, readObjects_lines intact.objects]
  · have objects := intact.objects
    rw [isRecorded, List.forall_mem_append, List.forall_mem_singleton] at objects
    rw [isFile, readObjects_open objects.1 objects.2, isRecorded]

theorem Intact.prepared (intact : Intact repr s) {entry : Entry}
    (notBlank : pyStrip entry.eventType ≠ "") :
    prepare s.file entry = .ok (payload (s.recorded.length + 1) entry) := by
  rw [prepare, if_neg notBlank, intact.read]

theorem Intact.whole (intact : Intact repr s) (ends : EndsLine s.file) :
    s.file = s.recorded.flatMap objectLine := by
  rcases intact.isFile with isFile | ⟨front, last, isRecorded, isFile⟩
  · exact isFile
  · have object := intact.objects last (isRecorded ▸ List.mem_append_right _ List.mem_cons_self)
    have brace := ends 125 (isFile ▸ getLast?_object object _)
    exact absurd brace (by decide)

theorem Intact.more (intact : Intact repr s) {entry : Entry} {file : List UInt8}
    {answers : List (Except LedgerError Json)} (renews : Renews repr s entry)
    (isFile : file = s.file ++ objectLine (eventOf (s.recorded.length + 1) entry) ∨
      file = s.file ++ utf8Encode (dumps (eventOf (s.recorded.length + 1) entry)))
    (ends : EndsLine s.file)
    (returned : ∀ event, .ok event ∈ answers →
      .ok event ∈ s.answers ∨ event.sortKeys = eventOf (s.recorded.length + 1) entry)
    (failed : ∀ error, .error error ∈ answers → error = .emptyType) :
    Intact repr { file, recorded := s.recorded ++ [eventOf (s.recorded.length + 1) entry], answers } where
  objects := by
    rw [List.forall_mem_append, List.forall_mem_singleton]
    exact ⟨intact.objects, isObject_eventOf _ _⟩
  isFile := by
    rcases isFile with isFile | isFile
    · refine .inl ?_
      rw [isFile, intact.whole ends, List.flatMap_append, List.flatMap_singleton]
    · refine .inr ⟨s.recorded, _, rfl, ?_⟩
      rw [isFile, intact.whole ends]
  seqs := by
    rw [List.map_append, List.map_singleton, intact.seqs, seq_eventOf, List.length_append,
      List.length_singleton, List.range_succ, List.map_append, List.map_singleton]
  renewed := by
    rw [List.pairwise_append]
    refine ⟨intact.renewed, List.pairwise_singleton _ _, fun old mem event isEvent => ?_⟩
    rw [List.mem_singleton] at isEvent
    subst isEvent
    exact fun isStart proper => renews isStart proper old mem
  returned event mem := by
    rcases returned event mem with old | same
    · exact List.mem_append_left _ (intact.returned event old)
    · exact List.mem_append_right _ (List.mem_singleton.mpr same)
  failed := failed

/-- A clean action keeps the file the recorded events, line by line, in the order of their numbers. -/
theorem Intact.step (intact : Intact repr s) {t : Ledger} {action : LedgerAction}
    (clean : Clean repr s action) (steps : ledgerStep s action = some t) : Intact repr t := by
  cases action with
  | append entry =>
    rw [ledgerStep] at steps
    by_cases blank : pyStrip entry.eventType = ""
    · rw [prepare, if_pos blank] at steps
      cases steps
      refine { intact with returned := fun event mem => ?_, failed := fun error mem => ?_ }
      · rcases List.mem_append.mp mem with old | isNew
        · exact intact.returned event old
        · rw [List.mem_singleton] at isNew
          cases isNew
      · rcases List.mem_append.mp mem with old | isNew
        · exact intact.failed error old
        · rw [List.mem_singleton] at isNew
          cases isNew
          rfl
    · obtain ⟨ends, renews⟩ := clean.resolve_left blank
      rw [intact.prepared blank] at steps
      cases steps
      refine intact.more renews (.inl rfl) ends (fun event mem => ?_) fun error mem => ?_
      · rcases List.mem_append.mp mem with old | isNew
        · exact .inl old
        · rw [List.mem_singleton] at isNew
          cases isNew
          exact .inr rfl
      · rcases List.mem_append.mp mem with old | isNew
        · exact intact.failed error old
        · rw [List.mem_singleton] at isNew
          cases isNew
  | stop entry bytes =>
    rw [ledgerStep] at steps
    by_cases blank : pyStrip entry.eventType = ""
    · rw [prepare, if_pos blank] at steps
      cases steps
      exact intact
    rw [intact.prepared blank] at steps
    cases steps
    rcases clean.resolve_left blank with rfl | ⟨ends, renews, most⟩
    · have long := two_le_length_objectLine (isObject_eventOf (s.recorded.length + 1) entry)
      have short : ¬ (objectLine (payload (s.recorded.length + 1) entry).sortKeys).length ≤ 0 + 1 := by
        rw [eventOf] at long
        omega
      rw [if_neg short, List.take_zero, List.append_nil]
      exact intact
    · rw [eventOf] at most
      rw [if_pos most]
      refine intact.more renews ?_ ends (fun event mem => .inl mem) intact.failed
      rcases take_objectLine most with whole | open_
      · exact .inl (congrArg (s.file ++ ·) whole)
      · exact .inr (congrArg (s.file ++ ·) open_)

end

/-! ### What has started and not finished -/

section

variable (repr : Json → String)

theorem not_starts_of_finishes {repr : Json → String} {event : Json}
    (ends : finishes repr event = true) :
    starts repr event = false := by
  rw [finishes, decide_eq_true_eq] at ends
  rw [starts, decide_eq_false_iff_not]
  intro same
  rw [same] at ends
  revert ends
  decide

/-- The event is the last start of the call id. -/
def LastStart (events : List Json) (id : String) (event : Json) : Prop :=
  ∃ before after, events = before ++ event :: after ∧ starts repr event = true ∧
    callId repr event = id ∧ id ≠ "" ∧
      ∀ later ∈ after, callId repr later = id → starts repr later = false

/-- What the loop has found: the last start of each call id, and the call ids that have finished. -/
structure Found (events : List Json) (found : List (String × Json) × List String) : Prop where
  nodup : (found.1.map Prod.fst).Nodup
  started : ∀ id event, found.1.lookup id = some event ↔ LastStart repr events id event
  finished : ∀ id, id ∈ found.2 ↔ id ≠ "" ∧
    ∃ event ∈ events, finishes repr event = true ∧ callId repr event = id

variable {repr}

theorem lastStart_concat {events : List Json} {event last : Json} {id : String} :
    LastStart repr (events ++ [last]) id event ↔
      (last = event ∧ starts repr event = true ∧ callId repr event = id ∧ id ≠ "") ∨
        (LastStart repr events id event ∧ (callId repr last = id → starts repr last = false)) := by
  constructor
  · rintro ⟨before, after, eq, isStart, isId, proper, none⟩
    rcases List.eq_nil_or_concat' after with rfl | ⟨front, final, rfl⟩
    · obtain ⟨-, same⟩ := List.append_inj' eq rfl
      exact .inl ⟨(List.cons.inj same).1, isStart, isId, proper⟩
    · rw [← List.cons_append, ← List.append_assoc] at eq
      obtain ⟨isFront, isLast⟩ := List.append_inj' eq rfl
      cases isLast
      refine .inr ⟨⟨before, front, isFront, isStart, isId, proper, fun later mem => ?_⟩, ?_⟩
      · exact none later (List.mem_append_left _ mem)
      · exact none last (List.mem_append_right _ List.mem_cons_self)
  · rintro (⟨rfl, isStart, isId, proper⟩ | ⟨⟨before, after, rfl, isStart, isId, proper, none⟩, last_⟩)
    · exact ⟨events, [], rfl, isStart, isId, proper, nofun⟩
    · refine ⟨before, after ++ [last], by rw [List.append_assoc, List.cons_append], isStart, isId,
        proper, fun later mem => ?_⟩
      rcases List.mem_append.mp mem with old | isNew
      · exact none later old
      · rw [List.mem_singleton] at isNew
        exact isNew ▸ last_

theorem LastStart.proper {events : List Json} {id : String} {event : Json}
    (last : LastStart repr events id event) : id ≠ "" := by
  obtain ⟨_, _, _, _, _, proper, _⟩ := last
  exact proper

theorem lastStart_skip {events : List Json} {last : Json}
    (skip : callId repr last = "" ∨ starts repr last = false) (id : String) (event : Json) :
    LastStart repr (events ++ [last]) id event ↔ LastStart repr events id event := by
  rw [lastStart_concat]
  constructor
  · rintro (⟨rfl, isStart, rfl, proper⟩ | ⟨old, -⟩)
    · rcases skip with blank | no
      · exact absurd blank proper
      · rw [isStart] at no
        cases no
    · exact old
  · intro old
    refine .inr ⟨old, fun same => ?_⟩
    rcases skip with blank | no
    · exact absurd (same ▸ blank) old.proper
    · exact no

theorem finished_concat (events : List Json) (last : Json) (id : String) :
    (id ≠ "" ∧ ∃ event ∈ events ++ [last], finishes repr event = true ∧ callId repr event = id) ↔
      (id ≠ "" ∧ ∃ event ∈ events, finishes repr event = true ∧ callId repr event = id) ∨
        (id ≠ "" ∧ finishes repr last = true ∧ callId repr last = id) := by
  constructor
  · rintro ⟨proper, event, mem, ends, isId⟩
    rcases List.mem_append.mp mem with old | isNew
    · exact .inl ⟨proper, event, old, ends, isId⟩
    · rw [List.mem_singleton] at isNew
      exact .inr ⟨proper, isNew ▸ ends, isNew ▸ isId⟩
  · rintro (⟨proper, event, mem, rest⟩ | ⟨proper, rest⟩)
    · exact ⟨proper, event, List.mem_append_left _ mem, rest⟩
    · exact ⟨proper, last, List.mem_append_right _ List.mem_cons_self, rest⟩

theorem Found.scan {events : List Json} {found : List (String × Json) × List String}
    (isFound : Found repr events found) (event : Json) :
    Found repr (events ++ [event]) (scanEvent repr found event) := by
  -- Where the event finishes no call, what has finished is what it was.
  have unfinished : callId repr event = "" ∨ finishes repr event = false → ∀ id,
      id ∈ found.2 ↔ id ≠ "" ∧
        ∃ old ∈ events ++ [event], finishes repr old = true ∧ callId repr old = id := by
    intro skip id
    rw [finished_concat, isFound.finished, or_iff_left]
    rintro ⟨proper, ends, rfl⟩
    rcases skip with blank | no
    · exact proper blank
    · rw [ends] at no
      cases no
  unfold scanEvent
  split
  · rename_i blank
    exact ⟨isFound.nodup, fun id e => (isFound.started id e).trans
      (lastStart_skip (.inl blank) id e).symm, unfinished (.inl blank)⟩
  rename_i proper
  split
  · rename_i isStart
    have notFinish : finishes repr event = false := by
      by_contra ends
      rw [not_starts_of_finishes (Bool.not_eq_false _ |>.mp ends)] at isStart
      cases isStart
    refine ⟨nodup_dictSet isFound.nodup _ _, fun id e => ?_, unfinished (.inr notFinish)⟩
    rw [lookup_dictSet, lastStart_concat]
    by_cases same : id = callId repr event
    · rw [if_pos same, Option.some.injEq]
      constructor
      · rintro rfl
        exact .inl ⟨rfl, isStart, same.symm, same ▸ proper⟩
      · rintro (⟨isLast, -⟩ | ⟨-, no⟩)
        · exact isLast
        · rw [no same.symm] at isStart
          cases isStart
    · rw [if_neg same, isFound.started]
      constructor
      · intro old
        exact .inr ⟨old, fun isId => absurd isId.symm same⟩
      · rintro (⟨rfl, -, isId, -⟩ | ⟨old, -⟩)
        · exact absurd isId.symm same
        · exact old
  rename_i notStart
  rw [Bool.not_eq_true] at notStart
  split
  · rename_i ends
    refine ⟨isFound.nodup, fun id e => (isFound.started id e).trans
      (lastStart_skip (.inr notStart) id e).symm, fun id => ?_⟩
    rw [finished_concat, List.mem_cons, isFound.finished, or_comm]
    refine or_congr_right ⟨?_, ?_⟩
    · rintro rfl
      exact ⟨proper, ends, rfl⟩
    · rintro ⟨-, -, isId⟩
      exact isId.symm
  · rename_i no
    exact ⟨isFound.nodup, fun id e => (isFound.started id e).trans
      (lastStart_skip (.inr notStart) id e).symm, unfinished (.inr (Bool.not_eq_true _ |>.mp no))⟩

theorem found_foldl (events : List Json) :
    Found repr events (events.foldl (scanEvent repr) ([], [])) := by
  induction events using List.reverseRecOn with
  | nil =>
    refine ⟨List.nodup_nil, fun id event => ⟨nofun, ?_⟩, fun id => ⟨nofun, ?_⟩⟩
    · rintro ⟨before, after, eq, -⟩
      cases before <;> cases eq
    · rintro ⟨-, event, mem, -⟩
      cases mem
  | append_singleton events event ih =>
    rw [List.foldl_append, List.foldl_cons, List.foldl_nil]
    exact ih.scan event

theorem mem_unknownOf {events : List Json} (renewed : events.Pairwise (Renewed repr))
    (outcome : UnknownToolOutcome) : outcome ∈ unknownOf repr events ↔
      ∃ before event after, events = before ++ event :: after ∧ starts repr event = true ∧
        callId repr event ≠ "" ∧ (∀ later ∈ after, callId repr later = callId repr event →
          starts repr later = false ∧ finishes repr later = false) ∧
        outcome = outcomeOf repr event := by
  have found : Found repr events _ := found_foldl events
  rw [unknownOf, List.mem_map]
  constructor
  · rintro ⟨⟨id, event⟩, mem, rfl⟩
    rw [List.mem_filter, decide_eq_true_eq] at mem
    obtain ⟨inStarts, unfinished⟩ := mem
    obtain ⟨before, after, eq, isStart, rfl, proper, none⟩ :=
      (found.started id event).mp (lookup_of_mem found.nodup inStarts)
    refine ⟨before, event, after, eq, isStart, proper, fun later mem same => ?_, rfl⟩
    refine ⟨none later mem same, ?_⟩
    by_contra ends
    refine unfinished ((found.finished _).mpr ⟨proper, later, ?_, Bool.not_eq_false _ |>.mp ends, same⟩)
    rw [eq]
    exact List.mem_append_right _ (List.mem_cons_of_mem _ mem)
  · rintro ⟨before, event, after, eq, isStart, proper, none, rfl⟩
    have isLast : LastStart repr events (callId repr event) event :=
      ⟨before, after, eq, isStart, rfl, proper, fun later mem same => (none later mem same).1⟩
    refine ⟨(callId repr event, event), List.mem_filter.mpr
      ⟨mem_of_lookup ((found.started _ _).mpr isLast), decide_eq_true fun isFinished => ?_⟩, rfl⟩
    obtain ⟨-, old, mem, ends, same⟩ := (found.finished _).mp isFinished
    rw [eq] at mem renewed
    rcases List.mem_append.mp mem with isBefore | isAfter
    · exact (List.pairwise_append.mp renewed).2.2 old isBefore event List.mem_cons_self isStart
        proper ends same
    · rcases List.mem_cons.mp isAfter with rfl | isAfter
      · rw [not_starts_of_finishes ends] at isStart
        cases isStart
      · rw [(none old isAfter same).2] at ends
        cases ends

theorem nodup_unknownOf (events : List Json) :
    ((unknownOf repr events).map UnknownToolOutcome.callId).Nodup := by
  have found : Found repr events _ := found_foldl events
  have keys : ∀ entry ∈ (events.foldl (scanEvent repr) ([], [])).1,
      (outcomeOf repr entry.2).callId = entry.1 := by
    rintro ⟨id, event⟩ mem
    obtain ⟨_, _, _, _, isId, _, _⟩ := (found.started id event).mp (lookup_of_mem found.nodup mem)
    exact isId
  rw [unknownOf, List.map_map]
  refine (List.map_congr_left fun entry mem => ?_ : _ = List.map Prod.fst _) ▸
    found.nodup.sublist (List.filter_sublist.map Prod.fst)
  exact keys entry (List.mem_filter.mp mem).1

end

/-! ### Every run -/

/-- After every run in which what stops leaves nothing or its whole object, what is written begins
a line, and no call starts again under a call id that has finished: all events that were appended are
read, and the next append succeeds; the events are numbered from 1 on; and the unknown outcomes are
the calls whose last start has no finish behind it. -/
theorem ledger_survives {repr : Json → String} {actions : List LedgerAction} {s : Ledger}
    (ran : run ledgerStep .empty actions = some s)
    (clean : Along ledgerStep (fun s action _ => Clean repr s action) .empty actions) :
    readEvents s.file = .ok s.recorded ∧
    (∀ event, .ok event ∈ s.answers → event.sortKeys ∈ s.recorded) ∧
    (∀ entry, pyStrip entry.eventType ≠ "" →
      prepare s.file entry = .ok (payload (s.recorded.length + 1) entry)) ∧
    (∀ error, .error error ∈ s.answers → error = .emptyType) ∧
    s.recorded.map (Json.get "seq") =
      ((List.range s.recorded.length).map fun n => some (.nat (n + 1))) ∧
    ∃ outcomes, unknownToolOutcomes repr s.file = .ok outcomes ∧
      (outcomes.map UnknownToolOutcome.callId).Nodup ∧
      ∀ outcome, outcome ∈ outcomes ↔ ∃ before event after,
        s.recorded = before ++ event :: after ∧ starts repr event = true ∧
        callId repr event ≠ "" ∧ (∀ later ∈ after, callId repr later = callId repr event →
          starts repr later = false ∧ finishes repr later = false) ∧
        outcome = outcomeOf repr event := by
  have intact : Intact repr s := run_invariant_along
    (fun _ _ _ intact steps clean => intact.step clean steps) (intact_empty repr) clean ran
  have isRead : readEvents s.file = .ok s.recorded := by
    rw [readEvents, intact.read]
  refine ⟨isRead, intact.returned, fun entry notBlank => intact.prepared notBlank, intact.failed,
    intact.seqs, unknownOf repr s.recorded, ?_, nodup_unknownOf s.recorded,
    mem_unknownOf intact.renewed⟩
  rw [unknownToolOutcomes, isRead]
  rfl

/-- A call of a tool begins. -/
def started : Entry := recordToolCallStarted "e" "t" "s" "c" "write_file" (.obj []) Json.uniqueKeys_obj_nil

def finished : Entry := recordToolCallFinished "e" "t" "s" "c" "write_file" "completed" ""

/-- Another call of the tool begins. -/
def startedAgain : Entry :=
  recordToolCallStarted "e" "t" "s" "d" "write_file" (.obj []) Json.uniqueKeys_obj_nil

/-- A ledger in which every line is whole. -/
structure Whole (s : Ledger) : Prop where
  objects : ∀ v ∈ s.recorded, IsObject v
  file : s.file = s.recorded.flatMap objectLine

theorem whole_empty : Whole .empty := ⟨List.forall_mem_nil _, rfl⟩

theorem Whole.endsLine {s : Ledger} (whole : Whole s) : EndsLine s.file := by
  rw [whole.file]
  rcases List.eq_nil_or_concat s.recorded with none | ⟨front, last, isRecorded⟩
  · rw [none]
    exact nofun
  · intro byte mem
    rw [isRecorded, List.concat_eq_append, List.flatMap_append, List.flatMap_singleton, objectLine,
      utf8Encode_append, ← List.append_assoc, show utf8Encode ['
'] = [newline] from rfl, List.getLast?_concat] at mem
    exact (Option.some.inj mem).symm

theorem Whole.append {s : Ledger} (whole : Whole s) {entry : Entry} (notBlank : pyStrip entry.eventType ≠ "") :
    ∃ t, ledgerStep s (.append entry) = some t ∧ Whole t ∧
      t.recorded = s.recorded ++ [eventOf (s.recorded.length + 1) entry] := by
  have isReady : prepare s.file entry = .ok (payload (s.recorded.length + 1) entry) := by
    rw [prepare, if_neg notBlank, whole.file, readObjects_lines whole.objects]
  rw [ledgerStep, isReady]
  refine ⟨_, rfl, ⟨?_, ?_⟩, rfl⟩
  · exact List.forall_mem_append.mpr ⟨whole.objects, List.forall_mem_singleton.mpr (isObject_eventOf _ entry)⟩
  · rw [whole.file, List.flatMap_append, List.flatMap_singleton]

theorem started_named : pyStrip started.eventType ≠ "" := by decide

theorem finished_named : pyStrip finished.eventType ≠ "" := by decide

theorem startedAgain_named : pyStrip startedAgain.eventType ≠ "" := by decide

/-- A call that ends, an append without an event type, and a call that has begun. -/
def resumed : List LedgerAction :=
  [.append started, .append finished, .append { finished with eventType := " " }, .append startedAgain]

/-- All three events are read, and the call that has begun is an unknown outcome. -/
theorem ledger_survives_resumed :
    ∃ s, run ledgerStep .empty resumed = some s ∧
      readEvents s.file = .ok [eventOf 1 started, eventOf 2 finished, eventOf 3 startedAgain] ∧
      ∃ outcomes, unknownToolOutcomes (fun _ => "") s.file = .ok outcomes ∧
        outcomeOf (fun _ => "") (eventOf 3 startedAgain) ∈ outcomes := by
  obtain ⟨s₁, first, whole₁, recorded₁⟩ := whole_empty.append started_named
  obtain ⟨s₂, second, whole₂, recorded₂⟩ := whole₁.append finished_named
  rw [recorded₁] at recorded₂
  have blank : ledgerStep s₂ (.append { finished with eventType := " " }) =
      some { s₂ with answers := s₂.answers ++ [.error .emptyType] } := rfl
  have still : Whole { s₂ with answers := s₂.answers ++ [.error .emptyType] } := ⟨whole₂.objects, whole₂.file⟩
  obtain ⟨s, third, -, recorded⟩ := still.append startedAgain_named
  have isThird : s.recorded = [eventOf 1 started, eventOf 2 finished, eventOf 3 startedAgain] := by
    rw [recorded, recorded₂]
    rfl
  have ran : run ledgerStep .empty resumed = some s := by
    rw [resumed, run_cons, first, Option.bind_some, run_cons, second, Option.bind_some, run_cons, blank,
      Option.bind_some, run_cons, third]
    rfl
  have clean : Along ledgerStep (fun s action _ => Clean (fun _ => "") s action) .empty resumed := by
    refine along_step first (.inr ⟨whole_empty.endsLine, fun _ _ => nofun⟩) ?_
    refine along_step second (.inr ⟨whole₁.endsLine, ?_⟩) ?_
    · rw [Renews, recorded₁]
      decide +kernel
    refine along_step blank (.inl (by decide)) ?_
    refine along_step third (.inr ⟨still.endsLine, fun _ _ => ?_⟩) (along_nil _)
    dsimp only
    rw [recorded₂]
    decide +kernel
  obtain ⟨isRead, -, -, -, -, outcomes, isUnknown, -, mem⟩ := ledger_survives ran clean
  rw [isThird] at isRead mem
  have isStart : starts (fun _ => "") (eventOf 3 startedAgain) = true := by decide +kernel
  have proper : callId (fun _ => "") (eventOf 3 startedAgain) ≠ "" := by decide +kernel
  exact ⟨s, ran, isRead, outcomes, isUnknown, (mem _).mpr ⟨[eventOf 1 started, eventOf 2 finished], _, [], rfl, isStart, proper, nofun, rfl⟩⟩

/-- An append that stops behind its first byte leaves a ledger that cannot be read, nor appended to;
and a call id that is used again, and has no finish yet, is not among the unknown outcomes. -/
theorem ledger_torn :
    (∃ s, run ledgerStep .empty [.stop started 1] = some s ∧
      readEvents s.file = .error (.readFailed (.invalidJson 1)) ∧
      prepare s.file finished = .error (.checkpointFailed (.invalidJson 1))) ∧
    ∃ s, run ledgerStep .empty [.append started, .append finished, .append started] = some s ∧
      s.recorded = [eventOf 1 started, eventOf 2 finished, eventOf 3 started] ∧
      unknownToolOutcomes (fun _ => "") s.file = .ok [] := by
  constructor
  · have torn : (run ledgerStep .empty [.stop started 1]).any (fun s =>
        readEvents s.file = .error (.readFailed (.invalidJson 1)) ∧
          prepare s.file finished = .error (.checkpointFailed (.invalidJson 1))) = true := by
      decide +kernel
    obtain ⟨s, ran, fails⟩ := (Option.any_eq_true _ _).mp torn
    exact ⟨s, ran, of_decide_eq_true fails⟩
  · obtain ⟨s₁, first, whole₁, recorded₁⟩ := whole_empty.append started_named
    obtain ⟨s₂, second, whole₂, recorded₂⟩ := whole₁.append finished_named
    obtain ⟨s, third, whole, recorded⟩ := whole₂.append started_named
    rw [recorded₂, recorded₁] at recorded
    have hidden : unknownOf (fun _ => "") s.recorded = [] := by
      rw [recorded]
      decide +kernel
    refine ⟨s, ?_, recorded, ?_⟩
    · rw [run_cons, first, Option.bind_some, run_cons, second, Option.bind_some, run_cons, third]
      rfl
    · rw [unknownToolOutcomes, readEvents, whole.file, readObjects_lines whole.objects, ← hidden]
      rfl

end AgentPark.Agents
