import AgentPark.Providers.ResponsesStream
import Mathlib.Data.List.Infix

/-!
# The texts of reasoning and refusals

The text of a segment arrives in deltas, and again in the events that complete the segment, its part and
its item.  The normalizer records what it has given for a segment and gives only what is missing.

* `TextEvent.announces` is what an event says: a start, a delta or a snapshot.
* `record_ingest` and `heard_ingest`: what an event leaves in the record and what it gives.
-/

namespace AgentPark.Providers

open Lib

inductive Channel where
  | reasoning
  | refusal
deriving DecidableEq

/-- An event about the text of a segment, with its type as it is and in lower case. -/
structure TextEvent where
  channel : Channel
  event : Json
  rawType : String
  eventType : String
deriving DecidableEq

/-- What an event says about its segment. -/
inductive Announcement where
  | start
  | delta (text : String)
  | snapshot (text : String)
deriving DecidableEq

namespace TextEvent

variable (host : Builtins)

/-- The key of the segment. -/
def key (o : TextEvent) : Channel × SegmentKey :=
  let item := Normalizer.segmentItem (fieldText host o.event "item_id")
    (intOrNone host (o.event.get "output_index"))
  match o.channel with
  | .reasoning => (.reasoning, ⟨item, Normalizer.reasoningSegmentIndex host o.event⟩)
  | .refusal => (.refusal, ⟨item, (intOrNone host (o.event.get "content_index")).getD 0⟩)

/-- What the event says.  A completion of reasoning that has no text says the empty one. -/
def announces (o : TextEvent) : Option Announcement :=
  match o.channel with
  | .reasoning =>
    if endsWith o.eventType "reasoning_summary_part.added" then some .start
    else if endsWith o.eventType ".delta" then
      some (.delta (Normalizer.extractReasoningText o.event))
    else if endsWith o.eventType ".done" then
      some (.snapshot (Normalizer.extractReasoningText o.event))
    else none
  | .refusal =>
    if endsWith o.eventType ".delta" then (textField o.event "delta").map .delta
    else (textField o.event "refusal").map .snapshot

/-- What the normalizer does with it. -/
def ingest (n : Normalizer) (o : TextEvent) : Normalizer × List StreamEvent :=
  match o.channel with
  | .reasoning => n.reasoningEvents host o.event o.rawType o.eventType
  | .refusal => n.refusalEvent host o.event o.rawType o.eventType

end TextEvent

/-- The text the normalizer has recorded for a segment. -/
def recordOf (n : Normalizer) : Channel × SegmentKey → String
  | (.reasoning, key) => (n.reasoningTextBySegment.lookup key).getD ""
  | (.refusal, key) => (n.refusalTextBySegment.lookup key).getD ""

/-- What a listener hears of some events. -/
def heardIn : List StreamEvent → String
  | [] => ""
  | .reasoningDelta delta _ _ _ _ _ :: events => delta ++ heardIn events
  | .refusalDelta delta _ _ _ _ _ _ :: events => delta ++ heardIn events
  | _ :: events => heardIn events

/-- The record behind an announcement. -/
def nextRecord (record : String) : Option Announcement → String
  | none => record
  | some .start => ""
  | some (.delta text) => record ++ text
  | some (.snapshot text) => if record.toList.isPrefixOf text.toList then text else record

/-- What is given for an announcement. -/
def tailOf (record : String) : Option Announcement → String
  | none => ""
  | some .start => ""
  | some (.delta text) => text
  | some (.snapshot text) =>
    if record.toList.isPrefixOf text.toList then String.ofList (text.toList.drop record.length) else ""

theorem append_tail {record text : String} (extends_ : record.toList.isPrefixOf text.toList = true) :
    record ++ String.ofList (text.toList.drop record.length) = text := by
  obtain ⟨tail, same⟩ := List.isPrefixOf_iff_prefix.mp extends_
  apply String.toList_injective
  rw [String.toList_append, String.toList_ofList, ← same, ← String.length_toList, List.drop_left]

theorem nextRecord_eq {record : String} {announced : Option Announcement} (noStart : announced ≠ some .start) :
    nextRecord record announced = record ++ tailOf record announced := by
  match announced with
  | none => exact (String.append_empty).symm
  | some .start => exact absurd rfl noStart
  | some (.delta text) => rfl
  | some (.snapshot text) =>
    rw [nextRecord, tailOf]
    by_cases extends_ : record.toList.isPrefixOf text.toList = true
    · rw [if_pos extends_, if_pos extends_, append_tail extends_]
    · rw [if_neg extends_, if_neg extends_, String.append_empty]

section

variable {host : Builtins} {n : Normalizer}

/-- The normalizer with another record for a segment. -/
def setRecord (n : Normalizer) : Channel × SegmentKey → String → Normalizer
  | (.reasoning, key), text =>
    { n with reasoningTextBySegment := dictSet n.reasoningTextBySegment key text }
  | (.refusal, key), text => { n with refusalTextBySegment := dictSet n.refusalTextBySegment key text }

theorem recordOf_setRecord (key other : Channel × SegmentKey) (text : String) :
    recordOf (setRecord n key text) other = if other = key then text else recordOf n other := by
  obtain ⟨channel, segment⟩ := key
  obtain ⟨channel', segment'⟩ := other
  cases channel <;> cases channel' <;>
    simp only [setRecord, recordOf, lookup_dictSet, Prod.mk.injEq, reduceCtorEq, false_and, if_false, true_and]
  · split_ifs <;> rfl
  · split_ifs <;> rfl

/-- What an event about a segment does: the record of the segment is the next one, the others stay, and
the tail is given. -/
structure Does (host : Builtins) (n : Normalizer) (o : TextEvent) : Prop where
  record : ∀ key, recordOf (o.ingest host n).1 key =
    if key = o.key host then nextRecord (recordOf n (o.key host)) o.announces else recordOf n key
  heard : heardIn (o.ingest host n).2 = tailOf (recordOf n (o.key host)) o.announces

variable {o : TextEvent} {events : List StreamEvent}

theorem does_of_same (ingests : o.ingest host n = (n, events))
    (record : nextRecord (recordOf n (o.key host)) o.announces = recordOf n (o.key host))
    (heard : heardIn events = tailOf (recordOf n (o.key host)) o.announces) : Does host n o := by
  constructor
  · intro key
    rw [ingests, record]
    split_ifs with own
    · rw [own]
    · rfl
  · rw [ingests]
    exact heard

variable {text : String}

theorem does_of_set (ingests : o.ingest host n = (setRecord n (o.key host) text, events))
    (record : nextRecord (recordOf n (o.key host)) o.announces = text)
    (heard : heardIn events = tailOf (recordOf n (o.key host)) o.announces) : Does host n o := by
  constructor
  · intro key
    rw [ingests, record, recordOf_setRecord]
  · rw [ingests]
    exact heard

theorem does_reasoning (event : Json) (rawType eventType : String) :
    Does host n ⟨.reasoning, event, rawType, eventType⟩ := by
  let o : TextEvent := ⟨.reasoning, event, rawType, eventType⟩
  have ingests : o.ingest host n = n.reasoningEvents host event rawType eventType := rfl
  have record : (n.reasoningTextBySegment.lookup
      ⟨Normalizer.segmentItem (fieldText host event "item_id") (intOrNone host (event.get "output_index")),
        Normalizer.reasoningSegmentIndex host event⟩).getD "" = recordOf n (o.key host) := rfl
  rw [Normalizer.reasoningEvents, record] at ingests
  have announces : o.announces = if endsWith eventType "reasoning_summary_part.added" then some .start
      else if endsWith eventType ".delta" then
        some (.delta (Normalizer.extractReasoningText event))
      else if endsWith eventType ".done" then
        some (.snapshot (Normalizer.extractReasoningText event))
      else none := rfl
  by_cases added : endsWith eventType "reasoning_summary_part.added" = true
  · rw [if_pos added] at ingests announces
    exact does_of_set ingests (by rw [announces]; rfl) (by rw [announces]; rfl)
  rw [if_neg added] at ingests announces
  by_cases silent : Normalizer.extractReasoningText event = ""
  · rw [if_pos silent] at ingests
    rw [silent] at announces
    refine does_of_same ingests ?_ ?_
    · rw [announces]
      split_ifs
      · exact String.append_empty
      · rw [nextRecord]
        split_ifs with extends_
        · have empty := List.isPrefixOf_iff_prefix.mp extends_
          exact (String.toList_injective (List.prefix_nil.mp empty)).symm
        · rfl
      · rfl
    · rw [announces]
      split_ifs
      · rfl
      · rw [tailOf]
        split_ifs
        · simp [heardIn]
        · rfl
      · rfl
  rw [if_neg silent] at ingests
  by_cases delta : endsWith eventType ".delta" = true
  · rw [if_pos delta] at ingests announces
    refine does_of_set ingests (by rw [announces]; rfl) ?_
    rw [announces]
    exact String.append_empty
  rw [if_neg delta] at ingests announces
  by_cases done : endsWith eventType ".done" = true
  · rw [if_pos done] at ingests announces
    by_cases same : Normalizer.extractReasoningText event = recordOf n (o.key host)
    · rw [if_pos same] at ingests
      have whole : (recordOf n (o.key host)).toList.isPrefixOf
          (Normalizer.extractReasoningText event).toList = true := by
        rw [← same]
        exact List.isPrefixOf_iff_prefix.mpr (List.prefix_refl _)
      refine does_of_same ingests ?_ ?_
      · rw [announces, nextRecord, if_pos whole, same]
      · rw [announces, tailOf, if_pos whole, same, ← String.length_toList, List.drop_length]
        rfl
    · rw [if_neg same] at ingests
      by_cases extends_ : (recordOf n (o.key host)).toList.isPrefixOf
          (Normalizer.extractReasoningText event).toList = true
      · rw [if_pos extends_] at ingests
        refine does_of_set ingests ?_ ?_
        · rw [announces, nextRecord, if_pos extends_]
        · rw [announces, tailOf, if_pos extends_]
          exact String.append_empty
      · rw [if_neg extends_] at ingests
        refine does_of_same ingests ?_ ?_
        · rw [announces, nextRecord, if_neg extends_]
        · rw [announces, tailOf, if_neg extends_]
          rfl
  · rw [if_neg done] at ingests announces
    exact does_of_same ingests (by rw [announces]; rfl) (by rw [announces]; rfl)

theorem does_refusal (event : Json) (rawType eventType : String) :
    Does host n ⟨.refusal, event, rawType, eventType⟩ := by
  let o : TextEvent := ⟨.refusal, event, rawType, eventType⟩
  have ingests : o.ingest host n = n.refusalEvent host event rawType eventType := rfl
  have record : (n.refusalTextBySegment.lookup
      ⟨Normalizer.segmentItem (fieldText host event "item_id") (intOrNone host (event.get "output_index")),
        (intOrNone host (event.get "content_index")).getD 0⟩).getD "" = recordOf n (o.key host) := rfl
  rw [Normalizer.refusalEvent, record] at ingests
  have announces : o.announces = if endsWith eventType ".delta" then (textField event "delta").map .delta
      else (textField event "refusal").map .snapshot := rfl
  by_cases delta : endsWith eventType ".delta" = true
  · rw [if_pos delta] at ingests announces
    cases text : textField event "delta" with
    | none =>
      rw [text] at ingests announces
      exact does_of_same ingests (by rw [announces]; rfl) (by rw [announces]; rfl)
    | some delta =>
      rw [text] at ingests announces
      refine does_of_set ingests (by rw [announces]; rfl) ?_
      rw [announces]
      split_ifs with empty
      · rw [empty]
        rfl
      · exact String.append_empty
  · rw [if_neg delta] at ingests announces
    cases text : textField event "refusal" with
    | none =>
      rw [text] at ingests announces
      exact does_of_same ingests (by rw [announces]; rfl) (by rw [announces]; rfl)
    | some snapshot =>
      rw [text] at ingests announces
      dsimp only at ingests
      by_cases extends_ : (recordOf n (o.key host)).toList.isPrefixOf snapshot.toList = true
      · rw [if_pos extends_] at ingests
        refine does_of_set ingests ?_ ?_
        · rw [announces]
          exact if_pos extends_
        · rw [announces, Option.map_some, tailOf, if_pos extends_]
          exact String.append_empty
      · rw [if_neg extends_] at ingests
        refine does_of_same ingests ?_ ?_
        · rw [announces]
          exact if_neg extends_
        · rw [announces, Option.map_some, tailOf, if_neg extends_]
          rfl

theorem ingest_does (host : Builtins) (n : Normalizer) (o : TextEvent) : Does host n o := by
  obtain ⟨channel, event, rawType, eventType⟩ := o
  cases channel with
  | reasoning => exact does_reasoning event rawType eventType
  | refusal => exact does_refusal event rawType eventType

/-- The code of the failure for a snapshot that does not extend the record. -/
def inconsistentCode : Channel → String
  | .reasoning => "inconsistent_reasoning_snapshot"
  | .refusal => "inconsistent_refusal_snapshot"

theorem ingest_inconsistent (announces : o.announces = some (.snapshot text))
    (clash : ¬ (recordOf n (o.key host)).toList.isPrefixOf text.toList = true)
    (told : o.channel = .reasoning → text ≠ "") :
    ∃ message details,
      o.ingest host n = (n, [n.failure message (inconsistentCode o.channel) o.rawType 0 details]) := by
  obtain ⟨channel, event, rawType, eventType⟩ := o
  cases channel with
  | reasoning =>
    have tells : (if endsWith eventType "reasoning_summary_part.added" then some Announcement.start
      else if endsWith eventType ".delta" then
        some (.delta (Normalizer.extractReasoningText event))
      else if endsWith eventType ".done" then
        some (.snapshot (Normalizer.extractReasoningText event))
      else none) = some (.snapshot text) := announces
    split_ifs at tells with added delta done
    · cases tells
    · cases tells
    · cases tells
      have differs : Normalizer.extractReasoningText event ≠
          recordOf n (TextEvent.key host ⟨.reasoning, event, rawType, eventType⟩) := by
        intro same
        rw [← same] at clash
        exact clash (List.isPrefixOf_iff_prefix.mpr (List.prefix_refl _))
      have record : (n.reasoningTextBySegment.lookup
          ⟨Normalizer.segmentItem (fieldText host event "item_id")
            (intOrNone host (event.get "output_index")),
            Normalizer.reasoningSegmentIndex host event⟩).getD "" =
          recordOf n (TextEvent.key host ⟨.reasoning, event, rawType, eventType⟩) := rfl
      have ingests : TextEvent.ingest host n ⟨.reasoning, event, rawType, eventType⟩ =
          n.reasoningEvents host event rawType eventType := rfl
      rw [Normalizer.reasoningEvents, record, if_neg added, if_neg (told rfl), if_neg delta, if_pos done,
        if_neg differs, if_neg clash] at ingests
      exact ⟨_, _, ingests⟩
  | refusal =>
    have tells : (if endsWith eventType ".delta" then (textField event "delta").map Announcement.delta
      else (textField event "refusal").map .snapshot) = some (.snapshot text) := announces
    split_ifs at tells with delta
    · obtain ⟨other, -, same⟩ := Option.map_eq_some_iff.mp tells
      cases same
    · obtain ⟨snapshot, found, same⟩ := Option.map_eq_some_iff.mp tells
      cases same
      have record : (n.refusalTextBySegment.lookup
          ⟨Normalizer.segmentItem (fieldText host event "item_id")
            (intOrNone host (event.get "output_index")),
            (intOrNone host (event.get "content_index")).getD 0⟩).getD "" =
          recordOf n (TextEvent.key host ⟨.refusal, event, rawType, eventType⟩) := rfl
      have ingests : TextEvent.ingest host n ⟨.refusal, event, rawType, eventType⟩ =
          n.refusalEvent host event rawType eventType := rfl
      rw [Normalizer.refusalEvent, record, if_neg delta, found] at ingests
      dsimp only at ingests
      rw [if_neg clash] at ingests
      exact ⟨_, _, ingests⟩

/-! ### A stream -/

/-- The parts of a summary as events about segments. -/
def partEvents (host : Builtins) (event item : Json) (rawType : String) : Nat → List Json → List TextEvent
  | _, [] => []
  | index, part :: parts =>
    match part with
    | .obj _ => ⟨.reasoning, Normalizer.partEvent host event item rawType index part, rawType,
        pyLower rawType⟩ :: partEvents host event item rawType (index + 1) parts
    | _ => partEvents host event item rawType (index + 1) parts

/-- The events about segments that an item that is done stands for. -/
def itemTextEvents (host : Builtins) (event : Json) (rawType : String) : List TextEvent :=
  match dictField event "item" with
  | some item =>
    if itemType host item = "reasoning" then
      match item.get "summary" with
      | some (.arr summary) => partEvents host event item rawType 0 summary
      | _ => []
    else []
  | none => []

/-- The events about segments that an event stands for. -/
def textEvents (host : Builtins) (event : Json) : List TextEvent :=
  match event with
  | .obj fields =>
    let event := Json.obj fields
    let type := rawType host event
    match kindOf host event with
    | .reasoning => [⟨.reasoning, event, type, pyLower type⟩]
    | .refusal => [⟨.refusal, event, type, pyLower type⟩]
    | .outputItemDone => itemTextEvents host event type
    | _ => []
  | _ => []

/-- The normalizer behind some events about segments, and what it gave for them. -/
def ingestTexts (host : Builtins) (n : Normalizer) : List TextEvent → Normalizer × List StreamEvent
  | [] => (n, [])
  | o :: os =>
    let later := ingestTexts host (o.ingest host n).1 os
    (later.1, (o.ingest host n).2 ++ later.2)

theorem ingestTexts_singleton (host : Builtins) (n : Normalizer) (o : TextEvent) :
    ingestTexts host n [o] = o.ingest host n := by
  simp only [ingestTexts, List.append_nil]

theorem ingest_reasoning (host : Builtins) (n : Normalizer) (event : Json) (rawType eventType : String) :
    TextEvent.ingest host n ⟨.reasoning, event, rawType, eventType⟩ =
      n.reasoningEvents host event rawType eventType := rfl

theorem ingest_refusal (host : Builtins) (n : Normalizer) (event : Json) (rawType eventType : String) :
    TextEvent.ingest host n ⟨.refusal, event, rawType, eventType⟩ =
      n.refusalEvent host event rawType eventType := rfl

/-- The records are the same. -/
structure SameTexts (n n' : Normalizer) : Prop where
  reasoning : n'.reasoningTextBySegment = n.reasoningTextBySegment
  refusal : n'.refusalTextBySegment = n.refusalTextBySegment
  provider : n'.provider = n.provider

theorem SameTexts.refl (n : Normalizer) : SameTexts n n := ⟨rfl, rfl, rfl⟩

variable {n n' : Normalizer}

theorem SameTexts.recordOf (same : SameTexts n n') : recordOf n' = recordOf n := by
  funext key
  obtain ⟨channel, segment⟩ := key
  cases channel with
  | reasoning => rw [Providers.recordOf, Providers.recordOf, same.reasoning]
  | refusal => rw [Providers.recordOf, Providers.recordOf, same.refusal]

theorem SameTexts.ingest (same : SameTexts n n') (host : Builtins) (o : TextEvent) :
    SameTexts (o.ingest host n).1 (o.ingest host n').1 ∧ (o.ingest host n').2 = (o.ingest host n).2 := by
  obtain ⟨provider, buckets, keys, reasoning, refusal⟩ := n
  obtain ⟨provider', buckets', keys', reasoning', refusal'⟩ := n'
  obtain ⟨rfl, rfl, rfl⟩ := same
  obtain ⟨channel, event, rawType, eventType⟩ := o
  cases channel with
  | reasoning =>
    unfold TextEvent.ingest Normalizer.reasoningEvents
    dsimp only
    split_ifs <;> exact ⟨⟨rfl, rfl, rfl⟩, rfl⟩
  | refusal =>
    unfold TextEvent.ingest Normalizer.refusalEvent
    dsimp only
    split_ifs
    · cases textField event "delta" <;> exact ⟨⟨rfl, rfl, rfl⟩, rfl⟩
    · cases textField event "refusal" with
      | none => exact ⟨⟨rfl, rfl, rfl⟩, rfl⟩
      | some snapshot =>
        dsimp only
        split_ifs <;> exact ⟨⟨rfl, rfl, rfl⟩, rfl⟩

theorem SameTexts.ingestTexts (same : SameTexts n n') (host : Builtins) (os : List TextEvent) :
    SameTexts (ingestTexts host n os).1 (ingestTexts host n' os).1 ∧
      (ingestTexts host n' os).2 = (ingestTexts host n os).2 := by
  induction os generalizing n n' with
  | nil => exact ⟨same, rfl⟩
  | cons o os ih =>
    obtain ⟨first, given⟩ := same.ingest host o
    obtain ⟨rest, later⟩ := ih first
    exact ⟨rest, by simp only [Providers.ingestTexts, given, later]⟩

theorem summaryParts_eq (event item : Json) (rawType : String) (index : Nat) (parts : List Json) :
    Normalizer.summaryParts host event item rawType index n parts =
      ingestTexts host n (partEvents host event item rawType index parts) := by
  induction parts generalizing n index with
  | nil => rfl
  | cons part parts ih =>
    cases part with
    | obj fields =>
      rw [Normalizer.summaryParts, partEvents, ingestTexts, ← ih, ingest_reasoning]
    | _ =>
      rw [Normalizer.summaryParts, partEvents, ih]
      · exact nofun
      · exact nofun

/-- A listener hears nothing of the events. -/
def Silent (events : List StreamEvent) : Prop := ∀ event ∈ events, heardIn [event] = ""

theorem silent_nil : Silent [] := List.forall_mem_nil _

theorem silent_singleton {event : StreamEvent} (silent : heardIn [event] = "") : Silent [event] :=
  List.forall_mem_singleton.mpr silent

/-- An event that is about no segment gives nothing to hear and leaves the records. -/
def Aside (n : Normalizer) (result : Normalizer × List StreamEvent) : Prop :=
  SameTexts n result.1 ∧ Silent result.2

theorem aside_of_silent (silent : Silent events) : Aside n (n, events) :=
  ⟨.refl n, silent⟩

theorem aside_mergeFunctionCallItem (host : Builtins) (n : Normalizer) (item event : Json) (requireArguments : Bool) :
    SameTexts n (n.mergeFunctionCallItem host item event requireArguments).1 ∧
      ∀ failure, (n.mergeFunctionCallItem host item event requireArguments).2 = some failure →
        heardIn [failure] = "" := by
  unfold Normalizer.mergeFunctionCallItem
  cases Normalizer.itemArguments item with
  | none =>
    refine ⟨.refl n, ?_⟩
    intro failure same
    cases same
    rfl
  | some arguments =>
    dsimp only
    split_ifs with missing
    · refine ⟨⟨rfl, rfl, rfl⟩, ?_⟩
      intro failure same
      cases same
      rfl
    · exact ⟨⟨rfl, rfl, rfl⟩, nofun⟩

theorem aside_outputItemAdded (event : Json) (rawType : String) :
    Aside n (n.outputItemAdded host event rawType) := by
  unfold Normalizer.outputItemAdded
  cases dictField event "item" with
  | none => exact aside_of_silent (silent_singleton rfl)
  | some item =>
    dsimp only
    split_ifs with isCall named
    · exact aside_of_silent (silent_singleton rfl)
    · obtain ⟨same, silent⟩ := aside_mergeFunctionCallItem host n item event false
      revert same silent
      cases n.mergeFunctionCallItem host item event false with
      | mk n' failure =>
        intro same silent
        cases failure with
        | some failure => exact ⟨same, silent_singleton (silent failure rfl)⟩
        | none => exact ⟨same, silent_singleton rfl⟩
    · exact aside_of_silent (silent_singleton rfl)

theorem aside_functionCallArgumentsDelta (event : Json) (rawType : String) :
    Aside n (n.functionCallArgumentsDelta host event rawType) := by
  unfold Normalizer.functionCallArgumentsDelta
  cases textField event "delta" with
  | none => exact aside_of_silent (silent_singleton rfl)
  | some delta =>
    dsimp only
    split_ifs
    · exact aside_of_silent (silent_singleton rfl)
    · exact ⟨⟨rfl, rfl, rfl⟩, silent_singleton rfl⟩

theorem aside_functionCallArgumentsDone (event : Json) (rawType : String) :
    Aside n (n.functionCallArgumentsDone host event rawType) := by
  unfold Normalizer.functionCallArgumentsDone
  dsimp only
  split_ifs
  · exact aside_of_silent (silent_singleton rfl)
  · cases textField event "arguments" with
    | none => exact aside_of_silent (silent_singleton rfl)
    | some arguments => exact ⟨⟨rfl, rfl, rfl⟩, silent_nil⟩

theorem silent_responseLifecycleEvent (event : Json) (rawType status : String) :
    Silent [n.responseLifecycleEvent host event rawType status] := by
  apply silent_singleton
  unfold Normalizer.responseLifecycleEvent
  cases dictField event "response" with
  | none => rfl
  | some response =>
    dsimp only
    split_ifs <;> rfl

theorem silent_responseCompleted (event : Json) (rawType : String) :
    Silent [n.responseCompleted host event rawType] := by
  apply silent_singleton
  unfold Normalizer.responseCompleted
  cases dictField event "response" with
  | none => rfl
  | some response =>
    dsimp only
    split_ifs <;> rfl

theorem silent_responseIncomplete (event : Json) (rawType : String) :
    Silent [n.responseIncomplete host event rawType] := by
  apply silent_singleton
  unfold Normalizer.responseIncomplete
  cases dictField event "response" with
  | none => rfl
  | some response =>
    dsimp only
    split_ifs <;> rfl

theorem silent_outputTextDelta (event : Json) (rawType : String) :
    Silent [n.outputTextDelta host event rawType] := by
  apply silent_singleton
  unfold Normalizer.outputTextDelta
  cases textField event "delta" <;> rfl

theorem reasoningItemDoneEvents_eq (n : Normalizer) (event item : Json) (rawType : String)
    (isReasoning : itemType host item = "reasoning") (isItem : dictField event "item" = some item) :
    n.reasoningItemDoneEvents host event rawType item =
      ingestTexts host n (itemTextEvents host event rawType) := by
  rw [Normalizer.reasoningItemDoneEvents, itemTextEvents, isItem]
  dsimp only
  rw [if_pos isReasoning]
  cases summary : item.get "summary" with
  | none => rfl
  | some value =>
    cases value with
    | arr parts => exact summaryParts_eq event item rawType 0 parts
    | _ => rfl

theorem outputItemDone_texts (event : Json) (rawType : String) :
    SameTexts (ingestTexts host n (itemTextEvents host event rawType)).1
        (n.outputItemDone host event rawType).1 ∧
      ∃ front, Silent front ∧ (n.outputItemDone host event rawType).2 =
        front ++ (ingestTexts host n (itemTextEvents host event rawType)).2 := by
  cases isItem : dictField event "item" with
  | none =>
    rw [Normalizer.outputItemDone, itemTextEvents, isItem]
    exact ⟨.refl n, _, silent_singleton rfl, (List.append_nil _).symm⟩
  | some item =>
    by_cases isReasoning : itemType host item = "reasoning"
    · have notCall : itemType host item ≠ "function_call" := by
        rw [isReasoning]
        decide
      have parts := reasoningItemDoneEvents_eq n event item rawType isReasoning isItem
      rw [Normalizer.outputItemDone, isItem]
      dsimp only
      rw [if_pos notCall, if_pos isReasoning, parts]
      exact ⟨.refl _, [_], silent_singleton rfl, rfl⟩
    · have none : itemTextEvents host event rawType = [] := by
        rw [itemTextEvents, isItem]
        exact if_neg isReasoning
      rw [none, Normalizer.outputItemDone, isItem]
      dsimp only
      by_cases isCall : itemType host item ≠ "function_call"
      · rw [if_pos isCall, if_neg isReasoning]
        exact ⟨.refl _, _, silent_singleton rfl, (List.append_nil _).symm⟩
      · rw [if_neg isCall]
        obtain ⟨same, silent⟩ := aside_mergeFunctionCallItem host n item event true
        revert same silent
        cases n.mergeFunctionCallItem host item event true with
        | mk n' failure =>
          intro same silent
          cases failure with
          | some failure =>
            exact ⟨same, _, silent_singleton (silent failure rfl), (List.append_nil _).symm⟩
          | none =>
            dsimp only
            cases n'.functionCallSnapshot (Normalizer.itemIdOf host event item)
                (fieldText host item "call_id") with
            | none => exact ⟨same, _, silent_singleton rfl, (List.append_nil _).symm⟩
            | some call => exact ⟨same, _, silent_singleton rfl, (List.append_nil _).symm⟩

/-- What the normalizer does with an event is what it does with the events about segments that it stands
for, and something that has nothing to do with them in front. -/
theorem ingestEvent_texts (host : Builtins) (n : Normalizer) (event : Json) :
    SameTexts (ingestTexts host n (textEvents host event)).1 (n.ingestEvent host event).1 ∧
      ∃ front, Silent front ∧
        (n.ingestEvent host event).2 = front ++ (ingestTexts host n (textEvents host event)).2 := by
  have aside : ∀ {result : Normalizer × List StreamEvent}, Aside n result →
      SameTexts (ingestTexts host n []).1 result.1 ∧
        ∃ front, Silent front ∧ result.2 = front ++ (ingestTexts host n []).2 :=
    fun both => ⟨both.1, _, both.2, (List.append_nil _).symm⟩
  cases event with
  | obj fields =>
    rw [Normalizer.ingestEvent, textEvents]
    cases kind : kindOf host (.obj fields) <;> dsimp only
    case reasoning =>
      rw [ingestTexts_singleton, ingest_reasoning]
      exact ⟨SameTexts.refl _, [], silent_nil, (List.nil_append _).symm⟩
    case refusal =>
      rw [ingestTexts_singleton, ingest_refusal]
      exact ⟨SameTexts.refl _, [], silent_nil, (List.nil_append _).symm⟩
    case outputItemAdded => exact aside (aside_outputItemAdded _ _)
    case functionCallArgumentsDelta => exact aside (aside_functionCallArgumentsDelta _ _)
    case functionCallArgumentsDone => exact aside (aside_functionCallArgumentsDone _ _)
    case outputItemDone => exact outputItemDone_texts _ _
    case queued => exact aside (aside_of_silent (silent_responseLifecycleEvent _ _ _))
    case inProgress => exact aside (aside_of_silent (silent_responseLifecycleEvent _ _ _))
    case outputTextDelta => exact aside (aside_of_silent (silent_outputTextDelta _ _))
    case completed => exact aside (aside_of_silent (silent_responseCompleted _ _))
    case incomplete => exact aside (aside_of_silent (silent_responseIncomplete _ _))
    case failed => exact aside (aside_of_silent (silent_singleton rfl))
    case created => exact aside (aside_of_silent (silent_singleton rfl))
    case serverTool => exact aside (aside_of_silent (silent_singleton rfl))
    case other => exact aside (aside_of_silent silent_nil)
  | _ => exact aside (aside_of_silent (silent_singleton rfl))

theorem ingestTexts_append (host : Builtins) (n : Normalizer) (front back : List TextEvent) :
    (ingestTexts host n (front ++ back)).1 = (ingestTexts host (ingestTexts host n front).1 back).1 := by
  induction front generalizing n with
  | nil => rfl
  | cons o front ih => exact ih _

theorem SameTexts.trans {n'' : Normalizer} (first : SameTexts n n') (second : SameTexts n' n'') :
    SameTexts n n'' :=
  ⟨second.reasoning.trans first.reasoning, second.refusal.trans first.refusal,
    second.provider.trans first.provider⟩

theorem ingestAll_texts (host : Builtins) (n : Normalizer) (stream : List Json) :
    SameTexts (ingestTexts host n (stream.flatMap (textEvents host))).1 (n.ingestAll host stream).1 := by
  induction stream generalizing n with
  | nil => exact .refl n
  | cons event stream ih =>
    have first := (ingestEvent_texts host n event).1
    have rest := (first.ingestTexts host (stream.flatMap (textEvents host))).1
    rw [List.flatMap_cons, ingestTexts_append]
    exact rest.trans (ih _)

/-! ### What a listener hears -/

/-- What a listener has heard of a segment since it was last started, when the events of a list arrive
that are labelled with their segments. -/
def heard {σ : Type*} [DecidableEq σ] (host : Builtins) (segment : σ) :
    Normalizer → String → List (σ × TextEvent) → String
  | _, text, [] => text
  | n, text, (other, o) :: rest =>
    let given := o.ingest host n
    let text :=
      if other ≠ segment then text
      else if o.announces = some .start then ""
      else text ++ heardIn given.2
    heard host segment given.1 text rest

/-- What is heard of a segment is what is recorded. -/
theorem heard_eq_record {σ : Type*} [DecidableEq σ] (host : Builtins) (n : Normalizer) {segment : σ} {key : Channel × SegmentKey}
    {labelled : List (σ × TextEvent)}
    (keyed : ∀ label ∈ labelled, label.2.key host = key ↔ label.1 = segment) :
    heard host segment n (recordOf n key) labelled =
      recordOf (ingestTexts host n (labelled.map Prod.snd)).1 key := by
  induction labelled generalizing n with
  | nil => rfl
  | cons label labelled ih =>
    obtain ⟨other, o⟩ := label
    obtain ⟨first, rest⟩ := List.forall_mem_cons.mp keyed
    have does := ingest_does host n o
    have text : (if other ≠ segment then recordOf n key
        else if o.announces = some .start then ""
        else recordOf n key ++ heardIn (o.ingest host n).2) = recordOf (o.ingest host n).1 key := by
      rw [does.record]
      by_cases own : other = segment
      · have same : key = o.key host := (first.mpr own).symm
        rw [if_neg (not_not.mpr own), if_pos same, does.heard, same]
        split_ifs with start
        · rw [start]
          rfl
        · exact (nextRecord_eq start).symm
      · rw [if_pos own, if_neg]
        exact fun same => own (first.mp same.symm)
    rw [heard, text]
    exact ih _ rest

theorem no_failure_of_extends (announces : o.announces = some (.snapshot text))
    (extends_ : (recordOf n (o.key host)).toList.isPrefixOf text.toList = true)
    (failure : StreamFailure) :
    .failure failure ∉ (o.ingest host n).2 := by
  obtain ⟨channel, event, rawType, eventType⟩ := o
  cases channel with
  | reasoning =>
    rw [ingest_reasoning, Normalizer.reasoningEvents]
    have record : (n.reasoningTextBySegment.lookup
        ⟨Normalizer.segmentItem (fieldText host event "item_id")
          (intOrNone host (event.get "output_index")),
          Normalizer.reasoningSegmentIndex host event⟩).getD "" =
        recordOf n (TextEvent.key host ⟨.reasoning, event, rawType, eventType⟩) := rfl
    have tells : (if endsWith eventType "reasoning_summary_part.added" then some Announcement.start
      else if endsWith eventType ".delta" then
        some (.delta (Normalizer.extractReasoningText event))
      else if endsWith eventType ".done" then
        some (.snapshot (Normalizer.extractReasoningText event))
      else none) = some (.snapshot text) := announces
    split_ifs at tells with added delta done
    · cases tells
    · cases tells
    · cases tells
      rw [record, if_neg added]
      by_cases silent : Normalizer.extractReasoningText event = ""
      · rw [if_pos silent]
        exact List.not_mem_nil
      · rw [if_neg silent, if_neg delta, if_pos done, if_pos extends_]
        split_ifs <;> simp
  | refusal =>
    rw [ingest_refusal, Normalizer.refusalEvent]
    have record : (n.refusalTextBySegment.lookup
        ⟨Normalizer.segmentItem (fieldText host event "item_id")
          (intOrNone host (event.get "output_index")),
          (intOrNone host (event.get "content_index")).getD 0⟩).getD "" =
        recordOf n (TextEvent.key host ⟨.refusal, event, rawType, eventType⟩) := rfl
    have tells : (if endsWith eventType ".delta" then (textField event "delta").map Announcement.delta
      else (textField event "refusal").map .snapshot) = some (.snapshot text) := announces
    split_ifs at tells with delta
    · obtain ⟨other, -, same⟩ := Option.map_eq_some_iff.mp tells
      cases same
    · obtain ⟨snapshot, found, same⟩ := Option.map_eq_some_iff.mp tells
      cases same
      rw [record, if_neg delta, found]
      dsimp only
      rw [if_pos extends_]
      simp

theorem code_failure (n : Normalizer) (channel : Channel) (message eventType : String)
    (details : List (String × Json)) :
    ∃ failure : StreamFailure, n.failure message (inconsistentCode channel) eventType 0 details =
      .failure failure ∧ failure.code = inconsistentCode channel := by
  cases channel with
  | reasoning =>
    have code : pyStrip (if inconsistentCode .reasoning = "" then "responses_stream_error"
      else inconsistentCode .reasoning) = inconsistentCode .reasoning := by decide +kernel
    exact ⟨_, rfl, code⟩
  | refusal =>
    have code : pyStrip (if inconsistentCode .refusal = "" then "responses_stream_error"
      else inconsistentCode .refusal) = inconsistentCode .refusal := by decide +kernel
    exact ⟨_, rfl, code⟩

end

/-- The condition on a stream whose events about segments are labelled with the segments: two of them have
one key when they are about one segment, and a completion of reasoning without text meets no text. -/
structure WellKeyed {σ : Type*} (host : Builtins) (start : Normalizer) (labelled : List (σ × TextEvent)) :
    Prop where
  keyed : ∀ label ∈ labelled, ∀ other ∈ labelled,
    label.2.key host = other.2.key host ↔ label.1 = other.1
  told : ∀ before label after, labelled = before ++ label :: after → label.2.channel = .reasoning →
    label.2.announces = some (.snapshot "") →
    recordOf (ingestTexts host start (before.map Prod.snd)).1 (label.2.key host) = ""

/-- The texts of reasoning and refusals are exact.  What a listener has heard of a segment is what is
recorded for it; a delta is given as it is; a snapshot that extends the record is given by its missing
tail, so that the listener has then heard it once; one that does not is a failure and changes nothing. -/
theorem segmentText_exact {σ : Type*} [DecidableEq σ] (host : Builtins) (provider : String)
    (stream : List Json) (labelled : List (σ × TextEvent))
    (isStream : labelled.map Prod.snd = stream.flatMap (textEvents host))
    (wellKeyed : WellKeyed host { provider := provider } labelled) :
    let start : Normalizer := { provider := provider }
    (∀ before event after, stream = before ++ event :: after →
      let texts := (ingestTexts host start (before.flatMap (textEvents host))).1
      ∃ front, Silent front ∧ ((start.ingestAll host before).1.ingestEvent host event).2 =
        front ++ (ingestTexts host texts (textEvents host event)).2) ∧
    (∀ label ∈ labelled, recordOf (start.ingestAll host stream).1 (label.2.key host) =
      heard host label.1 start "" labelled) ∧
    ∀ before segment o after, labelled = before ++ (segment, o) :: after →
      let n := (ingestTexts host start (before.map Prod.snd)).1
      let record := recordOf n (o.key host)
      let result := o.ingest host n
      record = heard host segment start "" before ∧
      recordOf result.1 (o.key host) = heard host segment start "" (before ++ [(segment, o)]) ∧
      (∀ text, o.announces = some (.delta text) →
        heardIn result.2 = text ∧ recordOf result.1 (o.key host) = record ++ text) ∧
      (∀ text, o.announces = some (.snapshot text) → record.toList <+: text.toList →
        record ++ heardIn result.2 = text ∧ recordOf result.1 (o.key host) = text ∧
          ∀ failure, .failure failure ∉ result.2) ∧
      (∀ text, o.announces = some (.snapshot text) → ¬ record.toList <+: text.toList →
        ∃ failure, result = (n, [.failure failure]) ∧ failure.code = inconsistentCode o.channel) := by
  intro start
  have empty : ∀ key, recordOf start key = "" := by
    rintro ⟨channel, segment⟩
    cases channel <;> rfl
  refine ⟨?_, ?_, ?_⟩
  · intro before event after same texts
    have records := ingestAll_texts host start before
    obtain ⟨-, front, silent, given⟩ :=
      ingestEvent_texts host (start.ingestAll host before).1 event
    refine ⟨front, silent, ?_⟩
    rw [given, (records.ingestTexts host (textEvents host event)).2]
  · intro label mem
    have listened := heard_eq_record host start
      fun other inStream => wellKeyed.keyed other inStream label mem
    rw [empty] at listened
    rw [(ingestAll_texts host start stream).recordOf, ← isStream, listened]
  · intro before segment o after split n record result
    have mem : (segment, o) ∈ labelled := by
      rw [split]
      exact List.mem_append_right _ List.mem_cons_self
    have keyedBefore : ∀ label ∈ before ++ [(segment, o)], label.2.key host = o.key host ↔
        label.1 = segment := by
      intro label inFront
      have inStream : label ∈ labelled := by
        rw [split, List.append_cons]
        exact List.mem_append_left _ inFront
      exact wellKeyed.keyed label inStream (segment, o) mem
    have does := ingest_does host n o
    have recorded := does.record (o.key host)
    rw [if_pos rfl] at recorded
    have heardBefore := heard_eq_record host start
      fun label inFront => keyedBefore label (List.mem_append_left _ inFront)
    have heardAfter := heard_eq_record host start keyedBefore
    rw [empty] at heardBefore heardAfter
    refine ⟨heardBefore.symm, ?_, ?_, ?_, ?_⟩
    · rw [heardAfter, List.map_append, ingestTexts_append]
      rfl
    · intro text tells
      rw [recorded, does.heard, tells]
      exact ⟨rfl, rfl⟩
    · intro text tells extends_
      have isPrefix := List.isPrefixOf_iff_prefix.mpr extends_
      refine ⟨?_, ?_, no_failure_of_extends tells isPrefix⟩
      · rw [does.heard, tells, tailOf, if_pos isPrefix, append_tail isPrefix]
      · rw [recorded, tells, nextRecord, if_pos isPrefix]
    · intro text tells clash
      have notPrefix : ¬ record.toList.isPrefixOf text.toList = true := fun isPrefix =>
        clash (List.isPrefixOf_iff_prefix.mp isPrefix)
      obtain ⟨message, details, refused⟩ := ingest_inconsistent tells notPrefix (by
        intro reasoning noText
        rw [noText] at tells
        have none := wellKeyed.told before (segment, o) after split reasoning tells
        exact clash (by rw [show record = "" from none]; exact List.nil_prefix))
      obtain ⟨failure, same, code⟩ := code_failure n o.channel message o.rawType details
      rw [same] at refused
      exact ⟨failure, refused, code⟩

/-! ### One reasoning -/

section

/-- An event about the first part of a summary, under the fields that name its item. -/
def summaryEvent (kind : String) (item : List (String × Json)) (text : String) : Json :=
  .obj (("type", .str kind) :: item ++
    [("summary_index", .nat 0), (if endsWith kind "delta" then "delta" else "text", .str text)])

/-- A reasoning whose text comes in a delta, with the part and with the item. -/
def oneReasoning : List Json :=
  [summaryEvent "response.reasoning_summary_text.delta" [("item_id", .str "rs_1")] "ab",
    summaryEvent "response.reasoning_summary_text.done" [("item_id", .str "rs_1")] "abc",
    .obj [("type", .str "response.output_item.done"), ("output_index", .nat 0),
      ("item", .obj [("type", .str "reasoning"), ("id", .str "rs_1"),
        ("summary", .arr [.obj [("type", .str "summary_text"), ("text", .str "abc")]])])]]

/-- The events about its only segment. -/
def oneSegment : List (Unit × TextEvent) :=
  (oneReasoning.flatMap (textEvents plainBuiltins)).map fun o => ((), o)

theorem wellKeyed_oneSegment : WellKeyed plainBuiltins {} oneSegment where
  keyed := by decide +kernel
  told := by
    have texts : ∀ label ∈ oneSegment, label.2.announces ≠ some (.snapshot "") := by decide +kernel
    intro before label after split _ empty
    have mem : label ∈ oneSegment := by
      rw [split]
      exact List.mem_append_right _ List.mem_cons_self
    exact absurd empty (texts label mem)

/-- The listener has heard the text once. -/
theorem segmentText_oneReasoning :
    (∀ label ∈ oneSegment, recordOf (({} : Normalizer).ingestAll plainBuiltins oneReasoning).1
      (label.2.key plainBuiltins) = heard plainBuiltins label.1 {} "" oneSegment) ∧
    heard plainBuiltins () {} "" oneSegment = "abc" :=
  ⟨(segmentText_exact plainBuiltins "openai_responses" oneReasoning oneSegment
    (by rw [oneSegment, List.map_map]; exact List.map_id _) wellKeyed_oneSegment).2.1,
    by decide +kernel⟩

/-- A text whose completion names the item by its place alone is heard twice, and a completion without
text of a reasoning that has some is no failure, while that of a refusal is. -/
theorem segmentText_repeated :
    heardIn (({} : Normalizer).ingestAll plainBuiltins
      [summaryEvent "response.reasoning_summary_text.delta"
        [("item_id", .str "rs_1"), ("output_index", .nat 0)] "ab",
      summaryEvent "response.reasoning_summary_text.done" [("output_index", .nat 0)] "ab"]).2.flatten =
        "abab" ∧
    (({} : Normalizer).ingestAll plainBuiltins
      [summaryEvent "response.reasoning_summary_text.delta" [("item_id", .str "rs_1")] "ab",
      summaryEvent "response.reasoning_summary_text.done" [("item_id", .str "rs_1")] ""]).2[1]? =
        some [] ∧
    ((({} : Normalizer).ingestAll plainBuiltins
      [.obj [("type", .str "response.refusal.delta"), ("item_id", .str "msg_1"), ("delta", .str "ab")],
      .obj [("type", .str "response.refusal.done"), ("item_id", .str "msg_1"),
        ("refusal", .str "")]]).2[1]?.map fun given => given.map fun event => match event with
          | .failure failure => failure.code
          | _ => "") = some ["inconsistent_refusal_snapshot"] := by
  refine ⟨?_, ?_, ?_⟩ <;> decide +kernel

end

end AgentPark.Providers
