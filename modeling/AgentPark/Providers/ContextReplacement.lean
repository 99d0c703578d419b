import AgentPark.Lib.JsonLimits
import AgentPark.Lib.JsonSort
import AgentPark.Lib.Outcome

/-!
# The replacement of a tool context

When a tool context is too large for a request, `build_tool_context_replacement` puts one text in its
place.  The text has an entry for each of the first messages, in full or with its metadata only, and
counters for what was left out; it has at most `max_chars` characters.

* The first section is the code.  A message is written by `candidateEntry`, whose values are cut by
  `boundedValue`.  A content in which `json.loads` comes to an integer of more than 4300 digits raises.
* `EntryOf` says field by field what the entry of a message has to be, and `Truthful` what a payload
  with given choices has to state; it determines the payload.

The values of a candidate are those that `json.dumps` writes, and a string is of Unicode scalar values:
`Library.surrogates` stands for what the code makes of a content with an escape for a lone surrogate.
-/

namespace AgentPark.Providers

open Lib

/-- What the code calls: `str` of a collection, the digest, and the text of the float that a literal
stands for. -/
structure Library where
  repr : Json → String
  sha256 : String → String
  floatText : Number → Number
  surrogates : String → Except String (Option Json)

section

variable (library : Library)

/-- `_digest` -/
def digest (value : Json) : String :=
  let text := match value with
    | .str text => text
    | value => String.ofList (dumps value.sortKeys)
  String.ofList ((library.sha256 text).toList.take 16)

/-- `MAX_ENTRY_TEXT_CHARS` -/
def maxEntryTextChars : Nat := 2400

/-- `MAX_COLLECTION_ITEMS` -/
def maxCollectionItems : Nat := 20

/-- `MAX_NESTING_DEPTH` -/
def maxNestingDepth : Nat := 4

/-- `_bounded_text` -/
def boundedText (value : Json) : String :=
  let text := Json.strOr library.repr "" (some value)
  if text.length ≤ maxEntryTextChars then text
  else String.ofList (text.toList.take maxEntryTextChars) ++ ("\n...[" ++
    (text.length - maxEntryTextChars).repr ++ " chars omitted; sha256=" ++
    digest library (.str text) ++ "]")

/-- `_bounded_value`, with the number of levels that are left before `MAX_NESTING_DEPTH`. -/
def boundedValue : Nat → Json → Json
  | 0, value => .obj [("truncated", .bool true), ("sha256", .str (digest library value))]
  | levels + 1, .obj fields =>
    let result := (fields.take maxCollectionItems).map fun (key, child) =>
      (key, boundedValue levels child)
    if maxCollectionItems < fields.length then
      .obj (dictSet result "_omitted_key_count" (.nat (fields.length - maxCollectionItems)))
    else .obj result
  | levels + 1, .arr items =>
    let result := (items.take maxCollectionItems).map (boundedValue levels)
    if maxCollectionItems < items.length then
      .arr (result ++ [.obj [("omitted_item_count", .nat (items.length - maxCollectionItems))]])
    else .arr result
  | _ + 1, .str text => .str (boundedText library (.str text))
  | _ + 1, value => value

/-- `isinstance(value, (dict, list))` -/
def isCollection : Json → Bool
  | .obj _ | .arr _ => true
  | _ => false

/-- `_decode_json_object`: a `JSONDecodeError` is caught, the `ValueError` for an integer is not. -/
def decodeJsonObject (value : Json) : Except String (Option Json) :=
  match value with
  | .str text =>
    match obstacle text.toList with
    | some (.digits count) => .error ("Exceeds the limit (" ++ intMaxStrDigits.repr ++
        " digits) for integer string conversion: value has " ++ count.repr ++
        " digits; use sys.set_int_max_str_digits() to increase the limit")
    | some .surrogate => library.surrogates text
    | none => pure (((loads text.toList).map (Json.renumber (numberText library.floatText))).filter
        isCollection)
  | value => pure ((some value).filter isCollection)

/-- `value in ("", None, [], {})` -/
def isBlank (value : Json) : Bool :=
  value = .str "" ∨ value = .null ∨ value = .arr [] ∨ value = .obj []

/-- `candidate.get("content")` -/
def contentOf (candidate : List (String × Json)) : Json := (candidate.lookup "content").getD .null

/-- `_candidate_entry` -/
def candidateEntry (candidate : List (String × Json)) : Except String (List (String × Json)) := do
  let content := contentOf candidate
  let decoded ← decodeJsonObject library content
  let entry : List (String × Json) :=
    [("message_id", .str (Json.strOr library.repr "" (candidate.lookup "message_id"))),
      ("role", .str (Json.strOr library.repr "" (candidate.lookup "role"))),
      ("name", .str (Json.strOr library.repr "" (candidate.lookup "name"))),
      ("tool_call_id", .str (Json.strOr library.repr "" (candidate.lookup "tool_call_id"))),
      ("content_sha256", .str (digest library content))]
  let toolCalls : List (String × Json) := match candidate.lookup "tool_calls" with
    | some (.arr (call :: calls)) =>
      [("tool_calls", boundedValue library maxNestingDepth (.arr (call :: calls)))]
    | _ => []
  let detail : List (String × Json) := match decoded with
    | some decoded => [("result", boundedValue library maxNestingDepth decoded)]
    | none =>
      if content = .null ∨ content = .str "" then []
      else [("content_preview", .str (boundedText library content))]
  pure ((entry ++ toolCalls ++ detail).filter fun field => !isBlank field.2)

/-- The keys of `_metadata_only_entry`. -/
def metadataKeys : List String := ["message_id", "role", "name", "tool_call_id", "content_sha256"]

/-- `_metadata_only_entry` -/
def metadataOnlyEntry (entry : List (String × Json)) : List (String × Json) :=
  metadataKeys.filterMap fun key => (entry.lookup key).map fun value => (key, value)

/-- The payload of `build_tool_context_replacement`. -/
structure Payload where
  messageCount : Nat
  candidateSetSha256 : String
  entries : List (List (String × Json))
  representedEntryCount : Nat
  detailEntriesOmitted : Nat
  unrepresentedEntryCount : Nat

/-- The payload as a dictionary. -/
def Payload.fields (payload : Payload) : List (String × Json) :=
  [("schema_version", .nat 1),
    ("kind", .str "tool_context_replacement"),
    ("message_count", .nat payload.messageCount),
    ("candidate_set_sha256", .str payload.candidateSetSha256),
    ("entries", .arr (payload.entries.map .obj)),
    ("represented_entry_count", .nat payload.representedEntryCount),
    ("detail_entries_omitted", .nat payload.detailEntriesOmitted),
    ("unrepresented_entry_count", .nat payload.unrepresentedEntryCount)]

/-- `_format_payload` -/
def formatPayload (payload : Payload) : String :=
  "[Tool Context Replacement]" ++ "\n" ++ String.ofList (dumpsSorted (.obj payload.fields))

/-- The trial of `_append_entry_within_budget` for one form of the entry. -/
def trial (payload : Payload) (candidate : List (String × Json)) (omitsDetail : Bool)
    (totalEntries : Nat) : Payload :=
  let entries := payload.entries ++ [candidate]
  { payload with
    entries := entries
    representedEntryCount := entries.length
    unrepresentedEntryCount := totalEntries - entries.length
    detailEntriesOmitted := payload.detailEntriesOmitted + omitsDetail.toNat }

/-- `_append_entry_within_budget`: the payload with the entry, when it fits. -/
def appendEntryWithinBudget (payload : Payload) (entry : List (String × Json)) (totalEntries : Nat)
    (maxChars : Int) : Option Payload :=
  let full := trial payload entry false totalEntries
  let metadataOnly := trial payload (metadataOnlyEntry entry) true totalEntries
  if (formatPayload full).length ≤ maxChars then some full
  else if (formatPayload metadataOnly).length ≤ maxChars then some metadataOnly
  else none

/-- The loop of `build_tool_context_replacement`. -/
def appendEntries (totalEntries : Nat) (maxChars : Int) : Payload → List (List (String × Json)) → Payload
  | payload, [] => payload
  | payload, entry :: entries =>
    match appendEntryWithinBudget payload entry totalEntries maxChars with
    | some payload => appendEntries totalEntries maxChars payload entries
    | none => payload

/-- The payload without entries. -/
def startPayload (candidates entries : List (List (String × Json))) : Payload where
  messageCount := candidates.length
  candidateSetSha256 := digest library
    (.arr (entries.map fun entry => (entry.lookup "content_sha256").getD (.str "")))
  entries := []
  representedEntryCount := 0
  detailEntriesOmitted := 0
  unrepresentedEntryCount := entries.length

/-- `build_tool_context_replacement` -/
def buildToolContextReplacement (candidates : List (List (String × Json))) (maxChars : Int) :
    Except String String := do
  let entries ← candidates.mapM (candidateEntry library)
  let payload := startPayload library candidates entries
  require ((formatPayload payload).length ≤ maxChars)
    ("tool context replacement metadata exceeds configured max_chars=" ++ toString maxChars)
  pure (formatPayload (appendEntries entries.length maxChars payload entries))

/-! ### What an entry has to be -/

/-- The keys of an entry, in their order. -/
def entryKeys : List String := metadataKeys ++ ["tool_calls", "result", "content_preview"]

/-- The value of a field that is left out when it is blank. -/
def shown (value : Json) : Option Json := (some value).filter fun value => !isBlank value

/-- A text that was cut has a note on the rest behind its first characters. -/
def Cut (text : String) : Prop :=
  text.length ≤ maxEntryTextChars ∨ ∃ (count : Nat) (sha256 : String), text.toList.drop maxEntryTextChars =
    ("\n...[" ++ count.repr ++ " chars omitted; sha256=" ++ sha256 ++ "]").toList

/-- Nothing is nested deeper than `levels`, a collection has `MAX_COLLECTION_ITEMS` items and at most a
note on the others, and texts are cut. -/
def Bounded : Nat → Json → Prop
  | _, .str text => Cut text
  | 0, value => isCollection value = false
  | levels + 1, .obj fields =>
    fields.length ≤ maxCollectionItems + 1 ∧ ∀ field ∈ fields, Bounded levels field.2
  | levels + 1, .arr items =>
    items.length ≤ maxCollectionItems + 1 ∧ ∀ item ∈ items, Bounded levels item
  | _, _ => True

/-- The entry states the message: its names, the digest of its content, its tool calls, and what its
content decodes to or else a preview of it. -/
structure EntryOf (candidate entry : List (String × Json)) : Prop where
  keys : (entry.map Prod.fst).Sublist entryKeys
  names : ∀ key ∈ ["message_id", "role", "name", "tool_call_id"],
    entry.lookup key = shown (.str (Json.strOr library.repr "" (candidate.lookup key)))
  content : entry.lookup "content_sha256" = shown (.str (digest library (contentOf candidate)))
  calls : ∀ calls, candidate.lookup "tool_calls" = some (.arr calls) → calls ≠ [] →
    entry.lookup "tool_calls" = some (boundedValue library maxNestingDepth (.arr calls))
  noCalls : (∀ calls, candidate.lookup "tool_calls" = some (.arr calls) → calls = []) →
    entry.lookup "tool_calls" = none
  decoded : ∀ value, decodeJsonObject library (contentOf candidate) = .ok (some value) →
    entry.lookup "result" = shown (boundedValue library maxNestingDepth value) ∧
      entry.lookup "content_preview" = none
  notDecoded : decodeJsonObject library (contentOf candidate) = .ok none →
    entry.lookup "result" = none ∧
      entry.lookup "content_preview" = shown (.str (boundedText library (contentOf candidate)))
  bounded : ∀ key ∈ ["tool_calls", "result", "content_preview"], ∀ value,
    entry.lookup key = some value → Bounded (maxNestingDepth + 1) value

/-! ### What a payload has to state -/

/-- The form of an entry for a choice: with its detail, or with the metadata only. -/
def written (detail : Bool) (entry : List (String × Json)) : List (String × Json) :=
  if detail then entry else entry.filter fun field => field.1 ∈ metadataKeys

/-- The payload without entries, which does not depend on what the contents decode to. -/
def emptyPayload (candidates : List (List (String × Json))) : Payload where
  messageCount := candidates.length
  candidateSetSha256 := digest library (.arr (candidates.map fun candidate =>
    .str (digest library (contentOf candidate))))
  entries := []
  representedEntryCount := 0
  detailEntriesOmitted := 0
  unrepresentedEntryCount := candidates.length

/-- The payload tells the truth about the candidates with these entries when a choice was made for each
of the first ones. -/
structure Truthful (candidates entries : List (List (String × Json))) (details : List Bool)
    (payload : Payload) : Prop where
  messageCount : payload.messageCount = candidates.length
  candidateSet : payload.candidateSetSha256 = (emptyPayload library candidates).candidateSetSha256
  entries : payload.entries = List.zipWith written details entries
  represented : payload.representedEntryCount = payload.entries.length
  all : payload.representedEntryCount + payload.unrepresentedEntryCount = candidates.length
  omitted : payload.detailEntriesOmitted = details.count false

end

section

variable {library : Library} {candidates entries : List (List (String × Json))}
  {candidate entry : List (String × Json)}

/-! ### The entries -/

theorem cut_boundedText (value : Json) : Cut (boundedText library value) := by
  rw [boundedText]
  by_cases short : (Json.strOr library.repr "" (some value)).length ≤ maxEntryTextChars
  · rw [if_pos short]
    exact .inl short
  · rw [if_neg short]
    refine .inr ⟨(Json.strOr library.repr "" (some value)).length - maxEntryTextChars,
      digest library (.str (Json.strOr library.repr "" (some value))), ?_⟩
    have taken : ((Json.strOr library.repr "" (some value)).toList.take maxEntryTextChars).length =
        maxEntryTextChars := by
      rw [List.length_take, String.length_toList]
      omega
    rw [String.toList_append, String.toList_ofList]
    exact List.drop_left' taken

theorem cut_digest (value : Json) : Cut (digest library value) := by
  refine .inl ?_
  simp only [digest, String.length_ofList, List.length_take]
  exact Nat.le_trans (Nat.min_le_left _ _) (by decide)

theorem bounded_boundedValue (levels : Nat) (value : Json) :
    Bounded (levels + 1) (boundedValue library levels value) := by
  induction levels generalizing value with
  | zero =>
    rw [boundedValue, Bounded]
    refine ⟨by simp [maxCollectionItems], ?_⟩
    intro field mem
    simp only [List.mem_cons, List.not_mem_nil, or_false] at mem
    rcases mem with rfl | rfl
    · rfl
    · exact cut_digest value
  | succ levels ih =>
    cases value with
    | null | bool | num => trivial
    | str text => exact cut_boundedText _
    | arr items =>
      have each : ∀ item ∈ (items.take maxCollectionItems).map (boundedValue library levels),
          Bounded (levels + 1) item := by
        intro item mem
        obtain ⟨old, -, rfl⟩ := List.mem_map.mp mem
        exact ih old
      rw [boundedValue]
      split
      · rw [Bounded, List.forall_mem_append]
        refine ⟨?_, each, ?_⟩
        · rw [List.length_append, List.length_map, List.length_take]
          exact Nat.add_le_add_right (Nat.min_le_left _ _) 1
        · intro note isNote
          rw [List.mem_singleton.mp isNote, Bounded]
          exact ⟨Nat.le_add_left _ _, by cases levels <;> exact List.forall_mem_singleton.mpr (by trivial)⟩
      · rw [Bounded, List.length_map, List.length_take]
        exact ⟨Nat.le_trans (Nat.min_le_left _ _) (Nat.le_succ _), each⟩
    | obj fields =>
      have each : ∀ field ∈ (fields.take maxCollectionItems).map fun (key, child) =>
          (key, boundedValue library levels child), Bounded (levels + 1) field.2 := by
        intro field mem
        obtain ⟨old, -, rfl⟩ := List.mem_map.mp mem
        exact ih old.2
      rw [boundedValue]
      split
      · rw [Bounded]
        refine ⟨?_, forall_mem_dictSet each _ trivial⟩
        rw [dictSet]
        split
        · rw [List.length_map, List.length_map, List.length_take]
          exact Nat.le_trans (Nat.min_le_left _ _) (Nat.le_succ _)
        · rw [List.length_append, List.length_map, List.length_take]
          exact Nat.add_le_add_right (Nat.min_le_left _ _) 1
      · rw [Bounded, List.length_map, List.length_take]
        exact ⟨Nat.le_trans (Nat.min_le_left _ _) (Nat.le_succ _), each⟩

/-- The fields of an entry before those with a blank value are left out. -/
def entryTable (library : Library) (candidate : List (String × Json)) (decoded : Option Json) :
    List (String × Json) :=
  let calls := match candidate.lookup "tool_calls" with
    | some (.arr (call :: calls)) => boundedValue library maxNestingDepth (.arr (call :: calls))
    | _ => .null
  [("message_id", .str (Json.strOr library.repr "" (candidate.lookup "message_id"))),
    ("role", .str (Json.strOr library.repr "" (candidate.lookup "role"))),
    ("name", .str (Json.strOr library.repr "" (candidate.lookup "name"))),
    ("tool_call_id", .str (Json.strOr library.repr "" (candidate.lookup "tool_call_id"))),
    ("content_sha256", .str (digest library (contentOf candidate)))] ++ [("tool_calls", calls)] ++
  [("result", (decoded.map (boundedValue library maxNestingDepth)).getD .null),
    ("content_preview",
      if decoded.isSome then .null else .str (boundedText library (contentOf candidate)))]

theorem keys_entryTable (decoded : Option Json) :
    (entryTable library candidate decoded).map Prod.fst = entryKeys := rfl

theorem candidateEntry_eq : candidateEntry library candidate =
    (decodeJsonObject library (contentOf candidate)).map fun decoded =>
      (entryTable library candidate decoded).filter fun field => !isBlank field.2 := by
  rw [candidateEntry]
  cases decodeJsonObject library (contentOf candidate) with
  | error message => rfl
  | ok decoded =>
    refine congrArg Except.ok ?_
    simp only [entryTable, List.filter_append]
    congr 1
    · congr 1
      split
      · rfl
      · rfl
    · cases decoded with
      | some decoded =>
        dsimp only [Option.map_some, Option.getD_some, Option.isSome_some]
        rw [List.filter_cons, List.filter_cons]
        rfl
      | none =>
        dsimp only [Option.map_none, Option.getD_none, Option.isSome_none]
        split
        · rename_i isEmpty
          rcases isEmpty with isNull | isEmpty
          · rw [isNull]
            rfl
          · rw [isEmpty]
            rfl
        · rfl

theorem lookup_entry {decoded : Option Json} (key : String) :
    ((entryTable library candidate decoded).filter fun field => !isBlank field.2).lookup key =
      ((entryTable library candidate decoded).lookup key).bind shown := by
  have nodup : ((entryTable library candidate decoded).map Prod.fst).Nodup := by
    rw [keys_entryTable]
    decide
  rw [lookup_filter nodup]
  cases (entryTable library candidate decoded).lookup key <;> rfl

theorem notBlank_boundedValue (call : Json) (calls : List Json) :
    (!isBlank (boundedValue library maxNestingDepth (.arr (call :: calls)))) = true := by
  rw [maxNestingDepth, boundedValue]
  split <;> rfl

theorem bounded_entryTable {decoded : Option Json} {key : String}
    (mem : key ∈ ["tool_calls", "result", "content_preview"]) {value : Json}
    (found : (entryTable library candidate decoded).lookup key = some value) :
    Bounded (maxNestingDepth + 1) value := by
  simp only [List.mem_cons, List.not_mem_nil, or_false] at mem
  rcases mem with rfl | rfl | rfl
  · cases found
    split
    · exact bounded_boundedValue _ _
    · trivial
  · cases found
    cases decoded with
    | some decoded => exact bounded_boundedValue _ _
    | none => trivial
  · cases found
    cases decoded with
    | some decoded => trivial
    | none => exact cut_boundedText _

theorem entryOf_table {decoded : Option Json}
    (isDecoded : decodeJsonObject library (contentOf candidate) = .ok decoded) :
    EntryOf library candidate
      ((entryTable library candidate decoded).filter fun field => !isBlank field.2) where
  keys := by
    rw [← @keys_entryTable library candidate decoded]
    exact List.filter_sublist.map Prod.fst
  names := by
    intro key mem
    rw [lookup_entry]
    simp only [List.mem_cons, List.not_mem_nil, or_false] at mem
    rcases mem with rfl | rfl | rfl | rfl <;> rfl
  content := by
    rw [lookup_entry]
    rfl
  calls := by
    intro calls found some
    rw [lookup_entry]
    obtain ⟨call, calls, rfl⟩ := List.exists_cons_of_ne_nil some
    have isCalls : (entryTable library candidate decoded).lookup "tool_calls" =
        .some (boundedValue library maxNestingDepth (.arr (call :: calls))) := by
      rw [entryTable, found]
      rfl
    rw [isCalls, Option.bind_some, shown, Option.filter_some, if_pos (notBlank_boundedValue call calls)]
  noCalls := by
    intro none
    rw [lookup_entry]
    have isCalls : (entryTable library candidate decoded).lookup "tool_calls" = some .null := by
      rw [entryTable]
      split
      · rename_i found
        cases none _ found
      · rfl
    rw [isCalls]
    rfl
  decoded := by
    intro value isValue
    rw [isDecoded] at isValue
    cases isValue
    rw [lookup_entry, lookup_entry]
    exact ⟨rfl, rfl⟩
  notDecoded := by
    intro notValue
    rw [isDecoded] at notValue
    cases notValue
    rw [lookup_entry, lookup_entry]
    exact ⟨rfl, rfl⟩
  bounded := by
    intro key mem value found
    rw [lookup_entry] at found
    obtain ⟨whole, isWhole, isShown⟩ := Option.bind_eq_some_iff.mp found
    rw [(Option.some.inj (Option.filter_eq_some_iff.mp isShown).1)] at isWhole
    exact bounded_entryTable mem isWhole

theorem candidateEntry_eq_ok : candidateEntry library candidate = .ok entry ↔
    ∃ decoded, decodeJsonObject library (contentOf candidate) = .ok decoded ∧
      (entryTable library candidate decoded).filter (fun field => !isBlank field.2) = entry := by
  rw [candidateEntry_eq, map_eq_ok]

theorem entryOf_candidateEntry (isEntry : candidateEntry library candidate = .ok entry) :
    EntryOf library candidate entry := by
  obtain ⟨decoded, isDecoded, rfl⟩ := candidateEntry_eq_ok.mp isEntry
  exact entryOf_table isDecoded

theorem filterMap_lookup {p : String → Bool} {keys : List String} (nodup : keys.Nodup)
    (inOrder : (entry.map Prod.fst).Sublist keys) :
    (keys.filter p).filterMap (fun key => (entry.lookup key).map fun value => (key, value)) =
      entry.filter fun field => p field.1 := by
  induction keys generalizing entry with
  | nil =>
    rw [List.map_eq_nil_iff.mp (List.sublist_nil.mp inOrder)]
    rfl
  | cons key keys ih =>
    obtain ⟨fresh, unique⟩ := List.nodup_cons.mp nodup
    rcases List.sublist_cons_iff.mp inOrder with later | ⟨names, isNames, later⟩
    · have absent : entry.lookup key = none := by
        rw [List.lookup_eq_none_iff]
        intro field mem
        rw [bne_iff_ne]
        rintro rfl
        exact fresh (later.subset (List.mem_map_of_mem mem))
      rw [← ih unique later, List.filter_cons]
      split
      · rw [List.filterMap_cons, absent]
        rfl
      · rfl
    · -- the entry begins with the key
      obtain ⟨⟨name, value⟩, rest, rfl, isName, rfl⟩ := List.map_eq_cons_iff.mp isNames
      obtain rfl : name = key := isName
      have others : (keys.filter p).filterMap (fun other =>
          (((name, value) :: rest).lookup other).map fun value => (other, value)) =
          rest.filter fun field => p field.1 := by
        rw [← ih unique later]
        refine List.filterMap_congr ?_
        intro other mem
        have ne : (other == name) = false := by
          rw [beq_eq_false_iff_ne]
          rintro rfl
          exact fresh (List.mem_of_mem_filter mem)
        rw [List.lookup_cons, ne]
      rw [List.filter_cons, List.filter_cons]
      cases p name with
      | true =>
        rw [if_pos rfl, if_pos rfl, List.filterMap_cons, List.lookup_cons_self, others]
        rfl
      | false => exact others

theorem metadataOnlyEntry_eq (isEntry : EntryOf library candidate entry) :
    metadataOnlyEntry entry = written false entry := by
  have first : metadataKeys = entryKeys.filter fun key => key ∈ metadataKeys := by decide
  rw [metadataOnlyEntry, first, filterMap_lookup (by decide) isEntry.keys]
  rfl

theorem getD_shown (text : String) : (shown (.str text)).getD (.str "") = .str text := by
  rw [shown, Option.filter_some]
  split
  · rfl
  · rename_i blank
    have empty : text = "" := by simpa [isBlank] using blank
    rw [empty]
    rfl

theorem startPayload_eq (isEntries : List.Forall₂ (EntryOf library) candidates entries) :
    startPayload library candidates entries = emptyPayload library candidates := by
  have digests : entries.map (fun entry => (entry.lookup "content_sha256").getD (.str "")) =
      candidates.map fun candidate => .str (digest library (contentOf candidate)) := by
    induction isEntries with
    | nil => rfl
    | cons isEntry later ih =>
      rw [List.map_cons, List.map_cons, ih, isEntry.content, getD_shown]
  rw [startPayload, emptyPayload, digests, isEntries.length_eq]

/-! ### Truthful payloads -/

variable {details : List Bool} {payload : Payload}

theorem truthful_empty : Truthful library candidates entries [] (emptyPayload library candidates) where
  messageCount := rfl
  candidateSet := rfl
  entries := by rw [List.zipWith_nil_left]; rfl
  represented := rfl
  all := Nat.zero_add _
  omitted := rfl

theorem Truthful.unique {payload' : Payload}
    (truthful : Truthful library candidates entries details payload)
    (truthful' : Truthful library candidates entries details payload') : payload = payload' := by
  have entries := truthful.entries.trans truthful'.entries.symm
  have lengths := congrArg List.length entries
  have represented := truthful.represented
  have represented' := truthful'.represented
  have all := truthful.all
  have all' := truthful'.all
  have omitted := truthful.omitted.trans truthful'.omitted.symm
  have counts := truthful.messageCount.trans truthful'.messageCount.symm
  have sets := truthful.candidateSet.trans truthful'.candidateSet.symm
  cases payload
  cases payload'
  simp only at entries lengths represented represented' all all' omitted counts sets
  simp only [Payload.mk.injEq]
  refine ⟨counts, sets, entries, ?_, omitted, ?_⟩ <;> omega

theorem zipWith_concat {α β γ : Type*} {f : α → β → γ} {as : List α} {bs : List β} {b : β}
    (next : bs[as.length]? = some b) (a : α) :
    List.zipWith f (as ++ [a]) bs = List.zipWith f as bs ++ [f a b] := by
  induction as generalizing bs with
  | nil =>
    obtain ⟨rest, rfl⟩ : ∃ rest, bs = b :: rest := by
      cases bs with
      | nil => cases next
      | cons first rest => exact ⟨rest, by rw [Option.some.inj next]⟩
    rfl
  | cons first as ih =>
    cases bs with
    | nil => cases next
    | cons other bs =>
      rw [List.length_cons, List.getElem?_cons_succ] at next
      rw [List.cons_append, List.zipWith_cons_cons, ih next, List.zipWith_cons_cons, List.cons_append]

theorem Truthful.trial (truthful : Truthful library candidates entries details payload)
    (lengths : candidates.length = entries.length) (next : entries[details.length]? = some entry)
    (detail : Bool) :
    Truthful library candidates entries (details ++ [detail])
      (trial payload (written detail entry) (!detail) entries.length) := by
  have inside : details.length < entries.length := (List.getElem?_eq_some_iff.mp next).1
  have isEntries := zipWith_concat (f := written) next detail
  rw [← truthful.entries] at isEntries
  have length : (payload.entries ++ [written detail entry]).length = details.length + 1 := by
    rw [← isEntries, List.length_zipWith, List.length_append, List.length_singleton]
    omega
  constructor
  · exact truthful.messageCount
  · exact truthful.candidateSet
  · exact isEntries.symm
  · rfl
  · simp only [Providers.trial, length]
    omega
  · simp only [Providers.trial, List.count_append, truthful.omitted]
    cases detail <;> rfl

/-! ### The size of the text -/

/-- The line in front of the payload. -/
def replacementLine : String := "[Tool Context Replacement]" ++ "\n"

theorem length_formatPayload (payload : Payload) :
    (formatPayload payload).length =
      replacementLine.length + (dumpsSorted (.obj payload.fields)).length := by
  have text : formatPayload payload =
      replacementLine ++ String.ofList (dumpsSorted (.obj payload.fields)) := rfl
  rw [text, String.length_append, String.length_ofList]

/-- A larger counter does not make the text shorter. -/
theorem length_formatPayload_omitted (payload : Payload) {n m : Nat} (le : n ≤ m) :
    (formatPayload { payload with detailEntriesOmitted := n }).length ≤
      (formatPayload { payload with detailEntriesOmitted := m }).length := by
  have digits : n.repr.length ≤ m.repr.length := by
    refine (Nat.length_repr_le_iff (Nat.length_repr_pos)).mpr ?_
    exact Nat.lt_of_le_of_lt le ((Nat.length_repr_le_iff (Nat.length_repr_pos)).mp (Nat.le_refl _))
  rw [length_formatPayload, length_formatPayload, length_dumpsSorted_obj, length_dumpsSorted_obj]
  apply Nat.add_le_add_left
  simp only [Payload.fields, List.map_cons, List.map_nil, List.sum_cons, List.sum_nil,
    List.length_cons, List.length_nil, entryLength, Json.nat, Json.sortKeys, dumpsCompact, dumpsWith,
    String.length_toList]
  omega

/-! ### The loop -/

theorem appendEntryWithinBudget_eq_some {total : Nat} {maxChars : Int} {next : Payload}
    (isEntry : EntryOf library candidate entry)
    (appended : appendEntryWithinBudget payload entry total maxChars = some next) :
    ∃ detail, next = trial payload (written detail entry) (!detail) total ∧
      (formatPayload next).length ≤ maxChars ∧ (detail = false → written false entry ≠ entry) := by
  rw [appendEntryWithinBudget, metadataOnlyEntry_eq isEntry] at appended
  by_cases fullFits : ((formatPayload (trial payload entry false total)).length : Int) ≤ maxChars
  · rw [if_pos fullFits] at appended
    cases appended
    exact ⟨true, rfl, fullFits, nofun⟩
  · rw [if_neg fullFits] at appended
    by_cases fits : ((formatPayload (trial payload (written false entry) true total)).length : Int) ≤
        maxChars
    · rw [if_pos fits] at appended
      cases appended
      refine ⟨false, rfl, fits, ?_⟩
      intro _ same
      have shorter := length_formatPayload_omitted (trial payload entry false total)
        (Nat.le_add_right payload.detailEntriesOmitted 1)
      rw [same] at fits
      have fewer : ((formatPayload (trial payload entry false total)).length : Int) ≤
          (formatPayload (trial payload entry true total)).length := Int.ofNat_le.mpr shorter
      omega
    · rw [if_neg fits] at appended
      cases appended

theorem appendEntryWithinBudget_eq_none {total : Nat} {maxChars : Int}
    (isEntry : EntryOf library candidate entry)
    (refused : appendEntryWithinBudget payload entry total maxChars = none) (detail : Bool) :
    maxChars < (formatPayload (trial payload (written detail entry) (!detail) total)).length := by
  rw [appendEntryWithinBudget, metadataOnlyEntry_eq isEntry] at refused
  by_cases fullFits : ((formatPayload (trial payload entry false total)).length : Int) ≤ maxChars
  · rw [if_pos fullFits] at refused
    cases refused
  · rw [if_neg fullFits] at refused
    by_cases fits : ((formatPayload (trial payload (written false entry) true total)).length : Int) ≤
        maxChars
    · rw [if_pos fits] at refused
      cases refused
    · cases detail with
      | true => exact Int.not_le.mp fullFits
      | false => exact Int.not_le.mp fits

/-- The choices up to a payload are right: the payload fits and tells the truth, and each entry without
detail has some. -/
structure Chosen (library : Library) (candidates entries : List (List (String × Json))) (maxChars : Int)
    (details : List Bool) (payload : Payload) : Prop where
  within : details.length ≤ candidates.length
  truthful : Truthful library candidates entries details payload
  fits : (formatPayload payload).length ≤ maxChars
  detailed : ∀ (i : Nat) (entry : List (String × Json)), details[i]? = some false →
    entries[i]? = some entry → written false entry ≠ entry

/-- The next candidate fits neither way. -/
def Maximal (library : Library) (candidates entries : List (List (String × Json))) (maxChars : Int)
    (details : List Bool) : Prop :=
  details.length < candidates.length → ∀ (detail : Bool) (payload : Payload),
    Truthful library candidates entries (details ++ [detail]) payload →
      maxChars < (formatPayload payload).length

theorem Chosen.concat {maxChars : Int} {payload' : Payload}
    (chosen : Chosen library candidates entries maxChars details payload)
    (lengths : candidates.length = entries.length) (next : entries[details.length]? = some entry)
    (isEntry : EntryOf library candidate entry)
    (appended : appendEntryWithinBudget payload entry entries.length maxChars = some payload') :
    ∃ detail, Chosen library candidates entries maxChars (details ++ [detail]) payload' := by
  obtain ⟨detail, rfl, fits, bare⟩ := appendEntryWithinBudget_eq_some isEntry appended
  refine ⟨detail, ?_, chosen.truthful.trial lengths next detail, fits, ?_⟩
  · have inside : details.length < entries.length := (List.getElem?_eq_some_iff.mp next).1
    rw [List.length_append, List.length_singleton]
    omega
  · intro i other flag here
    rcases Nat.lt_trichotomy i details.length with earlier | same | later
    · rw [List.getElem?_append_left earlier] at flag
      exact chosen.detailed i other flag here
    · subst same
      rw [List.getElem?_concat_length] at flag
      rw [next] at here
      cases here
      exact bare (Option.some.inj flag)
    · rw [List.getElem?_eq_none (by rw [List.length_append, List.length_singleton]; omega)] at flag
      cases flag

theorem Chosen.appendEntries {maxChars : Int} {rest : List (List (String × Json))}
    (chosen : Chosen library candidates entries maxChars details payload)
    (isEntries : List.Forall₂ (EntryOf library) candidates entries)
    (left : entries.drop details.length = rest) :
    ∃ details', Chosen library candidates entries maxChars details'
        (appendEntries entries.length maxChars payload rest) ∧
      Maximal library candidates entries maxChars details' := by
  induction rest generalizing details payload with
  | nil =>
    refine ⟨details, chosen, ?_⟩
    intro more
    have none := List.drop_eq_nil_iff.mp left
    have lengths := isEntries.length_eq
    omega
  | cons entry rest ih =>
    have next : entries[details.length]? = some entry := by
      rw [← List.head?_drop, left]
      rfl
    obtain ⟨inside, isNext⟩ := List.getElem?_eq_some_iff.mp next
    have isEntry := isEntries.get (isEntries.length_eq ▸ inside) inside
    rw [List.get_eq_getElem, List.get_eq_getElem, isNext] at isEntry
    rw [Providers.appendEntries]
    cases appended : appendEntryWithinBudget payload entry entries.length maxChars with
    | some payload' =>
      obtain ⟨detail, chosen'⟩ := chosen.concat isEntries.length_eq next isEntry appended
      refine ih chosen' ?_
      rw [List.length_append, List.length_singleton, ← List.drop_drop, left]
      rfl
    | none =>
      refine ⟨details, chosen, ?_⟩
      intro _ detail trial truthful
      rw [truthful.unique (chosen.truthful.trial isEntries.length_eq next detail)]
      exact appendEntryWithinBudget_eq_none isEntry appended detail

/-! ### Contents that raise -/

/-- `json.loads` comes to an integer in the content that has too many digits. -/
def Overlong (candidate : List (String × Json)) : Prop :=
  ∃ text count, contentOf candidate = .str text ∧ obstacle text.toList = some (.digits count)

/-- `json.loads` does not come to an escape for a lone surrogate in the content. -/
def NoSurrogate (candidate : List (String × Json)) : Prop :=
  ∀ text, contentOf candidate = .str text → obstacle text.toList ≠ some .surrogate

theorem decodeJsonObject_overlong (overlong : Overlong candidate) :
    ∃ message, decodeJsonObject library (contentOf candidate) = .error message := by
  obtain ⟨text, count, isText, isObstacle⟩ := overlong
  rw [isText, decodeJsonObject, isObstacle]
  exact ⟨_, rfl⟩

theorem decodeJsonObject_ok (noSurrogate : NoSurrogate candidate) (short : ¬ Overlong candidate) :
    ∃ decoded, decodeJsonObject library (contentOf candidate) = .ok decoded := by
  cases isContent : contentOf candidate with
  | str text =>
    rw [decodeJsonObject]
    cases isObstacle : obstacle text.toList with
    | none => exact ⟨_, rfl⟩
    | some stops =>
      cases stops with
      | digits count => exact absurd ⟨text, count, isContent, isObstacle⟩ short
      | surrogate => exact absurd isObstacle (noSurrogate text isContent)
  | null | bool | num | arr | obj => exact ⟨_, rfl⟩

theorem mapM_overlong (mem : candidate ∈ candidates) (overlong : Overlong candidate) :
    ∃ message, candidates.mapM (candidateEntry library) = .error message := by
  cases ran : candidates.mapM (candidateEntry library) with
  | error message => exact ⟨message, rfl⟩
  | ok entries =>
    obtain ⟨entry, isEntry⟩ := ok_of_mapM ran mem
    obtain ⟨decoded, isDecoded, -⟩ := candidateEntry_eq_ok.mp isEntry
    obtain ⟨message, raised⟩ := @decodeJsonObject_overlong library _ overlong
    rw [isDecoded] at raised
    cases raised

theorem mapM_candidateEntry (noSurrogate : ∀ candidate ∈ candidates, NoSurrogate candidate)
    (short : ∀ candidate ∈ candidates, ¬ Overlong candidate) :
    ∃ entries, candidates.mapM (candidateEntry library) = .ok entries := by
  induction candidates with
  | nil => exact ⟨[], rfl⟩
  | cons candidate candidates ih =>
    obtain ⟨firstNone, laterNone⟩ := List.forall_mem_cons.mp noSurrogate
    obtain ⟨firstShort, laterShort⟩ := List.forall_mem_cons.mp short
    obtain ⟨entries, later⟩ := ih laterNone laterShort
    obtain ⟨decoded, isDecoded⟩ := @decodeJsonObject_ok library _ firstNone firstShort
    obtain ⟨entry, first⟩ : ∃ entry, candidateEntry library candidate = .ok entry :=
      ⟨_, candidateEntry_eq_ok.mpr ⟨decoded, isDecoded, rfl⟩⟩
    refine ⟨entry :: entries, ?_⟩
    rw [List.mapM_cons, first, later]
    rfl

/-! ### The replacement -/

/-- The outcome is an error exactly when the payload without entries does not fit.  A text is that of a
payload with a choice for each candidate of a beginning of the list, which fits and tells the truth; the
next candidate fits neither with its detail nor without. -/
structure FitsAndTells (library : Library) (candidates : List (List (String × Json))) (maxChars : Int)
    (outcome : Except String String) : Prop where
  raises : (∃ message, outcome = .error message) ↔
    maxChars < (formatPayload (emptyPayload library candidates)).length
  tells : ∀ text, outcome = .ok text → ∃ entries details payload,
    List.Forall₂ (EntryOf library) candidates entries ∧ text = formatPayload payload ∧
      Chosen library candidates entries maxChars details payload ∧
      Maximal library candidates entries maxChars details

theorem buildToolContextReplacement_fits {maxChars : Int}
    (noSurrogate : ∀ candidate ∈ candidates, NoSurrogate candidate)
    (short : ∀ candidate ∈ candidates, ¬ Overlong candidate) :
    FitsAndTells library candidates maxChars (buildToolContextReplacement library candidates maxChars) := by
  obtain ⟨entries, ran⟩ := @mapM_candidateEntry library _ noSurrogate short
  have isEntries : List.Forall₂ (EntryOf library) candidates entries :=
    (forall₂_of_mapM ran).imp fun _ _ => entryOf_candidateEntry
  rw [buildToolContextReplacement, ran]
  dsimp only [bind, Except.bind]
  rw [startPayload_eq isEntries, require]
  by_cases fits : ((formatPayload (emptyPayload library candidates)).length : Int) ≤ maxChars
  · rw [if_pos fits]
    constructor
    · constructor
      · rintro ⟨message, failed⟩
        cases failed
      · intro exceeds
        omega
    · intro text built
      cases built
      have start : Chosen library candidates entries maxChars [] (emptyPayload library candidates) :=
        ⟨Nat.zero_le _, truthful_empty, fits, by intro i entry flag; cases flag⟩
      obtain ⟨details, chosen, maximal⟩ := start.appendEntries isEntries rfl
      exact ⟨entries, details, _, isEntries, rfl, chosen, maximal⟩
  · rw [if_neg fits]
    constructor
    · exact ⟨fun _ => Int.not_le.mp fits, fun _ => ⟨_, rfl⟩⟩
    · intro text built
      cases built

/-- The digests of the texts below; floats are written as they are read. -/
def sampleLibrary : Library where
  repr _ := ""
  sha256 text :=
    if text.length = 15 then "44f7b576a804f451aa89e4c2d3c04b2cac8fcebc23470b102b60da5383492fc3"
    else if text.length = 4 then "a4c3ed04a95a3da14a9d235c83d868bed7c0f45cf7f3faa751ee8f50598d2211"
    else if text.length = 4301 then "8afececf38e8946df9cff0bb388b1f2909aaa9f595a91450a1c0d69407c3ec36"
    else if text.length = 20 then "d5c1da26f26d97797254aec335a38cac3b5c59530877730179bf20b47d8ba525"
    else "ce4c650c6f696f0171720945ef977e0fb0004fe08f6278b0e7b44c17fb6f9dae"
  floatText n := n
  surrogates _ := .ok none

/-- The result of a tool that printed a long number. -/
def longNumber : List (String × Json) :=
  [("role", .str "tool"), ("content", .str (String.ofList (List.replicate 4301 '1')))]

theorem overlong_longNumber : Overlong longNumber := by
  refine ⟨String.ofList (List.replicate 4301 '1'), 4301, rfl, ?_⟩
  have digits : ∀ c ∈ List.replicate 4301 '1', c.isDigit = true := by
    intro c mem
    rw [(List.mem_replicate.mp mem).2]
    rfl
  have isObstacle := obstacle_digits digits (by rw [List.head?_replicate]; decide)
    (by rw [List.length_replicate]; decide)
  rw [String.toList_ofList, isObstacle, List.length_replicate]

theorem fits_longNumber : (formatPayload (emptyPayload sampleLibrary [longNumber])).length = 239 := by
  have long : (String.ofList (List.replicate 4301 '1')).length = 4301 := by
    rw [String.length_ofList, List.length_replicate]
  have isText : contentOf longNumber = .str (String.ofList (List.replicate 4301 '1')) := rfl
  have isContent : digest sampleLibrary (contentOf longNumber) = "8afececf38e8946d" := by
    rw [isText, digest]
    dsimp only [sampleLibrary]
    rw [long]
    decide +kernel
  have isSet : digest sampleLibrary (.arr [.str "8afececf38e8946d"]) = "d5c1da26f26d9779" := by
    decide +kernel
  rw [emptyPayload, List.map_singleton, isContent, isSet]
  decide +kernel

/-- The results of two tools. -/
def twoResults : List (List (String × Json)) :=
  [[("role", .str "tool"), ("name", .str "stat"), ("content", .str "\x7b\"a\": [1, 2.5]\x7d")],
    [("role", .str "tool"), ("content", .str "done")]]

end
end AgentPark.Providers
