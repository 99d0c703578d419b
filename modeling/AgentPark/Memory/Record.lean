import AgentPark.Lib.JsonText
import AgentPark.Lib.Lines
import AgentPark.Memory.Part

/-!
# The records of a node's memory

`build_node_memory_record` turns a message into the record that is stored, and a line of
`messages.jsonl` holds one record.  `Record` carries what the builder guarantees, so that building a
record from its own dictionary gives it back.
-/

namespace AgentPark.Memory

open Lib

/-- A value that is passed as a message; its dictionaries have distinct keys. -/
structure Message where
  json : Json
  unique : json.UniqueKeys

/-- A record of a node's memory.  `traceId` is empty when the record has no `trace_id`. -/
structure Record where
  id : String
  role : String
  parts : List Part
  createdAt : String
  traceId : String := ""
  id_ne : id ≠ ""
  role_ne : role ≠ ""
  role_normal : pyLower (pyStrip role) = role
  createdAt_ne : createdAt ≠ ""
  traceId_stripped : pyStrip traceId = traceId
deriving DecidableEq

/-! ### Building a record -/

/-- `[_normalize_part(item) for item in items]`. -/
def normalizeItems (a : Ambient) (items : List Json) : List Json :=
  items.mapIdx fun i item => normalizePart (a.at i) item

/-- The parts `normalize_envelope` gives a message. -/
def envelopeParts (a : Ambient) (value : Json) : List Json :=
  match value with
  | .obj fields =>
    let value := Json.obj fields
    match value.get "parts" with
    | some (.arr items) => normalizeItems a items
    | parts =>
      if (value.get "type").isSome && parts.isNone then [normalizePart (a.at 0) value]
      else if ["text", "resource", "uri", "data"].any fun key => (value.get key).isSome then
        [normalizePart (a.at 0) value]
      else
        match value.get "content" with
        | some (.arr items) => normalizeItems a items
        | content => [buildTextPart a content]
  | .arr items => normalizeItems a items
  | value => [buildTextPart a (some value)]

/-- `str(text).strip().lower() or default`. -/
def normalRole (text default : String) : String :=
  let role := pyLower (pyStrip text)
  if role = "" then default else role

theorem normalRole_normal {default : String} (normal : pyLower (pyStrip default) = default)
    (text : String) : pyLower (pyStrip (normalRole text default)) = normalRole text default := by
  simp only [normalRole]
  split_ifs
  · exact normal
  · rw [pyStrip_pyLower, pyStrip_pyStrip, pyLower_pyLower]

theorem normalRole_ne {default : String} (notEmpty : default ≠ "") (text : String) :
    normalRole text default ≠ "" := by
  simp only [normalRole]
  split_ifs with empty
  · exact notEmpty
  · exact empty

theorem normalRole_of_normal {role : String} (normal : pyLower (pyStrip role) = role)
    (notEmpty : role ≠ "") (default : String) : normalRole role default = role := by
  rw [normalRole, normal, if_neg notEmpty]

theorem normalizeItems_normal (a : Ambient) {items : List Json}
    (unique : ∀ item ∈ items, item.UniqueKeys) :
    ∀ part ∈ normalizeItems a items, part.UniqueKeys ∧ ∀ b, normalizePart b part = part := by
  intro part mem
  obtain ⟨i, inside, rfl⟩ := List.mem_mapIdx.mp mem
  exact ⟨uniqueKeys_normalizePart _ (unique _ (List.getElem_mem inside)),
    fun b => normalizePart_normalizePart _ b _⟩

theorem buildTextPart_normal (a : Ambient) (value : Option Json) :
    ∀ part ∈ [buildTextPart a value], part.UniqueKeys ∧ ∀ b, normalizePart b part = part := by
  rintro part mem
  rw [List.mem_singleton.mp mem]
  exact ⟨uniqueKeys_buildTextPart a value, fun b => normalizePart_buildTextPart a b value⟩

theorem envelopeParts_normal (a : Ambient) {value : Json} (unique : value.UniqueKeys) :
    ∀ part ∈ envelopeParts a value, part.UniqueKeys ∧ ∀ b, normalizePart b part = part := by
  have itself : ∀ part ∈ [normalizePart (a.at 0) value],
      part.UniqueKeys ∧ ∀ b, normalizePart b part = part := by
    rintro part mem
    rw [List.mem_singleton.mp mem]
    exact ⟨uniqueKeys_normalizePart _ unique, fun b => normalizePart_normalizePart _ b _⟩
  unfold envelopeParts
  split
  · dsimp only
    split
    · rename_i found
      exact normalizeItems_normal a (Json.uniqueKeys_arr.mp (unique.of_get found))
    · split_ifs
      · exact itself
      · exact itself
      · split
        · rename_i found
          exact normalizeItems_normal a (Json.uniqueKeys_arr.mp (unique.of_get found))
        · exact buildTextPart_normal a _
  · exact normalizeItems_normal a (Json.uniqueKeys_arr.mp unique)
  · exact buildTextPart_normal a _

/-- The envelope `normalize_envelope` returns. -/
structure Envelope where
  id : String
  role : String
  parts : List Part
  createdAt : String
  traceId : String

/-- `normalize_envelope`.  A message that is no dictionary has no fields, so that every field takes
its default. -/
def normalizeEnvelope (a : Ambient) (message : Message) (defaultRole : String) : Envelope :=
  let role := normalRole (if defaultRole = "" then "user" else defaultRole) "user"
  { id := Json.strOr a.repr (a.uuid []) (message.json.get "id")
    role := normalRole (Json.strOr a.repr role (message.json.get "role")) role
    parts := (envelopeParts a message.json).pmap (fun json normal => ⟨json, normal.1, normal.2⟩)
      (envelopeParts_normal a message.unique)
    createdAt := Json.strOr a.repr a.now (message.json.get "created_at")
    traceId := stripped a (message.json.get "trace_id") }

/-- `build_node_memory_record`. -/
def buildNodeMemoryRecord (a : Ambient) (role : String) (message : Message) : Record :=
  let envelope := normalizeEnvelope a message (if role = "" then "assistant" else role)
  { id := envelope.id
    role := normalRole (if role = "" then envelope.role else role) "assistant"
    parts := envelope.parts
    createdAt := envelope.createdAt
    traceId := envelope.traceId
    id_ne := a.strOr_ne (a.uuid_ne []) _
    role_ne := normalRole_ne (by decide) _
    role_normal := normalRole_normal (by decide) _
    createdAt_ne := a.strOr_ne a.now_ne _
    traceId_stripped := pyStrip_stripped a _ }

/-- The dictionary of a record, in the order its keys are set. -/
def Record.toJson (r : Record) : Json :=
  .obj ([("id", .str r.id), ("role", .str r.role), ("parts", .arr (r.parts.map Part.json)),
    ("created_at", .str r.createdAt)] ++
    entry "trace_id" (if r.traceId = "" then none else some (.str r.traceId)))

theorem Record.uniqueKeys_toJson (r : Record) : r.toJson.UniqueKeys := by
  refine Json.uniqueKeys_obj.mpr ⟨?_, ?_⟩
  · split_ifs
    all_goals simp [entry]
  · simp only [List.forall_mem_append, List.forall_mem_cons]
    refine ⟨⟨trivial, trivial, Json.uniqueKeys_arr.mpr ?_, trivial, by simp⟩,
      uniqueKeys_entry fun v stored => ?_⟩
    · intro json mem
      obtain ⟨part, -, rfl⟩ := List.mem_map.mp mem
      exact part.unique
    · split_ifs at stored
      cases stored
      trivial

/-- The dictionary of a record, as a message. -/
def Record.toMessage (r : Record) : Message := ⟨r.toJson, r.uniqueKeys_toJson⟩

section Fields

variable (r : Record)

@[simp] theorem Record.get_id_toJson : r.toJson.get "id" = some (.str r.id) := rfl
@[simp] theorem Record.get_role_toJson : r.toJson.get "role" = some (.str r.role) := rfl
@[simp] theorem Record.get_parts_toJson :
    r.toJson.get "parts" = some (.arr (r.parts.map Part.json)) := rfl
@[simp] theorem Record.get_created_at_toJson :
    r.toJson.get "created_at" = some (.str r.createdAt) := rfl
@[simp] theorem Record.get_trace_id_toJson :
    r.toJson.get "trace_id" = if r.traceId = "" then none else some (.str r.traceId) := by
  simp [Record.toJson, Json.get, List.lookup_cons]

end Fields

theorem Part.json_injective : Function.Injective Part.json := by
  rintro ⟨p, _, _⟩ ⟨q, _, _⟩ ⟨⟩
  rfl

theorem Record.envelopeParts_toJson (a : Ambient) (r : Record) :
    envelopeParts a r.toJson = r.parts.map Part.json := by
  have parts := r.get_parts_toJson
  have items : normalizeItems a (r.parts.map Part.json) = r.parts.map Part.json := by
    apply List.ext_getElem (by simp [normalizeItems])
    intro i _ inside
    rw [List.length_map] at inside
    have normal := (r.parts[i]).normal (a.at i)
    simpa [normalizeItems] using normal
  rw [Record.toJson] at parts ⊢
  simp only [envelopeParts, parts, items]

theorem Record.build_toMessage (a : Ambient) (r : Record) :
    buildNodeMemoryRecord a r.role r.toMessage = r := by
  have parts : (normalizeEnvelope a r.toMessage r.role).parts = r.parts := by
    apply Part.json_injective.list_map
    rw [normalizeEnvelope, List.map_pmap, List.pmap_eq_map, List.map_id']
    exact r.envelopeParts_toJson a
  have traceId : stripped a (r.toJson.get "trace_id") = r.traceId := by
    rw [r.get_trace_id_toJson]
    split_ifs with empty
    · rw [stripped_none, empty]
    · rw [stripped_str, r.traceId_stripped]
  have role : normalRole r.role "assistant" = r.role :=
    normalRole_of_normal r.role_normal r.role_ne _
  rw [buildNodeMemoryRecord]
  simp only [if_neg r.role_ne, parts, role]
  simp only [normalizeEnvelope, Record.toMessage, r.get_id_toJson, r.get_created_at_toJson,
    strOr_str a.repr _ r.id_ne, strOr_str a.repr _ r.createdAt_ne, traceId]

/-! ### Reading and writing lines -/

/-- The errors of reading a file of records, with the line they name. -/
inductive ReadError where
  | invalidJson (line : Int)
  | notObject (line : Int)
  | invalidUtf8
deriving DecidableEq

/-- `json.dumps(record, ensure_ascii=False)`. -/
def Record.line (r : Record) : List Char := dumps r.toJson

/-- `parse_record_line`; a blank line holds no record. -/
def parseRecordLine (a : Ambient) (line : List Char) (lineNumber : Int) :
    Except ReadError (Option Record) :=
  let raw := stripList pyIsSpace line
  if raw.isEmpty then .ok none
  else
    match loaded : loads raw with
    | none => .error (.invalidJson lineNumber)
    | some (.obj fields) =>
      let item := Json.obj fields
      .ok (some (buildNodeMemoryRecord a (Json.strOr a.repr "assistant" (item.get "role"))
        ⟨item, uniqueKeys_loads loaded⟩))
    | some _ => .error (.notObject lineNumber)

/-- The records of the lines from line number `n` on. -/
def parseLines (a : Ambient) : Nat → List (List Char) → Except ReadError (List Record)
  | _, [] => .ok []
  | n, line :: lines => do
    let record ← parseRecordLine (a.at n) line n
    let records ← parseLines a (n + 1) lines
    return record.toList ++ records

/-- `read_jsonl_records` on the bytes of a file. -/
def readJsonlRecords (a : Ambient) (bytes : List UInt8) : Except ReadError (List Record) :=
  match utf8Decode bytes with
  | none => .error .invalidUtf8
  | some text => parseLines a 1 ((universalNewlines text).splitOn '\n')

/-- The bytes `append_jsonl_record` appends. -/
def Record.bytes (r : Record) : List UInt8 := utf8Encode (r.line ++ ['\n'])

/-- The bytes `write_jsonl_records` writes. -/
def writeJsonlRecords (records : List Record) : List UInt8 := records.flatMap Record.bytes

@[simp] theorem writeJsonlRecords_nil : writeJsonlRecords [] = [] := rfl

@[simp] theorem writeJsonlRecords_append (rs ss : List Record) :
    writeJsonlRecords (rs ++ ss) = writeJsonlRecords rs ++ writeJsonlRecords ss :=
  List.flatMap_append

@[simp] theorem writeJsonlRecords_singleton (r : Record) : writeJsonlRecords [r] = r.bytes := by
  simp [writeJsonlRecords]

/-! ### What was written is read back -/

theorem Record.line_eq (r : Record) : ∃ cs, r.line = '{' :: (cs ++ ['}']) := by
  obtain ⟨cs, eq⟩ := dumpsFields_last ([("id", .str r.id), ("role", .str r.role),
    ("parts", .arr (r.parts.map Part.json)), ("created_at", .str r.createdAt)] ++
    entry "trace_id" (if r.traceId = "" then none else some (.str r.traceId)))
  exact ⟨cs, by rw [Record.line, Record.toJson, dumps, eq]⟩

theorem Record.stripList_line (r : Record) : stripList pyIsSpace r.line = r.line := by
  obtain ⟨cs, eq⟩ := r.line_eq
  rw [eq, stripList_of_ends (by decide) (by decide)]

theorem Record.lineBreak_not_mem (r : Record) : '\n' ∉ r.line ∧ '\r' ∉ r.line := by
  constructor
  all_goals
    intro mem
    have := lineBreak_not_mem_dumps r.toJson _ mem
    revert this
    decide

/-- The line of a record is read back. -/
theorem parseRecordLine_line (a : Ambient) (r : Record) (n : Int) :
    parseRecordLine a r.line n = .ok (some r) := by
  obtain ⟨cs, eq⟩ := r.line_eq
  have loaded : loads (stripList pyIsSpace r.line) = some r.toJson := by
    rw [r.stripList_line, Record.line, loads_dumps r.uniqueKeys_toJson]
  have notEmpty : (stripList pyIsSpace r.line).isEmpty = false := by
    rw [r.stripList_line, eq]
    rfl
  obtain ⟨entries, isObj⟩ : ∃ entries, r.toJson = .obj entries := ⟨_, rfl⟩
  have role : Json.strOr a.repr "assistant" (r.toJson.get "role") = r.role := by
    rw [r.get_role_toJson, strOr_str a.repr _ r.role_ne]
  have built := r.build_toMessage a
  simp only [parseRecordLine, notEmpty, Bool.false_eq_true, if_false]
  split
  · rename_i failed
    rw [loaded] at failed
    cases failed
  · rename_i fields same
    have same : r.toJson = .obj fields := Option.some.inj (loaded.symm.trans same)
    simp only [Record.toMessage, same] at built role ⊢
    rw [role, built]
  · rename_i v notObj same
    have same : r.toJson = v := Option.some.inj (loaded.symm.trans same)
    exact (notObj entries (same.symm.trans isObj)).elim

theorem parseRecordLine_blank (a : Ambient) (n : Int) : parseRecordLine a [] n = .ok none := rfl

theorem parseLines_lines (a : Ambient) (rs : List Record) (n : Nat) :
    parseLines a n (rs.map Record.line ++ [[]]) = .ok rs := by
  induction rs generalizing n with
  | nil => rfl
  | cons r rs ih =>
    rw [List.map_cons, List.cons_append, parseLines, parseRecordLine_line, ih]
    rfl

theorem writeJsonlRecords_eq (rs : List Record) :
    writeJsonlRecords rs = utf8Encode ((rs.map Record.line).flatMap fun line => line ++ ['\n']) := by
  rw [List.flatMap_map, utf8Encode, List.flatMap_assoc]
  rfl

/-- So is a whole file. -/
theorem readJsonlRecords_write (a : Ambient) (rs : List Record) :
    readJsonlRecords a (writeJsonlRecords rs) = .ok rs := by
  have noReturn : '\r' ∉ (rs.map Record.line).flatMap fun line => line ++ ['\n'] := by
    intro mem
    obtain ⟨line, inLines, mem⟩ := List.mem_flatMap.mp mem
    obtain ⟨r, -, rfl⟩ := List.mem_map.mp inLines
    rcases List.mem_append.mp mem with inLine | isBreak
    · exact r.lineBreak_not_mem.2 inLine
    · revert isBreak
      decide
  have noBreak : ∀ line ∈ rs.map Record.line, '\n' ∉ line := by
    intro line inLines
    obtain ⟨r, -, rfl⟩ := List.mem_map.mp inLines
    exact r.lineBreak_not_mem.1
  rw [readJsonlRecords, writeJsonlRecords_eq, utf8Decode_utf8Encode]
  simp only [universalNewlines_eq noReturn, splitOn_flatMap noBreak, parseLines_lines]

theorem Record.bytes_length_pos (r : Record) : 0 < r.bytes.length := by
  obtain ⟨cs, eq⟩ := r.line_eq
  rw [Record.bytes, eq, List.cons_append, utf8Encode_cons, List.length_append]
  have : 0 < (String.utf8EncodeChar '{').length := by decide
  omega

end AgentPark.Memory
