import AgentPark.Lib.Json

/-!
# The parts of a message

`message_protocol.py` brings every part of a message into one of five shapes: text, resource,
structured data, tool call, meta.  A part that is stored is one the normalisation leaves as it is,
so `Part` is the subtype of those values.
-/

namespace AgentPark.Memory

open Lib

/-- What a call reads from its surroundings.  `uuid` is the identifier `uuid.uuid4().hex` returns,
one for each place a value is drawn for; `now` is `now_text()`; `today` is `today_text()`; `repr` is
the text `str` gives for a list or a dictionary; `urlparse` is the scheme, the authority and the
path of an address, `none` when the parser raises. -/
structure Ambient where
  uuid : List Nat → String
  now : String
  today : String
  repr : Json → String
  urlparse : String → Option (String × String × String)
  uuid_ne : ∀ place, uuid place ≠ ""
  now_ne : now ≠ ""
  repr_ne : ∀ value, repr value ≠ ""
  today_date : isDateText today.toList = true

/-- The surroundings of the `i`-th item of a list. -/
def Ambient.at (a : Ambient) (i : Nat) : Ambient where
  uuid := fun place => a.uuid (i :: place)
  now := a.now
  today := a.today
  repr := a.repr
  urlparse := a.urlparse
  uuid_ne := fun place => a.uuid_ne (i :: place)
  now_ne := a.now_ne
  repr_ne := a.repr_ne
  today_date := a.today_date

/-- `value.get(key)` when it is there and not `None`. -/
def present (key : String) (value : Json) : Option Json :=
  (value.get key).filter fun v => v ≠ .null

/-- An entry that stands in a dictionary only when it has a value. -/
def entry (key : String) (value : Option Json) : List (String × Json) :=
  value.toList.map fun v => (key, v)

@[simp] theorem lookup_entry (key other : String) (value : Option Json) :
    (entry key value).lookup other = if other = key then value else none := by
  cases value with
  | none => simp [entry]
  | some v =>
    by_cases same : other = key
    · simp [entry, same]
    · simp [entry, same]

theorem keys_entry (key : String) (value : Option Json) :
    List.Sublist ((entry key value).map Prod.fst) [key] := by
  cases value <;> simp [entry]

/-! ### Text and resources -/

/-- `RESOURCE_KINDS`. -/
def resourceKinds : List String := ["image", "video", "audio", "doc", "file", "url"]

/-- `is_url`. -/
def isUrl (a : Ambient) (value : String) : Bool :=
  let text := pyStrip value
  text ≠ "" &&
    match a.urlparse text with
    | none => false
    | some (scheme, netloc, path) =>
      ["http", "https", "ftp", "file"].contains scheme && (netloc ≠ "" || path ≠ "")

/-- `os.path.splitext(path)[1]`: the last suffix of the last component, unless only dots stand
before it. -/
def splitextExt (path : String) : String :=
  let base := path.toList.reverse.takeWhile fun c => c ≠ '/'
  let suffix := base.takeWhile fun c => c ≠ '.'
  match base.drop suffix.length with
  | '.' :: front => if front.all (· == '.') then "" else String.ofList ('.' :: suffix.reverse)
  | _ => ""

/-- `_guess_kind_from_ext`. -/
def guessKindFromExt (a : Ambient) (pathOrUrl : String) : String :=
  let raw := pyLower (pyStrip pathOrUrl)
  let ext := pyLower (splitextExt raw)
  if raw = "" then "file"
  else if [".png", ".jpg", ".jpeg", ".webp", ".gif", ".bmp", ".svg"].contains ext then "image"
  else if [".mp4", ".mov", ".mkv", ".webm", ".avi", ".flv"].contains ext then "video"
  else if [".mp3", ".wav", ".ogg", ".flac", ".m4a"].contains ext then "audio"
  else if [".pdf", ".doc", ".docx", ".ppt", ".pptx", ".xls", ".xlsx", ".txt", ".md"].contains ext
    then "doc"
  else if isUrl a raw then "url" else "file"

theorem guessKindFromExt_mem (a : Ambient) (text : String) :
    guessKindFromExt a text ∈ resourceKinds := by
  simp only [guessKindFromExt, resourceKinds]
  split_ifs
  all_goals simp

/-- The part with one text. -/
def textPart (text : String) : Json := .obj [("type", .str "text"), ("text", .str text)]

/-- `build_text_part`. -/
def buildTextPart (a : Ambient) (text : Option Json) : Json :=
  match text with
  | none | some .null => textPart ""
  | some v => textPart (v.pyStr a.repr)

/-- `str(value or "").strip()`. -/
def stripped (a : Ambient) (value : Option Json) : String := pyStrip (Json.strOr a.repr "" value)

/-- A text field that is left out when it is empty. -/
def textField (a : Ambient) (value : Option Json) : Option Json :=
  if stripped a value = "" then none else some (.str (stripped a value))

/-- `metadata` is kept when it is a dictionary with entries. -/
def metadataField : Option Json → Option Json
  | some (.obj (f :: fs)) => some (.obj (f :: fs))
  | _ => none

/-- `kind`, guessed when it is none of the known ones. -/
def kindText (a : Ambient) (kind uri : Option Json) : String :=
  let text := pyLower (stripped a kind)
  if text ∈ resourceKinds then text else guessKindFromExt a (stripped a uri)

/-- The dictionary of a resource. -/
def resourceDict (id uri kind : String) (mime name source metadata : Option Json) :
    List (String × Json) :=
  [("id", .str id), ("uri", .str uri), ("kind", .str kind)] ++
    (entry "mime" mime ++ (entry "name" name ++ (entry "source" source ++
      entry "metadata" metadata)))

/-- The dictionary `build_resource_part` makes of the fields of `raw`. -/
def resourceFields (a : Ambient) (raw : Json) : List (String × Json) :=
  resourceDict (Json.strOr a.repr (a.uuid []) (raw.get "id")) (stripped a (raw.get "uri"))
    (kindText a (raw.get "kind") (raw.get "uri")) (textField a (raw.get "mime"))
    (textField a (raw.get "name")) (textField a (raw.get "source"))
    (metadataField (raw.get "metadata"))

/-- `build_resource_part` on the fields of `raw`. -/
def buildResourcePart (a : Ambient) (raw : Json) : Json :=
  .obj [("type", .str "resource"), ("resource", .obj (resourceFields a raw))]

/-! ### Tool calls -/

def asText (a : Ambient) (v : Json) : Option Json := some (.str (v.pyStr a.repr))

def asIs (v : Json) : Option Json := some v

def asBool (v : Json) : Option Json := some (.bool v.truthy)

/-- `[str(entry) for entry in diagnostics]` on a list. -/
def asTexts (a : Ambient) : Json → Option Json
  | .arr items => some (.arr (items.map fun v => .str (v.pyStr a.repr)))
  | _ => none

/-- `[dict(entry) for entry in sources if isinstance(entry, dict)]` on a list. -/
def asDicts : Json → Option Json
  | .arr items => some (.arr (items.filter fun v => match v with | .obj _ => true | _ => false))
  | _ => none

/-- `dict(details)` when it has entries. -/
def asDetails : Json → Option Json
  | .obj (f :: fs) => some (.obj (f :: fs))
  | _ => none

/-- The optional fields of a tool call in the order they are written, each with what is stored for
a value that is not `None`. -/
def toolCallFields (a : Ambient) : List (String × (Json → Option Json)) :=
  [("call_id", asText a), ("name", asText a), ("provider", asText a), ("status", asText a),
   ("duration_ms", asIs), ("error", asText a), ("result_preview", asText a), ("result_chars", asIs),
   ("result_preview_truncated", asBool), ("result_tail_preview", asText a),
   ("result_tail_preview_truncated", asBool), ("diagnostics", asTexts a), ("sources", asDicts),
   ("details", asDetails)]

/-- The entries a table of fields takes from a dictionary. -/
def fieldsOf (table : List (String × (Json → Option Json))) (item : Json) : List (String × Json) :=
  table.flatMap fun field => entry field.1 ((present field.1 item).bind field.2)

/-- `args`, or `arguments` in its place. -/
def argsOf (item : Json) : Option Json := (present "args" item).or (present "arguments" item)

def toolCallPart (a : Ambient) (item : Json) : Json :=
  .obj (("type", .str "tool_call") ::
    (fieldsOf (toolCallFields a) item ++ entry "args" (argsOf item)))

/-! ### Every part -/

def structuredPart (data : Json) : Json := .obj [("type", .str "structured"), ("data", data)]

/-- `meta`, or `data` in its place, or an empty dictionary. -/
def metaPart (item : Json) : Json :=
  .obj [("type", .str "meta"),
    ("meta", ((present "meta" item).or (present "data" item)).getD (.obj []))]

/-- `_normalize_part` on a dictionary. -/
def normalizeDict (a : Ambient) (item : Json) : Json :=
  match item.get "type" with
  | none =>
    match item.get "text", item.get "uri", item.get "resource" with
    | some text, _, _ => buildTextPart a (some text)
    | none, some _, _ => buildResourcePart a item
    | none, none, some (.obj fields) => buildResourcePart a (.obj fields)
    | none, none, _ => structuredPart item
  | some type =>
    let partType := pyLower (pyStrip (Json.strOr a.repr "" (some type)))
    if partType = "text" then buildTextPart a (item.get "text")
    else if partType = "resource" then
      match item.get "resource" with
      | some (.obj fields) => buildResourcePart a (.obj fields)
      | _ => buildResourcePart a item
    else if partType = "structured" then structuredPart ((item.get "data").getD .null)
    else if partType = "tool_call" then toolCallPart a item
    else if partType = "meta" then metaPart item
    else structuredPart item

/-- `_normalize_part`. -/
def normalizePart (a : Ambient) (item : Json) : Json :=
  match item with
  | .obj fields => normalizeDict a (.obj fields)
  | v => buildTextPart a (some v)

/-! ### Normalising once is enough -/

theorem strOr_str (repr : Json → String) {text : String} (default : String) (notEmpty : text ≠ "") :
    Json.strOr repr default (some (.str text)) = text := by
  simp [Json.strOr, Json.truthy, Json.pyStr, notEmpty]

@[simp] theorem stripped_none (a : Ambient) : stripped a none = "" := by
  rfl

@[simp] theorem stripped_str (a : Ambient) (text : String) :
    stripped a (some (.str text)) = pyStrip text := by
  by_cases empty : text = ""
  · subst empty
    rfl
  · rw [stripped, strOr_str a.repr "" empty]

theorem pyStrip_stripped (a : Ambient) (value : Option Json) :
    pyStrip (stripped a value) = stripped a value := pyStrip_pyStrip _

theorem textField_textField (a b : Ambient) (value : Option Json) :
    textField b (textField a value) = textField a value := by
  by_cases empty : stripped a value = ""
  · rw [show textField a value = none by rw [textField, if_pos empty], textField, stripped_none,
      if_pos rfl]
  · rw [show textField a value = some (.str (stripped a value)) by rw [textField, if_neg empty],
      textField, stripped_str, pyStrip_stripped, if_neg empty]

theorem metadataField_metadataField (value : Option Json) :
    metadataField (metadataField value) = metadataField value := by
  rcases value with _ | (_ | _ | _ | _ | _ | (_ | ⟨f, fs⟩))
  all_goals rfl

theorem kind_normal : ∀ kind ∈ resourceKinds, pyLower (pyStrip kind) = kind := by decide

theorem kindText_mem (a : Ambient) (kind uri : Option Json) :
    kindText a kind uri ∈ resourceKinds := by
  rw [kindText]
  split_ifs with known
  · exact known
  · exact guessKindFromExt_mem a _

theorem kindText_of_mem (a : Ambient) {kind : String} (uri : Option Json)
    (known : kind ∈ resourceKinds) : kindText a (some (.str kind)) uri = kind := by
  have normal := kind_normal kind known
  rw [kindText, stripped_str, normal, if_pos known]

section ResourceDict

variable (id uri kind : String) (mime name source metadata : Option Json)

@[simp] theorem get_id_resourceDict :
    (Json.obj (resourceDict id uri kind mime name source metadata)).get "id" = some (.str id) :=
  rfl

@[simp] theorem get_uri_resourceDict :
    (Json.obj (resourceDict id uri kind mime name source metadata)).get "uri" = some (.str uri) :=
  rfl

@[simp] theorem get_kind_resourceDict :
    (Json.obj (resourceDict id uri kind mime name source metadata)).get "kind" =
      some (.str kind) := rfl

@[simp] theorem get_mime_resourceDict :
    (Json.obj (resourceDict id uri kind mime name source metadata)).get "mime" = mime := by
  simp [Json.get, resourceDict, List.lookup_cons, List.lookup_append]

@[simp] theorem get_name_resourceDict :
    (Json.obj (resourceDict id uri kind mime name source metadata)).get "name" = name := by
  simp [Json.get, resourceDict, List.lookup_cons, List.lookup_append]

@[simp] theorem get_source_resourceDict :
    (Json.obj (resourceDict id uri kind mime name source metadata)).get "source" = source := by
  simp [Json.get, resourceDict, List.lookup_cons, List.lookup_append]

@[simp] theorem get_metadata_resourceDict :
    (Json.obj (resourceDict id uri kind mime name source metadata)).get "metadata" = metadata := by
  simp [Json.get, resourceDict, List.lookup_cons, List.lookup_append]

theorem keys_resourceDict :
    ((resourceDict id uri kind mime name source metadata).map Prod.fst).Nodup := by
  have sub : List.Sublist ((resourceDict id uri kind mime name source metadata).map Prod.fst)
      (["id", "uri", "kind"] ++ (["mime"] ++ (["name"] ++ (["source"] ++ ["metadata"])))) := by
    simp only [resourceDict, List.map_append]
    exact (List.Sublist.refl _).append ((keys_entry _ _).append ((keys_entry _ _).append
      ((keys_entry _ _).append (keys_entry _ _))))
  exact sub.nodup (by decide)

end ResourceDict

theorem Ambient.pyStr_ne (a : Ambient) {v : Json} (truthy : v.truthy = true) :
    v.pyStr a.repr ≠ "" := by
  cases v with
  | null => cases truthy
  | bool b =>
    cases b
    · exact (by decide : "False" ≠ "")
    · exact (by decide : "True" ≠ "")
  | num n =>
    intro empty
    exact n.text_ne_nil (congrArg String.toList empty)
  | str s => simpa [Json.truthy, Json.pyStr] using truthy
  | arr items => exact a.repr_ne _
  | obj fields => exact a.repr_ne _

theorem Ambient.strOr_ne (a : Ambient) {default : String} (notEmpty : default ≠ "")
    (value : Option Json) : Json.strOr a.repr default value ≠ "" := by
  unfold Json.strOr
  split
  · split_ifs with truthy
    · exact a.pyStr_ne truthy
    · exact notEmpty
  · exact notEmpty

theorem resourceFields_resourceFields (a b : Ambient) (raw : Json) :
    resourceFields b (.obj (resourceFields a raw)) = resourceFields a raw := by
  have id := a.strOr_ne (a.uuid_ne []) (raw.get "id")
  have kind := kindText_mem a (raw.get "kind") (raw.get "uri")
  rw [resourceFields, resourceFields]
  simp only [get_id_resourceDict, get_uri_resourceDict, get_kind_resourceDict,
    get_mime_resourceDict, get_name_resourceDict, get_source_resourceDict,
    get_metadata_resourceDict, strOr_str b.repr _ id, stripped_str, pyStrip_stripped,
    kindText_of_mem b _ kind, textField_textField, metadataField_metadataField]

/-! ### Tables of fields -/

theorem fieldsOf_cons (field : String × (Json → Option Json))
    (table : List (String × (Json → Option Json))) (item : Json) :
    fieldsOf (field :: table) item =
      entry field.1 ((present field.1 item).bind field.2) ++ fieldsOf table item := rfl

theorem keys_fieldsOf (table : List (String × (Json → Option Json))) (item : Json) :
    List.Sublist ((fieldsOf table item).map Prod.fst) (table.map Prod.fst) := by
  induction table with
  | nil => exact List.Sublist.refl _
  | cons field table ih =>
    rw [fieldsOf_cons, List.map_append, List.map_cons, ← List.singleton_append]
    exact (keys_entry _ _).append ih

theorem lookup_fieldsOf_of_not_mem {table : List (String × (Json → Option Json))} {item : Json}
    {key : String} (absent : key ∉ table.map Prod.fst) :
    (fieldsOf table item).lookup key = none := by
  rw [List.lookup_eq_none_iff]
  intro field mem
  have inTable := (keys_fieldsOf table item).subset (List.mem_map_of_mem (f := Prod.fst) mem)
  have other : key ≠ field.1 := fun same => absent (same ▸ inTable)
  simpa using other

theorem lookup_fieldsOf {table : List (String × (Json → Option Json))}
    (nodup : (table.map Prod.fst).Nodup) (item : Json) {field : String × (Json → Option Json)}
    (mem : field ∈ table) :
    (fieldsOf table item).lookup field.1 = (present field.1 item).bind field.2 := by
  induction table with
  | nil => cases mem
  | cons first table ih =>
    rw [List.map_cons, List.nodup_cons] at nodup
    rw [fieldsOf_cons, List.lookup_append, lookup_entry]
    rcases List.mem_cons.mp mem with rfl | later
    · rw [if_pos rfl, lookup_fieldsOf_of_not_mem nodup.1, Option.or_none]
    · have other : field.1 ≠ first.1 := by
        intro same
        exact nodup.1 (same ▸ List.mem_map_of_mem later)
      rw [if_neg other, Option.none_or, ih nodup.2 later]

theorem ne_null_of_present {key : String} {v w : Json} (found : present key v = some w) :
    w ≠ .null := by
  simpa using (Option.filter_eq_some_iff.mp found).2

theorem get_of_present {key : String} {v w : Json} (found : present key v = some w) :
    v.get key = some w := (Option.filter_eq_some_iff.mp found).1

/-- What the first field stores is no `None`, and the second field stores it again as it is. -/
def Settles (f g : String × (Json → Option Json)) : Prop :=
  f.1 = g.1 ∧ ∀ v w, v ≠ .null → f.2 v = some w →
    w ≠ .null ∧ g.2 w = some w ∧ (v.UniqueKeys → w.UniqueKeys)

theorem fieldsOf_of_settles {table table' : List (String × (Json → Option Json))}
    (settles : List.Forall₂ Settles table table') {item payload : Json}
    (reads : ∀ field ∈ table, payload.get field.1 = (present field.1 item).bind field.2) :
    fieldsOf table' payload = fieldsOf table item := by
  induction settles with
  | nil => rfl
  | @cons f g table table' settle _ ih =>
    obtain ⟨sameKey, stored⟩ := settle
    have here := reads f List.mem_cons_self
    have again : (present f.1 payload).bind g.2 = (present f.1 item).bind f.2 := by
      rw [present, here]
      cases value : (present f.1 item).bind f.2 with
      | none => rfl
      | some w =>
        obtain ⟨v, found, read⟩ := Option.bind_eq_some_iff.mp value
        obtain ⟨notNull, kept, -⟩ := stored v w (ne_null_of_present found) read
        rw [Option.filter_some, if_pos (by simpa using notNull), Option.bind_some, kept]
    rw [fieldsOf_cons, fieldsOf_cons, ← sameKey, again,
      ih fun field mem => reads field (List.mem_cons_of_mem f mem)]

section Settles

variable (a b : Ambient) (key : String)

theorem settles_asText : Settles (key, asText a) (key, asText b) := by
  refine ⟨rfl, ?_⟩
  rintro v w - ⟨⟩
  exact ⟨nofun, rfl, fun _ => trivial⟩

theorem settles_asBool : Settles (key, asBool) (key, asBool) := by
  refine ⟨rfl, ?_⟩
  rintro v w - ⟨⟩
  exact ⟨nofun, rfl, fun _ => trivial⟩

theorem settles_asIs : Settles (key, asIs) (key, asIs) := by
  refine ⟨rfl, ?_⟩
  rintro v w notNull ⟨⟩
  exact ⟨notNull, rfl, id⟩

theorem settles_asTexts : Settles (key, asTexts a) (key, asTexts b) := by
  refine ⟨rfl, ?_⟩
  intro v w _ read
  cases v with
  | arr items =>
    cases read
    refine ⟨nofun, ?_, fun _ => Json.uniqueKeys_arr.mpr ?_⟩
    · simp [asTexts, Json.pyStr]
    · rintro v mem
      obtain ⟨w, -, rfl⟩ := List.mem_map.mp mem
      trivial
  | _ => cases read

theorem settles_asDicts : Settles (key, asDicts) (key, asDicts) := by
  refine ⟨rfl, ?_⟩
  intro v w _ read
  cases v with
  | arr items =>
    cases read
    refine ⟨nofun, ?_, fun unique => Json.uniqueKeys_arr.mpr fun v mem => ?_⟩
    · simp [asDicts, List.filter_filter]
    · exact Json.uniqueKeys_arr.mp unique v (List.mem_of_mem_filter mem)
  | _ => cases read

theorem settles_asDetails : Settles (key, asDetails) (key, asDetails) := by
  refine ⟨rfl, ?_⟩
  intro v w _ read
  rcases v with _ | _ | _ | _ | _ | (_ | ⟨f, fs⟩)
  all_goals cases read
  exact ⟨nofun, rfl, id⟩

end Settles

theorem toolCallFields_settles (a b : Ambient) :
    List.Forall₂ Settles (toolCallFields a) (toolCallFields b) := by
  unfold toolCallFields
  repeat' apply List.Forall₂.cons
  all_goals first
    | exact settles_asText a b _
    | exact settles_asIs _
    | exact settles_asBool _
    | exact settles_asTexts a b _
    | exact settles_asDicts _
    | exact settles_asDetails _
    | exact List.Forall₂.nil

theorem settle_of_mem {table table' : List (String × (Json → Option Json))}
    (settles : List.Forall₂ Settles table table') {field : String × (Json → Option Json)}
    (mem : field ∈ table) : ∃ g, Settles field g := by
  induction settles with
  | nil => cases mem
  | cons settle _ ih =>
    rcases List.mem_cons.mp mem with rfl | later
    · exact ⟨_, settle⟩
    · exact ih later

theorem nodup_toolCallFields (a : Ambient) :
    ("type" :: ((toolCallFields a).map Prod.fst ++ ["args", "arguments"])).Nodup := by
  rw [show "type" :: ((toolCallFields a).map Prod.fst ++ ["args", "arguments"]) =
    ["type", "call_id", "name", "provider", "status", "duration_ms", "error", "result_preview",
     "result_chars", "result_preview_truncated", "result_tail_preview",
     "result_tail_preview_truncated", "diagnostics", "sources", "details", "args",
     "arguments"] from rfl]
  decide

theorem get_toolCallPart (a : Ambient) (item : Json) :
    (∀ field ∈ toolCallFields a,
      (toolCallPart a item).get field.1 = (present field.1 item).bind field.2) ∧
    (toolCallPart a item).get "args" = argsOf item ∧
    (toolCallPart a item).get "arguments" = none := by
  obtain ⟨noType, rest⟩ := List.nodup_cons.mp (nodup_toolCallFields a)
  have tableNodup := (List.nodup_append.mp rest).1
  have apart : ∀ key ∈ ["args", "arguments"], key ∉ (toolCallFields a).map Prod.fst :=
    fun key mem inTable => (List.nodup_append.mp rest).2.2 key inTable key mem rfl
  refine ⟨fun field mem => ?_, ?_, ?_⟩
  · have inTable := List.mem_map_of_mem (f := Prod.fst) mem
    have notType : field.1 ≠ "type" := by
      intro same
      exact noType (List.mem_append_left _ (same ▸ inTable))
    have notArgs : field.1 ≠ "args" := by
      intro same
      exact apart "args" (by simp) (same ▸ inTable)
    rw [toolCallPart, Json.get, List.lookup_cons, beq_false_of_ne notType, List.lookup_append,
      lookup_fieldsOf tableNodup item mem, lookup_entry, if_neg notArgs, Option.or_none]
  · rw [toolCallPart, Json.get, List.lookup_cons, List.lookup_append,
      lookup_fieldsOf_of_not_mem (apart "args" (by simp)), lookup_entry, if_pos rfl,
      Option.none_or]
    rfl
  · rw [toolCallPart, Json.get, List.lookup_cons, List.lookup_append,
      lookup_fieldsOf_of_not_mem (apart "arguments" (by simp)), lookup_entry,
      if_neg (by decide), Option.none_or]
    rfl

theorem ne_null_of_argsOf {item w : Json} (found : argsOf item = some w) : w ≠ .null := by
  rcases Option.or_eq_some_iff.mp found with found | ⟨-, found⟩
  · exact ne_null_of_present found
  · exact ne_null_of_present found

theorem toolCallPart_toolCallPart (a b : Ambient) (item : Json) :
    toolCallPart b (toolCallPart a item) = toolCallPart a item := by
  obtain ⟨fields, args, arguments⟩ := get_toolCallPart a item
  have again : argsOf (toolCallPart a item) = argsOf item := by
    rw [argsOf, present, present, args, arguments]
    cases found : argsOf item with
    | none => rfl
    | some w => simp [ne_null_of_argsOf found]
  conv_lhs => rw [toolCallPart]
  rw [fieldsOf_of_settles (toolCallFields_settles a b) fields, again]
  rfl

/-! ### Stored parts -/

theorem normalizeDict_of_type (b : Ambient) {item : Json} {type : String}
    (found : item.get "type" = some (.str type)) (normal : pyLower (pyStrip type) = type)
    (notEmpty : type ≠ "") :
    normalizeDict b item =
      if type = "text" then buildTextPart b (item.get "text")
      else if type = "resource" then
        match item.get "resource" with
        | some (.obj fields) => buildResourcePart b (.obj fields)
        | _ => buildResourcePart b item
      else if type = "structured" then structuredPart ((item.get "data").getD .null)
      else if type = "tool_call" then toolCallPart b item
      else if type = "meta" then metaPart item
      else structuredPart item := by
  unfold normalizeDict
  rw [found]
  simp only [strOr_str b.repr _ notEmpty, normal]

theorem normalizePart_textPart (b : Ambient) (text : String) :
    normalizePart b (textPart text) = textPart text := by
  rw [textPart, normalizePart, normalizeDict_of_type b rfl (by decide) (by decide), if_pos rfl]
  rfl

theorem normalizePart_structuredPart (b : Ambient) (data : Json) :
    normalizePart b (structuredPart data) = structuredPart data := by
  rw [structuredPart, normalizePart, normalizeDict_of_type b rfl (by decide) (by decide),
    if_neg (by decide), if_neg (by decide), if_pos rfl]
  rfl

theorem normalizePart_buildResourcePart (a b : Ambient) (raw : Json) :
    normalizePart b (buildResourcePart a raw) = buildResourcePart a raw := by
  have again := resourceFields_resourceFields a b raw
  rw [buildResourcePart, normalizePart, normalizeDict_of_type b rfl (by decide) (by decide),
    if_neg (by decide), if_pos rfl]
  change buildResourcePart b (.obj (resourceFields a raw)) = _
  rw [buildResourcePart, again]

theorem normalizePart_toolCallPart (a b : Ambient) (item : Json) :
    normalizePart b (toolCallPart a item) = toolCallPart a item := by
  have again := toolCallPart_toolCallPart a b item
  have type : (toolCallPart a item).get "type" = some (.str "tool_call") := rfl
  have dispatched := normalizeDict_of_type b type (by decide) (by decide)
  rw [if_neg (by decide), if_neg (by decide), if_neg (by decide), if_pos rfl, again] at dispatched
  exact dispatched

theorem normalizePart_metaPart (b : Ambient) (item : Json) :
    normalizePart b (metaPart item) = metaPart item := by
  have notNull : ((present "meta" item).or (present "data" item)).getD (.obj []) ≠ .null := by
    cases found : (present "meta" item).or (present "data" item) with
    | none => exact nofun
    | some w =>
      rcases Option.or_eq_some_iff.mp found with found | ⟨-, found⟩
      · exact ne_null_of_present found
      · exact ne_null_of_present found
  have kept : present "meta" (metaPart item) =
      some (((present "meta" item).or (present "data" item)).getD (.obj [])) := by
    rw [present, show (metaPart item).get "meta" = some _ from rfl, Option.filter_some,
      if_pos (by simpa using notNull)]
  have again : metaPart (metaPart item) = metaPart item := by
    rw [metaPart.eq_1 (metaPart item), kept, Option.some_or]
    rfl
  have type : (metaPart item).get "type" = some (.str "meta") := rfl
  have dispatched := normalizeDict_of_type b type (by decide) (by decide)
  rw [if_neg (by decide), if_neg (by decide), if_neg (by decide), if_neg (by decide),
    if_pos rfl, again] at dispatched
  exact dispatched

theorem normalizePart_buildTextPart (a b : Ambient) (value : Option Json) :
    normalizePart b (buildTextPart a value) = buildTextPart a value := by
  unfold buildTextPart
  split
  · exact normalizePart_textPart b _
  · exact normalizePart_textPart b _
  · exact normalizePart_textPart b _

theorem normalizePart_cases (a : Ambient) (item : Json) {P : Json → Prop}
    (text : ∀ value, P (buildTextPart a value))
    (resource : ∀ raw, raw = item ∨ item.get "resource" = some raw → P (buildResourcePart a raw))
    (structured : ∀ data, data = item ∨ data = .null ∨ item.get "data" = some data →
      P (structuredPart data))
    (toolCall : P (toolCallPart a item)) (metaShape : P (metaPart item)) :
    P (normalizePart a item) := by
  unfold normalizePart
  split
  · rename_i fields
    unfold normalizeDict
    split
    · split
      · exact text _
      · exact resource _ (.inl rfl)
      · rename_i found
        exact resource _ (.inr found)
      · exact structured _ (.inl rfl)
    · simp only
      split_ifs
      · exact text _
      · split
        · rename_i found
          exact resource _ (.inr found)
        · exact resource _ (.inl rfl)
      · cases found : (Json.obj fields).get "data" with
        | none => exact structured _ (.inr (.inl rfl))
        | some data => exact structured _ (.inr (.inr found))
      · exact toolCall
      · exact metaShape
      · exact structured _ (.inl rfl)
  · exact text _

/-- Normalising once is enough, whatever the second call reads from its surroundings. -/
theorem normalizePart_normalizePart (a b : Ambient) (item : Json) :
    normalizePart b (normalizePart a item) = normalizePart a item := by
  apply normalizePart_cases a item (P := fun part => normalizePart b part = part)
  · exact normalizePart_buildTextPart a b
  · exact fun raw _ => normalizePart_buildResourcePart a b raw
  · exact fun data _ => normalizePart_structuredPart b data
  · exact normalizePart_toolCallPart a b item
  · exact normalizePart_metaPart b item

theorem uniqueKeys_entry {key : String} {value : Option Json}
    (unique : ∀ v, value = some v → v.UniqueKeys) : ∀ f ∈ entry key value, f.2.UniqueKeys := by
  intro f mem
  obtain ⟨v, inValue, rfl⟩ := List.mem_map.mp mem
  exact unique v (by simpa using inValue)

theorem uniqueKeys_textField (a : Ambient) (value : Option Json) :
    ∀ v, textField a value = some v → v.UniqueKeys := by
  intro v stored
  unfold textField at stored
  split_ifs at stored
  cases stored
  trivial

theorem uniqueKeys_buildResourcePart (a : Ambient) {raw : Json} (unique : raw.UniqueKeys) :
    (buildResourcePart a raw).UniqueKeys := by
  have metadata : ∀ v, metadataField (raw.get "metadata") = some v → v.UniqueKeys := by
    intro v stored
    unfold metadataField at stored
    split at stored
    · rename_i found
      cases stored
      exact unique.of_get found
    · cases stored
  have values : ∀ f ∈ resourceFields a raw, f.2.UniqueKeys := by
    simp only [resourceFields, resourceDict, List.forall_mem_append, List.forall_mem_cons]
    exact ⟨⟨trivial, trivial, trivial, by simp⟩, uniqueKeys_entry (uniqueKeys_textField a _),
      uniqueKeys_entry (uniqueKeys_textField a _), uniqueKeys_entry (uniqueKeys_textField a _),
      uniqueKeys_entry metadata⟩
  have resource : (Json.obj (resourceFields a raw)).UniqueKeys :=
    Json.uniqueKeys_obj.mpr ⟨keys_resourceDict _ _ _ _ _ _ _, values⟩
  refine Json.uniqueKeys_obj.mpr ⟨by simp, ?_⟩
  simp only [List.forall_mem_cons]
  exact ⟨trivial, resource, by simp⟩

theorem uniqueKeys_argsOf {item w : Json} (unique : item.UniqueKeys) (found : argsOf item = some w) :
    w.UniqueKeys := by
  rcases Option.or_eq_some_iff.mp found with found | ⟨-, found⟩
  · exact unique.of_get (get_of_present found)
  · exact unique.of_get (get_of_present found)

theorem uniqueKeys_toolCallPart (a : Ambient) {item : Json} (unique : item.UniqueKeys) :
    (toolCallPart a item).UniqueKeys := by
  have keys : List.Sublist
      ((fieldsOf (toolCallFields a) item ++ entry "args" (argsOf item)).map Prod.fst)
      ((toolCallFields a).map Prod.fst ++ ["args", "arguments"]) := by
    rw [List.map_append]
    exact (keys_fieldsOf _ item).append ((keys_entry "args" _).trans (by simp))
  have values : ∀ f ∈ fieldsOf (toolCallFields a) item, f.2.UniqueKeys := by
    intro f mem
    obtain ⟨field, inTable, inEntry⟩ := List.mem_flatMap.mp mem
    refine uniqueKeys_entry (fun w stored => ?_) f inEntry
    obtain ⟨v, found, read⟩ := Option.bind_eq_some_iff.mp stored
    obtain ⟨g, settle⟩ := settle_of_mem (toolCallFields_settles a a) inTable
    exact (settle.2 v w (ne_null_of_present found) read).2.2 (unique.of_get (get_of_present found))
  refine Json.uniqueKeys_obj.mpr ⟨?_, ?_⟩
  · rw [List.map_cons]
    exact (keys.cons_cons "type").nodup (nodup_toolCallFields a)
  · rw [List.forall_mem_cons, List.forall_mem_append]
    exact ⟨trivial, values, uniqueKeys_entry fun w => uniqueKeys_argsOf unique⟩

theorem uniqueKeys_metaPart {item : Json} (unique : item.UniqueKeys) :
    (metaPart item).UniqueKeys := by
  refine Json.uniqueKeys_obj.mpr ⟨by simp, ?_⟩
  simp only [List.forall_mem_cons]
  refine ⟨trivial, ?_, by simp⟩
  cases found : (present "meta" item).or (present "data" item) with
  | none => exact Json.uniqueKeys_obj.mpr ⟨by simp, by simp⟩
  | some w =>
    rcases Option.or_eq_some_iff.mp found with found | ⟨-, found⟩
    · exact unique.of_get (get_of_present found)
    · exact unique.of_get (get_of_present found)

theorem uniqueKeys_structuredPart {data : Json} (unique : data.UniqueKeys) :
    (structuredPart data).UniqueKeys := by
  refine Json.uniqueKeys_obj.mpr ⟨by simp, ?_⟩
  simp only [List.forall_mem_cons]
  exact ⟨trivial, unique, by simp⟩

theorem uniqueKeys_textPart (text : String) : (textPart text).UniqueKeys := by
  refine Json.uniqueKeys_obj.mpr ⟨by simp, ?_⟩
  simp only [List.forall_mem_cons]
  exact ⟨trivial, trivial, by simp⟩

theorem uniqueKeys_buildTextPart (a : Ambient) (value : Option Json) :
    (buildTextPart a value).UniqueKeys := by
  unfold buildTextPart
  split
  · exact uniqueKeys_textPart _
  · exact uniqueKeys_textPart _
  · exact uniqueKeys_textPart _

theorem uniqueKeys_normalizePart (a : Ambient) {item : Json} (unique : item.UniqueKeys) :
    (normalizePart a item).UniqueKeys := by
  apply normalizePart_cases a item (P := Json.UniqueKeys)
  · exact uniqueKeys_buildTextPart a
  · rintro raw (rfl | found)
    · exact uniqueKeys_buildResourcePart a unique
    · exact uniqueKeys_buildResourcePart a (unique.of_get found)
  · rintro data (rfl | rfl | found)
    · exact uniqueKeys_structuredPart unique
    · exact uniqueKeys_structuredPart trivial
    · exact uniqueKeys_structuredPart (unique.of_get found)
  · exact uniqueKeys_toolCallPart a unique
  · exact uniqueKeys_metaPart unique

/-- A part that is stored: a value that normalising leaves as it is. -/
structure Part where
  json : Json
  unique : json.UniqueKeys
  normal : ∀ a, normalizePart a json = json

instance : DecidableEq Part := fun p q =>
  decidable_of_iff (p.json = q.json) (by cases p; cases q; simp)

end AgentPark.Memory
