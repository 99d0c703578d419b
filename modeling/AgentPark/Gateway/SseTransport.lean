import AgentPark.Gateway.Frames
import AgentPark.Lib.ChunkedLines
import AgentPark.Lib.TextLines

/-!
# An event stream on its way through the gateway

The answer of a provider comes as an event stream over the output of a curl process.  The curl reader
gives the text of every `data:` line, each text becomes a frame of its own, and the frames are read
as an event stream again.

A text is one of Unicode scalar values, and `sseFrame` reads it as JSON without the two ways to fail behind
that: an integer of more than 4300 digits, and a `type` with an escape for a lone surrogate.
-/

namespace AgentPark.Gateway

open Lib

/-- Drop the elements `p` accepts at the end of a list. -/
def rstripList {β : Type} (p : β → Bool) (xs : List β) : List β := (xs.reverse.dropWhile p).reverse

/-- `"data:"` -/
def dataField : List Char := "data:".toList

/-! ### The curl reader -/

/-- The round of the curl reader for one line: the text of a `data:` line. -/
def curlLine (raw : List UInt8) : Except Raised (Option (List Char)) :=
  match utf8Decode (rstripList (· == 13) raw) with
  | none => .error (.other "invalid utf-8")
  | some line =>
    .ok (if dataField <+: line then some (stripList pyIsSpace (line.drop 5)) else none)

/-- `_curl_post_sse_raw_lines` of a process that ends without an error, with the status 200. -/
def curlItems (chunks : List (List UInt8)) : Except Raised (List (List Char)) := do
  let (lines, pending) := linesOf newline [] chunks
  let items ← lines.mapM curlLine
  if stripList isByteSpace pending ≠ [] then
    .error (.other ("curl stream ended with an unterminated line (" ++ toString pending.length ++ " bytes)"))
  else pure (items.filterMap id)

section

variable (repr : Json → String)

/-- The event type that a frame gets: the type of the text, if it is an object. -/
def frameType (item : List Char) : List Char :=
  match loads item with
  | some (.obj fields) => (pyStrip (Json.strOr repr "" ((Json.obj fields).get "type"))).toList
  | _ => []

/-- `_sse_frame` -/
def sseFrame (item : List Char) : List UInt8 :=
  let eventLine :=
    if frameType repr item = [] then [] else "event: ".toList ++ frameType repr item ++ ['\n']
  utf8Encode (eventLine ++ ("data: ".toList ++ item ++ ['\n', '\n']))

/-! ### Reading the frames -/

/-- `iter_sse_data` over the lines of a body, with the data lines of the event so far. -/
def iterSseData : List (List UInt8) → List (List Char) → Except Raised (List (List Char))
  | [], dataLines => .ok (if dataLines = [] then [] else [joinLines '\n' dataLines])
  | raw :: lines, dataLines =>
    match utf8Decode raw with
    | none => .error (.other "invalid utf-8")
    | some text =>
      let line := rstripList isLineBreak text
      if line = [] then
        if dataLines = [] then iterSseData lines []
        else (iterSseData lines []).map fun later => joinLines '\n' dataLines :: later
      else if dataField <+: line then
        iterSseData lines (dataLines ++ [(line.drop 5).dropWhile pyIsSpace])
      else iterSseData lines dataLines

/-- The data strings that `iter_sse_data` gives of the body whose chunks are the frames of the items. -/
def delivered (chunks : List (List UInt8)) : Except Raised (List (List Char)) := do
  let items ← curlItems chunks
  iterSseData (readLines newline [] (items.map (sseFrame repr))) []

end

/-! ### Events on the wire -/

/-- An event of an event stream. -/
structure SseEvent where
  name : Option (List Char)
  data : List (List Char)
  notEmpty : data ≠ []
  flatName : ∀ text ∈ name, ∀ c ∈ text, isLineBreak c = false
  flatData : ∀ line ∈ data, ∀ c ∈ line, isLineBreak c = false

/-- The lines of an event: its name, its data and the empty line that ends it. -/
def SseEvent.lines (event : SseEvent) : List (List Char) :=
  (event.name.map ("event: ".toList ++ ·)).toList ++ (event.data.map ("data: ".toList ++ ·) ++ [[]])

/-- A line on the wire, with one of the two endings. -/
structure WireLine where
  text : List Char
  crlf : Bool
  flat : ∀ c ∈ text, isLineBreak c = false

/-- The bytes of a line without the line feed. -/
def WireLine.raw (line : WireLine) : List UInt8 :=
  utf8Encode (line.text ++ if line.crlf then ['\r'] else [])

def isComment (text : List Char) : Bool := text.head? = some ':'

/-- The lines stand for the events, with comments between them. -/
def Encodes (events : List SseEvent) (wire : List WireLine) : Prop :=
  (wire.map WireLine.text).filter (fun text => !isComment text) = events.flatMap SseEvent.lines

instance (events : List SseEvent) (wire : List WireLine) : Decidable (Encodes events wire) :=
  inferInstanceAs (Decidable (_ = _))

/-- The bytes of the wire. -/
def wireBytes (wire : List WireLine) : List UInt8 := terminated newline (wire.map WireLine.raw)

/-! ### What the curl reader gives -/

theorem rstripList_of_last {β : Type} {p : β → Bool} {xs : List β} {y : β} (kept : p y = false) :
    rstripList p (xs ++ [y]) = xs ++ [y] := by
  simp [rstripList, kept]

theorem rstripList_of_forall {β : Type} {p : β → Bool} {xs : List β} (kept : ∀ x ∈ xs, p x = false) :
    rstripList p xs = xs := by
  rcases List.eq_nil_or_concat xs with rfl | ⟨front, last, rfl⟩
  · rfl
  · rw [List.concat_eq_append] at kept ⊢
    exact rstripList_of_last (kept last (by simp))

theorem rstripList_append {β : Type} {p : β → Bool} {xs ys : List β} (dropped : ∀ y ∈ ys, p y = true) :
    rstripList p (xs ++ ys) = rstripList p xs := by
  have all : ∀ y ∈ ys.reverse, p y = true := fun y mem => dropped y (List.mem_reverse.mp mem)
  rw [rstripList, List.reverse_append, List.dropWhile_append_of_pos all, rstripList]

theorem byteBreak_not_mem_utf8Encode {text : List Char} (flat : ∀ c ∈ text, isLineBreak c = false) :
    newline ∉ utf8Encode text ∧ ∀ b ∈ utf8Encode text, (b == 13) = false := by
  constructor
  · refine newline_not_mem_utf8Encode fun mem => ?_
    have := flat _ mem
    revert this
    decide
  · intro b mem
    refine beq_false_of_ne ?_
    rintro rfl
    obtain ⟨c, inText, same⟩ := exists_char_of_mem_utf8Encode mem (by decide)
    have isReturn : c = '\r' := Char.toNat_inj.mp same
    have := flat c inText
    rw [isReturn] at this
    revert this
    decide

/-- The text of a `data:` line. -/
def dataItem (text : List Char) : Option (List Char) :=
  if dataField <+: text then some (stripList pyIsSpace (text.drop 5)) else none

theorem curlLine_raw (line : WireLine) : curlLine line.raw = .ok (dataItem line.text) := by
  have stripped : rstripList (· == 13) line.raw = utf8Encode line.text := by
    have kept := rstripList_of_forall (byteBreak_not_mem_utf8Encode line.flat).2
    rw [WireLine.raw]
    split_ifs
    · rw [utf8Encode_append, rstripList_append (List.all_eq_true.mp (by decide +kernel)), kept]
    · rw [List.append_nil, kept]
  rw [curlLine, stripped, utf8Decode_utf8Encode]
  rfl

theorem newline_not_mem_raw (line : WireLine) : newline ∉ line.raw := by
  rw [WireLine.raw, utf8Encode_append, List.mem_append, not_or]
  refine ⟨(byteBreak_not_mem_utf8Encode line.flat).1, ?_⟩
  split_ifs
  · decide
  · decide

theorem mapM_curlLine (wire : List WireLine) :
    (wire.map WireLine.raw).mapM curlLine = .ok ((wire.map WireLine.text).map dataItem) := by
  induction wire with
  | nil => rfl
  | cons line wire ih =>
    rw [List.map_cons, List.mapM_cons, curlLine_raw, ih]
    rfl

theorem curlItems_wire {wire : List WireLine} {chunks : List (List UInt8)}
    (cut : chunks.flatten = wireBytes wire) :
    curlItems chunks = .ok ((wire.map WireLine.text).filterMap dataItem) := by
  have plain : ∀ line ∈ wire.map WireLine.raw, newline ∉ line := by
    intro raw mem
    obtain ⟨line, -, rfl⟩ := List.mem_map.mp mem
    exact newline_not_mem_raw line
  have whole : [] ++ chunks.flatten = terminated newline (wire.map WireLine.raw) := cut
  rw [curlItems, linesOf_terminated plain List.not_mem_nil whole]
  dsimp only
  rw [mapM_curlLine]
  change Except.ok (((wire.map WireLine.text).map dataItem).filterMap id) = _
  rw [List.filterMap_map, Function.id_comp]

theorem filterMap_lines (event : SseEvent) :
    event.lines.filterMap dataItem = event.data.map (stripList pyIsSpace) := by
  have named : (event.name.map ("event: ".toList ++ ·)).toList.filterMap dataItem = [] := by
    cases event.name with
    | none => rfl
    | some name =>
      have other : ¬ dataField <+: "event: ".toList ++ name := by
        rintro ⟨rest, same⟩
        have first : 'd' = 'e' := (List.cons.inj same).1
        exact absurd first (by decide)
      rw [Option.map_some, Option.toList_some, List.filterMap_cons, dataItem, if_neg other, List.filterMap_nil]
  have data : (event.data.map ("data: ".toList ++ ·)).filterMap dataItem =
      event.data.map (stripList pyIsSpace) := by
    induction event.data with
    | nil => rfl
    | cons line lines ih =>
      have isData : dataItem ("data: ".toList ++ line) = some (stripList pyIsSpace line) := by
        have field : dataField <+: "data: ".toList ++ line := ⟨' ' :: line, rfl⟩
        have blank : pyIsSpace ' ' = true := by decide
        rw [dataItem, if_pos field]
        change some (stripList pyIsSpace (' ' :: line)) = _
        rw [stripList, List.dropWhile_cons_of_pos blank]
        rfl
      rw [List.map_cons, List.filterMap_cons, isData, ih, List.map_cons]
  rw [SseEvent.lines, List.filterMap_append, List.filterMap_append, named, data]
  simp [dataItem, dataField]

theorem items_of_encodes {events : List SseEvent} {wire : List WireLine} (encodes : Encodes events wire) :
    (wire.map WireLine.text).filterMap dataItem =
      events.flatMap fun event => event.data.map (stripList pyIsSpace) := by
  have comments : ∀ text, isComment text = true → dataItem text = none := by
    intro text comment
    have other : ¬ dataField <+: text := by
      rintro ⟨rest, rfl⟩
      have first : isComment (dataField ++ rest) = false := rfl
      exact Bool.noConfusion (first.symm.trans comment)
    rw [dataItem, if_neg other]
  calc (wire.map WireLine.text).filterMap dataItem
      = ((wire.map WireLine.text).filter fun text => !isComment text).filterMap dataItem := by
        rw [List.filterMap_filter]
        refine List.filterMap_congr fun text _ => ?_
        cases comment : isComment text with
        | false => rfl
        | true => exact comments text comment
    _ = (events.flatMap SseEvent.lines).filterMap dataItem := by rw [encodes]
    _ = events.flatMap fun event => event.data.map (stripList pyIsSpace) := by
        rw [List.filterMap_flatMap]
        exact List.flatMap_congr fun event _ => filterMap_lines event

/-! ### The lines of the frames -/

/-- What the lines of a body give, with the data lines of the event so far. -/
def gather : List (List Char) → List (List Char) → List (List Char)
  | [], dataLines => if dataLines = [] then [] else [joinLines '\n' dataLines]
  | text :: lines, dataLines =>
    let line := rstripList isLineBreak text
    if line = [] then
      if dataLines = [] then gather lines [] else joinLines '\n' dataLines :: gather lines []
    else if dataField <+: line then gather lines (dataLines ++ [(line.drop 5).dropWhile pyIsSpace])
    else gather lines dataLines

theorem utf8Encode_newline : utf8Encode ['\n'] = [newline] := by decide +kernel

theorem iterSseData_lines (lines dataLines : List (List Char)) :
    iterSseData ((lines.map utf8Encode).map (· ++ [newline])) dataLines = .ok (gather lines dataLines) := by
  induction lines generalizing dataLines with
  | nil => rfl
  | cons text lines ih =>
    have decoded : utf8Decode (utf8Encode text ++ [newline]) = some (text ++ ['\n']) := by
      rw [← utf8Encode_newline, ← utf8Encode_append, utf8Decode_utf8Encode]
    have stripped : rstripList isLineBreak (text ++ ['\n']) = rstripList isLineBreak text :=
      rstripList_append (List.all_eq_true.mp (by decide))
    rw [List.map_cons, List.map_cons, iterSseData, decoded]
    dsimp only
    rw [stripped, gather, ih, ih, ih]
    split_ifs
    · rfl
    · rfl
    · rfl
    · rfl

theorem gather_append (lines rest dataLines : List (List Char)) :
    gather (lines ++ [] :: rest) dataLines = gather (lines ++ [[]]) dataLines ++ gather rest [] := by
  induction lines generalizing dataLines with
  | nil =>
    have empty : rstripList isLineBreak ([] : List Char) = [] := rfl
    rw [List.nil_append, List.nil_append, gather, gather, empty, if_pos rfl, if_pos rfl]
    split_ifs
    · rfl
    · rfl
  | cons text lines ih =>
    rw [List.cons_append, List.cons_append, gather, gather, ih, ih, ih]
    split_ifs
    · rfl
    · rfl
    · rfl
    · rfl

section

variable (repr : Json → String)

/-- The lines of the event type of a frame. -/
def typeLines (item : List Char) : List (List Char) :=
  if frameType repr item = [] then [] else ("event: ".toList ++ frameType repr item).splitOn '\n'

def frameLines (item : List Char) : List (List Char) := typeLines repr item ++ ["data: ".toList ++ item, []]

theorem utf8Encode_terminated (lines : List (List Char)) :
    utf8Encode (terminated '\n' lines) = terminated newline (lines.map utf8Encode) := by
  induction lines with
  | nil => rfl
  | cons line lines ih =>
    rw [List.map_cons, terminated_cons, terminated_cons, utf8Encode_append, ← List.singleton_append,
      utf8Encode_append, utf8Encode_newline, ih, List.singleton_append]

theorem sseFrame_eq (item : List Char) :
    sseFrame repr item = terminated newline ((frameLines repr item).map utf8Encode) := by
  rw [← utf8Encode_terminated, frameLines, terminated_append, sseFrame]
  congr 2
  · rw [typeLines]
    split_ifs
    · rfl
    · have joined := joinLines_append_sep '\n'
        (List.splitOn_ne_nil '\n' ("event: ".toList ++ frameType repr item))
      rw [joinLines, List.intercalate_splitOn] at joined
      exact joined
  · rw [terminated_cons, terminated_cons]
    simp

theorem newline_not_mem_frameLines {item : List Char} (flat : '\n' ∉ item) :
    ∀ line ∈ frameLines repr item, '\n' ∉ line := by
  intro line mem
  rcases List.mem_append.mp mem with mem | mem
  · rw [typeLines] at mem
    split_ifs at mem
    · cases mem
    · exact sep_not_mem_of_mem_splitOn mem
  · simp only [List.mem_cons, List.not_mem_nil, or_false] at mem
    rcases mem with rfl | rfl
    · rw [List.mem_append, not_or]
      exact ⟨by decide, flat⟩
    · simp

theorem iterSseData_frames {items : List (List Char)} (flat : ∀ item ∈ items, '\n' ∉ item) :
    iterSseData (readLines newline [] (items.map (sseFrame repr))) [] =
      .ok (items.flatMap fun item => gather (frameLines repr item) []) := by
  have plain : ∀ line ∈ (items.flatMap (frameLines repr)).map utf8Encode, newline ∉ line := by
    intro raw mem
    obtain ⟨line, isLine, rfl⟩ := List.mem_map.mp mem
    obtain ⟨item, inItems, inLines⟩ := List.mem_flatMap.mp isLine
    exact newline_not_mem_utf8Encode (newline_not_mem_frameLines repr (flat item inItems) line inLines)
  have whole : [] ++ (items.map (sseFrame repr)).flatten =
      terminated newline ((items.flatMap (frameLines repr)).map utf8Encode) := by
    rw [List.nil_append]
    clear plain flat
    induction items with
    | nil => rfl
    | cons item items ih =>
      rw [List.map_cons, List.flatten_cons, ih, sseFrame_eq, List.flatMap_cons, List.map_append, terminated_append]
  rw [readLines_terminated plain whole, iterSseData_lines]
  congr 1
  clear plain whole flat
  induction items with
  | nil => rfl
  | cons item items ih =>
    have cut : frameLines repr item ++ items.flatMap (frameLines repr) =
        (typeLines repr item ++ ["data: ".toList ++ item]) ++ [] :: items.flatMap (frameLines repr) := by
      simp [frameLines]
    have own : frameLines repr item = (typeLines repr item ++ ["data: ".toList ++ item]) ++ [[]] := by
      simp [frameLines]
    rw [List.flatMap_cons, List.flatMap_cons, cut, gather_append, ← own, ih]

/-! ### What one frame gives -/

/-- No line of the event type of the frame is read as data. -/
def OneText (item : List Char) : Prop :=
  ∀ line ∈ typeLines repr item, ¬ dataField <+: rstripList isLineBreak line

variable {repr}

theorem dropWhile_of_stripList {item : List Char} (stripped : stripList pyIsSpace item = item) :
    item.dropWhile pyIsSpace = item := by
  have once : (item.dropWhile pyIsSpace).dropWhile pyIsSpace = item.dropWhile pyIsSpace := dropWhile_dropWhile item
  rw [← stripped]
  exact dropWhile_reverse_dropWhile_reverse _ once

theorem isSpace_of_isLineBreak {c : Char} (isBreak : isLineBreak c = true) : pyIsSpace c = true := by
  rw [isLineBreak, Bool.or_eq_true, beq_iff_eq, beq_iff_eq] at isBreak
  rcases isBreak with rfl | rfl
  · decide
  · decide

theorem gather_data {item : List Char} (stripped : stripList pyIsSpace item = item)
    (dataLines : List (List Char)) :
    gather ["data: ".toList ++ item, []] dataLines = [joinLines '\n' (dataLines ++ [item])] := by
  have whole : rstripList isLineBreak ("data: ".toList ++ item) = "data: ".toList ++ item := by
    rcases List.eq_nil_or_concat item with rfl | ⟨front, last, rfl⟩
    · decide
    · rw [List.concat_eq_append] at stripped ⊢
      have kept := last_of_stripList stripped
      have notBreak : isLineBreak last = false := by
        by_contra isBreak
        rw [Bool.not_eq_false] at isBreak
        exact Bool.noConfusion (kept.symm.trans (isSpace_of_isLineBreak isBreak))
      rw [← List.append_assoc]
      exact rstripList_of_last notBreak
  have field : dataField <+: "data: ".toList ++ item := ⟨' ' :: item, rfl⟩
  have blank : pyIsSpace ' ' = true := by decide
  have text : (("data: ".toList ++ item).drop 5).dropWhile pyIsSpace = item := by
    change (' ' :: item).dropWhile pyIsSpace = item
    rw [List.dropWhile_cons_of_pos blank, dropWhile_of_stripList stripped]
  have empty : rstripList isLineBreak ([] : List Char) = [] := rfl
  have notEmpty : "data: ".toList ++ item ≠ [] := by simp
  rw [gather, whole, if_neg notEmpty, if_pos field, text, gather, empty, if_pos rfl, if_neg (by simp), gather,
    if_pos rfl]

theorem gather_of_plain {lines : List (List Char)} (plain : ∀ line ∈ lines, ¬ dataField <+: rstripList isLineBreak line)
    (rest : List (List Char)) : gather (lines ++ rest) [] = gather rest [] := by
  induction lines with
  | nil => rfl
  | cons line lines ih =>
    obtain ⟨first, others⟩ := List.forall_mem_cons.mp plain
    rw [List.cons_append, gather, if_pos rfl, if_neg first, ih others, ite_self]

theorem gather_of_injected {item : List Char} (stripped : stripList pyIsSpace item = item)
    (lines dataLines : List (List Char))
    (injected : dataLines ≠ [] ∨ ∃ line ∈ lines, dataField <+: rstripList isLineBreak line) :
    2 ≤ (gather (lines ++ ["data: ".toList ++ item, []]) dataLines).length ∨
      ∃ text, gather (lines ++ ["data: ".toList ++ item, []]) dataLines = [text] ∧ '\n' ∈ text := by
  have positive : ∀ lines dataLines : List (List Char),
      1 ≤ (gather (lines ++ ["data: ".toList ++ item, []]) dataLines).length := by
    intro lines
    induction lines with
    | nil =>
      intro dataLines
      rw [List.nil_append, gather_data stripped, List.length_singleton]
    | cons line lines ih =>
      intro dataLines
      rw [List.cons_append, gather]
      split_ifs
      · exact ih _
      · exact Nat.le_add_left 1 _
      · exact ih _
      · exact ih _
  induction lines generalizing dataLines with
  | nil =>
    have before : dataLines ≠ [] := injected.resolve_right (by simp)
    refine .inr ⟨_, gather_data stripped dataLines, ?_⟩
    obtain ⟨first, others, rfl⟩ := List.exists_cons_of_ne_nil before
    rw [joinLines_concat]
    simp
  | cons line lines ih =>
    rw [List.cons_append, gather]
    split_ifs with empty none field
    · refine ih [] (.inr ?_)
      obtain ⟨other, mem, isData⟩ := injected.resolve_left (not_not.mpr none)
      rcases List.mem_cons.mp mem with rfl | later
      · rw [empty] at isData
        exact absurd isData (by decide)
      · exact ⟨other, later, isData⟩
    · have := positive lines []
      rw [List.length_cons]
      omega
    · exact ih _ (.inl (by simp))
    · refine ih _ (injected.imp_right fun found => ?_)
      obtain ⟨other, mem, isData⟩ := found
      rcases List.mem_cons.mp mem with rfl | later
      · exact absurd isData field
      · exact ⟨other, later, isData⟩

theorem gather_frameLines_iff {item text : List Char} (stripped : stripList pyIsSpace item = item)
    (flat : '\n' ∉ text) : gather (frameLines repr item) [] = [text] ↔ item = text ∧ OneText repr item := by
  constructor
  · intro single
    have plain : OneText repr item := by
      by_contra injected
      rw [OneText] at injected
      push Not at injected
      rcases gather_of_injected stripped _ [] (.inr injected) with many | ⟨other, one, broken⟩
      · rw [← frameLines, single] at many
        simp at many
      · rw [← frameLines, single] at one
        cases one
        exact flat broken
    rw [frameLines, gather_of_plain plain, gather_data stripped, List.nil_append, joinLines_singleton] at single
    exact ⟨(List.cons.inj single).1, plain⟩
  · rintro ⟨rfl, plain⟩
    rw [frameLines, gather_of_plain plain, gather_data stripped, List.nil_append, joinLines_singleton]

theorem gather_frameLines_ne_nil {item : List Char} (stripped : stripList pyIsSpace item = item) :
    gather (frameLines repr item) [] ≠ [] := by
  by_cases plain : OneText repr item
  · rw [frameLines, gather_of_plain plain, gather_data stripped]
    exact List.cons_ne_nil _ _
  · rw [OneText] at plain
    push Not at plain
    rcases gather_of_injected stripped _ [] (.inr plain) with many | ⟨other, one, -⟩
    · rw [← frameLines] at many
      intro none
      rw [none] at many
      simp at many
    · rw [frameLines, one]
      exact List.cons_ne_nil _ _

/-! ### What arrives -/

/-- The data of an event: its lines, joined. -/
def SseEvent.text (event : SseEvent) : List Char := joinLines '\n' event.data

theorem length_le_flatMap {α β : Type} {f : α → List β} {xs : List α} (some : ∀ x ∈ xs, f x ≠ []) :
    xs.length ≤ (xs.flatMap f).length := by
  induction xs with
  | nil => exact Nat.le_refl 0
  | cons x xs ih =>
    obtain ⟨first, others⟩ := List.forall_mem_cons.mp some
    have positive := List.length_pos_iff.mpr first
    have later := ih others
    rw [List.flatMap_cons, List.length_append, List.length_cons]
    omega

theorem flatMap_eq_map_iff {α β : Type} {f : α → List β} {g : α → β} {xs : List α} (some : ∀ x ∈ xs, f x ≠ []) :
    xs.flatMap f = xs.map g ↔ ∀ x ∈ xs, f x = [g x] := by
  induction xs with
  | nil => simp
  | cons x xs ih =>
    obtain ⟨first, others⟩ := List.forall_mem_cons.mp some
    rw [List.forall_mem_cons, ← ih others, List.flatMap_cons, List.map_cons]
    constructor
    · intro same
      have lengths := congrArg List.length same
      have positive := List.length_pos_iff.mpr first
      have later := length_le_flatMap others
      rw [List.length_append, List.length_cons, List.length_map] at lengths
      obtain ⟨y, isY⟩ := List.length_eq_one_iff.mp (show (f x).length = 1 by omega)
      rw [isY, List.singleton_append] at same
      obtain ⟨rfl, rest⟩ := List.cons.inj same
      exact ⟨isY, rest⟩
    · rintro ⟨own, rest⟩
      rw [own, rest, List.singleton_append]

theorem mem_stripList {β : Type} {p : β → Bool} {xs : List β} {x : β} (mem : x ∈ stripList p xs) : x ∈ xs := by
  rw [stripList, List.mem_reverse] at mem
  have inRest := (List.dropWhile_sublist _).mem mem
  exact (List.dropWhile_sublist _).mem (List.mem_reverse.mp inRest)

variable (repr)

/-- The texts that arrive are the data of the events exactly when every event has one data line, without
white space at its ends, whose type, if it is an object, does not look like data. -/
theorem delivered_iff {events : List SseEvent} {wire : List WireLine} (encodes : Encodes events wire)
    {chunks : List (List UInt8)} (cut : chunks.flatten = wireBytes wire) :
    delivered repr chunks = .ok (events.map SseEvent.text) ↔
      ∀ event ∈ events, ∃ line, event.data = [line] ∧ stripList pyIsSpace line = line ∧ OneText repr line := by
  have flat : ∀ item ∈ events.flatMap fun event => event.data.map (stripList pyIsSpace), '\n' ∉ item := by
    intro item mem
    obtain ⟨event, -, inData⟩ := List.mem_flatMap.mp mem
    obtain ⟨line, isLine, rfl⟩ := List.mem_map.mp inData
    intro broken
    have plain := event.flatData line isLine _ (mem_stripList broken)
    revert plain
    decide
  have arrives : delivered repr chunks = .ok (events.flatMap fun event =>
      event.data.flatMap fun line => gather (frameLines repr (stripList pyIsSpace line)) []) := by
    rw [delivered, curlItems_wire cut, items_of_encodes encodes]
    refine (iterSseData_frames repr flat).trans ?_
    rw [List.flatMap_assoc]
    simp only [List.flatMap_map]
  rw [arrives, Except.ok.injEq, flatMap_eq_map_iff fun event _ => ?_]
  · refine forall₂_congr fun event _ => ?_
    constructor
    · intro single
      have lines : event.data.length ≤ 1 := by
        have some : ∀ line ∈ event.data, gather (frameLines repr (stripList pyIsSpace line)) [] ≠ [] :=
          fun line _ => gather_frameLines_ne_nil (stripList_stripList line)
        have most := length_le_flatMap some
        rw [single] at most
        exact most
      have positive := List.length_pos_iff.mpr event.notEmpty
      obtain ⟨line, isLine⟩ := List.length_eq_one_iff.mp (show event.data.length = 1 by omega)
      have plain : '\n' ∉ line := by
        intro broken
        have := event.flatData line (by simp [isLine]) _ broken
        revert this
        decide
      rw [SseEvent.text, isLine, List.flatMap_singleton, joinLines_singleton,
        gather_frameLines_iff (stripList_stripList line) plain] at single
      obtain ⟨stripped, one⟩ := single
      rw [stripped] at one
      exact ⟨line, isLine, stripped, one⟩
    · rintro ⟨line, isLine, stripped, one⟩
      have plain : '\n' ∉ line := by
        intro broken
        have := event.flatData line (by simp [isLine]) _ broken
        revert this
        decide
      rw [SseEvent.text, isLine, List.flatMap_singleton, joinLines_singleton, stripped]
      exact (gather_frameLines_iff stripped plain).mpr ⟨rfl, one⟩
  · obtain ⟨line, lines, isData⟩ := List.exists_cons_of_ne_nil event.notEmpty
    rw [isData, List.flatMap_cons]
    exact fun none => gather_frameLines_ne_nil (stripList_stripList line) (List.append_eq_nil_iff.mp none).1

end

/-- An event with one text. -/
def textEvent : SseEvent where
  name := some "note".toList
  data := [dumps (.obj [("type", .str "note")])]
  notEmpty := List.cons_ne_nil _ _
  flatName text isName := by
    cases isName
    exact noLineBreak_of_all (by decide +kernel)
  flatData line isLine := by
    cases List.mem_singleton.mp isLine
    exact noLineBreak_of_all (by decide +kernel)

/-- Its lines, with a comment between them and both endings. -/
def textWire : List WireLine :=
  [⟨"event: note".toList, true, noLineBreak_of_all (by decide +kernel)⟩,
    ⟨": still here".toList, false, noLineBreak_of_all (by decide +kernel)⟩,
    ⟨"data: ".toList ++ dumps (.obj [("type", .str "note")]), true, noLineBreak_of_all (by decide +kernel)⟩,
    ⟨[], false, noLineBreak_of_all (by decide)⟩]

/-- The event arrives, with every byte in a chunk of its own. -/
theorem delivered_textEvent :
    delivered (fun _ => "None") ((wireBytes textWire).map fun b => [b]) = .ok ([textEvent].map SseEvent.text) ↔
      ∀ event ∈ [textEvent], ∃ line, event.data = [line] ∧ stripList pyIsSpace line = line ∧
        OneText (fun _ => "None") line := by
  have encodes : Encodes [textEvent] textWire := by decide +kernel
  have cut : ((wireBytes textWire).map fun b => [b]).flatten = wireBytes textWire := by decide +kernel
  exact delivered_iff _ encodes cut

/-- An event of two lines. -/
def twoLines : SseEvent where
  name := none
  data := ["a".toList, "b".toList]
  notEmpty := List.cons_ne_nil _ _
  flatName := nofun
  flatData line isLine := by
    rcases List.mem_pair.mp isLine with rfl | rfl
    · exact noLineBreak_of_all (by decide +kernel)
    · exact noLineBreak_of_all (by decide +kernel)

def twoLinesWire : List WireLine :=
  [⟨"data: a".toList, false, noLineBreak_of_all (by decide +kernel)⟩,
    ⟨"data: b".toList, false, noLineBreak_of_all (by decide +kernel)⟩, ⟨[], false, noLineBreak_of_all (by decide)⟩]

/-- The two lines arrive as two texts. -/
theorem delivered_twoLines :
    Encodes [twoLines] twoLinesWire ∧
      delivered (fun _ => "None") [wireBytes twoLinesWire] = .ok ["a".toList, "b".toList] ∧
      ["a".toList, "b".toList] ≠ [twoLines].map SseEvent.text := by
  refine ⟨by decide +kernel, ?_, by decide +kernel⟩
  have cut : [wireBytes twoLinesWire].flatten = wireBytes twoLinesWire := List.flatten_singleton
  have items : (twoLinesWire.map WireLine.text).filterMap dataItem = ["a".toList, "b".toList] := by decide +kernel
  rw [delivered, curlItems_wire cut, items]
  exact (iterSseData_frames _ (by decide +kernel)).trans (by decide +kernel)

end AgentPark.Gateway
