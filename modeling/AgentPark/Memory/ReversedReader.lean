import AgentPark.Lib.BackwardLines
import AgentPark.Memory.Record

/-!
# Reading records from the end of a file

`read_jsonl_records_reversed` reads a file of records backwards and leaves out what is in records whose role
is not asked for.  It tells the role by a regular expression on the bytes of a line.
-/

namespace AgentPark.Memory

open Lib

/-! ### The role of a line -/

/-- The byte of a quotation mark. -/
def quote : UInt8 := 34

/-- The byte of a backslash. -/
def backslash : UInt8 := 92

def colon : UInt8 := 58

/-- `([^"\\]*(?:\\.[^"\\]*)*)"`: the text in front of the first quotation mark without a backslash. -/
def scanRoleText : List UInt8 → Option (List UInt8)
  | [] => none
  | [b] => if b = quote then some [] else none
  | b :: c :: rest =>
    if b = quote then some []
    else if b = backslash then
      if c = newline then none else (scanRoleText rest).map fun text => b :: c :: text
    else (scanRoleText (c :: rest)).map fun text => b :: text

/-- `_JSON_ROLE_PATTERN` at the start of some bytes, with what the group holds. -/
def matchRole (bytes : List UInt8) : Option (List UInt8) := do
  let rest ← bytes.dropPrefix? (utf8Encode "\"role\"".toList)
  let rest ← (rest.dropWhile byteIsSpace).dropPrefix? [colon]
  let rest ← (rest.dropWhile byteIsSpace).dropPrefix? [quote]
  scanRoleText rest

/-- `_JSON_ROLE_PATTERN.search`. -/
def searchRole : List UInt8 → Option (List UInt8)
  | [] => none
  | b :: rest =>
    match matchRole (b :: rest) with
    | some group => some group
    | none => searchRole rest

/-- `sniff_json_role` -/
def sniffJsonRole (raw : List UInt8) : String :=
  match searchRole raw with
  | none => ""
  | some group =>
    match (utf8Decode (quote :: group ++ [quote])).bind loads with
    | some (.str decoded) => pyLower (pyStrip decoded)
    | _ => ""

/-! ### The reader -/

/-- A record, or the placeholder `{"id": "", "role": role, "parts": [], "created_at": "", "_deferred": True}`. -/
inductive ReversedRecord where
  | record (record : Record)
  | deferred (role : String)
deriving DecidableEq

/-- `parse_reversed_record_bytes` -/
def parseReversedRecordBytes (a : Ambient) (rawLine : List UInt8) (reverseIndex : Nat)
    (materializeRoles : Option (List String)) : Except ReadError (Option ReversedRecord) :=
  let raw := stripList byteIsSpace rawLine
  if raw.isEmpty then .ok none
  else
    let role := sniffJsonRole raw
    if ∃ roles ∈ materializeRoles, role ≠ "" ∧ role ∉ roles then .ok (some (.deferred role))
    else
      match utf8Decode raw with
      | none => .error .invalidUtf8
      | some text => (parseRecordLine a text (-reverseIndex)).map (Option.map .record)

/-- The records of pieces that come up one after the other, from an index on. -/
def parseReversed (a : Ambient) (materializeRoles : Option (List String)) :
    Nat → List (List UInt8) → Except ReadError (List ReversedRecord)
  | _, [] => .ok []
  | index, piece :: pieces => do
    let record ← parseReversedRecordBytes (a.at index) piece index materializeRoles
    let records ← parseReversed a materializeRoles (index + 1) pieces
    return record.toList ++ records

/-- What is left at the start of the file. -/
def parseRemainder (a : Ambient) (remainder : List UInt8) (reverseIndex : Nat)
    (materializeRoles : Option (List String)) : Except ReadError (Option ReversedRecord) :=
  if (stripList byteIsSpace remainder).isEmpty then .ok none
  else parseReversedRecordBytes a remainder reverseIndex materializeRoles

/-- `read_jsonl_records_reversed` on the bytes of a file. -/
def readJsonlRecordsReversed (a : Ambient) (materializeRoles : Option (List String)) (chunkSize : Int)
    (maxBytes : Option Int) (bytes : List UInt8) : Except ReadError (List ReversedRecord) := do
  let normalizedRoles := materializeRoles.map fun roles => roles.map fun role => pyLower (pyStrip role)
  let safeChunkSize := (max 4096 chunkSize).toNat
  let position :=
    match maxBytes with
    | none => bytes.length
    | some maxBytes => min bytes.length (max 0 maxBytes).toNat
  let (pieces, remainder) := backwardPieces newline safeChunkSize bytes position []
  let records ← parseReversed a normalizedRoles 1 pieces
  let first ← parseRemainder (a.at (pieces.length + 1)) remainder (pieces.length + 1) normalizedRoles
  return records ++ first.toList

/-! ### Escaped text -/

/-- The bytes of a string between its quotation marks. -/
inductive Escaped : List UInt8 → Prop
  | nil : Escaped []
  | plain {b : UInt8} {rest : List UInt8} : b ≠ quote → b ≠ backslash → Escaped rest → Escaped (b :: rest)
  | pair {c : UInt8} {rest : List UInt8} : c ≠ newline → Escaped rest → Escaped (backslash :: c :: rest)

theorem Escaped.append {front back : List UInt8} (escapedFront : Escaped front) (escapedBack : Escaped back) :
    Escaped (front ++ back) := by
  induction escapedFront with
  | nil => exact escapedBack
  | plain notQuote notBackslash _ ih => exact .plain notQuote notBackslash ih
  | pair notNewline _ ih => exact .pair notNewline ih

theorem escaped_of_plain {bytes : List UInt8} (plain : ∀ b ∈ bytes, b ≠ quote ∧ b ≠ backslash) :
    Escaped bytes := by
  induction bytes with
  | nil => exact .nil
  | cons b bytes ih =>
    obtain ⟨first, later⟩ := List.forall_mem_cons.mp plain
    exact .plain first.1 first.2 (ih later)

theorem escaped_utf8EncodeChar {c : Char} (notQuote : c ≠ '"') (notBackslash : c ≠ '\\') :
    Escaped (String.utf8EncodeChar c) := by
  refine escaped_of_plain fun b mem => ?_
  have inText : b ∈ utf8Encode [c] := by
    rw [utf8Encode_cons, utf8Encode_nil, List.append_nil]
    exact mem
  have other : ∀ d : Char, d.toNat = b.toNat → b.toNat < 128 → c = d := by
    intro d same small
    obtain ⟨found, isFound, isByte⟩ := exists_char_of_mem_utf8Encode inText small
    rw [List.mem_singleton] at isFound
    exact isFound ▸ Char.toNat_inj.mp (isByte.trans same.symm)
  constructor
  · rintro rfl
    exact notQuote (other '"' (by decide) (by decide))
  · rintro rfl
    exact notBackslash (other '\\' (by decide) (by decide))

theorem escaped_of_chars {cs : List Char} (plain : ∀ c ∈ cs, c ≠ '"' ∧ c ≠ '\\') : Escaped (utf8Encode cs) := by
  induction cs with
  | nil => exact .nil
  | cons c cs ih =>
    obtain ⟨first, later⟩ := List.forall_mem_cons.mp plain
    rw [utf8Encode_cons]
    exact (escaped_utf8EncodeChar first.1 first.2).append (ih later)

theorem hexDigit_plain : ∀ n < 16, hexDigit n ≠ '"' ∧ hexDigit n ≠ '\\' := by decide

theorem escaped_escapeChar (c : Char) : Escaped (utf8Encode (escapeChar c)) := by
  rw [escapeChar]
  split_ifs with notQuote notBackslash _ _ _ _ _ control
  · exact .pair (by decide) .nil
  · exact .pair (by decide) .nil
  · exact .pair (by decide) .nil
  · exact .pair (by decide) .nil
  · exact .pair (by decide) .nil
  · exact .pair (by decide) .nil
  · exact .pair (by decide) .nil
  · have high := hexDigit_plain (c.toNat / 16) (by omega)
    have low := hexDigit_plain (c.toNat % 16) (by omega)
    have plain : ∀ d ∈ ['0', '0', hexDigit (c.toNat / 16), hexDigit (c.toNat % 16)], d ≠ '"' ∧ d ≠ '\\' := by
      simp only [List.forall_mem_cons]
      exact ⟨by decide, by decide, high, low, nofun⟩
    exact .pair (by decide) (escaped_of_chars plain)
  · exact escaped_of_chars (by simpa using ⟨notQuote, notBackslash⟩)

theorem escaped_text (cs : List Char) : Escaped (utf8Encode (cs.flatMap escapeChar)) := by
  induction cs with
  | nil => exact .nil
  | cons c cs ih =>
    rw [List.flatMap_cons, utf8Encode_append]
    exact (escaped_escapeChar c).append ih

theorem scanRoleText_escaped {text : List UInt8} (escaped : Escaped text) (rest : List UInt8) :
    scanRoleText (text ++ quote :: rest) = some text := by
  have closing : ∀ rest, scanRoleText (quote :: rest) = some [] := by
    intro rest
    cases rest <;> rfl
  induction escaped with
  | nil => exact closing rest
  | @plain b text notQuote notBackslash _ ih =>
    have step : ∀ more, more ≠ [] → scanRoleText (b :: more) = (scanRoleText more).map fun text => b :: text := by
      intro more ne
      obtain ⟨c, more, rfl⟩ := List.exists_cons_of_ne_nil ne
      rw [scanRoleText, if_neg notQuote, if_neg notBackslash]
    rw [List.cons_append, step _ (by simp), ih]
    rfl
  | @pair c text notNewline _ ih =>
    rw [List.cons_append, List.cons_append, scanRoleText, if_neg (by decide), if_pos rfl, if_neg notNewline, ih]
    rfl

/-! ### Where the role is found -/

theorem roleKey_eq : utf8Encode "\"role\"".toList = [quote, 114, 111, 108, 101, quote] := by decide

theorem matchRole_of_ne {b : UInt8} (notQuote : b ≠ quote) (rest : List UInt8) : matchRole (b :: rest) = none := by
  have noKey : (b :: rest).dropPrefix? (utf8Encode "\"role\"".toList) = none := by
    rw [roleKey_eq, List.dropPrefix?]
    exact if_neg (by simpa using notQuote)
  rw [matchRole, noKey]
  rfl

theorem searchRole_skip {front : List UInt8} (plain : quote ∉ front) (rest : List UInt8) :
    searchRole (front ++ rest) = searchRole rest := by
  induction front with
  | nil => rfl
  | cons b front ih =>
    rw [List.mem_cons, not_or] at plain
    rw [List.cons_append, searchRole, matchRole_of_ne (Ne.symm plain.1), ih plain.2]

theorem matchRole_escaped {text : List UInt8} (escaped : Escaped text) {rest : List UInt8}
    (noColon : ∀ more, rest.dropWhile byteIsSpace ≠ colon :: more) :
    matchRole (quote :: (text ++ quote :: rest)) = none := by
  rw [matchRole]
  cases isKey : (quote :: (text ++ quote :: rest)).dropPrefix? (utf8Encode "\"role\"".toList) with
  | none => rfl
  | some tail =>
    obtain ⟨front, split, isFront⟩ := List.dropPrefix?_eq_some_iff.mp isKey
    rw [beq_iff_eq.mp isFront, roleKey_eq] at split
    have afterQuote : text ++ quote :: rest = [114, 111, 108, 101] ++ quote :: tail := (List.cons.inj split).2
    -- both are strings, so they end at the same quotation mark
    have word : Escaped [114, 111, 108, 101] :=
      .plain (by decide) (by decide) (.plain (by decide) (by decide)
        (.plain (by decide) (by decide) (.plain (by decide) (by decide) .nil)))
    have same := (scanRoleText_escaped escaped rest).symm.trans
      ((congrArg scanRoleText afterQuote).trans (scanRoleText_escaped word tail))
    rw [Option.some.inj same] at afterQuote
    have isTail : rest = tail := (List.cons.inj (List.append_cancel_left afterQuote)).2
    change ((tail.dropWhile byteIsSpace).dropPrefix? [colon] >>= _) = none
    rw [← isTail]
    cases isDropped : rest.dropWhile byteIsSpace with
    | nil => rfl
    | cons b more =>
      have notColon : b ≠ colon := by
        rintro rfl
        exact noColon more isDropped
      have noMatch : (b :: more).dropPrefix? [colon] = none := by
        rw [List.dropPrefix?]
        exact if_neg (by simpa using notColon)
      rw [noMatch]
      rfl

theorem searchRole_escaped {text : List UInt8} (escaped : Escaped text) {rest : List UInt8}
    (noColon : ∀ more, rest.dropWhile byteIsSpace ≠ colon :: more) :
    searchRole (text ++ quote :: rest) = searchRole (quote :: rest) := by
  induction escaped with
  | nil => rfl
  | @plain b text notQuote _ _ ih => rw [List.cons_append, searchRole, matchRole_of_ne notQuote, ih]
  | @pair c text _ escaped ih =>
    have noMatch : matchRole (c :: (text ++ quote :: rest)) = none := by
      by_cases isQuote : c = quote
      · rw [isQuote]
        exact matchRole_escaped escaped noColon
      · exact matchRole_of_ne isQuote _
    rw [List.cons_append, List.cons_append, searchRole, matchRole_of_ne (by decide), searchRole, noMatch, ih]

/-! ### The line of a record -/

theorem Record.line_start (r : Record) : ∃ rest, r.line = "\x7b\"id\": \"".toList ++
    (r.id.toList.flatMap escapeChar ++ ("\", \"role\": \"".toList ++
      (r.role.toList.flatMap escapeChar ++ '"' :: rest))) := by
  have idKey : dumpsString "id".toList = ['i', 'd', '"'] := by decide
  have roleKey : dumpsString "role".toList = ['r', 'o', 'l', 'e', '"'] := by decide
  have start : "\x7b\"id\": \"".toList = ['{', '"', 'i', 'd', '"', ':', ' ', '"'] := by decide
  have between : "\", \"role\": \"".toList =
      ['"', ',', ' ', '"', 'r', 'o', 'l', 'e', '"', ':', ' ', '"'] := by decide
  refine ⟨',' :: ' ' :: dumpsFields (("parts", .arr (r.parts.map Part.json)) ::
    ([("created_at", .str r.createdAt)] ++ entry "trace_id" (if r.traceId = "" then none else some (.str r.traceId)))), ?_⟩
  rw [Record.line, Record.toJson, dumps, List.cons_append, List.cons_append, List.cons_append, dumpsFields,
    dumpsFields, dumps, dumps, idKey, roleKey, start, between, dumpsString, dumpsString]
  simp only [List.cons_append, List.nil_append, List.append_assoc]

/-- What is found in the line of a record is its role. -/
theorem sniffJsonRole_line (r : Record) {front : List UInt8} (plain : quote ∉ front) (back : List UInt8) :
    sniffJsonRole (front ++ (utf8Encode r.line ++ back)) = r.role := by
  obtain ⟨rest, isLine⟩ := r.line_start
  have isStart : utf8Encode "\x7b\"id\": \"".toList = [123, quote, 105, 100, quote, colon, 32, quote] := by decide
  have isBetween : utf8Encode "\", \"role\": \"".toList =
      [quote, 44, 32, quote, 114, 111, 108, 101, quote, colon, 32, quote] := by decide
  have found : searchRole (front ++ (utf8Encode r.line ++ back)) =
      some (utf8Encode (r.role.toList.flatMap escapeChar)) := by
    rw [searchRole_skip plain, isLine]
    simp only [utf8Encode_append, utf8Encode_cons, isStart, isBetween, List.append_assoc]
    have idEscaped := escaped_text r.id.toList
    have roleEscaped := escaped_text r.role.toList
    generalize utf8Encode (r.id.toList.flatMap escapeChar) = id at idEscaped ⊢
    generalize utf8Encode (r.role.toList.flatMap escapeChar) = role at roleEscaped ⊢
    have quoteByte : String.utf8EncodeChar '"' = [quote] := by decide
    rw [quoteByte]
    simp only [List.cons_append, List.nil_append]
    have toId : ∀ behind, searchRole (123 :: quote :: 105 :: 100 :: quote :: colon :: 32 :: quote :: behind) =
        searchRole (quote :: behind) := fun _ => rfl
    have toKey : ∀ behind, searchRole (quote :: 44 :: 32 :: quote :: 114 :: behind) =
        searchRole (quote :: 114 :: behind) := fun _ => rfl
    have atKey : ∀ behind, matchRole (quote :: 114 :: 111 :: 108 :: 101 :: quote :: colon :: 32 :: quote :: behind) =
        scanRoleText behind := by
      intro behind
      rw [matchRole, roleKey_eq]
      have key : (quote :: 114 :: 111 :: 108 :: 101 :: quote :: colon :: 32 :: quote :: behind).dropPrefix?
          [quote, 114, 111, 108, 101, quote] = some (colon :: 32 :: quote :: behind) :=
        @List.dropPrefix?_append_of_beq _ _ [quote, 114, 111, 108, 101, quote] _ _ BEq.rfl
      have isColon : (colon :: 32 :: quote :: behind).dropPrefix? [colon] = some (32 :: quote :: behind) :=
        @List.dropPrefix?_append_of_beq _ _ [colon] _ _ BEq.rfl
      have isQuote : (quote :: behind).dropPrefix? [quote] = some behind :=
        @List.dropPrefix?_append_of_beq _ _ [quote] _ _ BEq.rfl
      have noBlank : (colon :: 32 :: quote :: behind).dropWhile byteIsSpace = colon :: 32 :: quote :: behind := rfl
      have oneBlank : ((32 : UInt8) :: quote :: behind).dropWhile byteIsSpace = quote :: behind := rfl
      simp only [key, isColon, isQuote, noBlank, oneBlank, Option.bind_eq_bind, Option.bind_some]
    have comma : ∀ behind more, (44 :: behind).dropWhile byteIsSpace ≠ colon :: more :=
      fun _ _ same => absurd (List.cons.inj same).1 (by decide)
    rw [toId, searchRole, matchRole_escaped idEscaped (comma _), searchRole_escaped idEscaped (comma _), toKey,
      searchRole, atKey, scanRoleText_escaped roleEscaped]
  rw [sniffJsonRole, found]
  have isText : quote :: utf8Encode (r.role.toList.flatMap escapeChar) ++ [quote] =
      utf8Encode (dumps (.str r.role)) := by
    rw [dumps, dumpsString, utf8Encode_cons, utf8Encode_append]
    rfl
  have decoded : (utf8Decode (utf8Encode (dumps (.str r.role)))).bind loads = some (.str r.role) := by
    rw [utf8Decode_utf8Encode, Option.bind_some, @loads_dumps (.str r.role) trivial]
  dsimp only
  rw [isText, decoded]
  exact r.role_normal


/-! ### Files of records -/

/-- A blank character, or the line of a record with blanks behind it. -/
inductive FilePiece where
  | blank (c : Char) (isSpace : pyIsSpace c = true)
  | line (record : Record) (back : List Char) (spaces : ∀ c ∈ back, pyIsSpace c = true)

def FilePiece.text : FilePiece → List Char
  | .blank c _ => [c]
  | .line record back _ => record.line ++ (back ++ ['\n'])

def FilePiece.record : FilePiece → Option Record
  | .blank _ _ => none
  | .line record _ _ => some record

/-- A file of records, with blank lines and other blanks between them; the last line may end with the file. -/
structure JsonlFile where
  pieces : List FilePiece
  last : Option Record

def JsonlFile.text (file : JsonlFile) : List Char :=
  file.pieces.flatMap FilePiece.text ++ (file.last.map Record.line).getD []

def JsonlFile.bytes (file : JsonlFile) : List UInt8 := utf8Encode file.text

def JsonlFile.records (file : JsonlFile) : List Record :=
  file.pieces.filterMap FilePiece.record ++ file.last.toList

/-- Lines that are blank or hold a record. -/
inductive HoldsRecords : List (List Char) → List Record → Prop
  | nil : HoldsRecords [] []
  | blank {line : List Char} {lines : List (List Char)} {records : List Record} :
      (∀ c ∈ line, pyIsSpace c = true) → HoldsRecords lines records → HoldsRecords (line :: lines) records
  | record {front back : List Char} {lines : List (List Char)} {records : List Record} (record : Record) :
      (∀ c ∈ front, pyIsSpace c = true) → (∀ c ∈ back, pyIsSpace c = true) → HoldsRecords lines records →
        HoldsRecords ((front ++ record.line ++ back) :: lines) (record :: records)

/-- A way to cut a text into lines, which may take a carriage return for a line break. -/
structure Cuts (cut : List Char → List (List Char)) : Prop where
  nil : cut [] = [[]]
  newline : ∀ cs, cut ('\n' :: cs) = [] :: cut cs
  plain : ∀ c cs, c ≠ '\n' → c ≠ '\r' → cut (c :: cs) = (cut cs).modifyHead (c :: ·)
  carriage : ∀ cs, cut ('\r' :: cs) = (cut cs).modifyHead ('\r' :: ·) ∨ cut ('\r' :: cs) = [] :: cut cs ∨
    cut ('\r' :: cs) = cut cs

section
variable {cut : List Char → List (List Char)} {lines : List (List Char)} {records : List Record}

theorem cuts_splitOn : Cuts fun cs => cs.splitOn '\n' where
  nil := rfl
  newline := fun cs => List.splitOn_append_cons_self_of_not_mem (List.not_mem_nil : '\n' ∉ []) cs
  plain := by
    intro c cs notBreak _
    rw [List.splitOn_cons_eq_if_modifyHead, if_neg (by simpa using notBreak)]
  carriage := by
    intro cs
    rw [List.splitOn_cons_eq_if_modifyHead, if_neg (by decide)]
    exact .inl rfl

theorem cuts_universalNewlines : Cuts fun cs => (universalNewlines cs).splitOn '\n' where
  nil := rfl
  newline := by
    intro cs
    exact cuts_splitOn.newline (universalNewlines cs)
  plain := by
    intro c cs notBreak notReturn
    rw [universalNewlines.eq_3 c cs (fun _ same _ => notReturn same) (fun same => notReturn same)]
    exact cuts_splitOn.plain c (universalNewlines cs) notBreak notReturn
  carriage := by
    intro cs
    cases cs with
    | nil => exact .inr (.inl rfl)
    | cons c cs =>
      by_cases isBreak : c = '\n'
      · subst isBreak
        exact .inr (.inr rfl)
      · have alone : universalNewlines ('\r' :: c :: cs) = '\n' :: universalNewlines (c :: cs) :=
          universalNewlines.eq_2 (c :: cs) fun _ same => isBreak (List.cons.inj same).1
        refine .inr (.inl ?_)
        rw [alone]
        exact cuts_splitOn.newline (universalNewlines (c :: cs))

theorem HoldsRecords.modifyHead {c : Char} (isSpace : pyIsSpace c = true) (holds : HoldsRecords lines records) :
    HoldsRecords (lines.modifyHead (c :: ·)) records := by
  cases holds with
  | nil => exact .nil
  | blank spaces holds => exact .blank (List.forall_mem_cons.mpr ⟨isSpace, spaces⟩) holds
  | record record front back holds => exact .record record (List.forall_mem_cons.mpr ⟨isSpace, front⟩) back holds

theorem holds_blank (cuts : Cuts cut) {c : Char} {cs : List Char} (isSpace : pyIsSpace c = true)
    (holds : HoldsRecords (cut cs) records) : HoldsRecords (cut (c :: cs)) records := by
  by_cases isBreak : c = '\n'
  · rw [isBreak, cuts.newline]
    exact .blank nofun holds
  · by_cases isReturn : c = '\r'
    · subst isReturn
      rcases cuts.carriage cs with same | same | same
      · rw [same]
        exact holds.modifyHead isSpace
      · rw [same]
        exact .blank nofun holds
      · rw [same]
        exact holds
    · rw [cuts.plain c cs isBreak isReturn]
      exact holds.modifyHead isSpace

theorem exists_blank_line (cuts : Cuts cut) {back cs : List Char} (spaces : ∀ c ∈ back, pyIsSpace c = true)
    (holds : HoldsRecords (cut cs) records) :
    ∃ first lines, cut (back ++ '\n' :: cs) = first :: lines ∧ (∀ c ∈ first, pyIsSpace c = true) ∧
      HoldsRecords lines records := by
  induction back with
  | nil => exact ⟨[], cut cs, cuts.newline cs, nofun, holds⟩
  | cons c back ih =>
    obtain ⟨isSpace, spaces⟩ := List.forall_mem_cons.mp spaces
    obtain ⟨first, lines, isCut, isBlank, holds⟩ := ih spaces
    have extended : ∀ d ∈ c :: first, pyIsSpace d = true := List.forall_mem_cons.mpr ⟨isSpace, isBlank⟩
    rw [List.cons_append]
    by_cases isBreak : c = '\n'
    · rw [isBreak, cuts.newline, isCut]
      exact ⟨[], first :: lines, rfl, nofun, .blank isBlank holds⟩
    · by_cases isReturn : c = '\r'
      · subst isReturn
        rcases cuts.carriage (back ++ '\n' :: cs) with same | same | same
        · rw [same, isCut]
          exact ⟨_, lines, rfl, extended, holds⟩
        · rw [same, isCut]
          exact ⟨[], first :: lines, rfl, nofun, .blank isBlank holds⟩
        · rw [same, isCut]
          exact ⟨first, lines, rfl, isBlank, holds⟩
      · rw [cuts.plain c _ isBreak isReturn, isCut]
        exact ⟨_, lines, rfl, extended, holds⟩

theorem cut_append (cuts : Cuts cut) {front cs : List Char} (noBreak : '\n' ∉ front) (noReturn : '\r' ∉ front) :
    cut (front ++ cs) = (cut cs).modifyHead (front ++ ·) := by
  induction front with
  | nil =>
    rw [List.nil_append]
    cases cut cs <;> rfl
  | cons c front ih =>
    rw [List.mem_cons, not_or] at noBreak noReturn
    rw [List.cons_append, cuts.plain c _ (Ne.symm noBreak.1) (Ne.symm noReturn.1), ih noBreak.2 noReturn.2]
    cases cut cs <;> rfl

theorem JsonlFile.holdsRecords (cuts : Cuts cut) (file : JsonlFile) :
    HoldsRecords (cut file.text) file.records := by
  obtain ⟨pieces, last⟩ := file
  rw [JsonlFile.text, JsonlFile.records]
  induction pieces with
  | nil =>
    cases last with
    | none =>
      change HoldsRecords (cut []) []
      rw [cuts.nil]
      exact .blank nofun .nil
    | some record =>
      have isCut : cut record.line = [record.line] := by
        have alone := @cut_append cut cuts record.line [] record.lineBreak_not_mem.1 record.lineBreak_not_mem.2
        rw [List.append_nil, cuts.nil] at alone
        rw [alone, List.modifyHead_cons, List.append_nil]
      change HoldsRecords (cut record.line) [record]
      rw [isCut]
      have holds := @HoldsRecords.record [] [] [] [] record nofun nofun .nil
      rw [List.nil_append, List.append_nil] at holds
      exact holds
  | cons piece pieces ih =>
    rw [List.flatMap_cons, List.append_assoc]
    cases piece with
    | blank c isSpace => exact holds_blank cuts isSpace ih
    | line record back spaces =>
      obtain ⟨first, lines, isCut, isBlank, holds⟩ := exists_blank_line cuts spaces ih
      have isText : FilePiece.text (.line record back spaces) ++
          (pieces.flatMap FilePiece.text ++ (last.map Record.line).getD []) =
            record.line ++ (back ++ '\n' :: (pieces.flatMap FilePiece.text ++ (last.map Record.line).getD [])) := by
        simp only [FilePiece.text, List.append_assoc, List.singleton_append]
      rw [isText, cut_append cuts record.lineBreak_not_mem.1 record.lineBreak_not_mem.2, isCut,
        List.modifyHead_cons]
      exact @HoldsRecords.record [] first lines _ record nofun isBlank holds

theorem HoldsRecords.append {later : List (List Char)} {laterRecords : List Record}
    (holds : HoldsRecords lines records) (behind : HoldsRecords later laterRecords) :
    HoldsRecords (lines ++ later) (records ++ laterRecords) := by
  induction holds with
  | nil => exact behind
  | blank spaces _ ih => exact .blank spaces ih
  | record record front back _ ih => exact .record record front back ih

theorem HoldsRecords.reverse (holds : HoldsRecords lines records) :
    HoldsRecords lines.reverse records.reverse := by
  induction holds with
  | nil => exact .nil
  | blank spaces _ ih =>
    have holds := ih.append (.blank spaces .nil)
    rw [List.append_nil] at holds
    rw [List.reverse_cons]
    exact holds
  | record record front back _ ih =>
    rw [List.reverse_cons, List.reverse_cons]
    exact ih.append (.record record front back .nil)

end

/-! ### What is read -/

theorem parseRecordLine_strip (a : Ambient) (line : List Char) (n : Int) :
    parseRecordLine a (stripList pyIsSpace line) n = parseRecordLine a line n := by
  rw [parseRecordLine, parseRecordLine, stripList_stripList]

theorem parseRecordLine_padded (a : Ambient) (r : Record) {front back : List Char}
    (allFront : ∀ c ∈ front, pyIsSpace c = true) (allBack : ∀ c ∈ back, pyIsSpace c = true) (n : Int) :
    parseRecordLine a (front ++ r.line ++ back) n = .ok (some r) := by
  have notEmpty : r.line ≠ [] := by
    obtain ⟨cs, isLine⟩ := r.line_eq
    rw [isLine]
    exact List.cons_ne_nil _ _
  rw [← parseRecordLine_strip, stripList_pad allFront allBack r.stripList_line notEmpty, parseRecordLine_line]

theorem parseRecordLine_spaces (a : Ambient) {line : List Char} (spaces : ∀ c ∈ line, pyIsSpace c = true)
    (n : Int) : parseRecordLine a line n = .ok none := by
  have isNil : stripList pyIsSpace line = [] := by
    rw [stripList, List.dropWhile_eq_nil_iff.mpr spaces]
    rfl
  rw [← parseRecordLine_strip, isNil, parseRecordLine_blank]

theorem parseLines_holds (a : Ambient) {lines : List (List Char)} {records : List Record}
    (holds : HoldsRecords lines records) (n : Nat) : parseLines a n lines = .ok records := by
  induction holds generalizing n with
  | nil => rfl
  | blank spaces _ ih =>
    rw [parseLines, parseRecordLine_spaces _ spaces, ih]
    rfl
  | record record front back _ ih =>
    rw [parseLines, parseRecordLine_padded _ record front back, ih]
    rfl

/-- What the backward reader yields for a record. -/
def yielded (roles : Option (List String)) (r : Record) : ReversedRecord :=
  if ∃ wanted ∈ roles, r.role ∉ wanted then .deferred r.role else .record r

theorem quote_not_mem {cs : List Char} (spaces : ∀ c ∈ cs, pyIsSpace c = true) : quote ∉ utf8Encode cs := by
  intro mem
  obtain ⟨c, inText, isQuote⟩ := exists_char_of_mem_utf8Encode mem (by decide)
  have isChar : c = '"' := Char.toNat_inj.mp isQuote
  exact absurd (spaces c inText) (by rw [isChar]; decide)

theorem sniffJsonRole_blank {cs : List Char} (spaces : ∀ c ∈ cs, pyIsSpace c = true) :
    sniffJsonRole (utf8Encode cs) = "" := by
  have none := searchRole_skip (quote_not_mem spaces) []
  rw [List.append_nil] at none
  rw [sniffJsonRole, none]
  rfl

theorem stripList_line_ascii (r : Record) {front back : List Char} (allFront : ∀ c ∈ front, pyIsSpace c = true)
    (allBack : ∀ c ∈ back, pyIsSpace c = true) :
    ∃ left right, stripList asciiIsSpace (front ++ r.line ++ back) = left ++ r.line ++ right ∧
      (∀ c ∈ left, pyIsSpace c = true) ∧ ∀ c ∈ right, pyIsSpace c = true := by
  obtain ⟨cs, isLine⟩ := r.line_eq
  refine ⟨front.dropWhile asciiIsSpace, (back.reverse.dropWhile asciiIsSpace).reverse, ?_, ?_, ?_⟩
  · rw [isLine]
    exact stripList_around (by decide) (by decide) front cs back
  · exact fun c mem => allFront c ((List.dropWhile_sublist _).subset mem)
  · intro c mem
    have inBack := (List.dropWhile_sublist asciiIsSpace).subset (List.mem_reverse.mp mem)
    exact allBack c (List.mem_reverse.mp inBack)

theorem parseReversedRecordBytes_blank (a : Ambient) {line : List Char}
    (spaces : ∀ c ∈ line, pyIsSpace c = true) (index : Nat) (roles : Option (List String)) :
    parseReversedRecordBytes a (utf8Encode line) index roles = .ok none := by
  have fewer : ∀ c ∈ stripList asciiIsSpace line, pyIsSpace c = true :=
    fun c mem => spaces c (mem_of_mem_stripList mem)
  rw [parseReversedRecordBytes, stripList_utf8Encode, sniffJsonRole_blank fewer, utf8Decode_utf8Encode]
  dsimp only
  rw [parseRecordLine_spaces a fewer]
  split_ifs with empty deferred
  · rfl
  · obtain ⟨-, -, notEmpty, -⟩ := deferred
    exact absurd rfl notEmpty
  · rfl

theorem parseReversedRecordBytes_record (a : Ambient) (r : Record) {front back : List Char}
    (allFront : ∀ c ∈ front, pyIsSpace c = true) (allBack : ∀ c ∈ back, pyIsSpace c = true) (index : Nat)
    (roles : Option (List String)) :
    parseReversedRecordBytes a (utf8Encode (front ++ r.line ++ back)) index roles =
      .ok (some (yielded roles r)) := by
  obtain ⟨left, right, isStripped, allLeft, allRight⟩ := stripList_line_ascii r allFront allBack
  have sniffed : sniffJsonRole (utf8Encode (left ++ r.line ++ right)) = r.role := by
    rw [utf8Encode_append, utf8Encode_append, List.append_assoc]
    exact sniffJsonRole_line r (quote_not_mem allLeft) _
  rw [parseReversedRecordBytes, stripList_utf8Encode, isStripped, sniffed, utf8Decode_utf8Encode]
  dsimp only
  rw [parseRecordLine_padded a r allLeft allRight, yielded]
  have notEmpty : (utf8Encode (left ++ r.line ++ right)).isEmpty = false := by
    obtain ⟨cs, isLine⟩ := r.line_eq
    rw [List.isEmpty_eq_false_iff, isLine, utf8Encode_append, utf8Encode_append, utf8Encode_cons]
    simp
  have sameRoles : (∃ wanted ∈ roles, r.role ≠ "" ∧ r.role ∉ wanted) ↔ ∃ wanted ∈ roles, r.role ∉ wanted :=
    exists_congr fun wanted => and_congr_right fun _ => and_iff_right r.role_ne
  rw [notEmpty, if_neg Bool.false_ne_true]
  split_ifs with deferred wanted unwanted
  · rfl
  · exact absurd (sameRoles.mp deferred) wanted
  · exact absurd (sameRoles.mpr unwanted) deferred
  · rfl

/-! ### Backwards -/

theorem parseReversed_holds (a : Ambient) (roles : Option (List String)) {lines : List (List Char)}
    {records : List Record} (holds : HoldsRecords lines records) (index : Nat) :
    parseReversed a roles index (lines.map utf8Encode) = .ok (records.map (yielded roles)) := by
  induction holds generalizing index with
  | nil => rfl
  | blank spaces _ ih =>
    rw [List.map_cons, parseReversed, parseReversedRecordBytes_blank _ spaces, ih]
    rfl
  | record record front back _ ih =>
    rw [List.map_cons, List.map_cons, parseReversed, parseReversedRecordBytes_record _ record front back, ih]
    rfl

theorem parseReversed_concat (a : Ambient) (roles : Option (List String)) (pieces : List (List UInt8))
    (last : List UInt8) (index : Nat) :
    parseReversed a roles index (pieces ++ [last]) = (do
      let records ← parseReversed a roles index pieces
      let first ← parseReversedRecordBytes (a.at (index + pieces.length)) last (index + pieces.length) roles
      return records ++ first.toList) := by
  induction pieces generalizing index with
  | nil =>
    simp only [List.nil_append, parseReversed, List.length_nil, Nat.add_zero]
    cases parseReversedRecordBytes (a.at index) last index roles with
    | error error => rfl
    | ok first =>
      change Except.ok (first.toList ++ []) = Except.ok ([] ++ first.toList)
      rw [List.append_nil, List.nil_append]
  | cons piece pieces ih =>
    rw [List.cons_append, parseReversed, parseReversed, ih, List.length_cons, Nat.add_right_comm, Nat.add_assoc]
    cases parseReversedRecordBytes (a.at index) piece index roles with
    | error error => rfl
    | ok record =>
      cases parseReversed a roles (index + 1) pieces with
      | error error => rfl
      | ok records =>
        dsimp only [bind, Except.bind]
        cases parseReversedRecordBytes (a.at (index + (pieces.length + 1))) last
            (index + (pieces.length + 1)) roles with
        | error error => rfl
        | ok first => exact congrArg Except.ok (List.append_assoc _ _ _).symm

theorem parseRemainder_eq (a : Ambient) (piece : List UInt8) (index : Nat) (roles : Option (List String)) :
    parseRemainder a piece index roles = parseReversedRecordBytes a piece index roles := by
  rw [parseRemainder]
  split_ifs with empty
  · rw [parseReversedRecordBytes, empty, if_pos rfl]
  · rfl

theorem readJsonlRecordsReversed_file (a : Ambient) (roles : Option (List String)) (chunkSize : Int)
    (file : JsonlFile) :
    readJsonlRecordsReversed a roles chunkSize none file.bytes = .ok (file.records.reverse.map
      (yielded (roles.map fun roles => roles.map fun role => pyLower (pyStrip role)))) := by
  have positive : 0 < (max 4096 chunkSize).toNat := by omega
  have pieces := @backwardPieces_eq _ _ newline _ positive file.bytes file.bytes.length [] List.not_mem_nil
  have holds := (file.holdsRecords cuts_splitOn).reverse
  rw [List.take_length, List.append_nil, JsonlFile.bytes, splitOn_utf8Encode, ← List.map_reverse] at pieces
  rw [readJsonlRecordsReversed]
  dsimp only
  rw [JsonlFile.bytes]
  generalize backwardPieces newline (max 4096 chunkSize).toNat (utf8Encode file.text)
    (utf8Encode file.text).length [] = cut at pieces ⊢
  obtain ⟨front, last⟩ := cut
  dsimp only at pieces ⊢
  simp only [parseRemainder_eq]
  have read := parseReversed_holds a
    (roles.map fun roles => roles.map fun role => pyLower (pyStrip role)) holds 1
  rw [← pieces, parseReversed_concat, Nat.add_comm] at read
  exact read

/-- The backward reader gives what the forward reader gives, backwards, with a placeholder for each record
whose role is not asked for. -/
theorem readJsonlRecordsReversed_eq (a b : Ambient) (file : JsonlFile) (chunkSize : Int) :
    readJsonlRecords a file.bytes = .ok file.records ∧
    readJsonlRecordsReversed b none chunkSize none file.bytes =
      .ok (file.records.reverse.map ReversedRecord.record) ∧
    ∀ roles : List String, readJsonlRecordsReversed b (some roles) chunkSize none file.bytes =
      .ok (file.records.reverse.map fun r =>
        if r.role ∈ roles.map fun role => pyLower (pyStrip role) then .record r else .deferred r.role) := by
  refine ⟨?_, ?_, fun roles => ?_⟩
  · rw [readJsonlRecords, JsonlFile.bytes, utf8Decode_utf8Encode]
    exact parseLines_holds a (file.holdsRecords cuts_universalNewlines) 1
  · rw [readJsonlRecordsReversed_file]
    refine congrArg Except.ok (List.map_congr_left fun r _ => if_neg ?_)
    rintro ⟨_, ⟨⟩, -⟩
  · rw [readJsonlRecordsReversed_file]
    refine congrArg Except.ok (List.map_congr_left fun r _ => ?_)
    rw [yielded]
    split_ifs with deferred wanted wanted
    · obtain ⟨_, isRoles, unwanted⟩ := deferred
      cases isRoles
      exact absurd wanted unwanted
    · rfl
    · rfl
    · exact absurd ⟨_, rfl, wanted⟩ deferred

end AgentPark.Memory
