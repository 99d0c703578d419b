import AgentPark.Lib.JsonSize
import AgentPark.Lib.PyInt

/-!
# Reading a file

`read_file` answers with lines of a file, up to a number of characters, and with the line to go on from.
-/

namespace AgentPark.Tools

open Lib

/-! ### The tool -/

/-- `TOOL_SUBMISSION_RESERVE_CHARS` -/
def toolSubmissionReserveChars : Nat := 512

/-- `_READ_FILE_MAX_CHARS` -/
def readFileMaxChars : Nat := 20000

/-- `_READ_FILE_METADATA_RESERVE_CHARS` -/
def readFileMetadataReserveChars : Nat := 1200

/-- A positive `int` that is no `bool`. -/
def positiveInt : Json → Option Nat
  | .num n =>
    if n.isInteger then (pyIntText n.text.toList).bind fun v => if 0 < v then some v.toNat else none
    else none
  | _ => none

/-- `resolve_tool_result_char_limit`, for the entry `toolResultSubmissionMaxChars` of a configuration -/
def resolveToolResultCharLimit (config : Option Json) (defaultLimit : Nat) : Except String Nat :=
  match config with
  | none => .ok defaultLimit
  | some value =>
    match positiveInt value with
    | none => .error "toolResultSubmissionMaxChars must be a positive integer"
    | some submissionLimit =>
      let reserve := min toolSubmissionReserveChars (submissionLimit / 10)
      .ok (min defaultLimit (max 1 (submissionLimit - reserve)))

/-- The characters the content may have. -/
def contentCharLimit (resultCharLimit : Nat) : Nat := max 1 (resultCharLimit - readFileMetadataReserveChars)

/-- The lines of a text, with their ends. -/
def fileLines : List Char → List (List Char)
  | [] => []
  | c :: cs =>
    if c = '\n' then [c] :: fileLines cs
    else
      match fileLines cs with
      | [] => [[c]]
      | line :: lines => (c :: line) :: lines

/-- What the loop of `read_file` has found. -/
structure Selection (α : Type) where
  selectedLines : List (List α) := []
  selectedChars : Nat := 0
  totalLines : Nat := 0
  nextStartLine : Option Nat := none
deriving DecidableEq

/-- The line is behind the last one that is asked for. -/
def Past (endLine : Option Nat) (lineNo : Nat) : Prop := ∃ last, endLine = some last ∧ last < lineNo

instance (endLine : Option Nat) (lineNo : Nat) : Decidable (Past endLine lineNo) :=
  match endLine with
  | none => isFalse nofun
  | some last =>
    if behind : last < lineNo then isTrue ⟨last, rfl, behind⟩
    else isFalse fun ⟨_, same, lt⟩ => behind (Option.some.inj same ▸ lt)

theorem not_past_none {lineNo : Nat} : ¬ Past none lineNo := fun ⟨_, same, _⟩ => nomatch same

theorem past_some {last lineNo : Nat} : Past (some last) lineNo ↔ last < lineNo :=
  ⟨fun ⟨_, same, behind⟩ => Option.some.inj same ▸ behind, fun behind => ⟨last, rfl, behind⟩⟩

section

variable {α : Type}

/-- The same lines with other characters. -/
def Selection.map {β : Type} (f : α → β) (s : Selection α) : Selection β :=
  { selectedLines := s.selectedLines.map (List.map f)
    selectedChars := s.selectedChars
    totalLines := s.totalLines
    nextStartLine := s.nextStartLine }

/-- The loop of `read_file`, from a line on. -/
def selectLines (startLine : Nat) (endLine : Option Nat) (limit : Nat) :
    Nat → Selection α → List (List α) → Selection α
  | _, s, [] => s
  | lineNo, s, line :: rest =>
    if lineNo < startLine ∨ Past endLine lineNo then
      selectLines startLine endLine limit (lineNo + 1) { s with totalLines := lineNo } rest
    else if limit < s.selectedChars + line.length then
      let remaining := limit - s.selectedChars
      { selectedLines := if 0 < remaining then s.selectedLines ++ [line.take remaining] else s.selectedLines
        selectedChars := s.selectedChars + remaining
        totalLines := lineNo
        nextStartLine := some (lineNo + 1) }
    else
      selectLines startLine endLine limit (lineNo + 1)
        { s with
          selectedLines := s.selectedLines ++ [line]
          selectedChars := s.selectedChars + line.length
          totalLines := lineNo } rest

variable (floatInt : Number → Option Int)

/-- The first line, from the argument. -/
def effectiveStart (startLine : Json) : Nat :=
  match startLine.pyInt floatInt with
  | some line => if line < 1 then 1 else line.toNat
  | none => 1

/-- The last line, from the argument. -/
def effectiveEnd (endLine : Json) (startLine : Nat) : Option Nat :=
  if endLine = .null then none
  else (endLine.pyInt floatInt).map fun line : Int => if line < startLine then startLine else line.toNat

/-- The lines a call selects. -/
def readLines (lines : List (List α)) (endLine : Json) (limit startLine : Nat) : Selection α :=
  selectLines startLine (effectiveEnd floatInt endLine startLine) limit 1 {} lines

/-- The number behind the dash of `read_lines`. -/
def readEnd (startLine : Nat) (endLine : Option Nat) (s : Selection α) : Nat :=
  let last :=
    if s.selectedLines ≠ [] then startLine + s.selectedLines.length - 1
    else if s.totalLines ≠ 0 then min s.totalLines startLine
    else startLine
  match endLine with
  | some line => min last line
  | none => last

/-- `...(truncated)...` on a line of its own -/
def truncationMarker : String := "\n...(truncated)...\n"

/-- The answer of `read_file` -/
def readAnswer (path : String) (startLine : Nat) (endLine : Option Nat) (limit : Nat) (s : Selection Char) :
    Json :=
  let content := s.selectedLines.flatten ++ if s.nextStartLine.isSome then truncationMarker.toList else []
  .obj ([("file_path", .str path), ("content", .str (String.ofList content)),
      ("total_lines", .nat s.totalLines),
      ("read_lines", .str (startLine.repr ++ "-" ++ (readEnd startLine endLine s).repr)),
      ("status", .str "success")] ++
    match s.nextStartLine with
    | some next =>
      [("output_truncated", .bool true), ("output_char_limit", .nat limit), ("next_start_line", .nat next)]
    | none => [])

/-- What the tool finds around it: how paths are resolved, the texts of the files, and the entry
`toolResultSubmissionMaxChars` of the configuration. -/
structure ReadHost where
  resolve : String → Except String String
  basename : String → String
  file : String → Option (List Char)
  config : Option Json

/-- `read_file`, without its error texts' file paths of other types -/
def readFile (host : ReadHost) (filePath startLine endLine : Json) : Json :=
  match filePath with
  | .str path =>
    if pyStrip path = "" then
      .obj [("file_path", filePath), ("error", .str "Invalid file_path"), ("status", .str "error")]
    else
      match host.resolve path with
      | .error error => .obj [("file_path", filePath), ("error", .str error), ("status", .str "exception")]
      | .ok target =>
        match host.file target with
        | none =>
          .obj [("file_path", .str target), ("error", .str "File not found"), ("status", .str "error"),
            ("next_action", .str ("Use rg_list_files from the working root with " ++
              "include_globs=['**/" ++ host.basename target ++ "'] to locate a moved file."))]
        | some text =>
          match resolveToolResultCharLimit host.config readFileMaxChars with
          | .error error =>
            .obj [("file_path", filePath), ("error", .str error), ("status", .str "exception")]
          | .ok limit =>
            let start := effectiveStart floatInt startLine
            readAnswer target start (effectiveEnd floatInt endLine start) limit
              (readLines floatInt (fileLines (universalNewlines text)) endLine (contentCharLimit limit)
                start)
  | _ => .obj [("file_path", filePath), ("error", .str "Invalid file_path"), ("status", .str "error")]

/-- The calls that follow the continuation, with the lines they start from. -/
def followRead (lines : List (List α)) (endLine : Json) (limit : Nat) :
    Nat → Json → Option (List (Nat × Selection α))
  | 0, _ => none
  | fuel + 1, startLine =>
    let start := effectiveStart floatInt startLine
    let s := readLines floatInt lines endLine limit start
    match s.nextStartLine with
    | none => some [(start, s)]
    | some next => (followRead lines endLine limit fuel (.nat next)).map ((start, s) :: ·)

/-- A character, with its line and its column. -/
structure Located where
  line : Nat
  column : Nat
  char : Char
deriving DecidableEq

/-- The characters of a line, with their places. -/
def locateLine (line : Nat) (chars : List Char) : List Located :=
  chars.mapIdx fun column char => ⟨line, column + 1, char⟩

/-- The characters of lines that are numbered from `line` on. -/
def locateFrom : Nat → List (List Char) → List (List Located)
  | _, [] => []
  | line, chars :: rest => locateLine line chars :: locateFrom (line + 1) rest

/-! ### What a call returns -/

/-- The lines from `startLine` to `endLine`, of lines that are numbered from `lineNo` on. -/
def linesBetween (startLine : Nat) (endLine : Option Nat) : Nat → List (List α) → List (List α)
  | _, [] => []
  | lineNo, line :: rest =>
    if lineNo < startLine ∨ Past endLine lineNo then linesBetween startLine endLine (lineNo + 1) rest
    else line :: linesBetween startLine endLine (lineNo + 1) rest

variable {floatInt} {startLine limit : Nat} {endLine : Option Nat}

/-- A call that returns the whole. -/
theorem selectLines_whole (lineNo : Nat) (s : Selection α) (rest : List (List α))
    (fits : s.selectedChars + (linesBetween startLine endLine lineNo rest).flatten.length ≤ limit) :
    selectLines startLine endLine limit lineNo s rest =
      { s with
        selectedLines := s.selectedLines ++ linesBetween startLine endLine lineNo rest
        selectedChars := s.selectedChars + (linesBetween startLine endLine lineNo rest).flatten.length
        totalLines := if rest = [] then s.totalLines else lineNo + rest.length - 1 } := by
  induction rest generalizing lineNo s with
  | nil =>
    rw [selectLines, linesBetween]
    simp
  | cons line rest ih =>
    have total : (if rest = [] then lineNo else lineNo + 1 + rest.length - 1) =
        lineNo + (line :: rest).length - 1 := by
      rw [List.length_cons]
      split
      · rename_i none
        rw [none, List.length_nil]
        omega
      · omega
    rw [selectLines, linesBetween] at *
    split
    · rename_i outside
      rw [if_pos outside] at fits
      rw [ih (lineNo + 1) { s with totalLines := lineNo } fits, if_neg (List.cons_ne_nil _ _), ← total]
    · rename_i inside
      rw [if_neg inside, List.flatten_cons, List.length_append] at fits
      rw [if_neg (by omega), ih _ _ (by dsimp only; omega), if_neg (List.cons_ne_nil _ _), ← total,
        List.append_assoc, List.singleton_append, List.flatten_cons, List.length_append, Nat.add_assoc]

/-- A call that is cut. -/
theorem selectLines_cut (lineNo : Nat) (s : Selection α) (rest : List (List α)) (room : s.selectedChars ≤ limit)
    (large : limit < s.selectedChars + (linesBetween startLine endLine lineNo rest).flatten.length) :
    ∃ front line back cut, rest = front ++ line :: back ∧
      ¬ (lineNo + front.length < startLine ∨ Past endLine (lineNo + front.length)) ∧ cut < line.length ∧
      (selectLines startLine endLine limit lineNo s rest).nextStartLine = some (lineNo + front.length + 1) ∧
      (selectLines startLine endLine limit lineNo s rest).selectedLines.flatten =
        s.selectedLines.flatten ++ (linesBetween startLine endLine lineNo front).flatten ++ line.take cut := by
  induction rest generalizing lineNo s with
  | nil =>
    rw [linesBetween, List.flatten_nil, List.length_nil] at large
    omega
  | cons line rest ih =>
    have shift (front : List (List α)) : lineNo + 1 + front.length = lineNo + (line :: front).length := by
      rw [List.length_cons]
      omega
    rw [selectLines]
    rw [linesBetween] at large
    split
    · rename_i outside
      rw [if_pos outside] at large
      obtain ⟨front, last, back, cut, isRest, inside, short, next, content⟩ :=
        ih (lineNo + 1) { s with totalLines := lineNo } room large
      rw [shift] at inside next
      refine ⟨line :: front, last, back, cut, by rw [isRest, List.cons_append], inside, short, next, ?_⟩
      rw [content, linesBetween, if_pos outside]
    · rename_i inside
      rw [if_neg inside, List.flatten_cons, List.length_append] at large
      split
      · refine ⟨[], line, rest, limit - s.selectedChars, rfl, inside, by omega, rfl, ?_⟩
        dsimp only
        rw [linesBetween, List.flatten_nil, List.append_nil]
        split
        · rw [List.flatten_append, List.flatten_singleton]
        · rename_i full
          rw [Nat.eq_zero_of_not_pos full, List.take_zero, List.append_nil]
      · rename_i fits
        obtain ⟨front, last, back, cut, isRest, inRange, short, next, content⟩ :=
          ih (lineNo + 1) { s with
            selectedLines := s.selectedLines ++ [line]
            selectedChars := s.selectedChars + line.length
            totalLines := lineNo } (by dsimp only; omega) (by dsimp only; omega)
        rw [shift] at inRange next
        refine ⟨line :: front, last, back, cut, by rw [isRest, List.cons_append], inRange, short, next, ?_⟩
        rw [content, linesBetween, if_neg inside, List.flatten_append, List.flatten_singleton,
          List.flatten_cons, List.append_assoc s.selectedLines.flatten]

variable {lines : List (List α)} {endArg : Json} {next : Nat}

theorem readLines_next
    (continues : (readLines floatInt lines endArg limit startLine).nextStartLine = some next) :
    startLine < next ∧ next ≤ lines.length + 1 := by
  unfold readLines at continues
  by_cases fits : (linesBetween startLine (effectiveEnd floatInt endArg startLine) 1 lines).flatten.length ≤ limit
  · rw [selectLines_whole 1 {} lines (by rwa [Nat.zero_add])] at continues
    cases continues
  · obtain ⟨front, line, back, cut, isLines, inside, short, isNext, content⟩ :=
      @selectLines_cut _ startLine limit (effectiveEnd floatInt endArg startLine)
        1 {} lines (Nat.zero_le _) (by rwa [Nat.zero_add, ← Nat.not_le])
    rw [isNext, Option.some.injEq] at continues
    have notBefore : ¬ 1 + front.length < startLine := fun before => inside (.inl before)
    rw [isLines, List.length_append, List.length_cons]
    omega

theorem effectiveStart_nat (pos : 0 < next) : effectiveStart floatInt (.nat next) = next := by
  have notSmall : ¬ (next : Int) < 1 := by omega
  simp only [effectiveStart, Json.pyInt_nat, if_neg notSmall, Int.toNat_natCast]

theorem effectiveStart_pos (startArg : Json) : 0 < effectiveStart floatInt startArg := by
  rw [effectiveStart]
  split
  · split <;> omega
  · omega

theorem followRead_of_none {startArg : Json} (fuel : Nat)
    (whole : (readLines floatInt lines endArg limit (effectiveStart floatInt startArg)).nextStartLine = none) :
    followRead floatInt lines endArg limit (fuel + 1) startArg =
      some [(effectiveStart floatInt startArg,
        readLines floatInt lines endArg limit (effectiveStart floatInt startArg))] := by
  rw [followRead]
  simp only [whole]

theorem followRead_of_some {startArg : Json} (fuel : Nat)
    (continues :
      (readLines floatInt lines endArg limit (effectiveStart floatInt startArg)).nextStartLine = some next) :
    followRead floatInt lines endArg limit (fuel + 1) startArg =
      (followRead floatInt lines endArg limit fuel (.nat next)).map
        ((effectiveStart floatInt startArg,
          readLines floatInt lines endArg limit (effectiveStart floatInt startArg)) :: ·) := by
  rw [followRead]
  simp only [continues]

/-- **Following the continuation ends**, after one call more than the file has lines. -/
theorem followRead_terminates (lines : List (List α)) (endArg startArg : Json) :
    ∃ calls, followRead floatInt lines endArg limit (lines.length + 1) startArg = some calls := by
  have loop (fuel : Nat) : ∀ startArg : Json, lines.length < fuel + effectiveStart floatInt startArg →
      ∃ calls, followRead floatInt lines endArg limit (fuel + 1) startArg = some calls := by
    induction fuel with
    | zero =>
      intro startArg room
      cases continues :
          (readLines floatInt lines endArg limit (effectiveStart floatInt startArg)).nextStartLine with
      | none => exact ⟨_, followRead_of_none 0 continues⟩
      | some next =>
        have between := readLines_next continues
        omega
    | succ fuel ih =>
      intro startArg room
      cases continues :
          (readLines floatInt lines endArg limit (effectiveStart floatInt startArg)).nextStartLine with
      | none => exact ⟨_, followRead_of_none (fuel + 1) continues⟩
      | some next =>
        have between := readLines_next continues
        have start : effectiveStart floatInt (.nat next) = next := effectiveStart_nat (by omega)
        obtain ⟨calls, follows⟩ := ih (.nat next) (by omega)
        rw [followRead_of_some (fuel + 1) continues, follows]
        exact ⟨_, rfl⟩
  have pos : 0 < effectiveStart floatInt startArg := effectiveStart_pos startArg
  exact loop lines.length startArg (by omega)

theorem selectLines_map {β : Type} (f : α → β) (lineNo : Nat) (s : Selection α) (rest : List (List α)) :
    selectLines startLine endLine limit lineNo (s.map f) (rest.map (List.map f)) =
      (selectLines startLine endLine limit lineNo s rest).map f := by
  induction rest generalizing lineNo s with
  | nil => rfl
  | cons line rest ih =>
    rw [List.map_cons, selectLines, selectLines, List.length_map]
    have chars : (s.map f).selectedChars = s.selectedChars := rfl
    rw [chars]
    split
    · exact ih (lineNo + 1) { s with totalLines := lineNo }
    · split
      · dsimp only [Selection.map]
        split
        · rw [List.map_append, List.map_singleton, List.map_take]
        · rfl
      · rw [← ih, Selection.map, Selection.map, List.map_append, List.map_singleton]

theorem readLines_map {β : Type} (f : α → β) (lines : List (List α)) (endArg : Json) (start : Nat) :
    readLines floatInt (lines.map (List.map f)) endArg limit start =
      (readLines floatInt lines endArg limit start).map f :=
  selectLines_map f 1 {} lines

/-- The loop looks at no character, so that it is one for characters with their places too. -/
theorem followRead_map {β : Type} (f : α → β) (lines : List (List α)) (endArg startArg : Json) (fuel : Nat) :
    followRead floatInt (lines.map (List.map f)) endArg limit fuel startArg =
      (followRead floatInt lines endArg limit fuel startArg).map
        (List.map fun call => (call.1, call.2.map f)) := by
  induction fuel generalizing startArg with
  | zero => rfl
  | succ fuel ih =>
    have same : readLines floatInt (lines.map (List.map f)) endArg limit (effectiveStart floatInt startArg) =
        (readLines floatInt lines endArg limit (effectiveStart floatInt startArg)).map f :=
      readLines_map f lines endArg _
    cases continues : (readLines floatInt lines endArg limit (effectiveStart floatInt startArg)).nextStartLine with
    | none =>
      rw [followRead_of_none fuel continues, followRead_of_none fuel (by rw [same]; exact continues), same]
      rfl
    | some next =>
      rw [followRead_of_some fuel continues, followRead_of_some fuel (by rw [same]; exact continues), same,
        ih, Option.map_map, Option.map_map]
      rfl

theorem linesBetween_append (lineNo : Nat) (front back : List (List α)) :
    linesBetween startLine endLine lineNo (front ++ back) =
      linesBetween startLine endLine lineNo front ++
        linesBetween startLine endLine (lineNo + front.length) back := by
  induction front generalizing lineNo with
  | nil => rfl
  | cons line rest ih =>
    have shift : lineNo + 1 + rest.length = lineNo + (line :: rest).length := by
      rw [List.length_cons]
      omega
    rw [List.cons_append, linesBetween, linesBetween, ih, shift]
    split <;> rfl

theorem mem_of_mem_linesBetween {lineNo : Nat} {x : α}
    (mem : x ∈ (linesBetween startLine endLine lineNo lines).flatten) : x ∈ lines.flatten := by
  induction lines generalizing lineNo with
  | nil => exact mem
  | cons line rest ih =>
    rw [linesBetween] at mem
    rw [List.flatten_cons, List.mem_append]
    split at mem
    · exact .inr (ih mem)
    · rw [List.flatten_cons, List.mem_append] at mem
      exact mem.imp id ih

theorem mem_readLines {x : α}
    (mem : x ∈ (readLines floatInt lines endArg limit startLine).selectedLines.flatten) :
    x ∈ (linesBetween startLine (effectiveEnd floatInt endArg startLine) 1 lines).flatten := by
  unfold readLines at mem
  by_cases fits : (linesBetween startLine (effectiveEnd floatInt endArg startLine) 1 lines).flatten.length ≤ limit
  · rwa [selectLines_whole 1 {} lines (by rwa [Nat.zero_add])] at mem
  · obtain ⟨front, line, back, cut, isLines, inside, short, isNext, content⟩ :=
      @selectLines_cut _ startLine limit (effectiveEnd floatInt endArg startLine)
        1 {} lines (Nat.zero_le _) (by rwa [Nat.zero_add, ← Nat.not_le])
    rw [content, List.flatten_nil, List.nil_append, List.mem_append] at mem
    rw [isLines, linesBetween_append, List.flatten_append, List.mem_append, linesBetween, if_neg inside,
      List.flatten_cons, List.mem_append]
    rcases mem with before | within
    · exact .inl before
    · exact .inr (.inl (List.mem_of_mem_take within))

end

/-! ### Places -/

section

variable {floatInt : Number → Option Int} {startLine limit : Nat} {endLine : Option Nat}

theorem chars_locateLine (lineNo : Nat) (chars : List Char) :
    (locateLine lineNo chars).map Located.char = chars := by
  refine List.ext_getElem? fun i => ?_
  rw [locateLine, List.getElem?_map, List.getElem?_mapIdx, Option.map_map]
  exact Option.map_id'

theorem chars_locateFrom (lineNo : Nat) (lines : List (List Char)) :
    (locateFrom lineNo lines).map (List.map Located.char) = lines := by
  induction lines generalizing lineNo with
  | nil => rfl
  | cons chars rest ih => rw [locateFrom, List.map_cons, chars_locateLine, ih]

theorem nodup_locateLine (lineNo : Nat) (chars : List Char) : (locateLine lineNo chars).Nodup := by
  rw [locateLine, List.nodup_iff_injective_getElem]
  intro i j same
  dsimp only at same
  rw [List.getElem_mapIdx, List.getElem_mapIdx] at same
  have columns := (Located.mk.inj same).2.1
  exact Fin.ext (by omega)

/-- The characters of lines that are numbered from `lineNo` on are on these lines, and every one is there once. -/
def Numbered : Nat → List (List Located) → Prop
  | _, [] => True
  | lineNo, line :: rest => (∀ x ∈ line, x.line = lineNo) ∧ line.Nodup ∧ Numbered (lineNo + 1) rest

theorem numbered_locateFrom (lineNo : Nat) (lines : List (List Char)) :
    Numbered lineNo (locateFrom lineNo lines) := by
  induction lines generalizing lineNo with
  | nil => trivial
  | cons chars rest ih =>
    refine ⟨fun x mem => ?_, nodup_locateLine lineNo chars, ih (lineNo + 1)⟩
    rw [locateLine, List.mem_mapIdx] at mem
    obtain ⟨column, short, rfl⟩ := mem
    rfl

variable {lineNo fuel : Nat} {lines : List (List Located)}

theorem Numbered.mem_linesBetween (numbered : Numbered lineNo lines) (x : Located) :
    x ∈ (linesBetween startLine endLine lineNo lines).flatten ↔
      x ∈ lines.flatten ∧ startLine ≤ x.line ∧ ¬ Past endLine x.line := by
  induction lines generalizing lineNo with
  | nil => rw [linesBetween, List.flatten_nil, List.mem_nil_iff, false_and]
  | cons line rest ih =>
    obtain ⟨onLine, once, later⟩ := numbered
    rw [linesBetween, List.flatten_cons, List.mem_append]
    split
    · rename_i outside
      rw [ih later]
      refine ⟨fun ⟨mem, between⟩ => ⟨.inr mem, between⟩, fun ⟨mem, between⟩ => ⟨?_, between⟩⟩
      rcases mem with here | mem
      · rw [onLine x here] at between
        rcases outside with before | past
        · omega
        · exact absurd past between.2
      · exact mem
    · rename_i inside
      rw [not_or, Nat.not_lt] at inside
      rw [List.flatten_cons, List.mem_append, ih later]
      refine ⟨fun mem => ?_, fun ⟨mem, between⟩ => ?_⟩
      · rcases mem with here | ⟨mem, between⟩
        · rw [onLine x here]
          exact ⟨.inl here, inside⟩
        · exact ⟨.inr mem, between⟩
      · rcases mem with here | mem
        · exact .inl here
        · exact .inr ⟨mem, between⟩

theorem Numbered.split {front back : List (List Located)} {line : List Located}
    (numbered : Numbered lineNo (front ++ line :: back)) :
    (∀ x ∈ front.flatten, x.line < lineNo + front.length) ∧
      (∀ x ∈ line, x.line = lineNo + front.length) ∧ line.Nodup := by
  induction front generalizing lineNo with
  | nil => exact ⟨fun x mem => (nomatch mem), numbered.1, numbered.2.1⟩
  | cons first rest ih =>
    obtain ⟨onLine, once, later⟩ := numbered
    obtain ⟨before, within, nodup⟩ := ih later
    refine ⟨fun x mem => ?_, fun x mem => ?_, nodup⟩
    · rw [List.flatten_cons, List.mem_append] at mem
      rw [List.length_cons]
      rcases mem with here | mem
      · have := onLine x here
        omega
      · have := before x mem
        omega
    · rw [within x mem, List.length_cons]
      omega

/-! ### Which files are read whole -/

/-- The lines of the text a file is read as, with their places. -/
def placedLines (text : List Char) : List (List Located) := locateFrom 1 (fileLines (universalNewlines text))

/-- The characters the calls return. -/
def contents {α : Type} (calls : List (Nat × Selection α)) : List α :=
  calls.flatMap fun call => call.2.selectedLines.flatten

variable (floatInt) in
/-- The calls that follow the continuation end, and return every character of the lines asked for once; each
names the lines it returns characters of, and its answer stays within the limit. -/
def ReadsWhole (path : String) (text : List Char) (startArg endArg : Json) (limit : Nat) : Prop :=
  let start := effectiveStart floatInt startArg
  ∃ fuel calls,
    followRead floatInt (placedLines text) endArg (contentCharLimit limit) fuel startArg = some calls ∧
      contents calls = (linesBetween start (effectiveEnd floatInt endArg start) 1 (placedLines text)).flatten ∧
      ∀ call ∈ calls,
        (∀ line, call.1 ≤ line ∧ line ≤ readEnd call.1 (effectiveEnd floatInt endArg call.1) call.2 ↔
          ∃ x ∈ call.2.selectedLines.flatten, x.line = line) ∧
        (dumps (readAnswer path call.1 (effectiveEnd floatInt endArg call.1) limit
          (call.2.map Located.char))).length ≤ limit

variable {endArg : Json}

theorem contents_line {calls : List (Nat × Selection Located)} (numbered : Numbered 1 lines) :
    ∀ {startArg : Json},
      followRead floatInt lines endArg limit fuel startArg = some calls → ∀ x ∈ contents calls,
        effectiveStart floatInt startArg ≤ x.line := by
  induction fuel generalizing calls with
  | zero => exact fun follows => (nomatch follows)
  | succ fuel ih =>
    intro startArg follows x mem
    have here (mem : x ∈ (readLines floatInt lines endArg limit
        (effectiveStart floatInt startArg)).selectedLines.flatten) : effectiveStart floatInt startArg ≤ x.line :=
      ((numbered.mem_linesBetween x).mp (mem_readLines mem)).2.1
    cases continues : (readLines floatInt lines endArg limit (effectiveStart floatInt startArg)).nextStartLine with
    | none =>
      rw [followRead_of_none fuel continues, Option.some.injEq] at follows
      rw [← follows, contents, List.flatMap_singleton] at mem
      exact here mem
    | some next =>
      rw [followRead_of_some fuel continues, Option.map_eq_some_iff] at follows
      obtain ⟨later, follows, rfl⟩ := follows
      rw [contents, List.flatMap_cons, List.mem_append] at mem
      rcases mem with first | mem
      · exact here first
      · have between := readLines_next continues
        have from_next := ih follows x mem
        rw [effectiveStart_nat (by omega)] at from_next
        omega

/-- **A cut loses a character**: the calls go on behind the line it is in. -/
theorem contents_ne {startArg : Json} {calls : List (Nat × Selection Located)}
    (numbered : Numbered 1 lines)
    (follows : followRead floatInt lines endArg limit fuel startArg = some calls)
    (large : limit < (linesBetween (effectiveStart floatInt startArg)
      (effectiveEnd floatInt endArg (effectiveStart floatInt startArg)) 1 lines).flatten.length) :
    contents calls ≠ (linesBetween (effectiveStart floatInt startArg)
      (effectiveEnd floatInt endArg (effectiveStart floatInt startArg)) 1 lines).flatten := by
  intro same
  obtain ⟨front, cutLine, back, cut, isLines, inside, short, continues, content⟩ :=
    @selectLines_cut _ (effectiveStart floatInt startArg) limit
      (effectiveEnd floatInt endArg (effectiveStart floatInt startArg))
      1 {} lines (Nat.zero_le _) (by rwa [Nat.zero_add])
  obtain ⟨before, within, nodup⟩ := Numbered.split (isLines ▸ numbered)
  have onLine : cutLine[cut].line = 1 + front.length := within _ (List.getElem_mem short)
  have asked : cutLine[cut] ∈ contents calls := by
    rw [same, isLines, linesBetween_append, List.flatten_append, List.mem_append, linesBetween, if_neg inside,
      List.flatten_cons, List.mem_append]
    exact .inr (.inl (List.getElem_mem short))
  cases fuel with
  | zero => cases follows
  | succ fuel =>
    rw [followRead_of_some fuel continues, Option.map_eq_some_iff] at follows
    obtain ⟨later, follows, rfl⟩ := follows
    rw [contents, List.flatMap_cons, List.mem_append, readLines, content, List.flatten_nil, List.nil_append,
      List.mem_append] at asked
    rcases asked with (earlier | cutOff) | after
    · have := before _ (mem_of_mem_linesBetween earlier)
      omega
    · rw [List.mem_take_iff_getElem] at cutOff
      obtain ⟨i, small, same⟩ := cutOff
      have := (nodup.getElem_inj_iff).mp same
      omega
    · have from_next := contents_line numbered follows _ after
      rw [effectiveStart_nat (by omega)] at from_next
      omega

/-- The last line asked for. -/
def lastLine (endLine : Option Nat) (total : Nat) : Nat :=
  match endLine with
  | none => total
  | some last => min total last

theorem length_linesBetween {α : Type} (lineNo : Nat) (lines : List (List α)) :
    (linesBetween startLine endLine lineNo lines).length =
      lastLine (endLine.map (· + 1)) (lineNo + lines.length) - max startLine lineNo := by
  induction lines generalizing lineNo with
  | nil =>
    rw [linesBetween, List.length_nil]
    cases endLine with
    | none =>
      dsimp only [lastLine, Option.map_none]
      omega
    | some last =>
      dsimp only [lastLine, Option.map_some]
      omega
  | cons line rest ih =>
    have later := ih (lineNo + 1)
    have shift : lineNo + 1 + rest.length = lineNo + (line :: rest).length := by
      rw [List.length_cons]
      omega
    have long : 0 < (line :: rest).length := Nat.zero_lt_succ _
    rw [shift] at later
    rw [linesBetween]
    cases endLine with
    | none =>
      rw [Option.map_none, lastLine] at later ⊢
      split
      · rename_i outside
        rw [or_iff_left not_past_none] at outside
        omega
      · rename_i inside
        rw [or_iff_left not_past_none] at inside
        rw [List.length_cons]
        omega
    | some last =>
      rw [Option.map_some, lastLine] at later ⊢
      split
      · rename_i outside
        rw [past_some] at outside
        omega
      · rename_i inside
        rw [past_some] at inside
        rw [List.length_cons]
        omega

theorem readLines_whole {α : Type} {lines : List (List α)}
    (fits : (linesBetween startLine (effectiveEnd floatInt endArg startLine) 1 lines).flatten.length ≤ limit) :
    readLines floatInt lines endArg limit startLine =
      { selectedLines := linesBetween startLine (effectiveEnd floatInt endArg startLine) 1 lines
        selectedChars := (linesBetween startLine (effectiveEnd floatInt endArg startLine) 1 lines).flatten.length
        totalLines := lines.length
        nextStartLine := none } := by
  have total : (if lines = [] then 0 else 1 + lines.length - 1) = lines.length := by
    split
    · rename_i none
      rw [none, List.length_nil]
    · omega
  rw [readLines, selectLines_whole 1 {} lines (by rwa [Nat.zero_add]), List.nil_append, Nat.zero_add, total]

theorem startLine_le_effectiveEnd {last : Nat}
    (isLast : effectiveEnd floatInt endArg startLine = some last) : startLine ≤ last := by
  rw [effectiveEnd] at isLast
  split at isLast
  · cases isLast
  · rw [Option.map_eq_some_iff] at isLast
    obtain ⟨line, isLine, same⟩ := isLast
    split at same
    · omega
    · omega

theorem readEnd_whole {α : Type} {lines : List (List α)} (pos : 0 < startLine)
    (ordered : ∀ last, endLine = some last → startLine ≤ last) (some_lines : lines ≠ []) (chars : Nat)
    (next : Option Nat) :
    readEnd startLine endLine ⟨linesBetween startLine endLine 1 lines, chars, lines.length, next⟩ =
      lastLine endLine lines.length := by
  have count := @length_linesBetween startLine endLine _ 1 lines
  have nonempty := List.length_pos_iff.mpr some_lines
  have selected : linesBetween startLine endLine 1 lines = [] ↔
      (linesBetween startLine endLine 1 lines).length = 0 :=
    List.length_eq_zero_iff.symm
  unfold readEnd
  dsimp only
  rw [if_pos (by omega : lines.length ≠ 0)]
  cases endLine with
  | none =>
    rw [Option.map_none, lastLine] at count
    dsimp only [lastLine]
    split
    · rename_i filled
      rw [ne_eq, selected] at filled
      omega
    · rename_i empty
      rw [ne_eq, selected, not_not] at empty
      omega
  | some last =>
    have := ordered last rfl
    rw [Option.map_some, lastLine] at count
    dsimp only [lastLine]
    split
    · rename_i filled
      rw [ne_eq, selected] at filled
      omega
    · rename_i empty
      rw [ne_eq, selected, not_not] at empty
      omega

theorem startLine_le_readEnd {α : Type} (ordered : ∀ last, endLine = some last → startLine ≤ last) :
    startLine ≤ readEnd startLine endLine (⟨[], 0, 0, none⟩ : Selection α) := by
  cases endLine with
  | none => exact le_rfl
  | some last => exact le_min le_rfl (ordered last rfl)

theorem Numbered.exists_line (numbered : Numbered lineNo lines) (filled : ∀ line ∈ lines, line ≠ [])
    (line : Nat) :
    (∃ x ∈ lines.flatten, x.line = line) ↔ lineNo ≤ line ∧ line < lineNo + lines.length := by
  induction lines generalizing lineNo with
  | nil =>
    rw [List.length_nil]
    refine ⟨fun ⟨x, mem, _⟩ => (nomatch mem), fun ⟨lower, upper⟩ => ?_⟩
    omega
  | cons first rest ih =>
    obtain ⟨onLine, once, later⟩ := numbered
    have above := ih later fun line mem => filled line (List.mem_cons_of_mem _ mem)
    obtain ⟨c, cs, isFirst⟩ := List.exists_cons_of_ne_nil (filled first List.mem_cons_self)
    rw [List.length_cons]
    constructor
    · rintro ⟨x, mem, isLine⟩
      rw [List.flatten_cons, List.mem_append] at mem
      rcases mem with here | mem
      · have := onLine x here
        omega
      · have := above.mp ⟨x, mem, isLine⟩
        omega
    · intro between
      by_cases here : line = lineNo
      · have mem : c ∈ first := isFirst ▸ List.mem_cons_self
        exact ⟨c, List.mem_append.mpr (.inl mem), by rw [onLine c mem, here]⟩
      · obtain ⟨x, mem, isLine⟩ := above.mpr (by omega)
        exact ⟨x, List.mem_append.mpr (.inr mem), isLine⟩

theorem Numbered.exists_between (numbered : Numbered 1 lines) (filled : ∀ line ∈ lines, line ≠ [])
    (pos : 0 < startLine) (line : Nat) :
    startLine ≤ line ∧ line ≤ lastLine endLine lines.length ↔
      ∃ x ∈ (linesBetween startLine endLine 1 lines).flatten, x.line = line := by
  have inLines := numbered.exists_line filled line
  have upTo : line ≤ lastLine endLine lines.length ↔ line ≤ lines.length ∧ ¬ Past endLine line := by
    cases endLine with
    | none => exact (and_iff_left not_past_none).symm
    | some last =>
      rw [past_some, lastLine]
      omega
  rw [upTo]
  constructor
  · rintro ⟨start, within, notPast⟩
    obtain ⟨x, mem, isLine⟩ := inLines.mpr (by omega)
    refine ⟨x, (numbered.mem_linesBetween x).mpr ⟨mem, ?_⟩, isLine⟩
    rw [isLine]
    exact ⟨start, notPast⟩
  · rintro ⟨x, mem, isLine⟩
    obtain ⟨mem, start, notPast⟩ := (numbered.mem_linesBetween x).mp mem
    have := inLines.mp ⟨x, mem, isLine⟩
    rw [isLine] at start notPast
    exact ⟨start, by omega, notPast⟩

theorem ne_nil_of_mem_fileLines (text : List Char) : ∀ line ∈ fileLines text, line ≠ [] := by
  induction text with
  | nil => exact fun line mem => (nomatch mem)
  | cons c cs ih =>
    intro line mem
    rw [fileLines] at mem
    split at mem
    · rcases List.mem_cons.mp mem with rfl | mem
      · exact List.cons_ne_nil _ _
      · exact ih line mem
    · cases rest : fileLines cs with
      | nil =>
        rw [rest, List.mem_singleton] at mem
        rw [mem]
        exact List.cons_ne_nil _ _
      | cons first others =>
        rw [rest] at mem
        rcases List.mem_cons.mp mem with rfl | mem
        · exact List.cons_ne_nil _ _
        · exact ih line (rest ▸ List.mem_cons_of_mem _ mem)

theorem flatten_fileLines (text : List Char) : (fileLines text).flatten = text := by
  induction text with
  | nil => rfl
  | cons c cs ih =>
    rw [fileLines]
    split
    · rw [List.flatten_cons, ih, List.singleton_append]
    · cases rest : fileLines cs with
      | nil =>
        rw [rest, List.flatten_nil] at ih
        rw [← ih]
        rfl
      | cons first others =>
        rw [rest, List.flatten_cons] at ih
        rw [List.flatten_cons, List.cons_append, ih]

theorem filled_locateFrom (lineNo : Nat) (lines : List (List Char)) (filled : ∀ line ∈ lines, line ≠ []) :
    ∀ line ∈ locateFrom lineNo lines, line ≠ [] := by
  induction lines generalizing lineNo with
  | nil => exact fun line mem => (nomatch mem)
  | cons chars rest ih =>
    intro line mem
    rcases List.mem_cons.mp mem with rfl | mem
    · intro none
      have length := congrArg List.length none
      rw [locateLine, List.length_mapIdx, List.length_nil, List.length_eq_zero_iff] at length
      exact filled chars List.mem_cons_self length
    · exact ih (lineNo + 1) (fun line mem => filled line (List.mem_cons_of_mem _ mem)) line mem

theorem universalNewlines_eq_nil_iff (text : List Char) : universalNewlines text = [] ↔ text = [] := by
  refine ⟨fun none => ?_, fun none => by rw [none]; rfl⟩
  induction text using universalNewlines.induct with
  | case1 cs _ => 
    rw [universalNewlines] at none
    cases none
  | case2 cs notNewline _ =>
    rw [universalNewlines.eq_2 cs notNewline] at none
    cases none
  | case3 c cs notBoth notReturn _ =>
    rw [universalNewlines.eq_3 c cs notBoth notReturn] at none
    cases none
  | case4 => rfl

theorem fileLines_eq_nil_iff (text : List Char) : fileLines text = [] ↔ text = [] := by
  refine ⟨fun none => ?_, fun none => by rw [none]; rfl⟩
  rw [← flatten_fileLines text, none, List.flatten_nil]

theorem placedLines_eq_nil_iff (text : List Char) : placedLines text = [] ↔ text = [] := by
  rw [← universalNewlines_eq_nil_iff, ← fileLines_eq_nil_iff, placedLines]
  cases fileLines (universalNewlines text) with
  | nil => exact iff_of_true rfl rfl
  | cons chars rest => exact iff_of_false (List.cons_ne_nil _ _) (List.cons_ne_nil _ _)

/-! ### The length of an answer -/

/-- The characters of a text as JSON, between the quotes. -/
def escapedLength (cs : List Char) : Nat := (cs.flatMap escapeChar).length

/-- The digits of a number. -/
def digitCount (n : Nat) : Nat := n.repr.toList.length

/-- The characters of an answer that is not cut: its fixed parts, the path and the lines asked for as JSON, and
three numbers. -/
def answerLength (path : String) (lines : List (List Char)) (startLine : Nat) (endLine : Option Nat) : Nat :=
  89 + escapedLength path.toList + escapedLength (linesBetween startLine endLine 1 lines).flatten +
    digitCount lines.length + digitCount startLine + digitCount (lastLine endLine lines.length)

theorem length_dumps_str (text : String) : (dumps (.str text)).length = escapedLength text.toList + 2 := by
  rw [dumps, dumpsString, List.length_cons, List.length_append, List.length_singleton, escapedLength]

theorem length_dumps_nat (n : Nat) : (dumps (.nat n)).length = digitCount n := by
  rw [Json.nat, dumps, digitCount]

theorem escapedLength_append (cs ds : List Char) :
    escapedLength (cs ++ ds) = escapedLength cs + escapedLength ds := by
  rw [escapedLength, List.flatMap_append, List.length_append, escapedLength, escapedLength]

theorem escapeChar_of_isDigit {c : Char} (digit : c.isDigit = true) : escapeChar c = [c] := by
  have other (d : Char) (letter : d.isDigit = false) : c ≠ d := by
    intro same
    rw [same, letter] at digit
    cases digit
  rw [escapeChar, if_neg (other '"' rfl), if_neg (other '\\' rfl), if_neg (other '\n' rfl), if_neg (other '\r' rfl),
    if_neg (other '\t' rfl), if_neg (other '\x0c' rfl), if_neg (other '\x08' rfl)]
  rw [Char.isDigit, Bool.and_eq_true] at digit
  have low : 48 ≤ c.toNat := of_decide_eq_true digit.1
  rw [if_neg (by omega)]

theorem escapedLength_repr (n : Nat) : escapedLength n.repr.toList = digitCount n := by
  have digits : ∀ c ∈ n.repr.toList, c.isDigit = true := by
    intro c mem
    rw [Nat.toList_repr] at mem
    exact Nat.isDigit_of_mem_toDigits (by omega) (by omega) mem
  rw [digitCount]
  generalize n.repr.toList = cs at digits
  induction cs with
  | nil => rfl
  | cons c cs ih =>
    have one := escapeChar_of_isDigit (digits c List.mem_cons_self)
    have rest := ih fun d mem => digits d (List.mem_cons_of_mem _ mem)
    rw [escapedLength] at rest ⊢
    rw [List.flatMap_cons, one, List.length_append, rest, List.length_singleton, List.length_cons, Nat.add_comm]

theorem length_readAnswer (path : String) (s : Selection Char) (whole : s.nextStartLine = none) :
    (dumps (readAnswer path startLine endLine limit s)).length =
      89 + escapedLength path.toList + escapedLength s.selectedLines.flatten + digitCount s.totalLines +
        digitCount startLine + digitCount (readEnd startLine endLine s) := by
  have key (text : String) (ascii : isAscii text = true) :
      (dumpsString text.toList).length + 1 = quotedSize text := by
    rw [← length_quoted ascii, List.length_cons]
  have path_key := key "file_path" (by decide +kernel)
  have content_key := key "content" (by decide +kernel)
  have total_key := key "total_lines" (by decide +kernel)
  have lines_key := key "read_lines" (by decide +kernel)
  have status_key := key "status" (by decide +kernel)
  rw [(by decide +kernel : quotedSize "file_path" = 11)] at path_key
  rw [(by decide +kernel : quotedSize "content" = 9)] at content_key
  rw [(by decide +kernel : quotedSize "total_lines" = 13)] at total_key
  rw [(by decide +kernel : quotedSize "read_lines" = 12)] at lines_key
  rw [(by decide +kernel : quotedSize "status" = 8)] at status_key
  have status : (dumps (.str "success")).length = 9 := by
    rw [length_dumps _ (by decide +kernel)]
    decide +kernel
  rw [length_dumps_str] at status
  have range : escapedLength (startLine.repr ++ "-" ++ (readEnd startLine endLine s).repr).toList =
      digitCount startLine + 1 + digitCount (readEnd startLine endLine s) := by
    rw [String.toList_append, String.toList_append, escapedLength_append, escapedLength_append,
      escapedLength_repr, escapedLength_repr]
    rfl
  unfold readAnswer
  rw [whole]
  simp only [Option.isSome_none, Bool.false_eq_true, if_false, List.append_nil]
  rw [dumps, dumpsFields, dumpsFields, dumpsFields, dumpsFields, dumpsFields]
  simp only [List.length_cons, List.length_append, length_dumps_str, length_dumps_nat, List.length_nil, range,
    String.toList_ofList]
  omega

theorem map_linesBetween {α β : Type} (f : α → β) (lineNo : Nat) (lines : List (List α)) :
    linesBetween startLine endLine lineNo (lines.map (List.map f)) =
      (linesBetween startLine endLine lineNo lines).map (List.map f) := by
  induction lines generalizing lineNo with
  | nil => rfl
  | cons line rest ih =>
    rw [List.map_cons, linesBetween, linesBetween, ih]
    split <;> rfl

/-- **A file is read whole exactly when it is not empty, the lines asked for fit into one call, and so does the
answer**, whose escapes and numbers the budget does not count. -/
theorem readsWhole_iff (floatInt : Number → Option Int) (path : String) (text : List Char) (startArg endArg : Json)
    (limit : Nat) :
    let lines := fileLines (universalNewlines text)
    let start := effectiveStart floatInt startArg
    let last := effectiveEnd floatInt endArg start
    ReadsWhole floatInt path text startArg endArg limit ↔
      text ≠ [] ∧ (linesBetween start last 1 lines).flatten.length ≤ contentCharLimit limit ∧
        answerLength path lines start last ≤ limit := by
  intro lines start last
  have numbered : Numbered 1 (placedLines text) := numbered_locateFrom 1 lines
  have chars : (placedLines text).map (List.map Located.char) = lines := chars_locateFrom 1 lines
  have count : (placedLines text).length = lines.length := by rw [← chars, List.length_map]
  have asked : (linesBetween start last 1 lines).flatten =
      (linesBetween start last 1 (placedLines text)).flatten.map Located.char := by
    rw [← chars, map_linesBetween, List.map_flatten]
  have size : (linesBetween start last 1 lines).flatten.length =
      (linesBetween start last 1 (placedLines text)).flatten.length := by
    rw [asked, List.length_map]
  have pos : 0 < start := effectiveStart_pos startArg
  have ordered (line : Nat) (isLast : last = some line) : start ≤ line := startLine_le_effectiveEnd isLast
  by_cases fits : (linesBetween start last 1 lines).flatten.length ≤ contentCharLimit limit
  · have whole := @readLines_whole floatInt start _ endArg _ (placedLines text) (size ▸ fits)
    have ends := congrArg Selection.nextStartLine whole
    -- the only call names its lines, and its answer has the length computed
    have single (filled : text ≠ []) :
        (∀ line, start ≤ line ∧ line ≤ readEnd start last
            (readLines floatInt (placedLines text) endArg (contentCharLimit limit) start) ↔
          ∃ x ∈ (readLines floatInt (placedLines text) endArg (contentCharLimit limit) start).selectedLines.flatten,
            x.line = line) ∧
        (dumps (readAnswer path start last limit
          ((readLines floatInt (placedLines text) endArg (contentCharLimit limit) start).map
            Located.char))).length = answerLength path lines start last := by
      have someLines : placedLines text ≠ [] := fun none => filled ((placedLines_eq_nil_iff text).mp none)
      have filledLines := filled_locateFrom 1 lines (ne_nil_of_mem_fileLines _)
      rw [whole]
      refine ⟨fun line => ?_, ?_⟩
      · rw [readEnd_whole pos ordered someLines]
        exact numbered.exists_between filledLines pos line
      · have charLines : lines ≠ [] := by rwa [← chars, ne_eq, List.map_eq_nil_iff]
        rw [Selection.map, ← map_linesBetween, chars, count, length_readAnswer path _ rfl,
          readEnd_whole pos ordered charLines]
        rfl
    refine ⟨?_, fun ⟨filled, _, short⟩ => ?_⟩
    · rintro ⟨fuel, calls, follows, -, each⟩
      cases fuel with
      | zero => cases follows
      | succ fuel =>
        rw [followRead_of_none fuel ends, Option.some.injEq] at follows
        obtain ⟨named, short⟩ := each _ (follows ▸ List.mem_singleton_self _)
        have filled : text ≠ [] := by
          intro empty
          rw [whole, (placedLines_eq_nil_iff text).mpr empty] at named
          obtain ⟨x, mem, -⟩ := (named start).mp ⟨le_rfl, startLine_le_readEnd ordered⟩
          cases mem
        exact ⟨filled, fits, (single filled).2 ▸ short⟩
    · obtain ⟨named, length⟩ := single filled
      refine ⟨1, _, followRead_of_none 0 ends, ?_, fun call mem => ?_⟩
      · rw [contents, List.flatMap_singleton, whole]
      · rw [List.mem_singleton] at mem
        rw [mem]
        exact ⟨named, length ▸ short⟩
  · refine iff_of_false ?_ fun holds => fits holds.2.1
    rintro ⟨fuel, calls, follows, same, -⟩
    exact contents_ne numbered follows (by rw [← size]; exact Nat.not_le.mp fits) same

theorem followRead_chars (text : List Char) (startArg endArg : Json) (fuel : Nat) :
    followRead floatInt (fileLines (universalNewlines text)) endArg limit fuel startArg =
      (followRead floatInt (placedLines text) endArg limit fuel startArg).map
        (List.map fun call => (call.1, call.2.map Located.char)) := by
  rw [← followRead_map, placedLines, chars_locateFrom]

/-- The calls of the located text are answers of `read_file`. -/
theorem followRead_answers {host : ReadHost} {path target : String} {text : List Char}
    {calls : List (Nat × Selection Located)} (named : pyStrip path ≠ "")
    (resolves : host.resolve path = .ok target) (isText : host.file target = some text)
    (limited : resolveToolResultCharLimit host.config readFileMaxChars = .ok limit) :
    ∀ {startArg : Json},
      followRead floatInt (placedLines text) endArg (contentCharLimit limit) fuel startArg = some calls →
        ∀ call ∈ calls, ∃ startArg, readFile floatInt host (.str path) startArg endArg =
          readAnswer target call.1 (effectiveEnd floatInt endArg call.1) limit (call.2.map Located.char) := by
  have answer (startArg : Json) : readFile floatInt host (.str path) startArg endArg =
      readAnswer target (effectiveStart floatInt startArg)
        (effectiveEnd floatInt endArg (effectiveStart floatInt startArg)) limit
        ((readLines floatInt (placedLines text) endArg (contentCharLimit limit)
          (effectiveStart floatInt startArg)).map Located.char) := by
    simp only [readFile, if_neg named, resolves, isText, limited, ← readLines_map, placedLines, chars_locateFrom]
  induction fuel generalizing calls with
  | zero =>
    intro startArg follows
    cases follows
  | succ fuel ih =>
    intro startArg follows call mem
    cases continues : (readLines floatInt (placedLines text) endArg (contentCharLimit limit)
        (effectiveStart floatInt startArg)).nextStartLine with
    | none =>
      rw [followRead_of_none fuel continues, Option.some.injEq] at follows
      rw [← follows, List.mem_singleton] at mem
      exact ⟨startArg, by rw [mem, answer]⟩
    | some next =>
      rw [followRead_of_some fuel continues, Option.map_eq_some_iff] at follows
      obtain ⟨later, follows, rfl⟩ := follows
      rcases List.mem_cons.mp mem with rfl | mem
      · exact ⟨startArg, answer startArg⟩
      · exact ih follows call mem

/-- **Who follows the continuation comes to the end**: for any file, lines asked for and limit, `read_file` has
answered every call after at most one call more than the file has lines. -/
theorem follow_ends {host : ReadHost} {path target : String} {text : List Char} (startArg endArg : Json)
    (named : pyStrip path ≠ "") (resolves : host.resolve path = .ok target) (isText : host.file target = some text)
    (limited : resolveToolResultCharLimit host.config readFileMaxChars = .ok limit) :
    let lines := fileLines (universalNewlines text)
    ∃ calls, followRead floatInt lines endArg (contentCharLimit limit) (lines.length + 1) startArg = some calls ∧
      ∀ call ∈ calls, ∃ startArg, readFile floatInt host (.str path) startArg endArg =
        readAnswer target call.1 (effectiveEnd floatInt endArg call.1) limit call.2 := by
  intro lines
  obtain ⟨calls, follows⟩ := followRead_terminates lines endArg startArg
  refine ⟨calls, follows, ?_⟩
  -- the calls of the located text, which have the same characters
  rw [followRead_chars, Option.map_eq_some_iff] at follows
  obtain ⟨located, follows, rfl⟩ := follows
  rintro _ mem
  obtain ⟨call, locatedMem, rfl⟩ := List.mem_map.mp mem
  exact followRead_answers named resolves isText limited follows call locatedMem

/-- A notice of four lines with a limit that leaves five characters to a call. -/
theorem follow_ends_notice :
    let text := ['a', 'b', '\n', 'c', '\n', 'd', 'e', 'f', '\n', 'g']
    let host : ReadHost := ⟨fun path => .ok path, id, fun _ => some text, some (.nat 1338)⟩
    ∃ calls, followRead (fun _ => none) (fileLines (universalNewlines text)) .null (contentCharLimit 1205) 5
        (.nat 1) = some calls ∧
      ∀ call ∈ calls, ∃ startArg, readFile (fun _ => none) host (.str "/work/notice") startArg .null =
        readAnswer "/work/notice" call.1 (effectiveEnd (fun _ => none) .null call.1) 1205 call.2 :=
  follow_ends (.nat 1) .null (by decide) rfl rfl (by decide +kernel)

theorem linesBetween_all {α : Type} (lineNo : Nat) (lines : List (List α)) (from_first : startLine ≤ lineNo) :
    linesBetween startLine none lineNo lines = lines := by
  induction lines generalizing lineNo with
  | nil => rfl
  | cons line rest ih =>
    rw [linesBetween, if_neg (by rw [or_iff_left not_past_none]; omega), ih (lineNo + 1) (by omega)]

/-- A line of 18801 characters: the first call returns 18800 of them, and the second starts behind the line. -/
theorem long_line_not_readsWhole :
    ¬ ReadsWhole (fun _ => none) "/work/bundle.js" (List.replicate 18801 'a') (.nat 1) .null 20000 := by
  rintro ⟨fuel, calls, follows, same, -⟩
  have start : effectiveStart (fun _ => none) (.nat 1) = 1 := effectiveStart_nat Nat.one_pos
  refine contents_ne (numbered_locateFrom 1 _) follows ?_ same
  have plain : '\r' ∉ List.replicate 18801 'a' := fun mem => absurd (List.eq_of_mem_replicate mem) (by decide)
  have all := congrArg (fun lines => lines.flatten.length) (chars_locateFrom 1 (fileLines (List.replicate 18801 'a')))
  rw [← List.map_flatten, List.length_map, flatten_fileLines, List.length_replicate] at all
  rw [start, effectiveEnd, if_pos rfl, linesBetween_all 1 _ le_rfl, universalNewlines_eq plain, all]
  decide

end

end AgentPark.Tools
