import AgentPark.Patching.Parser
import AgentPark.Lib.Outcome

/-!
# Writing a patch

The printer writes operations between the two marker lines, which may have blanks around them.  The
parser reads back what it has written, unless there are blanks in front of the end marker and the
last operation has a body: the sub-parsers run to the end of the lines and stop only where a line
begins with `*** `.
-/

namespace AgentPark.Patching

open Lib

/-! ### Writable operations -/

/-- The text stands on one line. -/
def OneLine (text : Text) : Prop := ∀ c ∈ text, isLineBoundary c = false

instance : DecidablePred OneLine := fun text => List.decidableBAll _ text

structure IsPath (path : Text) : Prop where
  ne : path ≠ []
  trimmed : strip path = path
  oneLine : OneLine path

structure Hunk.Writable (hunk : Hunk) : Prop where
  trimmed : strip hunk.header = hunk.header
  header : OneLine hunk.header
  ne : hunk.lines ≠ []
  lines : ∀ line ∈ hunk.lines, OneLine line.2

def Operation.Writable : Operation → Prop
  | .add path lines => IsPath path ∧ ∀ line ∈ lines, OneLine line
  | .delete path => IsPath path
  | .update path moveTo hunks =>
    IsPath path ∧ (∀ target ∈ moveTo, IsPath target) ∧ ∀ hunk ∈ hunks, hunk.Writable

/-! ### The printer -/

def printHunk (hunk : Hunk) : List Text :=
  (hunkPrefix ++ if hunk.header = [] then [] else ' ' :: hunk.header) ::
    hunk.lines.map fun line => line.1.char :: line.2

def printOperation : Operation → List Text
  | .add path lines => (addPrefix ++ path) :: lines.map fun line => '+' :: line
  | .delete path => [deletePrefix ++ path]
  | .update path moveTo hunks =>
    (updatePrefix ++ path) ::
      (moveTo.toList.map fun target => movePrefix ++ target) ++ hunks.flatMap printHunk

def Blank := { text : Text // ∀ c ∈ text, pyIsSpace c = true ∧ isLineBoundary c = false }

/-- What stands around the markers. -/
structure Padding where
  beforeBegin : Blank
  afterBegin : Blank
  beforeEnd : Blank
  afterEnd : Blank
  finalNewline : Bool

def Padding.beginLine (padding : Padding) : Text :=
  padding.beforeBegin.val ++ beginMarker ++ padding.afterBegin.val

def Padding.endLine (padding : Padding) : Text :=
  padding.beforeEnd.val ++ endMarker ++ padding.afterEnd.val

def printPatch (padding : Padding) (operations : List Operation) : Text :=
  joinLines '\n' (padding.beginLine :: operations.flatMap printOperation ++ [padding.endLine]) ++
    if padding.finalNewline then ['\n'] else []

/-! ### Lines of a patch -/

theorem OneLine.append {front back : Text} (isFront : OneLine front) (isBack : OneLine back) :
    OneLine (front ++ back) := by
  intro c mem
  rcases List.mem_append.mp mem with inFront | inBack
  · exact isFront c inFront
  · exact isBack c inBack

theorem OneLine.cons {c : Char} {text : Text} (isFirst : isLineBoundary c = false) (isText : OneLine text) :
    OneLine (c :: text) :=
  List.forall_mem_cons.mpr ⟨isFirst, isText⟩

theorem oneLine_prefixes : OneLine addPrefix ∧ OneLine updatePrefix ∧ OneLine deletePrefix ∧
    OneLine movePrefix ∧ OneLine hunkPrefix ∧ OneLine beginMarker ∧ OneLine endMarker := by
  decide

theorem Blank.oneLine (blank : Blank) : OneLine blank.val := fun c mem => (blank.property c mem).2

theorem Padding.oneLine_beginLine (padding : Padding) : OneLine padding.beginLine :=
  (padding.beforeBegin.oneLine.append oneLine_prefixes.2.2.2.2.2.1).append padding.afterBegin.oneLine

theorem Padding.oneLine_endLine (padding : Padding) : OneLine padding.endLine :=
  (padding.beforeEnd.oneLine.append oneLine_prefixes.2.2.2.2.2.2).append padding.afterEnd.oneLine

theorem LineKind.oneLine (kind : LineKind) : isLineBoundary kind.char = false := by
  cases kind <;> decide

theorem oneLine_printHunk {hunk : Hunk} (writable : hunk.Writable) :
    ∀ line ∈ printHunk hunk, OneLine line := by
  refine List.forall_mem_cons.mpr ⟨oneLine_prefixes.2.2.2.2.1.append ?_, ?_⟩
  · split_ifs
    · exact fun _ mem => by cases mem
    · exact writable.header.cons (by decide)
  · intro line mem
    obtain ⟨body, inLines, rfl⟩ := List.mem_map.mp mem
    exact (writable.lines body inLines).cons body.1.oneLine

theorem oneLine_printOperation {operation : Operation} (writable : operation.Writable) :
    ∀ line ∈ printOperation operation, OneLine line := by
  obtain ⟨isAdd, isUpdate, isDelete, isMove, -, -, -⟩ := oneLine_prefixes
  cases operation with
  | add path lines =>
    obtain ⟨isPath, isLine⟩ := writable
    refine List.forall_mem_cons.mpr ⟨isAdd.append isPath.oneLine, fun line mem => ?_⟩
    obtain ⟨content, inLines, rfl⟩ := List.mem_map.mp mem
    exact (isLine content inLines).cons (by decide)
  | delete path =>
    intro line mem
    rw [List.mem_singleton.mp mem]
    exact isDelete.append (IsPath.oneLine writable)
  | update path moveTo hunks =>
    obtain ⟨isPath, isTarget, isHunk⟩ := writable
    intro line mem
    rcases List.mem_append.mp mem with inHead | inHunks
    · rcases List.mem_cons.mp inHead with rfl | inMove
      · exact isUpdate.append isPath.oneLine
      · obtain ⟨target, inTarget, rfl⟩ := List.mem_map.mp inMove
        exact isMove.append (isTarget target (Option.mem_toList.mp inTarget)).oneLine
    · obtain ⟨hunk, inHunks, inHunk⟩ := List.mem_flatMap.mp inHunks
      exact oneLine_printHunk (isHunk hunk inHunks) line inHunk

theorem Padding.endLine_ne (padding : Padding) : padding.endLine ≠ [] := by
  intro empty
  have marker := (List.append_eq_nil_iff.mp (List.append_eq_nil_iff.mp empty).1).2
  cases marker

theorem splitlines_printPatch (padding : Padding) {operations : List Operation}
    (writable : ∀ operation ∈ operations, operation.Writable) :
    splitlines (printPatch padding operations) =
      padding.beginLine :: operations.flatMap printOperation ++ [padding.endLine] := by
  have oneLine : ∀ line ∈ padding.beginLine :: operations.flatMap printOperation ++ [padding.endLine],
      OneLine line := by
    intro line mem
    rw [List.cons_append] at mem
    rcases List.mem_cons.mp mem with rfl | later
    · exact padding.oneLine_beginLine
    · rcases List.mem_append.mp later with inBody | isEnd
      · obtain ⟨operation, inOperations, inPrint⟩ := List.mem_flatMap.mp inBody
        exact oneLine_printOperation (writable operation inOperations) line inPrint
      · rw [List.mem_singleton.mp isEnd]
        exact padding.oneLine_endLine
  exact splitlines_joinLines oneLine padding.endLine_ne padding.finalNewline

/-! ### Bodies -/

/-- A body ends in front of these lines. -/
def Stops (rest : List Text) : Prop :=
  ∃ line lines, rest = line :: lines ∧ isSectionLine line = true ∧ afterPrefix? movePrefix line = none

section
variable {repr : Text → String} {filePath : Text} {rest : List Text}

theorem parseAddFile_print (lines : List Text) (stops : Stops rest) :
    parseAddFile repr filePath ((lines.map fun line => '+' :: line) ++ rest) = .ok (lines, rest) := by
  induction lines with
  | nil =>
    obtain ⟨line, lines, rfl, isSection, -⟩ := stops
    rw [List.map_nil, List.nil_append]
    unfold parseAddFile
    rw [if_pos isSection]
  | cons line lines ih =>
    rw [List.map_cons, List.cons_append, parseAddFile, ih]
    rfl

/-- A hunk ends in front of a section and in front of another hunk. -/
def StopsHunk (rest : List Text) : Prop :=
  ∃ line lines, rest = line :: lines ∧ (isSectionLine line || hunkPrefix.isPrefixOf line) = true

theorem Stops.hunk (stops : Stops rest) : StopsHunk rest := by
  obtain ⟨line, lines, same, isSection, -⟩ := stops
  exact ⟨line, lines, same, by rw [isSection, Bool.true_or]⟩

theorem parseHunkLines_cons (kind : LineKind) (text : Text) (lines : List Text) :
    parseHunkLines repr filePath ((kind.char :: text) :: lines) =
      (parseHunkLines repr filePath lines).map fun result => ((kind, text) :: result.1, result.2) := by
  cases kind <;> rfl

theorem parseHunkLines_print (lines : List (LineKind × Text)) (stops : StopsHunk rest) :
    parseHunkLines repr filePath ((lines.map fun line => line.1.char :: line.2) ++ rest) =
      .ok (lines, rest) := by
  induction lines with
  | nil =>
    obtain ⟨line, lines, rfl, stopsHere⟩ := stops
    rw [List.map_nil, List.nil_append, parseHunkLines, if_pos stopsHere]
  | cons line lines ih =>
    rw [List.map_cons, List.cons_append, parseHunkLines_cons, ih]
    rfl

theorem header_print {hunk : Hunk} (trimmed : strip hunk.header = hunk.header) :
    strip ((hunkPrefix ++ if hunk.header = [] then [] else ' ' :: hunk.header).drop hunkPrefix.length) =
      hunk.header := by
  rw [List.drop_left]
  split_ifs with empty
  · rw [empty]
    rfl
  · have blank : ∀ c ∈ [' '], pyIsSpace c = true := List.forall_mem_singleton.mpr rfl
    rw [strip, stripList, ← List.singleton_append, List.dropWhile_append_of_pos blank]
    exact trimmed

theorem parseUpdateFile_header (moveTo : Option Text) (hunks : List Hunk) (header : Text) (lines : List Text) :
    parseUpdateFile repr filePath moveTo hunks ((hunkPrefix ++ header) :: lines) =
      parseHunk repr filePath (hunkPrefix ++ header) lines >>= fun result =>
        parseUpdateFile repr filePath moveTo (hunks ++ [result.1]) result.2 := by
  have noMove : afterPrefix? movePrefix (hunkPrefix ++ header) = none := rfl
  have begins : hunkPrefix.isPrefixOf (hunkPrefix ++ header) = true := rfl
  rw [parseUpdateFile, noMove]
  dsimp only
  rw [if_pos begins]
  split
  next error parsed =>
    rw [parsed]
    rfl
  next hunk rest parsed =>
    rw [parsed]
    rfl

theorem parseHunk_print {hunk : Hunk} (writable : hunk.Writable) (stops : StopsHunk rest) :
    parseHunk repr filePath (hunkPrefix ++ if hunk.header = [] then [] else ' ' :: hunk.header)
      ((hunk.lines.map fun line => line.1.char :: line.2) ++ rest) = .ok (hunk, rest) := by
  rw [parseHunk, parseHunkLines_print hunk.lines stops]
  change (if hunk.lines = [] then _ else _) = _
  rw [if_neg writable.ne, header_print writable.trimmed]
  rfl

theorem stopsHunk_flatMap (others : List Hunk) (stops : StopsHunk rest) :
    StopsHunk (others.flatMap printHunk ++ rest) := by
  cases others with
  | nil => exact stops
  | cons hunk others => exact ⟨_, _, rfl, rfl⟩

theorem parseUpdateFile_hunks {moveTo : Option Text} (hunks : List Hunk) {others : List Hunk}
    (writable : ∀ hunk ∈ others, hunk.Writable) (stops : StopsHunk rest) :
    parseUpdateFile repr filePath moveTo hunks (others.flatMap printHunk ++ rest) =
      parseUpdateFile repr filePath moveTo (hunks ++ others) rest := by
  induction others generalizing hunks with
  | nil => rw [List.flatMap_nil, List.nil_append, List.append_nil]
  | cons hunk others ih =>
    obtain ⟨first, later⟩ := List.forall_mem_cons.mp writable
    rw [List.flatMap_cons, List.append_assoc, printHunk, List.cons_append, parseUpdateFile_header,
      parseHunk_print first (stopsHunk_flatMap others stops)]
    change parseUpdateFile repr filePath moveTo (hunks ++ [hunk]) _ = _
    rw [ih _ later, List.append_assoc, List.singleton_append]

theorem parseUpdateFile_move (moveTo : Option Text) (isTarget : ∀ target ∈ moveTo, IsPath target)
    (lines : List Text) :
    parseUpdateFile repr filePath none []
        ((moveTo.toList.map fun target => movePrefix ++ target) ++ lines) =
      parseUpdateFile repr filePath moveTo [] lines := by
  cases moveTo with
  | none => rfl
  | some target =>
    have isPath := isTarget target rfl
    have isMove : afterPrefix? movePrefix (movePrefix ++ target) = some target := rfl
    change parseUpdateFile repr filePath none [] ((movePrefix ++ target) :: lines) = _
    rw [parseUpdateFile, isMove]
    dsimp only
    rw [isPath.trimmed, if_neg (by simp), if_neg isPath.ne]

theorem parseUpdateFile_stops (moveTo : Option Text) (hunks : List Hunk) (stops : Stops rest) :
    parseUpdateFile repr filePath moveTo hunks rest = .ok (.update filePath moveTo hunks, rest) := by
  obtain ⟨line, lines, rfl, isSection, noMove⟩ := stops
  -- A line that begins with `*** ` does not begin with `@@`.
  have noHunk : hunkPrefix.isPrefixOf line = false := by
    cases line with
    | nil => rfl
    | cons c text =>
      have isStar : '*' = c := by
        unfold isSectionLine at isSection
        rw [show sectionPrefix = '*' :: ['*', '*', ' '] from rfl, List.isPrefixOf,
          Bool.and_eq_true, beq_iff_eq] at isSection
        exact isSection.1
      rw [← isStar]
      rfl
  rw [parseUpdateFile, noMove]
  dsimp only
  rw [noHunk, if_neg Bool.false_ne_true, if_pos isSection]

theorem parseUpdateFile_print {moveTo : Option Text} {hunks : List Hunk}
    (isTarget : ∀ target ∈ moveTo, IsPath target) (writable : ∀ hunk ∈ hunks, hunk.Writable)
    (stops : Stops rest) :
    parseUpdateFile repr filePath none []
        ((moveTo.toList.map fun target => movePrefix ++ target) ++ (hunks.flatMap printHunk ++ rest)) =
      .ok (.update filePath moveTo hunks, rest) := by
  rw [parseUpdateFile_move moveTo isTarget, parseUpdateFile_hunks [] writable stops.hunk,
    List.nil_append, parseUpdateFile_stops moveTo hunks stops]

end

/-! ### Sections -/

def Operation.IsDelete : Operation → Prop
  | .delete _ => True
  | _ => False

section
variable {repr : Text → String} {rest : List Text}

theorem parseSections_add {path : Text} {lines : List Text} (isPath : IsPath path) (ne : lines ≠ []) :
    parseSections repr ((addPrefix ++ path) :: lines) =
      parseAddFile repr path lines >>= fun result =>
        (parseSections repr result.2).map (.add path result.1 :: ·) := by
  have isAdd : afterPrefix? addPrefix (addPrefix ++ path) = some path := rfl
  rw [parseSections, if_neg ne, if_neg (List.append_ne_nil_of_left_ne_nil (by decide) path), isAdd]
  dsimp only
  rw [isPath.trimmed]
  split
  next error parsed =>
    rw [parsed]
    rfl
  next contentLines rest parsed =>
    rw [parsed]
    rfl

theorem parseSections_update {path : Text} {lines : List Text} (isPath : IsPath path) (ne : lines ≠ []) :
    parseSections repr ((updatePrefix ++ path) :: lines) =
      parseUpdateFile repr path none [] lines >>= fun result =>
        (parseSections repr result.2).map (result.1 :: ·) := by
  have noAdd : afterPrefix? addPrefix (updatePrefix ++ path) = none := rfl
  have isUpdate : afterPrefix? updatePrefix (updatePrefix ++ path) = some path := rfl
  rw [parseSections, if_neg ne, if_neg (List.append_ne_nil_of_left_ne_nil (by decide) path), noAdd]
  dsimp only
  rw [isUpdate]
  dsimp only
  rw [isPath.trimmed]
  split
  next error parsed =>
    rw [parsed]
    rfl
  next operation rest parsed =>
    rw [parsed]
    rfl

theorem parseSections_delete {path : Text} (isPath : IsPath path) (ne : rest ≠ []) :
    parseSections repr ((deletePrefix ++ path) :: rest) =
      (parseSections repr rest).map (.delete path :: ·) := by
  have noAdd : afterPrefix? addPrefix (deletePrefix ++ path) = none := rfl
  have noUpdate : afterPrefix? updatePrefix (deletePrefix ++ path) = none := rfl
  have isDelete : afterPrefix? deletePrefix (deletePrefix ++ path) = some path := rfl
  rw [parseSections, if_neg ne, if_neg (List.append_ne_nil_of_left_ne_nil (by decide) path), noAdd]
  dsimp only
  rw [noUpdate]
  dsimp only
  rw [isDelete]
  dsimp only
  rw [isPath.trimmed]
  rfl

/-- The step over one operation. -/
theorem parseSections_print {operation : Operation} (writable : operation.Writable) (ne : rest ≠ [])
    (stops : operation.IsDelete ∨ Stops rest) :
    parseSections repr (printOperation operation ++ rest) =
      (parseSections repr rest).map (operation :: ·) := by
  cases operation with
  | add path lines =>
    obtain ⟨isPath, -⟩ := writable
    have stops' := stops.resolve_left id
    rw [printOperation, List.cons_append, parseSections_add isPath (by simp [ne]),
      parseAddFile_print lines stops']
    rfl
  | delete path => exact parseSections_delete writable ne
  | update path moveTo hunks =>
    obtain ⟨isPath, isTarget, isHunk⟩ := writable
    have stops' := stops.resolve_left id
    rw [printOperation, List.append_assoc, List.cons_append,
      parseSections_update isPath (by simp [ne]), parseUpdateFile_print isTarget isHunk stops']
    rfl

theorem stops_printOperation (operation : Operation) (rest : List Text) :
    Stops (printOperation operation ++ rest) := by
  cases operation <;> exact ⟨_, _, rfl, rfl, rfl⟩

/-- The step over many operations. -/
theorem parseSections_flatMap {operations : List Operation}
    (writable : ∀ operation ∈ operations, operation.Writable) (ne : rest ≠ []) (stops : Stops rest) :
    parseSections repr (operations.flatMap printOperation ++ rest) =
      (parseSections repr rest).map (operations ++ ·) := by
  induction operations with
  | nil => cases same : parseSections repr rest <;> simp [same, Except.map]
  | cons operation operations ih =>
    obtain ⟨first, later⟩ := List.forall_mem_cons.mp writable
    have stopsLater : Stops (operations.flatMap printOperation ++ rest) := by
      cases operations with
      | nil => exact stops
      | cons next operations =>
        rw [List.flatMap_cons, List.append_assoc]
        exact stops_printOperation next _
    rw [List.flatMap_cons, List.append_assoc,
      parseSections_print first (by simp [ne]) (.inr stopsLater), ih later]
    cases parseSections repr rest <;> rfl

end

/-! ### A marker behind blanks -/

section
variable {repr : Text → String} {filePath : Text} {c : Char} {text : Text}

theorem isPrefixOf_cons_of_ne {start : Text} {first : Char} (isFirst : start.head? = some first)
    (ne : first ≠ c) : start.isPrefixOf (c :: text) = false := by
  cases start with
  | nil => cases isFirst
  | cons d start =>
    cases isFirst
    rw [List.isPrefixOf, beq_false_of_ne ne, Bool.false_and]

theorem blank_startsNothing (blank : pyIsSpace c = true) :
    c ≠ '+' ∧ isSectionLine (c :: text) = false ∧ hunkPrefix.isPrefixOf (c :: text) = false ∧
      afterPrefix? movePrefix (c :: text) = none := by
  have ne : ∀ d, pyIsSpace d = false → d ≠ c := by
    intro d notBlank same
    rw [same, blank] at notBlank
    cases notBlank
  have notStar : '*' ≠ c := ne '*' (by decide)
  have noMove : movePrefix.isPrefixOf (c :: text) = false := isPrefixOf_cons_of_ne rfl notStar
  refine ⟨(ne '+' (by decide)).symm, isPrefixOf_cons_of_ne rfl notStar, ?_, ?_⟩
  · exact isPrefixOf_cons_of_ne rfl (ne '@' (by decide))
  · rw [afterPrefix?, noMove, if_neg Bool.false_ne_true]

theorem parseAddFile_padded (blank : pyIsSpace c = true) (lines : List Text) :
    ∃ error, parseAddFile repr filePath ((lines.map fun line => '+' :: line) ++ [c :: text]) =
      .error error := by
  induction lines with
  | nil =>
    obtain ⟨notPlus, notSection, -, -⟩ := @blank_startsNothing c text blank
    rw [List.map_nil, List.nil_append]
    unfold parseAddFile
    rw [notSection, if_neg Bool.false_ne_true]
    split
    next content same =>
      injection same with isPlus _
      exact absurd isPlus notPlus
    next => exact ⟨_, rfl⟩
  | cons line lines ih =>
    obtain ⟨error, failed⟩ := ih
    refine ⟨error, ?_⟩
    rw [List.map_cons, List.cons_append, parseAddFile, failed]
    rfl

theorem parseHunkLines_padded (blank : pyIsSpace c = true) {lines hunkLines : List (LineKind × Text)}
    {rest : List Text}
    (parsed : parseHunkLines repr filePath
      ((lines.map fun line => line.1.char :: line.2) ++ [c :: text]) = .ok (hunkLines, rest)) :
    ∃ line, hunkLines = lines ++ [line] := by
  induction lines generalizing hunkLines with
  | nil =>
    obtain ⟨-, notSection, notHunk, -⟩ := @blank_startsNothing c text blank
    rw [List.map_nil, List.nil_append, parseHunkLines, notSection, notHunk, Bool.false_or,
      if_neg Bool.false_ne_true, List.head?_cons, Option.bind_some] at parsed
    cases kind : LineKind.ofChar? c with
    | none =>
      rw [kind] at parsed
      cases parsed
    | some kind' =>
      rw [kind] at parsed
      cases parsed
      exact ⟨(kind', text), rfl⟩
  | cons line lines ih =>
    rw [List.map_cons, List.cons_append, parseHunkLines_cons] at parsed
    cases later : parseHunkLines repr filePath
        ((lines.map fun line => line.1.char :: line.2) ++ [c :: text]) with
    | error error =>
      rw [later] at parsed
      cases parsed
    | ok result =>
      rw [later] at parsed
      cases parsed
      obtain ⟨extra, same⟩ := ih later
      exact ⟨extra, by rw [same, List.cons_append]⟩

theorem parseUpdateFile_hunks_prefix {moveTo : Option Text} {hunks : List Hunk} {lines rest : List Text}
    {operation : Operation}
    (parsed : parseUpdateFile repr filePath moveTo hunks lines = .ok (operation, rest)) :
    ∃ target more, operation = .update filePath target (hunks ++ more) := by
  fun_induction parseUpdateFile repr filePath moveTo hunks lines with
  | case1 =>
    cases parsed
    exact ⟨_, [], by rw [List.append_nil]⟩
  | case2 | case3 | case5 | case8 => cases parsed
  | case4 _ _ _ _ _ _ _ _ ih => exact ih parsed
  | case6 _ _ _ _ _ _ _ _ isHunk ih =>
    obtain ⟨target, more, same⟩ := ih parsed
    exact ⟨target, _, by rw [same, List.append_assoc]⟩
  | case7 =>
    cases parsed
    exact ⟨_, [], by rw [List.append_nil]⟩

theorem parseUpdateFile_padded (blank : pyIsSpace c = true) {moveTo : Option Text} {hunks : List Hunk}
    {rest : List Text} (isTarget : ∀ target ∈ moveTo, IsPath target)
    (writable : ∀ hunk ∈ hunks, hunk.Writable) :
    parseUpdateFile repr filePath none []
        ((moveTo.toList.map fun target => movePrefix ++ target) ++
          (hunks.flatMap printHunk ++ [c :: text])) ≠ .ok (.update filePath moveTo hunks, rest) := by
  obtain ⟨-, notSection, notHunk, notMove⟩ := @blank_startsNothing c text blank
  intro parsed
  rw [parseUpdateFile_move moveTo isTarget] at parsed
  rcases List.eq_nil_or_concat hunks with rfl | ⟨init, last, rfl⟩
  · -- Without hunks the marker is no line of the format.
    rw [List.flatMap_nil, List.nil_append, parseUpdateFile, notMove] at parsed
    dsimp only at parsed
    rw [notHunk, notSection, if_neg Bool.false_ne_true, if_neg Bool.false_ne_true] at parsed
    cases parsed
  · rw [List.concat_eq_append] at parsed writable
    obtain ⟨writableInit, writableLast⟩ := List.forall_mem_append.mp writable
    have stops : StopsHunk (printHunk last ++ [c :: text]) := ⟨_, _, rfl, rfl⟩
    rw [List.flatMap_append, List.flatMap_singleton, List.append_assoc,
      parseUpdateFile_hunks [] writableInit stops, List.nil_append, printHunk, List.cons_append,
      parseUpdateFile_header] at parsed
    obtain ⟨⟨hunk, rest'⟩, isHunk, later⟩ := bind_eq_ok.mp parsed
    obtain ⟨⟨hunkLines, _⟩, isLines, isHunk⟩ := bind_eq_ok.mp isHunk
    obtain ⟨extra, same⟩ := parseHunkLines_padded blank isLines
    obtain ⟨target, more, isUpdate⟩ := parseUpdateFile_hunks_prefix later
    injection isUpdate with _ _ sameHunks
    rw [List.append_assoc] at sameHunks
    have sameHunk := (List.cons.inj (List.append_cancel_left sameHunks)).1
    dsimp only at isHunk
    rw [if_neg (by simp [same])] at isHunk
    injection isHunk with isHunk
    have lines_eq := congrArg (fun result => result.1.lines.length) isHunk
    have sameLines := congrArg (fun hunk => hunk.lines.length) sameHunk
    simp [same] at lines_eq sameLines
    omega

/-- What becomes of the last operation in front of a padded marker. -/
theorem parseSections_padded (blank : pyIsSpace c = true) {operation : Operation}
    (writable : operation.Writable) (hasBody : ¬ operation.IsDelete) {others : List Operation} :
    parseSections repr (printOperation operation ++ [c :: text]) ≠ .ok (operation :: others) := by
  intro parsed
  cases operation with
  | add path lines =>
    obtain ⟨error, failed⟩ := @parseAddFile_padded repr path c text blank lines
    rw [printOperation, List.cons_append, parseSections_add writable.1 (by simp), failed] at parsed
    cases parsed
  | delete path => exact hasBody trivial
  | update path moveTo hunks =>
    obtain ⟨isPath, isTarget, isHunk⟩ := writable
    rw [printOperation, List.append_assoc, List.cons_append,
      parseSections_update isPath (by simp)] at parsed
    obtain ⟨⟨operation, rest⟩, isUpdate, later⟩ := bind_eq_ok.mp parsed
    cases isRest : parseSections repr rest with
    | error error =>
      rw [isRest] at later
      cases later
    | ok operations =>
      rw [isRest] at later
      injection later with later
      injection later with sameHead _
      dsimp only at sameHead
      rw [sameHead] at isUpdate
      exact parseUpdateFile_padded blank isTarget isHunk isUpdate

end

/-! ### The whole patch -/

theorem strip_beginLine (padding : Padding) : strip padding.beginLine = beginMarker :=
  stripList_pad (fun c mem => (padding.beforeBegin.property c mem).1)
    (fun c mem => (padding.afterBegin.property c mem).1) (by decide) (by decide)

theorem strip_endLine (padding : Padding) : strip padding.endLine = endMarker :=
  stripList_pad (fun c mem => (padding.beforeEnd.property c mem).1)
    (fun c mem => (padding.afterEnd.property c mem).1) (by decide) (by decide)

theorem strip_printPatch_ne (padding : Padding) (operations : List Operation) :
    strip (printPatch padding operations) ≠ [] := by
  have inBegin : '*' ∈ padding.beginLine := by
    have inMarker : '*' ∈ beginMarker := by decide
    simp [Padding.beginLine, inMarker]
  refine stripList_ne_nil (x := '*') ?_ (by decide)
  refine List.mem_append_left _ ?_
  rw [joinLines_concat]
  exact List.mem_append_left _ (List.mem_flatMap.mpr ⟨padding.beginLine, by simp, by simp [inBegin]⟩)

theorem parsePatch_printPatch (repr : Text → String) (padding : Padding) {operations : List Operation}
    (writable : ∀ operation ∈ operations, operation.Writable) :
    parsePatch repr (printPatch padding operations) =
      parseSections repr (operations.flatMap printOperation ++ [padding.endLine]) >>= fun read =>
        if read = [] then .error "Patch does not contain any file operations." else .ok read := by
  rw [parsePatch, if_neg (strip_printPatch_ne padding operations), splitlines_printPatch padding writable,
    List.cons_append]
  dsimp only
  rw [if_neg (by simp [strip_beginLine]), if_neg (by simp [strip_endLine])]
  rfl

theorem parsePatch_concat (repr : Text → String) (padding : Padding) {init : List Operation}
    {last : Operation} (writable : ∀ operation ∈ init ++ [last], operation.Writable) :
    parsePatch repr (printPatch padding (init ++ [last])) =
      (parseSections repr (printOperation last ++ [padding.endLine])).map (init ++ ·) >>= fun read =>
        if read = [] then .error "Patch does not contain any file operations." else .ok read := by
  have writableInit := (List.forall_mem_append.mp writable).1
  rw [parsePatch_printPatch repr padding writable, List.flatMap_append, List.flatMap_singleton,
    List.append_assoc, parseSections_flatMap writableInit (by simp) (stops_printOperation last _)]

theorem parsePatch_padded (repr : Text → String) (padding : Padding) {init : List Operation}
    {last : Operation} (writable : ∀ operation ∈ init ++ [last], operation.Writable)
    (isPadded : padding.beforeEnd.val ≠ []) (hasBody : ¬ last.IsDelete) :
    parsePatch repr (printPatch padding (init ++ [last])) ≠ .ok (init ++ [last]) := by
  intro parsed
  have writableLast := (List.forall_mem_append.mp writable).2 last List.mem_cons_self
  obtain ⟨c, blanks, isBlanks⟩ := List.exists_cons_of_ne_nil isPadded
  have blank : pyIsSpace c = true := (padding.beforeEnd.property c (by simp [isBlanks])).1
  have isEnd : padding.endLine = c :: (blanks ++ endMarker ++ padding.afterEnd.val) := by
    rw [Padding.endLine, isBlanks]
    rfl
  rw [parsePatch_concat repr padding writable, isEnd] at parsed
  cases isRead : parseSections repr
      (printOperation last ++ [c :: (blanks ++ endMarker ++ padding.afterEnd.val)]) with
  | error error =>
    rw [isRead] at parsed
    cases parsed
  | ok more =>
    rw [isRead] at parsed
    change (if init ++ more = [] then _ else _) = _ at parsed
    split_ifs at parsed
    injection parsed with same
    cases List.append_cancel_left same
    exact parseSections_padded blank writableLast hasBody isRead

theorem parsePatch_plain (repr : Text → String) (padding : Padding) {init : List Operation}
    {last : Operation} (writable : ∀ operation ∈ init ++ [last], operation.Writable)
    (either : padding.beforeEnd.val = [] ∨ last.IsDelete) :
    parsePatch repr (printPatch padding (init ++ [last])) = .ok (init ++ [last]) := by
  have writableLast := (List.forall_mem_append.mp writable).2 last List.mem_cons_self
  have stops : last.IsDelete ∨ Stops [padding.endLine] := by
    rcases either with notPadded | isDelete
    · refine .inr ⟨padding.endLine, [], rfl, ?_⟩
      rw [Padding.endLine, notPadded]
      exact ⟨rfl, rfl⟩
    · exact .inl isDelete
  rw [parsePatch_concat repr padding writable, parseSections_print writableLast (by simp) stops,
    parseSections, if_pos rfl]
  change (if init ++ [last] = [] then _ else _) = _
  rw [if_neg (by simp)]

/-- A printed patch is read back if and only if the end marker begins its line or the last operation
has no body. -/
theorem parse_print_iff (repr : Text → String) (padding : Padding) (operations : List Operation)
    (ne : operations ≠ []) (writable : ∀ operation ∈ operations, operation.Writable) :
    parsePatch repr (printPatch padding operations) = .ok operations ↔
      padding.beforeEnd.val = [] ∨ (operations.getLast ne).IsDelete := by
  obtain ⟨init, last, rfl⟩ := (List.eq_nil_or_concat operations).resolve_left ne
  simp only [List.concat_eq_append, List.getLast_append_singleton] at writable ⊢
  constructor
  · intro parsed
    by_contra neither
    obtain ⟨isPadded, hasBody⟩ := not_or.mp neither
    exact parsePatch_padded repr padding writable isPadded hasBody parsed
  · exact parsePatch_plain repr padding writable

/-- Markers with one blank in front of the end marker. -/
def indentedEnd : Padding where
  beforeBegin := ⟨[], fun _ mem => by cases mem⟩
  afterBegin := ⟨[], fun _ mem => by cases mem⟩
  beforeEnd := ⟨[' '], List.forall_mem_singleton.mpr (by decide)⟩
  afterEnd := ⟨[], fun _ mem => by cases mem⟩
  finalNewline := false

theorem writable_update : (Operation.update ['f'] none [⟨[], [(.removed, ['a'])]⟩]).Writable := by
  have isPath : IsPath ['f'] := ⟨by decide, by decide, by decide⟩
  have noTarget : ∀ target ∈ (none : Option Text), IsPath target := fun _ mem => by cases mem
  refine ⟨isPath, noTarget, List.forall_mem_singleton.mpr ?_⟩
  constructor
  · decide
  · exact fun _ mem => by cases mem
  · decide
  · decide

/-- A file that is added, one that is changed in two places and moved, and one that is deleted. -/
def threeFiles : List Operation :=
  [.add ['a'] [['x'], []],
    .update ['f'] (some ['g'])
      [⟨['h'], [(.context, ['k']), (.removed, ['a']), (.added, ['b'])]⟩, ⟨[], [(.removed, ['c'])]⟩],
    .delete ['d']]

theorem writable_threeFiles : ∀ operation ∈ threeFiles, operation.Writable := by
  have isPath (c : Char) (trimmed : strip [c] = [c]) (plain : OneLine [c]) : IsPath [c] :=
    ⟨List.cons_ne_nil _ _, trimmed, plain⟩
  rw [threeFiles, List.forall_mem_cons, List.forall_mem_cons, List.forall_mem_singleton]
  refine ⟨⟨isPath 'a' (by decide) (by decide), by decide⟩, ⟨isPath 'f' (by decide) (by decide), ?_, ?_⟩,
    isPath 'd' (by decide) (by decide)⟩
  · rintro target ⟨⟩
    exact isPath 'g' (by decide) (by decide)
  · rw [List.forall_mem_cons, List.forall_mem_singleton]
    exact ⟨⟨by decide, by decide, by decide, by decide⟩, ⟨by decide, by decide, by decide, by decide⟩⟩

/-- The last file is deleted, in front of an indented end marker. -/
theorem parse_print_iff_threeFiles :
    parsePatch String.ofList (printPatch indentedEnd threeFiles) = .ok threeFiles :=
  (parse_print_iff String.ofList indentedEnd threeFiles (List.cons_ne_nil _ _) writable_threeFiles).mpr
    (.inr trivial)

/-- An indented end marker becomes a line of the hunk in front of it. -/
theorem parse_print_fails :
    ¬ ∀ (repr : Text → String) (padding : Padding) (operations : List Operation), operations ≠ [] →
      (∀ operation ∈ operations, operation.Writable) →
        parsePatch repr (printPatch padding operations) = .ok operations := by
  intro claimed
  have writable : ∀ operation ∈ [] ++ [Operation.update ['f'] none [⟨[], [(.removed, ['a'])]⟩]],
      operation.Writable := List.forall_mem_singleton.mpr writable_update
  exact parsePatch_padded String.ofList indentedEnd writable (by decide) id
    (claimed _ _ _ (List.cons_ne_nil _ _) writable)

end AgentPark.Patching
