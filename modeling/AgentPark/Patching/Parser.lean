import AgentPark.Lib.TextLines

/-!
# Reading a patch

A patch names files to add, delete and update, between two marker lines.  The sub-parsers of
`_parse_patch` get the lines from where they start to the end of the patch, and give back those they
have left.

`repr` stands for the conversion `!r` in the texts of the errors.
-/

namespace AgentPark.Patching

open Lib

abbrev Text := List Char

/-- `text.strip()` -/
def strip (text : Text) : Text := stripList pyIsSpace text

/-- What is behind `start` in a line that begins with it. -/
def afterPrefix? (start line : Text) : Option Text :=
  if start.isPrefixOf line then some (line.drop start.length) else none

/-! ### The format -/

def sectionPrefix : Text := "*** ".toList

def beginMarker : Text := "*** Begin Patch".toList

def endMarker : Text := "*** End Patch".toList

def addPrefix : Text := "*** Add File: ".toList

def updatePrefix : Text := "*** Update File: ".toList

def deletePrefix : Text := "*** Delete File: ".toList

def movePrefix : Text := "*** Move to: ".toList

def hunkPrefix : Text := "@@".toList

inductive LineKind where
  | context
  | removed
  | added
deriving DecidableEq

def LineKind.char : LineKind → Char
  | .context => ' '
  | .removed => '-'
  | .added => '+'

/-- `_VALID_HUNK_PREFIXES` -/
def LineKind.ofChar? (c : Char) : Option LineKind :=
  if c = ' ' then some .context
  else if c = '-' then some .removed
  else if c = '+' then some .added
  else none

structure Hunk where
  header : Text
  lines : List (LineKind × Text)
deriving DecidableEq

inductive Operation where
  | add (path : Text) (lines : List Text)
  | delete (path : Text)
  | update (path : Text) (moveTo : Option Text) (hunks : List Hunk)
deriving DecidableEq

/-! ### The parser -/

def isSectionLine (line : Text) : Bool := sectionPrefix.isPrefixOf line

section
variable (repr : Text → String)

/-- The section of a file that is added. -/
def parseAddFile (filePath : Text) : List Text → Except String (List Text × List Text)
  | [] => .ok ([], [])
  | line :: lines =>
    if isSectionLine line then .ok ([], line :: lines)
    else
      match line with
      | '+' :: content => do
        let (contentLines, rest) ← parseAddFile filePath lines
        return (content :: contentLines, rest)
      | _ => .error ("Add File body for " ++ repr filePath ++ " must contain only '+' lines.")

/-- The loop of `_parse_hunk`. -/
def parseHunkLines (filePath : Text) : List Text → Except String (List (LineKind × Text) × List Text)
  | [] => .ok ([], [])
  | line :: lines =>
    if isSectionLine line || hunkPrefix.isPrefixOf line then .ok ([], line :: lines)
    else
      match line.head?.bind LineKind.ofChar? with
      | some kind => do
        let (hunkLines, rest) ← parseHunkLines filePath lines
        return ((kind, line.tail) :: hunkLines, rest)
      | none =>
        .error ("Update hunk for " ++ repr filePath ++
          " must contain only context, '-' or '+' lines.")

/-- `_parse_hunk` at the header `line`. -/
def parseHunk (filePath line : Text) (lines : List Text) : Except String (Hunk × List Text) := do
  let (hunkLines, rest) ← parseHunkLines repr filePath lines
  if hunkLines = [] then .error ("Update hunk for " ++ repr filePath ++ " is empty.")
  else return ({ header := strip (line.drop hunkPrefix.length), lines := hunkLines }, rest)

theorem parseAddFile_suffix {filePath : Text} {lines content rest : List Text}
    (parsed : parseAddFile repr filePath lines = .ok (content, rest)) : rest <:+ lines := by
  induction lines generalizing content with
  | nil =>
    cases parsed
    exact List.suffix_rfl
  | cons line lines ih =>
    unfold parseAddFile at parsed
    split_ifs at parsed with isSection
    · cases parsed
      exact List.suffix_rfl
    · split at parsed
      · cases later : parseAddFile repr filePath lines with
        | error error =>
          rw [later] at parsed
          cases parsed
        | ok result =>
          rw [later] at parsed
          cases parsed
          exact (ih later).trans (List.suffix_cons _ _)
      · cases parsed

theorem parseHunkLines_suffix {filePath : Text} {lines rest : List Text} {hunkLines : List (LineKind × Text)}
    (parsed : parseHunkLines repr filePath lines = .ok (hunkLines, rest)) :
    rest <:+ lines := by
  induction lines generalizing hunkLines with
  | nil =>
    cases parsed
    exact List.suffix_rfl
  | cons line lines ih =>
    unfold parseHunkLines at parsed
    split_ifs at parsed with stops
    · cases parsed
      exact List.suffix_rfl
    · split at parsed
      · cases later : parseHunkLines repr filePath lines with
        | error error =>
          rw [later] at parsed
          cases parsed
        | ok result =>
          rw [later] at parsed
          cases parsed
          exact (ih later).trans (List.suffix_cons _ _)
      · cases parsed

theorem parseHunk_suffix {filePath line : Text} {lines rest : List Text} {hunk : Hunk}
    (parsed : parseHunk repr filePath line lines = .ok (hunk, rest)) : rest <:+ lines := by
  unfold parseHunk at parsed
  cases body : parseHunkLines repr filePath lines with
  | error error =>
    rw [body] at parsed
    cases parsed
  | ok result =>
    rw [body] at parsed
    change (if result.1 = [] then _ else _) = _ at parsed
    split_ifs at parsed
    cases parsed
    exact parseHunkLines_suffix repr body

/-- The loop of `_parse_update_file`, with what it has found so far. -/
def parseUpdateFile (filePath : Text) (moveTo : Option Text) (hunks : List Hunk) (lines : List Text) :
    Except String (Operation × List Text) :=
  match lines with
  | [] => .ok (.update filePath moveTo hunks, [])
  | line :: lines =>
    match afterPrefix? movePrefix line with
    | some target =>
      if moveTo ≠ none then
        .error ("Update File " ++ repr filePath ++ " contains multiple Move to directives.")
      else if strip target = [] then
        .error ("Move to directive for " ++ repr filePath ++ " is empty.")
      else parseUpdateFile filePath (some (strip target)) hunks lines
    | none =>
      if hunkPrefix.isPrefixOf line then
        match _parsed : parseHunk repr filePath line lines with
        | .error error => .error error
        | .ok (hunk, rest) => parseUpdateFile filePath moveTo (hunks ++ [hunk]) rest
      else if isSectionLine line then .ok (.update filePath moveTo hunks, line :: lines)
      else .error ("Unexpected line in Update File " ++ repr filePath ++ ": " ++ repr line)
termination_by lines.length
decreasing_by
  · simp
  · have le := (parseHunk_suffix repr _parsed).length_le
    rw [List.length_cons]
    omega

theorem parseUpdateFile_suffix {filePath : Text} {moveTo : Option Text} {hunks : List Hunk}
    {lines rest : List Text} {operation : Operation}
    (parsed : parseUpdateFile repr filePath moveTo hunks lines = .ok (operation, rest)) :
    rest <:+ lines := by
  fun_induction parseUpdateFile repr filePath moveTo hunks lines with
  | case1 =>
    cases parsed
    exact List.suffix_rfl
  | case2 | case3 | case5 | case8 => cases parsed
  | case4 _ _ _ _ _ _ _ _ ih => exact (ih parsed).trans (List.suffix_cons _ _)
  | case6 _ _ _ _ _ _ _ _ isHunk ih =>
    exact ((ih parsed).trans (parseHunk_suffix repr isHunk)).trans (List.suffix_cons _ _)
  | case7 =>
    cases parsed
    exact List.suffix_rfl

/-- The loop of `_parse_patch`: the lines behind the begin marker.  It stops at the last one. -/
def parseSections (lines : List Text) : Except String (List Operation) :=
  match lines with
  | [] => .ok []
  | line :: lines =>
    if lines = [] then .ok []
    else if line = [] then parseSections lines
    else
      match afterPrefix? addPrefix line with
      | some path =>
        match _parsed : parseAddFile repr (strip path) lines with
        | .error error => .error error
        | .ok (content, rest) => do
          let operations ← parseSections rest
          return .add (strip path) content :: operations
      | none =>
        match afterPrefix? updatePrefix line with
        | some path =>
          match _parsed : parseUpdateFile repr (strip path) none [] lines with
          | .error error => .error error
          | .ok (operation, rest) => do
            let operations ← parseSections rest
            return operation :: operations
        | none =>
          match afterPrefix? deletePrefix line with
          | some path => do
            let operations ← parseSections lines
            return .delete (strip path) :: operations
          | none => .error ("Unknown patch section: " ++ repr line)
termination_by lines.length
decreasing_by
  · simp
  · have le := (parseAddFile_suffix repr _parsed).length_le
    rw [List.length_cons]
    omega
  · have le := (parseUpdateFile_suffix repr _parsed).length_le
    rw [List.length_cons]
    omega
  · simp

/-- `_parse_patch` -/
def parsePatch (patch : Text) : Except String (List Operation) :=
  if strip patch = [] then .error "patch must be a non-empty string."
  else
    match splitlines patch with
    | [] => .error "Patch must start with '*** Begin Patch'."
    | first :: lines =>
      if strip first ≠ beginMarker then .error "Patch must start with '*** Begin Patch'."
      else if strip ((first :: lines).getLast (List.cons_ne_nil first lines)) ≠ endMarker then
        .error "Patch must end with '*** End Patch'."
      else do
        let operations ← parseSections repr lines
        if operations = [] then .error "Patch does not contain any file operations."
        else return operations

end

end AgentPark.Patching
