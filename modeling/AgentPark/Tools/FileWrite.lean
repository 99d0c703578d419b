import AgentPark.Lib.FileTree
import AgentPark.Lib.Json
import AgentPark.Lib.Lines

/-!
# Writing a file

`write_file` puts a text into a file, here without `append`.  It leaves the file alone when its text is the
same already, and it remembers the directories it made.
-/

namespace AgentPark.Tools

open Lib hiding writeFile

/-- An exception of a call. -/
structure WriteError where
  permission : Bool := false
  errno : Option Nat := none
  text : String
deriving DecidableEq

/-- A text encoding: the strict encoder, and both directions with `errors="replace"`. -/
structure TextEncoding where
  encode : String → Option (List UInt8)
  encodeReplace : String → List UInt8
  decodeReplace : List UInt8 → String
  encodeReplace_eq : ∀ text bytes, encode text = some bytes → encodeReplace text = bytes

/-- What the tool finds around it: how paths are resolved, `str` of a value that is no text, the encodings,
`os.linesep`, and the exceptions. -/
structure WriteHost where
  resolve : FileTree (List UInt8) → String → Except WriteError Path
  str : Json → String
  encodings : String → Option TextEncoding
  linesep : String
  error : String → Path → WriteError

/-- What the operating system does at a call: which operations fail, after how many bytes the writing, and
the name of the temporary file. -/
structure WriteFaults where
  directories : Option Nat := none
  stat : Bool := false
  read : Bool := false
  create : Bool := false
  write : Option Nat := none
  replace : Bool := false
  remove : Bool := false
  tempName : String

structure WriteCall where
  filePath : Json
  content : Json
  encoding : String := "utf-8"
  ensureDir : Bool := true
  atomic : Bool := true
  skipIfUnchanged : Bool := true

/-- The files, and `_KNOWN_PARENT_DIRS`. -/
structure WriteState where
  tree : FileTree (List UInt8)
  known : List Path := []

inductive WriteAnswer where
  | invalid (filePath : Json)
  | unchanged (target : Path)
  | written (target : Path) (atomic : Bool) (chars : Nat) (bytes : Option Nat)
  | failed (status : String) (filePath : Json) (error : String) (hint : Option String)
deriving DecidableEq

/-- The `status` of an answer is `success`. -/
def WriteAnswer.IsSuccess : WriteAnswer → Prop
  | .unchanged _ | .written _ _ _ _ => True
  | .invalid _ | .failed _ _ _ _ => False

/-- `_NO_CHANGE_COMPARE_MAX_BYTES` -/
def noChangeCompareMaxBytes : Nat := 4 * 1024 * 1024

/-- The texts of errors that say a file is locked or cannot be written. -/
def lockedMarkers : List String :=
  ["access is denied", "permission denied", "read-only", "readonly", "being used by another process",
    "used by another process"]

/-- `_classify_write_error` -/
def classifyWriteError (filePath : Json) (error : WriteError) : WriteAnswer :=
  let low := pyLower error.text
  if error.permission = true ∨ error.errno = some 13 ∨ error.errno = some 30 ∨
      ∃ marker ∈ lockedMarkers, marker.toList <:+: low.toList then
    .failed "locked_or_readonly" filePath error.text
      (some ("File may be read-only or locked (e.g. Perforce). " ++
        "Run 'p4 edit <file>' or unlock the file, then retry once."))
  else .failed "exception" filePath error.text none

section

variable (host : WriteHost)

/-- The text of `content`. -/
def contentText : Json → String
  | .null => ""
  | .str text => text
  | other => host.str other

/-- What a text becomes when it is written in text mode. -/
def toLinesep (text : String) : String :=
  String.ofList (text.toList.flatMap fun c => if c = '\n' then host.linesep.toList else [c])

/-- `_ensure_parent_dir` -/
def ensureParentDir (faults : WriteFaults) (state : WriteState) (target : Path) (ensureDir : Bool) :
    WriteState × Except WriteError Unit :=
  if ensureDir = false then (state, .ok ())
  else if target.dropLast ∈ state.known then (state, .ok ())
  else
    match makeDirs faults.directories (parents target) state.tree with
    | (tree, true) => (⟨tree, state.known ++ [target.dropLast]⟩, .ok ())
    | (tree, false) => ({ state with tree := tree }, .error (host.error "makedirs" target.dropLast))

/-- `_is_noop_write` -/
def isNoopWrite (faults : WriteFaults) (tree : FileTree (List UInt8)) (target : Path)
    (content encoding : String) : Bool :=
  match tree.content target with
  | none => false
  | some bytes =>
    if faults.stat = true ∨ noChangeCompareMaxBytes < bytes.length ∨ faults.read = true then false
    else
      match host.encodings encoding with
      | none => false
      | some codec => universalNewlines (codec.decodeReplace bytes).toList == content.toList

/-- The removal of the temporary file behind an exception. -/
def removeTemp (faults : WriteFaults) (tree : FileTree (List UInt8)) (temp : Path) : FileTree (List UInt8) :=
  if faults.remove then tree else Function.update tree temp none

/-- A write into a temporary file that takes the place of the target. -/
def writeAtomic (faults : WriteFaults) (tree : FileTree (List UInt8)) (target : Path)
    (content encoding : String) : FileTree (List UInt8) × Except WriteError Unit :=
  let temp := target.dropLast ++ [faults.tempName]
  if faults.create = true ∨ tree.isDirectory target.dropLast = false ∨ (tree temp).isSome then
    (tree, .error (host.error "mkstemp" temp))
  else
    let created := Function.update tree temp (some (.file []))
    match host.encodings encoding with
    | none => (removeTemp faults created temp, .error (host.error "encoding" temp))
    | some codec =>
      let bytes := codec.encodeReplace (toLinesep host content)
      match faults.write with
      | some count =>
        (removeTemp faults (Function.update created temp (some (.file (bytes.take count)))) temp,
          .error (host.error "write" temp))
      | none =>
        let filled : FileTree (List UInt8) := Function.update created temp (some (.file bytes))
        if faults.replace = true ∨ filled.isDirectory target then
          (removeTemp faults filled temp, .error (host.error "replace" target))
        else (Function.update (Function.update filled temp none) target (some (.file bytes)), .ok ())

/-- A write into the target itself. -/
def writeDirect (faults : WriteFaults) (tree : FileTree (List UInt8)) (target : Path)
    (content encoding : String) : FileTree (List UInt8) × Except WriteError Unit :=
  if faults.create = true ∨ tree.isDirectory target.dropLast = false ∨ tree.isDirectory target then
    (tree, .error (host.error "open" target))
  else
    match host.encodings encoding with
    | none => (Function.update tree target (some (.file [])), .error (host.error "encoding" target))
    | some codec =>
      let bytes := codec.encodeReplace (toLinesep host content)
      match faults.write with
      | some count =>
        (Function.update tree target (some (.file (bytes.take count))),
          .error (host.error "write" target))
      | none => (Function.update tree target (some (.file bytes)), .ok ())

/-- `write_file` behind the resolution of the path. -/
def writeTarget (faults : WriteFaults) (state : WriteState) (call : WriteCall) (target : Path) :
    WriteState × WriteAnswer :=
  let content := contentText host call.content
  match ensureParentDir host faults state target call.ensureDir with
  | (ensured, .error error) => (ensured, classifyWriteError call.filePath error)
  | (ensured, .ok ()) =>
    if call.skipIfUnchanged && isNoopWrite host faults ensured.tree target content call.encoding then
      (ensured, .unchanged target)
    else
      let write := if call.atomic then writeAtomic else writeDirect
      match write host faults ensured.tree target content call.encoding with
      | (tree, .error error) => ({ ensured with tree := tree }, classifyWriteError call.filePath error)
      | (tree, .ok ()) =>
        ({ ensured with tree := tree }, .written target call.atomic content.length
          ((host.encodings call.encoding).map fun codec => (codec.encodeReplace content).length))

/-- `write_file` with `append=False` -/
def writeFile (faults : WriteFaults) (state : WriteState) (call : WriteCall) : WriteState × WriteAnswer :=
  match call.filePath with
  | .str filePath =>
    if pyStrip filePath = "" then (state, .invalid call.filePath)
    else
      match host.resolve state.tree filePath with
      | .error error => (state, classifyWriteError call.filePath error)
      | .ok target => writeTarget host faults state call target
  | other => (state, .invalid other)

/-! ### The steps of a call -/

variable {host} {faults : WriteFaults} {target : Path} {content encoding : String}
  {tree after : FileTree (List UInt8)}

theorem classifyWriteError_not_success (filePath : Json) (error : WriteError) :
    ¬ (classifyWriteError filePath error).IsSuccess := by
  unfold classifyWriteError
  dsimp only
  split
  · exact id
  · exact id

theorem ensureParentDir_spec (host : WriteHost) (faults : WriteFaults) (state : WriteState)
    (target : Path) (ensureDir : Bool) :
    (∀ path, (ensureParentDir host faults state target ensureDir).1.tree.content path =
      state.tree.content path) ∧
    ((makeDirs faults.directories (parents target) state.tree).2 = true →
      (target.dropLast ∈ state.known → state.tree target.dropLast = some .directory) → ensureDir = true →
        (ensureParentDir host faults state target ensureDir).1.tree target.dropLast = some .directory) := by
  unfold ensureParentDir
  split
  · rename_i unasked
    refine ⟨fun _ => rfl, fun _ _ asked => ?_⟩
    rw [unasked] at asked
    cases asked
  · split
    · rename_i remembered
      exact ⟨fun _ => rfl, fun _ there _ => there remembered⟩
    · have files := makeDirs_content faults.directories (parents target) state.tree
      cases made : makeDirs faults.directories (parents target) state.tree with
      | mk tree goes =>
        rw [made] at files
        cases goes with
        | true =>
          refine ⟨files, fun _ _ _ => ?_⟩
          have directory : ∀ dir ∈ parents target,
              (makeDirs faults.directories (parents target) state.tree).1 dir = some .directory :=
            makeDirs_directory (by rw [made])
          rw [made] at directory
          exact directory _ (mem_parents.mpr (List.prefix_refl _))
        | false => exact ⟨files, fun goes => nomatch goes⟩

theorem removeTemp_content {temp : Path} (removes : faults.remove = false) (path : Path) :
    FileTree.content (removeTemp faults tree temp) path =
      if path = temp then none else tree.content path := by
  rw [removeTemp, removes]
  exact content_update_none path

theorem writeAtomic_error {error : WriteError} (removes : faults.remove = false)
    (failed : writeAtomic host faults tree target content encoding = (after, .error error)) (path : Path) :
    after.content path = tree.content path := by
  unfold writeAtomic at failed
  dsimp only at failed
  split at failed
  · cases failed
    rfl
  · rename_i goes
    simp only [not_or] at goes
    have fresh : tree (target.dropLast ++ [faults.tempName]) = none := by
      simpa using goes.2.2
    have back (filled : FileTree (List UInt8))
        (others : ∀ other ≠ target.dropLast ++ [faults.tempName], filled.content other = tree.content other) :
        FileTree.content (removeTemp faults filled (target.dropLast ++ [faults.tempName])) path =
          tree.content path := by
      rw [removeTemp_content removes]
      by_cases isTemp : path = target.dropLast ++ [faults.tempName]
      · rw [if_pos isTemp, isTemp, content_eq_none_of_absent fresh]
      · rw [if_neg isTemp]
        exact others path isTemp
    cases known : host.encodings encoding with
    | none =>
      rw [known] at failed
      cases failed
      refine back _ fun other ne => ?_
      rw [content_update_file, if_neg ne]
    | some codec =>
      rw [known] at failed
      dsimp only at failed
      cases fault : faults.write with
      | some count =>
        rw [fault] at failed
        cases failed
        refine back _ fun other ne => ?_
        rw [content_update_file, if_neg ne, content_update_file, if_neg ne]
      | none =>
        rw [fault] at failed
        dsimp only at failed
        split at failed
        · cases failed
          refine back _ fun other ne => ?_
          rw [content_update_file, if_neg ne, content_update_file, if_neg ne]
        · cases failed

theorem writeAtomic_ok (written : writeAtomic host faults tree target content encoding = (after, .ok ())) :
    ∃ codec, host.encodings encoding = some codec ∧
      after.content target = some (codec.encodeReplace (toLinesep host content)) := by
  unfold writeAtomic at written
  dsimp only at written
  split at written
  · cases written
  · cases known : host.encodings encoding with
    | none =>
      rw [known] at written
      cases written
    | some codec =>
      rw [known] at written
      dsimp only at written
      cases fault : faults.write with
      | some count =>
        rw [fault] at written
        cases written
      | none =>
        rw [fault] at written
        dsimp only at written
        split at written
        · cases written
        · cases written
          exact ⟨codec, rfl, by rw [content_update_file, if_pos rfl]⟩

theorem writeDirect_ok (written : writeDirect host faults tree target content encoding = (after, .ok ())) :
    ∃ codec, host.encodings encoding = some codec ∧
      after.content target = some (codec.encodeReplace (toLinesep host content)) := by
  unfold writeDirect at written
  split at written
  · cases written
  · cases known : host.encodings encoding with
    | none =>
      rw [known] at written
      cases written
    | some codec =>
      rw [known] at written
      dsimp only at written
      cases fault : faults.write with
      | some count =>
        rw [fault] at written
        cases written
      | none =>
        rw [fault] at written
        cases written
        exact ⟨codec, rfl, by rw [content_update_file, if_pos rfl]⟩

theorem writeAtomic_directory {dir : Path} (isDir : tree dir = some .directory) :
    (writeAtomic host faults tree target content encoding).1 dir = some .directory := by
  unfold writeAtomic
  dsimp only
  split
  · exact isDir
  · rename_i goes
    simp only [not_or] at goes
    have ne : dir ≠ target.dropLast ++ [faults.tempName] := by
      intro same
      rw [same] at isDir
      rw [isDir] at goes
      exact goes.2.2 rfl
    have back {filled : FileTree (List UInt8)} (there : filled dir = some .directory) :
        removeTemp faults filled (target.dropLast ++ [faults.tempName]) dir = some .directory := by
      unfold removeTemp
      split
      · exact there
      · rwa [Function.update_of_ne ne]
    cases host.encodings encoding with
    | none => exact back (by rwa [Function.update_of_ne ne])
    | some codec =>
      cases faults.write with
      | some count => exact back (by rwa [Function.update_of_ne ne, Function.update_of_ne ne])
      | none =>
        dsimp only
        split
        · exact back (by rwa [Function.update_of_ne ne, Function.update_of_ne ne])
        · rename_i file
          have filled : Function.update (Function.update tree (target.dropLast ++ [faults.tempName])
              (some (.file []))) (target.dropLast ++ [faults.tempName])
              (some (.file (codec.encodeReplace (toLinesep host content)))) dir = some .directory := by
            rwa [Function.update_of_ne ne, Function.update_of_ne ne]
          have other : dir ≠ target := by
            intro same
            rw [same] at filled
            exact file (Or.inr (isDirectory_iff.mpr filled))
          dsimp only
          rwa [Function.update_of_ne other, Function.update_of_ne ne]

theorem writeDirect_directory {dir : Path} (isDir : tree dir = some .directory) :
    (writeDirect host faults tree target content encoding).1 dir = some .directory := by
  unfold writeDirect
  split
  · exact isDir
  · rename_i goes
    simp only [not_or] at goes
    have other : dir ≠ target := by
      intro same
      refine goes.2.2 (isDirectory_iff.mpr ?_)
      rwa [← same]
    cases host.encodings encoding with
    | none => exact (Function.update_of_ne other _ _).trans isDir
    | some codec =>
      cases faults.write with
      | some count => exact (Function.update_of_ne other _ _).trans isDir
      | none => exact (Function.update_of_ne other _ _).trans isDir

theorem of_isNoopWrite (same : isNoopWrite host faults tree target content encoding = true) :
    ∃ bytes codec, tree.content target = some bytes ∧ bytes.length ≤ noChangeCompareMaxBytes ∧
      host.encodings encoding = some codec ∧
      universalNewlines (codec.decodeReplace bytes).toList = content.toList := by
  unfold isNoopWrite at same
  cases there : tree.content target with
  | none =>
    rw [there] at same
    cases same
  | some bytes =>
    rw [there] at same
    dsimp only at same
    split at same
    · cases same
    · rename_i readable
      simp only [not_or] at readable
      cases known : host.encodings encoding with
      | none =>
        rw [known] at same
        cases same
      | some codec =>
        rw [known] at same
        exact ⟨bytes, codec, rfl, Nat.not_lt.mp readable.2.1, rfl, eq_of_beq same⟩

/-! ### What a call promises -/

/-- The path a call is about. -/
def targetOf (host : WriteHost) (tree : FileTree (List UInt8)) (call : WriteCall) : Option Path :=
  match call.filePath with
  | .str filePath => if pyStrip filePath = "" then none else (host.resolve tree filePath).toOption
  | _ => none

/-- What a call promises. -/
structure Reports (host : WriteHost) (state : WriteState) (call : WriteCall) (faults : WriteFaults) :
    Prop where
  /-- Behind a success the file is the encoding of the content. -/
  success : (writeFile host faults state call).2.IsSuccess →
    ∃ target, targetOf host state.tree call = some target ∧ ∀ codec bytes,
      host.encodings call.encoding = some codec → codec.encode (contentText host call.content) = some bytes →
        (writeFile host faults state call).1.tree.content target = some bytes
  /-- Behind anything else every file is as it was, and there is no other. -/
  failure : ¬ (writeFile host faults state call).2.IsSuccess → call.atomic = true → ∀ path,
    (writeFile host faults state call).1.tree.content path = state.tree.content path
  /-- A parent directory that can be made is there. -/
  directory : call.ensureDir = true → ∀ target, targetOf host state.tree call = some target →
    (makeDirs faults.directories (parents target) state.tree).2 = true →
      (writeFile host faults state call).1.tree target.dropLast = some .directory

/-- The condition on the state before a call. -/
structure Meets (host : WriteHost) (state : WriteState) (call : WriteCall) (faults : WriteFaults)
    (target : Path) : Prop where
  /-- A file that reads as the content is its encoding. -/
  unchanged : call.skipIfUnchanged = true → ∀ bytes codec encoded, state.tree.content target = some bytes →
    bytes.length ≤ noChangeCompareMaxBytes → host.encodings call.encoding = some codec →
    universalNewlines (codec.decodeReplace bytes).toList = (contentText host call.content).toList →
    codec.encode (contentText host call.content) = some encoded → bytes = encoded
  /-- A parent directory that is remembered is there. -/
  remembered : call.ensureDir = true → target.dropLast ∈ state.known →
    state.tree target.dropLast = some .directory
  /-- The content is written as it is. -/
  plain : toLinesep host (contentText host call.content) = contentText host call.content
  /-- A temporary file can be removed. -/
  removes : faults.remove = false

theorem reports_of_same {state : WriteState} {call : WriteCall} {answer : WriteAnswer}
    (stops : writeFile host faults state call = (state, answer)) (failed : ¬ answer.IsSuccess)
    (noTarget : targetOf host state.tree call = none) : Reports host state call faults where
  success done := by
    rw [stops] at done
    exact absurd done failed
  failure _ _ path := by rw [stops]
  directory _ target isTarget := by
    rw [noTarget] at isTarget
    cases isTarget

theorem writeTarget_reports {state : WriteState} {call : WriteCall} (meets : Meets host state call faults target) :
    ((writeTarget host faults state call target).2.IsSuccess → ∀ codec bytes,
      host.encodings call.encoding = some codec → codec.encode (contentText host call.content) = some bytes →
        (writeTarget host faults state call target).1.tree.content target = some bytes) ∧
    (¬ (writeTarget host faults state call target).2.IsSuccess → call.atomic = true → ∀ path,
      (writeTarget host faults state call target).1.tree.content path = state.tree.content path) ∧
    (call.ensureDir = true → (makeDirs faults.directories (parents target) state.tree).2 = true →
      (writeTarget host faults state call target).1.tree target.dropLast = some .directory) := by
  obtain ⟨files, parent⟩ := ensureParentDir_spec host faults state target call.ensureDir
  have unchanged := meets.unchanged
  have removes := meets.removes
  have plain := meets.plain
  have made (ensures : call.ensureDir = true) (goes : (makeDirs faults.directories (parents target)
      state.tree).2 = true) := parent goes (meets.remembered ensures) ensures
  unfold writeTarget
  dsimp only
  cases ensure : ensureParentDir host faults state target call.ensureDir with
  | mk ensured result =>
    rw [ensure] at files made
    cases result with
    | error error =>
      have failed := classifyWriteError_not_success call.filePath error
      exact ⟨fun done => absurd done failed, fun _ _ => files, made⟩
    | ok _ =>
      dsimp only
      split
      · rename_i noop
        rw [Bool.and_eq_true] at noop
        obtain ⟨bytes, codec, there, small, known, same⟩ := of_isNoopWrite noop.2
        refine ⟨fun _ codec' encoded known' isEncoded => ?_, fun failed => absurd trivial failed, made⟩
        rw [known'] at known
        cases known
        rw [there, unchanged noop.1 bytes codec encoded ((files target).symm.trans there) small known' same
          isEncoded]
      · generalize contentText host call.content = content at plain ⊢
        cases atomic : call.atomic with
        | true =>
          have directory (isDir : ensured.tree target.dropLast = some .directory) :
              (writeAtomic host faults ensured.tree target content call.encoding).1 target.dropLast =
                some .directory := writeAtomic_directory isDir
          rw [if_pos rfl]
          cases written : writeAtomic host faults ensured.tree target content call.encoding with
          | mk after result =>
            rw [written] at directory
            cases result with
            | error error =>
              have failed := classifyWriteError_not_success call.filePath error
              refine ⟨fun done => absurd done failed, fun _ _ path => ?_,
                fun ensures goes => directory (made ensures goes)⟩
              exact (writeAtomic_error removes written path).trans (files path)
            | ok _ =>
              obtain ⟨codec, known, there⟩ := writeAtomic_ok written
              refine ⟨fun _ codec' bytes known' isEncoded => ?_, fun failed => absurd trivial failed,
                fun ensures goes => directory (made ensures goes)⟩
              rw [known'] at known
              cases known
              rw [there, plain, codec.encodeReplace_eq _ _ isEncoded]
        | false =>
          have directory (isDir : ensured.tree target.dropLast = some .directory) :
              (writeDirect host faults ensured.tree target content call.encoding).1 target.dropLast =
                some .directory := writeDirect_directory isDir
          rw [if_neg Bool.false_ne_true]
          cases written : writeDirect host faults ensured.tree target content call.encoding with
          | mk after result =>
            rw [written] at directory
            cases result with
            | error error =>
              have failed := classifyWriteError_not_success call.filePath error
              exact ⟨fun done => absurd done failed, fun _ isAtomic => absurd isAtomic Bool.false_ne_true,
                fun ensures goes => directory (made ensures goes)⟩
            | ok _ =>
              obtain ⟨codec, known, there⟩ := writeDirect_ok written
              refine ⟨fun _ codec' bytes known' isEncoded => ?_, fun failed => absurd trivial failed,
                fun ensures goes => directory (made ensures goes)⟩
              rw [known'] at known
              cases known
              rw [there, plain, codec.encodeReplace_eq _ _ isEncoded]

theorem writeFile_reports {state : WriteState} {call : WriteCall}
    (meets : ∀ target, targetOf host state.tree call = some target → Meets host state call faults target) :
    Reports host state call faults := by
  cases isPath : call.filePath with
  | str filePath =>
    by_cases blank : pyStrip filePath = ""
    · have stops : writeFile host faults state call = (state, .invalid call.filePath) := by
        rw [writeFile, isPath]
        exact if_pos blank
      refine reports_of_same stops id ?_
      rw [targetOf, isPath]
      exact if_pos blank
    · cases resolved : host.resolve state.tree filePath with
      | error error =>
        have stops : writeFile host faults state call =
            (state, classifyWriteError call.filePath error) := by
          simp only [writeFile, isPath, if_neg blank, resolved]
        refine reports_of_same stops (classifyWriteError_not_success _ _) ?_
        simp only [targetOf, isPath, if_neg blank, resolved, Except.toOption]
      | ok target =>
        have goes : writeFile host faults state call = writeTarget host faults state call target := by
          simp only [writeFile, isPath, if_neg blank, resolved]
        have isTarget : targetOf host state.tree call = some target := by
          simp only [targetOf, isPath, if_neg blank, resolved, Except.toOption]
        obtain ⟨success, failure, directory⟩ := writeTarget_reports (meets target isTarget)
        constructor
        · intro done
          rw [goes] at done ⊢
          exact ⟨target, isTarget, success done⟩
        · rwa [goes]
        · intro ensures other isOther
          rw [isTarget] at isOther
          cases isOther
          rw [goes]
          exact directory ensures
  | null | bool _ | num _ | arr _ | obj _ =>
    have stops : writeFile host faults state call = (state, .invalid call.filePath) := by
      rw [writeFile, isPath]
    refine reports_of_same stops id ?_
    rw [targetOf, isPath]

/-! ### Runs -/

/-- What happens to the files: calls of the tool, and changes from outside. -/
inductive WriteEvent where
  | call (call : WriteCall) (faults : WriteFaults)
  | change (tree : FileTree (List UInt8))

/-- Each call of a run has a property, in the state it finds. -/
def EachCall (host : WriteHost) (P : WriteState → WriteCall → WriteFaults → Prop) :
    WriteState → List WriteEvent → Prop
  | _, [] => True
  | state, .call call faults :: events =>
    P state call faults ∧ EachCall host P (writeFile host faults state call).1 events
  | state, .change tree :: events => EachCall host P { state with tree := tree } events

/-- In every run whose calls meet the condition each call does what it reports. -/
theorem run_reports (host : WriteHost) (state : WriteState) (events : List WriteEvent)
    (meets : EachCall host (fun state call faults => ∀ target, targetOf host state.tree call = some target →
      Meets host state call faults target) state events) :
    EachCall host (Reports host) state events := by
  induction events generalizing state with
  | nil => trivial
  | cons event events ih =>
    cases event with
    | call call faults => exact ⟨writeFile_reports meets.1, ih _ meets.2⟩
    | change tree => exact ih _ meets

end

/-! ### A host with one encoding -/

/-- `ascii` -/
def asciiEncoding : TextEncoding where
  encode text :=
    if text.toList.all fun c => c.toNat < 128 then some (text.toList.map fun c => UInt8.ofNat c.toNat)
    else none
  encodeReplace text := text.toList.map fun c => if c.toNat < 128 then UInt8.ofNat c.toNat else 63
  decodeReplace bytes :=
    String.ofList (bytes.map fun b => if b.toNat < 128 then Char.ofNat b.toNat else Char.ofNat 0xFFFD)
  encodeReplace_eq text bytes encoded := by
    split at encoded
    · rename_i ascii
      rw [List.all_eq_true] at ascii
      rw [← Option.some.inj encoded]
      exact List.map_congr_left fun c mem => if_pos (of_decide_eq_true (ascii c mem))
    · cases encoded

def asciiHost : WriteHost where
  resolve _ path := .ok (((path.toList.splitOn '/').filter (· ≠ [])).map String.ofList)
  str _ := ""
  encodings name := if name = "ascii" then some asciiEncoding else none
  linesep := "\n"
  error what _ := { text := what }

/-- A directory `/w`, and a file in it or not. -/
def oneFile (content : Option (List UInt8)) : FileTree (List UInt8)
  | [] | ["w"] => some .directory
  | ["w", "a"] => content.map .file
  | _ => none

/-- `write_file("/w/a", "a\n", encoding="ascii")` -/
def writeLine : WriteCall where
  filePath := .str "/w/a"
  content := .str "a\n"
  encoding := "ascii"

/-- A file is written, replaced from outside and written again. -/
theorem run_reports_writeLine :
    EachCall asciiHost (Reports asciiHost) ⟨oneFile none, []⟩
      [.call writeLine { tempName := "t" }, .change (oneFile (some [98])), .call writeLine { tempName := "t" }] := by
  have target (tree : FileTree (List UInt8)) : targetOf asciiHost tree writeLine = some ["w", "a"] := by
    rfl
  refine run_reports asciiHost _ _ ⟨fun path isTarget => ?_, fun path isTarget => ?_, trivial⟩
  · rw [target] at isTarget
    cases isTarget
    refine ⟨?_, fun _ _ => rfl, by decide, rfl⟩
    intro _ bytes codec encoded there
    cases there
  · rw [target] at isTarget
    cases isTarget
    refine ⟨?_, fun _ _ => rfl, by decide, rfl⟩
    intro _ bytes codec encoded there _ known same
    cases there
    cases known
    exact absurd same (by decide)

/-- A file with `a\r\n` is left alone, and a directory that is taken away is not made again. -/
theorem writeLine_fails :
    (writeFile asciiHost { tempName := "t" } ⟨oneFile (some [97, 13, 10]), []⟩ writeLine).2 =
        .unchanged ["w", "a"] ∧
      ¬ Reports asciiHost ⟨oneFile (some [97, 13, 10]), []⟩ writeLine { tempName := "t" } ∧
      ¬ EachCall asciiHost (Reports asciiHost) ⟨fun path => if path = [] then some .directory else none, []⟩
        [.call writeLine { tempName := "t" },
          .change fun path => if path = [] then some .directory else none,
          .call writeLine { tempName := "t" }] := by
  refine ⟨by decide, fun reports => ?_, fun each => ?_⟩
  · obtain ⟨target, isTarget, encodes⟩ := reports.success trivial
    cases isTarget
    have same := encodes asciiEncoding [97, 10] rfl rfl
    exact absurd same (by decide)
  · have directory := each.2.1.directory rfl ["w", "a"] rfl (by decide)
    exact absurd directory (by decide)

end AgentPark.Tools
