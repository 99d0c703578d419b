import AgentPark.Lib.Execution
import AgentPark.Lib.JsonSize
import AgentPark.Lib.JsonSort
import AgentPark.Lib.PyInt
import Mathlib.Data.List.ReduceOption

/-!
# Searching with `rg`

`rg_search_text` and `rg_list_files` run `rg` and make an answer of the lines it writes.  The lines pass from
the process to a pipe, from there by a thread of its own to a queue, and from the queue to the tool, which also
looks whether the process has ended.
-/

namespace AgentPark.Tools

open Lib

/-! ### The lines -/

/-- `RG_JSON_BUDGET_OVERHEAD` -/
def rgJsonBudgetOverhead : Nat := 1200

/-- What the tools ask the file system: the directory they search, whether a path is absolute, what a path is
resolved to from the directory, and its path from there. -/
structure RgHost where
  root : String
  isabs : String → Bool
  abspath : String → String
  safeRelpath : String → String

/-- The line number behind a colon, up to the next colon, and what follows it. -/
def rgLineNumber (cs : List Char) : Option (Nat × List Char) :=
  match cs.takeWhile pyIsDecimal, cs.dropWhile pyIsDecimal with
  | d :: digits, ':' :: text => (pyNatText (d :: digits)).map (·, text)
  | _, _ => none

/-- The first place at which a line number stands between colons. -/
def rgMatch (file : List Char) : List Char → Option (List Char × Nat × List Char)
  | [] => none
  | c :: cs =>
    if c = ':' then
      match rgLineNumber cs with
      | some (lineNumber, lineText) => some (file, lineNumber, lineText)
      | none => rgMatch (file ++ [c]) cs
    else rgMatch (file ++ [c]) cs

/-- `parse_rg_line`, with the pattern `^(.*?):(\d+):(.*)$` -/
def parseRgLine (rawLine : List Char) : Option (List Char × Nat × List Char) :=
  if '\n' ∈ rawLine then none else rgMatch [] rawLine

/-- `line.rstrip("\r\n")` -/
def rstripNewline (line : List Char) : List Char :=
  (line.reverse.dropWhile fun c => c == '\r' || c == '\n').reverse

def RgHost.filePath (host : RgHost) (path : String) : String :=
  if host.isabs path then path else host.abspath path

/-- The match of a line of a search. -/
def searchMatch (host : RgHost) (rawLine : List Char) : Option Json :=
  (parseRgLine rawLine).map fun (file, lineNumber, lineText) =>
    let filePath := host.filePath (String.ofList file)
    .obj [("file_path", .str filePath), ("relative_path", .str (host.safeRelpath filePath)),
      ("line", .nat lineNumber),
      ("match", .str (String.ofList ((stripList pyIsSpace lineText).take 400)))]

/-- The match of a line of a file list. -/
def listMatch (host : RgHost) (rawLine : List Char) : Option Json :=
  match stripList pyIsSpace rawLine with
  | [] => none
  | file =>
    let filePath := host.filePath (String.ofList file)
    some (.obj [("file_path", .str filePath), ("relative_path", .str (host.safeRelpath filePath))])

/-- The tools, with what their answers repeat of the request. -/
inductive RgTool
  | searchText (query : String) (fixedStrings caseSensitive : Bool)
  | listFiles

structure RgCall where
  host : RgHost
  tool : RgTool
  limit : Nat
  charLimit : Nat

/-- The match of a line, without the end of the line. -/
def RgCall.lineMatch (call : RgCall) (line : List Char) : Option Json :=
  match call.tool with
  | .searchText .. => searchMatch call.host (rstripNewline line)
  | .listFiles => listMatch call.host (rstripNewline line)

/-! ### The answer -/

/-- `json_item_chars` -/
def jsonItemChars (item : Json) : Nat := (dumps item.sortKeys).length

/-- `can_append_budgeted` -/
def canAppendBudgeted (items : List Json) (item : Json) (charLimit : Nat) : Bool :=
  rgJsonBudgetOverhead + (items.map fun existing => jsonItemChars existing + 1).sum + jsonItemChars item + 1 ≤
    charLimit

/-- `output` with a list and the mark -/
def budgetedOutput (payload : List (String × Json)) (listKey : String) (items : List Json) (truncated : Bool) :
    List (String × Json) :=
  dictSet (dictSet payload listKey (.arr items)) "truncated" (.bool truncated)

/-- `output` with its number of characters -/
def countedOutput (output : List (String × Json)) : Json :=
  .obj (dictSet output "result_chars" (.nat (dumps (.obj output)).length))

/-- The loop of `bounded_json_dumps`, on the reversed list. -/
def boundedFrom (payload : List (String × Json)) (listKey : String) (charLimit : Nat) :
    List Json → Bool → Json
  | [], truncated => countedOutput (budgetedOutput payload listKey [] truncated)
  | item :: items, truncated =>
    let output := budgetedOutput payload listKey (item :: items).reverse truncated
    if (dumps (.obj output)).length ≤ charLimit then countedOutput output
    else boundedFrom payload listKey charLimit items true

/-- `bounded_json_dumps`, before it is a text -/
def boundedJsonDumps (payload : List (String × Json)) (listKey : String) (charLimit : Nat) : Json :=
  let items :=
    match payload.lookup listKey with
    | some (.arr items) => items
    | _ => []
  boundedFrom payload listKey charLimit items.reverse ((payload.lookup "truncated").any Json.truthy)

/-- `narrow_query_suggestions` -/
def narrowQuerySuggestions : List Json :=
  ["Source/**/*.cpp", "Source/**/*.h", "Config/**", "*Target.cs", "*Build.cs", "src/**/*.py",
    "tests/**/*.py"].map .str

/-! ### The run of a tool -/

/-- Where the loop of `run_rg_stream_lines` is: before `get`, before `poll`, behind the loop, or raised; and then
the answer. -/
inductive RgPhase
  | get
  | poll
  | done
  | cancelled
  | answered (answer : Json)
deriving DecidableEq

/-- The process, the pipe, the queue and the tool. -/
structure RgRun where
  /-- What the process has not written yet. -/
  unwritten : List (List Char)
  pipe : List (List Char) := []
  exited : Bool := false
  lineQueue : List (Option (List Char)) := []
  readerEnded : Bool := false
  phase : RgPhase := .get
  items : List Json := []
  scannedFiles : Nat := 0
  stoppedByCharLimit : Bool := false
  stoppedEarly : Bool := false
deriving DecidableEq

namespace RgCall

variable (call : RgCall)

/-- `_on_line`, with whether the loop is to stop.  Only the file list reads `scanned_files`. -/
def onLine (line : List Char) (s : RgRun) : RgRun × Bool :=
  match call.lineMatch line with
  | none => (s, false)
  | some item =>
    if canAppendBudgeted s.items item call.charLimit then
      ({ s with items := s.items ++ [item], scannedFiles := s.scannedFiles + 1 },
        decide (call.limit ≤ (s.items ++ [item]).length))
    else ({ s with stoppedByCharLimit := true, scannedFiles := s.scannedFiles + 1 }, true)

def listKey : String :=
  match call.tool with
  | .searchText .. => "matches"
  | .listFiles => "files"

/-- The name of its length. -/
def countKey : String :=
  match call.tool with
  | .searchText .. => "matches_returned"
  | .listFiles => "files_returned"

/-- `truncated` -/
def truncated (s : RgRun) : Bool := decide (call.limit ≤ s.items.length) || s.stoppedByCharLimit

/-- `truncation_reason` -/
def truncationReason (s : RgRun) : String :=
  if s.stoppedByCharLimit then "output_char_limit"
  else if call.limit ≤ s.items.length then "max_results" else ""

/-- The payload of a successful answer.  `timed_out` is never set. -/
def payload (s : RgRun) : List (String × Json) :=
  let suggestions := if call.truncated s then narrowQuerySuggestions else []
  match call.tool with
  | .searchText query fixedStrings caseSensitive =>
    [("status", .str "success"), ("engine", .str "rg"), ("query", .str query),
      ("project_root", .str call.host.root), ("fixed_strings", .bool fixedStrings),
      ("case_sensitive", .bool caseSensitive), ("matches", .arr s.items),
      ("matches_returned", .nat s.items.length),
      ("estimated_or_observed_total_matches",
        if call.truncated s then .null else .nat s.items.length),
      ("truncated", .bool (call.truncated s)), ("truncation_reason", .str (call.truncationReason s)),
      ("output_char_limit", .nat call.charLimit), ("next_query_suggestions", .arr suggestions),
      ("timed_out", .bool false)]
  | .listFiles =>
    [("status", .str "success"), ("engine", .str "rg"), ("project_root", .str call.host.root),
      ("scanned_files", .nat s.scannedFiles), ("files", .arr s.items),
      ("files_returned", .nat s.items.length), ("truncated", .bool (call.truncated s)),
      ("truncation_reason", .str (call.truncationReason s)), ("result_chars_limit", .nat call.charLimit),
      ("next_query_suggestions", .arr suggestions), ("timed_out", .bool false)]

/-- The answer to an exit code of the process that is neither 0 nor 1. -/
def failure (returnCode : Int) (stderr : String) : Json :=
  let query :=
    match call.tool with
    | .searchText query _ _ => [("query", Json.str query)]
    | .listFiles => []
  .obj ([("status", .str "error"), ("engine", .str "rg")] ++ query ++
    [("project_root", .str call.host.root), ("return_code", .int returnCode), ("stderr", .str stderr)])

/-- The answer, for the exit code of the process if it is known. -/
def answer (returnCode : Option Int) (stderr : String) (s : RgRun) : Json :=
  match returnCode with
  | some code =>
    if code = 0 ∨ code = 1 then boundedJsonDumps (call.payload s) call.listKey call.charLimit
    else call.failure code stderr
  | none => boundedJsonDumps (call.payload s) call.listKey call.charLimit

end RgCall

inductive RgAction
  /-- The process writes a line. -/
  | write
  /-- The process ends. -/
  | exit
  /-- The thread puts a line into the queue. -/
  | read
  /-- The thread has read all and puts `None` into the queue. -/
  | readEnd
  /-- The tool takes an entry from the queue. -/
  | get
  /-- The tool looks whether the process has ended. -/
  | poll
  /-- The tool is cancelled. -/
  | cancel
  /-- The tool answers. -/
  | answer (returnCode : Option Int) (stderr : String)
deriving DecidableEq

/-- One step of the process, the thread or the tool. -/
def rgStep (call : RgCall) (s : RgRun) : RgAction → Option RgRun
  | .write =>
    match s.unwritten with
    | line :: rest => some { s with unwritten := rest, pipe := s.pipe ++ [line] }
    | [] => none
  | .exit => if s.unwritten = [] then some { s with exited := true } else none
  | .read =>
    match s.pipe with
    | line :: rest => some { s with pipe := rest, lineQueue := s.lineQueue ++ [some line] }
    | [] => none
  | .readEnd =>
    if s.unwritten = [] ∧ s.pipe = [] ∧ s.readerEnded = false then
      some { s with lineQueue := s.lineQueue ++ [none], readerEnded := true }
    else none
  | .get =>
    if s.phase = .get then
      match s.lineQueue with
      | some line :: rest =>
        let (s, stop) := call.onLine line { s with lineQueue := rest }
        if stop then some { s with phase := .done, stoppedEarly := true }
        else some { s with phase := .poll }
      | none :: rest => some { s with lineQueue := rest, phase := .done }
      | [] => none
    else none
  | .poll =>
    if s.phase = .poll then some { s with phase := if s.exited then .done else .get } else none
  | .cancel => if s.phase = .get then some { s with phase := .cancelled } else none
  | .answer returnCode stderr =>
    if s.phase = .done then some { s with phase := .answered (call.answer returnCode stderr s) } else none

/-- The start of a call, for the lines the process is going to write. -/
def RgRun.start (written : List (List Char)) : RgRun := { unwritten := written }

/-- The lines on their way to the tool. -/
def RgRun.left (s : RgRun) : List (List Char) := s.lineQueue.reduceOption ++ s.pipe ++ s.unwritten

/-! ### What an answer is meant to say -/

/-- An answer without the entries of its list. -/
def withoutItems (listKey : String) : Json → Json
  | .obj fields => .obj (dictSet fields listKey (.arr []))
  | answer => answer

/-- A complete answer has the match of every line that was written, in order and once; the number of matches is
that of the list; and the text stays within the limit if that is possible at all. -/
structure SearchAsClaimed (call : RgCall) (written : List (List Char)) (answer : Json) : Prop where
  complete : answer.get "truncated" = some (.bool false) →
    answer.get call.listKey = some (.arr (written.filterMap call.lineMatch))
  counted : ∀ items, answer.get call.listKey = some (.arr items) →
    answer.get call.countKey = some (.nat items.length)
  bounded : (dumps (withoutItems call.listKey answer)).length ≤ call.charLimit →
    (dumps answer).length ≤ call.charLimit

/-- The answer with all matches that were found. -/
def RgCall.fullAnswer (call : RgCall) (s : RgRun) : Json :=
  countedOutput (budgetedOutput (call.payload s) call.listKey s.items (call.truncated s))

/-- The tool sees the end of the process only when no match is on its way, and the answer with all matches that
were found fits. -/
def Patient (call : RgCall) (s : RgRun) : RgAction → Prop
  | .poll => s.exited = true → s.left.filterMap call.lineMatch = []
  | .answer _ _ => s.items = [] ∨ (dumps (call.fullAnswer s)).length ≤ call.charLimit
  | _ => True

instance (call : RgCall) (s : RgRun) (a : RgAction) : Decidable (Patient call s a) :=
  match a with
  | .poll => inferInstanceAs (Decidable (s.exited = true → _))
  | .answer _ _ => inferInstanceAs (Decidable (s.items = [] ∨ _))
  | .write | .exit | .read | .readEnd | .get | .cancel => isTrue trivial

/-! ### The answer to a call -/

section

variable (call : RgCall) (s : RgRun)

theorem lookup_payload_listKey : (call.payload s).lookup call.listKey = some (.arr s.items) := by
  unfold RgCall.payload RgCall.listKey
  cases call.tool <;> rfl

theorem lookup_payload_countKey : (call.payload s).lookup call.countKey = some (.nat s.items.length) := by
  unfold RgCall.payload RgCall.countKey
  cases call.tool <;> rfl

theorem lookup_payload_truncated : (call.payload s).lookup "truncated" = some (.bool (call.truncated s)) := by
  unfold RgCall.payload
  cases call.tool <;> rfl

theorem keys_payload : "result_chars" ∉ (call.payload s).map Prod.fst := by
  unfold RgCall.payload
  cases call.tool <;> simp

theorem mem_keys_budgetedOutput {payload : List (String × Json)} {listKey : String}
    (isList : listKey ≠ "result_chars")
    (fresh : "result_chars" ∉ payload.map Prod.fst) (items : List Json) (truncated : Bool) :
    "result_chars" ∉ (budgetedOutput payload listKey items truncated).map Prod.fst := by
  have first : "result_chars" ∉ (dictSet payload listKey (.arr items)).map Prod.fst := by
    rw [keys_dictSet]
    split
    · exact fresh
    · rw [List.mem_append, List.mem_singleton, not_or]
      exact ⟨fresh, isList.symm⟩
  rw [budgetedOutput, keys_dictSet]
  split
  · exact first
  · rw [List.mem_append, List.mem_singleton, not_or]
    exact ⟨first, by decide⟩

theorem length_dumpsFields_concat (field : String × Json) (fields : List (String × Json)) :
    (dumpsFields fields).length ≤ (dumpsFields (fields ++ [field])).length := by
  induction fields with
  | nil =>
    obtain ⟨k, v⟩ := field
    rw [List.nil_append, dumpsFields, dumpsFields, List.length_cons]
    simp
  | cons entry fields ih =>
    obtain ⟨k, v⟩ := entry
    cases fields with
    | nil =>
      rw [List.singleton_append, dumpsFields, dumpsFields]
      simp only [List.length_cons, List.length_append, List.length_nil]
      omega
    | cons f fields =>
      rw [List.cons_append, List.cons_append, dumpsFields, dumpsFields]
      rw [List.cons_append] at ih
      simp only [List.length_cons, List.length_append]
      omega

theorem length_le_countedOutput {output : List (String × Json)} (fresh : "result_chars" ∉ output.map Prod.fst) :
    (dumps (.obj output)).length ≤ (dumps (countedOutput output)).length := by
  rw [countedOutput, dictSet, if_neg fresh, dumps, dumps, List.length_cons, List.length_cons]
  exact Nat.succ_le_succ (length_dumpsFields_concat _ output)

theorem listKey_ne : call.listKey ≠ "result_chars" ∧ call.listKey ≠ "truncated" := by
  unfold RgCall.listKey
  cases call.tool <;> simp

theorem boundedJsonDumps_payload
    (fits : s.items = [] ∨ (dumps (call.fullAnswer s)).length ≤ call.charLimit) :
    boundedJsonDumps (call.payload s) call.listKey call.charLimit = call.fullAnswer s := by
  have short := length_le_countedOutput (mem_keys_budgetedOutput (listKey_ne call).1 (keys_payload call s) s.items
    (call.truncated s))
  unfold boundedJsonDumps
  rw [lookup_payload_listKey, lookup_payload_truncated, Option.any_some, Json.truthy]
  dsimp only
  cases reversed : s.items.reverse with
  | nil =>
    rw [List.reverse_eq_nil_iff] at reversed
    rw [boundedFrom, RgCall.fullAnswer, reversed]
  | cons item items =>
    have isItems : (item :: items).reverse = s.items := by rw [← reversed, List.reverse_reverse]
    have filled : s.items ≠ [] := fun none => by
      rw [none] at reversed
      cases reversed
    have long := fits.resolve_left filled
    rw [RgCall.fullAnswer] at long
    rw [boundedFrom, isItems, if_pos (short.trans long), RgCall.fullAnswer]

theorem countKey_ne :
    call.countKey ≠ "result_chars" ∧ call.countKey ≠ "truncated" ∧ call.countKey ≠ call.listKey := by
  unfold RgCall.countKey RgCall.listKey
  cases call.tool <;> simp

theorem nodup_payload : ((call.payload s).map Prod.fst).Nodup := by
  unfold RgCall.payload
  cases call.tool <;> simp

theorem get_fullAnswer (key : String) (other : key ≠ "result_chars") :
    (call.fullAnswer s).get key =
      if key = "truncated" then some (.bool (call.truncated s))
      else if key = call.listKey then some (.arr s.items) else (call.payload s).lookup key := by
  rw [RgCall.fullAnswer, countedOutput, Json.get, lookup_dictSet, if_neg other, budgetedOutput, lookup_dictSet,
    lookup_dictSet]

theorem withoutItems_fullAnswer (none : s.items = []) :
    withoutItems call.listKey (call.fullAnswer s) = call.fullAnswer s := by
  have found := get_fullAnswer call s call.listKey (listKey_ne call).1
  rw [if_neg (listKey_ne call).2, if_pos rfl, none] at found
  rw [RgCall.fullAnswer, countedOutput] at found ⊢
  rw [withoutItems]
  obtain ⟨front, back, same, set⟩ := dictSet_of_lookup
    (nodup_dictSet (nodup_dictSet (nodup_dictSet (nodup_payload call s) _ _) _ _) _ _) found (.arr [])
  rw [budgetedOutput] at *
  rw [set, ← same]

theorem fullAnswer_asClaimed {written : List (List Char)}
    (fits : s.items = [] ∨ (dumps (call.fullAnswer s)).length ≤ call.charLimit)
    (complete : call.truncated s = false → s.items = written.filterMap call.lineMatch) :
    SearchAsClaimed call written (call.fullAnswer s) := by
  have list : (call.fullAnswer s).get call.listKey = some (.arr s.items) := by
    rw [get_fullAnswer call s _ (listKey_ne call).1, if_neg (listKey_ne call).2, if_pos rfl]
  have count : (call.fullAnswer s).get call.countKey = some (.nat s.items.length) := by
    obtain ⟨notChars, notMark, notList⟩ := countKey_ne call
    rw [get_fullAnswer call s _ notChars, if_neg notMark, if_neg notList, lookup_payload_countKey]
  refine ⟨fun mark => ?_, fun items isList => ?_, fun bare => ?_⟩
  · rw [get_fullAnswer call s _ (by decide), if_pos rfl, Option.some.injEq, Json.bool.injEq] at mark
    rw [list, complete mark]
  · rw [list, Option.some.injEq, Json.arr.injEq] at isList
    rw [count, isList]
  · rcases fits with none | short
    · rwa [withoutItems_fullAnswer call s none] at bare
    · exact short

end

/-! ### What is found and what is left -/

/-- The entry `None` of the queue is its last, and nothing comes behind it. -/
def Ended (s : RgRun) : Prop :=
  none ∉ s.lineQueue ∨
    ∃ front, s.lineQueue = front ++ [none] ∧ none ∉ front ∧ s.readerEnded = true ∧ s.pipe = [] ∧ s.unwritten = []

/-- What is found and what is left make up what was written, unless the tool has stopped early, which its answer
then says. -/
structure Gathered (call : RgCall) (written : List (List Char)) (s : RgRun) : Prop where
  found : s.stoppedEarly = false →
    written.filterMap call.lineMatch = s.items ++ s.left.filterMap call.lineMatch
  early : s.stoppedEarly = true → call.truncated s = true
  running : s.phase = .get ∨ s.phase = .poll → s.stoppedEarly = false
  ended : Ended s
  behind : s.phase = .done → s.stoppedEarly = true ∨ s.left.filterMap call.lineMatch = []
  told : ∀ answer, s.phase = .answered answer → answer.get "status" = some (.str "success") →
    SearchAsClaimed call written answer

section

variable {call : RgCall} {written : List (List Char)} {s t : RgRun}

theorem gathered_start : Gathered call written (.start written) where
  found _ := by rfl
  early := nofun
  running _ := rfl
  ended := .inl List.not_mem_nil
  behind := nofun
  told := nofun

theorem Gathered.move (gathered : Gathered call written s) (left : t.left = s.left) (items : t.items = s.items)
    (early : t.stoppedEarly = s.stoppedEarly) (truncated : call.truncated t = call.truncated s)
    (phase : t.phase = s.phase) (ended : Ended t) : Gathered call written t where
  found := by
    rw [early, left, items]
    exact gathered.found
  early := by
    rw [early, truncated]
    exact gathered.early
  running := by
    rw [phase, early]
    exact gathered.running
  ended := ended
  behind := by
    rw [phase, early, left]
    exact gathered.behind
  told := by
    rw [phase]
    exact gathered.told

theorem Ended.cons {line : Option (List Char)} {rest : List (Option (List Char))} (ended : Ended s)
    (queue : s.lineQueue = line :: rest) :
    Ended { s with lineQueue := rest } ∧ (line = none → rest = [] ∧ s.pipe = [] ∧ s.unwritten = []) := by
  rcases ended with running | ⟨front, same, lines, reader, pipe, unwritten⟩
  · rw [queue, List.mem_cons, not_or] at running
    exact ⟨.inl running.2, fun none => absurd none.symm running.1⟩
  · rw [queue] at same
    cases front with
    | nil =>
      obtain ⟨rfl, rfl⟩ := List.cons.inj same
      exact ⟨.inl List.not_mem_nil, fun _ => ⟨rfl, pipe, unwritten⟩⟩
    | cons first front =>
      obtain ⟨rfl, rfl⟩ := List.cons.inj same
      rw [List.mem_cons, not_or] at lines
      exact ⟨.inr ⟨front, rfl, lines.2, reader, pipe, unwritten⟩, fun none => absurd none.symm lines.1⟩

theorem onLine_eq (line : List Char) (s : RgRun) :
    ∃ items scannedFiles stoppedByCharLimit stop,
      call.onLine line s =
        ({ s with items := items, scannedFiles := scannedFiles, stoppedByCharLimit := stoppedByCharLimit }, stop) ∧
      (stop = false → items = s.items ++ (call.lineMatch line).toList) ∧
      (stop = true → stoppedByCharLimit = true ∨ call.limit ≤ items.length) := by
  rw [RgCall.onLine]
  cases call.lineMatch line with
  | none =>
    exact ⟨s.items, s.scannedFiles, s.stoppedByCharLimit, false, rfl, fun _ => (List.append_nil _).symm, nofun⟩
  | some item =>
    dsimp only
    split
    · exact ⟨s.items ++ [item], _, s.stoppedByCharLimit, _, rfl, fun _ => rfl,
        fun stop => .inr (of_decide_eq_true stop)⟩
    · exact ⟨s.items, _, true, true, rfl, nofun, fun _ => .inl rfl⟩

theorem left_cons {line : List Char} {rest : List (Option (List Char))}
    (queue : s.lineQueue = some line :: rest) :
    s.left = line :: { s with lineQueue := rest }.left := by
  rw [RgRun.left, queue, List.reduceOption_cons_of_some]
  rfl

theorem gathered_onLine {rest : List (Option (List Char))} (line : List Char)
    (taken : (let (s, stop) := call.onLine line { s with lineQueue := rest }
      if stop then some { s with phase := .done, stoppedEarly := true }
      else some { s with phase := .poll }) = some t)
    (found : written.filterMap call.lineMatch =
      s.items ++ (line :: { s with lineQueue := rest }.left).filterMap call.lineMatch)
    (early : s.stoppedEarly = false) (ended : Ended { s with lineQueue := rest }) : Gathered call written t := by
  obtain ⟨items, scannedFiles, stoppedByCharLimit, stop, same, goesOn, marked⟩ :=
    @onLine_eq call line { s with lineQueue := rest }
  rw [same] at taken
  cases stop with
  | true =>
    cases taken
    refine ⟨nofun, fun _ => ?_, fun phase => ?_, ended, fun _ => .inl rfl, nofun⟩
    · rw [RgCall.truncated, Bool.or_eq_true, decide_eq_true_eq]
      exact (marked rfl).symm
    · cases phase with
      | inl phase => cases phase
      | inr phase => cases phase
  | false =>
    cases taken
    refine ⟨fun _ => ?_, fun stopped => ?_, fun _ => early, ended, nofun, nofun⟩
    · rw [found, goesOn rfl, List.filterMap_cons]
      cases call.lineMatch line with
      | none =>
        rw [Option.toList_none, List.append_nil]
        rfl
      | some item =>
        rw [Option.toList_some, List.append_assoc, List.singleton_append]
        rfl
    · exact absurd (stopped.symm.trans early) (by decide)

theorem answer_of_success {returnCode : Option Int} {stderr : String}
    (success : (call.answer returnCode stderr s).get "status" = some (.str "success")) :
    call.answer returnCode stderr s = boundedJsonDumps (call.payload s) call.listKey call.charLimit := by
  cases returnCode with
  | none => rfl
  | some code =>
    rw [RgCall.answer] at success ⊢
    split at success
    · rename_i known
      rw [if_pos known]
    · have status : (call.failure code stderr).get "status" = some (.str "error") := rfl
      rw [status] at success
      exact absurd (Json.str.inj (Option.some.inj success)) (by decide)

/-- **What one step does**: what is found and what is left still make up what was written. -/
theorem Gathered.step (gathered : Gathered call written s) {a : RgAction} (taken : rgStep call s a = some t)
    (patient : Patient call s a) : Gathered call written t := by
  cases a with
  | write =>
    rw [rgStep] at taken
    cases unwritten : s.unwritten with
    | nil =>
      rw [unwritten] at taken
      cases taken
    | cons line rest =>
      rw [unwritten] at taken
      cases taken
      refine gathered.move ?_ rfl rfl rfl rfl ?_
      · simp [RgRun.left, unwritten]
      · rcases gathered.ended with running | ⟨_, _, _, _, _, none⟩
        · exact .inl running
        · rw [unwritten] at none
          cases none
  | exit =>
    rw [rgStep] at taken
    split at taken
    · cases taken
      exact gathered.move rfl rfl rfl rfl rfl gathered.ended
    · cases taken
  | read =>
    rw [rgStep] at taken
    cases pipe : s.pipe with
    | nil =>
      rw [pipe] at taken
      cases taken
    | cons line rest =>
      rw [pipe] at taken
      cases taken
      refine gathered.move ?_ rfl rfl rfl rfl ?_
      · simp [RgRun.left, pipe, List.reduceOption_append]
      · rcases gathered.ended with running | ⟨_, _, _, _, none, _⟩
        · exact .inl (by simpa using running)
        · rw [pipe] at none
          cases none
  | readEnd =>
    rw [rgStep] at taken
    split at taken
    · rename_i guard
      obtain ⟨unwritten, pipe, reading⟩ := guard
      cases taken
      refine gathered.move ?_ rfl rfl rfl rfl ?_
      · simp [RgRun.left, List.reduceOption_append]
      · rcases gathered.ended with running | ⟨_, _, _, reader, _, _⟩
        · exact .inr ⟨s.lineQueue, rfl, running, rfl, pipe, unwritten⟩
        · rw [reading] at reader
          cases reader
    · cases taken
  | get =>
    rw [rgStep] at taken
    split at taken
    · rename_i isGet
      have early := gathered.running (.inl isGet)
      have found := gathered.found early
      cases queue : s.lineQueue with
      | nil =>
        rw [queue] at taken
        cases taken
      | cons entry rest =>
        obtain ⟨ended, last⟩ := gathered.ended.cons queue
        rw [queue] at taken
        cases entry with
        | none =>
          obtain ⟨noRest, noPipe, noUnwritten⟩ := last rfl
          have nothing : s.left = [] := by
            rw [RgRun.left, queue, noRest, noPipe, noUnwritten]
            rfl
          cases taken
          rw [nothing] at found
          refine ⟨fun _ => ?_, gathered.early, fun _ => early, ended, fun _ => .inr ?_, nofun⟩
          · rw [found, RgRun.left, noRest, noPipe, noUnwritten]
            rfl
          · rw [RgRun.left, noRest, noPipe, noUnwritten]
            rfl
        | some line =>
          rw [left_cons queue] at found
          exact gathered_onLine line taken found early ended
    · cases taken
  | poll =>
    rw [rgStep] at taken
    split at taken
    · rename_i isPoll
      have early := gathered.running (.inr isPoll)
      cases taken
      refine ⟨gathered.found, gathered.early, fun _ => early, gathered.ended, fun isDone => .inr (patient ?_),
        fun answer answered => ?_⟩
      · dsimp only at isDone
        split at isDone
        · assumption
        · cases isDone
      · dsimp only at answered
        split at answered
        · cases answered
        · cases answered
    · cases taken
  | cancel =>
    rw [rgStep] at taken
    split at taken
    · cases taken
      exact ⟨gathered.found, gathered.early, nofun, gathered.ended, nofun, nofun⟩
    · cases taken
  | answer returnCode stderr =>
    rw [rgStep] at taken
    split at taken
    · rename_i isDone
      cases taken
      refine ⟨gathered.found, gathered.early, nofun, gathered.ended, nofun, fun answer answered success => ?_⟩
      have isAnswer := RgPhase.answered.inj answered
      rw [← isAnswer] at success ⊢
      rw [answer_of_success success, boundedJsonDumps_payload call s patient]
      refine fullAnswer_asClaimed call s patient fun notTruncated => ?_
      have early : s.stoppedEarly = false := by
        rw [← Bool.not_eq_true]
        intro early
        rw [gathered.early early] at notTruncated
        cases notTruncated
      have nothing := (gathered.behind isDone).resolve_left (by rw [early]; exact Bool.false_ne_true)
      rw [gathered.found early, nothing, List.append_nil]
    · cases taken

/-- **A complete answer is complete** in every run in which the tool sees the end of the process only when no match
is on its way, and the answer fits. -/
theorem answers_asClaimed {as : List RgAction} {answer : Json}
    (patient : Along (rgStep call) (fun s a _ => Patient call s a) (.start written) as)
    (ran : run (rgStep call) (.start written) as = some t) (answered : t.phase = .answered answer)
    (success : answer.get "status" = some (.str "success")) : SearchAsClaimed call written answer :=
  (run_invariant_along (fun _ _ _ gathered taken patient => gathered.step taken patient) gathered_start patient
    ran).told answer answered success

end

/-- A search in a directory with two matches. -/
def twoMatches : RgCall where
  host :=
    { root := "/w"
      isabs := fun path => path.toList.head? = some '/'
      abspath := fun path => "/w/" ++ path
      safeRelpath := fun path => String.ofList (path.toList.drop 3) }
  tool := .searchText "x" true false
  limit := 200
  charLimit := 20000

/-- The lines of the two matches. -/
def twoLines : List (List Char) := ["a:1:x\n".toList, "b:2:x\n".toList]

/-- The steps of a run in which the tool reads both lines before it sees the end of the process. -/
def patientSteps : List RgAction :=
  [.write, .write, .read, .read, .get, .poll, .get, .poll, .exit, .readEnd, .get]

def patientRun : RgRun :=
  { RgRun.start [] with
    exited := true
    readerEnded := true
    phase := .done
    items :=
      [.obj [("file_path", .str "/w/a"), ("relative_path", .str "a"), ("line", .nat 1), ("match", .str "x")],
        .obj [("file_path", .str "/w/b"), ("relative_path", .str "b"), ("line", .nat 2), ("match", .str "x")]]
    scannedFiles := 2 }

/-- Both matches are answered, and the search is over. -/
theorem answers_twoMatches :
    SearchAsClaimed twoMatches twoLines (twoMatches.answer (some 0) "" patientRun) := by
  have ran : run (rgStep twoMatches) (.start twoLines) (patientSteps ++ [.answer (some 0) ""]) =
      some { patientRun with phase := .answered (twoMatches.answer (some 0) "" patientRun) } :=
    run_append.mpr ⟨patientRun, by decide +kernel, rfl⟩
  have patient : Along (rgStep twoMatches) (fun s a _ => Patient twoMatches s a) (.start twoLines)
      (patientSteps ++ [.answer (some 0) ""]) := by decide +kernel
  exact answers_asClaimed patient ran rfl (by decide +kernel)

/-- The run in which the process ends before the tool looks: the second match stays in the queue. -/
def exitedRun : RgRun :=
  { RgRun.start [] with
    exited := true
    lineQueue := [some "b:2:x\n".toList]
    phase := .done
    items := [.obj [("file_path", .str "/w/a"), ("relative_path", .str "a"), ("line", .nat 1), ("match", .str "x")]]
    scannedFiles := 1 }

/-- A complete answer without the second match. -/
theorem exit_loses_match :
    ¬ ∀ (call : RgCall) (written : List (List Char)) (as : List RgAction) (t : RgRun) (answer : Json),
      run (rgStep call) (.start written) as = some t → t.phase = .answered answer →
        answer.get "status" = some (.str "success") → SearchAsClaimed call written answer := by
  intro all
  have ran : run (rgStep twoMatches) (.start twoLines)
      ([.write, .write, .exit, .read, .read, .get, .poll] ++ [.answer (some 0) ""]) =
        some { exitedRun with phase := .answered (twoMatches.answer (some 0) "" exitedRun) } :=
    run_append.mpr ⟨exitedRun, by decide +kernel, rfl⟩
  have full : twoMatches.answer (some 0) "" exitedRun = twoMatches.fullAnswer exitedRun := by
    have fits : (dumps (twoMatches.fullAnswer exitedRun)).length ≤ twoMatches.charLimit := by decide +kernel
    rw [RgCall.answer, if_pos (.inl rfl), boundedJsonDumps_payload twoMatches exitedRun (.inr fits)]
  rw [full] at ran
  have claimed := all _ _ _ _ _ ran rfl (get_fullAnswer twoMatches exitedRun "status" (by decide))
  have list := claimed.complete (get_fullAnswer twoMatches exitedRun "truncated" (by decide))
  rw [get_fullAnswer twoMatches exitedRun _ (by decide)] at list
  have lengths := congrArg (fun v => match v with | some (.arr items) => items.length | _ => 0) list
  revert lengths
  decide +kernel

end AgentPark.Tools
