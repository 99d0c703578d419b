import AgentPark.Lib.Bisection
import AgentPark.Lib.JsonSize
import AgentPark.Lib.PyInt
import AgentPark.Tools.StreamText
import Mathlib.Order.ConditionallyCompleteLattice.Basic
import Mathlib.Order.Lattice.Nat

/-!
# The result of a command

`build_console_command_result` writes the output of a command as JSON.  When that is too long to be
submitted, it looks for a limit of the two streams with which it is not.

* `CommandOutput.payload` is the result for a limit, `CommandOutput.build` the search.
-/

namespace AgentPark.Tools

open Lib

/-- What `build_console_command_result` is called with.  No dictionary has a key twice. -/
structure CommandOutput where
  command : Json
  stdout : String
  stderr : String
  status : String
  outputLimit : Nat
  submissionLimit : Option Nat
  returncode : Option Int := none
  error : Option String := none
  extra : List (String × Json) := []
  uniqueCommand : command.UniqueKeys := by trivial
  uniqueExtra : (Json.obj extra).UniqueKeys := by simp [Json.uniqueKeys_obj]

namespace CommandOutput

/-- The entries of what a cut says about itself. -/
def metaFields (streamMeta : StreamMeta) : List (String × Json) :=
  match streamMeta.cut with
  | none =>
    [("truncated", .bool false), ("original_chars", .nat streamMeta.originalChars),
      ("returned_chars", .nat streamMeta.originalChars)]
  | some cut =>
    [("truncated", .bool true), ("original_chars", .nat streamMeta.originalChars),
      ("returned_chars", .nat cut.returnedChars), ("omitted_chars", .nat cut.omittedChars),
      ("strategy", .str cut.strategy), ("head_chars", .nat cut.headChars),
      ("tail_chars", .nat cut.tailChars), ("notice", .str cut.notice)]

/-- `{"stream": name, **meta}` for a stream that was truncated. -/
def truncatedStream (name : String) (streamMeta : StreamMeta) : List Json :=
  if streamMeta.cut.isSome then [.obj (("stream", .str name) :: metaFields streamMeta)] else []

def truncationNotice : String :=
  "Command output exceeded the hard stdout/stderr size limit. " ++
  "The returned stdout/stderr fields are partial; successful commands preserve tail content, " ++
  "while failed or timed-out commands preserve both the beginning and tail for diagnosis."

variable (output : CommandOutput)

/-- A stream cut to a limit. -/
def limited (text name : String) (limit : Nat) : String × StreamMeta :=
  limitStreamText text name limit (output.status ≠ "success")

/-- The entries before those of `extra`. -/
def answerFields (limit : Nat) : List (String × Json) :=
  [("command", output.command), ("stdout", .str (output.limited output.stdout "stdout" limit).1),
    ("stderr", .str (output.limited output.stderr "stderr" limit).1),
    ("status", .str output.status)] ++
    (output.returncode.map fun code => ("returncode", Json.int code)).toList ++
    (output.error.map fun error => ("error", Json.str error)).toList

def counterFields (limit : Nat) : List (String × Json) :=
  let stdoutMeta := (output.limited output.stdout "stdout" limit).2
  let stderrMeta := (output.limited output.stderr "stderr" limit).2
  let returned (streamMeta : StreamMeta) : Nat :=
    (streamMeta.cut.map StreamCut.returnedChars).getD streamMeta.originalChars
  [("stdout_truncated", .bool stdoutMeta.cut.isSome),
    ("stdout_original_chars", .nat stdoutMeta.originalChars),
    ("stdout_returned_chars", .nat (returned stdoutMeta)),
    ("stderr_truncated", .bool stderrMeta.cut.isSome),
    ("stderr_original_chars", .nat stderrMeta.originalChars),
    ("stderr_returned_chars", .nat (returned stderrMeta)),
    ("output_max_chars_per_stream", .nat output.outputLimit),
    ("output_effective_max_chars_per_stream", .nat limit)]

/-- The entries about the streams that were truncated. -/
def truncationFields (limit : Nat) : List (String × Json) :=
  let truncatedStreams :=
    truncatedStream "stdout" (output.limited output.stdout "stdout" limit).2 ++
      truncatedStream "stderr" (output.limited output.stderr "stderr" limit).2
  if truncatedStreams = [] then []
  else
    [("output_truncated", .bool true), ("output_truncation_notice", .str truncationNotice),
      ("output_truncation", .obj [("max_chars_per_stream", .nat limit),
        ("streams", .arr truncatedStreams)])]

/-- The entry about the limit of a submission. -/
def budgetFields (limit : Nat) (appliedLimit : Option Nat) : List (String × Json) :=
  (appliedLimit.map fun submissionLimit =>
    ("output_submission_budget", Json.obj [("applied", .bool true),
      ("configured_submission_max_chars", .nat submissionLimit),
      ("configured_output_max_chars_per_stream", .nat output.outputLimit),
      ("effective_output_max_chars_per_stream", .nat limit),
      ("strategy", .str "serialized_payload_binary_search")])).toList

/-- The entries behind those of `extra`. -/
def reportFields (limit : Nat) (appliedLimit : Option Nat) : List (String × Json) :=
  output.counterFields limit ++ output.truncationFields limit ++ output.budgetFields limit appliedLimit

/-- `_console_result_payload` -/
def payload (limit : Nat) (appliedLimit : Option Nat) : Json :=
  .obj (dictUpdate (dictUpdate (output.answerFields limit) output.extra)
    (output.reportFields limit appliedLimit))

/-- `json.dumps(build(limit), ensure_ascii=False)` -/
def serialized (limit : Nat) (appliedLimit : Option Nat) : List Char :=
  dumps (output.payload limit appliedLimit)

/-- The result for a limit, if it can be submitted. -/
def candidate (submissionLimit limit : Nat) : Option (List Char) :=
  let candidateSerialized := output.serialized limit (some submissionLimit)
  if candidateSerialized.length ≤ submissionLimit then some candidateSerialized else none

/-- `build_console_command_result` -/
def build : Except String (List Char) :=
  let serialized := output.serialized output.outputLimit none
  match output.submissionLimit with
  | none => .ok serialized
  | some submissionLimit =>
    if serialized.length ≤ submissionLimit then .ok serialized
    else match bisect (output.candidate submissionLimit) 1 (output.outputLimit + 1) none with
      | some bestSerialized => .ok bestSerialized
      | none => .error ("console command metadata exceeds agent.config.toolResultSubmissionMaxChars " ++
          "even after stdout/stderr are reduced to one character each")

/-! ### What the search is meant to answer -/

/-- The result need not be reduced. -/
def FitsUnreduced : Prop :=
  ∀ submissionLimit ∈ output.submissionLimit,
    (output.serialized output.outputLimit none).length ≤ submissionLimit

/-- The limits with which the result can be submitted. -/
def fitting (submissionLimit : Nat) : Set Nat :=
  {limit | 1 ≤ limit ∧ limit ≤ output.outputLimit ∧
    (output.serialized limit (some submissionLimit)).length ≤ submissionLimit}

/-- The result is not reduced if it can be submitted; it is that of the largest limit with which it can
otherwise; and it is no error unless there is none. -/
structure AsClaimed (answer : Except String (List Char)) : Prop where
  unreduced : output.FitsUnreduced → answer = .ok (output.serialized output.outputLimit none)
  largest : ∀ submissionLimit ∈ output.submissionLimit, ¬ output.FitsUnreduced →
    ∀ limit, IsGreatest (output.fitting submissionLimit) limit →
      answer = .ok (output.serialized limit (some submissionLimit))
  raises : ∀ message, answer = .error message → ¬ output.FitsUnreduced ∧
    ∀ submissionLimit ∈ output.submissionLimit, output.fitting submissionLimit = ∅

/-- Every limit on the way to the largest one that fits, and that is not behind it, fits. -/
def WayFits : Prop :=
  ∀ submissionLimit ∈ output.submissionLimit, ¬ output.FitsUnreduced →
    ∀ limit, IsGreatest (output.fitting submissionLimit) limit →
      ∀ middle ∈ bisectPath limit 1 (output.outputLimit + 1), middle ≤ limit →
        middle ∈ output.fitting submissionLimit

/-! ### A result names its limit -/

theorem nodup_dictUpdate {fields : List (String × Json)} (nodup : (fields.map Prod.fst).Nodup)
    (updates : List (String × Json)) : ((dictUpdate fields updates).map Prod.fst).Nodup := by
  induction updates generalizing fields with
  | nil => exact nodup
  | cons update updates ih => exact ih (nodup_dictSet nodup update.1 update.2)

theorem forall_mem_dictUpdate {P : Json → Prop} {fields updates : List (String × Json)}
    (old : ∀ field ∈ fields, P field.2) (new : ∀ update ∈ updates, P update.2) :
    ∀ field ∈ dictUpdate fields updates, P field.2 := by
  induction updates generalizing fields with
  | nil => exact old
  | cons update updates ih =>
    obtain ⟨first, rest⟩ := List.forall_mem_cons.mp new
    exact ih (forall_mem_dictSet old update.1 first) rest

theorem uniqueKeys_truncatedStream (name : String) (streamMeta : StreamMeta) :
    ∀ v ∈ truncatedStream name streamMeta, v.UniqueKeys := by
  unfold truncatedStream metaFields
  cases streamMeta.cut with
  | none => exact List.forall_mem_nil _
  | some cut =>
    rw [Option.isSome_some, if_pos rfl, List.forall_mem_singleton]
    simp [Json.uniqueKeys_obj]

theorem uniqueKeys_answerFields (limit : Nat) :
    ((output.answerFields limit).map Prod.fst).Nodup ∧
      ∀ field ∈ output.answerFields limit, field.2.UniqueKeys := by
  have unique := output.uniqueCommand
  unfold answerFields
  cases output.returncode with
  | none =>
    cases output.error with
    | none => simp [unique]
    | some error => simp [unique]
  | some code =>
    have codeUnique : (Json.int code).UniqueKeys := by
      cases code with
      | ofNat n => exact Json.uniqueKeys_nat n
      | negSucc n => exact Json.uniqueKeys_num _
    cases output.error with
    | none => simp [unique, codeUnique]
    | some error => simp [unique, codeUnique]

theorem uniqueKeys_reportFields (limit : Nat) (appliedLimit : Option Nat) :
    ((output.reportFields limit appliedLimit).map Prod.fst).Nodup ∧
      ∀ field ∈ output.reportFields limit appliedLimit, field.2.UniqueKeys := by
  have streams : ∀ v ∈ truncatedStream "stdout" (output.limited output.stdout "stdout" limit).2 ++
      truncatedStream "stderr" (output.limited output.stderr "stderr" limit).2, v.UniqueKeys := by
    intro v mem
    rcases List.mem_append.mp mem with out | err
    · exact uniqueKeys_truncatedStream _ _ v out
    · exact uniqueKeys_truncatedStream _ _ v err
  unfold reportFields counterFields truncationFields budgetFields
  dsimp only
  generalize truncatedStream "stdout" _ ++ truncatedStream "stderr" _ = truncated at streams ⊢
  split
  · cases appliedLimit with
    | none => simp
    | some submissionLimit => simp [Json.uniqueKeys_obj]
  · have listed : (Json.arr truncated).UniqueKeys := Json.uniqueKeys_arr.mpr streams
    cases appliedLimit with
    | none => simp [Json.uniqueKeys_obj, listed]
    | some submissionLimit => simp [Json.uniqueKeys_obj, listed]

theorem uniqueKeys_payload (limit : Nat) (appliedLimit : Option Nat) :
    (output.payload limit appliedLimit).UniqueKeys := by
  obtain ⟨nodup, values⟩ := output.uniqueKeys_answerFields limit
  have report := (output.uniqueKeys_reportFields limit appliedLimit).2
  have extra := (Json.uniqueKeys_obj.mp output.uniqueExtra).2
  exact Json.uniqueKeys_obj.mpr ⟨nodup_dictUpdate (nodup_dictUpdate nodup _) _,
    forall_mem_dictUpdate (forall_mem_dictUpdate values extra) report⟩

theorem get_effective (limit : Nat) (appliedLimit : Option Nat) :
    (output.payload limit appliedLimit).get "output_effective_max_chars_per_stream" =
      some (.nat limit) := by
  have nodup := (output.uniqueKeys_reportFields limit appliedLimit).1
  have found : (output.reportFields limit appliedLimit).lookup
      "output_effective_max_chars_per_stream" = some (.nat limit) := by
    unfold reportFields
    rw [List.append_assoc, List.lookup_append]
    rfl
  rw [payload, Json.get, lookup_dictUpdate nodup, found, Option.some_or]

variable {limit submissionLimit : Nat}

theorem serialized_injective {other : Nat} {appliedLimit : Option Nat}
    (same : output.serialized limit appliedLimit = output.serialized other appliedLimit) :
    limit = other := by
  have loaded := congrArg loads same
  rw [serialized, serialized, loads_dumps (output.uniqueKeys_payload _ _),
    loads_dumps (output.uniqueKeys_payload _ _)] at loaded
  have got := output.get_effective limit appliedLimit
  rw [Option.some.inj loaded, output.get_effective other appliedLimit] at got
  have number := congrArg (Json.pyInt fun _ => none) (Option.some.inj got)
  rw [Json.pyInt_nat, Json.pyInt_nat] at number
  have numbers := Option.some.inj number
  omega

/-! ### The search -/

variable {output}

theorem candidate_eq_none_iff :
    output.candidate submissionLimit limit = none ↔
      ¬ (output.serialized limit (some submissionLimit)).length ≤ submissionLimit := by
  unfold candidate
  dsimp only
  split
  · rename_i fits
    exact iff_of_false (Option.some_ne_none _) (not_not_intro fits)
  · rename_i long
    exact iff_of_true rfl long

theorem candidate_eq_some {text : List Char}
    (found : output.candidate submissionLimit limit = some text) :
    text = output.serialized limit (some submissionLimit) := by
  unfold candidate at found
  dsimp only at found
  split at found
  · exact (Option.some.inj found).symm
  · cases found

theorem mem_fitting_iff :
    limit ∈ output.fitting submissionLimit ↔
      1 ≤ limit ∧ limit < output.outputLimit + 1 ∧ output.candidate submissionLimit limit ≠ none := by
  rw [Ne, candidate_eq_none_iff, not_not, Nat.lt_succ_iff]
  rfl

theorem bisect_candidate_iff (greatest : IsGreatest (output.fitting submissionLimit) limit) :
    bisect (output.candidate submissionLimit) 1 (output.outputLimit + 1) none =
        some (output.serialized limit (some submissionLimit)) ↔
      ∀ middle ∈ bisectPath limit 1 (output.outputLimit + 1), middle ≤ limit →
        middle ∈ output.fitting submissionLimit := by
  obtain ⟨lower, upper, fits⟩ := mem_fitting_iff.mp greatest.1
  obtain ⟨text, found⟩ := Option.ne_none_iff_exists'.mp fits
  rw [← candidate_eq_some found]
  have distinct : ∀ position, output.candidate submissionLimit position = some text →
      position = limit := by
    intro position same
    exact output.serialized_injective ((candidate_eq_some same).symm.trans (candidate_eq_some found))
  have largest : ∀ position, limit < position → position < output.outputLimit + 1 →
      output.candidate submissionLimit position = none := by
    intro position after before
    by_contra some
    have le := greatest.2 (mem_fitting_iff.mpr ⟨by omega, before, some⟩)
    omega
  rw [bisect_eq_iff found distinct lower upper largest (Option.some_ne_none text).symm]
  refine forall₂_congr fun middle mem => forall_congr' fun _ => ?_
  obtain ⟨low, high⟩ := mem_bisectPath mem
  rw [mem_fitting_iff]
  exact ⟨fun some => ⟨low, high, some⟩, fun fits => fits.2.2⟩

theorem build_of_fits (fits : output.FitsUnreduced) :
    output.build = .ok (output.serialized output.outputLimit none) := by
  unfold build
  dsimp only
  split
  · rfl
  · rename_i submissionLimit isLimit
    exact if_pos (fits submissionLimit isLimit)

theorem build_of_long (isLimit : output.submissionLimit = some submissionLimit)
    (long : ¬ output.FitsUnreduced) :
    output.build = match bisect (output.candidate submissionLimit) 1 (output.outputLimit + 1) none with
      | some bestSerialized => .ok bestSerialized
      | none => .error ("console command metadata exceeds agent.config.toolResultSubmissionMaxChars " ++
          "even after stdout/stderr are reduced to one character each") := by
  have tooLong : ¬ (output.serialized output.outputLimit none).length ≤ submissionLimit := by
    intro fits
    refine long fun other isOther => ?_
    rw [isLimit] at isOther
    rw [← Option.some.inj isOther]
    exact fits
  unfold build
  dsimp only
  rw [isLimit]
  exact if_neg tooLong

theorem build_eq_ok_iff (isLimit : output.submissionLimit = some submissionLimit)
    (long : ¬ output.FitsUnreduced) (text : List Char) :
    output.build = .ok text ↔
      bisect (output.candidate submissionLimit) 1 (output.outputLimit + 1) none = some text := by
  rw [build_of_long isLimit long]
  cases bisect (output.candidate submissionLimit) 1 (output.outputLimit + 1) none with
  | none => exact iff_of_false nofun nofun
  | some best => rw [Except.ok.injEq, Option.some.injEq]

theorem build_of_nothing (isLimit : output.submissionLimit = some submissionLimit)
    (long : ¬ output.FitsUnreduced)
    (nothing : bisect (output.candidate submissionLimit) 1 (output.outputLimit + 1) none = none) :
    output.build = .error ("console command metadata exceeds " ++
      "agent.config.toolResultSubmissionMaxChars " ++
      "even after stdout/stderr are reduced to one character each") := by
  rw [build_of_long isLimit long, nothing]
  rfl

theorem exists_isGreatest_fitting (some : (output.fitting submissionLimit).Nonempty) :
    ∃ limit, IsGreatest (output.fitting submissionLimit) limit := by
  have bounded : BddAbove (output.fitting submissionLimit) :=
    ⟨output.outputLimit, fun limit fits => fits.2.1⟩
  exact ⟨sSup (output.fitting submissionLimit), Nat.sSup_mem some bounded,
    fun limit fits => le_csSup bounded fits⟩

variable (output)

/-- The search answers what it is meant to exactly when the limits on the way to the largest one that fits
fit, as far as they are not behind it. -/
theorem asClaimed_iff : output.AsClaimed output.build ↔ output.WayFits := by
  by_cases fits : output.FitsUnreduced
  · refine iff_of_true ⟨fun _ => build_of_fits fits, ?_, ?_⟩ fun _ _ long => absurd fits long
    · exact fun _ _ long => absurd fits long
    · intro message raised
      rw [build_of_fits fits] at raised
      cases raised
  obtain ⟨submissionLimit, isLimit⟩ : ∃ submissionLimit, output.submissionLimit = some submissionLimit := by
    cases none : output.submissionLimit with
    | none =>
      refine absurd (fun submissionLimit isLimit => ?_) fits
      rw [none] at isLimit
      cases isLimit
    | some submissionLimit => exact ⟨submissionLimit, rfl⟩
  have only : ∀ other ∈ output.submissionLimit, other = submissionLimit := by
    intro other isOther
    rw [isLimit] at isOther
    exact (Option.some.inj isOther).symm
  rcases Set.eq_empty_or_nonempty (output.fitting submissionLimit) with empty | some
  · have nothing : ∀ other ∈ output.submissionLimit, output.fitting other = ∅ := by
      intro other isOther
      rw [only other isOther]
      exact empty
    refine iff_of_true ⟨fun unreduced => absurd unreduced fits, ?_, fun _ _ => ⟨fits, nothing⟩⟩ ?_
    · intro other isOther _ limit greatest
      rw [nothing other isOther] at greatest
      exact absurd greatest.1 (Set.notMem_empty limit)
    · intro other isOther _ limit greatest
      rw [nothing other isOther] at greatest
      exact absurd greatest.1 (Set.notMem_empty limit)
  · obtain ⟨limit, greatest⟩ := exists_isGreatest_fitting some
    have found := (build_eq_ok_iff isLimit fits _).trans (bisect_candidate_iff greatest)
    constructor
    · intro claimed other isOther _ largest isLargest
      rw [only other isOther] at isLargest ⊢
      rw [isLargest.unique greatest]
      exact found.mp (claimed.largest submissionLimit isLimit fits limit greatest)
    · intro way
      have built := found.mpr (way submissionLimit isLimit fits limit greatest)
      refine ⟨fun unreduced => absurd unreduced fits, ?_, ?_⟩
      · intro other isOther _ largest isLargest
        rw [only other isOther] at isLargest ⊢
        rw [isLargest.unique greatest]
        exact built
      · intro message raised
        rw [built] at raised
        cases raised

/-! ### A search that misses -/

/-- An output of control characters with a few characters of diagnostics. -/
def shortDiagnostics : CommandOutput where
  command := .str "run"
  stdout := String.ofList (List.replicate 50 '\x01')
  stderr := "bbbbbb"
  status := "success"
  outputLimit := 45
  submissionLimit := some 1200

/-- Once the diagnostics are whole, the result is shorter: the search that comes from below the limit misses
that. -/
theorem build_shortDiagnostics :
    shortDiagnostics.build = .error ("console command metadata exceeds " ++
      "agent.config.toolResultSubmissionMaxChars " ++
      "even after stdout/stderr are reduced to one character each") ∧
    6 ∈ shortDiagnostics.fitting 1200 := by
  have long : ¬ shortDiagnostics.FitsUnreduced := by
    intro fits
    have short := fits 1200 rfl
    rw [serialized, length_dumps _ (by decide +kernel)] at short
    revert short
    decide +kernel
  have sizes : ∀ limit ∈ [23, 11, 5, 2, 1], (shortDiagnostics.payload limit (some 1200)).plain = true ∧
      1200 < (shortDiagnostics.payload limit (some 1200)).size := by decide +kernel
  have rejected : ∀ limit ∈ [23, 11, 5, 2, 1], shortDiagnostics.candidate 1200 limit = none := by
    intro limit mem
    rw [candidate_eq_none_iff, serialized, length_dumps _ (sizes limit mem).1, not_le]
    exact (sizes limit mem).2
  simp only [List.forall_mem_cons] at rejected
  obtain ⟨at23, at11, at5, at2, at1, -⟩ := rejected
  have halve : ∀ {stop middle : Nat}, 1 < stop → (1 + (stop - 1)) / 2 = middle →
      shortDiagnostics.candidate 1200 middle = none →
      bisect (shortDiagnostics.candidate 1200) 1 stop none =
        bisect (shortDiagnostics.candidate 1200) 1 middle none := by
    rintro stop middle lt rfl rejected
    exact bisect_of_none lt rejected none
  have found : bisect (shortDiagnostics.candidate 1200) 1 46 none = none :=
    calc bisect (shortDiagnostics.candidate 1200) 1 46 none
        = bisect (shortDiagnostics.candidate 1200) 1 23 none := halve (by decide) rfl at23
      _ = bisect (shortDiagnostics.candidate 1200) 1 11 none := halve (by decide) rfl at11
      _ = bisect (shortDiagnostics.candidate 1200) 1 5 none := halve (by decide) rfl at5
      _ = bisect (shortDiagnostics.candidate 1200) 1 2 none := halve (by decide) rfl at2
      _ = bisect (shortDiagnostics.candidate 1200) 1 1 none := halve (by decide) rfl at1
      _ = none := bisect_of_not_lt (by decide) none
  have limit : shortDiagnostics.submissionLimit = some 1200 := rfl
  have stop : shortDiagnostics.outputLimit + 1 = 46 := rfl
  have short : (shortDiagnostics.serialized 6 (some 1200)).length ≤ 1200 := by
    rw [serialized, length_dumps _ (by decide +kernel)]
    decide +kernel
  exact ⟨build_of_nothing limit long (stop ▸ found), Nat.le_add_left 1 5, Nat.le_add_right 6 39, short⟩

end CommandOutput

end AgentPark.Tools
