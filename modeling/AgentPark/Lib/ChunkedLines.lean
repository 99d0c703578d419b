import AgentPark.Lib.Lines

/-!
# Lines of a text that comes in chunks

Two ways of reading the lines of a text of which one chunk comes after the other: to cut all complete
lines off after every chunk, and to take one line at a time and as many chunks as that needs.
-/

namespace AgentPark.Lib

section

variable {α : Type*} (sep : α)

/-- The text of some lines. -/
def terminated (lines : List (List α)) : List α := lines.flatMap fun line => line ++ [sep]

@[simp] theorem terminated_nil : terminated sep [] = [] := rfl

theorem terminated_cons (line : List α) (lines : List (List α)) :
    terminated sep (line :: lines) = line ++ sep :: terminated sep lines := by
  rw [terminated, List.flatMap_cons, List.append_assoc, List.singleton_append]
  rfl

theorem terminated_append (lines others : List (List α)) :
    terminated sep (lines ++ others) = terminated sep lines ++ terminated sep others := List.flatMap_append

end

variable {α : Type*} [DecidableEq α] (sep : α)

/-! ### Cutting off complete lines -/

/-- The complete lines at the beginning of a text, and what is behind them:
`while sep in text: line, text = text.split(sep, 1)`. -/
def cutLines (text : List α) : List (List α) × List α :=
  ((text.splitOn sep).dropLast, (text.splitOn sep).getLast (List.splitOn_ne_nil sep text))

/-- The complete lines of a text that comes in chunks, and what is behind them at its end. -/
def linesOf : List α → List (List α) → List (List α) × List α
  | pending, [] => ([], pending)
  | pending, chunk :: chunks =>
    let (lines, rest) := cutLines sep (pending ++ chunk)
    let (later, last) := linesOf rest chunks
    (lines ++ later, last)

variable {sep}

theorem sep_not_mem_cutLines (text : List α) : sep ∉ (cutLines sep text).2 :=
  sep_not_mem_of_mem_splitOn (List.getLast_mem _)

theorem cutLines_of_not_mem {text : List α} (plain : sep ∉ text) : cutLines sep text = ([], text) := by
  have single : text.splitOn sep = [text] := List.splitOn_eq_singleton plain
  simp [cutLines, single]

variable {line buffer : List α}

theorem cutLines_append (plain : sep ∉ line) (rest : List α) :
    cutLines sep (line ++ sep :: rest) = (line :: (cutLines sep rest).1, (cutLines sep rest).2) := by
  have split := List.splitOn_append_cons_self_of_not_mem plain rest
  simp only [cutLines, split]
  rw [List.dropLast_cons_of_ne_nil (List.splitOn_ne_nil sep rest), List.getLast_cons (List.splitOn_ne_nil sep rest)]

variable {lines chunks : List (List α)}

theorem cutLines_of_prefix (plain : ∀ line ∈ lines, sep ∉ line) {front back : List α}
    (whole : front ++ back = terminated sep lines) :
    ∃ rest, lines = (cutLines sep front).1 ++ rest ∧ (cutLines sep front).2 ++ back = terminated sep rest := by
  induction lines generalizing front with
  | nil =>
    obtain ⟨rfl, rfl⟩ := List.append_eq_nil_iff.mp whole
    rw [cutLines_of_not_mem List.not_mem_nil]
    exact ⟨[], rfl, rfl⟩
  | cons line lines ih =>
    obtain ⟨first, later⟩ := List.forall_mem_cons.mp plain
    rw [terminated_cons] at whole
    by_cases inFront : sep ∈ front
    · rcases List.append_eq_append_iff.mp whole with ⟨middle, rfl, -⟩ | ⟨middle, rfl, isRest⟩
      · exact absurd (List.mem_append_left middle inFront) first
      · cases middle with
        | nil => exact absurd (by simpa using inFront) first
        | cons x middle =>
          obtain ⟨rfl, tail⟩ := List.cons.inj isRest
          obtain ⟨rest, isLines, isBack⟩ := ih later tail.symm
          rw [cutLines_append first]
          refine ⟨rest, ?_, isBack⟩
          rw [List.cons_append, ← isLines]
    · rw [cutLines_of_not_mem inFront]
      exact ⟨line :: lines, rfl, by rw [terminated_cons]; exact whole⟩

/-- The reader gives the lines, however the text is cut. -/
theorem linesOf_terminated (plain : ∀ line ∈ lines, sep ∉ line) {pending : List α}
    (noLine : sep ∉ pending) (whole : pending ++ chunks.flatten = terminated sep lines) :
    linesOf sep pending chunks = (lines, []) := by
  induction chunks generalizing pending lines with
  | nil =>
    rw [List.flatten_nil, List.append_nil] at whole
    cases lines with
    | nil =>
      rw [whole]
      rfl
    | cons line lines =>
      rw [terminated_cons] at whole
      exact absurd (by rw [whole]; simp) noLine
  | cons chunk chunks ih =>
    rw [List.flatten_cons, ← List.append_assoc] at whole
    obtain ⟨rest, isLines, isRest⟩ := cutLines_of_prefix plain whole
    have later := ih (fun line mem => plain line (isLines ▸ List.mem_append_right _ mem))
      (sep_not_mem_cutLines _) isRest
    rw [linesOf]
    dsimp only
    rw [later, ← isLines]

/-! ### One line at a time -/

variable (sep)

/-- `readline()`: the next line with its separator, and the buffer and the chunks that are left. -/
def readLine (buffer : List α) : List (List α) → List α × List α × List (List α)
  | [] =>
    if sep ∈ buffer then
      (buffer.takeWhile (· ≠ sep) ++ [sep], (buffer.dropWhile (· ≠ sep)).drop 1, [])
    else (buffer, [], [])
  | chunk :: chunks =>
    if sep ∈ buffer then
      (buffer.takeWhile (· ≠ sep) ++ [sep], (buffer.dropWhile (· ≠ sep)).drop 1, chunk :: chunks)
    else readLine (buffer ++ chunk) chunks

theorem takeWhile_sep_append (mem : sep ∈ buffer) :
    buffer.takeWhile (· ≠ sep) ++ [sep] ++ (buffer.dropWhile (· ≠ sep)).drop 1 = buffer := by
  induction buffer with
  | nil => cases mem
  | cons x buffer ih =>
    by_cases same : x = sep
    · simp [same]
    · have later : sep ∈ buffer := (List.mem_cons.mp mem).resolve_left fun eq => same eq.symm
      simpa [same] using ih later

theorem readLine_append (buffer : List α) (chunks : List (List α)) :
    (readLine sep buffer chunks).1 ++
        ((readLine sep buffer chunks).2.1 ++ (readLine sep buffer chunks).2.2.flatten) =
      buffer ++ chunks.flatten := by
  induction chunks generalizing buffer with
  | nil =>
    rw [readLine]
    split_ifs with mem
    · simpa using takeWhile_sep_append sep mem
    · simp
  | cons chunk chunks ih =>
    rw [readLine]
    split_ifs with mem
    · dsimp only
      rw [← List.append_assoc, takeWhile_sep_append sep mem]
    · rw [ih, List.flatten_cons, List.append_assoc]

/-- Every line, until `readline()` gives an empty one. -/
def readLines (buffer : List α) (chunks : List (List α)) : List (List α) :=
  if (readLine sep buffer chunks).1 = [] then []
  else (readLine sep buffer chunks).1 ::
    readLines (readLine sep buffer chunks).2.1 (readLine sep buffer chunks).2.2
termination_by buffer.length + chunks.flatten.length
decreasing_by
  rename_i notEmpty
  have parts := congrArg List.length (readLine_append sep buffer chunks)
  have positive := List.length_pos_iff.mpr notEmpty
  simp only [List.length_append] at parts
  omega

variable {sep}

theorem takeWhile_sep (plain : sep ∉ line) (rest : List α) :
    (line ++ sep :: rest).takeWhile (· ≠ sep) = line ∧
      ((line ++ sep :: rest).dropWhile (· ≠ sep)).drop 1 = rest := by
  have others : ∀ x ∈ line, decide (x ≠ sep) = true := by
    intro x mem
    have other : x ≠ sep := by
      rintro rfl
      exact plain mem
    exact decide_eq_true other
  rw [List.takeWhile_append_of_pos others, List.dropWhile_append_of_pos others]
  simp

theorem readLine_of_line {rest : List α} (plain : sep ∉ line)
    (whole : buffer ++ chunks.flatten = line ++ sep :: rest) :
    ∃ buffer' chunks', readLine sep buffer chunks = (line ++ [sep], buffer', chunks') ∧
      buffer' ++ chunks'.flatten = rest := by
  -- a buffer with a separator has the whole line
  have inBuffer : sep ∈ buffer → ∃ more, buffer = line ++ sep :: more := by
    intro mem
    rcases List.append_eq_append_iff.mp whole with ⟨middle, rfl, -⟩ | ⟨middle, rfl, isRest⟩
    · exact absurd (List.mem_append_left middle mem) plain
    · cases middle with
      | nil => exact absurd (by simpa using mem) plain
      | cons x middle =>
        obtain ⟨rfl, -⟩ := List.cons.inj isRest
        exact ⟨middle, rfl⟩
  induction chunks generalizing buffer with
  | nil =>
    rw [List.flatten_nil, List.append_nil] at whole
    subst whole
    rw [readLine, if_pos (by simp), (takeWhile_sep plain rest).1, (takeWhile_sep plain rest).2]
    exact ⟨rest, [], rfl, by simp⟩
  | cons chunk chunks ih =>
    rw [readLine]
    split_ifs with mem
    · obtain ⟨more, rfl⟩ := inBuffer mem
      rw [(takeWhile_sep plain more).1, (takeWhile_sep plain more).2]
      refine ⟨more, chunk :: chunks, rfl, ?_⟩
      rw [List.append_assoc, List.cons_append] at whole
      exact (List.cons.inj (List.append_cancel_left whole)).2
    · have whole' : (buffer ++ chunk) ++ chunks.flatten = line ++ sep :: rest := by
        rw [List.append_assoc, ← List.flatten_cons]
        exact whole
      refine ih whole' fun mem' => ?_
      rcases List.append_eq_append_iff.mp whole' with ⟨middle, isLine, -⟩ | ⟨middle, isBuffer, isRest⟩
      · exact absurd (isLine ▸ List.mem_append_left middle mem') plain
      · cases middle with
        | nil =>
          rw [List.append_nil] at isBuffer
          exact absurd (isBuffer ▸ mem') plain
        | cons x middle =>
          obtain ⟨rfl, -⟩ := List.cons.inj isRest
          exact ⟨middle, isBuffer⟩

/-- So does the other reader. -/
theorem readLines_terminated (plain : ∀ line ∈ lines, sep ∉ line)
    (whole : buffer ++ chunks.flatten = terminated sep lines) :
    readLines sep buffer chunks = lines.map (· ++ [sep]) := by
  induction lines generalizing buffer chunks with
  | nil =>
    have parts := readLine_append sep buffer chunks
    rw [whole, terminated_nil] at parts
    rw [readLines, if_pos (List.append_eq_nil_iff.mp parts).1]
    rfl
  | cons line lines ih =>
    obtain ⟨first, later⟩ := List.forall_mem_cons.mp plain
    rw [terminated_cons] at whole
    obtain ⟨buffer', chunks', isLine, rest⟩ := readLine_of_line first whole
    rw [readLines, isLine, if_neg (by simp), ih later rest, List.map_cons]

end AgentPark.Lib
