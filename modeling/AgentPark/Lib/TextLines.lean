import AgentPark.Lib.Lines

/-!
# Lines that end

`linesAt ends` cuts a text behind each character that ends a line; nothing is left behind the last
one.  `str.splitlines` is the case of all the characters that the source language takes as the end of
a line, after `\r\n` is made one character; the lines of a text at `\n` are another case.
-/

namespace AgentPark.Lib

variable {α : Type*}

/-- The lines of a text, where a line ends with each element that `ends` accepts. -/
def linesAt (ends : α → Bool) : List α → List (List α)
  | [] => []
  | c :: cs =>
    if ends c then [] :: linesAt ends cs
    else
      match linesAt ends cs with
      | [] => [[c]]
      | line :: lines => (c :: line) :: lines

section LinesAt

variable {ends : α → Bool}

@[simp] theorem linesAt_nil : linesAt ends [] = [] := rfl

theorem linesAt_cons_of_pos {c : α} (isEnd : ends c = true) (cs : List α) :
    linesAt ends (c :: cs) = [] :: linesAt ends cs := by
  rw [linesAt, if_pos isEnd]

theorem linesAt_cons_of_neg {c : α} (notEnd : ends c = false) (cs : List α) :
    linesAt ends (c :: cs) = match linesAt ends cs with
      | [] => [[c]]
      | line :: lines => (c :: line) :: lines := by
  rw [linesAt, if_neg (by simp [notEnd])]

/-- The first line of a text, and the lines of the rest. -/
theorem linesAt_append {line : List α} (plain : ∀ c ∈ line, ends c = false) {e : α}
    (isEnd : ends e = true) (rest : List α) :
    linesAt ends (line ++ e :: rest) = line :: linesAt ends rest := by
  induction line with
  | nil => exact linesAt_cons_of_pos isEnd rest
  | cons c line ih =>
    obtain ⟨first, later⟩ := List.forall_mem_cons.mp plain
    rw [List.cons_append, linesAt_cons_of_neg first, ih later]

theorem linesAt_of_plain {line : List α} (plain : ∀ c ∈ line, ends c = false) (ne : line ≠ []) :
    linesAt ends line = [line] := by
  induction line with
  | nil => exact absurd rfl ne
  | cons c line ih =>
    obtain ⟨first, later⟩ := List.forall_mem_cons.mp plain
    rw [linesAt_cons_of_neg first]
    cases line with
    | nil => rfl
    | cons d line => rw [ih later (List.cons_ne_nil d line)]

theorem linesAt_flatMap_append {lines : List (List α)} (plain : ∀ line ∈ lines, ∀ c ∈ line, ends c = false)
    {e : α} (isEnd : ends e = true) (rest : List α) :
    linesAt ends ((lines.flatMap fun line => line ++ [e]) ++ rest) = lines ++ linesAt ends rest := by
  induction lines with
  | nil => rfl
  | cons line lines ih =>
    obtain ⟨first, later⟩ := List.forall_mem_cons.mp plain
    rw [List.flatMap_cons, List.append_assoc, List.append_assoc, List.singleton_append,
      linesAt_append first isEnd, ih later, List.cons_append]

/-- No line contains the end of a line. -/
theorem not_ends_of_mem_linesAt {cs line : List α} (mem : line ∈ linesAt ends cs) :
    ∀ c ∈ line, ends c = false ∧ c ∈ cs := by
  induction cs generalizing line with
  | nil => cases mem
  | cons d cs ih =>
    cases isEnd : ends d with
    | true =>
      rw [linesAt_cons_of_pos isEnd] at mem
      rcases List.mem_cons.mp mem with rfl | later
      · exact fun c inLine => by cases inLine
      · exact fun c inLine => ⟨(ih later c inLine).1, List.mem_cons_of_mem d (ih later c inLine).2⟩
    | false =>
      rw [linesAt_cons_of_neg isEnd] at mem
      cases lines : linesAt ends cs with
      | nil =>
        rw [lines] at mem
        rw [List.mem_singleton.mp mem]
        exact fun c inLine => by
          rw [List.mem_singleton.mp inLine]
          exact ⟨isEnd, List.mem_cons_self⟩
      | cons first others =>
        rw [lines] at mem ih
        rcases List.mem_cons.mp mem with rfl | later
        · intro c inLine
          rcases List.mem_cons.mp inLine with rfl | inFirst
          · exact ⟨isEnd, List.mem_cons_self⟩
          · have old := ih List.mem_cons_self c inFirst
            exact ⟨old.1, List.mem_cons_of_mem d old.2⟩
        · intro c inLine
          have old := ih (List.mem_cons_of_mem first later) c inLine
          exact ⟨old.1, List.mem_cons_of_mem d old.2⟩

theorem exists_mem_linesAt {cs : List α} {c : α} (mem : c ∈ cs) (notEnd : ends c = false) :
    ∃ line ∈ linesAt ends cs, c ∈ line := by
  induction cs with
  | nil => cases mem
  | cons d cs ih =>
    cases isEnd : ends d with
    | true =>
      rw [linesAt_cons_of_pos isEnd]
      rcases List.mem_cons.mp mem with rfl | later
      · exact Bool.noConfusion (notEnd.symm.trans isEnd)
      · obtain ⟨line, inLines, inLine⟩ := ih later
        exact ⟨line, List.mem_cons_of_mem _ inLines, inLine⟩
    | false =>
      rw [linesAt_cons_of_neg isEnd]
      cases lines : linesAt ends cs with
      | nil =>
        rcases List.mem_cons.mp mem with rfl | later
        · exact ⟨[c], List.mem_cons_self, List.mem_cons_self⟩
        · obtain ⟨line, inLines, -⟩ := ih later
          rw [lines] at inLines
          cases inLines
      | cons first others =>
        rcases List.mem_cons.mp mem with rfl | later
        · exact ⟨c :: first, List.mem_cons_self, List.mem_cons_self⟩
        · obtain ⟨line, inLines, inLine⟩ := ih later
          rw [lines] at inLines
          rcases List.mem_cons.mp inLines with rfl | inOthers
          · exact ⟨d :: line, List.mem_cons_self, List.mem_cons_of_mem d inLine⟩
          · exact ⟨line, List.mem_cons_of_mem _ inOthers, inLine⟩

theorem linesAt_congr {other : α → Bool} {cs : List α} (same : ∀ c ∈ cs, ends c = other c) :
    linesAt ends cs = linesAt other cs := by
  induction cs with
  | nil => rfl
  | cons c cs ih =>
    obtain ⟨first, later⟩ := List.forall_mem_cons.mp same
    rw [linesAt, linesAt, first, ih later]

end LinesAt

/-! ### Joining lines -/

/-- `sep.join(lines)`. -/
def joinLines (sep : α) (lines : List (List α)) : List α := [sep].intercalate lines

@[simp] theorem joinLines_nil (sep : α) : joinLines sep [] = [] := rfl

@[simp] theorem joinLines_singleton (sep : α) (line : List α) : joinLines sep [line] = line := by
  simp [joinLines, List.intercalate]

theorem joinLines_cons_cons (sep : α) (line other : List α) (lines : List (List α)) :
    joinLines sep (line :: other :: lines) = line ++ sep :: joinLines sep (other :: lines) := by
  simp [joinLines, List.intercalate, List.intersperse]

theorem joinLines_concat (sep : α) (lines : List (List α)) (last : List α) :
    joinLines sep (lines ++ [last]) = (lines.flatMap fun line => line ++ [sep]) ++ last := by
  induction lines with
  | nil => simp
  | cons line lines ih =>
    cases lines with
    | nil => simp [joinLines_cons_cons]
    | cons other lines =>
      rw [List.cons_append, List.cons_append, joinLines_cons_cons, ← List.cons_append, ih]
      simp

theorem joinLines_append_sep (sep : α) {lines : List (List α)} (ne : lines ≠ []) :
    joinLines sep lines ++ [sep] = lines.flatMap fun line => line ++ [sep] := by
  obtain ⟨init, last, rfl⟩ := (List.eq_nil_or_concat lines).resolve_left ne
  rw [List.concat_eq_append, joinLines_concat, List.flatMap_append]
  simp

theorem mem_joinLines {sep : α} {lines : List (List α)} {c : α} (mem : c ∈ joinLines sep lines) :
    c = sep ∨ ∃ line ∈ lines, c ∈ line := by
  rcases List.eq_nil_or_concat lines with rfl | ⟨init, last, rfl⟩
  · cases mem
  · rw [List.concat_eq_append, joinLines_concat] at mem
    rcases List.mem_append.mp mem with inInit | inLast
    · obtain ⟨line, inLines, inLine⟩ := List.mem_flatMap.mp inInit
      rcases List.mem_append.mp inLine with inText | isSep
      · exact .inr ⟨line, by simp [inLines], inText⟩
      · exact .inl (List.mem_singleton.mp isSep)
    · exact .inr ⟨last, by simp, inLast⟩

section JoinLines

variable {ends : α → Bool} {sep : α} {lines : List (List α)}

theorem linesAt_joinLines_append (isEnd : ends sep = true)
    (plain : ∀ line ∈ lines, ∀ c ∈ line, ends c = false) (ne : lines ≠ []) :
    linesAt ends (joinLines sep lines ++ [sep]) = lines := by
  have cut := linesAt_flatMap_append plain isEnd []
  rw [List.append_nil, linesAt_nil, List.append_nil] at cut
  rw [joinLines_append_sep sep ne, cut]

theorem linesAt_joinLines {last : List α} (isEnd : ends sep = true)
    (plain : ∀ line ∈ lines ++ [last], ∀ c ∈ line, ends c = false) :
    linesAt ends (joinLines sep (lines ++ [last])) = if last = [] then lines else lines ++ [last] := by
  have plainInit : ∀ line ∈ lines, ∀ c ∈ line, ends c = false :=
    fun line mem => plain line (List.mem_append_left _ mem)
  rw [joinLines_concat, linesAt_flatMap_append plainInit isEnd]
  split_ifs with empty
  · rw [empty, linesAt_nil, List.append_nil]
  · rw [linesAt_of_plain (plain last (by simp)) empty]

end JoinLines

/-! ### `str.splitlines` -/

/-- The characters that end a line for `str.splitlines`. -/
def isLineBoundary (c : Char) : Bool :=
  [0x0a, 0x0b, 0x0c, 0x0d, 0x1c, 0x1d, 0x1e, 0x85, 0x2028, 0x2029].contains c.toNat

/-- `str.splitlines()`; `\r\n` ends one line. -/
def splitlines (text : List Char) : List (List Char) :=
  linesAt isLineBoundary (universalNewlines text)

theorem not_lineBoundary_of_mem_splitlines {text line : List Char} (mem : line ∈ splitlines text) :
    ∀ c ∈ line, isLineBoundary c = false :=
  fun c inLine => (not_ends_of_mem_linesAt mem c inLine).1

theorem splitlines_eq {text : List Char} (plain : '\r' ∉ text) :
    splitlines text = linesAt isLineBoundary text := by
  rw [splitlines, universalNewlines_eq plain]

theorem splitlines_joinLines {lines : List (List Char)} {last : List Char}
    (plain : ∀ line ∈ lines ++ [last], ∀ c ∈ line, isLineBoundary c = false) (ne : last ≠ [])
    (ended : Bool) :
    splitlines (joinLines '\n' (lines ++ [last]) ++ if ended then ['\n'] else []) = lines ++ [last] := by
  have isEnd : isLineBoundary '\n' = true := by decide
  have noReturn : '\r' ∉ joinLines '\n' (lines ++ [last]) := by
    intro mem
    rcases mem_joinLines mem with same | ⟨line, inLines, inLine⟩
    · cases same
    · exact Bool.noConfusion (plain line inLines '\r' inLine)
  cases ended with
  | true =>
    rw [if_pos rfl, splitlines_eq (by simp [noReturn])]
    exact linesAt_joinLines_append isEnd plain (by simp)
  | false =>
    rw [if_neg Bool.false_ne_true, List.append_nil, splitlines_eq noReturn, linesAt_joinLines isEnd plain,
      if_neg ne]

end AgentPark.Lib
