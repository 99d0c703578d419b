import AgentPark.Patching.Printer
import Mathlib.Algebra.GroupWithZero.Nat

/-!
# Applying hunks

A hunk names a block of old lines and the block that takes its place.  `_apply_hunks` looks for the
blocks from left to right and puts the lines together again.
-/

namespace AgentPark.Patching

open Lib

/-! ### Replacing blocks -/

section Replaces

variable {β : Type*}

/-- The blocks are found from left to right, one behind the other, and replaced; everything else
stays. -/
inductive Replaces : List (List β × List β) → List β → List β → Prop where
  | nil (rest : List β) : Replaces [] rest rest
  | cons {blocks : List (List β × List β)} {rest out : List β} (before old new : List β)
      (later : Replaces blocks rest out) :
      Replaces ((old, new) :: blocks) (before ++ old ++ rest) (before ++ new ++ out)

variable {blocks : List (List β × List β)} {lines out : List β}

theorem Replaces.length (replaces : Replaces blocks lines out) :
    out.length + (blocks.map fun block => block.1.length).sum =
      lines.length + (blocks.map fun block => block.2.length).sum := by
  induction replaces with
  | nil rest => rfl
  | cons before old new later ih =>
    simp only [List.length_append, List.map_cons, List.sum_cons]
    omega

theorem Replaces.mem_out (replaces : Replaces blocks lines out) {x : β} (mem : x ∈ lines) :
    x ∈ out ∨ ∃ block ∈ blocks, x ∈ block.1 := by
  induction replaces with
  | nil rest => exact .inl mem
  | cons before old new later ih =>
    simp only [List.mem_append] at mem
    rcases mem with (inBefore | inOld) | inRest
    · exact .inl (by simp [inBefore])
    · exact .inr ⟨_, List.mem_cons_self, inOld⟩
    · rcases ih inRest with inOut | ⟨block, inBlocks, inOld⟩
      · exact .inl (by simp [inOut])
      · exact .inr ⟨block, List.mem_cons_of_mem _ inBlocks, inOld⟩

theorem Replaces.mem_lines (replaces : Replaces blocks lines out) {x : β} (mem : x ∈ out) :
    x ∈ lines ∨ ∃ block ∈ blocks, x ∈ block.2 := by
  induction replaces with
  | nil rest => exact .inl mem
  | cons before old new later ih =>
    simp only [List.mem_append] at mem
    rcases mem with (inBefore | inNew) | inOut
    · exact .inl (by simp [inBefore])
    · exact .inr ⟨_, List.mem_cons_self, inNew⟩
    · rcases ih inOut with inRest | ⟨block, inBlocks, inNew⟩
      · exact .inl (by simp [inRest])
      · exact .inr ⟨block, List.mem_cons_of_mem _ inBlocks, inNew⟩

end Replaces

/-! ### The program -/

def textToLines (text : Text) : List Text × Bool :=
  (splitlines text, text.getLast? = some '\n' ∨ text.getLast? = some '\r')

def linesToText (lines : List Text) (trailingNewline : Bool) : Text :=
  if lines = [] then [] else joinLines '\n' lines ++ if trailingNewline then ['\n'] else []

def findBlock (lines block : List Text) (start : Nat) : Option Nat :=
  if block = [] then some start
  else
    (List.range' start (lines.length + 1 - block.length - start)).find? fun index =>
      (lines.drop index).take block.length = block

def Hunk.oldBlock (hunk : Hunk) : List Text :=
  (hunk.lines.filter fun line => line.1 = .context ∨ line.1 = .removed).map Prod.snd

def Hunk.newBlock (hunk : Hunk) : List Text :=
  (hunk.lines.filter fun line => line.1 = .context ∨ line.1 = .added).map Prod.snd

section
variable (repr : Text → String)

def formatHunkHeader (hunk : Hunk) : String :=
  if hunk.header = [] then "" else " near " ++ repr hunk.header

/-- The loop of `_apply_hunks`. -/
def applyLoop (filePath : Text) (lines : List Text) (cursor : Nat) : List Hunk → Except String (List Text)
  | [] => .ok lines
  | hunk :: hunks =>
    match findBlock lines hunk.oldBlock cursor with
    | none =>
      .error ("Could not locate update hunk in " ++ repr filePath ++ formatHunkHeader repr hunk ++ ".")
    | some position =>
      applyLoop filePath
        (lines.take position ++ hunk.newBlock ++ lines.drop (position + hunk.oldBlock.length))
        (position + hunk.newBlock.length) hunks

def applyHunks (filePath originalText : Text) (hunks : List Hunk) : Except String Text := do
  let (lines, trailingNewline) := textToLines originalText
  let lines ← applyLoop repr filePath lines 0 hunks
  return linesToText lines trailingNewline

end

/-! ### What a patched text is -/

/-- The lines of a text, cut at `\n`; behind a final `\n` there is none. -/
def newlineLines (text : Text) : List Text := linesAt (fun c => decide (c = '\n')) text

def EndsWithNewline (text : Text) : Prop := text.getLast? = some '\n'

instance (text : Text) : Decidable (EndsWithNewline text) := inferInstanceAs (Decidable (_ = _))

def Hunk.blocks (hunk : Hunk) : List Text × List Text := (hunk.oldBlock, hunk.newBlock)

/-- The result has the lines of the original with the blocks of the hunks replaced, and a final newline
where that has one. -/
def PatchesLines (original result : Text) (hunks : List Hunk) : Prop :=
  Replaces (hunks.map Hunk.blocks) (newlineLines original) (newlineLines result) ∧
    (result ≠ [] → (EndsWithNewline result ↔ EndsWithNewline original))

/-- No character but `\n` ends a line for `str.splitlines`. -/
def OnlyNewlines (text : Text) : Prop := ∀ c ∈ text, isLineBoundary c = true → c = '\n'

instance : DecidablePred OnlyNewlines := fun text => List.decidableBAll _ text

/-- The hunks, looked for in `rest`, leave an empty line at the end.  `last` is the line in front of
`rest`. -/
def leavesBlankEnd (last : Option Text) (rest : List Text) : List Hunk → Bool
  | [] => rest.getLast?.or last = some []
  | hunk :: hunks =>
    match findBlock rest hunk.oldBlock 0 with
    | none => false
    | some position =>
      leavesBlankEnd ((rest.take position ++ hunk.newBlock).getLast?.or last)
        (rest.drop (position + hunk.oldBlock.length)) hunks

/-! ### The loop -/

theorem findBlock_append (done rest block : List Text) :
    findBlock (done ++ rest) block done.length =
      (findBlock rest block 0).map (done.length + ·) := by
  unfold findBlock
  split_ifs with empty
  · rfl
  · have count : (done ++ rest).length + 1 - block.length - done.length =
        rest.length + 1 - block.length - 0 := by
      rw [List.length_append]
      omega
    have shift : List.range' done.length (rest.length + 1 - block.length - 0) =
        (List.range' 0 (rest.length + 1 - block.length - 0)).map (done.length + ·) := by
      rw [List.map_add_range', Nat.add_zero done.length]
    have same : ((fun index => decide (((done ++ rest).drop index).take block.length = block)) ∘
        fun index => done.length + index) =
        fun index => decide ((rest.drop index).take block.length = block) := by
      funext index
      rw [Function.comp_apply, List.drop_append, List.drop_of_length_le (Nat.le_add_right _ index),
        Nat.add_sub_cancel_left, List.nil_append]
    rw [count, shift, List.find?_map, same]

theorem findBlock_zero {rest block : List Text} {position : Nat}
    (found : findBlock rest block 0 = some position) :
    (rest.drop position).take block.length = block ∧ position ≤ rest.length := by
  unfold findBlock at found
  split_ifs at found with empty
  · cases found
    simp [empty]
  · have holds := List.find?_some found
    have inRange := List.mem_range'_1.mp (List.mem_of_find?_eq_some found)
    refine ⟨of_decide_eq_true holds, ?_⟩
    omega

/-- The loop replaces the blocks. -/
theorem applyLoop_spec {repr : Text → String} {filePath : Text} {hunks : List Hunk}
    {done rest lines : List Text} (applied : applyLoop repr filePath (done ++ rest) done.length hunks = .ok lines) :
    ∃ out, lines = done ++ out ∧ Replaces (hunks.map Hunk.blocks) rest out ∧
      ∀ last, leavesBlankEnd last rest hunks = decide (out.getLast?.or last = some []) := by
  induction hunks generalizing done rest with
  | nil =>
    cases applied
    exact ⟨rest, rfl, .nil rest, fun _ => rfl⟩
  | cons hunk hunks ih =>
    rw [applyLoop, findBlock_append] at applied
    cases found : findBlock rest hunk.oldBlock 0 with
    | none =>
      rw [found] at applied
      cases applied
    | some position =>
      rw [found] at applied
      obtain ⟨isBlock, le⟩ := findBlock_zero found
      have front : (done ++ rest).take (done.length + position) = done ++ rest.take position := by
        rw [List.take_length_add_append]
      have back : (done ++ rest).drop (done.length + position + hunk.oldBlock.length) =
          rest.drop (position + hunk.oldBlock.length) := by
        rw [Nat.add_assoc, List.drop_length_add_append]
      have cursor : done.length + position + hunk.newBlock.length =
          (done ++ rest.take position ++ hunk.newBlock).length := by
        rw [List.length_append, List.length_append, List.length_take, Nat.min_eq_left le]
      change applyLoop repr filePath
        ((done ++ rest).take (done.length + position) ++ hunk.newBlock ++
          (done ++ rest).drop (done.length + position + hunk.oldBlock.length))
        (done.length + position + hunk.newBlock.length) hunks = _ at applied
      rw [front, back, cursor] at applied
      obtain ⟨out, rfl, replaces, blank⟩ := ih applied
      have whole : rest = rest.take position ++ hunk.oldBlock ++
          rest.drop (position + hunk.oldBlock.length) := by
        conv_lhs => rw [← List.take_append_drop position rest,
          ← List.take_append_drop hunk.oldBlock.length (rest.drop position), isBlock, List.drop_drop]
        rw [List.append_assoc]
      refine ⟨rest.take position ++ hunk.newBlock ++ out, by simp, ?_, fun last => ?_⟩
      · have step := Replaces.cons (rest.take position) hunk.oldBlock hunk.newBlock replaces
        rw [← whole] at step
        exact step
      · rw [leavesBlankEnd, found]
        dsimp only
        rw [blank, @List.getLast?_append _ _ out, Option.or_assoc]

/-! ### The text -/

theorem oneLine_newBlock {hunk : Hunk} (oneLine : ∀ line ∈ hunk.lines, OneLine line.2) :
    ∀ text ∈ hunk.newBlock, OneLine text := by
  intro text mem
  obtain ⟨line, inLines, rfl⟩ := List.mem_map.mp mem
  exact oneLine line (List.mem_of_mem_filter inLines)

theorem oneLine_oldBlock {hunk : Hunk} (oneLine : ∀ line ∈ hunk.lines, OneLine line.2) :
    ∀ text ∈ hunk.oldBlock, OneLine text := by
  intro text mem
  obtain ⟨line, inLines, rfl⟩ := List.mem_map.mp mem
  exact oneLine line (List.mem_of_mem_filter inLines)

theorem splitlines_of_onlyNewlines {text : Text} (only : OnlyNewlines text) :
    splitlines text = newlineLines text := by
  have noReturn : '\r' ∉ text := fun mem => by
    have same := only '\r' mem (by decide)
    cases same
  rw [splitlines_eq noReturn]
  refine linesAt_congr fun c mem => ?_
  cases isBoundary : isLineBoundary c with
  | true => simp [only c mem isBoundary]
  | false =>
    symm
    rw [decide_eq_false_iff_not]
    rintro rfl
    cases isBoundary

theorem trailing_of_onlyNewlines {text : Text} (only : OnlyNewlines text) :
    (textToLines text).2 = decide (EndsWithNewline text) := by
  have noReturn : text.getLast? ≠ some '\r' := fun isLast => by
    have same := only '\r' (List.mem_of_getLast? isLast) (by decide)
    cases same
  exact decide_eq_decide.mpr ⟨fun either => either.resolve_right noReturn, .inl⟩

theorem plain_of_oneLine {lines : List Text} (oneLine : ∀ line ∈ lines, OneLine line) :
    ∀ line ∈ lines, ∀ c ∈ line, decide (c = '\n') = false := by
  intro line mem c inLine
  rw [decide_eq_false_iff_not]
  intro same
  have notBoundary := oneLine line mem c inLine
  rw [same] at notBoundary
  cases notBoundary

theorem patchesLines_linesToText {original : Text} {hunks : List Hunk} {out : List Text}
    (replaces : Replaces (hunks.map Hunk.blocks) (newlineLines original) out)
    (oneLine : ∀ line ∈ out, OneLine line) :
    PatchesLines original (linesToText out (decide (EndsWithNewline original))) hunks ↔
      EndsWithNewline original ∨ out.getLast? ≠ some [] := by
  have isEnd : decide ('\n' = '\n') = true := rfl
  have plain := plain_of_oneLine oneLine
  rcases List.eq_nil_or_concat out with rfl | ⟨init, last, rfl⟩
  · refine iff_of_true ⟨replaces, fun ne => absurd rfl ne⟩ (.inr (by simp))
  · rw [List.concat_eq_append] at *
    rw [linesToText, if_neg (by simp)]
    by_cases ends : EndsWithNewline original
    · refine iff_of_true ?_ (.inl ends)
      rw [decide_eq_true ends, if_pos rfl]
      have read : newlineLines (joinLines '\n' (init ++ [last]) ++ ['\n']) = init ++ [last] :=
        linesAt_joinLines_append isEnd plain (by simp)
      refine ⟨?_, fun _ => ?_⟩
      · rw [read]
        exact replaces
      · exact iff_of_true (by simp [EndsWithNewline]) ends
    · rw [decide_eq_false ends, if_neg Bool.false_ne_true, List.append_nil]
      have read : newlineLines (joinLines '\n' (init ++ [last])) = if last = [] then init else init ++ [last] :=
        linesAt_joinLines isEnd plain
      by_cases empty : last = []
      · refine iff_of_false (fun patches => ?_) (by simp [ends, empty])
        -- The numbers of lines tell the two apart.
        have counted := patches.1.length
        have shouldBe := replaces.length
        rw [read, if_pos empty] at counted
        rw [List.length_append, List.length_singleton] at shouldBe
        omega
      · refine iff_of_true ⟨?_, fun _ => ?_⟩ (.inr (by simp [empty]))
        · rw [read, if_neg empty]
          exact replaces
        · refine iff_of_false (fun endsHere => ?_) ends
          obtain ⟨front, c, rfl⟩ := (List.eq_nil_or_concat last).resolve_left empty
          rw [EndsWithNewline, joinLines_concat, List.concat_eq_append, ← List.append_assoc,
            List.getLast?_append, List.getLast?_singleton, Option.some_or, Option.some.injEq] at endsHere
          have notNewline := plain (front ++ [c]) (by simp) c (by simp)
          rw [endsHere] at notNewline
          cases notNewline

theorem mem_linesToText {lines : List Text} {ended : Bool} {c : Char} (mem : c ∈ linesToText lines ended) :
    c = '\n' ∨ ∃ line ∈ lines, c ∈ line := by
  unfold linesToText at mem
  split_ifs at mem with empty isEnded
  · cases mem
  · rcases List.mem_append.mp mem with inJoin | isLast
    · exact mem_joinLines inJoin
    · exact .inl (List.mem_singleton.mp isLast)
  · rw [List.append_nil] at mem
    exact mem_joinLines mem

theorem onlyNewlines_of_patchesLines {original : Text} {hunks : List Hunk} {out : List Text} {ended : Bool}
    (hunksOneLine : ∀ hunk ∈ hunks, ∀ line ∈ hunk.lines, OneLine line.2)
    (oneLine : ∀ line ∈ out, OneLine line)
    (patches : PatchesLines original (linesToText out ended) hunks) : OnlyNewlines original := by
  intro c mem isBoundary
  by_contra notNewline
  have ne : decide (c = '\n') = false := decide_eq_false notNewline
  obtain ⟨line, inLines, inLine⟩ : ∃ line ∈ newlineLines original, c ∈ line := exists_mem_linesAt mem ne
  rcases patches.1.mem_out inLines with inOut | ⟨block, inBlocks, inOld⟩
  · rcases mem_linesToText (not_ends_of_mem_linesAt inOut c inLine).2 with same | ⟨other, inOther, inOtherLine⟩
    · exact notNewline same
    · have notBoundary := oneLine other inOther c inOtherLine
      rw [isBoundary] at notBoundary
      cases notBoundary
  · obtain ⟨hunk, inHunks, rfl⟩ := List.mem_map.mp inBlocks
    have notBoundary := oneLine_oldBlock (hunksOneLine hunk inHunks) line inOld c inLine
    rw [isBoundary] at notBoundary
    cases notBoundary

/-! ### The hunks of a patch -/

/-- The lines of the hunks of an operation stand on one line. -/
def Operation.HunksOneLine (operation : Operation) : Prop :=
  ∀ path target hunks, operation = .update path target hunks →
    ∀ hunk ∈ hunks, ∀ line ∈ hunk.lines, OneLine line.2

section
variable {repr : Text → String} {filePath : Text} {lines rest : List Text}

theorem oneLine_parseHunkLines {hunkLines : List (LineKind × Text)} (oneLine : ∀ line ∈ lines, OneLine line)
    (parsed : parseHunkLines repr filePath lines = .ok (hunkLines, rest)) :
    ∀ line ∈ hunkLines, OneLine line.2 := by
  induction lines generalizing hunkLines with
  | nil =>
    cases parsed
    exact List.forall_mem_nil _
  | cons line lines ih =>
    obtain ⟨first, later⟩ := List.forall_mem_cons.mp oneLine
    unfold parseHunkLines at parsed
    split_ifs at parsed with stops
    · cases parsed
      exact List.forall_mem_nil _
    · split at parsed
      · obtain ⟨⟨found, left⟩, isFound, same⟩ := bind_eq_ok.mp parsed
        cases same
        exact List.forall_mem_cons.mpr ⟨fun c mem => first c (List.mem_of_mem_tail mem), ih later isFound⟩
      · cases parsed

theorem oneLine_parseHunk {line : Text} {hunk : Hunk} (oneLine : ∀ line ∈ lines, OneLine line)
    (parsed : parseHunk repr filePath line lines = .ok (hunk, rest)) :
    ∀ line ∈ hunk.lines, OneLine line.2 := by
  obtain ⟨⟨hunkLines, left⟩, isBody, ran⟩ := bind_eq_ok.mp parsed
  dsimp only at ran
  split_ifs at ran
  cases ran
  exact oneLine_parseHunkLines oneLine isBody

theorem oneLine_parseUpdateFile {moveTo : Option Text} {hunks : List Hunk} {operation : Operation}
    (oneLine : ∀ line ∈ lines, OneLine line)
    (before : ∀ hunk ∈ hunks, ∀ line ∈ hunk.lines, OneLine line.2)
    (parsed : parseUpdateFile repr filePath moveTo hunks lines = .ok (operation, rest)) :
    operation.HunksOneLine := by
  fun_induction parseUpdateFile repr filePath moveTo hunks lines with
  | case2 | case3 | case5 | case8 => cases parsed
  | case1 | case7 =>
    cases parsed
    rintro path target found ⟨⟩
    exact before
  | case4 _ _ _ _ _ _ _ _ ih => exact ih (List.forall_mem_cons.mp oneLine).2 before parsed
  | case6 _ _ _ _ _ _ _ _ isHunk ih =>
    have later := (List.forall_mem_cons.mp oneLine).2
    refine ih (fun line mem => later line ((parseHunk_suffix repr isHunk).subset mem)) ?_ parsed
    exact List.forall_mem_append.mpr ⟨before, List.forall_mem_singleton.mpr (oneLine_parseHunk later isHunk)⟩

theorem oneLine_parseSections {operations : List Operation} (oneLine : ∀ line ∈ lines, OneLine line)
    (parsed : parseSections repr lines = .ok operations) : ∀ operation ∈ operations, operation.HunksOneLine := by
  fun_induction parseSections repr lines generalizing operations with
  | case1 | case2 =>
    cases parsed
    exact List.forall_mem_nil _
  | case3 _ _ ih => exact ih (List.forall_mem_cons.mp oneLine).2 parsed
  | case4 | case6 | case9 => cases parsed
  | case5 _ _ _ _ _ _ _ _ isAdd ih =>
    have later := (List.forall_mem_cons.mp oneLine).2
    obtain ⟨others, isOthers, same⟩ := bind_eq_ok.mp parsed
    cases same
    refine List.forall_mem_cons.mpr ⟨?_, ih (fun line mem => later line
      ((parseAddFile_suffix repr isAdd).subset mem)) isOthers⟩
    rintro path target hunks ⟨⟩
  | case7 _ _ _ _ _ _ _ _ _ isUpdate ih =>
    have later := (List.forall_mem_cons.mp oneLine).2
    obtain ⟨others, isOthers, same⟩ := bind_eq_ok.mp parsed
    cases same
    exact List.forall_mem_cons.mpr ⟨oneLine_parseUpdateFile later (List.forall_mem_nil _) isUpdate,
      ih (fun line mem => later line ((parseUpdateFile_suffix repr isUpdate).subset mem)) isOthers⟩
  | case8 _ _ _ _ _ _ _ _ ih =>
    obtain ⟨others, isOthers, same⟩ := bind_eq_ok.mp parsed
    cases same
    refine List.forall_mem_cons.mpr ⟨?_, ih (List.forall_mem_cons.mp oneLine).2 isOthers⟩
    rintro path target hunks ⟨⟩

/-- The lines of the hunks that `_parse_patch` finds are pieces of lines of the patch. -/
theorem parsePatch_oneLine {patch : Text} {operations : List Operation}
    (parsed : parsePatch repr patch = .ok operations) : ∀ operation ∈ operations, operation.HunksOneLine := by
  unfold parsePatch at parsed
  split_ifs at parsed
  split at parsed
  · cases parsed
  · rename_i first lines isLines
    split_ifs at parsed
    obtain ⟨found, isFound, same⟩ := bind_eq_ok.mp parsed
    split_ifs at same
    cases same
    refine oneLine_parseSections (fun line mem => ?_) isFound
    exact not_lineBoundary_of_mem_splitlines (isLines ▸ List.mem_cons_of_mem first mem)

end

/-- What `_apply_hunks` makes of a text has the blocks of the hunks replaced and all else unchanged if
and only if only `\n` ends lines in the text, and it has a final newline or is not left with an empty
line at the end. -/
theorem applyHunks_patches_iff (repr : Text → String) (filePath original result : Text) (hunks : List Hunk)
    (hunksOneLine : ∀ hunk ∈ hunks, ∀ line ∈ hunk.lines, OneLine line.2)
    (applied : applyHunks repr filePath original hunks = .ok result) :
    PatchesLines original result hunks ↔
      OnlyNewlines original ∧
        (EndsWithNewline original ∨ leavesBlankEnd none (newlineLines original) hunks = false) := by
  obtain ⟨lines, isLines, same⟩ := bind_eq_ok.mp applied
  obtain ⟨out, same', replaces, blank⟩ :=
    @applyLoop_spec repr filePath hunks [] (splitlines original) lines isLines
  rw [List.nil_append] at same'
  subst same'
  injection same with same
  have isResult : linesToText lines (textToLines original).2 = result := same
  rw [← isResult]
  have oneLine : ∀ line ∈ lines, OneLine line := by
    intro line mem
    rcases replaces.mem_lines mem with inLines | ⟨block, inBlocks, inNew⟩
    · exact not_lineBoundary_of_mem_splitlines inLines
    · obtain ⟨hunk, inHunks, rfl⟩ := List.mem_map.mp inBlocks
      exact oneLine_newBlock (hunksOneLine hunk inHunks) line inNew
  constructor
  · intro patches
    have only := onlyNewlines_of_patchesLines hunksOneLine oneLine patches
    rw [splitlines_of_onlyNewlines only] at replaces blank
    rw [trailing_of_onlyNewlines only] at patches
    refine ⟨only, ?_⟩
    rw [blank, Option.or_none, decide_eq_false_iff_not]
    exact (patchesLines_linesToText replaces oneLine).mp patches
  · rintro ⟨only, either⟩
    rw [splitlines_of_onlyNewlines only] at replaces blank
    rw [blank, Option.or_none, decide_eq_false_iff_not] at either
    rw [trailing_of_onlyNewlines only]
    exact (patchesLines_linesToText replaces oneLine).mpr either

/-- The hunk that replaces the line `b` by `c`. -/
def replaceLine : Hunk where
  header := []
  lines := [(.removed, ['b']), (.added, ['c'])]

theorem replaceLine_oneLine : ∀ hunk ∈ [replaceLine], ∀ line ∈ hunk.lines, OneLine line.2 := by
  decide

/-- A patch with that hunk. -/
def replacePatch : Text :=
  "*** Begin Patch\n*** Update File: f\n@@\n-b\n+c\n*** End Patch".toList

theorem parsePatch_replacePatch : parsePatch String.ofList replacePatch = .ok [.update ['f'] none [replaceLine]] := by
  decide +kernel

/-- The text that was written is the one the patch describes. -/
theorem applyHunks_patches_iff_replacePatch :
    PatchesLines ['a', '\n', 'b', '\n'] ['a', '\n', 'c', '\n'] [replaceLine] := by
  have applied : applyHunks String.ofList [] ['a', '\n', 'b', '\n'] [replaceLine] =
      .ok ['a', '\n', 'c', '\n'] := rfl
  have oneLine := parsePatch_oneLine parsePatch_replacePatch _ List.mem_cons_self _ _ _ rfl
  refine (applyHunks_patches_iff String.ofList [] _ _ _ oneLine applied).mpr ⟨?_, .inl rfl⟩
  decide

/-- A form feed becomes a line break. -/
theorem applyHunks_patches_fails :
    ¬ ∀ (repr : Text → String) (filePath original result : Text) (hunks : List Hunk),
      (∀ hunk ∈ hunks, ∀ line ∈ hunk.lines, OneLine line.2) →
        applyHunks repr filePath original hunks = .ok result → PatchesLines original result hunks := by
  intro claimed
  have applied : applyHunks String.ofList [] ['a', Char.ofNat 12, 'b', '\n'] [replaceLine] =
      .ok (linesToText [['a'], ['c']] true) := rfl
  have oneLine : ∀ line ∈ [['a'], ['c']], OneLine line := by
    decide
  have only := onlyNewlines_of_patchesLines replaceLine_oneLine oneLine
    (claimed _ _ _ _ _ replaceLine_oneLine applied)
  have same := only (Char.ofNat 12) (by simp) (by decide)
  exact absurd same (by decide)

end AgentPark.Patching
