import AgentPark.Lib.PyText
import Mathlib.Data.List.Find

/-!
# The passages of a text file

A text is cut into passages that overlap.  The rule for the cuts is written twice: for a whole text
(`splitText`), and for a buffer that is filled while the file is read (`textPassages`).
-/

namespace AgentPark.Knowledge

open Lib

/-- The settings of a library that concern passages. -/
structure LibraryConfig where
  chunkSize : Nat
  chunkOverlap : Nat
  size_ge : 256 ≤ chunkSize
  size_le : chunkSize ≤ 8000
  overlap_le : chunkOverlap ≤ 1000
  overlap_lt : chunkOverlap < chunkSize

structure Passage where
  text : List Char
  page : Option Nat
  line : Option Nat
deriving DecidableEq

/-- `text.rfind("\n", low, high)` -/
def rfindNewline (text : List Char) (low high : Nat) : Option Nat :=
  (List.range' low (high - low)).reverse.find? fun i => text[i]? = some '\n'

/-- `not piece.strip()` -/
def isBlank (piece : List Char) : Bool := piece.all pyIsSpace

/-- `text[start:stop]` -/
def slice (text : List Char) (start stop : Nat) : List Char := (text.drop start).take (stop - start)

/-- The passage of a piece, unless it is blank. -/
def passageOf (piece : List Char) (page line : Option Nat) : List Passage :=
  if isBlank piece then [] else [⟨piece, page, line⟩]

/-! ### A whole text -/

section

variable (size overlap : Nat)

/-- The end of the piece that starts at a place. -/
def chunkEnd (text : List Char) (start : Nat) : Nat :=
  let stop := min (start + size) text.length
  if stop < text.length then
    match rfindNewline text (start + size / 2) stop with
    | some boundary => if start < boundary then boundary + 1 else stop
    | none => stop
  else stop

/-- `split_text`, from a place on -/
def splitText (text : List Char) (page line : Option Nat) (start : Nat) : List Passage :=
  if start < text.length then
    let stop := chunkEnd size text start
    let passage := passageOf (slice text start stop) page line
    if stop = text.length then passage
    else
      let nextStart := max (start + 1) (stop - overlap)
      passage ++ splitText text page (line.map (· + (slice text start nextStart).count '\n')) nextStart
  else []
termination_by text.length - start

/-- The places of the pieces with their lengths, from a place on. -/
def spans (text : List Char) (start : Nat) : List (Nat × Nat) :=
  if start < text.length then
    let stop := chunkEnd size text start
    if stop = text.length then [(start, stop - start)]
    else (start, stop - start) :: spans text (max (start + 1) (stop - overlap))
  else []
termination_by text.length - start

end

/-! ### A file -/

/-- `xs[:i]` -/
def sliceTo (xs : List Char) (i : Int) : List Char :=
  if 0 ≤ i then xs.take i.toNat else xs.take (xs.length - (-i).toNat)

/-- `xs[i:]` -/
def sliceFrom (xs : List Char) (i : Int) : List Char :=
  if 0 ≤ i then xs.drop i.toNat else xs.drop (xs.length - (-i).toNat)

/-- The end of the first piece of the buffer. -/
def bufferEnd (size : Nat) (buffer : List Char) : Nat :=
  match rfindNewline buffer (size / 2) size with
  | some boundary => if 0 < boundary then boundary + 1 else size
  | none => size

/-- The branch of `passages` for text files: `rest` is what has not been read.  It runs for ever if it has not
ended after any number of rounds. -/
def textPassages (config : LibraryConfig) : Nat → (rest buffer : List Char) → Nat → Option (List Passage)
  | 0, _, _, _ => none
  | fuel + 1, rest, buffer, line =>
    if config.chunkSize < buffer.length then
      let stop := bufferEnd config.chunkSize buffer
      let advance : Int := (stop : Int) - config.chunkOverlap
      (textPassages config fuel rest (sliceFrom buffer advance)
        (line + (sliceTo buffer advance).count '\n')).map
          (passageOf (buffer.take stop) none (some line) ++ ·)
    else
      let part := rest.take (config.chunkSize * 8)
      if part = [] then
        some (splitText config.chunkSize config.chunkOverlap buffer none (some line) 0)
      else textPassages config fuel (rest.drop (config.chunkSize * 8)) (buffer ++ part) line

/-! ### The cuts of a text -/

section

variable {size overlap : Nat} {text : List Char} {start : Nat}

theorem rfindNewline_spec {low high boundary : Nat} (found : rfindNewline text low high = some boundary) :
    low ≤ boundary ∧ boundary < high ∧ text[boundary]? = some '\n' := by
  have newline := List.find?_some found
  have mem := List.mem_of_find?_eq_some found
  rw [List.mem_reverse, List.mem_range'_1] at mem
  exact ⟨mem.1, by omega, of_decide_eq_true newline⟩

theorem chunkEnd_spec (pos : 0 < size) (inside : start < text.length) :
    start < chunkEnd size text start ∧ chunkEnd size text start ≤ start + size ∧
      chunkEnd size text start ≤ text.length ∧
      (chunkEnd size text start < text.length → start + size / 2 < chunkEnd size text start) := by
  unfold chunkEnd
  dsimp only
  split
  · split
    · rename_i boundary found
      have between := rfindNewline_spec found
      split
      · omega
      · omega
    · omega
  · omega

theorem rfindNewline_drop (text : List Char) (start low high : Nat) :
    rfindNewline text (start + low) (start + high) =
      (rfindNewline (text.drop start) low high).map (start + ·) := by
  have width : start + high - (start + low) = high - low := by omega
  have places : (fun i => decide ((text.drop start)[i]? = some '\n')) =
      (fun i => decide (text[i]? = some '\n')) ∘ (start + ·) := by
    funext i
    rw [Function.comp_apply, List.getElem?_drop]
  rw [rfindNewline, rfindNewline, width, ← List.map_add_range', ← List.map_reverse, List.find?_map, places]

theorem rfindNewline_append {front back : List Char} {low high : Nat} (within : high ≤ front.length) :
    rfindNewline (front ++ back) low high = rfindNewline front low high := by
  rw [rfindNewline, rfindNewline]
  refine List.find?_congr fun i mem => ?_
  rw [List.mem_reverse, List.mem_range'_1] at mem
  rw [List.getElem?_append_left (by omega)]

theorem chunkEnd_eq {buffer rest : List Char} (isText : text.drop start = buffer ++ rest)
    (long : size < buffer.length) : chunkEnd size text start = start + bufferEnd size buffer := by
  have length := congrArg List.length isText
  rw [List.length_drop, List.length_append] at length
  have stop : min (start + size) text.length = start + size := by omega
  have found := rfindNewline_drop text start (size / 2) size
  rw [isText, rfindNewline_append long.le] at found
  unfold chunkEnd bufferEnd
  rw [stop, if_pos (by omega), found]
  cases rfindNewline buffer (size / 2) size with
  | none => rfl
  | some boundary =>
    rw [Option.map_some]
    dsimp only
    split
    · rename_i behind
      rw [if_pos (by omega)]
      omega
    · rename_i notBehind
      rw [if_neg (by omega)]

/-! ### The pieces -/

theorem spans_of_not_lt (outside : ¬ start < text.length) : spans size overlap text start = [] := by
  rw [spans, if_neg outside]

theorem spans_of_last (inside : start < text.length) (last : chunkEnd size text start = text.length) :
    spans size overlap text start = [(start, chunkEnd size text start - start)] := by
  rw [spans, if_pos inside, if_pos last]

theorem spans_of_cut (inside : start < text.length) (cut : chunkEnd size text start ≠ text.length) :
    spans size overlap text start =
      (start, chunkEnd size text start - start) ::
        spans size overlap text (max (start + 1) (chunkEnd size text start - overlap)) := by
  rw [spans, if_pos inside, if_neg cut]

theorem mem_spans (pos : 0 < size) {span : Nat × Nat} (mem : span ∈ spans size overlap text start) :
    start ≤ span.1 ∧ 0 < span.2 ∧ span.2 ≤ size ∧ span.1 + span.2 ≤ text.length := by
  induction start using spans.induct size overlap text with
  | case1 start inside _ last =>
    have piece := chunkEnd_spec pos inside
    rw [spans_of_last inside last, List.mem_singleton] at mem
    rw [mem]
    dsimp only
    omega
  | case2 start inside _ cut ih =>
    have piece := chunkEnd_spec pos inside
    rw [spans_of_cut inside cut, List.mem_cons] at mem
    rcases mem with first | later
    · rw [first]
      dsimp only
      omega
    · have := ih later
      omega
  | case3 start outside =>
    rw [spans_of_not_lt outside] at mem
    cases mem

theorem pairwise_spans (pos : 0 < size) : ((spans size overlap text start).map Prod.fst).Pairwise (· < ·) := by
  induction start using spans.induct size overlap text with
  | case1 start inside _ last =>
    rw [spans_of_last inside last]
    exact List.pairwise_singleton _ _
  | case2 start inside _ cut ih =>
    rw [spans_of_cut inside cut, List.map_cons, List.pairwise_cons]
    refine ⟨fun place mem => ?_, ih⟩
    obtain ⟨span, isSpan, rfl⟩ := List.mem_map.mp mem
    have := mem_spans pos isSpan
    omega
  | case3 start outside =>
    rw [spans_of_not_lt outside]
    exact List.Pairwise.nil

theorem exists_span (pos : 0 < size) {i : Nat} (behind : start ≤ i) (inside : i < text.length) :
    ∃ span ∈ spans size overlap text start, span.1 ≤ i ∧ i < span.1 + span.2 := by
  induction start using spans.induct size overlap text with
  | case1 start within _ last =>
    rw [spans_of_last within last]
    exact ⟨_, List.mem_singleton_self _, behind, by dsimp only; omega⟩
  | case2 start within stop cut ih =>
    have piece := chunkEnd_spec pos within
    rw [spans_of_cut within cut]
    by_cases first : i < chunkEnd size text start
    · exact ⟨_, List.mem_cons_self, behind, by dsimp only; omega⟩
    · obtain ⟨span, mem, around⟩ := ih (by omega)
      exact ⟨span, List.mem_cons_of_mem _ mem, around⟩
  | case3 start outside => omega

theorem splitText_of_cut {page line : Option Nat} (inside : start < text.length)
    (cut : chunkEnd size text start ≠ text.length) {stop next : Nat} (isStop : chunkEnd size text start = stop)
    (isNext : max (start + 1) (stop - overlap) = next) :
    splitText size overlap text page line start =
      passageOf (slice text start stop) page line ++
        splitText size overlap text page (line.map (· + (slice text start next).count '\n')) next := by
  rw [splitText, if_pos inside, if_neg cut, isStop, isNext]

theorem count_take_slice {stop : Nat} (ordered : start ≤ stop) :
    (text.take start).count '\n' + (slice text start stop).count '\n' = (text.take stop).count '\n' := by
  have whole : stop = start + (stop - start) := by omega
  rw [slice, ← List.count_append, ← List.take_add, ← whole]

/-- The passage of a piece. -/
def passageAt (text : List Char) (page : Option Nat) (span : Nat × Nat) : List Passage :=
  passageOf ((text.drop span.1).take span.2) page (some (1 + (text.take span.1).count '\n'))

/-- The passages are the pieces between the cuts that are not blank. -/
theorem splitText_eq (page : Option Nat) (text : List Char) (start : Nat) :
    splitText size overlap text page (some (1 + (text.take start).count '\n')) start =
      (spans size overlap text start).flatMap (passageAt text page) := by
  induction start using spans.induct size overlap text with
  | case1 start within _ last =>
    rw [spans_of_last within last, splitText, if_pos within, List.flatMap_singleton, if_pos last]
    rfl
  | case2 start within stop cut ih =>
    have lines : (some (1 + (text.take start).count '\n')).map (· + (slice text start
        (max (start + 1) (chunkEnd size text start - overlap))).count '\n') =
        some (1 + (text.take (max (start + 1) (chunkEnd size text start - overlap))).count '\n') := by
      rw [Option.map_some, Nat.add_assoc, count_take_slice (by omega)]
    rw [spans_of_cut within cut, splitText_of_cut within cut rfl rfl, List.flatMap_cons, lines, ih]
    rfl
  | case3 start outside =>
    rw [spans_of_not_lt outside, splitText, if_neg outside]
    rfl

/-! ### The buffer -/

theorem sliceFrom_of_nonneg (xs : List Char) {stop overlap : Nat} (behind : overlap ≤ stop) :
    sliceFrom xs ((stop : Int) - overlap) = xs.drop (stop - overlap) := by
  have nonneg : (0 : Int) ≤ (stop : Int) - overlap := by omega
  have same : ((stop : Int) - overlap).toNat = stop - overlap := by omega
  rw [sliceFrom, if_pos nonneg, same]

theorem sliceTo_of_nonneg (xs : List Char) {stop overlap : Nat} (behind : overlap ≤ stop) :
    sliceTo xs ((stop : Int) - overlap) = xs.take (stop - overlap) := by
  have nonneg : (0 : Int) ≤ (stop : Int) - overlap := by omega
  have same : ((stop : Int) - overlap).toNat = stop - overlap := by omega
  rw [sliceTo, if_pos nonneg, same]

theorem bufferEnd_le (buffer : List Char) : bufferEnd size buffer ≤ size := by
  rw [bufferEnd]
  split
  · rename_i boundary found
    have between := rfindNewline_spec found
    split
    · omega
    · omega
  · omega

theorem splitText_rest {buffer : List Char} (isText : text.drop start = buffer)
    (short : buffer.length ≤ size) (page line : Option Nat) :
    splitText size overlap buffer page line 0 = splitText size overlap text page line start := by
  have length := congrArg List.length isText
  rw [List.length_drop] at length
  by_cases inside : start < text.length
  · have filled : 0 < buffer.length := by omega
    have last : chunkEnd size text start = text.length := by
      have stop : min (start + size) text.length = text.length := by omega
      rw [chunkEnd, stop, if_neg (Nat.lt_irrefl _)]
    have lastBuffer : chunkEnd size buffer 0 = buffer.length := by
      have stop : min (0 + size) buffer.length = buffer.length := by omega
      rw [chunkEnd, stop, if_neg (Nat.lt_irrefl _)]
    rw [splitText, if_pos filled, if_pos lastBuffer, splitText, if_pos inside, if_pos last, last, lastBuffer,
      slice, slice, isText, List.drop_zero, Nat.sub_zero, length]
  · have empty : ¬ 0 < buffer.length := by omega
    rw [splitText, if_neg empty, splitText, if_neg inside]

end

/-- Every piece that is cut off is longer than the overlap. -/
def CutsBehindOverlap (config : LibraryConfig) (text : List Char) (start : Nat) : Prop :=
  ∀ span ∈ spans config.chunkSize config.chunkOverlap text start,
    span.1 + span.2 < text.length → config.chunkOverlap < span.2

section

variable {config : LibraryConfig} {text : List Char}

/-- **The buffer gives the passages of the text** as long as every cut is behind the overlap. -/
theorem textPassages_eq (fuel : Nat) {rest buffer : List Char} {start : Nat} (line : Nat)
    (isText : text.drop start = buffer ++ rest) (enough : text.length - start + rest.length < fuel)
    (behind : CutsBehindOverlap config text start) :
    textPassages config fuel rest buffer line =
      some (splitText config.chunkSize config.chunkOverlap text none (some line) start) := by
  have size := config.size_ge
  induction fuel generalizing rest buffer start line with
  | zero => omega
  | succ fuel ih =>
    have length := congrArg List.length isText
    rw [List.length_drop, List.length_append] at length
    rw [textPassages]
    split
    · rename_i long
      have inside : start < text.length := by omega
      have stop := chunkEnd_eq isText long
      have short := @bufferEnd_le config.chunkSize buffer
      have cut : chunkEnd config.chunkSize text start ≠ text.length := by omega
      have cuts := behind
      rw [CutsBehindOverlap, spans_of_cut inside cut, List.forall_mem_cons] at cuts
      obtain ⟨first, later⟩ := cuts
      have overlap : config.chunkOverlap < bufferEnd config.chunkSize buffer := by
        dsimp only at first
        omega
      have next : max (start + 1) (start + bufferEnd config.chunkSize buffer - config.chunkOverlap) =
          start + (bufferEnd config.chunkSize buffer - config.chunkOverlap) := by omega
      have piece : slice text start (start + bufferEnd config.chunkSize buffer) =
          buffer.take (bufferEnd config.chunkSize buffer) := by
        rw [slice, isText, Nat.add_sub_cancel_left, List.take_append_of_le_length (by omega)]
      have passed : slice text start (start + (bufferEnd config.chunkSize buffer - config.chunkOverlap)) =
          buffer.take (bufferEnd config.chunkSize buffer - config.chunkOverlap) := by
        rw [slice, isText, Nat.add_sub_cancel_left, List.take_append_of_le_length (by omega)]
      have isRest : text.drop (start + (bufferEnd config.chunkSize buffer - config.chunkOverlap)) =
          buffer.drop (bufferEnd config.chunkSize buffer - config.chunkOverlap) ++ rest := by
        rw [← List.drop_drop, isText, List.drop_append_of_le_length (by omega)]
      rw [stop, next] at later
      dsimp only
      rw [sliceFrom_of_nonneg _ overlap.le, sliceTo_of_nonneg _ overlap.le, ih _ isRest (by omega) later,
        splitText_of_cut inside cut stop next, piece, passed]
      rfl
    · rename_i short
      dsimp only
      split
      · rename_i none
        have ended : rest = [] := by
          rw [List.take_eq_nil_iff] at none
          exact none.resolve_left (by omega)
        rw [ended, List.append_nil] at isText
        rw [splitText_rest isText (by omega)]
      · rename_i read
        have filled : 0 < rest.length := by
          rw [List.length_pos_iff]
          intro none
          rw [none, List.take_nil] at read
          exact read rfl
        refine ih line ?_ ?_ behind
        · rw [isText, List.append_assoc, List.take_append_drop]
        · rw [List.length_drop]
          omega

/-- The passages are pieces of the text of at most the size, one starting behind the other, with the lines they
start on, and every character that is no white space is in one. -/
def ArePieces (size : Nat) (text : List Char) (passages : List Passage) : Prop :=
  ∃ places : List (Nat × Nat),
    passages = places.map (fun place =>
      ⟨(text.drop place.1).take place.2, none, some (1 + (text.take place.1).count '\n')⟩) ∧
    (∀ place ∈ places, place.2 ≤ size ∧ place.1 + place.2 ≤ text.length) ∧
    (places.map Prod.fst).Pairwise (· < ·) ∧
    ∀ i c, text[i]? = some c → pyIsSpace c = false → ∃ place ∈ places, place.1 ≤ i ∧ i < place.1 + place.2

/-- The file is read to its end and gives the passages of its text, which cover it. -/
structure Covers (config : LibraryConfig) (text : List Char) : Prop where
  streamed : ∃ fuel, textPassages config fuel text [] 1 =
    some (splitText config.chunkSize config.chunkOverlap text none (some 1) 0)
  pieces : ArePieces config.chunkSize text
    (splitText config.chunkSize config.chunkOverlap text none (some 1) 0)

theorem flatMap_passageAt (text : List Char) (page : Option Nat) (places : List (Nat × Nat)) :
    places.flatMap (passageAt text page) =
      (places.filter fun place => !isBlank ((text.drop place.1).take place.2)).map fun place =>
        ⟨(text.drop place.1).take place.2, page, some (1 + (text.take place.1).count '\n')⟩ := by
  induction places with
  | nil => rfl
  | cons place places ih =>
    rw [List.flatMap_cons, ih, passageAt, passageOf, List.filter_cons]
    cases isBlank ((text.drop place.1).take place.2) with
    | true => rfl
    | false => rfl

theorem splitText_pieces (config : LibraryConfig) (text : List Char) :
    ArePieces config.chunkSize text
      (splitText config.chunkSize config.chunkOverlap text none (some 1) 0) := by
  have size := config.size_ge
  have pos : 0 < config.chunkSize := by omega
  have whole := @splitText_eq config.chunkSize config.chunkOverlap none text 0
  rw [List.take_zero, List.count_nil, flatMap_passageAt] at whole
  refine ⟨_, whole, fun place mem => ?_, ?_, fun i c found notSpace => ?_⟩
  · have piece := mem_spans pos (List.mem_of_mem_filter mem)
    exact ⟨piece.2.2.1, piece.2.2.2⟩
  · exact (pairwise_spans pos).sublist (List.filter_sublist.map Prod.fst)
  · obtain ⟨inside, isChar⟩ := List.getElem?_eq_some_iff.mp found
    obtain ⟨place, mem, around⟩ :=
      @exists_span config.chunkSize config.chunkOverlap text 0 pos i (Nat.zero_le i) inside
    have inPiece : ((text.drop place.1).take place.2)[i - place.1]? = some c := by
      rw [List.getElem?_take_of_lt (by omega), List.getElem?_drop, Nat.add_sub_cancel' around.1, found]
    have visible : isBlank ((text.drop place.1).take place.2) = false := by
      rw [isBlank, List.all_eq_false]
      exact ⟨c, List.mem_of_getElem? inPiece, by rw [notSpace]; exact Bool.false_ne_true⟩
    exact ⟨place, List.mem_filter.mpr ⟨mem, by rw [visible]; rfl⟩, around⟩

theorem cutsBehindOverlap_of_half {start : Nat} (half : config.chunkOverlap ≤ config.chunkSize / 2) :
    CutsBehindOverlap config text start := by
  have size := config.size_ge
  have pos : 0 < config.chunkSize := by omega
  unfold CutsBehindOverlap
  induction start using spans.induct config.chunkSize config.chunkOverlap text with
  | case1 start within _ last =>
    rw [spans_of_last within last, List.forall_mem_singleton]
    dsimp only
    omega
  | case2 start within stop cut ih =>
    have piece := chunkEnd_spec pos within
    rw [spans_of_cut within cut, List.forall_mem_cons]
    refine ⟨fun inside => ?_, ih⟩
    have behind := piece.2.2.2 (by omega)
    dsimp only
    omega
  | case3 start outside =>
    rw [spans_of_not_lt outside]
    exact List.forall_mem_nil _

/-! ### Texts that are read for ever -/

/-- A line whose end is at a place, and behind it more than a piece without a line's end. -/
def lineThenLong (place size : Nat) : List Char := List.replicate place 'a' ++ '\n' :: List.replicate size 'a'

theorem getElem?_lineThenLong {place size i : Nat} (newline : (lineThenLong place size)[i]? = some '\n') :
    i = place := by
  by_contra other
  have char : 'a' = '\n' := by
    rw [lineThenLong] at newline
    by_cases before : i < place
    · rw [List.getElem?_append_left (by rwa [List.length_replicate]),
        List.getElem?_replicate_of_lt before] at newline
      exact Option.some.inj newline
    · rw [List.getElem?_append_right (by rw [List.length_replicate]; omega), List.length_replicate] at newline
      obtain ⟨j, isNext⟩ : ∃ j, i - place = j + 1 := ⟨i - place - 1, by omega⟩
      rw [isNext, List.getElem?_cons_succ] at newline
      exact List.eq_of_mem_replicate (List.mem_of_getElem? newline) |>.symm
  exact absurd char (by decide)

theorem rfindNewline_lineThenLong {place size low high : Nat} (behind : low ≤ place) (before : place < high) :
    rfindNewline (lineThenLong place size) low high = some place := by
  cases found : rfindNewline (lineThenLong place size) low high with
  | none =>
    rw [rfindNewline, List.find?_eq_none] at found
    have mem : place ∈ (List.range' low (high - low)).reverse := by
      rw [List.mem_reverse, List.mem_range'_1]
      omega
    have newline : (lineThenLong place size)[place]? = some '\n' := by
      have width : (List.replicate place 'a').length = place := List.length_replicate
      rw [lineThenLong, List.getElem?_append_right width.le, width, Nat.sub_self, List.getElem?_cons_zero]
    exact absurd (decide_eq_true newline) (found place mem)
  | some boundary => rw [getElem?_lineThenLong (rfindNewline_spec found).2.2]

theorem textPassages_endless {buffer : List Char} (long : config.chunkSize < buffer.length)
    (stays : bufferEnd config.chunkSize buffer = config.chunkOverlap) (fuel : Nat) (rest : List Char) (line : Nat) :
    textPassages config fuel rest buffer line = none := by
  induction fuel generalizing line with
  | zero => rfl
  | succ fuel ih =>
    rw [textPassages, if_pos long]
    dsimp only
    rw [stays, sliceFrom_of_nonneg _ le_rfl, Nat.sub_self, List.drop_zero, ih, Option.map_none]

theorem not_covers (large : config.chunkSize / 2 < config.chunkOverlap) :
    ¬ Covers config (lineThenLong (config.chunkOverlap - 1) config.chunkSize) := by
  have size := config.size_ge
  have overlap := config.overlap_lt
  have length : (lineThenLong (config.chunkOverlap - 1) config.chunkSize).length =
      config.chunkOverlap + config.chunkSize := by
    rw [lineThenLong, List.length_append, List.length_cons, List.length_replicate, List.length_replicate]
    omega
  have boundary := @rfindNewline_lineThenLong (config.chunkOverlap - 1) config.chunkSize (config.chunkSize / 2)
    config.chunkSize (by omega) (by omega)
  have stays : bufferEnd config.chunkSize (lineThenLong (config.chunkOverlap - 1) config.chunkSize) =
      config.chunkOverlap := by
    rw [bufferEnd, boundary]
    dsimp only
    rw [if_pos (by omega)]
    omega
  intro covers
  obtain ⟨fuel, ended⟩ := covers.streamed
  cases fuel with
  | zero => cases ended
  | succ fuel =>
    have short : ¬ config.chunkSize < ([] : List Char).length := by
      rw [List.length_nil]
      omega
    have read : (lineThenLong (config.chunkOverlap - 1) config.chunkSize).take (config.chunkSize * 8) =
        lineThenLong (config.chunkOverlap - 1) config.chunkSize := List.take_of_length_le (by omega)
    have filled : lineThenLong (config.chunkOverlap - 1) config.chunkSize ≠ [] := by
      rw [← List.length_pos_iff]
      omega
    rw [textPassages, if_neg short] at ended
    dsimp only at ended
    rw [read, if_neg filled, List.nil_append, textPassages_endless (by omega) stays] at ended
    cases ended

end

/-- **Indexing a text covers it** when every cut is behind the overlap, and it covers every text exactly when the
overlap is at most half the size of a piece. -/
theorem textPassages_covers (config : LibraryConfig) :
    (∀ text, CutsBehindOverlap config text 0 → Covers config text) ∧
      ((∀ text, Covers config text) ↔ config.chunkOverlap ≤ config.chunkSize / 2) := by
  have covers (text : List Char) (behind : CutsBehindOverlap config text 0) : Covers config text := by
    refine ⟨⟨_, textPassages_eq (text.length - 0 + text.length + 1) 1 ?_ (Nat.lt_succ_self _) behind⟩,
      splitText_pieces config text⟩
    rw [List.drop_zero, List.nil_append]
  refine ⟨covers, fun all => ?_, fun half text => covers text (cutsBehindOverlap_of_half half)⟩
  by_contra large
  exact not_covers (Nat.not_le.mp large) (all _)

/-- The settings 256 and 128. -/
def halfOverlap : LibraryConfig := ⟨256, 128, by decide, by decide, by decide, by decide⟩

/-- The settings 256 and 200. -/
def largeOverlap : LibraryConfig := ⟨256, 200, by decide, by decide, by decide, by decide⟩

/-- An overlap of half a passage covers every text. -/
theorem textPassages_covers_half : Covers halfOverlap ['a', '\n', 'b'] ∧ ∀ text, Covers halfOverlap text :=
  ⟨(textPassages_covers halfOverlap).1 _ (cutsBehindOverlap_of_half (by decide)),
    (textPassages_covers halfOverlap).2.mpr (by decide)⟩

/-- A line of 199 characters before a longer one is read for ever. -/
theorem largeOverlap_not_covers : ¬ Covers largeOverlap (lineThenLong 199 256) := not_covers (by decide)

end AgentPark.Knowledge
