import Mathlib.Data.List.Basic
import Mathlib.Tactic.Common

/-!
# The text of a limited stream

`_limit_stream_text` cuts the output of a command to a number of characters: to its end, or to its
beginning and its end with a marker between them.
-/

namespace AgentPark.Tools

/-- What a cut says about itself. -/
structure StreamCut where
  returnedChars : Nat
  omittedChars : Nat
  strategy : String
  headChars : Nat
  tailChars : Nat
  notice : String
deriving DecidableEq

/-- The second part of the answer; `cut` is there when the text was truncated. -/
structure StreamMeta where
  originalChars : Nat
  cut : Option StreamCut := none
deriving DecidableEq

/-- `value[:n]` -/
def firstChars (value : String) (n : Nat) : String := String.ofList (value.toList.take n)

/-- `value[-n:]`, which is the whole value when `n` is zero. -/
def lastChars (value : String) (n : Nat) : String :=
  if n = 0 then value else String.ofList (value.toList.drop (value.length - n))

/-- The text between the beginning and the end. -/
def omissionMarker (omittedChars : Nat) : String :=
  "\n... <" ++ toString omittedChars ++ " chars omitted> ...\n"

/-- The characters of the beginning and of the end, and the text between them. -/
def headTail (originalChars limit : Nat) : Nat × Nat × String :=
  let marker := omissionMarker (originalChars - limit)
  if marker.length < limit then
    let available := limit - marker.length
    let headChars := max 1 (available / 4)
    (headChars, available - headChars, marker)
  else
    let headChars := limit / 2
    (headChars, limit - headChars, "")

/-- `_limit_stream_text` -/
def limitStreamText (text streamName : String) (limit : Nat) (preserveHead : Bool) :
    String × StreamMeta :=
  let originalChars := text.length
  if originalChars ≤ limit then (text, { originalChars := originalChars })
  else if preserveHead then
    let (headChars, tailChars, between) := headTail originalChars limit
    (firstChars text headChars ++ between ++ lastChars text tailChars,
      { originalChars := originalChars
        cut := some {
          returnedChars := limit
          omittedChars := originalChars - limit
          strategy := "head_tail"
          headChars := headChars
          tailChars := tailChars
          notice := streamName ++ " exceeded the hard limit of " ++ toString limit ++
            " characters; the beginning and tail of this stream are returned for failure diagnosis." } })
  else
    (lastChars text limit,
      { originalChars := originalChars
        cut := some {
          returnedChars := limit
          omittedChars := originalChars - limit
          strategy := "tail"
          headChars := 0
          tailChars := limit
          notice := streamName ++ " exceeded the hard limit of " ++ toString limit ++
            " characters; only the tail of this stream is returned." } })

/-! ### What the answer is meant to be -/

/-- The marker a cut has room for; a cut that keeps the end alone has none. -/
def fittingMarker (originalChars limit : Nat) (preserveHead : Bool) : String :=
  let marker := omissionMarker (originalChars - limit)
  if preserveHead ∧ marker.length < limit then marker else ""

/-- A text that is short enough is left alone; of another one, as many characters as the limit says are
left: the first ones, the marker, and the last ones. -/
structure Limited (text : String) (limit : Nat) (preserveHead : Bool) (answer : String × StreamMeta) :
    Prop where
  whole : text.length ≤ limit → answer = (text, { originalChars := text.length })
  part : limit < text.length → ∃ cut, answer.2 = ⟨text.length, some cut⟩ ∧
    cut.returnedChars = limit ∧ answer.1.length = limit ∧
    cut.headChars + cut.tailChars ≤ text.length ∧
    answer.1 = String.ofList (text.toList.take cut.headChars ++
      (fittingMarker text.length limit preserveHead).toList ++
      text.toList.drop (text.length - cut.tailChars))

/-- The marker leaves room for one character. -/
def OneLeft (text : String) (limit : Nat) (preserveHead : Bool) : Prop :=
  preserveHead = true ∧ limit < text.length ∧
    limit = (omissionMarker (text.length - limit)).length + 1

theorem length_firstChars {text : String} {n : Nat} (le : n ≤ text.length) :
    (firstChars text n).length = n := by
  rw [firstChars, String.length_ofList, List.length_take, String.length_toList]
  omega

theorem lastChars_of_pos {text : String} {n : Nat} (positive : 0 < n) :
    lastChars text n = String.ofList (text.toList.drop (text.length - n)) := by
  rw [lastChars, if_neg (by omega)]

theorem length_lastChars {text : String} {n : Nat} (positive : 0 < n) (le : n ≤ text.length) :
    (lastChars text n).length = n := by
  rw [lastChars_of_pos positive, String.length_ofList, List.length_drop, String.length_toList]
  omega

theorem headTail_spec {originalChars limit : Nat} (positive : 1 ≤ limit) :
    let (headChars, tailChars, between) := headTail originalChars limit
    headChars + between.length + tailChars = limit ∧
    between = fittingMarker originalChars limit true ∧
    (tailChars = 0 ↔ limit = (omissionMarker (originalChars - limit)).length + 1) := by
  unfold headTail fittingMarker
  dsimp only
  by_cases fits : (omissionMarker (originalChars - limit)).length < limit
  · rw [if_pos fits, if_pos ⟨rfl, fits⟩]
    dsimp only
    refine ⟨?_, rfl, ?_⟩
    · omega
    · constructor
      · intro none
        omega
      · intro one
        omega
  · rw [if_neg fits, if_neg fun both => fits both.2]
    dsimp only
    refine ⟨?_, rfl, ?_⟩
    · rw [String.length_empty]
      omega
    · constructor
      · intro none
        omega
      · intro one
        omega

theorem limited_tail {text : String} {limit : Nat} (positive : 1 ≤ limit) (long : limit < text.length)
    (streamName : String) : Limited text limit false (limitStreamText text streamName limit false) := by
  refine ⟨fun short => absurd long (by omega), fun _ => ?_⟩
  unfold limitStreamText
  dsimp only
  rw [if_neg (by omega), if_neg Bool.false_ne_true]
  refine ⟨_, rfl, rfl, length_lastChars (by omega) (by omega), ?_, ?_⟩
  · dsimp only
    omega
  · have none : fittingMarker text.length limit false = "" := by
      rw [fittingMarker, if_neg]
      exact fun both => Bool.false_ne_true both.1
    rw [lastChars_of_pos (by omega), none]
    rfl

theorem limited_headTail {text : String} {limit : Nat} (positive : 1 ≤ limit)
    (long : limit < text.length) (streamName : String) :
    Limited text limit true (limitStreamText text streamName limit true) ↔
      limit ≠ (omissionMarker (text.length - limit)).length + 1 := by
  have spec := @headTail_spec text.length limit positive
  unfold limitStreamText
  dsimp only
  rw [if_neg (by omega), if_pos rfl]
  generalize headTail text.length limit = parts at spec ⊢
  obtain ⟨headChars, tailChars, between⟩ := parts
  obtain ⟨whole, marked, noTail⟩ := spec
  dsimp only at whole marked noTail ⊢
  constructor
  · rintro ⟨-, part⟩ one
    obtain ⟨cut, -, -, length, -⟩ := part long
    -- the end is the whole text, which is too long
    have zero := noTail.mpr one
    dsimp only at length
    rw [zero, lastChars, if_pos rfl, String.length_append] at length
    omega
  · intro more
    have positiveTail : 0 < tailChars := Nat.pos_of_ne_zero fun none => more (noTail.mp none)
    refine ⟨fun short => absurd long (by omega), fun _ => ⟨_, rfl, rfl, ?_, ?_, ?_⟩⟩
    · dsimp only
      rw [String.length_append, String.length_append, length_firstChars (by omega),
        length_lastChars positiveTail (by omega)]
      exact whole
    · dsimp only
      omega
    · dsimp only
      rw [← marked, lastChars_of_pos positiveTail, String.ofList_append, String.ofList_append,
        String.ofList_toList]
      rfl

/-- The answer is what it is meant to be, unless the marker leaves room for one character. -/
theorem limited_iff (text streamName : String) (limit : Nat) (preserveHead : Bool)
    (positive : 1 ≤ limit) :
    Limited text limit preserveHead (limitStreamText text streamName limit preserveHead) ↔
      ¬ OneLeft text limit preserveHead := by
  by_cases short : text.length ≤ limit
  · have whole : limitStreamText text streamName limit preserveHead =
        (text, { originalChars := text.length }) := if_pos short
    rw [whole]
    refine iff_of_true ⟨fun _ => rfl, fun long => absurd short (by omega)⟩ ?_
    rintro ⟨-, long, -⟩
    omega
  · have long : limit < text.length := by omega
    cases preserveHead with
    | true =>
      rw [limited_headTail positive long]
      exact ⟨fun more left => more left.2.2, fun room one => room ⟨rfl, long, one⟩⟩
    | false =>
      refine iff_of_true (limited_tail positive long streamName) ?_
      rintro ⟨kept, -⟩
      cases kept

/-- The output of a failed command in the usual limit. -/
theorem limited_forty :
    Limited (String.ofList (List.replicate 50 'a')) 40 true
      (limitStreamText (String.ofList (List.replicate 50 'a')) "stdout" 40 true) := by
  refine (limited_iff _ "stdout" 40 true (by decide)).mpr ?_
  rintro ⟨-, -, one⟩
  revert one
  decide +kernel

/-- Where the marker leaves room for one character, the whole text stands behind it. -/
theorem limitStreamText_repeats :
    (limitStreamText (String.ofList (List.replicate 29 'a')) "stdout" 28 true).1.length = 57 ∧
    ((limitStreamText (String.ofList (List.replicate 29 'a')) "stdout" 28 true).2.cut.map
      StreamCut.returnedChars) = some 28 := by
  decide +kernel

end AgentPark.Tools
