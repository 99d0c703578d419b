import AgentPark.Gateway.Contracts
import AgentPark.Lib.Generator
import AgentPark.Lib.Lines

/-!
# Frames of an event stream

A converter sends frames: an event with its name, a bare payload, or the end marker.  The next
converter reads the bytes of one frame at a time with `responsesEvent`, which looks at the lines
that start with `data:` and takes their text as JSON.
-/

namespace AgentPark.Gateway

open Lib

/-- What a converter sends. -/
inductive Frame where
  /-- `_sse(event, payload)` -/
  | sse (event : String) (payload : Json)
  /-- `_data(payload)` -/
  | data (payload : Json)
  /-- `data: [DONE]` -/
  | done
deriving DecidableEq

/-- A generator of frames over the state `σ`. -/
abbrev Code (σ α : Type) : Type := Generator Frame Raised σ α

def Frame.text : Frame → List Char
  | .sse event payload =>
    "event: ".toList ++ event.toList ++ '\n' :: "data: ".toList ++ dumpsCompact payload ++ ['\n', '\n']
  | .data payload => "data: ".toList ++ dumpsCompact payload ++ ['\n', '\n']
  | .done => "data: [DONE]".toList ++ ['\n', '\n']

/-- What is sent. -/
def Frame.bytes (frame : Frame) : List UInt8 := utf8Encode frame.text

/-! ### Reading -/

/-- The bytes `bytes.strip` removes. -/
def isByteSpace (b : UInt8) : Bool := b == 32 || (9 ≤ b && b ≤ 13)

def isByteBreak (b : UInt8) : Bool := b == 10 || b == 13

/-- `b"data:"` -/
def dataMark : List UInt8 := [100, 97, 116, 97, 58]

/-- `line.strip()[5:].lstrip()` of a line that starts with `data:`. -/
def dataLine (line : List UInt8) : Option (List UInt8) :=
  let stripped := stripList isByteSpace line
  if dataMark <+: stripped then some ((stripped.drop 5).dropWhile isByteSpace) else none

/-- `bytes(chunk).splitlines()`, with an empty line for the second byte of a break of two, which no
reader takes. -/
def byteLines (chunk : List UInt8) : List (List UInt8) := chunk.splitOnP isByteBreak

/-- `_responses_event` -/
def responsesEvent (chunk : List UInt8) : Except Raised (Option Json) :=
  let dataLines := (byteLines chunk).filterMap dataLine
  let raw := List.intercalate [newline] dataLines
  if dataLines = [] ∨ raw = utf8Encode "[DONE]".toList then .ok none
  else
    match (utf8Decode raw).bind loads with
    | none => .error (.protocol "Responses stream frame is not valid UTF-8 JSON.")
    | some (.obj fields) => .ok (some (.obj fields))
    | some _ => .error (.protocol "Responses stream event must be an object.")

/-- The round of a converter for one chunk: an event is handled, another chunk passed over. -/
def readRound {σ : Type} (handle : Json → Code σ Generator.Flow) (chunk : List UInt8) :
    Code σ Generator.Flow := do
  match ← Generator.ofExcept (responsesEvent chunk) with
  | none => pure .next
  | some event => handle event

/-! ### Fields of an event -/

section

variable (host : Host)

/-- `str(event.get("type") or "")` -/
def eventType (event : Json) : String := textOf host (event.get "type")

/-- The message of the error a `response.failed` event carries. -/
def failureMessage (event : Json) : String :=
  match (event.get "response").bind (Json.get "error") with
  | some (.obj error) =>
    Json.strOr host.repr (host.repr (.obj error)) ((Json.obj error).get "message")
  | error => Json.strOr host.repr "Provider failed." error

end

/-! ### What was sent is read back -/

theorem emits_readRound {σ : Type} {handle : Json → Code σ Generator.Flow} {chunk : List UInt8}
    {event : Json} {s s' : σ} {out : List Frame} {flow : Generator.Flow}
    (read : responsesEvent chunk = .ok (some event))
    (handled : Generator.Emits (handle event) s out flow s') :
    Generator.Emits (readRound handle chunk) s out flow s' :=
  (Generator.emits_ofExcept read).then handled

theorem fails_readRound {σ : Type} {handle : Json → Code σ Generator.Flow} {chunk : List UInt8}
    {event : Json} {s : σ} {out : List Frame} {e : Raised}
    (read : responsesEvent chunk = .ok (some event))
    (failed : Generator.Fails (handle event) s out e) :
    Generator.Fails (readRound handle chunk) s out e :=
  (Generator.emits_ofExcept read).bind_fails failed

theorem stripList_cons {β : Type*} {p : β → Bool} {x : β} (first : p x = false) (xs : List β) :
    ∃ ys, stripList p (x :: xs) = x :: ys := by
  have kept : (x :: xs).dropWhile p = x :: xs := by
    rw [List.dropWhile_cons, if_neg (by simp [first])]
  have tail : (x :: xs).reverse.dropWhile p ≠ [] := by
    intro empty
    have dropped := List.dropWhile_eq_nil_iff.mp empty x (by simp)
    rw [first] at dropped
    cases dropped
  obtain ⟨front, split⟩ := List.dropWhile_suffix (l := (x :: xs).reverse) p
  have whole : x :: xs = ((x :: xs).reverse.dropWhile p).reverse ++ front.reverse := by
    rw [← List.reverse_append, split, List.reverse_reverse]
  rw [stripList, kept]
  cases rest : ((x :: xs).reverse.dropWhile p).reverse with
  | nil => exact absurd (List.reverse_eq_nil_iff.mp rest) tail
  | cons y ys =>
    rw [rest, List.cons_append] at whole
    rw [(List.cons.inj whole).1]
    exact ⟨ys, rfl⟩

theorem dataLine_cons {b : UInt8} (solid : isByteSpace b = false) (other : b ≠ 100)
    (line : List UInt8) : dataLine (b :: line) = none := by
  obtain ⟨ys, eq⟩ := stripList_cons solid line
  unfold dataLine
  rw [eq]
  apply if_neg
  intro starts
  exact other (List.cons_prefix_cons.mp starts).1.symm

theorem dataLine_nil : dataLine [] = none := by rfl

theorem dataLine_data {first last : UInt8} (body : List UInt8) (solid : isByteSpace first = false)
    (solidEnd : isByteSpace last = false) :
    dataLine (dataMark ++ 32 :: first :: (body ++ [last])) = some (first :: (body ++ [last])) := by
  have ends : stripList isByteSpace (dataMark ++ 32 :: first :: (body ++ [last])) =
      dataMark ++ 32 :: first :: (body ++ [last]) := by
    have whole : stripList isByteSpace (100 :: ([97, 116, 97, 58, 32, first] ++ body ++ [last])) = _ :=
      stripList_of_ends (by rfl) solidEnd
    simpa [dataMark] using whole
  have starts : dataMark <+: dataMark ++ 32 :: first :: (body ++ [last]) := List.prefix_append _ _
  have blank : isByteSpace 32 = true := by rfl
  unfold dataLine
  rw [ends, if_pos starts]
  change some ((32 :: first :: (body ++ [last])).dropWhile isByteSpace) = _
  rw [List.dropWhile_cons, if_pos blank, List.dropWhile_cons, if_neg (by simp [solid])]

theorem byteBreak_not_mem {cs : List Char} (flat : ∀ c ∈ cs, isLineBreak c = false) :
    ∀ b ∈ utf8Encode cs, isByteBreak b = false := by
  intro b mem
  by_contra isBreak
  have isBreak : isByteBreak b = true := by simpa using isBreak
  have byte : b = 10 ∨ b = 13 := by simpa [isByteBreak] using isBreak
  have small : b.toNat < 128 := by
    rcases byte with rfl | rfl
    all_goals decide
  obtain ⟨c, inText, sameCode⟩ := exists_char_of_mem_utf8Encode mem small
  have notBreak := flat c inText
  have isChar : c = '\n' ∨ c = '\r' := by
    rcases byte with rfl | rfl
    · exact .inl (Char.toNat_inj.mp sameCode)
    · exact .inr (Char.toNat_inj.mp sameCode)
  rcases isChar with rfl | rfl
  all_goals cases notBreak

theorem payload_bytes {fields : List (String × Json)} (unique : (Json.obj fields).UniqueKeys) :
    ∃ body, utf8Encode (dumpsCompact (.obj fields)) = 123 :: (body ++ [125]) ∧
      (∀ b ∈ 123 :: (body ++ [125]), isByteBreak b = false) ∧
      (utf8Decode (123 :: (body ++ [125]))).bind loads = some (.obj fields) := by
  obtain ⟨cs, eq⟩ := dumpsCompact_obj fields
  have encoded : utf8Encode (dumpsCompact (.obj fields)) = 123 :: (utf8Encode cs ++ [125]) := by
    rw [eq, utf8Encode_cons, utf8Encode_append]
    rfl
  refine ⟨utf8Encode cs, encoded, ?_, ?_⟩
  · rw [← encoded]
    exact byteBreak_not_mem (lineBreak_not_mem_dumpsCompact _)
  · rw [← encoded, utf8Decode_utf8Encode, Option.bind_some]
    exact loads_dumpsCompact unique

theorem byteLines_payload {body : List UInt8}
    (flat : ∀ b ∈ 123 :: (body ++ [125]), isByteBreak b = false) :
    (byteLines (dataMark ++ 32 :: 123 :: (body ++ [125]) ++ [10, 10])).filterMap dataLine =
      [123 :: (body ++ [125])] := by
  have plain : ∀ b ∈ dataMark ++ 32 :: 123 :: (body ++ [125]), isByteBreak b = false := by
    intro b mem
    rcases List.mem_append.mp mem with inMark | inRest
    · have all : (dataMark.all fun b => !isByteBreak b) = true := by decide
      simpa using List.all_eq_true.mp all b inMark
    · rcases List.mem_cons.mp inRest with rfl | inRest
      · rfl
      · exact flat b inRest
  have isBreak : isByteBreak 10 = true := by rfl
  have line := dataLine_data body (show isByteSpace 123 = false by rfl)
    (show isByteSpace 125 = false by rfl)
  unfold byteLines
  rw [List.splitOnP_append_cons_of_forall_mem plain 10 isBreak]
  simp only [List.splitOnP_cons_eq_if_modifyHead, isBreak, if_true, List.splitOnP_nil, List.filterMap_cons, line,
    dataLine_nil, List.filterMap_nil]

theorem utf8Encode_dataMark : utf8Encode "data: ".toList = dataMark ++ [32] := by decide +kernel

theorem utf8Encode_ending : utf8Encode ['\n', '\n'] = [10, 10] := by decide +kernel

theorem Frame.bytes_data (payload : Json) :
    (Frame.data payload).bytes =
      dataMark ++ [32] ++ utf8Encode (dumpsCompact payload) ++ [10, 10] := by
  unfold Frame.bytes Frame.text
  dsimp only
  generalize dumpsCompact payload = cs
  have whole := utf8Encode_append ("data: ".toList ++ cs) ['\n', '\n']
  have front := utf8Encode_append "data: ".toList cs
  exact whole.trans (by rw [front, utf8Encode_dataMark, utf8Encode_ending])

theorem Frame.bytes_sse (event : String) (payload : Json) :
    (Frame.sse event payload).bytes =
      utf8Encode ("event: ".toList ++ event.toList) ++ [10] ++ (Frame.data payload).bytes := by
  unfold Frame.bytes Frame.text
  dsimp only
  generalize dumpsCompact payload = cs
  have eventLine := utf8Encode_append ("event: ".toList ++ event.toList) ['\n']
  have whole := utf8Encode_append ("event: ".toList ++ event.toList ++ ['\n'])
    ("data: ".toList ++ cs ++ ['\n', '\n'])
  have newline : utf8Encode ['\n'] = [10] := by decide +kernel
  rw [eventLine, newline] at whole
  rw [← whole]
  congr 1
  simp only [List.append_assoc, List.cons_append, List.nil_append]

theorem responsesEvent_of_lines {chunk body : List UInt8} {fields : List (String × Json)}
    (lines : (byteLines chunk).filterMap dataLine = [123 :: (body ++ [125])])
    (read : (utf8Decode (123 :: (body ++ [125]))).bind loads = some (.obj fields)) :
    responsesEvent chunk = .ok (some (.obj fields)) := by
  have notDone : 123 :: (body ++ [125]) ≠ utf8Encode "[DONE]".toList := by
    intro same
    cases (List.cons.inj same).1
  unfold responsesEvent
  dsimp only
  rw [lines]
  have raw : List.intercalate [newline] [123 :: (body ++ [125])] = 123 :: (body ++ [125]) := by
    simp [List.intercalate]
  have isPayload : ¬ ([123 :: (body ++ [125])] = [] ∨
      123 :: (body ++ [125]) = utf8Encode "[DONE]".toList) := by
    rintro (empty | isDone)
    · cases empty
    · exact notDone isDone
  rw [raw, if_neg isPayload, read]

theorem responsesEvent_sse {event : String} {fields : List (String × Json)}
    (flat : ∀ c ∈ event.toList, isLineBreak c = false) (unique : (Json.obj fields).UniqueKeys) :
    responsesEvent (Frame.sse event (.obj fields)).bytes = .ok (some (.obj fields)) := by
  obtain ⟨body, encoded, plain, read⟩ := payload_bytes unique
  refine responsesEvent_of_lines ?_ read
  have plainEvent : ∀ b ∈ utf8Encode ("event: ".toList ++ event.toList),
      isByteBreak b = false := by
    refine byteBreak_not_mem ?_
    rw [List.forall_mem_append]
    exact ⟨noLineBreak_of_all (by decide +kernel), flat⟩
  have other : dataLine (utf8Encode ("event: ".toList ++ event.toList)) = none := by
    have first : utf8Encode "event: ".toList = 101 :: utf8Encode "vent: ".toList := by
      decide +kernel
    rw [utf8Encode_append, first, List.cons_append]
    exact dataLine_cons (by rfl) (by decide) _
  have isBreak : isByteBreak 10 = true := by rfl
  rw [Frame.bytes_sse, Frame.bytes_data, encoded, List.append_assoc, List.singleton_append,
    byteLines, List.splitOnP_append_cons_of_forall_mem plainEvent 10 isBreak,
    List.filterMap_cons, other]
  have lines := byteLines_payload plain
  rwa [← List.singleton_append, ← List.append_assoc] at lines

theorem responsesEvent_data {fields : List (String × Json)} (unique : (Json.obj fields).UniqueKeys) :
    responsesEvent (Frame.data (.obj fields)).bytes = .ok (some (.obj fields)) := by
  obtain ⟨body, encoded, plain, read⟩ := payload_bytes unique
  refine responsesEvent_of_lines ?_ read
  rw [Frame.bytes_data, encoded]
  have lines := byteLines_payload plain
  rwa [← List.singleton_append, ← List.append_assoc] at lines

end AgentPark.Gateway
