import AgentPark.Lib.Decoding
import AgentPark.Lib.Execution
import Mathlib.Logic.Function.Basic

/-!
# The output of a console session

A thread for each of the two streams reads the bytes of its pipe, decodes them and appends the text
to a spool with four bytes for a character.  `read_console_session`, `wait_console_session` and
`stop_console_session` answer with the text behind a cursor, and with the cursor behind that text.
-/

namespace AgentPark.Workspace

open Lib

/-! ### The spools -/

inductive Stream where
  | stdout
  | stderr
deriving DecidableEq

/-- `MAX_CHARS` -/
def maxStreamChars : Nat := 16 * 1024 * 1024

/-- What ends the capture: the text is too long for the spool, or the bytes are not UTF-8. -/
inductive CaptureError where
  | exceeded
  | undecodable
deriving DecidableEq

/-- `SessionOutput`.  `kept` is what its decoder keeps, and `reading`: the loop of `_drain` goes on. -/
structure SessionOutput where
  kept : List UInt8 := []
  spool : List UInt8 := []
  length : Nat := 0
  error : Option CaptureError := none
  reading : Bool := true
  finished : Bool := false
deriving DecidableEq

/-- A turn of the loop of `_drain`; no bytes are the end of the stream. -/
def SessionOutput.drain (out : SessionOutput) (chunk : List UInt8) : SessionOutput :=
  match decodeIncremental out.kept chunk (chunk = []) with
  | none => { out with error := some .undecodable, reading := false }
  | some (text, kept) =>
    if out.length + text.length > maxStreamChars then
      { out with error := some .exceeded, reading := false }
    else
      { out with
        kept
        spool := out.spool ++ fixedEncode text
        length := out.length + text.length
        reading := chunk ≠ [] }

/-- `read`; an offset that is not an integer is `none`. -/
def SessionOutput.read (out : SessionOutput) (offset : Option Int) (limit : Nat) :
    Except String (List Char) :=
  match offset with
  | none => .error "Output cursor is outside the retained stream"
  | some offset =>
    if 0 ≤ offset ∧ offset ≤ out.length then
      match fixedDecode (readBytes out.spool (offset.toNat * 4)
          (min limit (out.length - offset.toNat) * 4)) with
      | some text => .ok text
      | none => .error "'utf-32-le' codec can't decode bytes"
    else .error "Output cursor is outside the retained stream"

/-! ### Sessions and calls -/

/-- The `cursor` of a call, as far as it is checked: left out, not an object with the three keys, or an
object with them.  A session id that is not a string and an offset that is not an integer are `none`. -/
inductive Cursor where
  | absent
  | other
  | at_ (sessionId : Option String) (offset : Stream → Option Int)

/-- `snapshot`, without what is said of the process. -/
structure Snapshot where
  sessionId : String
  finished : Bool
  text : Stream → List Char
  nextCursor : Cursor
  hasMoreOutput : Bool
  outputComplete : Bool
  /-- `latest_stdout` and `latest_stderr`, while the session is not done. -/
  latest : Option (List Char × List Char)

inductive CallKind where
  | read
  | wait (waitSeconds : Option Int)
  | stop

/-- Where a call is.  `checking` and `answering` are turns of the loop of `_serialize`.  `captured`,
which the code does not keep, is how much of each stream had been captured at the answer. -/
inductive CallPhase where
  | checking (size : Nat)
  | checked
  | waiting
  | stopping
  | answering (size : Nat)
  | answered (snapshot : Snapshot) (captured : Stream → Nat)
  | failed (error : String)

structure ConsoleCall where
  kind : CallKind
  cursor : Cursor
  maxChars : Option Int
  phase : CallPhase

/-- A session, the bytes that its threads have not read, and the calls on it. -/
structure ConsoleSession where
  sessionId : String
  outputs : Stream → SessionOutput
  left : Stream → List UInt8
  reportDue : Option Int
  stopRequested : Bool
  done : Bool
  calls : List ConsoleCall

/-- A session at its start, with all that its process is going to write. -/
def ConsoleSession.started (sessionId : String) (reportDue : Option Int) (bytes : Stream → List UInt8) :
    ConsoleSession where
  sessionId
  outputs := fun _ => {}
  left := bytes
  reportDue
  stopRequested := false
  done := false
  calls := []

/-- The offsets that a cursor names. -/
def ConsoleSession.offsets (s : ConsoleSession) : Cursor → Except String (Stream → Option Int)
  | .absent => .ok fun _ => some 0
  | .other => .error "cursor must contain exactly session_id, stdout and stderr"
  | .at_ sessionId offset =>
    if sessionId = some s.sessionId then .ok offset
    else .error "Output cursor belongs to another session"

/-- The last characters of a stream. -/
def SessionOutput.tail (out : SessionOutput) (maxChars : Nat) : Except String (List Char) :=
  let tailSize := min 1000 (maxChars / 2)
  out.read (some (out.length - tailSize : Nat)) tailSize

/-- `latest_stdout` and `latest_stderr` -/
def ConsoleSession.latest (s : ConsoleSession) (maxChars : Nat) :
    Except String (Option (List Char × List Char)) := do
  if s.done then return none
  else return some (← (s.outputs .stdout).tail maxChars, ← (s.outputs .stderr).tail maxChars)

/-- The result of `snapshot` for the texts read from the offsets. -/
def ConsoleSession.report (s : ConsoleSession) (offset : Stream → Option Int)
    (text : Stream → List Char) (latest : Option (List Char × List Char)) : Snapshot :=
  let next (stream : Stream) : Int := (offset stream).getD 0 + (text stream).length
  { sessionId := s.sessionId
    finished := s.done
    text
    nextCursor := .at_ (some s.sessionId) fun stream => some (next stream)
    hasMoreOutput := next .stdout < (s.outputs .stdout).length ∨
      next .stderr < (s.outputs .stderr).length
    outputComplete := (s.outputs .stdout).finished ∧ (s.outputs .stderr).finished
    latest }

/-- `snapshot` -/
def ConsoleSession.snapshot (s : ConsoleSession) (cursor : Cursor) (maxChars : Nat) :
    Except String Snapshot := do
  let offset ← s.offsets cursor
  let stdout ← (s.outputs .stdout).read (offset .stdout) maxChars
  let stderr ← (s.outputs .stderr).read (offset .stderr) maxChars
  let latest ← s.latest maxChars
  return s.report offset (fun | .stdout => stdout | .stderr => stderr) latest

/-- `_integer` -/
def integer (value : Option Int) (name : String) (minimum maximum : Nat) : Except String Nat :=
  let error := name ++ " must be an integer between " ++ minimum.repr ++ " and " ++ maximum.repr
  match value with
  | none => .error error
  | some value =>
    if (minimum : Int) ≤ value ∧ value ≤ maximum then .ok value.toNat else .error error

/-- The begin of the `_serialize` whose text is returned. -/
def beginAnswer (maxChars : Option Int) : CallPhase :=
  match integer maxChars "max_chars" 1 65536 with
  | .ok size => .answering size
  | .error error => .failed error

/-- The begin of the `_serialize` whose text is dropped. -/
def beginCheck (maxChars : Option Int) : CallPhase :=
  match integer maxChars "max_chars" 1 65536 with
  | .ok size => .checking size
  | .error error => .failed error

/-- The begin of a call, up to the loop of its first `_serialize`. -/
def beginCall (kind : CallKind) (maxChars : Option Int) : CallPhase :=
  match kind with
  | .read => beginAnswer maxChars
  | .wait waitSeconds =>
    match integer waitSeconds "wait_seconds" 0 3600 with
    | .ok _ => beginCheck maxChars
    | .error error => .failed error
  | .stop => beginCheck maxChars

/-- A turn of the loop of `_serialize`: the snapshot fits, or a smaller one is tried.  `jsonLength` is
the length of the JSON text of a snapshot, with what it says of the process and the time. -/
def serialize (limit : Option Nat) (s : ConsoleSession) (cursor : Cursor) (size : Nat)
    (jsonLength : Snapshot → Nat) : Except String (Snapshot ⊕ Nat) := do
  let snapshot ← s.snapshot cursor size
  if ∀ most ∈ limit, jsonLength snapshot ≤ most then return .inl snapshot
  else if size = 1 then throw "Session metadata exceeds toolResultSubmissionMaxChars"
  else return .inr (max 1 (size / 2))

/-- What a call of `wait_console_session` or `stop_console_session` does between its two `_serialize`. -/
inductive Pause where
  | proceed (now : Int)
  | expire
  | cancel
  | resume
  | giveUp

/-- What happens in a session: its threads read and end, its process is done, and calls are made and
go on. -/
inductive SessionAction where
  | drain (stream : Stream) (size : Nat)
  | close (stream : Stream)
  | finish
  | call (kind : CallKind) (cursor : Cursor) (maxChars : Option Int)
  | attempt (call : Nat) (jsonLength : Snapshot → Nat)
  | pause (call : Nat) (pause : Pause)

def ConsoleSession.setPhase (s : ConsoleSession) (n : Nat) (call : ConsoleCall) (phase : CallPhase) :
    ConsoleSession :=
  { s with calls := s.calls.set n { call with phase } }

def ConsoleSession.setOutput (s : ConsoleSession) (stream : Stream) (out : SessionOutput)
    (left : List UInt8) : ConsoleSession :=
  { s with
    outputs := Function.update s.outputs stream out
    left := Function.update s.left stream left }

/-- `read1(8192)`, and what the thread does with the bytes. -/
def drainStep (s : ConsoleSession) (stream : Stream) (size : Nat) : Option ConsoleSession :=
  if (s.outputs stream).reading = true ∧ 1 ≤ size ∧ size ≤ 8192 then
    some (s.setOutput stream ((s.outputs stream).drain ((s.left stream).take size))
      ((s.left stream).drop size))
  else none

/-- The end of `_drain`. -/
def closeStep (s : ConsoleSession) (stream : Stream) : Option ConsoleSession :=
  if (s.outputs stream).reading = false then
    some (s.setOutput stream { s.outputs stream with finished := true } (s.left stream))
  else none

/-- A turn of a call in the loop of `_serialize`. -/
def attemptStep (limit : Option Nat) (s : ConsoleSession) (n : Nat) (call : ConsoleCall)
    (jsonLength : Snapshot → Nat) : Option ConsoleSession :=
  match call.phase with
  | .checking size =>
    match serialize limit s call.cursor size jsonLength with
    | .error error => some (s.setPhase n call (.failed error))
    | .ok (.inl _) => some (s.setPhase n call .checked)
    | .ok (.inr smaller) => some (s.setPhase n call (.checking smaller))
  | .answering size =>
    match serialize limit s call.cursor size jsonLength with
    | .error error => some (s.setPhase n call (.failed error))
    | .ok (.inl snapshot) =>
      some (s.setPhase n call (.answered snapshot fun stream => (s.outputs stream).length))
    | .ok (.inr smaller) => some (s.setPhase n call (.answering smaller))
  | _ => none

/-- The steps of `wait_console_session` and `stop_console_session` between their two `_serialize`. -/
def pauseStep (s : ConsoleSession) (n : Nat) (call : ConsoleCall) (pause : Pause) :
    Option ConsoleSession :=
  match call.phase, call.kind, pause with
  | .checked, .wait waitSeconds, .proceed now =>
    some ({ s with reportDue := waitSeconds.map (now + ·) }.setPhase n call .waiting)
  | .checked, .stop, .proceed _ =>
    some ({ s with stopRequested := true }.setPhase n call .stopping)
  | .waiting, _, .expire => some (s.setPhase n call (beginAnswer call.maxChars))
  | .waiting, _, .cancel =>
    if s.done then none
    else some ({ s with stopRequested := true }.setPhase n call .stopping)
  | .stopping, _, .resume =>
    if s.done then some (s.setPhase n call (beginAnswer call.maxChars)) else none
  | .stopping, .wait _, .giveUp =>
    some (s.setPhase n call (.failed "Cancelled session failed to stop"))
  | .stopping, .stop, .giveUp =>
    some (s.setPhase n call (.failed "Session cancellation has not completed"))
  | _, _, _ => none

/-- The steps, under the submission limit of the agent. -/
def sessionStep (limit : Option Nat) (s : ConsoleSession) : SessionAction → Option ConsoleSession
  | .drain stream size => drainStep s stream size
  | .close stream => closeStep s stream
  | .finish => if s.done then none else some { s with done := true }
  | .call kind cursor maxChars =>
    some { s with
      calls := s.calls ++ [{ kind, cursor, maxChars, phase := beginCall kind maxChars }] }
  | .attempt n jsonLength => s.calls[n]?.bind fun call => attemptStep limit s n call jsonLength
  | .pause n pause => s.calls[n]?.bind fun call => pauseStep s n call pause

/-! ### What a spool holds -/

/-- The text of the stream is in the spool up to `captured`, and the bytes of the rest of it are still
to come, unless the text is too long. -/
structure Captures (text : List Char) (out : SessionOutput) (left : List UInt8) : Prop where
  length : out.length ≤ text.length
  spool : out.spool = fixedEncode (text.take out.length)
  underway : out.reading = true → out.error = none ∧
    out.kept ++ left = utf8Encode (text.drop out.length) ∧
    (out.kept = [] ∨ ∃ c later, text.drop out.length = c :: later ∧ Begins out.kept c)
  ended : out.reading = false → out.error = none ∧ out.length = text.length ∨
    out.error = some .exceeded ∧ maxStreamChars < text.length
  short : out.length ≤ maxStreamChars
  closed : out.finished = true → out.reading = false

theorem captures_start (text : List Char) : Captures text {} (utf8Encode text) where
  length := Nat.zero_le _
  spool := rfl
  underway := fun _ => ⟨rfl, rfl, .inl rfl⟩
  ended := fun reading => nomatch reading
  short := Nat.zero_le _
  closed := fun finished => nomatch finished

variable {text : List Char} {out : SessionOutput} {left : List UInt8}

theorem drain_decodes {size : Nat} (captures : Captures text out left)
    (reading : out.reading = true) (positive : 1 ≤ size) :
    ∃ cs rest p, text.drop out.length = cs ++ rest ∧
      decodeIncremental out.kept (left.take size) (left.take size = []) = some (cs, p) ∧
      p ++ left.drop size = utf8Encode rest ∧
      (p = [] ∨ ∃ c later, rest = c :: later ∧ Begins p c) ∧
      (left.take size = [] → rest = []) := by
  obtain ⟨-, bytes, begins⟩ := captures.underway reading
  have split : out.kept ++ left.take size ++ left.drop size = utf8Encode (text.drop out.length) := by
    rw [List.append_assoc, List.take_append_drop, bytes]
  by_cases last : left.take size = []
  · -- The end of the stream: nothing is kept, since the bytes of a character would be complete.
    have none : left = [] := by
      rcases List.take_eq_nil_iff.mp last with zero | none
      · omega
      · exact none
    subst none
    rw [List.append_nil] at bytes
    have kept : out.kept = [] := by
      rcases begins with kept | ⟨c, later, isRest, -, -, shorter⟩
      · exact kept
      · rw [isRest, utf8Encode_cons] at bytes
        rw [bytes, List.length_append] at shorter
        omega
    have rest : text.drop out.length = [] := by
      rw [kept] at bytes
      cases isRest : text.drop out.length with
      | nil => rfl
      | cons c later =>
        rw [isRest, utf8Encode_cons] at bytes
        exact absurd (List.append_eq_nil_iff.mp bytes.symm).1 (utf8EncodeChar_ne_nil c)
    refine ⟨[], [], [], rest, ?_, ?_, .inl rfl, fun _ => rfl⟩
    · rw [last, kept, decide_eq_true rfl]
      exact decodeIncremental_end
    · rw [List.drop_nil]
      rfl
  · obtain ⟨cs, rest, p, isText, isKept, isBegin, decoded⟩ :=
      decodeIncremental_take (split ▸ List.prefix_append _ (left.drop size))
    refine ⟨cs, rest, p, isText, ?_, ?_, isBegin, fun none => absurd none last⟩
    · rw [decide_eq_false last]
      exact decoded
    · rw [isKept, isText, utf8Encode_append, List.append_assoc] at split
      exact List.append_cancel_left split

theorem captures_drain {size : Nat} (captures : Captures text out left)
    (reading : out.reading = true) (positive : 1 ≤ size) :
    Captures text (out.drain (left.take size)) (left.drop size) ∧
      out.length ≤ (out.drain (left.take size)).length := by
  obtain ⟨noError, -, -⟩ := captures.underway reading
  obtain ⟨cs, rest, p, isText, decoded, bytes, begins, whole⟩ :=
    drain_decodes captures reading positive
  have open_ : out.finished = false := by
    cases finished : out.finished with
    | false => rfl
    | true => exact absurd (captures.closed finished) (by rw [reading]; exact Bool.noConfusion)
  have length : text.length = out.length + (cs.length + rest.length) := by
    have := congrArg List.length isText
    rw [List.length_drop, List.length_append] at this
    have := captures.length
    omega
  unfold SessionOutput.drain
  rw [decoded]
  dsimp only
  split
  next tooLong =>
    refine ⟨⟨captures.length, captures.spool, Bool.noConfusion, fun _ => .inr ⟨rfl, ?_⟩,
      captures.short, fun _ => rfl⟩, Nat.le_refl _⟩
    omega
  next fits =>
    have further : text.drop (out.length + cs.length) = rest := by
      rw [← List.drop_drop, isText, List.drop_left]
    refine ⟨⟨?_, ?_, ?_, ?_, Nat.not_lt.mp fits, ?_⟩, Nat.le_add_right _ _⟩
    · dsimp only
      omega
    · dsimp only
      rw [captures.spool, ← fixedEncode_append, List.take_add, isText, List.take_left]
    · intro _
      dsimp only
      rw [further]
      exact ⟨noError, bytes, begins⟩
    · intro ended
      left
      have isLast : left.take size = [] := Decidable.of_not_not (of_decide_eq_false ended)
      have := whole isLast
      subst this
      rw [List.length_nil] at length
      exact ⟨noError, by dsimp only; omega⟩
    · intro finished
      exact absurd finished (by rw [open_]; exact Bool.noConfusion)

theorem read_captured (captures : Captures text out left) {start : Nat}
    (inside : start ≤ out.length) (limit : Nat) :
    out.read (some start) limit = .ok (((text.take out.length).drop start).take limit) := by
  have length : (text.take out.length).length = out.length := List.length_take_of_le captures.length
  unfold SessionOutput.read
  dsimp only
  rw [if_pos ⟨Int.natCast_nonneg _, Int.ofNat_le.mpr inside⟩, Int.toNat_natCast, captures.spool,
    readFixed_fixedEncode]
  dsimp only
  have all : out.length - start = ((text.take out.length).drop start).length := by
    rw [List.length_drop, length]
  rw [all, ← List.take_eq_take_min]

theorem read_outside {offset : Option Int} (limit : Nat)
    (outside : ¬ ∃ start : Nat, offset = some ↑start ∧ start ≤ out.length) :
    out.read offset limit = .error "Output cursor is outside the retained stream" := by
  cases offset with
  | none => rfl
  | some offset =>
    have : ¬ (0 ≤ offset ∧ offset ≤ out.length) := fun ⟨nonneg, inside⟩ =>
      outside ⟨offset.toNat, by rw [Int.toNat_of_nonneg nonneg], by omega⟩
    exact if_neg this

/-! ### What a call answers -/

/-- The cursor names these positions in the streams of the session. -/
def Cursor.Names (cursor : Cursor) (sessionId : String) (start : Stream → Nat) : Prop :=
  cursor = .absent ∧ start = (fun _ => 0) ∨
    cursor = .at_ (some sessionId) fun stream => some ↑(start stream)

/-- The cursor names positions in what has been captured. -/
def ConsoleSession.Accepts (s : ConsoleSession) (cursor : Cursor) : Prop :=
  ∃ start, cursor.Names s.sessionId start ∧ ∀ stream, start stream ≤ (s.outputs stream).length

/-- The snapshot is what a call with the cursor is answered when so much has been captured. -/
structure Answers (sessionId : String) (text : Stream → List Char) (cursor : Cursor)
    (snapshot : Snapshot) (captured start : Stream → Nat) (size : Nat) : Prop where
  names : cursor.Names sessionId start
  positive : 0 < size
  inside : ∀ stream, start stream ≤ captured stream
  isText : ∀ stream, snapshot.text stream =
    (((text stream).take (captured stream)).drop (start stream)).take size
  next : snapshot.nextCursor =
    .at_ (some sessionId) fun stream => some ↑(start stream + (snapshot.text stream).length)
  more : snapshot.hasMoreOutput = true ↔
    ∃ stream, start stream + (snapshot.text stream).length < captured stream

theorem offsets_of_names {s : ConsoleSession} {cursor : Cursor} {start : Stream → Nat}
    (names : cursor.Names s.sessionId start) :
    s.offsets cursor = .ok fun stream => some ↑(start stream) := by
  rcases names with ⟨rfl, rfl⟩ | rfl
  · rfl
  · exact if_pos rfl

section

variable {s : ConsoleSession} {text : Stream → List Char}
  (captures : ∀ stream, Captures (text stream) (s.outputs stream) (s.left stream))

include captures

theorem exists_latest (maxChars : Nat) : ∃ latest, s.latest maxChars = .ok latest := by
  have tail (stream : Stream) : ∃ last, (s.outputs stream).tail maxChars = .ok last :=
    ⟨_, read_captured (captures stream) (Nat.sub_le _ _) _⟩
  obtain ⟨lastStdout, isLastStdout⟩ := tail .stdout
  obtain ⟨lastStderr, isLastStderr⟩ := tail .stderr
  unfold ConsoleSession.latest
  split
  · exact ⟨none, rfl⟩
  · exact ⟨some (lastStdout, lastStderr), by rw [isLastStdout, isLastStderr]; rfl⟩

variable {cursor : Cursor} {size : Nat}

theorem snapshot_of_accepts {start : Stream → Nat} (names : cursor.Names s.sessionId start)
    (inside : ∀ stream, start stream ≤ (s.outputs stream).length) (positive : 0 < size) :
    ∃ snapshot, s.snapshot cursor size = .ok snapshot ∧
      Answers s.sessionId text cursor snapshot (fun stream => (s.outputs stream).length) start size ∧
      snapshot.finished = s.done ∧
      (snapshot.outputComplete = true → ∀ stream, (s.outputs stream).finished = true) := by
  obtain ⟨latest, isLatest⟩ := exists_latest captures size
  unfold ConsoleSession.snapshot
  rw [offsets_of_names names]
  simp only [bind, Except.bind, pure, Except.pure]
  rw [read_captured (captures .stdout) (inside .stdout),
    read_captured (captures .stderr) (inside .stderr), isLatest]
  refine ⟨_, rfl, ⟨names, positive, inside, ?_, rfl, ?_⟩, rfl, ?_⟩
  · intro stream
    cases stream with
    | stdout => rfl
    | stderr => rfl
  · refine decide_eq_true_iff.trans ⟨fun more => ?_, fun ⟨stream, more⟩ => ?_⟩
    · rcases more with more | more
      · exact ⟨.stdout, Int.ofNat_lt.mp more⟩
      · exact ⟨.stderr, Int.ofNat_lt.mp more⟩
    · cases stream with
      | stdout => exact .inl (Int.ofNat_lt.mpr more)
      | stderr => exact .inr (Int.ofNat_lt.mpr more)
  · intro complete stream
    obtain ⟨stdout, stderr⟩ := of_decide_eq_true complete
    cases stream with
    | stdout => exact stdout
    | stderr => exact stderr

theorem snapshot_of_not_accepts (rejected : ¬ s.Accepts cursor) (size : Nat) :
    ∃ error, s.snapshot cursor size = .error error := by
  unfold ConsoleSession.snapshot
  cases isOffset : s.offsets cursor with
  | error error => exact ⟨error, rfl⟩
  | ok offset =>
    have named (start : Stream → Nat) (all : ∀ stream, offset stream = some ↑(start stream)) :
        cursor.Names s.sessionId start := by
      cases cursor with
      | absent =>
        cases isOffset
        refine .inl ⟨rfl, funext fun stream => ?_⟩
        have := all stream
        rw [Option.some.injEq] at this
        omega
      | other => cases isOffset
      | at_ sessionId offset =>
        rcases em (sessionId = some s.sessionId) with own | other
        · rw [own, ConsoleSession.offsets, if_pos rfl] at isOffset
          cases isOffset
          exact .inr (by rw [own, funext all])
        · rw [ConsoleSession.offsets, if_neg other] at isOffset
          cases isOffset
    by_cases stdout : ∃ start : Nat, offset .stdout = some ↑start ∧ start ≤ (s.outputs .stdout).length
    · obtain ⟨stdout, isStdout, insideStdout⟩ := stdout
      by_cases stderr :
          ∃ start : Nat, offset .stderr = some ↑start ∧ start ≤ (s.outputs .stderr).length
      · obtain ⟨stderr, isStderr, insideStderr⟩ := stderr
        refine absurd ⟨fun | .stdout => stdout | .stderr => stderr, named _ fun stream => ?_,
          fun stream => ?_⟩ rejected
        · cases stream with
          | stdout => exact isStdout
          | stderr => exact isStderr
        · cases stream with
          | stdout => exact insideStdout
          | stderr => exact insideStderr
      · simp only [bind, Except.bind]
        rw [isStdout, read_captured (captures .stdout) insideStdout, read_outside size stderr]
        exact ⟨_, rfl⟩
    · simp only [bind, Except.bind]
      rw [read_outside size stdout]
      exact ⟨_, rfl⟩

theorem serialize_of_not_accepts (rejected : ¬ s.Accepts cursor) (limit : Option Nat) (size : Nat)
    (jsonLength : Snapshot → Nat) :
    ∃ error, serialize limit s cursor size jsonLength = .error error := by
  obtain ⟨error, isError⟩ := snapshot_of_not_accepts captures rejected size
  exact ⟨error, by rw [serialize, isError]; rfl⟩

variable {limit : Option Nat} {jsonLength : Snapshot → Nat}

theorem serialize_eq_answer {snapshot : Snapshot} (positive : 0 < size)
    (isAnswer : serialize limit s cursor size jsonLength = .ok (.inl snapshot)) :
    (∃ start, Answers s.sessionId text cursor snapshot (fun stream => (s.outputs stream).length)
      start size) ∧ snapshot.finished = s.done ∧
      (snapshot.outputComplete = true → ∀ stream, (s.outputs stream).finished = true) := by
  rcases em (s.Accepts cursor) with ⟨start, names, inside⟩ | rejected
  · obtain ⟨found, isFound, answers, finished, complete⟩ :=
      snapshot_of_accepts captures names inside positive
    unfold serialize at isAnswer
    simp only [isFound, bind, Except.bind, pure, Except.pure] at isAnswer
    split_ifs at isAnswer
    · cases isAnswer
      exact ⟨⟨start, answers⟩, finished, complete⟩
    · cases isAnswer
  · obtain ⟨error, isError⟩ := serialize_of_not_accepts captures rejected limit size jsonLength
    rw [isError] at isAnswer
    cases isAnswer

theorem serialize_eq_smaller {smaller : Nat}
    (isSmaller : serialize limit s cursor size jsonLength = .ok (.inr smaller)) :
    0 < smaller ∧ s.Accepts cursor := by
  rcases em (s.Accepts cursor) with accepts | rejected
  · refine ⟨?_, accepts⟩
    cases isFound : s.snapshot cursor size with
    | error error =>
      rw [serialize, isFound] at isSmaller
      cases isSmaller
    | ok found =>
      unfold serialize at isSmaller
      simp only [isFound, bind, Except.bind, pure, Except.pure] at isSmaller
      split_ifs at isSmaller
      · cases isSmaller
      · cases isSmaller
        omega
  · obtain ⟨error, isError⟩ := serialize_of_not_accepts captures rejected limit size jsonLength
    rw [isError] at isSmaller
    cases isSmaller

theorem serialize_progress (accepts : s.Accepts cursor) (positive : 0 < size)
    (admits : ∀ snapshot, s.snapshot cursor 1 = .ok snapshot → ∀ most ∈ limit, jsonLength snapshot ≤ most) :
    (∃ snapshot, serialize limit s cursor size jsonLength = .ok (.inl snapshot)) ∨
      ∃ smaller, smaller < size ∧ serialize limit s cursor size jsonLength = .ok (.inr smaller) := by
  obtain ⟨start, names, inside⟩ := accepts
  obtain ⟨found, isFound, -⟩ := snapshot_of_accepts captures names inside positive
  unfold serialize
  simp only [isFound, bind, Except.bind, pure, Except.pure]
  split_ifs with fits one
  · exact .inl ⟨found, rfl⟩
  · subst one
    exact absurd (admits found isFound) fits
  · exact .inr ⟨max 1 (size / 2), by omega, rfl⟩

end

/-! ### The steps -/

/-- What has been captured, and what has ended, stays. -/
structure Grows (s s' : ConsoleSession) : Prop where
  sessionId : s'.sessionId = s.sessionId
  length : ∀ stream, (s.outputs stream).length ≤ (s'.outputs stream).length
  finished : ∀ stream, (s.outputs stream).finished = true →
    (s'.outputs stream).finished = true ∧ (s'.outputs stream).length = (s.outputs stream).length
  done : s.done = true → s'.done = true

variable {s s' : ConsoleSession}

theorem Grows.of_same (sessionId : s'.sessionId = s.sessionId) (outputs : s'.outputs = s.outputs)
    (done : s.done = true → s'.done = true) : Grows s s' where
  sessionId := sessionId
  length := fun _ => outputs ▸ Nat.le_refl _
  finished := fun _ finished => ⟨outputs ▸ finished, outputs ▸ rfl⟩
  done := done

theorem Grows.accepts (grows : Grows s s') {cursor : Cursor} (accepts : s.Accepts cursor) :
    s'.Accepts cursor := by
  obtain ⟨start, names, inside⟩ := accepts
  exact ⟨start, grows.sessionId ▸ names, fun stream => Nat.le_trans (inside stream) (grows.length stream)⟩

/-- What a call has been answered, and which calls have been accepted. -/
def CallSound (text : Stream → List Char) (s : ConsoleSession) (call : ConsoleCall) : Prop :=
  match call.phase with
  | .checking size => 0 < size
  | .checked | .waiting | .stopping => s.Accepts call.cursor
  | .answering size => 0 < size ∧ (call.kind = .read ∨ s.Accepts call.cursor)
  | .answered snapshot captured =>
    (∃ start size, Answers s.sessionId text call.cursor snapshot captured start size) ∧
      (∀ stream, captured stream ≤ (s.outputs stream).length) ∧
      (snapshot.finished = true → s.done = true) ∧
      (snapshot.outputComplete = true → ∀ stream, (s.outputs stream).finished = true ∧
        captured stream = (s.outputs stream).length)
  | .failed _ => True

variable {text : Stream → List Char} {call : ConsoleCall}

theorem CallSound.of_grows (sound : CallSound text s call) (grows : Grows s s') :
    CallSound text s' call := by
  unfold CallSound at sound ⊢
  split at sound
  · exact sound
  · exact grows.accepts sound
  · exact grows.accepts sound
  · exact grows.accepts sound
  · exact ⟨sound.1, sound.2.imp_right grows.accepts⟩
  · obtain ⟨answers, captured, finished, complete⟩ := sound
    refine ⟨grows.sessionId ▸ answers, fun stream => Nat.le_trans (captured stream) (grows.length stream),
      fun isFinished => grows.done (finished isFinished), fun isComplete stream => ?_⟩
    obtain ⟨ended, whole⟩ := complete isComplete stream
    obtain ⟨stillEnded, same⟩ := grows.finished stream ended
    exact ⟨stillEnded, whole.trans same.symm⟩
  · trivial

/-- What holds between the steps. -/
structure SessionSound (text : Stream → List Char) (s : ConsoleSession) : Prop where
  captures : ∀ stream, Captures (text stream) (s.outputs stream) (s.left stream)
  calls : ∀ call ∈ s.calls, CallSound text s call

theorem sessionSound_started (sessionId : String) (reportDue : Option Int) (text : Stream → List Char) :
    SessionSound text (.started sessionId reportDue fun stream => utf8Encode (text stream)) where
  captures := fun stream => captures_start (text stream)
  calls := fun _ mem => nomatch mem

theorem SessionSound.setPhase {t : ConsoleSession} {n : Nat} {phase : CallPhase}
    (sound : SessionSound text s) (sessionId : t.sessionId = s.sessionId)
    (outputs : t.outputs = s.outputs) (left : t.left = s.left) (done : t.done = s.done)
    (calls : t.calls = s.calls) (next : CallSound text s { call with phase }) :
    SessionSound text (t.setPhase n call phase) ∧ Grows s (t.setPhase n call phase) := by
  have grows : Grows s (t.setPhase n call phase) :=
    .of_same sessionId outputs fun isDone => done.trans isDone
  refine ⟨⟨fun stream => ?_, fun other mem => ?_⟩, grows⟩
  · have same : (t.setPhase n call phase).outputs = s.outputs := outputs
    have sameLeft : (t.setPhase n call phase).left = s.left := left
    rw [same, sameLeft]
    exact sound.captures stream
  · rcases List.mem_or_eq_of_mem_set mem with old | rfl
    · exact (sound.calls other (calls ▸ old)).of_grows grows
    · exact next.of_grows grows

theorem beginAnswer_cases (maxChars : Option Int) :
    (∃ size, 0 < size ∧ beginAnswer maxChars = .answering size) ∨
      ∃ error, beginAnswer maxChars = .failed error := by
  unfold beginAnswer integer
  cases maxChars with
  | none => exact .inr ⟨_, rfl⟩
  | some maxChars =>
    dsimp only
    split_ifs with within
    · exact .inl ⟨maxChars.toNat, by omega, rfl⟩
    · exact .inr ⟨_, rfl⟩

theorem beginCheck_cases (maxChars : Option Int) :
    (∃ size, 0 < size ∧ beginCheck maxChars = .checking size) ∨
      ∃ error, beginCheck maxChars = .failed error := by
  unfold beginCheck integer
  cases maxChars with
  | none => exact .inr ⟨_, rfl⟩
  | some maxChars =>
    dsimp only
    split_ifs with within
    · exact .inl ⟨maxChars.toNat, by omega, rfl⟩
    · exact .inr ⟨_, rfl⟩

theorem callSound_beginAnswer (may : call.kind = .read ∨ s.Accepts call.cursor) :
    CallSound text s { call with phase := beginAnswer call.maxChars } := by
  rcases beginAnswer_cases call.maxChars with ⟨size, positive, begins⟩ | ⟨error, fails⟩
  · rw [begins]
    exact ⟨positive, may⟩
  · rw [fails]
    trivial

theorem callSound_beginCheck (kind : CallKind) (cursor : Cursor) (maxChars : Option Int) :
    CallSound text s { kind, cursor, maxChars, phase := beginCheck maxChars } := by
  rcases beginCheck_cases maxChars with ⟨size, positive, begins⟩ | ⟨error, fails⟩
  · rw [begins]
    exact positive
  · rw [fails]
    trivial

theorem callSound_beginCall (kind : CallKind) (cursor : Cursor) (maxChars : Option Int) :
    CallSound text s { kind, cursor, maxChars, phase := beginCall kind maxChars } := by
  cases kind with
  | read =>
    have may : (⟨.read, cursor, maxChars, .checked⟩ : ConsoleCall).kind = .read ∨ s.Accepts cursor :=
      .inl rfl
    exact callSound_beginAnswer may
  | wait waitSeconds =>
    rw [beginCall]
    cases integer waitSeconds "wait_seconds" 0 3600 with
    | ok _ => exact callSound_beginCheck (.wait waitSeconds) cursor maxChars
    | error error => trivial
  | stop => exact callSound_beginCheck .stop cursor maxChars

section

variable {text : Stream → List Char} {s s' : ConsoleSession} (sound : SessionSound text s)

include sound

variable {stream : Stream}

theorem sessionSound_setOutput {out : SessionOutput} {left : List UInt8}
    (captures : Captures (text stream) out left) (length : (s.outputs stream).length ≤ out.length)
    (finished : (s.outputs stream).finished = true →
      out.finished = true ∧ out.length = (s.outputs stream).length) :
    SessionSound text (s.setOutput stream out left) ∧ Grows s (s.setOutput stream out left) := by
  have outputs (other : Stream) : (s.setOutput stream out left).outputs other =
      Function.update s.outputs stream out other := rfl
  have lefts (other : Stream) : (s.setOutput stream out left).left other =
      Function.update s.left stream left other := rfl
  have grows : Grows s (s.setOutput stream out left) := by
    refine ⟨rfl, fun other => ?_, fun other isFinished => ?_, id⟩
    · rw [outputs]
      rcases em (other = stream) with rfl | ne
      · rw [Function.update_self]
        exact length
      · exact Nat.le_of_eq (congrArg SessionOutput.length (Function.update_of_ne ne _ _)).symm
    · rw [outputs]
      rcases em (other = stream) with rfl | ne
      · rw [Function.update_self]
        exact finished isFinished
      · rw [Function.update_of_ne ne]
        exact ⟨isFinished, rfl⟩
  refine ⟨⟨fun other => ?_, fun call mem => (sound.calls call mem).of_grows grows⟩, grows⟩
  rw [outputs, lefts]
  rcases em (other = stream) with rfl | ne
  · rw [Function.update_self, Function.update_self]
    exact captures
  · rw [Function.update_of_ne ne, Function.update_of_ne ne]
    exact sound.captures other

theorem sessionSound_drainStep {size : Nat} (stepped : drainStep s stream size = some s') :
    SessionSound text s' ∧ Grows s s' := by
  unfold drainStep at stepped
  split_ifs at stepped with reads
  cases stepped
  obtain ⟨reading, positive, -⟩ := reads
  obtain ⟨kept, more⟩ := captures_drain (sound.captures stream) reading positive
  refine sessionSound_setOutput sound kept more fun finished => ?_
  -- A thread that reads has not ended.
  rw [(sound.captures stream).closed finished] at reading
  cases reading

theorem sessionSound_closeStep (stepped : closeStep s stream = some s') :
    SessionSound text s' ∧ Grows s s' := by
  unfold closeStep at stepped
  split_ifs at stepped with ended
  cases stepped
  obtain ⟨length, spool, underway, isEnd, short, -⟩ := sound.captures stream
  exact sessionSound_setOutput sound ⟨length, spool, underway, isEnd, short, fun _ => ended⟩
    (Nat.le_refl _) fun _ => ⟨rfl, rfl⟩

theorem sessionSound_attemptStep {limit : Option Nat} {n : Nat} {call : ConsoleCall}
    {jsonLength : Snapshot → Nat} (mem : call ∈ s.calls)
    (stepped : attemptStep limit s n call jsonLength = some s') :
    SessionSound text s' ∧ Grows s s' := by
  have own := sound.calls call mem
  unfold CallSound at own
  unfold attemptStep at stepped
  split at stepped
  next size phase =>
    rw [phase] at own
    split at stepped
    next error _ =>
      cases stepped
      exact sound.setPhase rfl rfl rfl rfl rfl trivial
    next snapshot isAnswer =>
      cases stepped
      obtain ⟨⟨start, answers⟩, -, -⟩ := serialize_eq_answer sound.captures own isAnswer
      exact sound.setPhase rfl rfl rfl rfl rfl ⟨start, answers.names, answers.inside⟩
    next smaller isSmaller =>
      cases stepped
      exact sound.setPhase rfl rfl rfl rfl rfl (serialize_eq_smaller sound.captures isSmaller).1
  next size phase =>
    rw [phase] at own
    obtain ⟨positive, may⟩ := own
    split at stepped
    next error _ =>
      cases stepped
      exact sound.setPhase rfl rfl rfl rfl rfl trivial
    next snapshot isAnswer =>
      cases stepped
      obtain ⟨⟨start, answers⟩, finished, complete⟩ :=
        serialize_eq_answer sound.captures positive isAnswer
      exact sound.setPhase rfl rfl rfl rfl rfl ⟨⟨start, size, answers⟩, fun _ => Nat.le_refl _,
        fun isFinished => finished.symm.trans isFinished,
        fun isComplete stream => ⟨complete isComplete stream, rfl⟩⟩
    next smaller isSmaller =>
      cases stepped
      exact sound.setPhase rfl rfl rfl rfl rfl
        ⟨(serialize_eq_smaller sound.captures isSmaller).1, may⟩
  next => cases stepped

theorem sessionSound_pauseStep {n : Nat} {call : ConsoleCall} {pause : Pause} (mem : call ∈ s.calls)
    (stepped : pauseStep s n call pause = some s') : SessionSound text s' ∧ Grows s s' := by
  have own := sound.calls call mem
  unfold CallSound at own
  unfold pauseStep at stepped
  split at stepped
  next waitSeconds now phase _ =>
    rw [phase] at own
    cases stepped
    exact sound.setPhase rfl rfl rfl rfl rfl own
  next now phase _ =>
    rw [phase] at own
    cases stepped
    exact sound.setPhase rfl rfl rfl rfl rfl own
  next phase =>
    rw [phase] at own
    cases stepped
    exact sound.setPhase rfl rfl rfl rfl rfl (callSound_beginAnswer (.inr own))
  next phase =>
    rw [phase] at own
    split_ifs at stepped
    cases stepped
    exact sound.setPhase rfl rfl rfl rfl rfl own
  next phase =>
    rw [phase] at own
    split_ifs at stepped
    cases stepped
    exact sound.setPhase rfl rfl rfl rfl rfl (callSound_beginAnswer (.inr own))
  next =>
    cases stepped
    exact sound.setPhase rfl rfl rfl rfl rfl trivial
  next =>
    cases stepped
    exact sound.setPhase rfl rfl rfl rfl rfl trivial
  next => cases stepped

/-- One action keeps what was captured sound and only adds to it. -/
theorem sessionSound_step {limit : Option Nat} {a : SessionAction}
    (stepped : sessionStep limit s a = some s') : SessionSound text s' ∧ Grows s s' := by
  cases a with
  | drain stream size => exact sessionSound_drainStep sound stepped
  | close stream => exact sessionSound_closeStep sound stepped
  | finish =>
    have stepped : (if s.done then none else some { s with done := true }) = some s' := stepped
    split_ifs at stepped
    cases stepped
    have grows : Grows s { s with done := true } := .of_same rfl rfl fun _ => rfl
    exact ⟨⟨sound.captures, fun call mem => (sound.calls call mem).of_grows grows⟩, grows⟩
  | call kind cursor maxChars =>
    cases stepped
    have grows : Grows s { s with
        calls := s.calls ++ [{ kind, cursor, maxChars, phase := beginCall kind maxChars }] } :=
      .of_same rfl rfl id
    refine ⟨⟨sound.captures, fun call mem => ?_⟩, grows⟩
    rcases List.mem_append.mp mem with old | new
    · exact (sound.calls call old).of_grows grows
    · rw [List.mem_singleton.mp new]
      exact callSound_beginCall kind cursor maxChars
  | attempt n jsonLength =>
    obtain ⟨call, isCall, stepped⟩ := Option.bind_eq_some_iff.mp stepped
    exact sessionSound_attemptStep sound (List.mem_of_getElem? isCall) stepped
  | pause n pause =>
    obtain ⟨call, isCall, stepped⟩ := Option.bind_eq_some_iff.mp stepped
    exact sessionSound_pauseStep sound (List.mem_of_getElem? isCall) stepped

end

variable {sessionId : String}

/-- It is sound in every state of a session. -/
theorem sessionSound_run {limit : Option Nat} {reportDue : Option Int} {text : Stream → List Char}
    {actions : List SessionAction} {s : ConsoleSession}
    (ran : run (sessionStep limit)
      (.started sessionId reportDue fun stream => utf8Encode (text stream)) actions = some s) :
    SessionSound text s ∧ s.sessionId = sessionId := by
  have keep : ∀ s a s', SessionSound text s ∧ s.sessionId = sessionId →
      sessionStep limit s a = some s' → SessionSound text s' ∧ s'.sessionId = sessionId := by
    intro s a s' holds stepped
    obtain ⟨sound, grows⟩ := sessionSound_step holds.1 stepped
    exact ⟨sound, grows.sessionId.trans holds.2⟩
  exact run_invariant keep ⟨sessionSound_started sessionId reportDue text, rfl⟩ ran

/-! ### Readers -/

/-- A call with the cursor has been answered. -/
def ConsoleSession.Answered (s : ConsoleSession) (cursor : Cursor) (snapshot : Snapshot)
    (captured : Stream → Nat) : Prop :=
  ∃ call ∈ s.calls, call.cursor = cursor ∧ call.phase = .answered snapshot captured

/-- The answers of a reader: each call has the next cursor of the one before it. -/
def ConsoleSession.Reads (s : ConsoleSession) : Cursor → List Snapshot → Prop
  | _, [] => True
  | cursor, snapshot :: later =>
    (∃ captured, s.Answered cursor snapshot captured) ∧ s.Reads snapshot.nextCursor later

/-- The cursor of a reader after its answers. -/
def Cursor.after : Cursor → List Snapshot → Cursor
  | cursor, [] => cursor
  | _, snapshot :: later => snapshot.nextCursor.after later

/-- The text that a reader has received. -/
def received (snapshots : List Snapshot) (stream : Stream) : List Char :=
  snapshots.flatMap fun snapshot => snapshot.text stream

/-- A turn of `_serialize` returned, or goes on with a smaller size. -/
inductive Advances : CallPhase → CallPhase → Prop where
  | checked {size : Nat} : Advances (.checking size) .checked
  | checking {size smaller : Nat} : smaller < size → Advances (.checking size) (.checking smaller)
  | answered {size : Nat} {snapshot : Snapshot} {captured : Stream → Nat} :
      Advances (.answering size) (.answered snapshot captured)
  | answering {size smaller : Nat} : smaller < size → Advances (.answering size) (.answering smaller)

/-- The step is one of this call. -/
def SessionAction.IsOf (n : Nat) : SessionAction → Prop
  | .attempt m _ => m = n
  | .pause m _ => m = n
  | _ => False

/-- The output of the session, whose process writes these two texts, is replayable and complete. -/
structure Replayable (limit : Option Nat) (text : Stream → List Char) (s : ConsoleSession) : Prop where
  /-- A reader receives the text in order, without loss or repetition. -/
  inOrder : ∀ snapshots, s.Reads .absent snapshots →
    ∀ stream, received snapshots stream <+: text stream
  /-- An answer without text, or without more output, is one to a reader that has everything. -/
  hasMore : ∀ snapshots last captured, s.Reads .absent snapshots →
    s.Answered (Cursor.absent.after snapshots) last captured →
      (∀ stream, last.text stream = [] →
        received snapshots stream = (text stream).take (captured stream)) ∧
      (last.hasMoreOutput = false → ∀ stream,
        received (snapshots ++ [last]) stream = (text stream).take (captured stream))
  /-- At the end nothing more comes, and nothing is missing but what is behind the limit. -/
  complete : ∀ snapshots last captured, s.Reads .absent snapshots →
    s.Answered (Cursor.absent.after snapshots) last captured →
      last.outputComplete = true → last.hasMoreOutput = false → ∀ stream,
        (s.outputs stream).length = captured stream ∧ (s.outputs stream).reading = false ∧
          (received (snapshots ++ [last]) stream = text stream ∨
            maxStreamChars < (text stream).length ∧ (s.outputs stream).error = some .exceeded)
  /-- Of two answers to one cursor, one is a beginning of the other. -/
  repeated : ∀ cursor first second captured captured', s.Answered cursor first captured →
    s.Answered cursor second captured' → ∀ stream,
      first.text stream <+: second.text stream ∨ second.text stream <+: first.text stream
  /-- A call with a cursor that is not accepted fails, and changes nothing else. -/
  rejected : ∀ n call a s', s.calls[n]? = some call → ¬ s.Accepts call.cursor → a.IsOf n →
    sessionStep limit s a = some s' → ∃ error, s' = s.setPhase n call (.failed error)
  /-- A call gets its answer, when the limit admits one character. -/
  progress : ∀ n call size jsonLength, s.calls[n]? = some call →
    call.phase = .checking size ∨ call.phase = .answering size → s.Accepts call.cursor →
      (∀ snapshot, s.snapshot call.cursor 1 = .ok snapshot → ∀ most ∈ limit, jsonLength snapshot ≤ most) →
        ∃ phase, sessionStep limit s (.attempt n jsonLength) = some (s.setPhase n call phase) ∧
          Advances call.phase phase

theorem Cursor.Names.unique {cursor : Cursor} {start start' : Stream → Nat}
    (names : cursor.Names sessionId start) (names' : cursor.Names sessionId start') :
    start = start' := by
  rcases names with ⟨rfl, rfl⟩ | rfl
  · rcases names' with ⟨-, rfl⟩ | other
    · rfl
    · cases other
  · rcases names' with ⟨other, -⟩ | same
    · cases other
    · rw [Cursor.at_.injEq] at same
      refine funext fun stream => ?_
      have := congrFun same.2 stream
      rw [Option.some.injEq] at this
      omega

theorem Answers.text_eq {text : Stream → List Char} {cursor : Cursor} {snapshot : Snapshot}
    {captured start : Stream → Nat} {size : Nat}
    (answers : Answers sessionId text cursor snapshot captured start size) (stream : Stream)
    (held : captured stream ≤ (text stream).length) :
    (text stream).take (start stream) ++ snapshot.text stream =
        (text stream).take (start stream + (snapshot.text stream).length) ∧
      (snapshot.text stream).length = min size (captured stream - start stream) := by
  have length : (snapshot.text stream).length = min size (captured stream - start stream) := by
    rw [answers.isText, List.length_take, List.length_drop, List.length_take_of_le held]
  refine ⟨?_, length⟩
  have slice : snapshot.text stream =
      ((text stream).drop (start stream)).take (snapshot.text stream).length := by
    rw [length]
    conv_lhs => rw [answers.isText, List.drop_take, List.take_take]
  rw [List.take_add, ← slice]

section

variable {s : ConsoleSession} {text : Stream → List Char} (sound : SessionSound text s)

include sound

variable {cursor : Cursor} {captured : Stream → Nat}

theorem answers_of_answered {snapshot : Snapshot} (answered : s.Answered cursor snapshot captured) :
    (∃ start size, Answers s.sessionId text cursor snapshot captured start size) ∧
      (∀ stream, captured stream ≤ (s.outputs stream).length) ∧
      (∀ stream, captured stream ≤ (text stream).length) ∧
      (snapshot.outputComplete = true → ∀ stream, (s.outputs stream).finished = true ∧
        captured stream = (s.outputs stream).length) := by
  obtain ⟨call, mem, rfl, phase⟩ := answered
  have own := sound.calls call mem
  rw [CallSound, phase] at own
  obtain ⟨answers, held, -, complete⟩ := own
  exact ⟨answers, held, fun stream => Nat.le_trans (held stream) (sound.captures stream).length,
    complete⟩

variable {snapshots : List Snapshot}

theorem received_of_reads {start : Stream → Nat} (reads : s.Reads cursor snapshots)
    (names : cursor.Names s.sessionId start) :
    ∃ stop, (cursor.after snapshots).Names s.sessionId stop ∧ ∀ stream,
      (text stream).take (start stream) ++ received snapshots stream = (text stream).take (stop stream) := by
  induction snapshots generalizing cursor start with
  | nil => exact ⟨start, names, fun stream => List.append_nil _⟩
  | cons snapshot later ih =>
    obtain ⟨⟨captured, answered⟩, rest⟩ := reads
    obtain ⟨⟨start', size, answers⟩, -, held, -⟩ := answers_of_answered sound answered
    obtain rfl := names.unique answers.names
    obtain ⟨stop, namesStop, eq⟩ := ih rest (.inr answers.next)
    refine ⟨stop, namesStop, fun stream => ?_⟩
    rw [← eq stream, ← (answers.text_eq stream (held stream)).1, List.append_assoc]
    rfl

theorem length_received_le (reads : s.Reads .absent snapshots) (stream : Stream) :
    (received snapshots stream).length ≤ maxStreamChars := by
  have bounded : ∀ cursor start, cursor.Names s.sessionId start → start stream ≤ maxStreamChars →
      s.Reads cursor snapshots → start stream + (received snapshots stream).length ≤ maxStreamChars := by
    clear reads
    induction snapshots with
    | nil => exact fun _ _ _ short _ => short
    | cons snapshot later ih =>
      intro cursor start names short reads
      obtain ⟨⟨captured, answered⟩, rest⟩ := reads
      obtain ⟨⟨start', size, answers⟩, held, fits, -⟩ := answers_of_answered sound answered
      obtain rfl := names.unique answers.names
      have length := (answers.text_eq stream (fits stream)).2
      have spool := (sound.captures stream).short
      have inSpool := held stream
      have inside := answers.inside stream
      have next := ih _ _ (.inr answers.next) (by omega) rest
      rw [received, List.flatMap_cons, List.length_append, ← received]
      omega
  have all := bounded .absent (fun _ => 0) (.inl ⟨rfl, rfl⟩) (Nat.zero_le _) reads
  omega

theorem received_last {last : Snapshot} (reads : s.Reads .absent snapshots)
    (answered : s.Answered (Cursor.absent.after snapshots) last captured) :
    (∀ stream, last.text stream = [] →
        received snapshots stream = (text stream).take (captured stream)) ∧
      (last.hasMoreOutput = false → ∀ stream,
        received (snapshots ++ [last]) stream = (text stream).take (captured stream)) := by
  obtain ⟨stop, names, eq⟩ := received_of_reads sound reads (.inl ⟨rfl, rfl⟩)
  obtain ⟨⟨start, size, answers⟩, -, held, -⟩ := answers_of_answered sound answered
  obtain rfl := names.unique answers.names
  have positive := answers.positive
  refine ⟨fun stream none => ?_, fun noMore stream => ?_⟩
  · have length := (answers.text_eq stream (held stream)).2
    rw [none, List.length_nil] at length
    have inside := answers.inside stream
    have same : stop stream = captured stream := by omega
    rw [← same, ← eq stream]
    rfl
  · obtain ⟨whole, length⟩ := answers.text_eq stream (held stream)
    have reached : ¬ stop stream + (last.text stream).length < captured stream := fun more => by
      rw [answers.more.mpr ⟨stream, more⟩] at noMore
      cases noMore
    have inside := answers.inside stream
    have same : stop stream + (last.text stream).length = captured stream := by omega
    have before : received snapshots stream = (text stream).take (stop stream) := eq stream
    rw [received, List.flatMap_append, List.flatMap_singleton, ← received, before, whole, same]

theorem prefix_of_answered {first second : Snapshot} {captured' : Stream → Nat}
    (answered : s.Answered cursor first captured) (answered' : s.Answered cursor second captured')
    (stream : Stream) :
    first.text stream <+: second.text stream ∨ second.text stream <+: first.text stream := by
  obtain ⟨⟨start, size, answers⟩, -, held, -⟩ := answers_of_answered sound answered
  obtain ⟨⟨start', size', answers'⟩, -, held', -⟩ := answers_of_answered sound answered'
  obtain rfl := answers.names.unique answers'.names
  have whole := (answers.text_eq stream (held stream)).1
  have whole' := (answers'.text_eq stream (held' stream)).1
  have ordered := List.prefix_or_prefix_of_prefix
    (whole ▸ List.take_prefix _ _ :
      (text stream).take (start stream) ++ first.text stream <+: text stream)
    (whole' ▸ List.take_prefix _ _)
  rw [List.prefix_append_right_inj, List.prefix_append_right_inj] at ordered
  exact ordered

theorem step_of_not_accepts {limit : Option Nat} {n : Nat} {call : ConsoleCall} {a : SessionAction}
    {s' : ConsoleSession} (isCall : s.calls[n]? = some call) (rejected : ¬ s.Accepts call.cursor)
    (isOf : a.IsOf n) (stepped : sessionStep limit s a = some s') :
    ∃ error, s' = s.setPhase n call (.failed error) := by
  have own := sound.calls call (List.mem_of_getElem? isCall)
  cases a with
  | attempt m jsonLength =>
    obtain rfl : m = n := isOf
    rw [sessionStep, isCall, Option.bind_some, attemptStep] at stepped
    obtain ⟨phase, isPhase⟩ : ∃ phase, call.phase = phase := ⟨_, rfl⟩
    rw [isPhase] at stepped
    cases phase with
    | checking size =>
      obtain ⟨error, isError⟩ :=
        serialize_of_not_accepts sound.captures rejected limit size jsonLength
      simp only [isError] at stepped
      cases stepped
      exact ⟨error, rfl⟩
    | answering size =>
      obtain ⟨error, isError⟩ :=
        serialize_of_not_accepts sound.captures rejected limit size jsonLength
      simp only [isError] at stepped
      cases stepped
      exact ⟨error, rfl⟩
    | checked => cases stepped
    | waiting => cases stepped
    | stopping => cases stepped
    | answered snapshot captured => cases stepped
    | failed error => cases stepped
  | pause m pause =>
    obtain rfl : m = n := isOf
    rw [sessionStep, isCall, Option.bind_some] at stepped
    unfold pauseStep at stepped
    unfold CallSound at own
    obtain ⟨phase, isPhase⟩ : ∃ phase, call.phase = phase := ⟨_, rfl⟩
    rw [isPhase] at own stepped
    cases phase with
    | checked => exact absurd own rejected
    | waiting => exact absurd own rejected
    | stopping => exact absurd own rejected
    | checking size => cases stepped
    | answering size => cases stepped
    | answered snapshot captured => cases stepped
    | failed error => cases stepped
  | drain stream size => cases isOf
  | close stream => cases isOf
  | finish => cases isOf
  | call kind cursor maxChars => cases isOf

theorem step_advances {limit : Option Nat} {n : Nat} {call : ConsoleCall} {size : Nat}
    {jsonLength : Snapshot → Nat} (isCall : s.calls[n]? = some call)
    (phase : call.phase = .checking size ∨ call.phase = .answering size) (accepts : s.Accepts call.cursor)
    (admits : ∀ snapshot, s.snapshot call.cursor 1 = .ok snapshot →
      ∀ most ∈ limit, jsonLength snapshot ≤ most) :
    ∃ phase, sessionStep limit s (.attempt n jsonLength) = some (s.setPhase n call phase) ∧
      Advances call.phase phase := by
  have own := sound.calls call (List.mem_of_getElem? isCall)
  rw [sessionStep, isCall, Option.bind_some, attemptStep]
  unfold CallSound at own
  rcases phase with phase | phase
  · rw [phase] at own ⊢
    rcases serialize_progress sound.captures accepts own admits with
      ⟨snapshot, isAnswer⟩ | ⟨smaller, less, isSmaller⟩
    · exact ⟨.checked, by simp only [isAnswer], .checked⟩
    · exact ⟨.checking smaller, by simp only [isSmaller], .checking less⟩
  · rw [phase] at own ⊢
    rcases serialize_progress sound.captures accepts own.1 admits with
      ⟨snapshot, isAnswer⟩ | ⟨smaller, less, isSmaller⟩
    · exact ⟨.answered snapshot fun stream => (s.outputs stream).length, by simp only [isAnswer],
        .answered⟩
    · exact ⟨.answering smaller, by simp only [isSmaller], .answering less⟩

end

/-- **After every run of a session, whatever its process writes, however the two threads cut it, and
whatever is called meanwhile, its output is replayable and complete.** -/
theorem session_replayable {limit : Option Nat} {sessionId : String} {reportDue : Option Int}
    {text : Stream → List Char} {actions : List SessionAction} {s : ConsoleSession}
    (ran : run (sessionStep limit)
      (.started sessionId reportDue fun stream => utf8Encode (text stream)) actions = some s) :
    Replayable limit text s := by
  obtain ⟨sound, -⟩ := sessionSound_run ran
  refine ⟨fun snapshots reads stream => ?_, fun _ _ _ => received_last sound,
    fun snapshots last captured reads answered complete noMore stream => ?_,
    fun _ _ _ _ _ => prefix_of_answered sound, fun _ _ _ _ => step_of_not_accepts sound,
    fun _ _ _ _ => step_advances sound⟩
  · obtain ⟨stop, -, eq⟩ := received_of_reads sound reads (.inl ⟨rfl, rfl⟩)
    have all : received snapshots stream = (text stream).take (stop stream) := eq stream
    rw [all]
    exact List.take_prefix _ _
  · obtain ⟨-, -, -, ended⟩ := answers_of_answered sound answered
    obtain ⟨finished, same⟩ := ended complete stream
    have captures := sound.captures stream
    have stopped := captures.closed finished
    refine ⟨same.symm, stopped, ?_⟩
    rcases captures.ended stopped with ⟨-, whole⟩ | ⟨error, tooLong⟩
    · left
      rw [(received_last sound reads answered).2 noMore stream, same, whole, List.take_length]
    · exact .inr ⟨tooLong, error⟩

/-- A process writes "a" and "é"; the second character comes in two reads, and one call is between
them.  The reader has both when the process is done. -/
theorem session_replayable_split :
    ∃ s, run (sessionStep (some 1000))
        (.started "s" none fun stream => utf8Encode (if stream = .stdout then ['a', 'é'] else []))
        [.drain .stdout 2, .call .read .absent (some 8000), .attempt 0 fun _ => 500,
          .drain .stdout 8192, .drain .stdout 8192, .drain .stderr 8192, .close .stdout,
          .close .stderr, .finish,
          .call .stop (.at_ (some "s") fun stream => some (if stream = .stdout then 1 else 0))
            (some 4),
          .attempt 1 fun _ => 500, .pause 1 (.proceed 0), .pause 1 .resume,
          .attempt 1 fun _ => 500] = some s ∧
      (s.calls.map fun call => match call.phase with
        | .answered snapshot _ => (snapshot.text .stdout, snapshot.hasMoreOutput)
        | _ => ([], true)) = [(['a'], false), (['é'], false)] ∧
      Replayable (some 1000) (fun stream => if stream = .stdout then ['a', 'é'] else []) s := by
  have ends : (run (sessionStep (some 1000))
      (.started "s" none fun stream => utf8Encode (if stream = .stdout then ['a', 'é'] else []))
      [.drain .stdout 2, .call .read .absent (some 8000), .attempt 0 fun _ => 500,
        .drain .stdout 8192, .drain .stdout 8192, .drain .stderr 8192, .close .stdout,
        .close .stderr, .finish,
        .call .stop (.at_ (some "s") fun stream => some (if stream = .stdout then 1 else 0)) (some 4),
        .attempt 1 fun _ => 500, .pause 1 (.proceed 0), .pause 1 .resume,
        .attempt 1 fun _ => 500]).any (fun s => (s.calls.map fun call => match call.phase with
        | .answered snapshot _ => (snapshot.text .stdout, snapshot.hasMoreOutput)
        | _ => ([], true)) = [(['a'], false), (['é'], false)]) = true := by decide +kernel
  obtain ⟨s, ran, answers⟩ := (Option.any_eq_true _ _).mp ends
  exact ⟨s, ran, of_decide_eq_true answers, session_replayable ran⟩

/-- A reader of a text that is too long for the spool never receives the whole of it. -/
theorem session_replayable_exceeded :
    ∃ text : Stream → List Char, ∀ limit actions s,
      run (sessionStep limit) (.started "s" none fun stream => utf8Encode (text stream)) actions =
        some s →
      ∀ snapshots, s.Reads .absent snapshots → received snapshots .stdout ≠ text .stdout := by
  refine ⟨fun _ => List.replicate (maxStreamChars + 1) 'a', fun limit actions s ran snapshots reads all => ?_⟩
  have short := length_received_le (sessionSound_run ran).1 reads .stdout
  rw [all, List.length_replicate] at short
  exact Nat.not_succ_le_self _ short

end AgentPark.Workspace
