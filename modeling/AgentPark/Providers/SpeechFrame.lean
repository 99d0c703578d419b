import AgentPark.Lib.Codec

/-!
# The frames of the speech socket

A `SpeechWsMessage` travels as a header of four bytes and a body.  Which optional fields the body has
depends on the type of the message, on its flag and on its event, and the two directions decide it by
themselves: `toBytes` writes the event before the error code, `fromBytes` reads it behind the error code.
-/

namespace AgentPark.Providers

open Lib

/-- The exceptions of both directions. -/
inductive SpeechError where
  | valueError (text : String)
  | unicodeDecodeError
  | indexError
  | structError
deriving DecidableEq

/-- `isinstance(error, ValueError)` -/
def SpeechError.IsValueError : SpeechError → Prop
  | .valueError _ | .unicodeDecodeError => True
  | .indexError | .structError => False

def audioOnlyClient : Nat := 0x2
def audioOnlyServer : Nat := 0xB
def errorResponse : Nat := 0xF

def positiveSequence : Nat := 0x1
def negativeSequence : Nat := 0x3
def withEvent : Nat := 0x4

def startConnection : Int := 1
def finishConnection : Int := 2
def connectionStarted : Int := 50
def connectionFailed : Int := 51
def connectionFinished : Int := 52

/-- The events that carry the id of a connection. -/
def connectionEvents : List Int := [connectionStarted, connectionFailed, connectionFinished]

/-- The events that carry no id. -/
def bareEvents : List Int := [startConnection, finishConnection]

structure SpeechWsMessage where
  messageType : Nat
  flag : Nat := 0
  event : Int := 0
  sessionId : String := ""
  connectId : String := ""
  sequence : Int := 0
  errorCode : Nat := 0
  payload : List UInt8 := []
deriving DecidableEq

/-! ### The writer -/

/-- `struct.pack(">I", n)` -/
def packWord (n : Nat) : Except SpeechError (List UInt8) :=
  if n < 4294967296 then .ok (wordBytes n) else .error .structError

/-- `struct.pack(">i", v)` -/
def packSigned (v : Int) : Except SpeechError (List UInt8) :=
  if -2147483648 ≤ v ∧ v < 2147483648 then .ok (wordBytes (signedWord v)) else .error .structError

/-- An id behind the length of its bytes. -/
def packText (text : String) : Except SpeechError (List UInt8) := do
  let size ← packWord (utf8Encode text.toList).length
  .ok (size ++ utf8Encode text.toList)

namespace SpeechWsMessage

variable (m : SpeechWsMessage)

/-- The header of `to_bytes`. -/
def packHeader : Except SpeechError (List UInt8) :=
  let serialization : UInt8 := if m.messageType ∈ [audioOnlyClient, audioOnlyServer] then 0 else 0x10
  let typeFlag := (m.messageType <<< 4) ||| m.flag
  if typeFlag < 256 then .ok [0x11, UInt8.ofNat typeFlag, serialization, 0x00]
  else .error (.valueError "bytes must be in range(0, 256)")

/-- The event of `to_bytes`, with its id. -/
def packEvent : Except SpeechError (List UInt8) :=
  if m.flag = withEvent then do
    let event ← packSigned m.event
    if m.event ∈ connectionEvents then
      let connection ← packText m.connectId
      .ok (event ++ connection)
    else if m.event ∉ bareEvents then
      let session ← packText m.sessionId
      .ok (event ++ session)
    else .ok event
  else .ok []

/-- The error code or the sequence of `to_bytes`. -/
def packCode : Except SpeechError (List UInt8) :=
  if m.messageType = errorResponse then packWord m.errorCode
  else if m.flag ∈ [positiveSequence, negativeSequence] then packSigned m.sequence
  else .ok []

/-- `to_bytes` -/
def toBytes : Except SpeechError (List UInt8) := do
  let header ← m.packHeader
  let event ← m.packEvent
  let code ← m.packCode
  let size ← packWord m.payload.length
  .ok (header ++ event ++ code ++ size ++ m.payload)

/-! ### The reader -/

/-- `Truncated …` -/
def truncated : SpeechError := .valueError "Truncated Doubao speech WebSocket frame."

def truncatedText : SpeechError := .valueError "Truncated Doubao speech WebSocket text field."

def malformedPayload : SpeechError := .valueError "Malformed Doubao speech WebSocket payload length."

/-- `_read_int32(stream, signed=False)` -/
def readInt32 : StreamReader UInt8 SpeechError Nat := readWord truncated

/-- `_read_int32(stream, signed=True)` -/
def readSignedInt32 : StreamReader UInt8 SpeechError Int := readSigned truncated

/-- `_read_text` -/
def readTextField : StreamReader UInt8 SpeechError String :=
  readText truncated truncatedText .unicodeDecodeError

/-- The bytes behind a message's other fields. -/
def readPayload : StreamReader UInt8 SpeechError (List UInt8) := do
  let size ← readInt32
  readExactly size malformedPayload

/-- `stream.read(1)[0]` -/
def readByte : StreamReader UInt8 SpeechError UInt8
  | [] => .error .indexError
  | byte :: rest => .ok (byte, rest)

/-- `stream.read(count)`, whatever it gives. -/
def skip (count : Nat) : StreamReader UInt8 SpeechError Unit := fun s => .ok ((), s.drop count)

/-- `from_bytes` behind the header. -/
def readBody (messageType flag : Nat) : StreamReader UInt8 SpeechError SpeechWsMessage := do
  let errorCode ← (if messageType = errorResponse then readInt32 else pure 0)
  let sequence ← (if messageType ≠ errorResponse ∧ flag ∈ [positiveSequence, negativeSequence] then
    readSignedInt32 else pure 0)
  let event ← (if flag = withEvent then readSignedInt32 else pure 0)
  let sessionId ← (if flag = withEvent ∧ event ∉ bareEvents ++ connectionEvents then
    readTextField else pure "")
  let connectId ← (if flag = withEvent ∧ event ∈ connectionEvents then readTextField else pure "")
  let payload ← readPayload
  pure { messageType, flag, event, sessionId, connectId, sequence, errorCode, payload }

/-- `from_bytes` up to the end of the payload. -/
def readFrame : StreamReader UInt8 SpeechError SpeechWsMessage := do
  let versionHeader ← readByte
  if versionHeader.toNat >>> 4 ≠ 1 then
    StreamReader.ofExcept (.error (.valueError "Unsupported Doubao speech WebSocket protocol version."))
  else
    let headerWords := versionHeader.toNat &&& 0x0F
    let typeFlag ← readByte
    skip 1
    skip (headerWords * 4 - 3)
    readBody (typeFlag.toNat >>> 4) (typeFlag.toNat &&& 0x0F)

/-- `from_bytes` -/
def fromBytes (value : List UInt8) : Except SpeechError SpeechWsMessage :=
  if value.length < 8 then .error (.valueError "Doubao speech WebSocket frame is too short.")
  else match readFrame value with
    | .ok (message, []) => .ok message
    | .ok (_, _ :: _) => .error malformedPayload
    | .error error => .error error

/-! ### What travels -/

/-- A message with the ranges of its fields, and with the defaults of those that do not travel. -/
structure Canonical : Prop where
  messageType : m.messageType < 16
  flag : m.flag < 16
  errorCode : if m.messageType = errorResponse then m.errorCode < 4294967296 else m.errorCode = 0
  sequence : if m.messageType ≠ errorResponse ∧ m.flag ∈ [positiveSequence, negativeSequence] then
    -2147483648 ≤ m.sequence ∧ m.sequence < 2147483648 else m.sequence = 0
  event : if m.flag = withEvent then -2147483648 ≤ m.event ∧ m.event < 2147483648 else m.event = 0
  sessionId : ¬ (m.flag = withEvent ∧ m.event ∉ bareEvents ++ connectionEvents) → m.sessionId = ""
  connectId : ¬ (m.flag = withEvent ∧ m.event ∈ connectionEvents) → m.connectId = ""
  payload : m.payload.length < 4294967296

/-- The ids that travel are shorter than their length can say. -/
def ShortIds : Prop :=
  (m.flag = withEvent ∧ m.event ∉ bareEvents ++ connectionEvents →
    (utf8Encode m.sessionId.toList).length < 4294967296) ∧
  (m.flag = withEvent ∧ m.event ∈ connectionEvents →
    (utf8Encode m.connectId.toList).length < 4294967296)

/-- The error code or the sequence in bytes. -/
def codeBytes : List UInt8 :=
  (if m.messageType = errorResponse then wordBytes m.errorCode else []) ++
    (if m.messageType ≠ errorResponse ∧ m.flag ∈ [positiveSequence, negativeSequence] then
      wordBytes (signedWord m.sequence) else [])

/-- The event and its id in bytes. -/
def eventBytes : List UInt8 :=
  (if m.flag = withEvent then wordBytes (signedWord m.event) else []) ++
    ((if m.flag = withEvent ∧ m.event ∉ bareEvents ++ connectionEvents then
      prefixedText m.sessionId else []) ++
    (if m.flag = withEvent ∧ m.event ∈ connectionEvents then prefixedText m.connectId else []))

/-- The payload behind its length. -/
def payloadBytes : List UInt8 := wordBytes m.payload.length ++ m.payload

/-- The header of a frame. -/
def headerBytes : List UInt8 :=
  [0x11, UInt8.ofNat ((m.messageType <<< 4) ||| m.flag),
    if m.messageType ∈ [audioOnlyClient, audioOnlyServer] then 0 else 0x10, 0x00]

/-- No error frame with an event, or one whose error code and event fields are the same bytes in either
order. -/
def OrderFree : Prop :=
  m.messageType = errorResponse → m.flag = withEvent →
    m.codeBytes ++ m.eventBytes = m.eventBytes ++ m.codeBytes

variable {m}

/-! ### The reader takes what travels -/

theorem codec_readPayload : Codec readPayload (fun payload => wordBytes payload.length ++ payload)
    (·.length < 4294967296) := by
  have value (size : Nat) : Codec (readExactly size malformedPayload) id
      fun payload : List UInt8 => payload.length = size ∧ True :=
    (codec_readExactly size malformedPayload).congr (fun _ => (and_iff_left trivial).symm) fun _ _ => rfl
  have both := (codec_readWord truncated).bind (fun payload : List UInt8 => payload.length)
    fun size _ => value size
  exact both.congr (fun _ => and_iff_left trivial) fun _ _ => rfl

/-- The bytes of a body in the order of the reader. -/
def bodyBytes (m : SpeechWsMessage) : List UInt8 := m.codeBytes ++ (m.eventBytes ++ m.payloadBytes)

/-- The reader takes exactly the fields of a body in its own order. -/
theorem codec_readBody (messageType flag : Nat) (typeLt : messageType < 16) (flagLt : flag < 16) :
    Codec (readBody messageType flag) bodyBytes
      (fun m => m.messageType = messageType ∧ m.flag = flag ∧ m.Canonical ∧ m.ShortIds) where
  reads m rest good := by
    obtain ⟨rfl, rfl, canonical, shortSession, shortConnection⟩ := good
    have inOrder : m.bodyBytes ++ rest =
        (if m.messageType = errorResponse then wordBytes m.errorCode else []) ++
        ((if m.messageType ≠ errorResponse ∧ m.flag ∈ [positiveSequence, negativeSequence] then
          wordBytes (signedWord m.sequence) else []) ++
        ((if m.flag = withEvent then wordBytes (signedWord m.event) else []) ++
        ((if m.flag = withEvent ∧ m.event ∉ bareEvents ++ connectionEvents then
          prefixedText m.sessionId else []) ++
        ((if m.flag = withEvent ∧ m.event ∈ connectionEvents then prefixedText m.connectId else []) ++
        (m.payloadBytes ++ rest))))) := by
      simp only [bodyBytes, codeBytes, eventBytes, List.append_assoc]
    have text := codec_readText truncated truncatedText .unicodeDecodeError
    have session : if m.flag = withEvent ∧ m.event ∉ bareEvents ++ connectionEvents then
        (utf8Encode m.sessionId.toList).length < 4294967296 else m.sessionId = "" := by
      split
      · exact shortSession ‹_›
      · exact canonical.sessionId ‹_›
    have connection : if m.flag = withEvent ∧ m.event ∈ connectionEvents then
        (utf8Encode m.connectId.toList).length < 4294967296 else m.connectId = "" := by
      split
      · exact shortConnection ‹_›
      · exact canonical.connectId ‹_›
    rw [inOrder, readBody, read_bind_eq_ok]
    refine ⟨_, _, ((codec_readWord truncated).guarded _ 0).reads _ _ canonical.errorCode, ?_⟩
    rw [read_bind_eq_ok]
    refine ⟨_, _, ((codec_readSigned truncated).guarded _ 0).reads _ _ canonical.sequence, ?_⟩
    rw [read_bind_eq_ok]
    refine ⟨_, _, ((codec_readSigned truncated).guarded _ 0).reads _ _ canonical.event, ?_⟩
    rw [read_bind_eq_ok]
    refine ⟨_, _, (text.guarded _ "").reads _ _ session, ?_⟩
    rw [read_bind_eq_ok]
    refine ⟨_, _, (text.guarded _ "").reads _ _ connection, ?_⟩
    rw [read_bind_eq_ok]
    exact ⟨_, _, codec_readPayload.reads _ _ canonical.payload, rfl⟩
  exact s m rest eq := by
    have text := codec_readText truncated truncatedText .unicodeDecodeError
    obtain ⟨errorCode, s₁, readCode, eq⟩ := read_bind_eq_ok.mp eq
    obtain ⟨isCode, goodCode⟩ := ((codec_readWord truncated).guarded _ 0).exact _ _ _ readCode
    obtain ⟨sequence, s₂, readSequence, eq⟩ := read_bind_eq_ok.mp eq
    obtain ⟨isSequence, goodSequence⟩ := ((codec_readSigned truncated).guarded _ 0).exact _ _ _ readSequence
    obtain ⟨event, s₃, readEvent, eq⟩ := read_bind_eq_ok.mp eq
    obtain ⟨isEvent, goodEvent⟩ := ((codec_readSigned truncated).guarded _ 0).exact _ _ _ readEvent
    obtain ⟨sessionId, s₄, readSession, eq⟩ := read_bind_eq_ok.mp eq
    obtain ⟨isSession, goodSession⟩ := (text.guarded _ "").exact _ _ _ readSession
    obtain ⟨connectId, s₅, readConnection, eq⟩ := read_bind_eq_ok.mp eq
    obtain ⟨isConnection, goodConnection⟩ := (text.guarded _ "").exact _ _ _ readConnection
    obtain ⟨payload, s₆, isRead, eq⟩ := read_bind_eq_ok.mp eq
    obtain ⟨isPayload, goodPayload⟩ := codec_readPayload.exact _ _ _ isRead
    cases eq
    refine ⟨?_, rfl, rfl, ⟨typeLt, flagLt, goodCode, goodSequence, goodEvent, ?_, ?_, goodPayload⟩, ?_, ?_⟩
    · rw [isCode, isSequence, isEvent, isSession, isConnection, isPayload]
      simp only [bodyBytes, codeBytes, eventBytes, payloadBytes, List.append_assoc]
    · intro absent
      rwa [if_neg absent] at goodSession
    · intro absent
      rwa [if_neg absent] at goodConnection
    · intro present
      rwa [if_pos present] at goodSession
    · intro present
      rwa [if_pos present] at goodConnection

/-! ### The writer gives the same fields -/

theorem packWord_eq_ok {n : Nat} {bytes : List UInt8} :
    packWord n = .ok bytes ↔ n < 4294967296 ∧ wordBytes n = bytes := by
  unfold packWord
  split
  · rename_i lt
    simp [lt]
  · rename_i large
    simp [large]

theorem packText_eq_ok {text : String} {bytes : List UInt8} :
    packText text = .ok bytes ↔
      (utf8Encode text.toList).length < 4294967296 ∧ prefixedText text = bytes := by
  unfold packText packWord
  split
  · rename_i lt
    simp [lt, prefixedText, bind, Except.bind]
  · rename_i large
    simp [large, bind, Except.bind]

theorem Canonical.packHeader (canonical : m.Canonical) : m.packHeader = .ok m.headerBytes := by
  have lt : (m.messageType <<< 4) ||| m.flag < 256 := by
    rw [← Nat.shiftLeft_add_eq_or_of_lt canonical.flag, Nat.shiftLeft_eq]
    have typeLt := canonical.messageType
    have flagLt := canonical.flag
    omega
  simp only [SpeechWsMessage.packHeader, if_pos lt, headerBytes]

theorem Canonical.packCode (canonical : m.Canonical) : m.packCode = .ok m.codeBytes := by
  have code := canonical.errorCode
  have sequence := canonical.sequence
  unfold SpeechWsMessage.packCode codeBytes
  by_cases isError : m.messageType = errorResponse
  · rw [if_pos isError] at code
    rw [if_pos isError, if_pos isError, if_neg fun both => both.1 isError, List.append_nil]
    exact packWord_eq_ok.mpr ⟨code, rfl⟩
  · by_cases numbered : m.flag ∈ [positiveSequence, negativeSequence]
    · rw [if_pos ⟨isError, numbered⟩] at sequence
      rw [if_neg isError, if_neg isError, if_pos numbered, if_pos ⟨isError, numbered⟩, packSigned,
        if_pos sequence]
      rfl
    · rw [if_neg isError, if_neg isError, if_neg numbered, if_neg fun both => numbered both.2]
      rfl

theorem Canonical.packEvent_eq_ok (canonical : m.Canonical) {bytes : List UInt8} :
    m.packEvent = .ok bytes ↔ m.ShortIds ∧ m.eventBytes = bytes := by
  have range := canonical.event
  unfold SpeechWsMessage.packEvent eventBytes ShortIds
  by_cases hasEvent : m.flag = withEvent
  · rw [if_pos hasEvent] at range
    have packed : packSigned m.event = .ok (wordBytes (signedWord m.event)) := if_pos range
    by_cases connection : m.event ∈ connectionEvents
    · have listed : m.event ∈ bareEvents ++ connectionEvents := List.mem_append_right _ connection
      cases eq : packText m.connectId with
      | error e =>
        have long : ¬ (utf8Encode m.connectId.toList).length < 4294967296 := fun short =>
          nomatch eq.symm.trans (packText_eq_ok.mpr ⟨short, rfl⟩)
        simp [hasEvent, packed, connection, long, bind, Except.bind]
      | ok written =>
        obtain ⟨short, rfl⟩ := packText_eq_ok.mp eq
        simp [hasEvent, packed, connection, short, bind, Except.bind]
    · by_cases bare : m.event ∈ bareEvents
      · simp [hasEvent, packed, connection, bare, bind, Except.bind]
      · cases eq : packText m.sessionId with
        | error e =>
          have long : ¬ (utf8Encode m.sessionId.toList).length < 4294967296 := fun short =>
            nomatch eq.symm.trans (packText_eq_ok.mpr ⟨short, rfl⟩)
          simp [hasEvent, packed, connection, bare, long, bind, Except.bind]
        | ok written =>
          obtain ⟨short, rfl⟩ := packText_eq_ok.mp eq
          simp [hasEvent, packed, connection, bare, short, bind, Except.bind]
  · simp [hasEvent]

/-- The writer gives the same fields in the other order. -/
theorem Canonical.toBytes_eq_ok (canonical : m.Canonical) {bytes : List UInt8} :
    m.toBytes = .ok bytes ↔
      m.ShortIds ∧ m.headerBytes ++ (m.eventBytes ++ (m.codeBytes ++ m.payloadBytes)) = bytes := by
  have size : packWord m.payload.length = .ok (wordBytes m.payload.length) :=
    packWord_eq_ok.mpr ⟨canonical.payload, rfl⟩
  unfold toBytes
  rw [canonical.packHeader, canonical.packCode, size]
  cases eq : m.packEvent with
  | error e =>
    have long : ¬ m.ShortIds := fun short =>
      nomatch eq.symm.trans (canonical.packEvent_eq_ok.mpr ⟨short, rfl⟩)
    simp [long, bind, Except.bind]
  | ok written =>
    obtain ⟨short, rfl⟩ := canonical.packEvent_eq_ok.mp eq
    simp [short, payloadBytes, bind, Except.bind]

theorem OrderFree.append_comm (free : m.OrderFree) :
    m.codeBytes ++ m.eventBytes = m.eventBytes ++ m.codeBytes := by
  by_cases hasEvent : m.flag = withEvent
  · by_cases isError : m.messageType = errorResponse
    · exact free isError hasEvent
    · have unnumbered : m.codeBytes = [] := by
        rw [codeBytes, if_neg isError, hasEvent, if_neg fun both => absurd both.2 (by decide)]
        rfl
      rw [unnumbered, List.append_nil, List.nil_append]
  · have noEvent : m.eventBytes = [] := by
      simp [eventBytes, hasEvent]
    rw [noEvent, List.append_nil, List.nil_append]

/-! ### Headers -/

theorem typeFlag_type (typeFlag : UInt8) : typeFlag.toNat >>> 4 = typeFlag.toNat / 16 :=
  Nat.shiftRight_eq_div_pow _ 4

theorem typeFlag_flag (typeFlag : UInt8) : typeFlag.toNat &&& 0x0F = typeFlag.toNat % 16 :=
  Nat.and_two_pow_sub_one_eq_mod _ 4

theorem Canonical.typeFlag (canonical : m.Canonical) :
    (UInt8.ofNat ((m.messageType <<< 4) ||| m.flag)).toNat = 16 * m.messageType + m.flag := by
  have typeLt := canonical.messageType
  have flagLt := canonical.flag
  rw [← Nat.shiftLeft_add_eq_or_of_lt flagLt, Nat.shiftLeft_eq, UInt8.toNat_ofNat']
  omega

theorem fromBytes_eq_ok {value : List UInt8} :
    fromBytes value = .ok m ↔ 8 ≤ value.length ∧ readFrame value = .ok (m, []) := by
  unfold fromBytes
  split
  · rename_i short
    exact iff_of_false nofun fun both => absurd both.1 (by omega)
  · rename_i long
    split
    · rename_i message eq
      simp [eq, Nat.not_lt.mp long]
    · rename_i message byte rest eq
      simp [eq]
    · rename_i error eq
      simp [eq]

theorem readFrame_cons (version typeFlag : UInt8) (rest : List UInt8) :
    readFrame (version :: typeFlag :: rest) =
      if version.toNat >>> 4 ≠ 1 then
        .error (.valueError "Unsupported Doubao speech WebSocket protocol version.")
      else readBody (typeFlag.toNat >>> 4) (typeFlag.toNat &&& 0x0F)
        ((rest.drop 1).drop ((version.toNat &&& 0x0F) * 4 - 3)) := by
  change (if version.toNat >>> 4 ≠ 1 then _ else _ : StreamReader UInt8 SpeechError SpeechWsMessage)
    (typeFlag :: rest) = _
  split
  · rfl
  · rfl

/-- The first byte names version one and a header of one word. -/
def OneWordHeader (value : List UInt8) : Prop := value.head? = some 0x11

theorem fromBytes_oneWord {typeFlag serialization reserved : UInt8} {body : List UInt8} :
    fromBytes (0x11 :: typeFlag :: serialization :: reserved :: body) = .ok m ↔
      body = m.bodyBytes ∧ m.messageType = typeFlag.toNat / 16 ∧ m.flag = typeFlag.toNat % 16 ∧
        m.Canonical ∧ m.ShortIds := by
  have codec := codec_readBody (typeFlag.toNat / 16) (typeFlag.toNat % 16)
    (by have lt := typeFlag.toNat_lt; omega) (Nat.mod_lt _ (by decide))
  have read : readFrame (0x11 :: typeFlag :: serialization :: reserved :: body) =
      readBody (typeFlag.toNat / 16) (typeFlag.toNat % 16) body := by
    rw [readFrame_cons, ← typeFlag_type, ← typeFlag_flag]
    rfl
  rw [fromBytes_eq_ok, read]
  constructor
  · intro ⟨_, eq⟩
    obtain ⟨isBody, sameType, sameFlag, canonical, short⟩ := codec.exact _ _ _ eq
    rw [List.append_nil] at isBody
    exact ⟨isBody, sameType, sameFlag, canonical, short⟩
  · intro ⟨isBody, good⟩
    have eq := codec.reads m [] good
    rw [List.append_nil, ← isBody] at eq
    refine ⟨?_, eq⟩
    have size : 4 ≤ body.length := by
      rw [isBody, bodyBytes, payloadBytes]
      simp only [List.length_append, length_wordBytes]
      omega
    simp only [List.length_cons]
    omega

/-! ### Every error is a `ValueError` -/

theorem raises_readBody (messageType flag : Nat) :
    (readBody messageType flag).Raises SpeechError.IsValueError := by
  have word : (readWord truncated).Raises SpeechError.IsValueError := raises_readWord trivial
  have signed : (readSigned truncated).Raises SpeechError.IsValueError := raises_readSigned trivial
  have text : readTextField.Raises SpeechError.IsValueError := raises_readText trivial trivial trivial
  have payload : readPayload.Raises SpeechError.IsValueError :=
    word.bind fun size => raises_readExactly size trivial
  refine (word.guarded _ 0).bind fun _ => (signed.guarded _ 0).bind fun _ => (signed.guarded _ 0).bind
    fun _ => (text.guarded _ "").bind fun _ => (text.guarded _ "").bind fun _ => payload.bind fun _ => ?_
  exact .pure _

theorem fromBytes_raises {value : List UInt8} {error : SpeechError}
    (failed : fromBytes value = .error error) : error.IsValueError := by
  unfold fromBytes at failed
  split at failed
  · cases failed
    trivial
  · rename_i long
    split at failed
    · cases failed
    · cases failed
      trivial
    · rename_i raised eq
      cases failed
      match value, long with
      | [], long => exact (long (by simp)).elim
      | [_], long => exact (long (by simp)).elim
      | version :: typeFlag :: rest, _ =>
        rw [readFrame_cons] at eq
        split at eq
        · cases eq
          trivial
        · exact raises_readBody _ _ _ _ eq

/-! ### The round trips -/

/-- The size of the event fields in front of some bytes. -/
def eventSize (bytes : List UInt8) : Nat :=
  if signedValue (wordValue (bytes.take 4)) ∈ bareEvents then 4
  else 8 + wordValue ((bytes.drop 4).take 4)

/-- `value` is no error frame with an event, or its error code and event fields are the same bytes in either
order. -/
def OrderFreeBytes (value : List UInt8) : Prop :=
  value[1]? = some 0xF4 →
    (value.drop 4).take 4 ++ (value.drop 8).take (eventSize (value.drop 8)) =
      (value.drop 8).take (eventSize (value.drop 8)) ++ (value.drop 4).take 4

theorem eventSize_eventBytes (canonical : m.Canonical) (short : m.ShortIds) (hasEvent : m.flag = withEvent)
    (rest : List UInt8) : eventSize (m.eventBytes ++ rest) = m.eventBytes.length := by
  have range := canonical.event
  rw [if_pos hasEvent] at range
  have lt : signedWord m.event < 4294967296 := by
    unfold signedWord
    omega
  have event : signedValue (wordValue (wordBytes (signedWord m.event))) = m.event := by
    rw [wordValue_wordBytes lt, signedValue_signedWord range.1 range.2]
  have text {id : String} (idShort : (utf8Encode id.toList).length < 4294967296)
      (named : m.event ∉ bareEvents) :
      eventSize (wordBytes (signedWord m.event) ++ prefixedText id ++ rest) =
        (wordBytes (signedWord m.event) ++ prefixedText id).length := by
    have word : (wordBytes (signedWord m.event) ++ prefixedText id ++ rest).take 4 =
        wordBytes (signedWord m.event) := rfl
    have size : ((wordBytes (signedWord m.event) ++ prefixedText id ++ rest).drop 4).take 4 =
        wordBytes (utf8Encode id.toList).length := rfl
    rw [eventSize, word, event, if_neg named, size, wordValue_wordBytes idShort]
    simp only [prefixedText, List.length_append, length_wordBytes]
    omega
  by_cases connection : m.event ∈ connectionEvents
  · have listed : m.event ∈ bareEvents ++ connectionEvents := List.mem_append_right _ connection
    have named : m.event ∉ bareEvents := by
      intro bare
      simp only [connectionEvents, bareEvents, connectionStarted, connectionFailed, connectionFinished,
        startConnection, finishConnection, List.mem_cons, List.not_mem_nil, or_false] at connection bare
      omega
    rw [eventBytes, if_pos hasEvent, if_neg fun both => both.2 listed, if_pos ⟨hasEvent, connection⟩,
      List.nil_append]
    exact text (short.2 ⟨hasEvent, connection⟩) named
  · by_cases bare : m.event ∈ bareEvents
    · have word : (wordBytes (signedWord m.event) ++ rest).take 4 = wordBytes (signedWord m.event) := rfl
      rw [eventBytes, if_pos hasEvent, if_neg fun both => both.2 (List.mem_append_left _ bare),
        if_neg fun both => connection both.2, List.append_nil, List.append_nil, eventSize, word, event,
        if_pos bare, length_wordBytes]
    · have unlisted : m.event ∉ bareEvents ++ connectionEvents := by
        rw [List.mem_append]
        exact not_or.mpr ⟨bare, connection⟩
      rw [eventBytes, if_pos hasEvent, if_pos ⟨hasEvent, unlisted⟩, if_neg fun both => connection both.2,
        List.append_nil]
      exact text (short.1 ⟨hasEvent, unlisted⟩) bare

theorem orderFreeBytes_iff {typeFlag serialization reserved : UInt8} (canonical : m.Canonical)
    (short : m.ShortIds) (sameType : m.messageType = typeFlag.toNat / 16)
    (sameFlag : m.flag = typeFlag.toNat % 16) :
    OrderFreeBytes (0x11 :: typeFlag :: serialization :: reserved :: m.bodyBytes) ↔
      m.codeBytes ++ m.eventBytes = m.eventBytes ++ m.codeBytes := by
  by_cases isErrorEvent : m.messageType = errorResponse ∧ m.flag = withEvent
  · obtain ⟨isError, hasEvent⟩ := isErrorEvent
    have named : typeFlag = 0xF4 := by
      rw [← UInt8.toNat_inj]
      have typeIs : typeFlag.toNat / 16 = 15 := sameType.symm.trans isError
      have flagIs : typeFlag.toNat % 16 = 4 := sameFlag.symm.trans hasEvent
      change typeFlag.toNat = 244
      omega
    have code : m.codeBytes = wordBytes m.errorCode := by
      rw [codeBytes, if_pos isError, if_neg fun both => both.1 isError, List.append_nil]
    have first : m.bodyBytes.take 4 = m.codeBytes := by
      rw [bodyBytes, code]
      rfl
    have second : m.bodyBytes.drop 4 = m.eventBytes ++ m.payloadBytes := by
      rw [bodyBytes, code]
      rfl
    have fields : (m.bodyBytes.drop 4).take (eventSize (m.bodyBytes.drop 4)) = m.eventBytes := by
      rw [second, eventSize_eventBytes canonical short hasEvent, List.take_left]
    change (some typeFlag = some 0xF4 → m.bodyBytes.take 4 ++
      (m.bodyBytes.drop 4).take (eventSize (m.bodyBytes.drop 4)) =
      (m.bodyBytes.drop 4).take (eventSize (m.bodyBytes.drop 4)) ++ m.bodyBytes.take 4) ↔ _
    rw [fields, first, named]
    exact ⟨fun same => same rfl, fun same _ => same⟩
  · have free : m.OrderFree := fun isError hasEvent => (isErrorEvent ⟨isError, hasEvent⟩).elim
    refine iff_of_true (fun named => ?_) free.append_comm
    have byte : typeFlag = 0xF4 := Option.some.inj named
    rw [byte] at sameType sameFlag
    exact (isErrorEvent ⟨sameType, sameFlag⟩).elim

/-- Which messages come back from their bytes, and which bytes from their messages. -/
theorem frames_roundTrip_iff (m : SpeechWsMessage) (value : List UInt8) :
    (m.Canonical →
      ((∃ bytes, m.toBytes = .ok bytes ∧ fromBytes bytes = .ok m) ↔ m.OrderFree ∧ m.ShortIds)) ∧
    (∀ m, fromBytes value = .ok m → OneWordHeader value →
      ((∃ bytes, m.toBytes = .ok bytes ∧ bytes.drop 4 = value.drop 4) ↔ OrderFreeBytes value)) ∧
    ∀ error, fromBytes value = .error error → error.IsValueError := by
  refine ⟨?_, ?_, fun error => fromBytes_raises⟩
  · intro canonical
    have header := canonical.typeFlag
    have typeLt := canonical.messageType
    have flagLt := canonical.flag
    constructor
    · intro ⟨bytes, written, read⟩
      obtain ⟨short, rfl⟩ := canonical.toBytes_eq_ok.mp written
      obtain ⟨sameBody, _⟩ := fromBytes_oneWord.mp read
      rw [bodyBytes, ← List.append_assoc, ← List.append_assoc] at sameBody
      exact ⟨fun _ _ => (List.append_cancel_right sameBody).symm, short⟩
    · intro ⟨free, short⟩
      refine ⟨_, canonical.toBytes_eq_ok.mpr ⟨short, rfl⟩, ?_⟩
      refine fromBytes_oneWord.mpr ⟨?_, ?_, ?_, canonical, short⟩
      · rw [bodyBytes, ← List.append_assoc, ← List.append_assoc, free.append_comm]
        rfl
      · omega
      · omega
  · intro m accepted oneWord
    obtain ⟨long, _⟩ := fromBytes_eq_ok.mp accepted
    match value, long with
    | version :: typeFlag :: serialization :: reserved :: body, _ =>
      cases oneWord
      obtain ⟨rfl, sameType, sameFlag, canonical, short⟩ := fromBytes_oneWord.mp accepted
      rw [orderFreeBytes_iff canonical short sameType sameFlag]
      constructor
      · intro ⟨bytes, written, same⟩
        obtain ⟨_, rfl⟩ := canonical.toBytes_eq_ok.mp written
        change m.eventBytes ++ (m.codeBytes ++ m.payloadBytes) = m.bodyBytes at same
        rw [bodyBytes, ← List.append_assoc, ← List.append_assoc] at same
        exact (List.append_cancel_right same).symm
      · intro same
        refine ⟨_, canonical.toBytes_eq_ok.mpr ⟨short, rfl⟩, ?_⟩
        change m.eventBytes ++ (m.codeBytes ++ m.payloadBytes) = m.bodyBytes
        rw [bodyBytes, ← List.append_assoc, ← List.append_assoc, same]

/-- A session that starts, and comes back. -/
def sessionStart : SpeechWsMessage where
  messageType := 0x1
  flag := withEvent
  event := 100
  sessionId := "s"
  payload := [0x7b, 0x7d]

theorem canonical_sessionStart : sessionStart.Canonical where
  messageType := by decide
  flag := by decide
  errorCode := rfl
  sequence := rfl
  event := by decide
  sessionId absent := absurd (by decide) absent
  connectId _ := rfl
  payload := by decide

/-- Its bytes are read back, and those that are read are its bytes. -/
theorem frames_sessionStart :
    (∃ bytes, sessionStart.toBytes = .ok bytes ∧ fromBytes bytes = .ok sessionStart) ∧
      (∃ bytes, (⟨1, 0, 0, "", "", 0, 0, [5]⟩ : SpeechWsMessage).toBytes = .ok bytes ∧
        bytes.drop 4 = [0, 0, 0, 1, 5]) ∧
      fromBytes [0x11, 0x14] ≠ .error .indexError := by
  refine ⟨((frames_roundTrip_iff sessionStart []).1 canonical_sessionStart).mpr ⟨nofun, ?_, ?_⟩, ?_, ?_⟩
  · intro _
    decide
  · intro _
    decide
  · refine ((frames_roundTrip_iff sessionStart [0x11, 0x10, 0x20, 0, 0, 0, 0, 1, 5]).2.1 _ (by decide) rfl).mpr ?_
    intro isError
    exact absurd isError (by decide)
  · intro failed
    exact (frames_roundTrip_iff sessionStart [0x11, 0x14]).2.2 _ failed

/-- An error with the event of a session. -/
def sessionError : SpeechWsMessage where
  messageType := errorResponse
  flag := withEvent
  event := 150
  sessionId := "s"
  errorCode := 7

/-- Its event is read as its error code, and the length of its session as its event. -/
theorem fromBytes_sessionError :
    sessionError.Canonical ∧ sessionError.ShortIds ∧
      ¬ ∃ bytes, sessionError.toBytes = .ok bytes ∧ fromBytes bytes = .ok sessionError := by
  have canonical : sessionError.Canonical :=
    { messageType := by decide
      flag := by decide
      errorCode := by decide
      sequence := rfl
      event := by decide
      sessionId := fun absent => absurd (by decide) absent
      connectId := fun _ => rfl
      payload := by decide }
  refine ⟨canonical, ⟨fun _ => by decide, fun _ => by decide⟩, ?_⟩
  intro ⟨bytes, written, read⟩
  have frame : sessionError.toBytes = .ok [0x11, 0xF4, 0x10, 0, 0, 0, 0, 150, 0, 0, 0, 1, 0x73,
      0, 0, 0, 7, 0, 0, 0, 0] := by decide
  rw [frame] at written
  cases written
  have failed : fromBytes [0x11, 0xF4, 0x10, 0, 0, 0, 0, 150, 0, 0, 0, 1, 0x73, 0, 0, 0, 7, 0, 0, 0, 0] =
      .error malformedPayload := by decide
  exact nomatch failed.symm.trans read

end SpeechWsMessage

end AgentPark.Providers
