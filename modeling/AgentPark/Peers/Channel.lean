import AgentPark.Lib.Framing
import AgentPark.Lib.Lines
import AgentPark.Peers.Delivery

/-!
# Messages on a data channel

`PeerChannel.send` writes a message as a frame, in chunks, under a lock; `receive` on the other side
takes the chunks one by one and decodes each body.  A send may end between any two of its chunks.
`handle` closes the channel then, `call` leaves it open.
-/

namespace AgentPark.Peers

open Lib

/-- `MAX_MESSAGE` -/
def maxMessage : Nat := 8 * 1024 * 1024

/-- `CHUNK_SIZE` -/
def chunkSize : Nat := 16000

/-- `json.dumps(data, ensure_ascii=False, separators=(",", ":")).encode("utf-8")` -/
def Document.body (message : Document) : List UInt8 :=
  utf8Encode (dumpsCompact (.obj message.fields))

/-- The send that holds `write_lock`, with what is left of its payload. -/
structure Sending where
  message : Document
  rest : List UInt8
  /-- A chunk has been sent. -/
  started : Bool := false

/-- What `receive` has made of the chunks: the raw bodies and what was decoded. -/
structure Received where
  raws : List (List UInt8) := []
  decoded : List Json := []

/-- One direction of a channel.  `closed` is the side that sends; the other has no `reader` once it
has closed.  `locked`, `begun` and `torn` only watch: the messages in the order in which their sends
took the lock, those of which a chunk was sent, and whether one was given up between its chunks. -/
structure Direction where
  lock : Option Sending
  closed : Bool
  wire : List (List UInt8)
  reader : Option Reader
  received : Received
  locked : List Document
  begun : List Document
  torn : Bool

def Direction.empty : Direction where
  lock := none
  closed := false
  wire := []
  reader := some {}
  received := {}
  locked := []
  begun := []
  torn := false

/-- A body in `receive`: it is decoded and has to be valid. -/
def handleBody (valid : List Json → Json → Bool) (received : Received) (raw : List UInt8) :
    Received × Bool :=
  let raws := received.raws ++ [raw]
  match (utf8Decode raw).bind loads with
  | some value =>
    ({ raws, decoded := received.decoded ++ [value] }, valid received.decoded value)
  | none => ({ received with raws }, false)

/-- `receive` -/
def receive (valid : List Json → Json → Bool) (reader : Reader) (data : List UInt8)
    (received : Received) : Option Reader × Received :=
  if chunkSize < data.length then (none, received)
  else reader.feed maxMessage (handleBody valid) data received

/-- What can happen.  A chunk that arrives is judged by what is valid then: the kind of a body, its
contract and the number of requests that are running. -/
inductive ChannelAction where
  | acquire (message : Document)
  | chunk
  /-- A time-out, a cancellation or an error ends the send that holds the lock. -/
  | fail (closes : Bool)
  | close
  | deliver (valid : List Json → Json → Bool)

/-- The steps of one direction: sends on one side, the channel in order, `receive` on the other. -/
def channelStep (s : Direction) : ChannelAction → Option Direction
  | .acquire message =>
    match s.lock with
    | some _ => none
    | none =>
      if maxMessage < message.body.length then some s
      else
        some { s with
          lock := some { message, rest := frame message.body }
          locked := s.locked ++ [message] }
  | .chunk =>
    match s.lock with
    | none => none
    | some sending =>
      if s.closed then none
      else
        let rest := sending.rest.drop chunkSize
        some { s with
          wire := s.wire ++ [sending.rest.take chunkSize]
          begun := if sending.started then s.begun else s.begun ++ [sending.message]
          lock := if rest = [] then none else some { sending with rest, started := true } }
  | .fail closes =>
    match s.lock with
    | none => none
    | some sending =>
      some { s with
        lock := none
        closed := s.closed || closes
        torn := s.torn || sending.started }
  | .close => some { s with closed := true }
  | .deliver valid =>
    match s.reader, s.wire with
    | some reader, data :: wire =>
      let (reader, received) := receive valid reader data s.received
      some { s with wire, reader, received }
    | _, _ => none

/-! ### Bodies -/

theorem Document.body_eq (message : Document) :
    ∃ rest, message.body = 123 :: rest ∧
      (utf8Decode message.body).bind loads = some (.obj message.fields) := by
  obtain ⟨front, isText⟩ := dumpsFieldsWith_last [] message.fields
  refine ⟨utf8Encode (front ++ ['\x7d']), ?_, ?_⟩
  · rw [Document.body, dumpsCompact, dumpsWith, isText, utf8Encode_cons]
    rfl
  · rw [Document.body, utf8Decode_utf8Encode, Option.bind_some]
    exact loads_dumpsCompact message.unique

theorem Document.body_pos (message : Document) : 0 < message.body.length := by
  obtain ⟨rest, isBody, _⟩ := message.body_eq
  rw [isBody]
  exact Nat.succ_pos _

theorem handleBody_body (valid : List Json → Json → Bool) (received : Received)
    (message : Document) : handleBody valid received message.body =
      ({ raws := received.raws ++ [message.body]
         decoded := received.decoded ++ [.obj message.fields] },
        valid received.decoded (.obj message.fields)) := by
  obtain ⟨_, _, decoded⟩ := message.body_eq
  rw [handleBody, decoded]

theorem handles_bodies {valid : List Json → Json → Bool} : ∀ {messages : List Document}
    {received t : Received},
    Reader.Handles (handleBody valid) (messages.map Document.body) received t →
      t.raws = received.raws ++ messages.map Document.body ∧
        t.decoded = received.decoded ++ messages.map fun message => .obj message.fields
  | [], received, t, handled => by
    cases handled
    rw [List.map_nil, List.map_nil, List.append_nil, List.append_nil]
    exact ⟨rfl, rfl⟩
  | message :: messages, received, t, handled => by
    obtain ⟨_, handled⟩ := handled
    rw [handleBody_body] at handled
    obtain ⟨raws, decoded⟩ := handles_bodies handled
    rw [raws, decoded]
    simp

/-! ### Steps -/

section

variable {s t : Direction}

theorem channelStep_acquire {message : Document} :
    channelStep s (.acquire message) = some t ↔ s.lock = none ∧
      t = if maxMessage < message.body.length then s
        else { s with
          lock := some { message, rest := frame message.body }
          locked := s.locked ++ [message] } := by
  rw [channelStep]
  cases s.lock with
  | none =>
    dsimp only
    split
    · simp [eq_comm]
    · simp [eq_comm]
  | some sending => simp

theorem channelStep_chunk : channelStep s .chunk = some t ↔
    ∃ sending, s.lock = some sending ∧ s.closed = false ∧ t = { s with
      wire := s.wire ++ [sending.rest.take chunkSize]
      begun := if sending.started then s.begun else s.begun ++ [sending.message]
      lock :=
        if sending.rest.drop chunkSize = [] then none
        else some { sending with rest := sending.rest.drop chunkSize, started := true } } := by
  rw [channelStep]
  cases s.lock with
  | none => simp
  | some sending =>
    dsimp only
    constructor
    · intro stepped
      split at stepped
      · cases stepped
      · rename_i isOpen
        cases stepped
        exact ⟨sending, rfl, Bool.eq_false_iff.mpr isOpen, rfl⟩
    · rintro ⟨_, holds, isOpen, rfl⟩
      cases holds
      rw [isOpen]
      rfl

theorem channelStep_fail {closes : Bool} : channelStep s (.fail closes) = some t ↔
    ∃ sending, s.lock = some sending ∧ t = { s with
      lock := none
      closed := s.closed || closes
      torn := s.torn || sending.started } := by
  rw [channelStep]
  cases s.lock with
  | none => simp
  | some sending => simp [eq_comm]

theorem channelStep_deliver {valid : List Json → Json → Bool} :
    channelStep s (.deliver valid) = some t ↔
      ∃ reader data wire, s.reader = some reader ∧ s.wire = data :: wire ∧ t = { s with
        wire
        reader := (receive valid reader data s.received).1
        received := (receive valid reader data s.received).2 } := by
  rw [channelStep]
  cases s.reader with
  | none => simp
  | some reader =>
    cases s.wire with
    | nil => simp
    | cons data wire =>
      constructor
      · rintro ⟨⟩
        exact ⟨reader, data, wire, rfl, rfl, rfl⟩
      · rintro ⟨_, _, _, isReader, isWire, rfl⟩
        cases isReader
        cases isWire
        rfl

end

/-! ### Whole frames -/

/-- No chunk goes out behind a message that was given up between its chunks. -/
def Untorn (s : Direction) : ChannelAction → Prop
  | .chunk => s.torn = false
  | _ => True

instance (s : Direction) : (action : ChannelAction) → Decidable (Untorn s action)
  | .chunk => inferInstanceAs (Decidable (s.torn = false))
  | .acquire _ | .fail _ | .close | .deliver _ => isTrue trivial

/-- What the current send still has of a message it has begun. -/
def Direction.leftOver (s : Direction) : List UInt8 :=
  match s.lock with
  | some sending => if sending.started then sending.rest else []
  | none => []

/-- What was received, and what is on the way, are the frames of the messages that were begun. -/
structure Framed (s : Direction) : Prop where
  sizes : ∀ message ∈ s.begun, message.body.length ≤ maxMessage
  sending : ∀ sending, s.lock = some sending → sending.message.body.length ≤ maxMessage ∧
    (sending.started = false → sending.rest = frame sending.message.body ∧
      ∃ earlier, s.locked = earlier ++ [sending.message] ∧ s.begun.Sublist earlier)
  order : s.begun.Sublist s.locked
  chunks : ∀ data ∈ s.wire, data.length ≤ chunkSize
  stream : ∃ front rest tail, s.begun = front ++ rest ∧
    s.received.raws = front.map Document.body ∧
    s.received.decoded = front.map (fun message => .obj message.fields) ∧
    (s.torn = false → tail = s.leftOver) ∧
    ∀ reader, s.reader = some reader → reader.Waits maxMessage ∧
      reader.pending ++ (s.wire.flatten ++ tail) = framesOf (rest.map Document.body)

theorem framed_empty : Framed .empty where
  sizes _ mem := nomatch mem
  sending _ holds := nomatch holds
  order := List.Sublist.slnil
  chunks _ mem := nomatch mem
  stream := by
    refine ⟨[], [], [], rfl, rfl, rfl, fun _ => rfl, ?_⟩
    rintro reader ⟨⟩
    exact ⟨Reader.waits_empty maxMessage, rfl⟩

section

variable {s t : Direction}

theorem Framed.acquire (framed : Framed s) {message : Document}
    (stepped : channelStep s (.acquire message) = some t) : Framed t := by
  obtain ⟨free, rfl⟩ := channelStep_acquire.mp stepped
  split
  · exact framed
  · rename_i fits
    obtain ⟨front, rest, tail, isBegun, raws, decoded, untorn, onWire⟩ := framed.stream
    refine ⟨framed.sizes, ?_, framed.order.trans (List.sublist_append_left _ _), framed.chunks,
      front, rest, tail, isBegun, raws, decoded, ?_, onWire⟩
    · rintro sending ⟨⟩
      exact ⟨Nat.le_of_not_lt fits, fun _ => ⟨rfl, s.locked, rfl, framed.order⟩⟩
    · intro whole
      rw [untorn whole, Direction.leftOver, free]
      rfl

theorem Framed.chunk (framed : Framed s) (stepped : channelStep s .chunk = some t)
    (whole : s.torn = false) : Framed t := by
  obtain ⟨sending, holds, _, rfl⟩ := channelStep_chunk.mp stepped
  obtain ⟨fits, unstarted⟩ := framed.sending sending holds
  obtain ⟨front, rest, tail, isBegun, raws, decoded, untorn, onWire⟩ := framed.stream
  have left : (Direction.leftOver { s with
      wire := s.wire ++ [sending.rest.take chunkSize]
      begun := if sending.started then s.begun else s.begun ++ [sending.message]
      lock :=
        if sending.rest.drop chunkSize = [] then none
        else some { sending with rest := sending.rest.drop chunkSize, started := true } }) =
      sending.rest.drop chunkSize := by
    unfold Direction.leftOver
    dsimp only
    split
    · rename_i next isNext
      split at isNext
      · cases isNext
      · cases isNext
        rfl
    · rename_i isNext
      split at isNext
      · rename_i done
        exact done.symm
      · cases isNext
  have bytes : (s.wire ++ [sending.rest.take chunkSize]).flatten ++ sending.rest.drop chunkSize =
      s.wire.flatten ++ sending.rest := by
    rw [List.flatten_append, List.flatten_singleton, List.append_assoc, List.take_append_drop]
  have isTail : tail = if sending.started then sending.rest else [] := by
    rw [untorn whole, Direction.leftOver, holds]
  have chunks : ∀ data ∈ s.wire ++ [sending.rest.take chunkSize], data.length ≤ chunkSize := by
    intro data mem
    rcases List.mem_append.mp mem with old | new
    · exact framed.chunks data old
    · rw [List.mem_singleton.mp new]
      exact List.length_take_le _ _
  have later : ∀ next, (if sending.rest.drop chunkSize = [] then none
      else some { sending with rest := sending.rest.drop chunkSize, started := true }) = some next →
      next.message.body.length ≤ maxMessage ∧ next.started = true := by
    intro next isNext
    split at isNext
    · cases isNext
    · cases isNext
      exact ⟨fits, rfl⟩
  cases started : sending.started with
  | true =>
    rw [started, if_pos rfl] at isTail
    simp only [started] at left ⊢
    refine ⟨framed.sizes, ?_, framed.order, chunks, front, rest, _, isBegun, raws, decoded,
      fun _ => left.symm, ?_⟩
    · intro next isNext
      obtain ⟨fits, isStarted⟩ := later next isNext
      refine ⟨fits, fun notStarted => ?_⟩
      rw [isStarted] at notStarted
      cases notStarted
    · intro reader isReader
      obtain ⟨waits, same⟩ := onWire reader isReader
      refine ⟨waits, ?_⟩
      rw [bytes, ← isTail]
      exact same
  | false =>
    obtain ⟨isRest, earlier, isLocked, before⟩ := unstarted started
    rw [started, if_neg Bool.false_ne_true] at isTail
    simp only [started] at left ⊢
    refine ⟨?_, ?_, ?_, chunks, front, rest ++ [sending.message], _, ?_, raws, decoded,
      fun _ => left.symm, ?_⟩
    · intro message mem
      rcases List.mem_append.mp mem with old | new
      · exact framed.sizes message old
      · rw [List.mem_singleton.mp new]
        exact fits
    · intro next isNext
      obtain ⟨fits, isStarted⟩ := later next isNext
      refine ⟨fits, fun notStarted => ?_⟩
      rw [isStarted] at notStarted
      cases notStarted
    · dsimp only
      rw [isLocked]
      exact before.append (List.Sublist.refl _)
    · dsimp only
      rw [isBegun, List.append_assoc]
      rfl
    · intro reader isReader
      obtain ⟨waits, same⟩ := onWire reader isReader
      refine ⟨waits, ?_⟩
      rw [isTail, List.append_nil] at same
      rw [bytes, isRest, List.map_append, framesOf_append, ← same, List.map_singleton,
        framesOf_cons, framesOf_nil, List.append_nil, List.append_assoc]

theorem Framed.fail (framed : Framed s) {closes : Bool}
    (stepped : channelStep s (.fail closes) = some t) : Framed t := by
  obtain ⟨sending, holds, rfl⟩ := channelStep_fail.mp stepped
  obtain ⟨front, rest, tail, isBegun, raws, decoded, untorn, onWire⟩ := framed.stream
  refine ⟨framed.sizes, ?_, framed.order, framed.chunks, front, rest, tail, isBegun, raws, decoded,
    ?_, onWire⟩
  · intro _ holds
    cases holds
  intro whole
  obtain ⟨whole, unstarted⟩ := Bool.or_eq_false_iff.mp whole
  rw [untorn whole, Direction.leftOver, holds]
  dsimp only
  rw [unstarted]
  rfl

theorem Framed.deliver (framed : Framed s) {valid : List Json → Json → Bool}
    (stepped : channelStep s (.deliver valid) = some t) : Framed t := by
  obtain ⟨reader, data, wire, isReader, isWire, rfl⟩ := channelStep_deliver.mp stepped
  obtain ⟨front, rest, tail, isBegun, raws, decoded, untorn, onWire⟩ := framed.stream
  obtain ⟨waits, same⟩ := onWire reader isReader
  have short : data.length ≤ chunkSize := by
    apply framed.chunks
    rw [isWire]
    exact List.mem_cons_self
  have fit : ∀ body ∈ rest.map Document.body, 0 < body.length ∧ body.length ≤ maxMessage := by
    intro body mem
    obtain ⟨message, isRest, rfl⟩ := List.mem_map.mp mem
    refine ⟨message.body_pos, framed.sizes message ?_⟩
    rw [isBegun]
    exact List.mem_append_right front isRest
  rw [isWire, List.flatten_cons, List.append_assoc] at same
  have read := @Reader.read_feed _ _ _ (handleBody valid) _ _ _ s.received (by decide) waits fit same
  have isFeed : receive valid reader data s.received =
      reader.feed maxMessage (handleBody valid) data s.received := if_neg (Nat.not_lt_of_le short)
  refine ⟨framed.sizes, framed.sending, framed.order, ?_, ?_⟩
  · intro chunk mem
    apply framed.chunks
    rw [isWire]
    exact List.mem_cons_of_mem data mem
  · dsimp only
    rw [isFeed]
    generalize reader.feed maxMessage (handleBody valid) data s.received = result at read
    cases read with
    | @waits taken kept reader' received split handled waits same =>
      obtain ⟨messages, others, rfl, rfl, rfl⟩ := List.map_eq_append_iff.mp split
      obtain ⟨moreRaws, moreDecoded⟩ := handles_bodies handled
      refine ⟨front ++ messages, others, tail, ?_, ?_, ?_, untorn, ?_⟩
      · rw [isBegun, List.append_assoc]
      · dsimp only
        rw [moreRaws, raws, List.map_append]
      · dsimp only
        rw [moreDecoded, decoded, List.map_append]
      · rintro _ ⟨⟩
        exact ⟨waits, same⟩
    | @refused taken kept raw received split handled refuses =>
      obtain ⟨messages, others, rfl, rfl, isOthers⟩ := List.map_eq_append_iff.mp split
      obtain ⟨last, others, rfl, rfl, rfl⟩ := List.map_eq_cons_iff.mp isOthers
      obtain ⟨moreRaws, moreDecoded⟩ := handles_bodies handled
      refine ⟨front ++ messages ++ [last], others, tail, ?_, ?_, ?_, untorn, fun _ same => nomatch same⟩
      · rw [isBegun, List.append_assoc, List.append_assoc]
        rfl
      · rw [handleBody_body]
        dsimp only
        rw [moreRaws, raws, List.map_append, List.map_append, List.map_singleton]
      · rw [handleBody_body]
        dsimp only
        rw [moreDecoded, decoded, List.map_append, List.map_append, List.map_singleton]

/-- A step that sends no chunk behind a torn frame keeps the stream one of whole frames. -/
theorem Framed.step (framed : Framed s) {action : ChannelAction}
    (stepped : channelStep s action = some t) (untorn : Untorn s action) : Framed t := by
  cases action with
  | acquire message => exact framed.acquire stepped
  | chunk => exact framed.chunk stepped untorn
  | fail closes => exact framed.fail stepped
  | close =>
    cases stepped
    exact ⟨framed.sizes, framed.sending, framed.order, framed.chunks, framed.stream⟩
  | deliver valid => exact framed.deliver stepped

end

/-! ### After every run -/

/-- `{"t": "aa…a"}` -/
def letters (n : Nat) : Document where
  fields := [("t", .str (String.ofList (List.replicate n 'a')))]
  unique := by simp [Json.UniqueKeys, Json.UniqueKeysFields]

theorem body_letters (n : Nat) : (letters n).body =
    [123, 34, 116, 34, 58, 34] ++ (List.replicate n 97 ++ [34, 125]) := by
  have text : ∀ n, utf8Encode ((List.replicate n 'a').flatMap escapeChar) = List.replicate n 97 := by
    intro n
    induction n with
    | zero => rfl
    | succ n ih =>
      rw [List.replicate_succ, List.flatMap_cons, utf8Encode_append, ih]
      rfl
  have isText : dumpsCompact (.obj (letters n).fields) = ['\x7b', '"', 't', '"', ':', '"'] ++
      ((List.replicate n 'a').flatMap escapeChar ++ ['"', '\x7d']) := by
    have key : dumpsString "t".toList = ['t', '"'] := rfl
    rw [letters, dumpsCompact, dumpsWith, dumpsFieldsWith, key, dumpsWith, dumpsString,
      String.toList_ofList]
    simp
  rw [Document.body, isText, utf8Encode_append, utf8Encode_append, text]
  rfl

/-- The bodies that were received are those of messages that were begun, whole and in the order in
which their sends took the lock, and so is what was decoded; and what the reader takes for a length
is the length of the next of them. -/
theorem channel_whole {actions : List ChannelAction} {s : Direction}
    (ran : run channelStep .empty actions = some s)
    (untorn : Along channelStep (fun s action _ => Untorn s action) .empty actions) :
    s.begun.Sublist s.locked ∧ ∃ front rest, s.begun = front ++ rest ∧
      s.received.raws = front.map Document.body ∧
      s.received.decoded = front.map (fun message => .obj message.fields) ∧
      ∀ reader, s.reader = some reader → reader.expected ≠ 0 →
        ∃ message, rest.head? = some message ∧ reader.expected = message.body.length := by
  have framed : Framed s :=
    run_invariant_along (fun _ _ _ framed stepped here => framed.step stepped here) framed_empty
      untorn ran
  obtain ⟨front, rest, tail, isBegun, raws, decoded, -, onWire⟩ := framed.stream
  refine ⟨framed.order, front, rest, isBegun, raws, decoded, fun reader isReader awaits => ?_⟩
  obtain ⟨waits, same⟩ := onWire reader isReader
  rw [Reader.Waits, if_neg awaits] at waits
  rw [Reader.pending, if_neg awaits, List.append_assoc] at same
  cases rest with
  | nil =>
    rw [List.map_nil, framesOf_nil, List.append_eq_nil_iff] at same
    cases same.1
  | cons message rest =>
    refine ⟨message, rfl, ?_⟩
    have fits : message.body.length ≤ maxMessage := by
      apply framed.sizes
      rw [isBegun]
      exact List.mem_append_right front List.mem_cons_self
    have limit : maxMessage < 2 ^ 32 := by decide
    rw [List.map_cons, framesOf_cons, frame, List.append_assoc] at same
    have read := congrArg (fun bytes => readPrefix (bytes ++ [])) (List.append_inj same rfl).1
    rw [readPrefix_lengthPrefix (by omega), readPrefix_lengthPrefix (by omega)] at read
    exact read

/-- A message that is given up before its first chunk, and two behind it that arrive one after the other. -/
def twoLetters : List ChannelAction :=
  [.acquire (letters 1), .fail false, .acquire (letters 2), .chunk, .acquire (letters 3),
    .deliver fun _ _ => true, .chunk, .deliver fun _ _ => false]

/-- Both letters arrive whole. -/
theorem channel_whole_twoLetters : ∃ s, run channelStep .empty twoLetters = some s ∧
    s.received.raws.length = 2 ∧ s.begun.Sublist s.locked ∧ ∃ front rest, s.begun = front ++ rest ∧
      s.received.raws = front.map Document.body ∧
      s.received.decoded = front.map fun message => .obj message.fields := by
  have counts : (run channelStep .empty twoLetters).map (fun s => s.received.raws.length) = some 2 := by
    decide +kernel
  obtain ⟨s, ran, both⟩ := Option.map_eq_some_iff.mp counts
  have untorn : Along channelStep (fun s action _ => Untorn s action) .empty twoLetters := by
    decide +kernel
  obtain ⟨order, front, rest, isBegun, raws, decoded, -⟩ := channel_whole ran untorn
  exact ⟨s, ran, both, order, front, rest, isBegun, raws, decoded⟩

/-! ### A message that is given up -/

/-- Two messages, where the first is given up behind its first chunk. -/
def abandoned (first second : Document) : List ChannelAction :=
  [.acquire first, .chunk, .fail false, .acquire second, .chunk, .deliver fun _ _ => true,
    .deliver fun _ _ => true]

theorem channel_mixes {first second : Document} {front : List UInt8} {back : List UInt8}
    (isFirst : first.body = front ++ back) (chunk : front.length + 4 = chunkSize)
    (fills : back.length = (frame second.body).length) (fits : first.body.length ≤ maxMessage)
    (small : (frame second.body).length ≤ chunkSize) :
    ∃ s, run channelStep .empty (abandoned first second) = some s ∧
      s.received.raws = [front ++ frame second.body] ∧ s.locked = [first, second] := by
  have fitsSecond : second.body.length ≤ maxMessage := by
    rw [length_frame] at small
    have le : chunkSize ≤ maxMessage := by decide
    omega
  have size : (frame second.body).length = second.body.length + 4 := length_frame _
  have sizeFirst : first.body.length = front.length + back.length := by
    rw [isFirst, List.length_append]
  -- The first chunk has the length of the first message and its front.
  have isChunk : (frame first.body).take chunkSize = lengthPrefix first.body.length ++ front := by
    rw [frame, isFirst, ← List.append_assoc, List.take_left']
    rw [List.length_append, length_lengthPrefix]
    omega
  have isRest : (frame first.body).drop chunkSize ≠ [] := by
    rw [Ne, List.drop_eq_nil_iff, length_frame]
    omega
  have isSecond : (frame second.body).take chunkSize = frame second.body :=
    List.take_of_length_le small
  have isDone : (frame second.body).drop chunkSize = [] := List.drop_eq_nil_iff.mpr small
  have begins : receive (fun _ _ => true) {} (lengthPrefix first.body.length ++ front) {} =
      (some ⟨front, first.body.length⟩, {}) := by
    have size : ¬ chunkSize < (lengthPrefix first.body.length ++ front).length := by
      rw [List.length_append, length_lengthPrefix]
      omega
    rw [receive, if_neg size]
    exact Reader.feed_begin (by decide) (by omega) fits _
  have isFilled : first.body.length = (front ++ frame second.body).length := by
    rw [sizeFirst, List.length_append, fills]
  have ends : (receive (fun _ _ => true) ⟨front, first.body.length⟩ (frame second.body) {}).2.raws =
      [front ++ frame second.body] := by
    have more : frame second.body ≠ [] := by
      intro none
      rw [none] at size
      cases size
    rw [receive, if_neg (Nat.not_lt_of_le small), isFilled, Reader.feed_end more, handleBody]
    split <;> rfl
  have ran : run channelStep .empty (abandoned first second) = some { Direction.empty with
      locked := [first, second]
      begun := [first, second]
      torn := true
      reader := (receive (fun _ _ => true) ⟨front, first.body.length⟩ (frame second.body) {}).1
      received :=
        (receive (fun _ _ => true) ⟨front, first.body.length⟩ (frame second.body) {}).2 } := by
    simp only [abandoned, run, channelStep, Direction.empty, Option.bind_some, List.nil_append,
      List.cons_append, if_neg (Nat.not_lt_of_le fits), if_neg (Nat.not_lt_of_le fitsSecond),
      if_neg isRest, if_pos isDone, isChunk, isSecond, begins, Bool.or_self, Bool.false_eq_true,
      if_false]
    rfl
  exact ⟨_, ran, ends, rfl⟩

/-- Two messages of which neither is what the other side takes for a body. -/
theorem channel_mixes_abandoned : ∃ s,
    run channelStep .empty (abandoned (letters 16001) (letters 1)) = some s ∧
      ∃ raw ∈ s.received.raws, ∀ message ∈ s.locked, raw ≠ message.body := by
  have isFirst : (letters 16001).body =
      ([123, 34, 116, 34, 58, 34] ++ List.replicate 15990 97) ++ (List.replicate 11 97 ++ [34, 125]) := by
    have split : 16001 = 15990 + 11 := rfl
    rw [body_letters, split, List.replicate_add, List.append_assoc, List.append_assoc]
  have size : ∀ n, (letters n).body.length = n + 8 := by
    intro n
    rw [body_letters, List.length_append, List.length_append, List.length_replicate]
    simp only [List.length_cons, List.length_nil]
    omega
  obtain ⟨s, ran, raws, locked⟩ := @channel_mixes _ (letters 1) _ _ isFirst
    (by rw [List.length_append, List.length_replicate]; rfl)
    (by rw [length_frame, size, List.length_append, List.length_replicate]; rfl)
    (by rw [size]; decide) (by rw [length_frame, size]; decide)
  refine ⟨s, ran, _, by rw [raws]; exact List.mem_singleton_self _, ?_⟩
  rw [locked, List.forall_mem_cons, List.forall_mem_singleton]
  constructor
  · -- The first byte of the second length stands where an `a` should.
    rw [isFirst, body_letters 1]
    intro same
    have inside := List.append_cancel_left same
    cases List.head_eq_of_cons_eq inside
  · intro same
    have lengths := congrArg List.length same
    rw [List.length_append, length_frame, size, List.length_append, List.length_replicate] at lengths
    simp only [List.length_cons, List.length_nil] at lengths
    omega

end AgentPark.Peers
