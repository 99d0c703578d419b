import AgentPark.Lib.Ring

/-!
# The playback buffer

`PlaybackBuffer` keeps the bytes of speech that have not been played in a temporary file, which is a ring
of a fixed capacity and moves from memory to disk when it grows.
-/

namespace AgentPark.Providers

open Lib

/-! ### The file -/

/-- `SpooledTemporaryFile`: its bytes, and whether they are on disk. -/
structure SpooledFile where
  content : List UInt8 := []
  rolled : Bool := false
deriving DecidableEq

namespace SpooledFile

/-- `seek(position)` and `write(data)`; the file moves to disk when the position behind the data is over
`max_size`. -/
def write (file : SpooledFile) (maxSize position : Nat) (data : List UInt8) : SpooledFile where
  content := overwrite 0 file.content position data
  rolled := file.rolled || decide (maxSize < position + data.length)

/-- `seek(position)` and `read(count)` -/
def read (file : SpooledFile) (position count : Nat) : List UInt8 :=
  (file.content.drop position).take count

/-- `rollover()` -/
def rollover (file : SpooledFile) : SpooledFile := { file with rolled := true }

/-- `seek(0)` and `truncate(0)` -/
def truncate (file : SpooledFile) : SpooledFile := { file with content := [] }

end SpooledFile

/-! ### The buffer -/

/-- The exceptions of a buffer. -/
inductive PlaybackError where
  | invalidLimits
  | full (mebibytes : Nat)
  | incompleteRead
deriving DecidableEq

/-- `PlaybackBuffer`.  Its positions are inside the ring. -/
structure PlaybackBuffer where
  capacity : Nat
  memoryLimit : Nat
  file : SpooledFile := {}
  readPosition : Nat
  writePosition : Nat
  pending : Nat
  readInside : readPosition < capacity
  writeInside : writePosition < capacity

namespace PlaybackBuffer

/-- `PlaybackBuffer(memory_bytes=…, capacity_bytes=…)` -/
def new (memoryBytes capacityBytes : Nat) : Except PlaybackError PlaybackBuffer :=
  if valid : 0 < memoryBytes ∧ memoryBytes ≤ capacityBytes then
    .ok { capacity := capacityBytes, memoryLimit := memoryBytes, readPosition := 0, writePosition := 0
          pending := 0, readInside := valid.1.trans_le valid.2, writeInside := valid.1.trans_le valid.2 }
  else .error .invalidLimits

variable (buffer : PlaybackBuffer)

theorem capacity_pos : 0 < buffer.capacity := Nat.zero_lt_of_lt buffer.readInside

/-- `(position + count) % self.capacity` -/
def advance (position count : Nat) : Nat := (position + count) % buffer.capacity

theorem advance_lt (position count : Nat) : buffer.advance position count < buffer.capacity :=
  Nat.mod_lt _ buffer.capacity_pos

/-- `clear` -/
def clear : PlaybackBuffer :=
  { buffer with
    file := buffer.file.truncate
    readPosition := 0
    writePosition := 0
    pending := 0
    readInside := buffer.capacity_pos
    writeInside := buffer.capacity_pos }

/-- A write of `append`, with what had not been read then. -/
structure Write where
  position : Nat
  chunk : List UInt8
  readPosition : Nat
  pending : Nat
deriving DecidableEq

/-- A round of the loop of `append`. -/
def writeChunk (chunk : List UInt8) : PlaybackBuffer :=
  { buffer with
    file := buffer.file.write buffer.memoryLimit buffer.writePosition chunk
    writePosition := buffer.advance buffer.writePosition chunk.length
    pending := buffer.pending + chunk.length
    writeInside := buffer.advance_lt _ _ }

/-- The bytes of a view that fit before the end of the ring. -/
def chunkSize (view : List UInt8) : Nat := min view.length (buffer.capacity - buffer.writePosition)

theorem chunkSize_pos {view : List UInt8} (some : view ≠ []) : 0 < buffer.chunkSize view := by
  have inside := buffer.writeInside
  have length := List.length_pos_of_ne_nil some
  rw [chunkSize]
  omega

/-- The loop of `append`, with what it writes. -/
def writeLoop (buffer : PlaybackBuffer) (view : List UInt8) : PlaybackBuffer × List Write :=
  if view = [] then (buffer, [])
  else
    let count := buffer.chunkSize view
    let (filled, writes) := writeLoop (buffer.writeChunk (view.take count)) (view.drop count)
    (filled,
      ⟨buffer.writePosition, view.take count, buffer.readPosition, buffer.pending⟩ :: writes)
termination_by view.length
decreasing_by
  rename_i some
  have positive := buffer.chunkSize_pos some
  have length := List.length_pos_of_ne_nil some
  rw [List.length_drop]
  omega

/-- `append` -/
def append (data : List UInt8) : PlaybackBuffer × Except PlaybackError (List Write) :=
  if buffer.capacity - buffer.pending < data.length then
    (buffer, .error (.full (buffer.capacity / (1024 * 1024))))
  else
    let spilled :=
      if buffer.memoryLimit < buffer.writePosition + data.length then
        { buffer with file := buffer.file.rollover }
      else buffer
    let (filled, writes) := spilled.writeLoop data
    (filled, .ok writes)

/-- A round of the loop of `read`. -/
def readChunk (count : Nat) : PlaybackBuffer :=
  { buffer with
    readPosition := buffer.advance buffer.readPosition count
    pending := buffer.pending - count
    readInside := buffer.advance_lt _ _ }

/-- The loop of `read`. -/
def readLoop (buffer : PlaybackBuffer) (remaining : Nat) (parts : List UInt8) :
    PlaybackBuffer × Except PlaybackError (List UInt8) :=
  if remaining = 0 then (buffer, .ok parts)
  else
    let count := min remaining (buffer.capacity - buffer.readPosition)
    let part := buffer.file.read buffer.readPosition count
    if part.length ≠ count then (buffer, .error .incompleteRead)
    else readLoop (buffer.readChunk count) (remaining - count) (parts ++ part)
termination_by remaining
decreasing_by
  have inside := buffer.readInside
  omega

/-- `read` -/
def read (size : Nat) : PlaybackBuffer × Except PlaybackError (List UInt8) :=
  let remaining := min size buffer.pending
  if remaining = 0 then (buffer, .ok [])
  else match buffer.readLoop remaining [] with
    | (buffer, .error raised) => (buffer, .error raised)
    | (buffer, .ok parts) => (if buffer.pending = 0 then buffer.clear else buffer, .ok parts)

end PlaybackBuffer

/-! ### Calls -/

inductive PlaybackCall where
  | append (data : List UInt8)
  | read (size : Nat)
  | clear
  | length
deriving DecidableEq

inductive PlaybackAnswer where
  | done
  | bytes (data : List UInt8)
  | count (pending : Nat)
  | raised (error : PlaybackError)
deriving DecidableEq

/-- A call with what it did. -/
structure PlaybackStep where
  before : PlaybackBuffer
  answer : PlaybackAnswer
  writes : List PlaybackBuffer.Write
  after : PlaybackBuffer

namespace PlaybackBuffer

def call (buffer : PlaybackBuffer) : PlaybackCall → PlaybackStep
  | .append data =>
    match buffer.append data with
    | (after, .error raised) => ⟨buffer, .raised raised, [], after⟩
    | (after, .ok writes) => ⟨buffer, .done, writes, after⟩
  | .read size =>
    match buffer.read size with
    | (after, .error raised) => ⟨buffer, .raised raised, [], after⟩
    | (after, .ok data) => ⟨buffer, .bytes data, [], after⟩
  | .clear => ⟨buffer, .done, [], buffer.clear⟩
  | .length => ⟨buffer, .count buffer.pending, [], buffer⟩

/-- The calls one after the other. -/
def run (buffer : PlaybackBuffer) : List PlaybackCall → List PlaybackStep
  | [] => []
  | call :: calls => buffer.call call :: run (buffer.call call).after calls

end PlaybackBuffer

/-! ### What the buffer is for -/

/-- A queue that takes no more bytes than its capacity. -/
def queueCall (capacity : Nat) (queue : List UInt8) : PlaybackCall → List UInt8 × PlaybackAnswer
  | .append data =>
    if capacity < queue.length + data.length then
      (queue, .raised (.full (capacity / (1024 * 1024))))
    else (queue ++ data, .done)
  | .read size => (queue.drop size, .bytes (queue.take size))
  | .clear => ([], .done)
  | .length => (queue, .count queue.length)

/-- The answers of the queue to calls one after the other. -/
def queueRun (capacity : Nat) (queue : List UInt8) : List PlaybackCall → List PlaybackAnswer
  | [] => []
  | call :: calls =>
    (queueCall capacity queue call).2 :: queueRun capacity (queueCall capacity queue call).1 calls

/-- A write touches no byte that had not been read. -/
def PlaybackBuffer.Write.Apart (capacity : Nat) (write : PlaybackBuffer.Write) : Prop :=
  ∀ i < write.pending, ∀ j < write.chunk.length,
    write.position + j ≠ (write.readPosition + i) % capacity

/-- The buffer has the queue. -/
structure PlaybackBuffer.Holds (buffer : PlaybackBuffer) (queue : List UInt8) : Prop where
  ring : InRing buffer.file.content buffer.capacity buffer.readPosition queue
  pending : queue.length = buffer.pending
  next : buffer.writePosition = (buffer.readPosition + queue.length) % buffer.capacity

namespace PlaybackBuffer

variable {buffer : PlaybackBuffer} {queue : List UInt8}

theorem holds_clear (buffer : PlaybackBuffer) : buffer.clear.Holds [] where
  ring := .nil _ _ _
  pending := rfl
  next := (Nat.zero_mod _).symm

theorem Holds.rollover (holds : buffer.Holds queue) :
    ({ buffer with file := buffer.file.rollover } : PlaybackBuffer).Holds queue :=
  ⟨holds.ring, holds.pending, holds.next⟩

theorem Holds.writeChunk (holds : buffer.Holds queue) {chunk : List UInt8}
    (inside : buffer.writePosition + chunk.length ≤ buffer.capacity)
    (room : queue.length + chunk.length ≤ buffer.capacity) :
    (buffer.writeChunk chunk).Holds (queue ++ chunk) where
  ring := holds.ring.overwrite 0 holds.next inside room
  pending := by
    rw [List.length_append, holds.pending]
    rfl
  next := by
    change (buffer.writePosition + chunk.length) % buffer.capacity = _
    rw [holds.next, Nat.mod_add_mod, List.length_append, Nat.add_assoc]
    rfl

theorem writeLoop_of_ne (buffer : PlaybackBuffer) {view : List UInt8} (some : view ≠ []) :
    buffer.writeLoop view =
      (((buffer.writeChunk (view.take (buffer.chunkSize view))).writeLoop
          (view.drop (buffer.chunkSize view))).1,
        ⟨buffer.writePosition, view.take (buffer.chunkSize view), buffer.readPosition, buffer.pending⟩ ::
          ((buffer.writeChunk (view.take (buffer.chunkSize view))).writeLoop
            (view.drop (buffer.chunkSize view))).2) := by
  conv_lhs => rw [writeLoop, if_neg some]

/-- What the loop of a write does. -/
theorem writeLoop_spec {buffer : PlaybackBuffer} {queue view : List UInt8} (holds : buffer.Holds queue)
    (room : queue.length + view.length ≤ buffer.capacity) :
    (buffer.writeLoop view).1.Holds (queue ++ view) ∧
    (buffer.writeLoop view).1.capacity = buffer.capacity ∧
    ∀ write ∈ (buffer.writeLoop view).2, write.Apart buffer.capacity := by
  rcases eq_or_ne view [] with rfl | some
  · rw [writeLoop, if_pos rfl, List.append_nil]
    exact ⟨holds, rfl, List.forall_mem_nil _⟩
  · rw [writeLoop_of_ne buffer some]
    have positive := buffer.chunkSize_pos some
    have inside := buffer.writeInside
    have count_eq : buffer.chunkSize view = min view.length (buffer.capacity - buffer.writePosition) :=
      rfl
    generalize buffer.chunkSize view = count at *
    have length : (view.take count).length = count := by
      rw [List.length_take]
      omega
    have fits : buffer.writePosition + (view.take count).length ≤ buffer.capacity := by omega
    have roomChunk : queue.length + (view.take count).length ≤ buffer.capacity := by omega
    have roomRest : (queue ++ view.take count).length + (view.drop count).length ≤ buffer.capacity := by
      rw [List.length_append, length, List.length_drop]
      omega
    obtain ⟨holdsRest, capacity, apart⟩ := writeLoop_spec (holds.writeChunk fits roomChunk) roomRest
    rw [List.append_assoc, List.take_append_drop] at holdsRest
    refine ⟨holdsRest, capacity, ?_⟩
    dsimp only
    rw [List.forall_mem_cons]
    refine ⟨?_, apart⟩
    intro i unread j written
    rw [← holds.pending] at unread
    exact InRing.overwrite_apart _ holds.next fits roomChunk unread j written
termination_by view.length
decreasing_by
  rw [List.length_drop]
  omega

theorem Holds.readChunk (holds : buffer.Holds queue) {count : Nat} (le : count ≤ queue.length) :
    (buffer.readChunk count).Holds (queue.drop count) where
  ring := holds.ring.drop count
  pending := by
    rw [List.length_drop, holds.pending]
    rfl
  next := by
    change buffer.writePosition = ((buffer.readPosition + count) % buffer.capacity + _) % buffer.capacity
    rw [holds.next, Nat.mod_add_mod, List.length_drop]
    congr 1
    omega

theorem readLoop_of_whole (buffer : PlaybackBuffer) {remaining count : Nat} {parts : List UInt8}
    (some : ¬ remaining = 0) (isCount : count = min remaining (buffer.capacity - buffer.readPosition))
    (whole : (buffer.file.read buffer.readPosition count).length = count) :
    buffer.readLoop remaining parts = (buffer.readChunk count).readLoop (remaining - count)
      (parts ++ buffer.file.read buffer.readPosition count) := by
  conv_lhs => rw [readLoop, if_neg some]
  subst isCount
  exact if_neg (not_not_intro whole)

/-- What the loop of a read does. -/
theorem readLoop_spec {buffer : PlaybackBuffer} {queue : List UInt8} {remaining : Nat}
    (parts : List UInt8) (holds : buffer.Holds queue) (le : remaining ≤ queue.length) :
    (buffer.readLoop remaining parts).2 = .ok (parts ++ queue.take remaining) ∧
    (buffer.readLoop remaining parts).1.Holds (queue.drop remaining) ∧
    (buffer.readLoop remaining parts).1.capacity = buffer.capacity := by
  by_cases some : remaining = 0
  · subst some
    rw [readLoop, if_pos rfl, List.take_zero, List.append_nil, List.drop_zero]
    exact ⟨rfl, holds, rfl⟩
  · have inside := buffer.readInside
    obtain ⟨count, isCount⟩ : ∃ count, count = min remaining (buffer.capacity - buffer.readPosition) :=
      ⟨_, rfl⟩
    have slice : buffer.file.read buffer.readPosition count = queue.take count :=
      holds.ring.slice (by omega) (by omega)
    have whole : (buffer.file.read buffer.readPosition count).length = count := by
      rw [slice, List.length_take]
      omega
    have rest : remaining - count ≤ (queue.drop count).length := by
      rw [List.length_drop]
      omega
    have split : remaining = count + (remaining - count) := by omega
    rw [readLoop_of_whole buffer some isCount whole, slice]
    obtain ⟨read, left, capacity⟩ :=
      readLoop_spec (parts ++ queue.take count) (holds.readChunk (show count ≤ queue.length by omega)) rest
    refine ⟨?_, ?_, capacity⟩
    · rw [read, List.append_assoc, ← List.take_add, ← split]
    · rw [List.drop_drop, ← split] at left
      exact left
termination_by remaining
decreasing_by omega

/-! ### Calls keep the queue -/

theorem append_spec (holds : buffer.Holds queue) (data : List UInt8)
    (room : queue.length + data.length ≤ buffer.capacity) :
    ∃ filled writes, buffer.append data = (filled, .ok writes) ∧ filled.Holds (queue ++ data) ∧
      filled.capacity = buffer.capacity ∧ ∀ write ∈ writes, write.Apart buffer.capacity := by
  have pending := holds.pending
  unfold append
  rw [if_neg (by omega)]
  dsimp only
  split
  · obtain ⟨filled, capacity, apart⟩ := writeLoop_spec holds.rollover room
    exact ⟨_, _, rfl, filled, capacity, apart⟩
  · obtain ⟨filled, capacity, apart⟩ := writeLoop_spec holds room
    exact ⟨_, _, rfl, filled, capacity, apart⟩

theorem read_spec (holds : buffer.Holds queue) (size : Nat) :
    ∃ left, buffer.read size = (left, .ok (queue.take size)) ∧ left.Holds (queue.drop size) ∧
      left.capacity = buffer.capacity := by
  have pending := holds.pending
  have taken : queue.take (min size buffer.pending) = queue.take size := by
    rw [List.take_eq_take_iff]
    omega
  have dropped : queue.drop (min size buffer.pending) = queue.drop size := by
    rw [List.drop_eq_drop_iff]
    omega
  unfold read
  dsimp only
  by_cases nothing : min size buffer.pending = 0
  · rw [if_pos nothing]
    rw [nothing] at taken dropped
    refine ⟨buffer, ?_, ?_, rfl⟩
    · rw [← taken, List.take_zero]
    · rw [← dropped, List.drop_zero]
      exact holds
  · rw [if_neg nothing]
    have loop := readLoop_spec [] holds (show min size buffer.pending ≤ queue.length by omega)
    rw [List.nil_append, taken, dropped] at loop
    revert loop
    rcases buffer.readLoop (min size buffer.pending) [] with ⟨left, answer⟩
    rintro ⟨rfl, holdsLeft, capacity⟩
    dsimp only at holdsLeft capacity ⊢
    split
    · -- nothing is left, and the ring begins anew
      rename_i empty
      have none : queue.drop size = [] := by
        apply List.eq_nil_of_length_eq_zero
        rw [holdsLeft.pending, empty]
      rw [none]
      exact ⟨_, rfl, holds_clear left, capacity⟩
    · exact ⟨_, rfl, holdsLeft, capacity⟩

theorem call_spec (holds : buffer.Holds queue) (call : PlaybackCall) :
    (buffer.call call).answer = (queueCall buffer.capacity queue call).2 ∧
    (buffer.call call).after.Holds (queueCall buffer.capacity queue call).1 ∧
    (buffer.call call).after.capacity = buffer.capacity ∧
    (∀ raised, (buffer.call call).answer = .raised raised → (buffer.call call).after = buffer) ∧
    ∀ write ∈ (buffer.call call).writes, write.Apart buffer.capacity := by
  have pending := holds.pending
  have fits := holds.ring.fits
  cases call with
  | append data =>
    unfold PlaybackBuffer.call queueCall
    dsimp only
    by_cases room : queue.length + data.length ≤ buffer.capacity
    · obtain ⟨filled, writes, appended, holdsFilled, capacity, apart⟩ := append_spec holds data room
      rw [appended, if_neg (by omega)]
      exact ⟨rfl, holdsFilled, capacity, nofun, apart⟩
    · have rejected : buffer.append data =
          (buffer, .error (.full (buffer.capacity / (1024 * 1024)))) := by
        rw [append, if_pos (by omega)]
      rw [rejected, if_pos (by omega)]
      exact ⟨rfl, holds, rfl, fun _ _ => rfl, List.forall_mem_nil _⟩
  | read size =>
    obtain ⟨left, read, holdsLeft, capacity⟩ := read_spec holds size
    unfold PlaybackBuffer.call queueCall
    dsimp only
    rw [read]
    exact ⟨rfl, holdsLeft, capacity, nofun, List.forall_mem_nil _⟩
  | clear => exact ⟨rfl, holds_clear buffer, rfl, nofun, List.forall_mem_nil _⟩
  | length =>
    refine ⟨?_, holds, rfl, nofun, List.forall_mem_nil _⟩
    rw [PlaybackBuffer.call, queueCall, pending]

theorem run_spec (holds : buffer.Holds queue) (calls : List PlaybackCall) :
    (buffer.run calls).map PlaybackStep.answer = queueRun buffer.capacity queue calls ∧
    ∀ step ∈ buffer.run calls,
      (∀ raised, step.answer = .raised raised → step.after = step.before) ∧
      ∀ write ∈ step.writes, write.Apart buffer.capacity := by
  induction calls generalizing buffer queue with
  | nil => exact ⟨rfl, List.forall_mem_nil _⟩
  | cons call calls ih =>
    obtain ⟨answer, holdsAfter, capacity, unchanged, apart⟩ := call_spec holds call
    obtain ⟨answers, steps⟩ := ih holdsAfter
    have before : (buffer.call call).before = buffer := by
      cases call with
      | append | read =>
        unfold PlaybackBuffer.call
        dsimp only
        split
        · rfl
        · rfl
      | clear => rfl
      | length => rfl
    rw [capacity] at answers steps
    rw [run, List.map_cons, queueRun, answer, answers, List.forall_mem_cons, before]
    exact ⟨rfl, ⟨unchanged, apart⟩, steps⟩

end PlaybackBuffer

/-- For every sequence of calls, the buffer answers as a queue that takes no more bytes than its capacity,
a call that raises changes nothing, and no write touches a byte that has not been read. -/
theorem playback_refines (memoryBytes capacityBytes : Nat) (positive : 0 < memoryBytes)
    (within : memoryBytes ≤ capacityBytes) (calls : List PlaybackCall) :
    ∃ buffer, PlaybackBuffer.new memoryBytes capacityBytes = .ok buffer ∧
      (buffer.run calls).map PlaybackStep.answer = queueRun capacityBytes [] calls ∧
      ∀ step ∈ buffer.run calls,
        (∀ raised, step.answer = .raised raised → step.after = step.before) ∧
        ∀ write ∈ step.writes, write.Apart capacityBytes := by
  have made : PlaybackBuffer.new memoryBytes capacityBytes = .ok
      { capacity := capacityBytes, memoryLimit := memoryBytes, readPosition := 0, writePosition := 0
        pending := 0, readInside := positive.trans_le within
        writeInside := positive.trans_le within } := dif_pos ⟨positive, within⟩
  refine ⟨_, made, PlaybackBuffer.run_spec ⟨.nil _ _ _, rfl, ?_⟩ calls⟩
  exact (Nat.zero_mod _).symm

/-- A ring of four bytes that goes round, and an append that is too long. -/
theorem playback_four :
    ∃ buffer, PlaybackBuffer.new 2 4 = .ok buffer ∧
      (buffer.run [.append [1, 2, 3], .read 2, .append [4, 5], .append [6, 7], .read 9, .length]).map
        PlaybackStep.answer =
        [.done, .bytes [1, 2], .done, .raised (.full 0), .bytes [3, 4, 5], .count 0] := by
  obtain ⟨buffer, made, answers, -⟩ := playback_refines 2 4 (by decide) (by decide)
    [.append [1, 2, 3], .read 2, .append [4, 5], .append [6, 7], .read 9, .length]
  refine ⟨buffer, made, ?_⟩
  rw [answers]
  decide

end AgentPark.Providers
