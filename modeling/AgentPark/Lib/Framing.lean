import Mathlib.Data.List.Basic
import Mathlib.Algebra.Group.Nat.Defs

/-!
# Frames on a stream of bytes

A frame is a body behind its length, four bytes with the most significant first.  A stream of frames
is cut into pieces anywhere; the reader takes the pieces one by one, keeps what is not yet a whole
frame, and hands each body to a handler, which may refuse it.

Nothing here mentions a program.
-/

namespace AgentPark.Lib

/-- A number in four bytes. -/
def lengthPrefix (n : Nat) : List UInt8 :=
  [UInt8.ofNat (n / 2 ^ 24), UInt8.ofNat (n / 2 ^ 16), UInt8.ofNat (n / 2 ^ 8), UInt8.ofNat n]

/-- The number in the first four bytes. -/
def readPrefix : List UInt8 → Nat
  | a :: b :: c :: d :: _ => a.toNat * 2 ^ 24 + b.toNat * 2 ^ 16 + c.toNat * 2 ^ 8 + d.toNat
  | _ => 0

@[simp] theorem length_lengthPrefix (n : Nat) : (lengthPrefix n).length = 4 := rfl

theorem readPrefix_lengthPrefix {n : Nat} (small : n < 2 ^ 32) (rest : List UInt8) :
    readPrefix (lengthPrefix n ++ rest) = n := by
  change (UInt8.ofNat (n / 2 ^ 24)).toNat * 2 ^ 24 + (UInt8.ofNat (n / 2 ^ 16)).toNat * 2 ^ 16 +
    (UInt8.ofNat (n / 2 ^ 8)).toNat * 2 ^ 8 + (UInt8.ofNat n).toNat = n
  simp only [UInt8.toNat_ofNat']
  omega

/-- A body behind its length. -/
def frame (body : List UInt8) : List UInt8 := lengthPrefix body.length ++ body

/-- The frames of some bodies. -/
def framesOf (bodies : List (List UInt8)) : List UInt8 := bodies.flatMap frame

@[simp] theorem framesOf_nil : framesOf [] = [] := rfl

@[simp] theorem framesOf_cons (body : List UInt8) (bodies : List (List UInt8)) :
    framesOf (body :: bodies) = frame body ++ framesOf bodies := rfl

theorem framesOf_append (left right : List (List UInt8)) :
    framesOf (left ++ right) = framesOf left ++ framesOf right := List.flatMap_append

theorem length_frame (body : List UInt8) : (frame body).length = body.length + 4 := by
  rw [frame, List.length_append, length_lengthPrefix, Nat.add_comm]

/-! ### Reading -/

/-- The bytes that are kept, and the length of the body that is awaited: 0 for none. -/
structure Reader where
  buffer : List UInt8 := []
  expected : Nat := 0
deriving DecidableEq

/-- What a reader comes to. -/
inductive Reader.Next where
  | wait (reader : Reader)
  /-- The length is zero or too large. -/
  | invalid
  | body (raw : List UInt8) (reader : Reader)

namespace Reader

/-- Take a body of the length that is awaited. -/
def take (reader : Reader) : Next :=
  if reader.buffer.length < reader.expected then .wait reader
  else
    .body (reader.buffer.take reader.expected)
      { buffer := reader.buffer.drop reader.expected, expected := 0 }

/-- One round: read a length when none is awaited, then take a body. -/
def next (limit : Nat) (reader : Reader) : Next :=
  if reader.expected = 0 then
    if reader.buffer.length < 4 then .wait reader
    else
      let expected := readPrefix reader.buffer
      if 0 < expected ∧ expected ≤ limit then
        take { buffer := reader.buffer.drop 4, expected }
      else .invalid
  else take reader

/-- All rounds: the handler gets each body and says whether to go on. -/
def drain {σ : Type*} (limit : Nat) (handle : σ → List UInt8 → σ × Bool) :
    Nat → Reader → σ → Option Reader × σ
  | 0, reader, s => (some reader, s)
  | fuel + 1, reader, s =>
    match reader.next limit with
    | .wait reader => (some reader, s)
    | .invalid => (none, s)
    | .body raw reader =>
      match handle s raw with
      | (s, true) => drain limit handle fuel reader s
      | (s, false) => (none, s)

/-- One more piece.  Each round takes at least one byte. -/
def feed {σ : Type*} (limit : Nat) (handle : σ → List UInt8 → σ × Bool) (reader : Reader)
    (data : List UInt8) (s : σ) : Option Reader × σ :=
  drain limit handle (reader.buffer.length + data.length + 1)
    { reader with buffer := reader.buffer ++ data } s

/-- The bytes a reader has not handed over. -/
def pending (reader : Reader) : List UInt8 :=
  if reader.expected = 0 then reader.buffer else lengthPrefix reader.expected ++ reader.buffer

/-- A reader that waits for more. -/
def Waits (limit : Nat) (reader : Reader) : Prop :=
  if reader.expected = 0 then reader.buffer.length < 4
  else reader.expected ≤ limit ∧ reader.buffer.length < reader.expected

theorem waits_empty (limit : Nat) : Waits limit {} := by
  rw [Waits, if_pos rfl]
  decide

/-- The handler takes all these bodies and goes on. -/
def Handles {σ : Type*} (handle : σ → List UInt8 → σ × Bool) : List (List UInt8) → σ → σ → Prop
  | [], s, t => s = t
  | body :: bodies, s, t => (handle s body).2 = true ∧ Handles handle bodies (handle s body).1 t

variable {limit : Nat} {reader : Reader}

theorem take_frame {body buffer tail : List UInt8} {bodies : List (List UInt8)}
    (same : buffer ++ tail = body ++ framesOf bodies) :
    (buffer.length < body.length ∧ ∃ rest, body = buffer ++ rest) ∨
      ∃ rest, buffer = body ++ rest ∧ rest ++ tail = framesOf bodies := by
  rcases Nat.lt_or_ge buffer.length body.length with short | long
  · obtain ⟨rest, isBody⟩ := List.prefix_of_prefix_length_le
      (⟨tail, same⟩ : buffer <+: body ++ framesOf bodies) ⟨framesOf bodies, rfl⟩ (Nat.le_of_lt short)
    exact Or.inl ⟨short, rest, isBody.symm⟩
  · obtain ⟨rest, isBuffer⟩ := List.prefix_of_prefix_length_le
      (⟨framesOf bodies, rfl⟩ : body <+: body ++ framesOf bodies) ⟨tail, same⟩ long
    refine Or.inr ⟨rest, isBuffer.symm, ?_⟩
    rw [← isBuffer, List.append_assoc] at same
    exact List.append_cancel_left same

/-- What a round makes of bytes that are frames with what may follow. -/
inductive Sound (limit : Nat) (tail : List UInt8) (bodies : List (List UInt8)) (size : Nat) :
    Next → Prop where
  | wait {reader : Reader} (waits : reader.Waits limit)
      (same : reader.pending ++ tail = framesOf bodies) :
      Sound limit tail bodies size (.wait reader)
  | body {raw : List UInt8} {rest : List (List UInt8)} {reader : Reader}
      (first : bodies = raw :: rest) (idle : reader.expected = 0)
      (shorter : reader.buffer.length < size) (same : reader.pending ++ tail = framesOf rest) :
      Sound limit tail bodies size (.body raw reader)

theorem sound_take {body buffer tail : List UInt8} {rest : List (List UInt8)} {size : Nat}
    (positive : 0 < body.length) (fits : body.length ≤ limit) (le : buffer.length ≤ size)
    (same : buffer ++ tail = body ++ framesOf rest) :
    Sound limit tail (body :: rest) size (take ⟨buffer, body.length⟩) := by
  have awaits : body.length ≠ 0 := by omega
  unfold take
  dsimp only
  rcases take_frame same with ⟨short, _⟩ | ⟨more, rfl, isRest⟩
  · rw [if_pos short]
    refine .wait ?_ ?_
    · rw [Waits, if_neg awaits]
      exact ⟨fits, short⟩
    · rw [pending, if_neg awaits, List.append_assoc, same, framesOf_cons, frame,
        List.append_assoc]
  · rw [if_neg (by rw [List.length_append]; omega), List.take_left', List.drop_left']
    · refine .body rfl rfl ?_ ?_
      · rw [List.length_append] at le
        dsimp only
        omega
      · rw [pending, if_pos rfl]
        exact isRest
    · rfl
    · rfl

theorem sound_next {tail : List UInt8} {bodies : List (List UInt8)} (small : limit < 2 ^ 32)
    (fit : ∀ body ∈ bodies, 0 < body.length ∧ body.length ≤ limit)
    (bound : reader.expected ≤ limit) (same : reader.pending ++ tail = framesOf bodies) :
    Sound limit tail bodies reader.buffer.length (reader.next limit) := by
  obtain ⟨buffer, expected⟩ := reader
  unfold pending at same
  unfold next
  dsimp only at bound same ⊢
  split
  · rename_i idle
    rw [if_pos idle] at same
    subst idle
    split
    · rename_i short
      refine .wait ?_ ?_
      · rw [Waits, if_pos rfl]
        exact short
      · rw [pending, if_pos rfl]
        exact same
    · rename_i long
      cases bodies with
      | nil =>
        rw [framesOf_nil, List.append_eq_nil_iff] at same
        rw [same.1] at long
        exact absurd (by decide) long
      | cons body rest =>
        obtain ⟨positive, fits⟩ := fit body List.mem_cons_self
        rw [framesOf_cons, frame, List.append_assoc] at same
        -- The first four bytes are the length of the next body.
        obtain ⟨more, rfl⟩ := List.prefix_of_prefix_length_le
          (⟨_, rfl⟩ : lengthPrefix body.length <+: lengthPrefix body.length ++ _) ⟨tail, same⟩
          (by rw [length_lengthPrefix]; omega)
        rw [List.append_assoc] at same
        have isNext := List.append_cancel_left same
        rw [readPrefix_lengthPrefix (by omega), if_pos ⟨positive, fits⟩,
          List.drop_left' (length_lengthPrefix _)]
        exact sound_take positive fits (by rw [List.length_append]; omega) isNext
  · rename_i awaits
    rw [if_neg awaits, List.append_assoc] at same
    cases bodies with
    | nil =>
      rw [framesOf_nil, List.append_eq_nil_iff] at same
      cases same.1
    | cons body rest =>
      obtain ⟨positive, fits⟩ := fit body List.mem_cons_self
      rw [framesOf_cons, frame, List.append_assoc] at same
      obtain ⟨isPrefix, isNext⟩ := List.append_inj same rfl
      have lengths : expected = body.length := by
        have read := congrArg (fun bytes => readPrefix (bytes ++ [])) isPrefix
        rw [readPrefix_lengthPrefix (by omega), readPrefix_lengthPrefix (by omega)] at read
        exact read
      subst lengths
      exact sound_take positive fits (Nat.le_refl _) isNext

/-- What reading comes to: a prefix of the bodies is handled, and the reader waits with the rest; or
the handler refuses one of them. -/
inductive Read {σ : Type*} (limit : Nat) (handle : σ → List UInt8 → σ × Bool) (tail : List UInt8)
    (bodies : List (List UInt8)) (s : σ) : Option Reader × σ → Prop where
  | waits {front rest : List (List UInt8)} {reader : Reader} {t : σ} (split : bodies = front ++ rest)
      (handled : Handles handle front s t) (waits : reader.Waits limit)
      (same : reader.pending ++ tail = framesOf rest) :
      Read limit handle tail bodies s (some reader, t)
  | refused {front rest : List (List UInt8)} {raw : List UInt8} {t : σ}
      (split : bodies = front ++ raw :: rest) (handled : Handles handle front s t)
      (refuses : (handle t raw).2 = false) :
      Read limit handle tail bodies s (none, (handle t raw).1)

theorem Read.cons {σ : Type*} {handle : σ → List UInt8 → σ × Bool} {tail raw : List UInt8}
    {bodies : List (List UInt8)} {s t : σ} {result : Option Reader × σ}
    (first : handle s raw = (t, true)) (later : Read limit handle tail bodies t result) :
    Read limit handle tail (raw :: bodies) s result := by
  have step : ∀ {front : List (List UInt8)} {u : σ}, Handles handle front t u →
      Handles handle (raw :: front) s u := by
    intro front u handled
    exact ⟨by rw [first], by rw [first]; exact handled⟩
  cases later with
  | @waits front rest reader u isSplit handled waits same =>
    exact .waits (congrArg (raw :: ·) isSplit : raw :: bodies = (raw :: front) ++ rest)
      (step handled) waits same
  | @refused front rest raw' u isSplit handled refuses =>
    exact .refused
      (congrArg (raw :: ·) isSplit : raw :: bodies = (raw :: front) ++ raw' :: rest) (step handled) refuses

theorem read_drain {σ : Type*} {handle : σ → List UInt8 → σ × Bool} {tail : List UInt8}
    (small : limit < 2 ^ 32) : ∀ {fuel : Nat} {reader : Reader} {bodies : List (List UInt8)} {s : σ},
      reader.buffer.length < fuel →
      (∀ body ∈ bodies, 0 < body.length ∧ body.length ≤ limit) → reader.expected ≤ limit →
      reader.pending ++ tail = framesOf bodies →
      Read limit handle tail bodies s (drain limit handle fuel reader s)
  | 0, _, _, _, enough, _, _, _ => absurd enough (Nat.not_lt_zero _)
  | fuel + 1, reader, bodies, s, enough, fit, bound, same => by
    have sound := sound_next small fit bound same
    rw [drain]
    generalize reader.next limit = next at sound ⊢
    cases sound with
    | wait waits stillSame => exact .waits (List.nil_append _).symm rfl waits stillSame
    | @body raw rest next first idle shorter isRest =>
      subst first
      have fitRest : ∀ body ∈ rest, 0 < body.length ∧ body.length ≤ limit :=
        fun body mem => fit body (List.mem_cons_of_mem raw mem)
      have later : ∀ t, Read limit handle tail rest t (drain limit handle fuel next t) :=
        fun t => read_drain small (by omega) fitRest (by omega) isRest
      dsimp only
      split
      · rename_i t goesOn
        exact (later t).cons goesOn
      · rename_i t stops
        have last : (none, t) = ((none : Option Reader), (handle s raw).1) := by rw [stops]
        rw [last]
        exact .refused (List.nil_append _).symm rfl (by rw [stops])

/-- While the bytes kept, the new ones and some that may follow are frames, the reader hands over a
prefix of their bodies and keeps the rest. -/
theorem read_feed {σ : Type*} {handle : σ → List UInt8 → σ × Bool} {data tail : List UInt8}
    {bodies : List (List UInt8)} {s : σ} (small : limit < 2 ^ 32) (waits : reader.Waits limit)
    (fit : ∀ body ∈ bodies, 0 < body.length ∧ body.length ≤ limit)
    (same : reader.pending ++ (data ++ tail) = framesOf bodies) :
    Read limit handle tail bodies s (reader.feed limit handle data s) := by
  have bound : reader.expected ≤ limit := by
    unfold Waits at waits
    split at waits
    · omega
    · exact waits.1
  have more : ({ reader with buffer := reader.buffer ++ data } : Reader).pending =
      reader.pending ++ data := by
    unfold pending
    dsimp only
    split
    · rfl
    · rw [List.append_assoc]
  refine read_drain small ?_ fit bound ?_
  · dsimp only
    rw [List.length_append]
    omega
  · rw [more, List.append_assoc]
    exact same

/-! ### A frame in two pieces -/

theorem next_begin {length : Nat} {front : List UInt8} (small : limit < 2 ^ 32)
    (short : front.length < length) (fits : length ≤ limit) :
    next limit { buffer := lengthPrefix length ++ front } = .wait ⟨front, length⟩ := by
  have long : ¬ (lengthPrefix length ++ front).length < 4 := by
    rw [List.length_append, length_lengthPrefix]
    omega
  unfold next take
  dsimp only
  rw [if_pos rfl, if_neg long, readPrefix_lengthPrefix (by omega), if_pos ⟨by omega, fits⟩,
    List.drop_left' (length_lengthPrefix _), if_pos short]

theorem feed_begin {σ : Type*} {handle : σ → List UInt8 → σ × Bool} {length : Nat}
    {front : List UInt8} (small : limit < 2 ^ 32) (short : front.length < length)
    (fits : length ≤ limit) (s : σ) :
    feed limit handle {} (lengthPrefix length ++ front) s = (some ⟨front, length⟩, s) := by
  have first := next_begin small short fits
  -- The bytes of the length are not to be computed.
  generalize lengthPrefix length ++ front = data at first ⊢
  unfold feed
  dsimp only [List.nil_append]
  rw [drain, first]

theorem feed_end {σ : Type*} {handle : σ → List UInt8 → σ × Bool} {front data : List UInt8}
    (more : data ≠ []) (s : σ) :
    (feed limit handle ⟨front, (front ++ data).length⟩ data s).2 = (handle s (front ++ data)).1 := by
  have awaits : (front ++ data).length ≠ 0 := by
    intro none
    exact more (List.append_eq_nil_iff.mp (List.length_eq_zero_iff.mp none)).2
  have first : next limit ⟨front ++ data, (front ++ data).length⟩ = .body (front ++ data) {} := by
    unfold next take
    dsimp only
    rw [if_neg awaits, if_neg (Nat.lt_irrefl _), List.take_length, List.drop_length]
  have idle : next limit {} = .wait {} := rfl
  unfold feed
  rw [drain, first]
  dsimp only
  split
  · rename_i t goesOn
    rw [goesOn]
    cases front.length + data.length with
    | zero => rfl
    | succ fuel => rw [drain, idle]
  · rename_i t stops
    rw [stops]

end Reader

end AgentPark.Lib
