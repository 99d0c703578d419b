import AgentPark.Lib.Lines
import Mathlib.Tactic.Common

/-!
# Readers and what they read

A reader takes a value from the front of a list and leaves the rest.  It is the other half of a writer
when it reads what is written, whatever follows, and when it reads nothing else.

* `Codec read write good`: `read` and `write` are halves for the values that are `good`.
-/

namespace AgentPark.Lib

section

variable {σ ε α β : Type}

/-- Code that reads from the front of a list. -/
abbrev StreamReader (σ ε α : Type) : Type := StateT (List σ) (Except ε) α

/-- The two halves of a format. -/
structure Codec (read : StreamReader σ ε α) (write : α → List σ) (good : α → Prop) : Prop where
  reads : ∀ v rest, good v → read (write v ++ rest) = .ok (v, rest)
  exact : ∀ s v rest, read s = .ok (v, rest) → s = write v ++ rest ∧ good v

variable {read : StreamReader σ ε α}

theorem read_bind_eq_ok {next : α → StreamReader σ ε β} {s rest : List σ} {b : β} :
    (read >>= next) s = .ok (b, rest) ↔ ∃ a middle, read s = .ok (a, middle) ∧
      next a middle = .ok (b, rest) := by
  change (read s >>= fun r => next r.1 r.2) = _ ↔ _
  cases read s with
  | error e => exact iff_of_false nofun fun ⟨_, _, eq, _⟩ => nomatch eq
  | ok r =>
    constructor
    · intro eq
      exact ⟨r.1, r.2, rfl, eq⟩
    · intro ⟨a, middle, isOk, eq⟩
      cases isOk
      exact eq

/-- The end of a sequence of codecs. -/
theorem codec_pure (v : α) : Codec (pure v : StreamReader σ ε α) (fun _ => []) (· = v) where
  reads w rest same := by
    rw [same]
    rfl
  exact s w rest eq := by
    cases eq
    exact ⟨rfl, rfl⟩

variable {write : α → List σ} {good : α → Prop}

theorem Codec.congr {write' : α → List σ} {good' : α → Prop} (codec : Codec read write good)
    (sameGood : ∀ v, good v ↔ good' v) (sameWrite : ∀ v, good v → write v = write' v) :
    Codec read write' good' where
  reads v rest isGood := by
    have old := (sameGood v).mpr isGood
    rw [← sameWrite v old]
    exact codec.reads v rest old
  exact s v rest eq := by
    obtain ⟨isWritten, isGood⟩ := codec.exact s v rest eq
    rw [← sameWrite v isGood]
    exact ⟨isWritten, (sameGood v).mp isGood⟩

/-- Two codecs, one after the other. -/
theorem Codec.bind {next : α → StreamReader σ ε β} {writeNext : β → List σ} {goodNext : β → Prop}
    (part : β → α) (first : Codec read write good)
    (second : ∀ a, good a → Codec (next a) writeNext fun b => part b = a ∧ goodNext b) :
    Codec (read >>= next) (fun b => write (part b) ++ writeNext b)
      (fun b => good (part b) ∧ goodNext b) where
  reads b rest isGood := by
    rw [read_bind_eq_ok]
    refine ⟨part b, writeNext b ++ rest, ?_, ?_⟩
    · rw [List.append_assoc]
      exact first.reads _ _ isGood.1
    · exact (second _ isGood.1).reads b rest ⟨rfl, isGood.2⟩
  exact s b rest eq := by
    obtain ⟨a, middle, readFirst, readNext⟩ := read_bind_eq_ok.mp eq
    obtain ⟨isWritten, isGood⟩ := first.exact _ _ _ readFirst
    obtain ⟨isNext, same, isGoodNext⟩ := (second a isGood).exact _ _ _ readNext
    subst same
    rw [isWritten, isNext, List.append_assoc]
    exact ⟨rfl, isGood, isGoodNext⟩

/-- A codec behind a check. -/
theorem Codec.guarded (codec : Codec read write good) (condition : Prop) [Decidable condition]
    (default : α) :
    Codec (if condition then read else pure default) (fun v => if condition then write v else [])
      (fun v => if condition then good v else v = default) := by
  by_cases holds : condition
  · simp only [if_pos holds]
    exact codec
  · simp only [if_neg holds]
    exact codec_pure default

/-- The result of a computation that reads nothing. -/
def StreamReader.ofExcept (result : Except ε α) : StreamReader σ ε α := fun s => result.map fun v => (v, s)

/-- A value that is read in another form; `back` gives the form it is written in. -/
theorem Codec.map (codec : Codec read write good) {form : α → Except ε β} (back : β → α)
    {goodForm : β → Prop} (forth : ∀ a b, good a → form a = .ok b → goodForm b ∧ back b = a)
    (returns : ∀ b, goodForm b → good (back b) ∧ form (back b) = .ok b) :
    Codec (read >>= fun a => StreamReader.ofExcept (form a)) (fun b => write (back b)) goodForm where
  reads b rest isGood := by
    obtain ⟨goodBack, eq⟩ := returns b isGood
    rw [read_bind_eq_ok]
    refine ⟨back b, rest, codec.reads _ _ goodBack, ?_⟩
    rw [StreamReader.ofExcept, eq]
    rfl
  exact s b rest eq := by
    obtain ⟨a, middle, readFirst, formed⟩ := read_bind_eq_ok.mp eq
    obtain ⟨isWritten, isGood⟩ := codec.exact _ _ _ readFirst
    unfold StreamReader.ofExcept at formed
    cases isForm : form a with
    | error e =>
      rw [isForm] at formed
      cases formed
    | ok v =>
      rw [isForm] at formed
      cases formed
      obtain ⟨goodB, same⟩ := forth a b isGood isForm
      rw [same]
      exact ⟨isWritten, goodB⟩

/-- Every error of a reader is of a kind. -/
def StreamReader.Raises (read : StreamReader σ ε α) (kind : ε → Prop) : Prop :=
  ∀ s e, read s = .error e → kind e

section

variable {kind : ε → Prop} {read : StreamReader σ ε α}

theorem StreamReader.Raises.pure (v : α) :
    StreamReader.Raises (Pure.pure v : StreamReader σ ε α) kind := nofun

theorem StreamReader.Raises.bind {next : α → StreamReader σ ε β} (first : read.Raises kind)
    (second : ∀ a, StreamReader.Raises (next a) kind) : StreamReader.Raises (read >>= next) kind := by
  intro s e failed
  change (read s >>= fun r => next r.1 r.2) = _ at failed
  cases result : read s with
  | error e' =>
    rw [result] at failed
    cases failed
    exact first s e result
  | ok r =>
    rw [result] at failed
    exact second r.1 r.2 e failed

theorem StreamReader.Raises.guarded (raises : read.Raises kind) (condition : Prop) [Decidable condition]
    (default : α) : StreamReader.Raises (if condition then read else Pure.pure default) kind := by
  split
  · exact raises
  · exact .pure default

theorem StreamReader.raises_ofExcept {result : Except ε α} (raises : ∀ e, result = .error e → kind e) :
    StreamReader.Raises (StreamReader.ofExcept result : StreamReader σ ε α) kind := by
  intro s e failed
  unfold StreamReader.ofExcept at failed
  cases result with
  | error e' =>
    cases failed
    exact raises e rfl
  | ok v => cases failed

end

def readExactly (count : Nat) (error : ε) : StreamReader σ ε (List σ) := fun s =>
  if (s.take count).length ≠ count then .error error else .ok (s.take count, s.drop count)

theorem codec_readExactly (count : Nat) (error : ε) :
    Codec (readExactly count error : StreamReader σ ε (List σ)) id (·.length = count) where
  reads v rest isCount := by
    have taken : (v ++ rest).take count = v := List.take_left' isCount
    have dropped : (v ++ rest).drop count = rest := List.drop_left' isCount
    rw [id, readExactly, taken, dropped, if_neg (not_not_intro isCount)]
  exact s v rest eq := by
    unfold readExactly at eq
    split at eq
    · cases eq
    · rename_i whole
      cases eq
      exact ⟨(List.take_append_drop count s).symm, not_not.mp whole⟩

theorem raises_readExactly {kind : ε → Prop} {error : ε} (count : Nat) (isKind : kind error) :
    StreamReader.Raises (readExactly count error : StreamReader σ ε (List σ)) kind := by
  intro s e failed
  unfold readExactly at failed
  split at failed
  · cases failed
    exact isKind
  · cases failed

end

/-! ### Words -/

/-- The bytes of a word, the highest first. -/
def wordBytes (n : Nat) : List UInt8 :=
  [UInt8.ofNat (n / 16777216), UInt8.ofNat (n / 65536), UInt8.ofNat (n / 256), UInt8.ofNat n]

/-- `int.from_bytes(value, "big")` -/
def wordValue (bytes : List UInt8) : Nat := bytes.foldl (fun n b => 256 * n + b.toNat) 0

theorem length_wordBytes (n : Nat) : (wordBytes n).length = 4 := rfl

theorem wordValue_wordBytes {n : Nat} (lt : n < 4294967296) : wordValue (wordBytes n) = n := by
  simp only [wordBytes, wordValue, List.foldl_cons, List.foldl_nil, UInt8.toNat_ofNat']
  omega

theorem wordBytes_wordValue {bytes : List UInt8} (four : bytes.length = 4) :
    wordBytes (wordValue bytes) = bytes ∧ wordValue bytes < 4294967296 := by
  match bytes, four with
  | [a, b, c, d], _ =>
    have ha := a.toNat_lt
    have hb := b.toNat_lt
    have hc := c.toNat_lt
    have hd := d.toNat_lt
    simp only [wordBytes, wordValue, List.foldl_cons, List.foldl_nil]
    refine ⟨?_, by omega⟩
    simp only [List.cons.injEq, and_true, ← UInt8.toNat_inj, UInt8.toNat_ofNat']
    refine ⟨?_, ?_, ?_, ?_⟩
    · omega
    · omega
    · omega
    · omega

/-- The number a word stands for when its highest bit is a sign. -/
def signedValue (n : Nat) : Int := if n < 2147483648 then n else (n : Int) - 4294967296

def signedWord (v : Int) : Nat := (v % 4294967296).toNat

theorem signedValue_signedWord {v : Int} (low : -2147483648 ≤ v) (high : v < 2147483648) :
    signedValue (signedWord v) = v := by
  unfold signedValue signedWord
  split
  · omega
  · omega

theorem signedWord_signedValue {n : Nat} (lt : n < 4294967296) : signedWord (signedValue n) = n := by
  unfold signedValue signedWord
  split
  · omega
  · omega

section

variable {ε : Type} (short : ε)

def readWord : StreamReader UInt8 ε Nat := do
  let value ← readExactly 4 short
  StreamReader.ofExcept (.ok (wordValue value))

def readSigned : StreamReader UInt8 ε Int := do
  let value ← readExactly 4 short
  StreamReader.ofExcept (.ok (signedValue (wordValue value)))

/-- A word of four bytes, the highest first. -/
theorem codec_readWord : Codec (readWord short) wordBytes (· < 4294967296) := by
  refine (codec_readExactly 4 short).map wordBytes ?_ ?_
  · intro value n four isValue
    cases isValue
    exact (wordBytes_wordValue four).symm
  · intro n lt
    exact ⟨length_wordBytes n, congrArg _ (wordValue_wordBytes lt)⟩

theorem codec_readSigned : Codec (readSigned short) (fun v => wordBytes (signedWord v))
    (fun v => -2147483648 ≤ v ∧ v < 2147483648) := by
  refine (codec_readExactly 4 short).map (fun v => wordBytes (signedWord v)) ?_ ?_
  · intro value v four isValue
    cases isValue
    obtain ⟨bytes, lt⟩ := wordBytes_wordValue four
    rw [signedWord_signedValue lt, bytes]
    refine ⟨?_, rfl⟩
    unfold signedValue
    split
    · omega
    · omega
  · rintro v ⟨low, high⟩
    have lt : signedWord v < 4294967296 := by
      unfold signedWord
      omega
    refine ⟨length_wordBytes _, congrArg _ ?_⟩
    rw [wordValue_wordBytes lt, signedValue_signedWord low high]

variable {short} {kind : ε → Prop} (isKind : kind short)

include isKind

theorem raises_readWord : (readWord short).Raises kind :=
  (raises_readExactly 4 isKind).bind fun _ => StreamReader.raises_ofExcept nofun

theorem raises_readSigned : (readSigned short).Raises kind :=
  (raises_readExactly 4 isKind).bind fun _ => StreamReader.raises_ofExcept nofun

end

/-! ### Texts -/

theorem utf8Encode_utf8Decode {bytes : List UInt8} {cs : List Char} (decoded : utf8Decode bytes = some cs) :
    utf8Encode cs = bytes := by
  have whole : bytes.toByteArray.utf8Decode?.isSome := by
    rw [utf8Decode] at decoded
    cases read : bytes.toByteArray.utf8Decode? with
    | none =>
      rw [read] at decoded
      cases decoded
    | some chars => rfl
  obtain ⟨text, encoded⟩ := ByteArray.isSome_utf8Decode?_iff.mp whole
  have same : utf8Encode text = bytes := by
    have data := congrArg (fun array => array.data.toList) encoded
    rw [List.utf8Encode] at data
    simpa [utf8Encode] using data.symm
  rw [← same, utf8Decode_utf8Encode] at decoded
  rw [← Option.some.inj decoded, same]

/-- `value.decode("utf-8")` -/
def decodeText {ε : Type} (undecodable : ε) (value : List UInt8) : Except ε String :=
  match utf8Decode value with
  | some cs => .ok (String.ofList cs)
  | none => .error undecodable

/-- A text behind the length of its bytes. -/
def readText {ε : Type} (short shortText undecodable : ε) : StreamReader UInt8 ε String := do
  let size ← readWord short
  let value ← readExactly size shortText
  StreamReader.ofExcept (decodeText undecodable value)

/-- The bytes of a text behind their number. -/
def prefixedText (text : String) : List UInt8 :=
  wordBytes (utf8Encode text.toList).length ++ utf8Encode text.toList

theorem codec_decodeText {ε : Type} (count : Nat) (short undecodable : ε) :
    Codec (readExactly count short >>= fun value => StreamReader.ofExcept (decodeText undecodable value))
      (fun text : String => utf8Encode text.toList)
      (fun text : String => (utf8Encode text.toList).length = count) := by
  refine (codec_readExactly count short).map (fun text : String => utf8Encode text.toList) ?_ ?_
  · intro value text isCount decoded
    unfold decodeText at decoded
    cases read : utf8Decode value with
    | none =>
      rw [read] at decoded
      cases decoded
    | some cs =>
      rw [read] at decoded
      cases decoded
      rw [String.toList_ofList, utf8Encode_utf8Decode read]
      exact ⟨isCount, rfl⟩
  · intro text isCount
    refine ⟨isCount, ?_⟩
    rw [decodeText, utf8Decode_utf8Encode]
    exact congrArg _ String.ofList_toList

/-- A text behind its length. -/
theorem codec_readText {ε : Type} (short shortText undecodable : ε) :
    Codec (readText short shortText undecodable) prefixedText
      (fun text => (utf8Encode text.toList).length < 4294967296) := by
  have value (size : Nat) : Codec (do
        let value ← readExactly size shortText
        StreamReader.ofExcept (decodeText undecodable value)) (fun text : String => utf8Encode text.toList)
      (fun text : String => (utf8Encode text.toList).length = size ∧ True) :=
    (codec_decodeText size shortText undecodable).congr (fun _ => (and_iff_left trivial).symm)
      fun _ _ => rfl
  have both := (codec_readWord short).bind (fun text : String => (utf8Encode text.toList).length)
    fun size _ => value size
  exact both.congr (fun _ => and_iff_left trivial) fun _ _ => rfl

theorem raises_readText {ε : Type} {kind : ε → Prop} {short shortText undecodable : ε}
    (isShort : kind short) (isShortText : kind shortText) (isUndecodable : kind undecodable) :
    (readText short shortText undecodable).Raises kind := by
  refine (raises_readWord isShort).bind fun size => (raises_readExactly size isShortText).bind fun value =>
    StreamReader.raises_ofExcept fun e failed => ?_
  unfold decodeText at failed
  split at failed
  · cases failed
  · cases failed
    exact isUndecodable

end AgentPark.Lib
