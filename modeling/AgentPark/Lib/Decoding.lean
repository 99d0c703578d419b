import AgentPark.Lib.Lines

/-!
# Decoding a stream, and text at a fixed width

An incremental decoder takes the bytes of a stream in pieces and keeps those that only begin a
character.  Text at four bytes for a character can be read from any character on.
-/

namespace AgentPark.Lib

/-! ### The incremental decoder -/

/-- The byte goes on with a character. -/
def isContinuation (b : UInt8) : Bool := 128 ≤ b.toNat ∧ b.toNat ≤ 191

/-- What may follow the first byte of a character of several bytes. -/
def isSecond (a b : UInt8) : Bool :=
  isContinuation b ∧ (a.toNat = 224 → 160 ≤ b.toNat) ∧ (a.toNat = 237 → b.toNat ≤ 159) ∧
    (a.toNat = 240 → 144 ≤ b.toNat) ∧ (a.toNat = 244 → b.toNat ≤ 143)

/-- The bytes begin a character and do not end it. -/
def isPartial : List UInt8 → Bool
  | [a] => 194 ≤ a.toNat ∧ a.toNat ≤ 244
  | [a, b] => 224 ≤ a.toNat ∧ a.toNat ≤ 244 ∧ isSecond a b
  | [a, b, c] => 240 ≤ a.toNat ∧ a.toNat ≤ 244 ∧ isSecond a b ∧ isContinuation c
  | _ => false

/-- The characters that the bytes encode, and the bytes behind them that begin one; `none` is the
error of a strict decoder.  As many steps as there are bytes are enough. -/
def decodeSome : Nat → List UInt8 → Option (List Char × List UInt8)
  | _, [] => some ([], [])
  | 0, _ => none
  | steps + 1, bytes =>
    match bytes.toByteArray.utf8DecodeChar? 0 with
    | some c => (decodeSome steps (bytes.drop c.utf8Size)).map fun (cs, rest) => (c :: cs, rest)
    | none => if isPartial bytes then some ([], bytes) else none

/-- `decoder.decode(chunk, final)` of a decoder that has kept some bytes. -/
def decodeIncremental (kept chunk : List UInt8) (final : Bool) : Option (List Char × List UInt8) :=
  match decodeSome (kept ++ chunk).length (kept ++ chunk) with
  | some (cs, rest) => if final ∧ rest ≠ [] then none else some (cs, rest)
  | none => none

theorem utf8EncodeChar_ne_nil (c : Char) : String.utf8EncodeChar c ≠ [] := by
  intro none
  have length := String.length_utf8EncodeChar c
  rw [none, List.length_nil] at length
  exact absurd c.utf8Size_pos (length ▸ Nat.lt_irrefl 0)

/-- The beginning of a character: some of its bytes, and not all. -/
def Begins (p : List UInt8) (c : Char) : Prop :=
  p ≠ [] ∧ p <+: String.utf8EncodeChar c ∧ p.length < (String.utf8EncodeChar c).length

theorem isPartial_of_begins {p : List UInt8} {c : Char} (begins : Begins p c) :
    isPartial p = true := by
  obtain ⟨notEmpty, ⟨rest, isPrefix⟩, shorter⟩ := begins
  have value : c.val.toNat = c.toNat := rfl
  -- No character is a surrogate, nor beyond the last code point.
  have valid : c.toNat < 55296 ∨ 57343 < c.toNat ∧ c.toNat < 1114112 := c.valid
  unfold String.utf8EncodeChar at isPrefix shorter
  simp only [value] at isPrefix shorter
  split_ifs at isPrefix shorter with one two three
  · cases p with
    | nil => exact absurd rfl notEmpty
    | cons a p =>
      simp only [List.length_cons, List.length_nil] at shorter
      omega
  · rcases p with _ | ⟨a, _ | ⟨b, p⟩⟩
    · exact absurd rfl notEmpty
    · simp only [List.cons_append, List.nil_append, List.cons.injEq] at isPrefix
      obtain ⟨rfl, -⟩ := isPrefix
      simp only [isPartial, UInt8.toNat_ofNat', decide_eq_true_eq]
      omega
    · simp only [List.length_cons, List.length_nil] at shorter
      omega
  · rcases p with _ | ⟨a, _ | ⟨b, _ | ⟨d, p⟩⟩⟩
    · exact absurd rfl notEmpty
    · simp only [List.cons_append, List.nil_append, List.cons.injEq] at isPrefix
      obtain ⟨rfl, -⟩ := isPrefix
      simp only [isPartial, UInt8.toNat_ofNat', decide_eq_true_eq]
      omega
    · simp only [List.cons_append, List.nil_append, List.cons.injEq] at isPrefix
      obtain ⟨rfl, rfl, -⟩ := isPrefix
      simp only [isPartial, isSecond, isContinuation, UInt8.toNat_ofNat', decide_eq_true_eq]
      omega
    · simp only [List.length_cons, List.length_nil] at shorter
      omega
  · rcases p with _ | ⟨a, _ | ⟨b, _ | ⟨d, _ | ⟨e, p⟩⟩⟩⟩
    · exact absurd rfl notEmpty
    · simp only [List.cons_append, List.nil_append, List.cons.injEq] at isPrefix
      obtain ⟨rfl, -⟩ := isPrefix
      simp only [isPartial, UInt8.toNat_ofNat', decide_eq_true_eq]
      omega
    · simp only [List.cons_append, List.nil_append, List.cons.injEq] at isPrefix
      obtain ⟨rfl, rfl, -⟩ := isPrefix
      simp only [isPartial, isSecond, isContinuation, UInt8.toNat_ofNat', decide_eq_true_eq]
      omega
    · simp only [List.cons_append, List.nil_append, List.cons.injEq] at isPrefix
      obtain ⟨rfl, rfl, rfl, -⟩ := isPrefix
      simp only [isPartial, isSecond, isContinuation, UInt8.toNat_ofNat', decide_eq_true_eq]
      omega
    · simp only [List.length_cons, List.length_nil] at shorter
      omega

theorem decodeChar_append (c : Char) (rest : List UInt8) :
    (String.utf8EncodeChar c ++ rest).toByteArray.utf8DecodeChar? 0 = some c := by
  rw [List.toByteArray_append, ByteArray.utf8DecodeChar?_utf8EncodeChar_append]

theorem decodeChar_of_begins {p : List UInt8} {c : Char} (begins : Begins p c) :
    p.toByteArray.utf8DecodeChar? 0 = none := by
  obtain ⟨-, ⟨rest, isPrefix⟩, shorter⟩ := begins
  cases decoded : p.toByteArray.utf8DecodeChar? 0 with
  | none => rfl
  | some d =>
    obtain ⟨behind, eq⟩ := ByteArray.exists_of_utf8DecodeChar?_eq_some decoded
    -- Then the character of which they are a beginning would be decoded as that one.
    have whole : (String.utf8EncodeChar c).toByteArray.utf8DecodeChar? 0 = some d := by
      rw [← isPrefix, List.toByteArray_append, eq, ByteArray.append_assoc,
        ByteArray.utf8DecodeChar?_utf8EncodeChar_append]
    have own := decodeChar_append c []
    rw [List.append_nil, whole, Option.some.injEq] at own
    subst own
    have size := congrArg ByteArray.size eq
    rw [ByteArray.size_append, List.size_toByteArray, List.size_toByteArray] at size
    omega

theorem exists_of_prefix {bytes : List UInt8} {text : List Char} (isPrefix : bytes <+: utf8Encode text) :
    ∃ cs rest p, text = cs ++ rest ∧ bytes = utf8Encode cs ++ p ∧
      (p = [] ∨ ∃ c later, rest = c :: later ∧ Begins p c) := by
  induction text generalizing bytes with
  | nil =>
    rw [utf8Encode_nil, List.prefix_nil] at isPrefix
    exact ⟨[], [], [], rfl, isPrefix, .inl rfl⟩
  | cons c text ih =>
    rw [utf8Encode_cons] at isPrefix
    by_cases short : bytes.length < (String.utf8EncodeChar c).length
    · have begins := List.prefix_of_prefix_length_le isPrefix (List.prefix_append _ _)
        (Nat.le_of_lt short)
      by_cases empty : bytes = []
      · exact ⟨[], c :: text, [], rfl, empty, .inl rfl⟩
      · exact ⟨[], c :: text, bytes, rfl, rfl, .inr ⟨c, text, rfl, empty, begins, short⟩⟩
    · obtain ⟨behind, rfl⟩ := List.prefix_of_prefix_length_le (List.prefix_append _ _) isPrefix
        (Nat.not_lt.mp short)
      rw [List.prefix_append_right_inj] at isPrefix
      obtain ⟨cs, rest, p, rfl, rfl, begins⟩ := ih isPrefix
      exact ⟨c :: cs, rest, p, rfl, by rw [utf8Encode_cons, List.append_assoc], begins⟩

theorem decodeSome_append {cs : List Char} {p : List UInt8} (begins : p = [] ∨ ∃ c, Begins p c)
    {steps : Nat} (enough : (utf8Encode cs ++ p).length ≤ steps) :
    decodeSome steps (utf8Encode cs ++ p) = some (cs, p) := by
  induction cs generalizing steps with
  | nil =>
    rw [utf8Encode_nil, List.nil_append] at enough ⊢
    rcases begins with rfl | ⟨c, begins⟩
    · rw [decodeSome]
    · cases steps with
      | zero =>
        have := List.length_pos_iff.mpr begins.1
        omega
      | succ steps =>
        rw [decodeSome.eq_3 _ _ begins.1, decodeChar_of_begins begins, isPartial_of_begins begins]
        rfl
  | cons c cs ih =>
    rw [utf8Encode_cons, List.append_assoc] at enough ⊢
    have size := String.length_utf8EncodeChar c
    have positive := c.utf8Size_pos
    rw [List.length_append] at enough
    cases steps with
    | zero => omega
    | succ steps =>
      have notEmpty : String.utf8EncodeChar c ++ (utf8Encode cs ++ p) ≠ [] :=
        List.append_ne_nil_of_left_ne_nil (utf8EncodeChar_ne_nil c) _
      rw [decodeSome.eq_3 _ _ notEmpty, decodeChar_append]
      dsimp only
      rw [← size, List.drop_left, ih (by omega)]
      rfl

/-- The decoder on a beginning of an encoded text, whatever its end. -/
theorem decodeIncremental_take {text : List Char} {kept chunk : List UInt8}
    (isPrefix : kept ++ chunk <+: utf8Encode text) :
    ∃ cs rest p, text = cs ++ rest ∧ kept ++ chunk = utf8Encode cs ++ p ∧
      (p = [] ∨ ∃ c later, rest = c :: later ∧ Begins p c) ∧
      decodeIncremental kept chunk false = some (cs, p) := by
  obtain ⟨cs, rest, p, isText, eq, begins⟩ := exists_of_prefix isPrefix
  have known : p = [] ∨ ∃ c, Begins p c := begins.imp_right fun ⟨c, _, _, isBegin⟩ => ⟨c, isBegin⟩
  refine ⟨cs, rest, p, isText, eq, begins, ?_⟩
  rw [decodeIncremental, eq, decodeSome_append known (Nat.le_refl _)]
  rfl

theorem decodeIncremental_end : decodeIncremental [] [] true = some ([], []) := rfl

/-! ### Text at a fixed width -/

/-- A character as four bytes, the low ones first. -/
def fixedChar (c : Char) : List UInt8 :=
  [UInt8.ofNat c.toNat, UInt8.ofNat (c.toNat / 256), UInt8.ofNat (c.toNat / 65536),
    UInt8.ofNat (c.toNat / 16777216)]

/-- `text.encode("utf-32-le")` -/
def fixedEncode (cs : List Char) : List UInt8 := cs.flatMap fixedChar

/-- `raw.decode("utf-32-le")`; `none` is the error it raises. -/
def fixedDecode : List UInt8 → Option (List Char)
  | [] => some []
  | a :: b :: c :: d :: rest =>
    let n := a.toNat + 256 * b.toNat + 65536 * c.toNat + 16777216 * d.toNat
    if n.isValidChar then (fixedDecode rest).map (Char.ofNat n :: ·) else none
  | _ => none

/-- `stream.seek(offset)` and `stream.read(size)` -/
def readBytes (bytes : List UInt8) (offset size : Nat) : List UInt8 := (bytes.drop offset).take size

theorem fixedDecode_fixedEncode (cs : List Char) : fixedDecode (fixedEncode cs) = some cs := by
  induction cs with
  | nil => rfl
  | cons c cs ih =>
    have valid : c.toNat < 55296 ∨ 57343 < c.toNat ∧ c.toNat < 1114112 := c.valid
    have number : (UInt8.ofNat c.toNat).toNat + 256 * (UInt8.ofNat (c.toNat / 256)).toNat +
        65536 * (UInt8.ofNat (c.toNat / 65536)).toNat +
        16777216 * (UInt8.ofNat (c.toNat / 16777216)).toNat = c.toNat := by
      simp only [UInt8.toNat_ofNat']
      omega
    have isValid : c.toNat.isValidChar := c.valid
    rw [fixedEncode, List.flatMap_cons, fixedChar]
    simp only [List.cons_append, List.nil_append, fixedDecode]
    rw [number, if_pos isValid, ← fixedEncode, ih, Option.map_some, Char.ofNat_toNat]

theorem length_fixedEncode (cs : List Char) : (fixedEncode cs).length = cs.length * 4 := by
  induction cs with
  | nil => rfl
  | cons c cs ih =>
    rw [fixedEncode, List.flatMap_cons, List.length_append, ← fixedEncode, ih, List.length_cons]
    have : (fixedChar c).length = 4 := rfl
    omega

theorem fixedEncode_append (cs ds : List Char) :
    fixedEncode (cs ++ ds) = fixedEncode cs ++ fixedEncode ds := List.flatMap_append

/-- Reading characters out of text at a fixed width. -/
theorem readFixed_fixedEncode (cs : List Char) (offset size : Nat) :
    fixedDecode (readBytes (fixedEncode cs) (offset * 4) (size * 4)) =
      some ((cs.drop offset).take size) := by
  have dropped : (fixedEncode cs).drop (offset * 4) = fixedEncode (cs.drop offset) := by
    by_cases inside : offset ≤ cs.length
    · have split := fixedEncode_append (cs.take offset) (cs.drop offset)
      rw [List.take_append_drop] at split
      have length : (fixedEncode (cs.take offset)).length = offset * 4 := by
        rw [length_fixedEncode, List.length_take_of_le inside]
      rw [split, ← length, List.drop_left]
    · rw [List.drop_eq_nil_of_le (by rw [length_fixedEncode]; omega),
        List.drop_eq_nil_of_le (by omega)]
      rfl
  have taken : ∀ ds : List Char, (fixedEncode ds).take (size * 4) = fixedEncode (ds.take size) := by
    intro ds
    by_cases inside : size ≤ ds.length
    · have split := fixedEncode_append (ds.take size) (ds.drop size)
      rw [List.take_append_drop] at split
      have length : (fixedEncode (ds.take size)).length = size * 4 := by
        rw [length_fixedEncode, List.length_take_of_le inside]
      rw [split, ← length, List.take_left]
    · rw [List.take_of_length_le (by rw [length_fixedEncode]; omega),
        List.take_of_length_le (by omega)]
  rw [readBytes, dropped, taken, fixedDecode_fixedEncode]

end AgentPark.Lib
