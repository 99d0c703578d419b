import AgentPark.Lib.PyText

/-!
# Text files as bytes and lines

A text file is a list of bytes.  `utf8Encode` and `utf8Decode` are the encoding the program opens
its files with; `universalNewlines` is what reading in text mode does to line breaks.  Lines are the
pieces of `List.splitOn`.

* `newline_mem_utf8Encode`: a byte 10 stands for a line break only.
-/

namespace AgentPark.Lib

/-- `text.encode("utf-8")`. -/
def utf8Encode (cs : List Char) : List UInt8 := cs.flatMap String.utf8EncodeChar

/-- `raw.decode("utf-8")`; `none` is the error it raises. -/
def utf8Decode (bytes : List UInt8) : Option (List Char) :=
  bytes.toByteArray.utf8Decode?.map Array.toList

@[simp] theorem utf8Encode_nil : utf8Encode [] = [] := rfl

theorem utf8Encode_cons (c : Char) (cs : List Char) :
    utf8Encode (c :: cs) = String.utf8EncodeChar c ++ utf8Encode cs := rfl

@[simp] theorem utf8Encode_append (cs ds : List Char) :
    utf8Encode (cs ++ ds) = utf8Encode cs ++ utf8Encode ds := List.flatMap_append

/-- Encoded text is read back. -/
@[simp] theorem utf8Decode_utf8Encode (cs : List Char) : utf8Decode (utf8Encode cs) = some cs := by
  have decoded := List.utf8Decode?_utf8Encode (l := cs)
  rw [List.utf8Encode] at decoded
  rw [utf8Decode, utf8Encode, decoded]
  rfl

theorem utf8EncodeChar_cases (c : Char) :
    (c.toNat < 128 ∧ String.utf8EncodeChar c = [UInt8.ofNat c.toNat]) ∨
      (128 ≤ c.toNat ∧ ∀ b ∈ String.utf8EncodeChar c, 128 ≤ b.toNat) := by
  have value : c.val.toNat = c.toNat := rfl
  unfold String.utf8EncodeChar
  simp only [value]
  split_ifs with one two three
  · exact .inl ⟨by omega, rfl⟩
  all_goals
    refine .inr ⟨by omega, ?_⟩
    simp only [List.forall_mem_cons, UInt8.toNat_ofNat', List.not_mem_nil, false_implies,
      implies_true, and_true]
    omega

theorem exists_char_of_mem_utf8Encode {cs : List Char} {b : UInt8} (mem : b ∈ utf8Encode cs)
    (small : b.toNat < 128) : ∃ c ∈ cs, c.toNat = b.toNat := by
  obtain ⟨c, inText, inChar⟩ := List.mem_flatMap.mp mem
  refine ⟨c, inText, ?_⟩
  rcases utf8EncodeChar_cases c with ⟨ascii, one⟩ | ⟨-, big⟩
  · rw [one, List.mem_singleton] at inChar
    rw [inChar, UInt8.toNat_ofNat']
    omega
  · have := big b inChar
    omega

/-- The byte of a line break. -/
def newline : UInt8 := 10

theorem newline_not_mem_utf8Encode {cs : List Char} (plain : '\n' ∉ cs) :
    newline ∉ utf8Encode cs := by
  intro mem
  obtain ⟨c, inText, same⟩ := exists_char_of_mem_utf8Encode mem (by decide)
  have : c = '\n' := Char.toNat_inj.mp same
  exact plain (this ▸ inText)

/-- Reading in text mode takes `\r` and `\r\n` as a line break. -/
def universalNewlines : List Char → List Char
  | '\r' :: '\n' :: cs => '\n' :: universalNewlines cs
  | '\r' :: cs => '\n' :: universalNewlines cs
  | c :: cs => c :: universalNewlines cs
  | [] => []

theorem universalNewlines_eq {cs : List Char} (plain : '\r' ∉ cs) : universalNewlines cs = cs := by
  induction cs with
  | nil => rfl
  | cons c cs ih =>
    rw [List.mem_cons, not_or] at plain
    obtain ⟨notReturn, later⟩ := plain
    rw [universalNewlines.eq_3 c cs (fun _ same _ => notReturn same.symm)
      (fun same => notReturn same.symm), ih later]

section Split

variable {α : Type*} [DecidableEq α] {sep : α}

theorem splitOn_flatMap_append {lines : List (List α)} {last : List α}
    (plain : ∀ line ∈ lines, sep ∉ line) (plainLast : sep ∉ last) :
    ((lines.flatMap fun line => line ++ [sep]) ++ last).splitOn sep = lines ++ [last] := by
  induction lines with
  | nil => exact List.splitOn_eq_singleton plainLast
  | cons line lines ih =>
    obtain ⟨first, later⟩ := List.forall_mem_cons.mp plain
    rw [List.flatMap_cons, List.append_assoc, List.append_assoc, List.singleton_append,
      List.splitOn_append_cons_self_of_not_mem first, ih later, List.cons_append]

/-- The lines of a file written line by line. -/
theorem splitOn_flatMap {lines : List (List α)} (plain : ∀ line ∈ lines, sep ∉ line) :
    (lines.flatMap fun line => line ++ [sep]).splitOn sep = lines ++ [[]] := by
  have split := splitOn_flatMap_append plain List.not_mem_nil
  rw [List.append_nil] at split
  exact split

theorem sep_not_mem_of_mem_splitOn {xs piece : List α} (mem : piece ∈ xs.splitOn sep) :
    sep ∉ piece := by
  induction xs generalizing piece with
  | nil =>
    rw [List.splitOn_nil, List.mem_singleton] at mem
    simp [mem]
  | cons x xs ih =>
    rw [List.splitOn_cons_eq_if_modifyHead] at mem
    split_ifs at mem with same
    · rcases List.mem_cons.mp mem with rfl | later
      · simp
      · exact ih later
    · cases pieces : xs.splitOn sep with
      | nil => exact absurd pieces (List.splitOn_ne_nil sep xs)
      | cons head tail =>
        rw [pieces] at mem ih
        rw [List.modifyHead_cons] at mem
        rcases List.mem_cons.mp mem with rfl | later
        · have other : sep ≠ x := fun eq => same (by simp [eq])
          exact List.not_mem_cons_of_ne_of_not_mem other (ih List.mem_cons_self)
        · exact ih (List.mem_cons_of_mem head later)

/-- Splitting a text from its end: the first piece of the later part belongs to the earlier part. -/
theorem splitOn_append {xs ys piece : List α} {pieces : List (List α)}
    (split : ys.splitOn sep = piece :: pieces) :
    (xs ++ ys).splitOn sep = (xs ++ piece).splitOn sep ++ pieces := by
  have whole : [sep].intercalate (ys.splitOn sep) = ys := List.intercalate_splitOn sep
  have plain : sep ∉ piece := sep_not_mem_of_mem_splitOn (split ▸ List.mem_cons_self)
  rw [split] at whole
  cases pieces with
  | nil =>
    rw [List.intercalate_singleton] at whole
    rw [whole, List.append_nil]
  | cons next pieces =>
    have joined : piece ++ sep :: [sep].intercalate (next :: pieces) = ys := by
      rw [← whole, List.intercalate_cons_cons, List.append_assoc, List.singleton_append]
    have rest : ([sep].intercalate (next :: pieces)).splitOn sep = next :: pieces := by
      rw [← joined, List.splitOn_append_cons_self_of_not_mem plain] at split
      exact (List.cons.inj split).2
    rw [← joined, ← List.append_assoc, List.splitOn_append_cons_self, rest]

end Split

end AgentPark.Lib
