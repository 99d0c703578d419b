import Mathlib.Data.List.Induction
import AgentPark.Lib.Decoding

/-!
# Reading lines from the end of a file

A file is read backwards in chunks.  The first piece of a chunk may go on in the chunk before it and is carried
over.
-/

namespace AgentPark.Lib

section

variable {α : Type*} [DecidableEq α]

/-- The pieces in front of a position, last first, and what is carried over at the start of the file. -/
def backwardPieces (sep : α) (chunk : Nat) (file : List α) (position : Nat) (remainder : List α) :
    List (List α) × List α :=
  if 0 < position ∧ 0 < chunk then
    let size := min chunk position
    let data := (file.drop (position - size)).take size ++ remainder
    match data.splitOn sep with
    | [] => ([], remainder)
    | first :: lines =>
      let (later, last) := backwardPieces sep chunk file (position - size) first
      (lines.reverse ++ later, last)
  else ([], remainder)
termination_by position

/-- With the piece left at the start of the file the loop gives all pieces, last first, whatever the
size of a chunk. -/
theorem backwardPieces_eq {sep : α} {chunk : Nat} (positive : 0 < chunk) (file : List α) {position : Nat}
    {remainder : List α} (whole : sep ∉ remainder) :
    (backwardPieces sep chunk file position remainder).1 ++ [(backwardPieces sep chunk file position remainder).2] =
      ((file.take position ++ remainder).splitOn sep).reverse := by
  induction position using Nat.strongRecOn generalizing remainder with
  | ind position ih =>
    rw [backwardPieces]
    split_ifs with more
    · have cut : file.take position =
          file.take (position - min chunk position) ++
            (file.drop (position - min chunk position)).take (min chunk position) := by
        rw [← List.take_add]
        congr 1
        omega
      dsimp only
      rw [cut, List.append_assoc]
      generalize isData : (file.drop (position - min chunk position)).take (min chunk position) ++ remainder = data
      cases split : data.splitOn sep with
      | nil => exact absurd split (List.splitOn_ne_nil sep data)
      | cons first lines =>
        have carried : sep ∉ first := sep_not_mem_of_mem_splitOn (split ▸ List.mem_cons_self)
        have earlier := ih (position - min chunk position) (by omega) carried
        dsimp only
        rw [splitOn_append split, List.reverse_append, ← earlier, List.append_assoc]
    · have isStart : position = 0 := by omega
      rw [isStart, List.take_zero, List.nil_append, List.nil_append, List.splitOn_eq_singleton whole]
      rfl

end

/-! ### Stripping -/

section Strip

variable {β : Type*} {p : β → Bool}

theorem mem_of_mem_stripList {x : β} {xs : List β} (mem : x ∈ stripList p xs) : x ∈ xs := by
  rw [stripList, List.mem_reverse] at mem
  have inFront := List.mem_reverse.mp ((List.dropWhile_sublist p).subset mem)
  exact (List.dropWhile_sublist p).subset inFront

theorem dropWhile_append_kept {x : β} (kept : p x = false) (front rest : List β) :
    (front ++ x :: rest).dropWhile p = front.dropWhile p ++ x :: rest := by
  rw [List.dropWhile_append]
  split_ifs with all
  · rw [List.dropWhile_cons_of_neg (by rw [kept]; exact Bool.false_ne_true), List.isEmpty_iff.mp all,
      List.nil_append]
  · rfl

theorem stripList_around {x y : β} (first : p x = false) (last : p y = false) (front middle back : List β) :
    stripList p (front ++ (x :: (middle ++ [y])) ++ back) =
      front.dropWhile p ++ (x :: (middle ++ [y])) ++ (back.reverse.dropWhile p).reverse := by
  have turned : (front.dropWhile p ++ x :: ((middle ++ [y]) ++ back)).reverse =
      back.reverse ++ y :: (middle.reverse ++ x :: (front.dropWhile p).reverse) := by
    simp
  rw [stripList, List.append_assoc, List.cons_append, dropWhile_append_kept first, turned,
    dropWhile_append_kept last]
  simp

end Strip

/-! ### Bytes and characters -/

theorem splitOn_append_of_not_mem {α : Type*} [DecidableEq α] {sep : α} {front : List α} (plain : sep ∉ front)
    (xs : List α) : (front ++ xs).splitOn sep = (xs.splitOn sep).modifyHead (front ++ ·) := by
  induction front with
  | nil =>
    rw [List.nil_append]
    cases xs.splitOn sep <;> rfl
  | cons x front ih =>
    rw [List.mem_cons, not_or] at plain
    rw [List.cons_append, List.splitOn_cons_eq_if_modifyHead, ih plain.2]
    have other : ¬ (x == sep) = true := by simpa using Ne.symm plain.1
    rw [if_neg other]
    cases xs.splitOn sep <;> rfl

/-- Cutting the bytes of a text is cutting the text. -/
theorem splitOn_utf8Encode (cs : List Char) :
    (utf8Encode cs).splitOn newline = (cs.splitOn '\n').map utf8Encode := by
  induction cs with
  | nil => rfl
  | cons c cs ih =>
    rw [utf8Encode_cons, List.splitOn_cons_eq_if_modifyHead]
    split_ifs with isBreak
    · rw [beq_iff_eq] at isBreak
      subst isBreak
      rw [List.map_cons, ← ih]
      have cut := List.splitOn_append_cons_self_of_not_mem (List.not_mem_nil : newline ∉ []) (utf8Encode cs)
      exact cut
    · have plain : newline ∉ String.utf8EncodeChar c := by
        have alone := @newline_not_mem_utf8Encode [c] (by simpa using fun same => isBreak (by simp [← same]))
        rw [utf8Encode_cons, utf8Encode_nil, List.append_nil] at alone
        exact alone
      rw [splitOn_append_of_not_mem plain, ih]
      cases cs.splitOn '\n' <;> rfl

/-- The bytes `bytes.strip` removes. -/
def byteIsSpace (b : UInt8) : Bool := (9 ≤ b.toNat && b.toNat ≤ 13) || b.toNat == 32

/-- The characters whose bytes are removed. -/
def asciiIsSpace (c : Char) : Bool := (9 ≤ c.toNat && c.toNat ≤ 13) || c.toNat == 32

theorem byteIsSpace_cases (c : Char) :
    (asciiIsSpace c = true ∧ ∃ b, String.utf8EncodeChar c = [b] ∧ byteIsSpace b = true) ∨
      (asciiIsSpace c = false ∧ (∀ b ∈ String.utf8EncodeChar c, byteIsSpace b = false) ∧
        String.utf8EncodeChar c ≠ []) := by
  rcases utf8EncodeChar_cases c with ⟨ascii, one⟩ | ⟨high, big⟩
  · have value : (UInt8.ofNat c.toNat).toNat = c.toNat := by
      rw [UInt8.toNat_ofNat']
      omega
    have same : byteIsSpace (UInt8.ofNat c.toNat) = asciiIsSpace c := by rw [byteIsSpace, value, asciiIsSpace]
    cases space : asciiIsSpace c with
    | true => exact .inl ⟨rfl, _, one, same.trans space⟩
    | false =>
      refine .inr ⟨rfl, fun b mem => ?_, by rw [one]; exact List.cons_ne_nil _ _⟩
      rw [one, List.mem_singleton] at mem
      rw [mem, same, space]
  · refine .inr ⟨?_, fun b mem => ?_, ?_⟩
    · rw [asciiIsSpace]
      simp only [Bool.or_eq_false_iff, Bool.and_eq_false_iff, decide_eq_false_iff_not, beq_eq_false_iff_ne]
      omega
    · have := big b mem
      rw [byteIsSpace]
      simp only [Bool.or_eq_false_iff, Bool.and_eq_false_iff, decide_eq_false_iff_not, beq_eq_false_iff_ne]
      omega
    · exact utf8EncodeChar_ne_nil c

theorem dropWhile_utf8Encode (cs : List Char) :
    (utf8Encode cs).dropWhile byteIsSpace = utf8Encode (cs.dropWhile asciiIsSpace) := by
  induction cs with
  | nil => rfl
  | cons c cs ih =>
    rcases byteIsSpace_cases c with ⟨space, b, one, isSpace⟩ | ⟨solid, none, ne⟩
    · rw [utf8Encode_cons, one, List.singleton_append, List.dropWhile_cons_of_pos isSpace, ih,
        List.dropWhile_cons_of_pos space]
    · rw [List.dropWhile_cons_of_neg (by rw [solid]; exact Bool.false_ne_true), utf8Encode_cons]
      obtain ⟨b, rest, isBytes⟩ := List.exists_cons_of_ne_nil ne
      have first := none b (isBytes ▸ List.mem_cons_self)
      rw [isBytes, List.cons_append, List.dropWhile_cons_of_neg (by rw [first]; exact Bool.false_ne_true)]

theorem dropWhile_reverse_utf8Encode (cs : List Char) :
    ((utf8Encode cs).reverse.dropWhile byteIsSpace).reverse =
      utf8Encode ((cs.reverse.dropWhile asciiIsSpace).reverse) := by
  induction cs using List.reverseRecOn with
  | nil => rfl
  | append_singleton cs c ih =>
    rw [utf8Encode_append, List.reverse_append, List.reverse_append, List.reverse_singleton,
      List.singleton_append]
    have alone : utf8Encode [c] = String.utf8EncodeChar c := by
      rw [utf8Encode_cons, utf8Encode_nil, List.append_nil]
    rw [alone]
    rcases byteIsSpace_cases c with ⟨space, b, one, isSpace⟩ | ⟨solid, none, ne⟩
    · rw [one, List.reverse_singleton, List.singleton_append, List.dropWhile_cons_of_pos isSpace, ih,
        List.dropWhile_cons_of_pos space]
    · rw [List.dropWhile_cons_of_neg (by rw [solid]; exact Bool.false_ne_true), List.reverse_cons,
        List.reverse_reverse, utf8Encode_append, alone]
      obtain ⟨b, rest, isBytes⟩ := List.exists_cons_of_ne_nil (List.reverse_ne_nil_iff.mpr ne)
      have first := none b (List.mem_reverse.mp (isBytes ▸ List.mem_cons_self))
      rw [isBytes, List.cons_append, List.dropWhile_cons_of_neg (by rw [first]; exact Bool.false_ne_true),
        ← List.cons_append, ← isBytes, List.reverse_append, List.reverse_reverse, List.reverse_reverse]

/-- Stripping the bytes of a text is stripping the text. -/
theorem stripList_utf8Encode (cs : List Char) :
    stripList byteIsSpace (utf8Encode cs) = utf8Encode (stripList asciiIsSpace cs) := by
  rw [stripList, stripList, dropWhile_utf8Encode, dropWhile_reverse_utf8Encode]

end AgentPark.Lib
