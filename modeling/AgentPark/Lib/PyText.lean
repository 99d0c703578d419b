import Mathlib.Data.List.Basic
import Mathlib.Data.List.TakeWhile

/-!
# The string operations of the source language

The program is written in Python, and its checks compare strings after `str.strip`, after
`str.lower`, or against the pattern `\d`.  These are those operations on character lists, with the
lemmas the developments use.

* `pyLower` lowers ASCII letters.  The program compares lowered text only with ASCII words; `str.lower`
  makes one of another text where it has a Kelvin sign for a `k`.
  `pyStrip_pyLower` says that the two can be taken in either order.
* `pyIsDecimal` is the class `\d` matches: the decimal digits of every script.  `isDateText` is the
  pattern of a date.
-/

namespace AgentPark.Lib

/-- The characters `str.isspace` accepts, which `str.strip` removes. -/
def pyIsSpace (c : Char) : Bool :=
  (9 ≤ c.toNat && c.toNat ≤ 13) || (28 ≤ c.toNat && c.toNat ≤ 32) ||
    (0x2000 ≤ c.toNat && c.toNat ≤ 0x200a) ||
    [0x85, 0xa0, 0x1680, 0x2028, 0x2029, 0x202f, 0x205f, 0x3000].contains c.toNat

/-- Drop the characters `p` accepts at both ends of a list. -/
def stripList {β : Type*} (p : β → Bool) (xs : List β) : List β :=
  ((xs.dropWhile p).reverse.dropWhile p).reverse

/-- `str.strip()`. -/
def pyStrip (text : String) : String := String.ofList (stripList pyIsSpace text.toList)

/-- `str.lower()` on ASCII letters; other characters stay. -/
def pyLower (text : String) : String := String.ofList (text.toList.map Char.toLower)

section StripList

variable {β : Type*} {p : β → Bool}

theorem dropWhile_dropWhile (xs : List β) : (xs.dropWhile p).dropWhile p = xs.dropWhile p := by
  induction xs with
  | nil => rfl
  | cons x xs ih =>
    by_cases drop : p x = true
    · simp only [List.dropWhile_cons, drop, if_true, ih]
    · simp [drop]

theorem dropWhile_reverse_dropWhile_reverse (xs : List β) (start : xs.dropWhile p = xs) :
    ((xs.reverse.dropWhile p).reverse).dropWhile p = (xs.reverse.dropWhile p).reverse := by
  cases xs with
  | nil => rfl
  | cons x xs =>
    have kept : ¬ p x = true := by
      intro drop
      rw [List.dropWhile_cons, if_pos drop] at start
      have := congrArg List.length start
      have := (List.dropWhile_suffix (l := xs) p).length_le
      simp only [List.length_cons] at *
      omega
    rw [List.reverse_cons, List.dropWhile_append]
    by_cases all : (xs.reverse.dropWhile p).isEmpty
    · simp [all, kept]
    · simp [all, kept]

theorem stripList_stripList (xs : List β) : stripList p (stripList p xs) = stripList p xs := by
  have start := dropWhile_reverse_dropWhile_reverse (p := p) (xs.dropWhile p)
    (dropWhile_dropWhile xs)
  unfold stripList
  rw [start, List.reverse_reverse, dropWhile_dropWhile]

theorem stripList_of_ends {x y : β} {xs : List β} (first : p x = false) (last : p y = false) :
    stripList p (x :: (xs ++ [y])) = x :: (xs ++ [y]) := by
  simp [stripList, first, last]

theorem last_of_stripList {y : β} {xs : List β} (stripped : stripList p (xs ++ [y]) = xs ++ [y]) :
    p y = false := by
  by_contra drops
  rw [Bool.not_eq_false] at drops
  have shorter : (stripList p (xs ++ [y])).length < (xs ++ [y]).length := by
    unfold stripList
    rw [List.length_reverse, List.dropWhile_append]
    split
    · rename_i none
      rw [List.dropWhile_cons_of_pos drops, List.dropWhile_nil]
      simp
    · rw [List.reverse_append, List.reverse_singleton, List.singleton_append,
        List.dropWhile_cons_of_pos drops]
      have back := (List.dropWhile_sublist (l := (xs.dropWhile p).reverse) p).length_le
      have front := (List.dropWhile_sublist (l := xs) p).length_le
      rw [List.length_reverse] at back
      rw [List.length_append, List.length_singleton]
      omega
  rw [stripped] at shorter
  exact Nat.lt_irrefl _ shorter

theorem stripList_pad {front xs back : List β} (allFront : ∀ a ∈ front, p a = true)
    (allBack : ∀ a ∈ back, p a = true) (stripped : stripList p xs = xs) (ne : xs ≠ []) :
    stripList p (front ++ xs ++ back) = xs := by
  have start : xs.dropWhile p = xs := by
    refine (List.dropWhile_suffix p).eq_of_length_le ?_
    have back := (List.dropWhile_sublist (l := (xs.dropWhile p).reverse) p).length_le
    have same := congrArg List.length stripped
    unfold stripList at same
    rw [List.length_reverse] at same back
    omega
  have ending : (xs.reverse.dropWhile p).reverse = xs := by
    unfold stripList at stripped
    rw [start] at stripped
    exact stripped
  have allReverse : ∀ a ∈ back.reverse, p a = true := fun a mem => allBack a (List.mem_reverse.mp mem)
  unfold stripList
  rw [List.append_assoc, List.dropWhile_append_of_pos allFront, List.dropWhile_append, start,
    if_neg (by simpa using ne), List.reverse_append, List.dropWhile_append_of_pos allReverse, ending]

theorem stripList_ne_nil {x : β} {xs : List β} (mem : x ∈ xs) (kept : p x = false) :
    stripList p xs ≠ [] := by
  intro empty
  unfold stripList at empty
  rw [List.reverse_eq_nil_iff, List.dropWhile_eq_nil_iff] at empty
  have all : (xs.dropWhile p).dropWhile p = [] :=
    List.dropWhile_eq_nil_iff.mpr fun y inRest => empty y (List.mem_reverse.mpr inRest)
  rw [dropWhile_dropWhile, List.dropWhile_eq_nil_iff] at all
  exact Bool.noConfusion (kept.symm.trans (all x mem))

end StripList

theorem pyStrip_empty : pyStrip "" = "" := by decide +kernel

/-- Stripping once is enough. -/
@[simp] theorem pyStrip_pyStrip (text : String) : pyStrip (pyStrip text) = pyStrip text := by
  simp only [pyStrip, String.toList_ofList, stripList_stripList]

/-! ### Lowering -/

theorem toLower_cases (c : Char) :
    c.toLower = c ∨ (65 ≤ c.toNat ∧ c.toNat ≤ 90 ∧ c.toLower.toNat = c.toNat + 32) := by
  unfold Char.toLower
  split_ifs with upper
  · obtain ⟨low, high⟩ := upper
    have low : 65 ≤ c.toNat := UInt32.le_iff_toNat_le.mp low
    have high : c.toNat ≤ 90 := UInt32.le_iff_toNat_le.mp high
    refine .inr ⟨low, high, ?_⟩
    change (c.val + 32).toNat = _
    rw [UInt32.toNat_add]
    have : c.val.toNat = c.toNat := rfl
    have : (32 : UInt32).toNat = 32 := rfl
    omega
  · exact .inl rfl

theorem toLower_toLower (c : Char) : c.toLower.toLower = c.toLower := by
  rcases toLower_cases c with same | ⟨low, high, lowered⟩
  · rw [same, same]
  · rcases toLower_cases c.toLower with same | ⟨low', high', -⟩
    · exact same
    · omega

theorem pyIsSpace_toLower (c : Char) : pyIsSpace c.toLower = pyIsSpace c := by
  rcases toLower_cases c with same | ⟨low, high, lowered⟩
  · rw [same]
  · have notSpace : ∀ d : Char, 65 ≤ d.toNat → d.toNat ≤ 122 → pyIsSpace d = false := by
      intro d low high
      simp only [pyIsSpace, Bool.or_eq_false_iff, Bool.and_eq_false_iff, decide_eq_false_iff_not,
        List.contains_eq_mem, List.mem_cons, List.not_mem_nil, or_false]
      omega
    rw [notSpace c low (by omega), notSpace c.toLower (by omega) (by omega)]

@[simp] theorem pyLower_pyLower (text : String) : pyLower (pyLower text) = pyLower text := by
  rw [pyLower, pyLower, String.toList_ofList, List.map_map]
  congr 2
  funext c
  exact toLower_toLower c

theorem stripList_map {β γ : Type*} {p : β → Bool} {q : γ → Bool} {f : β → γ}
    (keep : ∀ x, q (f x) = p x) (xs : List β) :
    stripList q (xs.map f) = (stripList p xs).map f := by
  have same : q ∘ f = p := funext keep
  simp only [stripList, List.dropWhile_map, ← List.map_reverse, same]

/-- Stripping and lowering can be taken in either order. -/
theorem pyStrip_pyLower (text : String) : pyStrip (pyLower text) = pyLower (pyStrip text) := by
  simp only [pyStrip, pyLower, String.toList_ofList, stripList_map pyIsSpace_toLower]

/-- The zeros of the decimal blocks of Unicode; each block holds ten consecutive digits. -/
def decimalZeros : List Nat :=
  [0x30, 0x660, 0x6f0, 0x7c0, 0x966, 0x9e6, 0xa66, 0xae6, 0xb66, 0xbe6, 0xc66, 0xce6, 0xd66, 0xde6,
   0xe50, 0xed0, 0xf20, 0x1040, 0x1090, 0x17e0, 0x1810, 0x1946, 0x19d0, 0x1a80, 0x1a90, 0x1b50,
   0x1bb0, 0x1c40, 0x1c50, 0xa620, 0xa8d0, 0xa900, 0xa9d0, 0xa9f0, 0xaa50, 0xabf0, 0xff10, 0x104a0,
   0x10d30, 0x11066, 0x110f0, 0x11136, 0x111d0, 0x112f0, 0x11450, 0x114d0, 0x11650, 0x116c0,
   0x11730, 0x118e0, 0x11950, 0x11c50, 0x11d50, 0x11da0, 0x16a60, 0x16ac0, 0x16b50, 0x1d7ce,
   0x1d7d8, 0x1d7e2, 0x1d7ec, 0x1d7f6, 0x1e140, 0x1e2f0, 0x1e950, 0x1fbf0]

/-- The class `\d` of a pattern over `str`. -/
def pyIsDecimal (c : Char) : Bool :=
  decimalZeros.any fun first => first ≤ c.toNat && c.toNat < first + 10

/-- The pattern `^\d{4}-\d{2}-\d{2}$` on a text of ten characters. -/
def isDateText : List Char → Bool
  | [a, b, c, d, '-', e, f, '-', g, h] => [a, b, c, d, e, f, g, h].all pyIsDecimal
  | _ => false

end AgentPark.Lib
