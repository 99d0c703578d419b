import AgentPark.Lib.JsonText
import AgentPark.Lib.Lines
import Mathlib.Algebra.GroupWithZero.Nat

/-!
# The length of a value as text

The characters of an ASCII text are its bytes, and reading them takes no decoding.  With that the length
of a value as text is added up along the value.

* `Json.size` is the length of the text of a value whose texts are ASCII (`Json.plain`).
-/

namespace AgentPark.Lib

def textBytes (text : String) : List UInt8 := text.toByteArray.data.toList

def isAscii (text : String) : Bool := (textBytes text).all fun b => b.toNat < 128

/-- The characters of an ASCII text. -/
def asciiChars (text : String) : List Char := (textBytes text).map fun b => Char.ofNat b.toNat

theorem textBytes_eq (text : String) : textBytes text = utf8Encode text.toList := by
  have encoded := @String.utf8Encode_toList text
  rw [textBytes, ← encoded, List.utf8Encode, utf8Encode]
  simp

theorem toList_of_isAscii {text : String} (ascii : isAscii text = true) :
    text.toList = asciiChars text := by
  unfold isAscii asciiChars at *
  rw [textBytes_eq] at ascii ⊢
  generalize text.toList = cs at ascii ⊢
  induction cs with
  | nil => rfl
  | cons c cs ih =>
    rw [utf8Encode_cons, List.all_append, Bool.and_eq_true] at ascii
    rw [utf8Encode_cons, List.map_append, ← ih ascii.2]
    rcases utf8EncodeChar_cases c with ⟨small, one⟩ | ⟨-, big⟩
    · have byte : (UInt8.ofNat c.toNat).toNat = c.toNat := by
        rw [UInt8.toNat_ofNat']
        omega
      rw [one, List.map_singleton, byte, Char.ofNat_toNat, List.singleton_append]
    · exfalso
      have first := List.all_eq_true.mp ascii.1
      have notNil : String.utf8EncodeChar c ≠ [] := by
        intro none
        have length := String.length_utf8EncodeChar c
        rw [none, List.length_nil] at length
        exact absurd c.utf8Size_pos (length ▸ Nat.lt_irrefl 0)
      obtain ⟨b, rest, isCons⟩ := List.exists_cons_of_ne_nil notNil
      have mem : b ∈ String.utf8EncodeChar c := isCons ▸ List.mem_cons_self
      have low := of_decide_eq_true (first b mem)
      have high := big b mem
      omega

/-- The length of an ASCII text between quotes. -/
def quotedSize (text : String) : Nat :=
  ((asciiChars text).map fun c => (escapeChar c).length).sum + 2

theorem length_quoted {text : String} (ascii : isAscii text = true) :
    ('"' :: dumpsString text.toList).length = quotedSize text := by
  rw [dumpsString, List.length_cons, List.length_append, List.length_flatMap, List.length_singleton,
    toList_of_isAscii ascii, quotedSize]

namespace Json

mutual

/-- All texts of the value are ASCII. -/
def plain : Json → Bool
  | .null | .bool _ => true
  | .num n => isAscii n.text
  | .str s => isAscii s
  | .arr items => plainItems items
  | .obj fields => plainFields fields

def plainItems : List Json → Bool
  | [] => true
  | v :: vs => v.plain && plainItems vs

def plainFields : List (String × Json) → Bool
  | [] => true
  | (k, v) :: fields => isAscii k && v.plain && plainFields fields

end

mutual

/-- The length of the text of a value whose texts are ASCII. -/
def size : Json → Nat
  | .null => 4
  | .bool b => if b then 4 else 5
  | .num n => (asciiChars n.text).length
  | .str s => quotedSize s
  | .arr items => 1 + sizeItems items
  | .obj fields => 1 + sizeFields fields

/-- The length behind the opening bracket. -/
def sizeItems : List Json → Nat
  | [] => 1
  | [v] => v.size + 1
  | v :: w :: vs => v.size + 2 + sizeItems (w :: vs)

/-- The length behind the opening brace. -/
def sizeFields : List (String × Json) → Nat
  | [] => 1
  | [(k, v)] => quotedSize k + 2 + v.size + 1
  | (k, v) :: f :: fs => quotedSize k + 2 + v.size + 2 + sizeFields (f :: fs)

end

end Json

mutual

/-- The length of the text of a plain value. -/
theorem length_dumps : (v : Json) → v.plain = true → (dumps v).length = v.size
  | .null, _ => by decide +kernel
  | .bool true, _ => by decide +kernel
  | .bool false, _ => by decide +kernel
  | .num n, ascii => by rw [dumps, toList_of_isAscii ascii, Json.size]
  | .str s, ascii => length_quoted ascii
  | .arr items, plain => by
    rw [dumps, List.length_cons, length_dumpsItems items plain, Json.size]
    omega
  | .obj fields, plain => by
    rw [dumps, List.length_cons, length_dumpsFields fields plain, Json.size]
    omega

theorem length_dumpsItems : (vs : List Json) → Json.plainItems vs = true →
    (dumpsItems vs).length = Json.sizeItems vs
  | [], _ => rfl
  | [v], plain => by
    rw [Json.plainItems, Bool.and_eq_true] at plain
    rw [dumpsItems, List.length_append, length_dumps v plain.1, Json.sizeItems]
    rfl
  | v :: w :: vs, plain => by
    rw [Json.plainItems, Bool.and_eq_true] at plain
    rw [dumpsItems, List.length_append, length_dumps v plain.1, List.length_cons, List.length_cons,
      length_dumpsItems (w :: vs) plain.2, Json.sizeItems]
    omega

theorem length_dumpsFields : (fields : List (String × Json)) → Json.plainFields fields = true →
    (dumpsFields fields).length = Json.sizeFields fields
  | [], _ => rfl
  | [(k, v)], plain => by
    rw [Json.plainFields, Bool.and_eq_true, Bool.and_eq_true] at plain
    have quoted := length_quoted plain.1.1
    have value := length_dumps v plain.1.2
    rw [List.length_cons] at quoted
    rw [dumpsFields, List.length_cons, List.length_append, List.length_cons, List.length_cons,
      List.length_append, value, Json.sizeFields, List.length_singleton]
    omega
  | (k, v) :: f :: fs, plain => by
    rw [Json.plainFields, Bool.and_eq_true, Bool.and_eq_true] at plain
    have quoted := length_quoted plain.1.1
    have value := length_dumps v plain.1.2
    have rest := length_dumpsFields (f :: fs) plain.2
    rw [List.length_cons] at quoted
    rw [dumpsFields, List.length_cons, List.length_append, List.length_cons, List.length_cons,
      List.length_append, List.length_cons, List.length_cons, value, rest, Json.sizeFields]
    omega

end

end AgentPark.Lib
