import AgentPark.Lib.JsonText
import AgentPark.Lib.Lines

/-!
# Files of JSON objects, one in a line

A program that appends an object to such a file writes the object and a line break; it reads the
file as a whole, skips blank lines, and stops at the first line that is not an object.
-/

namespace AgentPark.Lib

/-- The errors of reading a file of objects, with the line they name. -/
inductive LineError where
  | invalidJson (line : Nat)
  | notObject (line : Nat)
  | invalidUtf8
deriving DecidableEq

/-- A blank line holds no object. -/
def parseObject (line : List Char) (n : Nat) : Except LineError (Option Json) :=
  let text := stripList pyIsSpace line
  if text.isEmpty then .ok none
  else
    match loads text with
    | none => .error (.invalidJson n)
    | some (.obj fields) => .ok (some (.obj fields))
    | some _ => .error (.notObject n)

/-- The objects of the lines from line number `n` on. -/
def parseObjects : Nat → List (List Char) → Except LineError (List Json)
  | _, [] => .ok []
  | n, line :: lines => do
    let object ← parseObject line n
    let objects ← parseObjects (n + 1) lines
    return object.toList ++ objects

def readObjects (bytes : List UInt8) : Except LineError (List Json) :=
  match utf8Decode bytes with
  | none => .error .invalidUtf8
  | some text => parseObjects 1 ((universalNewlines text).splitOn '\n')

/-- The bytes that append an object. -/
def objectLine (v : Json) : List UInt8 := utf8Encode (dumps v ++ ['\n'])

def IsObject (v : Json) : Prop := ∃ fields, v = .obj fields ∧ v.UniqueKeys

theorem dumps_object {v : Json} (object : IsObject v) : ∃ cs, dumps v = '{' :: (cs ++ ['}']) := by
  obtain ⟨fields, rfl, -⟩ := object
  obtain ⟨cs, eq⟩ := dumpsFields_last fields
  exact ⟨cs, by rw [dumps, eq]⟩

theorem parseObject_dumps {v : Json} (object : IsObject v) (n : Nat) :
    parseObject (dumps v) n = .ok (some v) := by
  obtain ⟨cs, eq⟩ := dumps_object object
  have stripped : stripList pyIsSpace (dumps v) = dumps v := by
    rw [eq, stripList_of_ends (by decide) (by decide)]
  have notEmpty : (dumps v).isEmpty = false := by
    rw [eq]
    rfl
  obtain ⟨fields, isObj, unique⟩ := object
  rw [parseObject, stripped, notEmpty, loads_dumps unique, isObj]
  rfl

theorem parseObjects_dumps {vs : List Json} (objects : ∀ v ∈ vs, IsObject v)
    {last : List Char} {rest : List Json}
    (parsed : ∀ n, parseObjects n [last] = .ok rest) (n : Nat) :
    parseObjects n (vs.map dumps ++ [last]) = .ok (vs ++ rest) := by
  induction vs generalizing n with
  | nil => exact parsed n
  | cons v vs ih =>
    obtain ⟨first, later⟩ := List.forall_mem_cons.mp objects
    rw [List.map_cons, List.cons_append, parseObjects, parseObject_dumps first, ih later]
    rfl

theorem noLineBreak_dumps (v : Json) : '\n' ∉ dumps v ∧ '\r' ∉ dumps v := by
  constructor
  all_goals
    intro mem
    have := lineBreak_not_mem_dumps v _ mem
    revert this
    decide

theorem flatMap_objectLine (vs : List Json) :
    vs.flatMap objectLine = utf8Encode ((vs.map dumps).flatMap fun line => line ++ ['\n']) := by
  rw [List.flatMap_map, utf8Encode, List.flatMap_assoc]
  rfl

theorem readObjects_append {vs : List Json} (objects : ∀ v ∈ vs, IsObject v) {last : List Char}
    (plain : '\n' ∉ last) (noReturn : '\r' ∉ last) {rest : List Json}
    (parsed : ∀ n, parseObjects n [last] = .ok rest) :
    readObjects (vs.flatMap objectLine ++ utf8Encode last) = .ok (vs ++ rest) := by
  have noReturns : '\r' ∉ ((vs.map dumps).flatMap fun line => line ++ ['\n']) ++ last := by
    intro mem
    rcases List.mem_append.mp mem with mem | mem
    · obtain ⟨line, inLines, mem⟩ := List.mem_flatMap.mp mem
      obtain ⟨v, -, rfl⟩ := List.mem_map.mp inLines
      rcases List.mem_append.mp mem with inLine | isBreak
      · exact (noLineBreak_dumps v).2 inLine
      · revert isBreak
        decide
    · exact noReturn mem
  have noBreak : ∀ line ∈ vs.map dumps, '\n' ∉ line := by
    intro line inLines
    obtain ⟨v, -, rfl⟩ := List.mem_map.mp inLines
    exact (noLineBreak_dumps v).1
  rw [readObjects, flatMap_objectLine, ← utf8Encode_append, utf8Decode_utf8Encode]
  dsimp only
  rw [universalNewlines_eq noReturns, splitOn_flatMap_append noBreak plain,
    parseObjects_dumps objects parsed]

/-- What was written is read back, and so is an object behind which the line break is missing. -/
theorem readObjects_lines {vs : List Json} (objects : ∀ v ∈ vs, IsObject v) :
    readObjects (vs.flatMap objectLine) = .ok vs := by
  have read : readObjects (vs.flatMap objectLine ++ utf8Encode []) = .ok (vs ++ []) :=
    readObjects_append objects List.not_mem_nil List.not_mem_nil fun _ => rfl
  rw [utf8Encode_nil, List.append_nil, List.append_nil] at read
  exact read

theorem readObjects_open {vs : List Json} (objects : ∀ v ∈ vs, IsObject v) {v : Json}
    (object : IsObject v) :
    readObjects (vs.flatMap objectLine ++ utf8Encode (dumps v)) = .ok (vs ++ [v]) := by
  obtain ⟨plain, noReturn⟩ := noLineBreak_dumps v
  refine readObjects_append objects plain noReturn fun n => ?_
  rw [parseObjects, parseObject_dumps object]
  rfl

end AgentPark.Lib
