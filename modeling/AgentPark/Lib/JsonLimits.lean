import AgentPark.Lib.JsonText

/-!
# Texts at which the JSON reader stops

`json.loads` raises a plain `ValueError`, no `JSONDecodeError`, at an integer of more than 4300 digits,
and an escape may stand for a lone surrogate, which is no character here.  `obstacle` walks a text the
way `loads` reads it and says which of the two it comes to first, when it comes to one before an error
of the text.

A number that is read is written anew: `Json.renumber`.
-/

namespace AgentPark.Lib

/-- `sys.get_int_max_str_digits()` -/
def intMaxStrDigits : Nat := 4300

/-- What stops the reader: the digits of an integer, or an escape for a lone surrogate. -/
inductive Obstacle
  | digits (count : Nat)
  | surrogate
deriving DecidableEq

/-- The text behind the digits makes a float of them. -/
def isFloatTail : List Char → Bool
  | '.' :: d :: _ => d.isDigit
  | e :: '-' :: d :: _ | e :: '+' :: d :: _ => (e == 'e' || e == 'E') && d.isDigit
  | e :: d :: _ => (e == 'e' || e == 'E') && d.isDigit
  | _ => false

/-- The text behind the sign of a number. -/
def unsignedText : List Char → List Char
  | '-' :: cs => cs
  | cs => cs

/-- `_match_number` at an integer: a zero in front is a number of its own. -/
def obstacleWord (cs : List Char) : Option Obstacle :=
  let digits := (unsignedText cs).takeWhile Char.isDigit
  if (unsignedText cs).head? ≠ some '0' ∧ intMaxStrDigits < digits.length ∧
      isFloatTail ((unsignedText cs).dropWhile Char.isDigit) = false then
    some (.digits digits.length)
  else none

/-- The characters of a string, after `scanString`. -/
def obstacleString : Nat → List Char → Option Obstacle
  | 0, _ => none
  | _ + 1, '"' :: _ => none
  | fuel + 1, cs =>
    match scanChar cs, cs with
    | some (_, rest), _ => obstacleString fuel rest
    | none, '\\' :: 'u' :: rest => (scanHex rest).map fun _ => .surrogate
    | none, _ => none

mutual

/-- One value, after `scanValue`. -/
def obstacleValue : Nat → List Char → Option Obstacle
  | 0, _ => none
  | fuel + 1, '"' :: cs => obstacleString fuel cs
  | fuel + 1, '[' :: cs => obstacleItems fuel (skipSpace cs)
  | fuel + 1, '{' :: cs => obstacleFields fuel (skipSpace cs)
  | _ + 1, cs => obstacleWord cs

/-- The items of a list, after `scanItems`. -/
def obstacleItems : Nat → List Char → Option Obstacle
  | 0, _ => none
  | fuel + 1, cs =>
    match obstacleValue fuel cs, scanValue fuel cs with
    | some obstacle, _ => some obstacle
    | none, some (_, rest) =>
      match skipSpace rest with
      | ',' :: cs => obstacleItems fuel (skipSpace cs)
      | _ => none
    | none, none => none

/-- The entries of a dictionary, after `scanFields`. -/
def obstacleFields : Nat → List Char → Option Obstacle
  | 0, _ => none
  | fuel + 1, '"' :: cs =>
    match obstacleString fuel cs, scanString fuel cs with
    | some obstacle, _ => some obstacle
    | none, some (_, rest) =>
      match skipSpace rest with
      | ':' :: cs => obstacleValues fuel (skipSpace cs)
      | _ => none
    | none, none => none
  | _ + 1, _ => none

/-- The value of an entry and the entries behind it. -/
def obstacleValues : Nat → List Char → Option Obstacle
  | 0, _ => none
  | fuel + 1, cs =>
    match obstacleValue fuel cs, scanValue fuel cs with
    | some obstacle, _ => some obstacle
    | none, some (_, rest) =>
      match skipSpace rest with
      | ',' :: cs => obstacleFields fuel (skipSpace cs)
      | _ => none
    | none, none => none

end

/-- What `json.loads` comes to before it is done with the text. -/
def obstacle (cs : List Char) : Option Obstacle := obstacleValue (2 * cs.length + 2) (skipSpace cs)

theorem obstacle_digits {cs : List Char} (digits : ∀ c ∈ cs, c.isDigit = true) (head : cs.head? ≠ some '0')
    (many : intMaxStrDigits < cs.length) : obstacle cs = some (.digits cs.length) := by
  obtain ⟨c, cs, rfl⟩ : ∃ c rest, cs = c :: rest := by
    cases cs with
    | nil => exact absurd many (Nat.not_lt_zero _)
    | cons c rest => exact ⟨c, rest, rfl⟩
  have digit : c.isDigit = true := digits c List.mem_cons_self
  have notMinus : c ≠ '-' := by
    rintro rfl
    cases digit
  have word : isWordChar c = true := by simp [isWordChar, digit]
  have taken : (c :: cs).takeWhile Char.isDigit = c :: cs := List.takeWhile_eq_self_iff.mpr digits
  have left : (c :: cs).dropWhile Char.isDigit = [] := List.dropWhile_eq_nil_iff.mpr digits
  have isWord : obstacleWord (c :: cs) = some (.digits (c :: cs).length) := by
    have unsigned : unsignedText (c :: cs) = c :: cs := by
      rw [unsignedText]
      rintro rest ⟨rfl, -⟩
      exact notMinus rfl
    rw [obstacleWord, unsigned, taken, left, if_pos ⟨head, many, rfl⟩]
  rw [obstacle, skipSpace_cons (isJsonSpace_of_word word), obstacleValue, isWord]
  all_goals
    rintro rest ⟨rfl, -⟩
    cases digit

example : obstacle "[1, \x7b\"a\": [\"\\ud800\"]\x7d".toList = some .surrogate := by decide +kernel

namespace Json

mutual

/-- The value with its numbers written anew. -/
def renumber (text : Number → Number) : Json → Json
  | .num n => .num (text n)
  | .arr items => .arr (renumberItems text items)
  | .obj fields => .obj (renumberFields text fields)
  | v => v

def renumberItems (text : Number → Number) : List Json → List Json
  | [] => []
  | v :: vs => renumber text v :: renumberItems text vs

def renumberFields (text : Number → Number) : List (String × Json) → List (String × Json)
  | [] => []
  | (key, v) :: rest => (key, renumber text v) :: renumberFields text rest

end

end Json

/-- `json.dumps` of the number that a literal stands for: an integer keeps its digits. -/
def numberText (floatText : Number → Number) (n : Number) : Number :=
  if n.text = "-0" then ⟨"0", by decide⟩
  else if n.text.toList.all fun c => c.isDigit || c == '-' then n
  else floatText n

end AgentPark.Lib
